import Sidecar.Coordinator.Replacement
import Sidecar.Coordinator.Representation

namespace Sidecar.Coordinator

variable (cfg : Config)

/-- What peers and the builder leave alone: peers name no instance in the way this sidecar names
its own, and the builder confirms only decided instances. -/
structure FromOutside (st : CoordinatorState) (op : Op) : Prop where
  foreign : ∀ seq, op.registers cfg st ≠ some (InstanceId.standalone cfg.chainId seq, .forwarded)
  confirmed : ∀ ids now, op = .confirm ids now → ∀ id ∈ ids, ∀ xt,
    st.pending.lookup id = some xt → xt.decision.isSome = true

def fingerprintOf (xt : PendingXt) : String := cfg.xtRequestFingerprint (buildXtRequest xt.rawTxs)

/-- The submissions and their fingerprints lead to each other, and only decided instances have
the time that `cleanup` measures from. -/
structure BookInv (st : CoordinatorState) : Prop where
  fingerprint : FingerprintInv cfg st
  numbers : NumbersGiven cfg st
  listed : ∀ seq xt, st.pending.lookup (InstanceId.standalone cfg.chainId seq) = some xt →
    st.submittedFingerprints.lookup (fingerprintOf cfg xt) =
      some (InstanceId.standalone cfg.chainId seq)
  settled : ∀ id xt, st.pending.lookup id = some xt → (settledAt xt).isSome = true →
    xt.decision.isSome = true

variable {cfg} {st : CoordinatorState} {op : Op}

theorem bookInv_initial : BookInv cfg {} :=
  ⟨fingerprintInv_initial, fun _ h => absurd h (AList.notMem_empty _),
    fun _ _ h => by simp at h, fun _ _ h => by simp at h⟩

/-- Only a submission registers an instance under this sidecar's own names. -/
theorem FromOutside.route (hop : FromOutside cfg st op) {seq : SequenceNumber} {route : Route}
    (hr : op.registers cfg st = some (InstanceId.standalone cfg.chainId seq, route)) :
    route = .submitted := by
  obtain ⟨xt, hid, has, -⟩ := registeredAs hr
  cases has with
  | submitted txs => exact (registers_submitXt cfg st hr).1
  | forwarded id txs originChain originSeq hnew =>
    obtain ⟨-, rfl, -⟩ := registers_forwardXt cfg st hr
    exact absurd hr (hop.foreign seq)
  | started inst hnew =>
    exact absurd hid.symm (InstanceId.standalone_ne_fromPublisherBytes cfg.chainId seq inst.id)

theorem FromOutside.leavesNumbers (hop : FromOutside cfg st op) : LeavesNumbers cfg st op :=
  fun seq hr => absurd hr (hop.foreign seq)

/-- A submission that is registered is found under its fingerprint. -/
theorem listed_submitXt {txs : RawTxs} {id : InstanceId} {sub : Option XtBuilderSubmission}
    (h : (submitXt cfg st txs).2 = .registered id sub) :
    (submitXt cfg st txs).1.submittedFingerprints.lookup
      (cfg.xtRequestFingerprint (buildXtRequest txs)) = some id := by
  have heffect := submitXt_effect cfg st txs
  generalize submitXt cfg st txs = r at h heffect ⊢
  cases heffect with
  | rejected | duplicate | full => simp at h
  | registered =>
    rw [← (SubmitOutcome.registered.inj h).1]
    exact AList.lookup_insert _

/-- A submission leaves the fingerprints of pending instances alone. -/
theorem listed_kept_submitXt (txs : RawTxs) {fingerprint : String} {id : InstanceId}
    (hf : st.submittedFingerprints.lookup fingerprint = some id) (hmem : id ∈ st.pending) :
    (submitXt cfg st txs).1.submittedFingerprints.lookup fingerprint = some id := by
  have hother : (∀ i, st.submittedFingerprints.lookup
      (cfg.xtRequestFingerprint (buildXtRequest txs)) = some i → i ∉ st.pending) →
      fingerprint ≠ cfg.xtRequestFingerprint (buildXtRequest txs) := by
    rintro hstale rfl
    exact hstale id hf hmem
  have heffect := submitXt_effect cfg st txs
  generalize submitXt cfg st txs = r at heffect ⊢
  cases heffect with
  | rejected | duplicate => exact hf
  | full hstale => exact (AList.lookup_erase_ne (hother hstale)).trans hf
  | registered hxt hstale =>
    exact (AList.lookup_insert_ne (hother hstale)).trans
      ((AList.lookup_erase_ne (hother hstale)).trans hf)

/-- A fingerprint is kept as long as its instance is pending. -/
theorem listed_kept {fingerprint : String} {id : InstanceId}
    (hf : st.submittedFingerprints.lookup fingerprint = some id) (hmem : id ∈ st.pending)
    (hstays : id ∈ (op.apply cfg st).pending) :
    (op.apply cfg st).submittedFingerprints.lookup fingerprint = some id := by
  cases hmoves : op.movesFingerprints with
  | false =>
    rw [fingerprints_apply hmoves]
    exact hf
  | true =>
    cases op with
    | submitXt txs => exact listed_kept_submitXt txs hf hmem
    | removePending closed i =>
      simp only [Op.apply, removePendingXt] at hstays ⊢
      split
      · exact hf
      · next xt hl =>
        simp only [hl, AList.mem_erase] at hstays
        simp only [Map.lookup_retain, hf, Option.filter_some]
        exact if_pos (by simpa using hstays.1)
    | cleanup closed now maxAge =>
      simp only [Op.apply, cleanup, Map.lookup_retain, hf, Option.filter_some]
      exact if_pos (decide_eq_true hstays)
    | _ => simp [Op.movesFingerprints] at hmoves

/-- Counting votes leaves an instance alone or decides it. -/
theorem settled_standaloneDecision {chainId : ChainId} {xt : PendingXt} {now : Instant}
    (h : (settledAt xt).isSome = true → xt.decision.isSome = true)
    (hs : (settledAt (maybeMakeStandaloneDecision chainId xt now).1).isSome = true) :
    (maybeMakeStandaloneDecision chainId xt now).1.decision.isSome = true := by
  rcases standaloneDecision_cases chainId xt now with he | ⟨-, -, _, _, he⟩ | ⟨-, -, _, _, he⟩
  · rw [he] at hs ⊢
    exact h hs
  · rw [he]
    rfl
  · rw [he]
    rfl

theorem settled_entryStep {id : InstanceId} {xt xt' : PendingXt} (h : EntryStep cfg op id xt xt')
    (hconfirm : ∀ ids now, op ≠ .confirm ids now)
    (hxt : (settledAt xt).isSome = true → xt.decision.isSome = true)
    (hs : (settledAt xt').isSome = true) : xt'.decision.isSome = true := by
  cases h with
  | voted _ vote standalone now _ =>
    rw [castVote_eq] at hs ⊢
    cases standalone with
    | false => exact hxt hs
    | true => exact settled_standaloneDecision hxt hs
  | peerVoted _ chainId vote now _ _ => exact settled_standaloneDecision hxt hs
  | decided => rfl
  | outdated =>
    unfold abortUndecided at hs ⊢
    split_ifs at hs ⊢
    · rfl
    · exact hxt hs
  | rolledBack =>
    unfold forceAbort at hs ⊢
    split_ifs at hs ⊢
    · rfl
    · exact hxt hs
  | confirmed _ ids now => exact absurd rfl (hconfirm ids now)
  | recorded _ result =>
    obtain ⟨depKeys, dependencies, outbound, he⟩ := recordResult_frame xt result
    rw [he] at hs ⊢
    exact hxt hs
  | fulfilled _ deps =>
    obtain ⟨mailbox, fulfilled, keys, he⟩ := fulfillXt_frame xt deps
    rw [he] at hs ⊢
    exact hxt hs
  | dispatched =>
    rw [claimOutbound_eq] at hs ⊢
    exact hxt hs
  | same | delivered | locked => exact hxt hs

/-- A confirmation writes the time into the instances it names. -/
theorem lookup_confirm (ids : List InstanceId) (now : Instant) (id : InstanceId) :
    (confirmIncluded st ids now).pending.lookup id =
      if id ∈ ids then
        (st.pending.lookup id).map (fun xt => { xt with confirmedAt := some now })
      else st.pending.lookup id := by
  induction ids generalizing st with
  | nil => rfl
  | cons i ids ih =>
    have hstep := lookup_updateXt st i id (fun xt => { xt with confirmedAt := some now })
    have hcons : (confirmIncluded st (i :: ids) now).pending.lookup id =
        (confirmIncluded (st.updateXt i (fun xt => { xt with confirmedAt := some now })) ids
          now).pending.lookup id := rfl
    rw [hcons, ih, hstep]
    by_cases hi : id = i
    · by_cases hmem : id ∈ ids
      · simp only [hi, List.mem_cons, true_or, if_true] at hmem ⊢
        rw [if_pos hmem]
        simp [Option.map_map, Function.comp_def]
      · simp only [hi, List.mem_cons, true_or, if_true] at hmem ⊢
        rw [if_neg hmem]
    · simp [hi]

theorem settled_apply (h : BookInv cfg st) (hop : FromOutside cfg st op) {id : InstanceId}
    {xt' : PendingXt} (hl' : (op.apply cfg st).pending.lookup id = some xt')
    (hs : (settledAt xt').isSome = true) : xt'.decision.isSome = true := by
  by_cases hreg : ∃ route, op.registers cfg st = some (id, route)
  · obtain ⟨route, hr⟩ := hreg
    obtain ⟨-, has⟩ := registeredAs_of_lookup hr hl'
    cases has <;> simp [settledAt, standaloneXt, attachBuffered, forwardedXt, startedXt] at hs
  · have hno : ∀ route, op.registers cfg st ≠ some (id, route) := fun route hr => hreg ⟨route, hr⟩
    obtain ⟨xt, hl, hstep⟩ := entryStep hno hl'
    by_cases hconfirm : ∃ ids now, op = .confirm ids now
    · obtain ⟨ids, now, rfl⟩ := hconfirm
      have hwritten : (confirmIncluded st ids now).pending.lookup id = some xt' := hl'
      rw [lookup_confirm, hl] at hwritten
      split_ifs at hwritten with hmem
      · rw [← Option.some.inj hwritten]
        exact hop.confirmed ids now rfl id hmem xt hl
      · rw [← Option.some.inj hwritten] at hs ⊢
        exact h.settled id xt hl hs
    · exact settled_entryStep hstep (fun ids now he => hconfirm ⟨ids, now, he⟩)
        (h.settled id xt hl) hs

theorem listed_apply (h : BookInv cfg st) (hop : FromOutside cfg st op) {seq : SequenceNumber}
    {xt' : PendingXt}
    (hl' : (op.apply cfg st).pending.lookup (InstanceId.standalone cfg.chainId seq) = some xt') :
    (op.apply cfg st).submittedFingerprints.lookup (fingerprintOf cfg xt') =
      some (InstanceId.standalone cfg.chainId seq) := by
  by_cases hreg : ∃ route, op.registers cfg st =
      some (InstanceId.standalone cfg.chainId seq, route)
  · obtain ⟨route, hr⟩ := hreg
    obtain rfl := hop.route hr
    obtain ⟨-, has⟩ := registeredAs_of_lookup hr hl'
    cases has with
    | submitted txs =>
      obtain ⟨-, sub, ho⟩ := registers_submitXt cfg st hr
      exact listed_submitXt ho
    | forwarded => exact absurd (registers_forwardXt cfg st hr).2.1 (by decide)
    | started => exact absurd (registers_startInstance cfg st hr).2.1 (by decide)
  · obtain ⟨xt, hl, hsame⟩ := entry_kept (fun route hr => hreg ⟨route, hr⟩) hl'
    have hprint : fingerprintOf cfg xt' = fingerprintOf cfg xt := by
      rw [fingerprintOf, fingerprintOf, hsame.rawTxs_eq]
    rw [hprint]
    exact listed_kept (h.listed seq xt hl) (Map.mem_of_lookup hl) (Map.mem_of_lookup hl')

theorem bookInv_apply (h : BookInv cfg st) (hop : FromOutside cfg st op) :
    BookInv cfg (op.apply cfg st) :=
  ⟨fingerprintInv_step h.fingerprint op, numbersGiven_apply h.numbers hop.leavesNumbers,
    fun _ _ hl' => listed_apply h hop hl', fun _ _ hl' hs => settled_apply h hop hl' hs⟩

/-- Pending submissions with one fingerprint are one submission. -/
theorem BookInv.one_per_fingerprint (h : BookInv cfg st) {seq seq' : SequenceNumber}
    {xt xt' : PendingXt} (hl : st.pending.lookup (InstanceId.standalone cfg.chainId seq) = some xt)
    (hl' : st.pending.lookup (InstanceId.standalone cfg.chainId seq') = some xt')
    (hprint : fingerprintOf cfg xt = fingerprintOf cfg xt') :
    InstanceId.standalone cfg.chainId seq = InstanceId.standalone cfg.chainId seq' := by
  have hlisted := h.listed seq xt hl
  rw [hprint, h.listed seq' xt' hl'] at hlisted
  exact (Option.some.inj hlisted).symm

end Sidecar.Coordinator
