import Sidecar.Coordinator.MailboxConservation

namespace Sidecar.Coordinator

/-- The four maps of the state fit together and keep within their caps. -/
structure Represented (cfg : Config) (st : CoordinatorState) : Prop where
  index_exact : ∀ rawId id, st.mailboxIndex.lookup rawId = some id ↔
    ∃ xt, st.pending.lookup id = some xt ∧ xt.instanceId = rawId
  fingerprints : ∀ fingerprint id, st.submittedFingerprints.lookup fingerprint = some id →
    ∃ xt, st.pending.lookup id = some xt ∧
      cfg.xtRequestFingerprint (buildXtRequest xt.rawTxs) = fingerprint
  undecided : st.undecidedCount ≤ maxPendingXts
  buffer_keys : st.mailboxBuffer.keys.length ≤ mailboxBufferMaxKeys
  buckets : ∀ rawId msgs, st.mailboxBuffer.lookup rawId = some msgs →
    1 ≤ msgs.length ∧ msgs.length ≤ mailboxBufferMaxPerKey ∧
      ∀ msg ∈ msgs, msg.instanceId = rawId

section Names

variable (cfg : Config)

/-- The identifiers that a run can give to instances without a publisher: those of this
sidecar, and those of the forwarded ones. -/
def GivenName (ops : List Op) (id : InstanceId) : Prop :=
  (∃ seq, id = InstanceId.standalone cfg.chainId seq) ∨
    ∃ txs originChain originSeq, .forwardXt id txs originChain originSeq ∈ ops

/-- No identifier of the publisher has the bytes of a given name. -/
def NamesApart (ops : List Op) : Prop :=
  ∀ inst, .startInstance inst ∈ ops → ∀ id, GivenName cfg ops id →
    inst.id ≠ InstanceId.asBytes id

/-- Where the raw id of a pending instance comes from. -/
def NamedIn (ops : List Op) (id : InstanceId) (rawId : Bytes) : Prop :=
  (rawId = InstanceId.asBytes id ∧ GivenName cfg ops id) ∨
    (id = InstanceId.fromPublisherBytes rawId ∧ ∃ inst, .startInstance inst ∈ ops ∧ inst.id = rawId)

variable {cfg} {ops : List Op}

theorem asBytes_inj {id id' : InstanceId} (h : InstanceId.asBytes id = InstanceId.asBytes id') :
    id = id' := by
  have hbytes : id.toByteArray = id'.toByteArray := by
    apply ByteArray.ext
    apply Array.toList_inj.mp
    exact h
  exact String.toByteArray_inj.mp hbytes

/-- Names that stay apart give every raw id to one instance. -/
theorem NamedIn.unique (hapart : NamesApart cfg ops) {id id' : InstanceId} {rawId : Bytes}
    (h : NamedIn cfg ops id rawId) (h' : NamedIn cfg ops id' rawId) : id = id' := by
  rcases h with ⟨hraw, hgiven⟩ | ⟨hid, inst, hmem, hinst⟩
  · rcases h' with ⟨hraw', -⟩ | ⟨-, inst, hmem, hinst⟩
    · exact asBytes_inj (hraw.symm.trans hraw')
    · exact absurd (hinst.trans hraw) (hapart inst hmem id hgiven)
  · rcases h' with ⟨hraw', hgiven'⟩ | ⟨hid', -⟩
    · exact absurd (hinst.trans hraw') (hapart inst hmem id' hgiven')
    · exact hid.trans hid'.symm

theorem namedIn_of_registeredAs {st : CoordinatorState} {op : Op} {xt : PendingXt}
    (h : RegisteredAs cfg st op xt) (hop : op ∈ ops) : NamedIn cfg ops xt.id xt.instanceId := by
  cases h with
  | submitted txs => exact Or.inl ⟨rfl, Or.inl ⟨st.originSeq + 1, rfl⟩⟩
  | forwarded id txs originChain originSeq hnew =>
    exact Or.inl ⟨rfl, Or.inr ⟨txs, originChain, originSeq, hop⟩⟩
  | started inst hnew => exact Or.inr ⟨rfl, inst, hop, rfl⟩

end Names

section Index

variable {cfg : Config} {ops : List Op} {st : CoordinatorState}

/-- Every pending instance is named in the run and found through the index. -/
structure IndexInv (cfg : Config) (ops : List Op) (st : CoordinatorState) : Prop where
  named : ∀ id xt, st.pending.lookup id = some xt → NamedIn cfg ops id xt.instanceId
  indexed : ∀ id xt, st.pending.lookup id = some xt →
    st.mailboxIndex.lookup xt.instanceId = some id

theorem indexInv_initial : IndexInv cfg ops {} := by
  constructor
  · intro id xt h
    simp at h
  · intro id xt h
    simp at h

theorem named_step (h : IndexInv cfg ops st) {op : Op} (hop : op ∈ ops) {id : InstanceId}
    {xt : PendingXt} (hx : (op.apply cfg st).pending.lookup id = some xt) :
    NamedIn cfg ops id xt.instanceId := by
  by_cases hreg : ∃ route, op.registers cfg st = some (id, route)
  · obtain ⟨route, hr⟩ := hreg
    obtain ⟨hid, has⟩ := registeredAs_of_lookup hr hx
    have hnamed := namedIn_of_registeredAs has hop
    rwa [hid] at hnamed
  · obtain ⟨x, hl, hsame⟩ := entry_kept (fun route hr => hreg ⟨route, hr⟩) hx
    rw [hsame.instanceId_eq]
    exact h.named id x hl

/-- Two pending instances never share a raw id. -/
theorem IndexInv.unique (hapart : NamesApart cfg ops) (h : IndexInv cfg ops st)
    {id id' : InstanceId} {xt xt' : PendingXt} (hx : st.pending.lookup id = some xt)
    (hx' : st.pending.lookup id' = some xt') (hraw : xt.instanceId = xt'.instanceId) : id = id' := by
  have hnamed := h.named id xt hx
  rw [hraw] at hnamed
  exact hnamed.unique hapart (h.named id' xt' hx')

/-- A part that registers nothing and leaves the index alone. -/
theorem indexed_kept (h : IndexInv cfg ops st) {op : Op} (hreg : op.registers cfg st = none)
    (hsame : (op.apply cfg st).mailboxIndex = st.mailboxIndex) {id : InstanceId} {xt : PendingXt}
    (hx : (op.apply cfg st).pending.lookup id = some xt) :
    (op.apply cfg st).mailboxIndex.lookup xt.instanceId = some id := by
  obtain ⟨x, hl, hxt⟩ := entry_kept (fun route hr => by simp [hreg] at hr) hx
  rw [hsame, hxt.instanceId_eq]
  exact h.indexed id x hl

theorem indexed_admits (hapart : NamesApart cfg ops) (h : IndexInv cfg ops st) {op : Op}
    (hop : op ∈ ops) (hadmits : op.admits = true) {id : InstanceId} {xt : PendingXt}
    (hx : (op.apply cfg st).pending.lookup id = some xt) :
    (op.apply cfg st).mailboxIndex.lookup xt.instanceId = some id := by
  rcases admission_of_admits cfg st hadmits with ⟨-, hsame⟩ | ⟨new, hadm⟩
  · rw [hsame.1] at hx
    rw [hsame.2.1]
    exact h.indexed id xt hx
  · obtain ⟨entry, hpending, hraw, -, -⟩ := hadm.entry
    have hnew : (op.apply cfg st).pending.lookup new.id = some entry := by
      rw [hpending, AList.lookup_insert]
    rw [hadm.index, Map.lookup_insert_eq]
    split_ifs with hr
    · have hnamed := named_step h hop hnew
      rw [hraw, ← hr] at hnamed
      rw [hnamed.unique hapart (named_step h hop hx)]
    · have hne : id ≠ new.id := by
        intro hid
        rw [hid] at hx
        have he : entry = xt := Option.some.inj (hnew.symm.trans hx)
        rw [he] at hraw
        exact hr hraw
      rw [hpending, Map.lookup_insert_eq, if_neg hne] at hx
      exact h.indexed id xt hx

theorem indexed_step (hapart : NamesApart cfg ops) (h : IndexInv cfg ops st) {op : Op}
    (hop : op ∈ ops) {id : InstanceId} {xt : PendingXt}
    (hx : (op.apply cfg st).pending.lookup id = some xt) :
    (op.apply cfg st).mailboxIndex.lookup xt.instanceId = some id := by
  cases op with
  | submitXt | forwardXt | startInstance => exact indexed_admits hapart h hop rfl hx
  | removePending closed i =>
    simp only [Op.apply, removePendingXt] at hx ⊢
    cases hi : st.pending.lookup i with
    | none =>
      simp only [hi] at hx ⊢
      exact h.indexed id xt hx
    | some removed =>
      simp only [hi, Map.lookup_erase_eq] at hx ⊢
      split_ifs at hx with hid
      have hraw : xt.instanceId ≠ removed.instanceId := by
        intro hr
        exact hid (h.unique hapart hx hi hr)
      rw [if_neg hraw]
      exact h.indexed id xt hx
  | cleanup closed now maxAge =>
    rw [Op.apply, lookup_pending_cleanup] at hx
    obtain ⟨hl, hkeep⟩ := Option.filter_eq_some_iff.mp hx
    rw [Op.apply, lookup_mailboxIndex_cleanup]
    -- a raw id that goes belongs to an instance that goes
    have hstays : xt.instanceId ∉ cleanedRawIds st now maxAge := by
      intro hr
      obtain ⟨gone, hgone, hraw⟩ := List.mem_map.mp hr
      obtain ⟨hvalue, hold⟩ := List.mem_filter.mp hgone
      obtain ⟨i, hi⟩ := (Map.mem_values st.pending gone).mp hvalue
      have hid := h.unique hapart hi hl hraw
      rw [hid, hl] at hi
      rw [← Option.some.inj hi, hkeep] at hold
      simp at hold
    rw [if_neg hstays]
    exact h.indexed id xt hl
  | mailbox msg =>
    have hsame : ((Op.mailbox msg).apply cfg st).mailboxIndex = st.mailboxIndex :=
      mailboxIndex_deliverMailbox st msg
    exact indexed_kept h rfl hsame hx
  | rollback now => exact indexed_kept h rfl rfl hx
  | sendVote | peerVote | onDecision | startPeriod | confirm | enqueue | resolve | lockChain
    | recordSimulation | fulfill | dispatch =>
    exact indexed_kept h rfl (routes_of_leavesRoutes cfg st _ rfl).1 hx

end Index

section Fingerprints

variable {cfg : Config} {st : CoordinatorState}

/-- Every fingerprint leads to a pending instance of this sidecar with those transactions. -/
structure FingerprintInv (cfg : Config) (st : CoordinatorState) : Prop where
  entry : ∀ fingerprint id, st.submittedFingerprints.lookup fingerprint = some id →
    ∃ xt, st.pending.lookup id = some xt ∧
      cfg.xtRequestFingerprint (buildXtRequest xt.rawTxs) = fingerprint
  numbered : ∀ fingerprint id, st.submittedFingerprints.lookup fingerprint = some id →
    ∃ seq, seq ≤ st.originSeq ∧ id = InstanceId.standalone cfg.chainId seq

theorem fingerprintInv_initial : FingerprintInv cfg {} := by
  constructor
  · intro fingerprint id h
    simp at h
  · intro fingerprint id h
    simp at h

/-- The locked parts that write or prune fingerprints. -/
def Op.movesFingerprints : Op → Bool
  | .submitXt _ | .removePending _ _ | .cleanup _ _ _ => true
  | _ => false

theorem fingerprints_apply {op : Op} (h : op.movesFingerprints = false) :
    (op.apply cfg st).submittedFingerprints = st.submittedFingerprints := by
  have hregistry : op.keepsRegistry = true →
      (op.apply cfg st).submittedFingerprints = st.submittedFingerprints :=
    fun hkeeps => congrArg Registry.submittedFingerprints (registry_apply cfg st hkeeps)
  cases op with
  | submitXt | removePending | cleanup => simp [Op.movesFingerprints] at h
  | forwardXt id txs originChain originSeq =>
    rcases forwardXt_cases cfg st id txs originChain originSeq with ⟨-, hs⟩ | ⟨-, -, hs⟩
    · rw [Op.apply, hs]
    · rw [Op.apply, hs]
      rfl
  | startInstance inst =>
    rcases registerStarted_cases cfg st inst with ⟨-, hs⟩ | ⟨period, -, -, hs⟩
    · rw [Op.apply, hs]
    · rw [Op.apply, hs]
      rfl
  | mailbox msg => exact congrArg Registry.submittedFingerprints (registry_deliverMailbox st msg)
  | startPeriod | rollback => rfl
  | sendVote | peerVote | onDecision | confirm | enqueue | resolve | lockChain | recordSimulation
    | fulfill | dispatch => exact hregistry rfl

/-- An instance that a fingerprint leads to is not registered anew. -/
theorem FingerprintInv.not_registered (h : FingerprintInv cfg st) {fingerprint : String}
    {id : InstanceId} (hf : st.submittedFingerprints.lookup fingerprint = some id) (op : Op)
    (route : Route) : op.registers cfg st ≠ some (id, route) := by
  intro hr
  obtain ⟨xt, hid, hreg, -⟩ := registeredAs hr
  obtain ⟨old, hold, -⟩ := h.entry fingerprint id hf
  have hpending : id ∈ st.pending := Map.mem_of_lookup hold
  cases hreg with
  | submitted txs =>
    obtain ⟨seq, hle, hseq⟩ := h.numbered fingerprint id hf
    have hsame : st.originSeq + 1 = seq := (InstanceId.standalone_inj (hid.trans hseq)).2
    exact absurd hle (by rw [← hsame]; exact Nat.not_succ_le_self _)
  | forwarded i txs originChain originSeq hnew =>
    have hi : i = id := hid
    exact hnew (hi ▸ hpending)
  | started inst hnew =>
    have hi : InstanceId.fromPublisherBytes inst.id = id := hid
    exact hnew (hi ▸ hpending)

/-- A submission keeps the fingerprints it does not find stale and adds its own. -/
theorem fingerprints_submitXt (txs : RawTxs) {fingerprint : String} {id : InstanceId}
    (hf : (submitXt cfg st txs).1.submittedFingerprints.lookup fingerprint = some id) :
    st.submittedFingerprints.lookup fingerprint = some id ∨
      (fingerprint = cfg.xtRequestFingerprint (buildXtRequest txs) ∧
        id = InstanceId.standalone cfg.chainId (st.originSeq + 1) ∧
        (submitXt cfg st txs).1.originSeq = st.originSeq + 1 ∧
        (submitXt cfg st txs).1.pending.lookup id =
          some (standaloneXt cfg (st.originSeq + 1) txs)) := by
  have h := submitXt_effect cfg st txs
  generalize submitXt cfg st txs = r at h hf ⊢
  cases h with
  | rejected | duplicate => exact Or.inl hf
  | full hstale hfull =>
    rw [Map.lookup_erase_eq] at hf
    split_ifs at hf
    exact Or.inl hf
  | registered hxt hstale hroom =>
    subst hxt
    rw [Map.lookup_insert_eq] at hf
    split_ifs at hf with hown
    · obtain rfl := Option.some.inj hf
      exact Or.inr ⟨hown, rfl, rfl, AList.lookup_insert _⟩
    · rw [Map.lookup_erase_eq, if_neg hown] at hf
      exact Or.inl hf

/-- A removal drops the fingerprints of the instance. -/
theorem fingerprints_removePending (h : FingerprintInv cfg st) {closed : Waiter → Bool}
    {i id : InstanceId} {fingerprint : String}
    (hf : (removePendingXt closed st i).submittedFingerprints.lookup fingerprint = some id) :
    st.submittedFingerprints.lookup fingerprint = some id ∧ id ≠ i := by
  unfold removePendingXt at hf
  cases hi : st.pending.lookup i with
  | none =>
    rw [hi] at hf
    refine ⟨hf, fun hid => ?_⟩
    obtain ⟨xt, hl, -⟩ := h.entry fingerprint id hf
    rw [hid, hi] at hl
    simp at hl
  | some xt =>
    rw [hi] at hf
    simp only [Map.lookup_retain, Option.filter_eq_some_iff] at hf
    exact ⟨hf.1, by simpa using hf.2⟩

/-- The cleanup keeps the fingerprints of the instances it keeps. -/
theorem fingerprints_cleanup {closed : Waiter → Bool} {now maxAge : Nat} {id : InstanceId}
    {fingerprint : String}
    (hf : (cleanup closed st now maxAge).submittedFingerprints.lookup fingerprint = some id) :
    st.submittedFingerprints.lookup fingerprint = some id ∧
      id ∈ (cleanup closed st now maxAge).pending := by
  simp only [cleanup, Map.lookup_retain, Option.filter_eq_some_iff] at hf
  exact ⟨hf.1, of_decide_eq_true hf.2⟩

/-- A fingerprint whose instance is still there after a locked part still leads to it. -/
theorem fingerprintInv_kept (h : FingerprintInv cfg st) {op : Op} {fingerprint : String}
    {id : InstanceId} (hmem : id ∈ (op.apply cfg st).pending)
    (hf : st.submittedFingerprints.lookup fingerprint = some id) :
    ∃ xt, (op.apply cfg st).pending.lookup id = some xt ∧
      cfg.xtRequestFingerprint (buildXtRequest xt.rawTxs) = fingerprint := by
  obtain ⟨xt', hl'⟩ := Map.lookup_of_mem hmem
  obtain ⟨xt, hl, hprint⟩ := h.entry fingerprint id hf
  obtain ⟨x, hx, hsame⟩ := entry_kept (h.not_registered hf op) hl'
  rw [Option.some.inj (hl.symm.trans hx)] at hprint
  exact ⟨xt', hl', by rw [hsame.rawTxs_eq]; exact hprint⟩

theorem fingerprintInv_survives (h : FingerprintInv cfg st) {op : Op} {fingerprint : String}
    {id : InstanceId} (hrem : op.removes id = false)
    (hf : st.submittedFingerprints.lookup fingerprint = some id) :
    ∃ xt, (op.apply cfg st).pending.lookup id = some xt ∧
      cfg.xtRequestFingerprint (buildXtRequest xt.rawTxs) = fingerprint := by
  obtain ⟨xt, hl, -⟩ := h.entry fingerprint id hf
  have hpresent : ∃ xt', (op.apply cfg st).pending.lookup id = some xt' := present_apply hl hrem
  obtain ⟨xt', hl'⟩ := hpresent
  exact fingerprintInv_kept h (Map.mem_of_lookup hl') hf

theorem fingerprintInv_step (h : FingerprintInv cfg st) (op : Op) :
    FingerprintInv cfg (op.apply cfg st) := by
  -- a fingerprint that was there before keeps its number
  have hnumber : ∀ fingerprint id, st.submittedFingerprints.lookup fingerprint = some id →
      ∃ seq, seq ≤ (op.apply cfg st).originSeq ∧ id = InstanceId.standalone cfg.chainId seq := by
    intro fingerprint id hf
    obtain ⟨seq, hle, hid⟩ := h.numbered fingerprint id hf
    exact ⟨seq, hle.trans (originSeq_mono cfg st op), hid⟩
  cases hmoves : op.movesFingerprints with
  | false =>
    have hsame := @fingerprints_apply cfg st op hmoves
    have hrem : ∀ id, op.removes id = false := by
      cases op with
      | submitXt | removePending | cleanup => simp [Op.movesFingerprints] at hmoves
      | _ => exact fun _ => rfl
    constructor
    · intro fingerprint id hf
      exact fingerprintInv_survives h (hrem id) (hsame ▸ hf)
    · intro fingerprint id hf
      exact hnumber fingerprint id (hsame ▸ hf)
  | true =>
    cases op with
    | submitXt txs =>
      constructor
      · intro fingerprint id hf
        rcases fingerprints_submitXt txs hf with hold | ⟨hprint, -, -, hl⟩
        · exact fingerprintInv_survives h rfl hold
        · exact ⟨_, hl, hprint.symm⟩
      · intro fingerprint id hf
        rcases fingerprints_submitXt txs hf with hold | ⟨-, hid, hseq, -⟩
        · exact hnumber fingerprint id hold
        · exact ⟨st.originSeq + 1, hseq.ge, hid⟩
    | removePending closed i =>
      constructor
      · intro fingerprint id hf
        obtain ⟨hold, hne⟩ := fingerprints_removePending h hf
        exact fingerprintInv_survives h (by simpa [Op.removes] using hne.symm) hold
      · intro fingerprint id hf
        exact hnumber fingerprint id (fingerprints_removePending h hf).1
    | cleanup closed now maxAge =>
      constructor
      · intro fingerprint id hf
        obtain ⟨hold, hmem⟩ := fingerprints_cleanup hf
        exact fingerprintInv_kept h hmem hold
      · intro fingerprint id hf
        exact hnumber fingerprint id (fingerprints_cleanup hf).1
    | _ => simp [Op.movesFingerprints] at hmoves

end Fingerprints

section Undecided

variable {cfg : Config} {st : CoordinatorState}

/-- An instance that is undecided after a locked part which did not register it was undecided
before. -/
theorem undecided_before {op : Op} {id : InstanceId} {xt' : PendingXt}
    (hreg : ∀ route, op.registers cfg st ≠ some (id, route))
    (hx : (op.apply cfg st).pending.lookup id = some xt') (hd : xt'.decision = none) :
    ∃ xt, st.pending.lookup id = some xt ∧ xt.decision = none := by
  obtain ⟨xt, hl, hstep⟩ := entryStep hreg hx
  refine ⟨xt, hl, ?_⟩
  by_contra hsome
  obtain ⟨d, hxd⟩ := Option.ne_none_iff_exists'.mp hsome
  have he := xtEffect cfg st op id
  rw [hl, hx] at he
  cases he with
  | same => exact hsome hd
  | touched _ _ hc => exact hsome ((congrArg XtCore.decision hc).symm.trans hd)
  | registered _ _ route _ hr _ => exact hreg route hr
  | voted _ vote standalone now _ =>
    rw [castVote_eq] at hd
    cases standalone with
    | false => exact hsome hd
    | true =>
      have hw : (withLocalVote cfg xt vote now).decision = some d := hxd
      rw [if_pos rfl, standaloneDecision_stable cfg.chainId _ now d hw] at hd
      exact hsome hd
  | peerVoted _ _ _ _ hn => exact hsome hn
  | decided _ _ _ hn => exact hsome hn
  | outdated _ _ now hs =>
    unfold abortUndecided at hd
    split_ifs at hd
    · simp [PendingXt.recordDecision] at hd
    · exact hsome hd
  | rolledBack _ now =>
    rw [forceAbort_decision] at hd
    simp at hd

/-- Registrations are refused while the coordinator is full. -/
theorem undecided_of_registers {op : Op} {id : InstanceId} {route : Route}
    (h : op.registers cfg st = some (id, route)) : st.undecidedCount < maxPendingXts := by
  cases op with
  | submitXt txs =>
    obtain ⟨-, sub, hr⟩ := registers_submitXt cfg st h
    have heffect := submitXt_effect cfg st txs
    generalize submitXt cfg st txs = r at hr heffect
    cases heffect with
    | rejected | duplicate | full => simp at hr
    | registered hxt hstale hroom => exact hroom
  | forwardXt i txs originChain originSeq =>
    simp only [Op.registers, forwardXt, registerForwarded] at h
    split_ifs at h with h1 h2 h3 hfull
    exact Nat.lt_of_not_le hfull
  | startInstance inst =>
    simp only [Op.registers, registerStarted] at h
    split_ifs at h with hknown hfull
    exact Nat.lt_of_not_le hfull
  | removePending | sendVote | peerVote | onDecision | startPeriod | rollback | confirm | cleanup
    | mailbox | enqueue | resolve | lockChain | recordSimulation | fulfill | dispatch =>
    simp [Op.registers] at h

theorem undecided_step (h : st.undecidedCount ≤ maxPendingXts) (op : Op) :
    (op.apply cfg st).undecidedCount ≤ maxPendingXts := by
  cases hreg : op.registers cfg st with
  | none =>
    have hle : (op.apply cfg st).undecidedCount ≤ 0 + st.undecidedCount := by
      refine Map.countP_values_le [] ?_
      intro id xt' hx hd
      obtain ⟨xt, hl, hn⟩ := undecided_before (fun route hr => by simp [hreg] at hr) hx
        (Option.isNone_iff_eq_none.mp hd)
      exact Or.inr ⟨xt, hl, Option.isNone_iff_eq_none.mpr hn⟩
    omega
  | some registered =>
    have hroom := undecided_of_registers (hreg.trans rfl)
    have hle : (op.apply cfg st).undecidedCount ≤ 1 + st.undecidedCount := by
      refine Map.countP_values_le [registered.1] ?_
      intro id xt' hx hd
      by_cases hid : id = registered.1
      · exact Or.inl (by simp [hid])
      · have hother : ∀ route, op.registers cfg st ≠ some (id, route) := by
          intro route hr
          rw [hreg] at hr
          exact hid (congrArg Prod.fst (Option.some.inj hr)).symm
        obtain ⟨xt, hl, hn⟩ := undecided_before hother hx (Option.isNone_iff_eq_none.mp hd)
        exact Or.inr ⟨xt, hl, Option.isNone_iff_eq_none.mpr hn⟩
    omega

end Undecided

section Buffer

variable {cfg : Config} {st : CoordinatorState}

/-- The caps of the orphan buffer are kept, and no bucket is empty. -/
structure BufferInv (buffer : Map Bytes (List MailboxMessage)) : Prop where
  keys_le : buffer.keys.length ≤ mailboxBufferMaxKeys
  bucket : ∀ rawId msgs, buffer.lookup rawId = some msgs →
    1 ≤ msgs.length ∧ msgs.length ≤ mailboxBufferMaxPerKey

/-- A buffer that only lost buckets. -/
theorem BufferInv.fewer {buffer buffer' : Map Bytes (List MailboxMessage)} (h : BufferInv buffer)
    (hkeys : buffer'.keys.length ≤ buffer.keys.length)
    (hbuckets : ∀ rawId msgs, buffer'.lookup rawId = some msgs → buffer.lookup rawId = some msgs) :
    BufferInv buffer' :=
  ⟨hkeys.trans h.keys_le, fun rawId msgs hl => h.bucket rawId msgs (hbuckets rawId msgs hl)⟩

theorem bufferInv_bufferOrphanMailbox (h : BufferInv st.mailboxBuffer) (msg : MailboxMessage) :
    BufferInv (st.bufferOrphanMailbox msg).mailboxBuffer := by
  unfold CoordinatorState.bufferOrphanMailbox
  cases hl : st.mailboxBuffer.lookup msg.instanceId with
  | none =>
    dsimp only
    split_ifs with hfull
    · exact h
    · constructor
      · have hle := Map.length_keys_insert_le msg.instanceId [msg] st.mailboxBuffer
        exact hle.trans (Nat.lt_of_not_le hfull)
      · intro rawId msgs hm
        rw [Map.lookup_insert_eq] at hm
        split_ifs at hm
        · rw [← Option.some.inj hm]
          exact ⟨Nat.le_refl 1, show 1 ≤ mailboxBufferMaxPerKey by decide⟩
        · exact h.bucket rawId msgs hm
  | some bucket =>
    dsimp only
    split_ifs with hfull
    · exact h
    · constructor
      · rw [Map.length_keys_update]
        exact h.keys_le
      · intro rawId msgs hm
        rw [Map.lookup_update] at hm
        split_ifs at hm with hid
        · rw [hid, hl] at hm
          rw [← Option.some.inj hm, List.length_append, List.length_singleton]
          omega
        · exact h.bucket rawId msgs hm

theorem bufferInv_step (h : BufferInv st.mailboxBuffer) (op : Op) :
    BufferInv (op.apply cfg st).mailboxBuffer := by
  have hadmission := @admission_of_admits cfg st op
  cases op with
  | submitXt | forwardXt | startInstance =>
    rcases hadmission rfl with ⟨-, hsame⟩ | ⟨xt, hadm⟩
    · rw [hsame.2.2]
      exact h
    · cases hadm with
      | submitted txs hop hreg hxt hpending hindex hb =>
        rw [hb]
        exact h
      | drained route hop hreg hnew hraw hfresh hpending hindex hb =>
        rw [hb]
        refine h.fewer (Map.length_keys_erase_le _ _) ?_
        intro rawId msgs hl
        rw [Map.lookup_erase_eq] at hl
        split_ifs at hl
        exact hl
  | removePending closed i =>
    have hsame : (removePendingXt closed st i).mailboxBuffer = st.mailboxBuffer := by
      unfold removePendingXt
      cases st.pending.lookup i <;> rfl
    rw [Op.apply, hsame]
    exact h
  | cleanup closed now maxAge =>
    refine h.fewer (Map.length_keys_retain_le _ _) ?_
    intro rawId msgs hl
    rw [Op.apply, lookup_mailboxBuffer_cleanup] at hl
    exact (Option.filter_eq_some_iff.mp hl).1
  | rollback now =>
    refine h.fewer (Nat.zero_le _) ?_
    intro rawId msgs hl
    simp [Op.apply, rollBack] at hl
  | mailbox msg =>
    simp only [Op.apply, deliverMailbox]
    cases st.mailboxIndex.lookup msg.instanceId with
    | some i => exact h
    | none => exact bufferInv_bufferOrphanMailbox h msg
  | sendVote | peerVote | onDecision | startPeriod | confirm | enqueue | resolve | lockChain
    | recordSimulation | fulfill | dispatch =>
    rw [(routes_of_leavesRoutes cfg st _ rfl).2]
    exact h

end Buffer

/-- Everything that the locked parts keep, from which the four maps are read. -/
structure RepresentationInv (cfg : Config) (ops : List Op) (st : CoordinatorState) : Prop where
  routing : ∃ delivered, RoutingInv st delivered
  index : IndexInv cfg ops st
  fingerprint : FingerprintInv cfg st
  undecided : st.undecidedCount ≤ maxPendingXts
  buffer : BufferInv st.mailboxBuffer

theorem representationInv_step {cfg : Config} {ops : List Op} (hapart : NamesApart cfg ops)
    {st : CoordinatorState} (h : RepresentationInv cfg ops st) {op : Op} (hop : op ∈ ops) :
    RepresentationInv cfg ops (op.apply cfg st) where
  routing := by
    obtain ⟨delivered, hrouting⟩ := h.routing
    exact ⟨_, routingInv_step hrouting op⟩
  index := ⟨fun _ _ hx => named_step h.index hop hx,
    fun _ _ hx => indexed_step hapart h.index hop hx⟩
  fingerprint := fingerprintInv_step h.fingerprint op
  undecided := undecided_step h.undecided op
  buffer := bufferInv_step h.buffer op

theorem representationInv_initial (cfg : Config) (ops : List Op) :
    RepresentationInv cfg ops {} where
  routing := ⟨[], routingInv_initial⟩
  index := indexInv_initial
  fingerprint := fingerprintInv_initial
  undecided := Nat.zero_le _
  buffer := ⟨Nat.zero_le _, fun rawId msgs h => by simp at h⟩

theorem RepresentationInv.represented {cfg : Config} {ops : List Op} {st : CoordinatorState}
    (h : RepresentationInv cfg ops st) : Represented cfg st := by
  obtain ⟨delivered, hrouting⟩ := h.routing
  refine ⟨?_, h.fingerprint.entry, h.undecided, h.buffer.keys_le, ?_⟩
  · intro rawId id
    constructor
    · exact hrouting.index_entry rawId id
    · intro hx
      obtain ⟨xt, hl, hraw⟩ := hx
      rw [← hraw]
      exact h.index.indexed id xt hl
  · intro rawId msgs hl
    have hsize := h.buffer.bucket rawId msgs hl
    exact ⟨hsize.1, hsize.2, fun msg hm => (hrouting.buffered rawId msgs hl msg hm).1⟩

/-- The representation invariant: when no publisher's id has the bytes of a given name, the
four maps fit together in every state that the locked parts reach. -/
theorem state_represented {cfg : Config} {ops : List Op} {st : CoordinatorState}
    (hrun : Run (Step cfg) {} ops st) (hapart : NamesApart cfg ops) : Represented cfg st := by
  have hinv : RepresentationInv cfg ops st := by
    refine Run.invariant_of_labels (I := RepresentationInv cfg ops) (P := fun op => op ∈ ops) ?_
      hrun (fun op hop => hop) (representationInv_initial cfg ops)
    intro s op t hop hs hstep
    rw [hstep]
    exact representationInv_step hapart hs hop
  exact hinv.represented

theorem standalone_head (chainId : ChainId) (seq : SequenceNumber) :
    (InstanceId.asBytes (InstanceId.standalone chainId seq)).head? = some 120 := by
  have hname : InstanceId.standalone chainId seq =
      "xt-" ++ (toString chainId ++ "-" ++ toString seq) := by
    simp [InstanceId.standalone, String.append_assoc]
  have happend : InstanceId.asBytes (InstanceId.standalone chainId seq) =
      InstanceId.asBytes "xt-" ++ InstanceId.asBytes (toString chainId ++ "-" ++ toString seq) := by
    rw [hname]
    simp [InstanceId.asBytes]
  rw [happend, show InstanceId.asBytes "xt-" = [120, 116, 45] by decide]
  rfl

/-- The instance of the publisher in the run below, and its id. -/
def publishedInstance : SpecInstance :=
  { id := List.replicate 32 1
    periodId := 7
    sequenceNumber := 1
    xtRequest := ⟨[⟨1, [[1]]⟩, ⟨2, [[2]]⟩]⟩ }

/-- One instance by each route, a message that comes before its instance and one whose
instance never comes. -/
def threeRoutes : List Op :=
  [.submitXt sampleTxs, .mailbox (sampleMessage (List.replicate 32 1) [1]), .startPeriod 7 0,
    .startInstance publishedInstance, .forwardXt "xt-1-4" sampleTxs 1 4,
    .mailbox (sampleMessage [9] [2]), .onDecision "xt-1-4" true 5]

theorem namesApart_threeRoutes : NamesApart (.bare 2) threeRoutes := by
  intro inst hmem id hgiven hbytes
  have hinst : inst = publishedInstance := by simpa [threeRoutes] using hmem
  rw [hinst] at hbytes
  rcases hgiven with ⟨seq, hid⟩ | ⟨txs, originChain, originSeq, hforward⟩
  · have hhead := standalone_head (Config.bare 2).chainId seq
    rw [← hid, ← hbytes] at hhead
    revert hhead
    decide
  · have hid : id = "xt-1-4" := by
      simp only [threeRoutes, List.mem_cons, Op.forwardXt.injEq, reduceCtorEq, false_or, or_false,
        List.not_mem_nil] at hforward
      exact hforward.1
    rw [hid] at hbytes
    revert hbytes
    decide

theorem state_represented_by_three_routes :
    ∃ st, Run (Step (.bare 2)) {} threeRoutes st ∧ Represented (.bare 2) st ∧
      st.mailboxIndex.lookup (List.replicate 32 1) =
        some (InstanceId.fromPublisherBytes (List.replicate 32 1)) ∧
      st.pending.keys.length = 3 ∧ st.submittedFingerprints.keys.length = 1 ∧
      st.undecidedCount = 2 ∧ st.mailboxBuffer.keys = [[9]] := by
  have hrun := exec_run (.bare 2) threeRoutes {}
  exact ⟨_, hrun, state_represented hrun namesApart_threeRoutes, by decide, by decide, by decide,
    by decide, by decide⟩

end Sidecar.Coordinator
