import Sidecar.Coordinator.MailboxLedger

namespace Sidecar.Coordinator

open Mailbox

section Buffer

variable (st : CoordinatorState)

/-- Neither cap of the orphan buffer stands in the way of one more message. -/
def roomFor (rawId : Bytes) : Bool :=
  match st.mailboxBuffer.lookup rawId with
  | none => st.mailboxBuffer.keys.length < mailboxBufferMaxKeys
  | some bucket => bucket.length < mailboxBufferMaxPerKey

/-- A buffered message goes to the end of its bucket. -/
theorem lookup_bufferOrphanMailbox {msg : MailboxMessage}
    (hroom : roomFor st msg.instanceId = true) (rawId : Bytes) :
    (st.bufferOrphanMailbox msg).mailboxBuffer.lookup rawId =
      if rawId = msg.instanceId then some ((st.mailboxBuffer.lookup rawId).getD [] ++ [msg])
      else st.mailboxBuffer.lookup rawId := by
  unfold roomFor at hroom
  unfold CoordinatorState.bufferOrphanMailbox
  cases hl : st.mailboxBuffer.lookup msg.instanceId with
  | none =>
    rw [hl] at hroom
    have hkeys : ¬ mailboxBufferMaxKeys ≤ st.mailboxBuffer.keys.length := by simpa using hroom
    dsimp only
    rw [if_neg hkeys, Map.lookup_insert_eq]
    by_cases hraw : rawId = msg.instanceId
    · rw [if_pos hraw, if_pos hraw, hraw, hl]
      rfl
    · rw [if_neg hraw, if_neg hraw]
  | some bucket =>
    rw [hl] at hroom
    have hlen : ¬ mailboxBufferMaxPerKey ≤ bucket.length := by simpa using hroom
    dsimp only
    rw [if_neg hlen, Map.lookup_update]
    by_cases hraw : rawId = msg.instanceId
    · rw [if_pos hraw, if_pos hraw, hraw, hl]
      rfl
    · rw [if_neg hraw, if_neg hraw]

/-- A cap that is reached drops the message. -/
theorem bufferOrphanMailbox_full {msg : MailboxMessage}
    (hfull : roomFor st msg.instanceId = false) : st.bufferOrphanMailbox msg = st := by
  unfold roomFor at hfull
  unfold CoordinatorState.bufferOrphanMailbox
  cases hl : st.mailboxBuffer.lookup msg.instanceId with
  | none =>
    rw [hl] at hfull
    exact if_pos (by simpa using hfull)
  | some bucket =>
    rw [hl] at hfull
    exact if_pos (by simpa using hfull)

/-- The raw ids of the instances that `cleanup` takes out. -/
def cleanedRawIds (now maxAge : Nat) : List Bytes :=
  ((Map.values st.pending).filter (fun xt => !keepsXt now maxAge xt)).map PendingXt.instanceId

theorem lookup_foldl_erase (rawIds : List Bytes) (index : Map Bytes InstanceId) (rawId : Bytes) :
    (rawIds.foldl (fun (index : Map Bytes InstanceId) rawId => index.erase rawId) index).lookup
        rawId =
      if rawId ∈ rawIds then none else index.lookup rawId := by
  induction rawIds generalizing index with
  | nil => simp
  | cons r rawIds ih =>
    rw [List.foldl_cons, ih, Map.lookup_erase_eq]
    by_cases hr : rawId = r
    · simp [hr]
    · simp [hr]

theorem lookup_mailboxIndex_cleanup (closed : Waiter → Bool) (now maxAge : Nat) (rawId : Bytes) :
    (cleanup closed st now maxAge).mailboxIndex.lookup rawId =
      if rawId ∈ cleanedRawIds st now maxAge then none else st.mailboxIndex.lookup rawId :=
  lookup_foldl_erase (cleanedRawIds st now maxAge) st.mailboxIndex rawId

theorem lookup_mailboxBuffer_cleanup (closed : Waiter → Bool) (now maxAge : Nat) (rawId : Bytes) :
    (cleanup closed st now maxAge).mailboxBuffer.lookup rawId =
      (st.mailboxBuffer.lookup rawId).filter
        (fun _ => decide (rawId ∈ (cleanup closed st now maxAge).mailboxIndex)) :=
  Map.lookup_retain _ st.mailboxBuffer rawId

theorem lookup_pending_cleanup (closed : Waiter → Bool) (now maxAge : Nat) (id : InstanceId) :
    (cleanup closed st now maxAge).pending.lookup id =
      (st.pending.lookup id).filter (keepsXt now maxAge) :=
  Map.lookup_retain _ st.pending id

end Buffer

/-- How messages find their instance: raw ids belong to their ids, the index points at pending
instances under their own raw id, and buckets hold delivered messages of their own raw id. -/
structure RoutingInv (st : CoordinatorState) (delivered : List MailboxMessage) : Prop where
  raw_of_id : ∀ id xt, st.pending.lookup id = some xt →
    xt.instanceId = InstanceId.asBytes id ∨ id = InstanceId.fromPublisherBytes xt.instanceId
  index_entry : ∀ rawId id, st.mailboxIndex.lookup rawId = some id →
    ∃ xt, st.pending.lookup id = some xt ∧ xt.instanceId = rawId
  buffered : ∀ rawId msgs, st.mailboxBuffer.lookup rawId = some msgs →
    ∀ msg ∈ msgs, msg.instanceId = rawId ∧ msg ∈ delivered

section Routing

variable {cfg : Config} {st : CoordinatorState} {delivered : List MailboxMessage}

theorem admits_of_registers {op : Op} {id : InstanceId}
    (h : (op.registers cfg st).map Prod.fst = some id) : op.admits = true := by
  cases op with
  | submitXt | forwardXt | startInstance => rfl
  | _ => simp [Op.registers] at h

/-- The registration behind an entry that a locked part put in. -/
theorem admission_of_registers {op : Op} {id : InstanceId}
    (h : (op.registers cfg st).map Prod.fst = some id) :
    ∃ xt, xt.id = id ∧ Admission cfg st (op.apply cfg st) op xt := by
  rcases admission_of_admits cfg st (admits_of_registers h) with ⟨hnone, -⟩ | ⟨xt, hadm⟩
  · simp [hnone] at h
  · exact ⟨xt, Option.some.inj (hadm.registers.symm.trans h), hadm⟩

theorem registers_ne {op : Op} {id : InstanceId}
    (h : (op.registers cfg st).map Prod.fst ≠ some id) (route : Route) :
    op.registers cfg st ≠ some (id, route) := by
  intro hr
  rw [hr] at h
  exact h rfl

theorem Admission.raw_of_id {st' : CoordinatorState} {op : Op} {xt : PendingXt}
    (h : Admission cfg st st' op xt) :
    xt.instanceId = InstanceId.asBytes xt.id ∨
      xt.id = InstanceId.fromPublisherBytes xt.instanceId := by
  cases h with
  | submitted txs hop hreg hxt hpending hindex hbuffer =>
    left
    rw [hxt]
    rfl
  | drained route hop hreg hnew hraw hfresh hpending hindex hbuffer => exact hraw

theorem Admission.index {st' : CoordinatorState} {op : Op} {xt : PendingXt}
    (h : Admission cfg st st' op xt) :
    st'.mailboxIndex = st.mailboxIndex.insert xt.instanceId xt.id := by
  cases h with
  | submitted txs hop hreg hxt hpending hindex hbuffer => exact hindex
  | drained route hop hreg hnew hraw hfresh hpending hindex hbuffer => exact hindex

theorem rawOfId_step (h : RoutingInv st delivered) (op : Op) {id : InstanceId} {xt' : PendingXt}
    (hx' : (op.apply cfg st).pending.lookup id = some xt') :
    xt'.instanceId = InstanceId.asBytes id ∨
      id = InstanceId.fromPublisherBytes xt'.instanceId := by
  by_cases hreg : (op.registers cfg st).map Prod.fst = some id
  · obtain ⟨xt, hid, hadm⟩ := admission_of_registers hreg
    obtain ⟨x, hpending, hraw, -, -⟩ := hadm.entry
    rw [hpending, hid, AList.lookup_insert] at hx'
    rw [← Option.some.inj hx', hraw, ← hid]
    exact hadm.raw_of_id
  · obtain ⟨xt, hx, hsame⟩ := entry_kept (registers_ne hreg) hx'
    rw [hsame.instanceId_eq]
    exact h.raw_of_id id xt hx

/-- An admitted instance takes over no other instance's place in the index: what was pending
under its id had the same raw id. -/
theorem Admission.same_raw {st' : CoordinatorState} {op : Op} {xt old : PendingXt}
    (h : Admission cfg st st' op xt) (hinv : RoutingInv st delivered)
    (hold : st.pending.lookup xt.id = some old) : old.instanceId = xt.instanceId := by
  cases h with
  | submitted txs hop hreg hxt hpending hindex hbuffer =>
    have hraw : xt.instanceId = InstanceId.asBytes xt.id := by
      rw [hxt]
      rfl
    rcases hinv.raw_of_id xt.id old hold with hbytes | hhex
    · rw [hbytes, hraw]
    · rw [hxt] at hhex
      exact absurd hhex (InstanceId.standalone_ne_fromPublisherBytes cfg.chainId (st.originSeq + 1) _)
  | drained route hop hreg hnew hraw hfresh hpending hindex hbuffer =>
    exact absurd (AList.lookup_isSome.mp (by rw [hold]; rfl)) hnew

theorem indexEntry_admission (h : RoutingInv st delivered) {st' : CoordinatorState} {op : Op}
    {xt : PendingXt} (hadm : Admission cfg st st' op xt) {rawId : Bytes} {id : InstanceId}
    (hindex : st'.mailboxIndex.lookup rawId = some id) :
    ∃ x, st'.pending.lookup id = some x ∧ x.instanceId = rawId := by
  obtain ⟨entry, hpending, hraw, -, -⟩ := hadm.entry
  rw [hadm.index, Map.lookup_insert_eq] at hindex
  rw [hpending]
  by_cases hr : rawId = xt.instanceId
  · rw [if_pos hr] at hindex
    rw [← Option.some.inj hindex, AList.lookup_insert]
    exact ⟨entry, rfl, hraw.trans hr.symm⟩
  · rw [if_neg hr] at hindex
    obtain ⟨x, hx, hxraw⟩ := h.index_entry rawId id hindex
    have hne : id ≠ xt.id := by
      intro hid
      rw [hid] at hx
      exact hr (hxraw.symm.trans (hadm.same_raw h hx))
    rw [Map.lookup_insert_eq, if_neg hne]
    exact ⟨x, hx, hxraw⟩

/-- Entries that stay and an index that does not change keep the index right. -/
theorem indexEntry_kept (h : RoutingInv st delivered) {op : Op}
    (hreg : op.registers cfg st = none) (hrem : ∀ id, op.removes id = false)
    (hsame : (op.apply cfg st).mailboxIndex = st.mailboxIndex) {rawId : Bytes} {id : InstanceId}
    (hindex : (op.apply cfg st).mailboxIndex.lookup rawId = some id) :
    ∃ x, (op.apply cfg st).pending.lookup id = some x ∧ x.instanceId = rawId := by
  rw [hsame] at hindex
  obtain ⟨xt, hxt, hraw⟩ := h.index_entry rawId id hindex
  obtain ⟨x, hx, hkept⟩ := entry_stays hreg (hrem id) hxt
  exact ⟨x, hx, hkept.instanceId_eq.trans hraw⟩

theorem indexEntry_step (h : RoutingInv st delivered) (op : Op) {rawId : Bytes} {id : InstanceId}
    (hindex : (op.apply cfg st).mailboxIndex.lookup rawId = some id) :
    ∃ x, (op.apply cfg st).pending.lookup id = some x ∧ x.instanceId = rawId := by
  have hadmission := @admission_of_admits cfg st op
  cases op with
  | submitXt | forwardXt | startInstance =>
    rcases hadmission rfl with ⟨-, hsame⟩ | ⟨xt, hadm⟩
    · rw [hsame.2.1] at hindex
      rw [hsame.1]
      exact h.index_entry rawId id hindex
    · exact indexEntry_admission h hadm hindex
  | removePending closed i =>
    simp only [Op.apply, removePendingXt] at hindex ⊢
    cases hi : st.pending.lookup i with
    | none =>
      simp only [hi] at hindex
      exact h.index_entry rawId id hindex
    | some xt =>
      simp only [hi, Map.lookup_erase_eq] at hindex ⊢
      split_ifs at hindex with hr
      obtain ⟨x, hx, hraw⟩ := h.index_entry rawId id hindex
      have hne : id ≠ i := by
        intro hid
        rw [hid, hi] at hx
        rw [Option.some.inj hx] at hr
        exact hr hraw.symm
      rw [if_neg hne]
      exact ⟨x, hx, hraw⟩
  | cleanup closed now maxAge =>
    rw [Op.apply, lookup_mailboxIndex_cleanup] at hindex
    split_ifs at hindex with hr
    obtain ⟨x, hx, hraw⟩ := h.index_entry rawId id hindex
    have hkeep : keepsXt now maxAge x = true := by
      by_contra hk
      apply hr
      refine List.mem_map.mpr ⟨x, List.mem_filter.mpr ⟨?_, by simpa using hk⟩, hraw⟩
      exact (Map.mem_values st.pending x).mpr ⟨id, hx⟩
    rw [Op.apply, lookup_pending_cleanup, hx, Option.filter_some, if_pos hkeep]
    exact ⟨x, rfl, hraw⟩
  | mailbox msg =>
    have hsame : ((Op.mailbox msg).apply cfg st).mailboxIndex = st.mailboxIndex :=
      mailboxIndex_deliverMailbox st msg
    exact indexEntry_kept h rfl (fun _ => rfl) hsame hindex
  | rollback now => exact indexEntry_kept h rfl (fun _ => rfl) rfl hindex
  | sendVote | peerVote | onDecision | startPeriod | confirm | enqueue | resolve | lockChain
    | recordSimulation | fulfill | dispatch =>
    exact indexEntry_kept h rfl (fun _ => rfl) (routes_of_leavesRoutes cfg st _ rfl).1 hindex

theorem buffered_step (h : RoutingInv st delivered) (op : Op) {rawId : Bytes}
    {msgs : List MailboxMessage}
    (hbuffer : (op.apply cfg st).mailboxBuffer.lookup rawId = some msgs) :
    ∀ msg ∈ msgs, msg.instanceId = rawId ∧ msg ∈ delivered ++ op.delivers := by
  -- most parts only take buckets away
  have hold : st.mailboxBuffer.lookup rawId = some msgs →
      ∀ msg ∈ msgs, msg.instanceId = rawId ∧ msg ∈ delivered ++ op.delivers := by
    intro hl msg hm
    have hmsg := h.buffered rawId msgs hl msg hm
    exact ⟨hmsg.1, List.mem_append_left _ hmsg.2⟩
  have hadmission := @admission_of_admits cfg st op
  cases op with
  | submitXt | forwardXt | startInstance =>
    rcases hadmission rfl with ⟨-, hsame⟩ | ⟨xt, hadm⟩
    · rw [hsame.2.2] at hbuffer
      exact hold hbuffer
    · cases hadm with
      | submitted txs hop hreg hxt hpending hindex hb =>
        rw [hb] at hbuffer
        exact hold hbuffer
      | drained route hop hreg hnew hraw hfresh hpending hindex hb =>
        rw [hb, Map.lookup_erase_eq] at hbuffer
        split_ifs at hbuffer
        exact hold hbuffer
  | removePending closed i =>
    simp only [Op.apply, removePendingXt] at hbuffer
    cases hi : st.pending.lookup i with
    | none =>
      simp only [hi] at hbuffer
      exact hold hbuffer
    | some xt =>
      simp only [hi] at hbuffer
      exact hold hbuffer
  | cleanup closed now maxAge =>
    rw [Op.apply, lookup_mailboxBuffer_cleanup] at hbuffer
    exact hold (Option.filter_eq_some_iff.mp hbuffer).1
  | rollback now => simp [Op.apply, rollBack] at hbuffer
  | mailbox msg =>
    simp only [Op.apply, deliverMailbox] at hbuffer
    cases hindex : st.mailboxIndex.lookup msg.instanceId with
    | some i =>
      rw [hindex] at hbuffer
      exact hold hbuffer
    | none =>
      rw [hindex] at hbuffer
      dsimp only at hbuffer
      cases hroom : roomFor st msg.instanceId with
      | false =>
        rw [bufferOrphanMailbox_full st hroom] at hbuffer
        exact hold hbuffer
      | true =>
        rw [lookup_bufferOrphanMailbox st hroom] at hbuffer
        split_ifs at hbuffer with hr
        · intro m hm
          rw [← Option.some.inj hbuffer] at hm
          rcases List.mem_append.mp hm with hbefore | hnow
          · cases hl : st.mailboxBuffer.lookup rawId with
            | none => simp [hl] at hbefore
            | some bucket =>
              rw [hl] at hbefore
              have hmsg := h.buffered rawId bucket hl m hbefore
              exact ⟨hmsg.1, List.mem_append_left _ hmsg.2⟩
          · rw [List.mem_singleton.mp hnow, hr]
            exact ⟨rfl, List.mem_append_right _ (by simp [Op.delivers])⟩
        · exact hold hbuffer
  | sendVote | peerVote | onDecision | startPeriod | confirm | enqueue | resolve | lockChain
    | recordSimulation | fulfill | dispatch =>
    rw [(routes_of_leavesRoutes cfg st _ rfl).2] at hbuffer
    exact hold hbuffer

theorem routingInv_step (h : RoutingInv st delivered) (op : Op) :
    RoutingInv (op.apply cfg st) (delivered ++ op.delivers) :=
  ⟨fun _ _ hx => rawOfId_step h op hx, fun _ _ hi => indexEntry_step h op hi,
    fun _ _ hb => buffered_step h op hb⟩

theorem routingInv_initial : RoutingInv {} [] := by
  constructor
  · intro id xt h
    simp at h
  · intro rawId id h
    simp at h
  · intro rawId msgs h
    simp at h

end Routing

/-- The books of an instance: they balance, and everything attached was delivered under the
instance's own raw id. -/
structure Conserved (xt : PendingXt) (account : MailAccount) (delivered : List MailboxMessage) :
    Prop where
  balanced : Balanced xt.mail account.attached account.consumed
  delivered_raw : ∀ msg ∈ account.attached, msg ∈ delivered ∧ msg.instanceId = xt.instanceId

/-- All books are right. -/
structure LedgerInv (s : CoordinatorState × MailHistory) : Prop where
  routing : RoutingInv s.1 s.2.delivered
  entries : ∀ id xt, s.1.pending.lookup id = some xt →
    Conserved xt (s.2.accounts id) s.2.delivered

section Ledger

variable {cfg : Config} {st : CoordinatorState} {history : MailHistory}

theorem conserved_registered (hinv : RoutingInv st history.delivered) {op : Op} {id : InstanceId}
    {xt' : PendingXt} (hreg : (op.registers cfg st).map Prod.fst = some id)
    (hmail : xt'.mail = ⟨xt'.instanceId, xt'.pendingMailbox, [], ∅, [], ∅⟩)
    (hx' : (op.apply cfg st).pending.lookup id = some xt') :
    Conserved xt' ((history.write cfg st op).accounts id)
      (history.write cfg st op).delivered := by
  have haccount : (history.write cfg st op).accounts id = ⟨xt'.pendingMailbox, []⟩ := by
    simp only [MailHistory.write, if_pos hreg, Op.attaches, hx', Option.elim_some]
  rw [haccount]
  constructor
  · rw [hmail]
    refine ⟨?_, .nil, .nil, .nil⟩
    rw [List.append_nil]
  · intro msg hmsg
    obtain ⟨xt, hid, hadm⟩ := admission_of_registers hreg
    obtain ⟨entry, hpending, hraw, -, hfrom⟩ := hadm.entry
    rw [hpending, hid, AList.lookup_insert] at hx'
    have hentry : entry = xt' := Option.some.inj hx'
    have hbucket := hfrom msg (hentry ▸ hmsg)
    cases hl : st.mailboxBuffer.lookup xt.instanceId with
    | none => simp [hl] at hbucket
    | some bucket =>
      rw [hl] at hbucket
      have hm := hinv.buffered xt.instanceId bucket hl msg hbucket
      refine ⟨List.mem_append_left _ hm.2, ?_⟩
      rw [← hentry, hraw]
      exact hm.1

theorem accounts_of_not_registers {op : Op} {id : InstanceId}
    (hreg : (op.registers cfg st).map Prod.fst ≠ some id) :
    (history.write cfg st op).accounts id =
      ⟨(history.accounts id).attached ++ op.attaches cfg st id,
        (history.accounts id).consumed ++ op.consumes st id⟩ :=
  if_neg hreg

/-- What was in the books stays in them. -/
theorem Conserved.later {xt : PendingXt} {account : MailAccount} {delivered : List MailboxMessage}
    (h : Conserved xt account delivered) (more : List MailboxMessage) :
    Conserved xt account (delivered ++ more) :=
  ⟨h.balanced, fun msg hm =>
    ⟨List.mem_append_left _ (h.delivered_raw msg hm).1, (h.delivered_raw msg hm).2⟩⟩

theorem conserved_step (hinv : LedgerInv (st, history)) (op : Op) {id : InstanceId}
    {xt' : PendingXt} (hx' : (op.apply cfg st).pending.lookup id = some xt') :
    Conserved xt' ((history.write cfg st op).accounts id)
      (history.write cfg st op).delivered := by
  have heffect := mailEffect cfg st op id
  cases hl : st.pending.lookup id with
  | none =>
    rw [hl, hx'] at heffect
    cases heffect with
    | registered _ hreg hmail => exact conserved_registered hinv.routing hreg hmail hx'
  | some xt =>
    have hbefore := (hinv.entries id xt hl).later op.delivers
    rw [hl, hx'] at heffect
    cases heffect with
    | registered _ hreg hmail => exact conserved_registered hinv.routing hreg hmail hx'
    | kept hreg hattach hconsume hmail =>
      rw [accounts_of_not_registers hreg, hattach, hconsume, List.append_nil, List.append_nil]
      have hraw : xt'.instanceId = xt.instanceId := congrArg XtMail.instanceId hmail
      exact ⟨hmail ▸ hbefore.balanced, hraw ▸ hbefore.delivered_raw⟩
    | delivered msg hop hindex =>
      subst hop
      have hmem : id ∈ st.pending := AList.lookup_isSome.mp (by rw [hl]; rfl)
      have hattach : (Op.mailbox msg).attaches cfg st id = [msg] := by
        rw [attaches_mailbox, if_pos ⟨hindex, hmem⟩]
      have hconsume : (Op.mailbox msg).consumes st id = [] := rfl
      rw [accounts_of_not_registers (by simp [Op.registers]), hattach, hconsume, List.append_nil]
      constructor
      · refine ⟨?_, hbefore.balanced.served, hbefore.balanced.fulfilled_keys,
          hbefore.balanced.dependency_keys⟩
        have hold := hbefore.balanced.attached_perm.append_right [msg]
        have hswap : (xt.pendingMailbox ++ (history.accounts id).consumed ++ [msg]).Perm
            (xt.pendingMailbox ++ [msg] ++ (history.accounts id).consumed) := by
          rw [List.append_assoc, List.append_assoc]
          exact List.perm_append_comm.append_left xt.pendingMailbox
        exact hold.trans hswap
      · intro m hm
        rcases List.mem_append.mp hm with hearlier | hnow
        · exact hbefore.delivered_raw m hearlier
        · rw [List.mem_singleton.mp hnow]
          obtain ⟨x, hx, hraw⟩ := hinv.routing.index_entry msg.instanceId id hindex
          rw [Option.some.inj (hl.symm.trans hx)]
          exact ⟨List.mem_append_right _ (by simp [Op.delivers]), hraw.symm⟩
    | recorded result base hop =>
      subst hop
      have hattach : (Op.recordSimulation id result base).attaches cfg st id = [] := rfl
      have hconsume : (Op.recordSimulation id result base).consumes st id = [] := rfl
      rw [accounts_of_not_registers (by simp [Op.registers]), hattach, hconsume, List.append_nil,
        List.append_nil]
      have hraw : (recordResult xt result).instanceId = xt.instanceId :=
        congrArg XtCore.instanceId (core_recordResult xt result)
      exact ⟨balanced_recordResult hbefore.balanced result, hraw ▸ hbefore.delivered_raw⟩
    | fulfilled deps hop =>
      subst hop
      have hattach : (Op.fulfill id deps).attaches cfg st id = [] := rfl
      have hconsume : (Op.fulfill id deps).consumes st id = consumedBy xt deps := by
        simp only [Op.consumes, if_true, hl, Option.elim_some]
      rw [accounts_of_not_registers (by simp [Op.registers]), hattach, hconsume, List.append_nil]
      have hraw : (fulfillXt xt deps).1.instanceId = xt.instanceId :=
        congrArg XtCore.instanceId (core_fulfillXt xt deps)
      exact ⟨balanced_fulfillXt hbefore.balanced deps, hraw ▸ hbefore.delivered_raw⟩

theorem ledgerInv_step (h : LedgerInv (st, history)) (op : Op) :
    LedgerInv (op.apply cfg st, history.write cfg st op) :=
  ⟨routingInv_step h.routing op, fun _ _ hx => conserved_step h op hx⟩

theorem ledgerInv_run {ops : List Op} {s t : CoordinatorState × MailHistory}
    (h : Run (Recorded (Step cfg) (MailHistory.write cfg)) s ops t) (hs : LedgerInv s) :
    LedgerInv t := by
  refine h.invariant (fun s op t hinv hstep => ?_) hs
  have ht : t = (op.apply cfg s.1, s.2.write cfg s.1 op) := Prod.ext hstep.1 hstep.2
  rw [ht]
  exact ledgerInv_step hinv op

theorem ledgerInv_initial : LedgerInv ({}, {}) := by
  refine ⟨routingInv_initial, ?_⟩
  intro id xt h
  simp at h

end Ledger

/-- In every reachable state the mailbox of every pending instance is conserved. -/
theorem mailbox_conserved {cfg : Config} {ops : List Op} {st : CoordinatorState}
    {history : MailHistory}
    (h : Run (Recorded (Step cfg) (MailHistory.write cfg)) ({}, {}) ops (st, history))
    {id : InstanceId} {xt : PendingXt} (hx : st.pending.lookup id = some xt) :
    Conserved xt (history.accounts id) history.delivered :=
  (ledgerInv_run h ledgerInv_initial).entries id xt hx

/-- A dependency of chain 2 on a message of chain 1. -/
def sampleDependency : CrossRollupDependency :=
  { sourceChainId := 1
    destChainId := 2
    sender := FixedBytes.repeatByte 20 1
    receiver := FixedBytes.repeatByte 20 2
    label := InstanceId.asBytes "swap"
    data := none
    sessionId := 7 }

/-- The message that the dependency waits for, under the raw id of an instance. -/
def sampleMessage (rawId payload : Bytes) : MailboxMessage :=
  { instanceId := rawId
    sourceChain := 1
    destinationChain := 2
    sender := List.replicate 20 1
    receiver := List.replicate 20 2
    label := "swap"
    payload := payload
    sessionId := encodeSessionId 7 }

def sampleTxs : RawTxs := pushTx (pushTx ∅ 1 [1]) 2 [2]

/-- One message before the registration, one after it, and a wait that consumes one of them. -/
def conservedOps (id : InstanceId) : List Op :=
  [.mailbox (sampleMessage (InstanceId.asBytes id) [1]), .forwardXt id sampleTxs 1 1,
    .mailbox (sampleMessage (InstanceId.asBytes id) [2]), .fulfill id [sampleDependency]]

theorem mailbox_conserved_after_wait :
    ∃ st history xt,
      Run (Recorded (Step (Config.bare 2)) (MailHistory.write (Config.bare 2))) ({}, {})
        (conservedOps "xt-1-1") (st, history) ∧
      st.pending.lookup "xt-1-1" = some xt ∧
      xt.fulfilledDeps = [{ sampleDependency with data := some [1] }] ∧
      (history.accounts "xt-1-1").attached.length = 2 ∧
      Conserved xt (history.accounts "xt-1-1") history.delivered := by
  have hrun := Run.record_foldl (f := fun s op => Op.apply (Config.bare 2) s op)
    (MailHistory.write (Config.bare 2)) (conservedOps "xt-1-1") ({}, {})
  generalize hend : (conservedOps "xt-1-1").foldl (fun s op => (Op.apply (Config.bare 2) s.1 op,
    MailHistory.write (Config.bare 2) s.1 op s.2)) (({}, {}) : CoordinatorState × MailHistory) = s
    at hrun
  have hdeps : (s.1.pending.lookup "xt-1-1").map PendingXt.fulfilledDeps =
      some [{ sampleDependency with data := some [1] }] := by
    rw [← hend]
    decide
  have hattached : (s.2.accounts "xt-1-1").attached.length = 2 := by
    rw [← hend]
    decide
  obtain ⟨xt, hx, hd⟩ := Option.map_eq_some_iff.mp hdeps
  exact ⟨s.1, s.2, xt, hrun, hx, hd, hattached, mailbox_conserved hrun hx⟩

end Sidecar.Coordinator
