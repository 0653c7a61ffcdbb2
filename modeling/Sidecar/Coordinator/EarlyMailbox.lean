import Sidecar.Coordinator.MailboxConservation

namespace Sidecar.Coordinator

open Mailbox

section Conditions

variable (cfg : Config) (id : InstanceId) (rawId : Bytes) (st : CoordinatorState)

/-- A registration gives the raw id to the instance and to no other. -/
def namesAgree (op : Op) : Bool :=
  match op.registers cfg st with
  | none => true
  | some (registered, _) =>
    match (op.apply cfg st).pending.lookup registered with
    | none => true
    | some xt => decide (registered = id) == decide (xt.instanceId = rawId)

/-- No rollback, and no message of the instance meets a full buffer. -/
def withinCaps : Op → Bool
  | .rollback _ => false
  | .mailbox msg =>
    decide (msg.instanceId ≠ rawId) || (st.mailboxIndex.lookup rawId).isSome || roomFor st rawId
  | op => namesAgree cfg id rawId st op

/-- No message waits in the buffer when `cleanup` prunes it or when the instance is
registered by the handler that does not drain it. -/
def nothingWaits : Op → Bool
  | .cleanup _ _ _ => decide (rawId ∉ st.mailboxBuffer)
  | .submitXt _ =>
    decide (rawId ≠ InstanceId.asBytes (InstanceId.standalone cfg.chainId (st.originSeq + 1))) ||
      decide (rawId ∉ st.mailboxBuffer)
  | _ => true

/-- An entry of the instance that messages were attached to is neither taken out nor replaced: its
mailbox would go with it. -/
def keepsMail (op : Op) : Bool :=
  match st.pending.lookup id with
  | none => true
  | some xt =>
    decide (id ∈ (op.apply cfg st).pending ∧ (op.registers cfg st).map Prod.fst ≠ some id) ||
      (xt.pendingMailbox.isEmpty && xt.fulfilledDeps.isEmpty)

end Conditions

/-- Everything that was delivered under a raw id. -/
def MailHistory.received (history : MailHistory) (rawId : Bytes) : List MailboxMessage :=
  history.delivered.filter (fun msg => msg.instanceId = rawId)

/-- What was attached to the pending entry of the instance. -/
def MailHistory.attachedTo (history : MailHistory) (st : CoordinatorState) (id : InstanceId) :
    List MailboxMessage :=
  if id ∈ st.pending then (history.accounts id).attached else []

/-- The books are right, the instance has its raw id to itself, is indexed under it while it is
pending, nothing waits for it then, and every delivered message is attached or waits. -/
structure EarlyInv (id : InstanceId) (rawId : Bytes) (s : CoordinatorState × MailHistory) :
    Prop where
  ledger : LedgerInv s
  entry_raw : ∀ i xt, s.1.pending.lookup i = some xt → (i = id ↔ xt.instanceId = rawId)
  indexed : id ∈ s.1.pending → s.1.mailboxIndex.lookup rawId = some id
  drained : id ∈ s.1.pending → s.1.mailboxBuffer.lookup rawId = none
  conserved : (s.2.received rawId).Perm
    (s.2.attachedTo s.1 id ++ (s.1.mailboxBuffer.lookup rawId).getD [])

section Step

variable {cfg : Config} {id : InstanceId} {rawId : Bytes} {st : CoordinatorState}
  {history : MailHistory}

/-- The index has no other instance under the raw id. -/
theorem EarlyInv.index_eq (h : EarlyInv id rawId (st, history)) {i : InstanceId}
    (hindex : st.mailboxIndex.lookup rawId = some i) : i = id ∧ id ∈ st.pending := by
  obtain ⟨xt, hxt, hraw⟩ := h.ledger.routing.index_entry rawId i hindex
  have hi : i = id := (h.entry_raw i xt hxt).mpr hraw
  exact ⟨hi, hi ▸ Map.mem_of_lookup hxt⟩

theorem received_write (op : Op) : (history.write cfg st op).received rawId =
    history.received rawId ++ op.delivers.filter (fun msg => msg.instanceId = rawId) :=
  List.filter_append _ _

theorem received_of_silent {op : Op} (hdeliver : op.delivers = []) :
    (history.write cfg st op).received rawId = history.received rawId := by
  rw [received_write, hdeliver, List.filter_nil, List.append_nil]

/-- An entry that is taken out or replaced had no messages. -/
theorem attachedTo_of_dropped (h : LedgerInv (st, history)) {op : Op}
    (hkeep : keepsMail cfg id st op = true)
    (hdropped : id ∉ (op.apply cfg st).pending ∨ (op.registers cfg st).map Prod.fst = some id) :
    history.attachedTo st id = [] := by
  unfold MailHistory.attachedTo
  split_ifs with hm
  · obtain ⟨xt, hl⟩ := Map.lookup_of_mem hm
    have hnot : ¬(id ∈ (op.apply cfg st).pending ∧
        (op.registers cfg st).map Prod.fst ≠ some id) := by
      rintro ⟨hstays, hreg⟩
      exact hdropped.elim (fun hgone => hgone hstays) hreg
    simp only [keepsMail, hl, hnot, decide_false, Bool.false_or, Bool.and_eq_true,
      List.isEmpty_iff] at hkeep
    have hbooks := (h.entries id xt hl).balanced
    have hserved : List.Forall₂ ServedBy xt.fulfilledDeps (history.accounts id).consumed :=
      hbooks.served
    have hattached : (history.accounts id).attached.Perm
        (xt.pendingMailbox ++ (history.accounts id).consumed) := hbooks.attached_perm
    rw [hkeep.2, List.forall₂_nil_left_iff] at hserved
    rw [hkeep.1, hserved] at hattached
    exact hattached.eq_nil
  · rfl

/-- A part that attaches nothing to the instance leaves its account as it is. -/
theorem attachedTo_write (h : LedgerInv (st, history)) {op : Op}
    (hkeep : keepsMail cfg id st op = true)
    (hreg : (op.registers cfg st).map Prod.fst ≠ some id) (hattach : op.attaches cfg st id = [])
    (hmem : id ∈ (op.apply cfg st).pending → id ∈ st.pending) :
    (history.write cfg st op).attachedTo (op.apply cfg st) id = history.attachedTo st id := by
  by_cases hm : id ∈ (op.apply cfg st).pending
  · rw [MailHistory.attachedTo, if_pos hm, MailHistory.attachedTo, if_pos (hmem hm),
      accounts_of_not_registers hreg, hattach, List.append_nil]
  · rw [attachedTo_of_dropped h hkeep (Or.inl hm), MailHistory.attachedTo, if_neg hm]

theorem mem_of_mem_apply {op : Op} (hreg : op.registers cfg st = none)
    (hm : id ∈ (op.apply cfg st).pending) : id ∈ st.pending := by
  obtain ⟨xt', hx'⟩ := Map.lookup_of_mem hm
  obtain ⟨xt, hx, -⟩ := entry_kept (fun route hr => by simp [hreg] at hr) hx'
  exact Map.mem_of_lookup hx

/-- A part that registers nothing keeps the entries, so only the index, the buffer and the
books are left to look at. -/
theorem earlyInv_of_kept (h : EarlyInv id rawId (st, history)) (op : Op)
    (hreg : op.registers cfg st = none)
    (hindex : id ∈ st.pending → id ∈ (op.apply cfg st).pending →
      (op.apply cfg st).mailboxIndex.lookup rawId = some id)
    (hdrained : id ∈ st.pending → (op.apply cfg st).mailboxBuffer.lookup rawId = none)
    (hconserved : ((history.write cfg st op).received rawId).Perm
      ((history.write cfg st op).attachedTo (op.apply cfg st) id ++
        ((op.apply cfg st).mailboxBuffer.lookup rawId).getD [])) :
    EarlyInv id rawId (op.apply cfg st, history.write cfg st op) := by
  refine ⟨ledgerInv_step h.ledger op, ?_, fun hm => hindex (mem_of_mem_apply hreg hm) hm,
    fun hm => hdrained (mem_of_mem_apply hreg hm), hconserved⟩
  intro i xt' hx'
  obtain ⟨xt, hx, hsame⟩ := entry_kept (fun route hr => by simp [hreg] at hr) hx'
  rw [hsame.instanceId_eq]
  exact h.entry_raw i xt hx

/-- A part that delivers and attaches nothing and touches neither the buffered messages of the
instance nor, while it stays pending, its place in the index. -/
theorem earlyInv_quiet (h : EarlyInv id rawId (st, history)) (op : Op)
    (hkeep : keepsMail cfg id st op = true)
    (hreceived : (history.write cfg st op).received rawId = history.received rawId)
    (hattach : op.attaches cfg st id = []) (hreg : op.registers cfg st = none)
    (hindex : id ∈ (op.apply cfg st).pending →
      (op.apply cfg st).mailboxIndex.lookup rawId = st.mailboxIndex.lookup rawId)
    (hbuffer : (op.apply cfg st).mailboxBuffer.lookup rawId = st.mailboxBuffer.lookup rawId) :
    EarlyInv id rawId (op.apply cfg st, history.write cfg st op) := by
  refine earlyInv_of_kept h op hreg (fun hold hm => ?_) (fun hold => ?_) ?_
  · rw [hindex hm]
    exact h.indexed hold
  · rw [hbuffer]
    exact h.drained hold
  · rw [hreceived, hbuffer,
      attachedTo_write h.ledger hkeep (by simp [hreg]) hattach (mem_of_mem_apply hreg)]
    exact h.conserved

theorem earlyInv_leavesRoutes (h : EarlyInv id rawId (st, history)) (op : Op)
    (hkeep : keepsMail cfg id st op = true) (hop : op.leavesRoutes = true) :
    EarlyInv id rawId (op.apply cfg st, history.write cfg st op) := by
  have hroutes := routes_of_leavesRoutes cfg st op hop
  have hplain : op.attaches cfg st id = [] ∧ op.delivers = [] ∧ op.registers cfg st = none := by
    cases op <;> first | exact ⟨rfl, rfl, rfl⟩ | simp [Op.leavesRoutes] at hop
  refine earlyInv_quiet h op hkeep (received_of_silent hplain.2.1) hplain.1 hplain.2.2
    (fun _ => ?_) ?_
  · rw [hroutes.1]
  · rw [hroutes.2]

theorem earlyInv_removePending (h : EarlyInv id rawId (st, history)) (closed : Waiter → Bool)
    (i : InstanceId) (hkeep : keepsMail cfg id st (.removePending closed i) = true) :
    EarlyInv id rawId ((Op.removePending closed i).apply cfg st,
      history.write cfg st (.removePending closed i)) := by
  refine earlyInv_quiet h _ hkeep (received_of_silent rfl) rfl rfl (fun hm => ?_) ?_
  · simp only [Op.apply, removePendingXt] at hm ⊢
    cases hi : st.pending.lookup i with
    | none => rfl
    | some xt =>
      simp only [hi, AList.mem_erase] at hm
      have hraw : rawId ≠ xt.instanceId := by
        intro hr
        exact hm.1 ((h.entry_raw i xt hi).mpr hr.symm).symm
      simp only [Map.lookup_erase_eq, if_neg hraw]
  · simp only [Op.apply, removePendingXt]
    cases st.pending.lookup i <;> rfl

theorem earlyInv_cleanup (h : EarlyInv id rawId (st, history)) (closed : Waiter → Bool)
    (now maxAge : Nat) (hkeep : keepsMail cfg id st (.cleanup closed now maxAge) = true)
    (hempty : rawId ∉ st.mailboxBuffer) :
    EarlyInv id rawId ((Op.cleanup closed now maxAge).apply cfg st,
      history.write cfg st (.cleanup closed now maxAge)) := by
  have hnone : st.mailboxBuffer.lookup rawId = none := AList.lookup_eq_none.mpr hempty
  refine earlyInv_quiet h _ hkeep (received_of_silent rfl) rfl rfl (fun hm => ?_) ?_
  · rw [Op.apply, lookup_mailboxIndex_cleanup, if_neg]
    intro hcleaned
    obtain ⟨xt, hxt, hraw⟩ := List.mem_map.mp hcleaned
    obtain ⟨hvalue, hgone⟩ := List.mem_filter.mp hxt
    obtain ⟨i, hi⟩ := (Map.mem_values st.pending xt).mp hvalue
    have hid : i = id := (h.entry_raw i xt hi).mpr hraw
    obtain ⟨xt', hx'⟩ := Map.lookup_of_mem hm
    rw [Op.apply, lookup_pending_cleanup, ← hid, hi, Option.filter_some] at hx'
    split_ifs at hx' with hkeep
    simp [hkeep] at hgone
  · rw [Op.apply, lookup_mailboxBuffer_cleanup, hnone]
    rfl

/-- A message of another raw id. -/
theorem earlyInv_foreign (h : EarlyInv id rawId (st, history)) {msg : MailboxMessage}
    (hkeep : keepsMail cfg id st (.mailbox msg) = true) (hraw : msg.instanceId ≠ rawId) :
    EarlyInv id rawId ((Op.mailbox msg).apply cfg st, history.write cfg st (.mailbox msg)) := by
  have hattach : (Op.mailbox msg).attaches cfg st id = [] := by
    rw [attaches_mailbox, if_neg]
    intro hc
    obtain ⟨xt, hxt, hx⟩ := h.ledger.routing.index_entry msg.instanceId id hc.1
    have hown := (h.entry_raw id xt hxt).mp rfl
    exact hraw (hx.symm.trans hown)
  have hbuffer : ((Op.mailbox msg).apply cfg st).mailboxBuffer.lookup rawId =
      st.mailboxBuffer.lookup rawId := by
    simp only [Op.apply, deliverMailbox]
    cases st.mailboxIndex.lookup msg.instanceId with
    | some i => rfl
    | none =>
      dsimp only
      cases hroom : roomFor st msg.instanceId with
      | false => rw [bufferOrphanMailbox_full st hroom]
      | true => rw [lookup_bufferOrphanMailbox st hroom, if_neg (Ne.symm hraw)]
  have hreceived : (history.write cfg st (.mailbox msg)).received rawId =
      history.received rawId := by
    simp [received_write, Op.delivers, hraw]
  have hindex : ((Op.mailbox msg).apply cfg st).mailboxIndex = st.mailboxIndex :=
    mailboxIndex_deliverMailbox st msg
  exact earlyInv_quiet h (.mailbox msg) hkeep hreceived hattach rfl (fun _ => by rw [hindex])
    hbuffer

/-- A message of the instance is attached when it is registered and waits otherwise. -/
theorem earlyInv_own (h : EarlyInv id rawId (st, history)) {msg : MailboxMessage}
    (hraw : msg.instanceId = rawId)
    (hroom : st.mailboxIndex.lookup rawId = none → roomFor st rawId = true) :
    EarlyInv id rawId ((Op.mailbox msg).apply cfg st, history.write cfg st (.mailbox msg)) := by
  have hindex : ((Op.mailbox msg).apply cfg st).mailboxIndex = st.mailboxIndex :=
    mailboxIndex_deliverMailbox st msg
  have hreceived : (history.write cfg st (.mailbox msg)).received rawId =
      history.received rawId ++ [msg] := by
    simp [received_write, Op.delivers, hraw]
  have hgrown := h.conserved.append_right [msg]
  cases hl : st.mailboxIndex.lookup rawId with
  | some i =>
    obtain ⟨hi, hm⟩ := h.index_eq hl
    have hattach : (Op.mailbox msg).attaches cfg st id = [msg] := by
      rw [attaches_mailbox, hraw, if_pos ⟨hl.trans (by rw [hi]), hm⟩]
    have hstays : id ∈ ((Op.mailbox msg).apply cfg st).pending := by
      obtain ⟨xt, hx⟩ := Map.lookup_of_mem hm
      obtain ⟨x, hx', -⟩ := @entry_stays cfg st (.mailbox msg) id xt rfl rfl hx
      exact Map.mem_of_lookup hx'
    have hfound : st.mailboxIndex.lookup msg.instanceId = some i := by
      rw [hraw]
      exact hl
    have hbuffer : ((Op.mailbox msg).apply cfg st).mailboxBuffer = st.mailboxBuffer := by
      simp only [Op.apply, deliverMailbox, hfound]
      rfl
    have hnone := h.drained hm
    refine earlyInv_of_kept h (.mailbox msg) rfl (fun _ _ => ?_) (fun _ => ?_) ?_
    · rw [hindex]
      exact h.indexed hm
    · rw [hbuffer]
      exact hnone
    · rw [hnone, MailHistory.attachedTo, if_pos hm] at hgrown
      rw [hreceived, hbuffer, hnone, MailHistory.attachedTo, if_pos hstays,
        accounts_of_not_registers (by simp [Op.registers]), hattach]
      simpa using hgrown
  | none =>
    have hroom' : roomFor st msg.instanceId = true := by
      rw [hraw]
      exact hroom hl
    have habsent : id ∉ st.pending := by
      intro hm
      rw [h.indexed hm] at hl
      simp at hl
    have hgone : id ∉ ((Op.mailbox msg).apply cfg st).pending :=
      fun hm => habsent (mem_of_mem_apply rfl hm)
    have hbuffer : ((Op.mailbox msg).apply cfg st).mailboxBuffer.lookup rawId =
        some ((st.mailboxBuffer.lookup rawId).getD [] ++ [msg]) := by
      have hunknown : st.mailboxIndex.lookup msg.instanceId = none := by
        rw [hraw]
        exact hl
      simp only [Op.apply, deliverMailbox, hunknown]
      rw [lookup_bufferOrphanMailbox st hroom', if_pos hraw.symm]
    refine earlyInv_of_kept h (.mailbox msg) rfl (fun hm _ => absurd hm habsent)
      (fun hm => absurd hm habsent) ?_
    rw [MailHistory.attachedTo, if_neg habsent] at hgrown
    rw [hreceived, hbuffer, MailHistory.attachedTo, if_neg hgone, Option.getD_some]
    exact hgrown

theorem delivers_of_admits {op : Op} (h : op.admits = true) : op.delivers = [] := by
  cases op <;> first | rfl | simp [Op.admits] at h

/-- A refused registration leaves everything the invariant is about. -/
theorem earlyInv_refused (h : EarlyInv id rawId (st, history)) {op : Op}
    (hkeep : keepsMail cfg id st op = true) (hadmits : op.admits = true)
    (hreg : op.registers cfg st = none) (hsame : Refused st (op.apply cfg st)) :
    EarlyInv id rawId (op.apply cfg st, history.write cfg st op) := by
  have hattach : op.attaches cfg st id = [] :=
    attaches_of_admits cfg st hadmits (by simp [hreg])
  refine earlyInv_quiet h op hkeep (received_of_silent (delivers_of_admits hadmits)) hattach hreg
    (fun _ => ?_) ?_
  · rw [hsame.2.1]
  · rw [hsame.2.2]

/-- A new entry starts with what waited for it, and nothing waits any more: the handler drains the
buffer, or there was nothing to drain. -/
theorem Admission.drains {st' : CoordinatorState} {op : Op} {xt entry : PendingXt}
    (hadm : Admission cfg st st' op xt) (hlookup : st'.pending.lookup xt.id = some entry)
    (hempty : (∃ txs, op = .submitXt txs) → xt.instanceId ∉ st.mailboxBuffer) :
    entry.pendingMailbox = (st.mailboxBuffer.lookup xt.instanceId).getD [] ∧
      st'.mailboxBuffer.lookup xt.instanceId = none := by
  cases hadm with
  | submitted txs hop hregs hxt hp hindex hbuffer =>
    have hnone : st.mailboxBuffer.lookup xt.instanceId = none :=
      AList.lookup_eq_none.mpr (hempty ⟨txs, hop⟩)
    rw [hp, AList.lookup_insert] at hlookup
    rw [hbuffer, hnone, ← Option.some.inj hlookup, hxt]
    exact ⟨rfl, rfl⟩
  | drained route hop hregs hnew hraws hfresh hp hindex hbuffer =>
    have hfirst : xt.pendingMailbox = [] := congrArg XtMail.pendingMailbox hfresh
    rw [hp, AList.lookup_insert] at hlookup
    rw [hbuffer, ← Option.some.inj hlookup, AList.lookup_erase]
    refine ⟨?_, rfl⟩
    simp [attachBuffered, hfirst]

/-- The instance itself is registered: by a handler that drains the buffer, or while nothing
waits in it. -/
theorem earlyInv_registered (h : EarlyInv id rawId (st, history)) {op : Op} {xt : PendingXt}
    (hkeep : keepsMail cfg id st op = true)
    (hadm : Admission cfg st (op.apply cfg st) op xt) (hid : xt.id = id)
    (hraw : xt.instanceId = rawId)
    (hempty : (∃ txs, op = .submitXt txs) → rawId ∉ st.mailboxBuffer) :
    EarlyInv id rawId (op.apply cfg st, history.write cfg st op) := by
  obtain ⟨entry, hpending, hentry, -, -⟩ := hadm.entry
  have hreg : (op.registers cfg st).map Prod.fst = some id := hid ▸ hadm.registers
  have hdeliver := delivers_of_admits (admits_of_registers hreg)
  have hlookup : (op.apply cfg st).pending.lookup id = some entry := by
    rw [hpending, hid, AList.lookup_insert]
  have hattach : op.attaches cfg st id = entry.pendingMailbox := by
    unfold Op.attaches
    rw [if_pos hreg, hlookup]
    rfl
  have hmoved := hadm.drains (hid ▸ hlookup) (hraw ▸ hempty)
  rw [hraw] at hmoved
  refine ⟨ledgerInv_step h.ledger op, ?_, fun _ => ?_, fun _ => hmoved.2, ?_⟩
  · intro i x hx
    rw [hpending, Map.lookup_insert_eq] at hx
    split_ifs at hx with hi
    · rw [← Option.some.inj hx, hi, hid, hentry, hraw]
      simp
    · exact h.entry_raw i x hx
  · rw [hadm.index, hraw, hid, AList.lookup_insert]
  · -- whatever was registered under the id before had no messages
    have hbefore := h.conserved
    rw [attachedTo_of_dropped h.ledger hkeep (Or.inr hreg), List.nil_append] at hbefore
    have hattached : (history.write cfg st op).attachedTo (op.apply cfg st) id =
        (st.mailboxBuffer.lookup rawId).getD [] := by
      rw [MailHistory.attachedTo, if_pos (Map.mem_of_lookup hlookup), ← hmoved.1, ← hattach]
      simp only [MailHistory.write, if_pos hreg]
    rw [received_of_silent hdeliver, hattached, hmoved.2, Option.getD_none, List.append_nil]
    exact hbefore

/-- Another instance is registered under another raw id. -/
theorem earlyInv_other (h : EarlyInv id rawId (st, history)) {op : Op} {xt : PendingXt}
    (hkeep : keepsMail cfg id st op = true)
    (hadm : Admission cfg st (op.apply cfg st) op xt) (hid : xt.id ≠ id)
    (hraw : xt.instanceId ≠ rawId) :
    EarlyInv id rawId (op.apply cfg st, history.write cfg st op) := by
  obtain ⟨entry, hpending, hentry, -, -⟩ := hadm.entry
  have hreg : (op.registers cfg st).map Prod.fst ≠ some id := by
    rw [hadm.registers]
    exact fun he => hid (Option.some.inj he)
  have hadmits := admits_of_registers hadm.registers
  have hattach := attaches_of_admits cfg st hadmits hreg
  have hdeliver := delivers_of_admits hadmits
  have hmem : id ∈ (op.apply cfg st).pending ↔ id ∈ st.pending := by
    rw [hpending, AList.mem_insert]
    exact or_iff_right (Ne.symm hid)
  have hbuffer : (op.apply cfg st).mailboxBuffer.lookup rawId =
      st.mailboxBuffer.lookup rawId := by
    cases hadm with
    | submitted txs hop hregs hxt hp hindex hb => rw [hb]
    | drained route hop hregs hnew hraws hfresh hp hindex hb =>
      rw [hb, Map.lookup_erase_eq, if_neg (Ne.symm hraw)]
  have hindex : (op.apply cfg st).mailboxIndex.lookup rawId = st.mailboxIndex.lookup rawId := by
    rw [hadm.index, Map.lookup_insert_eq, if_neg (Ne.symm hraw)]
  refine ⟨ledgerInv_step h.ledger op, ?_, fun hm => ?_, fun hm => ?_, ?_⟩
  · intro i x hx
    rw [hpending, Map.lookup_insert_eq] at hx
    split_ifs at hx with hi
    · rw [← Option.some.inj hx, hi, hentry]
      exact iff_of_false hid hraw
    · exact h.entry_raw i x hx
  · rw [hindex]
    exact h.indexed (hmem.mp hm)
  · rw [hbuffer]
    exact h.drained (hmem.mp hm)
  · rw [received_of_silent hdeliver, hbuffer,
      attachedTo_write h.ledger hkeep hreg hattach hmem.mp]
    exact h.conserved

theorem earlyInv_admits (h : EarlyInv id rawId (st, history)) {op : Op}
    (hkeep : keepsMail cfg id st op = true) (hadmits : op.admits = true)
    (hnames : namesAgree cfg id rawId st op = true)
    (hwaits : nothingWaits cfg rawId st op = true) :
    EarlyInv id rawId (op.apply cfg st, history.write cfg st op) := by
  rcases admission_of_admits cfg st hadmits with ⟨hreg, hsame⟩ | ⟨xt, hadm⟩
  · exact earlyInv_refused h hkeep hadmits hreg hsame
  · obtain ⟨entry, hpending, hentry, -, -⟩ := hadm.entry
    have hagree : xt.id = id ↔ xt.instanceId = rawId := by
      obtain ⟨⟨registered, route⟩, hr, hfst⟩ := Option.map_eq_some_iff.mp hadm.registers
      have hregistered : registered = xt.id := hfst
      unfold namesAgree at hnames
      rw [hr] at hnames
      dsimp only at hnames
      rw [hregistered, hpending, AList.lookup_insert] at hnames
      dsimp only at hnames
      rw [hentry] at hnames
      simpa using hnames
    by_cases hid : xt.id = id
    · have hraw := hagree.mp hid
      refine earlyInv_registered h hkeep hadm hid hraw (fun hsubmit => ?_)
      obtain ⟨txs, hop⟩ := hsubmit
      cases hadm with
      | submitted txs' hop' hregs hxt hp hindex hbuffer =>
        have hnext : rawId =
            InstanceId.asBytes (InstanceId.standalone cfg.chainId (st.originSeq + 1)) := by
          rw [← hraw, hxt]
          rfl
        rw [hop] at hwaits
        simpa [nothingWaits, ← hnext] using hwaits
      | drained route hother hregs hnew hraws hfresh hp hindex hbuffer =>
        exact absurd hop (hother txs)
    · exact earlyInv_other h hkeep hadm hid (fun hraw => hid (hagree.mpr hraw))

theorem earlyInv_step (h : EarlyInv id rawId (st, history)) (op : Op)
    (hcaps : withinCaps cfg id rawId st op = true) (hkeep : keepsMail cfg id st op = true)
    (hwaits : nothingWaits cfg rawId st op = true) :
    EarlyInv id rawId (op.apply cfg st, history.write cfg st op) := by
  have hadmits := @earlyInv_admits cfg id rawId st history h op hkeep
  have hroutes := @earlyInv_leavesRoutes cfg id rawId st history h op hkeep
  cases op with
  | submitXt | forwardXt | startInstance => exact hadmits rfl hcaps hwaits
  | removePending closed i => exact earlyInv_removePending h closed i hkeep
  | cleanup closed now maxAge =>
    exact earlyInv_cleanup h closed now maxAge hkeep (by simpa [nothingWaits] using hwaits)
  | rollback now => simp [withinCaps] at hcaps
  | mailbox msg =>
    by_cases hraw : msg.instanceId = rawId
    · refine earlyInv_own h hraw (fun hnone => ?_)
      simpa [withinCaps, hraw, hnone] using hcaps
    · exact earlyInv_foreign h hkeep hraw
  | sendVote | peerVote | onDecision | startPeriod | confirm | enqueue | resolve | lockChain
    | recordSimulation | fulfill | dispatch => exact hroutes rfl

end Step

/-- One locked part of a run without rollbacks and within the caps of the buffer, in which the
instance keeps the messages attached to it. -/
def EarlyStep (cfg : Config) (id : InstanceId) (rawId : Bytes)
    (s : CoordinatorState × MailHistory) (op : Op) (t : CoordinatorState × MailHistory) : Prop :=
  Recorded (Step cfg) (MailHistory.write cfg) s op t ∧ withinCaps cfg id rawId s.1 op = true ∧
    keepsMail cfg id s.1 op = true

theorem earlyInv_initial (id : InstanceId) (rawId : Bytes) : EarlyInv id rawId ({}, {}) := by
  refine ⟨ledgerInv_initial, ?_, ?_, ?_, ?_⟩
  · intro i xt h
    simp at h
  · intro h
    exact absurd h (AList.notMem_empty id)
  · intro h
    exact absurd h (AList.notMem_empty id)
  · exact .nil

/-- When no message waits while the buffer is pruned or an instance is registered without
draining it, every message of a registered instance is in its mailbox exactly once, whenever it
came, unless it was taken from there to fulfil a dependency of the instance, and none waits. -/
theorem early_mailbox_attached {cfg : Config} {id : InstanceId} {rawId : Bytes} {ops : List Op}
    {st : CoordinatorState} {history : MailHistory}
    (h : Run (fun s op t => EarlyStep cfg id rawId s op t ∧ nothingWaits cfg rawId s.1 op = true)
      ({}, {}) ops (st, history))
    {xt : PendingXt} (hx : st.pending.lookup id = some xt) :
    (history.received rawId).Perm (xt.pendingMailbox ++ (history.accounts id).consumed) ∧
      List.Forall₂ ServedBy xt.fulfilledDeps (history.accounts id).consumed ∧
      st.mailboxBuffer.lookup rawId = none := by
  have hinv : EarlyInv id rawId (st, history) := by
    refine h.invariant (I := EarlyInv id rawId) (fun s op t hs hstep => ?_)
      (earlyInv_initial id rawId)
    obtain ⟨⟨⟨hst, hmail⟩, hcaps, hkeep⟩, hwaits⟩ := hstep
    have hnext := earlyInv_step hs op hcaps hkeep hwaits
    have ht : t = (op.apply cfg s.1, s.2.write cfg s.1 op) := Prod.ext hst hmail
    rw [ht]
    exact hnext
  have hmem : id ∈ st.pending := Map.mem_of_lookup hx
  have hnone := hinv.drained hmem
  have hconserved := hinv.conserved
  rw [hnone, Option.getD_none, List.append_nil, MailHistory.attachedTo, if_pos hmem] at hconserved
  have hbooks := (hinv.ledger.entries id xt hx).balanced
  exact ⟨hconserved.trans hbooks.attached_perm, hbooks.served, hnone⟩

/-- One message comes before the registration and one after it, and one of them is used up. -/
theorem early_mailbox_attached_by_forward :
    ∃ ops st history xt,
      Run (fun s op t => EarlyStep (Config.bare 2) "xt-1-1" (InstanceId.asBytes "xt-1-1") s op t ∧
        nothingWaits (Config.bare 2) (InstanceId.asBytes "xt-1-1") s.1 op = true)
        ({}, {}) ops (st, history) ∧
      st.pending.lookup "xt-1-1" = some xt ∧
      (history.received (InstanceId.asBytes "xt-1-1")).length = 2 ∧
      xt.pendingMailbox = [sampleMessage (InstanceId.asBytes "xt-1-1") [2]] ∧
      (history.received (InstanceId.asBytes "xt-1-1")).Perm
        (xt.pendingMailbox ++ (history.accounts "xt-1-1").consumed) ∧
      List.Forall₂ ServedBy xt.fulfilledDeps (history.accounts "xt-1-1").consumed ∧
      st.mailboxBuffer.lookup (InstanceId.asBytes "xt-1-1") = none := by
  have hexec : ((execAll (recordNext (Op.apply (Config.bare 2)) (MailHistory.write (Config.bare 2)))
      (fun s op => decide ((withinCaps (Config.bare 2) "xt-1-1" (InstanceId.asBytes "xt-1-1") s.1
          op = true ∧ keepsMail (Config.bare 2) "xt-1-1" s.1 op = true) ∧
        nothingWaits (Config.bare 2) (InstanceId.asBytes "xt-1-1") s.1 op = true))
      (conservedOps "xt-1-1") ({}, {})).map
        (fun s => ((s.2.received (InstanceId.asBytes "xt-1-1")).length,
          (s.1.pending.lookup "xt-1-1").map PendingXt.pendingMailbox))) =
      some (2, some [sampleMessage (InstanceId.asBytes "xt-1-1") [2]]) := by decide
  obtain ⟨s, hs, hfacts⟩ := Option.map_eq_some_iff.mp hexec
  obtain ⟨hlen, hmailbox⟩ := Prod.mk.inj hfacts
  obtain ⟨ops, hrun⟩ := run_execAll recorded_of_recordNext hs
  obtain ⟨xt, hx, hleft⟩ := Option.map_eq_some_iff.mp hmailbox
  have hrun' : Run (fun s op t =>
      EarlyStep (Config.bare 2) "xt-1-1" (InstanceId.asBytes "xt-1-1") s op t ∧
        nothingWaits (Config.bare 2) (InstanceId.asBytes "xt-1-1") s.1 op = true)
      ({}, {}) ops (s.1, s.2) :=
    hrun.mono (fun _ _ _ hstep => ⟨⟨hstep.1, hstep.2.1⟩, hstep.2.2⟩)
  exact ⟨ops, s.1, s.2, xt, hrun', hx, hlen, hleft, early_mailbox_attached hrun' hx⟩

/-- A cleanup tick between a message and the registration loses the message, and an instance
submitted here leaves the message of its raw id in the buffer. -/
theorem early_mailbox_lost :
    (∃ ops st history xt,
      Run (EarlyStep (Config.bare 2) "xt-1-1" (InstanceId.asBytes "xt-1-1")) ({}, {}) ops
        (st, history) ∧
      st.pending.lookup "xt-1-1" = some xt ∧
      (history.received (InstanceId.asBytes "xt-1-1")).length = 1 ∧
      xt.pendingMailbox = [] ∧ xt.fulfilledDeps = []) ∧
    (∃ ops st history xt,
      Run (EarlyStep (Config.bare 2) "xt-2-1" (InstanceId.asBytes "xt-2-1")) ({}, {}) ops
        (st, history) ∧
      st.pending.lookup "xt-2-1" = some xt ∧ xt.pendingMailbox = [] ∧ xt.fulfilledDeps = [] ∧
      st.mailboxBuffer.lookup (InstanceId.asBytes "xt-2-1") =
        some [sampleMessage (InstanceId.asBytes "xt-2-1") [1]]) := by
  constructor
  · have hexec : ((execAll (recordNext (Op.apply (Config.bare 2))
          (MailHistory.write (Config.bare 2)))
        (fun s op => decide (withinCaps (Config.bare 2) "xt-1-1" (InstanceId.asBytes "xt-1-1") s.1
          op = true ∧ keepsMail (Config.bare 2) "xt-1-1" s.1 op = true))
        [.mailbox (sampleMessage (InstanceId.asBytes "xt-1-1") [1]),
          .cleanup (fun _ => false) 30 300, .forwardXt "xt-1-1" sampleTxs 1 1] ({}, {})).map
          (fun s => ((s.2.received (InstanceId.asBytes "xt-1-1")).length,
            (s.1.pending.lookup "xt-1-1").map
              (fun xt => (xt.pendingMailbox, xt.fulfilledDeps))))) =
        some (1, some ([], [])) := by decide
    obtain ⟨s, hs, hfacts⟩ := Option.map_eq_some_iff.mp hexec
    obtain ⟨hlen, hrest⟩ := Prod.mk.inj hfacts
    obtain ⟨ops, hrun⟩ := run_execAll recorded_of_recordNext hs
    obtain ⟨xt, hx, hempty⟩ := Option.map_eq_some_iff.mp hrest
    exact ⟨ops, s.1, s.2, xt, hrun, hx, hlen, Prod.mk.inj hempty⟩
  · have hexec : ((execAll (recordNext (Op.apply (Config.bare 2))
          (MailHistory.write (Config.bare 2)))
        (fun s op => decide (withinCaps (Config.bare 2) "xt-2-1" (InstanceId.asBytes "xt-2-1") s.1
          op = true ∧ keepsMail (Config.bare 2) "xt-2-1" s.1 op = true))
        [.mailbox (sampleMessage (InstanceId.asBytes "xt-2-1") [1]), .submitXt sampleTxs]
        ({}, {})).map
          (fun s => (s.1.mailboxBuffer.lookup (InstanceId.asBytes "xt-2-1"),
            (s.1.pending.lookup "xt-2-1").map
              (fun xt => (xt.pendingMailbox, xt.fulfilledDeps))))) =
        some (some [sampleMessage (InstanceId.asBytes "xt-2-1") [1]], some ([], [])) := by decide
    obtain ⟨s, hs, hfacts⟩ := Option.map_eq_some_iff.mp hexec
    obtain ⟨hbuffer, hrest⟩ := Prod.mk.inj hfacts
    obtain ⟨ops, hrun⟩ := run_execAll recorded_of_recordNext hs
    obtain ⟨xt, hx, hempty⟩ := Option.map_eq_some_iff.mp hrest
    obtain ⟨hmailbox, hdeps⟩ := Prod.mk.inj hempty
    exact ⟨ops, s.1, s.2, xt, hrun, hx, hmailbox, hdeps, hbuffer⟩

end Sidecar.Coordinator
