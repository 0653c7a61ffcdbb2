import Sidecar.Coordinator.Commands

namespace Sidecar.Coordinator

/-- What a locked part does to the entry of an instance that it does not register, with every
field. -/
inductive EntryStep (cfg : Config) : Op → InstanceId → PendingXt → PendingXt → Prop
  | same (op : Op) (id : InstanceId) (xt : PendingXt) : EntryStep cfg op id xt xt
  | voted (id : InstanceId) (vote standalone : Bool) (now : Instant) {xt : PendingXt}
      (h : xt.localVote = none) :
      EntryStep cfg (.sendVote id vote standalone now) id xt
        (castVote cfg xt vote standalone now).1
  | peerVoted (id : InstanceId) (chainId : ChainId) (vote : Bool) (now : Instant)
      {xt : PendingXt} (hd : xt.decision = none) (hv : chainId ∉ xt.peerVotes) :
      EntryStep cfg (.peerVote id chainId vote now) id xt
        (maybeMakeStandaloneDecision cfg.chainId
          { xt with peerVotes := xt.peerVotes.insert chainId vote } now).1
  | decided (id : InstanceId) (decision : Bool) (now : Instant) {xt : PendingXt}
      (hd : xt.decision = none) :
      EntryStep cfg (.onDecision id decision now) id xt (xt.recordDecision decision now)
  | outdated (id : InstanceId) (periodId : PeriodId) (now : Instant) {xt : PendingXt}
      (h : isStale periodId xt = true) :
      EntryStep cfg (.startPeriod periodId now) id xt (abortUndecided xt now)
  | rolledBack (id : InstanceId) (now : Instant) (xt : PendingXt) :
      EntryStep cfg (.rollback now) id xt (forceAbort xt now)
  | confirmed (id : InstanceId) (ids : List InstanceId) (now : Instant) (xt : PendingXt) :
      EntryStep cfg (.confirm ids now) id xt { xt with confirmedAt := some now }
  | delivered (id : InstanceId) (msg : MailboxMessage) (xt : PendingXt) :
      EntryStep cfg (.mailbox msg) id xt
        { xt with pendingMailbox := xt.pendingMailbox ++ [msg] }
  | locked (id : InstanceId) (xt : PendingXt) :
      EntryStep cfg (.lockChain id) id xt
        { xt with lockedChains := insert cfg.chainId xt.lockedChains }
  | recorded (id : InstanceId) (result : SimulationResult) (base : StateOverride)
      (xt : PendingXt) :
      EntryStep cfg (.recordSimulation id result base) id xt (recordResult xt result)
  | fulfilled (id : InstanceId) (deps : List CrossRollupDependency) (xt : PendingXt) :
      EntryStep cfg (.fulfill id deps) id xt (fulfillXt xt deps).1
  | dispatched (id : InstanceId) (outbound : List CrossRollupMessage) (xt : PendingXt) :
      EntryStep cfg (.dispatch id outbound) id xt (claimOutbound xt outbound).1

section Effect

variable {cfg : Config} {st : CoordinatorState}

/-- The instance was there before, and this is what became of it. -/
def EntryFrom (cfg : Config) (st : CoordinatorState) (op : Op) (id : InstanceId)
    (xt' : PendingXt) : Prop :=
  ∃ xt, st.pending.lookup id = some xt ∧ EntryStep cfg op id xt xt'

theorem entryFrom_same {op : Op} {id : InstanceId} {xt' : PendingXt}
    (h : st.pending.lookup id = some xt') : EntryFrom cfg st op id xt' :=
  ⟨xt', h, .same op id xt'⟩

/-- A change of one entry. -/
theorem entryFrom_updateXt {op : Op} {i id : InstanceId} {f : PendingXt → PendingXt}
    {xt' : PendingXt}
    (hf : ∀ xt, st.pending.lookup i = some xt → EntryStep cfg op i xt (f xt))
    (h : (st.updateXt i f).pending.lookup id = some xt') : EntryFrom cfg st op id xt' := by
  rw [lookup_updateXt] at h
  split_ifs at h with hid
  · obtain ⟨xt, hxt, rfl⟩ := Option.map_eq_some_iff.mp h
    subst hid
    exact ⟨xt, hxt, hf xt hxt⟩
  · exact entryFrom_same h

/-- A change of every entry. -/
theorem entryFrom_mapVals {op : Op} {id : InstanceId} {f : PendingXt → PendingXt}
    {xt' : PendingXt} (hf : ∀ xt, EntryStep cfg op id xt (f xt))
    (h : (Map.mapVals (fun _ xt => f xt) st.pending).lookup id = some xt') :
    EntryFrom cfg st op id xt' := by
  rw [Map.lookup_mapVals] at h
  obtain ⟨xt, hxt, rfl⟩ := Option.map_eq_some_iff.mp h
  exact ⟨xt, hxt, hf xt⟩

theorem entryFrom_registersOnly {op : Op} {id : InstanceId} {xt' : PendingXt}
    (hop : RegistersOnly cfg st op) (hreg : ∀ route, op.registers cfg st ≠ some (id, route))
    (h : (op.apply cfg st).pending.lookup id = some xt') : EntryFrom cfg st op id xt' := by
  rcases hop with ⟨-, hp⟩ | ⟨i, route, xt, hr, -, hp⟩
  · rw [hp] at h
    exact entryFrom_same h
  · rw [hp, Map.lookup_insert_eq] at h
    split_ifs at h with hid
    · exact absurd hr (hid ▸ hreg route)
    · exact entryFrom_same h

theorem entryFrom_confirm {ids all : List InstanceId} {now : Instant} {id : InstanceId}
    {xt' : PendingXt} (h : (confirmIncluded st ids now).pending.lookup id = some xt') :
    ∃ xt, st.pending.lookup id = some xt ∧ EntryStep cfg (.confirm all now) id xt xt' := by
  induction ids generalizing st with
  | nil => exact ⟨xt', h, .same _ id xt'⟩
  | cons i ids ih =>
    obtain ⟨x, hx, hstep⟩ := ih h
    rw [lookup_updateXt] at hx
    split_ifs at hx with hid
    · obtain ⟨xt, hxt, rfl⟩ := Option.map_eq_some_iff.mp hx
      cases hstep with
      | same => exact ⟨xt, hxt, .confirmed id all now xt⟩
      | confirmed => exact ⟨xt, hxt, .confirmed id all now xt⟩
    · exact ⟨x, hx, hstep⟩

/-- What a locked part does to an instance it does not register, said once for all parts. -/
theorem entryStep {op : Op} {id : InstanceId} {xt' : PendingXt}
    (hreg : ∀ route, op.registers cfg st ≠ some (id, route))
    (h : (op.apply cfg st).pending.lookup id = some xt') : EntryFrom cfg st op id xt' := by
  cases op with
  | submitXt txs => exact entryFrom_registersOnly (submitXt_registersOnly cfg st txs) hreg h
  | forwardXt i txs originChain originSeq =>
    exact entryFrom_registersOnly (forwardXt_registersOnly cfg st i txs originChain originSeq) hreg h
  | startInstance inst =>
    exact entryFrom_registersOnly (startInstance_registersOnly cfg st inst) hreg h
  | removePending closed i =>
    simp only [Op.apply, removePendingXt] at h
    cases hl : st.pending.lookup i with
    | none =>
      simp only [hl] at h
      exact entryFrom_same h
    | some xt =>
      simp only [hl] at h
      rw [Map.lookup_erase_eq] at h
      split_ifs at h
      exact entryFrom_same h
  | sendVote i vote standalone now =>
    simp only [Op.apply, recordVote] at h
    cases hl : st.pending.lookup i with
    | none =>
      simp only [hl] at h
      exact entryFrom_same h
    | some xt =>
      simp only [hl] at h
      split_ifs at h with hv
      · exact entryFrom_same h
      · refine entryFrom_updateXt (fun x hx => ?_) h
        obtain rfl := Option.some.inj (hl.symm.trans hx)
        exact .voted i vote standalone now (by simpa using hv)
  | peerVote i chainId vote now =>
    simp only [Op.apply, recordPeerVote] at h
    cases hl : st.pending.lookup i with
    | none =>
      simp only [hl] at h
      exact entryFrom_same h
    | some xt =>
      simp only [hl] at h
      split_ifs at h with hd hv
      · exact entryFrom_same h
      · exact entryFrom_same h
      · refine entryFrom_updateXt (fun x hx => ?_) h
        obtain rfl := Option.some.inj (hl.symm.trans hx)
        exact .peerVoted i chainId vote now (by simpa using hd) hv
  | onDecision i decision now =>
    simp only [Op.apply, recordPublisherDecision] at h
    cases hl : st.pending.lookup i with
    | none =>
      simp only [hl] at h
      exact entryFrom_same h
    | some xt =>
      simp only [hl] at h
      split_ifs at h with hd
      · exact entryFrom_same h
      all_goals
        refine entryFrom_updateXt (fun x hx => ?_) h
        obtain rfl := Option.some.inj (hl.symm.trans hx)
        exact .decided i decision now (by simpa using hd)
  | startPeriod periodId now =>
    refine entryFrom_mapVals (f := fun xt =>
      if isStale periodId xt then abortUndecided xt now else xt) (fun xt => ?_) h
    by_cases hs : isStale periodId xt = true
    · rw [if_pos hs]
      exact .outdated id periodId now hs
    · rw [if_neg hs]
      exact .same _ id xt
  | rollback now => exact entryFrom_mapVals (fun xt => .rolledBack id now xt) h
  | confirm ids now => exact entryFrom_confirm h
  | cleanup closed now maxAge =>
    simp only [Op.apply, cleanup, Map.lookup_retain] at h
    exact entryFrom_same (Option.filter_eq_some_iff.mp h).1
  | mailbox msg =>
    simp only [Op.apply, deliverMailbox] at h
    cases hi : st.mailboxIndex.lookup msg.instanceId with
    | some i =>
      simp only [hi] at h
      exact entryFrom_updateXt (fun xt _ => .delivered i msg xt) h
    | none =>
      simp only [hi, CoordinatorState.bufferOrphanMailbox] at h
      split at h <;> split_ifs at h <;> exact entryFrom_same h
  | enqueue fingerprint waiter => exact entryFrom_same h
  | resolve fingerprint => exact entryFrom_same h
  | lockChain i => exact entryFrom_updateXt (fun xt _ => .locked i xt) h
  | recordSimulation i result base =>
    simp only [Op.apply, recordSimulationState] at h
    split_ifs at h with hm
    · cases hk : keptOverrides result <;> simp only [hk] at h <;>
        exact entryFrom_updateXt (fun xt _ => .recorded i result base xt) h
    · exact entryFrom_same h
  | fulfill i deps =>
    simp only [Op.apply, fulfillDependenciesFromMailbox] at h
    cases hl : st.pending.lookup i with
    | none =>
      simp only [hl] at h
      exact entryFrom_same h
    | some xt =>
      simp only [hl] at h
      refine entryFrom_updateXt (fun x hx => ?_) h
      obtain rfl := Option.some.inj (hl.symm.trans hx)
      exact .fulfilled i deps xt
  | dispatch i outbound =>
    simp only [Op.apply, dispatchOutbound] at h
    cases hl : st.pending.lookup i with
    | none =>
      simp only [hl] at h
      exact entryFrom_same h
    | some xt =>
      simp only [hl] at h
      refine entryFrom_updateXt (fun x hx => ?_) h
      obtain rfl := Option.some.inj (hl.symm.trans hx)
      exact .dispatched i outbound xt

end Effect

/-- The entry that a registration leaves, with every field, and what the handler found. -/
inductive RegisteredAs (cfg : Config) (st : CoordinatorState) : Op → PendingXt → Prop
  | submitted (txs : RawTxs) :
      RegisteredAs cfg st (.submitXt txs) (standaloneXt cfg (st.originSeq + 1) txs)
  | forwarded (id : InstanceId) (txs : RawTxs) (originChain : ChainId)
      (originSeq : SequenceNumber) (hnew : id ∉ st.pending) :
      RegisteredAs cfg st (.forwardXt id txs originChain originSeq)
        (attachBuffered (forwardedXt cfg id (cleanTxs txs) originChain originSeq)
          ((st.mailboxBuffer.lookup (InstanceId.asBytes id)).getD []))
  | started (inst : SpecInstance) (hnew : InstanceId.fromPublisherBytes inst.id ∉ st.pending) :
      RegisteredAs cfg st (.startInstance inst)
        (attachBuffered (startedXt cfg inst) ((st.mailboxBuffer.lookup inst.id).getD []))

section Registered

variable {cfg : Config} {st : CoordinatorState}

/-- A registration, said once for the three handlers. -/
theorem registeredAs {op : Op} {id : InstanceId} {route : Route}
    (h : op.registers cfg st = some (id, route)) :
    ∃ xt, xt.id = id ∧ RegisteredAs cfg st op xt ∧
      (op.apply cfg st).pending = st.pending.insert id xt := by
  cases op with
  | submitXt txs =>
    obtain ⟨-, sub, hsub⟩ := registers_submitXt cfg st h
    rcases submitXt_spec cfg st txs with ⟨hno, -⟩ | ⟨ho, hp⟩
    · exact absurd hsub (hno id sub)
    · have hid : (standaloneXt cfg (st.originSeq + 1) txs).id = id :=
        (SubmitOutcome.registered.inj (ho.symm.trans hsub)).1
      exact ⟨_, hid, .submitted txs, by rw [← hid]; exact hp⟩
  | forwardXt i txs originChain originSeq =>
    obtain ⟨rfl, -, sub, has, hsub⟩ := registers_forwardXt cfg st h
    rcases forwardXt_cases cfg st id txs originChain originSeq with ⟨hno, -⟩ | ⟨hnew, -, hs⟩
    · exact absurd hsub (hno sub has)
    · refine ⟨_, rfl, .forwarded id txs originChain originSeq hnew, ?_⟩
      rw [Op.apply, hs, pending_insertXt]
      rfl
  | startInstance inst =>
    obtain ⟨rfl, -, sub, has, hsub⟩ := registers_startInstance cfg st h
    rcases registerStarted_cases cfg st inst with ⟨hno, -⟩ | ⟨period, hnew, -, hs⟩
    · exact absurd hsub (hno sub has)
    · refine ⟨_, rfl, .started inst hnew, ?_⟩
      rw [Op.apply, hs, pending_insertXt]
      rfl
  | removePending | sendVote | peerVote | onDecision | startPeriod | rollback | confirm | cleanup
    | mailbox | enqueue | resolve | lockChain | recordSimulation | fulfill | dispatch =>
    simp [Op.registers] at h

/-- The entry found under a registered id is the one the registration left. -/
theorem registeredAs_of_lookup {op : Op} {id : InstanceId} {route : Route} {xt : PendingXt}
    (h : op.registers cfg st = some (id, route))
    (hx : (op.apply cfg st).pending.lookup id = some xt) :
    xt.id = id ∧ RegisteredAs cfg st op xt := by
  obtain ⟨x, hid, hreg, hp⟩ := registeredAs h
  rw [hp, AList.lookup_insert] at hx
  rw [← Option.some.inj hx]
  exact ⟨hid, hreg⟩

end Registered

/-- What the state keeps beside the instances: the period, the counter of submissions, and the
maps that lead to instances. -/
structure Registry where
  publisherPeriod : PublisherPeriod
  originSeq : SequenceNumber
  submittedFingerprints : Map String InstanceId
  mailboxIndex : Map Bytes InstanceId
  mailboxBuffer : Map Bytes (List MailboxMessage)

def CoordinatorState.registry (st : CoordinatorState) : Registry :=
  { publisherPeriod := st.publisherPeriod
    originSeq := st.originSeq
    submittedFingerprints := st.submittedFingerprints
    mailboxIndex := st.mailboxIndex
    mailboxBuffer := st.mailboxBuffer }

/-- The locked parts that work on instances, overlays and waiters only. -/
def Op.keepsRegistry : Op → Bool
  | .sendVote _ _ _ _ | .peerVote _ _ _ _ | .onDecision _ _ _ | .confirm _ _ | .enqueue _ _
  | .resolve _ | .lockChain _ | .recordSimulation _ _ _ | .fulfill _ _ | .dispatch _ _ => true
  | _ => false

/-- The locked parts that work on pending instances only. -/
def Op.onPending : Op → Bool
  | .sendVote _ _ _ _ | .peerVote _ _ _ _ | .confirm _ _ | .lockChain _ | .fulfill _ _
  | .dispatch _ _ => true
  | _ => false

/-- The locked parts that work on instances and overlays only. -/
def Op.onInstances : Op → Bool
  | .sendVote _ _ _ _ | .peerVote _ _ _ _ | .onDecision _ _ _ | .confirm _ _ | .lockChain _
  | .recordSimulation _ _ _ | .fulfill _ _ | .dispatch _ _ => true
  | _ => false

section Registry

variable (cfg : Config) (st : CoordinatorState)

theorem confirmIncluded_eq (ids : List InstanceId) (now : Instant) :
    ∃ pending, confirmIncluded st ids now = { st with pending := pending } := by
  unfold confirmIncluded
  induction ids generalizing st with
  | nil => exact ⟨st.pending, rfl⟩
  | cons id ids ih =>
    obtain ⟨pending, he⟩ := ih (st.updateXt id (fun xt => { xt with confirmedAt := some now }))
    exact ⟨pending, he⟩

theorem apply_onPending {op : Op} (h : op.onPending = true) :
    ∃ pending, op.apply cfg st = { st with pending := pending } := by
  cases op with
  | sendVote id vote standalone now =>
    simp only [Op.apply, recordVote]
    split
    · exact ⟨_, rfl⟩
    · split_ifs <;> exact ⟨_, rfl⟩
  | peerVote id chainId vote now =>
    simp only [Op.apply, recordPeerVote]
    split
    · exact ⟨_, rfl⟩
    · split_ifs <;> exact ⟨_, rfl⟩
  | confirm ids now => exact confirmIncluded_eq st ids now
  | fulfill id deps =>
    simp only [Op.apply, fulfillDependenciesFromMailbox]
    split <;> exact ⟨_, rfl⟩
  | dispatch id outbound =>
    simp only [Op.apply, dispatchOutbound]
    split <;> exact ⟨_, rfl⟩
  | lockChain id => exact ⟨_, rfl⟩
  | submitXt | forwardXt | startInstance | removePending | onDecision | startPeriod | rollback
    | cleanup | mailbox | enqueue | resolve | recordSimulation => simp [Op.onPending] at h

theorem apply_onInstances {op : Op} (h : op.onInstances = true) :
    ∃ pending chainOverlay,
      op.apply cfg st = { st with pending := pending, chainOverlay := chainOverlay } := by
  have hframe : op.onPending = true → ∃ pending chainOverlay,
      op.apply cfg st = { st with pending := pending, chainOverlay := chainOverlay } := by
    intro ho
    obtain ⟨pending, he⟩ := apply_onPending cfg st ho
    exact ⟨pending, st.chainOverlay, he⟩
  cases op with
  | onDecision id decision now =>
    simp only [Op.apply, recordPublisherDecision]
    split
    · exact ⟨_, _, rfl⟩
    · split_ifs <;> exact ⟨_, _, rfl⟩
  | recordSimulation id result base =>
    simp only [Op.apply, recordSimulationState]
    split_ifs
    · split <;> exact ⟨_, _, rfl⟩
    · exact ⟨_, _, rfl⟩
  | sendVote | peerVote | confirm | lockChain | fulfill | dispatch => exact hframe rfl
  | submitXt | forwardXt | startInstance | removePending | startPeriod | rollback | cleanup
    | mailbox | enqueue | resolve => simp [Op.onInstances] at h

theorem registry_apply {op : Op} (h : op.keepsRegistry = true) :
    (op.apply cfg st).registry = st.registry := by
  have hframe : op.onInstances = true → (op.apply cfg st).registry = st.registry := by
    intro ho
    obtain ⟨pending, chainOverlay, he⟩ := apply_onInstances cfg st ho
    rw [he]
    rfl
  cases op with
  | submitXt | forwardXt | startInstance | removePending | startPeriod | rollback | cleanup
    | mailbox => simp [Op.keepsRegistry] at h
  | enqueue | resolve => rfl
  | sendVote | peerVote | onDecision | confirm | lockChain | recordSimulation | fulfill
    | dispatch => exact hframe rfl

/-- A delivered message changes the buffer and nothing else of the registry. -/
theorem registry_deliverMailbox (msg : MailboxMessage) :
    (deliverMailbox st msg).registry =
      { st.registry with mailboxBuffer := (deliverMailbox st msg).mailboxBuffer } := by
  simp only [deliverMailbox, CoordinatorState.bufferOrphanMailbox]
  split
  · rfl
  · split <;> split_ifs <;> rfl

/-- Only a submission counts up the sequence number. -/
theorem originSeq_apply (op : Op) (h : ∀ txs, op ≠ .submitXt txs) :
    (op.apply cfg st).originSeq = st.originSeq := by
  have hregistry : op.keepsRegistry = true → (op.apply cfg st).originSeq = st.originSeq :=
    fun hkeeps => congrArg Registry.originSeq (registry_apply cfg st hkeeps)
  cases op with
  | submitXt txs => exact absurd rfl (h txs)
  | forwardXt id txs originChain originSeq =>
    rcases forwardXt_cases cfg st id txs originChain originSeq with ⟨-, hs⟩ | ⟨-, -, hs⟩
    · rw [Op.apply, hs]
    · rw [Op.apply, hs]
      rfl
  | startInstance inst =>
    rcases registerStarted_cases cfg st inst with ⟨-, hs⟩ | ⟨period, -, -, hs⟩
    · rw [Op.apply, hs]
    · rw [Op.apply, hs]
      rfl
  | removePending closed id =>
    simp only [Op.apply, removePendingXt]
    split <;> rfl
  | mailbox msg => exact congrArg Registry.originSeq (registry_deliverMailbox st msg)
  | startPeriod | rollback | cleanup => rfl
  | sendVote | peerVote | onDecision | confirm | enqueue | resolve | lockChain | recordSimulation
    | fulfill | dispatch => exact hregistry rfl

theorem originSeq_submitXt (txs : RawTxs) :
    let r := submitXt cfg st txs
    st.originSeq ≤ r.1.originSeq ∧
      ∀ id sub, r.2 = .registered id sub → r.1.originSeq = st.originSeq + 1 := by
  have h := submitXt_effect cfg st txs
  generalize submitXt cfg st txs = r at h
  cases h with
  | rejected | duplicate | full => exact ⟨le_rfl, by simp⟩
  | registered => exact ⟨Nat.le_succ _, fun _ _ _ => rfl⟩

theorem originSeq_unregistered (txs : RawTxs)
    (h : ∀ id sub, (submitXt cfg st txs).2 ≠ .registered id sub) :
    (submitXt cfg st txs).1.originSeq = st.originSeq := by
  have heffect := submitXt_effect cfg st txs
  generalize submitXt cfg st txs = r at h heffect ⊢
  cases heffect with
  | rejected | duplicate | full => rfl
  | registered => exact absurd rfl (h _ _)

theorem originSeq_mono (op : Op) : st.originSeq ≤ (op.apply cfg st).originSeq := by
  by_cases h : ∃ txs, op = .submitXt txs
  · obtain ⟨txs, rfl⟩ := h
    exact (originSeq_submitXt cfg st txs).1
  · exact (originSeq_apply cfg st op (fun txs he => h ⟨txs, he⟩)).ge

end Registry

end Sidecar.Coordinator
