import Sidecar.Coordinator.Decision
import Sidecar.Coordinator.Pipeline
import Sidecar.Framework.Firsts
import Sidecar.Framework.Run

namespace Sidecar.Coordinator

/-- How an instance came to be registered. -/
inductive Route where
  | submitted
  | forwarded
  | started
  deriving DecidableEq

/-- The locked parts of all handlers and of the simulation pipeline. Each runs alone, so
every interleaving of the coordinator's tasks is a sequence of these. -/
inductive Op where
  | submitXt (txs : RawTxs)
  | forwardXt (id : InstanceId) (txs : RawTxs) (originChain : ChainId) (originSeq : SequenceNumber)
  | startInstance (inst : SpecInstance)
  | removePending (closed : Waiter → Bool) (id : InstanceId)
  | sendVote (id : InstanceId) (vote standalone : Bool) (now : Instant)
  | peerVote (id : InstanceId) (chainId : ChainId) (vote : Bool) (now : Instant)
  | onDecision (id : InstanceId) (decision : Bool) (now : Instant)
  | startPeriod (periodId : PeriodId) (now : Instant)
  | rollback (now : Instant)
  | confirm (ids : List InstanceId) (now : Instant)
  | cleanup (closed : Waiter → Bool) (now maxAge : Nat)
  | mailbox (msg : MailboxMessage)
  | enqueue (fingerprint : String) (waiter : Waiter)
  | resolve (fingerprint : String)
  | lockChain (id : InstanceId)
  | recordSimulation (id : InstanceId) (result : SimulationResult) (base : StateOverride)
  | fulfill (id : InstanceId) (deps : List CrossRollupDependency)
  | dispatch (id : InstanceId) (outbound : List CrossRollupMessage)

namespace Op

variable (cfg : Config) (st : CoordinatorState)

def apply : Op → CoordinatorState
  | submitXt txs => (Coordinator.submitXt cfg st txs).1
  | forwardXt id txs originChain originSeq =>
    (Coordinator.forwardXt cfg st id txs originChain originSeq).1
  | startInstance inst => (registerStarted cfg st inst).1
  | removePending closed id => removePendingXt closed st id
  | sendVote id vote standalone now => (recordVote cfg st id vote standalone now).1
  | peerVote id chainId vote now => (recordPeerVote cfg st id chainId vote now).1
  | onDecision id decision now => (recordPublisherDecision cfg st id decision now).1
  | startPeriod periodId now => (openPeriod cfg st periodId now).1
  | rollback now => (rollBack cfg st now).1
  | confirm ids now => confirmIncluded st ids now
  | cleanup closed now maxAge => Coordinator.cleanup closed st now maxAge
  | mailbox msg => deliverMailbox st msg
  | enqueue fingerprint waiter => (enqueueSubmission st fingerprint waiter).1
  | resolve fingerprint => (takeSubmission st fingerprint).1
  | lockChain id => lockLocalChain cfg st id
  | recordSimulation id result base => (recordSimulationState cfg st id result base).1
  | fulfill id deps => (fulfillDependenciesFromMailbox st id deps).1
  | dispatch id outbound => (dispatchOutbound st id outbound).1

/-- The commands for the local builder that a locked part decides on. -/
def commands : Op → List XtBuilderCommand
  | sendVote id vote standalone now =>
    (((recordVote cfg st id vote standalone now).2).bind VoteRecord.command).toList
  | peerVote id chainId vote now =>
    match (recordPeerVote cfg st id chainId vote now).2 with
    | .ok command => command.toList
    | .error _ => []
  | onDecision id decision now =>
    match (recordPublisherDecision cfg st id decision now).2 with
    | .ok command => command.toList
    | .error _ => []
  | startPeriod periodId now =>
    (openPeriod cfg st periodId now).2.builderAbortIds.map XtBuilderCommand.abort
  | rollback now => (rollBack cfg st now).2.builderAbortIds.map XtBuilderCommand.abort
  | _ => []

/-- The instance a locked part registers, and by which route. -/
def registers : Op → Option (InstanceId × Route)
  | submitXt txs =>
    match (Coordinator.submitXt cfg st txs).2 with
    | .registered id _ => some (id, .submitted)
    | _ => none
  | forwardXt id txs originChain originSeq =>
    match (Coordinator.forwardXt cfg st id txs originChain originSeq).2 with
    | .registered _ _ => some (id, .forwarded)
    | _ => none
  | startInstance inst =>
    match (registerStarted cfg st inst).2 with
    | .registered _ _ => some (InstanceId.fromPublisherBytes inst.id, .started)
    | _ => none
  | _ => none

/-- The instances a locked part may take out. -/
def removes : Op → InstanceId → Bool
  | removePending _ removed, id => removed = id
  | cleanup _ _ _, _ => true
  | _, _ => false

end Op

/-- The part of an instance that votes and decisions are about. The simulation pipeline,
the mailbox and confirmations never touch it. -/
structure XtCore where
  id : InstanceId
  instanceId : Bytes
  periodId : PeriodId
  rawTxs : RawTxs
  decision : Option Bool
  localVote : Option Bool
  peerVotes : Map ChainId Bool
  originChain : Option ChainId

def PendingXt.core (xt : PendingXt) : XtCore :=
  { id := xt.id
    instanceId := xt.instanceId
    periodId := xt.periodId
    rawTxs := xt.rawTxs
    decision := xt.decision
    localVote := xt.localVote
    peerVotes := xt.peerVotes
    originChain := xt.originChain }

/-- An instance as registration leaves it. Only the publisher's instances have no origin. -/
structure FreshXt (id : InstanceId) (route : Route) (xt : PendingXt) : Prop where
  id_eq : xt.id = id
  decision_eq : xt.decision = none
  localVote_eq : xt.localVote = none
  peerVotes_eq : xt.peerVotes = ∅
  origin_iff : xt.originChain = none ↔ route = .started

/-- Everything a locked part can do to the entry of one instance. -/
inductive XtEffect (cfg : Config) (st : CoordinatorState) :
    Op → InstanceId → Option PendingXt → Option PendingXt → Prop
  | same (op : Op) (id : InstanceId) (o : Option PendingXt) : XtEffect cfg st op id o o
  | touched (op : Op) (id : InstanceId) {xt xt' : PendingXt} (h : xt'.core = xt.core) :
      XtEffect cfg st op id (some xt) (some xt')
  | removed (op : Op) (id : InstanceId) (xt : PendingXt) (h : op.removes id = true) :
      XtEffect cfg st op id (some xt) none
  | registered (op : Op) (id : InstanceId) (route : Route) (o : Option PendingXt)
      {xt : PendingXt} (h : op.registers cfg st = some (id, route)) (hf : FreshXt id route xt) :
      XtEffect cfg st op id o (some xt)
  | voted (id : InstanceId) (vote standalone : Bool) (now : Instant) {xt : PendingXt}
      (h : xt.localVote = none) :
      XtEffect cfg st (.sendVote id vote standalone now) id (some xt)
        (some (castVote cfg xt vote standalone now).1)
  | peerVoted (id : InstanceId) (chainId : ChainId) (vote : Bool) (now : Instant)
      {xt : PendingXt} (hd : xt.decision = none) (hv : chainId ∉ xt.peerVotes) :
      XtEffect cfg st (.peerVote id chainId vote now) id (some xt)
        (some (maybeMakeStandaloneDecision cfg.chainId
          { xt with peerVotes := xt.peerVotes.insert chainId vote } now).1)
  | decided (id : InstanceId) (decision : Bool) (now : Instant) {xt : PendingXt}
      (hd : xt.decision = none) :
      XtEffect cfg st (.onDecision id decision now) id (some xt)
        (some (xt.recordDecision decision now))
  | outdated (id : InstanceId) (periodId : PeriodId) (now : Instant) {xt : PendingXt}
      (h : isStale periodId xt = true) :
      XtEffect cfg st (.startPeriod periodId now) id (some xt) (some (abortUndecided xt now))
  | rolledBack (id : InstanceId) (now : Instant) (xt : PendingXt) :
      XtEffect cfg st (.rollback now) id (some xt) (some (forceAbort xt now))

theorem lookup_updateXt (st : CoordinatorState) (id id' : InstanceId) (f : PendingXt → PendingXt) :
    (st.updateXt id f).pending.lookup id' =
      if id' = id then (st.pending.lookup id').map f else st.pending.lookup id' :=
  Map.lookup_update id id' f st.pending

section Registration

variable (cfg : Config) (st : CoordinatorState)

/-- A submission leaves the pending instances alone or adds one under the next number. -/
def SubmitSpec (txs : RawTxs) (r : CoordinatorState × SubmitOutcome) : Prop :=
  ((∀ id sub, r.2 ≠ .registered id sub) ∧ r.1.pending = st.pending) ∨
    (r.2 = .registered (standaloneXt cfg (st.originSeq + 1) txs).id
        (localBuilderSubmission cfg.chainId (standaloneXt cfg (st.originSeq + 1) txs)) ∧
      r.1.pending = st.pending.insert (standaloneXt cfg (st.originSeq + 1) txs).id
        (standaloneXt cfg (st.originSeq + 1) txs))

/-- Everything a submission can do. An entry under its fingerprint that leads nowhere is forgotten,
whether there is room for the instance or not. -/
inductive SubmitEffect (cfg : Config) (st : CoordinatorState) (txs : RawTxs) :
    CoordinatorState × SubmitOutcome → Prop
  | rejected (err : CoordinatorError) : SubmitEffect cfg st txs (st, .rejected err)
  | duplicate {id : InstanceId}
      (hl : st.submittedFingerprints.lookup (cfg.xtRequestFingerprint (buildXtRequest txs)) =
        some id)
      (hmem : id ∈ st.pending) : SubmitEffect cfg st txs (st, .duplicate id)
  | full
      (hstale : ∀ id, st.submittedFingerprints.lookup
        (cfg.xtRequestFingerprint (buildXtRequest txs)) = some id → id ∉ st.pending)
      (hfull : maxPendingXts ≤ st.undecidedCount) :
      SubmitEffect cfg st txs
        ({ st with
            submittedFingerprints :=
              st.submittedFingerprints.erase (cfg.xtRequestFingerprint (buildXtRequest txs)) },
          .rejected (.tooManyPendingInstances maxPendingXts))
  | registered {xt : PendingXt} (hxt : xt = standaloneXt cfg (st.originSeq + 1) txs)
      (hstale : ∀ id, st.submittedFingerprints.lookup
        (cfg.xtRequestFingerprint (buildXtRequest txs)) = some id → id ∉ st.pending)
      (hroom : st.undecidedCount < maxPendingXts) :
      SubmitEffect cfg st txs
        ({ st with
            originSeq := st.originSeq + 1
            mailboxIndex := st.mailboxIndex.insert xt.instanceId xt.id
            pending := st.pending.insert xt.id xt
            submittedFingerprints :=
              (st.submittedFingerprints.erase
                (cfg.xtRequestFingerprint (buildXtRequest txs))).insert
                (cfg.xtRequestFingerprint (buildXtRequest txs)) xt.id },
          .registered xt.id (localBuilderSubmission cfg.chainId xt))

theorem admitStandalone_effect {txs : RawTxs}
    (hstale : ∀ id, st.submittedFingerprints.lookup
      (cfg.xtRequestFingerprint (buildXtRequest txs)) = some id → id ∉ st.pending) :
    SubmitEffect cfg st txs (admitStandalone cfg
      { st with
        submittedFingerprints :=
          st.submittedFingerprints.erase (cfg.xtRequestFingerprint (buildXtRequest txs)) } txs
      (cfg.xtRequestFingerprint (buildXtRequest txs))) := by
  unfold admitStandalone
  split_ifs with hfull
  · exact .full hstale hfull
  · exact .registered rfl hstale (Nat.lt_of_not_le hfull)

theorem submitXt_effect (txs : RawTxs) : SubmitEffect cfg st txs (submitXt cfg st txs) := by
  unfold submitXt
  split_ifs
  · exact .rejected _
  · exact .rejected _
  · simp only [registerStandalone]
    cases hl : st.submittedFingerprints.lookup (cfg.xtRequestFingerprint (buildXtRequest txs)) with
    | none =>
      have heffect := @admitStandalone_effect cfg st txs (fun id hid => by simp [hl] at hid)
      rwa [Map.erase_of_lookup hl] at heffect
    | some existing =>
      dsimp only
      split_ifs with hmem
      · exact .duplicate hl hmem
      · refine admitStandalone_effect cfg st (fun id hid => ?_)
        rwa [← Option.some.inj (hl.symm.trans hid)]

theorem submitXt_spec (txs : RawTxs) : SubmitSpec cfg st txs (submitXt cfg st txs) := by
  have h := submitXt_effect cfg st txs
  generalize submitXt cfg st txs = r at h ⊢
  cases h with
  | rejected | duplicate | full => exact Or.inl ⟨by simp, rfl⟩
  | registered hxt =>
    subst hxt
    exact Or.inr ⟨rfl, rfl⟩

theorem pending_insertXt (xt : PendingXt) :
    (insertXt st xt).pending = st.pending.insert xt.id
      (attachBuffered xt ((st.mailboxBuffer.lookup xt.instanceId).getD [])) :=
  rfl

/-- A forward leaves the pending instances alone or adds the one it names. -/
theorem forwardXt_cases (id : InstanceId) (txs : RawTxs) (originChain : ChainId)
    (originSeq : SequenceNumber) :
    ((∀ sub has, (forwardXt cfg st id txs originChain originSeq).2 ≠ .registered sub has) ∧
        (forwardXt cfg st id txs originChain originSeq).1 = st) ∨
      (id ∉ st.pending ∧
        (forwardXt cfg st id txs originChain originSeq).2 =
          .registered (localBuilderSubmission cfg.chainId
            (forwardedXt cfg id (cleanTxs txs) originChain originSeq))
            (cfg.chainId ∈ cleanTxs txs) ∧
        (forwardXt cfg st id txs originChain originSeq).1 =
          insertXt st (forwardedXt cfg id (cleanTxs txs) originChain originSeq)) := by
  unfold forwardXt registerForwarded
  split_ifs with h1 h2 h3 h4
  · exact Or.inl ⟨by simp, rfl⟩
  · exact Or.inl ⟨by simp, rfl⟩
  · exact Or.inl ⟨by simp, rfl⟩
  · exact Or.inl ⟨by simp, rfl⟩
  · exact Or.inr ⟨h3, rfl, rfl⟩

/-- A start leaves the pending instances alone or adds the one it names. -/
theorem registerStarted_cases (inst : SpecInstance) :
    ((∀ sub has, (registerStarted cfg st inst).2 ≠ .registered sub has) ∧
        (registerStarted cfg st inst).1 = st) ∨
      ∃ period, InstanceId.fromPublisherBytes inst.id ∉ st.pending ∧
        (registerStarted cfg st inst).2 =
          .registered (localBuilderSubmission cfg.chainId (startedXt cfg inst))
            (includesLocal cfg inst) ∧
        (registerStarted cfg st inst).1 =
          insertXt { st with publisherPeriod := period } (startedXt cfg inst) := by
  simp only [registerStarted]
  split_ifs with h1 h2
  · exact Or.inl ⟨by simp, rfl⟩
  · exact Or.inl ⟨by simp, rfl⟩
  · cases st.publisherPeriod.acceptStartInstance inst.periodId inst.sequenceNumber with
    | error err => exact Or.inl ⟨by simp, rfl⟩
    | ok period => exact Or.inr ⟨period, h1, rfl, rfl⟩

theorem registers_submitXt {txs : RawTxs} {id : InstanceId} {route : Route}
    (h : (Op.submitXt txs).registers cfg st = some (id, route)) :
    route = .submitted ∧ ∃ sub, (submitXt cfg st txs).2 = .registered id sub := by
  simp only [Op.registers] at h
  split at h
  · next i sub ho =>
    obtain ⟨rfl, rfl⟩ := Prod.mk.inj (Option.some.inj h)
    exact ⟨rfl, sub, ho⟩
  · simp at h

theorem registers_forwardXt {i id : InstanceId} {txs : RawTxs} {originChain : ChainId}
    {originSeq : SequenceNumber} {route : Route}
    (h : (Op.forwardXt i txs originChain originSeq).registers cfg st = some (id, route)) :
    id = i ∧ route = .forwarded ∧
      ∃ sub has, (forwardXt cfg st i txs originChain originSeq).2 = .registered sub has := by
  simp only [Op.registers] at h
  split at h
  · next sub has ho =>
    obtain ⟨rfl, rfl⟩ := Prod.mk.inj (Option.some.inj h)
    exact ⟨rfl, rfl, sub, has, ho⟩
  · simp at h

theorem registers_startInstance {inst : SpecInstance} {id : InstanceId} {route : Route}
    (h : (Op.startInstance inst).registers cfg st = some (id, route)) :
    id = InstanceId.fromPublisherBytes inst.id ∧ route = .started ∧
      ∃ sub has, (registerStarted cfg st inst).2 = .registered sub has := by
  simp only [Op.registers] at h
  split at h
  · next sub has ho =>
    obtain ⟨rfl, rfl⟩ := Prod.mk.inj (Option.some.inj h)
    exact ⟨rfl, rfl, sub, has, ho⟩
  · simp at h

/-- Registrations leave the pending instances alone or put in one fresh entry. -/
def RegistersOnly (op : Op) : Prop :=
  (op.registers cfg st = none ∧ (op.apply cfg st).pending = st.pending) ∨
    ∃ id route xt, op.registers cfg st = some (id, route) ∧ FreshXt id route xt ∧
      (op.apply cfg st).pending = st.pending.insert id xt

theorem submitXt_registersOnly (txs : RawTxs) : RegistersOnly cfg st (.submitXt txs) := by
  rcases submitXt_spec cfg st txs with ⟨hno, hp⟩ | ⟨ho, hp⟩
  · left
    refine ⟨?_, hp⟩
    simp only [Op.registers]
  · right
    refine ⟨_, .submitted, _, ?_, ?_, hp⟩
    · simp only [Op.registers, ho]
    · exact ⟨rfl, rfl, rfl, rfl, by simp [standaloneXt]⟩

theorem forwardXt_registersOnly (id : InstanceId) (txs : RawTxs) (originChain : ChainId)
    (originSeq : SequenceNumber) :
    RegistersOnly cfg st (.forwardXt id txs originChain originSeq) := by
  rcases forwardXt_cases cfg st id txs originChain originSeq with ⟨hno, hs⟩ | ⟨-, ho, hs⟩
  · left
    refine ⟨?_, by rw [Op.apply, hs]⟩
    simp only [Op.registers]
  · right
    refine ⟨id, .forwarded, attachBuffered (forwardedXt cfg id (cleanTxs txs) originChain originSeq)
      ((st.mailboxBuffer.lookup (InstanceId.asBytes id)).getD []), ?_, ?_, ?_⟩
    · simp only [Op.registers, ho]
    · exact ⟨rfl, rfl, rfl, rfl, by simp [attachBuffered, forwardedXt]⟩
    · rw [Op.apply, hs, pending_insertXt]
      rfl

theorem startInstance_registersOnly (inst : SpecInstance) :
    RegistersOnly cfg st (.startInstance inst) := by
  rcases registerStarted_cases cfg st inst with ⟨hno, hs⟩ | ⟨period, -, ho, hs⟩
  · left
    refine ⟨?_, by rw [Op.apply, hs]⟩
    simp only [Op.registers]
  · right
    refine ⟨InstanceId.fromPublisherBytes inst.id, .started, attachBuffered (startedXt cfg inst)
      ((st.mailboxBuffer.lookup inst.id).getD []), ?_, ?_, ?_⟩
    · simp only [Op.registers, ho]
    · exact ⟨rfl, rfl, rfl, rfl, by simp [attachBuffered, startedXt]⟩
    · rw [Op.apply, hs, pending_insertXt]
      rfl

theorem xtEffect_of_registersOnly (op : Op) (h : RegistersOnly cfg st op) (id : InstanceId) :
    XtEffect cfg st op id (st.pending.lookup id) ((op.apply cfg st).pending.lookup id) := by
  rcases h with ⟨-, hp⟩ | ⟨id', route, xt, hr, hf, hp⟩
  · rw [hp]
    exact .same op id _
  · rw [hp, Map.lookup_insert_eq]
    split_ifs with hid
    · subst hid
      exact .registered op id route _ hr hf
    · exact .same op id _

/-- A registered instance is pending and fresh. -/
theorem registers_fresh {op : Op} {id : InstanceId} {route : Route}
    (h : op.registers cfg st = some (id, route)) :
    ∃ xt, (op.apply cfg st).pending.lookup id = some xt ∧ FreshXt id route xt := by
  have hof : RegistersOnly cfg st op →
      ∃ xt, (op.apply cfg st).pending.lookup id = some xt ∧ FreshXt id route xt := by
    intro hr
    rcases hr with ⟨hn, -⟩ | ⟨id', route', xt, hs, hf, hp⟩
    · simp [hn] at h
    · obtain ⟨rfl, rfl⟩ := Prod.mk.inj (Option.some.inj (hs.symm.trans h))
      exact ⟨xt, by rw [hp, AList.lookup_insert], hf⟩
  cases op with
  | submitXt txs => exact hof (submitXt_registersOnly cfg st txs)
  | forwardXt i txs originChain originSeq =>
    exact hof (forwardXt_registersOnly cfg st i txs originChain originSeq)
  | startInstance inst => exact hof (startInstance_registersOnly cfg st inst)
  | removePending | sendVote | peerVote | onDecision | startPeriod | rollback | confirm | cleanup
    | mailbox | enqueue | resolve | lockChain | recordSimulation | fulfill | dispatch =>
    simp [Op.registers] at h

end Registration

section Effect

variable (cfg : Config) (st : CoordinatorState)

/-- A change of one entry that its own effect covers is covered for every instance. -/
theorem xtEffect_updateXt (op : Op) (id id' : InstanceId) (f : PendingXt → PendingXt)
    (h : ∀ xt, st.pending.lookup id = some xt → XtEffect cfg st op id (some xt) (some (f xt))) :
    XtEffect cfg st op id' (st.pending.lookup id') ((st.updateXt id f).pending.lookup id') := by
  rw [lookup_updateXt]
  split_ifs with hid
  · subst hid
    cases hl : st.pending.lookup id' with
    | none => exact .same op id' none
    | some xt => exact h xt hl
  · exact .same op id' _

/-- Only the fields that recording a simulation writes differ. -/
def WritesResult (xt x : PendingXt) : Prop :=
  ∃ depKeys dependencies outbound, x =
    { xt with
      depKeys := depKeys
      dependencies := dependencies
      outboundMessages := outbound }

theorem recordResult_frame (xt : PendingXt) (result : SimulationResult) :
    WritesResult xt (recordResult xt result) := by
  unfold recordResult
  refine List.foldlRecOn (motive := WritesResult xt) _ _ ?_ ?_
  · refine List.foldlRecOn (motive := WritesResult xt) _ _ ⟨_, _, _, rfl⟩ ?_
    intro x h dep _
    obtain ⟨depKeys, dependencies, outbound, rfl⟩ := h
    dsimp only
    split_ifs
    · exact ⟨_, _, _, rfl⟩
    · exact ⟨_, _, _, rfl⟩
  · intro x h msg _
    obtain ⟨depKeys, dependencies, outbound, rfl⟩ := h
    split_ifs
    · exact ⟨_, _, _, rfl⟩
    · exact ⟨_, _, _, rfl⟩

theorem core_recordResult (xt : PendingXt) (result : SimulationResult) :
    (recordResult xt result).core = xt.core := by
  obtain ⟨depKeys, dependencies, outbound, h⟩ := recordResult_frame xt result
  rw [h]
  rfl

/-- Only the fields that serving dependencies writes differ. -/
def WritesServed (xt x : PendingXt) : Prop :=
  ∃ mailbox fulfilled keys, x =
    { xt with
      pendingMailbox := mailbox
      fulfilledDeps := fulfilled
      fulfilledDepKeys := keys }

theorem fulfillXt_frame (xt : PendingXt) (deps : List CrossRollupDependency) :
    WritesServed xt (fulfillXt xt deps).1 := by
  unfold fulfillXt
  refine List.foldlRecOn (motive := fun acc : PendingXt × Nat => WritesServed xt acc.1) _ _
    ⟨_, _, _, rfl⟩ ?_
  intro acc h dep _
  obtain ⟨mailbox, fulfilled, keys, hacc⟩ := h
  simp only [fulfillOne, hacc]
  split_ifs
  · exact ⟨_, _, _, rfl⟩
  · split <;> exact ⟨_, _, _, rfl⟩

theorem core_fulfillXt (xt : PendingXt) (deps : List CrossRollupDependency) :
    (fulfillXt xt deps).1.core = xt.core := by
  obtain ⟨mailbox, fulfilled, keys, h⟩ := fulfillXt_frame xt deps
  rw [h]
  rfl

/-- The messages of an instance as they go over the wire. -/
def wireMessages (instanceId : Bytes) (outbound : List CrossRollupMessage) :
    List MailboxMessage :=
  outbound.map (wireMessage instanceId)

/-- Of each key the first message is claimed; only the keys of sent messages change. -/
theorem claimOutbound_eq (xt : PendingXt) (outbound : List CrossRollupMessage) :
    claimOutbound xt outbound =
      ({ xt with
          sentMailboxKeys := keysSeen Mailbox.MailboxMessageKey.ofMessage xt.sentMailboxKeys
            (wireMessages xt.instanceId outbound) },
        firsts Mailbox.MailboxMessageKey.ofMessage xt.sentMailboxKeys
          (wireMessages xt.instanceId outbound)) := by
  have hfold : ∀ (outbound : List CrossRollupMessage) (x : PendingXt)
      (toSend : List MailboxMessage),
      outbound.foldl (fun (acc : PendingXt × List MailboxMessage) msg =>
        if Mailbox.MailboxMessageKey.ofMessage (wireMessage acc.1.instanceId msg) ∈
            acc.1.sentMailboxKeys then acc
        else
          ({ acc.1 with
              sentMailboxKeys := insert
                (Mailbox.MailboxMessageKey.ofMessage (wireMessage acc.1.instanceId msg))
                acc.1.sentMailboxKeys },
            acc.2 ++ [wireMessage acc.1.instanceId msg])) (x, toSend) =
        ({ x with
            sentMailboxKeys := keysSeen Mailbox.MailboxMessageKey.ofMessage x.sentMailboxKeys
              (wireMessages x.instanceId outbound) },
          toSend ++ firsts Mailbox.MailboxMessageKey.ofMessage x.sentMailboxKeys
            (wireMessages x.instanceId outbound)) := by
    intro outbound
    induction outbound with
    | nil =>
      intro x toSend
      simp [wireMessages, keysSeen, firsts]
    | cons msg outbound ih =>
      intro x toSend
      rw [List.foldl_cons]
      dsimp only
      split_ifs with hseen
      · rw [ih]
        simp [wireMessages, keysSeen, firsts, hseen]
      · rw [ih]
        simp [wireMessages, keysSeen, firsts, hseen]
  exact hfold outbound xt []

theorem core_claimOutbound (xt : PendingXt) (outbound : List CrossRollupMessage) :
    (claimOutbound xt outbound).1.core = xt.core := by
  rw [claimOutbound_eq]
  rfl

theorem lookup_confirmIncluded (ids : List InstanceId) (now : Instant) (id : InstanceId) :
    ((confirmIncluded st ids now).pending.lookup id = none ∧ st.pending.lookup id = none) ∨
      ∃ xt xt', st.pending.lookup id = some xt ∧
        (confirmIncluded st ids now).pending.lookup id = some xt' ∧ xt'.core = xt.core := by
  induction ids generalizing st with
  | nil =>
    cases h : st.pending.lookup id with
    | none => exact Or.inl ⟨h, rfl⟩
    | some xt => exact Or.inr ⟨xt, xt, rfl, h, rfl⟩
  | cons i ids ih =>
    have hstep := lookup_updateXt st i id (fun xt => { xt with confirmedAt := some now })
    rcases ih (st.updateXt i (fun xt => { xt with confirmedAt := some now })) with
      ⟨ha, hb⟩ | ⟨x, x', ha, hb, hc⟩
    · left
      refine ⟨ha, ?_⟩
      rw [hstep] at hb
      split_ifs at hb with hi
      · simpa using hb
      · exact hb
    · right
      rw [hstep] at ha
      split_ifs at ha with hi
      · obtain ⟨xt, hxt, hx⟩ := Option.map_eq_some_iff.mp ha
        refine ⟨xt, x', hxt, hb, hc.trans ?_⟩
        rw [← hx]
        rfl
      · exact ⟨x, x', ha, hb, hc⟩

/-- What a locked part can do to an instance, said once for all parts. -/
theorem xtEffect (op : Op) (id : InstanceId) :
    XtEffect cfg st op id (st.pending.lookup id) ((op.apply cfg st).pending.lookup id) := by
  cases op with
  | submitXt txs => exact xtEffect_of_registersOnly cfg st _ (submitXt_registersOnly cfg st txs) id
  | forwardXt i txs originChain originSeq =>
    exact xtEffect_of_registersOnly cfg st _
      (forwardXt_registersOnly cfg st i txs originChain originSeq) id
  | startInstance inst =>
    exact xtEffect_of_registersOnly cfg st _ (startInstance_registersOnly cfg st inst) id
  | removePending closed i =>
    simp only [Op.apply, removePendingXt]
    cases hl : st.pending.lookup i with
    | none => exact .same _ id _
    | some xt =>
      dsimp only
      rw [Map.lookup_erase_eq]
      split_ifs with hid
      · rw [hid, hl]
        exact .removed _ i xt (by simp [Op.removes])
      · exact .same _ id _
  | sendVote i vote standalone now =>
    simp only [Op.apply, recordVote]
    cases hl : st.pending.lookup i with
    | none => exact .same _ id _
    | some xt =>
      dsimp only
      split_ifs with hv
      · exact .same _ id _
      · refine xtEffect_updateXt cfg st _ i id _ (fun x hx => ?_)
        obtain rfl := Option.some.inj (hl.symm.trans hx)
        exact .voted i vote standalone now (by simpa using hv)
  | peerVote i chainId vote now =>
    simp only [Op.apply, recordPeerVote]
    cases hl : st.pending.lookup i with
    | none => exact .same _ id _
    | some xt =>
      dsimp only
      split_ifs with hd hv
      · exact .same _ id _
      · exact .same _ id _
      · refine xtEffect_updateXt cfg st _ i id _ (fun x hx => ?_)
        obtain rfl := Option.some.inj (hl.symm.trans hx)
        exact .peerVoted i chainId vote now (by simpa using hd) hv
  | onDecision i decision now =>
    simp only [Op.apply, recordPublisherDecision]
    cases hl : st.pending.lookup i with
    | none => exact .same _ id _
    | some xt =>
      dsimp only
      split_ifs with hd
      · exact .same _ id _
      all_goals
        refine xtEffect_updateXt cfg st _ i id _ (fun x hx => ?_)
        obtain rfl := Option.some.inj (hl.symm.trans hx)
        exact .decided i decision now (by simpa using hd)
  | startPeriod periodId now =>
    simp only [Op.apply, openPeriod, Map.lookup_mapVals]
    cases hl : st.pending.lookup id with
    | none => exact .same _ id none
    | some xt =>
      simp only [Option.map_some]
      split_ifs with hs
      · exact .outdated id periodId now hs
      · exact .same _ id _
  | rollback now =>
    simp only [Op.apply, rollBack, Map.lookup_mapVals]
    cases hl : st.pending.lookup id with
    | none => exact .same _ id none
    | some xt => exact .rolledBack id now xt
  | confirm ids now =>
    rcases lookup_confirmIncluded st ids now id with ⟨ha, hb⟩ | ⟨xt, xt', ha, hb, hc⟩
    · rw [Op.apply, ha, hb]
      exact .same _ id none
    · rw [Op.apply, ha, hb]
      exact .touched _ id hc
  | cleanup closed now maxAge =>
    simp only [Op.apply, cleanup, Map.lookup_retain]
    cases hl : st.pending.lookup id with
    | none => exact .same _ id none
    | some xt =>
      cases hk : keepsXt now maxAge xt with
      | false =>
        rw [Option.filter_some, if_neg (by simp [hk])]
        exact .removed _ id xt rfl
      | true =>
        rw [Option.filter_some, if_pos hk]
        exact .same _ id _
  | mailbox msg =>
    simp only [Op.apply, deliverMailbox]
    cases st.mailboxIndex.lookup msg.instanceId with
    | some i => exact xtEffect_updateXt cfg st _ i id _ (fun xt _ => .touched _ i rfl)
    | none =>
      simp only [CoordinatorState.bufferOrphanMailbox]
      split <;> split_ifs <;> exact .same _ id _
  | enqueue fingerprint waiter => exact .same _ id _
  | resolve fingerprint => exact .same _ id _
  | lockChain i => exact xtEffect_updateXt cfg st _ i id _ (fun xt _ => .touched _ i rfl)
  | recordSimulation i result base =>
    simp only [Op.apply, recordSimulationState]
    split_ifs with hm
    · cases keptOverrides result <;>
        exact xtEffect_updateXt cfg st _ i id _
          (fun xt _ => .touched _ i (core_recordResult xt result))
    · exact .same _ id _
  | fulfill i deps =>
    simp only [Op.apply, fulfillDependenciesFromMailbox]
    cases hl : st.pending.lookup i with
    | none => exact .same _ id _
    | some xt =>
      refine xtEffect_updateXt cfg st _ i id _ (fun x hx => ?_)
      obtain rfl := Option.some.inj (hl.symm.trans hx)
      exact .touched _ i (core_fulfillXt xt deps)
  | dispatch i outbound =>
    simp only [Op.apply, dispatchOutbound]
    cases hl : st.pending.lookup i with
    | none => exact .same _ id _
    | some xt =>
      refine xtEffect_updateXt cfg st _ i id _ (fun x hx => ?_)
      obtain rfl := Option.some.inj (hl.symm.trans hx)
      exact .touched _ i (core_claimOutbound xt outbound)

end Effect

end Sidecar.Coordinator
