import Sidecar.Coordinator.TaskOps

namespace Sidecar.Coordinator

/-- The instance that a task registers, and the handler that goes on with it. -/
inductive Registers (cfg : Config) (st : CoordinatorState) : Task → PendingXt → Registrar → Prop
  | submitted (txs : RawTxs) :
      Registers cfg st (.submitStandalone txs) (standaloneXt cfg (st.originSeq + 1) txs)
        (.submitted (standaloneXt cfg (st.originSeq + 1) txs).id txs)
  | forwarded (id : InstanceId) (txs : RawTxs) (originChain : ChainId)
      (originSeq : SequenceNumber) (buffered : List MailboxMessage) (h : id ∉ st.pending) :
      Registers cfg st (.request (.forwardedXt id txs originChain originSeq))
        (attachBuffered (forwardedXt cfg id (cleanTxs txs) originChain originSeq) buffered)
        (.forwarded id (cfg.chainId ∈ cleanTxs txs))
  | started (msg : StartInstance) (inst : SpecInstance) (fingerprint : String)
      (buffered : List MailboxMessage) (htry : cfg.tryInstance msg = .ok inst)
      (h : InstanceId.fromPublisherBytes inst.id ∉ st.pending) :
      Registers cfg st (.request (.startInstance msg)) (attachBuffered (startedXt cfg inst) buffered)
        (.started (InstanceId.fromPublisherBytes inst.id) msg.instanceId fingerprint
          (includesLocal cfg inst))

theorem Registers.id_eq {cfg : Config} {st : CoordinatorState} {t : Task} {xt : PendingXt}
    {registrar : Registrar} (h : Registers cfg st t xt registrar) : registrar.id = xt.id := by
  cases h <;> rfl

/-- No locked part of the step registers anything. -/
def RegistersNothing (cfg : Config) (reply : TaskReply) (sh : Shared) (t : Task) : Prop :=
  ∀ op, taskOp cfg reply t = some op → op.registers cfg sh.st = none

/-- The points at which a handler or a spawned task may end without a trace. -/
def Task.mayStop : Task → Bool
  | .request _ => true
  | .submitStandalone _ => true
  | .awaitInstance _ => true
  | .reject _ => true
  | .process _ .finished => true
  | .recordVote _ _ _ => true
  | .command (.release _ _) _ => true
  | .recycle _ none => true
  | .reportAborted _ => true
  | .publisherVotes [] => true
  | .confirmNonces [] => true
  | _ => false

/-- Everything a step of a task can do: which tasks it leaves in its place and what the outside
sees of it. -/
inductive TaskEffect (cfg : Config) (reply : TaskReply) (sh sh' : Shared) :
    Task → List Task → List Event → Prop
  | stopped (t : Task) (hs : t.mayStop = true) (h : RegistersNothing cfg reply sh t) :
      TaskEffect cfg reply sh sh' t [] []
  | modeChosen (txs : RawTxs) (waiter : Waiter) {u : Task}
      (hu : u = .submitStandalone txs ∨
        (u = .submitPublisher txs waiter ∧ isPublisherConnected cfg sh = true)) :
      TaskEffect cfg reply sh sh' (.request (.submitXt txs waiter)) [u] []
  | registered {t : Task} {xt : PendingXt} {registrar : Registrar} {op : Op} {route : Route}
      (h : Registers cfg sh.st t xt registrar) (hop : taskOp cfg reply t = some op)
      (hr : op.registers cfg sh.st = some (xt.id, route))
      (hl : sh'.st.pending.lookup xt.id = some xt) :
      TaskEffect cfg reply sh sh' t
        [submitFirst (localBuilderSubmission cfg.chainId xt) registrar]
        [.registered xt.id xt.instanceId]
  | refused (msg : StartInstance) (fingerprint err : String)
      (hnew : ∀ inst, cfg.tryInstance msg = .ok inst →
        InstanceId.fromPublisherBytes inst.id ∉ sh.st.pending)
      (h : RegistersNothing cfg reply sh (.request (.startInstance msg))) :
      TaskEffect cfg reply sh sh' (.request (.startInstance msg))
        [.resolve fingerprint (.error err) (.reject msg.instanceId)] [.refused msg.instanceId]
  | tooMany (msg : StartInstance) (fingerprint err : String)
      (h : RegistersNothing cfg reply sh (.request (.startInstance msg))) :
      TaskEffect cfg reply sh sh' (.request (.startInstance msg))
        [.resolve fingerprint (.error err) .done] []
  | decided (request : Request) {op : Op} {command : Option XtBuilderCommand}
      (hop : taskOp cfg reply (.request request) = some op) (hr : op.registers cfg sh.st = none)
      (h : ∀ c, command = some c → c ∈ op.commands cfg sh.st) :
      TaskEffect cfg reply sh sh' (.request request) (commandOr cfg command .done) []
  | periodOpened (periodId : PeriodId) :
      TaskEffect cfg reply sh sh' (.request (.startPeriod periodId))
        ((Resume.nextAbort (openPeriod cfg sh.st periodId reply.now).2.builderAbortIds
          (openPeriod cfg sh.st periodId reply.now).2.abortedInstanceIds).next cfg) []
  | rolledBack :
      TaskEffect cfg reply sh sh' (.request .rollback)
        ((Resume.nextRollback (rollBack cfg sh.st reply.now).2.builderAbortIds
          (rollBack cfg sh.st reply.now).2.waiters).next cfg) []
  | confirmed (ids : List InstanceId) :
      TaskEffect cfg reply sh sh' (.request (.confirmIncluded ids)) [.confirmNonces ids] []
  | mailed (msg : MailboxMessage) :
      TaskEffect cfg reply sh sh' (.request (.mailboxMessage msg)) [.notifyWaiters] []
  | enqueued (txs : RawTxs) (waiter : Waiter) {u : Task}
      (hu : u = .awaitInstance waiter ∨ ∃ fingerprint req, u = .sendRequest fingerprint req waiter) :
      TaskEffect cfg reply sh sh' (.submitPublisher txs waiter) [u] []
  | requested (fingerprint : String) (req : XtRequest) (waiter : Waiter) {u : Task}
      (hu : u = .awaitInstance waiter ∨ ∃ err, u = .resolve fingerprint (.error err) .done) :
      TaskEffect cfg reply sh sh' (.sendRequest fingerprint req waiter) [u] [.publisherRequest req]
  | submitted (submission : XtBuilderSubmission) (registrar : Registrar)
      (hc : cfg.xtBuilderClient = true) :
      TaskEffect cfg reply sh sh' (.submit submission registrar) [.submitting registrar]
        [.submitXt submission]
  | notSubmitted (submission : XtBuilderSubmission) (registrar : Registrar)
      (hc : cfg.xtBuilderClient = false) :
      TaskEffect cfg reply sh sh' (.submit submission registrar) [.registered registrar] []
  | accepted (registrar : Registrar) :
      TaskEffect cfg reply sh sh' (.submitting registrar) [.registered registrar]
        [.submitReturned registrar.id true]
  | declined (registrar : Registrar) (err : CoordinatorError) :
      TaskEffect cfg reply sh sh' (.submitting registrar) [.removePending registrar err]
        [.submitReturned registrar.id false]
  | removed (registrar : Registrar) (err : CoordinatorError) :
      TaskEffect cfg reply sh sh' (.removePending registrar err) (registrar.undone err) []
  | proceeded (registrar : Registrar) :
      TaskEffect cfg reply sh sh' (.registered registrar) (registrar.next cfg) []
  | forwardStarted (id : InstanceId) (txs : RawTxs) :
      TaskEffect cfg reply sh sh' (.forwardXt id txs) [.forwarding id txs sh.st.originSeq] []
  | forwarded (id : InstanceId) (txs : RawTxs) (originSeq : SequenceNumber) :
      TaskEffect cfg reply sh sh' (.forwarding id txs originSeq) [] [.forwardXt id txs originSeq]
  | resolved (fingerprint : String) (result : Except String InstanceId) (next : AfterResolve)
      (waiters : List Waiter) :
      TaskEffect cfg reply sh sh' (.resolve fingerprint result next) next.next
        (answers waiters result)
  | rejected (rawId : Bytes) (hc : isPublisherConnected cfg sh = true) :
      TaskEffect cfg reply sh sh' (.reject rawId) [.publisherVotes [(rawId, false)]] []
  | processed (id : InstanceId) (pc pc' : ProcPc) (events : List ProcEvent) {st' : CoordinatorState}
      (h : procStep cfg id reply.proc sh.st pc = some (st', pc', events))
      (hr : RegistersNothing cfg reply sh (.process id pc)) :
      TaskEffect cfg reply sh sh' (.process id pc) [.process id pc']
        (events.map (Event.processed id))
  | processVoted (id : InstanceId) (vote : Bool) :
      TaskEffect cfg reply sh sh' (.process id (.vote vote)) [.sendVote id vote] []
  | modeRead (id : InstanceId) (vote : Bool) :
      TaskEffect cfg reply sh sh' (.sendVote id vote)
        [.recordVote id vote (!isPublisherConnected cfg sh)] []
  | voteRecorded (id : InstanceId) (vote standalone : Bool) {xt : PendingXt}
      {command : Option XtBuilderCommand} (hl : sh.st.pending.lookup id = some xt)
      (hv : xt.localVote = none)
      (h : ∀ c, command = some c →
        c ∈ (Op.sendVote id vote standalone reply.now).commands cfg sh.st) :
      TaskEffect cfg reply sh sh' (.recordVote id vote standalone)
        (commandOr cfg command (.handVote id xt.instanceId vote standalone)) []
  | releaseSkipped (id : InstanceId) (deps : List CrossRollupDependency) (resume : Resume) :
      TaskEffect cfg reply sh sh' (.command (.release id deps) resume) (resume.next cfg) []
  | releaseStarted (id : InstanceId) (deps : List CrossRollupDependency) (resume : Resume) {u : Task}
      (hc : cfg.xtBuilderClient = true)
      (hu : u = .release id [] resume ∨ ∃ nonce, u = .buildPutInbox id deps nonce [] resume) :
      TaskEffect cfg reply sh sh' (.command (.release id deps) resume) [u] []
  | abortSkipped (id : InstanceId) (resume : Resume) :
      TaskEffect cfg reply sh sh' (.command (.abort id) resume) [.recycle id (some resume)] []
  | abortSent (id : InstanceId) (resume : Resume) {next : List Task}
      (hc : cfg.xtBuilderClient = true) (hn : next = [.recycle id (some resume)] ∨ next = []) :
      TaskEffect cfg reply sh sh' (.command (.abort id) resume) next [.abortXt id]
  | built (id : InstanceId) (deps : List CrossRollupDependency) (nonce : Nat) (txs : List Bytes)
      (resume : Resume) {u : Task}
      (hu : u = .release id txs resume ∨ u = .recycle id none ∨
        ∃ rest nonce' txs', u = .buildPutInbox id rest nonce' txs' resume) :
      TaskEffect cfg reply sh sh' (.buildPutInbox id deps nonce txs resume) [u] []
  | releaseSent (id : InstanceId) (txs : List Bytes) (resume : Resume) {next : List Task}
      (hn : next = resume.next cfg ∨ next = [.recycle id none]) :
      TaskEffect cfg reply sh sh' (.release id txs resume) next [.releaseXt id txs]
  | recycled (id : InstanceId) (resume : Resume) :
      TaskEffect cfg reply sh sh' (.recycle id (some resume)) (resume.next cfg) []
  | abortsReported (aborted : List Bytes) :
      TaskEffect cfg reply sh sh' (.reportAborted aborted)
        [.publisherVotes (aborted.map (fun rawId => (rawId, false)))] []
  | voteSent (rawId : Bytes) (vote : Bool) (rest : List (Bytes × Bool)) :
      TaskEffect cfg reply sh sh' (.publisherVotes ((rawId, vote) :: rest)) [.publisherVotes rest]
        [.publisherVote rawId vote]
  | peerVoteSent (id : InstanceId) (vote : Bool) :
      TaskEffect cfg reply sh sh' (.peerVotes id vote) [] [.peerVote id vote]
  | noncesReset (waiters : List (List Waiter)) :
      TaskEffect cfg reply sh sh' (.resetNonces waiters) []
        (answers waiters.flatten (.error "publisher submission aborted by rollback"))
  | nonceConfirmed (id : InstanceId) (rest : List InstanceId) :
      TaskEffect cfg reply sh sh' (.confirmNonces (id :: rest)) [.confirmNonces rest] []

section Inversion

variable {cfg : Config} {reply : TaskReply} {sh : Shared}

/-- The effect of a handler's outcome. -/
def HasEffect (cfg : Config) (reply : TaskReply) (sh : Shared) (t : Task) (o : TaskOutcome) : Prop :=
  TaskEffect cfg reply sh o.1 t o.2.1 o.2.2

theorem submitStandalone_effect (txs : RawTxs) :
    HasEffect cfg reply sh (.submitStandalone txs) (submitStandalone cfg sh txs) := by
  rcases submitXt_spec cfg sh.st txs with ⟨hno, -⟩ | ⟨ho, hp⟩
  · have hstop : RegistersNothing cfg reply sh (.submitStandalone txs) := by
      intro op hop
      obtain rfl := Option.some.inj hop
      simp [Op.registers]
    simp only [HasEffect, submitStandalone]
    exact .stopped _ rfl hstop
  · have hr : (Op.submitXt txs).registers cfg sh.st =
        some ((standaloneXt cfg (sh.st.originSeq + 1) txs).id, .submitted) := by
      simp only [Op.registers, ho]
    simp only [HasEffect, submitStandalone, ho]
    refine .registered (.submitted txs) rfl hr ?_
    rw [hp, AList.lookup_insert]

theorem forwarded_effect (id : InstanceId) (txs : RawTxs) (originChain : ChainId)
    (originSeq : SequenceNumber) :
    HasEffect cfg reply sh (.request (.forwardedXt id txs originChain originSeq))
      (handleForwardedXt cfg sh id txs originChain originSeq) := by
  rcases forwardXt_cases cfg sh.st id txs originChain originSeq with ⟨hno, -⟩ | ⟨hnew, ho, hs⟩
  · have hstop : RegistersNothing cfg reply sh
        (.request (.forwardedXt id txs originChain originSeq)) := by
      intro op hop
      obtain rfl := Option.some.inj hop
      simp [Op.registers]
    simp only [HasEffect, handleForwardedXt]
    exact .stopped _ rfl hstop
  · have hr : (Op.forwardXt id txs originChain originSeq).registers cfg sh.st =
        some (id, .forwarded) := by
      simp only [Op.registers, ho]
    simp only [HasEffect, handleForwardedXt, ho]
    rw [hs]
    -- the messages that came before are attached to the entry, not to the submission
    exact @TaskEffect.registered cfg reply sh _ _
      (attachBuffered (forwardedXt cfg id (cleanTxs txs) originChain originSeq)
        ((sh.st.mailboxBuffer.lookup (InstanceId.asBytes id)).getD [])) _ _ _
      (.forwarded id txs originChain originSeq _ hnew) rfl hr (AList.lookup_insert sh.st.pending)

theorem started_effect (msg : StartInstance) :
    HasEffect cfg reply sh (.request (.startInstance msg)) (handleStartInstance cfg sh msg) := by
  unfold HasEffect handleStartInstance
  cases hreq : msg.xtRequest with
  | none =>
    refine .stopped _ rfl (fun op hop => ?_)
    simp [taskOp, requestOp, hreq] at hop
  | some req =>
    cases htry : cfg.tryInstance msg with
    | error err =>
      refine .refused msg _ _ (fun inst hinst => by simp [htry] at hinst) (fun op hop => ?_)
      simp [taskOp, requestOp, hreq, htry] at hop
    | ok inst =>
      have hop : taskOp cfg reply (.request (.startInstance msg)) = some (.startInstance inst) := by
        simp [taskOp, requestOp, hreq, htry]
      rcases registerStarted_cases cfg sh.st inst with ⟨hno, -⟩ | ⟨period, hnew, ho, hs⟩
      · have hstop : RegistersNothing cfg reply sh (.request (.startInstance msg)) := by
          intro op hop'
          obtain rfl := Option.some.inj (hop.symm.trans hop')
          simp [Op.registers]
        cases hout : (registerStarted cfg sh.st inst).2 with
        | registered sub has => exact absurd hout (hno sub has)
        | alreadyPending err => simpa only [hout] using .stopped _ rfl hstop
        | tooMany err => simpa only [hout] using .tooMany msg _ _ hstop
        | refused err =>
          have hnew : ∀ inst', cfg.tryInstance msg = .ok inst' →
              InstanceId.fromPublisherBytes inst'.id ∉ sh.st.pending := by
            intro inst' htry' hp
            obtain rfl := Except.ok.inj (htry.symm.trans htry')
            simp [registerStarted, hp] at hout
          simpa only [hout] using .refused msg _ _ hnew hstop
      · have hr : (Op.startInstance inst).registers cfg sh.st =
            some (InstanceId.fromPublisherBytes inst.id, .started) := by
          simp only [Op.registers, ho]
        simp only [ho]
        rw [hs]
        exact @TaskEffect.registered cfg reply sh _ _
          (attachBuffered (startedXt cfg inst) ((sh.st.mailboxBuffer.lookup inst.id).getD [])) _ _ _
          (.started msg inst _ _ htry hnew) hop hr (AList.lookup_insert sh.st.pending)

theorem registersNothing_of_op {t : Task} {op : Op} (hop : taskOp cfg reply t = some op)
    (h : op.registers cfg sh.st = none) : RegistersNothing cfg reply sh t := by
  intro op' hop'
  rw [← Option.some.inj (hop.symm.trans hop')]
  exact h

theorem registersNothing_of_none {t : Task} (hop : taskOp cfg reply t = none) :
    RegistersNothing cfg reply sh t := by
  intro op hop'
  simp [hop] at hop'

theorem request_effect (request : Request) :
    HasEffect cfg reply sh (.request request) (handleRequest cfg reply sh request) := by
  cases request with
  | forwardedXt id txs originChain originSeq => exact forwarded_effect id txs originChain originSeq
  | startInstance msg => exact started_effect msg
  | submitXt txs waiter =>
    simp only [HasEffect, handleRequest, submitRequest]
    split_ifs with hlen hc
    · exact .stopped _ rfl (registersNothing_of_none rfl)
    · exact .modeChosen txs waiter (Or.inr ⟨rfl, hc⟩)
    · exact .modeChosen txs waiter (Or.inl rfl)
  | peerVote id chainId vote =>
    simp only [HasEffect, handleRequest, handlePeerVote]
    cases hr : (recordPeerVote cfg sh.st id chainId vote reply.now).2 with
    | error err => exact .stopped _ rfl (registersNothing_of_op rfl rfl)
    | ok command =>
      refine .decided _ rfl rfl (fun c hc => ?_)
      simp [Op.commands, hr, hc]
  | decision id d =>
    simp only [HasEffect, handleRequest, onDecision]
    cases hr : (recordPublisherDecision cfg sh.st id d reply.now).2 with
    | error err => exact .stopped _ rfl (registersNothing_of_op rfl rfl)
    | ok command =>
      refine .decided _ rfl rfl (fun c hc => ?_)
      simp [Op.commands, hr, hc]
  | startPeriod periodId => exact .periodOpened periodId
  | rollback => exact .rolledBack
  | confirmIncluded ids => exact .confirmed ids
  | cleanup maxAge => exact .stopped _ rfl (registersNothing_of_op rfl rfl)
  | mailboxMessage msg =>
    simp only [HasEffect, handleRequest, handleMailboxMessage]
    split_ifs with hq
    · refine .stopped _ rfl (registersNothing_of_none ?_)
      simp [taskOp, requestOp, hq]
    · exact .mailed msg

theorem recordVote_effect (id : InstanceId) (vote standalone : Bool) :
    HasEffect cfg reply sh (.recordVote id vote standalone)
      (recordLocalVote cfg reply sh id vote standalone) := by
  have hstop : RegistersNothing cfg reply sh (.recordVote id vote standalone) :=
    registersNothing_of_op rfl rfl
  simp only [HasEffect, recordLocalVote, recordVote]
  cases hl : sh.st.pending.lookup id with
  | none => exact .stopped _ rfl hstop
  | some xt =>
    dsimp only
    split_ifs with hv
    · exact .stopped _ rfl hstop
    · have hbytes : (castVote cfg xt vote standalone reply.now).1.instanceId = xt.instanceId :=
        congrArg XtCore.instanceId (castVote_frame cfg xt vote standalone reply.now)
      dsimp only
      rw [hbytes]
      refine .voteRecorded id vote standalone hl (by simpa using hv) (fun c hc => ?_)
      simp only [Op.commands, recordVote, hl, hv]
      simp [hc]

theorem command_effect (command : XtBuilderCommand) (resume : Resume) :
    HasEffect cfg reply sh (.command command resume)
      (applyBuilderCommand cfg reply sh command resume) := by
  have hstop : RegistersNothing cfg reply sh (.command command resume) :=
    registersNothing_of_none rfl
  cases command with
  | release id deps =>
    simp only [HasEffect, applyBuilderCommand]
    split_ifs with hc hd hb
    · exact .releaseSkipped id deps resume
    · exact .releaseStarted id deps resume (by simpa using hc) (Or.inl rfl)
    · exact .stopped _ rfl hstop
    · split
      · exact .releaseStarted id deps resume (by simpa using hc) (Or.inr ⟨_, rfl⟩)
      · exact .stopped _ rfl hstop
  | abort id =>
    simp only [HasEffect, applyBuilderCommand]
    split_ifs with hc
    · exact .abortSkipped id resume
    · split
      · exact .abortSent id resume (by simpa using hc) (Or.inl rfl)
      · exact .abortSent id resume (by simpa using hc) (Or.inr rfl)

theorem buildPutInbox_effect (id : InstanceId) (deps : List CrossRollupDependency) (nonce : Nat)
    (txs : List Bytes) (resume : Resume) :
    HasEffect cfg reply sh (.buildPutInbox id deps nonce txs resume)
      (buildPutInbox reply sh id deps nonce txs resume) := by
  simp only [HasEffect, buildPutInbox]
  split
  · exact .built id _ nonce txs resume (Or.inl rfl)
  · split
    · exact .built id _ nonce txs resume (Or.inr (Or.inr ⟨_, _, _, rfl⟩))
    · exact .built id _ nonce txs resume (Or.inr (Or.inl rfl))

/-- Every step of a task has one of these effects. -/
theorem taskStep_effect {t : Task} {sh' : Shared} {next : List Task} {es : List Event}
    (h : taskStep cfg reply sh t = some (sh', next, es)) :
    TaskEffect cfg reply sh sh' t next es := by
  have hout : ∀ {o : TaskOutcome}, some o = some (sh', next, es) → HasEffect cfg reply sh t o →
      TaskEffect cfg reply sh sh' t next es := by
    intro o he ho
    obtain rfl := Option.some.inj he
    exact ho
  cases t with
  | request request => exact hout h (request_effect request)
  | submitStandalone txs => exact hout h (submitStandalone_effect txs)
  | submitPublisher txs waiter =>
    refine hout h ?_
    simp only [HasEffect, submitPublisher]
    split_ifs
    · exact .enqueued txs waiter (Or.inr ⟨_, _, rfl⟩)
    · exact .enqueued txs waiter (Or.inl rfl)
  | sendRequest fingerprint req waiter =>
    refine hout h ?_
    simp only [HasEffect, sendRequest]
    split
    · exact .requested fingerprint req waiter (Or.inl rfl)
    · exact .requested fingerprint req waiter (Or.inr ⟨_, rfl⟩)
  | awaitInstance waiter => exact hout h (.stopped _ rfl (registersNothing_of_none rfl))
  | submit submission registrar =>
    simp only [taskStep] at h
    split_ifs at h with hc
    · exact hout h (.submitted submission registrar hc)
    · exact hout h (.notSubmitted submission registrar (by simpa using hc))
  | submitting registrar =>
    refine hout h ?_
    simp only [HasEffect, submitReturns]
    split
    · exact .accepted registrar
    · exact .declined registrar _
  | removePending registrar err => exact hout h (.removed registrar err)
  | registered registrar => exact hout h (.proceeded registrar)
  | forwardXt id txs => exact hout h (.forwardStarted id txs)
  | forwarding id txs originSeq => exact hout h (.forwarded id txs originSeq)
  | resolve fingerprint result after => exact hout h (.resolved fingerprint result after _)
  | reject rawId =>
    refine hout h ?_
    simp only [HasEffect]
    split_ifs with hc
    · exact .rejected rawId hc
    · exact .stopped _ rfl (registersNothing_of_none rfl)
  | process id pc =>
    rcases processStep_cases h with ⟨v, rfl, rfl, rfl, rfl⟩ | ⟨rfl, rfl, rfl, rfl⟩ |
      ⟨st', pc', events, hproc, hop, rfl, rfl, rfl⟩
    · exact .processVoted id v
    · exact .stopped _ rfl (registersNothing_of_none rfl)
    · exact .processed id pc pc' events hproc
        (fun op ho => procOp_registers (hop.symm.trans ho) sh.st)
  | sendVote id vote => exact hout h (.modeRead id vote)
  | recordVote id vote standalone => exact hout h (recordVote_effect id vote standalone)
  | command command resume => exact hout h (command_effect command resume)
  | buildPutInbox id deps nonce txs resume =>
    exact hout h (buildPutInbox_effect id deps nonce txs resume)
  | release id txs resume =>
    refine hout h ?_
    simp only [HasEffect, releaseXt]
    split
    · exact .releaseSent id txs resume (Or.inl rfl)
    · exact .releaseSent id txs resume (Or.inr rfl)
  | recycle id resume =>
    cases resume with
    | none => exact hout h (.stopped _ rfl (registersNothing_of_none rfl))
    | some resume => exact hout h (.recycled id resume)
  | reportAborted aborted =>
    refine hout h ?_
    simp only [HasEffect]
    split_ifs
    · exact .abortsReported aborted
    · exact .stopped _ rfl (registersNothing_of_none rfl)
  | publisherVotes votes =>
    cases votes with
    | nil => exact hout h (.stopped _ rfl (registersNothing_of_none rfl))
    | cons vote rest => exact hout h (.voteSent vote.1 vote.2 rest)
  | peerVotes id vote => exact hout h (.peerVoteSent id vote)
  | resetNonces waiters => exact hout h (.noncesReset waiters)
  | confirmNonces ids =>
    cases ids with
    | nil => exact hout h (.stopped _ rfl (registersNothing_of_none rfl))
    | cons id rest => exact hout h (.nonceConfirmed id rest)
  | notifyWaiters => simp [taskStep] at h

end Inversion

section Continuations

/-- What no task holds that only carries out builder commands and hands on votes. -/
structure OffCommands {β : Type} (f : Task → List β) : Prop where
  command : ∀ command resume, f (.command command resume) = []
  peerVotes : ∀ id vote, f (.peerVotes id vote) = []
  publisherVotes : ∀ votes, f (.publisherVotes votes) = []
  reportAborted : ∀ aborted, f (.reportAborted aborted) = []
  resetNonces : ∀ waiters, f (.resetNonces waiters) = []

variable {β : Type} {f : Task → List β} (cfg : Config)

theorem flatMap_next (hf : OffCommands f) (resume : Resume) :
    (resume.next cfg).flatMap f = [] := by
  cases resume with
  | done => rfl
  | handVote id rawId vote standalone =>
    simp only [Resume.next]
    split_ifs <;> simp [hf.peerVotes, hf.publisherVotes]
  | nextAbort ids aborted => cases ids <;> simp [Resume.next, hf.command, hf.reportAborted]
  | nextRollback ids waiters => cases ids <;> simp [Resume.next, hf.command, hf.resetNonces]

theorem flatMap_commandOr (hf : OffCommands f) (command : Option XtBuilderCommand)
    (resume : Resume) : (commandOr cfg command resume).flatMap f = [] := by
  cases command with
  | none => exact flatMap_next cfg hf resume
  | some c => simp [commandOr, hf.command]

/-- What a handler has alike before and after it asks the builder. -/
theorem flatMap_submitFirst {registrar : Registrar} {l : List β}
    (hsubmit : ∀ submission, f (.submit submission registrar) = l)
    (hregistered : f (.registered registrar) = l) {submission : Option XtBuilderSubmission} :
    [submitFirst submission registrar].flatMap f = l := by
  rw [List.flatMap_singleton]
  cases submission with
  | none => exact hregistered
  | some submission => exact hsubmit submission

variable {cfg} in
/-- A handler that goes on from the builder starts `process_xt`, forwards or answers. -/
theorem mem_registrarNext {registrar : Registrar} {u : Task} (h : u ∈ registrar.next cfg) :
    u = .process registrar.id .start ∨
      (∃ id txs, registrar = .submitted id txs ∧ u = .forwardXt id txs) ∨
      ∃ fingerprint after, u = .resolve fingerprint (.ok registrar.id) after := by
  cases registrar with
  | submitted id txs =>
    rcases List.mem_cons.mp h with rfl | hforward
    · exact Or.inl rfl
    · split_ifs at hforward
      · exact Or.inr (Or.inl ⟨id, txs, rfl, List.mem_singleton.mp hforward⟩)
      · exact absurd hforward List.not_mem_nil
  | forwarded id hasLocal =>
    cases hasLocal with
    | false => exact absurd h List.not_mem_nil
    | true => exact Or.inl (List.mem_singleton.mp h)
  | started id rawId fingerprint includesLocal =>
    exact Or.inr (Or.inr ⟨fingerprint, _, List.mem_singleton.mp h⟩)

theorem flatMap_registrarNext (hprocess : ∀ id pc, f (.process id pc) = [])
    (hforward : ∀ id txs, f (.forwardXt id txs) = [])
    (hresolve : ∀ fingerprint id after, f (.resolve fingerprint (.ok id) after) = [])
    (registrar : Registrar) : (registrar.next cfg).flatMap f = [] := by
  refine List.flatMap_eq_nil_iff.mpr (fun u hu => ?_)
  rcases mem_registrarNext hu with rfl | ⟨id, txs, -, rfl⟩ | ⟨fingerprint, after, rfl⟩
  · exact hprocess _ _
  · exact hforward id txs
  · exact hresolve fingerprint _ after

end Continuations

section Carriers

/-- Tasks with a call or an instance in their hands, on its way to the local vote or to the
peers. -/
def Task.carries : Task → Bool
  | .request _ => true
  | .submitStandalone _ => true
  | .submit _ _ => true
  | .submitting _ => true
  | .removePending _ _ => true
  | .registered _ => true
  | .forwardXt _ _ => true
  | .forwarding _ _ _ => true
  | .resolve _ _ (.process _) => true
  | .process _ _ => true
  | .sendVote _ _ => true
  | .recordVote _ _ _ => true
  | _ => false

/-- How such tasks hand on what they carry. -/
inductive HandsOn (cfg : Config) (reply : TaskReply) (sh sh' : Shared) :
    Task → List Task → Prop
  | modeChosen (txs : RawTxs) (waiter : Waiter) :
      HandsOn cfg reply sh sh' (.request (.submitXt txs waiter)) [.submitStandalone txs]
  | registered {t : Task} {xt : PendingXt} {registrar : Registrar} {op : Op} {route : Route}
      (h : Registers cfg sh.st t xt registrar) (hop : taskOp cfg reply t = some op)
      (hr : op.registers cfg sh.st = some (xt.id, route))
      (hl : sh'.st.pending.lookup xt.id = some xt) :
      HandsOn cfg reply sh sh' t [submitFirst (localBuilderSubmission cfg.chainId xt) registrar]
  | submitted (submission : XtBuilderSubmission) (registrar : Registrar) :
      HandsOn cfg reply sh sh' (.submit submission registrar) [.submitting registrar]
  | notSubmitted (submission : XtBuilderSubmission) (registrar : Registrar) :
      HandsOn cfg reply sh sh' (.submit submission registrar) [.registered registrar]
  | accepted (registrar : Registrar) :
      HandsOn cfg reply sh sh' (.submitting registrar) [.registered registrar]
  | declined (registrar : Registrar) (err : CoordinatorError) :
      HandsOn cfg reply sh sh' (.submitting registrar) [.removePending registrar err]
  | proceeded (registrar : Registrar) :
      HandsOn cfg reply sh sh' (.registered registrar) (registrar.next cfg)
  | forwardStarted (id : InstanceId) (txs : RawTxs) :
      HandsOn cfg reply sh sh' (.forwardXt id txs) [.forwarding id txs sh.st.originSeq]
  | resolved (fingerprint : String) (result : Except String InstanceId) (id : InstanceId) :
      HandsOn cfg reply sh sh' (.resolve fingerprint result (.process id)) [.process id .start]
  | processed (id : InstanceId) (pc pc' : ProcPc) :
      HandsOn cfg reply sh sh' (.process id pc) [.process id pc']
  | processVoted (id : InstanceId) (vote : Bool) :
      HandsOn cfg reply sh sh' (.process id (.vote vote)) [.sendVote id vote]
  | modeRead (id : InstanceId) (vote : Bool) :
      HandsOn cfg reply sh sh' (.sendVote id vote)
        [.recordVote id vote (!isPublisherConnected cfg sh)]

variable {cfg : Config} {reply : TaskReply} {sh sh' : Shared} {t : Task} {next : List Task}
  {es : List Event}

theorem carries_next (resume : Resume) : ∀ u ∈ resume.next cfg, u.carries = false := by
  cases resume with
  | done => simp [Resume.next]
  | handVote id rawId vote standalone =>
    simp only [Resume.next]
    split_ifs <;> simp [Task.carries]
  | nextAbort ids aborted => cases ids <;> simp [Resume.next, Task.carries]
  | nextRollback ids waiters => cases ids <;> simp [Resume.next, Task.carries]

theorem carries_commandOr (command : Option XtBuilderCommand) (resume : Resume) :
    ∀ u ∈ commandOr cfg command resume, u.carries = false := by
  cases command with
  | none => exact carries_next resume
  | some c => simp [commandOr, Task.carries]

/-- A step hands on what its task carries, or leaves nothing of it. -/
theorem handsOn_or_drops (h : TaskEffect cfg reply sh sh' t next es) :
    HandsOn cfg reply sh sh' t next ∨ ∀ u ∈ next, u.carries = false := by
  cases h with
  | modeChosen txs waiter hu =>
    rcases hu with rfl | ⟨rfl, -⟩
    · exact Or.inl (.modeChosen txs waiter)
    · exact Or.inr (by simp [Task.carries])
  | registered hreg hop hr hl => exact Or.inl (.registered hreg hop hr hl)
  | submitted submission registrar => exact Or.inl (.submitted submission registrar)
  | notSubmitted submission registrar => exact Or.inl (.notSubmitted submission registrar)
  | accepted registrar => exact Or.inl (.accepted registrar)
  | declined registrar err => exact Or.inl (.declined registrar err)
  | proceeded registrar => exact Or.inl (.proceeded registrar)
  | forwardStarted id txs => exact Or.inl (.forwardStarted id txs)
  | processed id pc pc' => exact Or.inl (.processed id pc pc')
  | processVoted id vote => exact Or.inl (.processVoted id vote)
  | modeRead id vote => exact Or.inl (.modeRead id vote)
  | resolved fingerprint result after =>
    cases after with
    | process id => exact Or.inl (.resolved fingerprint result id)
    | done => exact Or.inr (by simp [AfterResolve.next])
    | reject rawId => exact Or.inr (by simp [AfterResolve.next, Task.carries])
  | decided | voteRecorded => exact Or.inr (carries_commandOr _ _)
  | periodOpened | rolledBack | releaseSkipped | recycled => exact Or.inr (carries_next _)
  | releaseSent _ _ resume hn =>
    rcases hn with rfl | rfl
    · exact Or.inr (carries_next resume)
    · exact Or.inr (by simp [Task.carries])
  | abortSent _ _ _ hn => rcases hn with rfl | rfl <;> exact Or.inr (by simp [Task.carries])
  | removed registrar =>
    cases registrar <;> exact Or.inr (by simp [Registrar.undone, Task.carries])
  | enqueued _ _ hu => rcases hu with rfl | ⟨_, _, rfl⟩ <;> exact Or.inr (by simp [Task.carries])
  | requested _ _ _ hu => rcases hu with rfl | ⟨_, rfl⟩ <;> exact Or.inr (by simp [Task.carries])
  | releaseStarted _ _ _ _ hu =>
    rcases hu with rfl | ⟨_, rfl⟩ <;> exact Or.inr (by simp [Task.carries])
  | built _ _ _ _ _ hu =>
    rcases hu with rfl | rfl | ⟨_, _, _, rfl⟩ <;> exact Or.inr (by simp [Task.carries])
  | stopped | refused | tooMany | confirmed | mailed | forwarded | rejected | abortSkipped
    | abortsReported | voteSent | peerVoteSent | noncesReset | nonceConfirmed =>
    exact Or.inr (by simp [Task.carries])

/-- What only carriers hold is gone when a step leaves none. -/
theorem flatMap_of_drops {β : Type} {f : Task → List β} (hf : ∀ t, t.carries = false → f t = [])
    (h : ∀ u ∈ next, u.carries = false) : next.flatMap f = [] :=
  List.flatMap_eq_nil_iff.mpr (fun u hu => hf u (h u hu))

end Carriers

section Entries

variable {cfg : Config} {reply : TaskReply} {sh sh' : Shared} {t : Task} {next : List Task}
  {es : List Event}

/-- The step registered `xt`: the outside is told, and the handler goes on with the builder. -/
structure NewEntry (cfg : Config) (st : CoordinatorState) (t : Task) (next : List Task)
    (es : List Event) (id : InstanceId) (xt : PendingXt) : Prop where
  registrar : ∃ registrar, Registers cfg st t xt registrar ∧
    next = [submitFirst (localBuilderSubmission cfg.chainId xt) registrar]
  fresh : ∃ route, FreshXt id route xt
  events : es = [.registered id xt.instanceId]

/-- A step whose locked part registers shows it. -/
theorem newEntry_of_registers (h : taskStep cfg reply sh t = some (sh', next, es)) {op : Op}
    {id : InstanceId} {route : Route} (hop : taskOp cfg reply t = some op)
    (hr : op.registers cfg sh.st = some (id, route)) :
    ∃ xt, sh'.st.pending.lookup id = some xt ∧ NewEntry cfg sh.st t next es id xt := by
  have hnot : ¬RegistersNothing cfg reply sh t := by
    intro hn
    simp [hn op hop] at hr
  cases taskStep_effect h with
  | @registered _ xt registrar op' route' hreg hop' hr' hl =>
    obtain rfl := Option.some.inj (hop.symm.trans hop')
    obtain ⟨rfl, rfl⟩ := Prod.mk.inj (Option.some.inj (hr'.symm.trans hr))
    have hst : sh'.st = op.apply cfg sh.st := taskStep_apply h hop
    obtain ⟨x, hx, hf⟩ := registers_fresh cfg sh.st hr
    rw [hst] at hl
    obtain rfl := Option.some.inj (hl.symm.trans hx)
    exact ⟨xt, by rw [hst]; exact hl, ⟨registrar, hreg, rfl⟩, ⟨route', hf⟩, rfl⟩
  | stopped _ _ hn => exact absurd hn hnot
  | refused _ _ _ _ hn => exact absurd hn hnot
  | tooMany _ _ _ hn => exact absurd hn hnot
  | decided _ ho hn => exact absurd (registersNothing_of_op ho hn) hnot
  | processed _ _ _ _ _ hn => exact absurd hn hnot
  | modeChosen | submitted | notSubmitted | accepted | declined | proceeded | forwardStarted
    | forwarded | rejected | processVoted | modeRead | releaseSkipped | releaseStarted
    | abortSkipped | abortSent | built | releaseSent | recycled | abortsReported | voteSent
    | peerVoteSent | noncesReset | nonceConfirmed | requested =>
    exact absurd (registersNothing_of_none rfl) hnot
  | periodOpened | rolledBack | confirmed | enqueued | removed | resolved | voteRecorded =>
    exact absurd (registersNothing_of_op rfl rfl) hnot
  | mailed =>
    refine absurd (fun o ho => ?_) hnot
    simp only [taskOp, requestOp] at ho
    split_ifs at ho
    obtain rfl := Option.some.inj ho
    rfl

/-- An instance that the step does not register was there before, and is the same. -/
theorem entry_of_not_registered (h : taskStep cfg reply sh t = some (sh', next, es))
    {id : InstanceId} {xt' : PendingXt}
    (hno : ∀ op route, taskOp cfg reply t = some op → op.registers cfg sh.st ≠ some (id, route))
    (hl : sh'.st.pending.lookup id = some xt') :
    ∃ xt, sh.st.pending.lookup id = some xt ∧ SameXt xt xt' := by
  rcases taskStep_op h with ⟨-, hst⟩ | ⟨op, hop, hst⟩
  · rw [hst] at hl
    exact ⟨xt', hl, SameXt.refl xt'⟩
  · rw [hst] at hl
    exact entry_kept (fun route => hno op route hop) hl

/-- An instance that is pending after a step was there before or was registered by it. -/
theorem entry_step (h : taskStep cfg reply sh t = some (sh', next, es)) {id : InstanceId}
    {xt' : PendingXt} (hl : sh'.st.pending.lookup id = some xt') :
    (∃ xt, sh.st.pending.lookup id = some xt ∧ SameXt xt xt' ∧
        ∀ op route, taskOp cfg reply t = some op → op.registers cfg sh.st ≠ some (id, route)) ∨
      NewEntry cfg sh.st t next es id xt' := by
  by_cases hreg : ∃ op route, taskOp cfg reply t = some op ∧
      op.registers cfg sh.st = some (id, route)
  · obtain ⟨op, route, hop, hr⟩ := hreg
    obtain ⟨xt, hx, hnew⟩ := newEntry_of_registers h hop hr
    obtain rfl := Option.some.inj (hx.symm.trans hl)
    exact Or.inr hnew
  · have hno : ∀ op route, taskOp cfg reply t = some op →
        op.registers cfg sh.st ≠ some (id, route) :=
      fun op route hop hr => hreg ⟨op, route, hop, hr⟩
    obtain ⟨xt, hx, hsame⟩ := entry_of_not_registered h hno hl
    exact Or.inl ⟨xt, hx, hsame, hno⟩

end Entries

section Releases

/-- The tasks that bring a release to the builder. -/
def Task.onRelease : Task → Bool
  | .command (.release _ _) _ => true
  | .buildPutInbox _ _ _ _ _ => true
  | .release _ _ _ => true
  | _ => false

/-- How a release goes on from task to task. -/
inductive GoesOn (cfg : Config) (reply : TaskReply) (sh : Shared) : Task → List Task → Prop
  | ordered {t : Task} {op : Op} {id : InstanceId} {deps : List CrossRollupDependency}
      (resume : Resume) (hop : taskOp cfg reply t = some op)
      (hc : .release id deps ∈ op.commands cfg sh.st) :
      GoesOn cfg reply sh t [.command (.release id deps) resume]
  | empty (id : InstanceId) (resume : Resume) :
      GoesOn cfg reply sh (.command (.release id []) resume) [.release id [] resume]
  | reserved (id : InstanceId) {deps : List CrossRollupDependency} (resume : Resume) {start : Nat}
      (hclient : cfg.xtBuilderClient = true) (hne : deps.isEmpty = false)
      (hbuilder : cfg.putInboxBuilder = true)
      (hstart : (Nonce.reserve sh.nonces id deps.length reply.canonical).1 = .ok start) :
      GoesOn cfg reply sh (.command (.release id deps) resume)
        [.buildPutInbox id deps start [] resume]
  | signed (id : InstanceId) (dep : CrossRollupDependency) (rest : List CrossRollupDependency)
      (nonce : Nat) (txs : List Bytes) (resume : Resume) {tx : Bytes} (h : reply.built = .ok tx) :
      GoesOn cfg reply sh (.buildPutInbox id (dep :: rest) nonce txs resume)
        [.buildPutInbox id rest (saturatingAdd nonce 1) (txs ++ [tx]) resume]
  | complete (id : InstanceId) (nonce : Nat) (txs : List Bytes) (resume : Resume) :
      GoesOn cfg reply sh (.buildPutInbox id [] nonce txs resume) [.release id txs resume]

variable {cfg : Config} {reply : TaskReply} {sh sh' : Shared} {t : Task} {next : List Task}
  {es : List Event}

theorem onRelease_next (resume : Resume) : ∀ u ∈ resume.next cfg, u.onRelease = false := by
  cases resume with
  | done => simp [Resume.next]
  | handVote id rawId vote standalone =>
    simp only [Resume.next]
    split_ifs <;> simp [Task.onRelease]
  | nextAbort ids aborted => cases ids <;> simp [Resume.next, Task.onRelease]
  | nextRollback ids waiters => cases ids <;> simp [Resume.next, Task.onRelease]

theorem goesOn_commandOr {op : Op} {command : Option XtBuilderCommand} (resume : Resume)
    (hop : taskOp cfg reply t = some op)
    (hc : ∀ c, command = some c → c ∈ op.commands cfg sh.st) :
    GoesOn cfg reply sh t (commandOr cfg command resume) ∨
      ∀ u ∈ commandOr cfg command resume, u.onRelease = false := by
  rcases command with _ | ⟨id, deps⟩ | id
  · exact Or.inr (onRelease_next resume)
  · exact Or.inl (.ordered resume hop (hc _ rfl))
  · exact Or.inr (by simp [commandOr, Task.onRelease])

theorem goesOn_release (id : InstanceId) (deps : List CrossRollupDependency) (resume : Resume) :
    GoesOn cfg reply sh (.command (.release id deps) resume)
        (applyBuilderCommand cfg reply sh (.release id deps) resume).2.1 ∨
      ∀ u ∈ (applyBuilderCommand cfg reply sh (.release id deps) resume).2.1,
        u.onRelease = false := by
  simp only [applyBuilderCommand]
  split_ifs with hclient hdeps hbuilder
  · exact Or.inr (onRelease_next resume)
  · obtain rfl := List.isEmpty_iff.mp hdeps
    exact Or.inl (.empty id resume)
  · exact Or.inr (by simp)
  · split
    · next start hstart =>
      exact Or.inl (.reserved id resume (by simpa using hclient) (by simpa using hdeps)
        (by simpa using hbuilder) hstart)
    · exact Or.inr (by simp)

theorem goesOn_buildPutInbox (id : InstanceId) (deps : List CrossRollupDependency) (nonce : Nat)
    (txs : List Bytes) (resume : Resume) :
    GoesOn cfg reply sh (.buildPutInbox id deps nonce txs resume)
        (buildPutInbox reply sh id deps nonce txs resume).2.1 ∨
      ∀ u ∈ (buildPutInbox reply sh id deps nonce txs resume).2.1, u.onRelease = false := by
  cases deps with
  | nil => exact Or.inl (.complete id nonce txs resume)
  | cons dep rest =>
    cases hbuilt : reply.built with
    | ok tx =>
      simp only [buildPutInbox, hbuilt]
      exact Or.inl (.signed id dep rest nonce txs resume hbuilt)
    | error err =>
      simp only [buildPutInbox, hbuilt]
      exact Or.inr (by simp [Task.onRelease])

/-- Tasks on a release got it from the task before them, or from the decision. -/
theorem goesOn_or_not (h : taskStep cfg reply sh t = some (sh', next, es)) :
    GoesOn cfg reply sh t next ∨ ∀ u ∈ next, u.onRelease = false := by
  cases taskStep_effect h with
  | decided request hop hr hc => exact goesOn_commandOr _ hop hc
  | voteRecorded id vote standalone hl hv hc => exact goesOn_commandOr _ rfl hc
  | releaseSkipped id deps resume | releaseStarted id deps resume =>
    have hstep := @goesOn_release cfg reply sh id deps resume
    rwa [Option.some.inj h] at hstep
  | built id deps nonce txs resume =>
    have hstep := @goesOn_buildPutInbox cfg reply sh id deps nonce txs resume
    rwa [Option.some.inj h] at hstep
  | periodOpened | rolledBack | recycled => exact Or.inr (onRelease_next _)
  | releaseSent id txs resume hn =>
    rcases hn with rfl | rfl
    · exact Or.inr (onRelease_next resume)
    · exact Or.inr (by simp [Task.onRelease])
  | proceeded registrar =>
    refine Or.inr (fun u hu => ?_)
    rcases mem_registrarNext hu with rfl | ⟨id, txs, -, rfl⟩ | ⟨fingerprint, after, rfl⟩ <;> rfl
  | registered =>
    unfold submitFirst
    exact Or.inr (by split <;> simp [Task.onRelease])
  | removed registrar =>
    cases registrar <;> exact Or.inr (by simp [Registrar.undone, Task.onRelease])
  | resolved _ _ after => cases after <;> exact Or.inr (by simp [AfterResolve.next, Task.onRelease])
  | abortSent _ _ _ hn => rcases hn with rfl | rfl <;> exact Or.inr (by simp [Task.onRelease])
  | modeChosen _ _ hu => rcases hu with rfl | ⟨rfl, -⟩ <;> exact Or.inr (by simp [Task.onRelease])
  | enqueued _ _ hu => rcases hu with rfl | ⟨_, _, rfl⟩ <;> exact Or.inr (by simp [Task.onRelease])
  | requested _ _ _ hu => rcases hu with rfl | ⟨_, rfl⟩ <;> exact Or.inr (by simp [Task.onRelease])
  | stopped | refused | tooMany | confirmed | mailed | submitted | notSubmitted | accepted
    | declined | forwardStarted | forwarded | rejected | processed | processVoted | modeRead
    | abortSkipped | abortsReported | voteSent | peerVoteSent | noncesReset | nonceConfirmed =>
    exact Or.inr (by simp [Task.onRelease])

end Releases

end Sidecar.Coordinator
