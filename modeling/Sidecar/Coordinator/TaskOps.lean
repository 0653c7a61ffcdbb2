import Sidecar.Coordinator.Commands
import Sidecar.Coordinator.Tasks

namespace Sidecar.Coordinator

section Ops

variable (cfg : Config) (reply : TaskReply)

/-- The locked part that a handler starts with. -/
def requestOp : Request → Option Op
  | .submitXt _ _ => none
  | .forwardedXt id txs originChain originSeq => some (.forwardXt id txs originChain originSeq)
  | .startInstance msg =>
    match msg.xtRequest, cfg.tryInstance msg with
    | some _, .ok inst => some (.startInstance inst)
    | _, _ => none
  | .peerVote id chainId vote => some (.peerVote id chainId vote reply.now)
  | .decision id decision => some (.onDecision id decision reply.now)
  | .startPeriod periodId => some (.startPeriod periodId reply.now)
  | .rollback => some (.rollback reply.now)
  | .confirmIncluded ids => some (.confirm ids reply.now)
  | .cleanup maxAge => some (.cleanup reply.closed reply.now maxAge)
  | .mailboxMessage msg =>
    if cfg.mailboxQueue && !reply.succeeds then none else some (.mailbox msg)

/-- The locked part that a step of a task runs, if it runs one. -/
def taskOp : Task → Option Op
  | .request request => requestOp cfg reply request
  | .submitStandalone txs => some (.submitXt txs)
  | .submitPublisher txs waiter =>
    some (.enqueue (cfg.xtRequestFingerprint (buildXtRequest txs)) waiter)
  | .removePending registrar _ => some (.removePending reply.closed registrar.id)
  | .resolve fingerprint _ _ => some (.resolve fingerprint)
  | .process id pc =>
    match pc with
    | .vote _ => none
    | pc => procOp cfg id reply.proc pc
  | .recordVote id vote standalone => some (.sendVote id vote standalone reply.now)
  | _ => none

end Ops

theorem procOp_of_taskOp {cfg : Config} {reply : TaskReply} {id : InstanceId} {pc : ProcPc} {op : Op}
    (h : taskOp cfg reply (.process id pc) = some op) : procOp cfg id reply.proc pc = some op := by
  cases pc with
  | vote v => simp [taskOp] at h
  | _ => exact h

/-- Which task runs which locked part. -/
inductive RunsOp (cfg : Config) (reply : TaskReply) : Task → Op → Prop
  | forwarded (id : InstanceId) (txs : RawTxs) (originChain : ChainId)
      (originSeq : SequenceNumber) :
      RunsOp cfg reply (.request (.forwardedXt id txs originChain originSeq))
        (.forwardXt id txs originChain originSeq)
  | started (msg : StartInstance) {inst : SpecInstance} (h : cfg.tryInstance msg = .ok inst) :
      RunsOp cfg reply (.request (.startInstance msg)) (.startInstance inst)
  | peerVoted (id : InstanceId) (chainId : ChainId) (vote : Bool) :
      RunsOp cfg reply (.request (.peerVote id chainId vote)) (.peerVote id chainId vote reply.now)
  | decided (id : InstanceId) (decision : Bool) :
      RunsOp cfg reply (.request (.decision id decision)) (.onDecision id decision reply.now)
  | periodStarted (periodId : PeriodId) :
      RunsOp cfg reply (.request (.startPeriod periodId)) (.startPeriod periodId reply.now)
  | rolledBack : RunsOp cfg reply (.request .rollback) (.rollback reply.now)
  | confirmed (ids : List InstanceId) :
      RunsOp cfg reply (.request (.confirmIncluded ids)) (.confirm ids reply.now)
  | cleanedUp (maxAge : Nat) :
      RunsOp cfg reply (.request (.cleanup maxAge)) (.cleanup reply.closed reply.now maxAge)
  | mailed (msg : MailboxMessage) : RunsOp cfg reply (.request (.mailboxMessage msg)) (.mailbox msg)
  | submitted (txs : RawTxs) : RunsOp cfg reply (.submitStandalone txs) (.submitXt txs)
  | enqueued (txs : RawTxs) (waiter : Waiter) :
      RunsOp cfg reply (.submitPublisher txs waiter)
        (.enqueue (cfg.xtRequestFingerprint (buildXtRequest txs)) waiter)
  | removed (registrar : Registrar) (err : CoordinatorError) :
      RunsOp cfg reply (.removePending registrar err) (.removePending reply.closed registrar.id)
  | resolved (fingerprint : String) (result : Except String InstanceId) (after : AfterResolve) :
      RunsOp cfg reply (.resolve fingerprint result after) (.resolve fingerprint)
  | voted (id : InstanceId) (vote standalone : Bool) :
      RunsOp cfg reply (.recordVote id vote standalone) (.sendVote id vote standalone reply.now)
  | locked (id : InstanceId) (txs : List Bytes) (overrides : StateOverride) :
      RunsOp cfg reply (.process id (.lock txs overrides)) (.lockChain id)
  | recorded (id : InstanceId) (frame : SimFrame) (result : SimulationResult) :
      RunsOp cfg reply (.process id (.record frame result))
        (.recordSimulation id result frame.overrides)
  | dispatched (id : InstanceId) (frame : SimFrame) (result : SimulationResult) :
      RunsOp cfg reply (.process id (.dispatch frame result)) (.dispatch id result.outboundMessages)
  | fulfilled (id : InstanceId) (frame : SimFrame) (deps : List CrossRollupDependency) :
      RunsOp cfg reply (.process id (.waiting frame deps .check)) (.fulfill id deps)

theorem runsOp_of_procOp {cfg : Config} {reply : TaskReply} {id : InstanceId} {pc : ProcPc} {op : Op}
    (hvote : ∀ v, pc ≠ .vote v) (h : procOp cfg id reply.proc pc = some op) :
    RunsOp cfg reply (.process id pc) op := by
  cases pc with
  | vote v => exact absurd rfl (hvote v)
  | lock txs overrides =>
    obtain rfl := Option.some.inj h
    exact .locked id txs overrides
  | record frame result =>
    obtain rfl := Option.some.inj h
    exact .recorded id frame result
  | dispatch frame result =>
    simp only [procOp] at h
    split_ifs at h
    obtain rfl := Option.some.inj h
    exact .dispatched id frame result
  | waiting frame deps wait =>
    cases wait with
    | check =>
      obtain rfl := Option.some.inj h
      exact .fulfilled id frame deps
    | _ => simp [procOp] at h
  | _ => simp [procOp] at h

/-- The task of every locked part, said once. -/
theorem runsOp_of_taskOp {cfg : Config} {reply : TaskReply} {t : Task} {op : Op}
    (h : taskOp cfg reply t = some op) : RunsOp cfg reply t op := by
  have hone : ∀ {o : Op}, some o = some op → RunsOp cfg reply t o → RunsOp cfg reply t op := by
    intro o he ho
    obtain rfl := Option.some.inj he
    exact ho
  cases t with
  | request request =>
    cases request with
    | submitXt txs waiter => simp [taskOp, requestOp] at h
    | forwardedXt id txs originChain originSeq => exact hone h (.forwarded id txs originChain originSeq)
    | startInstance msg =>
      simp only [taskOp, requestOp] at h
      split at h
      · next htry => exact hone h (.started msg htry)
      · simp at h
    | peerVote id chainId vote => exact hone h (.peerVoted id chainId vote)
    | decision id decision => exact hone h (.decided id decision)
    | startPeriod periodId => exact hone h (.periodStarted periodId)
    | rollback => exact hone h .rolledBack
    | confirmIncluded ids => exact hone h (.confirmed ids)
    | cleanup maxAge => exact hone h (.cleanedUp maxAge)
    | mailboxMessage msg =>
      simp only [taskOp, requestOp] at h
      split_ifs at h
      exact hone h (.mailed msg)
  | submitStandalone txs => exact hone h (.submitted txs)
  | submitPublisher txs waiter => exact hone h (.enqueued txs waiter)
  | removePending registrar err => exact hone h (.removed registrar err)
  | resolve fingerprint result after => exact hone h (.resolved fingerprint result after)
  | recordVote id vote standalone => exact hone h (.voted id vote standalone)
  | process id pc =>
    have hvote : ∀ v, pc ≠ .vote v := by
      intro v hpc
      simp [hpc, taskOp] at h
    exact runsOp_of_procOp hvote (procOp_of_taskOp h)
  | _ => simp [taskOp] at h

/-- The state after the locked part, if there is one. -/
def stateAfterOp (cfg : Config) (st : CoordinatorState) (op : Option Op) : CoordinatorState :=
  op.elim st (fun op => op.apply cfg st)

/-- A running `process_xt` hands its vote to `send_vote`, ends, or takes a step of its own. -/
theorem processStep_cases {cfg : Config} {reply : TaskReply} {sh sh' : Shared} {id : InstanceId}
    {pc : ProcPc} {next : List Task} {es : List Event}
    (h : taskStep cfg reply sh (.process id pc) = some (sh', next, es)) :
    (∃ v, pc = .vote v ∧ sh' = sh ∧ next = [.sendVote id v] ∧ es = []) ∨
      (pc = .finished ∧ sh' = sh ∧ next = [] ∧ es = []) ∨
      ∃ st' pc' events, procStep cfg id reply.proc sh.st pc = some (st', pc', events) ∧
        taskOp cfg reply (.process id pc) = procOp cfg id reply.proc pc ∧
        sh' = { sh with st := st' } ∧ next = [.process id pc'] ∧
        es = events.map (Event.processed id) := by
  cases pc with
  | vote v =>
    simp only [taskStep, Option.some.injEq, Prod.mk.injEq] at h
    exact Or.inl ⟨v, rfl, h.1.symm, h.2.1.symm, h.2.2.symm⟩
  | finished =>
    simp only [taskStep, Option.some.injEq, Prod.mk.injEq] at h
    exact Or.inr (Or.inl ⟨rfl, h.1.symm, h.2.1.symm, h.2.2.symm⟩)
  | _ =>
    simp only [taskStep, Option.map_eq_some_iff, Prod.mk.injEq] at h
    obtain ⟨r, hr, hsh, hnext, hes⟩ := h
    exact Or.inr (Or.inr ⟨r.1, r.2.1, r.2.2, hr, rfl, hsh.symm, hnext.symm, hes.symm⟩)

/-- The builder's answer to a submission. -/
theorem submitting_returns {cfg : Config} {reply : TaskReply} {sh sh' : Shared}
    {registrar : Registrar} {next : List Task} {es : List Event}
    (h : taskStep cfg reply sh (.submitting registrar) = some (sh', next, es)) :
    (reply.succeeds = true ∧ next = [.registered registrar]) ∨
      (reply.succeeds = false ∧ ∃ err, next = [.removePending registrar err]) := by
  simp only [taskStep, submitReturns, Option.some.injEq] at h
  unfold TaskReply.succeeds
  cases hr : reply.outcome with
  | ok u =>
    simp only [hr, Prod.mk.injEq] at h
    exact Or.inl ⟨rfl, h.2.1.symm⟩
  | error err =>
    simp only [hr, Prod.mk.injEq] at h
    exact Or.inr ⟨rfl, err, h.2.1.symm⟩

section State

variable (cfg : Config) (reply : TaskReply) (sh : Shared)

theorem handleStartInstance_state (msg : StartInstance) :
    (handleStartInstance cfg sh msg).1 =
      { sh with st := stateAfterOp cfg sh.st (requestOp cfg reply (.startInstance msg)) } := by
  unfold handleStartInstance
  cases hreq : msg.xtRequest with
  | none => simp [requestOp, hreq, stateAfterOp]
  | some req =>
    cases htry : cfg.tryInstance msg with
    | error err => simp [requestOp, hreq, htry, stateAfterOp]
    | ok inst =>
      simp only [requestOp, hreq, htry, stateAfterOp, Option.elim_some, Op.apply]
      rcases registerStarted_cases cfg sh.st inst with ⟨hno, hs⟩ | ⟨period, -, ho, hs⟩
      · rw [hs]
        cases hout : (registerStarted cfg sh.st inst).2 with
        | registered sub has => exact absurd hout (hno sub has)
        | alreadyPending err => rfl
        | tooMany err => rfl
        | refused err => rfl
      · rw [ho]

theorem handleRequest_state (request : Request) :
    (handleRequest cfg reply sh request).1 =
      { sh with st := stateAfterOp cfg sh.st (requestOp cfg reply request) } := by
  cases request with
  | submitXt txs waiter =>
    simp only [handleRequest, submitRequest]
    split_ifs <;> rfl
  | forwardedXt id txs originChain originSeq =>
    simp only [handleRequest, handleForwardedXt]
    split <;> rfl
  | startInstance msg => exact handleStartInstance_state cfg reply sh msg
  | peerVote id chainId vote =>
    simp only [handleRequest, handlePeerVote, requestOp, stateAfterOp, Option.elim_some, Op.apply,
      recordPeerVote]
    cases hl : sh.st.pending.lookup id with
    | none => rfl
    | some xt =>
      dsimp only
      split_ifs <;> rfl
  | decision id decision =>
    simp only [handleRequest, onDecision, requestOp, stateAfterOp, Option.elim_some, Op.apply,
      recordPublisherDecision]
    cases hl : sh.st.pending.lookup id with
    | none => rfl
    | some xt =>
      dsimp only
      split_ifs <;> rfl
  | startPeriod periodId => rfl
  | rollback => rfl
  | confirmIncluded ids => rfl
  | cleanup maxAge => rfl
  | mailboxMessage msg =>
    simp only [handleRequest, handleMailboxMessage, requestOp]
    split_ifs <;> rfl

/-- A step of a task changes the state by its locked part only. -/
theorem taskStep_state {t : Task} {sh' : Shared} {next : List Task} {es : List Event}
    (h : taskStep cfg reply sh t = some (sh', next, es)) :
    sh'.st = stateAfterOp cfg sh.st (taskOp cfg reply t) := by
  -- the steps that leave the state alone
  have hsame : ∀ {s : Shared} {n : List Task} {e : List Event},
      some (s, n, e) = some (sh', next, es) → s.st = sh.st → sh'.st = sh.st := by
    intro s n e he hs
    rw [← (Prod.mk.inj (Option.some.inj he)).1]
    exact hs
  have hfst : ∀ {o : TaskOutcome}, some o = some (sh', next, es) → sh' = o.1 := by
    intro o he
    rw [Option.some.inj he]
  cases t with
  | request request =>
    rw [hfst h, handleRequest_state]
    rfl
  | submitStandalone txs =>
    rw [hfst h]
    simp only [submitStandalone]
    split <;> rfl
  | submitPublisher txs waiter =>
    rw [hfst h]
    rfl
  | sendRequest fingerprint req waiter =>
    rw [hfst h]
    simp only [sendRequest]
    split <;> rfl
  | submit submission registrar =>
    simp only [taskStep] at h
    split_ifs at h <;> exact hsame h rfl
  | submitting registrar =>
    rw [hfst h]
    simp only [submitReturns]
    split <;> rfl
  | process id pc =>
    rcases processStep_cases h with ⟨v, rfl, rfl, -, -⟩ | ⟨rfl, rfl, -, -⟩ |
      ⟨st', pc', events, hproc, hop, rfl, -, -⟩
    · rfl
    · rfl
    · rw [hop]
      exact procStep_state hproc
  | recordVote id v standalone =>
    rw [hfst h]
    simp only [recordLocalVote, taskOp, stateAfterOp, Option.elim_some, Op.apply, recordVote]
    cases hl : sh.st.pending.lookup id with
    | none => rfl
    | some xt =>
      dsimp only
      split_ifs <;> rfl
  | command command resume =>
    rw [hfst h]
    simp only [applyBuilderCommand]
    cases command with
    | release id deps =>
      dsimp only
      split_ifs
      · rfl
      · rfl
      · rfl
      · split <;> rfl
    | abort id =>
      dsimp only
      split_ifs
      · rfl
      · split <;> rfl
  | buildPutInbox id deps nonce txs resume =>
    rw [hfst h]
    simp only [buildPutInbox]
    split
    · rfl
    · split <;> rfl
  | release id txs resume =>
    rw [hfst h]
    simp only [releaseXt]
    split <;> rfl
  | publisherVotes votes =>
    cases votes with
    | nil => exact hsame h rfl
    | cons vote rest => exact hsame h rfl
  | confirmNonces ids =>
    cases ids with
    | nil => exact hsame h rfl
    | cons id rest => exact hsame h rfl
  | removePending registrar err =>
    rw [hfst h]
    rfl
  | resolve fingerprint result next =>
    rw [hfst h]
    rfl
  | awaitInstance | registered | forwardXt | forwarding | reject | sendVote | recycle
    | reportAborted | peerVotes | resetNonces => exact hsame h rfl
  | notifyWaiters => simp [taskStep] at h

variable {cfg reply sh} {t : Task} {sh' : Shared} {next : List Task} {es : List Event}

theorem taskStep_apply (h : taskStep cfg reply sh t = some (sh', next, es)) {op : Op}
    (hop : taskOp cfg reply t = some op) : sh'.st = op.apply cfg sh.st := by
  rw [taskStep_state cfg reply sh h, hop]
  rfl

/-- A step leaves the state as it is or runs its locked part. -/
theorem taskStep_op (h : taskStep cfg reply sh t = some (sh', next, es)) :
    (taskOp cfg reply t = none ∧ sh'.st = sh.st) ∨
      ∃ op, taskOp cfg reply t = some op ∧ sh'.st = op.apply cfg sh.st := by
  cases hop : taskOp cfg reply t with
  | none =>
    have hst := taskStep_state cfg reply sh h
    rw [hop] at hst
    exact Or.inl ⟨rfl, hst⟩
  | some op => exact Or.inr ⟨op, rfl, taskStep_apply h hop⟩

end State

end Sidecar.Coordinator
