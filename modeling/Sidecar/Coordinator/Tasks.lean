import Sidecar.Coordinator.NonceManager
import Sidecar.Coordinator.Process
import Sidecar.Framework.Tasks

namespace Sidecar.Coordinator

/-- Calls into the coordinator, from callers, the publisher, the builder, peers and the clock. -/
inductive Request where
  | submitXt (txs : RawTxs) (waiter : Waiter)
  | forwardedXt (id : InstanceId) (txs : RawTxs) (originChain : ChainId)
      (originSeq : SequenceNumber)
  | startInstance (msg : StartInstance)
  | peerVote (id : InstanceId) (chainId : ChainId) (vote : Bool)
  | decision (id : InstanceId) (decision : Bool)
  | startPeriod (periodId : PeriodId)
  | rollback
  | confirmIncluded (ids : List InstanceId)
  | cleanup (maxAge : Nat)
  | mailboxMessage (msg : MailboxMessage)
  deriving DecidableEq

/-- A handler that has registered an instance, with what it needs afterwards. -/
inductive Registrar where
  | submitted (id : InstanceId) (txs : RawTxs)
  | forwarded (id : InstanceId) (hasLocal : Bool)
  | started (id : InstanceId) (rawId : Bytes) (fingerprint : String) (includesLocal : Bool)

def Registrar.id : Registrar → InstanceId
  | .submitted id _ => id
  | .forwarded id _ => id
  | .started id _ _ _ => id

/-- What a handler goes on with when `apply_builder_command` has succeeded. -/
inductive Resume where
  | done
  | handVote (id : InstanceId) (rawId : Bytes) (vote standalone : Bool)
  | nextAbort (ids : List InstanceId) (aborted : List Bytes)
  | nextRollback (ids : List InstanceId) (waiters : List (List Waiter))

/-- What `handle_start_instance` goes on with when the waiters have their answer. -/
inductive AfterResolve where
  | done
  | reject (rawId : Bytes)
  | process (id : InstanceId)

/-- The points of all handlers and spawned tasks where others may run. -/
inductive Task where
  | request (request : Request)
  | submitStandalone (txs : RawTxs)
  | submitPublisher (txs : RawTxs) (waiter : Waiter)
  | sendRequest (fingerprint : String) (req : XtRequest) (waiter : Waiter)
  | awaitInstance (waiter : Waiter)
  | submit (submission : XtBuilderSubmission) (registrar : Registrar)
  | submitting (registrar : Registrar)
  | removePending (registrar : Registrar) (err : CoordinatorError)
  | registered (registrar : Registrar)
  | forwardXt (id : InstanceId) (txs : RawTxs)
  | forwarding (id : InstanceId) (txs : RawTxs) (originSeq : SequenceNumber)
  | resolve (fingerprint : String) (result : Except String InstanceId) (next : AfterResolve)
  | reject (rawId : Bytes)
  | process (id : InstanceId) (pc : ProcPc)
  | sendVote (id : InstanceId) (vote : Bool)
  | recordVote (id : InstanceId) (vote standalone : Bool)
  | command (command : XtBuilderCommand) (resume : Resume)
  | buildPutInbox (id : InstanceId) (deps : List CrossRollupDependency) (nonce : Nat)
      (txs : List Bytes) (resume : Resume)
  | release (id : InstanceId) (txs : List Bytes) (resume : Resume)
  | recycle (id : InstanceId) (resume : Option Resume)
  | reportAborted (aborted : List Bytes)
  | publisherVotes (votes : List (Bytes × Bool))
  | peerVotes (id : InstanceId) (vote : Bool)
  | resetNonces (waiters : List (List Waiter))
  | confirmNonces (ids : List InstanceId)
  | notifyWaiters

/-- What the outside sees. The builder gets a request at the step that shows it; how long the
request travels is how long the task waits before that step. -/
inductive Event where
  | registered (id : InstanceId) (rawId : Bytes)
  | refused (rawId : Bytes)
  | submitXt (submission : XtBuilderSubmission)
  | submitReturned (id : InstanceId) (ok : Bool)
  | releaseXt (id : InstanceId) (txs : List Bytes)
  | abortXt (id : InstanceId)
  | publisherVote (rawId : Bytes) (vote : Bool)
  | publisherRequest (req : XtRequest)
  | peerVote (id : InstanceId) (vote : Bool)
  | forwardXt (id : InstanceId) (txs : RawTxs) (originSeq : SequenceNumber)
  | answered (waiter : Waiter) (result : Except String InstanceId)
  | processed (id : InstanceId) (event : ProcEvent)

/-- What the tasks share: the state behind the lock, the nonce lane behind its own, and the
publisher's connection. -/
structure Shared where
  st : CoordinatorState := {}
  nonces : Nonce.Inner := {}
  connected : Bool := false

/-- What the outside answers to a task. -/
structure TaskReply where
  outcome : Except CoordinatorError Unit := .ok ()
  now : Instant := 0
  closed : Waiter → Bool := fun _ => false
  canonical : Except CoordinatorError Nat := .ok 0
  built : Except CoordinatorError Bytes := .ok []
  proc : Reply := {}

def TaskReply.succeeds (reply : TaskReply) : Bool :=
  match reply.outcome with
  | .ok _ => true
  | .error _ => false

abbrev World := TaskSystem Shared Task Event

abbrev TaskOutcome := Shared × List Task × List Event

def isPublisherConnected (cfg : Config) (sh : Shared) : Bool := cfg.publisher && sh.connected

section Continuations

variable (cfg : Config)

/-- The rest of a handler after its builder command. -/
def Resume.next : Resume → List Task
  | .done => []
  | .handVote id rawId vote standalone =>
    if standalone then if cfg.peerCoordinator then [.peerVotes id vote] else []
    else [.publisherVotes [(rawId, vote)]]
  | .nextAbort [] aborted => [.reportAborted aborted]
  | .nextAbort (id :: ids) aborted => [.command (.abort id) (.nextAbort ids aborted)]
  | .nextRollback [] waiters => [.resetNonces waiters]
  | .nextRollback (id :: ids) waiters => [.command (.abort id) (.nextRollback ids waiters)]

def commandOr (command : Option XtBuilderCommand) (resume : Resume) : List Task :=
  match command with
  | some command => [.command command resume]
  | none => resume.next cfg

/-- An instance without local transactions is not submitted to the builder. -/
def submitFirst (submission : Option XtBuilderSubmission) (registrar : Registrar) : Task :=
  match submission with
  | some submission => .submit submission registrar
  | none => .registered registrar

def AfterResolve.next : AfterResolve → List Task
  | .done => []
  | .reject rawId => [.reject rawId]
  | .process id => [.process id .start]

/-- What follows a registration that the builder accepted or was not asked about. -/
def Registrar.next : Registrar → List Task
  | .submitted id txs => .process id .start :: if cfg.peerCoordinator then [.forwardXt id txs] else []
  | .forwarded id hasLocal => if hasLocal then [.process id .start] else []
  | .started id _ fingerprint includesLocal =>
    [.resolve fingerprint (.ok id) (if includesLocal then .process id else .done)]

/-- What follows the removal of an instance that the builder refused. -/
def Registrar.undone (err : CoordinatorError) : Registrar → List Task
  | .submitted _ _ => []
  | .forwarded _ _ => []
  | .started _ rawId fingerprint _ => [.resolve fingerprint (.error err.message) (.reject rawId)]

def answers (waiters : List Waiter) (result : Except String InstanceId) : List Event :=
  waiters.map (fun waiter => .answered waiter result)

end Continuations

section Handlers

variable (cfg : Config) (reply : TaskReply) (sh : Shared)

/-- `submit_xt`: the mode is chosen by the connection at this moment. -/
def submitRequest (txs : RawTxs) (waiter : Waiter) : TaskOutcome :=
  if txs.keys.length < 2 then (sh, [], [])
  else if isPublisherConnected cfg sh then (sh, [.submitPublisher txs waiter], [])
  else (sh, [.submitStandalone txs], [])

def submitStandalone (txs : RawTxs) : TaskOutcome :=
  let (st', outcome) := submitXt cfg sh.st txs
  match outcome with
  | .registered id submission =>
    ({ sh with st := st' }, [submitFirst submission (.submitted id txs)],
      [.registered id (InstanceId.asBytes id)])
  | _ => ({ sh with st := st' }, [], [])

def handleForwardedXt (id : InstanceId) (txs : RawTxs) (originChain : ChainId)
    (originSeq : SequenceNumber) : TaskOutcome :=
  let (st', outcome) := forwardXt cfg sh.st id txs originChain originSeq
  match outcome with
  | .registered submission hasLocal =>
    ({ sh with st := st' }, [submitFirst submission (.forwarded id hasLocal)],
      [.registered id (InstanceId.asBytes id)])
  | _ => ({ sh with st := st' }, [], [])

/-- `handle_start_instance` up to the end of its locked part. -/
def handleStartInstance (msg : StartInstance) : TaskOutcome :=
  match msg.xtRequest with
  | none => (sh, [], [])
  | some req =>
    let fingerprint := cfg.xtRequestFingerprint req
    match cfg.tryInstance msg with
    | .error err =>
      (sh, [.resolve fingerprint (.error ("invalid start-instance: " ++ err))
        (.reject msg.instanceId)], [.refused msg.instanceId])
    | .ok inst =>
      let (st', outcome) := registerStarted cfg sh.st inst
      match outcome with
      | .alreadyPending _ => (sh, [], [])
      | .tooMany err => (sh, [.resolve fingerprint (.error err.message) .done], [])
      | .refused err =>
        (sh, [.resolve fingerprint (.error err.message) (.reject msg.instanceId)],
          [.refused msg.instanceId])
      | .registered submission includesLocal =>
        let id := InstanceId.fromPublisherBytes inst.id
        ({ sh with st := st' },
          [submitFirst submission (.started id msg.instanceId fingerprint includesLocal)],
          [.registered id inst.id])

def handlePeerVote (id : InstanceId) (chainId : ChainId) (vote : Bool) : TaskOutcome :=
  let (st', result) := recordPeerVote cfg sh.st id chainId vote reply.now
  match result with
  | .ok command => ({ sh with st := st' }, commandOr cfg command .done, [])
  | .error _ => (sh, [], [])

def onDecision (id : InstanceId) (decision : Bool) : TaskOutcome :=
  let (st', result) := recordPublisherDecision cfg sh.st id decision reply.now
  match result with
  | .ok command => ({ sh with st := st' }, commandOr cfg command .done, [])
  | .error _ => (sh, [], [])

def handleStartPeriod (periodId : PeriodId) : TaskOutcome :=
  let (st', change) := openPeriod cfg sh.st periodId reply.now
  ({ sh with st := st' },
    (Resume.nextAbort change.builderAbortIds change.abortedInstanceIds).next cfg, [])

def handleRollback : TaskOutcome :=
  let (st', change) := rollBack cfg sh.st reply.now
  ({ sh with st := st' }, (Resume.nextRollback change.builderAbortIds change.waiters).next cfg, [])

/-- `handle_mailbox_message`: a message that the queue does not take is dropped. -/
def handleMailboxMessage (msg : MailboxMessage) : TaskOutcome :=
  if cfg.mailboxQueue && !reply.succeeds then (sh, [], [])
  else ({ sh with st := deliverMailbox sh.st msg }, [.notifyWaiters], [])

def handleRequest : Request → TaskOutcome
  | .submitXt txs waiter => submitRequest cfg sh txs waiter
  | .forwardedXt id txs originChain originSeq =>
    handleForwardedXt cfg sh id txs originChain originSeq
  | .startInstance msg => handleStartInstance cfg sh msg
  | .peerVote id chainId vote => handlePeerVote cfg reply sh id chainId vote
  | .decision id decision => onDecision cfg reply sh id decision
  | .startPeriod periodId => handleStartPeriod cfg reply sh periodId
  | .rollback => handleRollback cfg reply sh
  | .confirmIncluded ids =>
    ({ sh with st := confirmIncluded sh.st ids reply.now }, [.confirmNonces ids], [])
  | .cleanup maxAge => ({ sh with st := cleanup reply.closed sh.st reply.now maxAge }, [], [])
  | .mailboxMessage msg => handleMailboxMessage cfg reply sh msg

/-- The locked part of `submit_xt_publisher`. -/
def submitPublisher (txs : RawTxs) (waiter : Waiter) : TaskOutcome :=
  let req := buildXtRequest txs
  let fingerprint := cfg.xtRequestFingerprint req
  let (st', shouldSend) := enqueueSubmission sh.st fingerprint waiter
  ({ sh with st := st' },
    [if shouldSend then .sendRequest fingerprint req waiter else .awaitInstance waiter], [])

def sendRequest (fingerprint : String) (req : XtRequest) (waiter : Waiter) : TaskOutcome :=
  match reply.outcome with
  | .ok _ => (sh, [.awaitInstance waiter], [.publisherRequest req])
  | .error err =>
    (sh, [.resolve fingerprint (.error ("failed to send XT to publisher: " ++ err.message)) .done],
      [.publisherRequest req])

def submitReturns (registrar : Registrar) : TaskOutcome :=
  match reply.outcome with
  | .ok _ => (sh, [.registered registrar], [.submitReturned registrar.id true])
  | .error err => (sh, [.removePending registrar err], [.submitReturned registrar.id false])

/-- `resolve_pending_submission`. -/
def resolveSubmission (fingerprint : String) (result : Except String InstanceId)
    (next : AfterResolve) : TaskOutcome :=
  let (st', waiters) := takeSubmission sh.st fingerprint
  ({ sh with st := st' }, next.next, answers waiters result)

/-- The locked part of `send_vote`; nothing follows when the vote is not the first. -/
def recordLocalVote (id : InstanceId) (vote standalone : Bool) : TaskOutcome :=
  let (st', record) := recordVote cfg sh.st id vote standalone reply.now
  match record with
  | none => (sh, [], [])
  | some record =>
    ({ sh with st := st' },
      commandOr cfg record.command (.handVote id record.instanceBytes vote standalone), [])

/-- `apply_builder_command` up to its first await. -/
def applyBuilderCommand (command : XtBuilderCommand) (resume : Resume) : TaskOutcome :=
  match command with
  | .release id deps =>
    if !cfg.xtBuilderClient then (sh, resume.next cfg, [])
    else if deps.isEmpty then (sh, [.release id [] resume], [])
    else if !cfg.putInboxBuilder then (sh, [], [])
    else
      let (start, nonces') := Nonce.reserve sh.nonces id deps.length reply.canonical
      match start with
      | .ok nonce => ({ sh with nonces := nonces' }, [.buildPutInbox id deps nonce [] resume], [])
      | .error _ => ({ sh with nonces := nonces' }, [], [])
  | .abort id =>
    if !cfg.xtBuilderClient then (sh, [.recycle id (some resume)], [])
    else
      match reply.outcome with
      | .ok _ => (sh, [.recycle id (some resume)], [.abortXt id])
      | .error _ => (sh, [], [.abortXt id])

/-- The loop of `build_put_inbox_transactions`, one transaction at a time. -/
def buildPutInbox (id : InstanceId) (deps : List CrossRollupDependency) (nonce : Nat)
    (txs : List Bytes) (resume : Resume) : TaskOutcome :=
  match deps with
  | [] => (sh, [.release id txs resume], [])
  | _ :: rest =>
    match reply.built with
    | .ok tx => (sh, [.buildPutInbox id rest (saturatingAdd nonce 1) (txs ++ [tx]) resume], [])
    | .error _ => (sh, [.recycle id none], [])

def releaseXt (id : InstanceId) (txs : List Bytes) (resume : Resume) : TaskOutcome :=
  match reply.outcome with
  | .ok _ => (sh, resume.next cfg, [.releaseXt id txs])
  | .error _ => (sh, [.recycle id none], [.releaseXt id txs])

/-- One step of a task. `process_xt` hands its vote to `send_vote`; the notification of all
waiting tasks is a step of the whole system. -/
def taskStep (cfg : Config) (reply : TaskReply) (sh : Shared) : Task → Option TaskOutcome
  | .request request => some (handleRequest cfg reply sh request)
  | .submitStandalone txs => some (submitStandalone cfg sh txs)
  | .submitPublisher txs waiter => some (submitPublisher cfg sh txs waiter)
  | .sendRequest fingerprint req waiter => some (sendRequest reply sh fingerprint req waiter)
  | .awaitInstance _ => some (sh, [], [])
  | .submit submission registrar =>
    if cfg.xtBuilderClient then some (sh, [.submitting registrar], [.submitXt submission])
    else some (sh, [.registered registrar], [])
  | .submitting registrar => some (submitReturns reply sh registrar)
  | .removePending registrar err =>
    some ({ sh with st := removePendingXt reply.closed sh.st registrar.id },
      registrar.undone err, [])
  | .registered registrar => some (sh, registrar.next cfg, [])
  | .forwardXt id txs => some (sh, [.forwarding id txs sh.st.originSeq], [])
  | .forwarding id txs originSeq => some (sh, [], [.forwardXt id txs originSeq])
  | .resolve fingerprint result next => some (resolveSubmission sh fingerprint result next)
  | .reject rawId =>
    some (sh, if isPublisherConnected cfg sh then [.publisherVotes [(rawId, false)]] else [], [])
  | .process id pc =>
    match pc with
    | .vote vote => some (sh, [.sendVote id vote], [])
    | .finished => some (sh, [], [])
    | pc =>
      (procStep cfg id reply.proc sh.st pc).map (fun r =>
        ({ sh with st := r.1 }, [.process id r.2.1], r.2.2.map (Event.processed id)))
  | .sendVote id vote => some (sh, [.recordVote id vote (!isPublisherConnected cfg sh)], [])
  | .recordVote id vote standalone => some (recordLocalVote cfg reply sh id vote standalone)
  | .command command resume => some (applyBuilderCommand cfg reply sh command resume)
  | .buildPutInbox id deps nonce txs resume =>
    some (buildPutInbox reply sh id deps nonce txs resume)
  | .release id txs resume => some (releaseXt cfg reply sh id txs resume)
  | .recycle id resume =>
    some ({ sh with nonces := Nonce.releaseAborted sh.nonces id },
      resume.elim [] (fun resume => resume.next cfg), [])
  | .reportAborted aborted =>
    some (sh,
      if !aborted.isEmpty && isPublisherConnected cfg sh then
        [.publisherVotes (aborted.map (fun rawId => (rawId, false)))]
      else [], [])
  | .publisherVotes votes =>
    match votes with
    | [] => some (sh, [], [])
    | (rawId, vote) :: rest => some (sh, [.publisherVotes rest], [.publisherVote rawId vote])
  | .peerVotes id vote => some (sh, [], [.peerVote id vote])
  | .resetNonces waiters =>
    some ({ sh with nonces := Nonce.reset sh.nonces }, [],
      answers waiters.flatten (.error "publisher submission aborted by rollback"))
  | .confirmNonces ids =>
    match ids with
    | [] => some (sh, [], [])
    | id :: rest =>
      some ({ sh with nonces := Nonce.releaseConfirmed sh.nonces id }, [.confirmNonces rest], [])
  | .notifyWaiters => none

end Handlers

/-- What `notify_waiters` does to a task. -/
def Task.notified : Task → Task
  | .process id pc => .process id pc.notified
  | task => task

inductive Move where
  | arrive (request : Request)
  | connection (up : Bool)
  | run (task : Task) (reply : TaskReply)
  | notify

/-- Every interleaving of handler calls, spawned tasks and changes of the connection. -/
inductive WorldStep (cfg : Config) : World → Move → World → Prop
  | arrive (w : World) (request : Request) :
      WorldStep cfg w (.arrive request) { w with tasks := w.tasks ++ [.request request] }
  | connection (w : World) (up : Bool) :
      WorldStep cfg w (.connection up) { w with shared := { w.shared with connected := up } }
  | run {w w' : World} {task : Task} {reply : TaskReply}
      (h : TaskSystem.TaskRuns (taskStep cfg) reply task w w') :
      WorldStep cfg w (.run task reply) w'
  | notify {w : World} {before after : List Task}
      (h : w.tasks = before ++ .notifyWaiters :: after) :
      WorldStep cfg w .notify { w with tasks := (before ++ after).map Task.notified }

/-- A coordinator that has just started. -/
def World.initial : World := ⟨{}, [], []⟩

end Sidecar.Coordinator
