import Sidecar.Coordinator.Tasks
import Sidecar.Framework.Program

namespace Sidecar.Coordinator

/-- A handler that nothing interrupts: it works on what the tasks share and on what the
outside has seen. -/
abbrev Handler := EStateM CoordinatorError (Shared × List Event)

/-- What the outside answers while one builder command is applied. The signer is asked once
for each dependency; it gets the number of the call, the dependency and the nonce. -/
structure Outside where
  canonical : Except CoordinatorError Nat := .ok 0
  built : Nat → CrossRollupDependency → Nat → Except CoordinatorError Bytes :=
    fun _ _ _ => .ok []
  released : Except CoordinatorError Unit := .ok ()
  aborted : Except CoordinatorError Unit := .ok ()

namespace Handler

def withState {α : Type} (f : CoordinatorState → CoordinatorState × α) : Handler α :=
  modifyGet (fun s => ((f s.1.st).2, { s.1 with st := (f s.1.st).1 }, s.2))

def withNonces {α : Type} (f : Nonce.Inner → α × Nonce.Inner) : Handler α :=
  modifyGet (fun s => ((f s.1.nonces).1, { s.1 with nonces := (f s.1.nonces).2 }, s.2))

def emit (events : List Event) : Handler Unit := modify (fun s => (s.1, s.2 ++ events))

/-- A request to the builder is seen by it, then answered. -/
def call (request : Event) (answer : Except CoordinatorError Unit) : Handler Unit := do
  emit [request]
  MonadExcept.ofExcept answer

def releaseAborted (id : InstanceId) : Handler Unit :=
  withNonces (fun nonces => ((), Nonce.releaseAborted nonces id))

section Rules

variable {α : Type} {s : Shared × List Event} {Q : α → Shared × List Event → Prop}
  {E : CoordinatorError → Shared × List Event → Prop}

@[simp] theorem completes_withState (f : CoordinatorState → CoordinatorState × α) :
    Completes (withState f) s Q E ↔ Q (f s.1.st).2 ({ s.1 with st := (f s.1.st).1 }, s.2) := Iff.rfl

@[simp] theorem completes_withNonces (f : Nonce.Inner → α × Nonce.Inner) :
    Completes (withNonces f) s Q E ↔
      Q (f s.1.nonces).1 ({ s.1 with nonces := (f s.1.nonces).2 }, s.2) := Iff.rfl

@[simp] theorem completes_emit {Q : Unit → Shared × List Event → Prop} (events : List Event) :
    Completes (emit events) s Q E ↔ Q () (s.1, s.2 ++ events) := Iff.rfl

@[simp] theorem completes_releaseAborted {Q : Unit → Shared × List Event → Prop} (id : InstanceId) :
    Completes (releaseAborted id) s Q E ↔
      Q () ({ s.1 with nonces := Nonce.releaseAborted s.1.nonces id }, s.2) := Iff.rfl

@[simp] theorem completes_call {Q : Unit → Shared × List Event → Prop} (request : Event)
    (answer : Except CoordinatorError Unit) :
    Completes (call request answer) s Q E ↔
      (∀ u, answer = .ok u → Q u (s.1, s.2 ++ [request])) ∧
        ∀ err, answer = .error err → E err (s.1, s.2 ++ [request]) := by
  simp only [call, Completes.bind_iff, completes_emit, Completes.ofExcept_iff]

end Rules

section Builder

variable (cfg : Config) (outside : Outside)

/-- The loop of `build_put_inbox_transactions`. -/
def signDependencies (id : InstanceId) :
    List CrossRollupDependency → Nat → List Bytes → Handler (List Bytes)
  | [], _, txs => pure txs
  | dep :: deps, nonce, txs =>
    match outside.built txs.length dep nonce with
    | .ok tx => signDependencies id deps (saturatingAdd nonce 1) (txs ++ [tx])
    | .error err => do
      releaseAborted id
      throw err

def buildPutInboxTransactions (id : InstanceId) (deps : List CrossRollupDependency) :
    Handler (List Bytes) :=
  if deps.isEmpty then pure []
  else if !cfg.putInboxBuilder then throw .putInboxNotConfigured
  else do
    let reserved ← withNonces
      (fun nonces => Nonce.reserve nonces id deps.length outside.canonical)
    let start ← MonadExcept.ofExcept reserved
    signDependencies outside id deps start []

def applyBuilderCommand : XtBuilderCommand → Handler Unit
  | .release id deps =>
    if !cfg.xtBuilderClient then pure ()
    else do
      let txs ← buildPutInboxTransactions cfg outside id deps
      emit [.releaseXt id txs]
      match outside.released with
      | .ok _ => pure ()
      | .error err => do
        releaseAborted id
        throw err
  | .abort id => do
    (if cfg.xtBuilderClient then call (.abortXt id) outside.aborted else pure ())
    releaseAborted id

end Builder

section Publisher

variable (cfg : Config)

def connected : Handler Bool := modifyGet (fun s => (isPublisherConnected cfg s.1, s))

/-- Messages for the publisher. Without a connection none is sent, and one that cannot be sent
is only logged. -/
def tellPublisher (events : List Event) : Handler Unit := do
  let up ← connected cfg
  if up then emit events else pure ()

section Rules

variable {α : Type} {s : Shared × List Event} {E : CoordinatorError → Shared × List Event → Prop}

@[simp] theorem completes_connected {Q : Bool → Shared × List Event → Prop} :
    Completes (connected cfg) s Q E ↔ Q (isPublisherConnected cfg s.1) s := Iff.rfl

@[simp] theorem completes_tellPublisher {Q : Unit → Shared × List Event → Prop}
    (events : List Event) :
    Completes (tellPublisher cfg events) s Q E ↔
      Q () (s.1, s.2 ++ if isPublisherConnected cfg s.1 then events else []) := by
  simp only [tellPublisher, Completes.bind_iff, completes_connected]
  split_ifs with hup
  · simp
  · simp

end Rules

end Publisher

section Aborts

variable (cfg : Config) (aborts : Nat → Except CoordinatorError Unit)

/-- The loop of `handle_rollback` and `handle_start_period` over the builder's instances; the
builder answers its `k`-th call with `aborts k`. -/
def abortEach : List InstanceId → Nat → Handler Unit
  | [], _ => pure ()
  | id :: ids, k => do
    applyBuilderCommand cfg { aborted := aborts k } (.abort id)
    abortEach ids (k + 1)

def handleRollback (now : Instant) : Handler Unit := do
  let change ← withState (fun st => rollBack cfg st now)
  abortEach cfg aborts change.builderAbortIds 0
  withNonces (fun nonces => ((), Nonce.reset nonces))
  emit (answers change.waiters.flatten (.error "publisher submission aborted by rollback"))

def handleStartPeriod (periodId : PeriodId) (now : Instant) : Handler Unit := do
  let change ← withState (fun st => openPeriod cfg st periodId now)
  abortEach cfg aborts change.builderAbortIds 0
  tellPublisher cfg (change.abortedInstanceIds.map (fun rawId => .publisherVote rawId false))

end Aborts

section Decisions

variable (cfg : Config) (outside : Outside)

def applyIfAny : Option XtBuilderCommand → Handler Unit
  | some command => applyBuilderCommand cfg outside command
  | none => pure ()

/-- The end of `send_vote`: the vote goes to the publisher or, without it, to the peers. -/
def handVote (id : InstanceId) (rawId : Bytes) (vote standalone : Bool) : Handler Unit :=
  if standalone then if cfg.peerCoordinator then emit [.peerVote id vote] else pure ()
  else emit [.publisherVote rawId vote]

def sendVote (id : InstanceId) (vote : Bool) (now : Instant) : Handler Unit := do
  let up ← connected cfg
  let record ← withState (fun st => recordVote cfg st id vote (!up) now)
  match record with
  | none => pure ()
  | some record => do
    applyIfAny cfg outside record.command
    handVote cfg id record.instanceBytes vote (!up)

def onDecision (id : InstanceId) (decision : Bool) (now : Instant) : Handler Unit := do
  let result ← withState (fun st => recordPublisherDecision cfg st id decision now)
  let command ← MonadExcept.ofExcept result
  applyIfAny cfg outside command

end Decisions

section StartInstance

variable (cfg : Config) (submitted : Except CoordinatorError Unit) (closed : Waiter → Bool)

/-- `submit_xt_to_builder`. The builder's answer is looked at by the caller. -/
def submitXtToBuilder (id : InstanceId) :
    Option XtBuilderSubmission → Handler (Except CoordinatorError Unit)
  | some submission =>
    if cfg.xtBuilderClient then do
      emit [.submitXt submission, .submitReturned id submitted.isOk]
      pure submitted
    else pure (.ok ())
  | none => pure (.ok ())

def resolvePendingSubmission (fingerprint : String) (result : Except String InstanceId) :
    Handler Unit := do
  let waiters ← withState (fun st => takeSubmission st fingerprint)
  emit (answers waiters result)

def rejectStartInstance (msg : StartInstance) : Handler Unit :=
  tellPublisher cfg [.publisherVote msg.instanceId false]

/-- The rest of `handle_start_instance` when the instance is registered; what it spawns is
returned. -/
def submitStarted (msg : StartInstance) (fingerprint : String) (id : InstanceId)
    (submission : Option XtBuilderSubmission) (includesLocal : Bool) : Handler (List Task) := do
  let answer ← submitXtToBuilder cfg submitted id submission
  match answer with
  | .error err => do
    withState (fun st => (removePendingXt closed st id, ()))
    resolvePendingSubmission fingerprint (.error err.message)
    rejectStartInstance cfg msg
    throw err
  | .ok _ => do
    resolvePendingSubmission fingerprint (.ok id)
    pure (if includesLocal then [.process id .start] else [])

def handleStartInstance (msg : StartInstance) : Handler (List Task) :=
  match msg.xtRequest with
  | none => throw (.other "missing xt_request")
  | some req =>
    let fingerprint := cfg.xtRequestFingerprint req
    match cfg.tryInstance msg with
    | .error err => do
      emit [.refused msg.instanceId]
      resolvePendingSubmission fingerprint (.error ("invalid start-instance: " ++ err))
      rejectStartInstance cfg msg
      pure []
    | .ok inst => do
      let outcome ← withState (fun st => registerStarted cfg st inst)
      match outcome with
      | .alreadyPending err => throw err
      | .tooMany err => do
        resolvePendingSubmission fingerprint (.error err.message)
        throw err
      | .refused err => do
        emit [.refused msg.instanceId]
        resolvePendingSubmission fingerprint (.error err.message)
        rejectStartInstance cfg msg
        pure []
      | .registered submission includesLocal => do
        emit [.registered (InstanceId.fromPublisherBytes inst.id) inst.id]
        submitStarted cfg submitted closed msg fingerprint (InstanceId.fromPublisherBytes inst.id)
          submission includesLocal

section Rules

variable {s : Shared × List Event} {E : CoordinatorError → Shared × List Event → Prop}

@[simp] theorem completes_resolvePendingSubmission {Q : Unit → Shared × List Event → Prop}
    (fingerprint : String) (result : Except String InstanceId) :
    Completes (resolvePendingSubmission fingerprint result) s Q E ↔
      Q () ({ s.1 with st := (takeSubmission s.1.st fingerprint).1 },
        s.2 ++ answers (takeSubmission s.1.st fingerprint).2 result) := by
  simp only [resolvePendingSubmission, Completes.bind_iff, completes_withState, completes_emit]

@[simp] theorem completes_rejectStartInstance {Q : Unit → Shared × List Event → Prop}
    (msg : StartInstance) :
    Completes (rejectStartInstance cfg msg) s Q E ↔
      Q () (s.1, s.2 ++ if isPublisherConnected cfg s.1 then
        [.publisherVote msg.instanceId false] else []) := by
  simp only [rejectStartInstance, completes_tellPublisher]

end Rules

end StartInstance

section Simulation

variable {cfg : Config} {w : World} {sh : Shared} {log : List Event}

/-- What tasks can do when nothing else happens. -/
def Reaches (cfg : Config) : World → World → Prop :=
  Relation.ReflTransGen (TaskSystem.Moves (taskStep cfg))

theorem Reaches.step {task : Task} {sh' : Shared} {next : List Task} {events : List Event}
    (h : Reaches cfg w ⟨sh, [task], log⟩) (reply : TaskReply)
    (hstep : taskStep cfg reply sh task = some (sh', next, events)) :
    Reaches cfg w ⟨sh', next, log ++ events⟩ :=
  Relation.ReflTransGen.tail h (TaskSystem.moves_alone log hstep)

theorem Reaches.quiet_step {task : Task} {sh' : Shared} {next : List Task}
    (h : Reaches cfg w ⟨sh, [task], log⟩) (reply : TaskReply)
    (hstep : taskStep cfg reply sh task = some (sh', next, [])) :
    Reaches cfg w ⟨sh', next, log⟩ := by
  have hnext := h.step reply hstep
  rwa [List.append_nil] at hnext

theorem sign_reaches (outside : Outside) (id : InstanceId) (resume : Resume)
    (deps : List CrossRollupDependency) (nonce : Nat) (txs : List Bytes)
    (h : Reaches cfg w ⟨sh, [.buildPutInbox id deps nonce txs resume], log⟩) :
    Completes (signDependencies outside id deps nonce txs) (sh, log)
      (fun built s => Reaches cfg w ⟨s.1, [.release id built resume], s.2⟩)
      (fun _ s => Reaches cfg w ⟨s.1, [], s.2⟩) := by
  -- a round of the loop is a step of the task
  induction deps generalizing nonce txs with
  | nil => exact h.quiet_step {} rfl
  | cons dep deps ih =>
    unfold signDependencies
    cases hbuilt : outside.built txs.length dep nonce with
    | ok tx => exact ih _ _ (h.quiet_step { built := .ok tx } rfl)
    | error err =>
      have hrecycle : Reaches cfg w ⟨sh, [.recycle id none], log⟩ :=
        h.quiet_step { built := .error err } rfl
      simp only [Completes.bind_iff, completes_releaseAborted, Completes.throw_iff]
      exact hrecycle.quiet_step {} rfl

theorem build_reaches (outside : Outside) (id : InstanceId) (deps : List CrossRollupDependency)
    (resume : Resume) (hclient : cfg.xtBuilderClient = true)
    (h : Reaches cfg w ⟨sh, [.command (.release id deps) resume], log⟩) :
    Completes (buildPutInboxTransactions cfg outside id deps) (sh, log)
      (fun built s => Reaches cfg w ⟨s.1, [.release id built resume], s.2⟩)
      (fun _ s => Reaches cfg w ⟨s.1, [], s.2⟩) := by
  unfold buildPutInboxTransactions
  split_ifs with hempty hbuilder
  · refine h.quiet_step {} ?_
    simp [taskStep, Coordinator.applyBuilderCommand, hclient, hempty]
  · refine h.quiet_step {} ?_
    simp only [taskStep, Coordinator.applyBuilderCommand, hclient, hempty, hbuilder]
    rfl
  · simp only [Completes.bind_iff, completes_withNonces, Completes.ofExcept_iff]
    constructor
    · intro start hstart
      refine sign_reaches outside id resume deps start [] (h.quiet_step { canonical := outside.canonical } ?_)
      simp [taskStep, Coordinator.applyBuilderCommand, hclient, hempty, hbuilder, hstart]
    · intro err herr
      refine h.quiet_step { canonical := outside.canonical } ?_
      simp [taskStep, Coordinator.applyBuilderCommand, hclient, hempty, hbuilder, herr]

/-- The tasks of a builder command, undisturbed, do what the handler does: after a success
they go on with the rest, after a failure nothing follows. -/
theorem command_reaches (outside : Outside) (command : XtBuilderCommand) (resume : Resume)
    (h : Reaches cfg w ⟨sh, [.command command resume], log⟩) :
    Completes (applyBuilderCommand cfg outside command) (sh, log)
      (fun _ s => Reaches cfg w ⟨s.1, resume.next cfg, s.2⟩)
      (fun _ s => Reaches cfg w ⟨s.1, [], s.2⟩) := by
  cases command with
  | release id deps =>
    simp only [applyBuilderCommand]
    split_ifs with hclient
    · refine h.quiet_step {} ?_
      simp [taskStep, Coordinator.applyBuilderCommand, hclient]
    · simp only [Completes.bind_iff, completes_emit]
      refine (build_reaches outside id deps resume (by simpa using hclient) h).mono ?_
        (fun _ _ he => he)
      intro txs s hs
      cases hreleased : outside.released with
      | ok u => exact hs.step {} rfl
      | error err =>
        -- the task gives the nonces back in a step of its own
        have hrecycle : Reaches cfg w ⟨s.1, [.recycle id none], s.2 ++ [.releaseXt id txs]⟩ :=
          hs.step { outcome := .error err } rfl
        simp only [Completes.bind_iff, completes_releaseAborted, Completes.throw_iff]
        exact hrecycle.quiet_step {} rfl
  | abort id =>
    have hrest : ∀ {log' : List Event},
        Reaches cfg w ⟨sh, [.recycle id (some resume)], log'⟩ →
        Reaches cfg w ⟨{ sh with nonces := Nonce.releaseAborted sh.nonces id },
          resume.next cfg, log'⟩ :=
      fun hrecycle => hrecycle.quiet_step {} rfl
    simp only [applyBuilderCommand, Completes.bind_iff, completes_releaseAborted]
    split_ifs with hclient
    · rw [completes_call]
      constructor
      · intro u hok
        refine hrest (h.step {} ?_)
        simp [taskStep, Coordinator.applyBuilderCommand, hclient]
      · intro err herr
        refine h.step { outcome := .error err } ?_
        simp [taskStep, Coordinator.applyBuilderCommand, hclient]
    · refine hrest (h.quiet_step {} ?_)
      simp [taskStep, Coordinator.applyBuilderCommand, hclient]

/-- The loop of a handler over the builder's instances; `resume` names what is left to do. -/
theorem abort_each_reaches (aborts : Nat → Except CoordinatorError Unit)
    (resume : List InstanceId → Resume)
    (hresume : ∀ id ids, (resume (id :: ids)).next cfg = [.command (.abort id) (resume ids)])
    (ids : List InstanceId) (k : Nat)
    (h : Reaches cfg w ⟨sh, (resume ids).next cfg, log⟩) :
    Completes (abortEach cfg aborts ids k) (sh, log)
      (fun _ s => Reaches cfg w ⟨s.1, (resume []).next cfg, s.2⟩)
      (fun _ s => Reaches cfg w ⟨s.1, [], s.2⟩) := by
  induction ids generalizing k sh log with
  | nil => exact h
  | cons id ids ih =>
    rw [hresume] at h
    unfold abortEach
    simp only [Completes.bind_iff]
    refine (command_reaches { aborted := aborts k } (.abort id) _ h).mono ?_ (fun _ _ he => he)
    intro _ s hs
    exact ih (k + 1) hs

theorem rollback_reaches (aborts : Nat → Except CoordinatorError Unit) (now : Instant)
    (h : Reaches cfg w ⟨sh, [.request .rollback], log⟩) :
    Completes (handleRollback cfg aborts now) (sh, log)
      (fun _ s => Reaches cfg w ⟨s.1, [], s.2⟩) (fun _ s => Reaches cfg w ⟨s.1, [], s.2⟩) := by
  have hlocked := h.quiet_step { now := now } rfl
  unfold handleRollback
  simp only [Completes.bind_iff, completes_withState, completes_withNonces, completes_emit]
  refine (abort_each_reaches aborts (fun ids => .nextRollback ids _) (fun _ _ => rfl) _ 0
    hlocked).mono ?_ (fun _ _ he => he)
  intro _ s hs
  exact hs.step {} rfl

theorem publisher_votes_reach (votes : List (Bytes × Bool))
    (h : Reaches cfg w ⟨sh, [.publisherVotes votes], log⟩) :
    Reaches cfg w ⟨sh, [], log ++ votes.map (fun v => .publisherVote v.1 v.2)⟩ := by
  induction votes generalizing log with
  | nil => simpa using h.quiet_step {} rfl
  | cons v votes ih =>
    have hsent : Reaches cfg w ⟨sh, [.publisherVotes votes], log ++ [.publisherVote v.1 v.2]⟩ :=
      h.step {} rfl
    simpa using ih hsent

/-- With nothing to report or nobody to report to, the task stops before the votes. -/
theorem report_reaches (aborted : List Bytes)
    (h : Reaches cfg w ⟨sh, [.reportAborted aborted], log⟩) :
    Reaches cfg w ⟨sh, [], log ++ if isPublisherConnected cfg sh then
      aborted.map (fun rawId => .publisherVote rawId false) else []⟩ := by
  have hasked := h.quiet_step {} rfl
  split_ifs at hasked with hvotes
  · have hup : isPublisherConnected cfg sh = true := (Bool.and_eq_true_iff.mp hvotes).2
    simpa [hup, Function.comp_def] using publisher_votes_reach _ hasked
  · have hnone : (if isPublisherConnected cfg sh then
        aborted.map (fun rawId => Event.publisherVote rawId false) else []) = [] := by
      split_ifs with hup
      · simpa [hup] using hvotes
      · rfl
    rwa [hnone, List.append_nil]

theorem start_period_reaches (aborts : Nat → Except CoordinatorError Unit) (periodId : PeriodId)
    (now : Instant) (h : Reaches cfg w ⟨sh, [.request (.startPeriod periodId)], log⟩) :
    Completes (handleStartPeriod cfg aborts periodId now) (sh, log)
      (fun _ s => Reaches cfg w ⟨s.1, [], s.2⟩) (fun _ s => Reaches cfg w ⟨s.1, [], s.2⟩) := by
  have hlocked := h.quiet_step { now := now } rfl
  unfold handleStartPeriod
  simp only [Completes.bind_iff, completes_withState, completes_tellPublisher]
  refine (abort_each_reaches aborts (fun ids => .nextAbort ids _) (fun _ _ => rfl) _ 0
    hlocked).mono ?_ (fun _ _ he => he)
  intro _ s hs
  exact report_reaches _ hs

theorem command_or_reaches (outside : Outside) (command : Option XtBuilderCommand) (resume : Resume)
    (h : Reaches cfg w ⟨sh, commandOr cfg command resume, log⟩) :
    Completes (applyIfAny cfg outside command) (sh, log)
      (fun _ s => Reaches cfg w ⟨s.1, resume.next cfg, s.2⟩)
      (fun _ s => Reaches cfg w ⟨s.1, [], s.2⟩) := by
  cases command with
  | none => exact h
  | some command => exact command_reaches outside command resume h

theorem hand_vote_reaches (id : InstanceId) (rawId : Bytes) (vote standalone : Bool)
    (h : Reaches cfg w ⟨sh, (Resume.handVote id rawId vote standalone).next cfg, log⟩) :
    Completes (handVote cfg id rawId vote standalone) (sh, log)
      (fun _ s => Reaches cfg w ⟨s.1, [], s.2⟩) (fun _ s => Reaches cfg w ⟨s.1, [], s.2⟩) := by
  simp only [Resume.next] at h
  simp only [handVote]
  split_ifs at h ⊢ with hstandalone hpeers
  · exact h.step {} rfl
  · exact h
  · exact publisher_votes_reach [(rawId, vote)] h

theorem send_vote_reaches (outside : Outside) (id : InstanceId) (vote : Bool) (now : Instant)
    (h : Reaches cfg w ⟨sh, [.sendVote id vote], log⟩) :
    Completes (sendVote cfg outside id vote now) (sh, log)
      (fun _ s => Reaches cfg w ⟨s.1, [], s.2⟩) (fun _ s => Reaches cfg w ⟨s.1, [], s.2⟩) := by
  have hmode := h.quiet_step {} rfl
  simp only [sendVote, Completes.bind_iff, completes_connected, completes_withState]
  cases hrecord : (recordVote cfg sh.st id vote (!isPublisherConnected cfg sh) now).2 with
  | none =>
    have hsame : (recordVote cfg sh.st id vote (!isPublisherConnected cfg sh) now).1 = sh.st := by
      simp only [recordVote] at hrecord ⊢
      split at hrecord
      · rfl
      · split_ifs at hrecord ⊢
        rfl
    rw [hsame]
    exact hmode.quiet_step { now := now } (by simp only [taskStep, recordLocalVote, hrecord])
  | some record =>
    have hrecorded := hmode.quiet_step { now := now }
      (by simp only [taskStep, recordLocalVote, hrecord]; rfl)
    simp only [Completes.bind_iff]
    refine (command_or_reaches outside record.command _ hrecorded).mono ?_ (fun _ _ he => he)
    intro _ s hs
    exact hand_vote_reaches id record.instanceBytes vote _ hs

theorem on_decision_reaches (outside : Outside) (id : InstanceId) (decision : Bool) (now : Instant)
    (h : Reaches cfg w ⟨sh, [.request (.decision id decision)], log⟩) :
    Completes (onDecision cfg outside id decision now) (sh, log)
      (fun _ s => Reaches cfg w ⟨s.1, [], s.2⟩) (fun _ s => Reaches cfg w ⟨s.1, [], s.2⟩) := by
  simp only [onDecision, Completes.bind_iff, completes_withState, Completes.ofExcept_iff]
  constructor
  · intro command hok
    refine command_or_reaches outside command .done (h.quiet_step { now := now } ?_)
    simp only [taskStep, handleRequest, Coordinator.onDecision, hok]
  · intro err herr
    have hsame : (recordPublisherDecision cfg sh.st id decision now).1 = sh.st := by
      simp only [recordPublisherDecision] at herr ⊢
      split at herr
      · rfl
      · split_ifs at herr
    rw [hsame]
    exact h.quiet_step { now := now } (by
      simp only [taskStep, handleRequest, Coordinator.onDecision, herr])

theorem resolve_reaches (fingerprint : String) (result : Except String InstanceId)
    (after : AfterResolve) (h : Reaches cfg w ⟨sh, [.resolve fingerprint result after], log⟩) :
    Reaches cfg w ⟨{ sh with st := (takeSubmission sh.st fingerprint).1 }, after.next,
      log ++ answers (takeSubmission sh.st fingerprint).2 result⟩ :=
  h.step {} rfl

theorem reject_reaches (rawId : Bytes) (h : Reaches cfg w ⟨sh, [.reject rawId], log⟩) :
    Reaches cfg w ⟨sh, [],
      log ++ if isPublisherConnected cfg sh then [.publisherVote rawId false] else []⟩ := by
  have hasked := h.quiet_step {} rfl
  split_ifs at hasked ⊢ with hup
  · exact publisher_votes_reach [(rawId, false)] hasked
  · rwa [List.append_nil]

theorem submit_started_reaches (submitted : Except CoordinatorError Unit) (closed : Waiter → Bool)
    (msg : StartInstance) (fingerprint : String) (id : InstanceId)
    (submission : Option XtBuilderSubmission) (includesLocal : Bool)
    (h : Reaches cfg w ⟨sh, [submitFirst submission
      (.started id msg.instanceId fingerprint includesLocal)], log⟩) :
    Completes (submitStarted cfg submitted closed msg fingerprint id submission includesLocal)
      (sh, log) (fun spawned s => Reaches cfg w ⟨s.1, spawned, s.2⟩)
      (fun _ s => Reaches cfg w ⟨s.1, [], s.2⟩) := by
  have haccepted : ∀ {log' : List Event}, Reaches cfg w ⟨sh, [.registered
      (.started id msg.instanceId fingerprint includesLocal)], log'⟩ →
      Reaches cfg w ⟨{ sh with st := (takeSubmission sh.st fingerprint).1 },
        if includesLocal then [.process id .start] else [],
        log' ++ answers (takeSubmission sh.st fingerprint).2 (.ok id)⟩ := by
    intro log' hregistered
    have hresolved := resolve_reaches _ _ _ (hregistered.quiet_step {} rfl)
    cases includesLocal <;> exact hresolved
  simp only [submitStarted, Completes.bind_iff]
  cases submission with
  | none =>
    simp only [submitXtToBuilder, Completes.pure_iff, Completes.bind_iff,
      completes_resolvePendingSubmission]
    exact haccepted h
  | some submission =>
    by_cases hclient : cfg.xtBuilderClient = true
    · have hsent : Reaches cfg w ⟨sh, [.submitting
          (.started id msg.instanceId fingerprint includesLocal)],
          log ++ [.submitXt submission]⟩ := by
        refine h.step {} ?_
        simp [submitFirst, taskStep, hclient]
      simp only [submitXtToBuilder, if_pos hclient, Completes.bind_iff, completes_emit,
        Completes.pure_iff]
      cases submitted with
      | ok u =>
        have hreturned := hsent.step {} rfl
        rw [List.append_assoc] at hreturned
        simp only [Completes.bind_iff, completes_resolvePendingSubmission, Completes.pure_iff]
        exact haccepted hreturned
      | error err =>
        have hreturned := hsent.step { outcome := .error err } rfl
        rw [List.append_assoc] at hreturned
        have hremoved := hreturned.quiet_step { closed := closed } rfl
        simp only [Completes.bind_iff, completes_withState, completes_resolvePendingSubmission,
          completes_rejectStartInstance, Completes.throw_iff]
        exact reject_reaches _ (resolve_reaches _ _ _ hremoved)
    · simp only [submitXtToBuilder, if_neg hclient, Completes.pure_iff, Completes.bind_iff,
        completes_resolvePendingSubmission]
      refine haccepted (h.quiet_step {} ?_)
      simp [submitFirst, taskStep, hclient]

theorem start_instance_reaches (submitted : Except CoordinatorError Unit) (closed : Waiter → Bool)
    (msg : StartInstance) (h : Reaches cfg w ⟨sh, [.request (.startInstance msg)], log⟩) :
    Completes (handleStartInstance cfg submitted closed msg) (sh, log)
      (fun spawned s => Reaches cfg w ⟨s.1, spawned, s.2⟩)
      (fun _ s => Reaches cfg w ⟨s.1, [], s.2⟩) := by
  unfold handleStartInstance
  cases hreq : msg.xtRequest with
  | none =>
    refine h.quiet_step {} ?_
    simp [taskStep, handleRequest, Coordinator.handleStartInstance, hreq]
  | some req =>
    cases htry : cfg.tryInstance msg with
    | error err =>
      have hrefused := h.step {} (by
        simp only [taskStep, handleRequest, Coordinator.handleStartInstance, hreq, htry]; rfl)
      simp only [Completes.bind_iff, completes_emit, completes_resolvePendingSubmission,
        completes_rejectStartInstance, Completes.pure_iff]
      exact reject_reaches _ (resolve_reaches _ _ _ hrefused)
    | ok inst =>
      have hsame : (∀ sub has, (registerStarted cfg sh.st inst).2 ≠ .registered sub has) →
          (registerStarted cfg sh.st inst).1 = sh.st := by
        intro hno
        rcases registerStarted_cases cfg sh.st inst with ⟨-, hs⟩ | ⟨period, -, ho, -⟩
        · exact hs
        · exact absurd ho (hno _ _)
      simp only [Completes.bind_iff, completes_withState]
      cases hout : (registerStarted cfg sh.st inst).2 with
      | alreadyPending err =>
        rw [hsame (by simp [hout])]
        refine h.quiet_step {} ?_
        simp only [taskStep, handleRequest, Coordinator.handleStartInstance, hreq, htry, hout]
      | tooMany err =>
        rw [hsame (by simp [hout])]
        have hfull := h.quiet_step {} (by
          simp only [taskStep, handleRequest, Coordinator.handleStartInstance, hreq, htry, hout]; rfl)
        simp only [Completes.bind_iff, completes_resolvePendingSubmission, Completes.throw_iff]
        exact resolve_reaches _ _ _ hfull
      | refused err =>
        rw [hsame (by simp [hout])]
        have hrefused := h.step {} (by
          simp only [taskStep, handleRequest, Coordinator.handleStartInstance, hreq, htry, hout]; rfl)
        simp only [Completes.bind_iff, completes_emit, completes_resolvePendingSubmission,
          completes_rejectStartInstance, Completes.pure_iff]
        exact reject_reaches _ (resolve_reaches _ _ _ hrefused)
      | registered submission includesLocal =>
        have hregistered := h.step {} (by
          simp only [taskStep, handleRequest, Coordinator.handleStartInstance, hreq, htry, hout]; rfl)
        simp only [Completes.bind_iff, completes_emit]
        exact submit_started_reaches submitted closed msg _ _ _ _ hregistered

/-- What undisturbed tasks reach is reached in a run of the coordinator, whatever other tasks
wait meanwhile. -/
theorem Reaches.run {w w' : World} (h : Reaches cfg w w') (before after : List Task)
    (log : List Event) :
    ∃ moves, Run (WorldStep cfg) (TaskSystem.beside before after log w) moves
      (TaskSystem.beside before after log w') := by
  have hbeside := TaskSystem.moves_beside before after log h
  generalize TaskSystem.beside before after log w = u at hbeside
  generalize TaskSystem.beside before after log w' = u' at hbeside
  induction hbeside with
  | refl => exact ⟨[], .nil u⟩
  | tail _ hmove ih =>
    obtain ⟨moves, hrun⟩ := ih
    obtain ⟨reply, task, hruns⟩ := hmove
    exact ⟨moves ++ [.run task reply], hrun.snoc (.run hruns)⟩

/-- What the handler does, the task does in a run of the coordinator with any other tasks
waiting around it. After a success `rest` is left of the task, after a failure nothing. -/
def DoneBy (cfg : Config) (sh : Shared) (task : Task) {α : Type} (x : Handler α)
    (rest : α → List Task) : Prop :=
  ∀ before after log, Completes x (sh, [])
    (fun a s => ∃ moves, Run (WorldStep cfg)
      (TaskSystem.beside before after log ⟨sh, [task], []⟩) moves
      (TaskSystem.beside before after log ⟨s.1, rest a, s.2⟩))
    (fun _ s => ∃ moves, Run (WorldStep cfg)
      (TaskSystem.beside before after log ⟨sh, [task], []⟩) moves
      (TaskSystem.beside before after log ⟨s.1, [], s.2⟩))

theorem doneBy_of_reaches {task : Task} {α : Type} {x : Handler α} {rest : α → List Task}
    (h : Completes x (sh, []) (fun a s => Reaches cfg ⟨sh, [task], []⟩ ⟨s.1, rest a, s.2⟩)
      (fun _ s => Reaches cfg ⟨sh, [task], []⟩ ⟨s.1, [], s.2⟩)) : DoneBy cfg sh task x rest :=
  fun before after log =>
    h.mono (fun _ _ hs => hs.run before after log) (fun _ _ hs => hs.run before after log)

theorem command_runs (outside : Outside) (command : XtBuilderCommand) (resume : Resume) :
    DoneBy cfg sh (.command command resume) (applyBuilderCommand cfg outside command)
      (fun _ => resume.next cfg) :=
  doneBy_of_reaches (command_reaches outside command resume .refl)

theorem rollback_runs (aborts : Nat → Except CoordinatorError Unit) (now : Instant) :
    DoneBy cfg sh (.request .rollback) (handleRollback cfg aborts now) (fun _ => []) :=
  doneBy_of_reaches (rollback_reaches aborts now .refl)

theorem start_period_runs (aborts : Nat → Except CoordinatorError Unit) (periodId : PeriodId)
    (now : Instant) :
    DoneBy cfg sh (.request (.startPeriod periodId)) (handleStartPeriod cfg aborts periodId now)
      (fun _ => []) :=
  doneBy_of_reaches (start_period_reaches aborts periodId now .refl)

theorem send_vote_runs (outside : Outside) (id : InstanceId) (vote : Bool) (now : Instant) :
    DoneBy cfg sh (.sendVote id vote) (sendVote cfg outside id vote now) (fun _ => []) :=
  doneBy_of_reaches (send_vote_reaches outside id vote now .refl)

theorem on_decision_runs (outside : Outside) (id : InstanceId) (decision : Bool) (now : Instant) :
    DoneBy cfg sh (.request (.decision id decision)) (onDecision cfg outside id decision now)
      (fun _ => []) :=
  doneBy_of_reaches (on_decision_reaches outside id decision now .refl)

theorem start_instance_runs (submitted : Except CoordinatorError Unit) (closed : Waiter → Bool)
    (msg : StartInstance) :
    DoneBy cfg sh (.request (.startInstance msg)) (handleStartInstance cfg submitted closed msg)
      (fun spawned => spawned) :=
  doneBy_of_reaches (start_instance_reaches submitted closed msg .refl)

end Simulation

end Handler

open Handler

theorem mem_answers_iff {waiters : List Waiter} {result result' : Except String InstanceId}
    {waiter : Waiter} :
    .answered waiter result' ∈ answers waiters result ↔ waiter ∈ waiters ∧ result' = result := by
  simp only [answers, List.mem_map, Event.answered.injEq]
  constructor
  · rintro ⟨w, hw, rfl, rfl⟩
    exact ⟨hw, rfl⟩
  · rintro ⟨hw, rfl⟩
    exact ⟨waiter, hw, rfl, rfl⟩

section AbortLoop

/-- The `k`-th call is the first that fails. -/
def FirstFailure (aborts : Nat → Except CoordinatorError Unit) (k : Nat) : Prop :=
  (aborts k).isOk = false ∧ ∀ j < k, (aborts j).isOk = true

variable {cfg : Config} {aborts : Nat → Except CoordinatorError Unit}

theorem firstFailure_unique {j k : Nat} (hj : FirstFailure aborts j) (hk : FirstFailure aborts k) :
    j = k := by
  rcases Nat.lt_trichotomy j k with hlt | heq | hgt
  · have hok := hk.2 j hlt
    rw [hj.1] at hok
    simp at hok
  · exact heq
  · have hok := hj.2 k hgt
    rw [hk.1] at hok
    simp at hok

theorem allOk_succ {k n : Nat} (hfirst : (aborts k).isOk = true)
    (hrest : ∀ i < n, (aborts (k + 1 + i)).isOk = true) :
    ∀ i < n + 1, (aborts (k + i)).isOk = true := by
  intro i hi
  cases i with
  | zero => exact hfirst
  | succ i =>
    have hok := hrest i (by omega)
    rwa [Nat.add_assoc, Nat.add_comm 1 i] at hok

/-- What the loop over the builder's instances has done when it ends, and where it stops when a
call fails. The call for the first of `ids` is the `k`-th. -/
theorem completes_abortEach (ids : List InstanceId) (k : Nat) (sh : Shared) (log : List Event) :
    Completes (abortEach cfg aborts ids k) (sh, log)
      (fun _ s =>
        s = ({ sh with nonces := ids.foldl Nonce.releaseAborted sh.nonces },
          log ++ if cfg.xtBuilderClient then ids.map .abortXt else []) ∧
        (cfg.xtBuilderClient = true → ∀ j < ids.length, (aborts (k + j)).isOk = true))
      (fun _ s => cfg.xtBuilderClient = true ∧ ∃ j < ids.length,
        s = ({ sh with nonces := (ids.take j).foldl Nonce.releaseAborted sh.nonces },
          log ++ (ids.take (j + 1)).map .abortXt) ∧
        (aborts (k + j)).isOk = false ∧ ∀ i < j, (aborts (k + i)).isOk = true) := by
  induction ids generalizing k sh log with
  | nil => simp [abortEach]
  | cons id ids ih =>
    simp only [abortEach, Handler.applyBuilderCommand, Completes.bind_iff, completes_releaseAborted]
    split_ifs with hclient
    · rw [completes_call]
      constructor
      · intro u hok
        have hfirst : (aborts k).isOk = true := by simp [hok]
        refine (ih (k + 1) _ _).mono ?_ ?_
        · rintro _ s ⟨rfl, hrest⟩
          exact ⟨by simp [hclient], fun _ => allOk_succ hfirst (hrest hclient)⟩
        · -- the failure at place `j` of the rest is the one at place `j + 1` of all
          rintro _ s ⟨_, j, hj, rfl, hfails, hbefore⟩
          refine ⟨hclient, j + 1, by simpa using hj, by simp, ?_, allOk_succ hfirst hbefore⟩
          rwa [Nat.add_assoc, Nat.add_comm 1 j] at hfails
      · intro err herr
        refine ⟨hclient, 0, by simp, by simp, ?_, by simp⟩
        simp [herr]
    · refine (ih (k + 1) _ _).mono ?_ ?_
      · rintro _ s ⟨rfl, -⟩
        exact ⟨by simp [hclient], fun h => absurd h hclient⟩
      · rintro _ s ⟨h, -⟩
        exact absurd h hclient

/-- A handler whose work is done unless a call fails, and which stops at the first one that
does, has done its work exactly when nothing was `left` to do at that point. -/
theorem completes_iff_firstFailure {x : Handler Unit} {s : Shared × List Event} {n : Nat}
    {done : Shared × List Event → Prop} {left : Nat → Prop}
    (h : Completes x s
      (fun _ s' => done s' ∧ (cfg.xtBuilderClient = true → ∀ j < n, (aborts j).isOk = true))
      (fun _ s' => ∃ k < n, FirstFailure aborts k ∧ cfg.xtBuilderClient = true ∧
        (done s' ↔ left k))) :
    Completes x s (fun _ s' => done s') (fun _ s' => done s') ↔
      (cfg.xtBuilderClient = true → ∀ k < n, FirstFailure aborts k → left k) := by
  rcases h.result with ⟨_, s', hrun, hdone, hok⟩ | ⟨_, s', hrun, k, hk, hfirst, hclient, hiff⟩
  · rw [Completes.of_ok hrun]
    refine ⟨fun _ hclient k hk hfirst => ?_, fun _ => hdone⟩
    have hfails := hfirst.1
    rw [hok hclient k hk] at hfails
    simp at hfails
  · rw [Completes.of_error hrun, hiff]
    constructor
    · intro hleft _ j _ hj
      rwa [firstFailure_unique hj hfirst]
    · intro hleft
      exact hleft hclient k hk hfirst

end AbortLoop

end Sidecar.Coordinator
