import Sidecar.Coordinator.Admission
import Sidecar.Coordinator.Lineage
import Sidecar.Coordinator.Overlay

namespace Sidecar.Coordinator

open TaskSystem

section View

/-- What the publisher's messages read and write of an instance. -/
structure XtView where
  decision : Option Bool
  periodId : PeriodId
  confirmed : Bool

def PendingXt.view (xt : PendingXt) : XtView :=
  { decision := xt.decision
    periodId := xt.periodId
    confirmed := xt.confirmedAt.isSome }

def viewOf (st : CoordinatorState) (id : InstanceId) : Option XtView :=
  (st.pending.lookup id).map PendingXt.view

/-- Two states that the publisher's messages cannot tell apart, except that instances still to
be taken back are in one of them only. -/
structure SameUpTo (hidden : List InstanceId) (st ref : CoordinatorState) : Prop where
  period : st.publisherPeriod = ref.publisherPeriod
  entries : ∀ id, id ∉ hidden → viewOf st id = viewOf ref id
  gone : ∀ id ∈ hidden, viewOf ref id = none

variable {cfg : Config} {st ref : CoordinatorState}

theorem sameUpTo_refl (st : CoordinatorState) : SameUpTo [] st st :=
  ⟨rfl, fun _ _ => rfl, by simp⟩

theorem sameUpTo_nil (hperiod : st.publisherPeriod = ref.publisherPeriod)
    (h : ∀ id, viewOf st id = viewOf ref id) : SameUpTo [] st ref :=
  ⟨hperiod, fun id _ => h id, by simp⟩

theorem SameUpTo.view_eq (h : SameUpTo [] st ref) (id : InstanceId) :
    viewOf st id = viewOf ref id :=
  h.entries id (by simp)

theorem SameUpTo.mem_iff (h : SameUpTo [] st ref) (id : InstanceId) :
    id ∈ st.pending ↔ id ∈ ref.pending := by
  have hsome := congrArg Option.isSome (h.view_eq id)
  simp only [viewOf, Option.isSome_map] at hsome
  rw [← AList.lookup_isSome, ← AList.lookup_isSome, hsome]

theorem SameUpTo.undecidedCount_eq (h : SameUpTo [] st ref) :
    st.undecidedCount = ref.undecidedCount := by
  refine Map.countP_values_congr (fun id => ?_)
  have hnone := congrArg (Option.map (fun v => v.decision.isNone)) (h.view_eq id)
  simp only [viewOf, Option.map_map] at hnone
  exact hnone

theorem viewOf_insertXt (st : CoordinatorState) (xt : PendingXt) (id : InstanceId) :
    viewOf (insertXt st xt) id = if id = xt.id then some xt.view else viewOf st id := by
  simp only [viewOf, pending_insertXt, Map.lookup_insert_eq]
  split_ifs <;> rfl

theorem viewOf_updateXt {id : InstanceId} {f : PendingXt → PendingXt}
    (hf : ∀ xt, st.pending.lookup id = some xt → (f xt).view = xt.view) (id' : InstanceId) :
    viewOf (st.updateXt id f) id' = viewOf st id' := by
  simp only [viewOf, lookup_updateXt]
  split_ifs with hid
  · subst hid
    cases hl : st.pending.lookup id' with
    | none => rfl
    | some xt => exact congrArg some (hf xt hl)
  · rfl

theorem registerStarted_congr (h : SameUpTo [] st ref) (inst : SpecInstance) :
    SameUpTo [] (registerStarted cfg st inst).1 (registerStarted cfg ref inst).1 ∧
      (registerStarted cfg st inst).2 = (registerStarted cfg ref inst).2 := by
  simp only [registerStarted, h.mem_iff, h.undecidedCount_eq, h.period]
  split_ifs
  · exact ⟨h, rfl⟩
  · exact ⟨h, rfl⟩
  · cases ref.publisherPeriod.acceptStartInstance inst.periodId inst.sequenceNumber with
    | error err => exact ⟨h, rfl⟩
    | ok period =>
      refine ⟨sameUpTo_nil rfl (fun id => ?_), rfl⟩
      rw [viewOf_insertXt, viewOf_insertXt]
      split_ifs
      · rfl
      · exact h.view_eq id

/-- The view after every entry was rewritten. -/
theorem viewOf_mapVals {f : PendingXt → PendingXt} {g : XtView → XtView}
    (hf : ∀ xt, (f xt).view = g xt.view) {st' : CoordinatorState}
    (hst : st'.pending = Map.mapVals (fun _ xt => f xt) st.pending) (id : InstanceId) :
    viewOf st' id = (viewOf st id).map g := by
  rw [viewOf, hst, Map.lookup_mapVals, viewOf, Option.map_map, Option.map_map]
  cases st.pending.lookup id with
  | none => rfl
  | some xt => exact congrArg some (hf xt)

def XtView.stale (periodId : PeriodId) (v : XtView) : Bool :=
  v.periodId ≠ 0 && v.periodId < periodId && !v.confirmed && v.decision != some true

def XtView.aborted (v : XtView) : XtView := { v with decision := some false }

/-- What a new period makes of an instance. -/
def XtView.outdate (periodId : PeriodId) (v : XtView) : XtView :=
  if v.stale periodId then v.aborted else v

theorem view_outdate (periodId : PeriodId) (xt : PendingXt) (now : Instant) :
    (if isStale periodId xt then abortUndecided xt now else xt).view =
      xt.view.outdate periodId := by
  have hstale : xt.view.stale periodId = isStale periodId xt := by
    unfold XtView.stale isStale PendingXt.view
    cases xt.confirmedAt <;> rfl
  rw [XtView.outdate, hstale]
  split_ifs with hs
  · have hdecision : (abortUndecided xt now).decision = some false :=
      abortUndecided_decision (isStale_decision hs)
    have hrest : (abortUndecided xt now).periodId = xt.periodId ∧
        (abortUndecided xt now).confirmedAt = xt.confirmedAt := by
      unfold abortUndecided
      split_ifs <;> exact ⟨rfl, rfl⟩
    simp [PendingXt.view, XtView.aborted, hdecision, hrest.1, hrest.2]
  · rfl

theorem view_forceAbort (xt : PendingXt) (now : Instant) :
    (forceAbort xt now).view = xt.view.aborted := by
  have hdecision := forceAbort_decision xt now
  have hrest : (forceAbort xt now).periodId = xt.periodId ∧
      (forceAbort xt now).confirmedAt = xt.confirmedAt := by
    unfold forceAbort
    split_ifs <;> exact ⟨rfl, rfl⟩
  simp [PendingXt.view, XtView.aborted, hdecision, hrest.1, hrest.2]

theorem openPeriod_congr (h : SameUpTo [] st ref) (periodId : PeriodId) (now now' : Instant) :
    SameUpTo [] (openPeriod cfg st periodId now).1 (openPeriod cfg ref periodId now').1 := by
  have hview : ∀ (s : CoordinatorState) (n : Instant) (id : InstanceId),
      viewOf (openPeriod cfg s periodId n).1 id = (viewOf s id).map (XtView.outdate periodId) :=
    fun s n => viewOf_mapVals (fun xt => view_outdate periodId xt n) rfl
  refine sameUpTo_nil rfl (fun id => ?_)
  rw [hview, hview, h.view_eq]

theorem rollBack_congr (h : SameUpTo [] st ref) (now now' : Instant) :
    SameUpTo [] (rollBack cfg st now).1 (rollBack cfg ref now').1 := by
  have hview : ∀ (s : CoordinatorState) (n : Instant) (id : InstanceId),
      viewOf (rollBack cfg s n).1 id = (viewOf s id).map XtView.aborted :=
    fun s n => viewOf_mapVals (fun xt => view_forceAbort xt n) rfl
  refine sameUpTo_nil rfl (fun id => ?_)
  rw [hview, hview, h.view_eq]

/-- What the publisher's decision makes of the views. -/
def decideView (id : InstanceId) (decision : Bool) (id' : InstanceId) (v : XtView) : XtView :=
  if id' = id ∧ v.decision = none then { v with decision := some decision } else v

theorem viewOf_recordPublisherDecision (id : InstanceId) (decision : Bool) (now : Instant)
    (id' : InstanceId) :
    viewOf (recordPublisherDecision cfg st id decision now).1 id' =
      (viewOf st id').map (decideView id decision id') := by
  -- nothing changes unless the instance is there and undecided
  have hsame : ∀ v, viewOf st id' = some v → decideView id decision id' v = v →
      viewOf st id' = (viewOf st id').map (decideView id decision id') := by
    intro v hv hkeep
    rw [hv, Option.map_some, hkeep]
  cases hl : st.pending.lookup id with
  | none =>
    have hst : (recordPublisherDecision cfg st id decision now).1 = st := by
      simp [recordPublisherDecision, hl]
    rw [hst]
    cases hv : viewOf st id' with
    | none => rfl
    | some v =>
      have hid : id' ≠ id := by
        intro he
        rw [viewOf, he, hl] at hv
        simp at hv
      rw [← hv]
      exact hsame v hv (by simp [decideView, hid])
  | some xt =>
    cases hd : xt.decision with
    | some d =>
      have hst : (recordPublisherDecision cfg st id decision now).1 = st := by
        simp [recordPublisherDecision, hl, hd]
      rw [hst]
      cases hv : viewOf st id' with
      | none => rfl
      | some v =>
        rw [← hv]
        refine hsame v hv ?_
        by_cases hid : id' = id
        · subst hid
          simp only [viewOf, hl, Option.map_some, Option.some.injEq] at hv
          simp [decideView, ← hv, PendingXt.view, hd]
        · simp [decideView, hid]
    | none =>
      have hlookup : (recordPublisherDecision cfg st id decision now).1.pending.lookup id' =
          if id' = id then some (xt.recordDecision decision now) else st.pending.lookup id' := by
        simp only [recordPublisherDecision, hl, hd, Option.isSome_none, Bool.false_eq_true, if_false,
          lookup_updateXt]
        split_ifs with hid
        · rw [hid, hl]
          rfl
        · rfl
      rw [viewOf, hlookup, viewOf]
      split_ifs with hid
      · subst hid
        simp [hl, decideView, PendingXt.view, hd, PendingXt.recordDecision]
      · cases st.pending.lookup id' <;> simp [decideView, hid]

theorem recordPublisherDecision_congr (h : SameUpTo [] st ref) (id : InstanceId) (decision : Bool)
    (now now' : Instant) :
    SameUpTo [] (recordPublisherDecision cfg st id decision now).1
      (recordPublisherDecision cfg ref id decision now').1 := by
  have hperiod : ∀ (s : CoordinatorState) (n : Instant),
      (recordPublisherDecision cfg s id decision n).1.publisherPeriod = s.publisherPeriod :=
    fun s n => period_apply cfg s (.onDecision id decision n) rfl
  refine sameUpTo_nil ?_ (fun id' => ?_)
  · rw [hperiod, hperiod, h.period]
  · rw [viewOf_recordPublisherDecision, viewOf_recordPublisherDecision, h.view_eq]

end View

section Handlers

/-- The messages of the publisher that change decisions, admissions and the period. -/
def Request.isFrame : Request → Bool
  | .startInstance _ => true
  | .decision _ _ => true
  | .startPeriod _ => true
  | .rollback => true
  | _ => false

variable (cfg : Config) (declined : InstanceId → Bool)

/-- The instance that a handler will take back because the builder declines it. -/
def Task.declining : Task → List InstanceId
  | .submit _ registrar =>
    if cfg.xtBuilderClient && declined registrar.id then [registrar.id] else []
  | .submitting registrar => if declined registrar.id then [registrar.id] else []
  | .removePending registrar _ => [registrar.id]
  | _ => []

theorem declining_offCommands : OffCommands (Task.declining cfg declined) :=
  ⟨fun _ _ => rfl, fun _ _ => rfl, fun _ => rfl, fun _ => rfl, fun _ => rfl⟩

/-- Takes back what the builder declines. -/
def takeBack (ids : List InstanceId) (st : CoordinatorState) : CoordinatorState :=
  ids.foldl (fun st id => removePendingXt (fun _ => false) st id) st

/-- `handle_publisher_message` run to its end, with nothing else in between: the state and the
instances admitted so far. -/
def handlePublisherMessage (s : CoordinatorState × List InstanceId) (request : Request) :
    CoordinatorState × List InstanceId :=
  let outcome := handleRequest cfg {} { st := s.1 } request
  (takeBack (outcome.2.1.flatMap (Task.declining cfg declined)) outcome.1.st,
    s.2 ++ registeredIds outcome.2.2)

variable {cfg declined} {st ref : CoordinatorState}

theorem viewOf_removePendingXt (closed : Waiter → Bool) (id id' : InstanceId) :
    viewOf (removePendingXt closed st id) id' = if id' = id then none else viewOf st id' := by
  unfold removePendingXt
  cases hl : st.pending.lookup id with
  | none =>
    split_ifs with hid
    · rw [viewOf, hid, hl]
      rfl
    · rfl
  | some xt =>
    simp only [viewOf, Map.lookup_erase_eq]
    split_ifs <;> rfl

theorem period_removePendingXt (closed : Waiter → Bool) (id : InstanceId) :
    (removePendingXt closed st id).publisherPeriod = st.publisherPeriod := by
  unfold removePendingXt
  cases st.pending.lookup id <;> rfl

theorem viewOf_takeBack (ids : List InstanceId) (id : InstanceId) :
    viewOf (takeBack ids st) id = if id ∈ ids then none else viewOf st id := by
  unfold takeBack
  induction ids generalizing st with
  | nil => simp
  | cons i ids ih =>
    rw [List.foldl_cons, ih, viewOf_removePendingXt]
    by_cases hid : id = i
    · simp [hid]
    · simp [hid]

theorem period_takeBack (ids : List InstanceId) :
    (takeBack ids st).publisherPeriod = st.publisherPeriod := by
  unfold takeBack
  induction ids generalizing st with
  | nil => rfl
  | cons i ids ih => rw [List.foldl_cons, ih, period_removePendingXt]

/-- Until they are taken back, the declined instances are the only difference. -/
theorem SameUpTo.takeBack (h : SameUpTo [] st ref) (ids : List InstanceId) :
    SameUpTo ids st (Coordinator.takeBack ids ref) where
  period := by rw [period_takeBack, h.period]
  entries := by
    intro id hid
    rw [viewOf_takeBack, if_neg hid, h.view_eq]
  gone := by
    intro id hid
    rw [viewOf_takeBack, if_pos hid]

/-- An instance is taken back. -/
theorem SameUpTo.removed {id : InstanceId} {left right : List InstanceId}
    (h : SameUpTo (left ++ id :: right) st ref) (closed : Waiter → Bool) :
    SameUpTo (left ++ right) (removePendingXt closed st id) ref where
  period := (period_removePendingXt closed id).trans h.period
  entries := by
    intro id' hid'
    rw [viewOf_removePendingXt]
    split_ifs with he
    · exact (h.gone id' (by simp [he])).symm
    · exact h.entries id' (by simpa [he] using hid')
  gone := by
    intro id' hid'
    refine h.gone id' ?_
    simp only [List.mem_append, List.mem_cons] at hid' ⊢
    tauto

/-- The outcomes of a handler in two runs agree on all that the publisher's messages see. -/
structure SameOutcome (declined : InstanceId → Bool) (cfg : Config) (o ref : TaskOutcome) :
    Prop where
  state : SameUpTo [] o.1.st ref.1.st
  declining : o.2.1.flatMap (Task.declining cfg declined) =
    ref.2.1.flatMap (Task.declining cfg declined)
  registered : registeredIds o.2.2 = registeredIds ref.2.2

theorem handleStartInstance_congr {sh shRef : Shared} (h : SameUpTo [] sh.st shRef.st)
    (msg : StartInstance) :
    SameOutcome declined cfg (handleStartInstance cfg sh msg)
      (handleStartInstance cfg shRef msg) := by
  unfold handleStartInstance
  cases msg.xtRequest with
  | none => exact ⟨h, rfl, rfl⟩
  | some req =>
    cases cfg.tryInstance msg with
    | error err => exact ⟨h, rfl, rfl⟩
    | ok inst =>
      obtain ⟨hst, hout⟩ := @registerStarted_congr cfg sh.st shRef.st h inst
      dsimp only
      rw [hout]
      cases (registerStarted cfg shRef.st inst).2 with
      | registered submission includesLocal => exact ⟨hst, rfl, rfl⟩
      | alreadyPending err => exact ⟨h, rfl, rfl⟩
      | tooMany err => exact ⟨h, rfl, rfl⟩
      | refused err => exact ⟨h, rfl, rfl⟩

/-- The state after a decision, and what its handler goes on with. -/
theorem onDecision_outcome (reply : TaskReply) (sh : Shared) (id : InstanceId) (decision : Bool) :
    (onDecision cfg reply sh id decision).1.st =
        (recordPublisherDecision cfg sh.st id decision reply.now).1 ∧
      (onDecision cfg reply sh id decision).2.1.flatMap (Task.declining cfg declined) = [] ∧
      (onDecision cfg reply sh id decision).2.2 = [] := by
  have hst := congrArg Shared.st (handleRequest_state cfg reply sh (.decision id decision))
  refine ⟨hst, ?_⟩
  simp only [onDecision]
  split
  · exact ⟨flatMap_commandOr cfg (declining_offCommands cfg declined) _ _, rfl⟩
  · exact ⟨rfl, rfl⟩

/-- A frame does the same in both runs, whenever it is handled. -/
theorem handleRequest_congr {sh shRef : Shared} (h : SameUpTo [] sh.st shRef.st)
    {request : Request} (hframe : request.isFrame = true) (reply replyRef : TaskReply) :
    SameOutcome declined cfg (handleRequest cfg reply sh request)
      (handleRequest cfg replyRef shRef request) := by
  have hoff := declining_offCommands cfg declined
  cases request with
  | startInstance msg => exact handleStartInstance_congr h msg
  | decision id decision =>
    obtain ⟨hst, hnext, hes⟩ := @onDecision_outcome cfg declined reply sh id decision
    obtain ⟨hst', hnext', hes'⟩ := @onDecision_outcome cfg declined replyRef shRef id decision
    refine ⟨?_, hnext.trans hnext'.symm, congrArg registeredIds (hes.trans hes'.symm)⟩
    rw [handleRequest, handleRequest, hst, hst']
    exact recordPublisherDecision_congr h id decision reply.now replyRef.now
  | startPeriod periodId =>
    exact ⟨@openPeriod_congr cfg sh.st shRef.st h periodId reply.now replyRef.now,
      (flatMap_next cfg hoff _).trans (flatMap_next cfg hoff _).symm, rfl⟩
  | rollback =>
    exact ⟨@rollBack_congr cfg sh.st shRef.st h reply.now replyRef.now,
      (flatMap_next cfg hoff _).trans (flatMap_next cfg hoff _).symm, rfl⟩
  | submitXt | forwardedXt | peerVote | confirmIncluded | cleanup | mailboxMessage =>
    simp [Request.isFrame] at hframe

end Handlers

section Tasks

/-- The points of the handlers and of the tasks they spawn after the first locked part. -/
def Task.inner : Task → Bool
  | .request _ => false
  | .submitStandalone _ => false
  | .submitPublisher _ _ => false
  | _ => true

/-- The tasks there are when only frames arrive. -/
def Task.ofFrames : Task → Bool
  | .request call => call.isFrame
  | t => t.inner

def Task.waiting : Task → List Request
  | .request call => [call]
  | _ => []

theorem ofFrames_of_inner {t : Task} (h : t.inner = true) : t.ofFrames = true := by
  cases t with
  | request request => simp [Task.inner] at h
  | _ => exact h

theorem ofFrames_cases {t : Task} (h : t.ofFrames = true) :
    t.inner = true ∨ ∃ request, t = .request request ∧ request.isFrame = true := by
  cases t with
  | request request => exact Or.inr ⟨request, rfl, h⟩
  | _ => exact Or.inl h

theorem waiting_of_inner {t : Task} (h : t.inner = true) : t.waiting = [] := by
  cases t with
  | request request => simp [Task.inner] at h
  | _ => rfl

variable {cfg : Config} {declined : InstanceId → Bool} {reply : TaskReply} {sh sh' : Shared}
  {t : Task} {next : List Task} {es : List Event}

theorem declining_of_registrars (h : t.registrars = []) : t.declining cfg declined = [] := by
  cases t with
  | submit | submitting | removePending | registered => simp [Task.registrars] at h
  | _ => rfl

theorem inner_next (resume : Resume) : ∀ u ∈ resume.next cfg, u.inner = true := by
  cases resume with
  | done => simp [Resume.next]
  | handVote id rawId vote standalone =>
    simp only [Resume.next]
    split_ifs <;> simp [Task.inner]
  | nextAbort ids aborted => cases ids <;> simp [Resume.next, Task.inner]
  | nextRollback ids waiters => cases ids <;> simp [Resume.next, Task.inner]

theorem inner_commandOr (command : Option XtBuilderCommand) (resume : Resume) :
    ∀ u ∈ commandOr cfg command resume, u.inner = true := by
  cases command with
  | none => exact inner_next resume
  | some c => simp [commandOr, Task.inner]

/-- What a handler goes on with is no new call. -/
theorem inner_step (h : TaskEffect cfg reply sh sh' t next es) (ht : t.ofFrames = true) :
    ∀ u ∈ next, u.inner = true := by
  cases h with
  | modeChosen => simp [Task.ofFrames, Request.isFrame] at ht
  | enqueued => simp [Task.ofFrames, Task.inner] at ht
  | registered hreg =>
    simp only [List.mem_singleton, forall_eq, submitFirst]
    split <;> rfl
  | decided | voteRecorded => exact inner_commandOr _ _
  | periodOpened | rolledBack | releaseSkipped | recycled => exact inner_next _
  | releaseSent _ _ resume hn =>
    rcases hn with rfl | rfl
    · exact inner_next resume
    · simp [Task.inner]
  | abortSent _ _ _ hn => rcases hn with rfl | rfl <;> simp [Task.inner]
  | removed registrar => cases registrar <;> simp [Registrar.undone, Task.inner]
  | proceeded registrar =>
    intro u hu
    rcases mem_registrarNext hu with rfl | ⟨_, _, -, rfl⟩ | ⟨_, _, rfl⟩ <;> rfl
  | resolved _ _ after => cases after <;> simp [AfterResolve.next, Task.inner]
  | requested _ _ _ hu => rcases hu with rfl | ⟨_, rfl⟩ <;> simp [Task.inner]
  | releaseStarted _ _ _ _ hu => rcases hu with rfl | ⟨_, rfl⟩ <;> simp [Task.inner]
  | built _ _ _ _ _ hu => rcases hu with rfl | rfl | ⟨_, _, _, rfl⟩ <;> simp [Task.inner]
  | _ => simp [Task.inner]

/-- Inside a handler nothing is registered. -/
theorem registersNothing_of_inner (hin : t.inner = true) : RegistersNothing cfg reply sh t := by
  intro op hop
  cases t with
  | request | submitStandalone | submitPublisher => simp [Task.inner] at hin
  | process id pc => exact procOp_registers (procOp_of_taskOp hop) sh.st
  | removePending | resolve | recordVote =>
    obtain rfl := Option.some.inj hop
    rfl
  | _ => simp [taskOp] at hop

theorem registeredIds_inner (h : taskStep cfg reply sh t = some (sh', next, es))
    (hin : t.inner = true) : registeredIds es = [] := by
  cases taskStep_effect h with
  | registered _ hop hr => simp [registersNothing_of_inner hin _ hop] at hr
  | resolved => simp [registeredIds, answers, registeredId]
  | noncesReset => simp [registeredIds, answers, registeredId]
  | processed => simp [registeredIds, registeredId]
  | _ => rfl

theorem registrars_inner (h : taskStep cfg reply sh t = some (sh', next, es))
    (hin : t.inner = true) {registrar : Registrar}
    (hr : registrar ∈ next.flatMap Task.registrars) : registrar ∈ t.registrars := by
  rcases registrars_step (taskStep_effect h) hr with hold | ⟨xt, r, op, route, -, hop, ho, -, -⟩
  · exact hold
  · simp [registersNothing_of_inner hin op hop] at ho

/-- The locked parts inside a handler or `process_xt` that change nothing the publisher's
messages see. -/
def Op.keepsView : Op → Bool
  | .resolve _ => true
  | .lockChain _ => true
  | .recordSimulation _ _ _ => true
  | .dispatch _ _ => true
  | .fulfill _ _ => true
  | .sendVote _ _ standalone _ => !standalone
  | _ => false

theorem view_castVote (xt : PendingXt) (vote : Bool) (now : Instant) :
    (castVote cfg xt vote false now).1.view = xt.view := rfl

theorem view_recordResult (xt : PendingXt) (result : SimulationResult) :
    (recordResult xt result).view = xt.view := by
  obtain ⟨depKeys, dependencies, outbound, h⟩ := recordResult_frame xt result
  rw [h]
  rfl

theorem view_fulfillXt (xt : PendingXt) (deps : List CrossRollupDependency) :
    (fulfillXt xt deps).1.view = xt.view := by
  obtain ⟨mailbox, fulfilled, keys, h⟩ := fulfillXt_frame xt deps
  rw [h]
  rfl

theorem view_claimOutbound (xt : PendingXt) (outbound : List CrossRollupMessage) :
    (claimOutbound xt outbound).1.view = xt.view := by
  rw [claimOutbound_eq]
  rfl

/-- Such a locked part keeps every view and the period. -/
theorem keepsView_apply {st : CoordinatorState} {op : Op} (h : op.keepsView = true) :
    (op.apply cfg st).publisherPeriod = st.publisherPeriod ∧
      ∀ id, viewOf (op.apply cfg st) id = viewOf st id := by
  cases op with
  | resolve fingerprint => exact ⟨rfl, fun _ => rfl⟩
  | lockChain id => exact ⟨rfl, viewOf_updateXt (fun _ _ => rfl)⟩
  | recordSimulation id result base =>
    simp only [Op.apply, recordSimulationState]
    split_ifs
    · cases keptOverrides result <;>
        exact ⟨rfl, viewOf_updateXt (fun xt _ => view_recordResult xt result)⟩
    · exact ⟨rfl, fun _ => rfl⟩
  | dispatch id outbound =>
    simp only [Op.apply, dispatchOutbound]
    cases hl : st.pending.lookup id with
    | none => exact ⟨rfl, fun _ => rfl⟩
    | some xt =>
      refine ⟨rfl, viewOf_updateXt (fun x hx => ?_)⟩
      obtain rfl := Option.some.inj (hl.symm.trans hx)
      exact view_claimOutbound xt outbound
  | fulfill id deps =>
    simp only [Op.apply, fulfillDependenciesFromMailbox]
    cases hl : st.pending.lookup id with
    | none => exact ⟨rfl, fun _ => rfl⟩
    | some xt =>
      refine ⟨rfl, viewOf_updateXt (fun x hx => ?_)⟩
      obtain rfl := Option.some.inj (hl.symm.trans hx)
      exact view_fulfillXt xt deps
  | sendVote id vote standalone now =>
    have hconnected : standalone = false := by simpa [Op.keepsView] using h
    subst hconnected
    simp only [Op.apply, recordVote]
    cases hl : st.pending.lookup id with
    | none => exact ⟨rfl, fun _ => rfl⟩
    | some xt =>
      dsimp only
      split_ifs
      · exact ⟨rfl, fun _ => rfl⟩
      · refine ⟨rfl, viewOf_updateXt (fun x hx => ?_)⟩
        obtain rfl := Option.some.inj (hl.symm.trans hx)
        exact view_castVote xt vote now
  | _ => simp [Op.keepsView] at h

theorem SameUpTo.kept {hidden : List InstanceId} {st ref : CoordinatorState} {op : Op}
    (h : SameUpTo hidden st ref) (hkeeps : op.keepsView = true) :
    SameUpTo hidden (op.apply cfg st) ref := by
  obtain ⟨hperiod, hview⟩ := @keepsView_apply cfg st op hkeeps
  exact ⟨hperiod.trans h.period, fun id hid => (hview id).trans (h.entries id hid), h.gone⟩

end Tasks

section Moves

variable (cfg : Config) (declined : InstanceId → Bool)

/-- Only frames arrive, the builder declines the instances that `declined` says, and votes are
recorded while the publisher is connected. -/
def frameMove : Move → Bool
  | .arrive request => request.isFrame
  | .run (.submitting registrar) reply => reply.succeeds == !declined registrar.id
  | .run (.recordVote _ _ standalone) _ => !standalone
  | _ => true

structure FrameHistory where
  received : List Request := []
  handled : List Request := []

def writeFrames (_ : World) : Move → FrameHistory → FrameHistory
  | .arrive request, h => { h with received := h.received ++ [request] }
  | .run (.request request) _, h => { h with handled := h.handled ++ [request] }
  | _, h => h

/-- The receive loop and the tasks it spawns. -/
def FrameStep (s : World × FrameHistory) (m : Move) (s' : World × FrameHistory) : Prop :=
  Recorded (WorldStep cfg) writeFrames s m s' ∧ frameMove declined m = true

/-- The frame whose locked part a move runs. -/
def Move.handles : Move → Option Request
  | .run (.request request) _ => some request
  | _ => none

/-- A frame is handled after all that came before it, and when no earlier instance is still to
be taken back. -/
def HandledInOrder (s : World × FrameHistory) (m : Move) : Prop :=
  ∀ request ∈ m.handles, (s.2.handled ++ [request]) <+: s.2.received ∧
    s.1.held (Task.declining cfg declined) = []

instance (s : World × FrameHistory) (m : Move) : Decidable (HandledInOrder cfg declined s m) :=
  inferInstanceAs (Decidable (∀ request ∈ _, _))

/-- No frame waits and no handler is with the builder. -/
def Settled (w : World) : Prop := w.held Task.waiting = [] ∧ w.held Task.registrars = []

instance (w : World) : Decidable (Settled w) := inferInstanceAs (Decidable (_ ∧ _))

def Move.isArrival : Move → Bool
  | .arrive _ => true
  | _ => false

/-- A frame arrives when the one before has been handled. -/
def OneByOne (s : World × FrameHistory) (m : Move) : Prop := m.isArrival = true → Settled s.1

instance (s : World × FrameHistory) (m : Move) : Decidable (OneByOne s m) :=
  inferInstanceAs (Decidable (_ → _))

variable {cfg declined} {reply : TaskReply} {sh sh' : Shared} {t : Task} {next : List Task}
  {es : List Event}

/-- Inside a handler, a locked part changes nothing the publisher's messages see or takes back a
declined instance. -/
theorem taskOp_inner (hin : t.inner = true) (hm : frameMove declined (.run t reply) = true) {op : Op}
    (hop : taskOp cfg reply t = some op) :
    op.keepsView = true ∨ ∃ registrar err, t = .removePending registrar err ∧
      op = .removePending reply.closed registrar.id := by
  cases runsOp_of_taskOp hop with
  | removed registrar err => exact Or.inr ⟨registrar, err, rfl, rfl⟩
  | voted => exact Or.inl hm
  | resolved | locked | recorded | dispatched | fulfilled => exact Or.inl rfl
  | _ => simp [Task.inner] at hin

/-- Inside a handler, what is to be taken back stays so until it is. -/
theorem declining_inner (h : taskStep cfg reply sh t = some (sh', next, es))
    (hin : t.inner = true) (hm : frameMove declined (.run t reply) = true) :
    next.flatMap (Task.declining cfg declined) = t.declining cfg declined ∨
      ∃ registrar err, t = .removePending registrar err ∧
        next.flatMap (Task.declining cfg declined) = [] := by
  have hoff := declining_offCommands cfg declined
  cases taskStep_effect h with
  | submitted submission registrar hc => exact Or.inl (by simp [Task.declining, hc])
  | notSubmitted submission registrar hc => exact Or.inl (by simp [Task.declining, hc])
  | accepted registrar | declined registrar =>
    left
    have hanswer : reply.succeeds = !declined registrar.id := by simpa [frameMove] using hm
    rcases submitting_returns h with ⟨hs, hn⟩ | ⟨hs, err, hn⟩
    · rw [hn]
      simp [Task.declining, show declined registrar.id = false by simpa [hs] using hanswer]
    · rw [hn]
      simp [Task.declining, show declined registrar.id = true by simpa [hs] using hanswer]
  | removed registrar err =>
    refine Or.inr ⟨registrar, err, rfl, ?_⟩
    cases registrar <;> simp [Registrar.undone, Task.declining]
  | registered _ hop hr => simp [registersNothing_of_inner hin _ hop] at hr
  | proceeded registrar =>
    exact Or.inl (flatMap_registrarNext cfg (fun _ _ => rfl) (fun _ _ => rfl) (fun _ _ _ => rfl)
      registrar)
  | resolved _ _ after => exact Or.inl (by cases after <;> simp [AfterResolve.next, Task.declining])
  | voteRecorded => exact Or.inl (flatMap_commandOr cfg hoff _ _)
  | releaseSkipped | recycled => exact Or.inl (flatMap_next cfg hoff _)
  | releaseSent _ _ resume hn =>
    rcases hn with rfl | rfl
    · exact Or.inl (flatMap_next cfg hoff resume)
    · exact Or.inl rfl
  | abortSent _ _ _ hn => rcases hn with rfl | rfl <;> exact Or.inl rfl
  | requested _ _ _ hu => rcases hu with rfl | ⟨_, rfl⟩ <;> exact Or.inl rfl
  | releaseStarted _ _ _ _ hu => rcases hu with rfl | ⟨_, rfl⟩ <;> exact Or.inl rfl
  | built _ _ _ _ _ hu => rcases hu with rfl | rfl | ⟨_, _, _, rfl⟩ <;> exact Or.inl rfl
  | modeChosen | refused | tooMany | decided | periodOpened | rolledBack | confirmed | mailed
    | enqueued => simp [Task.inner] at hin
  | stopped _ hs =>
    left
    cases t with
    | submit | submitting | removePending => simp [Task.mayStop] at hs
    | _ => rfl
  | forwardStarted | forwarded | rejected | processed | processVoted | modeRead | abortSkipped
    | abortsReported | voteSent | peerVoteSent | noncesReset | nonceConfirmed => exact Or.inl rfl

end Moves

section Invariant

variable (cfg : Config) (declined : InstanceId → Bool) (start : CoordinatorState)

/-- The frames handled one by one. -/
def handleAll (frames : List Request) : CoordinatorState × List InstanceId :=
  frames.foldl (handlePublisherMessage cfg declined) (start, [])

/-- The frames handled so far are the first ones received, and they have done what they do one
by one; only declined instances may still be there. -/
structure FrameInv (w : World) (h : FrameHistory) : Prop where
  tasks : ∀ t ∈ w.tasks, t.ofFrames = true
  waiting : List.Perm (h.handled ++ w.held Task.waiting) h.received
  order : h.handled <+: h.received
  state : SameUpTo (w.held (Task.declining cfg declined)) w.shared.st
    (handleAll cfg declined start h.handled).1
  admitted : registeredIds w.log = (handleAll cfg declined start h.handled).2

variable {cfg declined start} {w : World} {h : FrameHistory} {t : Task} {reply : TaskReply}
  {before after next : List Task} {sh' : Shared} {es : List Event}

theorem frameInv_initial (sh : Shared) : FrameInv cfg declined sh.st ⟨sh, [], []⟩ {} :=
  ⟨by simp, List.Perm.refl _, List.prefix_refl _, sameUpTo_refl sh.st, rfl⟩

theorem handleAll_snoc (frames : List Request) (request : Request) :
    handleAll cfg declined start (frames ++ [request]) =
      handlePublisherMessage cfg declined (handleAll cfg declined start frames) request := by
  rw [handleAll, List.foldl_append]
  rfl

theorem ofFrames_run (htasks : w.tasks = before ++ t :: after)
    (hstep : taskStep cfg reply w.shared t = some (sh', next, es))
    (hall : ∀ u ∈ w.tasks, u.ofFrames = true) : ∀ u ∈ before ++ next ++ after, u.ofFrames = true := by
  intro u hu
  rcases mem_tasks_of_split htasks hu with hnext | hold
  · have hinner := inner_step (taskStep_effect hstep) (hall t (mem_of_split htasks)) u hnext
    exact ofFrames_of_inner hinner
  · exact hall u hold

theorem waiting_next (hstep : taskStep cfg reply w.shared t = some (sh', next, es))
    (ht : t.ofFrames = true) : next.flatMap Task.waiting = [] := by
  rw [List.flatMap_eq_nil_iff]
  intro u hu
  exact waiting_of_inner (inner_step (taskStep_effect hstep) ht u hu)

/-- A frame is handled. -/
theorem frameInv_request {request : Request}
    (htasks : w.tasks = before ++ .request request :: after)
    (hstep : taskStep cfg reply w.shared (.request request) = some (sh', next, es))
    (hg : HandledInOrder cfg declined (w, h) (.run (.request request) reply))
    (hi : FrameInv cfg declined start w h) :
    FrameInv cfg declined start ⟨sh', before ++ next ++ after, w.log ++ es⟩
      { h with handled := h.handled ++ [request] } := by
  obtain ⟨horder, hsettled⟩ := hg request rfl
  have hframe := hi.tasks _ (mem_of_split htasks)
  have hstate := hi.state
  rw [hsettled] at hstate
  have hsame := @handleRequest_congr cfg declined w.shared
    { st := (handleAll cfg declined start h.handled).1 } hstate request hframe reply {}
  obtain ⟨hsh, hnext, hes⟩ : (handleRequest cfg reply w.shared request).1 = sh' ∧
      (handleRequest cfg reply w.shared request).2.1 = next ∧
      (handleRequest cfg reply w.shared request).2.2 = es := by
    have he := Option.some.inj hstep
    simp [he]
  constructor
  · exact ofFrames_run htasks hstep hi.tasks
  · have hwaiting := hi.waiting
    rw [held_split_eq htasks] at hwaiting
    rw [held_run_eq, waiting_next hstep hframe, List.nil_append]
    have hmove : List.Perm (request :: (before.flatMap Task.waiting ++ after.flatMap Task.waiting))
        (before.flatMap Task.waiting ++ request :: after.flatMap Task.waiting) :=
      List.perm_middle.symm
    refine List.Perm.trans ?_ hwaiting
    rw [List.append_assoc]
    exact List.Perm.append_left h.handled hmove
  · exact horder
  · have hnone : before.flatMap (Task.declining cfg declined) = [] ∧
        after.flatMap (Task.declining cfg declined) = [] := by
      have hheld := hsettled
      rw [held_split_eq htasks] at hheld
      simp only [List.append_eq_nil_iff] at hheld
      exact ⟨hheld.1, hheld.2.2⟩
    rw [held_run_eq, hnone.1, hnone.2, List.nil_append, List.append_nil, handleAll_snoc, ← hnext,
      hsame.declining, ← hsh]
    exact hsame.state.takeBack _
  · rw [registeredIds_append, hi.admitted, handleAll_snoc, ← hes, hsame.registered]
    rfl

/-- A step inside a handler or a spawned task. -/
theorem frameInv_inner (htasks : w.tasks = before ++ t :: after)
    (hstep : taskStep cfg reply w.shared t = some (sh', next, es)) (hin : t.inner = true)
    (hm : frameMove declined (.run t reply) = true) (hi : FrameInv cfg declined start w h) :
    FrameInv cfg declined start ⟨sh', before ++ next ++ after, w.log ++ es⟩ h := by
  have hst := taskStep_state cfg reply w.shared hstep
  constructor
  · exact ofFrames_run htasks hstep hi.tasks
  · have hwaiting := hi.waiting
    rw [held_split_eq htasks, waiting_of_inner hin] at hwaiting
    rw [held_run_eq, waiting_next hstep (ofFrames_of_inner hin)]
    exact hwaiting
  · exact hi.order
  · have hstate := hi.state
    rw [held_split_eq htasks] at hstate
    rw [held_run_eq]
    show SameUpTo _ sh'.st _
    rw [hst]
    by_cases hremove : ∃ registrar err, t = .removePending registrar err
    · obtain ⟨registrar, err, rfl⟩ := hremove
      have hnext : next.flatMap (Task.declining cfg declined) = [] := by
        cases taskStep_effect hstep with
        | removed => cases registrar <;> simp [Registrar.undone, Task.declining]
        | stopped _ hs => simp [Task.mayStop] at hs
        | registered hreg => cases hreg
      rw [hnext, List.nil_append]
      exact SameUpTo.removed hstate reply.closed
    · have hnext : next.flatMap (Task.declining cfg declined) = t.declining cfg declined := by
        rcases declining_inner hstep hin hm with hsame | ⟨registrar, err, ht, -⟩
        · exact hsame
        · exact absurd ⟨registrar, err, ht⟩ hremove
      rw [hnext]
      cases hop : taskOp cfg reply t with
      | none => exact hstate
      | some op =>
        rcases taskOp_inner hin hm hop with hkeeps | ⟨registrar, err, ht, -⟩
        · exact hstate.kept hkeeps
        · exact absurd ⟨registrar, err, ht⟩ hremove
  · rw [registeredIds_append, registeredIds_inner hstep hin, List.append_nil]
    exact hi.admitted

theorem writeFrames_inner (hin : t.inner = true) : writeFrames w (.run t reply) h = h := by
  cases t with
  | request request => simp [Task.inner] at hin
  | _ => rfl

theorem held_notified {β : Type} {f : Task → List β} (hf : ∀ u : Task, f u.notified = f u)
    (hnone : f .notifyWaiters = []) (htasks : w.tasks = before ++ .notifyWaiters :: after) :
    held f ({ w with tasks := (before ++ after).map Task.notified } : World) = w.held f := by
  simp only [held, htasks, List.flatMap_map, hf, List.flatMap_append, List.flatMap_cons, hnone,
    List.nil_append]

theorem ofFrames_notified (u : Task) : u.notified.ofFrames = u.ofFrames := by
  cases u <;> rfl

theorem ofFrames_notify (htasks : w.tasks = before ++ .notifyWaiters :: after)
    (h : ∀ u ∈ w.tasks, u.ofFrames = true) (u : Task)
    (hu : u ∈ (before ++ after).map Task.notified) : u.ofFrames = true := by
  obtain ⟨v, hv, rfl⟩ := List.mem_map.mp hu
  rw [ofFrames_notified]
  refine h v ?_
  rw [htasks]
  simp only [List.mem_append, List.mem_cons] at hv ⊢
  tauto

theorem waiting_notified (u : Task) : u.notified.waiting = u.waiting := by
  cases u <;> rfl

theorem declining_notified (u : Task) :
    u.notified.declining cfg declined = u.declining cfg declined := by
  cases u <;> rfl

theorem frameInv_step {m : Move} {w' : World} (hs : WorldStep cfg w m w')
    (hm : frameMove declined m = true) (hg : HandledInOrder cfg declined (w, h) m)
    (hi : FrameInv cfg declined start w h) :
    FrameInv cfg declined start w' (writeFrames w m h) := by
  cases hs with
  | arrive request =>
    constructor
    · intro u hu
      rcases List.mem_append.mp hu with hold | hnew
      · exact hi.tasks u hold
      · rw [List.mem_singleton.mp hnew]
        exact hm
    · simp only [held, writeFrames, List.flatMap_append, List.flatMap_singleton, Task.waiting,
        ← List.append_assoc]
      exact hi.waiting.append_right [request]
    · exact hi.order.trans (List.prefix_append _ _)
    · have hstate := hi.state
      simpa [held, Task.declining, writeFrames] using hstate
    · exact hi.admitted
  | connection up => exact ⟨hi.tasks, hi.waiting, hi.order, hi.state, hi.admitted⟩
  | @notify before after htasks =>
    constructor
    · exact ofFrames_notify htasks hi.tasks
    · rw [held_notified waiting_notified rfl htasks]
      exact hi.waiting
    · exact hi.order
    · rw [held_notified declining_notified rfl htasks]
      exact hi.state
    · exact hi.admitted
  | @run _ task reply hr =>
    cases hr with
    | intro htasks hstep =>
      rcases ofFrames_cases (hi.tasks task (mem_of_split htasks)) with hin | ⟨request, rfl, -⟩
      · rw [writeFrames_inner hin]
        exact frameInv_inner htasks hstep hin hm hi
      · exact frameInv_request htasks hstep hg hi

/-- What the frames of a settled run have done. -/
theorem settled_handled (hi : FrameInv cfg declined start w h) (hs : Settled w) :
    SameUpTo [] w.shared.st (handleAll cfg declined start h.received).1 ∧
      registeredIds w.log = (handleAll cfg declined start h.received).2 := by
  have hall : h.handled = h.received := by
    have hlength := hi.waiting.length_eq
    rw [hs.1, List.append_nil] at hlength
    exact hi.order.eq_of_length hlength
  have hnone : w.held (Task.declining cfg declined) = [] := by
    have hregistrars : ∀ t ∈ w.tasks, t.registrars = [] := List.flatMap_eq_nil_iff.mp hs.2
    exact List.flatMap_eq_nil_iff.mpr (fun t ht => declining_of_registrars (hregistrars t ht))
  have hstate := hi.state
  have hadmitted := hi.admitted
  rw [hnone, hall] at hstate
  rw [hall] at hadmitted
  exact ⟨hstate, hadmitted⟩

end Invariant

section Sequential

variable {cfg : Config} {declined : InstanceId → Bool} {w : World} {h : FrameHistory}

/-- While frames are handled one by one, at most one waits, and then no handler is with the
builder. -/
structure OneByOneInv (w : World) (h : FrameHistory) : Prop where
  tasks : ∀ t ∈ w.tasks, t.ofFrames = true
  received : h.received = h.handled ++ w.held Task.waiting
  single : (w.held Task.waiting).length ≤ 1
  alone : w.held Task.waiting ≠ [] → w.held Task.registrars = []

theorem oneByOneInv_initial (sh : Shared) : OneByOneInv ⟨sh, [], []⟩ {} :=
  ⟨by simp, rfl, by simp [held], fun _ => rfl⟩

/-- The frame that is handled is the only one. -/
theorem waiting_eq_of_single {request : Request} (hi : OneByOneInv w h)
    {before after : List Task} (htasks : w.tasks = before ++ .request request :: after) :
    before.flatMap Task.waiting = [] ∧ after.flatMap Task.waiting = [] := by
  have hlength := hi.single
  rw [held_split_eq htasks] at hlength
  simp only [Task.waiting, List.length_append, List.length_singleton] at hlength
  exact ⟨List.length_eq_zero_iff.mp (by omega), List.length_eq_zero_iff.mp (by omega)⟩

theorem oneByOneInv_run {t : Task} {reply : TaskReply} {before after next : List Task}
    {sh' : Shared} {es : List Event} (htasks : w.tasks = before ++ t :: after)
    (hstep : taskStep cfg reply w.shared t = some (sh', next, es)) (hi : OneByOneInv w h) :
    OneByOneInv ⟨sh', before ++ next ++ after, w.log ++ es⟩ (writeFrames w (.run t reply) h) ∧
      HandledInOrder cfg declined (w, h) (.run t reply) := by
  have htasks' := ofFrames_run htasks hstep hi.tasks
  rcases ofFrames_cases (hi.tasks t (mem_of_split htasks)) with hin | ⟨request, rfl, hframe⟩
  · -- inside a handler no frame comes or goes
    have hwaiting : held Task.waiting (⟨sh', before ++ next ++ after, w.log ++ es⟩ : World) =
        w.held Task.waiting := by
      rw [held_run_eq, held_split_eq htasks, waiting_of_inner hin,
        waiting_next hstep (ofFrames_of_inner hin)]
    rw [writeFrames_inner hin]
    refine ⟨⟨htasks', hwaiting ▸ hi.received, hwaiting ▸ hi.single, fun hne => ?_⟩, ?_⟩
    · rw [hwaiting] at hne
      have hnone := hi.alone hne
      rw [List.eq_nil_iff_forall_not_mem] at hnone ⊢
      intro registrar hr
      rcases held_of_split htasks hr with hnext | hold
      · have ht := registrars_inner hstep hin hnext
        exact hnone registrar (mem_held.mpr ⟨t, mem_of_split htasks, ht⟩)
      · exact hnone registrar hold
    · intro request hr
      cases t with
      | request request => simp [Task.inner] at hin
      | _ => simp [Move.handles] at hr
  · obtain ⟨hbefore, hafter⟩ := waiting_eq_of_single hi htasks
    have hwaiting : w.held Task.waiting = [request] := by
      rw [held_split_eq htasks, hbefore, hafter]
      rfl
    have hempty : held Task.waiting (⟨sh', before ++ next ++ after, w.log ++ es⟩ : World) = [] := by
      rw [held_run_eq, hbefore, hafter, waiting_next hstep (hi.tasks _ (mem_of_split htasks))]
      rfl
    have hreceived : h.received = h.handled ++ [request] := by rw [hi.received, hwaiting]
    refine ⟨⟨htasks', ?_, ?_, fun hne => absurd hempty hne⟩, ?_⟩
    · rw [hempty, List.append_nil]
      exact hreceived
    · rw [hempty]
      exact Nat.zero_le 1
    · intro r hr
      obtain rfl := Option.some.inj hr
      refine ⟨by rw [hreceived], ?_⟩
      have hregistrars : ∀ u ∈ w.tasks, u.registrars = [] :=
        List.flatMap_eq_nil_iff.mp (hi.alone (by simp [hwaiting]))
      exact List.flatMap_eq_nil_iff.mpr (fun u hu => declining_of_registrars (hregistrars u hu))

/-- Handling frames one by one handles them in order. -/
theorem oneByOne_inOrder {m : Move} {w' : World} (hs : WorldStep cfg w m w')
    (hm : frameMove declined m = true) (hg : OneByOne (w, h) m) (hi : OneByOneInv w h) :
    OneByOneInv w' (writeFrames w m h) ∧ HandledInOrder cfg declined (w, h) m := by
  cases hs with
  | arrive request =>
    obtain ⟨hwaiting, hregistrars⟩ : Settled w := hg rfl
    have hone : held Task.waiting ({ w with tasks := w.tasks ++ [.request request] } : World) =
        [request] := by
      rw [held, List.flatMap_append, show w.tasks.flatMap Task.waiting = [] from hwaiting]
      rfl
    have hreceived := hi.received
    rw [hwaiting, List.append_nil] at hreceived
    refine ⟨⟨?_, ?_, by simp [hone], fun _ => ?_⟩, by simp [HandledInOrder, Move.handles]⟩
    · intro u hu
      rcases List.mem_append.mp hu with hold | hnew
      · exact hi.tasks u hold
      · rw [List.mem_singleton.mp hnew]
        exact hm
    · rw [hone, writeFrames, hreceived]
    · rw [(quietMove_arrive w request).held_eq lasting_registrars]
      exact hregistrars
  | connection up =>
    exact ⟨⟨hi.tasks, hi.received, hi.single, hi.alone⟩, by simp [HandledInOrder, Move.handles]⟩
  | @notify before after htasks =>
    have hwaiting := held_notified waiting_notified rfl htasks
    refine ⟨⟨?_, ?_, ?_, ?_⟩, by simp [HandledInOrder, Move.handles]⟩
    · exact ofFrames_notify htasks hi.tasks
    · rw [hwaiting]
      exact hi.received
    · rw [hwaiting]
      exact hi.single
    · rw [hwaiting, (quietMove_notify htasks).held_eq lasting_registrars]
      exact hi.alone
  | run hr =>
    cases hr with
    | intro htasks hstep => exact oneByOneInv_run htasks hstep hi

/-- Decisions, admissions and the period. -/
structure SameResult (w w' : World) : Prop where
  decisions : ∀ id, (w.shared.st.pending.lookup id).map PendingXt.decision =
    (w'.shared.st.pending.lookup id).map PendingXt.decision
  admitted : registeredIds w.log = registeredIds w'.log
  period : w.shared.st.publisherPeriod = w'.shared.st.publisherPeriod

/-- What a run that handles its frames in order has done when it is settled. -/
theorem inOrder_handled {sh : Shared} {moves : List Move}
    (hrun : Run (fun s m s' => FrameStep cfg declined s m s' ∧ HandledInOrder cfg declined s m)
      (⟨sh, [], []⟩, {}) moves (w, h)) (hs : Settled w) :
    SameUpTo [] w.shared.st (handleAll cfg declined sh.st h.received).1 ∧
      registeredIds w.log = (handleAll cfg declined sh.st h.received).2 := by
  have hinv : FrameInv cfg declined sh.st w h := by
    refine hrun.invariant (I := fun s => FrameInv cfg declined sh.st s.1 s.2) ?_
      (frameInv_initial sh)
    intro s m s' hi hstep
    obtain ⟨⟨⟨hmove, hhistory⟩, hm⟩, hg⟩ := hstep
    rw [hhistory]
    exact frameInv_step hmove hm hg hi
  exact settled_handled hinv hs

/-- The publisher's messages take effect in the order received: in every run that handles each
frame after those before it, and after declined instances are taken back, the decisions, the
admitted instances and the period are those of a run that handles the frames one by one. -/
theorem frames_take_effect_in_order {sh : Shared} {moves moves' : List Move} {w' : World}
    {h' : FrameHistory}
    (hrun : Run (fun s m s' => FrameStep cfg declined s m s' ∧ HandledInOrder cfg declined s m)
      (⟨sh, [], []⟩, {}) moves (w, h))
    (hseq : Run (fun s m s' => FrameStep cfg declined s m s' ∧ OneByOne s m)
      (⟨sh, [], []⟩, {}) moves' (w', h'))
    (hframes : h.received = h'.received) (hs : Settled w) (hs' : Settled w') : SameResult w w' := by
  have hordered : Run
      (fun s m s' => FrameStep cfg declined s m s' ∧ HandledInOrder cfg declined s m)
      (⟨sh, [], []⟩, {}) moves' (w', h') := by
    refine hseq.strengthen (I := fun s => OneByOneInv s.1 s.2) ?_ (oneByOneInv_initial sh)
    intro s m s' hi hstep
    obtain ⟨hframe, hg⟩ := hstep
    obtain ⟨⟨hmove, hhistory⟩, hm⟩ := hframe
    obtain ⟨hnext, horder⟩ := oneByOne_inOrder hmove hm hg hi
    exact ⟨hhistory ▸ hnext, ⟨⟨hmove, hhistory⟩, hm⟩, horder⟩
  obtain ⟨hsame, hadmitted⟩ := inOrder_handled hrun hs
  obtain ⟨hsame', hadmitted'⟩ := inOrder_handled hordered hs'
  rw [hframes] at hsame hadmitted
  refine ⟨fun id => ?_, hadmitted.trans hadmitted'.symm, hsame.period.trans hsame'.period.symm⟩
  have hview := (hsame.view_eq id).trans (hsame'.view_eq id).symm
  have hdecision := congrArg (Option.map XtView.decision) hview
  simp only [viewOf, Option.map_map] at hdecision
  exact hdecision

/-- What is seen of a settled run: the frames, the admitted instances, the decisions on two of
them and the period. -/
structure FramesSeen where
  settled : Bool
  received : List Request
  admitted : List InstanceId
  first : Option (Option Bool)
  second : Option (Option Bool)
  period : PublisherPeriod
  deriving DecidableEq

def decisionSeen (w : World) (id : InstanceId) : Option (Option Bool) :=
  (w.shared.st.pending.lookup id).map PendingXt.decision

def framesSeen (s : World × FrameHistory) : FramesSeen :=
  { settled := decide (Settled s.1)
    received := s.2.received
    admitted := registeredIds s.1.log
    first := decisionSeen s.1 (periodInstanceId 1)
    second := decisionSeen s.1 (periodInstanceId 2)
    period := s.1.shared.st.publisherPeriod }

/-- A coordinator of chain 1 with a publisher and a builder. -/
def buildingConfig : Config := { Config.bare 1 with publisher := true, xtBuilderClient := true }

def declinedReply : TaskReply := { outcome := .error .noTransactions }

/-- The period, two instances and a decision. -/
def sampleFrames : List Request :=
  [.startPeriod 1, .startInstance (periodMessage 1), .startInstance (periodMessage 2),
    .decision (periodInstanceId 1) true]

/-- All frames arrive at once. Their locked parts run in order; the builder declines the second
instance while the first one is still with it. -/
def orderedPicks : List Pick :=
  sampleFrames.map Pick.arrive ++ [.run 0 {}, .run 1 {}, .run 2 {}, .run 2 {}, .run 2 declinedReply,
    .run 2 {}, .run 3 {}, .run 1 {}, .run 1 {}, .run 1 {}]

/-- Each frame arrives when the one before has been handled. -/
def oneByOnePicks : List Pick :=
  [.arrive (.startPeriod 1), .run 0 {}, .run 0 {}, .arrive (.startInstance (periodMessage 1))] ++
    List.replicate 5 (.run 0 {}) ++
    [.arrive (.startInstance (periodMessage 2)), .run 1 {}, .run 1 {}, .run 1 declinedReply,
      .run 1 {}, .run 1 {}, .run 1 {}, .arrive (.decision (periodInstanceId 1) true), .run 1 {}]

def secondDeclined (id : InstanceId) : Bool := id == periodInstanceId 2

/-- Both runs of the sample end with the first instance committed and the second gone. -/
def sampleSeen : FramesSeen :=
  { settled := true
    received := sampleFrames
    admitted := [periodInstanceId 1, periodInstanceId 2]
    first := some (some true)
    second := none
    period := { current := some 1, lastSequence := some 2 } }

theorem frames_take_effect_in_order_declined : ∃ moves moves' w h w' h',
    Run (fun s m s' => FrameStep buildingConfig secondDeclined s m s' ∧
      HandledInOrder buildingConfig secondDeclined s m) (⟨{}, [], []⟩, {}) moves (w, h) ∧
    Run (fun s m s' => FrameStep buildingConfig secondDeclined s m s' ∧ OneByOne s m)
      (⟨{}, [], []⟩, {}) moves' (w', h') ∧
    framesSeen (w, h) = sampleSeen ∧ SameResult w w' := by
  have hexec : (execAll (recordPick (pickStep buildingConfig) writeFrames)
      (fun s m => decide (frameMove secondDeclined m = true ∧
        HandledInOrder buildingConfig secondDeclined s m)) orderedPicks (World.initial, {})).map
        framesSeen = some sampleSeen := by decide +kernel
  have hexec' : (execAll (recordPick (pickStep buildingConfig) writeFrames)
      (fun s m => decide (frameMove secondDeclined m = true ∧ OneByOne s m)) oneByOnePicks
      (World.initial, {})).map framesSeen = some sampleSeen := by decide +kernel
  obtain ⟨s, hs, hseen⟩ := Option.map_eq_some_iff.mp hexec
  obtain ⟨s', hs', hseen'⟩ := Option.map_eq_some_iff.mp hexec'
  obtain ⟨moves, hrun⟩ := run_execAll (recorded_of_recordPick worldStep_of_pick) hs
  obtain ⟨moves', hrun'⟩ := run_execAll (recorded_of_recordPick worldStep_of_pick) hs'
  have hordered := hrun.mono (fun s m t hstep => And.intro (And.intro hstep.1 hstep.2.1) hstep.2.2)
  have hsequential :=
    hrun'.mono (fun s m t hstep => And.intro (And.intro hstep.1 hstep.2.1) hstep.2.2)
  have hsettled : Settled s.1 := of_decide_eq_true (congrArg FramesSeen.settled hseen)
  have hsettled' : Settled s'.1 := of_decide_eq_true (congrArg FramesSeen.settled hseen')
  have hframes : s.2.received = s'.2.received :=
    congrArg FramesSeen.received (hseen.trans hseen'.symm)
  exact ⟨moves, moves', s.1, s.2, s'.1, s'.2, hordered, hsequential, hseen,
    frames_take_effect_in_order hordered hsequential hframes hsettled hsettled'⟩

/-- Runs the receive loop without a condition on the order. -/
theorem run_of_frames (picks : List Pick) (seen : FramesSeen)
    (hexec : (execAll (recordPick (pickStep buildingConfig) writeFrames)
      (fun _ m => decide (frameMove (fun _ => false) m = true)) picks (World.initial, {})).map
        framesSeen = some seen) :
    ∃ moves w h, Run (FrameStep buildingConfig (fun _ => false)) (⟨{}, [], []⟩, {}) moves (w, h) ∧
      framesSeen (w, h) = seen := by
  obtain ⟨s, hs, hseen⟩ := Option.map_eq_some_iff.mp hexec
  obtain ⟨moves, hrun⟩ := run_execAll (recorded_of_recordPick worldStep_of_pick) hs
  exact ⟨moves, s.1, s.2, hrun, hseen⟩

/-- Runs the receive loop one frame after the other. -/
theorem run_one_by_one (picks : List Pick) (seen : FramesSeen)
    (hexec : (execAll (recordPick (pickStep buildingConfig) writeFrames)
      (fun s m => decide (frameMove (fun _ => false) m = true ∧ OneByOne s m)) picks
      (World.initial, {})).map framesSeen = some seen) :
    ∃ moves w h, Run (fun s m s' => FrameStep buildingConfig (fun _ => false) s m s' ∧ OneByOne s m)
      (⟨{}, [], []⟩, {}) moves (w, h) ∧ framesSeen (w, h) = seen := by
  obtain ⟨s, hs, hseen⟩ := Option.map_eq_some_iff.mp hexec
  obtain ⟨moves, hrun⟩ := run_execAll (recorded_of_recordPick worldStep_of_pick) hs
  exact ⟨moves, s.1, s.2,
    hrun.mono (fun s m t hstep => ⟨⟨hstep.1, hstep.2.1⟩, hstep.2.2⟩), hseen⟩

/-- The first instance is started and its handler runs to its end. -/
def firstStarted : List Pick :=
  [.arrive (.startPeriod 1), .run 0 {}, .run 0 {}, .arrive (.startInstance (periodMessage 1))] ++
    List.replicate 5 (.run 0 {})

/-- A decision, and the frames that came before it. -/
def decidedFrames : List Request :=
  [.startPeriod 1, .startInstance (periodMessage 1), .decision (periodInstanceId 1) true]

/-- Two instances of a period. -/
def startedFrames : List Request :=
  [.startPeriod 1, .startInstance (periodMessage 1), .startInstance (periodMessage 2)]

/-- The decision overtakes its instance and is dropped as unknown; the second instance overtakes
the first, which is then refused as stale. -/
theorem overtaking_frames_differ :
    (∃ moves w h moves' w' h',
      Run (FrameStep buildingConfig (fun _ => false)) (⟨{}, [], []⟩, {}) moves (w, h) ∧
      Run (fun s m s' => FrameStep buildingConfig (fun _ => false) s m s' ∧ OneByOne s m)
        (⟨{}, [], []⟩, {}) moves' (w', h') ∧
      framesSeen (w, h) = ⟨true, decidedFrames, [periodInstanceId 1], some none, none, ⟨some 1, some 1⟩⟩ ∧
      framesSeen (w', h') =
        ⟨true, decidedFrames, [periodInstanceId 1], some (some true), none, ⟨some 1, some 1⟩⟩ ∧
      ¬SameResult w w') ∧
    ∃ moves w h moves' w' h',
      Run (FrameStep buildingConfig (fun _ => false)) (⟨{}, [], []⟩, {}) moves (w, h) ∧
      Run (fun s m s' => FrameStep buildingConfig (fun _ => false) s m s' ∧ OneByOne s m)
        (⟨{}, [], []⟩, {}) moves' (w', h') ∧
      framesSeen (w, h) = ⟨true, startedFrames, [periodInstanceId 2], none, some none, ⟨some 1, some 2⟩⟩ ∧
      framesSeen (w', h') = ⟨true, startedFrames, [periodInstanceId 1, periodInstanceId 2], some none,
        some none, ⟨some 1, some 2⟩⟩ ∧
      ¬SameResult w w' := by
  have hfirst : ∀ {w w' : World} {h h' : FrameHistory},
      (framesSeen (w, h)).first ≠ (framesSeen (w', h')).first → ¬SameResult w w' :=
    fun hne hsame => hne (hsame.decisions (periodInstanceId 1))
  constructor
  · obtain ⟨moves, w, h, hrun, hseen⟩ := run_of_frames
      (decidedFrames.map Pick.arrive ++
        [.run 0 {}, .run 2 {}, .run 1 {}, .run 1 {}, .run 1 {}, .run 1 {}])
      ⟨true, decidedFrames, [periodInstanceId 1], some none, none, ⟨some 1, some 1⟩⟩
      (by decide +kernel)
    obtain ⟨moves', w', h', hrun', hseen'⟩ := run_one_by_one
      (firstStarted ++ [.arrive (.decision (periodInstanceId 1) true), .run 1 {}])
      ⟨true, decidedFrames, [periodInstanceId 1], some (some true), none, ⟨some 1, some 1⟩⟩
      (by decide +kernel)
    exact ⟨moves, w, h, moves', w', h', hrun, hrun', hseen, hseen',
      hfirst (by rw [hseen, hseen']; simp)⟩
  · obtain ⟨moves, w, h, hrun, hseen⟩ := run_of_frames
      (startedFrames.map Pick.arrive ++
        [.run 0 {}, .run 2 {}, .run 2 {}, .run 2 {}, .run 2 {}, .run 1 {}])
      ⟨true, startedFrames, [periodInstanceId 2], none, some none, ⟨some 1, some 2⟩⟩
      (by decide +kernel)
    obtain ⟨moves', w', h', hrun', hseen'⟩ := run_one_by_one
      (firstStarted ++ .arrive (.startInstance (periodMessage 2)) :: List.replicate 5 (.run 1 {}))
      ⟨true, startedFrames, [periodInstanceId 1, periodInstanceId 2], some none, some none,
        ⟨some 1, some 2⟩⟩
      (by decide +kernel)
    exact ⟨moves, w, h, moves', w', h', hrun, hrun', hseen, hseen',
      hfirst (by rw [hseen, hseen']; simp)⟩

end Sequential

end Sidecar.Coordinator
