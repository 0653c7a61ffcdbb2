import Sidecar.Coordinator.WorldRun

namespace Sidecar.Coordinator

open TaskSystem

/-- What the local builder sees: calls for an instance, and the end of the first one. -/
inductive BuilderCall where
  | submitXt (id : InstanceId)
  | submitReturned (id : InstanceId)
  | releaseXt (id : InstanceId)
  | abortXt (id : InstanceId)
  deriving DecidableEq

def builderCall : Event → Option BuilderCall
  | .submitXt submission => some (.submitXt submission.instanceId)
  | .submitReturned id _ => some (.submitReturned id)
  | .releaseXt id _ => some (.releaseXt id)
  | .abortXt id => some (.abortXt id)
  | _ => none

def builderCalls (log : List Event) : List BuilderCall := log.filterMap builderCall

theorem builderCalls_append (log es : List Event) :
    builderCalls (log ++ es) = builderCalls log ++ builderCalls es :=
  List.filterMap_append

theorem builderCalls_answers (waiters : List Waiter) (result : Except String InstanceId) :
    builderCalls (answers waiters result) = [] := by
  simp [builderCalls, answers, builderCall]

theorem builderCalls_processed (id : InstanceId) (events : List ProcEvent) :
    builderCalls (events.map (Event.processed id)) = [] := by
  simp [builderCalls, builderCall]

/-- A call fits the calls before it: nothing for an instance before its submission has
returned, and no release after an abort. -/
def CallFits (before : List BuilderCall) : BuilderCall → Prop
  | .releaseXt id => .submitReturned id ∈ before ∧ .abortXt id ∉ before
  | .abortXt id => .submitReturned id ∈ before
  | _ => True

def BuilderOrder (log : List Event) : Prop := Along CallFits (builderCalls log)

section Orders

variable (cfg : Config)

/-- Which instance a command is for and whether it lets the transactions run. -/
def XtBuilderCommand.order (command : XtBuilderCommand) : InstanceId × Bool :=
  (command.target, command.commits)

@[simp] theorem order_release (id : InstanceId) (deps : List CrossRollupDependency) :
    (XtBuilderCommand.release id deps).order = (id, true) :=
  rfl

@[simp] theorem order_abort (id : InstanceId) : (XtBuilderCommand.abort id).order = (id, false) :=
  rfl

def Resume.orders : Resume → List (InstanceId × Bool)
  | .done => []
  | .handVote _ _ _ _ => []
  | .nextAbort ids _ => ids.map (fun id => (id, false))
  | .nextRollback ids _ => ids.map (fun id => (id, false))

/-- The builder commands a task has decided on and not sent yet. -/
def Task.orders : Task → List (InstanceId × Bool)
  | .command cmd resume => cmd.order :: resume.orders
  | .buildPutInbox id _ _ _ resume => (id, true) :: resume.orders
  | .release id _ resume => (id, true) :: resume.orders
  | .recycle _ resume => resume.elim [] Resume.orders
  | _ => []

/-- The instances whose submission to the builder a task still has to see through. -/
def Task.outstanding : Task → List InstanceId
  | .submit _ registrar => [registrar.id]
  | .submitting registrar => [registrar.id]
  | _ => []

theorem orders_next (resume : Resume) : (resume.next cfg).flatMap Task.orders = resume.orders := by
  cases resume with
  | done => rfl
  | handVote id rawId vote standalone =>
    simp only [Resume.next]
    split_ifs <;> rfl
  | nextAbort ids aborted => cases ids <;> simp [Resume.next, Task.orders, Resume.orders]
  | nextRollback ids waiters => cases ids <;> simp [Resume.next, Task.orders, Resume.orders]

theorem mem_orders_commandOr {command : Option XtBuilderCommand} {resume : Resume}
    {o : InstanceId × Bool} (h : o ∈ (commandOr cfg command resume).flatMap Task.orders) :
    (∃ c, command = some c ∧ o = c.order) ∨ o ∈ resume.orders := by
  cases command with
  | none =>
    rw [commandOr, orders_next] at h
    exact Or.inr h
  | some c =>
    simp only [commandOr, List.flatMap_singleton, Task.orders, List.mem_cons] at h
    exact h.imp_left (fun he => ⟨c, rfl, he⟩)

theorem orders_submitFirst (submission : Option XtBuilderSubmission) (registrar : Registrar) :
    (submitFirst submission registrar).orders = [] := by
  cases submission <;> rfl

theorem orders_undone (registrar : Registrar) (err : CoordinatorError) :
    (registrar.undone err).flatMap Task.orders = [] := by
  cases registrar <;> rfl

theorem orders_afterResolve (after : AfterResolve) : after.next.flatMap Task.orders = [] := by
  cases after <;> rfl

end Orders

section Step

variable {cfg : Config} {reply : TaskReply} {sh sh' : Shared} {t : Task} {next : List Task}
  {es : List Event}

/-- A command that a task has to send was one of its own before or has just been decided on. -/
theorem orders_step (h : TaskEffect cfg reply sh sh' t next es) {o : InstanceId × Bool}
    (ho : o ∈ next.flatMap Task.orders) :
    o ∈ t.orders ∨ ∃ op c, taskOp cfg reply t = some op ∧ c ∈ op.commands cfg sh.st ∧
      o = c.order := by
  cases h with
  | registered => simp [orders_submitFirst] at ho
  | decided request hop hr hc =>
    rcases mem_orders_commandOr cfg ho with ⟨c, hcommand, rfl⟩ | hm
    · exact Or.inr ⟨_, c, hop, hc c hcommand, rfl⟩
    · simp [Resume.orders] at hm
  | voteRecorded id vote standalone hl hv hc =>
    rcases mem_orders_commandOr cfg ho with ⟨c, hcommand, rfl⟩ | hm
    · exact Or.inr ⟨_, c, rfl, hc c hcommand, rfl⟩
    · simp [Resume.orders] at hm
  | periodOpened periodId =>
    rw [orders_next] at ho
    obtain ⟨id, hid, rfl⟩ := List.mem_map.mp ho
    exact Or.inr ⟨_, .abort id, rfl, List.mem_map_of_mem hid, rfl⟩
  | rolledBack =>
    rw [orders_next] at ho
    obtain ⟨id, hid, rfl⟩ := List.mem_map.mp ho
    exact Or.inr ⟨_, .abort id, rfl, List.mem_map_of_mem hid, rfl⟩
  | proceeded registrar =>
    simp [flatMap_registrarNext (f := Task.orders) cfg (fun _ _ => rfl) (fun _ _ => rfl)
      (fun _ _ _ => rfl)] at ho
  | removed registrar err => simp [orders_undone] at ho
  | resolved _ _ after => simp [orders_afterResolve] at ho
  | releaseSkipped id deps resume =>
    rw [orders_next] at ho
    exact Or.inl (List.mem_cons_of_mem _ ho)
  | releaseStarted id deps resume hclient hu =>
    left
    rcases hu with rfl | ⟨nonce, rfl⟩
    · simpa [Task.orders] using ho
    · simpa [Task.orders] using ho
  | abortSkipped id resume =>
    exact Or.inl (List.mem_cons_of_mem _ (by simpa [Task.orders] using ho))
  | abortSent id resume hclient hn =>
    left
    rcases hn with rfl | rfl
    · exact List.mem_cons_of_mem _ (by simpa [Task.orders] using ho)
    · simp at ho
  | built id deps nonce txs resume hu =>
    left
    rcases hu with rfl | rfl | ⟨rest, nonce', txs', rfl⟩
    · simpa [Task.orders] using ho
    · simp [Task.orders] at ho
    · simpa [Task.orders] using ho
  | releaseSent id txs resume hn =>
    left
    rcases hn with rfl | rfl
    · rw [orders_next] at ho
      exact List.mem_cons_of_mem _ ho
    · simp [Task.orders] at ho
  | recycled id resume =>
    rw [orders_next] at ho
    exact Or.inl ho
  | modeChosen txs waiter hu => rcases hu with rfl | ⟨rfl, -⟩ <;> simp [Task.orders] at ho
  | enqueued txs waiter hu => rcases hu with rfl | ⟨_, _, rfl⟩ <;> simp [Task.orders] at ho
  | requested _ _ waiter hu => rcases hu with rfl | ⟨_, rfl⟩ <;> simp [Task.orders] at ho
  | stopped | refused | tooMany | confirmed | mailed | submitted | notSubmitted | accepted
    | declined | forwardStarted | forwarded | rejected | processed | processVoted | modeRead
    | abortsReported | voteSent | peerVoteSent | noncesReset | nonceConfirmed =>
    simp [Task.orders] at ho

/-- The instances whose release a task prepares or sends, with a builder. -/
def Task.releasing : Task → List InstanceId
  | .buildPutInbox id _ _ _ _ => [id]
  | .release id _ _ => [id]
  | _ => []

theorem releasing_offCommands : OffCommands Task.releasing :=
  ⟨fun _ _ => rfl, fun _ _ => rfl, fun _ => rfl, fun _ => rfl, fun _ => rfl⟩

/-- Releases are prepared only with a builder. -/
theorem releasing_step (h : TaskEffect cfg reply sh sh' t next es) {id : InstanceId}
    (hid : id ∈ next.flatMap Task.releasing) :
    id ∈ t.releasing ∨ cfg.xtBuilderClient = true := by
  cases h with
  | releaseStarted _ _ _ hc => exact Or.inr hc
  | abortSent _ _ hc => exact Or.inr hc
  | built _ _ _ _ _ hu =>
    rcases hu with rfl | rfl | ⟨_, _, _, rfl⟩
    · exact Or.inl (by simpa [Task.releasing] using hid)
    · simp [Task.releasing] at hid
    · exact Or.inl (by simpa [Task.releasing] using hid)
  | releaseSent _ _ resume hn =>
    rcases hn with rfl | rfl
    · simp [flatMap_next cfg releasing_offCommands] at hid
    · simp [Task.releasing] at hid
  | registered =>
    rw [flatMap_submitFirst (fun _ => rfl) rfl] at hid
    exact absurd hid List.not_mem_nil
  | decided | voteRecorded => simp [flatMap_commandOr cfg releasing_offCommands] at hid
  | periodOpened | rolledBack | releaseSkipped | recycled =>
    simp [flatMap_next cfg releasing_offCommands] at hid
  | removed registrar => cases registrar <;> simp [Registrar.undone, Task.releasing] at hid
  | proceeded =>
    simp [flatMap_registrarNext (f := Task.releasing) cfg (fun _ _ => rfl) (fun _ _ => rfl)
      (fun _ _ _ => rfl)] at hid
  | resolved _ _ after => cases after <;> simp [AfterResolve.next, Task.releasing] at hid
  | modeChosen _ _ hu => rcases hu with rfl | ⟨rfl, -⟩ <;> simp [Task.releasing] at hid
  | enqueued _ _ hu => rcases hu with rfl | ⟨_, _, rfl⟩ <;> simp [Task.releasing] at hid
  | requested _ _ _ hu => rcases hu with rfl | ⟨_, rfl⟩ <;> simp [Task.releasing] at hid
  | _ => simp [Task.releasing] at hid

/-- What the builder sees of a step: nothing, the course of a submission, or a command that
the task had to send. -/
theorem calls_step (h : TaskEffect cfg reply sh sh' t next es) :
    (∀ before c, c ∈ builderCalls es → CallFits before c) ∨
      (∃ id, builderCalls es = [.releaseXt id] ∧ (id, true) ∈ t.orders ∧ id ∈ t.releasing) ∨
      (∃ id, builderCalls es = [.abortXt id] ∧ (id, false) ∈ t.orders ∧
        cfg.xtBuilderClient = true) := by
  cases h with
  | releaseSent id txs resume hn =>
    exact Or.inr (Or.inl ⟨id, rfl, by simp [Task.orders], by simp [Task.releasing]⟩)
  | abortSent id resume hclient hn =>
    exact Or.inr (Or.inr ⟨id, rfl, by simp [Task.orders], hclient⟩)
  | resolved => simp [builderCalls_answers]
  | noncesReset => simp [builderCalls_answers]
  | processed => simp [builderCalls_processed]
  | submitted | accepted | declined => simp [builderCalls, builderCall, CallFits]
  | _ => exact Or.inl (fun _ _ hc => absurd hc List.not_mem_nil)

/-- With a builder, a submission that was outstanding still is, or has returned. -/
theorem outstanding_step (h : TaskEffect cfg reply sh sh' t next es)
    (hclient : cfg.xtBuilderClient = true) {id : InstanceId} (ho : id ∈ t.outstanding) :
    id ∈ next.flatMap Task.outstanding ∨ .submitReturned id ∈ builderCalls es := by
  cases h with
  | submitted submission registrar => exact Or.inl (by simpa [Task.outstanding] using ho)
  | notSubmitted _ _ hc => simp [hc] at hclient
  | accepted registrar =>
    exact Or.inr (by simpa [builderCalls, builderCall, Task.outstanding] using ho)
  | declined registrar err =>
    exact Or.inr (by simpa [builderCalls, builderCall, Task.outstanding] using ho)
  | stopped _ hs =>
    cases t with
    | submit | submitting => simp [Task.mayStop] at hs
    | _ => exact absurd ho List.not_mem_nil
  | registered hreg => cases hreg <;> simp [Task.outstanding] at ho
  | _ => simp [Task.outstanding] at ho

end Step

section Ends

/-- The votes collected for an instance decide it. -/
def CountEnds (chainId : ChainId) (xt : PendingXt) : Prop :=
  false ∈ countedVotes chainId xt ∨ VotesSuffice chainId xt

/-- A locked part is about to end the pending instance `xt`: with a vote that decides it, the
publisher's decision, the end of its period or a rollback. -/
def Ends (cfg : Config) (id : InstanceId) (xt : PendingXt) : Op → Prop
  | .sendVote i vote standalone now => i = id ∧ standalone = true ∧ xt.decision = none ∧
      xt.localVote = none ∧ CountEnds cfg.chainId (withLocalVote cfg xt vote now)
  | .peerVote i chainId vote _ => i = id ∧ xt.decision = none ∧ chainId ∉ xt.peerVotes ∧
      CountEnds cfg.chainId { xt with peerVotes := xt.peerVotes.insert chainId vote }
  | .onDecision i _ _ => i = id ∧ xt.decision = none
  | .startPeriod periodId _ => isStale periodId xt = true
  | .rollback _ => True
  | _ => False

instance (chainId : ChainId) (xt : PendingXt) : Decidable (VotesSuffice chainId xt) :=
  inferInstanceAs (Decidable (_ ∧ _ ∧ _))

instance (chainId : ChainId) (xt : PendingXt) : Decidable (CountEnds chainId xt) :=
  inferInstanceAs (Decidable (_ ∨ _))

instance (cfg : Config) (id : InstanceId) (xt : PendingXt) : DecidablePred (Ends cfg id xt)
  | .sendVote _ _ _ _ => inferInstanceAs (Decidable (_ ∧ _ ∧ _ ∧ _ ∧ _))
  | .peerVote _ _ _ _ => inferInstanceAs (Decidable (_ ∧ _ ∧ _ ∧ _))
  | .onDecision _ _ _ => inferInstanceAs (Decidable (_ ∧ _))
  | .startPeriod _ _ => inferInstanceAs (Decidable (_ = _))
  | .rollback _ => inferInstanceAs (Decidable True)
  | .submitXt _ | .forwardXt _ _ _ _ | .startInstance _ | .removePending _ _ | .confirm _ _
  | .cleanup _ _ _ | .mailbox _ | .enqueue _ _ | .resolve _ | .lockChain _
  | .recordSimulation _ _ _ | .fulfill _ _ | .dispatch _ _ => inferInstanceAs (Decidable False)

theorem countEnds_of_decided {chainId : ChainId} {xt : PendingXt} {now : Instant} {d : Bool}
    (hd : xt.decision = none)
    (h : (maybeMakeStandaloneDecision chainId xt now).1.decision = some d) :
    CountEnds chainId xt := by
  rcases standaloneDecision_cases chainId xt now with he | ⟨-, hf, -⟩ | ⟨-, hs, -⟩
  · rw [he] at h
    simp [hd] at h
  · exact Or.inl hf
  · exact Or.inr hs

/-- A locked part that decides an undecided instance ends it. -/
theorem ends_of_settles {cfg : Config} {st : CoordinatorState} {op : Op} {id : InstanceId}
    {d : Bool} (h : Settles cfg st op id none d) :
    ∃ xt, st.pending.lookup id = some xt ∧ Ends cfg id xt op := by
  obtain ⟨xt, xt', hl, hl', -, hw, hd⟩ := h
  refine ⟨xt, hl, ?_⟩
  have he := xtEffect cfg st op id
  rw [hl, hl'] at he
  cases he with
  | same => simp [hw] at hd
  | touched _ _ hc =>
    have hdec : xt'.decision = xt.decision := congrArg XtCore.decision hc
    simp [hdec, hw] at hd
  | registered _ _ _ _ _ hf => simp [hf.decision_eq] at hd
  | voted _ vote standalone now hv =>
    rw [castVote_eq] at hd
    cases standalone with
    | false => simp [withLocalVote, hw] at hd
    | true => exact ⟨rfl, rfl, hw, hv, countEnds_of_decided hw hd⟩
  | peerVoted _ chainId vote now _ hv => exact ⟨rfl, hw, hv, countEnds_of_decided hw hd⟩
  | decided => exact ⟨rfl, hw⟩
  | outdated _ _ _ hs => exact hs
  | rolledBack => trivial

/-- A locked part decides on commands only for instances that it ends. -/
theorem ends_of_command {cfg : Config} {st : CoordinatorState} (hk : KeyedById st) {op : Op}
    {command : XtBuilderCommand} (h : command ∈ op.commands cfg st) :
    ∃ xt, st.pending.lookup command.target = some xt ∧ xt.runsOn cfg.chainId = true ∧
      Ends cfg command.target xt op := by
  have hhere : DecidedHere cfg st op → ∃ xt, st.pending.lookup command.target = some xt ∧
      xt.runsOn cfg.chainId = true ∧ Ends cfg command.target xt op := by
    intro hd
    rcases hd with he | ⟨c, hc, hs⟩
    · simp [he] at h
    · rw [hc, List.mem_singleton] at h
      subst h
      obtain ⟨xt, hl, he⟩ := ends_of_settles hs
      obtain ⟨x, -, hx, -, hr, -⟩ := hs
      obtain rfl := Option.some.inj (hl.symm.trans hx)
      exact ⟨xt, hl, hr, he⟩
  cases op with
  | sendVote id vote standalone now =>
    exact hhere (sendVote_decidedHere cfg st hk id vote standalone now)
  | peerVote id chainId vote now => exact hhere (peerVote_decidedHere cfg st hk id chainId vote now)
  | onDecision id d now => exact hhere (onDecision_decidedHere cfg st hk id d now)
  | startPeriod periodId now =>
    obtain ⟨id, hmem, rfl⟩ := List.mem_map.mp h
    obtain ⟨xt, hl, hs, hr⟩ := (mem_abortIds cfg st hk _ id).mp hmem
    exact ⟨xt, hl, hr, hs⟩
  | rollback now =>
    obtain ⟨id, hmem, rfl⟩ := List.mem_map.mp h
    obtain ⟨xt, hl, -, hr⟩ := (mem_abortIds cfg st hk _ id).mp hmem
    exact ⟨xt, hl, hr, trivial⟩
  | submitXt | forwardXt | startInstance | removePending | confirm | cleanup | mailbox | enqueue
    | resolve | lockChain | recordSimulation | fulfill | dispatch => simp [Op.commands] at h

end Ends

section Order

variable (cfg : Config)

/-- A move that keeps the builder's calls in order: no id is registered a second time, no
instance is ended while its submission is outstanding, and nothing is rolled back while a
release is decided and not sent. -/
def OrderKept (w : World) : Move → Prop
  | .run t reply => ∀ op ∈ taskOp cfg reply t,
      (∀ r ∈ op.registers cfg w.shared.st, r.1 ∉ registeredIds w.log) ∧
        (∀ id ∈ w.held Task.outstanding, ∀ xt ∈ w.shared.st.pending.lookup id,
          ¬Ends cfg id xt op) ∧
        (op.rollsBack = true → ∀ o ∈ w.held Task.orders, o.2 = true →
          o.1 ∉ w.shared.st.pending)
  | _ => True

instance (w : World) : DecidablePred (OrderKept cfg w)
  | .run _ _ => inferInstanceAs (Decidable (∀ op ∈ _, _ ∧ _ ∧ _))
  | .arrive _ | .connection _ | .notify => inferInstanceAs (Decidable True)

/-- What is known of every instance between its registration and the builder. -/
structure OrderInv (w : World) : Prop where
  keyed : KeyedById w.shared.st
  pendingKnown : PendingKnown w
  ordersKnown : ∀ id d, (id, d) ∈ w.held Task.orders → id ∈ registeredIds w.log
  abortsKnown : ∀ id, .abortXt id ∈ builderCalls w.log → id ∈ registeredIds w.log
  client : ∀ id ∈ w.held Task.releasing, cfg.xtBuilderClient = true
  pendingReturned : cfg.xtBuilderClient = true → ∀ id xt,
    w.shared.st.pending.lookup id = some xt → xt.runsOn cfg.chainId = true →
    id ∈ w.held Task.outstanding ∨ .submitReturned id ∈ builderCalls w.log
  ordersReturned : cfg.xtBuilderClient = true → ∀ id d, (id, d) ∈ w.held Task.orders →
    .submitReturned id ∈ builderCalls w.log
  releases : ∀ id, (id, true) ∈ w.held Task.orders → .abortXt id ∉ builderCalls w.log ∧
    (id, false) ∉ w.held Task.orders ∧
    ∀ xt, w.shared.st.pending.lookup id = some xt → xt.decision = some true
  aborts : ∀ id, (id, false) ∈ w.held Task.orders ∨ .abortXt id ∈ builderCalls w.log →
    ∀ xt, w.shared.st.pending.lookup id = some xt → xt.decision = some false
  ordered : BuilderOrder w.log

theorem orderInv_initial : OrderInv cfg World.initial := by
  constructor <;> simp [World.initial, held, builderCalls, PendingKnown, KeyedById, BuilderOrder,
    along_nil]

variable {cfg} {w : World} {t : Task} {reply : TaskReply} {before after next : List Task}
  {sh' : Shared} {es : List Event}

/-- An instance that is known is not registered again. -/
theorem OrderKept.not_again (hg : OrderKept cfg w (.run t reply)) {id : InstanceId}
    (hk : id ∈ registeredIds w.log) (op : Op) (route : Route) (hop : taskOp cfg reply t = some op) :
    op.registers cfg w.shared.st ≠ some (id, route) := by
  intro hr
  exact (hg op hop).1 (id, route) hr hk

/-- A command just decided on: its instance, before and after. -/
theorem command_order (hi : OrderInv cfg w) (hg : OrderKept cfg w (.run t reply))
    (h : taskStep cfg reply w.shared t = some (sh', next, es)) {op : Op} {c : XtBuilderCommand}
    (hop : taskOp cfg reply t = some op) (hc : c ∈ op.commands cfg w.shared.st) :
    ∃ xt xt', w.shared.st.pending.lookup c.target = some xt ∧
      sh'.st.pending.lookup c.target = some xt' ∧ xt'.decision = some c.commits ∧
      (c.commits = true → xt.decision = none ∧ op.commands cfg w.shared.st = [c]) ∧
      (c.commits = false → (c.target, true) ∉ w.held Task.orders) := by
  have hst : sh'.st = op.apply cfg w.shared.st := taskStep_apply h hop
  rcases mem_commands cfg w.shared.st hi.keyed op c hc with ⟨hone, hs⟩ | ⟨hfalse, was, hs, hwas⟩
  · obtain ⟨xt, xt', hl, hl', -, hw, hd⟩ := hs
    refine ⟨xt, xt', hl, by rw [hst]; exact hl', hd, fun _ => ⟨hw, hone⟩, ?_⟩
    intro _ hheld
    have hcommitted := (hi.releases _ hheld).2.2 xt hl
    simp [hcommitted] at hw
  · obtain ⟨xt, xt', hl, hl', -, hw, hd⟩ := hs
    refine ⟨xt, xt', hl, by rw [hst]; exact hl', by rw [hfalse]; exact hd,
      fun htrue => by simp [hfalse] at htrue, ?_⟩
    intro _ hheld
    have hcommitted := (hi.releases _ hheld).2.2 xt hl
    rcases hwas with hne | ⟨now, hroll⟩
    · exact hne (hw.symm.trans hcommitted)
    · have hgone := (hg op hop).2.2 (by rw [hroll]; rfl) _ hheld rfl
      exact hgone (AList.lookup_isSome.mp (by simp [hl]))

/-- The commands held after a step. -/
theorem orders_after (htasks : w.tasks = before ++ t :: after)
    (h : taskStep cfg reply w.shared t = some (sh', next, es)) {o : InstanceId × Bool}
    (ho : o ∈ (before ++ next ++ after).flatMap Task.orders) :
    o ∈ w.held Task.orders ∨ ∃ op c, taskOp cfg reply t = some op ∧
      c ∈ op.commands cfg w.shared.st ∧ o = c.order := by
  rcases held_of_split htasks ho with hn | hw
  · rcases orders_step (taskStep_effect h) hn with ht | hnew
    · exact Or.inl (mem_held.mpr ⟨t, mem_of_split htasks, ht⟩)
    · exact Or.inr hnew
  · exact Or.inl hw

/-- An abort that is sent was held before. -/
theorem abort_was_held (htasks : w.tasks = before ++ t :: after)
    (h : taskStep cfg reply w.shared t = some (sh', next, es)) {id : InstanceId}
    (ha : .abortXt id ∈ builderCalls (w.log ++ es)) :
    .abortXt id ∈ builderCalls w.log ∨ (id, false) ∈ w.held Task.orders := by
  rw [builderCalls_append, List.mem_append] at ha
  rcases ha with hold | hnew
  · exact Or.inl hold
  · rcases calls_step (taskStep_effect h) with hfit | ⟨i, hes, -⟩ | ⟨i, hes, ht, -⟩
    · exact absurd (hfit [] _ hnew) (by simp [CallFits])
    · simp [hes] at hnew
    · simp only [hes, List.mem_singleton, BuilderCall.abortXt.injEq] at hnew
      rw [hnew]
      exact Or.inr (mem_held.mpr ⟨t, mem_of_split htasks, ht⟩)

theorem releases_step (htasks : w.tasks = before ++ t :: after)
    (h : taskStep cfg reply w.shared t = some (sh', next, es))
    (hg : OrderKept cfg w (.run t reply)) (hi : OrderInv cfg w) (id : InstanceId)
    (ho : (id, true) ∈ (before ++ next ++ after).flatMap Task.orders) :
    .abortXt id ∉ builderCalls (w.log ++ es) ∧
      (id, false) ∉ (before ++ next ++ after).flatMap Task.orders ∧
      ∀ xt, sh'.st.pending.lookup id = some xt → xt.decision = some true := by
  rcases orders_after htasks h ho with hold | ⟨op, c, hop, hc, hco⟩
  · obtain ⟨hcall, hheld, hd⟩ := hi.releases id hold
    have hno := hg.not_again (hi.ordersKnown id true hold)
    refine ⟨?_, ?_, ?_⟩
    · intro ha
      rcases abort_was_held htasks h ha with hlog | hf
      · exact hcall hlog
      · exact hheld hf
    · intro hf
      rcases orders_after htasks h hf with hf | ⟨op, c, hop, hc, hfo⟩
      · exact hheld hf
      · obtain ⟨rfl, hcommits⟩ := Prod.mk.inj hfo
        obtain ⟨_, _, _, _, _, _, hnot⟩ := command_order hi hg h hop hc
        exact hnot hcommits.symm hold
    · intro xt' hl
      obtain ⟨xt, hx, -⟩ := entry_of_not_registered h hno hl
      have hpending : id ∈ w.shared.st.pending := AList.lookup_isSome.mp (by simp [hx])
      have hkeep : ∀ op, taskOp cfg reply t = some op → op.rollsBack = false := by
        intro op hop
        by_contra hroll
        exact (hg op hop).2.2 (by simpa using hroll) _ hold rfl hpending
      exact decision_taskStep h hno hkeep hd hl
  · obtain ⟨rfl, hcommits⟩ := Prod.mk.inj hco
    obtain ⟨xt, xt', hl, hl', hd', htrue, -⟩ := command_order hi hg h hop hc
    obtain ⟨hnone, hone⟩ := htrue hcommits.symm
    have hfresh : ¬((c.target, false) ∈ w.held Task.orders ∨
        .abortXt c.target ∈ builderCalls w.log) := by
      intro hf
      simp [hi.aborts _ hf xt hl] at hnone
    refine ⟨fun ha => hfresh (abort_was_held htasks h ha).symm, ?_, ?_⟩
    · intro hf
      rcases orders_after htasks h hf with hf | ⟨op', c', hop', hc', hfo⟩
      · exact hfresh (Or.inl hf)
      · obtain rfl := Option.some.inj (hop.symm.trans hop')
        rw [hone, List.mem_singleton] at hc'
        rw [hc', ← hco] at hfo
        simp at hfo
    · intro x hx
      obtain rfl := Option.some.inj (hl'.symm.trans hx)
      exact hd'.trans (congrArg some hcommits.symm)

theorem aborts_step (htasks : w.tasks = before ++ t :: after)
    (h : taskStep cfg reply w.shared t = some (sh', next, es))
    (hg : OrderKept cfg w (.run t reply)) (hi : OrderInv cfg w) (id : InstanceId)
    (ho : (id, false) ∈ (before ++ next ++ after).flatMap Task.orders ∨
      .abortXt id ∈ builderCalls (w.log ++ es)) (xt' : PendingXt)
    (hl : sh'.st.pending.lookup id = some xt') : xt'.decision = some false := by
  have hkept : (id, false) ∈ w.held Task.orders ∨ .abortXt id ∈ builderCalls w.log →
      xt'.decision = some false := by
    intro hold
    have hknown : id ∈ registeredIds w.log := by
      rcases hold with ho | ha
      · exact hi.ordersKnown id false ho
      · exact hi.abortsKnown id ha
    exact aborted_taskStep h (hg.not_again hknown) (hi.aborts id hold) hl
  rcases ho with ho | ha
  · rcases orders_after htasks h ho with hold | ⟨op, c, hop, hc, hco⟩
    · exact hkept (Or.inl hold)
    · obtain ⟨rfl, hcommits⟩ := Prod.mk.inj hco
      obtain ⟨_, x, _, hx, hd, -⟩ := command_order hi hg h hop hc
      obtain rfl := Option.some.inj (hx.symm.trans hl)
      exact hd.trans (congrArg some hcommits.symm)
  · exact hkept (abort_was_held htasks h ha).symm

/-- With a builder, every pending local instance is being submitted or has been. -/
theorem pendingReturned_step (htasks : w.tasks = before ++ t :: after)
    (h : taskStep cfg reply w.shared t = some (sh', next, es)) (hi : OrderInv cfg w)
    (hclient : cfg.xtBuilderClient = true) (id : InstanceId) (xt' : PendingXt)
    (hl : sh'.st.pending.lookup id = some xt') (hr : xt'.runsOn cfg.chainId = true) :
    id ∈ (before ++ next ++ after).flatMap Task.outstanding ∨
      .submitReturned id ∈ builderCalls (w.log ++ es) := by
  rw [builderCalls_append, List.mem_append]
  rcases entry_step h hl with ⟨xt, hx, hsame, -⟩ | hnew
  · have hrun : xt.runsOn cfg.chainId = true := by
      rw [← runsOn_of_core hsame.rawTxs_eq]
      exact hr
    rcases hi.pendingReturned hclient id xt hx hrun with ho | hret
    · rcases held_kept next htasks ho with hid | hkept
      · rcases outstanding_step (taskStep_effect h) hclient hid with hn | hret
        · exact Or.inl (held_next before after hn)
        · exact Or.inr (Or.inr hret)
      · exact Or.inl hkept
    · exact Or.inr (Or.inl hret)
  · obtain ⟨registrar, hreg, rfl⟩ := hnew.registrar
    obtain ⟨route, hfresh⟩ := hnew.fresh
    refine Or.inl (held_next before after ?_)
    simp only [localBuilderSubmission, hr, if_true, submitFirst, List.flatMap_singleton,
      Task.outstanding, List.mem_singleton]
    exact (hreg.id_eq.trans hfresh.id_eq).symm

theorem ordersReturned_step (htasks : w.tasks = before ++ t :: after)
    (h : taskStep cfg reply w.shared t = some (sh', next, es))
    (hg : OrderKept cfg w (.run t reply)) (hi : OrderInv cfg w)
    (hclient : cfg.xtBuilderClient = true) (id : InstanceId) (d : Bool)
    (ho : (id, d) ∈ (before ++ next ++ after).flatMap Task.orders) :
    .submitReturned id ∈ builderCalls (w.log ++ es) := by
  rw [builderCalls_append, List.mem_append]
  left
  rcases orders_after htasks h ho with hold | ⟨op, c, hop, hc, hco⟩
  · exact hi.ordersReturned hclient id d hold
  · obtain ⟨rfl, -⟩ := Prod.mk.inj hco
    obtain ⟨xt, hl, hr, hends⟩ := ends_of_command hi.keyed hc
    rcases hi.pendingReturned hclient _ xt hl hr with hout | hret
    · exact absurd hends ((hg op hop).2.1 _ hout xt hl)
    · exact hret

/-- A call that is made fits the calls before it. -/
theorem ordered_step (htasks : w.tasks = before ++ t :: after)
    (h : taskStep cfg reply w.shared t = some (sh', next, es)) (hi : OrderInv cfg w) :
    BuilderOrder (w.log ++ es) := by
  have hheld : ∀ o, o ∈ t.orders → o ∈ w.held Task.orders :=
    fun o ho => mem_held.mpr ⟨t, mem_of_split htasks, ho⟩
  unfold BuilderOrder
  rw [builderCalls_append]
  apply along_append hi.ordered
  intro pre e post he
  rcases calls_step (taskStep_effect h) with hfit | ⟨id, hes, ht, hneeds⟩ | ⟨id, hes, ht, hclient⟩
  · exact hfit _ e (by simp [he])
  · rw [hes] at he
    obtain ⟨rfl, rfl⟩ : pre = [] ∧ e = .releaseXt id := by
      cases pre <;> simp_all
    have hclient := hi.client id (mem_held.mpr ⟨t, mem_of_split htasks, hneeds⟩)
    rw [List.append_nil]
    exact ⟨hi.ordersReturned hclient id true (hheld _ ht), (hi.releases id (hheld _ ht)).1⟩
  · rw [hes] at he
    obtain ⟨rfl, rfl⟩ : pre = [] ∧ e = .abortXt id := by
      cases pre <;> simp_all
    rw [List.append_nil]
    exact hi.ordersReturned hclient id false (hheld _ ht)

theorem orderInv_run (htasks : w.tasks = before ++ t :: after)
    (h : taskStep cfg reply w.shared t = some (sh', next, es))
    (hg : OrderKept cfg w (.run t reply)) (hi : OrderInv cfg w) :
    OrderInv cfg ⟨sh', before ++ next ++ after, w.log ++ es⟩ where
  keyed := keyedById_taskStep h hi.keyed
  pendingKnown := pendingKnown_taskStep h hi.pendingKnown
  ordersKnown := by
    intro id d ho
    rw [registeredIds_append, List.mem_append]
    left
    rcases orders_after htasks h ho with hold | ⟨op, c, hop, hc, hco⟩
    · exact hi.ordersKnown id d hold
    · obtain ⟨rfl, -⟩ := Prod.mk.inj hco
      obtain ⟨xt, _, hl, -⟩ := command_order hi hg h hop hc
      exact hi.pendingKnown _ xt hl
  abortsKnown := by
    intro id ha
    rw [registeredIds_append, List.mem_append]
    left
    rcases abort_was_held htasks h ha with hlog | hheld
    · exact hi.abortsKnown id hlog
    · exact hi.ordersKnown id false hheld
  client := by
    intro id hid
    rcases held_of_split htasks hid with hnext | hw
    · rcases releasing_step (taskStep_effect h) hnext with ht | hc
      · exact hi.client id (mem_held.mpr ⟨t, mem_of_split htasks, ht⟩)
      · exact hc
    · exact hi.client id hw
  pendingReturned := pendingReturned_step htasks h hi
  ordersReturned := ordersReturned_step htasks h hg hi
  releases := releases_step htasks h hg hi
  aborts := aborts_step htasks h hg hi
  ordered := ordered_step htasks h hi

theorem lasting_orders : Lasting Task.orders := ⟨fun t => by cases t <;> rfl, fun _ => rfl, rfl⟩

theorem lasting_outstanding : Lasting Task.outstanding :=
  ⟨fun t => by cases t <;> rfl, fun _ => rfl, rfl⟩

theorem lasting_releasing : Lasting Task.releasing :=
  ⟨fun t => by cases t <;> rfl, fun _ => rfl, rfl⟩

theorem orderInv_quiet {w' : World} (h : QuietMove w w') (hi : OrderInv cfg w) :
    OrderInv cfg w' := by
  have horders := h.held_eq lasting_orders
  have hout := h.held_eq lasting_outstanding
  have hrel := h.held_eq lasting_releasing
  constructor
  · rw [h.st_eq]
    exact hi.keyed
  · unfold PendingKnown
    rw [h.st_eq, h.log_eq]
    exact hi.pendingKnown
  · rw [horders, h.log_eq]
    exact hi.ordersKnown
  · rw [h.log_eq]
    exact hi.abortsKnown
  · rw [hrel]
    exact hi.client
  · rw [h.st_eq, hout, h.log_eq]
    exact hi.pendingReturned
  · rw [horders, h.log_eq]
    exact hi.ordersReturned
  · rw [horders, h.log_eq, h.st_eq]
    exact hi.releases
  · rw [horders, h.log_eq, h.st_eq]
    exact hi.aborts
  · rw [h.log_eq]
    exact hi.ordered

theorem orderInv_step {m : Move} {w' : World} (h : WorldStep cfg w m w') (hg : OrderKept cfg w m)
    (hi : OrderInv cfg w) : OrderInv cfg w' := by
  rcases worldStep_cases h with hq | ⟨t, reply, before, after, next, sh', es, rfl, htasks, hs, rfl⟩
  · exact orderInv_quiet hq hi
  · exact orderInv_run htasks hs hg hi

/-- Builder call order: in every run whose moves keep it, the builder gets nothing for an
instance before its submission has returned, and no release after an abort. -/
theorem builder_order_kept (cfg : Config) {moves : List Move} {w : World}
    (hrun : Run (fun w m w' => WorldStep cfg w m w' ∧ OrderKept cfg w m) World.initial moves w) :
    BuilderOrder w.log :=
  (hrun.invariant (I := OrderInv cfg) (fun _ _ _ hi h => orderInv_step h.1 h.2 hi)
    (orderInv_initial cfg)).ordered

/-- The instance is started in its period and the builder takes it; `process_xt` runs at the
first position. -/
def startedPicks : List Pick :=
  [.arrive (.startPeriod 1), .run 0 {}, .run 0 {}, .arrive (.startInstance startMessage), .run 0 {},
    .run 0 {}, .run 0 {}, .run 0 {}, .run 0 {}]

/-- The publisher commits and the release is sent. -/
def releasedPicks : List Pick :=
  startedPicks ++ [.arrive (.decision startMessageId true), .run 1 {}, .run 1 {}, .run 1 {}]

theorem builder_order_kept_released : ∃ moves w,
    Run (fun w m w' => WorldStep builderConfig w m w' ∧ OrderKept builderConfig w m)
      World.initial moves w ∧
    builderCalls w.log = [.submitXt startMessageId, .submitReturned startMessageId,
      .releaseXt startMessageId] ∧
    BuilderOrder w.log := by
  have hexec : (execAll (pickStep builderConfig) (fun w m => decide (OrderKept builderConfig w m))
      releasedPicks World.initial).map (fun w => builderCalls w.log) =
        some [.submitXt startMessageId, .submitReturned startMessageId,
          .releaseXt startMessageId] := by
    decide
  obtain ⟨w, hw, hcalls⟩ := Option.map_eq_some_iff.mp hexec
  obtain ⟨moves, hrun⟩ := run_execAll worldStep_of_pick hw
  exact ⟨moves, w, hrun, hcalls, builder_order_kept builderConfig hrun⟩

/-- A peer's abort vote arrives while the submission of a forwarded instance is under way. -/
def earlyAbortPicks : List Pick :=
  [.arrive (.forwardedXt "xt-2-1" twoChainTxs 2 1), .run 0 {},
    .arrive (.peerVote "xt-2-1" 2 false), .run 1 {}, .run 1 {}]

/-- A rollback arrives while the release is decided and not sent, and its abort is sent first. -/
def lateReleasePicks : List Pick :=
  startedPicks ++ [.arrive (.decision startMessageId true), .run 1 {}, .arrive .rollback,
    .run 2 {}, .run 2 {}, .run 1 {}, .run 1 {}]

theorem early_abort_and_late_release :
    (∃ moves w, Run (WorldStep builderConfig) World.initial moves w ∧
      builderCalls w.log = [.abortXt "xt-2-1"] ∧ ¬BuilderOrder w.log) ∧
    ∃ moves w, Run (WorldStep builderConfig) World.initial moves w ∧
      builderCalls w.log = [.submitXt startMessageId, .submitReturned startMessageId,
        .abortXt startMessageId, .releaseXt startMessageId] ∧ ¬BuilderOrder w.log := by
  have hearly : (execAll (pickStep builderConfig) (fun _ _ => true) earlyAbortPicks World.initial).map
      (fun w => builderCalls w.log) = some [.abortXt "xt-2-1"] := by
    decide
  have hlate : (execAll (pickStep builderConfig) (fun _ _ => true) lateReleasePicks World.initial).map
      (fun w => builderCalls w.log) = some [.submitXt startMessageId,
        .submitReturned startMessageId, .abortXt startMessageId, .releaseXt startMessageId] := by
    decide
  obtain ⟨w, hw, hcalls⟩ := Option.map_eq_some_iff.mp hearly
  obtain ⟨moves, hrun⟩ := run_execAll_free worldStep_of_pick hw
  obtain ⟨w', hw', hcalls'⟩ := Option.map_eq_some_iff.mp hlate
  obtain ⟨moves', hrun'⟩ := run_execAll_free worldStep_of_pick hw'
  have hbad : ¬BuilderOrder w.log := by
    intro h
    have hfits := h [] (.abortXt "xt-2-1") [] hcalls
    simp [CallFits] at hfits
  have hbad' : ¬BuilderOrder w'.log := by
    intro h
    have hfits := h [.submitXt startMessageId, .submitReturned startMessageId,
      .abortXt startMessageId] (.releaseXt startMessageId) [] hcalls'
    simp [CallFits] at hfits
  exact ⟨⟨moves, w, hrun, hcalls, hbad⟩, ⟨moves', w', hrun', hcalls', hbad'⟩⟩

end Order

end Sidecar.Coordinator
