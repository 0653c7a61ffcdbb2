import Sidecar.Coordinator.TaskEffect
import Sidecar.Coordinator.Stability

namespace Sidecar.Coordinator

/-- A move of the coordinator, with the task that moves named by its position. -/
inductive Pick where
  | arrive (request : Request)
  | connection (up : Bool)
  | run (i : Nat) (reply : TaskReply)
  | notify (i : Nat)

section Exec

variable (cfg : Config)

def pickStep (w : World) : Pick → Option (Move × World)
  | .arrive request => some (.arrive request, { w with tasks := w.tasks ++ [.request request] })
  | .connection up =>
    some (.connection up, { w with shared := { w.shared with connected := up } })
  | .run i reply =>
    (TaskSystem.runAt (taskStep cfg) reply i w).map (fun r => (.run r.1 reply, r.2))
  | .notify i =>
    match w.tasks[i]? with
    | some .notifyWaiters =>
      some (.notify,
        { w with tasks := (w.tasks.take i ++ w.tasks.drop (i + 1)).map Task.notified })
    | _ => none

variable {cfg}

theorem worldStep_of_pick (w : World) (p : Pick) (m : Move) (w' : World)
    (h : pickStep cfg w p = some (m, w')) : WorldStep cfg w m w' := by
  cases p with
  | arrive request =>
    obtain ⟨rfl, rfl⟩ := Prod.mk.inj (Option.some.inj h)
    exact .arrive w request
  | connection up =>
    obtain ⟨rfl, rfl⟩ := Prod.mk.inj (Option.some.inj h)
    exact .connection w up
  | run i reply =>
    obtain ⟨r, hr, he⟩ := Option.map_eq_some_iff.mp h
    obtain ⟨rfl, rfl⟩ := Prod.mk.inj he
    exact .run (TaskSystem.taskRuns_of_runAt hr)
  | notify i =>
    simp only [pickStep] at h
    split at h
    · next ht =>
      obtain ⟨rfl, rfl⟩ := Prod.mk.inj (Option.some.inj h)
      exact .notify (TaskSystem.split_at ht)
    · simp at h

/-- A coordinator of chain 1 with a builder. -/
def builderConfig : Config := { Config.bare 1 with xtBuilderClient := true }

/-- A coordinator of chain 1 with a publisher and no other collaborator. -/
def publisherConfig : Config := { Config.bare 1 with publisher := true }

/-- The publisher starts an instance of chains 1 and 2. -/
def startMessage : StartInstance :=
  { instanceId := List.replicate 32 0xab
    periodId := 1
    sequenceNumber := 1
    xtRequest := some (buildXtRequest twoChainTxs) }

def startMessageId : InstanceId := InstanceId.fromPublisherBytes startMessage.instanceId

end Exec

section Quiet

/-- What tasks hold independently of where `process_xt` stands; a call that has just arrived
holds nothing of it. -/
structure Lasting {β : Type} (f : Task → List β) : Prop where
  notified : ∀ t : Task, f t.notified = f t
  request : ∀ request, f (.request request) = []
  notifyWaiters : f .notifyWaiters = []

/-- A move in which no task runs: the state and the log stay, and so does what lasts. -/
structure QuietMove (w w' : World) : Prop where
  st_eq : w'.shared.st = w.shared.st
  log_eq : w'.log = w.log
  held_eq : ∀ {β : Type} {f : Task → List β}, Lasting f → w'.held f = w.held f

theorem QuietMove.dealt_eq {w w' : World} (h : QuietMove w w') {β : Type} {f : Task → List β}
    (hf : Lasting f) {g : Event → Option β} : w'.dealt f g = w.dealt f g := by
  rw [TaskSystem.dealt, TaskSystem.dealt, h.held_eq hf, h.log_eq]

theorem quietMove_notify {w : World} {before after : List Task}
    (h : w.tasks = before ++ .notifyWaiters :: after) :
    QuietMove w { w with tasks := (before ++ after).map Task.notified } where
  st_eq := rfl
  log_eq := rfl
  held_eq := by
    intro β f hf
    simp only [TaskSystem.held, h, List.flatMap_map, hf.notified, List.flatMap_append,
      List.flatMap_cons, hf.notifyWaiters, List.nil_append]

theorem quietMove_arrive (w : World) (request : Request) :
    QuietMove w { w with tasks := w.tasks ++ [.request request] } where
  st_eq := rfl
  log_eq := rfl
  held_eq := by
    intro β f hf
    simp [TaskSystem.held, hf.request]

theorem quietMove_connection (w : World) (up : Bool) :
    QuietMove w { w with shared := { w.shared with connected := up } } :=
  ⟨rfl, rfl, fun _ => rfl⟩

/-- A move of the coordinator is quiet or a step of one task. -/
theorem worldStep_cases {cfg : Config} {w w' : World} {m : Move} (h : WorldStep cfg w m w') :
    QuietMove w w' ∨ ∃ t reply before after next sh' es, m = .run t reply ∧
      w.tasks = before ++ t :: after ∧ taskStep cfg reply w.shared t = some (sh', next, es) ∧
      w' = ⟨sh', before ++ next ++ after, w.log ++ es⟩ := by
  cases h with
  | arrive request => exact Or.inl (quietMove_arrive w request)
  | connection up => exact Or.inl (quietMove_connection w up)
  | run hr =>
    cases hr with
    | intro htasks hstep => exact Or.inr ⟨_, _, _, _, _, _, _, rfl, htasks, hstep, rfl⟩
  | notify htasks => exact Or.inl (quietMove_notify htasks)

/-- A move in which no task runs leaves the tasks as they are, up to a wake-up and a new call. -/
theorem worldStep_tasks {cfg : Config} {w w' : World} {m : Move} (h : WorldStep cfg w m w') :
    (QuietMove w w' ∧ ∀ u ∈ w'.tasks, (∃ t ∈ w.tasks, u = t ∨ u = t.notified) ∨
      ∃ request, m = .arrive request ∧ u = .request request) ∨
    ∃ t reply before after next sh' es, m = .run t reply ∧ w.tasks = before ++ t :: after ∧
      taskStep cfg reply w.shared t = some (sh', next, es) ∧
      w' = ⟨sh', before ++ next ++ after, w.log ++ es⟩ := by
  cases h with
  | arrive request =>
    refine Or.inl ⟨quietMove_arrive w request, fun u hu => ?_⟩
    rcases List.mem_append.mp hu with hold | hnew
    · exact Or.inl ⟨u, hold, Or.inl rfl⟩
    · exact Or.inr ⟨request, rfl, List.mem_singleton.mp hnew⟩
  | connection up =>
    exact Or.inl ⟨quietMove_connection w up, fun u hu => Or.inl ⟨u, hu, Or.inl rfl⟩⟩
  | run hr =>
    cases hr with
    | intro htasks hstep => exact Or.inr ⟨_, _, _, _, _, _, _, rfl, htasks, hstep, rfl⟩
  | @notify before after htasks =>
    refine Or.inl ⟨quietMove_notify htasks, fun u hu => Or.inl ?_⟩
    obtain ⟨t, ht, rfl⟩ := List.mem_map.mp hu
    refine ⟨t, ?_, Or.inr rfl⟩
    rw [htasks]
    rcases List.mem_append.mp ht with hb | ha
    · exact List.mem_append_left _ hb
    · exact List.mem_append_right _ (List.mem_cons_of_mem _ ha)

end Quiet

section Registered

def registeredId : Event → Option InstanceId
  | .registered id _ => some id
  | _ => none

/-- The instances registered so far, in order. -/
def registeredIds (log : List Event) : List InstanceId := log.filterMap registeredId

theorem registeredIds_append (log es : List Event) :
    registeredIds (log ++ es) = registeredIds log ++ registeredIds es :=
  List.filterMap_append

variable {cfg : Config} {reply : TaskReply} {sh sh' : Shared} {t : Task} {next : List Task}
  {es : List Event}

theorem keyedById_taskStep (h : taskStep cfg reply sh t = some (sh', next, es))
    (hk : KeyedById sh.st) : KeyedById sh'.st := by
  rw [taskStep_state cfg reply sh h]
  cases taskOp cfg reply t with
  | none => exact hk
  | some op => exact keyedById_apply cfg sh.st op hk

/-- Every pending instance was registered. -/
def PendingKnown (w : World) : Prop :=
  ∀ id xt, w.shared.st.pending.lookup id = some xt → id ∈ registeredIds w.log

theorem pendingKnown_taskStep {log : List Event}
    (h : taskStep cfg reply sh t = some (sh', next, es))
    (hi : ∀ id xt, sh.st.pending.lookup id = some xt → id ∈ registeredIds log) (id : InstanceId)
    (xt : PendingXt) (hl : sh'.st.pending.lookup id = some xt) :
    id ∈ registeredIds (log ++ es) := by
  rw [registeredIds_append, List.mem_append]
  rcases entry_step h hl with ⟨x, hx, -, -⟩ | hnew
  · exact Or.inl (hi id x hx)
  · rw [hnew.events]
    exact Or.inr (by simp [registeredIds, registeredId])

/-- The locked part of a step, if there is one, rolls everything back. -/
def Op.rollsBack : Op → Bool
  | .rollback _ => true
  | _ => false

/-- A decided instance keeps its decision through a step that neither registers it anew nor
rolls back. -/
theorem decision_taskStep (h : taskStep cfg reply sh t = some (sh', next, es)) {id : InstanceId}
    {d : Bool}
    (hno : ∀ op route, taskOp cfg reply t = some op → op.registers cfg sh.st ≠ some (id, route))
    (hroll : ∀ op, taskOp cfg reply t = some op → op.rollsBack = false)
    (hd : ∀ xt, sh.st.pending.lookup id = some xt → xt.decision = some d) {xt' : PendingXt}
    (hl : sh'.st.pending.lookup id = some xt') : xt'.decision = some d := by
  rcases taskStep_op h with ⟨-, hst⟩ | ⟨op, hop, hst⟩
  · rw [hst] at hl
    exact hd xt' hl
  · have hl' : (op.apply cfg sh.st).pending.lookup id = some xt' := by rw [← hst]; exact hl
    obtain ⟨xt, hx, -⟩ := entry_kept (fun route => hno op route hop) hl'
    have hkeeps : KeepsXt cfg id sh.st op (op.apply cfg sh.st) := by
      refine ⟨rfl, fun now he => ?_, fun route => hno op route hop, fun hn => ?_⟩
      · simpa [he, Op.rollsBack] using hroll op hop
      · simp [hn] at hl'
    have hafter := decision_step hkeeps (d := d) (by simp [decisionOf, hx, hd xt hx])
    simpa [decisionOf, hl'] using hafter

theorem rollback_decision {st : CoordinatorState} {now : Instant} {id : InstanceId}
    {xt' : PendingXt} (hl : ((Op.rollback now).apply cfg st).pending.lookup id = some xt') :
    xt'.decision = some false := by
  simp only [Op.apply, rollBack, Map.lookup_mapVals, Option.map_eq_some_iff] at hl
  obtain ⟨xt, -, rfl⟩ := hl
  exact forceAbort_decision xt now

/-- An aborted instance stays aborted, whatever the step, unless it is registered anew. -/
theorem aborted_taskStep (h : taskStep cfg reply sh t = some (sh', next, es)) {id : InstanceId}
    (hno : ∀ op route, taskOp cfg reply t = some op → op.registers cfg sh.st ≠ some (id, route))
    (hd : ∀ xt, sh.st.pending.lookup id = some xt → xt.decision = some false) {xt' : PendingXt}
    (hl : sh'.st.pending.lookup id = some xt') : xt'.decision = some false := by
  by_cases hroll : ∃ now, taskOp cfg reply t = some (.rollback now)
  · obtain ⟨now, hop⟩ := hroll
    rw [taskStep_state cfg reply sh h, hop] at hl
    exact rollback_decision hl
  · have hkeep : ∀ op, taskOp cfg reply t = some op → op.rollsBack = false := by
      intro op hop
      cases op with
      | rollback now => exact absurd ⟨now, hop⟩ hroll
      | _ => rfl
    exact decision_taskStep h hno hkeep hd hl

end Registered

end Sidecar.Coordinator
