import Sidecar.Coordinator.Overlay
import Sidecar.Coordinator.Equivocation

namespace Sidecar.Coordinator

open Mailbox Simulation TaskSystem

section Bases

/-- The overrides that `process_xt` will run its next simulation on. -/
def ProcPc.base : ProcPc → Option StateOverride
  | .verify _ overrides => some overrides
  | .asked _ overrides _ => some overrides
  | .permissions _ overrides => some overrides
  | .permit _ overrides _ _ => some overrides
  | .lock _ overrides => some overrides
  | .setup _ overrides => some overrides
  | .simulate frame => some frame.overrides
  | .record frame _ => some frame.overrides
  | .dispatch frame _ => some frame.overrides
  | .sending frame _ _ => some frame.overrides
  | .waiting frame _ _ => some frame.overrides
  | .refresh frame => some frame.overrides
  | _ => none

def Task.bases : Task → List (InstanceId × StateOverride)
  | .process id pc => (pc.base.map (Prod.mk id)).toList
  | _ => []

/-- The instance that was simulated, and the overrides of the simulation. -/
def simulatedOn : Event → Option (InstanceId × StateOverride)
  | .processed id (.simulated _ _ overrides _ _) => some (id, overrides)
  | _ => none

def simulatedBases (log : List Event) : List (InstanceId × StateOverride) :=
  log.filterMap simulatedOn

theorem lasting_bases : Lasting Task.bases := by
  refine ⟨fun t => ?_, fun _ => rfl, rfl⟩
  cases t with
  | process id pc => cases pc <;> rfl
  | _ => rfl

theorem bases_carries (t : Task) (h : t.carries = false) : t.bases = [] := by
  cases t with
  | process id pc => simp [Task.carries] at h
  | _ => rfl

variable {cfg : Config} {st st' : CoordinatorState} {id : InstanceId}

theorem overrides_recordSimulationState (result : SimulationResult) (base : StateOverride) :
    (recordSimulationState cfg st id result base).2 =
      mergeDiffs base ((Op.recordSimulation id result base).pushes st) := by
  simp only [recordSimulationState, Op.pushes]
  by_cases hm : id ∈ st.pending.keys
  · have hpending : id ∈ st.pending := hm
    rw [if_pos hpending, if_pos hm]
    cases keptOverrides result <;> rfl
  · have hpending : id ∉ st.pending := hm
    rw [if_neg hpending, if_neg hm]
    rfl

theorem base_afterRecord {frame : SimFrame} {result : SimulationResult} {o : StateOverride}
    (h : (afterRecord frame result).base = some o) : o = frame.overrides := by
  unfold afterRecord at h
  split_ifs at h
  · simp [ProcPc.base] at h
  · simp [ProcPc.base] at h
  · exact (Option.some.inj h).symm

theorem base_afterDispatch (frame : SimFrame) (result : SimulationResult) :
    (afterDispatch frame result).base = some frame.overrides := by
  unfold afterDispatch
  split_ifs <;> rfl

/-- `process_xt` takes its overrides from the overlay when it starts; after that it only adds
the diffs that it records itself. -/
theorem procStep_base {reply : Reply} {pc pc' : ProcPc} {events : List ProcEvent}
    (h : procStep cfg id reply st pc = some (st', pc', events)) {o' : StateOverride}
    (hb : pc'.base = some o') :
    (pc = .start ∧ ∃ txs, snapshotXt cfg st id = .ready txs o') ∨
      ∃ o, pc.base = some o ∧
        o' = mergeDiffs o ((procOp cfg id reply pc).elim [] (fun op => op.pushes st)) := by
  cases procStep_effect h with
  | ready hready =>
    obtain rfl := Option.some.inj hb
    exact Or.inl ⟨rfl, _, hready⟩
  | recorded frame result =>
    refine Or.inr ⟨frame.overrides, rfl, ?_⟩
    rw [base_afterRecord hb]
    exact overrides_recordSimulationState result frame.overrides
  | nothingToSend frame result hnone =>
    rw [base_afterDispatch] at hb
    refine Or.inr ⟨frame.overrides, rfl, ?_⟩
    rw [procOp, if_pos hnone]
    exact (Option.some.inj hb).symm
  | claimed frame result hsome =>
    refine Or.inr ⟨frame.overrides, rfl, ?_⟩
    rw [procOp, if_neg (by simp [hsome])]
    exact (Option.some.inj hb).symm
  | allSent frame result =>
    rw [base_afterDispatch] at hb
    exact Or.inr ⟨frame.overrides, rfl, (Option.some.inj hb).symm⟩
  | waits frame deps wait wait' =>
    refine Or.inr ⟨frame.overrides, rfl, ?_⟩
    cases wait <;> exact (Option.some.inj hb).symm
  | missing | noLocalTxs | disapproved | denied | unsimulated | setupGone | allSimulated
    | simulationFailed | undelivered | timedOut | refreshGone | voted => simp [ProcPc.base] at hb
  | asks | unverified | approved | unpermissioned | permissioned | permitted | allowed | locked
    | setup | simulated | sent | served | refreshed =>
    exact Or.inr ⟨_, rfl, (Option.some.inj hb).symm⟩

/-- A simulation runs on the overrides that `process_xt` has then. -/
theorem procStep_simulatedOn {reply : Reply} {pc pc' : ProcPc} {events : List ProcEvent}
    (h : procStep cfg id reply st pc = some (st', pc', events)) {b : InstanceId × StateOverride}
    (hb : b ∈ simulatedBases (events.map (Event.processed id))) : b ∈ Task.bases (.process id pc) := by
  cases procStep_effect h with
  | simulated | simulationFailed => exact hb
  | voted =>
    split_ifs at hb
    · exact absurd hb List.not_mem_nil
    · exact absurd hb List.not_mem_nil
  | _ => exact absurd hb List.not_mem_nil

variable {reply : TaskReply} {sh sh' : Shared} {t : Task} {next : List Task} {es : List Event}

/-- Where the overrides after a step of a task come from. -/
theorem bases_step (h : taskStep cfg reply sh t = some (sh', next, es)) {j : InstanceId}
    {o' : StateOverride} (hb : (j, o') ∈ next.flatMap Task.bases) :
    (t = .process j .start ∧ ∃ txs, snapshotXt cfg sh.st j = .ready txs o') ∨
      ∃ o, (j, o) ∈ t.bases ∧
        o' = mergeDiffs o ((taskOp cfg reply t).elim [] (fun op => op.pushes sh.st)) := by
  rcases handsOn_or_drops (taskStep_effect h) with hand | hdrop
  · cases hand with
    | processed id pc pc' =>
      rcases processStep_cases h with ⟨v, -, -, hn, -⟩ | ⟨-, -, hn, -⟩ |
        ⟨st', pc'', events, hproc, hop, -, hn, -⟩
      · simp at hn
      · simp at hn
      · simp only [List.flatMap_singleton, Task.bases, Option.mem_toList,
          Option.map_eq_some_iff, Prod.mk.injEq] at hb
        obtain ⟨o, hbase, rfl, rfl⟩ := hb
        obtain ⟨-, rfl⟩ := Task.process.inj (List.singleton_inj.mp hn)
        rw [hop]
        rcases procStep_base hproc hbase with ⟨rfl, hready⟩ | ⟨base, hpc, ho⟩
        · exact Or.inl ⟨rfl, hready⟩
        · exact Or.inr ⟨base, by simp [Task.bases, hpc], ho⟩
    | registered =>
      rw [flatMap_submitFirst (fun _ => rfl) rfl] at hb
      exact absurd hb List.not_mem_nil
    | proceeded registrar =>
      obtain ⟨u, hu, hmem⟩ := List.mem_flatMap.mp hb
      rcases mem_registrarNext hu with rfl | ⟨_, _, -, rfl⟩ | ⟨_, _, rfl⟩ <;>
        simp [Task.bases, ProcPc.base] at hmem
    | modeChosen | submitted | notSubmitted | accepted | declined | forwardStarted | resolved
      | processVoted | modeRead => simp [Task.bases, ProcPc.base] at hb
  · simp [flatMap_of_drops bases_carries hdrop] at hb

theorem simulatedOn_step (h : taskStep cfg reply sh t = some (sh', next, es))
    {b : InstanceId × StateOverride} (hb : b ∈ simulatedBases es) : b ∈ t.bases := by
  cases taskStep_effect h with
  | processed id pc pc' events hproc => exact procStep_simulatedOn hproc hb
  | resolved => simp [simulatedBases, answers, simulatedOn] at hb
  | noncesReset => simp [simulatedBases, answers, simulatedOn] at hb
  | _ => exact absurd hb List.not_mem_nil

/-- The diff of an instance is recorded by its own `process_xt`. -/
theorem owner_of_pushes {op : Op} (hop : taskOp cfg reply t = some op) {c : Contribution}
    (hc : c ∈ op.pushes st) : c.id ∈ t.owned := by
  obtain ⟨result, base, rfl, -, -⟩ := of_mem_pushes hc
  cases runsOp_of_taskOp hop with
  | recorded => exact List.mem_singleton.mpr rfl

end Bases

section History

variable (cfg : Config)

/-- The local instance that `handle_start_instance` admits, with its period. -/
def Op.admitsLocal (st : CoordinatorState) : Op → Option (PeriodId × InstanceId)
  | .startInstance inst =>
    if includesLocal cfg inst then
      ((Op.startInstance inst).registers cfg st).map (fun r => (inst.periodId, r.1))
    else none
  | _ => none

/-- What has happened to the local chain so far. -/
structure ChainHistory where
  /-- The diffs recorded since the overlay was last cleared. -/
  overlay : List Contribution := []
  recorded : List Contribution := []
  admitted : List (PeriodId × InstanceId) := []
  /-- The instances admitted since the last new period or rollback. -/
  current : List InstanceId := []
  /-- The local instances of its period that were admitted before an instance. -/
  earlier : InstanceId → List InstanceId := fun _ => []
  aborted : InstanceId → Bool := fun _ => false

def ofPeriod (admitted : List (PeriodId × InstanceId)) (periodId : PeriodId) : List InstanceId :=
  (admitted.filter (fun a => decide (a.1 = periodId))).map Prod.snd

def ChainHistory.after (st : CoordinatorState) (op : Op) (h : ChainHistory) : ChainHistory :=
  { overlay := sinceClear cfg st op h.overlay
    recorded := recordedAfter st op h.recorded
    admitted := h.admitted ++ (op.admitsLocal cfg st).toList
    current :=
      if op.startsOver then [] else h.current ++ (op.admitsLocal cfg st).toList.map Prod.snd
    earlier := fun id => (op.admitsLocal cfg st).elim (h.earlier id)
      (fun a => if a.2 = id then ofPeriod h.admitted a.1 else h.earlier id)
    aborted := fun id => h.aborted id || decide (decisionOf (op.apply cfg st) id = some false) }

/-- Only locked parts are history. -/
def writeHistory (w : World) : Move → ChainHistory → ChainHistory
  | .run t reply, h => (taskOp cfg reply t).elim h (fun op => h.after cfg w.shared.st op)
  | _, h => h

theorem writeHistory_none {cfg : Config} {w : World} {h : ChainHistory} {t : Task}
    {reply : TaskReply} (hop : taskOp cfg reply t = none) :
    writeHistory cfg w (.run t reply) h = h := by
  simp [writeHistory, hop]

theorem writeHistory_op {cfg : Config} {w : World} {h : ChainHistory} {t : Task}
    {reply : TaskReply} {op : Op} (hop : taskOp cfg reply t = some op) :
    writeHistory cfg w (.run t reply) h = h.after cfg w.shared.st op := by
  simp [writeHistory, hop]

def diffsOf (id : InstanceId) (contributions : List Contribution) : List Contribution :=
  contributions.filter (fun c => decide (c.id = id))

/-- The overrides are recorded diffs merged in recording order, and no diff of an earlier
instance is left out, unless the instance is aborted. -/
def SeesEarlier (h : ChainHistory) (id : InstanceId) (overrides : StateOverride) : Prop :=
  ∃ base, List.Sublist base h.recorded ∧ sets overrides = sets (mergeDiffs ∅ base) ∧
    ∀ i ∈ h.earlier id, h.aborted i = false → diffsOf i base = diffsOf i h.recorded

/-- The task is about to run `process_xt` from its start. -/
def Task.starting : Task → Option InstanceId
  | .process id .start => some id
  | _ => none

/-- A move that keeps the sequence: `process_xt` starts when each earlier instance of the period
is aborted or has been brought to its vote since the period began, the overlay is not dropped
with diffs of instances that are not aborted, and no id is registered a second time. -/
def KeepsSequence (w : World) (h : ChainHistory) : Move → Prop
  | .run t reply =>
    (∀ id ∈ t.starting, ∀ i ∈ h.earlier id,
        h.aborted i = true ∨ (i ∈ h.current ∧ i ∉ w.held Task.owned)) ∧
      ∀ op ∈ taskOp cfg reply t,
        (∀ c ∈ h.overlay, h.aborted c.id = true ∨ sparesOverlay cfg c.id w.shared.st op = true) ∧
        ∀ r ∈ op.registers cfg w.shared.st, r.1 ∉ registeredIds w.log
  | _ => True

instance (w : World) (h : ChainHistory) : DecidablePred (KeepsSequence cfg w h)
  | .run _ _ => inferInstanceAs (Decidable (_ ∧ _))
  | .arrive _ | .connection _ | .notify => inferInstanceAs (Decidable True)

end History

section Invariant

variable {cfg : Config} {w : World} {h : ChainHistory} {t : Task} {reply : TaskReply}
  {before after next : List Task} {sh' : Shared} {es : List Event}

theorem diffsOf_append (id : InstanceId) (l more : List Contribution) :
    diffsOf id (l ++ more) = diffsOf id l ++ diffsOf id more :=
  List.filter_append l more

theorem diffsOf_eq_nil {id : InstanceId} {l : List Contribution} (h : ∀ c ∈ l, c.id ≠ id) :
    diffsOf id l = [] := by
  rw [diffsOf, List.filter_eq_nil_iff]
  intro c hc
  simpa using h c hc

/-- Whom the history names. -/
structure HistoryKnown (known : List InstanceId) (h : ChainHistory) : Prop where
  recorded : ∀ c ∈ h.recorded, c.id ∈ known
  admitted : ∀ a ∈ h.admitted, a.2 ∈ known
  current : ∀ id ∈ h.current, id ∈ known
  earlier : ∀ id, ∀ i ∈ h.earlier id, i ∈ known

/-- The overlay is what was recorded since it was last cleared. Of the instances of the period
that are not aborted it has every diff. -/
structure OverlayWhole (cfg : Config) (st : CoordinatorState) (h : ChainHistory) : Prop where
  merged : localOverlay cfg st = mergeDiffs ∅ h.overlay
  sublist : List.Sublist h.overlay h.recorded
  whole : ∀ i ∈ h.current, h.aborted i = false → diffsOf i h.overlay = diffsOf i h.recorded

/-- What is known of a simulation and of those still to come: it sees the earlier instances,
and they have nothing more to record. -/
structure BaseOk (w : World) (h : ChainHistory) (b : InstanceId × StateOverride) : Prop where
  known : b.1 ∈ registeredIds w.log
  sees : SeesEarlier h b.1 b.2
  finished : ∀ i ∈ h.earlier b.1, h.aborted i = false → i ∉ w.held Task.owned

structure IsolationInv (cfg : Config) (w : World) (h : ChainHistory) : Prop where
  ownedKnown : ∀ id ∈ w.held Task.owned, id ∈ registeredIds w.log
  historyKnown : HistoryKnown (registeredIds w.log) h
  overlay : OverlayWhole cfg w.shared.st h
  bases : ∀ b ∈ w.dealt Task.bases simulatedOn, BaseOk w h b

section Ops

variable {st : CoordinatorState} {op : Op}

theorem Op.admitsLocal_registers {a : PeriodId × InstanceId} (ha : op.admitsLocal cfg st = some a) :
    ∃ route, op.registers cfg st = some (a.2, route) := by
  cases op with
  | startInstance inst =>
    simp only [Op.admitsLocal] at ha
    split_ifs at ha
    obtain ⟨r, hr, rfl⟩ := Option.map_eq_some_iff.mp ha
    exact ⟨r.2, hr⟩
  | _ => simp [Op.admitsLocal] at ha

theorem Op.pushes_of_clears (hc : op.clearsOverlay cfg st = true) : op.pushes st = [] := by
  cases op with
  | recordSimulation id result base => simp [Op.clearsOverlay, Op.startsOver, Op.abortsLocal] at hc
  | _ => rfl

theorem aborted_after (h : ChainHistory) {i : InstanceId}
    (ha : (h.after cfg st op).aborted i = false) :
    h.aborted i = false ∧ decisionOf (op.apply cfg st) i ≠ some false := by
  simpa [ChainHistory.after] using ha

theorem mem_admitted_after {h : ChainHistory} {a : PeriodId × InstanceId}
    (ha : a ∈ (h.after cfg st op).admitted) : a ∈ h.admitted ∨ op.admitsLocal cfg st = some a := by
  simpa [ChainHistory.after] using ha

theorem mem_current_after {h : ChainHistory} {i : InstanceId}
    (hi : i ∈ (h.after cfg st op).current) :
    op.startsOver = false ∧ (i ∈ h.current ∨ ∃ periodId, op.admitsLocal cfg st = some (periodId, i)) := by
  simp only [ChainHistory.after] at hi
  split_ifs at hi with hover
  · simp at hi
  · refine ⟨by simpa using hover, ?_⟩
    simpa using hi

/-- The instances before another change only when it is admitted. -/
theorem earlier_after (h : ChainHistory) (id : InstanceId) :
    (h.after cfg st op).earlier id = h.earlier id ∨
      ∃ periodId, op.admitsLocal cfg st = some (periodId, id) ∧
        (h.after cfg st op).earlier id = ofPeriod h.admitted periodId := by
  simp only [ChainHistory.after]
  cases ha : op.admitsLocal cfg st with
  | none => exact Or.inl rfl
  | some a =>
    by_cases hid : a.2 = id
    · right
      subst hid
      exact ⟨a.1, rfl, by simp⟩
    · left
      simp [hid]

/-- With nothing registered anew, the history names registered instances only. -/
theorem historyKnown_after {known known' : List InstanceId} (hk : HistoryKnown known h)
    (hsub : known ⊆ known') (hreg : ∀ r ∈ op.registers cfg st, r.1 ∈ known')
    (hpush : ∀ c ∈ op.pushes st, c.id ∈ known) : HistoryKnown known' (h.after cfg st op) where
  recorded := by
    intro c hc
    rcases List.mem_append.mp hc with hold | hnew
    · exact hsub (hk.recorded c hold)
    · exact hsub (hpush c hnew)
  admitted := by
    intro a ha
    rcases mem_admitted_after ha with hold | hnew
    · exact hsub (hk.admitted a hold)
    · obtain ⟨route, hr⟩ := Op.admitsLocal_registers hnew
      exact hreg _ hr
  current := by
    intro id hid
    rcases (mem_current_after hid).2 with hold | ⟨periodId, hnew⟩
    · exact hsub (hk.current id hold)
    · obtain ⟨route, hr⟩ := Op.admitsLocal_registers hnew
      exact hreg _ hr
  earlier := by
    intro id i hi
    rcases @earlier_after cfg st op h id with hsame | ⟨periodId, -, hnew⟩
    · rw [hsame] at hi
      exact hsub (hk.earlier id i hi)
    · rw [hnew] at hi
      obtain ⟨a, ha, rfl⟩ := List.mem_map.mp hi
      exact hsub (hk.admitted a (List.mem_filter.mp ha).1)

/-- Of an instance of the period, admitted before or just now, the overlay had every diff. -/
theorem whole_before {known : List InstanceId} (hk : HistoryKnown known h)
    (ho : OverlayWhole cfg st h) (hfresh : ∀ r ∈ op.registers cfg st, r.1 ∉ known) {i : InstanceId}
    (hi : i ∈ (h.after cfg st op).current) (halive : h.aborted i = false) :
    diffsOf i h.overlay = diffsOf i h.recorded := by
  rcases (mem_current_after hi).2 with hold | ⟨periodId, hnew⟩
  · exact ho.whole i hold halive
  · obtain ⟨route, hr⟩ := Op.admitsLocal_registers hnew
    have hnone : ∀ c ∈ h.recorded, c.id ≠ i := by
      intro c hc he
      exact hfresh _ hr (he ▸ hk.recorded c hc)
    rw [diffsOf_eq_nil hnone, diffsOf_eq_nil (fun c hc => hnone c (ho.sublist.subset hc))]

theorem overlayWhole_after {known : List InstanceId} (hk : HistoryKnown known h)
    (ho : OverlayWhole cfg st h) (hfresh : ∀ r ∈ op.registers cfg st, r.1 ∉ known)
    (hspares : ∀ c ∈ h.overlay, h.aborted c.id = true ∨ sparesOverlay cfg c.id st op = true) :
    OverlayWhole cfg (op.apply cfg st) (h.after cfg st op) where
  merged := merged_step op ho.merged
  sublist := by
    show List.Sublist (sinceClear cfg st op h.overlay) (h.recorded ++ op.pushes st)
    unfold sinceClear
    split_ifs
    · exact List.nil_sublist _
    · exact ho.sublist.append (List.Sublist.refl _)
  whole := by
    intro i hi halive
    obtain ⟨hbefore, hdecision⟩ := aborted_after h halive
    have hwhole := whole_before hk ho hfresh hi hbefore
    show diffsOf i (sinceClear cfg st op h.overlay) = diffsOf i (h.recorded ++ op.pushes st)
    cases hclear : op.clearsOverlay cfg st with
    | false =>
      rw [sinceClear, hclear, if_neg (by simp), diffsOf_append, diffsOf_append, hwhole]
    | true =>
      -- a diff of the instance in the overlay would have kept the overlay
      have hnone : ∀ c ∈ h.overlay, c.id ≠ i := by
        intro c hc he
        rcases hspares c hc with haborted | hspare
        · rw [he, hbefore] at haborted
          simp at haborted
        · rw [he] at hspare
          simp [clearsOverlay_spared (mem_current_after hi).1 hdecision hspare] at hclear
      rw [sinceClear, hclear, if_pos rfl, Op.pushes_of_clears hclear, List.append_nil, ← hwhole,
        diffsOf_eq_nil hnone]
      rfl

/-- What others record does not matter to a simulation whose earlier instances are finished. -/
theorem seesEarlier_after {id : InstanceId} {overrides : StateOverride}
    (hs : SeesEarlier h id overrides)
    (hadmits : ∀ periodId, op.admitsLocal cfg st ≠ some (periodId, id))
    (hothers : ∀ i ∈ h.earlier id, h.aborted i = false → ∀ c ∈ op.pushes st, c.id ≠ i) :
    SeesEarlier (h.after cfg st op) id overrides := by
  obtain ⟨base, hsub, hsets, hall⟩ := hs
  refine ⟨base, hsub.trans (List.sublist_append_left _ _), hsets, ?_⟩
  intro i hi halive
  have hbefore := (aborted_after h halive).1
  rcases @earlier_after cfg st op h id with hsame | ⟨periodId, hnew, -⟩
  · rw [hsame] at hi
    show diffsOf i base = diffsOf i (h.recorded ++ op.pushes st)
    rw [diffsOf_append, diffsOf_eq_nil (hothers i hi hbefore), List.append_nil]
    exact hall i hi hbefore
  · exact absurd hnew (hadmits periodId)

/-- The diffs that a `process_xt` records itself go into its overrides too. -/
theorem seesEarlier_pushes {id : InstanceId} {overrides : StateOverride}
    (hs : SeesEarlier h id overrides)
    (hadmits : ∀ periodId, op.admitsLocal cfg st ≠ some (periodId, id)) :
    SeesEarlier (h.after cfg st op) id (mergeDiffs overrides (op.pushes st)) := by
  obtain ⟨base, hsub, hsets, hall⟩ := hs
  refine ⟨base ++ op.pushes st, hsub.append (List.Sublist.refl _), ?_, ?_⟩
  · rw [sets_mergeDiffs, hsets, sets_mergeDiffs, sets_mergeDiffs, List.map_append,
      List.foldl_append]
  · intro i hi halive
    rcases @earlier_after cfg st op h id with hsame | ⟨periodId, hnew, -⟩
    · rw [hsame] at hi
      show diffsOf i (base ++ op.pushes st) = diffsOf i (h.recorded ++ op.pushes st)
      rw [diffsOf_append, diffsOf_append, hall i hi (aborted_after h halive).1]
    · exact absurd hnew (hadmits periodId)

end Ops

section Steps

theorem isolationInv_initial : IsolationInv cfg World.initial {} where
  ownedKnown := by simp [World.initial, held]
  historyKnown := by constructor <;> simp
  overlay := ⟨rfl, List.Sublist.refl _, by simp⟩
  bases := by simp [World.initial, dealt, held]

theorem isolationInv_quiet {w' : World} (hq : QuietMove w w') (hi : IsolationInv cfg w h) :
    IsolationInv cfg w' h := by
  have howned : w'.held Task.owned = w.held Task.owned := hq.held_eq lasting_owned
  have hdealt : w'.dealt Task.bases simulatedOn = w.dealt Task.bases simulatedOn := by
    exact hq.dealt_eq lasting_bases
  constructor
  · rw [howned, hq.log_eq]
    exact hi.ownedKnown
  · rw [hq.log_eq]
    exact hi.historyKnown
  · rw [hq.st_eq]
    exact hi.overlay
  · intro b hb
    rw [hdealt] at hb
    have hok := hi.bases b hb
    exact ⟨hq.log_eq ▸ hok.known, hok.sees, howned ▸ hok.finished⟩

variable (htasks : w.tasks = before ++ t :: after)
  (hstep : taskStep cfg reply w.shared t = some (sh', next, es))
  (hg : KeepsSequence cfg w h (.run t reply)) (hi : IsolationInv cfg w h)

include htasks hstep hg in
/-- An instance with nothing more to record stays so. -/
theorem finished_after {i : InstanceId} (hknown : i ∈ registeredIds w.log)
    (hfree : i ∉ w.held Task.owned) : i ∉ (before ++ next ++ after).flatMap Task.owned := by
  intro ho
  rcases owned_after htasks hstep ho with hold | ⟨op, route, hop, hr⟩
  · exact hfree hold
  · exact (hg.2 op hop).2 _ hr hknown

include htasks in
/-- Whoever records a diff is not among the finished. -/
theorem pushes_unfinished {op : Op} (hop : taskOp cfg reply t = some op) {c : Contribution}
    (hc : c ∈ op.pushes w.shared.st) : c.id ∈ w.held Task.owned :=
  mem_held.mpr ⟨t, mem_of_split htasks, owner_of_pushes hop hc⟩

include hg in
/-- An instance that is known is not admitted again. -/
theorem admits_known {op : Op} (hop : taskOp cfg reply t = some op) {id : InstanceId}
    (hknown : id ∈ registeredIds w.log) (periodId : PeriodId) :
    op.admitsLocal cfg w.shared.st ≠ some (periodId, id) := by
  intro ha
  obtain ⟨route, hr⟩ := Op.admitsLocal_registers ha
  exact (hg.2 op hop).2 _ hr hknown

include hg in
theorem earlier_written {id : InstanceId} (hknown : id ∈ registeredIds w.log) :
    (writeHistory cfg w (.run t reply) h).earlier id = h.earlier id := by
  cases hop : taskOp cfg reply t with
  | none => rw [writeHistory_none hop]
  | some op =>
    rw [writeHistory_op hop]
    rcases @earlier_after cfg w.shared.st op h id with hsame | ⟨periodId, hnew, -⟩
    · exact hsame
    · exact absurd hnew (admits_known hg hop hknown periodId)

theorem aborted_written {i : InstanceId}
    (ha : (writeHistory cfg w (.run t reply) h).aborted i = false) : h.aborted i = false := by
  cases hop : taskOp cfg reply t with
  | none =>
    rw [writeHistory_none hop] at ha
    exact ha
  | some op =>
    rw [writeHistory_op hop] at ha
    exact (aborted_after h ha).1

include htasks hstep hg hi in
/-- Once they are finished, the earlier instances of a simulation stay so. -/
theorem earlier_finished_after {id : InstanceId} (hknown : id ∈ registeredIds w.log)
    (hfinished : ∀ i ∈ h.earlier id, h.aborted i = false → i ∉ w.held Task.owned)
    (i : InstanceId) (hmem : i ∈ (writeHistory cfg w (.run t reply) h).earlier id)
    (halive : (writeHistory cfg w (.run t reply) h).aborted i = false) :
    i ∉ (before ++ next ++ after).flatMap Task.owned := by
  rw [earlier_written hg hknown] at hmem
  exact finished_after htasks hstep hg (hi.historyKnown.earlier id i hmem)
    (hfinished i hmem (aborted_written halive))

include htasks hstep hg hi in
/-- What was known of a simulation stays so, whatever is recorded now. -/
theorem baseOk_kept {b : InstanceId × StateOverride} (hb : BaseOk w h b) :
    BaseOk ⟨sh', before ++ next ++ after, w.log ++ es⟩ (writeHistory cfg w (.run t reply) h) b where
  known := by
    rw [registeredIds_append]
    exact List.mem_append_left _ hb.known
  sees := by
    cases hop : taskOp cfg reply t with
    | none =>
      rw [writeHistory_none hop]
      exact hb.sees
    | some op =>
      rw [writeHistory_op hop]
      refine seesEarlier_after hb.sees (admits_known hg hop hb.known) ?_
      intro i hmem halive c hc he
      exact hb.finished i hmem halive (he ▸ pushes_unfinished htasks hop hc)
  finished := earlier_finished_after htasks hstep hg hi hb.known hb.finished

include htasks hstep hg hi in
/-- `process_xt` starts on an overlay with every diff of the earlier instances. -/
theorem baseOk_started {id : InstanceId} {txs : List Bytes} {overrides : StateOverride}
    (ht : t = .process id .start)
    (hready : snapshotXt cfg w.shared.st id = .ready txs overrides) :
    BaseOk ⟨sh', before ++ next ++ after, w.log ++ es⟩ (writeHistory cfg w (.run t reply) h)
      (id, overrides) := by
  have howned : id ∈ w.held Task.owned :=
    mem_held.mpr ⟨t, mem_of_split htasks, by simp [ht, Task.owned]⟩
  have horder := hg.1 id (by simp [ht, Task.starting])
  have hfinished : ∀ i ∈ h.earlier id, h.aborted i = false →
      i ∈ h.current ∧ i ∉ w.held Task.owned := by
    intro i hmem halive
    exact (horder i hmem).resolve_left (by simp [halive])
  have hsees : SeesEarlier h id overrides := by
    refine ⟨h.overlay, hi.overlay.sublist, ?_, ?_⟩
    · rw [sets_snapshotXt hready, hi.overlay.merged]
    · intro i hmem halive
      exact hi.overlay.whole i (hfinished i hmem halive).1 halive
  exact baseOk_kept htasks hstep hg hi ⟨hi.ownedKnown id howned, hsees,
    fun i hmem halive => (hfinished i hmem halive).2⟩

include htasks hstep hg hi in
theorem baseOk_merged {id : InstanceId} {overrides : StateOverride}
    (hb : BaseOk w h (id, overrides)) :
    BaseOk ⟨sh', before ++ next ++ after, w.log ++ es⟩ (writeHistory cfg w (.run t reply) h)
      (id, mergeDiffs overrides
        ((taskOp cfg reply t).elim [] (fun op => op.pushes w.shared.st))) where
  known := (baseOk_kept htasks hstep hg hi hb).known
  sees := by
    cases hop : taskOp cfg reply t with
    | none =>
      rw [writeHistory_none hop]
      exact hb.sees
    | some op =>
      rw [writeHistory_op hop]
      exact seesEarlier_pushes hb.sees (admits_known hg hop hb.known)
  finished := earlier_finished_after htasks hstep hg hi hb.known hb.finished

include htasks hstep hg hi in
theorem bases_after (b : InstanceId × StateOverride)
    (hb : b ∈ dealt Task.bases simulatedOn
      (⟨sh', before ++ next ++ after, w.log ++ es⟩ : World)) :
    BaseOk ⟨sh', before ++ next ++ after, w.log ++ es⟩ (writeHistory cfg w (.run t reply) h) b := by
  rcases dealt_of_split htasks (fun b hb => simulatedOn_step hstep hb) hb with hold | hnext
  · exact baseOk_kept htasks hstep hg hi (hi.bases b hold)
  · rcases bases_step hstep hnext with ⟨ht, txs, hready⟩ | ⟨o, ho, he⟩
    · exact baseOk_started htasks hstep hg hi ht hready
    · have hheld : (b.1, o) ∈ w.held Task.bases := mem_held.mpr ⟨t, mem_of_split htasks, ho⟩
      have hok := baseOk_merged htasks hstep hg hi (hi.bases _ (List.mem_append_left _ hheld))
      rw [← he] at hok
      exact hok

include htasks hstep hg hi in
theorem isolationInv_run :
    IsolationInv cfg ⟨sh', before ++ next ++ after, w.log ++ es⟩
      (writeHistory cfg w (.run t reply) h) where
  ownedKnown := ownedKnown_step htasks hstep hi.ownedKnown
  historyKnown := by
    have hsub : registeredIds w.log ⊆ registeredIds (w.log ++ es) := by
      rw [registeredIds_append]
      exact List.subset_append_left _ _
    cases hop : taskOp cfg reply t with
    | none =>
      rw [writeHistory_none hop]
      have hk := hi.historyKnown
      exact ⟨fun c hc => hsub (hk.recorded c hc), fun a ha => hsub (hk.admitted a ha),
        fun i hc => hsub (hk.current i hc), fun i j hj => hsub (hk.earlier i j hj)⟩
    | some op =>
      rw [writeHistory_op hop]
      refine historyKnown_after hi.historyKnown hsub ?_ ?_
      · intro r hr
        rw [registeredIds_append]
        exact List.mem_append_right _ (registeredIds_of_registers hstep hop hr)
      · intro c hc
        exact hi.ownedKnown c.id (pushes_unfinished htasks hop hc)
  overlay := by
    rcases taskStep_op hstep with ⟨hop, hst⟩ | ⟨op, hop, hst⟩
    · rw [writeHistory_none hop]
      show OverlayWhole cfg sh'.st h
      rw [hst]
      exact hi.overlay
    · rw [writeHistory_op hop]
      show OverlayWhole cfg sh'.st (h.after cfg w.shared.st op)
      rw [hst]
      exact overlayWhole_after hi.historyKnown hi.overlay (hg.2 op hop).2 (hg.2 op hop).1
  bases := bases_after htasks hstep hg hi

end Steps

theorem isolationInv_step {m : Move} {w' : World} (hs : WorldStep cfg w m w')
    (hg : KeepsSequence cfg w h m) (hi : IsolationInv cfg w h) :
    IsolationInv cfg w' (writeHistory cfg w m h) := by
  cases hs with
  | arrive request => exact isolationInv_quiet (quietMove_arrive w request) hi
  | connection up => exact isolationInv_quiet (quietMove_connection w up) hi
  | notify htasks => exact isolationInv_quiet (quietMove_notify htasks) hi
  | run hr =>
    cases hr with
    | intro htasks hstep => exact isolationInv_run htasks hstep hg hi

/-- Sequential isolation: in every run whose moves keep the sequence, every simulation ran on
overrides with all recorded diffs of the earlier instances of its period that are not aborted,
whatever the vote was. -/
theorem simulations_see_earlier {moves : List Move}
    (hrun : Run (fun s m s' => Recorded (WorldStep cfg) (writeHistory cfg) s m s' ∧
      KeepsSequence cfg s.1 s.2 m) (World.initial, {}) moves (w, h))
    {id : InstanceId} {overrides : StateOverride} (hsim : (id, overrides) ∈ simulatedBases w.log) :
    SeesEarlier h id overrides := by
  have hinv : IsolationInv cfg w h := by
    refine hrun.invariant (I := fun s => IsolationInv cfg s.1 s.2) ?_ isolationInv_initial
    intro s m s' hi hs
    obtain ⟨⟨hmove, hhistory⟩, hg⟩ := hs
    rw [hhistory]
    exact isolationInv_step hmove hg hi
  exact (hinv.bases _ (List.mem_append_right _ hsim)).sees

/-- Every merged diff is seen, up to those merged after it. -/
theorem mergeDiffs_shows (start : StateOverride) (l more : List Contribution) (c : Contribution) :
    (sets (mergeDiffs start (l ++ c :: more))).Shows (sets c.diff)
      (more.map (fun c => sets c.diff)) := by
  rw [sets_mergeDiffs, List.map_append, List.map_cons, List.foldl_append, List.foldl_cons]
  exact (Patch.shows_andThen _ (sets c.diff)).foldl _

/-- A cell that an earlier instance set is set for the simulation. -/
theorem SeesEarlier.sets_cell {id : InstanceId} {overrides : StateOverride}
    (hs : SeesEarlier h id overrides) {c : Contribution} (hc : c ∈ h.recorded)
    (hearlier : c.id ∈ h.earlier id) (halive : h.aborted c.id = false) {cell : Cell}
    {v : cell.Value} (hv : sets c.diff cell = some v) : ∃ v', sets overrides cell = some v' := by
  obtain ⟨base, -, hsets, hall⟩ := hs
  have hbase : c ∈ diffsOf c.id base := by
    rw [hall c.id hearlier halive]
    exact List.mem_filter.mpr ⟨hc, by simp⟩
  obtain ⟨l, more, rfl⟩ := List.append_of_mem (List.mem_filter.mp hbase).1
  obtain ⟨r, -, v', -, hset⟩ := mergeDiffs_shows ∅ l more c cell v hv
  exact ⟨v', by rw [hsets, hset]⟩

/-- A coordinator of chain 1 with a simulator and a publisher. -/
def simulatingConfig : Config := { Config.bare 1 with simulator := true, publisher := true }

/-- Every simulation succeeds and leaves `nonceDiff`. -/
def simulatedReply : TaskReply := { proc := { simulation := .ok (nonceResult true) } }

/-- Two instances are admitted one after the other, and `process_xt` is spawned for both. -/
def admitTwo : List Pick :=
  [.connection true, .arrive (.startPeriod 1), .run 0 {}, .run 0 {},
    .arrive (.startInstance (periodMessage 1))] ++ List.replicate 4 (.run 0 {}) ++
    [.arrive (.startInstance (periodMessage 2))] ++ List.replicate 4 (.run 1 {})

/-- The first instance is brought to its vote, then the second. -/
def oneAfterTheOther : List Pick := admitTwo ++ List.replicate 28 (.run 0 simulatedReply)

/-- Both take their overrides before the first has recorded anything. -/
def sideBySide : List Pick :=
  admitTwo ++ [.run 0 {}, .run 1 {}] ++ List.replicate 26 (.run 0 simulatedReply)

/-- What is seen of a run of the two. -/
structure TwoSeen where
  votes : List (Bytes × Bool)
  simulations : List (InstanceId × Option Nat)
  recorded : List (InstanceId × Option Nat)
  earlier : List InstanceId
  aborted : Bool
  deriving DecidableEq

def twoSeen (s : World × ChainHistory) : TwoSeen :=
  { votes := sentVotes s.1.log
    simulations := (simulatedBases s.1.log).map (fun b => (b.1, nonceUnder b.2))
    recorded := s.2.recorded.map (fun c => (c.id, nonceUnder c.diff))
    earlier := s.2.earlier (periodInstanceId 2)
    aborted := s.2.aborted (periodInstanceId 1) }

/-- Both instances are voted to commit, and the second one's simulation found `nonce`. -/
def bothCommitted (nonce : Option Nat) : TwoSeen :=
  { votes := [(List.replicate 32 1, true), (List.replicate 32 2, true)]
    simulations := [(periodInstanceId 1, none), (periodInstanceId 2, nonce)]
    recorded := [(periodInstanceId 1, some 1), (periodInstanceId 2, some 1)]
    earlier := [periodInstanceId 1]
    aborted := false }

theorem secondSimulated {s : World × ChainHistory} {nonce : Option Nat}
    (hseen : twoSeen s = bothCommitted nonce) :
    ∃ overrides, (periodInstanceId 2, overrides) ∈ simulatedBases s.1.log ∧
      nonceUnder overrides = nonce := by
  have hsims : (simulatedBases s.1.log).map (fun b => (b.1, nonceUnder b.2)) =
      [(periodInstanceId 1, none), (periodInstanceId 2, nonce)] := congrArg TwoSeen.simulations hseen
  have hmem : (periodInstanceId 2, nonce) ∈
      (simulatedBases s.1.log).map (fun b => (b.1, nonceUnder b.2)) := by simp [hsims]
  obtain ⟨b, hb, he⟩ := List.mem_map.mp hmem
  obtain ⟨hid, hnonce⟩ := Prod.mk.inj he
  rw [← hid]
  exact ⟨b.2, hb, hnonce⟩

theorem simulations_see_earlier_in_order : ∃ moves w h overrides,
    Run (fun s m s' => Recorded (WorldStep simulatingConfig) (writeHistory simulatingConfig) s m s' ∧
      KeepsSequence simulatingConfig s.1 s.2 m) (World.initial, {}) moves (w, h) ∧
    twoSeen (w, h) = bothCommitted (some 1) ∧
    (periodInstanceId 2, overrides) ∈ simulatedBases w.log ∧ nonceUnder overrides = some 1 ∧
    SeesEarlier h (periodInstanceId 2) overrides := by
  have hexec : (execAll (recordPick (pickStep simulatingConfig) (writeHistory simulatingConfig))
      (fun s m => decide (KeepsSequence simulatingConfig s.1 s.2 m)) oneAfterTheOther
      (World.initial, {})).map twoSeen = some (bothCommitted (some 1)) := by decide +kernel
  obtain ⟨s, hs, hseen⟩ := Option.map_eq_some_iff.mp hexec
  obtain ⟨moves, hrun⟩ := run_execAll (recorded_of_recordPick worldStep_of_pick) hs
  obtain ⟨overrides, hsim, hnonce⟩ := secondSimulated hseen
  exact ⟨moves, s.1, s.2, overrides, hrun, hseen, hsim, hnonce, simulations_see_earlier hrun hsim⟩

/-- Both instances take their overrides first; the second is simulated as if the first did not
exist, and both are voted to commit. -/
theorem simulated_side_by_side : ∃ moves w h overrides,
    Run (Recorded (WorldStep simulatingConfig) (writeHistory simulatingConfig)) (World.initial, {})
      moves (w, h) ∧
    twoSeen (w, h) = bothCommitted none ∧
    (periodInstanceId 2, overrides) ∈ simulatedBases w.log ∧
    ¬SeesEarlier h (periodInstanceId 2) overrides := by
  have hexec : (execAll (recordPick (pickStep simulatingConfig) (writeHistory simulatingConfig))
      (fun _ _ => true) sideBySide (World.initial, {})).map twoSeen =
        some (bothCommitted none) := by decide +kernel
  obtain ⟨s, hs, hseen⟩ := Option.map_eq_some_iff.mp hexec
  obtain ⟨moves, hrun⟩ := run_execAll_free (recorded_of_recordPick worldStep_of_pick) hs
  obtain ⟨overrides, hsim, hnonce⟩ := secondSimulated hseen
  refine ⟨moves, s.1, s.2, overrides, hrun, hseen, hsim, ?_⟩
  intro hsees
  have hrecorded : s.2.recorded.map (fun c => (c.id, nonceUnder c.diff)) =
      [(periodInstanceId 1, some 1), (periodInstanceId 2, some 1)] :=
    congrArg TwoSeen.recorded hseen
  have hmem : (periodInstanceId 1, some 1) ∈
      s.2.recorded.map (fun c => (c.id, nonceUnder c.diff)) := by simp [hrecorded]
  obtain ⟨c, hc, he⟩ := List.mem_map.mp hmem
  obtain ⟨hid, hcell⟩ := Prod.mk.inj he
  have hearlier : s.2.earlier (periodInstanceId 2) = [periodInstanceId 1] :=
    congrArg TwoSeen.earlier hseen
  have halive : s.2.aborted (periodInstanceId 1) = false := congrArg TwoSeen.aborted hseen
  obtain ⟨v, hv⟩ := hsees.sets_cell hc (by simp [hid, hearlier]) (hid ▸ halive) hcell
  have hset : nonceUnder overrides = some v := hv
  simp [hnonce] at hset

end Invariant

end Sidecar.Coordinator
