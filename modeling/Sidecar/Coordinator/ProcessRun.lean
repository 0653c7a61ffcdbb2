import Sidecar.Coordinator.Commands
import Sidecar.Coordinator.Process

namespace Sidecar.Coordinator

/-- One `process_xt` beside the rest of the coordinator. -/
structure ProcSystem where
  st : CoordinatorState
  pc : ProcPc
  log : List ProcEvent

inductive ProcMove where
  | proc (reply : Reply)
  | notify
  | env (op : Op)

/-- Every interleaving of one `process_xt` with notifications and with the locked parts of
all other tasks; only a new registration of the instance itself is left out. -/
inductive ProcStep (cfg : Config) (id : InstanceId) : ProcSystem → ProcMove → ProcSystem → Prop
  | proc {s : ProcSystem} {reply : Reply} {st' : CoordinatorState} {pc' : ProcPc}
      {events : List ProcEvent} (h : procStep cfg id reply s.st s.pc = some (st', pc', events)) :
      ProcStep cfg id s (.proc reply) ⟨st', pc', s.log ++ events⟩
  | notify (s : ProcSystem) : ProcStep cfg id s .notify { s with pc := s.pc.notified }
  | env {s : ProcSystem} {op : Op} (h : ∀ route, op.registers cfg s.st ≠ some (id, route)) :
      ProcStep cfg id s (.env op) { s with st := op.apply cfg s.st }

def castOf : ProcEvent → Option Bool
  | .cast vote => some vote
  | _ => none

/-- The votes that `process_xt` cast on the pending instance. -/
def casts (log : List ProcEvent) : List Bool := log.filterMap castOf

theorem casts_append (log events : List ProcEvent) :
    casts (log ++ events) = casts log ++ casts events :=
  List.filterMap_append

/-- `process_xt` has returned. -/
def ProcPc.returned : ProcPc → Bool
  | .finished => true
  | _ => false

theorem ProcPc.eq_finished {pc : ProcPc} (h : pc.returned = true) : pc = .finished := by
  cases pc <;> simp [ProcPc.returned] at h ⊢

/-- Runs `process_xt` alone on the given answers. -/
def procExec (cfg : Config) (id : InstanceId) : List Reply → ProcSystem → Option ProcSystem
  | [], s => some s
  | reply :: replies, s =>
    match procStep cfg id reply s.st s.pc with
    | none => none
    | some (st', pc', events) => procExec cfg id replies ⟨st', pc', s.log ++ events⟩

/-- The dependencies that `process_xt` gives to the simulator. -/
def ProcPc.fulfilled : ProcPc → List CrossRollupDependency
  | .simulate frame | .record frame _ | .dispatch frame _ | .sending frame _ _
  | .waiting frame _ _ | .refresh frame => frame.fulfilled
  | _ => []

section Run

variable {cfg : Config} {id : InstanceId}

theorem run_procExec {replies : List Reply} {s t : ProcSystem}
    (h : procExec cfg id replies s = some t) :
    Run (ProcStep cfg id) s (replies.map ProcMove.proc) t := by
  induction replies generalizing s with
  | nil =>
    obtain rfl := Option.some.inj h
    exact .nil _
  | cons reply replies ih =>
    cases hstep : procStep cfg id reply s.st s.pc with
    | none => simp [procExec, hstep] at h
    | some next =>
      simp only [procExec, hstep] at h
      exact .cons (.proc hstep) (ih h)

theorem procStep_entry {reply : Reply} {st st' : CoordinatorState} {pc pc' : ProcPc}
    {events : List ProcEvent} {x' : PendingXt}
    (h : procStep cfg id reply st pc = some (st', pc', events))
    (hx' : st'.pending.lookup id = some x') :
    ∃ x, st.pending.lookup id = some x ∧ SameXt x x' := by
  rcases procStep_op h with ⟨-, rfl⟩ | ⟨op, hop, rfl⟩
  · exact ⟨x', hx', .refl x'⟩
  · refine entry_kept (fun route hr => ?_) hx'
    simp [procOp_registers hop] at hr

theorem step_entry {s t : ProcSystem} {move : ProcMove} {x' : PendingXt}
    (h : ProcStep cfg id s move t) (hx' : t.st.pending.lookup id = some x') :
    ∃ x, s.st.pending.lookup id = some x ∧ SameXt x x' := by
  cases h with
  | proc h => exact procStep_entry h hx'
  | notify => exact ⟨x', hx', .refl x'⟩
  | env h => exact entry_kept h hx'

/-- Pending at the end of a run means pending throughout, as the same instance. -/
theorem run_entry {s t : ProcSystem} {moves : List ProcMove} {x' : PendingXt}
    (h : Run (ProcStep cfg id) s moves t) (hx' : t.st.pending.lookup id = some x') :
    ∃ x, s.st.pending.lookup id = some x ∧ SameXt x x' := by
  induction h with
  | nil => exact ⟨x', hx', .refl x'⟩
  | cons hs _ ih =>
    obtain ⟨y, hy, hyx⟩ := ih hx'
    obtain ⟨x, hx, hxy⟩ := step_entry hs hy
    exact ⟨x, hx, hxy.trans hyx⟩

theorem afterRecord_ne_finished (frame : SimFrame) (result : SimulationResult) :
    afterRecord frame result ≠ .finished := by
  unfold afterRecord
  split_ifs <;> simp

theorem afterDispatch_ne_finished (frame : SimFrame) (result : SimulationResult) :
    afterDispatch frame result ≠ .finished := by
  unfold afterDispatch
  split_ifs <;> simp

/-- Only the vote is a cast, and without it `process_xt` ends only when the instance is gone. -/
theorem procStep_cast {reply : Reply} {st st' : CoordinatorState} {pc pc' : ProcPc}
    {events : List ProcEvent} (h : procStep cfg id reply st pc = some (st', pc', events)) :
    (∃ v, pc = .vote v) ∨
      (casts events = [] ∧ (pc' = .finished → st.pending.lookup id = none)) := by
  cases procStep_effect h with
  | voted v => exact Or.inl ⟨v, rfl⟩
  | missing hl => exact Or.inr ⟨rfl, fun _ => hl⟩
  | setupGone _ _ hl => exact Or.inr ⟨rfl, fun _ => hl⟩
  | refreshGone _ hl => exact Or.inr ⟨rfl, fun _ => hl⟩
  | recorded => exact Or.inr ⟨rfl, fun hf => absurd hf (afterRecord_ne_finished _ _)⟩
  | nothingToSend | allSent =>
    exact Or.inr ⟨rfl, fun hf => absurd hf (afterDispatch_ne_finished _ _)⟩
  | _ => exact Or.inr ⟨rfl, by simp⟩

/-- A vote is written down unless one is there, which then stays. -/
theorem recordVote_localVote {st : CoordinatorState} {v standalone : Bool} {now : Instant}
    {x x' : PendingXt} (hx : st.pending.lookup id = some x)
    (h : (recordVote cfg st id v standalone now).1.pending.lookup id = some x') :
    x'.localVote = some (x.localVote.getD v) := by
  simp only [recordVote, hx] at h
  split_ifs at h with hv
  · obtain rfl := Option.some.inj (hx.symm.trans h)
    obtain ⟨w, hw⟩ := Option.isSome_iff_exists.mp hv
    rw [hw, Option.getD_some]
  · have hnone : x.localVote = none := Option.not_isSome_iff_eq_none.mp hv
    rw [lookup_updateXt, if_pos rfl, hx] at h
    obtain rfl := Option.some.inj h
    rw [hnone, Option.getD_none]
    exact congrArg XtCore.localVote (castVote_frame cfg x v standalone now)

/-- Once `process_xt` has returned, nothing is added to its log. -/
theorem run_finished {s t : ProcSystem} {moves : List ProcMove}
    (h : Run (ProcStep cfg id) s moves t) (hs : s.pc = .finished) : t.log = s.log := by
  have hinv : t.pc = .finished ∧ t.log = s.log := by
    refine h.invariant (I := fun u => u.pc = .finished ∧ u.log = s.log) ?_ ⟨hs, rfl⟩
    rintro u move u' ⟨hpc, hlog⟩ hstep
    cases hstep with
    | proc hproc => simp [hpc, procStep] at hproc
    | notify => exact ⟨by rw [hpc]; rfl, hlog⟩
    | env => exact ⟨hpc, hlog⟩
  exact hinv.2

variable (cfg id) in
/-- The vote `v` became the local vote of the instance `x` on the run: it holds the move by which
`process_xt` casts `v` on the instance, then `y`, and `v` is on record in the end unless `y` had a
local vote already, which then stayed. -/
def RecordedVote (s : ProcSystem) (moves : List ProcMove) (t : ProcSystem) (x : PendingXt)
    (v : Bool) : Prop :=
  ∃ before reply after u y, moves = before ++ .proc reply :: after ∧
    Run (ProcStep cfg id) s before u ∧ Run (ProcStep cfg id) u (.proc reply :: after) t ∧
    u.pc = .vote v ∧ u.st.pending.lookup id = some y ∧ x.localVote = some (y.localVote.getD v)

/-- A run that ends with `process_xt` returned and the instance pending holds the one move that
casts the vote, and what that move wrote down is still there. -/
theorem recordedVote_of_run {s t : ProcSystem} {moves : List ProcMove} {x : PendingXt}
    (h : Run (ProcStep cfg id) s moves t) (hs : s.pc ≠ .finished) (hcasts : casts s.log = [])
    (ht : t.pc = .finished) (hx : t.st.pending.lookup id = some x) :
    ∃ v, casts t.log = [v] ∧ RecordedVote cfg id s moves t x v := by
  induction h with
  | nil => exact absurd ht hs
  | @cons s s₁ t move moves hstep hrest ih =>
    -- a move that does not cast the vote hands the question on to the rest of the run
    have hlater : s₁.pc ≠ .finished → casts s₁.log = [] →
        ∃ v, casts t.log = [v] ∧ RecordedVote cfg id s (move :: moves) t x v := by
      intro hpc hlog
      obtain ⟨v, hv, before, reply, after, u, y, rfl, hbefore, hrec⟩ := ih hpc hlog ht hx
      exact ⟨v, hv, move :: before, reply, after, u, y, rfl, .cons hstep hbefore, hrec⟩
    have hrun := Run.cons hstep hrest
    cases hstep with
    | notify =>
      refine hlater (fun hf => hs ?_) hcasts
      cases hpc : s.pc <;> simp [hpc, ProcPc.notified] at hf ⊢
    | env => exact hlater hs hcasts
    | @proc reply st' pc' events hproc =>
      obtain ⟨y, hy, -⟩ := run_entry hrun hx
      rcases procStep_cast hproc with ⟨v, hv⟩ | ⟨hevents, hgone⟩
      · rw [hv] at hproc
        simp only [procStep, Option.some.injEq, Prod.mk.injEq] at hproc
        obtain ⟨rfl, rfl, rfl⟩ := hproc
        obtain ⟨y₁, hy₁, hsame⟩ := run_entry hrest hx
        have hlog := run_finished hrest rfl
        refine ⟨v, ?_, [], reply, moves, s, y, rfl, .nil s, hrun, hv, hy,
          hsame.localVote_stays _ (recordVote_localVote hy hy₁)⟩
        rw [hlog, if_pos (Map.mem_of_lookup hy), casts_append, hcasts]
        rfl
      · refine hlater (fun hf => ?_) (by rw [casts_append, hcasts, hevents]; rfl)
        simp [hgone hf] at hy

/-- What `process_xt` has established as long as the instance is pending, and what its vote for
commit rests on. -/
structure GroundedRun (id : InstanceId) (established : PendingXt → List ProcEvent → ProcPc → Prop)
    (grounded : List ProcEvent → Prop) (s : ProcSystem) : Prop where
  kept : ∀ x, s.st.pending.lookup id = some x → established x s.log s.pc
  grounds : true ∈ casts s.log → grounded s.log
  uncast : s.pc ≠ .finished → casts s.log = []

/-- What every move on the pending instance carries over, and what a vote for commit finds
established, holds along every run. -/
theorem groundedRun_step {established : PendingXt → List ProcEvent → ProcPc → Prop}
    {grounded : List ProcEvent → Prop} {s t : ProcSystem} {move : ProcMove}
    (h : ProcStep cfg id s move t) (hs : GroundedRun id established grounded s)
    (hproc : ∀ {reply st' pc' events x x'},
      procStep cfg id reply s.st s.pc = some (st', pc', events) →
      s.st.pending.lookup id = some x → st'.pending.lookup id = some x' → SameXt x x' →
      established x s.log s.pc → established x' (s.log ++ events) pc')
    (henv : ∀ {op x x'}, move = .env op → (∀ route, op.registers cfg s.st ≠ some (id, route)) →
      s.st.pending.lookup id = some x → (op.apply cfg s.st).pending.lookup id = some x' →
      SameXt x x' → established x s.log s.pc → established x' s.log s.pc)
    (hnotified : ∀ {x}, established x s.log s.pc → established x s.log s.pc.notified)
    (hvote : ∀ {x}, established x s.log (.vote true) → grounded (s.log ++ [.cast true])) :
    GroundedRun id established grounded t := by
  cases h with
  | notify =>
    refine ⟨fun x hx => hnotified (hs.kept x hx), hs.grounds, fun hne => hs.uncast (fun hf => ?_)⟩
    exact hne (by rw [hf]; rfl)
  | @env op hreg =>
    refine ⟨fun x' hx' => ?_, hs.grounds, hs.uncast⟩
    obtain ⟨x, hx, hsame⟩ := entry_kept hreg hx'
    exact henv rfl hreg hx hx' hsame (hs.kept x hx)
  | @proc reply st' pc' events hstep =>
    have hrunning : casts s.log = [] := by
      refine hs.uncast (fun hf => ?_)
      simp [hf, procStep] at hstep
    refine ⟨fun x' hx' => ?_, fun hcast => ?_, fun hne => ?_⟩
    · obtain ⟨x, hx, hsame⟩ := procStep_entry hstep hx'
      exact hproc hstep hx hx' hsame (hs.kept x hx)
    · -- the vote is cast now, on the pending instance
      rw [casts_append, hrunning, List.nil_append] at hcast
      rcases procStep_cast hstep with ⟨v, hv⟩ | ⟨hnone, -⟩
      · rw [hv] at hstep
        simp only [procStep, Option.some.injEq, Prod.mk.injEq] at hstep
        obtain ⟨-, -, rfl⟩ := hstep
        split_ifs at hcast ⊢ with hmem
        · obtain rfl : true = v := by simpa [casts, castOf] using hcast
          obtain ⟨x, hx⟩ := Map.lookup_of_mem hmem
          exact hvote (hv ▸ hs.kept x hx)
        · simp [casts] at hcast
      · simp [hnone] at hcast
    · rcases procStep_cast hstep with ⟨v, hv⟩ | ⟨hnone, -⟩
      · rw [hv] at hstep
        simp only [procStep, Option.some.injEq, Prod.mk.injEq] at hstep
        exact absurd hstep.2.1.symm hne
      · rw [casts_append, hrunning, hnone]
        rfl

/-- What is shown of a simulation is what the simulator was given and what it answered. -/
theorem simulated_step {reply : Reply} {st st' : CoordinatorState} {pc pc' : ProcPc}
    {events : List ProcEvent} (h : procStep cfg id reply st pc = some (st', pc', events))
    {index : Nat} {tx : Bytes} {overrides : StateOverride}
    {fulfilled : List CrossRollupDependency}
    {outcome : Except Simulation.SimulationError SimulationResult}
    (he : .simulated index tx overrides fulfilled outcome ∈ events) :
    ∃ frame, pc = .simulate frame ∧ index = frame.index ∧ frame.txs[frame.index]? = some tx ∧
      overrides = frame.overrides ∧ fulfilled = frame.fulfilled ∧ outcome = reply.simulation := by
  have hpc : ∃ frame, pc = .simulate frame := by
    have heffect := procStep_effect h
    cases heffect with
    | simulated frame | simulationFailed frame => exact ⟨frame, rfl⟩
    | voted vote => split_ifs at he <;> simp at he
    | _ => simp at he
  obtain ⟨frame, rfl⟩ := hpc
  cases htx : frame.txs[frame.index]? with
  | none =>
    simp only [procStep, htx, Option.some.injEq, Prod.mk.injEq] at h
    rw [← h.2.2] at he
    exact absurd he List.not_mem_nil
  | some tx' =>
    simp only [procStep, htx, Option.some.injEq, Prod.mk.injEq] at h
    rw [← h.2.2] at he
    obtain ⟨rfl, rfl, rfl, rfl, rfl⟩ := ProcEvent.simulated.inj (List.mem_singleton.mp he)
    exact ⟨frame, rfl, rfl, htx, rfl, rfl, rfl⟩

theorem fulfilled_afterRecord (frame : SimFrame) (result : SimulationResult) :
    (afterRecord frame result).fulfilled = frame.fulfilled ∨
      (afterRecord frame result).fulfilled = [] := by
  unfold afterRecord
  split_ifs
  · exact Or.inr rfl
  · exact Or.inr rfl
  · exact Or.inl rfl

theorem fulfilled_afterDispatch (frame : SimFrame) (result : SimulationResult) :
    (afterDispatch frame result).fulfilled = frame.fulfilled := by
  unfold afterDispatch
  split_ifs <;> rfl

/-- What the simulator is given is read from the instance, and kept until it is read again. -/
theorem fulfilled_step {reply : Reply} {st st' : CoordinatorState} {pc pc' : ProcPc}
    {events : List ProcEvent} (h : procStep cfg id reply st pc = some (st', pc', events)) :
    pc'.fulfilled = pc.fulfilled ∨ pc'.fulfilled = [] ∨
      ∃ xt, st.pending.lookup id = some xt ∧ pc'.fulfilled = xt.fulfilledDeps := by
  have heffect := procStep_effect h
  cases heffect with
  | setup txs overrides hl => exact Or.inr (Or.inr ⟨_, hl, rfl⟩)
  | refreshed frame hl => exact Or.inr (Or.inr ⟨_, hl, rfl⟩)
  | recorded frame result =>
    have hframe := fulfilled_afterRecord
      { frame with overrides := (recordSimulationState cfg st id result frame.overrides).2 } result
    exact hframe.imp_right Or.inl
  | nothingToSend frame result | allSent frame result =>
    exact Or.inl (fulfilled_afterDispatch frame result)
  | simulated | claimed | sent | waits | served => exact Or.inl rfl
  | _ => exact Or.inr (Or.inl rfl)

end Run

end Sidecar.Coordinator
