import Sidecar.Coordinator.LostWakeup
import Sidecar.Coordinator.MailboxConservation
import Sidecar.Coordinator.WorldRun

namespace Sidecar.Coordinator

open Mailbox

/-- Where a cross-chain transaction is in its life. -/
inductive XtStatus where
  | pending
  | simulating
  | waitingCirc
  | simulated
  | voted
  | committed
  | aborted
  deriving DecidableEq

structure XtStatusResponse where
  instanceId : InstanceId
  status : XtStatus
  decision : Option Bool
  deriving DecidableEq

/-- A decision for the instance counts as committed only with the builder's confirmation. -/
def determineXtStatus (xt : PendingXt) : XtStatus :=
  match xt.decision with
  | some decision =>
    if decision then if xt.confirmedAt.isSome then .committed else .voted else .aborted
  | none =>
    if xt.voteSent then .voted
    else if xt.simulatedAt.isSome then
      if !xt.dependencies.isEmpty && xt.fulfilledDeps.length < xt.dependencies.length then
        .waitingCirc
      else .simulated
    else if xt.lockedChains ≠ ∅ then .simulating
    else .pending

def getXtStatus (st : CoordinatorState) (id : InstanceId) :
    Except CoordinatorError XtStatusResponse :=
  match st.pending.lookup id with
  | none => .error (.instanceNotFound id)
  | some xt => .ok ⟨id, determineXtStatus xt, xt.decision⟩

section Marks

variable {cfg : Config} {st : CoordinatorState}

/-- The time of the simulation is written with the vote. -/
def SimulatedVoted (xt : PendingXt) : Prop := xt.simulatedAt.isSome = true → xt.voteSent = true

theorem simulatedVoted_standaloneDecision {chainId : ChainId} {xt : PendingXt} {now : Instant}
    (h : SimulatedVoted xt) : SimulatedVoted (maybeMakeStandaloneDecision chainId xt now).1 := by
  rcases standaloneDecision_cases chainId xt now with hs | ⟨-, -, n, m, hs⟩ | ⟨-, -, n, m, hs⟩ <;>
    rw [hs] <;> exact h

theorem simulatedVoted_entryStep {op : Op} {id : InstanceId} {xt xt' : PendingXt}
    (h : EntryStep cfg op id xt xt') (hxt : SimulatedVoted xt) : SimulatedVoted xt' := by
  cases h with
  | same | decided | confirmed | delivered | locked => exact hxt
  | voted _ vote standalone now hnone =>
    have hvoted : SimulatedVoted (withLocalVote cfg xt vote now) := fun _ => rfl
    rw [castVote_eq]
    cases standalone with
    | false => exact hvoted
    | true => exact simulatedVoted_standaloneDecision hvoted
  | peerVoted =>
    refine simulatedVoted_standaloneDecision ?_
    exact hxt
  | outdated =>
    unfold abortUndecided
    split_ifs <;> exact hxt
  | rolledBack =>
    unfold forceAbort
    split_ifs <;> exact hxt
  | recorded _ result =>
    obtain ⟨depKeys, dependencies, outbound, hframe⟩ := recordResult_frame xt result
    rw [hframe]
    exact hxt
  | fulfilled _ deps =>
    obtain ⟨mailbox, fulfilled, keys, hframe⟩ := fulfillXt_frame xt deps
    rw [hframe]
    exact hxt
  | dispatched =>
    rw [claimOutbound_eq]
    exact hxt

theorem simulatedVoted_registered {op : Op} {xt : PendingXt} (h : RegisteredAs cfg st op xt) :
    SimulatedVoted xt := by
  have hnone : xt.simulatedAt = none := by
    cases h with
    | submitted | forwarded | started => rfl
  intro hsome
  simp [hnone] at hsome

theorem simulatedVoted_apply (op : Op)
    (h : ∀ id xt, st.pending.lookup id = some xt → SimulatedVoted xt) (id : InstanceId)
    (xt' : PendingXt) (hx' : (op.apply cfg st).pending.lookup id = some xt') :
    SimulatedVoted xt' := by
  by_cases hreg : ∃ route, op.registers cfg st = some (id, route)
  · obtain ⟨route, hreg⟩ := hreg
    exact simulatedVoted_registered (registeredAs_of_lookup hreg hx').2
  · obtain ⟨xt, hx, hstep⟩ := entryStep (fun route he => hreg ⟨route, he⟩) hx'
    exact simulatedVoted_entryStep hstep (h id xt hx)

/-- In every reachable state. -/
theorem simulatedVoted_run {w : World} {moves : List Move}
    (hrun : Run (WorldStep cfg) World.initial moves w) (id : InstanceId) (xt : PendingXt)
    (hx : w.shared.st.pending.lookup id = some xt) : SimulatedVoted xt := by
  revert id xt
  refine hrun.invariant (I := fun w : World => ∀ id xt, w.shared.st.pending.lookup id = some xt →
    SimulatedVoted xt) (fun w move w' hinv hstep id xt hx => ?_) ?_
  · rcases worldStep_cases hstep with hquiet | ⟨t, reply, before, after, next, sh', es, -, -, hs, rfl⟩
    · rw [hquiet.st_eq] at hx
      exact hinv id xt hx
    · dsimp only at hx
      rcases taskStep_op hs with ⟨-, hst⟩ | ⟨op, -, hst⟩
      · rw [hst] at hx
        exact hinv id xt hx
      · rw [hst] at hx
        exact simulatedVoted_apply op hinv id xt hx
  · intro id xt hx
    simp [World.initial] at hx

end Marks

/-- What a query says of an undecided instance. -/
theorem determineXtStatus_undecided {xt : PendingXt} (h : SimulatedVoted xt)
    (hdecision : xt.decision = none) :
    determineXtStatus xt =
      if xt.voteSent then .voted else if xt.lockedChains ≠ ∅ then .simulating else .pending := by
  unfold determineXtStatus
  rw [hdecision]
  dsimp only
  split_ifs with hvote hsimulated <;> first | rfl | exact absurd (h hsimulated) hvote

/-- An undecided instance whose `process_xt` is inside `wait_for_dependencies`, with a dependency
that is not fulfilled. -/
def WaitsFor (w : World) (id : InstanceId) : Prop :=
  ∃ xt frame deps wait, w.shared.st.pending.lookup id = some xt ∧ xt.decision = none ∧
    .process id (.waiting frame deps wait) ∈ w.tasks ∧ wait.running = true ∧
    ∃ dep ∈ deps, DependencyKey.ofDependency dep ∉ xt.fulfilledDepKeys

/-- Instances that wait are reported as waiting. -/
def WaitingReported (w : World) : Prop :=
  ∀ id, WaitsFor w id →
    ∃ decision, getXtStatus w.shared.st id = .ok ⟨id, .waitingCirc, decision⟩

/-- In every reachable state an undecided instance is reported as voted, simulating or pending, so
that those which wait are reported as waiting exactly when there are none. -/
theorem waiting_reported_iff (cfg : Config) {w : World} {moves : List Move}
    (hrun : Run (WorldStep cfg) World.initial moves w) :
    (∀ id xt, w.shared.st.pending.lookup id = some xt → xt.decision = none →
      getXtStatus w.shared.st id =
        .ok ⟨id, if xt.voteSent then .voted else if xt.lockedChains ≠ ∅ then .simulating
          else .pending, none⟩) ∧
    (WaitingReported w ↔ ∀ id, ¬WaitsFor w id) := by
  have hstatus : ∀ id xt, w.shared.st.pending.lookup id = some xt → xt.decision = none →
      getXtStatus w.shared.st id =
        .ok ⟨id, if xt.voteSent then .voted else if xt.lockedChains ≠ ∅ then .simulating
          else .pending, none⟩ := by
    intro id xt hx hdecision
    have hresponse : getXtStatus w.shared.st id = .ok ⟨id, determineXtStatus xt, xt.decision⟩ := by
      rw [getXtStatus, hx]
    rw [hresponse, determineXtStatus_undecided (simulatedVoted_run hrun id xt hx) hdecision,
      hdecision]
  refine ⟨hstatus, fun hreported id hwaits => ?_, fun hnone id hwaits => absurd hwaits (hnone id)⟩
  obtain ⟨decision, hwaiting⟩ := hreported id hwaits
  obtain ⟨xt, frame, deps, wait, hx, hdecision, -⟩ := hwaits
  rw [hstatus id xt hx hdecision] at hwaiting
  have hsame := congrArg XtStatusResponse.status (Except.ok.inj hwaiting)
  dsimp only at hsame
  split_ifs at hsame

/-- A coordinator of chain 2 that simulates. -/
def readingConfig : Config := { Config.bare 2 with simulator := true }

/-- A forwarded instance is simulated and waits for the message that it reads. -/
def waitingPicks : List Pick :=
  let reading : TaskReply :=
    { proc :=
        { simulation := .ok
            { success := false
              error := none
              stateOverrides := none
              dependencies := [sampleDependency]
              outboundMessages := [] } } }
  .arrive (.forwardedXt "xt-1-1" sampleTxs 1 1) :: List.replicate 15 (.run 0 reading)

/-- Up to its first simulation the instance does not wait. -/
theorem waiting_reported_iff_simulating :
    ∃ (w : World) (moves : List Move), Run (WorldStep readingConfig) World.initial moves w ∧
      getXtStatus w.shared.st "xt-1-1" = .ok ⟨"xt-1-1", .simulating, none⟩ ∧ WaitingReported w := by
  have hs : ∃ w xt frame, execAll (pickStep readingConfig) (fun _ _ => true) (waitingPicks.take 9)
      World.initial = some w ∧ w.shared.st.pending.lookup "xt-1-1" = some xt ∧
      xt.decision = none ∧ xt.voteSent = false ∧ xt.lockedChains ≠ ∅ ∧
      w.tasks = [.process "xt-1-1" (.simulate frame)] :=
    ⟨_, _, _, rfl, rfl, rfl, rfl, by decide, rfl⟩
  obtain ⟨w, xt, frame, hexec, hx, hdecision, hvote, hlocked, htasks⟩ := hs
  obtain ⟨moves, hrun⟩ := run_execAll_free worldStep_of_pick hexec
  obtain ⟨hstatus, hiff⟩ := waiting_reported_iff readingConfig hrun
  refine ⟨w, moves, hrun, ?_, hiff.mpr (fun id hwaits => ?_)⟩
  · rw [hstatus "xt-1-1" xt hx hdecision, hvote, if_neg Bool.false_ne_true, if_pos hlocked]
  · obtain ⟨x, waiting, deps, wait, -, -, hmem, -⟩ := hwaits
    simp [htasks] at hmem

/-- The instance waits for a message and is reported as simulating. -/
theorem waiting_xt_reported_simulating :
    ∃ (w : World) (moves : List Move), Run (WorldStep readingConfig) World.initial moves w ∧
      WaitsFor w "xt-1-1" ∧
      getXtStatus w.shared.st "xt-1-1" = .ok ⟨"xt-1-1", .simulating, none⟩ ∧
      ¬WaitingReported w := by
  have hs : ∃ w, execAll (pickStep readingConfig) (fun _ _ => true) waitingPicks World.initial =
      some w ∧ WaitsFor w "xt-1-1" ∧
      getXtStatus w.shared.st "xt-1-1" = .ok ⟨"xt-1-1", .simulating, none⟩ :=
    ⟨_, rfl, ⟨_, _, _, .select false, rfl, rfl, List.mem_singleton.mpr rfl, rfl, sampleDependency,
      List.mem_singleton.mpr rfl, by decide⟩, by decide⟩
  obtain ⟨w, hexec, hwaits, hstatus⟩ := hs
  obtain ⟨moves, hrun⟩ := run_execAll_free worldStep_of_pick hexec
  refine ⟨w, moves, hrun, hwaits, hstatus, fun hreported => ?_⟩
  obtain ⟨decision, hwaiting⟩ := hreported "xt-1-1" hwaits
  rw [hstatus] at hwaiting
  simp at hwaiting

end Sidecar.Coordinator
