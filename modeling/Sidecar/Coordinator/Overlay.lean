import Sidecar.Coordinator.Entry
import Sidecar.Coordinator.Stability
import Sidecar.Simulation.ChainState

namespace Sidecar.Coordinator

open Mailbox Simulation

/-- A diff in the overlay of the local chain, and the instance whose simulation left it. -/
structure Contribution where
  id : InstanceId
  diff : StateOverride

/-- The diffs merged in recording order. -/
def mergeDiffs (base : StateOverride) (contributions : List Contribution) : StateOverride :=
  (contributions.map Contribution.diff).foldl mergeOverrides base

/-- The overlay of the local chain. -/
def localOverlay (cfg : Config) (st : CoordinatorState) : StateOverride :=
  (st.chainOverlay.lookup cfg.chainId).getD ∅

namespace Op

variable (cfg : Config) (st : CoordinatorState)

/-- The diff that a locked part merges into the overlay. -/
def pushes : Op → List Contribution
  | recordSimulation id result _ =>
    if id ∈ st.pending.keys then ((keptOverrides result).map (Contribution.mk id)).toList else []
  | _ => []

/-- The publisher's abort of an undecided instance of the local chain drops the overlay. -/
def abortsLocal : Op → Bool
  | onDecision id decision _ =>
    !decision && (st.pending.lookup id).any
      (fun xt => xt.decision.isNone && decide (cfg.chainId ∈ xt.rawTxs.keys))
  | _ => false

/-- The handlers that start over. -/
def startsOver : Op → Bool
  | startPeriod _ _ => true
  | rollback _ => true
  | _ => false

def clearsOverlay (op : Op) : Bool := op.startsOver || op.abortsLocal cfg st

end Op

section Effect

variable (cfg : Config) (st : CoordinatorState)

theorem chainOverlay_insertXt (xt : PendingXt) :
    (insertXt st xt).chainOverlay = st.chainOverlay := rfl

theorem chainOverlay_submitXt (txs : RawTxs) :
    (submitXt cfg st txs).1.chainOverlay = st.chainOverlay := by
  have h := submitXt_effect cfg st txs
  generalize submitXt cfg st txs = r at h ⊢
  cases h <;> rfl

/-- The locked parts that have nothing to do with the overlay. -/
def Op.leavesOverlay : Op → Bool
  | .onDecision _ _ _ => false
  | .startPeriod _ _ => false
  | .rollback _ => false
  | .recordSimulation _ _ _ => false
  | _ => true

theorem chainOverlay_kept (op : Op) (h : op.leavesOverlay = true) :
    (op.apply cfg st).chainOverlay = st.chainOverlay := by
  have hframe : op.onPending = true → (op.apply cfg st).chainOverlay = st.chainOverlay := by
    intro ho
    obtain ⟨pending, he⟩ := apply_onPending cfg st ho
    rw [he]
  cases op with
  | submitXt txs => exact chainOverlay_submitXt cfg st txs
  | forwardXt id txs originChain originSeq =>
    rcases forwardXt_cases cfg st id txs originChain originSeq with ⟨-, hs⟩ | ⟨-, -, hs⟩
    · rw [Op.apply, hs]
    · rw [Op.apply, hs, chainOverlay_insertXt]
  | startInstance inst =>
    rcases registerStarted_cases cfg st inst with ⟨-, hs⟩ | ⟨period, -, -, hs⟩
    · rw [Op.apply, hs]
    · rw [Op.apply, hs, chainOverlay_insertXt]
  | removePending closed id =>
    simp only [Op.apply, removePendingXt]
    cases st.pending.lookup id <;> rfl
  | sendVote | peerVote | confirm | lockChain | fulfill | dispatch => exact hframe rfl
  | mailbox msg =>
    simp only [Op.apply, deliverMailbox]
    cases st.mailboxIndex.lookup msg.instanceId with
    | some i => rfl
    | none =>
      simp only [CoordinatorState.bufferOrphanMailbox]
      split <;> split_ifs <;> rfl
  | cleanup | enqueue | resolve => rfl
  | onDecision | startPeriod | rollback | recordSimulation => simp [Op.leavesOverlay] at h

theorem localOverlay_onDecision (id : InstanceId) (decision : Bool) (now : Instant) :
    localOverlay cfg ((Op.onDecision id decision now).apply cfg st) =
      if (Op.onDecision id decision now).abortsLocal cfg st then ∅ else localOverlay cfg st := by
  cases hl : st.pending.lookup id with
  | none => simp [Op.apply, recordPublisherDecision, Op.abortsLocal, hl]
  | some xt =>
    cases hd : xt.decision with
    | some d => simp [Op.apply, recordPublisherDecision, Op.abortsLocal, hl, hd]
    | none =>
      cases decision with
      | true => simp [Op.apply, recordPublisherDecision, Op.abortsLocal, hl, hd, localOverlay]
      | false =>
        simp only [Op.apply, recordPublisherDecision, Op.abortsLocal, hl, hd, localOverlay,
          Option.isSome_none, Bool.false_eq_true, if_false, Map.lookup_retain]
        by_cases hlocal : cfg.chainId ∈ xt.rawTxs.keys
        · have hmem : cfg.chainId ∈ xt.rawTxs := hlocal
          cases st.chainOverlay.lookup cfg.chainId <;> simp [hd, hlocal, hmem]
        · have hmem : cfg.chainId ∉ xt.rawTxs := hlocal
          cases st.chainOverlay.lookup cfg.chainId <;> simp [hd, hlocal, hmem, Option.filter_some]

theorem localOverlay_recordSimulation (id : InstanceId) (result : SimulationResult)
    (base : StateOverride) :
    localOverlay cfg ((Op.recordSimulation id result base).apply cfg st) =
      mergeDiffs (localOverlay cfg st) ((Op.recordSimulation id result base).pushes st) := by
  simp only [Op.apply, recordSimulationState, Op.pushes]
  by_cases hm : id ∈ st.pending.keys
  · have hpending : id ∈ st.pending := hm
    rw [if_pos hpending, if_pos hm]
    cases keptOverrides result with
    | none => rfl
    | some overrides =>
      simp only [localOverlay, AList.lookup_insert]
      rfl
  · have hpending : id ∉ st.pending := hm
    rw [if_neg hpending, if_neg hm]
    rfl

/-- What a locked part does to the overlay of the local chain. -/
theorem localOverlay_apply (op : Op) :
    localOverlay cfg (op.apply cfg st) =
      if op.clearsOverlay cfg st then ∅ else mergeDiffs (localOverlay cfg st) (op.pushes st) := by
  have hkept := chainOverlay_kept cfg st op
  have hsame : (op.apply cfg st).chainOverlay = st.chainOverlay →
      localOverlay cfg (op.apply cfg st) = localOverlay cfg st := by
    intro h
    unfold localOverlay
    rw [h]
  cases op with
  | onDecision id decision now => exact localOverlay_onDecision cfg st id decision now
  | recordSimulation id result base => exact localOverlay_recordSimulation cfg st id result base
  | startPeriod | rollback => rfl
  | submitXt | forwardXt | startInstance | removePending | sendVote | peerVote | confirm | cleanup
    | mailbox | enqueue | resolve | lockChain | fulfill | dispatch => exact hsame (hkept rfl)

/-- Only `record_simulation_state` pushes, for a pending instance and a successful run. -/
theorem of_mem_pushes {st : CoordinatorState} {op : Op} {c : Contribution}
    (h : c ∈ op.pushes st) :
    ∃ result base, op = .recordSimulation c.id result base ∧ c.id ∈ st.pending.keys ∧
      keptOverrides result = some c.diff := by
  cases op with
  | recordSimulation id result base =>
    simp only [Op.pushes] at h
    split_ifs at h with hm
    · obtain ⟨diff, hdiff, rfl⟩ := Option.map_eq_some_iff.mp (Option.mem_toList.mp h)
      exact ⟨result, base, rfl, hm, hdiff⟩
    · simp at h
  | _ => simp [Op.pushes] at h

theorem decisionOf_recordSimulation (id i : InstanceId) (result : SimulationResult)
    (base : StateOverride) :
    decisionOf ((Op.recordSimulation id result base).apply cfg st) i = decisionOf st i := by
  have he := xtEffect cfg st (.recordSimulation id result base) i
  unfold decisionOf
  generalize st.pending.lookup i = before at he ⊢
  generalize ((Op.recordSimulation id result base).apply cfg st).pending.lookup i = after at he ⊢
  cases he with
  | same => rfl
  | touched _ _ hc => exact congrArg XtCore.decision hc
  | removed _ _ _ h => simp [Op.removes] at h
  | registered _ _ _ _ hr _ => simp [Op.registers] at hr

theorem sets_mergeDiffs (base : StateOverride) (contributions : List Contribution) :
    sets (mergeDiffs base contributions) =
      (contributions.map (fun c => sets c.diff)).foldl Patch.andThen (sets base) := by
  unfold mergeDiffs
  rw [sets_foldl, List.map_map]
  rfl

end Effect

section Aborts

/-- The diffs recorded since the overlay was last cleared. -/
def sinceClear (cfg : Config) (st : CoordinatorState) (op : Op)
    (contributions : List Contribution) : List Contribution :=
  if op.clearsOverlay cfg st then [] else contributions ++ op.pushes st

def isContributor (contributions : List Contribution) (id : InstanceId) : Bool :=
  decide (id ∈ contributions.map Contribution.id)

/-- No abort goes past the overlay: no diff is recorded for an aborted instance, no vote aborts
an instance with diffs in the overlay, and the publisher's abort of such an instance names the
local chain. -/
def abortsClear (cfg : Config) (st : CoordinatorState) (contributions : List Contribution) :
    Op → Bool
  | .recordSimulation id result _ =>
    (keptOverrides result).isNone || decide (decisionOf st id ≠ some false)
  | .sendVote id vote standalone now =>
    !standalone || !isContributor contributions id || (st.pending.lookup id).all (fun xt =>
      xt.localVote.isSome || xt.decision.isSome ||
        decide (false ∉ countedVotes cfg.chainId (withLocalVote cfg xt vote now)))
  | .peerVote id chainId vote _ =>
    !isContributor contributions id || (st.pending.lookup id).all (fun xt =>
      xt.decision.isSome || decide (chainId ∈ xt.peerVotes.keys) ||
        decide (false ∉ countedVotes cfg.chainId
          { xt with peerVotes := xt.peerVotes.insert chainId vote }))
  | .onDecision id decision _ =>
    decision || !isContributor contributions id || (st.pending.lookup id).all (fun xt =>
      xt.decision.isSome || decide (cfg.chainId ∈ xt.rawTxs.keys))
  | _ => true

variable {cfg : Config} {st : CoordinatorState} {contributions : List Contribution}

/-- The overlay is what was recorded since it was last cleared, none of it for an aborted
instance. -/
structure OverlayInv (cfg : Config) (s : CoordinatorState × List Contribution) : Prop where
  merged : localOverlay cfg s.1 = mergeDiffs ∅ s.2
  live : ∀ c ∈ s.2, decisionOf s.1 c.id ≠ some false

theorem merged_step (op : Op) (h : localOverlay cfg st = mergeDiffs ∅ contributions) :
    localOverlay cfg (op.apply cfg st) = mergeDiffs ∅ (sinceClear cfg st op contributions) := by
  rw [localOverlay_apply, sinceClear]
  split_ifs
  · rfl
  · rw [h]
    simp only [mergeDiffs, List.map_append, List.foldl_append]

/-- Counting votes without one against never aborts. -/
theorem decision_of_no_abort {chainId : ChainId} {xt : PendingXt} {now : Instant}
    (hd : xt.decision ≠ some false) (hv : false ∉ countedVotes chainId xt) :
    (maybeMakeStandaloneDecision chainId xt now).1.decision ≠ some false := by
  rcases standaloneDecision_cases chainId xt now with h | ⟨-, hf, -⟩ | ⟨-, -, n, m, h⟩
  · rw [h]
    exact hd
  · exact absurd hf hv
  · rw [h]
    intro he
    simp [PendingXt.recordDecision] at he

theorem castVote_not_aborted {xt : PendingXt} {vote standalone : Bool} {now : Instant}
    (hd : xt.decision ≠ some false)
    (hv : standalone = true → xt.decision.isSome = true ∨
      false ∉ countedVotes cfg.chainId (withLocalVote cfg xt vote now)) :
    (castVote cfg xt vote standalone now).1.decision ≠ some false := by
  rw [castVote_eq]
  split_ifs with hs
  · have hdecision : (withLocalVote cfg xt vote now).decision = xt.decision := rfl
    rcases hv hs with hsome | hvotes
    · obtain ⟨d, hdec⟩ := Option.isSome_iff_exists.mp hsome
      rw [standaloneDecision_stable cfg.chainId _ now d (hdecision.trans hdec)]
      exact hd
    · exact decision_of_no_abort (hdecision ▸ hd) hvotes
  · exact hd

/-- A step within the condition leaves no diff of an aborted instance in the overlay. -/
theorem live_step {op : Op} (hsafe : abortsClear cfg st contributions op = true)
    (hkeep : op.clearsOverlay cfg st = false) {id : InstanceId}
    (hid : isContributor contributions id = true) (hd : decisionOf st id ≠ some false) :
    decisionOf (op.apply cfg st) id ≠ some false := by
  have he := xtEffect cfg st op id
  unfold decisionOf at hd ⊢
  generalize ho : st.pending.lookup id = before at he hd
  generalize (op.apply cfg st).pending.lookup id = after at he ⊢
  cases he with
  | same => exact hd
  | @touched _ _ xt xt' hc =>
    have hdec : xt'.decision = xt.decision := congrArg XtCore.decision hc
    intro hfalse
    exact hd (hdec.symm.trans hfalse)
  | removed => simp
  | registered _ _ route _ hr hf =>
    rw [Option.bind_some, hf.decision_eq]
    simp
  | @voted _ vote standalone now xt hlocal =>
    refine castVote_not_aborted hd (fun hs => ?_)
    simp only [abortsClear, hs, hid, ho, Bool.not_true, Bool.false_or, Option.all_some, hlocal,
      Option.isSome_none, Bool.or_eq_true, decide_eq_true_eq] at hsafe
    exact hsafe
  | @peerVoted _ chainId vote now xt hnone hnew =>
    have hkeys : chainId ∉ xt.peerVotes.keys := hnew
    have hcount : false ∉ countedVotes cfg.chainId
        { xt with peerVotes := xt.peerVotes.insert chainId vote } := by
      simpa [abortsClear, hid, ho, hnone, hkeys] using hsafe
    exact decision_of_no_abort hd hcount
  | @decided _ decision now xt hnone =>
    cases decision with
    | true => simp [PendingXt.recordDecision]
    | false =>
      have hlocal : cfg.chainId ∈ xt.rawTxs.keys := by
        simpa [abortsClear, hid, ho, hnone] using hsafe
      simp [Op.clearsOverlay, Op.startsOver, Op.abortsLocal, ho, hnone, hlocal] at hkeep
  | outdated | rolledBack => simp [Op.clearsOverlay, Op.startsOver] at hkeep

theorem overlayInv_step (h : OverlayInv cfg (st, contributions)) (op : Op)
    (hsafe : abortsClear cfg st contributions op = true) :
    OverlayInv cfg (op.apply cfg st, sinceClear cfg st op contributions) := by
  refine ⟨merged_step op h.merged, ?_⟩
  intro c hc
  rw [sinceClear] at hc
  split_ifs at hc with hclear
  · simp at hc
  · have hkeep : op.clearsOverlay cfg st = false := by simpa using hclear
    rcases List.mem_append.mp hc with hold | hnew
    · have hid : isContributor contributions c.id = true := by
        simpa [isContributor] using ⟨c, hold, rfl⟩
      exact live_step hsafe hkeep hid (h.live c hold)
    · obtain ⟨result, base, rfl, -, hkept⟩ := of_mem_pushes hnew
      rw [decisionOf_recordSimulation]
      simpa [abortsClear, hkept] using hsafe

theorem overlayInv_initial : OverlayInv cfg ({}, []) := by
  refine ⟨rfl, ?_⟩
  intro c hc
  simp at hc

/-- When no abort goes past the overlay, it is in every reachable state the merge of the diffs
recorded since the last clear for instances that are not aborted, and there are no others. -/
theorem overlay_without_aborted {ops : List Op}
    (h : Run (fun s op t => Recorded (Step cfg) (sinceClear cfg) s op t ∧
      abortsClear cfg s.1 s.2 op = true) ({}, []) ops (st, contributions)) :
    (∀ c ∈ contributions, decisionOf st c.id ≠ some false) ∧
      localOverlay cfg st =
        mergeDiffs ∅ (contributions.filter (fun c => decide (decisionOf st c.id ≠ some false))) := by
  have hinv : OverlayInv cfg (st, contributions) := by
    refine h.invariant (I := OverlayInv cfg) (fun s op t hs hstep => ?_) overlayInv_initial
    obtain ⟨⟨hst, hcs⟩, hsafe⟩ := hstep
    have ht : t = (op.apply cfg s.1, sinceClear cfg s.1 op s.2) := Prod.ext hst hcs
    rw [ht]
    exact overlayInv_step hs op hsafe
  refine ⟨hinv.live, ?_⟩
  have hall : contributions.filter (fun c => decide (decisionOf st c.id ≠ some false)) =
      contributions := by
    rw [List.filter_eq_self]
    intro c hc
    exact decide_eq_true (hinv.live c hc)
  rw [hall]
  exact hinv.merged

/-- A diff that leaves an account with nonce 1. -/
def nonceDiff : StateOverride := AList.singleton (FixedBytes.repeatByte 20 1) { nonce := some 1 }

/-- The nonce of that account under overrides. -/
def nonceUnder (overrides : StateOverride) : Option Nat :=
  sets overrides (.nonce (FixedBytes.repeatByte 20 1))

/-- A successful simulation with that diff, and a failed one. -/
def nonceResult (success : Bool) : SimulationResult :=
  { success := success
    error := none
    stateOverrides := some nonceDiff
    dependencies := []
    outboundMessages := [] }

theorem overlay_without_aborted_committed :
    ∃ ops st contributions,
      Run (fun s op t => Recorded (Step (.bare 1)) (sinceClear (.bare 1)) s op t ∧
        abortsClear (.bare 1) s.1 s.2 op = true) ({}, []) ops (st, contributions) ∧
      decisionOf st "xt-2-1" = some true ∧ decisionOf st "xt-2-2" = some false ∧
      nonceUnder (localOverlay (.bare 1) st) = some 1 ∧
      localOverlay (.bare 1) st = mergeDiffs ∅
        (contributions.filter (fun c => decide (decisionOf st c.id ≠ some false))) := by
  have hexec : ((execAll (recordNext (Op.apply (.bare 1)) (sinceClear (.bare 1)))
      (fun s op => decide (abortsClear (.bare 1) s.1 s.2 op = true))
      [.forwardXt "xt-2-1" twoChainTxs 2 1, .forwardXt "xt-2-2" twoChainTxs 2 2,
        .recordSimulation "xt-2-1" (nonceResult true) ∅, .sendVote "xt-2-1" true true 1,
        .peerVote "xt-2-2" 2 false 2, .peerVote "xt-2-1" 2 true 3] ({}, [])).map
        (fun s => (decisionOf s.1 "xt-2-1", decisionOf s.1 "xt-2-2",
          nonceUnder (localOverlay (.bare 1) s.1)))) =
      some (some true, some false, some 1) := by decide
  obtain ⟨s, hs, hfacts⟩ := Option.map_eq_some_iff.mp hexec
  obtain ⟨hone, hrest⟩ := Prod.mk.inj hfacts
  obtain ⟨htwo, hcell⟩ := Prod.mk.inj hrest
  obtain ⟨ops, hrun⟩ := run_execAll recorded_of_recordNext hs
  exact ⟨ops, s.1, s.2, hrun, hone, htwo, hcell, (overlay_without_aborted hrun).2⟩

/-- A standalone abort leaves the diff of an earlier transaction of the instance in the overlay,
and so does a simulation that ends after the abort. -/
theorem aborted_diff_in_overlay :
    (∃ ops st contributions,
      Run (Recorded (Step (.bare 1)) (sinceClear (.bare 1))) ({}, []) ops (st, contributions) ∧
      ops.getLast? = some (.sendVote "xt-2-1" false true 1) ∧
      decisionOf st "xt-2-1" = some false ∧ contributions.map Contribution.id = ["xt-2-1"] ∧
      nonceUnder (localOverlay (.bare 1) st) = some 1) ∧
    ∃ ops st contributions,
      Run (Recorded (Step (.bare 1)) (sinceClear (.bare 1))) ({}, []) ops (st, contributions) ∧
      decisionOf st "xt-2-1" = some false ∧ contributions.map Contribution.id = ["xt-2-1"] ∧
      nonceUnder (localOverlay (.bare 1) st) = some 1 := by
  have hrun : ∀ ops : List Op, Run (Recorded (Step (.bare 1)) (sinceClear (.bare 1))) ({}, []) ops
      (ops.foldl (fun s op => (Op.apply (.bare 1) s.1 op, sinceClear (.bare 1) s.1 op s.2))
        ({}, [])) :=
    fun ops => Run.record_foldl (f := Op.apply (.bare 1)) (sinceClear (.bare 1)) ops ({}, [])
  exact ⟨⟨_, _, _, hrun [.forwardXt "xt-2-1" (pushTx twoChainTxs 1 [3]) 2 1,
      .recordSimulation "xt-2-1" (nonceResult true) ∅,
      .recordSimulation "xt-2-1" (nonceResult false) nonceDiff, .sendVote "xt-2-1" false true 1],
      rfl, by decide, by decide, by decide⟩,
    _, _, _, hrun [.forwardXt "xt-2-1" twoChainTxs 2 1, .peerVote "xt-2-1" 2 false 1,
      .recordSimulation "xt-2-1" (nonceResult true) ∅], by decide, by decide, by decide⟩

end Aborts

section Visible

variable {cfg : Config} {st : CoordinatorState} {later : List Contribution} {id : InstanceId}

/-- What `process_xt` starts from sets what the overlay sets. -/
theorem sets_snapshotXt {reader : InstanceId} {txs : List Bytes} {overrides : StateOverride}
    (h : snapshotXt cfg st reader = .ready txs overrides) :
    sets overrides = sets (localOverlay cfg st) := by
  simp only [snapshotXt] at h
  cases hl : st.pending.lookup reader with
  | none => simp [hl] at h
  | some xt =>
    simp only [hl] at h
    split_ifs at h with hruns
    obtain ⟨-, hover⟩ := Snapshot.ready.inj h
    rw [← hover, localOverlay]
    cases st.chainOverlay.lookup cfg.chainId with
    | none => rfl
    | some overlay =>
      dsimp only [Option.getD_some]
      rw [sets_mergeOverrides, sets_empty, Patch.empty_andThen]

theorem decisionOf_abortsLocal {i : InstanceId} {decision : Bool} {now : Instant}
    (h : (Op.onDecision i decision now).abortsLocal cfg st = true) :
    decisionOf ((Op.onDecision i decision now).apply cfg st) i = some false := by
  simp only [Op.abortsLocal, Bool.and_eq_true, Bool.not_eq_true', Option.any_eq_true] at h
  obtain ⟨rfl, xt, hx, hnone, -⟩ := h
  have hd : xt.decision = none := Option.isNone_iff_eq_none.mp hnone
  simp [decisionOf, Op.apply, recordPublisherDecision, hx, hd, lookup_updateXt,
    PendingXt.recordDecision]

/-- The diffs recorded from some moment on. -/
def recordedAfter (st : CoordinatorState) (op : Op) (later : List Contribution) :
    List Contribution :=
  later ++ op.pushes st

/-- One locked part of a run within a period, in which the instance is not aborted. -/
def PeriodStep (cfg : Config) (id : InstanceId) (s : CoordinatorState × List Contribution)
    (op : Op) (t : CoordinatorState × List Contribution) : Prop :=
  Recorded (Step cfg) recordedAfter s op t ∧ op.startsOver = false ∧
    decisionOf t.1 id ≠ some false

/-- The publisher aborts no other instance of the local chain. -/
def sparesOverlay (cfg : Config) (id : InstanceId) (st : CoordinatorState) : Op → Bool
  | .onDecision i decision now =>
    decide (i = id) || !(Op.onDecision i decision now).abortsLocal cfg st
  | _ => true

theorem clearsOverlay_spared {op : Op} (hperiod : op.startsOver = false)
    (halive : decisionOf (op.apply cfg st) id ≠ some false)
    (hspares : sparesOverlay cfg id st op = true) : op.clearsOverlay cfg st = false := by
  rw [Op.clearsOverlay, hperiod, Bool.false_or]
  cases op with
  | onDecision i decision now =>
    by_contra haborts
    have hlocal : (Op.onDecision i decision now).abortsLocal cfg st = true := by simpa using haborts
    have hid : i = id := by simpa [sparesOverlay, hlocal] using hspares
    exact halive (hid ▸ decisionOf_abortsLocal hlocal)
  | _ => rfl

theorem shows_step {diff : StateOverride} {op : Op}
    (h : (sets (localOverlay cfg st)).Shows (sets diff) (later.map (fun c => sets c.diff)))
    (hkeep : op.clearsOverlay cfg st = false) :
    (sets (localOverlay cfg (op.apply cfg st))).Shows (sets diff)
      ((recordedAfter st op later).map (fun c => sets c.diff)) := by
  rw [localOverlay_apply, hkeep, if_neg (by simp), sets_mergeDiffs, recordedAfter,
    List.map_append]
  exact h.foldl _

/-- When the publisher aborts no other instance of the local chain, a recorded diff stays
visible to every `process_xt` that starts in the same period. -/
theorem recorded_diff_stays_visible {start : CoordinatorState} {result : SimulationResult}
    {base diff : StateOverride} {ops : List Op}
    (hpush : (Op.recordSimulation id result base).pushes start = [⟨id, diff⟩])
    (h : Run (fun s op t => PeriodStep cfg id s op t ∧ sparesOverlay cfg id s.1 op = true)
      ((Op.recordSimulation id result base).apply cfg start, []) ops (st, later))
    {reader : InstanceId} {txs : List Bytes} {overrides : StateOverride}
    (hread : snapshotXt cfg st reader = .ready txs overrides) :
    (sets overrides).Shows (sets diff) (later.map (fun c => sets c.diff)) := by
  have hrecord : (sets (localOverlay cfg ((Op.recordSimulation id result base).apply cfg
      start))).Shows (sets diff) [] := by
    rw [localOverlay_apply, hpush]
    have hmerge := Patch.shows_andThen (sets (localOverlay cfg start)) (sets diff)
    rwa [← sets_mergeOverrides] at hmerge
  have hall := h.invariant
    (I := fun s => (sets (localOverlay cfg s.1)).Shows (sets diff)
      (s.2.map (fun c => sets c.diff)))
    (fun s op t hs hstep => by
      obtain ⟨⟨⟨hst, hlater⟩, hperiod, halive⟩, hspares⟩ := hstep
      have ht : t = (op.apply cfg s.1, recordedAfter s.1 op s.2) := Prod.ext hst hlater
      rw [hst] at halive
      rw [ht]
      exact shows_step hs (clearsOverlay_spared hperiod halive hspares))
    hrecord
  rw [sets_snapshotXt hread]
  exact hall

/-- The n-th instance of a period, with transactions for chains 1 and 2. -/
def periodInstance (n : UInt8) : SpecInstance :=
  { id := List.replicate 32 n
    periodId := 1
    sequenceNumber := n.toNat
    xtRequest := buildXtRequest twoChainTxs }

/-- The publisher starts the n-th instance. -/
def periodMessage (n : UInt8) : StartInstance :=
  { instanceId := List.replicate 32 n
    periodId := 1
    sequenceNumber := n.toNat
    xtRequest := some (buildXtRequest twoChainTxs) }

def periodInstanceId (n : UInt8) : InstanceId :=
  InstanceId.fromPublisherBytes (List.replicate 32 n)

/-- Three instances of one period are registered. -/
def threeInstances : CoordinatorState :=
  exec (.bare 1) {} [.startPeriod 1 0, .startInstance (periodInstance 1),
    .startInstance (periodInstance 2), .startInstance (periodInstance 3)]

/-- What `process_xt` of the third one finds of `nonceDiff` when it starts. -/
def thirdReads (st : CoordinatorState) : Option (Option Nat) :=
  match snapshotXt (.bare 1) st (periodInstanceId 3) with
  | .ready _ overrides => some (nonceUnder overrides)
  | _ => none

theorem snapshot_of_thirdReads {nonce : Option Nat} (h : thirdReads st = some nonce) :
    ∃ txs overrides, snapshotXt (.bare 1) st (periodInstanceId 3) = .ready txs overrides ∧
      nonceUnder overrides = nonce := by
  unfold thirdReads at h
  cases hs : snapshotXt (.bare 1) st (periodInstanceId 3) with
  | ready txs overrides =>
    rw [hs] at h
    exact ⟨txs, overrides, rfl, Option.some.inj h⟩
  | missing => simp [hs] at h
  | noLocalTxs => simp [hs] at h

/-- The first instance leaves its diff. -/
def firstRecords : Op := .recordSimulation (periodInstanceId 1) (nonceResult true) ∅

theorem firstRecords_pushes :
    firstRecords.pushes threeInstances = [⟨periodInstanceId 1, nonceDiff⟩] := by
  have hpending : periodInstanceId 1 ∈ threeInstances.pending.keys := by decide
  simp [firstRecords, Op.pushes, hpending, keptOverrides, nonceResult]

theorem recorded_diff_stays_visible_to_third :
    ∃ ops st later txs overrides,
      Run (fun s op t => PeriodStep (.bare 1) (periodInstanceId 1) s op t ∧
        sparesOverlay (.bare 1) (periodInstanceId 1) s.1 op = true)
        (firstRecords.apply (.bare 1) threeInstances, []) ops (st, later) ∧
      decisionOf st (periodInstanceId 1) = some true ∧
      snapshotXt (.bare 1) st (periodInstanceId 3) = .ready txs overrides ∧
      (sets overrides).Shows (sets nonceDiff) (later.map (fun c => sets c.diff)) := by
  have hexec : ((execAll (recordNext (Op.apply (.bare 1)) recordedAfter)
      (fun s op => decide ((op.startsOver = false ∧
        decisionOf (op.apply (.bare 1) s.1) (periodInstanceId 1) ≠ some false) ∧
        sparesOverlay (.bare 1) (periodInstanceId 1) s.1 op = true))
      [.sendVote (periodInstanceId 1) true false 1, .onDecision (periodInstanceId 1) true 2]
      (firstRecords.apply (.bare 1) threeInstances, [])).map
        (fun s => (decisionOf s.1 (periodInstanceId 1), thirdReads s.1))) =
      some (some true, some (some 1)) := by decide
  obtain ⟨s, hs, hfacts⟩ := Option.map_eq_some_iff.mp hexec
  obtain ⟨hone, hthird⟩ := Prod.mk.inj hfacts
  obtain ⟨txs, overrides, hread, -⟩ := snapshot_of_thirdReads hthird
  obtain ⟨ops, hrun⟩ := run_execAll recorded_of_recordNext hs
  have hperiod : Run (fun s op t => PeriodStep (.bare 1) (periodInstanceId 1) s op t ∧
      sparesOverlay (.bare 1) (periodInstanceId 1) s.1 op = true)
      (firstRecords.apply (.bare 1) threeInstances, []) ops (s.1, s.2) := by
    refine hrun.mono (fun s op t hstep => ?_)
    obtain ⟨⟨hst, hlater⟩, ⟨hover, halive⟩, hspares⟩ := hstep
    exact ⟨⟨⟨hst, hlater⟩, hover, by rw [hst]; exact halive⟩, hspares⟩
  exact ⟨ops, s.1, s.2, txs, overrides, hperiod, hone, hread,
    recorded_diff_stays_visible firstRecords_pushes hperiod hread⟩

/-- The publisher commits the first instance and aborts the second; the third starts as if the
first had never run. -/
theorem abort_hides_committed_diff :
    ∃ ops st txs overrides,
      firstRecords.pushes threeInstances = [⟨periodInstanceId 1, nonceDiff⟩] ∧
      Run (PeriodStep (.bare 1) (periodInstanceId 1))
        (firstRecords.apply (.bare 1) threeInstances, []) ops (st, []) ∧
      decisionOf st (periodInstanceId 1) = some true ∧
      snapshotXt (.bare 1) st (periodInstanceId 3) = .ready txs overrides ∧
      ¬(sets overrides).Shows (sets nonceDiff) [] := by
  have hexec : ((execAll (recordNext (Op.apply (.bare 1)) recordedAfter)
      (fun s op => decide (op.startsOver = false ∧
        decisionOf (op.apply (.bare 1) s.1) (periodInstanceId 1) ≠ some false))
      [.onDecision (periodInstanceId 1) true 2, .onDecision (periodInstanceId 2) false 3]
      (firstRecords.apply (.bare 1) threeInstances, [])).map
        (fun s => (decisionOf s.1 (periodInstanceId 1), thirdReads s.1, s.2.isEmpty))) =
      some (some true, some none, true) := by decide
  obtain ⟨s, hs, hfacts⟩ := Option.map_eq_some_iff.mp hexec
  obtain ⟨hone, hrest⟩ := Prod.mk.inj hfacts
  obtain ⟨hthird, hempty⟩ := Prod.mk.inj hrest
  obtain ⟨txs, overrides, hread, hnonce⟩ := snapshot_of_thirdReads hthird
  obtain ⟨ops, hrun⟩ := run_execAll recorded_of_recordNext hs
  have hperiod : Run (PeriodStep (.bare 1) (periodInstanceId 1))
      (firstRecords.apply (.bare 1) threeInstances, []) ops (s.1, s.2) := by
    refine hrun.mono (fun s op t hstep => ?_)
    obtain ⟨⟨hst, hlater⟩, hover, halive⟩ := hstep
    exact ⟨⟨hst, hlater⟩, hover, by rw [hst]; exact halive⟩
  rw [List.isEmpty_iff.mp hempty] at hperiod
  refine ⟨ops, s.1, txs, overrides, firstRecords_pushes, hperiod, hone, hread, ?_⟩
  intro hshows
  obtain ⟨r, -, w, -, hw⟩ := hshows (.nonce (FixedBytes.repeatByte 20 1)) (1 : Nat) rfl
  have hset : nonceUnder overrides = some w := hw
  simp [hnonce] at hset

end Visible

end Sidecar.Coordinator
