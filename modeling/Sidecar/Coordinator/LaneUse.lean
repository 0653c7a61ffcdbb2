import Sidecar.Coordinator.MailboxConservation
import Sidecar.Coordinator.NonceLane
import Sidecar.Coordinator.Representation
import Sidecar.Coordinator.WorldRun

/-! How the coordinator uses the nonce lane of its `putInbox` signer. -/

namespace Sidecar.Coordinator

open Mailbox TaskSystem

section Calls

variable (cfg : Config)

/-- The call to the nonce manager that a step makes, if it makes one. -/
def laneCall (reply : TaskReply) : Task → Option Nonce.Call
  | .command (.release id deps) _ =>
    if cfg.xtBuilderClient && !deps.isEmpty && cfg.putInboxBuilder then
      some (.reserve id deps.length reply.canonical)
    else none
  | .recycle id _ => some (.releaseAborted id)
  | .resetNonces _ => some .reset
  | .confirmNonces (id :: _) => some (.releaseConfirmed id)
  | _ => none

def Move.laneCalls : Move → List Nonce.Call
  | .run t reply => (laneCall cfg reply t).toList
  | _ => []

/-- The calls of a run, in order. -/
def laneCalls (moves : List Move) : List Nonce.Call := moves.flatMap (Move.laneCalls cfg)

theorem laneCalls_snoc (moves : List Move) (m : Move) :
    laneCalls cfg (moves ++ [m]) = laneCalls cfg moves ++ m.laneCalls cfg := by
  simp [laneCalls]

variable {cfg} {reply : TaskReply} {sh sh' : Shared} {t : Task} {next : List Task}
  {es : List Event}

theorem nonces_handleRequest (request : Request) :
    (handleRequest cfg reply sh request).1.nonces = sh.nonces := by
  cases request with
  | submitXt txs waiter =>
    simp only [handleRequest, submitRequest]
    split_ifs <;> rfl
  | forwardedXt id txs originChain originSeq =>
    simp only [handleRequest, handleForwardedXt]
    split <;> rfl
  | startInstance msg =>
    simp only [handleRequest, handleStartInstance]
    split
    · rfl
    · split
      · rfl
      · split <;> rfl
  | peerVote id chainId vote =>
    simp only [handleRequest, handlePeerVote]
    split <;> rfl
  | decision id decision =>
    simp only [handleRequest, onDecision]
    split <;> rfl
  | mailboxMessage msg =>
    simp only [handleRequest, handleMailboxMessage]
    split_ifs <;> rfl
  | startPeriod | rollback | confirmIncluded | cleanup => rfl

/-- The lane changes by that call and by nothing else. -/
theorem nonces_taskStep (h : taskStep cfg reply sh t = some (sh', next, es)) :
    sh'.nonces = (laneCall cfg reply t).elim sh.nonces (fun call => call.apply sh.nonces) := by
  have hfst : ∀ {o : TaskOutcome}, some o = some (sh', next, es) → sh' = o.1 := by
    intro o he
    rw [Option.some.inj he]
  cases t with
  | request request => rw [hfst h, nonces_handleRequest]; rfl
  | submitStandalone txs =>
    rw [hfst h]
    simp only [submitStandalone]
    split <;> rfl
  | sendRequest fingerprint req waiter =>
    rw [hfst h]
    simp only [sendRequest]
    split <;> rfl
  | submit submission registrar =>
    simp only [taskStep] at h
    split_ifs at h <;> rw [hfst h] <;> rfl
  | submitting registrar =>
    rw [hfst h]
    simp only [submitReturns]
    split <;> rfl
  | process id pc =>
    rcases processStep_cases h with ⟨v, rfl, rfl, -, -⟩ | ⟨rfl, rfl, -, -⟩ |
      ⟨st', pc', events, hproc, hop, rfl, -, -⟩ <;> rfl
  | recordVote id v standalone =>
    rw [hfst h]
    simp only [recordLocalVote]
    split <;> rfl
  | command command resume =>
    rw [hfst h]
    cases command with
    | release id deps =>
      simp only [applyBuilderCommand]
      split_ifs with hclient hdeps hbuilder
      · simp_all [laneCall]
      · simp_all [laneCall]
      · simp_all [laneCall]
      · split <;> simp_all [laneCall, Nonce.Call.apply]
    | abort id =>
      simp only [applyBuilderCommand]
      split_ifs
      · rfl
      · split <;> rfl
  | buildPutInbox id deps nonce txs resume =>
    rw [hfst h]
    simp only [buildPutInbox]
    split
    · rfl
    · split <;> rfl
  | release id txs resume =>
    rw [hfst h]
    simp only [releaseXt]
    split <;> rfl
  | publisherVotes votes => cases votes <;> rw [hfst h] <;> rfl
  | confirmNonces ids => cases ids <;> rw [hfst h] <;> rfl
  | submitPublisher | removePending | resolve | awaitInstance | registered | forwardXt | forwarding
    | reject | sendVote | recycle | reportAborted | peerVotes | resetNonces =>
    rw [hfst h]
    rfl
  | notifyWaiters => simp [taskStep] at h

/-- Nonces are reserved by releases only. -/
theorem release_of_laneCall {id : InstanceId} {count : Nat}
    {fetched : Except CoordinatorError Nat}
    (h : laneCall cfg reply t = some (.reserve id count fetched)) :
    ∃ deps resume, t = .command (.release id deps) resume ∧ 1 ≤ count ∧ count = deps.length := by
  unfold laneCall at h
  split at h
  · next id' deps resume =>
    split_ifs at h with hcond
    obtain ⟨rfl, rfl, -⟩ : id' = id ∧ deps.length = count ∧ _ := by simpa using h
    refine ⟨deps, resume, rfl, ?_, rfl⟩
    rw [Nat.one_le_iff_ne_zero, Ne, List.length_eq_zero_iff]
    rintro rfl
    simp at hcond
  all_goals simp at h

/-- A reservation that is there after a call was there before or is what the call made. -/
theorem live_apply {inner : Nonce.Inner} {call : Nonce.Call} {id : InstanceId}
    (h : (call.apply inner).live.lookup id ≠ none) :
    inner.live.lookup id ≠ none ∨ ∃ count fetched, call = .reserve id count fetched := by
  cases call with
  | reserve id' count fetched =>
    cases fetched with
    | error err => exact Or.inl h
    | ok canonical =>
      by_cases hid : id = id'
      · exact Or.inr ⟨count, _, by rw [hid]⟩
      · left
        obtain ⟨range, hrange⟩ := Option.ne_none_iff_exists'.mp h
        have hold : (Nonce.mergeCanonical inner canonical).live.lookup id = some range := by
          have hclaim := Nonce.lookup_claim (Nonce.mergeCanonical inner canonical) id' id
            (Nonce.pickStart (Nonce.mergeCanonical inner canonical) count) count
          rw [if_neg hid] at hclaim
          exact hclaim.symm.trans hrange
        simp [((Nonce.lookup_mergeCanonical inner canonical id range).mp hold).1]
  | releaseConfirmed id' =>
    left
    simp only [Nonce.Call.apply, Nonce.releaseConfirmed] at h
    split at h
    · exact h
    · intro hnone
      rw [Map.lookup_erase_eq] at h
      split_ifs at h <;> simp_all
  | releaseAborted id' =>
    left
    intro hnone
    simp [Nonce.Call.apply, hnone] at h
  | reset => simp [Nonce.Call.apply, Nonce.reset] at h

end Calls

section Tasks

/-- Releases that are ordered and not begun. -/
def Task.toRelease : Task → List InstanceId
  | .command (.release id _) _ => [id]
  | _ => []

theorem lasting_toRelease : Lasting Task.toRelease where
  notified := fun t => by cases t <;> rfl
  request := fun _ => rfl
  notifyWaiters := rfl

variable {cfg : Config} {reply : TaskReply} {sh sh' : Shared} {t : Task} {next : List Task}
  {es : List Event}

theorem toRelease_of_not_onRelease {tasks : List Task} (h : ∀ u ∈ tasks, u.onRelease = false) :
    tasks.flatMap Task.toRelease = [] := by
  rw [List.flatMap_eq_nil_iff]
  intro u hu
  have hoff := h u hu
  unfold Task.onRelease at hoff
  unfold Task.toRelease
  split at hoff <;> simp_all

/-- A step orders one release at most, and only when it decides. -/
theorem toRelease_step (h : taskStep cfg reply sh t = some (sh', next, es)) :
    next.flatMap Task.toRelease = [] ∨ ∃ op id deps, taskOp cfg reply t = some op ∧
      .release id deps ∈ op.commands cfg sh.st ∧ next.flatMap Task.toRelease = [id] := by
  rcases goesOn_or_not h with hgo | hoff
  · cases hgo with
    | @ordered _ op id deps resume hop hc => exact Or.inr ⟨op, id, deps, hop, hc, rfl⟩
    | empty | reserved | signed | complete => exact Or.inl rfl
  · exact Or.inl (toRelease_of_not_onRelease hoff)

end Tasks

section Lane

variable {cfg : Config}

/-- A reservation ends below the largest `u64`. -/
def FitsLane (inner : Nonce.Inner) : Nonce.Call → Prop
  | .reserve _ count (.ok canonical) =>
    Nonce.pickStart (Nonce.mergeCanonical inner canonical) count + count < 2 ^ 64
  | _ => True

/-- No id is registered again while its release is ordered or its nonces are reserved, and the
nonces do not run out. -/
def LaneKept (cfg : Config) (w : World) : Move → Prop
  | .run t reply =>
    (∀ op ∈ taskOp cfg reply t, ∀ r ∈ op.registers cfg w.shared.st,
      r.1 ∉ w.held Task.toRelease ∧ w.shared.nonces.live.lookup r.1 = none) ∧
    ∀ call ∈ laneCall cfg reply t, FitsLane w.shared.nonces call
  | _ => True

instance (inner : Nonce.Inner) : DecidablePred (FitsLane inner)
  | .reserve _ _ (.ok _) => inferInstanceAs (Decidable (_ < _))
  | .reserve _ _ (.error _) | .releaseConfirmed _ | .releaseAborted _ | .reset =>
    inferInstanceAs (Decidable True)

instance (cfg : Config) (w : World) : DecidablePred (LaneKept cfg w)
  | .run _ _ => inferInstanceAs (Decidable ((∀ op ∈ _, ∀ r ∈ _, _ ∧ _) ∧ ∀ call ∈ _, _))
  | .arrive _ | .connection _ | .notify => inferInstanceAs (Decidable True)

/-- Releases are ordered once, and never again while their nonces are reserved: the instance
stays decided all the while. -/
structure LaneInv (w : World) : Prop where
  keyed : KeyedById w.shared.st
  once : (w.held Task.toRelease).Nodup
  free : ∀ id ∈ w.held Task.toRelease, w.shared.nonces.live.lookup id = none
  decided : ∀ id, id ∈ w.held Task.toRelease ∨ w.shared.nonces.live.lookup id ≠ none →
    ∀ xt, w.shared.st.pending.lookup id = some xt → xt.decision ≠ none

theorem laneInv_initial : LaneInv World.initial where
  keyed := by intro id xt h; simp [World.initial] at h
  once := List.nodup_nil
  free := by intro id h; simp [World.initial, held] at h
  decided := by intro id h xt hl; simp [World.initial] at hl

section Step

variable {w : World} {t : Task} {reply : TaskReply} {before after next : List Task} {sh' : Shared}
  {es : List Event}

/-- What is decided right here was neither ordered before nor has nonces. -/
theorem LaneInv.new_order (hi : LaneInv w) {op : Op} {id : InstanceId}
    {deps : List CrossRollupDependency} (hc : .release id deps ∈ op.commands cfg w.shared.st) :
    (id ∉ w.held Task.toRelease ∧ w.shared.nonces.live.lookup id = none) ∧
      ∃ xt', (op.apply cfg w.shared.st).pending.lookup id = some xt' ∧
        xt'.decision = some true := by
  rcases mem_commands cfg w.shared.st hi.keyed op _ hc with ⟨-, hsettles⟩ | ⟨hfalse, -⟩
  · obtain ⟨xt, xt', hl, hl', -, hnone, htrue⟩ := hsettles
    refine ⟨⟨fun hmem => hi.decided id (Or.inl hmem) xt hl hnone, ?_⟩, xt', hl', htrue⟩
    by_contra hlive
    exact hi.decided id (Or.inr hlive) xt hl hnone
  · simp [XtBuilderCommand.commits] at hfalse

/-- A reservation is there before the step, unless the step makes it for a release. -/
theorem live_before (h : taskStep cfg reply w.shared t = some (sh', next, es)) {id : InstanceId}
    (hlive : sh'.nonces.live.lookup id ≠ none) :
    w.shared.nonces.live.lookup id ≠ none ∨
      ∃ deps resume, t = .command (.release id deps) resume := by
  rw [nonces_taskStep h] at hlive
  cases hcall : laneCall cfg reply t with
  | none =>
    rw [hcall] at hlive
    exact Or.inl hlive
  | some call =>
    rw [hcall] at hlive
    rcases live_apply hlive with hold | ⟨count, fetched, rfl⟩
    · exact Or.inl hold
    · obtain ⟨deps, resume, ht, -, -⟩ := release_of_laneCall hcall
      exact Or.inr ⟨deps, resume, ht⟩

/-- A release that is ordered after the step was ordered before, unless the step decides it. -/
theorem ordered_before (h : taskStep cfg reply w.shared t = some (sh', next, es))
    {id : InstanceId} (hid : id ∈ (before ++ next ++ after).flatMap Task.toRelease) :
    id ∈ (before ++ after).flatMap Task.toRelease ∨
      ∃ op deps, taskOp cfg reply t = some op ∧ .release id deps ∈ op.commands cfg w.shared.st := by
  rcases held_split hid with hnext | hrest
  · rcases toRelease_step h with hnil | ⟨op, id', deps, hop, hc, hone⟩
    · simp [hnil] at hnext
    · obtain rfl : id = id' := by simpa [hone] using hnext
      exact Or.inr ⟨op, deps, hop, hc⟩
  · exact Or.inl hrest

theorem laneInv_run (htasks : w.tasks = before ++ t :: after)
    (h : taskStep cfg reply w.shared t = some (sh', next, es))
    (hkept : LaneKept cfg w (.run t reply)) (hi : LaneInv w) :
    LaneInv ⟨sh', before ++ next ++ after, w.log ++ es⟩ := by
  have hdecided : ∀ {id : InstanceId} {xt' : PendingXt},
      id ∈ w.held Task.toRelease ∨ w.shared.nonces.live.lookup id ≠ none →
      sh'.st.pending.lookup id = some xt' → xt'.decision ≠ none := by
    intro id xt' hold hl' hnone
    rcases taskStep_op h with ⟨-, hst⟩ | ⟨op, hop, hst⟩
    · rw [hst] at hl'
      exact hi.decided id hold xt' hl' hnone
    · rw [hst] at hl'
      have hreg : ∀ route, op.registers cfg w.shared.st ≠ some (id, route) := by
        intro route hr
        obtain ⟨hfree, hlive⟩ := hkept.1 op hop (id, route) hr
        exact hold.elim hfree (fun hne => hne hlive)
      obtain ⟨xt, hl, hxt⟩ := undecided_before hreg hl' hnone
      exact hi.decided id hold xt hl hxt
  constructor
  · exact keyedById_taskStep h hi.keyed
  · rcases toRelease_step h with hnil | ⟨op, id, deps, -, hc, hone⟩
    · exact nodup_of_split htasks hi.once (hnil ▸ List.nil_sublist _)
    · exact nodup_of_new htasks hi.once hone (hi.new_order hc).1.1
  · intro id hmem
    by_contra hlive
    rcases ordered_before h hmem with hrest | ⟨op, deps, hop, hc⟩
    · rcases live_before h hlive with hold | ⟨deps, resume, rfl⟩
      · exact hold (hi.free id (held_rest htasks hrest))
      · exact held_once htasks hi.once hrest (List.mem_singleton.mpr rfl)
    · rcases live_before h hlive with hold | ⟨deps', resume, rfl⟩
      · exact hold (hi.new_order hc).1.2
      · simp [taskOp] at hop
  · intro id hid xt' hl'
    have hbefore : (id ∈ w.held Task.toRelease ∨ w.shared.nonces.live.lookup id ≠ none) ∨
        ∃ op deps, taskOp cfg reply t = some op ∧
          .release id deps ∈ op.commands cfg w.shared.st := by
      rcases hid with hmem | hlive
      · exact (ordered_before h hmem).imp_left (fun hrest => Or.inl (held_rest htasks hrest))
      · left
        rcases live_before h hlive with hold | ⟨deps, resume, rfl⟩
        · exact Or.inr hold
        · exact Or.inl (mem_held.mpr ⟨_, mem_of_split htasks, List.mem_singleton.mpr rfl⟩)
    rcases hbefore with hold | ⟨op, deps, hop, hc⟩
    · exact hdecided hold hl'
    · obtain ⟨-, x, hx, htrue⟩ := hi.new_order hc
      rw [← taskStep_apply h hop] at hx
      obtain rfl := Option.some.inj (hx.symm.trans hl')
      simp [htrue]

/-- The promise that the nonce manager relies on. -/
theorem lawful_of_laneInv (htasks : w.tasks = before ++ t :: after) (hi : LaneInv w)
    (hkept : LaneKept cfg w (.run t reply)) {call : Nonce.Call}
    (hcall : laneCall cfg reply t = some call) : Nonce.Lawful w.shared.nonces call := by
  cases call with
  | reserve id count fetched =>
    cases fetched with
    | error err => trivial
    | ok canonical =>
      obtain ⟨deps, resume, rfl, hcount, -⟩ := release_of_laneCall hcall
      have hordered : id ∈ w.held Task.toRelease :=
        mem_held.mpr ⟨_, mem_of_split htasks, List.mem_singleton.mpr rfl⟩
      exact ⟨hcount, hi.free id hordered, hkept.2 _ hcall⟩
  | releaseConfirmed | releaseAborted | reset => trivial

end Step

/-- The calls so far are lawful and lead to the lane as it is. -/
structure LaneRun (cfg : Config) (moves : List Move) (w : World) : Prop where
  inv : LaneInv w
  calls : Run Nonce.Step {} (laneCalls cfg moves) w.shared.nonces

theorem laneRun_step {moves : List Move} {w w' : World} {m : Move}
    (hi : LaneRun cfg moves w) (h : WorldStep cfg w m w') (hkept : LaneKept cfg w m) :
    LaneRun cfg (moves ++ [m]) w' := by
  have hquiet : ∀ {m : Move} {w' : World}, QuietMove w w' → w'.shared.nonces = w.shared.nonces →
      m.laneCalls cfg = [] → LaneRun cfg (moves ++ [m]) w' := by
    intro m w' hq hn hm
    refine ⟨⟨?_, ?_, ?_, ?_⟩, ?_⟩
    · rw [hq.st_eq]
      exact hi.inv.keyed
    · rw [hq.held_eq lasting_toRelease]
      exact hi.inv.once
    · rw [hq.held_eq lasting_toRelease, hn]
      exact hi.inv.free
    · rw [hq.held_eq lasting_toRelease, hn, hq.st_eq]
      exact hi.inv.decided
    · rw [laneCalls_snoc, hm, List.append_nil, hn]
      exact hi.calls
  cases h with
  | arrive request => exact hquiet (quietMove_arrive w request) rfl rfl
  | connection up => exact hquiet (quietMove_connection w up) rfl rfl
  | notify htasks => exact hquiet (quietMove_notify htasks) rfl rfl
  | run hrun =>
    obtain ⟨htasks, hstep⟩ := hrun
    refine ⟨laneInv_run htasks hstep hkept hi.inv, ?_⟩
    rw [laneCalls_snoc, Move.laneCalls]
    cases hcall : laneCall cfg _ _ with
    | none =>
      rw [Option.toList_none, List.append_nil, nonces_taskStep hstep, hcall]
      exact hi.calls
    | some call =>
      rw [nonces_taskStep hstep, hcall]
      exact hi.calls.snoc ⟨lawful_of_laneInv htasks hi.inv hkept hcall, rfl⟩

theorem laneRun_of_run {moves : List Move} {w : World}
    (h : Run (fun w m w' => WorldStep cfg w m w' ∧ LaneKept cfg w m) World.initial moves w) :
    LaneRun cfg moves w :=
  h.invariant_along (fun _ _ _ _ hi hs => laneRun_step hi hs.1 hs.2)
    ⟨laneInv_initial, .nil _⟩

/-- The coordinator keeps its nonce lane in order. However its handlers and tasks interleave: as
long as no id is registered again while its release is under way, every nonce from the floor to
the top has one owner or waits to be issued again, and between two resets, which rollbacks make, a
nonce is issued twice only after its first owner gave it back and no run of nonces starts below one
that was confirmed. -/
theorem coordinator_keeps_the_lane {moves : List Move} {w : World}
    (hrun : Run (fun w m w' => WorldStep cfg w m w' ∧ LaneKept cfg w m) World.initial moves w) :
    w.shared.nonces = Nonce.exec {} (laneCalls cfg moves) ∧ Nonce.Partitioned w.shared.nonces ∧
      Nonce.ReissuedOnlyAfterAbort (laneCalls cfg moves) ∧
      Nonce.StartsAboveConfirmed (laneCalls cfg moves) := by
  have hcalls := (laneRun_of_run hrun).calls
  have hlane : Nonce.Lane w.shared.nonces := hcalls.invariant Nonce.lane_step Nonce.lane_default
  have hcovered : Nonce.Covered w.shared.nonces :=
    hcalls.invariant Nonce.covered_step Nonce.covered_default
  exact ⟨Nonce.run_exec hcalls, Nonce.partitioned_of_covered hlane hcovered,
    Nonce.reissuedOnlyAfterAbort_of_run hcalls, Nonce.startsAboveConfirmed_of_run hcalls⟩

/-- A coordinator of chain 2 that simulates and has a builder. -/
def deliveringConfig : Config :=
  { Config.bare 2 with simulator := true, xtBuilderClient := true, putInboxBuilder := true }

/-- An instance that reads the message of another chain gets it, is simulated again and votes; the
vote of the other chain then commits it. -/
def deliveringPicks : List Pick :=
  let answer (success : Bool) (dependencies : List CrossRollupDependency) : TaskReply :=
    { canonical := .ok 7
      built := .ok [7]
      proc :=
        { simulation := .ok
            { success := success
              error := none
              stateOverrides := none
              dependencies := dependencies
              outboundMessages := [] } } }
  [.arrive (.mailboxMessage (sampleMessage (InstanceId.asBytes "xt-1-1") [1])), .run 0 {}, .notify 0,
    .arrive (.forwardedXt "xt-1-1" sampleTxs 1 1)] ++
    List.replicate 12 (.run 0 (answer false [sampleDependency])) ++
    List.replicate 10 (.run 0 (answer true [])) ++
    [.arrive (.peerVote "xt-1-1" 1 true)] ++ List.replicate 5 (.run 0 (answer true []))

theorem coordinator_keeps_the_lane_delivered : ∃ moves w,
    Run (fun w m w' => WorldStep deliveringConfig w m w' ∧ LaneKept deliveringConfig w m)
      World.initial moves w ∧
    w.shared.nonces.live.lookup "xt-1-1" = some ⟨7, 8⟩ ∧ Nonce.Partitioned w.shared.nonces := by
  have hexec : (execAll (pickStep deliveringConfig)
      (fun w m => decide (LaneKept deliveringConfig w m)) deliveringPicks World.initial).map
        (fun w => w.shared.nonces.live.lookup "xt-1-1") = some (some ⟨7, 8⟩) := by
    decide +kernel
  obtain ⟨w, hw, hlive⟩ := Option.map_eq_some_iff.mp hexec
  obtain ⟨moves, hrun⟩ := run_execAll worldStep_of_pick hw
  exact ⟨moves, w, hrun, hlive, (coordinator_keeps_the_lane hrun).2.1⟩

end Lane

end Sidecar.Coordinator
