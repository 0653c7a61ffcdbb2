import Sidecar.Coordinator.Commands

namespace Sidecar.Coordinator

/-- All commands for the builder along a run, in the order they were decided on. -/
def produced (cfg : Config) : CoordinatorState → List Op → List XtBuilderCommand
  | _, [] => []
  | s, op :: ops => op.commands cfg s ++ produced cfg (op.apply cfg s) ops

/-- A locked part in the life of a registered instance: no rollback, and the entry is
neither removed nor registered anew. -/
structure KeepsXt (cfg : Config) (id : InstanceId) (s : CoordinatorState) (op : Op)
    (t : CoordinatorState) : Prop where
  step : Step cfg s op t
  noRollback : ∀ now, op ≠ .rollback now
  notRegistered : ∀ route, op.registers cfg s ≠ some (id, route)
  present : t.pending.lookup id ≠ none

/-- Commands that let the transactions of an instance run. -/
def isReleaseFor (id : InstanceId) (command : XtBuilderCommand) : Bool :=
  command.target = id && command.commits

def isAbortFor (id : InstanceId) (command : XtBuilderCommand) : Bool :=
  command.target = id && !command.commits

def decisionOf (s : CoordinatorState) (id : InstanceId) : Option Bool :=
  (s.pending.lookup id).bind PendingXt.decision

/-- What holds of the decision and the builder commands of one instance along its life,
which starts in `s` and takes the steps `ops`. -/
structure LifeLaws (cfg : Config) (id : InstanceId) (s : CoordinatorState) (ops : List Op) :
    Prop where
  undecided : decisionOf s id = none
  stable : ∀ before after d, ops = before ++ after →
    decisionOf (exec cfg s before) id = some d → decisionOf (exec cfg s ops) id = some d
  oneRelease : (produced cfg s ops).countP (isReleaseFor id) ≤ 1
  releaseCommitted : ∀ before op after command, ops = before ++ op :: after →
    command ∈ op.commands cfg (exec cfg s before) → isReleaseFor id command = true →
    decisionOf (exec cfg s (before ++ [op])) id = some true
  abortAborted : ∀ before op after command, ops = before ++ op :: after →
    command ∈ op.commands cfg (exec cfg s before) → isAbortFor id command = true →
    decisionOf (exec cfg s (before ++ [op])) id = some false
  exclusive : (produced cfg s ops).any (isReleaseFor id) = true →
    (produced cfg s ops).any (isAbortFor id) = false

theorem run_keeps_exec {cfg : Config} {id : InstanceId} {s t : CoordinatorState} {ops : List Op}
    (h : Run (KeepsXt cfg id) s ops t) : t = exec cfg s ops :=
  run_exec (h.mono (fun _ _ _ hk => hk.step))

theorem keyedById_keeps {cfg : Config} {id : InstanceId} {s t : CoordinatorState}
    {ops : List Op} (h : Run (KeepsXt cfg id) s ops t) (hs : KeyedById s) : KeyedById t :=
  keyedById_run (h.mono (fun _ _ _ hk => hk.step)) hs

/-- In its life an instance keeps the decision it has. -/
theorem decision_step {cfg : Config} {id : InstanceId} {s t : CoordinatorState} {op : Op}
    (h : KeepsXt cfg id s op t) {d : Bool} (hd : decisionOf s id = some d) :
    decisionOf t id = some d := by
  obtain ⟨xt, hl, hxd⟩ := Option.bind_eq_some_iff.mp hd
  have he := xtEffect cfg s op id
  have hp := h.present
  rw [h.step] at hp
  rw [hl] at he
  unfold decisionOf
  rw [h.step]
  generalize hl' : (op.apply cfg s).pending.lookup id = o' at he hp ⊢
  cases he with
  | same => exact hxd
  | touched _ _ hc => exact (congrArg XtCore.decision hc).trans hxd
  | removed => exact absurd rfl hp
  | registered _ _ route _ hr _ => exact absurd hr (h.notRegistered route)
  | voted _ vote standalone now _ =>
    rw [Option.bind_some, castVote_eq]
    cases standalone with
    | false => exact hxd
    | true =>
      have hw : (withLocalVote cfg xt vote now).decision = some d := hxd
      rw [if_pos rfl, standaloneDecision_stable cfg.chainId _ now d hw]
      exact hw
  | peerVoted _ _ _ _ hn => simp [hn] at hxd
  | decided _ _ _ hn => simp [hn] at hxd
  | outdated _ _ now hs =>
    have hf : d = false := by
      cases d with
      | false => rfl
      | true => exact absurd hxd (isStale_decision hs)
    rw [Option.bind_some, hf]
    exact abortUndecided_decision (isStale_decision hs)
  | rolledBack _ now => exact absurd rfl (h.noRollback now)

theorem decision_run {cfg : Config} {id : InstanceId} {s t : CoordinatorState} {ops : List Op}
    (h : Run (KeepsXt cfg id) s ops t) {d : Bool} (hd : decisionOf s id = some d) :
    decisionOf t id = some d :=
  h.invariant (I := fun u => decisionOf u id = some d) (fun _ _ _ hu hs => decision_step hs hu) hd

/-- A command in the life of an instance: what was decided before and what is decided now. -/
theorem command_step {cfg : Config} {id : InstanceId} {s t : CoordinatorState} {op : Op}
    (h : KeepsXt cfg id s op t) (hk : KeyedById s) {command : XtBuilderCommand}
    (hm : command ∈ op.commands cfg s) (hid : command.target = id) :
    decisionOf t id = some command.commits ∧
      (command.commits = true → op.commands cfg s = [command] ∧ decisionOf s id = none) ∧
      (command.commits = false → decisionOf s id ≠ some true) := by
  have hsettles : ∀ was d, Settles cfg s op command.target was d →
      decisionOf t id = some d ∧ decisionOf s id = was := by
    intro was d hs
    obtain ⟨xt, xt', hl, hl', -, hw, hd⟩ := hs
    rw [hid] at hl hl'
    rw [h.step]
    exact ⟨by simp [decisionOf, hl', hd], by simp [decisionOf, hl, hw]⟩
  rcases mem_commands cfg s hk op command hm with ⟨hone, hs⟩ | ⟨hc, was, hs, hwas⟩
  · have hb := hsettles none _ hs
    exact ⟨hb.1, fun _ => ⟨hone, hb.2⟩, fun _ => by simp [hb.2]⟩
  · have hb := hsettles was false hs
    have hnot : was ≠ some true := by
      rcases hwas with hw | ⟨now, hr⟩
      · exact hw
      · exact absurd hr (h.noRollback now)
    exact ⟨by rw [hc]; exact hb.1, fun ht => by simp [hc] at ht, fun _ => by rw [hb.2]; exact hnot⟩

/-- Once an instance is committed no abort is decided on, and the other way round; a decided
instance gets no further release. -/
theorem produced_after_decision {cfg : Config} {id : InstanceId} {s t : CoordinatorState}
    {ops : List Op} (h : Run (KeepsXt cfg id) s ops t) (hk : KeyedById s) {d : Bool}
    (hd : decisionOf s id = some d) :
    ∀ command ∈ produced cfg s ops, command.target = id → command.commits = false ∧ d = false := by
  induction h with
  | nil => simp [produced]
  | @cons s u t op ops hs hr ih =>
    intro command hm hid
    rcases List.mem_append.mp hm with hm | hm
    · have hc := command_step hs hk hm hid
      cases hcommits : command.commits with
      | true => simp [(hc.2.1 hcommits).2] at hd
      | false =>
        refine ⟨rfl, ?_⟩
        have hne := hc.2.2 hcommits
        rw [hd] at hne
        cases d with
        | false => rfl
        | true => exact absurd rfl hne
    · rw [← hs.step] at hm
      have hku : KeyedById u := by
        rw [hs.step]
        exact keyedById_apply cfg s op hk
      exact ih hku (decision_step hs hd) command hm hid

theorem oneRelease_of_run {cfg : Config} {id : InstanceId} {s t : CoordinatorState}
    {ops : List Op} (h : Run (KeepsXt cfg id) s ops t) (hk : KeyedById s) :
    (produced cfg s ops).countP (isReleaseFor id) ≤ 1 := by
  induction h with
  | nil => simp [produced]
  | @cons s u t op ops hs hr ih =>
    have hku : KeyedById u := by
      rw [hs.step]
      exact keyedById_apply cfg s op hk
    rw [produced, List.countP_append, ← hs.step]
    by_cases hany : ∃ command ∈ op.commands cfg s, isReleaseFor id command = true
    · obtain ⟨command, hm, hrel⟩ := hany
      simp only [isReleaseFor, Bool.and_eq_true, decide_eq_true_eq] at hrel
      have hc := command_step hs hk hm hrel.1
      have hrest : (produced cfg u ops).countP (isReleaseFor id) = 0 := by
        rw [List.countP_eq_zero]
        intro other hother hbad
        simp only [isReleaseFor, Bool.and_eq_true, decide_eq_true_eq] at hbad
        have hfalse := (produced_after_decision hr hku hc.1 other hother hbad.1).1
        simp [hbad.2] at hfalse
      have hone : (op.commands cfg s).countP (isReleaseFor id) ≤ 1 := by
        rw [(hc.2.1 hrel.2).1]
        exact List.countP_le_length
      omega
    · have hzero : (op.commands cfg s).countP (isReleaseFor id) = 0 := by
        rw [List.countP_eq_zero]
        intro command hm hrel
        exact hany ⟨command, hm, hrel⟩
      have hrest := ih hku
      omega

theorem exclusive_of_run {cfg : Config} {id : InstanceId} {s t : CoordinatorState}
    {ops : List Op} (h : Run (KeepsXt cfg id) s ops t) (hk : KeyedById s) :
    (produced cfg s ops).any (isReleaseFor id) = true →
      (produced cfg s ops).any (isAbortFor id) = false := by
  induction h with
  | nil => simp [produced]
  | @cons s u t op ops hs hr ih =>
    have hku : KeyedById u := by
      rw [hs.step]
      exact keyedById_apply cfg s op hk
    intro hrel
    rw [Bool.eq_false_iff]
    intro habort
    rw [produced, List.any_append, Bool.or_eq_true, ← hs.step] at hrel habort
    have hsplit : ∀ p : XtBuilderCommand → Bool, (op.commands cfg s).any p = true →
        ∃ command ∈ op.commands cfg s, p command = true := fun p hp => List.any_eq_true.mp hp
    rcases hrel with hrel | hrel
    · obtain ⟨command, hm, hp⟩ := hsplit _ hrel
      simp only [isReleaseFor, Bool.and_eq_true, decide_eq_true_eq] at hp
      have hc := command_step hs hk hm hp.1
      rcases habort with hab | hab
      · rw [(hc.2.1 hp.2).1] at hab
        simp [isAbortFor, hp.2] at hab
      · obtain ⟨other, ho, hbad⟩ := List.any_eq_true.mp hab
        simp only [isAbortFor, Bool.and_eq_true, decide_eq_true_eq] at hbad
        have hd := (produced_after_decision hr hku hc.1 other ho hbad.1).2
        simp [hp.2] at hd
    · rcases habort with hab | hab
      · obtain ⟨command, hm, hp⟩ := hsplit _ hab
        simp only [isAbortFor, Bool.and_eq_true, decide_eq_true_eq] at hp
        have hc := command_step hs hk hm hp.1
        obtain ⟨other, ho, hbad⟩ := List.any_eq_true.mp hrel
        simp only [isReleaseFor, Bool.and_eq_true, decide_eq_true_eq] at hbad
        have hf := (produced_after_decision hr hku hc.1 other ho hbad.1).1
        simp [hbad.2] at hf
      · have hno := ih hku hrel
        rw [hab] at hno
        simp at hno

/-- Decision stability and builder exclusivity: from its registration until its entry is
removed or replaced, without rollbacks, an instance keeps its decision, at most one release
is decided on, releases go with commit and aborts with abort, and never both are there. -/
theorem decision_stable_exclusive (cfg : Config) {pre ops : List Op} {s t : CoordinatorState}
    (hpre : Run (Step cfg) {} pre s) {op : Op} {id : InstanceId} {route : Route}
    (hreg : op.registers cfg s = some (id, route))
    (hlife : Run (KeepsXt cfg id) (op.apply cfg s) ops t) :
    LifeLaws cfg id (op.apply cfg s) ops := by
  have hk : KeyedById (op.apply cfg s) :=
    keyedById_apply cfg s op (keyedById_run hpre keyedById_default)
  -- a step inside the life, with the states around it
  have hsplit : ∀ before o after, ops = before ++ o :: after →
      ∃ u v, KeyedById u ∧ KeepsXt cfg id u o v ∧ u = exec cfg (op.apply cfg s) before ∧
        v = exec cfg (op.apply cfg s) (before ++ [o]) := by
    intro before o after hops
    rw [hops] at hlife
    obtain ⟨u, hu, hr⟩ := hlife.of_append
    cases hr with
    | @cons _ v _ _ _ hs _ =>
      exact ⟨u, v, keyedById_keeps hu hk, hs, run_keeps_exec hu, run_keeps_exec (hu.snoc hs)⟩
  constructor
  · obtain ⟨xt, hl, hf⟩ := registers_fresh cfg s hreg
    simp [decisionOf, hl, hf.decision_eq]
  · intro before after d hops hd
    rw [← run_keeps_exec hlife]
    rw [hops] at hlife
    obtain ⟨u, hu, hr⟩ := hlife.of_append
    rw [← run_keeps_exec hu] at hd
    exact decision_run hr hd
  · exact oneRelease_of_run hlife hk
  · intro before o after command hops hm hrel
    obtain ⟨u, v, hku, hs, hu, hv⟩ := hsplit before o after hops
    simp only [isReleaseFor, Bool.and_eq_true, decide_eq_true_eq] at hrel
    rw [← hu] at hm
    rw [← hv, (command_step hs hku hm hrel.1).1, hrel.2]
  · intro before o after command hops hm hab
    obtain ⟨u, v, hku, hs, hu, hv⟩ := hsplit before o after hops
    simp only [isAbortFor, Bool.and_eq_true, decide_eq_true_eq, Bool.not_eq_true'] at hab
    rw [← hu] at hm
    rw [← hv, (command_step hs hku hm hab.1).1, hab.2]
  · exact exclusive_of_run hlife hk

/-- Transactions for chains 1 and 2. -/
def twoChainTxs : RawTxs := [⟨1, [[0x01]]⟩, ⟨2, [[0x02]]⟩].toAList

def laterTxs : RawTxs := [⟨1, [[0x03]]⟩, ⟨3, [[0x04]]⟩].toAList

/-- A forwarded instance that both chains vote for is released once and stays committed. -/
theorem decision_stable_exclusive_released :
    produced (.bare 1) ((Op.forwardXt "xt-2-1" twoChainTxs 2 1).apply (.bare 1) {})
        [.sendVote "xt-2-1" true true 5, .peerVote "xt-2-1" 2 true 6] =
      [.release "xt-2-1" []] ∧
    LifeLaws (.bare 1) "xt-2-1" ((Op.forwardXt "xt-2-1" twoChainTxs 2 1).apply (.bare 1) {})
      [.sendVote "xt-2-1" true true 5, .peerVote "xt-2-1" 2 true 6] := by
  have hlife : Run (KeepsXt (.bare 1) "xt-2-1")
      ((Op.forwardXt "xt-2-1" twoChainTxs 2 1).apply (.bare 1) {})
      [.sendVote "xt-2-1" true true 5, .peerVote "xt-2-1" 2 true 6] _ :=
    .cons ⟨rfl, by simp, by simp [Op.registers], Option.isSome_iff_ne_none.mp (by decide)⟩ <|
    .cons ⟨rfl, by simp, by simp [Op.registers], Option.isSome_iff_ne_none.mp (by decide)⟩ <|
    .nil _
  exact ⟨by decide, decision_stable_exclusive (.bare 1) (.nil _)
    (show (Op.forwardXt "xt-2-1" twoChainTxs 2 1).registers (.bare 1) {} =
      some ("xt-2-1", .forwarded) by decide) hlife⟩

end Sidecar.Coordinator
