import Sidecar.Coordinator.Step

namespace Sidecar.Coordinator

section Votes

variable (chainId : ChainId) (xt : PendingXt) (now : Instant)

/-- The votes suffice for a commit: as many as there are participants, none against. -/
def VotesSuffice : Prop :=
  false ∉ countedVotes chainId xt ∧ 0 < xt.rawTxs.keys.length ∧
    xt.rawTxs.keys.length ≤ (countedVotes chainId xt).length

/-- The three ways the vote counting ends. -/
theorem standaloneDecision_cases :
    maybeMakeStandaloneDecision chainId xt now = (xt, none) ∨
      (xt.decision = none ∧ false ∈ countedVotes chainId xt ∧
        ∃ n m, maybeMakeStandaloneDecision chainId xt now =
          (xt.recordDecision false now, some (false, n, m))) ∨
      (xt.decision = none ∧ VotesSuffice chainId xt ∧
        ∃ n m, maybeMakeStandaloneDecision chainId xt now =
          (xt.recordDecision true now, some (true, n, m))) := by
  simp only [maybeMakeStandaloneDecision]
  split_ifs with hd hf he
  · exact Or.inl rfl
  · exact Or.inr (Or.inl ⟨by simpa using hd, hf, _, _, rfl⟩)
  · exact Or.inr (Or.inr ⟨by simpa using hd, ⟨hf, he.1, he.2⟩, _, _, rfl⟩)
  · exact Or.inl rfl

/-- The parts of an instance that counting votes never changes. -/
theorem standaloneDecision_frame :
    (maybeMakeStandaloneDecision chainId xt now).1.core =
      { xt.core with decision := (maybeMakeStandaloneDecision chainId xt now).1.decision } := by
  rcases standaloneDecision_cases chainId xt now with h | ⟨-, -, n, m, h⟩ | ⟨-, -, n, m, h⟩ <;>
    rw [h] <;> rfl

theorem standaloneDecision_stable (d : Bool) (hd : xt.decision = some d) :
    maybeMakeStandaloneDecision chainId xt now = (xt, none) := by
  simp [maybeMakeStandaloneDecision, hd]

end Votes

section Cast

variable (cfg : Config) (xt : PendingXt) (vote standalone : Bool) (now : Instant)

/-- The instance after its local vote was written down, before any counting. -/
def withLocalVote : PendingXt :=
  { xt with
    simulatedAt := some now
    voteSent := true
    localVote := some vote
    lockedChains := insert cfg.chainId xt.lockedChains }

theorem castVote_eq : castVote cfg xt vote standalone now =
    if standalone then
      maybeMakeStandaloneDecision cfg.chainId (withLocalVote cfg xt vote now) now
    else (withLocalVote cfg xt vote now, none) :=
  rfl

theorem castVote_frame :
    (castVote cfg xt vote standalone now).1.core =
      { xt.core with
        localVote := some vote
        decision := (castVote cfg xt vote standalone now).1.decision } := by
  rw [castVote_eq]
  cases standalone with
  | false => rfl
  | true => exact standaloneDecision_frame cfg.chainId (withLocalVote cfg xt vote now) now

end Cast

/-- What the life of a registered instance keeps: who it is, what it runs, and its local
vote once there is one. -/
structure SameXt (xt xt' : PendingXt) : Prop where
  id_eq : xt'.id = xt.id
  instanceId_eq : xt'.instanceId = xt.instanceId
  periodId_eq : xt'.periodId = xt.periodId
  rawTxs_eq : xt'.rawTxs = xt.rawTxs
  originChain_eq : xt'.originChain = xt.originChain
  localVote_stays : ∀ v, xt.localVote = some v → xt'.localVote = some v

theorem sameXt_of_core {xt xt' : PendingXt} {decision localVote : Option Bool}
    {peerVotes : Map ChainId Bool}
    (h : xt'.core = { xt.core with
      decision := decision, localVote := localVote, peerVotes := peerVotes })
    (hv : ∀ v, xt.localVote = some v → localVote = some v) : SameXt xt xt' := by
  have hvote : xt'.localVote = localVote := congrArg XtCore.localVote h
  exact ⟨congrArg XtCore.id h, congrArg XtCore.instanceId h, congrArg XtCore.periodId h,
    congrArg XtCore.rawTxs h, congrArg XtCore.originChain h, fun v hxt => hvote.trans (hv v hxt)⟩

/-- An effect that is no registration found the instance there and kept it. -/
theorem sameXt_of_effect {cfg : Config} {st : CoordinatorState} {op : Op} {id : InstanceId}
    {o : Option PendingXt} {xt' : PendingXt} (h : XtEffect cfg st op id o (some xt'))
    (hreg : ∀ route, op.registers cfg st ≠ some (id, route)) :
    ∃ xt, o = some xt ∧ SameXt xt xt' := by
  cases h with
  | same => exact ⟨xt', rfl, sameXt_of_core rfl (fun _ hv => hv)⟩
  | @touched _ _ xt _ hc => exact ⟨xt, rfl, sameXt_of_core hc (fun _ hv => hv)⟩
  | registered _ _ route _ hr _ => exact absurd hr (hreg route)
  | @voted _ vote standalone now xt hn =>
    refine ⟨xt, rfl, sameXt_of_core (castVote_frame cfg xt vote standalone now) ?_⟩
    intro v hv
    simp [hn] at hv
  | @peerVoted _ chainId vote now xt _ _ =>
    exact ⟨xt, rfl, sameXt_of_core (standaloneDecision_frame cfg.chainId
      { xt with peerVotes := xt.peerVotes.insert chainId vote } now) (fun _ hv => hv)⟩
  | @decided _ _ _ xt _ => exact ⟨xt, rfl, sameXt_of_core rfl (fun _ hv => hv)⟩
  | @outdated _ _ now xt _ =>
    refine ⟨xt, rfl, ?_⟩
    unfold abortUndecided
    split_ifs
    · exact sameXt_of_core rfl (fun _ hv => hv)
    · exact sameXt_of_core rfl (fun _ hv => hv)
  | rolledBack _ now xt =>
    refine ⟨xt, rfl, ?_⟩
    unfold forceAbort
    split_ifs
    · exact sameXt_of_core rfl (fun _ hv => hv)
    · exact sameXt_of_core rfl (fun _ hv => hv)

theorem SameXt.refl (xt : PendingXt) : SameXt xt xt := sameXt_of_core rfl (fun _ hv => hv)

theorem SameXt.trans {a b c : PendingXt} (h : SameXt a b) (k : SameXt b c) : SameXt a c :=
  ⟨k.id_eq.trans h.id_eq, k.instanceId_eq.trans h.instanceId_eq,
    k.periodId_eq.trans h.periodId_eq, k.rawTxs_eq.trans h.rawTxs_eq,
    k.originChain_eq.trans h.originChain_eq,
    fun v hv => k.localVote_stays v (h.localVote_stays v hv)⟩

/-- An instance that is pending after a locked part which did not register it was pending
before, and is the same. -/
theorem entry_kept {cfg : Config} {st : CoordinatorState} {op : Op} {id : InstanceId}
    {xt' : PendingXt} (hreg : ∀ route, op.registers cfg st ≠ some (id, route))
    (h : (op.apply cfg st).pending.lookup id = some xt') :
    ∃ xt, st.pending.lookup id = some xt ∧ SameXt xt xt' := by
  have he := xtEffect cfg st op id
  rw [h] at he
  exact sameXt_of_effect he hreg

/-- An instance that no locked part takes out stays pending. -/
theorem present_apply {cfg : Config} {st : CoordinatorState} {op : Op} {id : InstanceId}
    {xt : PendingXt} (hl : st.pending.lookup id = some xt) (h : op.removes id = false) :
    ∃ xt', (op.apply cfg st).pending.lookup id = some xt' := by
  have he := xtEffect cfg st op id
  rw [hl] at he
  cases hl' : (op.apply cfg st).pending.lookup id with
  | some xt' => exact ⟨xt', rfl⟩
  | none =>
    rw [hl'] at he
    cases he with
    | removed _ _ _ hr => simp [h] at hr

/-- A locked part that neither registers nor removes an instance keeps its entry. -/
theorem entry_survives {cfg : Config} {st : CoordinatorState} {op : Op} {id : InstanceId}
    {xt : PendingXt} (hreg : ∀ route, op.registers cfg st ≠ some (id, route))
    (hrem : op.removes id = false) (hl : st.pending.lookup id = some xt) :
    ∃ xt', (op.apply cfg st).pending.lookup id = some xt' ∧ SameXt xt xt' := by
  have hpresent : ∃ xt', (op.apply cfg st).pending.lookup id = some xt' := present_apply hl hrem
  obtain ⟨xt', hl'⟩ := hpresent
  obtain ⟨x, hx, hsame⟩ := entry_kept hreg hl'
  rw [Option.some.inj (hl.symm.trans hx)]
  exact ⟨xt', hl', hsame⟩

/-- A locked part that neither registers nor removes keeps every entry. -/
theorem entry_stays {cfg : Config} {st : CoordinatorState} {op : Op} {id : InstanceId}
    {xt : PendingXt} (hreg : op.registers cfg st = none) (hrem : op.removes id = false)
    (hl : st.pending.lookup id = some xt) :
    ∃ xt', (op.apply cfg st).pending.lookup id = some xt' ∧ SameXt xt xt' :=
  entry_survives (fun route hr => by simp [hreg] at hr) hrem hl

/-- Every instance is pending under its own id. -/
def KeyedById (st : CoordinatorState) : Prop :=
  ∀ id xt, st.pending.lookup id = some xt → xt.id = id

theorem keyedById_default : KeyedById {} := by
  intro id xt h
  simp at h

theorem keyedById_apply (cfg : Config) (st : CoordinatorState) (op : Op) (h : KeyedById st) :
    KeyedById (op.apply cfg st) := by
  intro id xt hx
  by_cases hreg : ∃ route, op.registers cfg st = some (id, route)
  · obtain ⟨route, hr⟩ := hreg
    obtain ⟨x, hl, hf⟩ := registers_fresh cfg st hr
    obtain rfl := Option.some.inj (hl.symm.trans hx)
    exact hf.id_eq
  · obtain ⟨x, hl, hsame⟩ := entry_kept (fun route hr => hreg ⟨route, hr⟩) hx
    exact hsame.id_eq.trans (h id x hl)

/-- One locked part. -/
def Step (cfg : Config) (s : CoordinatorState) (op : Op) (t : CoordinatorState) : Prop :=
  t = op.apply cfg s

def exec (cfg : Config) (s : CoordinatorState) (ops : List Op) : CoordinatorState :=
  ops.foldl (fun st op => op.apply cfg st) s

theorem run_exec {cfg : Config} {s t : CoordinatorState} {ops : List Op}
    (h : Run (Step cfg) s ops t) : t = exec cfg s ops := by
  induction h with
  | nil => rfl
  | cons hs _ ih =>
    rw [ih, hs]
    rfl

theorem exec_run (cfg : Config) (ops : List Op) (s : CoordinatorState) :
    Run (Step cfg) s ops (exec cfg s ops) := by
  induction ops generalizing s with
  | nil => exact .nil s
  | cons op ops ih => exact .cons rfl (ih (op.apply cfg s))

theorem keyedById_run {cfg : Config} {s t : CoordinatorState} {ops : List Op}
    (h : Run (Step cfg) s ops t) (hs : KeyedById s) : KeyedById t := by
  refine h.invariant (fun u op v hu hv => ?_) hs
  rw [hv]
  exact keyedById_apply cfg u op hu

section Produced

variable (cfg : Config) (st : CoordinatorState)

/-- A count that ends in a decision found none before and wrote it down. -/
theorem standaloneDecision_made {chainId : ChainId} {xt : PendingXt} {now : Instant} {d : Bool}
    {n m : Nat} (h : (maybeMakeStandaloneDecision chainId xt now).2 = some (d, n, m)) :
    xt.decision = none ∧ (maybeMakeStandaloneDecision chainId xt now).1.decision = some d := by
  rcases standaloneDecision_cases chainId xt now with he | ⟨hd, -, _, _, he⟩ | ⟨hd, -, _, _, he⟩
  · simp [he] at h
  · rw [he] at h ⊢
    have hf : false = d := (Prod.mk.inj (Option.some.inj h)).1
    exact ⟨hd, by rw [← hf]; rfl⟩
  · rw [he] at h ⊢
    have ht : true = d := (Prod.mk.inj (Option.some.inj h)).1
    exact ⟨hd, by rw [← ht]; rfl⟩

theorem castVote_made {xt : PendingXt} {vote standalone : Bool} {now : Instant} {d : Bool}
    {n m : Nat} (h : (castVote cfg xt vote standalone now).2 = some (d, n, m)) :
    xt.decision = none ∧ (castVote cfg xt vote standalone now).1.decision = some d := by
  rw [castVote_eq] at h ⊢
  cases standalone with
  | false => simp at h
  | true => exact standaloneDecision_made h

/-- The step acts on a local instance and leaves it decided `d`; `was` is what it found. -/
def Settles (op : Op) (id : InstanceId) (was : Option Bool) (d : Bool) : Prop :=
  ∃ xt xt', st.pending.lookup id = some xt ∧ (op.apply cfg st).pending.lookup id = some xt' ∧
    xt.runsOn cfg.chainId = true ∧ xt.decision = was ∧ xt'.decision = some d

theorem runsOn_of_core {xt xt' : PendingXt} (h : xt'.core.rawTxs = xt.core.rawTxs)
    (chainId : ChainId) : xt'.runsOn chainId = xt.runsOn chainId := by
  have hraw : xt'.rawTxs = xt.rawTxs := h
  simp only [PendingXt.runsOn, PendingXt.txsOf, hraw]

theorem localBuilderCommand_some {chainId : ChainId} {xt : PendingXt} {d : Bool}
    {command : XtBuilderCommand} (h : localBuilderCommand chainId xt d = some command) :
    xt.runsOn chainId = true ∧ command =
      if d then .release xt.id (depsForChain xt.fulfilledDeps chainId) else .abort xt.id := by
  unfold localBuilderCommand at h
  split_ifs at h with hr hd
  · exact ⟨hr, by rw [if_pos hd]; exact (Option.some.inj h).symm⟩
  · exact ⟨hr, by rw [if_neg hd]; exact (Option.some.inj h).symm⟩

/-- The instance a command is for. -/
def XtBuilderCommand.target : XtBuilderCommand → InstanceId
  | .release id _ => id
  | .abort id => id

/-- Whether a command lets the transactions run. -/
def XtBuilderCommand.commits : XtBuilderCommand → Bool
  | .release _ _ => true
  | .abort _ => false

theorem localBuilderCommand_target {chainId : ChainId} {xt : PendingXt} {d : Bool}
    {command : XtBuilderCommand} (h : localBuilderCommand chainId xt d = some command) :
    xt.runsOn chainId = true ∧ command.target = xt.id ∧ command.commits = d := by
  obtain ⟨hr, rfl⟩ := localBuilderCommand_some h
  cases d <;> exact ⟨hr, rfl, rfl⟩

theorem decidedCommand_some {xt : PendingXt} {made : Option (Bool × Nat × Nat)}
    {command : XtBuilderCommand} (h : decidedCommand cfg xt made = some command) :
    xt.runsOn cfg.chainId = true ∧ command.target = xt.id ∧
      ∃ n m, made = some (command.commits, n, m) := by
  cases made with
  | none => simp [decidedCommand] at h
  | some made =>
    obtain ⟨d, n, m⟩ := made
    obtain ⟨hr, ht, hc⟩ := localBuilderCommand_target (show
      localBuilderCommand cfg.chainId xt d = some command from h)
    exact ⟨hr, ht, n, m, by rw [hc]⟩

/-- Commands of votes and decisions: one at most, for an instance decided right here. -/
def DecidedHere (op : Op) : Prop :=
  op.commands cfg st = [] ∨
    ∃ command, op.commands cfg st = [command] ∧
      Settles cfg st op command.target none command.commits

theorem sendVote_decidedHere (hk : KeyedById st) (id : InstanceId) (vote standalone : Bool)
    (now : Instant) : DecidedHere cfg st (.sendVote id vote standalone now) := by
  unfold DecidedHere Settles
  simp only [Op.commands, Op.apply, recordVote]
  cases hl : st.pending.lookup id with
  | none => exact Or.inl rfl
  | some xt =>
    dsimp only
    split_ifs with hv
    · exact Or.inl rfl
    · dsimp only [Option.bind_some]
      cases hc : decidedCommand cfg (castVote cfg xt vote standalone now).1
          (castVote cfg xt vote standalone now).2 with
      | none => exact Or.inl rfl
      | some command =>
        have hframe := castVote_frame cfg xt vote standalone now
        obtain ⟨hr, ht, n, m, hm⟩ := decidedCommand_some cfg hc
        have hmade := castVote_made cfg hm
        have hid : command.target = id :=
          ht.trans ((congrArg XtCore.id hframe).trans (hk id xt hl))
        refine Or.inr ⟨command, rfl, xt, (castVote cfg xt vote standalone now).1, ?_, ?_, ?_,
          hmade.1, hmade.2⟩
        · rw [hid, hl]
        · rw [hid, lookup_updateXt, if_pos rfl, hl]
          rfl
        · have hraw : (castVote cfg xt vote standalone now).1.core.rawTxs = xt.core.rawTxs := by
            rw [hframe]
          rw [← runsOn_of_core hraw]
          exact hr

theorem peerVote_decidedHere (hk : KeyedById st) (id : InstanceId) (chainId : ChainId)
    (vote : Bool) (now : Instant) : DecidedHere cfg st (.peerVote id chainId vote now) := by
  unfold DecidedHere Settles
  simp only [Op.commands, Op.apply, recordPeerVote]
  cases hl : st.pending.lookup id with
  | none => exact Or.inl rfl
  | some xt =>
    dsimp only
    split_ifs with hd hv
    · exact Or.inl rfl
    · exact Or.inl rfl
    · dsimp only
      generalize hx : ({ xt with peerVotes := xt.peerVotes.insert chainId vote } : PendingXt) = x
      cases hc : decidedCommand cfg (maybeMakeStandaloneDecision cfg.chainId x now).1
          (maybeMakeStandaloneDecision cfg.chainId x now).2 with
      | none => exact Or.inl rfl
      | some command =>
        have hframe := standaloneDecision_frame cfg.chainId x now
        obtain ⟨hr, ht, n, m, hm⟩ := decidedCommand_some cfg hc
        have hmade := standaloneDecision_made hm
        have hxid : x.id = xt.id := by rw [← hx]
        have hid : command.target = id :=
          ht.trans ((congrArg XtCore.id hframe).trans (hxid.trans (hk id xt hl)))
        have hxraw : x.core.rawTxs = xt.core.rawTxs := by rw [← hx]; rfl
        refine Or.inr ⟨command, rfl, xt, (maybeMakeStandaloneDecision cfg.chainId x now).1, ?_, ?_,
          ?_, by simpa using hd, hmade.2⟩
        · rw [hid, hl]
        · rw [hid, lookup_updateXt, if_pos rfl, hl]
          rfl
        · have hraw : (maybeMakeStandaloneDecision cfg.chainId x now).1.core.rawTxs =
              x.core.rawTxs := by rw [hframe]
          rw [← runsOn_of_core hxraw, ← runsOn_of_core hraw]
          exact hr

theorem onDecision_decidedHere (hk : KeyedById st) (id : InstanceId) (d : Bool)
    (now : Instant) : DecidedHere cfg st (.onDecision id d now) := by
  unfold DecidedHere Settles
  simp only [Op.commands, Op.apply, recordPublisherDecision]
  cases hl : st.pending.lookup id with
  | none => exact Or.inl rfl
  | some xt =>
    dsimp only
    by_cases hd : xt.decision.isSome = true
    · rw [if_pos hd]
      exact Or.inl rfl
    · rw [if_neg hd]
      dsimp only
      cases hc : localBuilderCommand cfg.chainId (xt.recordDecision d now) d with
      | none => exact Or.inl rfl
      | some command =>
        obtain ⟨hr, ht, hcommits⟩ := localBuilderCommand_target hc
        have hid : command.target = id := ht.trans (hk id xt hl)
        refine Or.inr ⟨command, rfl, xt, xt.recordDecision d now, ?_, ?_, hr, by simpa using hd, ?_⟩
        · rw [hid, hl]
        · rw [hid, lookup_updateXt, if_pos rfl, hl]
          rfl
        · rw [hcommits]
          rfl

theorem mem_abortIds_lookup (p : PendingXt → Bool) (id : InstanceId) :
    id ∈ abortIds cfg p st ↔ ∃ key xt, st.pending.lookup key = some xt ∧ p xt = true ∧
      xt.runsOn cfg.chainId = true ∧ xt.id = id := by
  simp only [abortIds, List.mem_map, List.mem_filter, Map.mem_values, Bool.and_eq_true]
  constructor
  · rintro ⟨xt, ⟨⟨key, hl⟩, hp, hr⟩, hid⟩
    exact ⟨key, xt, hl, hp, hr, hid⟩
  · rintro ⟨key, xt, hl, hp, hr, hid⟩
    exact ⟨xt, ⟨⟨key, hl⟩, hp, hr⟩, hid⟩

theorem mem_abortIds (hk : KeyedById st) (p : PendingXt → Bool) (id : InstanceId) :
    id ∈ abortIds cfg p st ↔
      ∃ xt, st.pending.lookup id = some xt ∧ p xt = true ∧ xt.runsOn cfg.chainId = true := by
  rw [mem_abortIds_lookup]
  constructor
  · rintro ⟨key, xt, hl, hp, hr, hid⟩
    have hkey : key = id := (hk key xt hl).symm.trans hid
    exact ⟨xt, hkey ▸ hl, hp, hr⟩
  · rintro ⟨xt, hl, hp, hr⟩
    exact ⟨id, xt, hl, hp, hr, hk id xt hl⟩

theorem abortUndecided_decision {xt : PendingXt} {now : Instant} (h : xt.decision ≠ some true) :
    (abortUndecided xt now).decision = some false := by
  unfold abortUndecided
  cases hd : xt.decision with
  | none => simp [PendingXt.recordDecision]
  | some d =>
    cases d with
    | false => simp [hd]
    | true => exact absurd hd h

theorem forceAbort_decision (xt : PendingXt) (now : Instant) :
    (forceAbort xt now).decision = some false := by
  unfold forceAbort
  split_ifs with h
  · rfl
  · simpa using h

theorem isStale_decision {periodId : PeriodId} {xt : PendingXt} (h : isStale periodId xt = true) :
    xt.decision ≠ some true := by
  simp only [isStale, Bool.and_eq_true, bne_iff_ne] at h
  exact h.2

/-- Where a command can come from: a decision taken right here, an abort of a stale instance
that is not committed, or a rollback. -/
theorem mem_commands (hk : KeyedById st) (op : Op) (command : XtBuilderCommand)
    (h : command ∈ op.commands cfg st) :
    (op.commands cfg st = [command] ∧ Settles cfg st op command.target none command.commits) ∨
      (command.commits = false ∧ ∃ was, Settles cfg st op command.target was false ∧
        (was ≠ some true ∨ ∃ now, op = .rollback now)) := by
  have hhere : DecidedHere cfg st op →
      op.commands cfg st = [command] ∧ Settles cfg st op command.target none command.commits := by
    intro hd
    rcases hd with he | ⟨c, hc, hs⟩
    · simp [he] at h
    · rw [hc, List.mem_singleton] at h
      rw [h]
      exact ⟨hc, hs⟩
  cases op with
  | sendVote id vote standalone now =>
    exact Or.inl (hhere (sendVote_decidedHere cfg st hk id vote standalone now))
  | peerVote id chainId vote now =>
    exact Or.inl (hhere (peerVote_decidedHere cfg st hk id chainId vote now))
  | onDecision id d now => exact Or.inl (hhere (onDecision_decidedHere cfg st hk id d now))
  | startPeriod periodId now =>
    obtain ⟨id, hmem, rfl⟩ := List.mem_map.mp h
    obtain ⟨xt, hl, hs, hr⟩ := (mem_abortIds cfg st hk _ id).mp hmem
    refine Or.inr ⟨rfl, xt.decision, ⟨xt, abortUndecided xt now, hl, ?_, hr, rfl,
      abortUndecided_decision (isStale_decision hs)⟩, Or.inl (isStale_decision hs)⟩
    simp [Op.apply, openPeriod, XtBuilderCommand.target, hl, hs]
  | rollback now =>
    obtain ⟨id, hmem, rfl⟩ := List.mem_map.mp h
    obtain ⟨xt, hl, -, hr⟩ := (mem_abortIds cfg st hk _ id).mp hmem
    refine Or.inr ⟨rfl, xt.decision, ⟨xt, forceAbort xt now, hl, ?_, hr, rfl,
      forceAbort_decision xt now⟩, Or.inr ⟨now, rfl⟩⟩
    simp [Op.apply, rollBack, XtBuilderCommand.target, hl]
  | submitXt | forwardXt | startInstance | removePending | confirm | cleanup | mailbox | enqueue
    | resolve | lockChain | recordSimulation | fulfill | dispatch => simp [Op.commands] at h

end Produced

section Released

theorem localBuilderCommand_release {chainId : ChainId} {xt : PendingXt} {d : Bool}
    {id : InstanceId} {deps : List CrossRollupDependency}
    (h : localBuilderCommand chainId xt d = some (.release id deps)) :
    id = xt.id ∧ deps = depsForChain xt.fulfilledDeps chainId := by
  obtain ⟨-, hcommand⟩ := localBuilderCommand_some h
  cases d with
  | false => simp at hcommand
  | true =>
    exact XtBuilderCommand.release.inj hcommand

theorem decidedCommand_release {cfg : Config} {xt : PendingXt} {made : Option (Bool × Nat × Nat)}
    {id : InstanceId} {deps : List CrossRollupDependency}
    (h : decidedCommand cfg xt made = some (.release id deps)) :
    id = xt.id ∧ deps = depsForChain xt.fulfilledDeps cfg.chainId := by
  cases made with
  | none => simp [decidedCommand] at h
  | some counts => exact localBuilderCommand_release h

/-- A release that is decided on carries the dependencies that were fulfilled for the chain. -/
theorem released_deps {cfg : Config} {st : CoordinatorState} (hk : KeyedById st) {op : Op}
    {id : InstanceId} {deps : List CrossRollupDependency}
    (h : .release id deps ∈ op.commands cfg st) :
    ∃ xt, (op.apply cfg st).pending.lookup id = some xt ∧
      deps = depsForChain xt.fulfilledDeps cfg.chainId := by
  -- the entry that the command was made from is the one that the locked part leaves
  have hentry : ∀ {key : InstanceId} {xt y : PendingXt} {st' : CoordinatorState},
      st.pending.lookup key = some xt → y.id = xt.id →
      st'.pending = (st.updateXt key (fun _ => y)).pending →
      id = y.id ∧ deps = depsForChain y.fulfilledDeps cfg.chainId →
      ∃ x, st'.pending.lookup id = some x ∧
        deps = depsForChain x.fulfilledDeps cfg.chainId := by
    intro key xt y st' hl hid hpending hy
    refine ⟨y, ?_, hy.2⟩
    rw [hy.1, hid, hk key xt hl, hpending, lookup_updateXt, if_pos rfl, hl]
    rfl
  cases op with
  | sendVote key vote standalone now =>
    simp only [Op.commands, Op.apply, recordVote] at h ⊢
    cases hl : st.pending.lookup key with
    | none => simp [hl] at h
    | some xt =>
      simp only [hl] at h ⊢
      split_ifs at h ⊢
      · simp at h
      · have hid : (castVote cfg xt vote standalone now).1.id = xt.id :=
          congrArg XtCore.id (castVote_frame cfg xt vote standalone now)
        exact hentry hl hid rfl (decidedCommand_release (Option.mem_toList.mp h))
  | peerVote key chainId vote now =>
    simp only [Op.commands, Op.apply, recordPeerVote] at h ⊢
    cases hl : st.pending.lookup key with
    | none => simp [hl] at h
    | some xt =>
      simp only [hl] at h ⊢
      split_ifs at h ⊢
      · simp at h
      · simp at h
      · have hid := congrArg XtCore.id (standaloneDecision_frame cfg.chainId
          { xt with peerVotes := xt.peerVotes.insert chainId vote } now)
        exact hentry hl hid rfl (decidedCommand_release (Option.mem_toList.mp h))
  | onDecision key decision now =>
    simp only [Op.commands, Op.apply, recordPublisherDecision] at h ⊢
    cases hl : st.pending.lookup key with
    | none => simp [hl] at h
    | some xt =>
      simp only [hl] at h ⊢
      by_cases hd : xt.decision.isSome = true
      · simp [hd] at h
      · rw [if_neg hd] at h ⊢
        dsimp only at h ⊢
        have hy := localBuilderCommand_release (Option.mem_toList.mp h)
        exact @hentry key xt (xt.recordDecision decision now) _ hl rfl rfl hy
  | startPeriod | rollback =>
    obtain ⟨i, -, hi⟩ := List.mem_map.mp h
    simp at hi
  | _ => exact absurd h List.not_mem_nil

end Released

end Sidecar.Coordinator
