import Sidecar.Coordinator.Validity

namespace Sidecar.Coordinator

/-- The route by which an instance was last registered along a run. -/
def lastRoute (cfg : Config) (id : InstanceId) :
    CoordinatorState → Option Route → List Op → Option Route
  | _, route, [] => route
  | s, route, op :: ops =>
    let next := match op.registers cfg s with
      | some (id', route') => if id' = id then some route' else route
      | none => route
    lastRoute cfg id (op.apply cfg s) next ops

/-- Along the run a publisher's instance becomes committed, and is released to the builder,
only by the publisher's own decision. -/
def PublisherDecides (cfg : Config) (ops : List Op) : Prop :=
  ∀ before op after id, ops = before ++ op :: after →
    lastRoute cfg id {} none before = some .started →
    (decisionOf (exec cfg {} before) id ≠ some true →
        decisionOf (exec cfg {} (before ++ [op])) id = some true →
        ∃ now, op = .onDecision id true now) ∧
      ∀ command ∈ op.commands cfg (exec cfg {} before), isReleaseFor id command = true →
        ∃ now, op = .onDecision id true now

/-- A vote on an undecided instance of the publisher does not complete the count. Local votes
are counted only when they are cast without a connection. -/
def CountStaysOpen (cfg : Config) (s : CoordinatorState) : Op → Prop
  | .sendVote id vote standalone now => standalone = true → ∀ xt,
      s.pending.lookup id = some xt → xt.originChain = none → xt.decision = none →
      xt.localVote = none → ¬VotesSuffice cfg.chainId (withLocalVote cfg xt vote now)
  | .peerVote id chainId vote _ => ∀ xt,
      s.pending.lookup id = some xt → xt.originChain = none → xt.decision = none →
      chainId ∉ xt.peerVotes →
      ¬VotesSuffice cfg.chainId { xt with peerVotes := xt.peerVotes.insert chainId vote }
  | _ => True

/-- An entry has no origin chain exactly when the publisher started it. -/
def OriginTells (s : CoordinatorState) (id : InstanceId) (route : Option Route) : Prop :=
  ∀ xt, s.pending.lookup id = some xt → (xt.originChain = none ↔ route = some .started)

theorem originTells_step (cfg : Config) (s : CoordinatorState) (op : Op) (id : InstanceId)
    (route : Option Route) (h : OriginTells s id route) :
    OriginTells (op.apply cfg s) id (match op.registers cfg s with
      | some (id', route') => if id' = id then some route' else route
      | none => route) := by
  intro xt' hl'
  cases hr : op.registers cfg s with
  | some reg =>
    obtain ⟨id', route'⟩ := reg
    dsimp only
    split_ifs with hid
    · rw [hid] at hr
      obtain ⟨xt, hl, hf⟩ := registers_fresh cfg s hr
      obtain rfl := Option.some.inj (hl.symm.trans hl')
      rw [hf.origin_iff, Option.some.injEq]
    · have he := xtEffect cfg s op id
      rw [hl'] at he
      generalize hl : s.pending.lookup id = o at he
      cases he with
      | same => exact h xt' hl
      | registered _ _ _ _ hreg _ =>
        rw [hr] at hreg
        exact absurd (Prod.mk.inj (Option.some.inj hreg)).1 hid
      | @touched _ _ xt _ hc =>
        have ho : xt'.originChain = xt.originChain := congrArg XtCore.originChain hc
        rw [ho]
        exact h xt hl
      | voted | peerVoted | decided | outdated | rolledBack => simp [Op.registers] at hr
  | none =>
    have he := xtEffect cfg s op id
    rw [hl'] at he
    generalize hl : s.pending.lookup id = o at he
    have hkeep : ∀ xt, o = some xt → xt'.originChain = xt.originChain →
        (xt'.originChain = none ↔ route = some .started) := by
      intro xt hx ho
      rw [ho]
      exact h xt (hl.trans hx)
    cases he with
    | same => exact hkeep xt' rfl rfl
    | @touched _ _ xt _ hc => exact hkeep xt rfl (congrArg XtCore.originChain hc)
    | registered _ _ _ _ hreg _ => simp [hr] at hreg
    | @voted _ vote standalone now xt _ =>
      exact hkeep xt rfl (congrArg XtCore.originChain (castVote_frame cfg xt vote standalone now))
    | @peerVoted _ chainId vote now xt _ _ =>
      exact hkeep xt rfl (congrArg XtCore.originChain (standaloneDecision_frame cfg.chainId
        { xt with peerVotes := xt.peerVotes.insert chainId vote } now))
    | @decided _ _ _ xt _ => exact hkeep xt rfl rfl
    | @outdated _ _ now xt _ =>
      refine hkeep xt rfl ?_
      unfold abortUndecided
      split_ifs <;> rfl
    | rolledBack _ now xt =>
      refine hkeep xt rfl ?_
      unfold forceAbort
      split_ifs <;> rfl

theorem originTells_run (cfg : Config) (id : InstanceId) (ops : List Op) (s : CoordinatorState)
    (route : Option Route) (h : OriginTells s id route) :
    OriginTells (exec cfg s ops) id (lastRoute cfg id s route ops) := by
  induction ops generalizing s route with
  | nil => exact h
  | cons op ops ih => exact ih _ _ (originTells_step cfg s op id route h)

/-- A vote that does not complete the count does not commit. -/
theorem standaloneDecision_open {chainId : ChainId} {xt : PendingXt} {now : Instant}
    (h : xt.decision = none → ¬VotesSuffice chainId xt) (hd : xt.decision ≠ some true) :
    (maybeMakeStandaloneDecision chainId xt now).1.decision ≠ some true := by
  rcases standaloneDecision_cases chainId xt now with he | ⟨-, -, n, m, he⟩ | ⟨hn, hs, n, m, he⟩
  · rw [he]
    exact hd
  · rw [he]
    simp [PendingXt.recordDecision]
  · exact absurd hs (h hn)

/-- One step commits a publisher's instance only by the publisher's decision. -/
theorem commits_only_onDecision {cfg : Config} {s : CoordinatorState} {op : Op} {id : InstanceId}
    (hg : CountStaysOpen cfg s op)
    (hstarted : ∀ xt, s.pending.lookup id = some xt → xt.originChain = none)
    (hbefore : decisionOf s id ≠ some true)
    (hafter : decisionOf (op.apply cfg s) id = some true) : ∃ now, op = .onDecision id true now := by
  have he := xtEffect cfg s op id
  unfold decisionOf at hbefore hafter
  generalize hl : s.pending.lookup id = o at he hbefore
  generalize (op.apply cfg s).pending.lookup id = o' at he hafter
  cases he with
  | same => exact absurd hafter hbefore
  | touched _ _ hc =>
    have hd := congrArg XtCore.decision hc
    exact absurd (hd.symm.trans hafter) hbefore
  | removed => simp at hafter
  | registered _ _ _ _ _ hf => simp [hf.decision_eq] at hafter
  | @voted _ vote standalone now xt hv =>
    rw [Option.bind_some, castVote_eq] at hafter
    cases standalone with
    | false => exact absurd hafter hbefore
    | true =>
      refine absurd hafter (standaloneDecision_open (fun hd => ?_) hbefore)
      exact hg rfl xt hl (hstarted xt hl) hd hv
  | @peerVoted _ chainId vote now xt hd hv =>
    refine absurd hafter (standaloneDecision_open (fun _ => ?_) hbefore)
    exact hg xt hl (hstarted xt hl) hd hv
  | decided _ d now _ =>
    have hd : d = true := Option.some.inj hafter
    exact ⟨now, by rw [hd]⟩
  | outdated _ _ now hs =>
    rw [Option.bind_some, abortUndecided_decision (isStale_decision hs)] at hafter
    simp at hafter
  | rolledBack _ now xt =>
    rw [Option.bind_some, forceAbort_decision xt now] at hafter
    simp at hafter

/-- Publisher authority: in a run where no vote completes the count of a publisher's
instance, only the publisher's decision commits such an instance and releases it. -/
theorem publisher_decides_of_open_count (cfg : Config) {ops : List Op} {final : CoordinatorState}
    (hrun : Run (fun s op t => Step cfg s op t ∧ CountStaysOpen cfg s op) {} ops final) :
    PublisherDecides cfg ops := by
  intro before op after id hops hroute
  rw [hops] at hrun
  obtain ⟨s, hs, hr⟩ := hrun.of_append
  have hexec : s = exec cfg {} before := run_exec (hs.mono (fun _ _ _ h => h.1))
  have hnext : exec cfg {} (before ++ [op]) = op.apply cfg s := by
    rw [hexec]
    simp [exec]
  have hkeyed : KeyedById s := keyedById_run (hs.mono (fun _ _ _ h => h.1)) keyedById_default
  have hstarted : ∀ xt, s.pending.lookup id = some xt → xt.originChain = none := by
    have htells := originTells_run cfg id before {} none (fun xt h => by simp at h)
    rw [hroute, ← hexec] at htells
    exact fun xt hl => (htells xt hl).mpr rfl
  cases hr with
  | cons hstep _ =>
    rw [← hexec, hnext]
    refine ⟨commits_only_onDecision hstep.2 hstarted, ?_⟩
    intro command hm hrel
    simp only [isReleaseFor, Bool.and_eq_true, decide_eq_true_eq] at hrel
    rcases mem_commands cfg s hkeyed op command hm with ⟨-, hs⟩ | ⟨hc, -⟩
    · obtain ⟨xt, xt', hl, hl', -, hd, hd'⟩ := hs
      rw [hrel.1] at hl hl'
      refine commits_only_onDecision hstep.2 hstarted ?_ ?_
      · simp [decisionOf, hl, hd]
      · simp [decisionOf, hl', hd', hrel.2]
    · simp [hrel.2] at hc

/-- The publisher opens period 1 and starts an instance of chains 1 and 2 in it. -/
def startedInstance : SpecInstance :=
  { id := List.replicate 32 0xab
    periodId := 1
    sequenceNumber := 1
    xtRequest := buildXtRequest twoChainTxs }

def startedId : InstanceId := InstanceId.fromPublisherBytes startedInstance.id

/-- The local vote goes to the publisher, whose decision commits. -/
def publisherDecision : List Op :=
  [.startPeriod 1 3, .startInstance startedInstance, .sendVote startedId true false 4,
    .onDecision startedId true 5]

theorem publisher_decides_of_open_count_commit :
    decisionOf (exec (.bare 1) {} publisherDecision) startedId = some true ∧
      PublisherDecides (.bare 1) publisherDecision := by
  have hrun : Run (fun s op t => Step (.bare 1) s op t ∧ CountStaysOpen (.bare 1) s op) {}
      publisherDecision (exec (.bare 1) {} publisherDecision) :=
    .cons ⟨rfl, trivial⟩ (.cons ⟨rfl, trivial⟩
      (.cons ⟨rfl, fun h => by simp at h⟩ (.cons ⟨rfl, trivial⟩ (.nil _))))
  exact ⟨by decide, publisher_decides_of_open_count (.bare 1) hrun⟩

/-- The local vote goes to the publisher, and a peer's vote arrives before its decision. -/
def peerVoteFirst : List Op :=
  [.startPeriod 1 3, .startInstance startedInstance, .sendVote startedId true false 4,
    .peerVote startedId 2 true 5]

theorem peer_vote_commits_started : ¬PublisherDecides (.bare 1) peerVoteFirst := by
  intro h
  obtain ⟨now, hop⟩ := (h (peerVoteFirst.take 3) (.peerVote startedId 2 true 5) [] startedId rfl
    (by decide)).1 (by decide) (by decide)
  simp at hop

end Sidecar.Coordinator
