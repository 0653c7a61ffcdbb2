import Sidecar.Coordinator.Stability

namespace Sidecar.Coordinator

section Count

variable (chainId : ChainId) (xt : PendingXt)

/-- The vote a chain has cast, as this coordinator knows it: its own vote for the local
chain, the recorded peer vote for every other one. -/
def voteOf (c : ChainId) : Option Bool :=
  if c = chainId then xt.localVote else xt.peerVotes.lookup c

/-- The chains behind the counted votes, in the same order. -/
def voters : List ChainId :=
  (xt.localVote.toList.map (fun _ => chainId)) ++
    (xt.peerVotes.entries.filter (fun e => e.1 ≠ chainId)).map Sigma.fst

theorem length_voters : (voters chainId xt).length = (countedVotes chainId xt).length := by
  simp [voters, countedVotes]

theorem mem_voters (c : ChainId) : c ∈ voters chainId xt ↔ voteOf chainId xt c ≠ none := by
  unfold voters voteOf
  rw [List.mem_append]
  split_ifs with hc
  · cases hl : xt.localVote <;> simp [hc]
  · have hpeer : c ∈ (xt.peerVotes.entries.filter (fun e => e.1 ≠ chainId)).map Sigma.fst ↔
        c ∈ xt.peerVotes := by
      rw [AList.mem_keys, AList.keys, List.keys]
      simp only [List.mem_map, List.mem_filter, decide_eq_true_eq]
      constructor
      · intro h
        obtain ⟨e, ⟨he, -⟩, hec⟩ := h
        exact ⟨e, he, hec⟩
      · intro h
        obtain ⟨e, he, hec⟩ := h
        exact ⟨e, ⟨he, by rw [hec]; exact hc⟩, hec⟩
    rw [hpeer, ← AList.lookup_isSome, Option.isSome_iff_ne_none]
    cases hl : xt.localVote <;> simp [hc]

theorem nodup_voters : (voters chainId xt).Nodup := by
  have hpeers : ((xt.peerVotes.entries.filter (fun e => e.1 ≠ chainId)).map Sigma.fst).Nodup :=
    (xt.peerVotes.nodupKeys.sublist List.filter_sublist)
  unfold voters
  cases hl : xt.localVote with
  | none => simpa using hpeers
  | some v =>
    refine List.nodup_append.mpr ⟨by simp, hpeers, ?_⟩
    intro a ha b hb hab
    simp only [Option.toList_some, List.map_cons, List.map_nil, List.mem_singleton] at ha
    obtain ⟨e, he, heb⟩ := List.mem_map.mp hb
    have hne := (List.mem_filter.mp he).2
    simp [heb, ← hab, ha] at hne

theorem voteOf_mem_countedVotes (c : ChainId) (v : Bool) (h : voteOf chainId xt c = some v) :
    v ∈ countedVotes chainId xt := by
  unfold voteOf at h
  unfold countedVotes
  rw [List.mem_append]
  split_ifs at h with hc
  · left
    simp [h]
  · right
    have he : (⟨c, v⟩ : Σ _ : ChainId, Bool) ∈ xt.peerVotes.entries :=
      (List.mem_dlookup_iff xt.peerVotes.nodupKeys).mp h
    exact List.mem_map.mpr ⟨⟨c, v⟩, List.mem_filter.mpr ⟨he, by simpa using hc⟩, rfl⟩

/-- When only participants are among the voters, enough votes are votes of all of them. -/
theorem voteOf_of_votesSuffice (h : VotesSuffice chainId xt)
    (hp : ∀ c, voteOf chainId xt c = some true → c ∈ xt.rawTxs) (c : ChainId)
    (hc : c ∈ xt.rawTxs) : voteOf chainId xt c = some true := by
  obtain ⟨hfalse, -, hlen⟩ := h
  have htrue : ∀ c, voteOf chainId xt c ≠ none → voteOf chainId xt c = some true := by
    intro c hv
    cases hvote : voteOf chainId xt c with
    | none => exact absurd hvote hv
    | some v =>
      cases v with
      | true => rfl
      | false => exact absurd (voteOf_mem_countedVotes chainId xt c false hvote) hfalse
  have hsub : voters chainId xt ⊆ xt.rawTxs.keys := by
    intro d hd
    exact AList.mem_keys.mp (hp d (htrue d ((mem_voters chainId xt d).mp hd)))
  have hperm := ((nodup_voters chainId xt).subperm hsub).perm_of_length_le
    (by rw [length_voters]; exact hlen)
  have hmem : c ∈ voters chainId xt := hperm.symm.subset (AList.mem_keys.mp hc)
  exact htrue c ((mem_voters chainId xt c).mp hmem)

end Count

/-- A committed instance has the commit vote of every participant. -/
def CommitValid (chainId : ChainId) (xt : PendingXt) : Prop :=
  xt.decision = some true → ∀ c ∈ xt.rawTxs.keys, voteOf chainId xt c = some true

/-- The locked parts that run in a coordinator without a publisher. -/
def Op.standalone : Op → Bool
  | .startInstance _ | .onDecision _ _ _ | .startPeriod _ _ | .rollback _ => false
  | .enqueue _ _ | .resolve _ => false
  | .sendVote _ _ standalone _ => standalone
  | _ => true

/-- A commit vote that is about to be counted comes from a chain of the instance. A vote for
commit that is ignored, or that is under the local chain's id, is not counted. -/
def VoterTakesPart (cfg : Config) (s : CoordinatorState) : Op → Prop
  | .sendVote id true _ _ => ∀ xt, s.pending.lookup id = some xt → xt.decision = none →
      xt.localVote = none → cfg.chainId ∈ xt.rawTxs
  | .peerVote id chainId true _ => ∀ xt, s.pending.lookup id = some xt → xt.decision = none →
      chainId ∉ xt.peerVotes → chainId ≠ cfg.chainId → chainId ∈ xt.rawTxs
  | _ => True

def StandaloneStep (cfg : Config) (s : CoordinatorState) (op : Op) (t : CoordinatorState) :
    Prop :=
  op.standalone = true ∧ Step cfg s op t

/-- Commit validity together with what carries it: the commit votes collected so far come
from participants. -/
structure Tallied (chainId : ChainId) (xt : PendingXt) : Prop where
  takePart : xt.decision = none → ∀ c, voteOf chainId xt c = some true → c ∈ xt.rawTxs
  valid : CommitValid chainId xt

theorem tallied_of_core {chainId : ChainId} {xt xt' : PendingXt} (hc : xt'.core = xt.core)
    (h : Tallied chainId xt) : Tallied chainId xt' := by
  have hd : xt'.decision = xt.decision := congrArg XtCore.decision hc
  have hl : xt'.localVote = xt.localVote := congrArg XtCore.localVote hc
  have hp : xt'.peerVotes = xt.peerVotes := congrArg XtCore.peerVotes hc
  have hr : xt'.rawTxs = xt.rawTxs := congrArg XtCore.rawTxs hc
  have hv : voteOf chainId xt' = voteOf chainId xt := by
    funext c
    simp only [voteOf, hl, hp]
  constructor
  · intro hn c hvote
    rw [hr]
    exact h.takePart (hd ▸ hn) c (hv ▸ hvote)
  · intro hn c hmem
    rw [hv]
    exact h.valid (hd ▸ hn) c (hr ▸ hmem)

/-- Counting keeps the tally in order, whatever it decides. -/
theorem tallied_standaloneDecision {chainId : ChainId} {xt : PendingXt} (now : Instant)
    (h : Tallied chainId xt) : Tallied chainId (maybeMakeStandaloneDecision chainId xt now).1 := by
  rcases standaloneDecision_cases chainId xt now with he | ⟨-, -, n, m, he⟩ | ⟨hd, hs, n, m, he⟩
  · rw [he]
    exact h
  · rw [he]
    exact ⟨fun hn => by simp [PendingXt.recordDecision] at hn,
      fun hn => by simp [PendingXt.recordDecision] at hn⟩
  · rw [he]
    refine ⟨fun hn => by simp [PendingXt.recordDecision] at hn, fun _ c hc => ?_⟩
    exact voteOf_of_votesSuffice chainId xt hs (h.takePart hd) c (AList.mem_keys.mpr hc)

/-- One more vote, by a participant when it is for commit. -/
theorem tallied_withVote {chainId : ChainId} {xt xt' : PendingXt} (voter : ChainId) (vote : Bool)
    (h : Tallied chainId xt) (hd : xt'.decision = xt.decision) (hr : xt'.rawTxs = xt.rawTxs)
    (hnew : voteOf chainId xt voter = none) (hvoter : voteOf chainId xt' voter = some vote)
    (hother : ∀ c, c ≠ voter → voteOf chainId xt' c = voteOf chainId xt c)
    (hpart : xt.decision = none → vote = true → voter ∈ xt.rawTxs) : Tallied chainId xt' := by
  constructor
  · intro hn c hvote
    rw [hd] at hn
    rw [hr]
    by_cases hc : c = voter
    · rw [hc] at hvote ⊢
      exact hpart hn (Option.some.inj (hvoter.symm.trans hvote))
    · exact h.takePart hn c (by rw [← hother c hc]; exact hvote)
  · intro hn c hmem
    rw [hd] at hn
    rw [hr] at hmem
    by_cases hc : c = voter
    · have hold := h.valid hn c hmem
      rw [hc, hnew] at hold
      simp at hold
    · rw [hother c hc]
      exact h.valid hn c hmem

theorem tallied_castVote {cfg : Config} {xt : PendingXt} {vote : Bool} (standalone : Bool)
    (now : Instant) (h : Tallied cfg.chainId xt) (hnone : xt.localVote = none)
    (hpart : xt.decision = none → vote = true → cfg.chainId ∈ xt.rawTxs) :
    Tallied cfg.chainId (castVote cfg xt vote standalone now).1 := by
  have hw : Tallied cfg.chainId (withLocalVote cfg xt vote now) := by
    refine tallied_withVote cfg.chainId vote h rfl rfl ?_ ?_ ?_ hpart
    · simp [voteOf, hnone]
    · simp [voteOf, withLocalVote]
    · intro c hc
      simp [voteOf, withLocalVote, hc]
  rw [castVote_eq]
  cases standalone with
  | false => exact hw
  | true => exact tallied_standaloneDecision now hw

theorem tallied_peerVote {cfg : Config} {xt : PendingXt} {chainId : ChainId} {vote : Bool}
    (now : Instant) (h : Tallied cfg.chainId xt) (hd : xt.decision = none)
    (hnew : chainId ∉ xt.peerVotes)
    (hpart : vote = true → chainId ≠ cfg.chainId → chainId ∈ xt.rawTxs) :
    Tallied cfg.chainId (maybeMakeStandaloneDecision cfg.chainId
      { xt with peerVotes := xt.peerVotes.insert chainId vote } now).1 := by
  apply tallied_standaloneDecision
  by_cases hc : chainId = cfg.chainId
  · -- a peer vote under the local chain's id is no vote of anybody
    have hv : voteOf cfg.chainId { xt with peerVotes := xt.peerVotes.insert chainId vote } =
        voteOf cfg.chainId xt := by
      funext c
      unfold voteOf
      split_ifs with hcc
      · rfl
      · exact AList.lookup_insert_ne (by rw [hc]; exact hcc)
    constructor
    · intro hn c hvote
      exact h.takePart hn c (hv ▸ hvote)
    · intro hn
      simp [hd] at hn
  · refine tallied_withVote chainId vote h rfl rfl ?_ ?_ ?_ ?_
    · simp [voteOf, hc, AList.lookup_eq_none.mpr hnew]
    · simp [voteOf, hc]
    · intro c hne
      simp [voteOf, AList.lookup_insert_ne hne]
    · intro _ ht
      exact hpart ht hc

/-- One locked part of a standalone coordinator keeps every tally in order. -/
theorem tallied_step {cfg : Config} {s t : CoordinatorState} {op : Op}
    (h : StandaloneStep cfg s op t) (hg : VoterTakesPart cfg s op)
    (hs : ∀ id xt, s.pending.lookup id = some xt → Tallied cfg.chainId xt) :
    ∀ id xt, t.pending.lookup id = some xt → Tallied cfg.chainId xt := by
  obtain ⟨halone, rfl⟩ := h
  intro id xt' hl'
  have he := xtEffect cfg s op id
  rw [hl'] at he
  generalize hl : s.pending.lookup id = o at he
  cases he with
  | same => exact hs id xt' hl
  | touched _ _ hc => exact tallied_of_core hc (hs id _ hl)
  | registered _ _ _ _ _ hf =>
    have hvote : ∀ c, voteOf cfg.chainId xt' c = none := by
      intro c
      simp [voteOf, hf.localVote_eq, hf.peerVotes_eq]
    exact ⟨fun _ c hv => by simp [hvote c] at hv, fun hn => by simp [hf.decision_eq] at hn⟩
  | voted _ vote standalone now hv =>
    refine tallied_castVote standalone now (hs id _ hl) hv ?_
    intro hd ht
    subst ht
    exact hg _ hl hd hv
  | peerVoted _ chainId vote now hd hv =>
    refine tallied_peerVote now (hs id _ hl) hd hv ?_
    intro ht hc
    subst ht
    exact hg _ hl hd hv hc
  | decided => simp [Op.standalone] at halone
  | outdated => simp [Op.standalone] at halone
  | rolledBack => simp [Op.standalone] at halone

/-- Commit validity: in a standalone coordinator where every counted commit vote comes from
a participant, a committed instance has the commit votes of all its chains. -/
theorem commit_valid_of_participants (cfg : Config) {ops : List Op} {final : CoordinatorState}
    (hrun : Run (fun s op t => StandaloneStep cfg s op t ∧ VoterTakesPart cfg s op) {} ops final)
    (id : InstanceId) (xt : PendingXt) (hl : final.pending.lookup id = some xt) :
    CommitValid cfg.chainId xt := by
  have hall := hrun.invariant
    (I := fun u => ∀ id xt, u.pending.lookup id = some xt → Tallied cfg.chainId xt)
    (fun s op t hs hstep => tallied_step hstep.1 hstep.2 hs)
    (fun id xt h => by simp at h)
  exact (hall id xt hl).valid

/-- Chain 1 takes part in an instance with chain 2 and both vote for commit. -/
def participantVotes : List Op :=
  [.forwardXt "xt-2-1" twoChainTxs 2 1, .sendVote "xt-2-1" true true 5,
    .peerVote "xt-2-1" 2 true 6]

theorem commit_valid_of_participants_two :
    decisionOf (exec (.bare 1) {} participantVotes) "xt-2-1" = some true ∧
      ∀ xt, (exec (.bare 1) {} participantVotes).pending.lookup "xt-2-1" = some xt →
        CommitValid 1 xt := by
  have hforward : (exec (.bare 1) {} [Op.forwardXt "xt-2-1" twoChainTxs 2 1]).pending.lookup
      "xt-2-1" = some (forwardedXt (.bare 1) "xt-2-1" twoChainTxs 2 1) := rfl
  have hrun : Run (fun s op t => StandaloneStep (.bare 1) s op t ∧ VoterTakesPart (.bare 1) s op)
      {} participantVotes (exec (.bare 1) {} participantVotes) := by
    refine .cons ⟨⟨rfl, rfl⟩, trivial⟩ (.cons ⟨⟨rfl, rfl⟩, ?_⟩ (.cons ⟨⟨rfl, rfl⟩, ?_⟩ (.nil _)))
    · intro xt hl _ _
      obtain rfl := Option.some.inj (hforward.symm.trans hl)
      decide
    · intro xt hl _ _ _
      have hraw : some xt.rawTxs = some twoChainTxs :=
        congrArg (Option.map PendingXt.rawTxs) hl.symm
      rw [Option.some.inj hraw]
      decide
  exact ⟨by decide, fun xt hl => commit_valid_of_participants (.bare 1) hrun "xt-2-1" xt hl⟩

/-- The same instance, where the second vote comes from chain 99, which has no part in it. -/
def outsiderVotes : List Op :=
  [.forwardXt "xt-2-1" twoChainTxs 2 1, .sendVote "xt-2-1" true true 5,
    .peerVote "xt-2-1" 99 true 6]

theorem outsider_vote_commits :
    ∃ final xt, Run (StandaloneStep (.bare 1)) {} outsiderVotes final ∧
      final.pending.lookup "xt-2-1" = some xt ∧ ¬CommitValid 1 xt := by
  have hrun : Run (StandaloneStep (.bare 1)) {} outsiderVotes (exec (.bare 1) {} outsiderVotes) :=
    .cons ⟨rfl, rfl⟩ (.cons ⟨rfl, rfl⟩ (.cons ⟨rfl, rfl⟩ (.nil _)))
  obtain ⟨xt, hl⟩ := Option.isSome_iff_exists.mp (show
    ((exec (.bare 1) {} outsiderVotes).pending.lookup "xt-2-1").isSome = true by decide)
  have hd : (some xt).bind PendingXt.decision = some true := by
    rw [← hl]
    decide
  have hm : (some xt).map (fun x => decide (2 ∈ x.rawTxs.keys)) = some true := by
    rw [← hl]
    decide
  have hv : (some xt).map (fun x => voteOf 1 x 2) = some none := by
    rw [← hl]
    decide
  refine ⟨_, xt, hrun, hl, fun hvalid => ?_⟩
  have hbad := hvalid hd 2 (by simpa using hm)
  have hnone : voteOf 1 xt 2 = none := by simpa using hv
  simp [hnone] at hbad

end Sidecar.Coordinator
