import Sidecar.Coordinator.Peer
import Sidecar.Coordinator.ProcessRun

namespace Sidecar.Coordinator

open TaskSystem

section Served

/-- The builder, and where it is needed the one of `putInbox` transactions, answers the task
without an error. -/
def builderServes (cfg : Config) (reply : TaskReply) : Task → Bool
  | .submitting _ => reply.succeeds
  | .command (.release _ deps) _ =>
    !cfg.xtBuilderClient || deps.isEmpty || (cfg.putInboxBuilder && reply.canonical.isOk)
  | .command (.abort _) _ => !cfg.xtBuilderClient || reply.succeeds
  | .buildPutInbox _ _ _ _ _ => reply.built.isOk
  | .release _ _ _ => reply.succeeds
  | _ => true

variable {cfg : Config} {reply : TaskReply} {sh sh' : Shared} {t : Task} {next : List Task}
  {es : List Event}

theorem outcome_of_succeeds (h : reply.succeeds = true) : reply.outcome = .ok () := by
  unfold TaskReply.succeeds at h
  split at h
  · assumption
  · simp at h

theorem ballots_resumed (hpeers : cfg.peerCoordinator = true) {resume : Resume}
    {b : InstanceId × Bool} (h : b ∈ resume.ballots) :
    b ∈ (resume.next cfg).flatMap Task.ballots := by
  cases resume with
  | handVote id rawId vote standalone =>
    cases standalone with
    | false => simp [Resume.ballots] at h
    | true => simpa [Resume.ballots, Resume.next, hpeers, Task.ballots] using h
  | _ => simp [Resume.ballots] at h

theorem ballots_commanded (hpeers : cfg.peerCoordinator = true) (command : Option XtBuilderCommand)
    {resume : Resume} {b : InstanceId × Bool} (h : b ∈ resume.ballots) :
    b ∈ (commandOr cfg command resume).flatMap Task.ballots := by
  cases command with
  | none => exact ballots_resumed hpeers h
  | some c => simpa [commandOr, Task.ballots] using h

/-- A vote for the peers goes on through the builder commands until it is sent. -/
theorem ballots_handed (h : taskStep cfg reply sh t = some (sh', next, es))
    (hserved : builderServes cfg reply t = true) (hpeers : cfg.peerCoordinator = true)
    {b : InstanceId × Bool} (hb : b ∈ t.ballots) :
    b ∈ next.flatMap Task.ballots ∨ b ∈ es.filterMap ballotEvent := by
  cases t with
  | command command resume =>
    left
    cases command with
    | release id deps =>
      simp only [builderServes] at hserved
      simp only [taskStep, applyBuilderCommand] at h
      split_ifs at h with hclient hdeps hbuilder
      · obtain ⟨-, rfl, -⟩ : sh = sh' ∧ resume.next cfg = next ∧ [] = es := by simpa using h
        exact ballots_resumed hpeers hb
      · obtain ⟨-, rfl, -⟩ : sh = sh' ∧ [Task.release id [] resume] = next ∧ [] = es := by
          simpa using h
        simpa [Task.ballots] using hb
      · simp_all
      · cases hcanonical : reply.canonical with
        | error err => simp_all [Except.isOk, Except.toBool]
        | ok canonical =>
          simp only [hcanonical, Nonce.reserve, Option.some.injEq, Prod.mk.injEq] at h
          rw [← h.2.1]
          simpa [Task.ballots] using hb
    | abort id =>
      simp only [builderServes] at hserved
      simp only [taskStep, applyBuilderCommand] at h
      split_ifs at h with hclient
      · simp only [Option.some.injEq, Prod.mk.injEq] at h
        rw [← h.2.1]
        simpa [Task.ballots] using hb
      · have hsucceeds : reply.succeeds = true := by simp_all
        simp only [outcome_of_succeeds hsucceeds, Option.some.injEq, Prod.mk.injEq] at h
        rw [← h.2.1]
        simpa [Task.ballots] using hb
  | buildPutInbox id deps nonce txs resume =>
    left
    cases deps with
    | nil =>
      simp only [taskStep, buildPutInbox, Option.some.injEq, Prod.mk.injEq] at h
      rw [← h.2.1]
      simpa [Task.ballots] using hb
    | cons dep rest =>
      cases hbuilt : reply.built with
      | error err => simp [builderServes, hbuilt, Except.isOk, Except.toBool] at hserved
      | ok tx =>
        simp only [taskStep, buildPutInbox, hbuilt, Option.some.injEq, Prod.mk.injEq] at h
        rw [← h.2.1]
        simpa [Task.ballots] using hb
  | release id txs resume =>
    left
    have hok := outcome_of_succeeds hserved
    simp only [taskStep, releaseXt, hok, Option.some.injEq, Prod.mk.injEq] at h
    rw [← h.2.1]
    exact ballots_resumed hpeers hb
  | recycle id resume =>
    left
    simp only [taskStep, Option.some.injEq, Prod.mk.injEq] at h
    rw [← h.2.1]
    cases resume with
    | none => simp [Task.ballots] at hb
    | some resume => exact ballots_resumed hpeers hb
  | peerVotes id vote =>
    right
    simp only [taskStep, Option.some.injEq, Prod.mk.injEq] at h
    rw [← h.2.2]
    simpa [Task.ballots, ballotEvent] using hb
  | _ => simp [Task.ballots] at hb

/-- A handler that is with the builder goes on with its instance. -/
theorem submission_handed (h : taskStep cfg reply sh t = some (sh', next, es))
    (hserved : builderServes cfg reply t = true) {registrar : Registrar}
    (ht : (∃ submission, t = .submit submission registrar) ∨ t = .submitting registrar) :
    next = [.submitting registrar] ∨ next = [.registered registrar] := by
  rcases ht with ⟨submission, rfl⟩ | rfl
  · simp only [taskStep] at h
    split_ifs at h
    · simp only [Option.some.injEq, Prod.mk.injEq] at h
      exact Or.inl h.2.1.symm
    · simp only [Option.some.injEq, Prod.mk.injEq] at h
      exact Or.inr h.2.1.symm
  · rcases submitting_returns h with ⟨-, hnext⟩ | ⟨hfails, -⟩
    · exact Or.inr hnext
    · exact absurd (hfails.symm.trans hserved) (by simp)

/-- An instance on its way to the local vote is handed on until the vote is recorded. -/
theorem voters_handed (h : taskStep cfg reply sh t = some (sh', next, es))
    (hserved : builderServes cfg reply t = true) (halone : t.standalone = true) {id : InstanceId}
    (hrunning : t ≠ .process id .finished) (hv : id ∈ t.voters) :
    id ∈ next.flatMap Task.voters ∨ ∃ vote standalone, t = .recordVote id vote standalone := by
  cases t with
  | submit submission registrar =>
    left
    rcases submission_handed h hserved (Or.inl ⟨submission, rfl⟩) with rfl | rfl
    · simpa [Task.voters] using hv
    · simpa [Task.voters] using hv
  | submitting registrar =>
    left
    rcases submission_handed h hserved (Or.inr rfl) with rfl | rfl
    · simpa [Task.voters] using hv
    · simpa [Task.voters] using hv
  | registered registrar =>
    left
    simp only [taskStep, Option.some.injEq, Prod.mk.injEq] at h
    rw [← h.2.1]
    cases registrar with
    | submitted i txs => simpa [Registrar.next, Task.voters, Registrar.voter] using hv
    | forwarded i hasLocal =>
      cases hasLocal with
      | false => simp [Task.voters, Registrar.voter] at hv
      | true => simpa [Registrar.next, Task.voters, Registrar.voter] using hv
    | started => simp [Task.standalone, Registrar.standalone] at halone
  | resolve => simp [Task.standalone] at halone
  | process i pc =>
    left
    have hid : id = i := by simpa [Task.voters] using hv
    rcases processStep_cases h with ⟨v, -, -, rfl, -⟩ | ⟨hpc, -, -, -⟩ |
      ⟨st', pc', events, -, -, -, rfl, -⟩
    · simpa [Task.voters] using hid
    · exact absurd (by rw [hid, hpc]) hrunning
    · simpa [Task.voters] using hid
  | sendVote i vote =>
    left
    simp only [taskStep, Option.some.injEq, Prod.mk.injEq] at h
    rw [← h.2.1]
    simpa [Task.voters] using hv
  | recordVote i vote standalone =>
    right
    have hid : id = i := by simpa [Task.voters] using hv
    exact ⟨vote, standalone, by rw [hid]⟩
  | _ => simp [Task.voters] at hv

/-- A submission that the builder accepts goes on to the peers. -/
theorem submitters_handed (h : taskStep cfg reply sh t = some (sh', next, es))
    (hserved : builderServes cfg reply t = true) (hpeers : cfg.peerCoordinator = true)
    {id : InstanceId} {txs : RawTxs} (hkept : id ∉ t.removing)
    (hr : .submitted id txs ∈ t.registrars) :
    .submitted id txs ∈ next.flatMap Task.registrars ∨ (id, txs) ∈ next.flatMap Task.forwards := by
  cases t with
  | submit submission registrar =>
    left
    rcases submission_handed h hserved (Or.inl ⟨submission, rfl⟩) with rfl | rfl
    · simpa [Task.registrars] using hr
    · simpa [Task.registrars] using hr
  | submitting registrar =>
    left
    rcases submission_handed h hserved (Or.inr rfl) with rfl | rfl
    · simpa [Task.registrars] using hr
    · simpa [Task.registrars] using hr
  | removePending registrar err =>
    obtain rfl := List.mem_singleton.mp hr
    exact absurd (List.mem_singleton.mpr rfl) hkept
  | registered registrar =>
    right
    obtain rfl := List.mem_singleton.mp hr
    simp only [taskStep, Option.some.injEq, Prod.mk.injEq] at h
    rw [← h.2.1]
    simp [Registrar.next, hpeers, Task.forwards]
  | _ => simp [Task.registrars] at hr

theorem forwards_handed (h : taskStep cfg reply sh t = some (sh', next, es))
    {f : InstanceId × RawTxs} (hf : f ∈ t.forwards) :
    f ∈ next.flatMap Task.forwards ∨ f ∈ es.filterMap forwardEvent := by
  cases t with
  | forwardXt id txs =>
    left
    simp only [taskStep, Option.some.injEq, Prod.mk.injEq] at h
    rw [← h.2.1]
    simpa [Task.forwards] using hf
  | forwarding id txs originSeq =>
    right
    simp only [taskStep, Option.some.injEq, Prod.mk.injEq] at h
    rw [← h.2.2]
    simpa [Task.forwards, forwardEvent] using hf
  | _ => simp [Task.forwards] at hf

theorem removing_carries (t : Task) (h : t.carries = false) : t.removing = [] := by
  cases t <;> first | rfl | simp [Task.carries] at h

theorem removing_served (h : taskStep cfg reply sh t = some (sh', next, es))
    (hserved : builderServes cfg reply t = true) : next.flatMap Task.removing = [] := by
  rcases handsOn_or_drops (taskStep_effect h) with hand | hdrop
  · cases hand with
    | registered => exact flatMap_submitFirst (fun _ => rfl) rfl
    | declined registrar err =>
      rcases submission_handed h hserved (Or.inr rfl) with hn | hn <;> simp at hn
    | proceeded registrar =>
      exact flatMap_registrarNext cfg (fun _ _ => rfl) (fun _ _ => rfl) (fun _ _ _ => rfl) registrar
    | _ => rfl
  · exact flatMap_of_drops removing_carries hdrop

/-- `process_xt` gives up only on an instance that is gone. -/
theorem running_step (h : taskStep cfg reply sh t = some (sh', next, es)) {id : InstanceId}
    (hpending : ∀ pc, t = .process id pc → sh.st.pending.lookup id ≠ none) :
    .process id .finished ∉ next := by
  intro hu
  rcases handsOn_or_drops (taskStep_effect h) with hand | hdrop
  · cases hand with
    | processed i pc pc' =>
      obtain ⟨rfl, rfl⟩ : id = i ∧ ProcPc.finished = pc' := by simpa using hu
      have hthere := hpending pc rfl
      rcases processStep_cases h with ⟨v, -, -, hn, -⟩ | ⟨-, -, hn, -⟩ |
        ⟨st', pc', events, hproc, -, -, hn, -⟩
      · simp at hn
      · simp at hn
      · obtain rfl : ProcPc.finished = pc' := by simpa using hn
        rcases procStep_cast hproc with ⟨v, rfl⟩ | ⟨-, hgone⟩
        · simp [taskStep] at h
        · exact hthere (hgone rfl)
    | registered =>
      unfold submitFirst at hu
      split at hu <;> simp at hu
    | proceeded registrar =>
      rcases mem_registrarNext hu with he | ⟨_, _, -, he⟩ | ⟨_, _, he⟩ <;> simp at he
    | _ => simp at hu
  · simpa [Task.carries] using hdrop _ hu

/-- A task of a coordinator without a publisher that neither takes the instance back nor has
given up on it. -/
structure Tracked (id : InstanceId) (t : Task) : Prop where
  standalone : t.standalone = true
  kept : id ∉ t.removing
  running : t ≠ .process id .finished

theorem tracked_step (h : taskStep cfg reply sh t = some (sh', next, es))
    (hserved : builderServes cfg reply t = true) (hp : cfg.publisher = false) {id : InstanceId}
    (ht : Tracked id t) (hpending : ∀ pc, t = .process id pc → sh.st.pending.lookup id ≠ none) :
    ∀ u ∈ next, Tracked id u := by
  intro u hu
  have hkept : id ∉ u.removing := by
    intro hr
    have hnext : id ∈ next.flatMap Task.removing := List.mem_flatMap.mpr ⟨u, hu, hr⟩
    simp [removing_served h hserved] at hnext
  have hrunning : u ≠ .process id .finished := by
    intro he
    exact running_step h hpending (he ▸ hu)
  exact ⟨standalone_step (taskStep_effect h) hp ht.standalone u hu, hkept, hrunning⟩

end Served

section Counting

variable {cfg : Config} {n c : ChainId} {xt xt' : PendingXt}

/-- An instance without a decision lacks votes. -/
def Counted (n : ChainId) (xt : PendingXt) : Prop :=
  xt.decision = none → ¬(0 < xt.rawTxs.keys.length ∧
    xt.rawTxs.keys.length ≤ (countedVotes n xt).length)

/-- The vote of chain `c` has been heard, or is not needed any more. -/
def HasVote (c : ChainId) (xt : PendingXt) : Prop := xt.decision ≠ none ∨ c ∈ xt.peerVotes

theorem counted_standaloneDecision (n : ChainId) (xt : PendingXt) (now : Instant) :
    Counted n (maybeMakeStandaloneDecision n xt now).1 := by
  simp only [maybeMakeStandaloneDecision]
  split_ifs with hd hf hs
  · intro hn
    have hn' : xt.decision = none := hn
    simp [hn'] at hd
  · intro hn
    simp [PendingXt.recordDecision] at hn
  · intro hn
    simp [PendingXt.recordDecision] at hn
  · exact fun _ => hs

theorem counted_of_core (hc : xt'.core = xt.core) (h : Counted n xt) : Counted n xt' := by
  have hd : xt'.decision = xt.decision := congrArg XtCore.decision hc
  have hl : xt'.localVote = xt.localVote := congrArg XtCore.localVote hc
  have hp : xt'.peerVotes = xt.peerVotes := congrArg XtCore.peerVotes hc
  have hr : xt'.rawTxs = xt.rawTxs := congrArg XtCore.rawTxs hc
  unfold Counted countedVotes at h ⊢
  rw [hd, hl, hp, hr]
  exact h

theorem counted_fresh {id : InstanceId} {route : Route} (h : FreshXt id route xt) :
    Counted n xt := by
  intro _ hs
  have hvotes : countedVotes n xt = [] := by
    simp [countedVotes, h.localVote_eq, h.peerVotes_eq]
  rw [hvotes, List.length_nil] at hs
  omega

theorem hasVote_of_core (hc : xt'.core = xt.core) (h : HasVote c xt) : HasVote c xt' := by
  have hd : xt'.decision = xt.decision := congrArg XtCore.decision hc
  have hp : xt'.peerVotes = xt.peerVotes := congrArg XtCore.peerVotes hc
  unfold HasVote
  rw [hd, hp]
  exact h

theorem hasVote_standaloneDecision (now : Instant) (h : HasVote c xt) :
    HasVote c (maybeMakeStandaloneDecision n xt now).1 := by
  rcases standaloneDecision_cases n xt now with he | ⟨-, -, _, _, he⟩ | ⟨-, -, _, _, he⟩
  · rw [he]
    exact h
  · rw [he]
    exact Or.inl (by simp [PendingXt.recordDecision])
  · rw [he]
    exact Or.inl (by simp [PendingXt.recordDecision])

/-- Without a publisher every vote is counted as it is recorded, and no vote is forgotten. -/
theorem votes_apply {st : CoordinatorState} {op : Op} {id : InstanceId}
    (halone : op.standalone = true) (hreg : ∀ route, op.registers cfg st ≠ some (id, route))
    (hl : st.pending.lookup id = some xt)
    (hl' : (op.apply cfg st).pending.lookup id = some xt') :
    (Counted cfg.chainId xt → Counted cfg.chainId xt') ∧ ∀ c, HasVote c xt → HasVote c xt' := by
  have he := xtEffect cfg st op id
  rw [hl, hl'] at he
  cases he with
  | same => exact ⟨fun h => h, fun _ h => h⟩
  | touched _ _ hc => exact ⟨counted_of_core hc, fun _ => hasVote_of_core hc⟩
  | registered _ _ route _ hr _ => exact absurd hr (hreg route)
  | voted _ vote standalone now _ =>
    obtain rfl : standalone = true := halone
    rw [castVote_eq, if_pos rfl]
    refine ⟨fun _ => counted_standaloneDecision _ _ now, fun c hv => ?_⟩
    have hw : HasVote c (withLocalVote cfg xt vote now) := hv
    exact hasVote_standaloneDecision now hw
  | peerVoted _ chainId vote now hd _ =>
    refine ⟨fun _ => counted_standaloneDecision _ _ now, fun c hv => ?_⟩
    apply hasVote_standaloneDecision
    rcases hv with hdecided | hmem
    · exact absurd hd hdecided
    · exact Or.inr (by simp [hmem])
  | decided => simp [Op.standalone] at halone
  | outdated => simp [Op.standalone] at halone
  | rolledBack => simp [Op.standalone] at halone

theorem hasVote_recorded {st : CoordinatorState} {id : InstanceId} {vote : Bool} {now : Instant}
    (hl : st.pending.lookup id = some xt) :
    ∃ xt', ((Op.peerVote id c vote now).apply cfg st).pending.lookup id = some xt' ∧
      HasVote c xt' := by
  simp only [Op.apply, recordPeerVote, hl]
  split_ifs with hd hv
  · exact ⟨xt, hl, Or.inl (by simpa [Option.isSome_iff_ne_none] using hd)⟩
  · exact ⟨xt, hl, Or.inr hv⟩
  · have hv' : HasVote c { xt with peerVotes := xt.peerVotes.insert c vote } := by
      exact Or.inr (by simp)
    exact ⟨_, by rw [lookup_updateXt, if_pos rfl, hl]; rfl, hasVote_standaloneDecision now hv'⟩

/-- When every chain of the instance has voted, the votes are enough. -/
theorem enough_votes (h : ∀ k ∈ xt.rawTxs.keys, voteOf n xt k ≠ none) :
    xt.rawTxs.keys.length ≤ (countedVotes n xt).length := by
  rw [← length_voters]
  have hsub : xt.rawTxs.keys ⊆ voters n xt := by
    intro k hk
    exact (mem_voters n xt k).mpr (h k hk)
  exact (xt.rawTxs.keys_nodup.subperm hsub).length_le

end Counting

section Invariant

/-- The calls that a coordinator has got from each of its peers. -/
abbrev Inbox := ChainId → List Request

/-- What a peer's call about the instance leaves behind. -/
def Handled (id : InstanceId) (st : CoordinatorState) : Request → Prop
  | .forwardedXt i _ _ _ => i = id → ∃ xt, st.pending.lookup id = some xt
  | .peerVote i c _ => i = id → ∃ xt, st.pending.lookup id = some xt ∧ HasVote c xt
  | _ => True

/-- The transactions of a pending instance. -/
def txsAt (st : CoordinatorState) (id : InstanceId) : Option RawTxs :=
  (st.pending.lookup id).map PendingXt.rawTxs

/-- The submission is with the builder, on its way to the peers or sent. -/
def Submits (w : World) (id : InstanceId) (txs : RawTxs) : Prop :=
  .submitted id txs ∈ w.held Task.registrars ∨ (id, txs) ∈ w.forwards

/-- The identifier is one that the coordinator of chain `n` gives. -/
def GivenBy (n : ChainId) (id : InstanceId) : Prop := ∃ k, id = InstanceId.standalone n k

/-- What holds of one instance in the coordinator of chain `n`, given what the others have
shown and the calls it got from them. -/
structure InstanceInv (n : ChainId) (id : InstanceId) (logs : ChainId → List Event)
    (s : World × Inbox) : Prop where
  tasks : ∀ t ∈ s.1.tasks, Tracked id t
  calls : ∀ i txs c seq, .request (.forwardedXt i txs c seq) ∈ s.1.tasks →
    c ≠ n ∧ .forwardXt i txs seq ∈ logs c
  owned : id ∈ s.1.held Task.owned → ∃ xt, s.1.shared.st.pending.lookup id = some xt
  numbered : ∀ k xt, id = InstanceId.standalone n k →
    s.1.shared.st.pending.lookup id = some xt → k ≤ s.1.shared.st.originSeq
  origins : ∀ xt, s.1.shared.st.pending.lookup id = some xt →
    GivenBy n id ∨ ∃ c txs seq, .forwardXt id txs seq ∈ logs c ∧ xt.rawTxs = cleanTxs txs
  submitted : ∀ txs, Submits s.1 id txs → GivenBy n id ∧ txsAt s.1.shared.st id = some txs
  forwarding : GivenBy n id → ∀ txs, txsAt s.1.shared.st id = some txs → Submits s.1 id txs
  voting : ∀ xt, s.1.shared.st.pending.lookup id = some xt → xt.runsOn n = true →
    xt.localVote = none → id ∈ s.1.held Task.voters
  cast : ∀ xt vote, s.1.shared.st.pending.lookup id = some xt → xt.localVote = some vote →
    (id, vote) ∈ s.1.ballots
  counted : ∀ xt, s.1.shared.st.pending.lookup id = some xt → Counted n xt
  received : ∀ c, ∀ request ∈ s.2 c, .request request ∈ s.1.tasks ∨
    Handled id s.1.shared.st request

variable {n : ChainId} {id : InstanceId} {logs logs' : ChainId → List Event}

theorem instanceInv_initial : InstanceInv n id logs (World.initial, fun _ => []) where
  tasks := by simp [World.initial]
  calls := by simp [World.initial]
  owned := by simp [World.initial, held]
  numbered := by simp [World.initial]
  origins := by simp [World.initial]
  submitted := by simp [World.initial, Submits, World.forwards, held, dealt]
  forwarding := by simp [World.initial, txsAt]
  voting := by simp [World.initial]
  cast := by simp [World.initial]
  counted := by simp [World.initial]
  received := by simp

theorem instanceInv_mono {s : World × Inbox} (hsub : ∀ k, logs k ⊆ logs' k)
    (h : InstanceInv n id logs s) : InstanceInv n id logs' s :=
  { h with
    calls := fun i txs c seq hr => ⟨(h.calls i txs c seq hr).1, hsub c (h.calls i txs c seq hr).2⟩
    origins := by
      intro xt hl
      rcases h.origins xt hl with hown | ⟨c, txs, seq, hlog, htxs⟩
      · exact Or.inl hown
      · exact Or.inr ⟨c, txs, seq, hsub c hlog, htxs⟩ }

/-- A move in which no task runs and no call gets lost. -/
theorem instanceInv_quiet {w w' : World} {inbox inbox' : Inbox} (h : QuietMove w w')
    (htasks : ∀ t ∈ w'.tasks, Tracked id t)
    (hcalls : ∀ i txs c seq, .request (.forwardedXt i txs c seq) ∈ w'.tasks →
      c ≠ n ∧ .forwardXt i txs seq ∈ logs c)
    (hstay : ∀ request, .request request ∈ w.tasks → .request request ∈ w'.tasks)
    (hinbox : ∀ c, ∀ request ∈ inbox' c, request ∈ inbox c ∨ .request request ∈ w'.tasks)
    (hi : InstanceInv n id logs (w, inbox)) : InstanceInv n id logs (w', inbox') := by
  have hforwards : w'.forwards = w.forwards := h.dealt_eq lasting_forwards
  have hballots : w'.ballots = w.ballots := h.dealt_eq lasting_ballots
  have hsubmits : ∀ txs, Submits w' id txs ↔ Submits w id txs := by
    intro txs
    rw [Submits, Submits, h.held_eq lasting_registrars, hforwards]
  constructor
  · exact htasks
  · exact hcalls
  · rw [h.held_eq lasting_owned, h.st_eq]
    exact hi.owned
  · rw [h.st_eq]
    exact hi.numbered
  · rw [h.st_eq]
    exact hi.origins
  · intro txs hs
    rw [h.st_eq]
    exact hi.submitted txs ((hsubmits txs).mp hs)
  · intro hown txs htxs
    rw [h.st_eq] at htxs
    exact (hsubmits txs).mpr (hi.forwarding hown txs htxs)
  · rw [h.held_eq lasting_voters, h.st_eq]
    exact hi.voting
  · rw [hballots, h.st_eq]
    exact hi.cast
  · rw [h.st_eq]
    exact hi.counted
  · intro c request hr
    rw [h.st_eq]
    rcases hinbox c request hr with hold | hnew
    · rcases hi.received c request hold with hwaits | hdone
      · exact Or.inl (hstay request hwaits)
      · exact Or.inr hdone
    · exact Or.inl hnew

end Invariant

section Step

def ForwardOutcome.accepted : ForwardOutcome → Bool
  | .rejected _ => false
  | _ => true

/-- A forward of the instance is accepted. -/
def acceptsForward (cfg : Config) (st : CoordinatorState) (id : InstanceId) : Task → Bool
  | .request (.forwardedXt i txs originChain originSeq) =>
    i != id || (forwardXt cfg st i txs originChain originSeq).2.accepted
  | _ => true

/-- A peer's vote on the instance finds it pending. -/
def awaitsVote (st : CoordinatorState) (id : InstanceId) : Task → Bool
  | .request (.peerVote i _ _) => i != id || decide (i ∈ st.pending)
  | _ => true

theorem pending_of_accepted {cfg : Config} {st : CoordinatorState} {id : InstanceId} {txs : RawTxs}
    {originChain : ChainId} {originSeq : SequenceNumber}
    (h : (forwardXt cfg st id txs originChain originSeq).2.accepted = true) :
    id ∈ ((Op.forwardXt id txs originChain originSeq).apply cfg st).pending := by
  simp only [Op.apply]
  unfold forwardXt registerForwarded at h ⊢
  split_ifs at h ⊢ with hid hempty hknown hfull
  · simp [ForwardOutcome.accepted] at h
  · simp [ForwardOutcome.accepted] at h
  · exact hknown
  · simp [ForwardOutcome.accepted] at h
  · rw [pending_insertXt]
    exact AList.mem_insert _ |>.mpr (Or.inl rfl)

/-- Calls come from outside; no task makes one. -/
theorem request_not_next {cfg : Config} {reply : TaskReply} {sh sh' : Shared} {t : Task}
    {next : List Task} {es : List Event} (h : TaskEffect cfg reply sh sh' t next es)
    (request : Request) : .request request ∉ next := by
  intro hu
  rcases handsOn_or_drops h with hand | hdrop
  · cases hand with
    | registered =>
      unfold submitFirst at hu
      split at hu <;> simp at hu
    | proceeded registrar =>
      rcases mem_registrarNext hu with he | ⟨_, _, -, he⟩ | ⟨_, _, he⟩ <;> simp at he
    | _ => simp at hu
  · simpa [Task.carries] using hdrop _ hu

/-- A task of the coordinator of chain `n` takes a step in which no builder fails, a forward of
the instance is accepted and a vote on it finds it pending. -/
structure InstanceStep (cfg : Config) (n : ChainId) (id : InstanceId)
    (logs : ChainId → List Event) (inbox : Inbox) (reply : TaskReply) (w : World) (t : Task)
    (before after next : List Task) (sh' : Shared) (es : List Event) : Prop where
  chainId_eq : cfg.chainId = n
  alone : cfg.publisher = false
  peers : cfg.peerCoordinator = true
  tasks_eq : w.tasks = before ++ t :: after
  step : taskStep cfg reply w.shared t = some (sh', next, es)
  served : builderServes cfg reply t = true
  accepted : acceptsForward cfg w.shared.st id t = true
  awaited : awaitsVote w.shared.st id t = true
  inv : InstanceInv n id logs (w, inbox)
  shown : ∀ c txs seq, .forwardXt id txs seq ∈ logs c → GivenBy c id

namespace InstanceStep

variable {cfg : Config} {n : ChainId} {id : InstanceId} {logs : ChainId → List Event}
  {inbox : Inbox} {reply : TaskReply} {w : World} {t : Task} {before after next : List Task}
  {sh' : Shared} {es : List Event}
  (hs : InstanceStep cfg n id logs inbox reply w t before after next sh' es)

include hs

theorem tracked : Tracked id t := hs.inv.tasks t (mem_of_split hs.tasks_eq)

theorem holds {β : Type} {f : Task → List β} {b : β} (h : b ∈ f t) : b ∈ w.held f :=
  mem_held.mpr ⟨t, mem_of_split hs.tasks_eq, h⟩

theorem effect : TaskEffect cfg reply w.shared sh' t next es := taskStep_effect hs.step

/-- A peer forwards only what it has given the identifier for. -/
theorem not_given {txs : RawTxs} {c : ChainId} {seq : SequenceNumber}
    (ht : t = .request (.forwardedXt id txs c seq)) : ¬GivenBy n id := by
  intro hown
  obtain ⟨hne, hlog⟩ := hs.inv.calls id txs c seq (ht ▸ mem_of_split hs.tasks_eq)
  obtain ⟨k, hk⟩ := hown
  obtain ⟨k', hk'⟩ := hs.shown c txs seq hlog
  exact hne (InstanceId.standalone_inj (hk'.symm.trans hk)).1

/-- What a step registers was not pending. -/
theorem registers_new {xt x : PendingXt} {registrar : Registrar}
    (h : Registers cfg w.shared.st t xt registrar) (hid : xt.id = id)
    (hl : w.shared.st.pending.lookup id = some x) : False := by
  cases h with
  | submitted txs =>
    have hgiven : id = InstanceId.standalone n (w.shared.st.originSeq + 1) := by
      rw [← hid, ← hs.chainId_eq]
      rfl
    exact Nat.not_succ_le_self _ (hs.inv.numbered _ x hgiven hl)
  | forwarded i txs originChain originSeq buffered hnew =>
    obtain rfl : i = id := hid
    exact hnew (AList.lookup_isSome.mp (by simp [hl]))
  | started => simpa [Task.standalone, Request.standalone] using hs.tracked.standalone

theorem not_registered {xt : PendingXt} (hl : w.shared.st.pending.lookup id = some xt) (op : Op)
    (route : Route) (hop : taskOp cfg reply t = some op) :
    op.registers cfg w.shared.st ≠ some (id, route) := by
  intro hr
  obtain ⟨x, -, hnew⟩ := newEntry_of_registers hs.step hop hr
  obtain ⟨registrar, hreg, -⟩ := hnew.registrar
  obtain ⟨route', hf⟩ := hnew.fresh
  exact hs.registers_new hreg hf.id_eq hl

/-- The instance stays, once it is pending. -/
theorem kept {xt : PendingXt} (hl : w.shared.st.pending.lookup id = some xt) :
    ∃ xt', sh'.st.pending.lookup id = some xt' ∧ SameXt xt xt' := by
  obtain ⟨xt', hl'⟩ := present_taskStep hs.step hs.tracked.standalone hl hs.tracked.kept
  obtain ⟨x, hx, hsame⟩ := entry_of_not_registered hs.step (hs.not_registered hl) hl'
  obtain rfl := Option.some.inj (hl.symm.trans hx)
  exact ⟨xt', hl', hsame⟩

theorem txs_kept {txs : RawTxs} (h : txsAt w.shared.st id = some txs) :
    txsAt sh'.st id = some txs := by
  obtain ⟨xt, hl, htxs⟩ := Option.map_eq_some_iff.mp h
  obtain ⟨xt', hl', hsame⟩ := hs.kept hl
  rw [txsAt, hl', ← htxs]
  exact congrArg some hsame.rawTxs_eq

theorem tasks_step : ∀ u ∈ before ++ next ++ after, Tracked id u := by
  intro u hu
  rcases mem_tasks_of_split hs.tasks_eq hu with hnext | hw
  · refine tracked_step hs.step hs.served hs.alone hs.tracked (fun pc hpc => ?_) u hnext
    have howned : id ∈ t.owned := by simp [hpc, Task.owned]
    obtain ⟨xt, hl⟩ := hs.inv.owned (hs.holds howned)
    simp [hl]
  · exact hs.inv.tasks u hw

theorem calls_step (i : InstanceId) (txs : RawTxs) (c : ChainId) (seq : SequenceNumber)
    (h : .request (.forwardedXt i txs c seq) ∈ before ++ next ++ after) :
    c ≠ n ∧ .forwardXt i txs seq ∈ logs c := by
  rcases mem_tasks_of_split hs.tasks_eq h with hnext | hw
  · exact absurd hnext (request_not_next hs.effect _)
  · exact hs.inv.calls i txs c seq hw

theorem owned_step (h : id ∈ (before ++ next ++ after).flatMap Task.owned) :
    ∃ xt, sh'.st.pending.lookup id = some xt := by
  rcases Coordinator.owned_after hs.tasks_eq hs.step h with hw | ⟨op, route, hop, hr⟩
  · obtain ⟨xt, hl⟩ := hs.inv.owned hw
    obtain ⟨xt', hl', -⟩ := hs.kept hl
    exact ⟨xt', hl'⟩
  · obtain ⟨xt, hl, -⟩ := newEntry_of_registers hs.step hop hr
    exact ⟨xt, hl⟩

/-- Where a new entry under the identifier comes from. -/
theorem new_entry {xt : PendingXt} (h : NewEntry cfg w.shared.st t next es id xt) :
    (∃ txs, t = .submitStandalone txs ∧ xt = standaloneXt cfg (w.shared.st.originSeq + 1) txs ∧
        next = [submitFirst (localBuilderSubmission cfg.chainId xt) (.submitted id txs)] ∧
        id = InstanceId.standalone n (w.shared.st.originSeq + 1)) ∨
      ∃ txs c seq, t = .request (.forwardedXt id txs c seq) ∧ xt.rawTxs = cleanTxs txs ∧
        next = [submitFirst (localBuilderSubmission cfg.chainId xt)
          (.forwarded id (cfg.chainId ∈ cleanTxs txs))] := by
  obtain ⟨registrar, hreg, hnext⟩ := h.registrar
  obtain ⟨route, hf⟩ := h.fresh
  have hid := hf.id_eq
  cases hreg with
  | submitted txs =>
    rw [hid] at hnext
    refine Or.inl ⟨txs, rfl, rfl, hnext, ?_⟩
    rw [← hid, ← hs.chainId_eq]
    rfl
  | forwarded i txs originChain originSeq buffered hnew =>
    obtain rfl : i = id := hid
    exact Or.inr ⟨txs, originChain, originSeq, rfl, rfl, hnext⟩
  | started => simpa [Task.standalone, Request.standalone] using hs.tracked.standalone

theorem numbered_step (k : SequenceNumber) (xt' : PendingXt) (hk : id = InstanceId.standalone n k)
    (hl' : sh'.st.pending.lookup id = some xt') : k ≤ sh'.st.originSeq := by
  rcases entry_step hs.step hl' with ⟨xt, hl, -, -⟩ | hnew
  · exact (hs.inv.numbered k xt hk hl).trans (originSeq_taskStep hs.step)
  · rcases hs.new_entry hnew with ⟨txs, ht, -, -, hid⟩ | ⟨txs, c, seq, ht, -, -⟩
    · obtain ⟨-, rfl⟩ := InstanceId.standalone_inj (hk.symm.trans hid)
      have hid' : id = (standaloneXt cfg (w.shared.st.originSeq + 1) txs).id := by
        rw [hid, ← hs.chainId_eq]
        rfl
      have hnone : w.shared.st.pending.lookup id = none := by
        cases hl : w.shared.st.pending.lookup id with
        | none => rfl
        | some x => exact absurd (hs.inv.numbered _ x hk hl) (Nat.not_succ_le_self _)
      have hstep := hs.step
      rw [ht] at hstep
      rw [hid'] at hnone hl'
      exact originSeq_submitted hstep hnone hl'
    · exact absurd ⟨k, hk⟩ (hs.not_given ht)

theorem origins_step (xt' : PendingXt) (hl' : sh'.st.pending.lookup id = some xt') :
    GivenBy n id ∨ ∃ c txs seq, .forwardXt id txs seq ∈ logs c ∧ xt'.rawTxs = cleanTxs txs := by
  rcases entry_step hs.step hl' with ⟨xt, hl, hsame, -⟩ | hnew
  · rw [hsame.rawTxs_eq]
    exact hs.inv.origins xt hl
  · rcases hs.new_entry hnew with ⟨txs, -, -, -, hid⟩ | ⟨txs, c, seq, ht, htxs, -⟩
    · exact Or.inl ⟨_, hid⟩
    · obtain ⟨-, hlog⟩ := hs.inv.calls id txs c seq (ht ▸ mem_of_split hs.tasks_eq)
      exact Or.inr ⟨c, txs, seq, hlog, htxs⟩

theorem submitted_step (txs : RawTxs)
    (h : Submits ⟨sh', before ++ next ++ after, w.log ++ es⟩ id txs) :
    GivenBy n id ∧ txsAt sh'.st id = some txs := by
  have hold : Submits w id txs → GivenBy n id ∧ txsAt sh'.st id = some txs := by
    intro hw
    obtain ⟨hown, htxs⟩ := hs.inv.submitted txs hw
    exact ⟨hown, hs.txs_kept htxs⟩
  rcases h with hreg | hforward
  · rcases held_of_split hs.tasks_eq hreg with hnext | hw
    · rcases registrars_step hs.effect hnext with ht | ⟨xt, r, op, route, hx, -, -, hl, rfl⟩
      · exact hold (Or.inl (hs.holds ht))
      · rw [registrars_submitFirst, List.mem_singleton] at hnext
        subst hnext
        cases hx with
        | submitted =>
          refine ⟨⟨w.shared.st.originSeq + 1, by rw [← hs.chainId_eq]; rfl⟩, ?_⟩
          rw [txsAt, hl]
          rfl
    · exact hold (Or.inl hw)
  · rcases dealt_of_split hs.tasks_eq (fun f hf => forwardEvents_step hs.effect hf) hforward with
      hw | hnext
    · exact hold (Or.inr hw)
    · rcases forwards_step hs.effect hnext with ht | ht
      · exact hold (Or.inr (List.mem_append_left _ (hs.holds ht)))
      · exact hold (Or.inl (hs.holds (by simp [ht, Task.registrars])))

theorem forwarding_step (hown : GivenBy n id) (txs : RawTxs) (h : txsAt sh'.st id = some txs) :
    Submits ⟨sh', before ++ next ++ after, w.log ++ es⟩ id txs := by
  obtain ⟨xt', hl', htxs⟩ := Option.map_eq_some_iff.mp h
  rcases entry_step hs.step hl' with ⟨xt, hl, hsame, -⟩ | hnew
  · have hbefore : txsAt w.shared.st id = some txs := by
      rw [txsAt, hl, ← htxs]
      exact congrArg some hsame.rawTxs_eq.symm
    rcases hs.inv.forwarding hown txs hbefore with hreg | hforward
    · rcases held_kept next hs.tasks_eq hreg with ht | hrest
      · rcases submitters_handed hs.step hs.served hs.peers hs.tracked.kept ht with hr | hf
        · exact Or.inl (held_next before after hr)
        · exact Or.inr (List.mem_append_left _ (held_next before after hf))
      · exact Or.inl hrest
    · exact Or.inr (dealt_kept hs.tasks_eq (forwards_handed hs.step) hforward)
  · rcases hs.new_entry hnew with ⟨txs', -, rfl, hnext, -⟩ | ⟨txs', c, seq, ht, -, -⟩
    · obtain rfl : txs' = txs := htxs
      have hr : .submitted id txs' ∈ next.flatMap Task.registrars := by
        rw [hnext, registrars_submitFirst]
        exact List.mem_singleton.mpr rfl
      exact Or.inl (held_next before after hr)
    · exact absurd hown (hs.not_given ht)

/-- A new entry with local transactions goes on to the local vote. -/
theorem voter_of_new {xt : PendingXt} (h : NewEntry cfg w.shared.st t next es id xt)
    (hruns : xt.runsOn n = true) : id ∈ next.flatMap Task.voters := by
  rcases hs.new_entry h with ⟨txs, -, -, hnext, -⟩ | ⟨txs, c, seq, -, htxs, hnext⟩
  · rw [hnext, voters_submitFirst]
    exact List.mem_singleton.mpr rfl
  · have hlocal : cfg.chainId ∈ cleanTxs txs := by
      rw [hs.chainId_eq, ← htxs]
      exact mem_rawTxs_of_runsOn hruns
    rw [hnext, voters_submitFirst]
    simp [Registrar.voter, hlocal]

theorem voting_step (xt' : PendingXt) (hl' : sh'.st.pending.lookup id = some xt')
    (hruns : xt'.runsOn n = true) (hnone : xt'.localVote = none) :
    id ∈ (before ++ next ++ after).flatMap Task.voters := by
  rcases entry_step hs.step hl' with ⟨xt, hl, hsame, -⟩ | hnew
  · have hbefore : xt.localVote = none := by
      cases hv : xt.localVote with
      | none => rfl
      | some v => simp [hsame.localVote_stays v hv] at hnone
    rw [runsOn_of_rawTxs hsame.rawTxs_eq] at hruns
    have hvoter := hs.inv.voting xt hl hruns hbefore
    rcases held_kept next hs.tasks_eq hvoter with ht | hrest
    · rcases voters_handed hs.step hs.served hs.tracked.standalone hs.tracked.running ht with
        hnext | ⟨vote, standalone, he⟩
      · exact held_next before after hnext
      · -- the vote that this step records is there afterwards
        have hstep := hs.step
        rw [he] at hstep
        simp [recorded_localVote hstep hl hbefore hl'] at hnone
    · exact hrest
  · exact held_next before after (hs.voter_of_new hnew hruns)

theorem ballot_recorded {xt : PendingXt} {vote standalone : Bool}
    (hl : w.shared.st.pending.lookup id = some xt) (hnone : xt.localVote = none)
    (ht : t = .recordVote id vote standalone) : (id, vote) ∈ next.flatMap Task.ballots := by
  have halone := hs.tracked.standalone
  have hstep := hs.step
  rw [ht] at halone hstep
  obtain rfl : standalone = true := halone
  simp only [taskStep, recordLocalVote, recordVote, hl, hnone, Option.isSome_none,
    Bool.false_eq_true, if_false, Option.some.injEq, Prod.mk.injEq] at hstep
  rw [← hstep.2.1]
  exact ballots_commanded hs.peers _ (by simp [Resume.ballots])

theorem cast_step (xt' : PendingXt) (vote : Bool) (hl' : sh'.st.pending.lookup id = some xt')
    (hv : xt'.localVote = some vote) :
    (id, vote) ∈ World.ballots ⟨sh', before ++ next ++ after, w.log ++ es⟩ := by
  rcases entry_step hs.step hl' with ⟨xt, hl, hsame, hno⟩ | hnew
  · cases hbefore : xt.localVote with
    | some v =>
      obtain rfl := Option.some.inj ((hsame.localVote_stays v hbefore).symm.trans hv)
      exact dealt_kept hs.tasks_eq (ballots_handed hs.step hs.served hs.peers)
        (hs.inv.cast xt v hl hbefore)
    | none =>
      rcases localVote_taskStep hs.step hl hl' hno hbefore with hn | ⟨v, standalone, ht, hv'⟩
      · simp [hn] at hv
      · obtain rfl := Option.some.inj (hv'.symm.trans hv)
        have hnext := hs.ballot_recorded hl hbefore ht
        exact List.mem_append_left _ (held_next before after hnext)
  · obtain ⟨route, hf⟩ := hnew.fresh
    simp [hf.localVote_eq] at hv

theorem votes_step {xt xt' : PendingXt} (hl : w.shared.st.pending.lookup id = some xt)
    (hl' : sh'.st.pending.lookup id = some xt') :
    (Counted n xt → Counted n xt') ∧ ∀ c, HasVote c xt → HasVote c xt' := by
  rcases taskStep_op hs.step with ⟨-, hst⟩ | ⟨op, hop, hst⟩
  · rw [hst] at hl'
    obtain rfl := Option.some.inj (hl.symm.trans hl')
    exact ⟨fun h => h, fun _ h => h⟩
  · rw [hst] at hl'
    rw [← hs.chainId_eq]
    exact votes_apply (op_standalone hs.tracked.standalone hop).1
      (fun route => hs.not_registered hl op route hop) hl hl'

theorem counted_step (xt' : PendingXt) (hl' : sh'.st.pending.lookup id = some xt') :
    Counted n xt' := by
  rcases entry_step hs.step hl' with ⟨xt, hl, -, -⟩ | hnew
  · exact (hs.votes_step hl hl').1 (hs.inv.counted xt hl)
  · obtain ⟨route, hf⟩ := hnew.fresh
    exact counted_fresh hf

theorem handled_kept (request : Request) (h : Handled id w.shared.st request) :
    Handled id sh'.st request := by
  cases request with
  | forwardedXt i txs c seq =>
    intro hi
    obtain ⟨xt, hl⟩ := h hi
    obtain ⟨xt', hl', -⟩ := hs.kept hl
    exact ⟨xt', hl'⟩
  | peerVote i c vote =>
    intro hi
    obtain ⟨xt, hl, hv⟩ := h hi
    obtain ⟨xt', hl', -⟩ := hs.kept hl
    exact ⟨xt', hl', (hs.votes_step hl hl').2 c hv⟩
  | _ => trivial

/-- The call that the step handles. -/
theorem handled_now (request : Request) (ht : t = .request request) :
    Handled id sh'.st request := by
  have hst := taskStep_state cfg reply w.shared hs.step
  have haccepted := hs.accepted
  have hawaited := hs.awaited
  rw [ht] at hst haccepted hawaited
  cases request with
  | forwardedXt i txs c seq =>
    intro hi
    subst hi
    have hmem := pending_of_accepted (by simpa [acceptsForward] using haccepted)
    rw [hst]
    exact Option.isSome_iff_exists.mp (AList.lookup_isSome.mpr hmem)
  | peerVote i c vote =>
    intro hi
    subst hi
    have hmem : i ∈ w.shared.st.pending := by simpa [awaitsVote] using hawaited
    obtain ⟨xt, hl⟩ := Option.isSome_iff_exists.mp (AList.lookup_isSome.mpr hmem)
    rw [hst]
    exact hasVote_recorded hl
  | _ => trivial

theorem received_step (c : ChainId) (request : Request) (h : request ∈ inbox c) :
    .request request ∈ before ++ next ++ after ∨ Handled id sh'.st request := by
  rcases hs.inv.received c request h with hwaits | hdone
  · have hwaits' : Task.request request ∈ before ++ t :: after := hs.tasks_eq ▸ hwaits
    by_cases ht : t = .request request
    · exact Or.inr (hs.handled_now request ht)
    · left
      simp only [List.mem_append, List.mem_cons] at hwaits' ⊢
      rcases hwaits' with hb | he | ha
      · exact Or.inl (Or.inl hb)
      · exact absurd he.symm ht
      · exact Or.inr ha
  · exact Or.inr (hs.handled_kept request hdone)

/-- One step of a task keeps what is known of the instance. -/
theorem instanceInv :
    InstanceInv n id logs (⟨sh', before ++ next ++ after, w.log ++ es⟩, inbox) where
  tasks := hs.tasks_step
  calls := hs.calls_step
  owned := hs.owned_step
  numbered := hs.numbered_step
  origins := hs.origins_step
  submitted := hs.submitted_step
  forwarding := hs.forwarding_step
  voting := hs.voting_step
  cast := hs.cast_step
  counted := hs.counted_step
  received := hs.received_step

end InstanceStep

end Step

end Sidecar.Coordinator
