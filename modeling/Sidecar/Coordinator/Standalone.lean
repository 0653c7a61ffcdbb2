import Sidecar.Coordinator.Entry
import Sidecar.Coordinator.Lineage
import Sidecar.Coordinator.Validity

namespace Sidecar.Coordinator

open TaskSystem

section Ops

variable {cfg : Config} {st : CoordinatorState}

/-- Only a peer's vote for the instance writes a peer vote. -/
theorem peerVotes_apply {op : Op} {id : InstanceId} {xt xt' : PendingXt}
    (hl : st.pending.lookup id = some xt) (hl' : (op.apply cfg st).pending.lookup id = some xt')
    (hreg : ∀ route, op.registers cfg st ≠ some (id, route)) :
    xt'.peerVotes = xt.peerVotes ∨ ∃ chainId vote now, op = .peerVote id chainId vote now ∧
      xt'.peerVotes = xt.peerVotes.insert chainId vote := by
  have he := xtEffect cfg st op id
  rw [hl, hl'] at he
  cases he with
  | same => exact Or.inl rfl
  | touched _ _ hc => exact Or.inl (congrArg XtCore.peerVotes hc)
  | registered _ _ route _ hr _ => exact absurd hr (hreg route)
  | voted _ vote standalone now _ =>
    exact Or.inl (congrArg XtCore.peerVotes (castVote_frame cfg xt vote standalone now))
  | peerVoted _ chainId vote now _ _ =>
    exact Or.inr ⟨chainId, vote, now, rfl, congrArg XtCore.peerVotes (standaloneDecision_frame
      cfg.chainId { xt with peerVotes := xt.peerVotes.insert chainId vote } now)⟩
  | decided => exact Or.inl rfl
  | outdated =>
    unfold abortUndecided
    split_ifs <;> exact Or.inl rfl
  | rolledBack =>
    unfold forceAbort
    split_ifs <;> exact Or.inl rfl

end Ops

section Grounded

/-- An aborted instance has an abort vote, of the local chain or of a peer. -/
def Grounded (chainId : ChainId) (xt : PendingXt) : Prop :=
  xt.decision = some false → ∃ c, voteOf chainId xt c = some false

theorem voteOf_of_countedVotes {chainId : ChainId} {xt : PendingXt} {v : Bool}
    (h : v ∈ countedVotes chainId xt) : ∃ c, voteOf chainId xt c = some v := by
  rcases List.mem_append.mp h with hl | hp
  · exact ⟨chainId, by simpa [voteOf] using hl⟩
  · obtain ⟨e, he, rfl⟩ := List.mem_map.mp hp
    obtain ⟨hmem, hne⟩ := List.mem_filter.mp he
    refine ⟨e.1, ?_⟩
    rw [voteOf, if_neg (by simpa using hne)]
    exact (List.mem_dlookup_iff xt.peerVotes.nodupKeys).mpr hmem

theorem grounded_standaloneDecision {chainId : ChainId} {xt : PendingXt} (now : Instant)
    (h : Grounded chainId xt) :
    Grounded chainId (maybeMakeStandaloneDecision chainId xt now).1 := by
  rcases standaloneDecision_cases chainId xt now with he | ⟨-, hf, n, m, he⟩ | ⟨-, -, n, m, he⟩
  · rw [he]
    exact h
  · rw [he]
    exact fun _ => voteOf_of_countedVotes hf
  · rw [he]
    intro hd
    simp [PendingXt.recordDecision] at hd

theorem grounded_of_core {chainId : ChainId} {xt xt' : PendingXt} (hc : xt'.core = xt.core)
    (h : Grounded chainId xt) : Grounded chainId xt' := by
  have hd : xt'.decision = xt.decision := congrArg XtCore.decision hc
  have hl : xt'.localVote = xt.localVote := congrArg XtCore.localVote hc
  have hp : xt'.peerVotes = xt.peerVotes := congrArg XtCore.peerVotes hc
  intro hn
  obtain ⟨c, hv⟩ := h (hd.symm.trans hn)
  exact ⟨c, by simpa [voteOf, hl, hp] using hv⟩

/-- One locked part of a standalone coordinator keeps abort decisions grounded. -/
theorem grounded_step {cfg : Config} {s t : CoordinatorState} {op : Op}
    (h : StandaloneStep cfg s op t)
    (hs : ∀ id xt, s.pending.lookup id = some xt → Grounded cfg.chainId xt) :
    ∀ id xt, t.pending.lookup id = some xt → Grounded cfg.chainId xt := by
  obtain ⟨halone, rfl⟩ := h
  intro id xt' hl'
  have he := xtEffect cfg s op id
  rw [hl'] at he
  generalize hl : s.pending.lookup id = o at he
  cases he with
  | same => exact hs id xt' hl
  | touched _ _ hc => exact grounded_of_core hc (hs id _ hl)
  | registered _ _ _ _ _ hf =>
    intro hd
    simp [hf.decision_eq] at hd
  | @voted _ vote standalone now xt hv =>
    have hw : Grounded cfg.chainId (withLocalVote cfg xt vote now) := by
      intro hd
      obtain ⟨c, hc⟩ := hs id xt hl hd
      have hne : c ≠ cfg.chainId := by
        intro he
        simp [voteOf, he, hv] at hc
      exact ⟨c, by simpa [voteOf, withLocalVote, hne] using hc⟩
    rw [castVote_eq]
    cases standalone with
    | false => exact hw
    | true => exact grounded_standaloneDecision now hw
  | peerVoted _ chainId vote now hd hv =>
    apply grounded_standaloneDecision
    intro hn
    simp [hd] at hn
  | decided => simp [Op.standalone] at halone
  | outdated => simp [Op.standalone] at halone
  | rolledBack => simp [Op.standalone] at halone

end Grounded

section Tasks

def Resume.standalone : Resume → Bool
  | .done => true
  | .handVote _ _ _ standalone => standalone
  | .nextAbort _ _ => false
  | .nextRollback _ _ => false

def Registrar.standalone : Registrar → Bool
  | .submitted _ _ => true
  | .forwarded _ _ => true
  | .started _ _ _ _ => false

def Request.standalone : Request → Bool
  | .submitXt _ _ => true
  | .forwardedXt _ _ _ _ => true
  | .peerVote _ _ _ => true
  | .confirmIncluded _ => true
  | .mailboxMessage _ => true
  | _ => false

/-- The tasks of a coordinator that has no publisher and is neither rolled back nor cleaned
up. -/
def Task.standalone : Task → Bool
  | .request req => req.standalone
  | .submitPublisher _ _ => false
  | .sendRequest _ _ _ => false
  | .awaitInstance _ => false
  | .resolve _ _ _ => false
  | .reject _ => false
  | .reportAborted _ => false
  | .publisherVotes _ => false
  | .resetNonces _ => false
  | .submit _ registrar => registrar.standalone
  | .submitting registrar => registrar.standalone
  | .removePending registrar _ => registrar.standalone
  | .registered registrar => registrar.standalone
  | .recordVote _ _ standalone => standalone
  | .command _ resume => resume.standalone
  | .buildPutInbox _ _ _ _ resume => resume.standalone
  | .release _ _ resume => resume.standalone
  | .recycle _ resume => resume.all Resume.standalone
  | _ => true

variable {cfg : Config} {reply : TaskReply} {sh sh' : Shared} {t : Task} {next : List Task}
  {es : List Event}

theorem standalone_next {resume : Resume} (h : resume.standalone = true) :
    ∀ u ∈ resume.next cfg, u.standalone = true := by
  cases resume with
  | done => simp [Resume.next]
  | handVote id rawId vote standalone =>
    simp only [Resume.standalone] at h
    simp only [Resume.next, h, if_true]
    split_ifs <;> simp [Task.standalone]
  | nextAbort => simp [Resume.standalone] at h
  | nextRollback => simp [Resume.standalone] at h

theorem standalone_commandOr {command : Option XtBuilderCommand} {resume : Resume}
    (h : resume.standalone = true) : ∀ u ∈ commandOr cfg command resume, u.standalone = true := by
  cases command with
  | none => exact standalone_next h
  | some c => simpa [commandOr, Task.standalone] using h

/-- Without a publisher a standalone task leaves standalone tasks. -/
theorem standalone_step (h : TaskEffect cfg reply sh sh' t next es) (hp : cfg.publisher = false)
    (ht : t.standalone = true) : ∀ u ∈ next, u.standalone = true := by
  have hoff : isPublisherConnected cfg sh = false := by simp [isPublisherConnected, hp]
  cases h with
  | modeChosen _ _ hu =>
    rcases hu with rfl | ⟨rfl, hc⟩
    · simp [Task.standalone]
    · simp [hoff] at hc
  | @registered _ xt registrar _ _ hreg =>
    have hr : registrar.standalone = true := by
      cases hreg with
      | submitted => rfl
      | forwarded => rfl
      | started => simp [Task.standalone, Request.standalone] at ht
    unfold submitFirst
    split <;> simpa [Task.standalone] using hr
  | decided => exact standalone_commandOr rfl
  | voteRecorded _ _ standalone => exact standalone_commandOr ht
  | removed registrar err =>
    cases registrar with
    | submitted => simp [Registrar.undone]
    | forwarded => simp [Registrar.undone]
    | started => simp [Task.standalone, Registrar.standalone] at ht
  | proceeded registrar =>
    cases registrar with
    | submitted id txs =>
      simp only [Registrar.next]
      split_ifs <;> simp [Task.standalone]
    | forwarded id hasLocal =>
      simp only [Registrar.next]
      split_ifs <;> simp [Task.standalone]
    | started => simp [Task.standalone, Registrar.standalone] at ht
  | modeRead id vote => simp [Task.standalone, hoff]
  | releaseSkipped _ _ resume => exact standalone_next ht
  | releaseStarted _ _ resume _ hu =>
    rcases hu with rfl | ⟨_, rfl⟩ <;> simpa [Task.standalone] using ht
  | abortSent _ resume _ hn =>
    rcases hn with rfl | rfl
    · simpa [Task.standalone] using ht
    · simp
  | built _ _ _ _ resume hu =>
    rcases hu with rfl | rfl | ⟨_, _, _, rfl⟩
    · simpa [Task.standalone] using ht
    · simp [Task.standalone]
    · simpa [Task.standalone] using ht
  | releaseSent _ _ resume hn =>
    rcases hn with rfl | rfl
    · exact standalone_next ht
    · simp [Task.standalone]
  | recycled _ resume => exact standalone_next (by simpa [Task.standalone] using ht)
  | submitted | notSubmitted | accepted | declined | abortSkipped =>
    simpa [Task.standalone] using ht
  | refused | tooMany | periodOpened | rolledBack | enqueued | requested | resolved | rejected
    | abortsReported | voteSent | noncesReset =>
    simp [Task.standalone, Request.standalone] at ht
  | stopped | confirmed | mailed | forwardStarted | forwarded | processed | processVoted
    | peerVoteSent | nonceConfirmed => simp [Task.standalone]

/-- The locked parts of standalone tasks: none is of a publisher, and only a refused
submission takes an instance out. -/
theorem op_standalone (ht : t.standalone = true) {op : Op} (hop : taskOp cfg reply t = some op) :
    op.standalone = true ∧ ∀ id, op.removes id = true → id ∈ t.removing := by
  cases runsOp_of_taskOp hop with
  | removed registrar err =>
    refine ⟨rfl, fun id hr => ?_⟩
    simpa [Op.removes, Task.removing, eq_comm] using hr
  | voted => exact ⟨ht, by simp [Op.removes]⟩
  | started | decided | periodStarted | rolledBack | cleanedUp | enqueued | resolved =>
    simp [Task.standalone, Request.standalone] at ht
  | _ => exact ⟨rfl, by simp [Op.removes]⟩

/-- A standalone task that does not take an instance back leaves it pending. -/
theorem present_taskStep (h : taskStep cfg reply sh t = some (sh', next, es))
    (ht : t.standalone = true) {id : InstanceId} {xt : PendingXt}
    (hl : sh.st.pending.lookup id = some xt) (hr : id ∉ t.removing) :
    ∃ xt', sh'.st.pending.lookup id = some xt' := by
  rw [taskStep_state cfg reply sh h]
  cases hop : taskOp cfg reply t with
  | none => exact ⟨xt, hl⟩
  | some op =>
    have hkeep : op.removes id = false := by
      cases hrem : op.removes id with
      | false => rfl
      | true => exact absurd ((op_standalone ht hop).2 id hrem) hr
    exact present_apply hl hkeep

theorem originSeq_taskStep (h : taskStep cfg reply sh t = some (sh', next, es)) :
    sh.st.originSeq ≤ sh'.st.originSeq := by
  rw [taskStep_state cfg reply sh h]
  cases taskOp cfg reply t with
  | none => exact le_rfl
  | some op => exact originSeq_mono cfg sh.st op

/-- A submission that is pending after its step, and was not before, has counted up. -/
theorem originSeq_submitted {txs : RawTxs}
    (h : taskStep cfg reply sh (.submitStandalone txs) = some (sh', next, es)) {xt : PendingXt}
    (hnew : sh.st.pending.lookup (standaloneXt cfg (sh.st.originSeq + 1) txs).id = none)
    (hl : sh'.st.pending.lookup (standaloneXt cfg (sh.st.originSeq + 1) txs).id = some xt) :
    sh.st.originSeq + 1 ≤ sh'.st.originSeq := by
  have hst : sh'.st = (submitXt cfg sh.st txs).1 := taskStep_state cfg reply sh h
  rw [hst] at hl ⊢
  rcases submitXt_spec cfg sh.st txs with ⟨-, hp⟩ | ⟨ho, -⟩
  · rw [hp, hnew] at hl
    simp at hl
  · exact ((originSeq_submitXt cfg sh.st txs).2 _ _ ho).ge

theorem taskOp_peerVote {id : InstanceId} {chainId : ChainId} {vote : Bool} {now : Instant}
    (h : taskOp cfg reply t = some (.peerVote id chainId vote now)) :
    t = .request (.peerVote id chainId vote) := by
  cases runsOp_of_taskOp h with
  | peerVoted => rfl

/-- A step that changes the peer votes of an instance is a vote of a peer. -/
theorem peerVotes_taskStep (h : taskStep cfg reply sh t = some (sh', next, es)) {id : InstanceId}
    {xt xt' : PendingXt} (hl : sh.st.pending.lookup id = some xt)
    (hl' : sh'.st.pending.lookup id = some xt')
    (hreg : ∀ op route, taskOp cfg reply t = some op → op.registers cfg sh.st ≠ some (id, route)) :
    xt'.peerVotes = xt.peerVotes ∨ ∃ chainId vote, t = .request (.peerVote id chainId vote) ∧
      xt'.peerVotes = xt.peerVotes.insert chainId vote := by
  rcases taskStep_op h with ⟨-, hst⟩ | ⟨op, hop, hst⟩
  · rw [hst] at hl'
    obtain rfl := Option.some.inj (hl.symm.trans hl')
    exact Or.inl rfl
  · rw [hst] at hl'
    rcases peerVotes_apply hl hl' (fun route => hreg op route hop) with he |
      ⟨chainId, vote, now, rfl, he⟩
    · exact Or.inl he
    · exact Or.inr ⟨chainId, vote, taskOp_peerVote hop, he⟩

end Tasks

end Sidecar.Coordinator
