import Sidecar.Coordinator.Lineage

namespace Sidecar.Coordinator

open TaskSystem

section Votes

def publisherVote : Event → Option (Bytes × Bool)
  | .publisherVote rawId vote => some (rawId, vote)
  | _ => none

/-- The votes the publisher was sent, in order. -/
def sentVotes (log : List Event) : List (Bytes × Bool) := log.filterMap publisherVote

/-- No instance got both a commit and an abort vote. -/
def NoEquivocation (log : List Event) : Prop :=
  ∀ rawId, ¬((rawId, true) ∈ sentVotes log ∧ (rawId, false) ∈ sentVotes log)

def abortVotes (aborted : List Bytes) : List (Bytes × Bool) :=
  aborted.map (fun rawId => (rawId, false))

def Resume.votes : Resume → List (Bytes × Bool)
  | .handVote _ rawId vote standalone => if standalone then [] else [(rawId, vote)]
  | .nextAbort _ aborted => abortVotes aborted
  | _ => []

/-- The votes for the publisher that a task is about to send, or will send unless the
connection is lost. -/
def Task.votes : Task → List (Bytes × Bool)
  | .command _ resume => resume.votes
  | .buildPutInbox _ _ _ _ resume => resume.votes
  | .release _ _ resume => resume.votes
  | .recycle _ resume => resume.elim [] Resume.votes
  | .reportAborted aborted => abortVotes aborted
  | .publisherVotes votes => votes
  | .reject rawId => [(rawId, false)]
  | .resolve _ _ (.reject rawId) => [(rawId, false)]
  | .removePending (.started _ rawId _ _) _ => [(rawId, false)]
  | _ => []

/-- All votes for the publisher, sent or about to be. -/
def World.votes (w : World) : List (Bytes × Bool) := w.held Task.votes ++ sentVotes w.log

theorem lasting_votes : Lasting Task.votes := ⟨fun t => by cases t <;> rfl, fun _ => rfl, rfl⟩

variable (cfg : Config)

theorem votes_next (resume : Resume) : (resume.next cfg).flatMap Task.votes = resume.votes := by
  cases resume with
  | done => rfl
  | handVote id rawId vote standalone =>
    simp only [Resume.next, Resume.votes]
    split_ifs <;> rfl
  | nextAbort ids aborted => cases ids <;> simp [Resume.next, Task.votes, Resume.votes]
  | nextRollback ids waiters => cases ids <;> rfl

theorem votes_commandOr (command : Option XtBuilderCommand) (resume : Resume) :
    (commandOr cfg command resume).flatMap Task.votes = resume.votes := by
  cases command with
  | none => exact votes_next cfg resume
  | some c => simp [commandOr, Task.votes]

end Votes

section Step

variable {cfg : Config} {reply : TaskReply} {sh sh' : Shared} {t : Task} {next : List Task}
  {es : List Event}

/-- The places a vote for the publisher comes from: the local vote cast while connected, an
instance that a new period makes stale, a start that is refused, and a started instance that
the builder declines. -/
inductive NewVote (st : CoordinatorState) (t : Task) (next : List Task) (es : List Event) :
    Bytes → Bool → Prop
  | recorded {id : InstanceId} {vote : Bool} {xt : PendingXt} (ht : t = .recordVote id vote false)
      (hl : st.pending.lookup id = some xt) (hv : xt.localVote = none) :
      NewVote st t next es xt.instanceId vote
  | outdated {periodId : PeriodId} {id : InstanceId} {xt : PendingXt}
      (ht : t = .request (.startPeriod periodId)) (hl : st.pending.lookup id = some xt)
      (hs : isStale periodId xt = true) (hd : xt.decision = none) :
      NewVote st t next es xt.instanceId false
  | refused {msg : StartInstance} (ht : t = .request (.startInstance msg))
      (hes : es = [.refused msg.instanceId]) : NewVote st t next es msg.instanceId false
  | declined {id : InstanceId} {rawId : Bytes} {fingerprint : String} {includesLocal : Bool}
      {err : CoordinatorError} (ht : t = .submitting (.started id rawId fingerprint includesLocal))
      (hn : next = [.removePending (.started id rawId fingerprint includesLocal) err]) :
      NewVote st t next es rawId false

theorem votes_step (h : TaskEffect cfg reply sh sh' t next es) {rawId : Bytes} {vote : Bool}
    (hv : (rawId, vote) ∈ next.flatMap Task.votes) :
    (rawId, vote) ∈ t.votes ∨ NewVote sh.st t next es rawId vote := by
  cases h with
  | registered =>
    rw [flatMap_submitFirst (fun _ => rfl) rfl] at hv
    exact absurd hv List.not_mem_nil
  | refused msg =>
    simp only [List.flatMap_singleton, Task.votes, List.mem_singleton, Prod.mk.injEq] at hv
    obtain ⟨rfl, rfl⟩ := hv
    exact Or.inr (.refused rfl rfl)
  | decided => simp [votes_commandOr, Resume.votes] at hv
  | voteRecorded id v standalone hl hn =>
    rw [votes_commandOr] at hv
    cases standalone with
    | true => simp [Resume.votes] at hv
    | false =>
      simp only [Resume.votes, Bool.false_eq_true, if_false, List.mem_singleton,
        Prod.mk.injEq] at hv
      obtain ⟨rfl, rfl⟩ := hv
      exact Or.inr (.recorded rfl hl hn)
  | periodOpened periodId =>
    rw [votes_next] at hv
    obtain ⟨b, hb, he⟩ := List.mem_map.mp hv
    obtain ⟨rfl, rfl⟩ := Prod.mk.inj he
    simp only [openPeriod, List.mem_map, List.mem_filter, Map.mem_values, Bool.and_eq_true,
      Option.isNone_iff_eq_none] at hb
    obtain ⟨xt, ⟨⟨id, hl⟩, hs, hd⟩, rfl⟩ := hb
    exact Or.inr (.outdated rfl hl hs hd)
  | rolledBack => simp [votes_next, Resume.votes] at hv
  | declined registrar err =>
    cases registrar with
    | started id b f l =>
      simp only [List.flatMap_singleton, Task.votes, List.mem_singleton, Prod.mk.injEq] at hv
      obtain ⟨rfl, rfl⟩ := hv
      exact Or.inr (.declined rfl rfl)
    | submitted => simp [Task.votes] at hv
    | forwarded => simp [Task.votes] at hv
  | removed registrar err =>
    cases registrar with
    | started => exact Or.inl (by simpa [Registrar.undone, Task.votes] using hv)
    | submitted => simp [Registrar.undone] at hv
    | forwarded => simp [Registrar.undone] at hv
  | proceeded registrar =>
    cases registrar with
    | submitted id txs =>
      simp only [Registrar.next] at hv
      split_ifs at hv <;> simp [Task.votes] at hv
    | forwarded id hasLocal =>
      simp only [Registrar.next] at hv
      split_ifs at hv <;> simp [Task.votes] at hv
    | started id b f includesLocal => cases includesLocal <;> simp [Registrar.next, Task.votes] at hv
  | resolved _ _ after =>
    cases after with
    | done => simp [AfterResolve.next] at hv
    | reject b => exact Or.inl (by simpa [AfterResolve.next, Task.votes] using hv)
    | process id => simp [AfterResolve.next, Task.votes] at hv
  | releaseSkipped _ _ resume =>
    rw [votes_next] at hv
    exact Or.inl hv
  | releaseStarted _ _ resume _ hu =>
    rcases hu with rfl | ⟨_, rfl⟩ <;> exact Or.inl (by simpa [Task.votes] using hv)
  | abortSent _ _ _ hn =>
    rcases hn with rfl | rfl
    · exact Or.inl (by simpa [Task.votes] using hv)
    · simp at hv
  | built _ _ _ _ resume hu =>
    rcases hu with rfl | rfl | ⟨_, _, _, rfl⟩
    · exact Or.inl (by simpa [Task.votes] using hv)
    · simp [Task.votes] at hv
    · exact Or.inl (by simpa [Task.votes] using hv)
  | releaseSent _ _ resume hn =>
    rcases hn with rfl | rfl
    · rw [votes_next] at hv
      exact Or.inl hv
    · simp [Task.votes] at hv
  | recycled _ resume =>
    rw [votes_next] at hv
    exact Or.inl hv
  | voteSent b v rest => exact Or.inl (List.mem_cons_of_mem _ (by simpa [Task.votes] using hv))
  | rejected | abortSkipped | abortsReported => exact Or.inl (by simpa [Task.votes, abortVotes] using hv)
  | modeChosen _ _ hu => rcases hu with rfl | ⟨rfl, -⟩ <;> simp [Task.votes] at hv
  | enqueued _ _ hu => rcases hu with rfl | ⟨_, _, rfl⟩ <;> simp [Task.votes] at hv
  | requested _ _ _ hu => rcases hu with rfl | ⟨_, rfl⟩ <;> simp [Task.votes] at hv
  | _ => simp [Task.votes] at hv

/-- A vote that is sent was about to be. -/
theorem sentVotes_step (h : TaskEffect cfg reply sh sh' t next es) {v : Bytes × Bool}
    (hv : v ∈ sentVotes es) : v ∈ t.votes := by
  cases h with
  | voteSent b vote rest =>
    simp [sentVotes, publisherVote] at hv
    simp [Task.votes, hv]
  | resolved => simp [sentVotes, answers, publisherVote] at hv
  | noncesReset => simp [sentVotes, answers, publisherVote] at hv
  | processed => simp [sentVotes, publisherVote] at hv
  | _ => exact absurd hv List.not_mem_nil

end Step

section Openings

/-- The instance an event opens, with its raw id; a refused start has no entry. -/
def opening : Event → Option (Option InstanceId × Bytes)
  | .registered id rawId => some (some id, rawId)
  | .refused rawId => some (none, rawId)
  | _ => none

def openings (log : List Event) : List (Option InstanceId × Bytes) := log.filterMap opening

theorem openings_append (log es : List Event) : openings (log ++ es) = openings log ++ openings es :=
  List.filterMap_append

/-- The raw ids that have been registered or refused. -/
def openedRaws (log : List Event) : List Bytes := (openings log).map Prod.snd

theorem openedRaws_append (log es : List Event) :
    openedRaws (log ++ es) = openedRaws log ++ openedRaws es := by
  simp only [openedRaws, openings_append, List.map_append]

/-- When no raw id is opened twice, it belongs to one instance. -/
theorem opening_unique {log : List Event} (h : (openedRaws log).Nodup) {i j : InstanceId}
    {rawId : Bytes} (hi : (some i, rawId) ∈ openings log) (hj : (some j, rawId) ∈ openings log) :
    i = j := by
  have he := List.inj_on_of_nodup_map h hi hj rfl
  simpa using he

variable (cfg : Config)

/-- The raw id of the instance that a call announces. -/
def announced (st : CoordinatorState) : Task → Option Bytes
  | .submitStandalone _ =>
    some (InstanceId.asBytes (InstanceId.standalone cfg.chainId (st.originSeq + 1)))
  | .request (.forwardedXt id _ _ _) => some (InstanceId.asBytes id)
  | .request (.startInstance msg) => some msg.instanceId
  | _ => none

/-- The call announces an instance that is pending, and is turned away for it. -/
def announcesPending (st : CoordinatorState) : Task → Bool
  | .request (.forwardedXt id _ _ _) => id ∈ st.pending
  | .request (.startInstance msg) =>
    match cfg.tryInstance msg with
    | .ok inst => InstanceId.fromPublisherBytes inst.id ∈ st.pending
    | .error _ => false
  | _ => false

variable {cfg} {reply : TaskReply} {sh sh' : Shared} {t : Task} {next : List Task}
  {es : List Event}

/-- Whoever opens an instance announced it, and it was not pending. -/
theorem openings_step (hid : ∀ msg inst, cfg.tryInstance msg = .ok inst → inst.id = msg.instanceId)
    (h : TaskEffect cfg reply sh sh' t next es) :
    openings es = [] ∨ ∃ o, openings es = [o] ∧ announced cfg sh.st t = some o.2 ∧
      announcesPending cfg sh.st t = false := by
  cases h with
  | registered hreg =>
    refine Or.inr ⟨_, rfl, ?_⟩
    cases hreg with
    | submitted txs => exact ⟨rfl, rfl⟩
    | forwarded id txs originChain originSeq buffered hn =>
      exact ⟨rfl, by simpa [announcesPending] using hn⟩
    | started msg inst fingerprint buffered htry hn =>
      refine ⟨congrArg some (hid msg inst htry).symm, ?_⟩
      simpa [announcesPending, htry] using hn
  | refused msg fingerprint err hnew =>
    refine Or.inr ⟨_, rfl, rfl, ?_⟩
    simp only [announcesPending]
    split
    · next inst htry => simpa using hnew inst htry
    · rfl
  | resolved => simp [openings, answers, opening]
  | noncesReset => simp [openings, answers, opening]
  | processed => simp [openings, opening]
  | _ => exact Or.inl rfl

end Openings

section Invariant

variable (cfg : Config)

/-- The call that comes in, or the vote that is recorded, does not turn against a vote given
before: a new period finds no stale undecided instance that was voted to commit, and no commit
vote is recorded while connected for an instance already aborted. -/
def KeepsVotes (st : CoordinatorState) : Task → Prop
  | .request (.startPeriod periodId) => ∀ xt ∈ Map.values st.pending,
      isStale periodId xt = true → xt.decision = none → xt.localVote ≠ some true
  | .recordVote id vote standalone => vote = true → standalone = false →
      ∀ xt ∈ st.pending.lookup id, xt.localVote = none → xt.decision ≠ some false
  | _ => True

/-- A move that keeps votes: an instance that was opened before is announced only while it is
pending, no id is registered a second time, and no vote is turned against. -/
def VotesKept (w : World) : Move → Prop
  | .run t reply =>
    (∀ rawId ∈ announced cfg w.shared.st t, rawId ∈ openedRaws w.log →
        announcesPending cfg w.shared.st t = true) ∧
      (∀ op ∈ taskOp cfg reply t, ∀ r ∈ op.registers cfg w.shared.st,
        r.1 ∉ registeredIds w.log) ∧
      KeepsVotes w.shared.st t
  | _ => True

instance (st : CoordinatorState) : DecidablePred (KeepsVotes st)
  | .request (.startPeriod _) => inferInstanceAs (Decidable (∀ xt ∈ _, _ → _ → _))
  | .recordVote _ _ _ => inferInstanceAs (Decidable (_ → _ → ∀ xt ∈ _, _ → _))
  | .request (.submitXt _ _) | .request (.forwardedXt _ _ _ _) | .request (.startInstance _)
  | .request (.peerVote _ _ _) | .request (.decision _ _) | .request .rollback
  | .request (.confirmIncluded _) | .request (.cleanup _) | .request (.mailboxMessage _)
  | .submitStandalone _ | .submitPublisher _ _ | .sendRequest _ _ _ | .awaitInstance _
  | .submit _ _ | .submitting _ | .removePending _ _ | .registered _ | .forwardXt _ _
  | .forwarding _ _ _ | .resolve _ _ _ | .reject _ | .process _ _ | .sendVote _ _
  | .command _ _ | .buildPutInbox _ _ _ _ _ | .release _ _ _ | .recycle _ _ | .reportAborted _
  | .publisherVotes _ | .peerVotes _ _ | .resetNonces _ | .confirmNonces _ | .notifyWaiters =>
    inferInstanceAs (Decidable True)

instance (w : World) : DecidablePred (VotesKept cfg w)
  | .run _ _ => inferInstanceAs (Decidable (_ ∧ _ ∧ _))
  | .arrive _ | .connection _ | .notify => inferInstanceAs (Decidable True)

/-- What is known of every instance and of the votes given for it. -/
structure VoteInv (w : World) : Prop where
  lineage : LineageInv w
  ownedKnown : ∀ id ∈ w.held Task.owned, id ∈ registeredIds w.log
  entries : ∀ id xt, w.shared.st.pending.lookup id = some xt →
    (some id, xt.instanceId) ∈ openings w.log
  openedOnce : (openedRaws w.log).Nodup
  started : ∀ id rawId fingerprint includesLocal,
    .started id rawId fingerprint includesLocal ∈ w.held Task.registrars →
    (some id, rawId) ∈ openings w.log ∧ (rawId, true) ∉ w.votes
  known : ∀ rawId vote, (rawId, vote) ∈ w.votes → rawId ∈ openedRaws w.log
  commits : ∀ rawId, (rawId, true) ∈ w.votes → ∀ id xt,
    w.shared.st.pending.lookup id = some xt → xt.instanceId = rawId → xt.localVote = some true
  aborts : ∀ rawId, (rawId, false) ∈ w.votes → ∀ id xt,
    w.shared.st.pending.lookup id = some xt → xt.instanceId = rawId →
    xt.localVote = some false ∨ xt.decision = some false ∨ id ∈ w.held Task.removing
  exclusive : ∀ rawId, ¬((rawId, true) ∈ w.votes ∧ (rawId, false) ∈ w.votes)

theorem voteInv_initial : VoteInv World.initial where
  lineage := lineageInv_initial
  ownedKnown := by simp [World.initial, held]
  entries := by simp [World.initial]
  openedOnce := by simp [World.initial, openedRaws, openings]
  started := by simp [World.initial, held]
  known := by simp [World.initial, World.votes, held, sentVotes]
  commits := by simp [World.initial]
  aborts := by simp [World.initial]
  exclusive := by simp [World.initial, World.votes, held, sentVotes]

theorem voteInv_quiet {w w' : World} (h : QuietMove w w') (hi : VoteInv w) : VoteInv w' := by
  have hvotes : w'.votes = w.votes := by
    rw [World.votes, World.votes, h.held_eq lasting_votes, h.log_eq]
  constructor
  · exact lineageInv_quiet h hi.lineage
  · rw [h.held_eq lasting_owned, h.log_eq]
    exact hi.ownedKnown
  · rw [h.st_eq, h.log_eq]
    exact hi.entries
  · rw [h.log_eq]
    exact hi.openedOnce
  · rw [h.held_eq lasting_registrars, h.log_eq, hvotes]
    exact hi.started
  · rw [hvotes, h.log_eq]
    exact hi.known
  · rw [hvotes, h.st_eq]
    exact hi.commits
  · rw [hvotes, h.st_eq, h.held_eq lasting_removing]
    exact hi.aborts
  · rw [hvotes]
    exact hi.exclusive

variable {cfg} {w : World} {t : Task} {reply : TaskReply} {before after next : List Task}
  {sh' : Shared} {es : List Event}

/-- A vote after a step was there before or is new. -/
theorem votes_after (htasks : w.tasks = before ++ t :: after)
    (h : taskStep cfg reply w.shared t = some (sh', next, es)) {rawId : Bytes} {vote : Bool}
    (hv : (rawId, vote) ∈ World.votes ⟨sh', before ++ next ++ after, w.log ++ es⟩) :
    (rawId, vote) ∈ w.votes ∨ NewVote w.shared.st t next es rawId vote := by
  have heffect := taskStep_effect h
  rcases dealt_of_split htasks (fun v hv => sentVotes_step heffect hv) hv with hold | hnext
  · exact Or.inl hold
  · rcases votes_step heffect hnext with ht | hnew
    · have hheld : (rawId, vote) ∈ w.held Task.votes := mem_held.mpr ⟨t, mem_of_split htasks, ht⟩
      exact Or.inl (List.mem_append_left _ hheld)
    · exact Or.inr hnew

/-- A commit vote comes from `send_vote` only. -/
theorem NewVote.commit {st : CoordinatorState} {rawId : Bytes}
    (h : NewVote st t next es rawId true) : ∃ id xt, t = .recordVote id true false ∧
      st.pending.lookup id = some xt ∧ xt.localVote = none ∧ xt.instanceId = rawId := by
  cases h with
  | recorded ht hl hv => exact ⟨_, _, ht, hl, hv, rfl⟩

theorem opened_of_entry (hi : VoteInv w) {id : InstanceId} {xt : PendingXt}
    (hl : w.shared.st.pending.lookup id = some xt) : xt.instanceId ∈ openedRaws w.log :=
  List.mem_map_of_mem (hi.entries id xt hl)

theorem registrar_held (htasks : w.tasks = before ++ t :: after) {registrar : Registrar}
    (ht : t = .submitting registrar) : registrar ∈ w.held Task.registrars :=
  mem_held.mpr ⟨t, mem_of_split htasks, by simp [ht, Task.registrars]⟩

/-- No two pending instances have one raw id. -/
theorem entry_unique (hi : VoteInv w) {i j : InstanceId} {x y : PendingXt}
    (hx : w.shared.st.pending.lookup i = some x) (hy : w.shared.st.pending.lookup j = some y)
    (h : x.instanceId = y.instanceId) : i = j := by
  have hentry := hi.entries i x hx
  rw [h] at hentry
  exact opening_unique hi.openedOnce hentry (hi.entries j y hy)

section Fresh

variable (hid : ∀ msg inst, cfg.tryInstance msg = .ok inst → inst.id = msg.instanceId)
  (h : taskStep cfg reply w.shared t = some (sh', next, es)) (hg : VotesKept cfg w (.run t reply))

include hid h hg in
/-- What a step opens was not open before. -/
theorem opened_fresh {rawId : Bytes} (hr : rawId ∈ openedRaws es) : rawId ∉ openedRaws w.log := by
  intro hold
  rcases openings_step hid (taskStep_effect h) with he | ⟨o, he, hann, hpend⟩
  · simp [openedRaws, he] at hr
  · simp only [openedRaws, he, List.map_cons, List.map_nil, List.mem_singleton] at hr
    rw [hr] at hold
    simp [hg.1 o.2 hann hold] at hpend

include hid h hg in
theorem openedOnce_step (hi : VoteInv w) : (openedRaws (w.log ++ es)).Nodup := by
  rw [openedRaws_append]
  refine List.Nodup.append hi.openedOnce ?_ ?_
  · rcases openings_step hid (taskStep_effect h) with he | ⟨o, he, -⟩ <;> simp [openedRaws, he]
  · intro rawId hold hnew
    exact opened_fresh hid h hg hnew hold

include hid h hg in
/-- An entry under a raw id that was open before the step is an old one. -/
theorem entry_of_opened {id : InstanceId} {xt' : PendingXt}
    (hl : sh'.st.pending.lookup id = some xt') (ho : xt'.instanceId ∈ openedRaws w.log) :
    ∃ xt, w.shared.st.pending.lookup id = some xt ∧ SameXt xt xt' ∧
      ∀ op route, taskOp cfg reply t = some op → op.registers cfg w.shared.st ≠ some (id, route) := by
  rcases entry_step h hl with hold | hnew
  · exact hold
  · refine absurd ho (opened_fresh hid h hg ?_)
    simp [hnew.events, openedRaws, openings, opening]

include h in
theorem entries_step (hi : VoteInv w) (id : InstanceId) (xt' : PendingXt)
    (hl : sh'.st.pending.lookup id = some xt') :
    (some id, xt'.instanceId) ∈ openings (w.log ++ es) := by
  rw [openings_append, List.mem_append]
  rcases entry_step h hl with ⟨xt, hx, hsame, -⟩ | hnew
  · rw [hsame.instanceId_eq]
    exact Or.inl (hi.entries id xt hx)
  · right
    simp [hnew.events, openings, opening]

end Fresh

theorem started_step (hid : ∀ msg inst, cfg.tryInstance msg = .ok inst → inst.id = msg.instanceId)
    (htasks : w.tasks = before ++ t :: after)
    (h : taskStep cfg reply w.shared t = some (sh', next, es))
    (hg : VotesKept cfg w (.run t reply)) (hi : VoteInv w) (id : InstanceId) (rawId : Bytes)
    (fingerprint : String) (includesLocal : Bool)
    (hr : .started id rawId fingerprint includesLocal ∈
      (before ++ next ++ after).flatMap Task.registrars) :
    (some id, rawId) ∈ openings (w.log ++ es) ∧
      (rawId, true) ∉ World.votes ⟨sh', before ++ next ++ after, w.log ++ es⟩ := by
  rw [openings_append, List.mem_append]
  by_cases hreg : ∃ op route, taskOp cfg reply t = some op ∧
      op.registers cfg w.shared.st = some (id, route)
  · obtain ⟨op, route, hop, ho⟩ := hreg
    have hunknown : id ∉ registeredIds w.log := hg.2.1 op hop (id, route) ho
    obtain ⟨xt, -, hnew⟩ := newEntry_of_registers h hop ho
    obtain ⟨registrar, hregisters, rfl⟩ := hnew.registrar
    have hraw : xt.instanceId = rawId := by
      rcases held_split hr with hnext | hrest
      · rw [registrars_submitFirst, List.mem_singleton] at hnext
        cases hregisters with
        | submitted => simp at hnext
        | forwarded => simp at hnext
        | started msg inst _ _ htry =>
          rw [(Registrar.started.inj hnext).2.1]
          exact hid msg inst htry
      · exact absurd (hi.ownedKnown id (held_rest htasks (owned_of_registrar hrest))) hunknown
    have hopen : rawId ∉ openedRaws w.log := by
      refine opened_fresh hid h hg ?_
      simp [hnew.events, openedRaws, openings, opening, hraw]
    refine ⟨Or.inr (by simp [hnew.events, openings, opening, hraw]), fun hv => hopen ?_⟩
    rcases votes_after htasks h hv with hold | hvote
    · exact hi.known rawId true hold
    · obtain ⟨i, x, -, hl, -, rfl⟩ := hvote.commit
      exact opened_of_entry hi hl
  · have hno : ∀ op route, taskOp cfg reply t = some op →
        op.registers cfg w.shared.st ≠ some (id, route) :=
      fun op route hop ho => hreg ⟨op, route, hop, ho⟩
    obtain ⟨hbefore, hnot⟩ := registrar_before htasks h hi.lineage hr hno
    obtain ⟨hopen, huncommitted⟩ := hi.started id rawId fingerprint includesLocal hbefore
    refine ⟨Or.inl hopen, ?_⟩
    intro hv
    rcases votes_after htasks h hv with hold | hvote
    · exact huncommitted hold
    · obtain ⟨i, x, ht, hl, -, hx⟩ := hvote.commit
      have hentry := hi.entries i x hl
      rw [hx] at hentry
      rw [opening_unique hi.openedOnce hentry hopen] at ht
      exact hnot true false ht

theorem known_step (htasks : w.tasks = before ++ t :: after)
    (h : taskStep cfg reply w.shared t = some (sh', next, es)) (hi : VoteInv w) (rawId : Bytes)
    (vote : Bool) (hv : (rawId, vote) ∈ World.votes ⟨sh', before ++ next ++ after, w.log ++ es⟩) :
    rawId ∈ openedRaws (w.log ++ es) := by
  rw [openedRaws_append, List.mem_append]
  rcases votes_after htasks h hv with hold | hnew
  · exact Or.inl (hi.known rawId vote hold)
  · cases hnew with
    | recorded _ hl _ => exact Or.inl (opened_of_entry hi hl)
    | outdated _ hl _ _ => exact Or.inl (opened_of_entry hi hl)
    | refused _ hes =>
      right
      simp [hes, openedRaws, openings, opening]
    | declined ht hn =>
      exact Or.inl (List.mem_map_of_mem (hi.started _ _ _ _ (registrar_held htasks ht)).1)

theorem commits_step (hid : ∀ msg inst, cfg.tryInstance msg = .ok inst → inst.id = msg.instanceId)
    (htasks : w.tasks = before ++ t :: after)
    (h : taskStep cfg reply w.shared t = some (sh', next, es))
    (hg : VotesKept cfg w (.run t reply)) (hi : VoteInv w) (rawId : Bytes)
    (hv : (rawId, true) ∈ World.votes ⟨sh', before ++ next ++ after, w.log ++ es⟩)
    (id : InstanceId) (xt' : PendingXt) (hl' : sh'.st.pending.lookup id = some xt')
    (hraw : xt'.instanceId = rawId) : xt'.localVote = some true := by
  rcases votes_after htasks h hv with hold | hnew
  · have hopen := hi.known rawId true hold
    rw [← hraw] at hopen
    obtain ⟨xt, hl, hsame, -⟩ := entry_of_opened hid h hg hl' hopen
    exact hsame.localVote_stays true (hi.commits rawId hold id xt hl
      (hsame.instanceId_eq.symm.trans hraw))
  · obtain ⟨i, x, rfl, hx, hnone, rfl⟩ := hnew.commit
    have hopen := opened_of_entry hi hx
    rw [← hraw] at hopen
    obtain ⟨xt, hl, hsame, -⟩ := entry_of_opened hid h hg hl' hopen
    obtain rfl := entry_unique hi hl hx (hsame.instanceId_eq.symm.trans hraw)
    exact recorded_localVote h hx hnone hl'

/-- An instance that is being taken back still is after the step, or is gone. -/
theorem removing_step (htasks : w.tasks = before ++ t :: after)
    (h : taskStep cfg reply w.shared t = some (sh', next, es)) {id : InstanceId} {xt' : PendingXt}
    (hr : id ∈ w.held Task.removing) (hl' : sh'.st.pending.lookup id = some xt') :
    id ∈ (before ++ next ++ after).flatMap Task.removing := by
  rcases held_kept next htasks hr with ht | hkept
  · cases t with
    | removePending registrar err =>
      obtain rfl := List.mem_singleton.mp ht
      rw [taskStep_state cfg reply w.shared h] at hl'
      simp only [taskOp, stateAfterOp, Option.elim_some, Op.apply, removePendingXt] at hl'
      cases hl : w.shared.st.pending.lookup registrar.id with
      | none => simp [hl] at hl'
      | some xt => simp [hl] at hl'
    | _ => simp [Task.removing] at ht
  · exact hkept

theorem outdated_decision {periodId : PeriodId} {id : InstanceId} {xt xt' : PendingXt}
    (h : taskStep cfg reply w.shared (.request (.startPeriod periodId)) = some (sh', next, es))
    (hl : w.shared.st.pending.lookup id = some xt) (hs : isStale periodId xt = true)
    (hl' : sh'.st.pending.lookup id = some xt') : xt'.decision = some false := by
  rw [taskStep_state cfg reply w.shared h] at hl'
  simp only [taskOp, requestOp, stateAfterOp, Option.elim_some, Op.apply, openPeriod,
    Map.lookup_mapVals, hl, Option.map_some, hs, if_true, Option.some.injEq] at hl'
  rw [← hl']
  exact abortUndecided_decision (isStale_decision hs)

theorem aborts_vote_step
    (hid : ∀ msg inst, cfg.tryInstance msg = .ok inst → inst.id = msg.instanceId)
    (htasks : w.tasks = before ++ t :: after)
    (h : taskStep cfg reply w.shared t = some (sh', next, es))
    (hg : VotesKept cfg w (.run t reply)) (hi : VoteInv w) (rawId : Bytes)
    (hv : (rawId, false) ∈ World.votes ⟨sh', before ++ next ++ after, w.log ++ es⟩)
    (id : InstanceId) (xt' : PendingXt) (hl' : sh'.st.pending.lookup id = some xt')
    (hraw : xt'.instanceId = rawId) :
    xt'.localVote = some false ∨ xt'.decision = some false ∨
      id ∈ (before ++ next ++ after).flatMap Task.removing := by
  -- an entry under a raw id that was open before is an old one
  have hentry : rawId ∈ openedRaws w.log → ∃ xt, w.shared.st.pending.lookup id = some xt ∧
      SameXt xt xt' ∧ xt.instanceId = rawId ∧ ∀ op route, taskOp cfg reply t = some op →
        op.registers cfg w.shared.st ≠ some (id, route) := by
    intro hopen
    rw [← hraw] at hopen
    obtain ⟨xt, hl, hsame, hno⟩ := entry_of_opened hid h hg hl' hopen
    exact ⟨xt, hl, hsame, hsame.instanceId_eq.symm.trans hraw, hno⟩
  rcases votes_after htasks h hv with hold | hnew
  · obtain ⟨xt, hl, hsame, hx, hno⟩ := hentry (hi.known rawId false hold)
    rcases hi.aborts rawId hold id xt hl hx with hvote | hd | hr
    · exact Or.inl (hsame.localVote_stays false hvote)
    · have hbefore : ∀ x, w.shared.st.pending.lookup id = some x → x.decision = some false := by
        intro x hxl
        obtain rfl := Option.some.inj (hl.symm.trans hxl)
        exact hd
      exact Or.inr (Or.inl (aborted_taskStep h hno hbefore hl'))
    · exact Or.inr (Or.inr (removing_step htasks h hr hl'))
  · cases hnew with
    | @recorded i vote x ht hx hn =>
      subst ht
      obtain ⟨xt, hl, -, hxt, -⟩ := hentry (opened_of_entry hi hx)
      obtain rfl := entry_unique hi hl hx hxt
      exact Or.inl (recorded_localVote h hx hn hl')
    | @outdated periodId i x ht hx hs hd =>
      subst ht
      obtain ⟨xt, hl, -, hxt, -⟩ := hentry (opened_of_entry hi hx)
      obtain rfl := entry_unique hi hl hx hxt
      exact Or.inr (Or.inl (outdated_decision h hx hs hl'))
    | @refused msg ht hes =>
      -- a refused start has no entry, neither an old nor a new one
      rcases entry_step h hl' with ⟨xt, hl, hsame, -⟩ | hentry
      · have hnew : msg.instanceId ∈ openedRaws es := by
          simp [hes, openedRaws, openings, opening]
        refine absurd ?_ (opened_fresh hid h hg hnew)
        rw [← hraw, hsame.instanceId_eq]
        exact opened_of_entry hi hl
      · have hevents := hentry.events
        simp [hes] at hevents
    | declined ht hn =>
      have hopen := (hi.started _ _ _ _ (registrar_held htasks ht)).1
      obtain ⟨xt, hl, -, hxt, -⟩ := hentry (List.mem_map_of_mem hopen)
      have hold := hi.entries id xt hl
      rw [hxt] at hold
      obtain rfl := opening_unique hi.openedOnce hold hopen
      refine Or.inr (Or.inr (held_next before after ?_))
      simp [hn, Task.removing, Registrar.id]

theorem exclusive_step
    (hid : ∀ msg inst, cfg.tryInstance msg = .ok inst → inst.id = msg.instanceId)
    (htasks : w.tasks = before ++ t :: after)
    (h : taskStep cfg reply w.shared t = some (sh', next, es))
    (hg : VotesKept cfg w (.run t reply)) (hi : VoteInv w) (rawId : Bytes)
    (hc : (rawId, true) ∈ World.votes ⟨sh', before ++ next ++ after, w.log ++ es⟩)
    (ha : (rawId, false) ∈ World.votes ⟨sh', before ++ next ++ after, w.log ++ es⟩) : False := by
  rcases votes_after htasks h hc with hc | hc <;> rcases votes_after htasks h ha with ha | ha
  · exact hi.exclusive rawId ⟨hc, ha⟩
  · -- an abort vote against an old commit vote
    cases ha with
    | recorded ht hl hv => simp [hi.commits _ hc _ _ hl rfl] at hv
    | @outdated periodId i x ht hl hs hd =>
      subst ht
      exact hg.2.2 x ((Map.mem_values _ _).mpr ⟨i, hl⟩) hs hd (hi.commits _ hc _ _ hl rfl)
    | refused ht hes =>
      refine opened_fresh hid h hg ?_ (hi.known _ true hc)
      simp [hes, openedRaws, openings, opening]
    | declined ht hn => exact (hi.started _ _ _ _ (registrar_held htasks ht)).2 hc
  · -- a commit vote against an old abort vote
    obtain ⟨i, x, rfl, hl, hn, rfl⟩ := hc.commit
    rcases hi.aborts _ ha i x hl rfl with hv | hd | hr
    · simp [hn] at hv
    · exact hg.2.2 rfl rfl x hl hn hd
    · rcases held_kept [] htasks hr with ht | hrest
      · simp [Task.removing] at ht
      · rw [List.append_nil] at hrest
        exact held_once htasks hi.lineage.owners (removing_owned hrest) (by simp [Task.owned])
  · obtain ⟨i, x, rfl, -⟩ := hc.commit
    cases ha <;> simp_all

theorem voteInv_run (hid : ∀ msg inst, cfg.tryInstance msg = .ok inst → inst.id = msg.instanceId)
    (htasks : w.tasks = before ++ t :: after)
    (h : taskStep cfg reply w.shared t = some (sh', next, es))
    (hg : VotesKept cfg w (.run t reply)) (hi : VoteInv w) :
    VoteInv ⟨sh', before ++ next ++ after, w.log ++ es⟩ where
  lineage := by
    have hnew : RegistersUnowned cfg w t reply := by
      intro op id route hop hr ho
      exact hg.2.1 op hop (id, route) hr (hi.ownedKnown id ho)
    exact lineageInv_run htasks h hnew hi.lineage
  ownedKnown := ownedKnown_step htasks h hi.ownedKnown
  entries := entries_step h hi
  openedOnce := openedOnce_step hid h hg hi
  started := started_step hid htasks h hg hi
  known := known_step htasks h hi
  commits := commits_step hid htasks h hg hi
  aborts := aborts_vote_step hid htasks h hg hi
  exclusive := fun rawId hv => exclusive_step hid htasks h hg hi rawId hv.1 hv.2

theorem voteInv_step (hid : ∀ msg inst, cfg.tryInstance msg = .ok inst → inst.id = msg.instanceId)
    {m : Move} {w' : World} (h : WorldStep cfg w m w') (hg : VotesKept cfg w m) (hi : VoteInv w) :
    VoteInv w' := by
  rcases worldStep_cases h with hq | ⟨t, reply, before, after, next, sh', es, rfl, htasks, hs, rfl⟩
  · exact voteInv_quiet hq hi
  · exact voteInv_run hid htasks hs hg hi

/-- No vote equivocation: in every run whose moves keep votes, the publisher never gets both a
commit and an abort vote for one instance. -/
theorem votes_never_equivocate (cfg : Config)
    (hid : ∀ msg inst, cfg.tryInstance msg = .ok inst → inst.id = msg.instanceId)
    {moves : List Move} {w : World}
    (hrun : Run (fun w m w' => WorldStep cfg w m w' ∧ VotesKept cfg w m) World.initial moves w) :
    NoEquivocation w.log := by
  have hi : VoteInv w := hrun.invariant (I := VoteInv)
    (fun _ _ _ hi h => voteInv_step hid h.1 h.2 hi) voteInv_initial
  intro rawId hv
  exact hi.exclusive rawId ⟨List.mem_append_right _ hv.1, List.mem_append_right _ hv.2⟩

/-- The instance is started in its period, and `process_xt` arrives at a commit vote. -/
def commitPicks : List Pick :=
  [.connection true, .arrive (.startPeriod 1), .run 0 {}, .run 0 {},
    .arrive (.startInstance startMessage)] ++ List.replicate 8 (.run 0 {})

/-- `send_vote` hands the commit vote to the publisher. -/
def votePicks : List Pick := List.replicate 4 (.run 0 {})

/-- The next period begins and the coordinator votes abort on what is stale. -/
def periodPicks : List Pick := .arrive (.startPeriod 2) :: List.replicate 5 (.run 1 {})

theorem votes_never_equivocate_commit : ∃ moves w,
    Run (fun w m w' => WorldStep publisherConfig w m w' ∧ VotesKept publisherConfig w m)
      World.initial moves w ∧
    sentVotes w.log = [(startMessage.instanceId, true)] ∧ NoEquivocation w.log := by
  have hexec : (execAll (pickStep publisherConfig) (fun w m => decide (VotesKept publisherConfig w m))
      (commitPicks ++ votePicks) World.initial).map (fun w => sentVotes w.log) =
        some [(startMessage.instanceId, true)] := by
    decide
  have hid : ∀ msg inst, publisherConfig.tryInstance msg = .ok inst →
      inst.id = msg.instanceId := by
    intro msg inst h
    simp only [publisherConfig, Config.bare] at h
    split at h
    · simp at h
    · split_ifs at h
      rw [← Except.ok.inj h]
  obtain ⟨w, hw, hsent⟩ := Option.map_eq_some_iff.mp hexec
  obtain ⟨moves, hrun⟩ := run_execAll worldStep_of_pick hw
  exact ⟨moves, w, hrun, hsent, votes_never_equivocate publisherConfig hid hrun⟩

/-- A new period after the commit vote, and one before it while the simulation runs on. -/
theorem period_change_equivocates :
    (∃ moves w, Run (WorldStep publisherConfig) World.initial moves w ∧
      sentVotes w.log = [(startMessage.instanceId, true), (startMessage.instanceId, false)] ∧
      ¬NoEquivocation w.log) ∧
    ∃ moves w, Run (WorldStep publisherConfig) World.initial moves w ∧
      sentVotes w.log = [(startMessage.instanceId, false), (startMessage.instanceId, true)] ∧
      ¬NoEquivocation w.log := by
  have hafter : (execAll (pickStep publisherConfig) (fun _ _ => true)
      (commitPicks ++ votePicks ++ periodPicks) World.initial).map (fun w => sentVotes w.log) =
        some [(startMessage.instanceId, true), (startMessage.instanceId, false)] := by
    decide
  have hbefore : (execAll (pickStep publisherConfig) (fun _ _ => true)
      (commitPicks ++ periodPicks ++ votePicks) World.initial).map (fun w => sentVotes w.log) =
        some [(startMessage.instanceId, false), (startMessage.instanceId, true)] := by
    decide
  obtain ⟨w, hw, hsent⟩ := Option.map_eq_some_iff.mp hafter
  obtain ⟨moves, hrun⟩ := run_execAll_free worldStep_of_pick hw
  obtain ⟨w', hw', hsent'⟩ := Option.map_eq_some_iff.mp hbefore
  obtain ⟨moves', hrun'⟩ := run_execAll_free worldStep_of_pick hw'
  have hbad : ¬NoEquivocation w.log := by
    intro h
    exact h startMessage.instanceId ⟨by simp [hsent], by simp [hsent]⟩
  have hbad' : ¬NoEquivocation w'.log := by
    intro h
    exact h startMessage.instanceId ⟨by simp [hsent'], by simp [hsent']⟩
  exact ⟨⟨moves, w, hrun, hsent, hbad⟩, moves', w', hrun', hsent', hbad'⟩

end Invariant

end Sidecar.Coordinator
