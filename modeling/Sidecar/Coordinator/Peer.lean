import Sidecar.Coordinator.Standalone

namespace Sidecar.Coordinator

open TaskSystem

section Txs

/-- The chain has transactions in the map. -/
def hasTxs (txs : RawTxs) (c : ChainId) : Bool := !((txs.lookup c).getD []).isEmpty

/-- A submission that spans chains has transactions for this one; others are turned away. -/
def submitsFor (txs : RawTxs) (c : ChainId) : Bool := decide (txs.keys.length < 2) || hasTxs txs c

/-- Only submissions that span chains are registered. -/
theorem hasTxs_of_registered {cfg : Config} {st : CoordinatorState} {txs : RawTxs}
    {r : InstanceId × Route} {c : ChainId} (h : (Op.submitXt txs).registers cfg st = some r)
    (hc : submitsFor txs c = true) : hasTxs txs c = true := by
  by_cases hlen : txs.keys.length < 2
  · have hnone : (Op.submitXt txs).registers cfg st = none := by
      simp only [Op.registers, submitXt, hlen, if_true]
      split_ifs <;> rfl
    simp [hnone] at h
  · simpa [submitsFor, hlen] using hc

/-- Dropping the empty entries changes no chain's transactions. -/
theorem txs_cleanTxs (txs : RawTxs) (c : ChainId) :
    ((cleanTxs txs).lookup c).getD [] = (txs.lookup c).getD [] := by
  rw [cleanTxs, Map.lookup_retain]
  cases txs.lookup c with
  | none => rfl
  | some l => cases l <;> simp [Option.filter]

theorem hasTxs_of_mem_cleanTxs {txs : RawTxs} {c : ChainId} (h : c ∈ cleanTxs txs) :
    hasTxs txs c = true := by
  obtain ⟨l, hl⟩ := Option.isSome_iff_exists.mp (AList.lookup_isSome.mpr h)
  have hkeep := hl
  rw [cleanTxs, Map.lookup_retain] at hkeep
  obtain ⟨-, hne⟩ := Option.filter_eq_some_iff.mp hkeep
  rw [hasTxs, ← txs_cleanTxs, hl]
  exact hne

theorem mem_rawTxs_of_runsOn {xt : PendingXt} {c : ChainId} (h : xt.runsOn c = true) :
    c ∈ xt.rawTxs := by
  rw [← AList.lookup_isSome]
  cases hl : xt.rawTxs.lookup c with
  | none => simp [PendingXt.runsOn, PendingXt.txsOf, hl] at h
  | some l => rfl

theorem runsOn_of_rawTxs {xt xt' : PendingXt} (h : xt'.rawTxs = xt.rawTxs) (c : ChainId) :
    xt'.runsOn c = xt.runsOn c := by
  simp only [PendingXt.runsOn, PendingXt.txsOf, h]

end Txs

section Hands

def Registrar.voter : Registrar → List InstanceId
  | .submitted id _ => [id]
  | .forwarded id hasLocal => if hasLocal then [id] else []
  | .started id _ _ includesLocal => if includesLocal then [id] else []

/-- The instance that a task is going to vote on. -/
def Task.voters : Task → List InstanceId
  | .submit _ registrar => registrar.voter
  | .submitting registrar => registrar.voter
  | .registered registrar => registrar.voter
  | .resolve _ _ (.process id) => [id]
  | .process id _ => [id]
  | .sendVote id _ => [id]
  | .recordVote id _ _ => [id]
  | _ => []

/-- The submission that a task is sending to the peers. -/
def Task.forwards : Task → List (InstanceId × RawTxs)
  | .forwardXt id txs => [(id, txs)]
  | .forwarding id txs _ => [(id, txs)]
  | _ => []

def forwardEvent : Event → Option (InstanceId × RawTxs)
  | .forwardXt id txs _ => some (id, txs)
  | _ => none

def Resume.ballots : Resume → List (InstanceId × Bool)
  | .handVote id _ vote standalone => if standalone then [(id, vote)] else []
  | _ => []

/-- The vote that a task is going to send to the peers. -/
def Task.ballots : Task → List (InstanceId × Bool)
  | .command _ resume => resume.ballots
  | .buildPutInbox _ _ _ _ resume => resume.ballots
  | .release _ _ resume => resume.ballots
  | .recycle _ resume => resume.elim [] Resume.ballots
  | .peerVotes id vote => [(id, vote)]
  | _ => []

def ballotEvent : Event → Option (InstanceId × Bool)
  | .peerVote id vote => some (id, vote)
  | _ => none

/-- The submissions that have been or are being sent to the peers. -/
def World.forwards (w : World) : List (InstanceId × RawTxs) := w.dealt Task.forwards forwardEvent

/-- The votes for the peers, sent or about to be. -/
def World.ballots (w : World) : List (InstanceId × Bool) := w.dealt Task.ballots ballotEvent

theorem lasting_voters : Lasting Task.voters := ⟨fun t => by cases t <;> rfl, fun _ => rfl, rfl⟩

theorem lasting_forwards : Lasting Task.forwards :=
  ⟨fun t => by cases t <;> rfl, fun _ => rfl, rfl⟩

theorem lasting_ballots : Lasting Task.ballots := ⟨fun t => by cases t <;> rfl, fun _ => rfl, rfl⟩

theorem voters_carries (t : Task) (h : t.carries = false) : t.voters = [] := by
  cases t with
  | resolve fingerprint result after => cases after <;> simp_all [Task.carries, Task.voters]
  | _ => first | rfl | simp [Task.carries] at h

theorem forwards_carries (t : Task) (h : t.carries = false) : t.forwards = [] := by
  cases t <;> first | rfl | simp [Task.carries] at h

theorem owned_of_voter {t : Task} {id : InstanceId} (h : id ∈ t.voters) : id ∈ t.owned := by
  have hr : ∀ registrar : Registrar, id ∈ registrar.voter → id = registrar.id := by
    intro registrar hv
    cases registrar <;> simp_all [Registrar.voter, Registrar.id]
  cases t with
  | submit _ registrar => simpa [Task.owned] using hr registrar h
  | submitting registrar => simpa [Task.owned] using hr registrar h
  | registered registrar => simpa [Task.owned] using hr registrar h
  | resolve fingerprint result after => cases after <;> simp_all [Task.voters, Task.owned]
  | _ => simp_all [Task.voters, Task.owned]

theorem registrar_of_removing {t : Task} {id : InstanceId} (h : id ∈ t.removing) :
    ∃ registrar ∈ t.registrars, registrar.id = id := by
  cases t with
  | removePending registrar err =>
    exact ⟨registrar, List.mem_singleton.mpr rfl, (List.mem_singleton.mp h).symm⟩
  | _ => simp [Task.removing] at h

variable {cfg : Config} {reply : TaskReply} {sh sh' : Shared} {t : Task} {next : List Task}
  {es : List Event}

theorem voters_submitFirst (submission : Option XtBuilderSubmission) (registrar : Registrar) :
    [submitFirst submission registrar].flatMap Task.voters = registrar.voter :=
  flatMap_submitFirst (fun _ => rfl) rfl

theorem voters_step (h : TaskEffect cfg reply sh sh' t next es) {id : InstanceId}
    (hv : id ∈ next.flatMap Task.voters) : id ∈ t.voters ∨ RegistersOne cfg reply sh sh' t next := by
  rcases handsOn_or_drops h with hand | hdrop
  · cases hand with
    | registered hreg hop hr hl => exact Or.inr ⟨_, _, _, _, hreg, hop, hr, hl, rfl⟩
    | proceeded registrar =>
      left
      cases registrar with
      | submitted i txs =>
        simp only [Registrar.next] at hv
        split_ifs at hv <;> simpa [Task.voters, Registrar.voter] using hv
      | forwarded i hasLocal =>
        cases hasLocal with
        | false => simp [Registrar.next] at hv
        | true => simpa [Registrar.next, Task.voters, Registrar.voter] using hv
      | started i rawId fingerprint includesLocal =>
        cases includesLocal with
        | false => simp [Registrar.next, Task.voters] at hv
        | true => simpa [Registrar.next, Task.voters, Registrar.voter] using hv
    | modeChosen | forwardStarted | declined => simp [Task.voters] at hv
    | submitted | notSubmitted | accepted | resolved | processed | processVoted | modeRead =>
      exact Or.inl (by simpa [Task.voters] using hv)
  · simp [flatMap_of_drops voters_carries hdrop] at hv

/-- A submission starts on its way to the peers when its handler goes on from the builder. -/
theorem forwards_step (h : TaskEffect cfg reply sh sh' t next es) {id : InstanceId} {txs : RawTxs}
    (hf : (id, txs) ∈ next.flatMap Task.forwards) :
    (id, txs) ∈ t.forwards ∨ t = .registered (.submitted id txs) := by
  rcases handsOn_or_drops h with hand | hdrop
  · cases hand with
    | registered =>
      rw [flatMap_submitFirst (fun _ => rfl) rfl] at hf
      exact absurd hf List.not_mem_nil
    | proceeded registrar =>
      obtain ⟨u, hu, hmem⟩ := List.mem_flatMap.mp hf
      rcases mem_registrarNext hu with rfl | ⟨i, txs', rfl, rfl⟩ | ⟨_, _, rfl⟩
      · exact absurd hmem List.not_mem_nil
      · obtain ⟨rfl, rfl⟩ := Prod.mk.inj (List.mem_singleton.mp hmem)
        exact Or.inr rfl
      · exact absurd hmem List.not_mem_nil
    | forwardStarted => exact Or.inl (by simpa [Task.forwards] using hf)
    | _ => simp [Task.forwards] at hf
  · simp [flatMap_of_drops forwards_carries hdrop] at hf

theorem forwardEvents_step (h : TaskEffect cfg reply sh sh' t next es) {f : InstanceId × RawTxs}
    (hf : f ∈ es.filterMap forwardEvent) : f ∈ t.forwards := by
  cases h with
  | forwarded id txs originSeq => simpa [forwardEvent, Task.forwards] using hf
  | resolved | noncesReset => simp [answers, forwardEvent] at hf
  | processed => simp [forwardEvent] at hf
  | _ => exact absurd hf List.not_mem_nil

theorem ballots_next (resume : Resume) {b : InstanceId × Bool}
    (h : b ∈ (resume.next cfg).flatMap Task.ballots) : b ∈ resume.ballots := by
  cases resume with
  | done => simp [Resume.next] at h
  | handVote id rawId vote standalone =>
    cases standalone with
    | false => simp [Resume.next, Task.ballots] at h
    | true =>
      simp only [Resume.next, if_true] at h
      split_ifs at h
      · simpa [Task.ballots, Resume.ballots] using h
      · simp at h
  | nextAbort ids aborted => cases ids <;> simp [Resume.next, Task.ballots, Resume.ballots] at h
  | nextRollback ids waiters => cases ids <;> simp [Resume.next, Task.ballots, Resume.ballots] at h

theorem ballots_commandOr (command : Option XtBuilderCommand) (resume : Resume)
    {b : InstanceId × Bool} (h : b ∈ (commandOr cfg command resume).flatMap Task.ballots) :
    b ∈ resume.ballots := by
  cases command with
  | none => exact ballots_next resume h
  | some c => simpa [commandOr, Task.ballots] using h

/-- A vote for the peers comes from `send_vote`. -/
theorem ballots_step (h : TaskEffect cfg reply sh sh' t next es) {id : InstanceId} {vote : Bool}
    (hb : (id, vote) ∈ next.flatMap Task.ballots) :
    (id, vote) ∈ t.ballots ∨ ∃ xt, t = .recordVote id vote true ∧
      sh.st.pending.lookup id = some xt ∧ xt.localVote = none := by
  cases h with
  | registered =>
    rw [flatMap_submitFirst (fun _ => rfl) rfl] at hb
    exact absurd hb List.not_mem_nil
  | decided => simpa [Resume.ballots] using ballots_commandOr _ _ hb
  | voteRecorded i v standalone hl hn =>
    have hm := ballots_commandOr _ _ hb
    cases standalone with
    | false => simp [Resume.ballots] at hm
    | true =>
      simp only [Resume.ballots, if_true, List.mem_singleton, Prod.mk.injEq] at hm
      obtain ⟨rfl, rfl⟩ := hm
      exact Or.inr ⟨_, rfl, hl, hn⟩
  | periodOpened | rolledBack => simpa [Resume.ballots] using ballots_next _ hb
  | proceeded =>
    simp [flatMap_registrarNext (f := Task.ballots) cfg (fun _ _ => rfl) (fun _ _ => rfl)
      (fun _ _ _ => rfl)] at hb
  | removed registrar => cases registrar <;> simp [Registrar.undone, Task.ballots] at hb
  | resolved _ _ after => cases after <;> simp [AfterResolve.next, Task.ballots] at hb
  | releaseSkipped _ _ resume => exact Or.inl (ballots_next resume hb)
  | recycled _ resume => exact Or.inl (ballots_next resume hb)
  | releaseStarted _ _ resume _ hu =>
    rcases hu with rfl | ⟨_, rfl⟩ <;> exact Or.inl (by simpa [Task.ballots] using hb)
  | abortSkipped => exact Or.inl (by simpa [Task.ballots] using hb)
  | abortSent _ _ _ hn =>
    rcases hn with rfl | rfl
    · exact Or.inl (by simpa [Task.ballots] using hb)
    · simp at hb
  | built _ _ _ _ resume hu =>
    rcases hu with rfl | rfl | ⟨_, _, _, rfl⟩
    · exact Or.inl (by simpa [Task.ballots] using hb)
    · simp [Task.ballots] at hb
    · exact Or.inl (by simpa [Task.ballots] using hb)
  | releaseSent _ _ resume hn =>
    rcases hn with rfl | rfl
    · exact Or.inl (ballots_next resume hb)
    · simp [Task.ballots] at hb
  | modeChosen _ _ hu => rcases hu with rfl | ⟨rfl, -⟩ <;> simp [Task.ballots] at hb
  | enqueued _ _ hu => rcases hu with rfl | ⟨_, _, rfl⟩ <;> simp [Task.ballots] at hb
  | requested _ _ _ hu => rcases hu with rfl | ⟨_, rfl⟩ <;> simp [Task.ballots] at hb
  | _ => simp [Task.ballots] at hb

theorem ballotEvents_step (h : TaskEffect cfg reply sh sh' t next es) {b : InstanceId × Bool}
    (hb : b ∈ es.filterMap ballotEvent) : b ∈ t.ballots := by
  cases h with
  | peerVoteSent id vote => simpa [ballotEvent, Task.ballots] using hb
  | resolved | noncesReset => simp [answers, ballotEvent] at hb
  | processed => simp [ballotEvent] at hb
  | _ => exact absurd hb List.not_mem_nil

/-- Nothing of an instance is handed on when it is taken back. -/
theorem removing_drops (h : TaskEffect cfg reply sh sh' t next es) {id : InstanceId}
    (hr : id ∈ t.removing) : ∀ u ∈ next, u.carries = false := by
  rcases handsOn_or_drops h with hand | hdrop
  · cases hand with
    | registered hreg => cases hreg <;> simp [Task.removing] at hr
    | _ => simp [Task.removing] at hr
  · exact hdrop

end Hands

section Invariant

/-- What comes in is as it was sent: a caller submits transactions for the coordinator's own
chain, and calls of peers are in the logs of those peers. -/
def Backed (n : ChainId) (logs : ChainId → List Event) : Task → Prop
  | .request (.submitXt txs _) => submitsFor txs n = true
  | .request (.forwardedXt id txs originChain originSeq) =>
    originChain ≠ n ∧ .forwardXt id txs originSeq ∈ logs originChain
  | .request (.peerVote id chainId vote) => chainId ≠ n ∧ .peerVote id vote ∈ logs chainId
  | .submitStandalone txs => submitsFor txs n = true
  | _ => True

/-- The coordinator of chain `n` has given the identifier itself. -/
def Own (n : ChainId) (st : CoordinatorState) (id : InstanceId) : Prop :=
  ∃ k ≤ st.originSeq, id = InstanceId.standalone n k

/-- A pending instance is an own submission or was forwarded by a peer, with the transactions
that the peer sent. -/
def Origin (n : ChainId) (logs : ChainId → List Event) (st : CoordinatorState) (id : InstanceId)
    (xt : PendingXt) : Prop :=
  Own n st id ∨ ∃ o txs originSeq, o ≠ n ∧ .forwardXt id txs originSeq ∈ logs o ∧
    ∀ c, xt.txsOf c = (txs.lookup c).getD []

/-- What holds in the coordinator of chain `n`, given what the others have shown. -/
structure PeerInv (n : ChainId) (logs : ChainId → List Event) (w : World) : Prop where
  tasks : ∀ t ∈ w.tasks, t.standalone = true ∧ Backed n logs t
  lineage : LineageInv w
  ownedPending : ∀ id ∈ w.held Task.owned, ∃ xt, w.shared.st.pending.lookup id = some xt
  origins : ∀ id xt, w.shared.st.pending.lookup id = some xt → Origin n logs w.shared.st id xt
  submitters : ∀ id txs, .submitted id txs ∈ w.held Task.registrars → Own n w.shared.st id ∧
    ∃ xt, w.shared.st.pending.lookup id = some xt ∧ xt.rawTxs = txs
  forwards : ∀ id txs, (id, txs) ∈ w.forwards → Own n w.shared.st id ∧
    ∃ xt, w.shared.st.pending.lookup id = some xt ∧ xt.rawTxs = txs
  unforwarded : ∀ registrar ∈ w.held Task.registrars, ∀ txs, (registrar.id, txs) ∉ w.forwards
  voters : ∀ id ∈ w.held Task.voters, ∀ xt, w.shared.st.pending.lookup id = some xt →
    xt.runsOn n = true
  localVotes : ∀ id xt, w.shared.st.pending.lookup id = some xt → xt.localVote ≠ none →
    xt.runsOn n = true
  ballots : ∀ id vote, (id, vote) ∈ w.ballots →
    ∃ xt, w.shared.st.pending.lookup id = some xt ∧ xt.localVote = some vote
  peerVotes : ∀ id xt, w.shared.st.pending.lookup id = some xt → ∀ c vote,
    xt.peerVotes.lookup c = some vote → c ≠ n ∧ .peerVote id vote ∈ logs c
  tallied : ∀ id xt, w.shared.st.pending.lookup id = some xt → Tallied n xt
  grounded : ∀ id xt, w.shared.st.pending.lookup id = some xt → Grounded n xt

variable {n : ChainId} {logs logs' : ChainId → List Event}

theorem peerInv_initial : PeerInv n logs World.initial where
  tasks := by simp [World.initial]
  lineage := lineageInv_initial
  ownedPending := by simp [World.initial, held]
  origins := by simp [World.initial]
  submitters := by simp [World.initial, held]
  forwards := by simp [World.initial, World.forwards, dealt, held]
  unforwarded := by simp [World.initial, held]
  voters := by simp [World.initial]
  localVotes := by simp [World.initial]
  ballots := by simp [World.initial, World.ballots, dealt, held]
  peerVotes := by simp [World.initial]
  tallied := by simp [World.initial]
  grounded := by simp [World.initial]

theorem backed_mono {t : Task} (hsub : ∀ k, logs k ⊆ logs' k) (h : Backed n logs t) :
    Backed n logs' t := by
  cases t with
  | request request =>
    cases request with
    | forwardedXt id txs originChain originSeq => exact ⟨h.1, hsub originChain h.2⟩
    | peerVote id chainId vote => exact ⟨h.1, hsub chainId h.2⟩
    | _ => exact h
  | _ => exact h

theorem own_mono {st st' : CoordinatorState} {id : InstanceId} (hle : st.originSeq ≤ st'.originSeq)
    (h : Own n st id) : Own n st' id := by
  obtain ⟨k, hk, he⟩ := h
  exact ⟨k, hk.trans hle, he⟩

theorem origin_mono {st : CoordinatorState} {id : InstanceId} {xt : PendingXt}
    (hsub : ∀ k, logs k ⊆ logs' k) (h : Origin n logs st id xt) : Origin n logs' st id xt := by
  rcases h with hown | ⟨o, txs, originSeq, ho, hlog, htxs⟩
  · exact Or.inl hown
  · exact Or.inr ⟨o, txs, originSeq, ho, hsub o hlog, htxs⟩

/-- The others showing more takes nothing away. -/
theorem peerInv_mono {w : World} (hsub : ∀ k, logs k ⊆ logs' k) (h : PeerInv n logs w) :
    PeerInv n logs' w :=
  { h with
    tasks := fun t ht => ⟨(h.tasks t ht).1, backed_mono hsub (h.tasks t ht).2⟩
    origins := fun id xt hl => origin_mono hsub (h.origins id xt hl)
    peerVotes := fun id xt hl c vote hv =>
      ⟨(h.peerVotes id xt hl c vote hv).1, hsub c (h.peerVotes id xt hl c vote hv).2⟩ }

theorem peerInv_quiet {w w' : World} (h : QuietMove w w')
    (ht : ∀ t ∈ w'.tasks, t.standalone = true ∧ Backed n logs t) (hi : PeerInv n logs w) :
    PeerInv n logs w' := by
  have hforwards : w'.forwards = w.forwards := h.dealt_eq lasting_forwards
  have hballots : w'.ballots = w.ballots := h.dealt_eq lasting_ballots
  constructor
  · exact ht
  · exact lineageInv_quiet h hi.lineage
  · rw [h.held_eq lasting_owned, h.st_eq]
    exact hi.ownedPending
  · rw [h.st_eq]
    exact hi.origins
  · rw [h.held_eq lasting_registrars, h.st_eq]
    exact hi.submitters
  · rw [hforwards, h.st_eq]
    exact hi.forwards
  · rw [h.held_eq lasting_registrars, hforwards]
    exact hi.unforwarded
  · rw [h.held_eq lasting_voters, h.st_eq]
    exact hi.voters
  · rw [h.st_eq]
    exact hi.localVotes
  · rw [hballots, h.st_eq]
    exact hi.ballots
  · rw [h.st_eq]
    exact hi.peerVotes
  · rw [h.st_eq]
    exact hi.tallied
  · rw [h.st_eq]
    exact hi.grounded

theorem backed_registrarNext {cfg : Config} {registrar : Registrar} {u : Task}
    (hu : u ∈ registrar.next cfg) : Backed n logs u := by
  rcases mem_registrarNext hu with rfl | ⟨_, _, -, rfl⟩ | ⟨_, _, rfl⟩ <;> trivial

/-- No step makes up a call; only the choice of the mode hands one on. -/
theorem backed_step {cfg : Config} {reply : TaskReply} {sh sh' : Shared} {t u : Task}
    {next : List Task} {es : List Event} (h : TaskEffect cfg reply sh sh' t next es)
    (hb : Backed n logs t) (hu : u ∈ next) : Backed n logs u := by
  rcases handsOn_or_drops h with hand | hdrop
  · cases hand with
    | modeChosen txs waiter =>
      obtain rfl := List.mem_singleton.mp hu
      exact hb
    | registered =>
      obtain rfl := List.mem_singleton.mp hu
      unfold submitFirst
      split <;> trivial
    | proceeded => exact backed_registrarNext hu
    | _ =>
      obtain rfl := List.mem_singleton.mp hu
      trivial
  · have hcarries := hdrop u hu
    cases u <;> trivial

end Invariant

section Step

/-- A task of the coordinator of chain `n` takes a step. What the peers have forwarded carries
their own identifiers, and those that have voted take part. -/
structure PeerStep (cfg : Config) (n : ChainId) (logs : ChainId → List Event) (reply : TaskReply)
    (w : World) (t : Task) (before after next : List Task) (sh' : Shared) (es : List Event) :
    Prop where
  chainId_eq : cfg.chainId = n
  alone : cfg.publisher = false
  tasks_eq : w.tasks = before ++ t :: after
  step : taskStep cfg reply w.shared t = some (sh', next, es)
  inv : PeerInv n logs w
  foreign : ∀ o id txs originSeq, o ≠ n → .forwardXt id txs originSeq ∈ logs o →
    ∃ k, id = InstanceId.standalone o k
  takePart : ∀ id xt c vote, w.shared.st.pending.lookup id = some xt → c ≠ n →
    .peerVote id vote ∈ logs c → c ∈ xt.rawTxs

namespace PeerStep

variable {cfg : Config} {n : ChainId} {logs : ChainId → List Event} {reply : TaskReply} {w : World}
  {t : Task} {before after next : List Task} {sh' : Shared} {es : List Event}
  (hs : PeerStep cfg n logs reply w t before after next sh' es)

include hs

theorem standalone : t.standalone = true := (hs.inv.tasks t (mem_of_split hs.tasks_eq)).1

theorem backed : Backed n logs t := (hs.inv.tasks t (mem_of_split hs.tasks_eq)).2

theorem holds {β : Type} {f : Task → List β} {b : β} (h : b ∈ f t) : b ∈ w.held f :=
  mem_held.mpr ⟨t, mem_of_split hs.tasks_eq, h⟩

/-- What a step registers was not pending. -/
theorem registers_new {xt : PendingXt} {registrar : Registrar}
    (h : Registers cfg w.shared.st t xt registrar) : xt.id ∉ w.shared.st.pending := by
  cases h with
  | submitted txs =>
    intro hmem
    obtain ⟨x, hl⟩ := Option.isSome_iff_exists.mp (AList.lookup_isSome.mpr hmem)
    have hid : (standaloneXt cfg (w.shared.st.originSeq + 1) txs).id =
        InstanceId.standalone n (w.shared.st.originSeq + 1) := by
      rw [← hs.chainId_eq]
      rfl
    rw [hid] at hl
    rcases hs.inv.origins _ x hl with ⟨k, hk, he⟩ | ⟨o, txs', originSeq, ho, hlog, -⟩
    · rw [← (InstanceId.standalone_inj he).2] at hk
      exact absurd hk (Nat.not_succ_le_self _)
    · obtain ⟨k, he⟩ := hs.foreign o _ txs' originSeq ho hlog
      exact ho (InstanceId.standalone_inj he).1.symm
  | forwarded id txs originChain originSeq buffered h => exact h
  | started => simpa [Task.standalone, Request.standalone] using hs.standalone

theorem not_registered {id : InstanceId} {xt : PendingXt}
    (hl : w.shared.st.pending.lookup id = some xt) (op : Op) (route : Route)
    (hop : taskOp cfg reply t = some op) : op.registers cfg w.shared.st ≠ some (id, route) := by
  intro hr
  obtain ⟨x, -, hnew⟩ := newEntry_of_registers hs.step hop hr
  obtain ⟨registrar, hreg, -⟩ := hnew.registrar
  obtain ⟨route', hf⟩ := hnew.fresh
  have hmem : id ∈ w.shared.st.pending := AList.lookup_isSome.mp (by simp [hl])
  rw [← hf.id_eq] at hmem
  exact hs.registers_new hreg hmem

/-- An entry under an id that was pending before the step is the old one. -/
theorem entry_before {id : InstanceId} {xt xt' : PendingXt}
    (hl : w.shared.st.pending.lookup id = some xt) (hl' : sh'.st.pending.lookup id = some xt') :
    SameXt xt xt' := by
  obtain ⟨x, hx, hsame⟩ := entry_of_not_registered hs.step (hs.not_registered hl) hl'
  obtain rfl := Option.some.inj (hl.symm.trans hx)
  exact hsame

/-- An instance that is not taken back by the step stays. -/
theorem kept {id : InstanceId} {xt : PendingXt} (hl : w.shared.st.pending.lookup id = some xt)
    (hr : id ∉ t.removing) : ∃ xt', sh'.st.pending.lookup id = some xt' ∧ SameXt xt xt' := by
  obtain ⟨xt', hl'⟩ := present_taskStep hs.step hs.standalone hl hr
  exact ⟨xt', hl', hs.entry_before hl hl'⟩

theorem young_of_removing {id : InstanceId} {xt : PendingXt}
    (hl : w.shared.st.pending.lookup id = some xt) (hr : id ∈ t.removing) : xt.localVote = none := by
  obtain ⟨registrar, hreg, rfl⟩ := registrar_of_removing hr
  exact hs.inv.lineage.young registrar (hs.holds hreg) xt hl

theorem not_removing_of_rest {id : InstanceId} (h : id ∈ (before ++ after).flatMap Task.owned) :
    id ∉ t.removing := by
  intro hr
  have howned : id ∈ t.owned := by
    simpa using @removing_owned [t] id (by simpa using hr)
  exact held_once hs.tasks_eq hs.inv.lineage.owners h howned

theorem tasks_step : ∀ u ∈ before ++ next ++ after, u.standalone = true ∧ Backed n logs u := by
  intro u hu
  have heffect := taskStep_effect hs.step
  rcases mem_tasks_of_split hs.tasks_eq hu with hnext | hw
  · have halone := standalone_step heffect hs.alone hs.standalone u hnext
    exact ⟨halone, backed_step heffect hs.backed hnext⟩
  · exact hs.inv.tasks u hw

/-- Who owns an instance after the step has owned it before, or has just registered it. -/
theorem owned_after {id : InstanceId} (h : id ∈ (before ++ next ++ after).flatMap Task.owned) :
    (id ∈ w.held Task.owned ∧ id ∉ t.removing) ∨ ∃ xt, sh'.st.pending.lookup id = some xt := by
  rcases held_split h with hnext | hrest
  · have heffect := taskStep_effect hs.step
    rcases owned_step heffect with hsub | ⟨xt, registrar, op, route, hreg, -, -, hl, rfl⟩
    · have hrem : id ∉ t.removing := by
        intro hr
        simp [flatMap_of_drops owned_carries (removing_drops heffect hr)] at hnext
      exact Or.inl ⟨hs.holds (hsub.subset hnext), hrem⟩
    · rw [owned_submitFirst, List.mem_singleton, hreg.id_eq] at hnext
      exact Or.inr ⟨xt, hnext ▸ hl⟩
  · exact Or.inl ⟨held_rest hs.tasks_eq hrest, hs.not_removing_of_rest hrest⟩

theorem ownedPending_step (id : InstanceId)
    (h : id ∈ (before ++ next ++ after).flatMap Task.owned) :
    ∃ xt, sh'.st.pending.lookup id = some xt := by
  rcases hs.owned_after h with ⟨hold, hrem⟩ | hnew
  · obtain ⟨xt, hl⟩ := hs.inv.ownedPending id hold
    obtain ⟨xt', hl', -⟩ := hs.kept hl hrem
    exact ⟨xt', hl'⟩
  · exact hnew

theorem lineage_step : LineageInv ⟨sh', before ++ next ++ after, w.log ++ es⟩ := by
  have hnew : RegistersUnowned cfg w t reply := by
    intro op id route hop hr ho
    obtain ⟨xt, hl⟩ := hs.inv.ownedPending id ho
    exact hs.not_registered hl op route hop hr
  exact lineageInv_run hs.tasks_eq hs.step hnew hs.inv.lineage

/-- The submission that a step registers gets the next number. -/
theorem own_registered {txs : RawTxs} (ht : t = .submitStandalone txs) {xt : PendingXt}
    (hl : sh'.st.pending.lookup (standaloneXt cfg (w.shared.st.originSeq + 1) txs).id = some xt) :
    Own n sh'.st (standaloneXt cfg (w.shared.st.originSeq + 1) txs).id := by
  subst ht
  have hnew : w.shared.st.pending.lookup (standaloneXt cfg (w.shared.st.originSeq + 1) txs).id =
      none := AList.lookup_eq_none.mpr (hs.registers_new (.submitted txs))
  have hle := originSeq_submitted hs.step hnew hl
  exact ⟨w.shared.st.originSeq + 1, hle, by rw [← hs.chainId_eq]; rfl⟩

theorem origins_step (id : InstanceId) (xt' : PendingXt)
    (hl' : sh'.st.pending.lookup id = some xt') : Origin n logs sh'.st id xt' := by
  rcases entry_step hs.step hl' with ⟨xt, hl, hsame, -⟩ | hnew
  · rcases hs.inv.origins id xt hl with hown | ⟨o, txs, originSeq, ho, hlog, htxs⟩
    · exact Or.inl (own_mono (originSeq_taskStep hs.step) hown)
    · have htxs' : ∀ c, xt'.txsOf c = (txs.lookup c).getD [] := by
        intro c
        rw [PendingXt.txsOf, hsame.rawTxs_eq]
        exact htxs c
      exact Or.inr ⟨o, txs, originSeq, ho, hlog, htxs'⟩
  · obtain ⟨registrar, hreg, -⟩ := hnew.registrar
    obtain ⟨route, hf⟩ := hnew.fresh
    rw [← hf.id_eq] at hl' ⊢
    cases hreg with
    | submitted txs => exact Or.inl (hs.own_registered rfl hl')
    | forwarded i txs originChain originSeq buffered _ =>
      exact Or.inr ⟨originChain, txs, originSeq, hs.backed.1, hs.backed.2, txs_cleanTxs txs⟩
    | started => simpa [Task.standalone, Request.standalone] using hs.standalone

/-- A handler that is with the builder after the step has been so before, and its instance is
not taken back, or it has just registered. -/
theorem registrar_after {registrar : Registrar}
    (h : registrar ∈ (before ++ next ++ after).flatMap Task.registrars) :
    (registrar ∈ w.held Task.registrars ∧ registrar.id ∉ t.removing) ∨
      ∃ xt, Registers cfg w.shared.st t xt registrar ∧
        sh'.st.pending.lookup registrar.id = some xt := by
  rcases held_split h with hnext | hrest
  · have heffect := taskStep_effect hs.step
    rcases registrars_step heffect hnext with ht | ⟨xt, r, op, route, hreg, -, -, hl, rfl⟩
    · have hrem : registrar.id ∉ t.removing := by
        intro hr
        simp [flatMap_of_drops registrars_carries (removing_drops heffect hr)] at hnext
      exact Or.inl ⟨hs.holds ht, hrem⟩
    · rw [registrars_submitFirst, List.mem_singleton] at hnext
      subst hnext
      exact Or.inr ⟨xt, hreg, hreg.id_eq ▸ hl⟩
  · exact Or.inl ⟨held_rest hs.tasks_eq hrest, hs.not_removing_of_rest (owned_of_registrar hrest)⟩

theorem submitters_step (id : InstanceId) (txs : RawTxs)
    (h : .submitted id txs ∈ (before ++ next ++ after).flatMap Task.registrars) :
    Own n sh'.st id ∧ ∃ xt, sh'.st.pending.lookup id = some xt ∧ xt.rawTxs = txs := by
  rcases hs.registrar_after h with ⟨hold, hrem⟩ | ⟨xt, hreg, hl⟩
  · obtain ⟨hown, xt, hl, htxs⟩ := hs.inv.submitters id txs hold
    obtain ⟨xt', hl', hsame⟩ := hs.kept hl hrem
    exact ⟨own_mono (originSeq_taskStep hs.step) hown, xt', hl', hsame.rawTxs_eq.trans htxs⟩
  · cases hreg with
    | submitted => exact ⟨hs.own_registered rfl hl, _, hl, rfl⟩

/-- What is sent to the peers after the step has been before, or its handler has just gone on
from the builder. -/
theorem forward_after {id : InstanceId} {txs : RawTxs}
    (h : (id, txs) ∈ World.forwards ⟨sh', before ++ next ++ after, w.log ++ es⟩) :
    (id, txs) ∈ w.forwards ∨ t = .registered (.submitted id txs) := by
  have heffect := taskStep_effect hs.step
  rcases dealt_of_split hs.tasks_eq (fun f hf => forwardEvents_step heffect hf) h with hold | hnext
  · exact Or.inl hold
  · rcases forwards_step heffect hnext with ht | hnew
    · exact Or.inl (List.mem_append_left _ (hs.holds ht))
    · exact Or.inr hnew

theorem forwards_kept (id : InstanceId) (txs : RawTxs)
    (h : (id, txs) ∈ World.forwards ⟨sh', before ++ next ++ after, w.log ++ es⟩) :
    Own n sh'.st id ∧ ∃ xt, sh'.st.pending.lookup id = some xt ∧ xt.rawTxs = txs := by
  have hentry : id ∉ t.removing ∧ Own n w.shared.st id ∧
      ∃ xt, w.shared.st.pending.lookup id = some xt ∧ xt.rawTxs = txs := by
    rcases hs.forward_after h with hold | ht
    · have hrem : id ∉ t.removing := by
        intro hr
        obtain ⟨registrar, hreg, rfl⟩ := registrar_of_removing hr
        exact hs.inv.unforwarded registrar (hs.holds hreg) txs hold
      exact ⟨hrem, hs.inv.forwards id txs hold⟩
    · have hreg : .submitted id txs ∈ t.registrars := by simp [ht, Task.registrars]
      exact ⟨by simp [ht, Task.removing], hs.inv.submitters id txs (hs.holds hreg)⟩
  obtain ⟨hrem, hown, xt, hl, htxs⟩ := hentry
  obtain ⟨xt', hl', hsame⟩ := hs.kept hl hrem
  exact ⟨own_mono (originSeq_taskStep hs.step) hown, xt', hl', hsame.rawTxs_eq.trans htxs⟩

theorem unforwarded_step (registrar : Registrar)
    (hr : registrar ∈ (before ++ next ++ after).flatMap Task.registrars) (txs : RawTxs) :
    (registrar.id, txs) ∉ World.forwards ⟨sh', before ++ next ++ after, w.log ++ es⟩ := by
  intro hf
  rcases hs.forward_after hf with hold | ht
  · rcases hs.registrar_after hr with ⟨hbefore, -⟩ | ⟨xt, hreg, -⟩
    · exact hs.inv.unforwarded registrar hbefore txs hold
    · obtain ⟨-, x, hl, -⟩ := hs.inv.forwards _ txs hold
      have hmem : registrar.id ∈ w.shared.st.pending := AList.lookup_isSome.mp (by simp [hl])
      rw [hreg.id_eq] at hmem
      exact hs.registers_new hreg hmem
  · -- the handler that goes on owns the instance alone
    have hstep := hs.step
    simp only [ht, taskStep, Option.some.injEq, Prod.mk.injEq] at hstep
    rcases held_split hr with hnext | hrest
    · simp [← hstep.2.1, registrars_registrarNext] at hnext
    · have howned : registrar.id ∈ t.owned := by simp [ht, Task.owned, Registrar.id]
      exact held_once hs.tasks_eq hs.inv.lineage.owners (owned_of_registrar hrest) howned

/-- A chain whose registration goes on to a vote has transactions. -/
theorem runsOn_registered {xt : PendingXt} {registrar : Registrar} {op : Op} {route : Route}
    (h : Registers cfg w.shared.st t xt registrar) (hop : taskOp cfg reply t = some op)
    (hr : op.registers cfg w.shared.st = some (xt.id, route)) {id : InstanceId}
    (hv : id ∈ registrar.voter) : xt.runsOn n = true := by
  cases h with
  | submitted txs =>
    obtain rfl := Option.some.inj hop
    exact hasTxs_of_registered hr hs.backed
  | forwarded i txs originChain originSeq buffered _ =>
    have hlocal : cfg.chainId ∈ cleanTxs txs := by
      by_contra hno
      simp [Registrar.voter, hno] at hv
    have htxs := hasTxs_of_mem_cleanTxs hlocal
    rw [hasTxs, ← txs_cleanTxs, hs.chainId_eq] at htxs
    exact htxs
  | started => simpa [Task.standalone, Request.standalone] using hs.standalone

theorem voters_kept (id : InstanceId) (h : id ∈ (before ++ next ++ after).flatMap Task.voters)
    (xt' : PendingXt) (hl' : sh'.st.pending.lookup id = some xt') : xt'.runsOn n = true := by
  have hold : id ∈ w.held Task.voters → xt'.runsOn n = true := by
    intro hv
    obtain ⟨u, hu, hvu⟩ := mem_held.mp hv
    obtain ⟨xt, hl⟩ := hs.inv.ownedPending id (mem_held.mpr ⟨u, hu, owned_of_voter hvu⟩)
    rw [runsOn_of_rawTxs (hs.entry_before hl hl').rawTxs_eq]
    exact hs.inv.voters id hv xt hl
  rcases held_of_split hs.tasks_eq h with hnext | hw
  · rcases voters_step (taskStep_effect hs.step) hnext with ht |
      ⟨xt, registrar, op, route, hreg, hop, hr, hl, rfl⟩
    · exact hold (hs.holds ht)
    · rw [voters_submitFirst] at hnext
      have hid : id = xt.id := by
        rw [← hreg.id_eq]
        cases registrar <;> simp_all [Registrar.voter, Registrar.id]
      rw [hid, hl] at hl'
      obtain rfl := Option.some.inj hl'
      exact hs.runsOn_registered hreg hop hr hnext
  · exact hold hw

theorem localVotes_step (id : InstanceId) (xt' : PendingXt)
    (hl' : sh'.st.pending.lookup id = some xt') (hv : xt'.localVote ≠ none) :
    xt'.runsOn n = true := by
  rcases entry_step hs.step hl' with ⟨xt, hl, hsame, hno⟩ | hnew
  · rw [runsOn_of_rawTxs hsame.rawTxs_eq]
    by_cases hnone : xt.localVote = none
    · rcases localVote_taskStep hs.step hl hl' hno hnone with hn | ⟨vote, standalone, ht, -⟩
      · exact absurd hn hv
      · have hvoter : id ∈ t.voters := by simp [ht, Task.voters]
        exact hs.inv.voters id (hs.holds hvoter) xt hl
    · exact hs.inv.localVotes id xt hl hnone
  · obtain ⟨route, hf⟩ := hnew.fresh
    exact absurd hf.localVote_eq hv

theorem ballots_kept (id : InstanceId) (vote : Bool)
    (h : (id, vote) ∈ World.ballots ⟨sh', before ++ next ++ after, w.log ++ es⟩) :
    ∃ xt, sh'.st.pending.lookup id = some xt ∧ xt.localVote = some vote := by
  have heffect := taskStep_effect hs.step
  have hold : (id, vote) ∈ w.ballots →
      ∃ xt, sh'.st.pending.lookup id = some xt ∧ xt.localVote = some vote := by
    intro hb
    obtain ⟨xt, hl, hv⟩ := hs.inv.ballots id vote hb
    have hrem : id ∉ t.removing := by
      intro hr
      simp [hs.young_of_removing hl hr] at hv
    obtain ⟨xt', hl', hsame⟩ := hs.kept hl hrem
    exact ⟨xt', hl', hsame.localVote_stays vote hv⟩
  rcases dealt_of_split hs.tasks_eq (fun b hb => ballotEvents_step heffect hb) h with hw | hnext
  · exact hold hw
  · rcases ballots_step heffect hnext with ht | ⟨xt, ht, hl, hn⟩
    · exact hold (List.mem_append_left _ (hs.holds ht))
    · obtain ⟨xt', hl', -⟩ := hs.kept hl (by simp [ht, Task.removing])
      have hstep := hs.step
      rw [ht] at hstep
      exact ⟨xt', hl', recorded_localVote hstep hl hn hl'⟩

theorem peerVotes_step (id : InstanceId) (xt' : PendingXt)
    (hl' : sh'.st.pending.lookup id = some xt') (c : ChainId) (vote : Bool)
    (hv : xt'.peerVotes.lookup c = some vote) : c ≠ n ∧ .peerVote id vote ∈ logs c := by
  rcases entry_step hs.step hl' with ⟨xt, hl, -, hno⟩ | hnew
  · rcases peerVotes_taskStep hs.step hl hl' hno with he | ⟨chainId, v, ht, he⟩
    · rw [he] at hv
      exact hs.inv.peerVotes id xt hl c vote hv
    · have hb := hs.backed
      rw [ht] at hb
      rw [he, Map.lookup_insert_eq] at hv
      split_ifs at hv with hc
      · obtain rfl := Option.some.inj hv
        rw [hc]
        exact hb
      · exact hs.inv.peerVotes id xt hl c vote hv
  · obtain ⟨route, hf⟩ := hnew.fresh
    simp [hf.peerVotes_eq] at hv

/-- Whoever is counted for commit takes part. -/
theorem voterTakesPart {op : Op} (hop : taskOp cfg reply t = some op) :
    VoterTakesPart cfg w.shared.st op := by
  cases op with
  | sendVote id vote standalone now =>
    cases vote with
    | false => trivial
    | true =>
      intro xt hl _ _
      have hvoter : id ∈ t.voters := by simp [taskOp_sendVote hop, Task.voters]
      have hruns := hs.inv.voters id (hs.holds hvoter) xt hl
      rw [hs.chainId_eq]
      exact mem_rawTxs_of_runsOn hruns
  | peerVote id chainId vote now =>
    cases vote with
    | false => trivial
    | true =>
      intro xt hl _ _ _
      have hb := hs.backed
      rw [taskOp_peerVote hop] at hb
      exact hs.takePart id xt chainId true hl hb.1 hb.2
  | _ => trivial

theorem tallied_kept (id : InstanceId) (xt' : PendingXt)
    (hl' : sh'.st.pending.lookup id = some xt') : Tallied n xt' := by
  have hold := hs.inv.tallied
  rw [← hs.chainId_eq] at hold ⊢
  rcases taskStep_op hs.step with ⟨-, hst⟩ | ⟨op, hop, hst⟩
  · rw [hst] at hl'
    exact hold id xt' hl'
  · rw [hst] at hl'
    exact tallied_step ⟨(op_standalone hs.standalone hop).1, rfl⟩ (hs.voterTakesPart hop) hold id
      xt' hl'

theorem grounded_kept (id : InstanceId) (xt' : PendingXt)
    (hl' : sh'.st.pending.lookup id = some xt') : Grounded n xt' := by
  have hold := hs.inv.grounded
  rw [← hs.chainId_eq] at hold ⊢
  rcases taskStep_op hs.step with ⟨-, hst⟩ | ⟨op, hop, hst⟩
  · rw [hst] at hl'
    exact hold id xt' hl'
  · rw [hst] at hl'
    exact grounded_step ⟨(op_standalone hs.standalone hop).1, rfl⟩ hold id xt' hl'

/-- One step of a task keeps what is known of the coordinator. -/
theorem peerInv : PeerInv n logs ⟨sh', before ++ next ++ after, w.log ++ es⟩ where
  tasks := hs.tasks_step
  lineage := hs.lineage_step
  ownedPending := hs.ownedPending_step
  origins := hs.origins_step
  submitters := hs.submitters_step
  forwards := hs.forwards_kept
  unforwarded := hs.unforwarded_step
  voters := hs.voters_kept
  localVotes := hs.localVotes_step
  ballots := hs.ballots_kept
  peerVotes := hs.peerVotes_step
  tallied := hs.tallied_kept
  grounded := hs.grounded_kept

end PeerStep

end Step

end Sidecar.Coordinator
