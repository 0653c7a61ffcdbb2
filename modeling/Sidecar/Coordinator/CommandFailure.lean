import Sidecar.Coordinator.Handler
import Sidecar.Coordinator.Stability

namespace Sidecar.Coordinator

open Handler

section Outcome

/-- The signer signs all these dependencies, the first of them as its `i`-th. -/
def Signs (outside : Outside) : List CrossRollupDependency → Nat → Nat → Prop
  | [], _, _ => True
  | dep :: deps, i, nonce =>
    (outside.built i dep nonce).isOk = true ∧ Signs outside deps (i + 1) (saturatingAdd nonce 1)

/-- What the outside has to answer for a builder command to succeed. -/
def Carried (cfg : Config) (outside : Outside) (nonces : Nonce.Inner) : XtBuilderCommand → Prop
  | .abort _ => cfg.xtBuilderClient = true → outside.aborted.isOk = true
  | .release id deps => cfg.xtBuilderClient = true →
    (deps ≠ [] → cfg.putInboxBuilder = true ∧ ∃ start,
      (Nonce.reserve nonces id deps.length outside.canonical).1 = .ok start ∧
        Signs outside deps 0 start) ∧
    outside.released.isOk = true

/-- A builder command changes nothing behind the lock, and only the builder sees of it. -/
structure OnlyBuilder (sh : Shared) (log : List Event) (s : Shared × List Event) : Prop where
  st_eq : s.1.st = sh.st
  log_eq : s.2 = log ∨ (∃ id, s.2 = log ++ [.abortXt id]) ∨ ∃ id txs, s.2 = log ++ [.releaseXt id txs]

variable {cfg : Config} {outside : Outside} {id : InstanceId} {deps : List CrossRollupDependency}
  {sh : Shared} {log : List Event}

theorem completes_sign_iff (nonce : Nat) (txs : List Bytes) :
    Completes (signDependencies outside id deps nonce txs) (sh, log)
      (fun _ s => s = (sh, log) ∧ Signs outside deps txs.length nonce)
      (fun _ s => s.1.st = sh.st ∧ s.2 = log ∧ ¬Signs outside deps txs.length nonce) := by
  induction deps generalizing nonce txs with
  | nil => exact ⟨rfl, trivial⟩
  | cons dep deps ih =>
    unfold signDependencies
    cases hbuilt : outside.built txs.length dep nonce with
    | error err => simp [Signs, hbuilt]
    | ok tx =>
      have hnext := ih (saturatingAdd nonce 1) (txs ++ [tx])
      rw [List.length_append, List.length_singleton] at hnext
      refine hnext.mono ?_ ?_
      · rintro _ s ⟨hs, hsigns⟩
        exact ⟨hs, by rw [hbuilt]; rfl, hsigns⟩
      · rintro _ s ⟨hst, hlog, hfails⟩
        exact ⟨hst, hlog, fun hsigns => hfails hsigns.2⟩

/-- The transactions of a release come about exactly when the reservation and every signature
do. -/
theorem completes_build_iff :
    Completes (buildPutInboxTransactions cfg outside id deps) (sh, log)
      (fun _ s => s.1.st = sh.st ∧ s.2 = log ∧
        (deps ≠ [] → cfg.putInboxBuilder = true ∧ ∃ start,
          (Nonce.reserve sh.nonces id deps.length outside.canonical).1 = .ok start ∧
            Signs outside deps 0 start))
      (fun _ s => s.1.st = sh.st ∧ s.2 = log ∧
        ¬(deps ≠ [] → cfg.putInboxBuilder = true ∧ ∃ start,
          (Nonce.reserve sh.nonces id deps.length outside.canonical).1 = .ok start ∧
            Signs outside deps 0 start)) := by
  unfold buildPutInboxTransactions
  split_ifs with hempty hbuilder
  · exact ⟨rfl, rfl, fun hne => absurd (by simpa using hempty) hne⟩
  · refine ⟨rfl, rfl, ?_⟩
    intro h
    have hset := (h (by simpa using hempty)).1
    simp [hset] at hbuilder
  · have hne : deps ≠ [] := by simpa using hempty
    simp only [Completes.bind_iff, completes_withNonces, Completes.ofExcept_iff]
    constructor
    · intro start hstart
      refine (completes_sign_iff start []).mono ?_ ?_
      · rintro _ s ⟨rfl, hsigns⟩
        exact ⟨rfl, rfl, fun _ => ⟨by simpa using hbuilder, start, hstart, hsigns⟩⟩
      · rintro _ s ⟨hst, hlog, hfails⟩
        refine ⟨hst, hlog, ?_⟩
        intro h
        obtain ⟨-, start', hstart', hsigns⟩ := h hne
        obtain rfl := Except.ok.inj (hstart.symm.trans hstart')
        exact hfails hsigns
    · intro err herr
      refine ⟨trivial, trivial, ?_⟩
      intro h
      obtain ⟨-, start, hstart, -⟩ := h hne
      simp [herr] at hstart

/-- A release succeeds exactly when the outside carries it, and then the builder has taken it. -/
theorem completes_release (hclient : cfg.xtBuilderClient = true) :
    Completes (Handler.applyBuilderCommand cfg outside (.release id deps)) (sh, log)
      (fun _ s => s.1.st = sh.st ∧ (∃ txs, s.2 = log ++ [.releaseXt id txs]) ∧
        Carried cfg outside sh.nonces (.release id deps))
      (fun _ s => s.1.st = sh.st ∧
        (s.2 = log ∨ (∃ txs, s.2 = log ++ [.releaseXt id txs]) ∧ outside.released.isOk = false) ∧
        ¬Carried cfg outside sh.nonces (.release id deps)) := by
  simp only [Handler.applyBuilderCommand, hclient, Bool.not_true, Bool.false_eq_true, if_false,
    Completes.bind_iff, completes_emit]
  refine completes_build_iff.mono ?_ ?_
  · rintro txs s ⟨hst, hlog, hbuilt⟩
    cases hreleased : outside.released with
    | ok u =>
      refine ⟨hst, ⟨txs, by rw [hlog]⟩, fun _ => ⟨hbuilt, by rw [hreleased]; rfl⟩⟩
    | error err =>
      refine ⟨hst, Or.inr ⟨⟨txs, by rw [hlog]⟩, rfl⟩, ?_⟩
      intro hcarried
      have hok := (hcarried hclient).2
      rw [hreleased, isOk_error] at hok
      simp at hok
  · rintro _ s ⟨hst, hlog, hfails⟩
    exact ⟨hst, Or.inl hlog, fun hcarried => hfails (hcarried hclient).1⟩

/-- A builder command succeeds exactly when the outside carries it. -/
theorem completes_command (command : XtBuilderCommand) :
    Completes (Handler.applyBuilderCommand cfg outside command) (sh, log)
      (fun _ s => OnlyBuilder sh log s ∧ Carried cfg outside sh.nonces command)
      (fun _ s => OnlyBuilder sh log s ∧ ¬Carried cfg outside sh.nonces command) := by
  cases command with
  | release id deps =>
    cases hclient : cfg.xtBuilderClient with
    | false =>
      simp only [Handler.applyBuilderCommand, hclient, Bool.not_false, if_true, Completes.pure_iff]
      exact ⟨⟨rfl, Or.inl rfl⟩, fun hset => by simp [hclient] at hset⟩
    | true =>
      refine (completes_release hclient).mono ?_ ?_
      · rintro _ s ⟨hst, ⟨txs, hlog⟩, hcarried⟩
        exact ⟨⟨hst, Or.inr (Or.inr ⟨id, txs, hlog⟩)⟩, hcarried⟩
      · rintro _ s ⟨hst, hlog | ⟨⟨txs, hlog⟩, -⟩, hfails⟩
        · exact ⟨⟨hst, Or.inl hlog⟩, hfails⟩
        · exact ⟨⟨hst, Or.inr (Or.inr ⟨id, txs, hlog⟩)⟩, hfails⟩
  | abort id =>
    simp only [Handler.applyBuilderCommand, Completes.bind_iff, completes_releaseAborted]
    split_ifs with hclient
    · rw [completes_call]
      constructor
      · intro u hok
        exact ⟨⟨rfl, Or.inr (Or.inl ⟨id, rfl⟩)⟩, fun _ => by rw [hok]; rfl⟩
      · intro err herr
        refine ⟨⟨rfl, Or.inr (Or.inl ⟨id, rfl⟩)⟩, ?_⟩
        intro hcarried
        have hok := hcarried hclient
        rw [herr, isOk_error] at hok
        simp at hok
    · exact ⟨⟨rfl, Or.inl rfl⟩, fun hset => absurd hset hclient⟩

end Outcome

section Votes

/-- A local vote that was recorded also went out, to the publisher or else to the peers. -/
def VoteHanded (cfg : Config) (id : InstanceId) (vote : Bool) (sh : Shared)
    (s : Shared × List Event) : Prop :=
  ∀ xt xt', sh.st.pending.lookup id = some xt → s.1.st.pending.lookup id = some xt' →
    xt.localVote = none → xt'.localVote = some vote →
    if isPublisherConnected cfg sh then .publisherVote xt.instanceId vote ∈ s.2
    else cfg.peerCoordinator = true → .peerVote id vote ∈ s.2

variable {cfg : Config} {outside : Outside} {id : InstanceId} {vote : Bool} {now : Instant}
  {sh : Shared}

theorem recordVote_first {st : CoordinatorState} {xt : PendingXt} (standalone : Bool)
    (hl : st.pending.lookup id = some xt) (hv : xt.localVote = none) :
    recordVote cfg st id vote standalone now =
      (st.updateXt id (fun _ => (castVote cfg xt vote standalone now).1),
        some
          { instanceBytes := (castVote cfg xt vote standalone now).1.instanceId
            decision := (castVote cfg xt vote standalone now).2
            command := decidedCommand cfg (castVote cfg xt vote standalone now).1
              (castVote cfg xt vote standalone now).2 }) := by
  simp [recordVote, hl, hv]

theorem castVote_bytes (xt : PendingXt) (standalone : Bool) :
    (castVote cfg xt vote standalone now).1.instanceId = xt.instanceId :=
  congrArg XtCore.instanceId (castVote_frame cfg xt vote standalone now)

theorem castVote_vote (xt : PendingXt) (standalone : Bool) :
    (castVote cfg xt vote standalone now).1.localVote = some vote :=
  congrArg XtCore.localVote (castVote_frame cfg xt vote standalone now)

/-- What is left to show of a call that records the vote. -/
theorem voteHanded_iff {xt : PendingXt} {standalone : Bool} {s : Shared × List Event}
    (hl : sh.st.pending.lookup id = some xt) (hv : xt.localVote = none)
    (hst : s.1.st = sh.st.updateXt id (fun _ => (castVote cfg xt vote standalone now).1)) :
    VoteHanded cfg id vote sh s ↔
      if isPublisherConnected cfg sh then .publisherVote xt.instanceId vote ∈ s.2
      else cfg.peerCoordinator = true → .peerVote id vote ∈ s.2 := by
  constructor
  · intro h
    refine h xt (castVote cfg xt vote standalone now).1 hl ?_ hv (castVote_vote xt standalone)
    rw [hst, lookup_updateXt, if_pos rfl, hl]
    rfl
  · intro h x _ hx _ _ _
    obtain rfl := Option.some.inj (hl.symm.trans hx)
    exact h

theorem voteHanded_of_not_first (h : ∀ xt, sh.st.pending.lookup id = some xt → xt.localVote ≠ none)
    (s : Shared × List Event) : VoteHanded cfg id vote sh s :=
  fun xt _ hl _ hv => absurd hv (h xt hl)

/-- Under a publisher no decision is made here, and the vote goes out at once. -/
theorem sendVote_connected {xt : PendingXt} (hl : sh.st.pending.lookup id = some xt)
    (hv : xt.localVote = none) (hup : isPublisherConnected cfg sh = true) :
    Completes (Handler.sendVote cfg outside id vote now) (sh, [])
      (fun _ s => VoteHanded cfg id vote sh s) (fun _ s => VoteHanded cfg id vote sh s) := by
  have hnone : decidedCommand cfg (castVote cfg xt vote false now).1
      (castVote cfg xt vote false now).2 = none := rfl
  simp only [Handler.sendVote, Completes.bind_iff, completes_connected, completes_withState, hup,
    Bool.not_true, recordVote_first false hl hv, hnone, applyIfAny, Completes.pure_iff, handVote,
    Bool.false_eq_true, if_false, completes_emit, castVote_bytes]
  refine (voteHanded_iff hl hv rfl).mpr ?_
  rw [if_pos hup]
  exact List.mem_singleton_self _

theorem handVote_alone {xt : PendingXt} {s : Shared × List Event}
    (hl : sh.st.pending.lookup id = some xt) (hv : xt.localVote = none)
    (hdown : isPublisherConnected cfg sh = false)
    (hst : s.1.st = sh.st.updateXt id (fun _ => (castVote cfg xt vote true now).1)) (rawId : Bytes) :
    Completes (handVote cfg id rawId vote true) s
      (fun _ s => VoteHanded cfg id vote sh s) (fun _ s => VoteHanded cfg id vote sh s) := by
  have hmode : ¬isPublisherConnected cfg sh = true := by simp [hdown]
  simp only [handVote, if_true]
  split_ifs with hpeers
  · rw [completes_emit]
    refine (voteHanded_iff (s := (s.1, s.2 ++ [.peerVote id vote])) hl hv hst).mpr ?_
    rw [if_neg hmode]
    exact fun _ => List.mem_append_right _ (List.mem_singleton_self _)
  · refine (voteHanded_iff hl hv hst).mpr ?_
    rw [if_neg hmode]
    exact fun hset => absurd hset hpeers

/-- Without a publisher the vote waits for the command of the decision it made. -/
theorem sendVote_alone {xt : PendingXt} (hl : sh.st.pending.lookup id = some xt)
    (hv : xt.localVote = none) (hdown : isPublisherConnected cfg sh = false) :
    Completes (Handler.sendVote cfg outside id vote now) (sh, [])
        (fun _ s => VoteHanded cfg id vote sh s) (fun _ s => VoteHanded cfg id vote sh s) ↔
      ∀ command, cfg.peerCoordinator = true →
        decidedCommand cfg (castVote cfg xt vote true now).1 (castVote cfg xt vote true now).2 =
          some command →
        Carried cfg outside sh.nonces command := by
  simp only [Handler.sendVote, Completes.bind_iff, completes_connected, completes_withState, hdown,
    Bool.not_false, recordVote_first true hl hv]
  cases hcommand : decidedCommand cfg (castVote cfg xt vote true now).1
      (castVote cfg xt vote true now).2 with
  | none =>
    simp only [applyIfAny, Completes.pure_iff, reduceCtorEq, false_implies, implies_true, iff_true]
    exact handVote_alone hl hv hdown rfl _
  | some command =>
    simp only [applyIfAny]
    rcases (completes_command command).result with
      ⟨_, s, hrun, honly, hcarried⟩ | ⟨_, s, hrun, honly, hfails⟩
    · rw [Completes.of_ok hrun]
      refine iff_of_true (handVote_alone hl hv hdown honly.st_eq _) ?_
      intro _ _ hc
      rwa [← Option.some.inj hc]
    · -- nothing but the builder's request was shown, so the peers have no vote
      have hsilent : .peerVote id vote ∉ s.2 := by
        rcases honly.log_eq with hlog | ⟨_, hlog⟩ | ⟨_, _, hlog⟩ <;> rw [hlog] <;> simp
      rw [Completes.of_error hrun, voteHanded_iff hl hv honly.st_eq, if_neg (by simp [hdown])]
      constructor
      · intro hhanded _ hpeers
        exact absurd (hhanded hpeers) hsilent
      · intro hcarried hpeers
        exact absurd (hcarried command hpeers rfl) hfails

end Votes

/-- Whatever the builder answers, a local vote that `send_vote` records goes out exactly when the
peers are not waiting for it, or no builder command comes first, or that command succeeds. -/
theorem recorded_vote_handed_iff (cfg : Config) (outside : Outside) (id : InstanceId) (vote : Bool)
    (now : Instant) (sh : Shared) :
    Completes (Handler.sendVote cfg outside id vote now) (sh, [])
        (fun _ s => VoteHanded cfg id vote sh s) (fun _ s => VoteHanded cfg id vote sh s) ↔
      ∀ xt command, sh.st.pending.lookup id = some xt → xt.localVote = none →
        isPublisherConnected cfg sh = false → cfg.peerCoordinator = true →
        decidedCommand cfg (castVote cfg xt vote true now).1 (castVote cfg xt vote true now).2 =
          some command →
        Carried cfg outside sh.nonces command := by
  by_cases hfirst : ∃ xt, sh.st.pending.lookup id = some xt ∧ xt.localVote = none
  · obtain ⟨xt, hl, hv⟩ := hfirst
    cases hup : isPublisherConnected cfg sh with
    | true =>
      refine iff_of_true (sendVote_connected hl hv hup) ?_
      intro _ _ _ _ hdown
      simp at hdown
    | false =>
      rw [sendVote_alone hl hv hup]
      constructor
      · intro h x command hx _ _ hpeers hc
        obtain rfl := Option.some.inj (hl.symm.trans hx)
        exact h command hpeers hc
      · intro h command hpeers hc
        exact h xt command hl hv rfl hpeers hc
  · have hlater : ∀ xt, sh.st.pending.lookup id = some xt → xt.localVote ≠ none :=
      fun xt hl hv => hfirst ⟨xt, hl, hv⟩
    refine iff_of_true ?_ (fun xt _ hl hv => absurd hv (hlater xt hl))
    unfold Completes
    split <;> exact voteHanded_of_not_first hlater _

/-- Chain 1 alone with its peers; the builder is there but takes no release. -/
def peersConfig : Config :=
  { Config.bare 1 with
    peerCoordinator := true
    xtBuilderClient := true }

/-- The other chain has voted for the instance, so the local vote decides. -/
def lastVoteOpen : Shared :=
  { st := exec peersConfig {} [.submitXt twoChainTxs, .peerVote "xt-1-1" 2 true 0] }

/-- The builder refuses the release that the vote decided on: the vote stays recorded, and the
peers never get it. -/
theorem refused_release_loses_vote :
    Completes (Handler.sendVote peersConfig
        { released := .error (.builderControl "unreachable") } "xt-1-1" true 0) (lastVoteOpen, [])
      (fun _ _ => False)
      (fun _ s => s.2 = [.releaseXt "xt-1-1" []] ∧
        (s.1.st.pending.lookup "xt-1-1").map PendingXt.localVote = some (some true) ∧
        ¬VoteHanded peersConfig "xt-1-1" true lastVoteOpen s) := by
  have hrun : Completes (Handler.sendVote peersConfig
        { released := .error (.builderControl "unreachable") } "xt-1-1" true 0) (lastVoteOpen, [])
      (fun _ _ => False)
      (fun _ s => s.2 = [.releaseXt "xt-1-1" []] ∧
        (s.1.st.pending.lookup "xt-1-1").map PendingXt.localVote = some (some true)) :=
    ⟨rfl, rfl⟩
  refine hrun.mono (fun _ _ hf => hf) ?_
  rintro _ s ⟨hevents, hvote⟩
  refine ⟨hevents, hvote, ?_⟩
  intro hhanded
  obtain ⟨xt', hl', hv'⟩ := Option.map_eq_some_iff.mp hvote
  obtain ⟨xt, hl, hv⟩ : ∃ xt, lastVoteOpen.st.pending.lookup "xt-1-1" = some xt ∧
      xt.localVote = none := ⟨_, rfl, rfl⟩
  have hpeers : Event.peerVote "xt-1-1" true ∈ s.2 := hhanded xt xt' hl hl' hv hv' rfl
  rw [hevents] at hpeers
  simp at hpeers

section Redelivery

def releasedId : Event → Option InstanceId
  | .releaseXt id _ => some id
  | _ => none

/-- The instances whose release the builder took in one call. -/
def acceptedReleases (outside : Outside) (events : List Event) : List InstanceId :=
  if outside.released.isOk then events.filterMap releasedId else []

/-- What came out of one delivery of a decision. -/
structure Delivery where
  result : Except CoordinatorError Unit
  released : List InstanceId

/-- The commit decision is delivered again and again; the outside answers each call anew. -/
def deliverCommits (cfg : Config) (id : InstanceId) :
    List (Outside × Instant) → Shared → List Delivery
  | [], _ => []
  | (outside, now) :: calls, sh =>
    match (Handler.onDecision cfg outside id true now).run (sh, []) with
    | .ok u s => ⟨.ok u, acceptedReleases outside s.2⟩ :: deliverCommits cfg id calls s.1
    | .error err s => ⟨.error err, acceptedReleases outside s.2⟩ :: deliverCommits cfg id calls s.1

/-- Whenever a delivery is acknowledged, the builder has taken the release by then, from one of
the deliveries or before them. -/
def AcknowledgedReleased (id : InstanceId) (earlier : List InstanceId)
    (deliveries : List Delivery) : Prop :=
  Along (fun before d => d.result.isOk = true →
    id ∈ earlier ∨ ∃ a ∈ before ++ [d], id ∈ a.released) deliveries

variable {cfg : Config} {id : InstanceId} {earlier : List InstanceId} {sh : Shared}
  {xt : PendingXt}

/-- A decided instance is left alone, and the call succeeds. -/
theorem onDecision_again (cfg : Config) (outside : Outside) (now : Instant)
    (hl : sh.st.pending.lookup id = some xt) (hd : xt.decision ≠ none) :
    Completes (Handler.onDecision cfg outside id true now) (sh, []) (fun _ s => s = (sh, []))
      (fun _ _ => False) := by
  have hsome : xt.decision.isSome = true := Option.isSome_iff_ne_none.mpr hd
  have hrecord : recordPublisherDecision cfg sh.st id true now = (sh.st, .ok none) := by
    simp [recordPublisherDecision, hl, hsome]
  simp only [Handler.onDecision, Completes.bind_iff, completes_withState, hrecord,
    Completes.ofExcept_iff]
  refine ⟨?_, fun err herr => by simp at herr⟩
  intro command hcommand
  obtain rfl := Except.ok.inj hcommand
  rfl

/-- The first delivery decides the instance, whatever becomes of the release. -/
theorem onDecision_first (outside : Outside) (now : Instant) (hclient : cfg.xtBuilderClient = true)
    (hl : sh.st.pending.lookup id = some xt) (hlocal : xt.runsOn cfg.chainId = true)
    (hd : xt.decision = none) :
    Completes (Handler.onDecision cfg outside id true now) (sh, [])
      (fun _ s => s.1.st.pending.lookup id = some (xt.recordDecision true now) ∧
        xt.id ∈ acceptedReleases outside s.2 ∧
        Carried cfg outside sh.nonces (.release xt.id (depsForChain xt.fulfilledDeps cfg.chainId)))
      (fun _ s => s.1.st.pending.lookup id = some (xt.recordDecision true now) ∧
        acceptedReleases outside s.2 = [] ∧
        ¬Carried cfg outside sh.nonces
          (.release xt.id (depsForChain xt.fulfilledDeps cfg.chainId))) := by
  have hcommand : localBuilderCommand cfg.chainId (xt.recordDecision true now) true =
      some (.release xt.id (depsForChain xt.fulfilledDeps cfg.chainId)) := by
    have hruns : (xt.recordDecision true now).runsOn cfg.chainId = true := hlocal
    simp only [localBuilderCommand, hruns, if_true]
    rfl
  have hrecord : recordPublisherDecision cfg sh.st id true now =
      (sh.st.updateXt id (fun _ => xt.recordDecision true now),
        .ok (some (.release xt.id (depsForChain xt.fulfilledDeps cfg.chainId)))) := by
    simp [recordPublisherDecision, hl, hd, hcommand, CoordinatorState.updateXt]
  have hdecided : (sh.st.updateXt id (fun _ => xt.recordDecision true now)).pending.lookup id =
      some (xt.recordDecision true now) := by
    rw [lookup_updateXt, if_pos rfl, hl]
    rfl
  simp only [Handler.onDecision, Completes.bind_iff, completes_withState, hrecord,
    Completes.ofExcept_iff]
  refine ⟨?_, fun err herr => by simp at herr⟩
  intro command hc
  obtain rfl := Except.ok.inj hc
  refine (completes_release hclient).mono ?_ ?_
  · rintro _ s ⟨hst, ⟨txs, hlog⟩, hcarried⟩
    refine ⟨hst ▸ hdecided, ?_, hcarried⟩
    simp [acceptedReleases, (hcarried hclient).2, hlog, releasedId]
  · rintro _ s ⟨hst, hlog, hfails⟩
    refine ⟨hst ▸ hdecided, ?_, hfails⟩
    rcases hlog with hlog | ⟨⟨txs, hlog⟩, hrefused⟩
    · simp [acceptedReleases, hlog]
    · simp [acceptedReleases, hrefused]

/-- Deliveries of a decision that is recorded already are all acknowledged and release nothing. -/
theorem deliverCommits_again (hl : sh.st.pending.lookup id = some xt) (hd : xt.decision ≠ none)
    (calls : List (Outside × Instant)) :
    deliverCommits cfg id calls sh = calls.map (fun _ => ⟨.ok (), []⟩) := by
  induction calls with
  | nil => rfl
  | cons call calls ih =>
    obtain ⟨outside, now⟩ := call
    rcases (onDecision_again cfg outside now hl hd).result with ⟨_, s, hrun, rfl⟩ | ⟨_, _, -, hf⟩
    · simp [deliverCommits, hrun, ih, acceptedReleases]
    · exact hf.elim

/-- An acknowledgement after deliveries in which nothing was released. -/
theorem not_acknowledgedReleased (hnew : id ∉ earlier) (before rest : List Delivery)
    (h : ∀ d ∈ before, d.released = []) :
    ¬AcknowledgedReleased id earlier (before ++ ⟨.ok (), []⟩ :: rest) := by
  intro hall
  rcases hall before ⟨.ok (), []⟩ rest rfl rfl with hold | ⟨a, ha, hin⟩
  · exact hnew hold
  · have hnone : a.released = [] := by
      rcases List.mem_append.mp ha with hmem | hlast
      · exact h a hmem
      · rw [List.mem_singleton.mp hlast]
    rw [hnone] at hin
    exact absurd hin List.not_mem_nil

/-- What the first delivery of a commit to an undecided instance leaves to the others. -/
theorem acknowledged_undecided_iff (outside : Outside) (now : Instant)
    (calls : List (Outside × Instant)) (hclient : cfg.xtBuilderClient = true)
    (hl : sh.st.pending.lookup id = some xt) (hlocal : xt.runsOn cfg.chainId = true)
    (hd : xt.decision = none) (hnew : xt.id ∉ earlier) :
    AcknowledgedReleased xt.id earlier (deliverCommits cfg id ((outside, now) :: calls) sh) ↔
      (calls ≠ [] → Carried cfg outside sh.nonces
        (.release xt.id (depsForChain xt.fulfilledDeps cfg.chainId))) := by
  rcases (onDecision_first outside now hclient hl hlocal hd).result with
    ⟨u, s, hrun, -, hreleased, hcarried⟩ | ⟨err, s, hrun, hdecided, hnone, hfails⟩
  · refine iff_of_true ?_ (fun _ => hcarried)
    -- the first delivery is among those before any other
    intro before d after hsplit _
    simp only [deliverCommits, hrun] at hsplit
    cases before with
    | nil => exact Or.inr ⟨d, by simp, (List.cons.inj hsplit).1 ▸ hreleased⟩
    | cons first before =>
      exact Or.inr ⟨first, by simp, (List.cons.inj hsplit).1 ▸ hreleased⟩
  · have hdeliveries : deliverCommits cfg id ((outside, now) :: calls) sh =
        [⟨.error err, []⟩] ++ calls.map (fun _ => ⟨.ok (), []⟩) := by
      simp only [deliverCommits, hrun, hnone]
      rw [deliverCommits_again hdecided (by simp [PendingXt.recordDecision])]
      rfl
    rw [hdeliveries]
    cases calls with
    | nil =>
      refine iff_of_true ?_ (fun hne => absurd rfl hne)
      intro before d after hsplit hok
      cases before with
      | nil =>
        rw [← (List.cons.inj hsplit).1, isOk_error] at hok
        simp at hok
      | cons first before => simp at hsplit
    | cons second rest =>
      exact iff_of_false (not_acknowledgedReleased hnew _ _ (by simp))
        (fun h => hfails (h (by simp)))

end Redelivery

/-- However often a commit is delivered, an acknowledgement means that the builder has taken the
release exactly when it had done so before, or when nothing was decided before and the first
delivery is carried through or is the only one. -/
theorem acknowledged_commit_released_iff (cfg : Config) (id : InstanceId) (xt : PendingXt)
    (sh : Shared) (earlier : List InstanceId) (calls : List (Outside × Instant))
    (hclient : cfg.xtBuilderClient = true) (hl : sh.st.pending.lookup id = some xt)
    (hlocal : xt.runsOn cfg.chainId = true) :
    AcknowledgedReleased xt.id earlier (deliverCommits cfg id calls sh) ↔
      ∀ outside now rest, calls = (outside, now) :: rest → xt.id ∈ earlier ∨
        xt.decision = none ∧ (rest ≠ [] → Carried cfg outside sh.nonces
          (.release xt.id (depsForChain xt.fulfilledDeps cfg.chainId))) := by
  by_cases hnew : xt.id ∈ earlier
  · exact iff_of_true (fun _ _ _ _ _ => Or.inl hnew) (fun _ _ _ _ => Or.inl hnew)
  cases calls with
  | nil => exact iff_of_true (along_nil _) (fun _ _ _ he => by simp at he)
  | cons call calls =>
    obtain ⟨outside, now⟩ := call
    by_cases hnone : xt.decision = none
    · rw [acknowledged_undecided_iff outside now calls hclient hl hlocal hnone hnew]
      constructor
      · intro h _ _ _ he
        obtain ⟨hcall, rfl⟩ := List.cons.inj he
        obtain ⟨rfl, rfl⟩ := Prod.mk.inj hcall
        exact Or.inr ⟨hnone, h⟩
      · intro h
        exact ((h outside now calls rfl).resolve_left hnew).2
    · rw [deliverCommits_again hl hnone]
      exact iff_of_false (not_acknowledgedReleased hnew [] _ (by simp))
        (fun h => hnone ((h outside now calls rfl).resolve_left hnew).1)

/-- An instance of chains 1 and 2 that nobody has decided. -/
def undecidedShared : Shared := { st := exec peersConfig {} [.submitXt twoChainTxs] }

theorem acknowledged_commit_released_twice :
    AcknowledgedReleased "xt-1-1" []
      (deliverCommits peersConfig "xt-1-1" [({}, 0), ({}, 1)] undecidedShared) := by
  refine (acknowledged_commit_released_iff peersConfig "xt-1-1"
    (standaloneXt peersConfig 1 twoChainTxs) undecidedShared [] [({}, 0), ({}, 1)] rfl rfl
    rfl).mpr ?_
  intro outside now rest he
  obtain ⟨rfl, rfl⟩ := Prod.mk.inj (List.cons.inj he).1
  exact Or.inr ⟨rfl, fun _ _ => ⟨fun hdeps => absurd rfl hdeps, rfl⟩⟩

/-- The builder fails the release once. The same decision delivered again is acknowledged, and
nothing is ever released. -/
theorem failed_release_acknowledged :
    deliverCommits peersConfig "xt-1-1"
        [({ released := .error (.builderControl "unreachable") }, 0), ({}, 1)] undecidedShared =
      [⟨.error (.builderControl "unreachable"), []⟩, ⟨.ok (), []⟩] ∧
    ¬AcknowledgedReleased "xt-1-1" [] (deliverCommits peersConfig "xt-1-1"
        [({ released := .error (.builderControl "unreachable") }, 0), ({}, 1)] undecidedShared) := by
  have hdeliveries : deliverCommits peersConfig "xt-1-1"
        [({ released := .error (.builderControl "unreachable") }, 0), ({}, 1)] undecidedShared =
      [⟨.error (.builderControl "unreachable"), []⟩, ⟨.ok (), []⟩] := rfl
  refine ⟨hdeliveries, ?_⟩
  rw [hdeliveries]
  exact not_acknowledgedReleased List.not_mem_nil [⟨.error (.builderControl "unreachable"), []⟩] []
    (by simp)

end Sidecar.Coordinator
