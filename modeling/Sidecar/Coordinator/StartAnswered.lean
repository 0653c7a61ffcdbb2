import Sidecar.Coordinator.Handler
import Sidecar.Coordinator.WorldRun

namespace Sidecar.Coordinator

open Handler

/-- A `StartInstance` is answered: the instance is pending or the publisher has an abort vote for
it, everyone who waits for this request has heard of it, and nobody was given an instance that
is not pending. -/
structure StartAnswered (cfg : Config) (closed : Waiter → Bool) (msg : StartInstance)
    (req : XtRequest) (before : CoordinatorState) (s : Shared × List Event) : Prop where
  answered : InstanceId.fromPublisherBytes msg.instanceId ∈ s.1.st.pending ∨
    .publisherVote msg.instanceId false ∈ s.2
  resolved : ∀ waiters waiter,
    before.pendingSubmissions.lookup (cfg.xtRequestFingerprint req) = some waiters →
    waiter ∈ waiters → closed waiter = false → ∃ result, .answered waiter result ∈ s.2
  registered : ∀ waiter id, .answered waiter (.ok id) ∈ s.2 →
    id = InstanceId.fromPublisherBytes msg.instanceId ∧ id ∈ s.1.st.pending

section Exits

variable {cfg : Config} {closed : Waiter → Bool} {msg : StartInstance} {req : XtRequest}
  {before : CoordinatorState} {s : Shared × List Event}

/-- All who wait for the request are among `waiters`. -/
def Covers (cfg : Config) (closed : Waiter → Bool) (req : XtRequest) (st : CoordinatorState)
    (waiters : List Waiter) : Prop :=
  ∀ group waiter, st.pendingSubmissions.lookup (cfg.xtRequestFingerprint req) = some group →
    waiter ∈ group → closed waiter = false → waiter ∈ waiters

/-- The exits that vote abort. -/
theorem startAnswered_rejected {first : List Event} {waiters : List Waiter} {err : String}
    (hfirst : ∀ waiter result, .answered waiter result ∉ first)
    (hcovers : Covers cfg closed req before waiters)
    (hlog : s.2 = first ++ answers waiters (.error err) ++ [.publisherVote msg.instanceId false]) :
    StartAnswered cfg closed msg req before s := by
  refine ⟨Or.inr ?_, ?_, ?_⟩
  · rw [hlog]
    exact List.mem_append_right _ (List.mem_singleton_self _)
  · intro group waiter hl hmem hopen
    refine ⟨.error err, ?_⟩
    rw [hlog]
    exact List.mem_append_left _ (List.mem_append_right _
      (mem_answers_iff.mpr ⟨hcovers group waiter hl hmem hopen, rfl⟩))
  · intro waiter id hmem
    rw [hlog] at hmem
    rcases List.mem_append.mp hmem with hmem | hvote
    · rcases List.mem_append.mp hmem with hmem | hanswer
      · exact absurd hmem (hfirst _ _)
      · simp [mem_answers_iff] at hanswer
    · simp at hvote

/-- The exit with the instance registered. -/
theorem startAnswered_registered {first : List Event} {waiters : List Waiter}
    (hfirst : ∀ waiter result, .answered waiter result ∉ first)
    (hcovers : Covers cfg closed req before waiters)
    (hpending : InstanceId.fromPublisherBytes msg.instanceId ∈ s.1.st.pending)
    (hlog : s.2 = first ++
      answers waiters (.ok (InstanceId.fromPublisherBytes msg.instanceId))) :
    StartAnswered cfg closed msg req before s := by
  refine ⟨Or.inl hpending, ?_, ?_⟩
  · intro group waiter hl hmem hopen
    refine ⟨.ok (InstanceId.fromPublisherBytes msg.instanceId), ?_⟩
    rw [hlog]
    exact List.mem_append_right _
      (mem_answers_iff.mpr ⟨hcovers group waiter hl hmem hopen, rfl⟩)
  · intro waiter id hmem
    rw [hlog] at hmem
    rcases List.mem_append.mp hmem with hmem | hanswer
    · exact absurd hmem (hfirst _ _)
    · obtain rfl := Except.ok.inj (mem_answers_iff.mp hanswer).2
      exact ⟨rfl, hpending⟩

theorem covers_take {st : CoordinatorState} (h : st.pendingSubmissions = before.pendingSubmissions) :
    Covers cfg closed req before (takeSubmission st (cfg.xtRequestFingerprint req)).2 := by
  intro group waiter hl hmem _
  simpa [takeSubmission, h, hl] using hmem

/-- The removal of a refused instance drops only waiters whose caller is gone. -/
theorem covers_take_removed {st : CoordinatorState} (id : InstanceId)
    (h : st.pendingSubmissions = before.pendingSubmissions) :
    Covers cfg closed req before
      (takeSubmission (removePendingXt closed st id) (cfg.xtRequestFingerprint req)).2 := by
  intro group waiter hl hmem hopen
  unfold removePendingXt
  cases st.pending.lookup id with
  | none => exact covers_take h group waiter hl hmem hopen
  | some xt =>
    have hkept : waiter ∈ group.filter (fun w => !closed w) :=
      List.mem_filter.mpr ⟨hmem, by simp [hopen]⟩
    simp only [takeSubmission]
    rw [getD_pruneSubmissions, h, hl]
    exact hkept

/-- From the registration on, whatever the builder answers. -/
theorem completes_submitStarted {submitted : Except CoordinatorError Unit} {sh : Shared}
    {first : List Event} (submission : Option XtBuilderSubmission) (includesLocal : Bool)
    (hup : isPublisherConnected cfg sh = true)
    (hfirst : ∀ waiter result, .answered waiter result ∉ first)
    (hsame : sh.st.pendingSubmissions = before.pendingSubmissions)
    (hpending : InstanceId.fromPublisherBytes msg.instanceId ∈ sh.st.pending) :
    Completes (submitStarted cfg submitted closed msg (cfg.xtRequestFingerprint req)
        (InstanceId.fromPublisherBytes msg.instanceId) submission includesLocal) (sh, first)
      (fun _ s => StartAnswered cfg closed msg req before s)
      (fun _ s => StartAnswered cfg closed msg req before s) := by
  simp only [submitStarted, Completes.bind_iff]
  cases submission with
  | none =>
    simp only [submitXtToBuilder, Completes.pure_iff, Completes.bind_iff,
      completes_resolvePendingSubmission]
    exact startAnswered_registered hfirst (covers_take hsame) hpending rfl
  | some submission =>
    by_cases hclient : cfg.xtBuilderClient = true
    · have hfirst' : ∀ waiter result, .answered waiter result ∉ first ++
          [.submitXt submission, .submitReturned (InstanceId.fromPublisherBytes msg.instanceId)
            submitted.isOk] := by
        intro waiter result hmem
        rcases List.mem_append.mp hmem with hmem | hmem
        · exact hfirst waiter result hmem
        · simp at hmem
      simp only [submitXtToBuilder, if_pos hclient, Completes.bind_iff, completes_emit,
        Completes.pure_iff]
      cases submitted with
      | ok u =>
        simp only [Completes.bind_iff, completes_resolvePendingSubmission, Completes.pure_iff]
        exact startAnswered_registered hfirst' (covers_take hsame) hpending rfl
      | error err =>
        have hstill : ∀ st, isPublisherConnected cfg { sh with st := st } = true := fun _ => hup
        simp only [Completes.bind_iff, completes_withState, completes_resolvePendingSubmission,
          completes_rejectStartInstance, Completes.throw_iff, hstill, if_true]
        exact startAnswered_rejected hfirst' (covers_take_removed _ hsame) rfl
    · simp only [submitXtToBuilder, if_neg hclient, Completes.pure_iff, Completes.bind_iff,
        completes_resolvePendingSubmission]
      exact startAnswered_registered hfirst (covers_take hsame) hpending rfl

/-- A full coordinator tells those who wait, but not the publisher. -/
theorem completes_start_full {submitted : Except CoordinatorError Unit} {sh : Shared}
    {inst : SpecInstance} (hreq : msg.xtRequest = some req) (htry : cfg.tryInstance msg = .ok inst)
    (hid : inst.id = msg.instanceId)
    (hnew : InstanceId.fromPublisherBytes msg.instanceId ∉ sh.st.pending)
    (hfull : maxPendingXts ≤ sh.st.undecidedCount) :
    Completes (Handler.handleStartInstance cfg submitted closed msg) (sh, []) (fun _ _ => False)
      (fun _ s => .publisherVote msg.instanceId false ∉ s.2 ∧
        ¬StartAnswered cfg closed msg req sh.st s) := by
  have hout : registerStarted cfg sh.st inst =
      (sh.st, .tooMany (.tooManyPendingInstances maxPendingXts)) := by
    simp only [registerStarted, hid, if_neg hnew, if_pos hfull]
  simp only [Handler.handleStartInstance, hreq, htry, Completes.bind_iff, completes_withState, hout,
    completes_resolvePendingSubmission, Completes.throw_iff, List.nil_append]
  have hsilent : .publisherVote msg.instanceId false ∉
      answers (takeSubmission sh.st (cfg.xtRequestFingerprint req)).2
        (.error (CoordinatorError.tooManyPendingInstances maxPendingXts).message) := by
    simp [answers]
  refine ⟨hsilent, ?_⟩
  intro h
  rcases h.answered with hpending | hvote
  · exact hnew hpending
  · exact hsilent hvote

/-- With room for the instance, every exit answers. -/
theorem completes_start_room {submitted : Except CoordinatorError Unit} {sh : Shared}
    (hreq : msg.xtRequest = some req) (hup : isPublisherConnected cfg sh = true)
    (hid : ∀ inst, cfg.tryInstance msg = .ok inst → inst.id = msg.instanceId)
    (hnew : InstanceId.fromPublisherBytes msg.instanceId ∉ sh.st.pending)
    (hroom : ∀ inst, cfg.tryInstance msg = .ok inst → sh.st.undecidedCount < maxPendingXts) :
    Completes (Handler.handleStartInstance cfg submitted closed msg) (sh, [])
      (fun _ s => StartAnswered cfg closed msg req sh.st s)
      (fun _ s => StartAnswered cfg closed msg req sh.st s) := by
  have hstill : ∀ st, isPublisherConnected cfg { sh with st := st } = true := fun _ => hup
  have hrefusal : ∀ waiter result, .answered waiter result ∉ [Event.refused msg.instanceId] := by
    simp
  cases htry : cfg.tryInstance msg with
  | error err =>
    simp only [Handler.handleStartInstance, hreq, htry, Completes.bind_iff, completes_emit,
      completes_resolvePendingSubmission, completes_rejectStartInstance, Completes.pure_iff, hstill,
      if_true, List.nil_append]
    exact startAnswered_rejected hrefusal (covers_take rfl) rfl
  | ok inst =>
    have hraw := hid inst htry
    have hspace := Nat.not_le_of_lt (hroom inst htry)
    simp only [Handler.handleStartInstance, hreq, htry, Completes.bind_iff, completes_withState]
    cases haccept : sh.st.publisherPeriod.acceptStartInstance inst.periodId inst.sequenceNumber with
    | error err =>
      have hout : registerStarted cfg sh.st inst = (sh.st, .refused err) := by
        simp only [registerStarted, hraw, if_neg hnew, if_neg hspace, haccept]
      simp only [hout, Completes.bind_iff, completes_emit, completes_resolvePendingSubmission,
        completes_rejectStartInstance, Completes.pure_iff, hstill, if_true, List.nil_append]
      exact startAnswered_rejected hrefusal (covers_take rfl) rfl
    | ok period =>
      have hout : registerStarted cfg sh.st inst =
          (insertXt { sh.st with publisherPeriod := period } (startedXt cfg inst),
            .registered (localBuilderSubmission cfg.chainId (startedXt cfg inst))
              (includesLocal cfg inst)) := by
        simp only [registerStarted, hraw, if_neg hnew, if_neg hspace, haccept]
      have hpending : InstanceId.fromPublisherBytes inst.id ∈
          (insertXt { sh.st with publisherPeriod := period } (startedXt cfg inst)).pending := by
        rw [pending_insertXt]
        exact (AList.mem_insert _).mpr (Or.inl rfl)
      simp only [hout, Completes.bind_iff, completes_emit, List.nil_append]
      rw [hraw] at hpending ⊢
      exact completes_submitStarted _ _ (hstill _) (by simp) rfl hpending

end Exits

/-- A `StartInstance` for an instance that is not pending, under a connected publisher, is
answered exactly when it is malformed or there is room for it. -/
theorem start_instance_answered_iff (cfg : Config) (submitted : Except CoordinatorError Unit)
    (closed : Waiter → Bool) (msg : StartInstance) (req : XtRequest) (sh : Shared)
    (hreq : msg.xtRequest = some req) (hup : isPublisherConnected cfg sh = true)
    (hid : ∀ inst, cfg.tryInstance msg = .ok inst → inst.id = msg.instanceId)
    (hnew : InstanceId.fromPublisherBytes msg.instanceId ∉ sh.st.pending) :
    Completes (Handler.handleStartInstance cfg submitted closed msg) (sh, [])
        (fun _ s => StartAnswered cfg closed msg req sh.st s)
        (fun _ s => StartAnswered cfg closed msg req sh.st s) ↔
      ∀ inst, cfg.tryInstance msg = .ok inst → sh.st.undecidedCount < maxPendingXts := by
  constructor
  · intro h inst htry
    by_contra hfull
    rcases (completes_start_full hreq htry (hid inst htry) hnew (Nat.le_of_not_lt hfull)).result with
      ⟨_, _, -, hf⟩ | ⟨_, s, hrun, -, hnot⟩
    · exact hf
    · exact hnot ((Completes.of_error hrun).mp h)
  · exact completes_start_room hreq hup hid hnew

section Full

/-- Peers forward instances one after another. -/
def peerForwards (n : Nat) : List Op :=
  (List.range n).map (fun k => .forwardXt (InstanceId.standalone 2 k) twoChainTxs 2 k)

variable (cfg : Config)

theorem exec_peerForwards_succ (n : Nat) : exec cfg {} (peerForwards (n + 1)) =
    (forwardXt cfg (exec cfg {} (peerForwards n)) (InstanceId.standalone 2 n) twoChainTxs 2 n).1 := by
  simp only [peerForwards, List.range_succ, List.map_append, exec, List.foldl_append]
  rfl

theorem forwardXt_room {st : CoordinatorState} {n : Nat}
    (hnew : InstanceId.standalone 2 n ∉ st.pending) (hroom : st.undecidedCount < maxPendingXts) :
    (forwardXt cfg st (InstanceId.standalone 2 n) twoChainTxs 2 n).1 =
      insertXt st (forwardedXt cfg (InstanceId.standalone 2 n) (cleanTxs twoChainTxs) 2 n) := by
  have hname : InstanceId.standalone 2 n ≠ "" := by
    intro he
    have hlength := congrArg String.length he
    simp [InstanceId.standalone] at hlength
  have htxs : ¬(cleanTxs twoChainTxs).keys.isEmpty = true := by decide
  simp only [forwardXt, registerForwarded, if_neg hname, if_neg htxs, if_neg hnew,
    if_neg (Nat.not_le_of_lt hroom)]

theorem undecidedCount_insertXt {st : CoordinatorState} {xt : PendingXt} (hnew : xt.id ∉ st.pending)
    (hd : xt.decision = none) : (insertXt st xt).undecidedCount = st.undecidedCount + 1 := by
  have hundecided : (attachBuffered xt
      ((st.mailboxBuffer.lookup xt.instanceId).getD [])).decision.isNone = true := by
    simp [attachBuffered, hd]
  simp only [CoordinatorState.undecidedCount, pending_insertXt, Map.values,
    AList.entries_insert_of_notMem hnew, List.map_cons]
  exact List.countP_cons_of_pos hundecided

/-- Every one of them is registered until the coordinator is full. -/
theorem undecidedCount_peerForwards (n : Nat) (hn : n ≤ maxPendingXts) :
    (exec cfg {} (peerForwards n)).undecidedCount = n ∧
      ∀ id ∈ (exec cfg {} (peerForwards n)).pending, ∃ k < n, id = InstanceId.standalone 2 k := by
  induction n with
  | zero =>
    refine ⟨rfl, ?_⟩
    intro id hid
    exact absurd hid (AList.notMem_empty id)
  | succ n ih =>
    obtain ⟨hcount, hids⟩ := ih (by omega)
    have hnew : InstanceId.standalone 2 n ∉ (exec cfg {} (peerForwards n)).pending := by
      intro hmem
      obtain ⟨k, hk, he⟩ := hids _ hmem
      have hkn : n = k := (InstanceId.standalone_inj he).2
      omega
    have hstep := forwardXt_room cfg hnew (by omega)
    rw [exec_peerForwards_succ, hstep]
    constructor
    · rw [undecidedCount_insertXt hnew rfl, hcount]
    · intro id hid
      rw [pending_insertXt] at hid
      rcases (AList.mem_insert _).mp hid with rfl | hold
      · exact ⟨n, by omega, rfl⟩
      · obtain ⟨k, hk, he⟩ := hids id hold
        exact ⟨k, by omega, he⟩

end Full

/-- The publisher is connected, period 1 is open, and a caller waits for the request. -/
def waitingShared (cfg : Config) : Shared :=
  { st := exec cfg {} [.startPeriod 1 0,
      .enqueue (cfg.xtRequestFingerprint (buildXtRequest twoChainTxs)) 0]
    connected := true }

def answeringConfig : Config :=
  { Config.bare 1 with
    publisher := true
    xtBuilderClient := true }

theorem answeringConfig_id (msg : StartInstance) (inst : SpecInstance)
    (h : answeringConfig.tryInstance msg = .ok inst) : inst.id = msg.instanceId := by
  simp only [answeringConfig, Config.bare] at h
  split at h
  · simp at h
  · split_ifs at h
    rw [← Except.ok.inj h]

theorem start_message_answered :
    startMessage.xtRequest = some (buildXtRequest twoChainTxs) ∧
      isPublisherConnected answeringConfig (waitingShared answeringConfig) = true ∧
      startMessageId ∉ (waitingShared answeringConfig).st.pending ∧
      Completes (Handler.handleStartInstance answeringConfig (.ok ()) (fun _ => false) startMessage)
        (waitingShared answeringConfig, [])
        (fun _ s => StartAnswered answeringConfig (fun _ => false) startMessage
          (buildXtRequest twoChainTxs) (waitingShared answeringConfig).st s)
        (fun _ s => StartAnswered answeringConfig (fun _ => false) startMessage
          (buildXtRequest twoChainTxs) (waitingShared answeringConfig).st s) := by
  have hnew : startMessageId ∉ (waitingShared answeringConfig).st.pending := AList.notMem_empty _
  refine ⟨rfl, rfl, hnew, ?_⟩
  refine (start_instance_answered_iff answeringConfig (.ok ()) (fun _ => false) startMessage
    (buildXtRequest twoChainTxs) (waitingShared answeringConfig) rfl rfl
    (answeringConfig_id startMessage) hnew).mpr ?_
  intro _ _
  decide

/-- A hundred undecided instances are pending. The publisher's next one is turned away without a
vote: nothing is registered and the publisher hears nothing. -/
theorem full_coordinator_keeps_silent :
    ∃ sh, (∃ ops, Run (Step answeringConfig) {} ops sh.st) ∧
      isPublisherConnected answeringConfig sh = true ∧ startMessageId ∉ sh.st.pending ∧
      Completes (Handler.handleStartInstance answeringConfig (.ok ()) (fun _ => false) startMessage)
        (sh, []) (fun _ _ => False)
        (fun _ s => .publisherVote startMessage.instanceId false ∉ s.2 ∧
          ¬StartAnswered answeringConfig (fun _ => false) startMessage
            (buildXtRequest twoChainTxs) sh.st s) := by
  obtain ⟨hcount, hids⟩ := undecidedCount_peerForwards answeringConfig maxPendingXts le_rfl
  have hrun := exec_run answeringConfig (peerForwards maxPendingXts) {}
  generalize exec answeringConfig {} (peerForwards maxPendingXts) = st at hcount hids hrun
  have hnew : startMessageId ∉ st.pending := by
    intro hmem
    obtain ⟨k, -, he⟩ := hids _ hmem
    exact InstanceId.standalone_ne_fromPublisherBytes 2 k startMessage.instanceId he.symm
  refine ⟨{ st := st, connected := true }, ⟨_, hrun⟩, rfl, hnew, ?_⟩
  exact @completes_start_full answeringConfig (fun _ => false) startMessage _ (.ok ())
    { st := st, connected := true }
    ⟨startMessage.instanceId, 1, 1, buildXtRequest twoChainTxs⟩ rfl rfl rfl hnew hcount.ge

end Sidecar.Coordinator
