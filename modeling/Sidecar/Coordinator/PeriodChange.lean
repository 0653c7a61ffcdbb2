import Sidecar.Coordinator.Admission
import Sidecar.Coordinator.Handler
import Sidecar.Coordinator.Stability

namespace Sidecar.Coordinator

open Handler

section Lemmas

variable {cfg : Config} {st : CoordinatorState} {periodId : PeriodId} {now : Instant}

theorem isStale_iff {xt : PendingXt} :
    isStale periodId xt = true ↔ xt.periodId ≠ 0 ∧ xt.periodId < periodId ∧
      xt.confirmedAt = none ∧ xt.decision ≠ some true := by
  simp [isStale, and_assoc]

theorem lookup_openPeriod (id : InstanceId) :
    (openPeriod cfg st periodId now).1.pending.lookup id = (st.pending.lookup id).map
      (fun xt => if isStale periodId xt then abortUndecided xt now else xt) :=
  Map.lookup_mapVals ..

theorem unchanged_of_not_stale {id : InstanceId} {xt : PendingXt}
    (hl : st.pending.lookup id = some xt) (hstale : ¬isStale periodId xt = true) :
    (openPeriod cfg st periodId now).1.pending.lookup id = some xt := by
  rw [lookup_openPeriod, hl, Option.map_some, if_neg hstale]

theorem aborted_of_stale {id : InstanceId} {xt : PendingXt}
    (hl : st.pending.lookup id = some xt) (hstale : isStale periodId xt = true) :
    ∃ xt', (openPeriod cfg st periodId now).1.pending.lookup id = some xt' ∧
      xt'.decision = some false := by
  rw [lookup_openPeriod, hl, Option.map_some, if_pos hstale]
  exact ⟨_, rfl, abortUndecided_decision (isStale_iff.mp hstale).2.2.2⟩

theorem mem_abortedInstanceIds (rawId : Bytes) :
    rawId ∈ (openPeriod cfg st periodId now).2.abortedInstanceIds ↔
      ∃ id xt, st.pending.lookup id = some xt ∧ isStale periodId xt = true ∧
        xt.decision = none ∧ xt.instanceId = rawId := by
  simp only [openPeriod, List.mem_map, List.mem_filter, Map.mem_values, Bool.and_eq_true,
    Option.isNone_iff_eq_none]
  constructor
  · rintro ⟨xt, ⟨⟨id, hl⟩, hstale, hdecision⟩, hraw⟩
    exact ⟨id, xt, hl, hstale, hdecision, hraw⟩
  · rintro ⟨id, xt, hl, hstale, hdecision, hraw⟩
    exact ⟨xt, ⟨⟨id, hl⟩, hstale, hdecision⟩, hraw⟩

/-- The instances that a period change decides are those it reports. -/
theorem turned_iff {id : InstanceId} {xt : PendingXt} (hl : st.pending.lookup id = some xt)
    (hdecision : xt.decision = none) :
    (∃ xt', (openPeriod cfg st periodId now).1.pending.lookup id = some xt' ∧
        xt'.decision = some false) ↔ isStale periodId xt = true := by
  constructor
  · rintro ⟨xt', hl', hafter⟩
    by_contra hstale
    rw [unchanged_of_not_stale hl hstale] at hl'
    rw [← Option.some.inj hl', hdecision] at hafter
    simp at hafter
  · exact aborted_of_stale hl

end Lemmas

section Reports

/-- The publisher has an abort vote for every instance that a period change decided, and the
builder was asked to drop every local one that is left behind. -/
structure PeriodReported (cfg : Config) (periodId : PeriodId) (before after : CoordinatorState)
    (events : List Event) : Prop where
  voted : ∀ id xt xt', before.pending.lookup id = some xt → after.pending.lookup id = some xt' →
    xt.decision = none → xt'.decision = some false → .publisherVote xt.instanceId false ∈ events
  asked : cfg.xtBuilderClient = true → ∀ id xt, before.pending.lookup id = some xt →
    xt.confirmedAt = none → xt.decision ≠ some true → xt.periodId ≠ 0 → xt.periodId < periodId →
    xt.runsOn cfg.chainId = true → .abortXt xt.id ∈ events

/-- When the `k`-th call to the builder fails there was nothing to do after it: no other
instance to ask for, and no instance to report. -/
structure NothingUnreported (cfg : Config) (st : CoordinatorState) (periodId : PeriodId)
    (k : Nat) : Prop where
  asked : ∀ id ∈ abortIds cfg (isStale periodId) st,
    id ∈ (abortIds cfg (isStale periodId) st).take (k + 1)
  decided : ∀ id xt, st.pending.lookup id = some xt → isStale periodId xt = true →
    xt.decision ≠ none

variable {cfg : Config} {aborts : Nat → Except CoordinatorError Unit} {sh : Shared}
  {periodId : PeriodId} {now : Instant}

/-- The vote of an instance that the period change decided is among those reported. -/
theorem mem_reported {st : CoordinatorState} {id : InstanceId} {xt xt' : PendingXt}
    (hl : st.pending.lookup id = some xt)
    (hl' : (openPeriod cfg st periodId now).1.pending.lookup id = some xt')
    (hbefore : xt.decision = none) (hafter : xt'.decision = some false) :
    xt.instanceId ∈ (openPeriod cfg st periodId now).2.abortedInstanceIds := by
  have hstale := (turned_iff hl hbefore).mp ⟨xt', hl', hafter⟩
  exact (mem_abortedInstanceIds _).mpr ⟨id, xt, hl, hstale, hbefore, rfl⟩

theorem mem_left_behind {st : CoordinatorState} {id : InstanceId} {xt : PendingXt}
    (hl : st.pending.lookup id = some xt) (hconfirmed : xt.confirmedAt = none)
    (hdecision : xt.decision ≠ some true) (hzero : xt.periodId ≠ 0) (hperiod : xt.periodId < periodId)
    (hruns : xt.runsOn cfg.chainId = true) : xt.id ∈ abortIds cfg (isStale periodId) st := by
  have hstale := isStale_iff.mpr ⟨hzero, hperiod, hconfirmed, hdecision⟩
  exact (mem_abortIds_lookup _ _ _ _).mpr ⟨id, xt, hl, hstale, hruns, rfl⟩

/-- What is missing when the `k`-th call fails. -/
theorem periodReported_stopped_iff (hclient : cfg.xtBuilderClient = true) (k : Nat) :
    PeriodReported cfg periodId sh.st (openPeriod cfg sh.st periodId now).1
        (((abortIds cfg (isStale periodId) sh.st).take (k + 1)).map .abortXt) ↔
      NothingUnreported cfg sh.st periodId k := by
  constructor
  · intro h
    constructor
    · intro id hid
      obtain ⟨key, xt, hl, hstale, hruns, rfl⟩ := (mem_abortIds_lookup _ _ _ _).mp hid
      obtain ⟨hzero, hperiod, hconfirmed, hdecision⟩ := isStale_iff.mp hstale
      obtain ⟨asked, hasked, he⟩ := List.mem_map.mp
        (h.asked hclient key xt hl hconfirmed hdecision hzero hperiod hruns)
      rwa [← Event.abortXt.inj he]
    · intro id xt hl hstale hdecision
      obtain ⟨xt', hl', hafter⟩ := (@turned_iff cfg sh.st periodId now id xt hl hdecision).mpr hstale
      obtain ⟨asked, -, he⟩ := List.mem_map.mp (h.voted id xt xt' hl hl' hdecision hafter)
      exact Event.noConfusion he
  · intro h
    constructor
    · intro id xt xt' hl hl' hdecision hafter
      exact absurd hdecision (h.decided id xt hl ((turned_iff hl hdecision).mp ⟨xt', hl', hafter⟩))
    · intro _ id xt hl hconfirmed hdecision hzero hperiod hruns
      exact List.mem_map_of_mem
        (h.asked _ (mem_left_behind hl hconfirmed hdecision hzero hperiod hruns))

/-- A period change reports everything, or it stops at the first call that fails. -/
theorem completes_handleStartPeriod (hup : isPublisherConnected cfg sh = true) :
    Completes (Handler.handleStartPeriod cfg aborts periodId now) (sh, [])
      (fun _ s => PeriodReported cfg periodId sh.st s.1.st s.2 ∧
        (cfg.xtBuilderClient = true →
          ∀ j < (abortIds cfg (isStale periodId) sh.st).length, (aborts j).isOk = true))
      (fun _ s => ∃ k < (abortIds cfg (isStale periodId) sh.st).length, FirstFailure aborts k ∧
        cfg.xtBuilderClient = true ∧
        (PeriodReported cfg periodId sh.st s.1.st s.2 ↔
          NothingUnreported cfg sh.st periodId k)) := by
  simp only [Handler.handleStartPeriod, Completes.bind_iff, completes_withState,
    completes_tellPublisher]
  refine (completes_abortEach (abortIds cfg (isStale periodId) sh.st) 0 _ []).mono ?_ ?_
  · rintro _ s ⟨rfl, hok⟩
    have hstill : isPublisherConnected cfg { sh with
        st := (openPeriod cfg sh.st periodId now).1
        nonces := (abortIds cfg (isStale periodId) sh.st).foldl Nonce.releaseAborted sh.nonces } =
        true := hup
    refine ⟨⟨?_, ?_⟩, by simpa using hok⟩
    · intro id xt xt' hl hl' hbefore hafter
      rw [if_pos hstill]
      exact List.mem_append_right _ (List.mem_map_of_mem (mem_reported hl hl' hbefore hafter))
    · intro hclient id xt hl hconfirmed hdecision hzero hperiod hruns
      refine List.mem_append_left _ ?_
      rw [if_pos hclient, List.nil_append]
      exact List.mem_map_of_mem (mem_left_behind hl hconfirmed hdecision hzero hperiod hruns)
  · rintro _ s ⟨hclient, k, hk, rfl, hfails, hbefore⟩
    refine ⟨k, hk, ⟨by simpa using hfails, by simpa using hbefore⟩, hclient, ?_⟩
    exact periodReported_stopped_iff hclient k

end Reports

/-- Whatever the builder answers, a period change under a connected publisher reports all it
aborts exactly when no call fails, or when the first that fails is the last thing to do. -/
theorem period_change_reports_iff (cfg : Config) (aborts : Nat → Except CoordinatorError Unit)
    (periodId : PeriodId) (now : Instant) (sh : Shared)
    (hup : isPublisherConnected cfg sh = true) :
    Completes (Handler.handleStartPeriod cfg aborts periodId now) (sh, [])
        (fun _ s => PeriodReported cfg periodId sh.st s.1.st s.2)
        (fun _ s => PeriodReported cfg periodId sh.st s.1.st s.2) ↔
      (cfg.xtBuilderClient = true → ∀ k < (abortIds cfg (isStale periodId) sh.st).length,
        FirstFailure aborts k → NothingUnreported cfg sh.st periodId k) :=
  completes_iff_firstFailure (completes_handleStartPeriod hup)

def reportingConfig : Config :=
  { Config.bare 1 with
    publisher := true
    xtBuilderClient := true }

/-- Two local instances of period 1 are pending and undecided. -/
def twoOutdated : Shared :=
  { st := exec reportingConfig {} [.startPeriod 1 0, .startInstance (slotInstance 1 1 1),
      .startInstance (slotInstance 2 1 2)]
    connected := true }

theorem period_change_reports_two :
    isPublisherConnected reportingConfig twoOutdated = true ∧
      Completes (Handler.handleStartPeriod reportingConfig (fun _ => .ok ()) 2 0) (twoOutdated, [])
        (fun _ s => PeriodReported reportingConfig 2 twoOutdated.st s.1.st s.2)
        (fun _ s => PeriodReported reportingConfig 2 twoOutdated.st s.1.st s.2) := by
  refine ⟨rfl, (period_change_reports_iff reportingConfig (fun _ => .ok ()) 2 0 twoOutdated
    rfl).mpr ?_⟩
  intro _ k _ hfirst
  exact absurd hfirst.1 (by simp)

/-- The builder fails the first call: it is not asked for the other instance, and the publisher
hears of neither, though both are decided now. -/
theorem failed_abort_silences_period_change :
    Completes (Handler.handleStartPeriod reportingConfig
        (fun _ => .error (.builderControl "unreachable")) 2 0) (twoOutdated, [])
      (fun _ _ => False)
      (fun _ s => s.2 = [.abortXt (InstanceId.fromPublisherBytes (List.replicate 32 2))] ∧
        (Map.values s.1.st.pending).map PendingXt.decision = [some false, some false] ∧
        ¬ PeriodReported reportingConfig 2 twoOutdated.st s.1.st s.2) := by
  have hrun : Completes (Handler.handleStartPeriod reportingConfig
        (fun _ => .error (.builderControl "unreachable")) 2 0) (twoOutdated, [])
      (fun _ _ => False)
      (fun _ s => s.2 = [.abortXt (InstanceId.fromPublisherBytes (List.replicate 32 2))] ∧
        (Map.values s.1.st.pending).map PendingXt.decision = [some false, some false]) :=
    ⟨rfl, rfl⟩
  refine hrun.mono (fun _ _ hf => hf) ?_
  rintro _ s ⟨hevents, hdecided⟩
  refine ⟨hevents, hdecided, ?_⟩
  intro hreported
  have hasked := hreported.asked rfl (InstanceId.fromPublisherBytes (List.replicate 32 1))
    (startedXt reportingConfig (slotInstance 1 1 1)) rfl rfl (by decide) (by decide) (by decide) rfl
  rw [hevents, List.mem_singleton] at hasked
  exact absurd (Event.abortXt.inj hasked) (by decide)

section Routes

/-- Which handler registered each instance, kept beside the state. -/
def recordRoute (cfg : Config) (st : CoordinatorState) (op : Op) (routes : Map InstanceId Route) :
    Map InstanceId Route :=
  match op.registers cfg st with
  | some (id, route) => routes.insert id route
  | none => routes

/-- The publisher started the instance in an earlier period, and it is neither confirmed nor
committed. -/
def LeftBehind (routes : Map InstanceId Route) (periodId : PeriodId) (id : InstanceId)
    (xt : PendingXt) : Prop :=
  routes.lookup id = some .started ∧ xt.periodId < periodId ∧ xt.confirmedAt = none ∧
    xt.decision ≠ some true

/-- What the locked part of a period change is for. -/
structure PeriodOpened (routes : Map InstanceId Route) (periodId : PeriodId)
    (before after : CoordinatorState) : Prop where
  stale : ∀ id xt, before.pending.lookup id = some xt → LeftBehind routes periodId id xt →
    ∃ xt', after.pending.lookup id = some xt' ∧ xt'.decision = some false
  others : ∀ id xt, before.pending.lookup id = some xt → ¬LeftBehind routes periodId id xt →
    after.pending.lookup id = some xt
  nothingNew : ∀ id, before.pending.lookup id = none → after.pending.lookup id = none
  admits : ∀ p seq, (after.publisherPeriod.acceptStartInstance p seq).isOk = true ↔ p = periodId
  overlay : after.chainOverlay = ∅

/-- Every pending instance has its route, and only the publisher gives a period. -/
def RoutesInv (s : CoordinatorState × Map InstanceId Route) : Prop :=
  ∀ id xt, s.1.pending.lookup id = some xt →
    ∃ route, s.2.lookup id = some route ∧ (route ≠ .started → xt.periodId = 0)

variable {cfg : Config} {st : CoordinatorState} {routes : Map InstanceId Route}

theorem period_of_route {op : Op} {id : InstanceId} {route : Route} {xt : PendingXt}
    (hr : op.registers cfg st = some (id, route)) (hreg : RegisteredAs cfg st op xt)
    (hroute : route ≠ .started) : xt.periodId = 0 := by
  cases hreg with
  | submitted txs => rfl
  | forwarded id txs originChain originSeq hnew => rfl
  | started inst hnew =>
    obtain ⟨-, hstarted, -⟩ := registers_startInstance cfg st hr
    exact absurd hstarted hroute

theorem lookup_recordRoute_of_ne {op : Op} {id : InstanceId}
    (hno : ∀ route, op.registers cfg st ≠ some (id, route)) :
    (recordRoute cfg st op routes).lookup id = routes.lookup id := by
  unfold recordRoute
  cases hr : op.registers cfg st with
  | none => rfl
  | some r =>
    obtain ⟨other, route⟩ := r
    have hne : id ≠ other := by
      intro he
      exact hno route (by rw [hr, he])
    exact AList.lookup_insert_ne hne

theorem routesInv_step (h : RoutesInv (st, routes)) (op : Op) :
    RoutesInv (op.apply cfg st, recordRoute cfg st op routes) := by
  intro id xt hl
  by_cases hreg : ∃ route, op.registers cfg st = some (id, route)
  · obtain ⟨route, hr⟩ := hreg
    obtain ⟨-, has⟩ := registeredAs_of_lookup hr hl
    refine ⟨route, ?_, period_of_route hr has⟩
    simp only [recordRoute, hr, AList.lookup_insert]
  · have hno : ∀ route, op.registers cfg st ≠ some (id, route) := fun route hr => hreg ⟨route, hr⟩
    obtain ⟨x, hx, hsame⟩ := entry_kept hno hl
    obtain ⟨route, hroute, hperiod⟩ := h id x hx
    refine ⟨route, (lookup_recordRoute_of_ne hno).trans hroute, ?_⟩
    intro hne
    exact hsame.periodId_eq.trans (hperiod hne)

theorem routesInv_run {ops : List Op}
    (h : Run (Recorded (Step cfg) (recordRoute cfg)) ({}, ∅) ops (st, routes)) :
    RoutesInv (st, routes) := by
  refine h.invariant (I := RoutesInv) (fun s op t hs hstep => ?_) (fun id xt hl => by simp at hl)
  have ht : t = (op.apply cfg s.1, recordRoute cfg s.1 op s.2) := Prod.ext hstep.1 hstep.2
  rw [ht]
  exact routesInv_step hs op

theorem accept_started_iff (p : PublisherPeriod) (periodId q : PeriodId) (seq : SequenceNumber) :
    ((p.start periodId).acceptStartInstance q seq).isOk = true ↔ q = periodId := by
  simp only [PublisherPeriod.start, PublisherPeriod.acceptStartInstance]
  rcases Nat.lt_trichotomy q periodId with hlt | heq | hgt
  · have hne : q ≠ periodId := Nat.ne_of_lt hlt
    simp [hlt, hne]
  · simp [heq]
  · have hne : q ≠ periodId := Nat.ne_of_gt hgt
    have hle : ¬q < periodId := Nat.not_lt_of_gt hgt
    simp [hle, hgt, hne]

end Routes

/-- In every reachable state the locked part of a period change does what it is for, exactly when
no undecided instance was started in a period with the number zero before this one. -/
theorem period_opened_iff {cfg : Config} {ops : List Op} {st : CoordinatorState}
    {routes : Map InstanceId Route}
    (h : Run (Recorded (Step cfg) (recordRoute cfg)) ({}, ∅) ops (st, routes))
    (periodId : PeriodId) (now : Instant) :
    PeriodOpened routes periodId st (openPeriod cfg st periodId now).1 ↔
      ∀ id xt, st.pending.lookup id = some xt → routes.lookup id = some .started →
        xt.periodId = 0 → 0 < periodId → xt.confirmedAt = none → xt.decision ≠ none := by
  have hinv := routesInv_run h
  constructor
  · intro hopened id xt hl hroute hzero hperiod hconfirmed hdecision
    have hbehind : LeftBehind routes periodId id xt :=
      ⟨hroute, by rw [hzero]; exact hperiod, hconfirmed, by simp [hdecision]⟩
    have hstale := (turned_iff hl hdecision).mp (hopened.stale id xt hl hbehind)
    exact (isStale_iff.mp hstale).1 hzero
  · intro hnone
    refine ⟨?_, ?_, ?_, accept_started_iff st.publisherPeriod periodId, rfl⟩
    · rintro id xt hl ⟨hroute, hperiod, hconfirmed, hdecision⟩
      by_cases hzero : xt.periodId = 0
      · -- the sentinel hides it from the loop, but it was aborted before
        have hnot : ¬isStale periodId xt = true := fun hstale => (isStale_iff.mp hstale).1 hzero
        have hsome := hnone id xt hl hroute hzero (hzero ▸ hperiod) hconfirmed
        refine ⟨xt, unchanged_of_not_stale hl hnot, ?_⟩
        cases hd : xt.decision with
        | none => exact absurd hd hsome
        | some d =>
          cases d with
          | false => rfl
          | true => exact absurd hd hdecision
      · exact aborted_of_stale hl (isStale_iff.mpr ⟨hzero, hperiod, hconfirmed, hdecision⟩)
    · intro id xt hl hbehind
      refine unchanged_of_not_stale hl ?_
      intro hstale
      obtain ⟨hzero, hrest⟩ := isStale_iff.mp hstale
      obtain ⟨route, hroute, hperiod⟩ := hinv id xt hl
      have hstarted : route = .started := by
        by_contra hne
        exact hzero (hperiod hne)
      exact hbehind ⟨hstarted ▸ hroute, hrest⟩
    · intro id hnone'
      rw [lookup_openPeriod, hnone', Option.map_none]

/-- An instance of period 1, one that a peer forwarded, and a later period. -/
def oneOutdated : List Op :=
  [.startPeriod 1 0, .startInstance (slotInstance 1 1 1), .forwardXt "xt-2-1" twoChainTxs 2 1]

theorem period_opened_over_one :
    ∃ st routes, Run (Recorded (Step (.bare 1)) (recordRoute (.bare 1))) ({}, ∅) oneOutdated
        (st, routes) ∧
      PeriodOpened routes 2 st (openPeriod (.bare 1) st 2 0).1 := by
  have hrun := Run.record_foldl (f := fun st op => Op.apply (.bare 1) st op)
    (recordRoute (.bare 1)) oneOutdated ({}, ∅)
  refine ⟨_, _, hrun, (period_opened_iff hrun 2 0).mpr ?_⟩
  intro id xt hl hroute hzero
  -- the publisher's instance is the one of period 1
  have hroutes : (((∅ : Map InstanceId Route).insert
      (InstanceId.fromPublisherBytes (List.replicate 32 1)) .started).insert "xt-2-1"
      .forwarded).lookup id = some .started := hroute
  rw [Map.lookup_insert_eq, Map.lookup_insert_eq] at hroutes
  split_ifs at hroutes with hforwarded hstarted
  · simp at hroutes
  · subst hstarted
    obtain rfl : startedXt (.bare 1) (slotInstance 1 1 1) = xt := Option.some.inj hl
    exact absurd hzero (by decide)
  · simp at hroutes

/-- The publisher starts an instance in period 0. -/
def periodZero : List Op := [.startPeriod 0 0, .startInstance (slotInstance 1 0 1)]

/-- Period 0 is admitted like any other, but its instances look like those of peers: the next
period leaves them undecided. -/
theorem period_zero_survives :
    ∃ st routes, Run (Recorded (Step (.bare 1)) (recordRoute (.bare 1))) ({}, ∅) periodZero
        (st, routes) ∧
      routes.lookup (InstanceId.fromPublisherBytes (List.replicate 32 1)) = some .started ∧
      (openPeriod (.bare 1) st 1 0).1.pending.lookup
        (InstanceId.fromPublisherBytes (List.replicate 32 1)) =
          some (startedXt (.bare 1) (slotInstance 1 0 1)) ∧
      ¬PeriodOpened routes 1 st (openPeriod (.bare 1) st 1 0).1 := by
  have hrun := Run.record_foldl (f := fun st op => Op.apply (.bare 1) st op)
    (recordRoute (.bare 1)) periodZero ({}, ∅)
  refine ⟨_, _, hrun, rfl, rfl, ?_⟩
  intro hopened
  obtain ⟨xt', hl', hdecision⟩ := hopened.stale (InstanceId.fromPublisherBytes (List.replicate 32 1))
    (startedXt (.bare 1) (slotInstance 1 0 1)) rfl ⟨rfl, by decide, rfl, by decide⟩
  obtain rfl : startedXt (.bare 1) (slotInstance 1 0 1) = xt' := Option.some.inj hl'
  exact absurd hdecision (by decide)

end Sidecar.Coordinator
