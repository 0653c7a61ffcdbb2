import Sidecar.Coordinator.Entry
import Sidecar.Coordinator.LiveSubmission

namespace Sidecar.Coordinator

open TaskSystem

/-- One for an undecided instance under the id. -/
def CoordinatorState.undecidedAt (st : CoordinatorState) (id : InstanceId) : Nat :=
  (st.pending.lookup id).toList.countP (fun xt => xt.decision.isNone)

section Ops

variable (cfg : Config) (st : CoordinatorState)

/-- What `maybe_make_standalone_decision` returns to `send_vote`. -/
def localDecision (id : InstanceId) (vote standalone : Bool) (now : Instant) :
    Option (Bool × Nat × Nat) :=
  (recordVote cfg st id vote standalone now).2.bind VoteRecord.decision

/-- What `maybe_make_standalone_decision` returns to `handle_peer_vote`. -/
def peerDecision (id : InstanceId) (chainId : ChainId) (vote : Bool) (now : Instant) :
    Option (Bool × Nat × Nat) :=
  match st.pending.lookup id with
  | none => none
  | some xt =>
    if xt.decision.isSome then none
    else if chainId ∈ xt.peerVotes then none
    else
      (maybeMakeStandaloneDecision cfg.chainId
        { xt with peerVotes := xt.peerVotes.insert chainId vote } now).2

/-- How many decisions a locked part makes for which its handler lowers the gauge. -/
def Op.decides : Op → Nat
  | .sendVote id vote standalone now => (localDecision cfg st id vote standalone now).toList.length
  | .peerVote id chainId vote now => (peerDecision cfg st id chainId vote now).toList.length
  | .onDecision id _ _ => st.undecidedAt id
  | _ => 0

/-- How many undecided instances a locked part ends or takes out while no handler lowers the
gauge for it. -/
def Op.forgets : Op → Nat
  | .removePending _ id => st.undecidedAt id
  | .startPeriod periodId _ =>
    (Map.values st.pending).countP (fun xt => xt.decision.isNone && isStale periodId xt)
  | .rollback _ => st.undecidedCount
  | .cleanup _ now maxAge =>
    (Map.values st.pending).countP (fun xt => xt.decision.isNone && !keepsXt now maxAge xt)
  | _ => 0

end Ops

section Undecided

variable {cfg : Config} {st : CoordinatorState}

/-- A decision that the counting makes is one undecided instance less. -/
theorem undecided_standaloneDecision (chainId : ChainId) (xt : PendingXt) (now : Instant) :
    [(maybeMakeStandaloneDecision chainId xt now).1].countP (fun x => x.decision.isNone) +
        (maybeMakeStandaloneDecision chainId xt now).2.toList.length =
      [xt].countP (fun x => x.decision.isNone) := by
  rcases standaloneDecision_cases chainId xt now with h | ⟨hd, -, n, m, h⟩ | ⟨hd, -, n, m, h⟩
  · rw [h]
    rfl
  · rw [h]
    simp [PendingXt.recordDecision, hd]
  · rw [h]
    simp [PendingXt.recordDecision, hd]

theorem undecided_castVote (xt : PendingXt) (vote standalone : Bool) (now : Instant) :
    [(castVote cfg xt vote standalone now).1].countP (fun x => x.decision.isNone) +
        (castVote cfg xt vote standalone now).2.toList.length =
      [xt].countP (fun x => x.decision.isNone) := by
  rw [castVote_eq]
  cases standalone with
  | false => rfl
  | true => exact undecided_standaloneDecision cfg.chainId (withLocalVote cfg xt vote now) now

/-- A new value for one instance. -/
theorem undecided_updateXt {id : InstanceId} {xt y : PendingXt} {n : Nat}
    (hl : st.pending.lookup id = some xt)
    (hone : [y].countP (fun x => x.decision.isNone) + n =
      [xt].countP (fun x => x.decision.isNone)) :
    (st.updateXt id (fun _ => y)).undecidedCount + n = st.undecidedCount := by
  have hchange := @Map.countP_values_change _ _ _ st.pending (st.updateXt id (fun _ => y)).pending
    (fun x => x.decision.isNone) id (fun id' hne => by rw [lookup_updateXt, if_neg hne])
  rw [lookup_updateXt, if_pos rfl, hl] at hchange
  have hafter : (st.updateXt id (fun _ => y)).undecidedCount + [xt].countP _ =
      st.undecidedCount + [y].countP (fun x => x.decision.isNone) := hchange
  omega

/-- The locked parts that decide nothing. -/
def Op.leavesDecisions : Op → Bool
  | .confirm _ _ | .mailbox _ | .enqueue _ _ | .resolve _ | .lockChain _ | .recordSimulation _ _ _
  | .fulfill _ _ | .dispatch _ _ => true
  | _ => false

theorem undecided_leavesDecisions {op : Op} (h : op.leavesDecisions = true) :
    (op.apply cfg st).undecidedCount = st.undecidedCount := by
  refine Map.countP_values_congr (fun id => ?_)
  have heffect := xtEffect cfg st op id
  generalize (op.apply cfg st).pending.lookup id = after at heffect ⊢
  generalize st.pending.lookup id = before at heffect ⊢
  cases heffect with
  | same => rfl
  | touched _ _ hcore =>
    exact congrArg (fun core : XtCore => some core.decision.isNone) hcore
  | removed _ _ _ hremoves =>
    cases op <;> simp [Op.leavesDecisions, Op.removes] at h hremoves
  | registered _ _ route _ hreg =>
    cases op <;> simp [Op.leavesDecisions, Op.registers] at h hreg
  | voted | peerVoted | decided | outdated | rolledBack => simp [Op.leavesDecisions] at h

/-- The stale ones are decided. -/
theorem undecided_openPeriod (periodId : PeriodId) (now : Instant) :
    (openPeriod cfg st periodId now).1.undecidedCount +
        (Map.values st.pending).countP (fun xt => xt.decision.isNone && isStale periodId xt) =
      st.undecidedCount := by
  have hafter : (openPeriod cfg st periodId now).1.undecidedCount =
      (Map.values st.pending).countP (fun xt => xt.decision.isNone && !isStale periodId xt) := by
    simp only [CoordinatorState.undecidedCount, openPeriod, Map.values_mapVals
      (fun xt => if isStale periodId xt then abortUndecided xt now else xt), List.countP_map]
    refine List.countP_congr (fun xt _ => ?_)
    simp only [Function.comp, abortUndecided]
    cases isStale periodId xt <;> cases hd : xt.decision <;>
      simp [hd, PendingXt.recordDecision]
  have hsplit := List.countP_eq_countP_filter_add (Map.values st.pending)
    (fun xt => xt.decision.isNone) (isStale periodId)
  rw [List.countP_filter, List.countP_filter] at hsplit
  rw [hafter, CoordinatorState.undecidedCount, hsplit]
  exact Nat.add_comm _ _

theorem undecided_removePendingXt (closed : Waiter → Bool) (id : InstanceId) :
    (removePendingXt closed st id).undecidedCount + st.undecidedAt id = st.undecidedCount := by
  rw [CoordinatorState.undecidedAt, removePendingXt]
  cases hl : st.pending.lookup id with
  | none => rfl
  | some xt =>
    have herase := Map.countP_values_erase id st.pending (fun xt => xt.decision.isNone)
    rw [hl] at herase
    exact herase

theorem undecided_recordVote (id : InstanceId) (vote standalone : Bool) (now : Instant) :
    (recordVote cfg st id vote standalone now).1.undecidedCount +
        (localDecision cfg st id vote standalone now).toList.length = st.undecidedCount := by
  simp only [localDecision, recordVote]
  cases hl : st.pending.lookup id with
  | none => rfl
  | some xt =>
    dsimp only
    split_ifs with hv
    · rfl
    · exact undecided_updateXt hl (undecided_castVote xt vote standalone now)

theorem undecided_recordPeerVote (id : InstanceId) (chainId : ChainId) (vote : Bool)
    (now : Instant) :
    (recordPeerVote cfg st id chainId vote now).1.undecidedCount +
        (peerDecision cfg st id chainId vote now).toList.length = st.undecidedCount := by
  simp only [peerDecision, recordPeerVote]
  cases hl : st.pending.lookup id with
  | none => rfl
  | some xt =>
    dsimp only
    split_ifs with hd hv
    · rfl
    · rfl
    · exact undecided_updateXt hl (undecided_standaloneDecision cfg.chainId
        { xt with peerVotes := xt.peerVotes.insert chainId vote } now)

theorem undecided_recordPublisherDecision (id : InstanceId) (decision : Bool) (now : Instant) :
    (recordPublisherDecision cfg st id decision now).1.undecidedCount + st.undecidedAt id =
      st.undecidedCount := by
  simp only [CoordinatorState.undecidedAt, recordPublisherDecision]
  cases hl : st.pending.lookup id with
  | none => rfl
  | some xt =>
    have hdecided : (st.updateXt id (fun _ => xt.recordDecision decision now)).undecidedCount +
        [xt].countP (fun x => x.decision.isNone) = st.undecidedCount :=
      undecided_updateXt hl (Nat.zero_add _)
    dsimp only
    split_ifs with hd
    · have hnone : xt.decision.isNone = false := by simpa using hd
      simp [hnone]
    · exact hdecided
    · exact hdecided

/-- All are decided. -/
theorem undecided_rollBack (now : Instant) : (rollBack cfg st now).1.undecidedCount = 0 := by
  rw [CoordinatorState.undecidedCount, List.countP_eq_zero]
  intro xt hxt
  obtain ⟨id, hl⟩ := (Map.mem_values _ _).mp hxt
  simp only [rollBack, Map.lookup_mapVals, Option.map_eq_some_iff] at hl
  obtain ⟨old, -, rfl⟩ := hl
  simp [forceAbort_decision]

theorem undecided_cleanup (closed : Waiter → Bool) (now : Instant) (maxAge : Nat) :
    (cleanup closed st now maxAge).undecidedCount +
        (Map.values st.pending).countP (fun xt => xt.decision.isNone && !keepsXt now maxAge xt) =
      st.undecidedCount := by
  have hsplit := List.countP_eq_countP_filter_add (Map.values st.pending)
    (fun xt => xt.decision.isNone) (keepsXt now maxAge)
  rw [← Map.values_retain, List.countP_filter] at hsplit
  exact hsplit.symm

/-- What a locked part that registers nothing does to the number of undecided instances. -/
theorem undecided_apply {op : Op} (hreg : op.registers cfg st = none) :
    (op.apply cfg st).undecidedCount + (op.decides cfg st + op.forgets st) =
      st.undecidedCount := by
  have hkept : RegistersOnly cfg st op → (op.apply cfg st).undecidedCount = st.undecidedCount := by
    intro honly
    rcases honly with ⟨-, hp⟩ | ⟨id, route, xt, hr, -⟩
    · rw [CoordinatorState.undecidedCount, hp]
      rfl
    · simp [hreg] at hr
  cases op with
  | submitXt txs => exact hkept (submitXt_registersOnly cfg st txs)
  | forwardXt i txs originChain originSeq =>
    exact hkept (forwardXt_registersOnly cfg st i txs originChain originSeq)
  | startInstance inst => exact hkept (startInstance_registersOnly cfg st inst)
  | sendVote id vote standalone now => exact undecided_recordVote id vote standalone now
  | peerVote id chainId vote now => exact undecided_recordPeerVote id chainId vote now
  | onDecision id decision now => exact undecided_recordPublisherDecision id decision now
  | removePending closed id =>
    simp only [Op.decides, Nat.zero_add]
    exact undecided_removePendingXt closed id
  | startPeriod periodId now =>
    simp only [Op.decides, Nat.zero_add]
    exact undecided_openPeriod periodId now
  | rollback now =>
    simp only [Op.apply, Op.decides, Op.forgets, undecided_rollBack, Nat.zero_add]
  | cleanup closed now maxAge =>
    simp only [Op.decides, Nat.zero_add]
    exact undecided_cleanup closed now maxAge
  | confirm | mailbox | enqueue | resolve | lockChain | recordSimulation | fulfill | dispatch =>
    exact undecided_leavesDecisions rfl

/-- A registration adds an undecided instance, unless it replaces one. -/
theorem undecided_registers {op : Op} {id : InstanceId} {route : Route}
    (hreg : op.registers cfg st = some (id, route)) :
    (op.apply cfg st).undecidedCount + st.undecidedAt id = st.undecidedCount + 1 := by
  obtain ⟨xt, hid, has, hpending⟩ := registeredAs hreg
  have hnone : xt.decision = none := by
    cases has with
    | submitted | forwarded | started => rfl
  have hchange := @Map.countP_values_change _ _ _ st.pending (op.apply cfg st).pending
    (fun x => x.decision.isNone) id
    (fun id' hne => by rw [hpending, AList.lookup_insert_ne hne])
  have hone : ((op.apply cfg st).pending.lookup id).toList.countP
      (fun x => x.decision.isNone) = 1 := by
    rw [hpending, AList.lookup_insert]
    simp [hnone]
  rw [hone] at hchange
  exact hchange

end Undecided

section Tasks

/-- The instance of a call of `submit_xt_standalone` that was registered and is not counted yet. -/
def Task.uncounted : Task → List InstanceId
  | .submit _ registrar | .submitting registrar | .registered registrar
  | .removePending registrar _ => registrar.submittedId
  | _ => []

theorem lasting_uncounted : Lasting Task.uncounted where
  notified := fun t => by cases t <;> rfl
  request := fun _ => rfl
  notifyWaiters := rfl

/-- `xt_pending_count`, and how many calls of `send_vote` are still to lower it. -/
structure Gauge where
  count : Int := 0
  owed : Nat := 0
  deriving DecidableEq

variable (cfg : Config) (reply : TaskReply) (sh : Shared)

/-- The instance that a step registers. -/
def registersBy (t : Task) : Option (InstanceId × Route) :=
  (taskOp cfg reply t).bind (fun op => op.registers cfg sh.st)

/-- The gauge after a step of a task. `send_vote` lowers it some time after its locked part; all
others do so in the same step. -/
def Gauge.after (g : Gauge) : Task → Gauge
  | .registered (.submitted _ _) => { g with count := g.count + 1 }
  | .request (.startInstance msg) =>
    { g with
      count := g.count + (registersBy cfg reply sh (.request (.startInstance msg))).toList.length }
  | .request (.decision id _) => { g with count := g.count - sh.st.undecidedAt id }
  | .request (.peerVote id chainId vote) =>
    { g with
      count := g.count - (peerDecision cfg sh.st id chainId vote reply.now).toList.length }
  | .recordVote id vote standalone =>
    { g with
      owed := g.owed + (localDecision cfg sh.st id vote standalone reply.now).toList.length }
  | _ => g

/-- By how much a step puts the gauge off the number of undecided instances. A forwarded instance
is never counted; undecided instances that end with their period, by a rollback, by `cleanup` or
when the builder refuses them stay counted; a refused submission that is undecided no longer was
discounted without having been counted; and a submission that replaces an undecided instance is
counted beside it. -/
def gaugeError : Task → Int
  | .submitStandalone txs =>
    (registersBy cfg reply sh (.submitStandalone txs)).elim 0 (fun r => sh.st.undecidedAt r.1)
  | .request (.forwardedXt id txs originChain originSeq) =>
    -(registersBy cfg reply sh
      (.request (.forwardedXt id txs originChain originSeq))).toList.length
  | .request (.startPeriod periodId) => (Op.startPeriod periodId reply.now).forgets sh.st
  | .request .rollback => (Op.rollback reply.now).forgets sh.st
  | .request (.cleanup maxAge) => (Op.cleanup reply.closed reply.now maxAge).forgets sh.st
  | .removePending (.submitted id _) _ => (sh.st.undecidedAt id : Int) - 1
  | .removePending registrar _ => sh.st.undecidedAt registrar.id
  | _ => 0

end Tasks

section Step

variable {cfg : Config} {reply : TaskReply} {sh sh' : Shared} {t : Task} {next : List Task}
  {es : List Event}

/-- A step that registers nothing. -/
theorem undecided_taskStep (h : taskStep cfg reply sh t = some (sh', next, es))
    (hnone : RegistersNothing cfg reply sh t) :
    sh'.st.undecidedCount +
        (taskOp cfg reply t).elim 0 (fun op => op.decides cfg sh.st + op.forgets sh.st) =
      sh.st.undecidedCount := by
  rw [taskStep_state cfg reply sh h]
  cases hop : taskOp cfg reply t with
  | none => rfl
  | some op => exact undecided_apply (hnone op hop)

/-- The submissions that stay uncounted through a step that registers nothing. -/
theorem uncounted_next (h : taskStep cfg reply sh t = some (sh', next, es))
    (hnone : RegistersNothing cfg reply sh t) : next.flatMap Task.uncounted = t.waits := by
  have hcarries : ∀ u : Task, u.carries = false → u.uncounted = [] := by
    intro u hu
    cases u <;> first | rfl | simp [Task.carries] at hu
  cases t with
  | submit submission registrar =>
    simp only [taskStep] at h
    split_ifs at h <;> obtain ⟨-, rfl, -⟩ := h <;> exact List.flatMap_singleton _ _
  | submitting registrar =>
    simp only [taskStep, submitReturns] at h
    split at h <;> obtain ⟨-, rfl, -⟩ := h <;> exact List.flatMap_singleton _ _
  | registered registrar =>
    obtain ⟨-, rfl, -⟩ := h
    exact flatMap_registrarNext cfg (fun _ _ => rfl) (fun _ _ => rfl) (fun _ _ _ => rfl) registrar
  | _ =>
    rcases handsOn_or_drops (taskStep_effect h) with hands | hdrops
    · cases hands with
      | registered _ hop hr => simp [hnone _ hop] at hr
      | _ => rfl
    · exact flatMap_of_drops hcarries hdrops

/-- A step that registers nothing puts the gauge off by its error. -/
theorem gauge_idle (hnone : RegistersNothing cfg reply sh t) (g : Gauge) :
    (g.after cfg reply sh t).count + t.waits.length + g.owed +
        ((taskOp cfg reply t).elim 0 (fun op => op.decides cfg sh.st + op.forgets sh.st) : Nat) =
      g.count + t.uncounted.length + (g.after cfg reply sh t).owed + gaugeError cfg reply sh t := by
  have hby : registersBy cfg reply sh t = none := by
    cases hop : taskOp cfg reply t with
    | none => rw [registersBy, hop, Option.bind_none]
    | some op => rw [registersBy, hop, Option.bind_some, hnone op hop]
  cases hop : taskOp cfg reply t with
  | none =>
    cases t with
    | request request =>
      cases request with
      | startInstance msg => simp [Gauge.after, gaugeError, Task.waits, Task.uncounted, hby]
      | submitXt | confirmIncluded | mailboxMessage => rfl
      | _ => cases hop
    | registered registrar =>
      cases registrar with
      | submitted =>
        simp [Gauge.after, gaugeError, Task.waits, Task.uncounted, Registrar.submittedId,
          Registrar.submission]
      | forwarded | started => rfl
    | submitStandalone | removePending | recordVote => cases hop
    | _ => rfl
  | some op =>
    cases runsOp_of_taskOp hop with
    | removed registrar err =>
      cases registrar with
      | submitted =>
        simp [Gauge.after, gaugeError, Op.decides, Op.forgets, Task.waits, Task.uncounted,
          Registrar.submittedId, Registrar.submission, Registrar.id]
        omega
      | forwarded | started =>
        simp [Gauge.after, gaugeError, Op.decides, Op.forgets, Task.waits, Task.uncounted,
          Registrar.submittedId, Registrar.submission, Registrar.id]
    | peerVoted | decided | voted =>
      simp [Gauge.after, gaugeError, Op.decides, Op.forgets, Task.waits, Task.uncounted]
      omega
    | submitted | forwarded | started =>
      simp [Gauge.after, gaugeError, Op.decides, Op.forgets, Task.waits, Task.uncounted, hby]
    | periodStarted | rolledBack | cleanedUp =>
      simp [Gauge.after, gaugeError, Op.decides, Task.waits, Task.uncounted]
    | confirmed | mailed | enqueued | resolved | locked | recorded | dispatched | fulfilled => rfl

theorem undecidedAt_of_not_mem {st : CoordinatorState} {id : InstanceId} (h : id ∉ st.pending) :
    st.undecidedAt id = 0 := by
  rw [CoordinatorState.undecidedAt, AList.lookup_eq_none.mpr h]
  rfl

/-- A step that registers an instance: only `submit_xt_standalone` has it uncounted for a while. -/
theorem gauge_registers (h : taskStep cfg reply sh t = some (sh', next, es)) {id : InstanceId}
    {route : Route} (hby : registersBy cfg reply sh t = some (id, route)) (g : Gauge) :
    (g.after cfg reply sh t).count + (next.flatMap Task.uncounted).length + g.owed =
      g.count + t.uncounted.length + (g.after cfg reply sh t).owed + gaugeError cfg reply sh t +
        1 - sh.st.undecidedAt id := by
  obtain ⟨op, hop, hreg⟩ := Option.bind_eq_some_iff.mp hby
  obtain ⟨xt, -, hnew⟩ := newEntry_of_registers h hop hreg
  obtain ⟨registrar, hregisters, rfl⟩ := hnew.registrar
  rw [@flatMap_submitFirst _ Task.uncounted registrar registrar.submittedId (fun _ => rfl) rfl]
  have hid : id = xt.id := by
    obtain ⟨route, hfresh⟩ := hnew.fresh
    exact hfresh.id_eq.symm
  cases hregisters with
  | submitted txs =>
    simp [Gauge.after, gaugeError, Task.uncounted, Registrar.submittedId,
      Registrar.submission, hby]
    omega
  | forwarded i txs originChain originSeq buffered hfree =>
    have hzero : sh.st.undecidedAt id = 0 := undecidedAt_of_not_mem (hid ▸ hfree)
    simp [Gauge.after, gaugeError, Task.uncounted, Registrar.submittedId,
      Registrar.submission, hby, hzero]
  | started msg inst fingerprint buffered htry hfree =>
    have hzero : sh.st.undecidedAt id = 0 := undecidedAt_of_not_mem (hid ▸ hfree)
    simp [Gauge.after, gaugeError, Task.uncounted, Registrar.submittedId,
      Registrar.submission, hby, hzero]
    omega

/-- What a step does to the gauge, to the submissions that are not counted yet and to the number of
undecided instances. -/
theorem gauge_taskStep (h : taskStep cfg reply sh t = some (sh', next, es)) (g : Gauge) :
    (g.after cfg reply sh t).count + (next.flatMap Task.uncounted).length + sh.st.undecidedCount +
        g.owed =
      g.count + t.uncounted.length + sh'.st.undecidedCount + (g.after cfg reply sh t).owed +
        gaugeError cfg reply sh t := by
  cases hby : registersBy cfg reply sh t with
  | none =>
    have hnone : RegistersNothing cfg reply sh t := by
      intro op hop
      rw [registersBy, hop, Option.bind_some] at hby
      exact hby
    have hgauge := gauge_idle hnone g
    have hcount := undecided_taskStep h hnone
    rw [uncounted_next h hnone]
    omega
  | some r =>
    obtain ⟨id, route⟩ := r
    obtain ⟨op, hop, hreg⟩ := Option.bind_eq_some_iff.mp hby
    have hgauge := gauge_registers h hby g
    have hcount := undecided_registers hreg
    rw [taskStep_apply h hop]
    omega

end Step

section Run

/-- A move of the coordinator, or `send_vote` lowering the gauge after its locked part. -/
inductive GaugeMove where
  | world (move : Move)
  | settle

section Moves

variable (cfg : Config) (w : World)

def Gauge.moved (g : Gauge) : Move → Gauge
  | .run t reply => g.after cfg reply w.shared t
  | _ => g

def Gauge.settled (g : Gauge) : Gauge := ⟨g.count - 1, g.owed - 1⟩

/-- How far the gauge has been put off so far. -/
def drift (s : World × Gauge) : GaugeMove → Int → Int
  | .world (.run t reply), d => d + gaugeError cfg reply s.1.shared t
  | _, d => d

end Moves

/-- The coordinator with metrics attached. -/
inductive GaugeStep (cfg : Config) : World × Gauge → GaugeMove → World × Gauge → Prop
  | world {w w' : World} {m : Move} (h : WorldStep cfg w m w') (g : Gauge) :
      GaugeStep cfg (w, g) (.world m) (w', g.moved cfg w m)
  | settle (w : World) {g : Gauge} (h : 0 < g.owed) : GaugeStep cfg (w, g) .settle (w, g.settled)

variable {cfg : Config}

/-- The gauge is off by the drift, but for what is still to be counted. -/
def GaugeInv (s : (World × Gauge) × Int) : Prop :=
  s.1.2.count + (s.1.1.held Task.uncounted).length =
    s.1.1.shared.st.undecidedCount + s.1.2.owed + s.2

theorem gaugeInv_world {w w' : World} {m : Move} {g : Gauge} {d : Int} (h : WorldStep cfg w m w')
    (hi : GaugeInv ((w, g), d)) :
    GaugeInv ((w', g.moved cfg w m), drift cfg (w, g) (.world m) d) := by
  have hquiet : ∀ {v : World}, QuietMove w v → GaugeInv ((v, g), d) := by
    intro v hq
    simp only [GaugeInv, hq.st_eq, hq.held_eq lasting_uncounted]
    exact hi
  cases h with
  | arrive request => exact hquiet (quietMove_arrive w request)
  | connection up => exact hquiet (quietMove_connection w up)
  | notify htasks => exact hquiet (quietMove_notify htasks)
  | run hr =>
    cases hr with
    | intro htasks hstep =>
      have hbalance := gauge_taskStep hstep g
      simp only [GaugeInv, held_split_eq htasks, List.length_append] at hi
      simp only [GaugeInv, held_run_eq, List.length_append, Gauge.moved, drift]
      omega

theorem gaugeInv_step (s : (World × Gauge) × Int) (m : GaugeMove) (s' : (World × Gauge) × Int)
    (hi : GaugeInv s) (h : Recorded (GaugeStep cfg) (drift cfg) s m s') : GaugeInv s' := by
  obtain ⟨⟨w, g⟩, d⟩ := s
  obtain ⟨t, d'⟩ := s'
  obtain ⟨hstep, hd⟩ := h
  obtain rfl : d' = _ := hd
  cases hstep with
  | world hw => exact gaugeInv_world hw hi
  | settle _ howed =>
    simp only [GaugeInv, Gauge.settled, drift] at hi ⊢
    omega

/-- Where no handler is between its state update and its update of the gauge, the gauge counts
the undecided instances exactly when the errors made on the way cancel. -/
theorem pending_gauge_exact_iff {moves : List GaugeMove} {w : World} {g : Gauge} {d : Int}
    (hrun : Run (Recorded (GaugeStep cfg) (drift cfg)) ((World.initial, {}), 0) moves ((w, g), d))
    (huncounted : w.held Task.uncounted = []) (howed : g.owed = 0) :
    g.count = w.shared.st.undecidedCount ↔ d = 0 := by
  have hi : GaugeInv ((w, g), d) := hrun.invariant gaugeInv_step rfl
  simp only [GaugeInv, huncounted, howed, List.length_nil] at hi
  omega

/-- A move with the task that moves named by its position; `none` is the late update. -/
def gaugePick (cfg : Config) (s : World × Gauge) :
    Option Pick → Option (GaugeMove × (World × Gauge))
  | some p => (pickStep cfg s.1 p).map (fun r => (.world r.1, r.2, s.2.moved cfg s.1 r.1))
  | none => if 0 < s.2.owed then some (.settle, s.1, s.2.settled) else none

theorem gaugeStep_of_pick (s : World × Gauge) (p : Option Pick) (m : GaugeMove)
    (s' : World × Gauge) (h : gaugePick cfg s p = some (m, s')) : GaugeStep cfg s m s' := by
  cases p with
  | none =>
    simp only [gaugePick] at h
    split_ifs at h with howed
    obtain ⟨rfl, rfl⟩ := Prod.mk.inj (Option.some.inj h)
    exact .settle s.1 howed
  | some p =>
    obtain ⟨r, hr, he⟩ := Option.map_eq_some_iff.mp h
    obtain ⟨rfl, rfl⟩ := Prod.mk.inj he
    exact .world (worldStep_of_pick s.1 p r.1 r.2 hr) s.2

/-- A submission that the local vote decides after the peer's. -/
def decidedPicks : List (Option Pick) :=
  [.arrive (.submitXt twoChainTxs 0), .run 0 {}, .run 0 {}, .run 0 {}, .run 0 {},
    .arrive (.peerVote "xt-1-1" 2 true), .run 1 {}].map some ++
  List.replicate 8 (some (.run 0 {})) ++ [none]

theorem pending_gauge_exact_iff_decided : ∃ moves w g d,
    Run (Recorded (GaugeStep (Config.bare 1)) (drift (Config.bare 1)))
      ((World.initial, {}), 0) moves ((w, g), d) ∧
    decisionOf w.shared.st "xt-1-1" = some true ∧ d = 0 ∧
    g.count = w.shared.st.undecidedCount := by
  have hexec : ∃ w g d, execAll (recordPick (gaugePick (Config.bare 1)) (drift (Config.bare 1)))
        (fun _ _ => true) decidedPicks ((World.initial, {}), 0) = some ((w, g), d) ∧
      decisionOf w.shared.st "xt-1-1" = some true ∧ w.held Task.uncounted = [] ∧ g.owed = 0 ∧
      d = 0 := ⟨_, _, _, rfl, rfl, rfl, rfl, rfl⟩
  obtain ⟨w, g, d, hs, hdecided, huncounted, howed, hd⟩ := hexec
  obtain ⟨moves, hrun⟩ := run_execAll_free (recorded_of_recordPick gaugeStep_of_pick) hs
  exact ⟨moves, w, g, d, hrun, hdecided, hd,
    (pending_gauge_exact_iff hrun huncounted howed).mpr hd⟩

/-- A peer's instance is registered, the builder takes it, and its handler ends. -/
def forwardedPicks : List (Option Pick) :=
  [.arrive (.forwardedXt "xt-2-1" twoChainTxs 2 1), .run 0 {}, .run 0 {}, .run 0 {}, .run 0 {}].map
    some

/-- The builder refuses an instance that the publisher started, and its handler ends. -/
def refusedPicks : List (Option Pick) :=
  [.arrive (.startPeriod 1), .run 0 {}, .run 0 {}, .arrive (.startInstance startMessage), .run 0 {},
    .run 0 {}, .run 0 { outcome := .error .noTransactions }, .run 0 {}, .run 0 {},
    .run 0 {}].map some

theorem pending_gauge_miscounts :
    (∃ moves w g, Run (GaugeStep builderConfig) (World.initial, {}) moves (w, g) ∧
      w.tasks = [.process "xt-2-1" .start] ∧ g.owed = 0 ∧
      g.count = 0 ∧ w.shared.st.undecidedCount = 1) ∧
    ∃ moves w g, Run (GaugeStep builderConfig) (World.initial, {}) moves (w, g) ∧
      w.tasks = [] ∧ g.owed = 0 ∧ g.count = 1 ∧ w.shared.st.undecidedCount = 0 := by
  have hforwarded : ∃ w g, execAll (gaugePick builderConfig) (fun _ _ => true) forwardedPicks
        (World.initial, {}) = some (w, g) ∧ w.tasks = [.process "xt-2-1" .start] ∧ g.owed = 0 ∧
      g.count = 0 ∧ w.shared.st.undecidedCount = 1 := ⟨_, _, rfl, rfl, rfl, rfl, rfl⟩
  have hrefused : ∃ w g, execAll (gaugePick builderConfig) (fun _ _ => true) refusedPicks
        (World.initial, {}) = some (w, g) ∧ w.tasks = [] ∧ g.owed = 0 ∧
      g.count = 1 ∧ w.shared.st.undecidedCount = 0 := ⟨_, _, rfl, rfl, rfl, rfl, rfl⟩
  obtain ⟨w, g, hw, htasks, howed, hcount, hundecided⟩ := hforwarded
  obtain ⟨w', g', hw', htasks', howed', hcount', hundecided'⟩ := hrefused
  obtain ⟨moves, hrun⟩ := run_execAll_free gaugeStep_of_pick hw
  obtain ⟨moves', hrun'⟩ := run_execAll_free gaugeStep_of_pick hw'
  exact ⟨⟨moves, w, g, hrun, htasks, howed, hcount, hundecided⟩,
    moves', w', g', hrun', htasks', howed', hcount', hundecided'⟩

end Run

end Sidecar.Coordinator
