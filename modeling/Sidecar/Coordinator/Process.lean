import Sidecar.Coordinator.Wait
import Sidecar.Coordinator.Step
import Sidecar.Permissions.Engine
import Sidecar.Simulation.Rpc

namespace Sidecar.Coordinator

open Mailbox Permissions Simulation

/-- What the verification hook is asked about. -/
structure VerificationPayload where
  instanceId : InstanceId
  destChainId : ChainId
  originChainId : Option ChainId
  txs : List String
  deriving DecidableEq

def verificationPayload (cfg : Config) (id : InstanceId) (originChain : Option ChainId)
    (txs : List Bytes) : VerificationPayload :=
  { instanceId := id
    destChainId := cfg.chainId
    originChainId := originChain
    txs := txs.map InstanceId.hexEncode }

/-- The variables of the simulation loop: the transaction it is at, the overrides it has
merged and the dependencies it last saw fulfilled. -/
structure SimFrame where
  txs : List Bytes
  index : Nat
  overrides : StateOverride
  fulfilled : List CrossRollupDependency

/-- The points of `process_xt` where other tasks may run, with its local variables. -/
inductive ProcPc where
  | start
  | verify (txs : List Bytes) (overrides : StateOverride)
  | asked (txs : List Bytes) (overrides : StateOverride) (payload : VerificationPayload)
  | permissions (txs : List Bytes) (overrides : StateOverride)
  | permit (txs : List Bytes) (overrides : StateOverride) (involved : List ChainId)
      (rest : List Bytes)
  | lock (txs : List Bytes) (overrides : StateOverride)
  | setup (txs : List Bytes) (overrides : StateOverride)
  | simulate (frame : SimFrame)
  | record (frame : SimFrame) (result : SimulationResult)
  | dispatch (frame : SimFrame) (result : SimulationResult)
  | sending (frame : SimFrame) (result : SimulationResult) (toSend : List MailboxMessage)
  | waiting (frame : SimFrame) (deps : List CrossRollupDependency) (pc : WaitPc)
  | refresh (frame : SimFrame)
  | vote (vote : Bool)
  | finished

/-- What the outside answers when a step asks for it: the verification hook, the permission
engine as it is at that moment, the simulator, the mailbox sender, the clock, the `select!`
of the wait and the publisher's connection. -/
structure Reply where
  approved : Bool := true
  engine : PermissionEngine := { enabled := false }
  simulation : Except SimulationError SimulationResult := .error (.other "")
  delivered : Bool := true
  expired : Bool := false
  wake : Bool := false
  standalone : Bool := true
  now : Instant := 0

/-- What a run of `process_xt` leaves behind for an observer. -/
inductive ProcEvent where
  | verified (payload : VerificationPayload) (approved : Bool)
  | permitted (tx : Bytes) (sender : Address) (involved : List ChainId)
      (engine : PermissionEngine)
  | simulated (index : Nat) (tx : Bytes) (overrides : StateOverride)
      (fulfilled : List CrossRollupDependency)
      (outcome : Except SimulationError SimulationResult)
  | sent (msg : MailboxMessage)
  | cast (vote : Bool)

/-- All dependencies of a failed simulation had been there for it. -/
def alreadyFulfilled (frame : SimFrame) (result : SimulationResult) : Bool :=
  result.dependencies.all (fun dep =>
    frame.fulfilled.any (fun fulfilled => dependencyKeysEqual fulfilled dep))

/-- Where a recorded simulation leads: a failure that no message can mend is a vote against. -/
def afterRecord (frame : SimFrame) (result : SimulationResult) : ProcPc :=
  if !result.success && result.dependencies.isEmpty then .vote false
  else if !result.success && alreadyFulfilled frame result then .vote false
  else .dispatch frame result

/-- Where dispatched messages lead: to the next transaction or to the wait. -/
def afterDispatch (frame : SimFrame) (result : SimulationResult) : ProcPc :=
  if result.success then .simulate { frame with index := frame.index + 1 }
  else .waiting frame result.dependencies .check

/-- The permission check of one transaction. -/
def permitStep (cfg : Config) (engine : PermissionEngine) (txs : List Bytes)
    (overrides : StateOverride) (involved : List ChainId) (tx : Bytes) (rest : List Bytes) :
    ProcPc × List ProcEvent :=
  match cfg.decodeSenderNonce tx with
  | none => (.vote false, [])
  | some (sender, _) =>
    match engine.evaluateXt sender cfg.chainId involved with
    | .allow => (.permit txs overrides involved rest, [.permitted tx sender involved engine])
    | .deny _ => (.vote false, [])

/-- One step of `process_xt`. It stops at `finished` and, inside the wait, when neither a
notification nor the deadline is there. -/
def procStep (cfg : Config) (id : InstanceId) (reply : Reply) (st : CoordinatorState) :
    ProcPc → Option (CoordinatorState × ProcPc × List ProcEvent)
  | .start =>
    match snapshotXt cfg st id with
    | .missing => some (st, .finished, [])
    | .noLocalTxs => some (st, .vote false, [])
    | .ready txs overrides => some (st, .verify txs overrides, [])
  | .verify txs overrides =>
    if cfg.verification then
      let originChain := (st.pending.lookup id).bind PendingXt.originChain
      some (st, .asked txs overrides (verificationPayload cfg id originChain txs), [])
    else some (st, .permissions txs overrides, [])
  | .asked txs overrides payload =>
    some (st, if reply.approved then .permissions txs overrides else .vote false,
      [.verified payload reply.approved])
  | .permissions txs overrides =>
    if cfg.permissionEngine then
      match st.pending.lookup id with
      | none => some (st, .lock txs overrides, [])
      | some xt => some (st, .permit txs overrides xt.rawTxs.keys txs, [])
    else some (st, .lock txs overrides, [])
  | .permit txs overrides involved rest =>
    match rest with
    | [] => some (st, .lock txs overrides, [])
    | tx :: rest => some (st, permitStep cfg reply.engine txs overrides involved tx rest)
  | .lock txs overrides =>
    some (lockLocalChain cfg st id,
      if cfg.simulator then .setup txs overrides else .vote true, [])
  | .setup txs overrides =>
    match st.pending.lookup id with
    | none => some (st, .finished, [])
    | some xt => some (st, .simulate ⟨txs, 0, overrides, xt.fulfilledDeps⟩, [])
  | .simulate frame =>
    match frame.txs[frame.index]? with
    | none => some (st, .vote true, [])
    | some tx =>
      some (st,
        match reply.simulation with
        | .ok result => .record frame result
        | .error _ => .vote false,
        [.simulated frame.index tx frame.overrides frame.fulfilled reply.simulation])
  | .record frame result =>
    let (st', overrides) := recordSimulationState cfg st id result frame.overrides
    some (st', afterRecord { frame with overrides := overrides } result, [])
  | .dispatch frame result =>
    if result.outboundMessages.isEmpty || !cfg.mailboxSender then
      some (st, afterDispatch frame result, [])
    else
      let (st', toSend) := dispatchOutbound st id result.outboundMessages
      some (st', .sending frame result toSend, [])
  | .sending frame result toSend =>
    match toSend with
    | [] => some (st, afterDispatch frame result, [])
    | msg :: rest =>
      if reply.delivered then some (st, .sending frame result rest, [.sent msg])
      else some (st, .vote false, [])
  | .waiting frame deps pc =>
    match pc with
    | .done served => some (st, if served then .refresh frame else .vote false, [])
    | _ =>
      (waitStep id deps reply.expired reply.wake st pc).map
        (fun r => (r.1, .waiting frame deps r.2, []))
  | .refresh frame =>
    match st.pending.lookup id with
    | none => some (st, .finished, [])
    | some xt => some (st, .simulate { frame with fulfilled := xt.fulfilledDeps }, [])
  | .vote vote =>
    -- the rest of `send_vote` hands the vote on and does not touch the state
    some ((recordVote cfg st id vote reply.standalone reply.now).1, .finished,
      if id ∈ st.pending then [.cast vote] else [])
  | .finished => none

/-- The locked part that a step of `process_xt` runs, if it runs one. -/
def procOp (cfg : Config) (id : InstanceId) (reply : Reply) : ProcPc → Option Op
  | .lock _ _ => some (.lockChain id)
  | .record frame result => some (.recordSimulation id result frame.overrides)
  | .dispatch _ result =>
    if result.outboundMessages.isEmpty || !cfg.mailboxSender then none
    else some (.dispatch id result.outboundMessages)
  | .waiting _ deps .check => some (.fulfill id deps)
  | .vote vote => some (.sendVote id vote reply.standalone reply.now)
  | _ => none

theorem procOp_registers {cfg : Config} {id : InstanceId} {reply : Reply} {pc : ProcPc} {op : Op}
    (h : procOp cfg id reply pc = some op) (st : CoordinatorState) :
    op.registers cfg st = none := by
  unfold procOp at h
  split at h
  · obtain rfl := Option.some.inj h
    rfl
  · obtain rfl := Option.some.inj h
    rfl
  · split_ifs at h
    obtain rfl := Option.some.inj h
    rfl
  · obtain rfl := Option.some.inj h
    rfl
  · obtain rfl := Option.some.inj h
    rfl
  · simp at h

theorem waitStep_state {id : InstanceId} {deps : List CrossRollupDependency} {expired wake : Bool}
    {st st' : CoordinatorState} {pc pc' : WaitPc}
    (h : waitStep id deps expired wake st pc = some (st', pc')) :
    st' = if pc = .check then (fulfillDependenciesFromMailbox st id deps).1 else st := by
  cases pc with
  | check | deadline | clone | create =>
    simp only [waitStep, Option.some.injEq, Prod.mk.injEq] at h
    simp [← h.1]
  | select woken =>
    simp only [waitStep] at h
    split_ifs at h
    · simp [← (Prod.mk.inj (Option.some.inj h)).1]
    · simp [← (Prod.mk.inj (Option.some.inj h)).1]
  | done r => simp [waitStep] at h

/-- A step of `process_xt` changes the state by its locked part only. -/
theorem procStep_state {cfg : Config} {id : InstanceId} {reply : Reply}
    {st st' : CoordinatorState} {pc pc' : ProcPc} {events : List ProcEvent}
    (h : procStep cfg id reply st pc = some (st', pc', events)) :
    st' = (procOp cfg id reply pc).elim st (fun op => op.apply cfg st) := by
  -- the steps that only read
  have hread : ∀ {next : ProcPc} {es : List ProcEvent},
      some (st, next, es) = some (st', pc', events) → st' = st := by
    intro next es he
    exact (Prod.mk.inj (Option.some.inj he)).1.symm
  cases pc with
  | start | setup | simulate | refresh =>
    simp only [procStep] at h
    split at h <;> exact hread h
  | verify txs overrides =>
    simp only [procStep] at h
    split_ifs at h <;> exact hread h
  | permissions txs overrides =>
    simp only [procStep] at h
    split_ifs at h
    · split at h <;> exact hread h
    · exact hread h
  | permit txs overrides involved rest =>
    cases rest with
    | nil => exact hread h
    | cons tx rest => exact hread h
  | asked | lock | record | vote =>
    simp only [procStep, Option.some.injEq, Prod.mk.injEq] at h
    rw [← h.1]
    rfl
  | dispatch frame result =>
    simp only [procStep] at h
    split_ifs at h with hs
    · rw [procOp, if_pos hs]
      exact hread h
    · simp only [Option.some.injEq, Prod.mk.injEq] at h
      rw [← h.1, procOp, if_neg hs]
      rfl
  | sending frame result toSend =>
    cases toSend with
    | nil => exact hread h
    | cons msg rest =>
      simp only [procStep] at h
      split_ifs at h <;> exact hread h
  | waiting frame deps wpc =>
    cases wpc with
    | done served => exact hread h
    | check | deadline | clone | create | select =>
      simp only [procStep, Option.map_eq_some_iff, Prod.mk.injEq] at h
      obtain ⟨r, hw, rfl, -, -⟩ := h
      rw [waitStep_state hw]
      rfl
  | finished => simp [procStep] at h

/-- A step of `process_xt` leaves the state as it is or runs its locked part. -/
theorem procStep_op {cfg : Config} {id : InstanceId} {reply : Reply}
    {st st' : CoordinatorState} {pc pc' : ProcPc} {events : List ProcEvent}
    (h : procStep cfg id reply st pc = some (st', pc', events)) :
    (procOp cfg id reply pc = none ∧ st' = st) ∨
      ∃ op, procOp cfg id reply pc = some op ∧ st' = op.apply cfg st := by
  have hst := procStep_state h
  cases hop : procOp cfg id reply pc with
  | none =>
    rw [hop] at hst
    exact Or.inl ⟨rfl, hst⟩
  | some op =>
    rw [hop] at hst
    exact Or.inr ⟨op, rfl, hst⟩

/-- Everything a step of `process_xt` can do: where it leads and what is seen of it. -/
inductive ProcEffect (cfg : Config) (id : InstanceId) (reply : Reply) (st st' : CoordinatorState) :
    ProcPc → ProcPc → List ProcEvent → Prop
  | missing (h : st.pending.lookup id = none) : ProcEffect cfg id reply st st' .start .finished []
  | noLocalTxs : ProcEffect cfg id reply st st' .start (.vote false) []
  | ready {txs : List Bytes} {overrides : StateOverride}
      (h : snapshotXt cfg st id = .ready txs overrides) :
      ProcEffect cfg id reply st st' .start (.verify txs overrides) []
  | asks (txs : List Bytes) (overrides : StateOverride) :
      ProcEffect cfg id reply st st' (.verify txs overrides)
        (.asked txs overrides (verificationPayload cfg id
          ((st.pending.lookup id).bind PendingXt.originChain) txs)) []
  | unverified (txs : List Bytes) (overrides : StateOverride) (h : cfg.verification = false) :
      ProcEffect cfg id reply st st' (.verify txs overrides) (.permissions txs overrides) []
  | approved (txs : List Bytes) (overrides : StateOverride) (payload : VerificationPayload) :
      ProcEffect cfg id reply st st' (.asked txs overrides payload) (.permissions txs overrides)
        [.verified payload true]
  | disapproved (txs : List Bytes) (overrides : StateOverride) (payload : VerificationPayload) :
      ProcEffect cfg id reply st st' (.asked txs overrides payload) (.vote false)
        [.verified payload false]
  | unpermissioned (txs : List Bytes) (overrides : StateOverride)
      (h : cfg.permissionEngine = false ∨ st.pending.lookup id = none) :
      ProcEffect cfg id reply st st' (.permissions txs overrides) (.lock txs overrides) []
  | permissioned (txs : List Bytes) (overrides : StateOverride) {xt : PendingXt}
      (h : st.pending.lookup id = some xt) :
      ProcEffect cfg id reply st st' (.permissions txs overrides)
        (.permit txs overrides xt.rawTxs.keys txs) []
  | permitted (txs : List Bytes) (overrides : StateOverride) (involved : List ChainId) :
      ProcEffect cfg id reply st st' (.permit txs overrides involved []) (.lock txs overrides) []
  | allowed (txs : List Bytes) (overrides : StateOverride) (involved : List ChainId) (tx : Bytes)
      (rest : List Bytes) {sender : Address} {nonce : Nat}
      (hdecode : cfg.decodeSenderNonce tx = some (sender, nonce))
      (h : reply.engine.evaluateXt sender cfg.chainId involved = .allow) :
      ProcEffect cfg id reply st st' (.permit txs overrides involved (tx :: rest))
        (.permit txs overrides involved rest) [.permitted tx sender involved reply.engine]
  | denied (txs : List Bytes) (overrides : StateOverride) (involved : List ChainId) (tx : Bytes)
      (rest : List Bytes) :
      ProcEffect cfg id reply st st' (.permit txs overrides involved (tx :: rest)) (.vote false) []
  | locked (txs : List Bytes) (overrides : StateOverride) :
      ProcEffect cfg id reply st st' (.lock txs overrides) (.setup txs overrides) []
  | unsimulated (txs : List Bytes) (overrides : StateOverride) (h : cfg.simulator = false) :
      ProcEffect cfg id reply st st' (.lock txs overrides) (.vote true) []
  | setupGone (txs : List Bytes) (overrides : StateOverride) (h : st.pending.lookup id = none) :
      ProcEffect cfg id reply st st' (.setup txs overrides) .finished []
  | setup (txs : List Bytes) (overrides : StateOverride) {xt : PendingXt}
      (h : st.pending.lookup id = some xt) :
      ProcEffect cfg id reply st st' (.setup txs overrides)
        (.simulate ⟨txs, 0, overrides, xt.fulfilledDeps⟩) []
  | allSimulated (frame : SimFrame) (h : frame.txs[frame.index]? = none) :
      ProcEffect cfg id reply st st' (.simulate frame) (.vote true) []
  | simulated (frame : SimFrame) {tx : Bytes} {result : SimulationResult}
      (h : frame.txs[frame.index]? = some tx) :
      ProcEffect cfg id reply st st' (.simulate frame) (.record frame result)
        [.simulated frame.index tx frame.overrides frame.fulfilled (.ok result)]
  | simulationFailed (frame : SimFrame) {tx : Bytes} {err : SimulationError} :
      ProcEffect cfg id reply st st' (.simulate frame) (.vote false)
        [.simulated frame.index tx frame.overrides frame.fulfilled (.error err)]
  | recorded (frame : SimFrame) (result : SimulationResult) :
      ProcEffect cfg id reply st st' (.record frame result)
        (afterRecord { frame with
          overrides := (recordSimulationState cfg st id result frame.overrides).2 } result) []
  | nothingToSend (frame : SimFrame) (result : SimulationResult)
      (h : (result.outboundMessages.isEmpty || !cfg.mailboxSender) = true) (hst : st' = st) :
      ProcEffect cfg id reply st st' (.dispatch frame result) (afterDispatch frame result) []
  | claimed (frame : SimFrame) (result : SimulationResult)
      (h : (result.outboundMessages.isEmpty || !cfg.mailboxSender) = false)
      (hst : st' = (dispatchOutbound st id result.outboundMessages).1) :
      ProcEffect cfg id reply st st' (.dispatch frame result)
        (.sending frame result (dispatchOutbound st id result.outboundMessages).2) []
  | allSent (frame : SimFrame) (result : SimulationResult) :
      ProcEffect cfg id reply st st' (.sending frame result []) (afterDispatch frame result) []
  | sent (frame : SimFrame) (result : SimulationResult) (msg : MailboxMessage)
      (rest : List MailboxMessage) :
      ProcEffect cfg id reply st st' (.sending frame result (msg :: rest))
        (.sending frame result rest) [.sent msg]
  | undelivered (frame : SimFrame) (result : SimulationResult) (msg : MailboxMessage)
      (rest : List MailboxMessage) :
      ProcEffect cfg id reply st st' (.sending frame result (msg :: rest)) (.vote false) []
  | waits (frame : SimFrame) (deps : List CrossRollupDependency) (pc pc' : WaitPc) :
      ProcEffect cfg id reply st st' (.waiting frame deps pc) (.waiting frame deps pc') []
  | served (frame : SimFrame) (deps : List CrossRollupDependency) :
      ProcEffect cfg id reply st st' (.waiting frame deps (.done true)) (.refresh frame) []
  | timedOut (frame : SimFrame) (deps : List CrossRollupDependency) :
      ProcEffect cfg id reply st st' (.waiting frame deps (.done false)) (.vote false) []
  | refreshGone (frame : SimFrame) (h : st.pending.lookup id = none) :
      ProcEffect cfg id reply st st' (.refresh frame) .finished []
  | refreshed (frame : SimFrame) {xt : PendingXt} (h : st.pending.lookup id = some xt) :
      ProcEffect cfg id reply st st' (.refresh frame)
        (.simulate { frame with fulfilled := xt.fulfilledDeps }) []
  | voted (vote : Bool) :
      ProcEffect cfg id reply st st' (.vote vote) .finished
        (if id ∈ st.pending then [.cast vote] else [])

/-- Every step of `process_xt` has one of these effects. -/
theorem procStep_effect {cfg : Config} {id : InstanceId} {reply : Reply}
    {st st' : CoordinatorState} {pc pc' : ProcPc} {events : List ProcEvent}
    (h : procStep cfg id reply st pc = some (st', pc', events)) :
    ProcEffect cfg id reply st st' pc pc' events := by
  have hout : ∀ {s : CoordinatorState} {next : ProcPc} {es : List ProcEvent},
      some (s, next, es) = some (st', pc', events) → ProcEffect cfg id reply st s pc next es →
      ProcEffect cfg id reply st st' pc pc' events := by
    intro s next es he heffect
    obtain ⟨rfl, rfl, rfl⟩ : s = st' ∧ next = pc' ∧ es = events := by simpa using he
    exact heffect
  cases pc with
  | start =>
    simp only [procStep] at h
    cases hs : snapshotXt cfg st id with
    | missing =>
      have hgone : st.pending.lookup id = none := by
        cases hl : st.pending.lookup id with
        | none => rfl
        | some xt =>
          simp only [snapshotXt, hl] at hs
          split_ifs at hs
      rw [hs] at h
      exact hout h (.missing hgone)
    | noLocalTxs =>
      rw [hs] at h
      exact hout h .noLocalTxs
    | ready txs overrides =>
      rw [hs] at h
      exact hout h (.ready hs)
  | verify txs overrides =>
    simp only [procStep] at h
    split_ifs at h with hv
    · exact hout h (.asks txs overrides)
    · exact hout h (.unverified txs overrides (by simpa using hv))
  | asked txs overrides payload =>
    simp only [procStep] at h
    cases ha : reply.approved with
    | true =>
      rw [ha] at h
      exact hout h (.approved txs overrides payload)
    | false =>
      rw [ha] at h
      exact hout h (.disapproved txs overrides payload)
  | permissions txs overrides =>
    simp only [procStep] at h
    split_ifs at h with hp
    · cases hl : st.pending.lookup id with
      | none =>
        rw [hl] at h
        exact hout h (.unpermissioned txs overrides (Or.inr hl))
      | some xt =>
        rw [hl] at h
        exact hout h (.permissioned txs overrides hl)
    · exact hout h (.unpermissioned txs overrides (Or.inl (by simpa using hp)))
  | permit txs overrides involved rest =>
    cases rest with
    | nil => exact hout h (.permitted txs overrides involved)
    | cons tx rest =>
      simp only [procStep, permitStep] at h
      cases hdecode : cfg.decodeSenderNonce tx with
      | none =>
        rw [hdecode] at h
        exact hout h (.denied txs overrides involved tx rest)
      | some found =>
        cases hd : reply.engine.evaluateXt found.1 cfg.chainId involved with
        | allow =>
          simp only [hdecode, hd] at h
          exact hout h (.allowed txs overrides involved tx rest hdecode hd)
        | deny reason =>
          simp only [hdecode, hd] at h
          exact hout h (.denied txs overrides involved tx rest)
  | lock txs overrides =>
    simp only [procStep] at h
    cases hs : cfg.simulator with
    | true =>
      rw [hs] at h
      exact hout h (.locked txs overrides)
    | false =>
      rw [hs] at h
      exact hout h (.unsimulated txs overrides hs)
  | setup txs overrides =>
    simp only [procStep] at h
    cases hl : st.pending.lookup id with
    | none =>
      rw [hl] at h
      exact hout h (.setupGone txs overrides hl)
    | some xt =>
      rw [hl] at h
      exact hout h (.setup txs overrides hl)
  | simulate frame =>
    simp only [procStep] at h
    cases htx : frame.txs[frame.index]? with
    | none =>
      rw [htx] at h
      exact hout h (.allSimulated frame htx)
    | some tx =>
      cases hr : reply.simulation with
      | ok result =>
        simp only [htx, hr] at h
        exact hout h (.simulated frame htx)
      | error err =>
        simp only [htx, hr] at h
        exact hout h (.simulationFailed frame)
  | record frame result => exact hout h (.recorded frame result)
  | dispatch frame result =>
    simp only [procStep] at h
    split_ifs at h with hs
    · exact hout h (.nothingToSend frame result hs rfl)
    · exact hout h (.claimed frame result (by simpa using hs) rfl)
  | sending frame result toSend =>
    cases toSend with
    | nil => exact hout h (.allSent frame result)
    | cons msg rest =>
      simp only [procStep] at h
      split_ifs at h
      · exact hout h (.sent frame result msg rest)
      · exact hout h (.undelivered frame result msg rest)
  | waiting frame deps wait =>
    cases wait with
    | done served =>
      cases served with
      | true => exact hout h (.served frame deps)
      | false => exact hout h (.timedOut frame deps)
    | check | deadline | clone | create | select =>
      simp only [procStep, Option.map_eq_some_iff] at h
      obtain ⟨r, -, h⟩ := h
      exact hout (congrArg some h) (.waits frame deps _ r.2)
  | refresh frame =>
    simp only [procStep] at h
    cases hl : st.pending.lookup id with
    | none =>
      rw [hl] at h
      exact hout h (.refreshGone frame hl)
    | some xt =>
      rw [hl] at h
      exact hout h (.refreshed frame hl)
  | vote v => exact hout h (.voted v)
  | finished => simp [procStep] at h

/-- What `notify_waiters` does to a running `process_xt`. -/
def ProcPc.notified : ProcPc → ProcPc
  | .waiting frame deps pc => .waiting frame deps pc.notified
  | pc => pc

end Sidecar.Coordinator
