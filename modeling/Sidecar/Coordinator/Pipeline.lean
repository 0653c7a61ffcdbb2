import Sidecar.Coordinator.State

namespace Sidecar.Coordinator

open Mailbox

variable (cfg : Config)

/-- The first read of `process_xt`: the local transactions and the overlay to start from. -/
inductive Snapshot where
  | missing
  | noLocalTxs
  | ready (txs : List Bytes) (overrides : StateOverride)

def snapshotXt (st : CoordinatorState) (id : InstanceId) : Snapshot :=
  match st.pending.lookup id with
  | none => .missing
  | some xt =>
    if xt.runsOn cfg.chainId then
      .ready (xt.txsOf cfg.chainId)
        (match st.chainOverlay.lookup cfg.chainId with
          | some overlay => mergeOverrides ∅ overlay
          | none => ∅)
    else .noLocalTxs

def lockLocalChain (st : CoordinatorState) (id : InstanceId) : CoordinatorState :=
  st.updateXt id (fun xt => { xt with lockedChains := insert cfg.chainId xt.lockedChains })

/-- New dependencies and messages of a simulation go into the instance once per key. -/
def recordResult (xt : PendingXt) (result : SimulationResult) : PendingXt :=
  let withDeps := result.dependencies.foldl
    (fun (xt : PendingXt) dep =>
      let key := DependencyKey.ofDependency dep
      if key ∈ xt.depKeys then xt
      else { xt with depKeys := insert key xt.depKeys, dependencies := xt.dependencies ++ [dep] })
    xt
  result.outboundMessages.foldl
    (fun (xt : PendingXt) msg =>
      if containsMessage xt.outboundMessages msg then xt
      else { xt with outboundMessages := xt.outboundMessages ++ [msg] })
    withDeps

/-- The diff of a successful simulation; failed attempts leave none. -/
def keptOverrides (result : SimulationResult) : Option StateOverride :=
  if result.success then result.stateOverrides else none

/-- `record_simulation_state`: returns the overrides for the next simulation. -/
def recordSimulationState (st : CoordinatorState) (id : InstanceId) (result : SimulationResult)
    (base : StateOverride) : CoordinatorState × StateOverride :=
  if id ∈ st.pending then
    match keptOverrides result with
    | some overrides =>
      let overlay := mergeOverrides ((st.chainOverlay.lookup cfg.chainId).getD ∅) overrides
      ({ st.updateXt id (fun xt => recordResult xt result) with
          chainOverlay := st.chainOverlay.insert cfg.chainId overlay },
        mergeOverrides base overrides)
    | none => (st.updateXt id (fun xt => recordResult xt result), base)
  else (st, base)

/-- Removes one element by moving the last one into its place. -/
def swapRemove {α : Type} (l : List α) (i : Nat) : List α :=
  match l.getLast? with
  | none => []
  | some last => (l.set i last).dropLast

/-- One dependency against the mailbox: the first matching message is consumed. -/
def fulfillOne (xt : PendingXt) (dep : CrossRollupDependency) : PendingXt × Bool :=
  let key := DependencyKey.ofDependency dep
  if key ∈ xt.fulfilledDepKeys then (xt, false)
  else
    match xt.pendingMailbox.findIdx? (fun msg => matchesDependency msg dep) with
    | none => (xt, false)
    | some idx =>
      ({ xt with
          pendingMailbox := swapRemove xt.pendingMailbox idx
          fulfilledDepKeys := insert key xt.fulfilledDepKeys
          fulfilledDeps := xt.fulfilledDeps ++
            [{ dep with data := (xt.pendingMailbox[idx]?).map MailboxMessage.payload }] },
        true)

def fulfillXt (xt : PendingXt) (deps : List CrossRollupDependency) : PendingXt × Nat :=
  deps.foldl
    (fun (acc : PendingXt × Nat) dep =>
      let (xt, found) := fulfillOne acc.1 dep
      (xt, if found then acc.2 + 1 else acc.2))
    (xt, 0)

theorem fulfillXt_cons (xt : PendingXt) (dep : CrossRollupDependency)
    (deps : List CrossRollupDependency) :
    fulfillXt xt (dep :: deps) =
      ((fulfillXt (fulfillOne xt dep).1 deps).1,
        (if (fulfillOne xt dep).2 then 1 else 0) + (fulfillXt (fulfillOne xt dep).1 deps).2) := by
  have hloop : ∀ (x : PendingXt) (l : List CrossRollupDependency) (d : CrossRollupDependency),
      fulfillXt x (d :: l) =
        l.foldl (fun (acc : PendingXt × Nat) dep =>
          ((fulfillOne acc.1 dep).1, if (fulfillOne acc.1 dep).2 then acc.2 + 1 else acc.2))
          ((fulfillOne x d).1, if (fulfillOne x d).2 then 1 else 0) :=
    fun _ _ _ => rfl
  -- the loop counts on from any number
  have hcount : ∀ (l : List CrossRollupDependency) (x : PendingXt) (n : Nat),
      l.foldl (fun (acc : PendingXt × Nat) dep =>
        ((fulfillOne acc.1 dep).1, if (fulfillOne acc.1 dep).2 then acc.2 + 1 else acc.2)) (x, n) =
      ((fulfillXt x l).1, n + (fulfillXt x l).2) := by
    intro l
    induction l with
    | nil => exact fun x n => rfl
    | cons d l ih =>
      intro x n
      rw [List.foldl_cons, hloop, ih, ih]
      split_ifs
      · rw [Nat.add_assoc]
      · rw [Nat.zero_add]
  rw [hloop, hcount]

/-- `fulfill_dependencies_from_mailbox`: how many dependencies were served. -/
def fulfillDependenciesFromMailbox (st : CoordinatorState) (id : InstanceId)
    (deps : List CrossRollupDependency) : CoordinatorState × Nat :=
  match st.pending.lookup id with
  | none => (st, 0)
  | some xt =>
    let (served, added) := fulfillXt xt deps
    (st.updateXt id (fun _ => served), added)

/-- The wire form of an outbound message under the instance's raw id. -/
def wireMessage (instanceId : Bytes) (msg : CrossRollupMessage) : MailboxMessage :=
  { instanceId := instanceId
    sourceChain := msg.sourceChainId
    destinationChain := msg.destChainId
    sender := msg.sender.bytes
    receiver := msg.receiver.bytes
    label := msg.label
    payload := msg.data
    sessionId := encodeSessionId msg.sessionId }

/-- The messages not sent before, with their keys marked as sent. -/
def claimOutbound (xt : PendingXt) (outbound : List CrossRollupMessage) :
    PendingXt × List MailboxMessage :=
  outbound.foldl
    (fun (acc : PendingXt × List MailboxMessage) msg =>
      let wire := wireMessage acc.1.instanceId msg
      let key := MailboxMessageKey.ofMessage wire
      if key ∈ acc.1.sentMailboxKeys then acc
      else
        ({ acc.1 with sentMailboxKeys := insert key acc.1.sentMailboxKeys }, acc.2 ++ [wire]))
    (xt, [])

/-- The locked part of `dispatch_outbound_mailbox`; the messages are sent afterwards. -/
def dispatchOutbound (st : CoordinatorState) (id : InstanceId)
    (outbound : List CrossRollupMessage) : CoordinatorState × List MailboxMessage :=
  match st.pending.lookup id with
  | none => (st, [])
  | some xt =>
    let (claimed, toSend) := claimOutbound xt outbound
    (st.updateXt id (fun _ => claimed), toSend)

end Sidecar.Coordinator
