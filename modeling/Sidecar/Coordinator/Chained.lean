import Sidecar.Coordinator.CommitVote
import Sidecar.Coordinator.MailboxLedger
import Sidecar.Coordinator.Overlay
import Sidecar.Simulation.Node

namespace Sidecar.Coordinator

open Mailbox Simulation Attempt

section Fulfilled

end Fulfilled

section Replay

variable (client : RpcClient) (exec : EthTransactionRequest → ChainState → ChainState)
  (chainId : ChainId)

/-- A transaction on a chain that has been given the messages it waits for. -/
def runDelivered (s : ChainState) (step : Bytes × List CrossRollupDependency) : ChainState :=
  runTx client exec step.1 (deliver client chainId step.2 s)

/-- The transaction of a successful simulation, and what it was given. -/
def executed : ProcEvent → Option (Bytes × List CrossRollupDependency)
  | .simulated _ tx _ fulfilled (.ok result) => if result.success then some (tx, fulfilled) else none
  | _ => none

/-- The successful simulations of a log, run on the chain one after the other. -/
def replay (s : ChainState) (log : List ProcEvent) : ChainState :=
  (log.filterMap executed).foldl (runDelivered client exec chainId) s

/-- The overrides that the loop has merged stand for the chain after the successes so far, up to the
slots of the messages in hand. -/
structure Follows (pending : ChainState) (txs : List Bytes) (base : StateOverride)
    (log : List ProcEvent) (fulfilled : List CrossRollupDependency) : Prop where
  accepted : OneStorage (stateAfter mergeOverrides base (attempts log))
  agrees : (sets (deliveredOverrides client chainId fulfilled)).AgreeOff
    (applyOverrides (stateAfter mergeOverrides base (attempts log)) pending)
    (replay client exec chainId (applyOverrides base pending) log)
  inOrder : (log.filterMap executed).map Prod.fst = txs.take (completed (attempts log))
  grows : ((log.filterMap executed).map Prod.snd ++ [fulfilled]).Pairwise (· <+: ·)

variable {client exec chainId} {pending : ChainState} {txs : List Bytes} {base : StateOverride}
  {log : List ProcEvent} {fulfilled : List CrossRollupDependency}

/-- A simulation that is shown as an event is an attempt. -/
theorem executed_of_attempts {events : List ProcEvent} (h : attempts events = []) :
    events.filterMap executed = [] := by
  unfold attempts at h
  rw [List.filterMap_eq_nil_iff] at h ⊢
  intro e he
  have hnone := h e he
  cases e with
  | simulated index tx overrides fulfilled outcome => cases outcome <;> simp [attemptOf] at hnone
  | _ => rfl

theorem Follows.append (h : Follows client exec chainId pending txs base log fulfilled)
    {events : List ProcEvent} (he : attempts events = []) :
    Follows client exec chainId pending txs base (log ++ events) fulfilled := by
  have hattempts : attempts (log ++ events) = attempts log := attempts_append_other he
  have hexecuted : (log ++ events).filterMap executed = log.filterMap executed := by
    rw [List.filterMap_append, executed_of_attempts he, List.append_nil]
  refine ⟨?_, ?_, ?_, ?_⟩
  · rw [hattempts]
    exact h.accepted
  · rw [hattempts, replay, hexecuted]
    exact h.agrees
  · rw [hattempts, hexecuted]
    exact h.inOrder
  · rw [hexecuted]
    exact h.grows

theorem Follows.refresh (h : Follows client exec chainId pending txs base log fulfilled)
    {fulfilled' : List CrossRollupDependency} (hgrow : fulfilled <+: fulfilled') :
    Follows client exec chainId pending txs base log fulfilled' := by
  refine ⟨h.accepted, h.agrees.mono ?_, h.inOrder, ?_⟩
  · exact deliveredOverrides_covers client chainId hgrow.subset
  · have hpairs := List.pairwise_append.mp h.grows
    refine List.pairwise_append.mpr ⟨hpairs.1, List.pairwise_singleton _ _, ?_⟩
    intro a ha b hb
    rw [List.mem_singleton.mp hb]
    exact (hpairs.2.2 a ha fulfilled (List.mem_singleton_self _)).trans hgrow

/-- The state a simulation is traced on is that of the chain, with the messages delivered. -/
theorem Follows.traced (h : Follows client exec chainId pending txs base log fulfilled) :
    applyOverrides (tracedOverrides client chainId
        (stateAfter mergeOverrides base (attempts log)) fulfilled) pending =
      deliver client chainId fulfilled
        (replay client exec chainId (applyOverrides base pending) log) := by
  rw [applyOverrides_traced]
  exact h.agrees.apply_eq

/-- The overrides with what a simulation leaves merged in, as a state. -/
theorem applyOverrides_kept (overrides : StateOverride) (change : Option StateOverride)
    (s : ChainState) :
    applyOverrides (change.elim overrides (mergeOverrides overrides)) s =
      applyOverrides (change.getD ∅) (applyOverrides overrides s) := by
  cases change with
  | none =>
    show applyOverrides overrides s = applyOverrides ∅ (applyOverrides overrides s)
    unfold applyOverrides
    rw [sets_empty]
    rfl
  | some d =>
    show applyOverrides (mergeOverrides overrides d) s = _
    unfold applyOverrides
    rw [sets_mergeOverrides, Patch.apply_andThen]
    rfl

/-- A failed simulation leaves the loop where it was. -/
theorem Follows.failed (h : Follows client exec chainId pending txs base log fulfilled)
    {index : Nat} {tx : Bytes} {overrides : StateOverride} {result : SimulationResult}
    (hfails : result.success = false) :
    Follows client exec chainId pending txs base
      (log ++ [.simulated index tx overrides fulfilled (.ok result)]) fulfilled := by
  have hattempts : attempts (log ++ [.simulated index tx overrides fulfilled (.ok result)]) =
      attempts log ++ [⟨index, tx, overrides, false, result.stateOverrides⟩] := by
    rw [attempts_append, ← hfails]
    rfl
  have hexecuted : List.filterMap executed
      (log ++ [.simulated index tx overrides fulfilled (.ok result)]) = log.filterMap executed := by
    have hnone : executed (.simulated index tx overrides fulfilled (.ok result)) = none :=
      if_neg (by simp [hfails])
    rw [List.filterMap_append, List.filterMap_cons_none hnone, List.filterMap_nil, List.append_nil]
  have hafter : stateAfter mergeOverrides base
      (attempts (log ++ [.simulated index tx overrides fulfilled (.ok result)])) =
        stateAfter mergeOverrides base (attempts log) := by
    rw [hattempts, stateAfter_snoc]
    rfl
  refine ⟨?_, ?_, ?_, ?_⟩
  · rw [hafter]
    exact h.accepted
  · rw [hafter, replay, hexecuted]
    exact h.agrees
  · rw [hattempts, hexecuted, completed_snoc]
    exact h.inOrder
  · rw [hexecuted]
    exact h.grows

theorem Follows.succeeded {node : Node} (hnode : RunsCalls node pending exec)
    (h : Follows client exec chainId pending txs base log fulfilled) {index : Nat} {tx : Bytes}
    (hindex : index = completed (attempts log)) (htx : txs[index]? = some tx)
    {result : SimulationResult}
    (hresult : simulateWithMailbox client node chainId tx
      (stateAfter mergeOverrides base (attempts log)) fulfilled = .ok result)
    (hsuccess : result.success = true) :
    Follows client exec chainId pending txs base
      (log ++ [.simulated index tx (stateAfter mergeOverrides base (attempts log)) fulfilled
        (.ok result)]) fulfilled := by
  rw [simulateWithMailbox_eq] at hresult
  obtain ⟨hruns, hone⟩ := simulate_runs hnode
    (oneStorage_traced client chainId h.accepted fulfilled) hresult
  rw [applyOverrides_traced] at hruns
  have haccepted := h.accepted
  have hagrees := h.agrees
  generalize hover : stateAfter mergeOverrides base (attempts log) = overrides at *
  -- what the event adds to the two accounts
  have hattempts : attempts (log ++ [.simulated index tx overrides fulfilled (.ok result)]) =
      attempts log ++ [⟨index, tx, overrides, true, result.stateOverrides⟩] := by
    rw [attempts_append, ← hsuccess]
    rfl
  have hexecuted : List.filterMap executed
      (log ++ [.simulated index tx overrides fulfilled (.ok result)]) =
        log.filterMap executed ++ [(tx, fulfilled)] := by
    have hsome : executed (.simulated index tx overrides fulfilled (.ok result)) =
        some (tx, fulfilled) := if_pos hsuccess
    rw [List.filterMap_append, List.filterMap_cons_some hsome, List.filterMap_nil]
  have hafter : stateAfter mergeOverrides base
      (attempts (log ++ [.simulated index tx overrides fulfilled (.ok result)])) =
        result.stateOverrides.elim overrides (mergeOverrides overrides) := by
    rw [hattempts, stateAfter_snoc, hover]
    rfl
  refine ⟨?_, ?_, ?_, ?_⟩
  · rw [hafter]
    cases hchange : result.stateOverrides with
    | none => exact haccepted
    | some d =>
      rw [hchange] at hone
      exact oneStorage_mergeOverrides haccepted hone
  · rw [hafter, applyOverrides_kept, replay, hexecuted, List.foldl_append]
    exact hagrees.step (fun _ hc => hc) hruns
  · rw [hattempts, hexecuted, completed_snoc, List.map_append, h.inOrder, if_pos rfl, ← hindex,
      List.take_add_one, htx]
    rfl
  · rw [hexecuted, List.map_append]
    refine List.pairwise_append.mpr ⟨h.grows, List.pairwise_singleton _ _, ?_⟩
    intro a ha b hb
    rw [List.mem_singleton.mp hb]
    rcases List.mem_append.mp ha with hold | hlast
    · exact (List.pairwise_append.mp h.grows).2.2 a hold fulfilled (List.mem_singleton_self _)
    · rw [List.mem_singleton.mp hlast]

end Replay

section Invariant

variable (client : RpcClient) (node : Node)
  (exec : EthTransactionRequest → ChainState → ChainState) (chainId : ChainId)
  (pending : ChainState) (txs : List Bytes) (base : StateOverride)

variable {client node exec chainId pending txs base}

end Invariant

section Step

variable {client : RpcClient} {node : Node}
  {exec : EthTransactionRequest → ChainState → ChainState} {pending : ChainState} {cfg : Config}
  {id : InstanceId} {xt x : PendingXt} {base : StateOverride} {log : List ProcEvent} {reply : Reply}
  {st st' : CoordinatorState} {pc pc' : ProcPc} {events : List ProcEvent}

end Step

section Run

variable {client : RpcClient} {node : Node}
  {exec : EthTransactionRequest → ChainState → ChainState} {pending : ChainState} {cfg : Config}
  {id : InstanceId} {xt : PendingXt} {base : StateOverride}

end Run

section Example

/-- What the client answers when `process_xt` asks for a simulation. -/
def clientReply (client : RpcClient) (node : Node) (cfg : Config) (s : ProcSystem) : Reply :=
  match s.pc with
  | .simulate frame =>
    { simulation := simulateWithMailbox client node cfg.chainId
        (frame.txs[frame.index]?.getD []) frame.overrides frame.fulfilled }
  | _ => {}

def clientStep (client : RpcClient) (node : Node) (cfg : Config) (id : InstanceId) (s : ProcSystem)
    (_ : Unit) : Option (ProcMove × ProcSystem) :=
  (procStep cfg id (clientReply client node cfg s) s.st s.pc).map (fun r =>
    (.proc (clientReply client node cfg s), ⟨r.1, r.2.1, s.log ++ r.2.2⟩))

end Example

end Sidecar.Coordinator
