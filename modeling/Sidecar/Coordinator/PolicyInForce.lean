import Sidecar.Coordinator.CommitVote
import Sidecar.Framework.Beside
import Sidecar.Permissions.Stream

/-! `process_xt` beside the stream that feeds its permission engine. -/

namespace Sidecar.Coordinator

open Net Permissions

section Checks

variable {cfg : Config} {id : InstanceId} {xt : PendingXt} {log : List ProcEvent}

variable (cfg xt log) in
/-- Every local transaction has a known and allowed sender. -/
def AllAllowed : Prop := ∀ tx ∈ xt.txsOf cfg.chainId, SenderAllowed cfg xt log tx

variable (cfg xt log) in
/-- How far the permission check of the transactions of `xt` has come, as long as the instance is
pending: from the lock on it is behind `process_xt`, with a simulator or without one. -/
def CheckInv : ProcPc → Prop
  | .start | .vote false | .finished => True
  | .verify txs _ | .asked txs _ _ | .permissions txs _ => txs = xt.txsOf cfg.chainId
  | .permit txs _ involved rest => txs = xt.txsOf cfg.chainId ∧ involved = xt.rawTxs.keys ∧
      ∃ allowed, txs = allowed ++ rest ∧ ∀ tx ∈ allowed, SenderAllowed cfg xt log tx
  | _ => AllAllowed cfg xt log

theorem AllAllowed.append (h : AllAllowed cfg xt log) (events : List ProcEvent) :
    AllAllowed cfg xt (log ++ events) :=
  fun tx htx => (h tx htx).append events

theorem checkInv_afterRecord {frame : SimFrame} {result : SimulationResult}
    (h : AllAllowed cfg xt log) : CheckInv cfg xt log (afterRecord frame result) := by
  unfold afterRecord
  split_ifs
  · trivial
  · trivial
  · exact h

theorem checkInv_afterDispatch {frame : SimFrame} {result : SimulationResult}
    (h : AllAllowed cfg xt log) : CheckInv cfg xt log (afterDispatch frame result) := by
  unfold afterDispatch
  split_ifs
  · exact h
  · exact h

/-- One step of `process_xt` on the pending instance, with a permission engine. -/
theorem checkInv_step (hengine : cfg.permissionEngine = true) {reply : Reply}
    {st st' : CoordinatorState} {pc pc' : ProcPc} {events : List ProcEvent} {x : PendingXt}
    (h : procStep cfg id reply st pc = some (st', pc', events))
    (hx : st.pending.lookup id = some x) (hraw : x.rawTxs = xt.rawTxs)
    (hinv : CheckInv cfg xt log pc) : CheckInv cfg xt (log ++ events) pc' := by
  cases procStep_effect h with
  | ready hready =>
    simp only [snapshotXt, hx] at hready
    split_ifs at hready
    obtain ⟨rfl, -⟩ := Snapshot.ready.inj hready
    rw [CheckInv, PendingXt.txsOf, hraw]
    rfl
  | asks | unverified | approved => exact hinv
  | unpermissioned txs overrides hp =>
    rcases hp with hoff | hgone
    · simp [hengine] at hoff
    · simp [hx] at hgone
  | permissioned txs overrides hl =>
    obtain rfl := Option.some.inj (hx.symm.trans hl)
    exact ⟨hinv, by rw [hraw], [], rfl, by simp⟩
  | allowed txs overrides involved tx rest hdecode hallow =>
    obtain ⟨htxs, rfl, allowed, hsplit, hall⟩ := hinv
    refine ⟨htxs, rfl, allowed ++ [tx], by simp [hsplit], fun tx' htx' => ?_⟩
    rcases List.mem_append.mp htx' with hold | hnew
    · exact (hall tx' hold).append _
    · rw [List.mem_singleton.mp hnew]
      exact ⟨_, _, reply.engine, hdecode, hallow, by simp⟩
  | permitted txs overrides involved =>
    obtain ⟨htxs, -, allowed, hsplit, hall⟩ := hinv
    intro tx htx
    rw [← htxs, hsplit, List.append_nil] at htx
    exact (hall tx htx).append _
  | recorded => exact checkInv_afterRecord (AllAllowed.append hinv _)
  | nothingToSend | allSent => exact checkInv_afterDispatch (AllAllowed.append hinv _)
  | locked | unsimulated | setup | allSimulated | simulated | claimed | sent | waits | served
    | refreshed => exact AllAllowed.append hinv _
  | missing | noLocalTxs | disapproved | denied | setupGone | simulationFailed | undelivered
    | timedOut | refreshGone | voted => trivial

theorem checkInv_notified {pc : ProcPc} (h : CheckInv cfg xt log pc) :
    CheckInv cfg xt log pc.notified := by
  cases pc <;> exact h

variable (cfg id xt) in
/-- What holds of the permission check along every run. -/
def CheckRun (s : ProcSystem) : Prop :=
  GroundedRun id (fun x log pc => x.rawTxs = xt.rawTxs ∧ CheckInv cfg xt log pc)
    (AllAllowed cfg xt) s

theorem checkRun_step (hengine : cfg.permissionEngine = true) {s t : ProcSystem} {move : ProcMove}
    (h : ProcStep cfg id s move t) (hs : CheckRun cfg id xt s) : CheckRun cfg id xt t := by
  refine groundedRun_step h hs ?_ ?_ ?_ ?_
  · rintro reply st' pc' events x x' hstep hx - hsame ⟨hraw, hinv⟩
    exact ⟨hsame.rawTxs_eq.trans hraw, checkInv_step hengine hstep hx hraw hinv⟩
  · rintro op x x' - - - - hsame ⟨hraw, hinv⟩
    exact ⟨hsame.rawTxs_eq.trans hraw, hinv⟩
  · rintro x ⟨hraw, hinv⟩
    exact ⟨hraw, checkInv_notified hinv⟩
  · rintro x ⟨-, hall⟩
    exact AllAllowed.append hall _

/-- A vote for commit has every local transaction checked, whenever `process_xt` got to start. -/
theorem senderAllowed_of_cast (hengine : cfg.permissionEngine = true) {st : CoordinatorState}
    (hxt : st.pending.lookup id = some xt) {moves : List ProcMove} {t : ProcSystem}
    (hrun : Run (ProcStep cfg id) ⟨st, .start, []⟩ moves t) (hcast : true ∈ casts t.log)
    {tx : Bytes} (htx : tx ∈ xt.txsOf cfg.chainId) : SenderAllowed cfg xt t.log tx := by
  have hstart : CheckRun cfg id xt ⟨st, .start, []⟩ := by
    refine ⟨fun x hx => ⟨?_, trivial⟩, by simp [casts], fun _ => rfl⟩
    rw [Option.some.inj (hxt.symm.trans hx)]
  have hend := hrun.invariant (fun _ _ _ hi h => checkRun_step hengine h hi) hstart
  exact hend.grounds hcast tx htx

end Checks

section Policy

/-- A permission check finds the engine as the stream has left it. -/
def findsEngine (move : ProcMove) (stream : Subscription PermissionEngine) : Prop :=
  ∀ reply, move = .proc reply → reply.engine = stream.state

/-- A check by the engine is in the log. -/
def checkedBy (s : ProcSystem) (engine : PermissionEngine) : Prop :=
  ∃ tx sender involved, ProcEvent.permitted tx sender involved engine ∈ s.log

variable {cfg : Config} {id : InstanceId}

theorem checkedBy_step {s t : ProcSystem} {move : ProcMove} (h : ProcStep cfg id s move t)
    {stream : Subscription PermissionEngine} (hfinds : findsEngine move stream)
    {engine : PermissionEngine} (hchecked : checkedBy t engine) :
    checkedBy s engine ∨ engine = stream.state := by
  obtain ⟨tx, sender, involved, hmem⟩ := hchecked
  cases h with
  | notify => exact Or.inl ⟨tx, sender, involved, hmem⟩
  | env => exact Or.inl ⟨tx, sender, involved, hmem⟩
  | @proc reply st' pc' events hstep =>
    rcases List.mem_append.mp hmem with hold | hnew
    · exact Or.inl ⟨tx, sender, involved, hold⟩
    · right
      rw [← hfinds reply rfl]
      generalize s.pc = pc at hstep
      cases procStep_effect hstep with
      | allowed =>
        simp only [List.mem_singleton, ProcEvent.permitted.injEq] at hnew
        exact hnew.2.2.2
      | _ => simp at hnew

/-- Votes follow the policy in force. `process_xt` runs, with a simulator or without one, beside
everything else the coordinator does short of registering the same id anew (an instance that is
gone when its turn comes is not checked), and beside the stream of policies, which may lose its
connection, bring new policies and frames that are none at any time. When it votes for commit then
every local transaction has a sender, and at some point of this very run the stream was connected
and the last well-formed policy it had brought let that sender take part with all chains of the
instance. -/
theorem commit_votes_follow_policy (cfg : Config) (hengine : cfg.permissionEngine = true)
    (parseFrame : String → Option StreamFrame) (parseAddress : String → Option Address)
    (client : WsClient) {events : List WsEvent} {stream : Subscription PermissionEngine}
    (hstream : Run (WsStep (configStreamHandler parseFrame parseAddress) client)
      (connecting (configStreamHandler parseFrame parseAddress) client { enabled := true })
      events stream)
    (id : InstanceId) {st : CoordinatorState} {xt : PendingXt}
    (hxt : st.pending.lookup id = some xt) {moves : List (ProcMove ⊕ WsEvent)}
    {t : ProcSystem × Subscription PermissionEngine}
    (hrun : Run (Beside (ProcStep cfg id)
      (WsStep (configStreamHandler parseFrame parseAddress) client) findsEngine)
      (⟨st, .start, []⟩, stream) moves t)
    (hvote : true ∈ casts t.1.log) {tx : Bytes} (htx : tx ∈ xt.txsOf cfg.chainId) :
    ∃ sender nonce seen later data, cfg.decodeSenderNonce tx = some (sender, nonce) ∧
      sourceMoves moves = seen ++ later ∧ upAfter (events ++ seen) = true ∧
      lastSnapshot parseFrame parseAddress (events ++ seen) = some data ∧
      MayTakePart parseAddress data sender cfg.chainId xt.rawTxs.keys := by
  obtain ⟨sender, nonce, engine, hdecode, hallow, hmem⟩ :=
    senderAllowed_of_cast hengine hxt (Beside.run_reader hrun) hvote htx
  have hnone : ∀ engine, ¬checkedBy ⟨st, .start, []⟩ engine := by
    rintro engine ⟨tx, sender, involved, hmem⟩
    simp at hmem
  have hchecked : ∀ s move t stream engine, ProcStep cfg id s move t → findsEngine move stream →
      checkedBy t engine → checkedBy s engine ∨ engine = stream.state :=
    fun _ _ _ _ _ hstep hfinds hnew => checkedBy_step hstep hfinds hnew
  obtain ⟨seen, later, found, hmoves, hfound, rfl⟩ := Beside.noted_in_run (f := Subscription.state)
    hchecked hrun hnone ⟨tx, sender, xt.rawTxs.keys, hmem⟩
  have hfollows : Follows parseAddress found.state (upAfter (events ++ seen))
      (lastSnapshot parseFrame parseAddress (events ++ seen)) := by
    have hinitial : Follows parseAddress ({ enabled := true } : PermissionEngine) false none :=
      ⟨rfl, rfl, by simp, fun _ => rfl⟩
    have hall := follows_run (hstream.append hfound) hinitial
    rw [Option.or_none] at hall
    exact hall
  obtain ⟨hup, data, hdata, hmay⟩ := (hfollows.evaluateXt_iff _ _ _).mp hallow
  exact ⟨sender, nonce, seen, later, data, hdecode, hmoves, hup, hdata, hmay⟩

/-- One step of `process_xt` with the engine as it is, or one event of the stream. -/
def policyPick (cfg : Config) (id : InstanceId) (handler : MessageHandler PermissionEngine)
    (client : WsClient) (p : ProcSystem × Subscription PermissionEngine) :
    Reply ⊕ WsEvent → Option ((ProcMove ⊕ WsEvent) × (ProcSystem × Subscription PermissionEngine))
  | .inl reply =>
    let reply := { reply with engine := p.2.state }
    (procStep cfg id reply p.1.st p.1.pc).map
      (fun r => (.inl (.proc reply), (⟨r.1, r.2.1, p.1.log ++ r.2.2⟩, p.2)))
  | .inr event => (next handler client p.2 event).map (fun stream => (.inr event, (p.1, stream)))

theorem beside_of_policyPick {handler : MessageHandler PermissionEngine} {client : WsClient}
    (p : ProcSystem × Subscription PermissionEngine) (pick : Reply ⊕ WsEvent)
    (move : ProcMove ⊕ WsEvent) (q : ProcSystem × Subscription PermissionEngine)
    (h : policyPick cfg id handler client p pick = some (move, q)) :
    Beside (ProcStep cfg id) (WsStep handler client) findsEngine p move q := by
  cases pick with
  | inl reply =>
    obtain ⟨⟨st', pc', events⟩, hstep, he⟩ := Option.map_eq_some_iff.mp h
    obtain ⟨rfl, rfl⟩ := Prod.mk.inj he
    refine .reads (.proc hstep) ?_
    intro reply' hreply
    obtain rfl := ProcMove.proc.inj hreply
    rfl
  | inr event =>
    obtain ⟨stream, hstep, he⟩ := Option.map_eq_some_iff.mp h
    obtain ⟨rfl, rfl⟩ := Prod.mk.inj he
    exact .moves hstep

def policyConfig : Config :=
  { checkedConfig with decodeSenderNonce := fun _ => some (FixedBytes.repeatByte 20 0x11, 0) }

/-- A policy comes, `process_xt` starts, a broken policy comes, `process_xt` checks the sender and
goes on to its vote, and the connection is lost. -/
def policyPicks : List (Reply ⊕ WsEvent) :=
  [.inr .connected, .inr (.text restrictedPolicy)] ++ List.replicate 3 (.inl goodReply) ++
    [.inr (.text brokenPolicy)] ++ List.replicate 10 (.inl goodReply) ++ [.inr .idleTimeout]

theorem commit_votes_follow_policy_restricted :
    ∃ (moves : List (ProcMove ⊕ WsEvent)) (t : ProcSystem × Subscription PermissionEngine),
      Run (Beside (ProcStep policyConfig "xt-2-1")
        (WsStep (configStreamHandler parsePolicy parseWallet) ⟨"ws://policy"⟩) findsEngine)
        (⟨processedState, .start, []⟩, connecting (configStreamHandler parsePolicy parseWallet)
          ⟨"ws://policy"⟩ { enabled := true }) moves t ∧
      casts t.1.log = [true] ∧
      ∃ sender nonce seen later data,
        policyConfig.decodeSenderNonce [0xab, 0xcd] = some (sender, nonce) ∧
        sourceMoves moves = seen ++ later ∧ upAfter seen = true ∧
        lastSnapshot parsePolicy parseWallet seen = some data ∧
        MayTakePart parseWallet data sender 1 [1, 2] := by
  have hexec : (execAll (policyPick policyConfig "xt-2-1"
      (configStreamHandler parsePolicy parseWallet) ⟨"ws://policy"⟩) (fun _ _ => true) policyPicks
      (⟨processedState, .start, []⟩, connecting (configStreamHandler parsePolicy parseWallet)
        ⟨"ws://policy"⟩ { enabled := true })).map (fun t => casts t.1.log) = some [true] := by
    decide +kernel
  obtain ⟨t, ht, hcast⟩ := Option.map_eq_some_iff.mp hexec
  obtain ⟨moves, hrun⟩ := run_execAll_free beside_of_policyPick ht
  have hvote : true ∈ casts t.1.log := by simp [hcast]
  exact ⟨moves, t, hrun, hcast, commit_votes_follow_policy policyConfig rfl parsePolicy
    parseWallet ⟨"ws://policy"⟩ (.nil _) "xt-2-1" rfl hrun hvote (List.mem_singleton_self _)⟩

end Policy

end Sidecar.Coordinator
