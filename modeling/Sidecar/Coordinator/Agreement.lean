import Sidecar.Coordinator.Peer
import Sidecar.Framework.Network

namespace Sidecar.Coordinator

open TaskSystem

section Network

/-- One sidecar for each chain. -/
abbrev Net := ChainId → World

/-- The call that a peer gets from what the sidecar of chain `o` sends. -/
def peerRequest (o : ChainId) : Event → Option Request
  | .forwardXt id txs originSeq => some (.forwardedXt id txs o originSeq)
  | .peerVote id vote => some (.peerVote id o vote)
  | _ => none

/-- The calls that do not come from a peer, without a publisher, a rollback or a cleanup. -/
def Request.fromOutside : Request → Bool
  | .submitXt _ _ => true
  | .confirmIncluded _ => true
  | .mailboxMessage _ => true
  | _ => false

def Move.standalone : Move → Bool
  | .arrive request => request.fromOutside
  | _ => true

inductive NetMove where
  | node (n : ChainId) (move : Move)
  | deliver (o n : ChainId) (request : Request)

/-- The peers of a finite set run beside each other. What one of them has sent arrives at any
other at any later time, in any order, never or more than once. -/
inductive NetStep (cfg : ChainId → Config) (members : Finset ChainId) : Net → NetMove → Net → Prop
  | node {net : Net} {n : ChainId} {move : Move} {w' : World} (hn : n ∈ members)
      (h : WorldStep (cfg n) (net n) move w') (halone : move.standalone = true) :
      NetStep cfg members net (.node n move) (Function.update net n w')
  | deliver {net : Net} {o n : ChainId} {e : Event} {request : Request} (ho : o ∈ members)
      (hn : n ∈ members) (hne : o ≠ n) (he : e ∈ (net o).log)
      (hr : peerRequest o e = some request) :
      NetStep cfg members net (.deliver o n request)
        (Function.update net n { net n with tasks := (net n).tasks ++ [.request request] })

def Net.initial : Net := fun _ => World.initial

/-- No two sidecars record opposite decisions for an instance. -/
def Agreement (net : Net) : Prop :=
  ∀ n m id xt xt', (net n).shared.st.pending.lookup id = some xt →
    (net m).shared.st.pending.lookup id = some xt' →
    ¬(xt.decision = some true ∧ xt'.decision = some false)

/-- Whoever submits at a sidecar has transactions for its chain. -/
def NetMove.originTakesPart : NetMove → Bool
  | .node n (.arrive (.submitXt txs _)) => submitsFor txs n
  | _ => true

end Network

section Invariant

variable {net : Net}

/-- What every sidecar knows, with the logs of all of them. -/
def NetInv (net : Net) : Prop := ∀ n, PeerInv n (shownBy TaskSystem.log net) (net n)

theorem foreign_of_netInv (hi : NetInv net) {o : ChainId} {id : InstanceId} {txs : RawTxs}
    {originSeq : SequenceNumber} (h : .forwardXt id txs originSeq ∈ shownBy TaskSystem.log net o) :
    ∃ k, id = InstanceId.standalone o k := by
  obtain ⟨⟨k, -, he⟩, -⟩ := (hi o).forwards id txs (mem_dealt_of_log h rfl)
  exact ⟨k, he⟩

/-- Every entry has the transactions of the one at the sidecar that gave the identifier. -/
theorem origin_entry (hi : NetInv net) {n : ChainId} {id : InstanceId} {xt : PendingXt}
    (hl : (net n).shared.st.pending.lookup id = some xt) :
    ∃ o k x, id = InstanceId.standalone o k ∧ (net o).shared.st.pending.lookup id = some x ∧
      ∀ c, xt.txsOf c = x.txsOf c := by
  rcases (hi n).origins id xt hl with ⟨k, -, he⟩ | ⟨o, txs, originSeq, -, hlog, htxs⟩
  · exact ⟨n, k, xt, he, hl, fun _ => rfl⟩
  · obtain ⟨⟨k, -, he⟩, x, hx, hraw⟩ := (hi o).forwards id txs (mem_dealt_of_log hlog rfl)
    have hagree : ∀ c, xt.txsOf c = x.txsOf c := by
      intro c
      rw [htxs c, PendingXt.txsOf, hraw]
    exact ⟨o, k, x, he, hx, hagree⟩

theorem runsOn_agrees (hi : NetInv net) {n m : ChainId} {id : InstanceId} {xt xt' : PendingXt}
    (hl : (net n).shared.st.pending.lookup id = some xt)
    (hl' : (net m).shared.st.pending.lookup id = some xt') (c : ChainId) :
    xt.runsOn c = xt'.runsOn c := by
  obtain ⟨o, k, x, he, hx, htxs⟩ := origin_entry hi hl
  obtain ⟨o', k', x', he', hx', htxs'⟩ := origin_entry hi hl'
  obtain ⟨rfl, -⟩ := InstanceId.standalone_inj (he.symm.trans he')
  obtain rfl := Option.some.inj (hx.symm.trans hx')
  rw [PendingXt.runsOn, PendingXt.runsOn, htxs c, htxs' c]

/-- The vote a sidecar counts for a chain is the one that the chain's sidecar has cast. -/
theorem cast_of_voteOf (hi : NetInv net) {n c : ChainId} {id : InstanceId} {xt : PendingXt}
    {vote : Bool} (hl : (net n).shared.st.pending.lookup id = some xt)
    (hv : voteOf n xt c = some vote) :
    ∃ x, (net c).shared.st.pending.lookup id = some x ∧ x.localVote = some vote := by
  unfold voteOf at hv
  split_ifs at hv with hc
  · rw [hc]
    exact ⟨xt, hl, hv⟩
  · have hlog := ((hi n).peerVotes id xt hl c vote hv).2
    exact (hi c).ballots id vote (mem_dealt_of_log hlog rfl)

/-- Whoever has voted takes part, by any sidecar's account. -/
theorem takesPart_of_cast (hi : NetInv net) {n c : ChainId} {id : InstanceId} {xt x : PendingXt}
    {vote : Bool} (hl : (net n).shared.st.pending.lookup id = some xt)
    (hx : (net c).shared.st.pending.lookup id = some x) (hv : x.localVote = some vote) :
    c ∈ xt.rawTxs := by
  have hruns := (hi c).localVotes id x hx (by simp [hv])
  rw [← runsOn_agrees hi hl hx] at hruns
  exact mem_rawTxs_of_runsOn hruns

theorem agreement_of_netInv (hi : NetInv net) : Agreement net := by
  intro n m id xt xt' hl hl' hd
  obtain ⟨c, hc⟩ := (hi m).grounded id xt' hl' hd.2
  obtain ⟨x, hx, hfalse⟩ := cast_of_voteOf hi hl' hc
  have hpart := takesPart_of_cast hi hl hx hfalse
  have hcommit := ((hi n).tallied id xt hl).valid hd.1 c (AList.mem_keys.mp hpart)
  obtain ⟨x', hx', htrue⟩ := cast_of_voteOf hi hl hcommit
  obtain rfl := Option.some.inj (hx.symm.trans hx')
  simp [hfalse] at htrue

end Invariant

section Step

variable {cfg : ChainId → Config} {members : Finset ChainId} {net : Net}

theorem sound_notified {n : ChainId} {logs : ChainId → List Event} {t : Task}
    (h : t.standalone = true ∧ Backed n logs t) :
    t.notified.standalone = true ∧ Backed n logs t.notified := by
  cases t <;> exact h

/-- The calls that come in are as they were sent. -/
theorem sound_arrive {n : ChainId} {logs : ChainId → List Event} {w : World} {request : Request}
    (hi : PeerInv n logs w) (hr : request.standalone = true)
    (hb : Backed n logs (.request request)) :
    PeerInv n logs { w with tasks := w.tasks ++ [.request request] } := by
  have htasks : ∀ t ∈ w.tasks ++ [.request request], t.standalone = true ∧ Backed n logs t := by
    intro t ht
    rcases List.mem_append.mp ht with hold | hnew
    · exact hi.tasks t hold
    · obtain rfl := List.mem_singleton.mp hnew
      exact ⟨hr, hb⟩
  exact peerInv_quiet (quietMove_arrive w request) htasks hi

theorem peerInv_move {n : ChainId} {move : Move} {w' : World} (hi : NetInv net)
    (hc : (cfg n).chainId = n) (hp : (cfg n).publisher = false)
    (h : WorldStep (cfg n) (net n) move w') (halone : move.standalone = true)
    (hpart : (NetMove.node n move).originTakesPart = true) : PeerInv n (shownBy TaskSystem.log net) w' := by
  cases h with
  | arrive request =>
    cases request with
    | submitXt txs waiter => exact sound_arrive (hi n) rfl hpart
    | confirmIncluded ids => exact sound_arrive (hi n) rfl trivial
    | mailboxMessage msg => exact sound_arrive (hi n) rfl trivial
    | _ => simp [Move.standalone, Request.fromOutside] at halone
  | connection up => exact peerInv_quiet (quietMove_connection (net n) up) (hi n).tasks (hi n)
  | run hr =>
    cases hr with
    | intro htasks hstep =>
      have hpart : ∀ id xt c vote, (net n).shared.st.pending.lookup id = some xt → c ≠ n →
          .peerVote id vote ∈ shownBy TaskSystem.log net c → c ∈ xt.rawTxs := by
        intro id xt c vote hl _ hlog
        obtain ⟨x, hx, hv⟩ := (hi c).ballots id vote (mem_dealt_of_log hlog rfl)
        exact takesPart_of_cast hi hl hx hv
      exact PeerStep.peerInv ⟨hc, hp, htasks, hstep, hi n,
        fun o id txs originSeq _ hlog => foreign_of_netInv hi hlog, hpart⟩
  | @notify before after htasks =>
    have hsound : ∀ t ∈ (before ++ after).map Task.notified, t.standalone = true ∧
        Backed n (shownBy TaskSystem.log net) t := by
      intro t ht
      obtain ⟨u, hu, rfl⟩ := List.mem_map.mp ht
      have hmem : u ∈ (net n).tasks := by
        rw [htasks]
        simp only [List.mem_append, List.mem_cons] at hu ⊢
        tauto
      exact sound_notified ((hi n).tasks u hmem)
    exact peerInv_quiet (quietMove_notify htasks) hsound (hi n)

theorem peerInv_deliver {o n : ChainId} {e : Event} {request : Request} (hi : NetInv net)
    (hne : o ≠ n) (he : e ∈ (net o).log) (hr : peerRequest o e = some request) :
    PeerInv n (shownBy TaskSystem.log net)
      { net n with tasks := (net n).tasks ++ [.request request] } := by
  cases e with
  | forwardXt id txs originSeq =>
    obtain rfl := Option.some.inj hr
    exact sound_arrive (hi n) rfl ⟨hne, he⟩
  | peerVote id vote =>
    obtain rfl := Option.some.inj hr
    exact sound_arrive (hi n) rfl ⟨hne, he⟩
  | _ => simp [peerRequest] at hr

theorem log_worldStep {c : Config} {w w' : World} {move : Move} (h : WorldStep c w move w') :
    w.log ⊆ w'.log := by
  rcases worldStep_cases h with hq | ⟨t, reply, before, after, next, sh', es, -, -, -, rfl⟩
  · rw [hq.log_eq]
    exact List.Subset.refl _
  · exact List.subset_append_left _ _

theorem netInv_step
    (hcfg : ∀ n ∈ members, (cfg n).chainId = n ∧ (cfg n).publisher = false) {move : NetMove}
    {net' : Net} (h : NetStep cfg members net move net') (hpart : move.originTakesPart = true)
    (hi : NetInv net) : NetInv net' := by
  cases h with
  | node hn hstep halone =>
    exact invariant_update (I := fun logs n w => PeerInv n logs w) peerInv_mono
      (log_worldStep hstep) (peerInv_move hi (hcfg _ hn).1 (hcfg _ hn).2 hstep halone hpart) hi
  | deliver ho hn hne he hr =>
    exact invariant_update (I := fun logs n w => PeerInv n logs w) peerInv_mono
      (List.Subset.refl _) (peerInv_deliver hi hne he hr) hi

/-- Sidecars without a publisher agree on every instance, as long as each of them is only given
submissions in which its own chain takes part. -/
theorem standalone_agreement (members : Finset ChainId) (cfg : ChainId → Config)
    (hcfg : ∀ n ∈ members, (cfg n).chainId = n ∧ (cfg n).publisher = false)
    {moves : List NetMove} {net : Net}
    (hrun : Run (fun net move net' => NetStep cfg members net move net' ∧
      move.originTakesPart = true) Net.initial moves net) : Agreement net := by
  have hinv := hrun.invariant (I := NetInv)
    (fun _ _ _ hi hstep => netInv_step hcfg hstep.1 hstep.2 hi) (fun _ => peerInv_initial)
  exact agreement_of_netInv hinv

end Step

section Exec

/-- A move of the network, with the task or the event that is sent named by its position. -/
inductive NetPick where
  | node (n : ChainId) (pick : Pick)
  | deliver (o n : ChainId) (i : Nat)

def netPickStep (cfg : ChainId → Config) (members : Finset ChainId) (net : Net) :
    NetPick → Option (NetMove × Net)
  | .node n pick =>
    (pickStep (cfg n) (net n) pick).bind (fun r =>
      if n ∈ members ∧ r.1.standalone = true then
        some (.node n r.1, Function.update net n r.2)
      else none)
  | .deliver o n i =>
    ((net o).log[i]?.bind (peerRequest o)).bind (fun request =>
      if o ∈ members ∧ n ∈ members ∧ o ≠ n then
        some (.deliver o n request,
          Function.update net n { net n with tasks := (net n).tasks ++ [.request request] })
      else none)

theorem netStep_of_pick {cfg : ChainId → Config} {members : Finset ChainId} (net : Net)
    (p : NetPick) (m : NetMove) (net' : Net) (h : netPickStep cfg members net p = some (m, net')) :
    NetStep cfg members net m net' := by
  cases p with
  | node n pick =>
    obtain ⟨r, hr, he⟩ := Option.bind_eq_some_iff.mp h
    split_ifs at he with hc
    obtain ⟨rfl, rfl⟩ := Prod.mk.inj (Option.some.inj he)
    exact .node hc.1 (worldStep_of_pick _ _ _ _ hr) hc.2
  | deliver o n i =>
    obtain ⟨request, hr, he⟩ := Option.bind_eq_some_iff.mp h
    split_ifs at he with hc
    obtain ⟨rfl, rfl⟩ := Prod.mk.inj (Option.some.inj he)
    obtain ⟨e, hlog, hreq⟩ := Option.bind_eq_some_iff.mp hr
    exact .deliver hc.1 hc.2.1 hc.2.2 (List.mem_of_getElem? hlog) hreq

def peerConfig (n : ChainId) : Config := { Config.bare n with peerCoordinator := true }

def nodeRuns (n : ChainId) (i k : Nat) : List NetPick := List.replicate k (.node n (.run i {}))

/-- The instance of chains 1 and 2 arrives from chain `o` and is voted on. -/
def participantPicks (o n : ChainId) : List NetPick := .deliver o n 1 :: nodeRuns n 0 11

/-- Chain 1 submits the instance, chain 2 takes part in it, and both get the other's vote. -/
def memberOriginPicks : List NetPick :=
  [.node 1 (.arrive (.submitXt twoChainTxs 0))] ++ nodeRuns 1 0 4 ++ nodeRuns 1 1 2 ++
    nodeRuns 1 0 8 ++ participantPicks 1 2 ++
    [.deliver 1 2 2, .node 2 (.run 0 {}), .deliver 2 1 1, .node 1 (.run 0 {})]

theorem standalone_agreement_committed : ∃ moves net,
    Run (fun net move net' => NetStep peerConfig {1, 2} net move net' ∧
      move.originTakesPart = true) Net.initial moves net ∧
    decisionOf (net 1).shared.st "xt-1-1" = some true ∧
    decisionOf (net 2).shared.st "xt-1-1" = some true ∧ Agreement net := by
  have hexec : (execAll (netPickStep peerConfig {1, 2})
      (fun _ move => decide (move.originTakesPart = true)) memberOriginPicks Net.initial).map
        (fun net => (decisionOf (net 1).shared.st "xt-1-1",
          decisionOf (net 2).shared.st "xt-1-1")) = some (some true, some true) := by
    decide
  obtain ⟨net, hnet, hd⟩ := Option.map_eq_some_iff.mp hexec
  obtain ⟨hd1, hd2⟩ := Prod.mk.inj hd
  obtain ⟨moves, hrun⟩ := run_execAll netStep_of_pick hnet
  exact ⟨moves, net, hrun, hd1, hd2,
    standalone_agreement {1, 2} peerConfig (fun _ _ => ⟨rfl, rfl⟩) hrun⟩

/-- Chain 3 submits an instance of chains 1 and 2. These commit; chain 3 has nothing to run and
votes abort. -/
def outsideOriginPicks : List NetPick :=
  [.node 3 (.arrive (.submitXt twoChainTxs 0))] ++ nodeRuns 3 0 3 ++ nodeRuns 3 1 2 ++
    participantPicks 3 1 ++ participantPicks 3 2 ++ [.deliver 2 1 1, .node 1 (.run 0 {})] ++
    nodeRuns 3 0 4

theorem outside_origin_disagrees : ∃ moves net,
    Run (NetStep peerConfig {1, 2, 3}) Net.initial moves net ∧
    decisionOf (net 1).shared.st "xt-3-1" = some true ∧
    decisionOf (net 3).shared.st "xt-3-1" = some false ∧ ¬Agreement net := by
  have hexec : (execAll (netPickStep peerConfig {1, 2, 3}) (fun _ _ => true) outsideOriginPicks
      Net.initial).map (fun net => (decisionOf (net 1).shared.st "xt-3-1",
        decisionOf (net 3).shared.st "xt-3-1")) = some (some true, some false) := by
    decide
  obtain ⟨net, hnet, hd⟩ := Option.map_eq_some_iff.mp hexec
  obtain ⟨hd1, hd3⟩ := Prod.mk.inj hd
  obtain ⟨moves, hrun⟩ := run_execAll_free netStep_of_pick hnet
  have hdisagree : ¬Agreement net := by
    intro hagree
    obtain ⟨xt, hl, hxt⟩ := Option.bind_eq_some_iff.mp hd1
    obtain ⟨xt', hl', hxt'⟩ := Option.bind_eq_some_iff.mp hd3
    exact hagree 1 3 "xt-3-1" xt xt' hl hl' ⟨hxt, hxt'⟩
  exact ⟨moves, net, hrun, hd1, hd3, hdisagree⟩

end Exec

end Sidecar.Coordinator
