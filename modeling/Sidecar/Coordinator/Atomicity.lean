import Sidecar.Coordinator.Agreement
import Sidecar.Coordinator.Duties

namespace Sidecar.Coordinator

open TaskSystem

section Orders

variable {cfg : Config} {reply : TaskReply} {sh sh' : Shared} {t : Task} {next : List Task}
  {es : List Event}

/-- What a task shows of its commands it had to send. -/
theorem orderEvents_step (h : TaskEffect cfg reply sh sh' t next es) {o : InstanceId × Bool}
    (ho : o ∈ es.filterMap orderEvent) : o ∈ t.orders := by
  cases h with
  | releaseSent id txs resume hn =>
    obtain rfl : o = (id, true) := by simpa [orderEvent] using ho
    exact List.mem_cons_self
  | abortSent id resume hc hn =>
    obtain rfl : o = (id, false) := by simpa [orderEvent] using ho
    exact List.mem_cons_self
  | processed id pc pc' events =>
    obtain ⟨e, he, heq⟩ := List.mem_filterMap.mp ho
    obtain ⟨event, -, rfl⟩ := List.mem_map.mp he
    simp [orderEvent] at heq
  | resolved fingerprint result after =>
    obtain ⟨e, he, heq⟩ := List.mem_filterMap.mp ho
    obtain ⟨waiter, -, rfl⟩ := List.mem_map.mp he
    simp [orderEvent] at heq
  | noncesReset waiters =>
    obtain ⟨e, he, heq⟩ := List.mem_filterMap.mp ho
    obtain ⟨waiter, -, rfl⟩ := List.mem_map.mp he
    simp [orderEvent] at heq
  | _ => simp [orderEvent] at ho

end Orders

section Backing

/-- The sidecar of chain `n` or one whose vote it has got has voted against the instance. -/
def VotedDown (n : ChainId) (logs : ChainId → List Event) (w : World) (id : InstanceId) : Prop :=
  (∃ xt, w.shared.st.pending.lookup id = some xt ∧ xt.localVote = some false) ∨
    ∃ c, c ≠ n ∧ .peerVote id false ∈ logs c

/-- The commands for the builder have their grounds: a release an instance that is committed, an
abort a vote against it. -/
structure OrdersBacked (n : ChainId) (logs : ChainId → List Event) (w : World) : Prop where
  keyed : KeyedById w.shared.st
  released : ∀ id, (id, true) ∈ w.commands →
    ∃ xt, w.shared.st.pending.lookup id = some xt ∧ xt.runsOn n = true ∧ xt.decision = some true
  aborted : ∀ id, (id, false) ∈ w.commands → VotedDown n logs w id

variable {n : ChainId} {logs logs' : ChainId → List Event} {w w' : World}

theorem VotedDown.mono (hsub : ∀ k, logs k ⊆ logs' k) {id : InstanceId}
    (h : VotedDown n logs w id) : VotedDown n logs' w id := by
  rcases h with hown | ⟨c, hc, hlog⟩
  · exact Or.inl hown
  · exact Or.inr ⟨c, hc, hsub c hlog⟩

theorem OrdersBacked.mono (hsub : ∀ k, logs k ⊆ logs' k) (h : OrdersBacked n logs w) :
    OrdersBacked n logs' w :=
  ⟨h.keyed, h.released, fun id hid => (h.aborted id hid).mono hsub⟩

theorem ordersBacked_initial : OrdersBacked n logs World.initial :=
  ⟨keyedById_default, fun _ hid => absurd hid List.not_mem_nil,
    fun _ hid => absurd hid List.not_mem_nil⟩

theorem ordersBacked_quiet (h : QuietMove w w') (hi : OrdersBacked n logs w) :
    OrdersBacked n logs w' := by
  have hsame : w'.commands = w.commands := h.dealt_eq lasting_orders
  refine ⟨?_, fun id hid => ?_, fun id hid => ?_⟩
  · rw [h.st_eq]
    exact hi.keyed
  · rw [hsame] at hid
    rw [h.st_eq]
    exact hi.released id hid
  · rw [hsame] at hid
    unfold VotedDown
    rw [h.st_eq]
    exact hi.aborted id hid

end Backing

namespace PeerStep

variable {cfg : Config} {n : ChainId} {logs : ChainId → List Event} {reply : TaskReply} {w : World}
  {t : Task} {before after next : List Task} {sh' : Shared} {es : List Event}
  (hs : PeerStep cfg n logs reply w t before after next sh' es)

include hs

/-- A voter's instance is not taken back. -/
theorem voted_kept {id : InstanceId} {xt : PendingXt} {vote : Bool}
    (hl : w.shared.st.pending.lookup id = some xt) (hv : xt.localVote = some vote) :
    ∃ xt', sh'.st.pending.lookup id = some xt' ∧ SameXt xt xt' := by
  refine hs.kept hl (fun hr => ?_)
  simp [hs.young_of_removing hl hr] at hv

/-- A committed instance of this chain stays so. -/
theorem committed_kept {id : InstanceId} {xt : PendingXt}
    (hl : w.shared.st.pending.lookup id = some xt) (hr : xt.runsOn n = true)
    (hd : xt.decision = some true) :
    ∃ xt', sh'.st.pending.lookup id = some xt' ∧ xt'.runsOn n = true ∧
      xt'.decision = some true := by
  have hvote : xt.localVote = some true := by
    have hown := (hs.inv.tallied id xt hl).valid hd n (AList.mem_keys.mp (mem_rawTxs_of_runsOn hr))
    simpa [voteOf] using hown
  obtain ⟨xt', hl', hsame⟩ := hs.voted_kept hl hvote
  have hroll : ∀ op, taskOp cfg reply t = some op → op.rollsBack = false := by
    intro op hop
    have halone := (op_standalone hs.standalone hop).1
    cases op with
    | rollback => simp [Op.standalone] at halone
    | _ => rfl
  have hdecided : ∀ x, w.shared.st.pending.lookup id = some x → x.decision = some true := by
    intro x hx
    obtain rfl := Option.some.inj (hl.symm.trans hx)
    exact hd
  exact ⟨xt', hl', (runsOn_of_rawTxs hsame.rawTxs_eq n).trans hr,
    decision_taskStep hs.step (hs.not_registered hl) hroll hdecided hl'⟩

/-- The command that a step decides on is for an instance that it decides that way. -/
theorem command_settled (hk : KeyedById w.shared.st) {op : Op} {c : XtBuilderCommand}
    (hop : taskOp cfg reply t = some op) (hc : c ∈ op.commands cfg w.shared.st) :
    ∃ xt', sh'.st.pending.lookup c.target = some xt' ∧ xt'.runsOn n = true ∧
      xt'.decision = some c.commits := by
  obtain ⟨was, xt, xt', hl, hl', hr, -, hd⟩ : ∃ was, Settles cfg w.shared.st op c.target was
      c.commits := by
    rcases mem_commands cfg w.shared.st hk op c hc with ⟨-, hsettles⟩ | ⟨hfalse, was, hsettles, -⟩
    · exact ⟨none, hsettles⟩
    · exact ⟨was, by rw [hfalse]; exact hsettles⟩
  rw [← taskStep_apply hs.step hop] at hl'
  rw [hs.chainId_eq] at hr
  exact ⟨xt', hl', (runsOn_of_rawTxs (hs.entry_before hl hl').rawTxs_eq n).trans hr, hd⟩

/-- An aborted instance has a vote against it. -/
theorem votedDown_of_aborted {id : InstanceId} {xt' : PendingXt}
    (hl' : sh'.st.pending.lookup id = some xt') (hd : xt'.decision = some false) :
    VotedDown n logs ⟨sh', before ++ next ++ after, w.log ++ es⟩ id := by
  obtain ⟨c, hc⟩ := hs.grounded_kept id xt' hl' hd
  unfold voteOf at hc
  split_ifs at hc with hown
  · exact Or.inl ⟨xt', hl', hc⟩
  · obtain ⟨hne, hlog⟩ := hs.peerVotes_step id xt' hl' c false hc
    exact Or.inr ⟨c, hne, hlog⟩

theorem votedDown_kept {id : InstanceId} (h : VotedDown n logs w id) :
    VotedDown n logs ⟨sh', before ++ next ++ after, w.log ++ es⟩ id := by
  rcases h with ⟨xt, hl, hv⟩ | hpeer
  · obtain ⟨xt', hl', hsame⟩ := hs.voted_kept hl hv
    exact Or.inl ⟨xt', hl', hsame.localVote_stays false hv⟩
  · exact Or.inr hpeer

/-- A step keeps the commands backed. -/
theorem ordersBacked (hi : OrdersBacked n logs w) :
    OrdersBacked n logs ⟨sh', before ++ next ++ after, w.log ++ es⟩ := by
  have heffect := taskStep_effect hs.step
  -- a command is an old one, or the step has just decided the instance
  have hold : ∀ {o : InstanceId × Bool},
      o ∈ World.commands ⟨sh', before ++ next ++ after, w.log ++ es⟩ → o ∈ w.commands ∨
        ∃ xt', sh'.st.pending.lookup o.1 = some xt' ∧ xt'.runsOn n = true ∧
          xt'.decision = some o.2 := by
    intro o ho
    rcases dealt_of_split hs.tasks_eq (fun b hb => orderEvents_step heffect hb) ho with
      hbefore | hnext
    · exact Or.inl hbefore
    · rcases orders_step heffect hnext with hown | ⟨op, c, hop, hc, rfl⟩
      · exact Or.inl (List.mem_append_left _ (hs.holds hown))
      · exact Or.inr (hs.command_settled hi.keyed hop hc)
  refine ⟨keyedById_taskStep hs.step hi.keyed, fun id hid => ?_, fun id hid => ?_⟩
  · rcases hold hid with hbefore | hnow
    · obtain ⟨xt, hl, hr, hd⟩ := hi.released id hbefore
      exact hs.committed_kept hl hr hd
    · exact hnow
  · rcases hold hid with hbefore | ⟨xt', hl', -, hd⟩
    · exact hs.votedDown_kept (hi.aborted id hbefore)
    · exact hs.votedDown_of_aborted hl' hd

end PeerStep

section Network

variable {cfg : ChainId → Config} {members : Finset ChainId} {net net' : Net}

/-- A task of one sidecar in the network takes a step. -/
theorem peerStep_of_netInv (hi : NetInv net) {n : ChainId} (hc : (cfg n).chainId = n)
    (hp : (cfg n).publisher = false) {t : Task} {reply : TaskReply} {before after next : List Task}
    {sh' : Shared} {es : List Event} (htasks : (net n).tasks = before ++ t :: after)
    (hstep : taskStep (cfg n) reply (net n).shared t = some (sh', next, es)) :
    PeerStep (cfg n) n (shownBy TaskSystem.log net) reply (net n) t before after next sh' es where
  chainId_eq := hc
  alone := hp
  tasks_eq := htasks
  step := hstep
  inv := hi n
  foreign := fun _ _ _ _ _ hlog => foreign_of_netInv hi hlog
  takePart := by
    intro id xt c vote hl _ hlog
    obtain ⟨x, hx, hv⟩ := (hi c).ballots id vote (mem_dealt_of_log hlog rfl)
    exact takesPart_of_cast hi hl hx hv

/-- The commands of every sidecar are backed. -/
def NetOrders (net : Net) : Prop := ∀ n, OrdersBacked n (shownBy TaskSystem.log net) (net n)

theorem netOrders_step
    (hcfg : ∀ n ∈ members, (cfg n).chainId = n ∧ (cfg n).publisher = false) {move : NetMove}
    (h : NetStep cfg members net move net') (hi : NetInv net) (ho : NetOrders net) :
    NetOrders net' := by
  cases h with
  | @node n m w' hn hstep halone =>
    refine invariant_update (I := fun logs n w => OrdersBacked n logs w) OrdersBacked.mono
      (log_worldStep hstep) ?_ ho
    rcases worldStep_cases hstep with hquiet |
      ⟨t, reply, before, after, next, sh', es, -, htasks, htask, rfl⟩
    · exact ordersBacked_quiet hquiet (ho n)
    · exact (peerStep_of_netInv hi (hcfg n hn).1 (hcfg n hn).2 htasks htask).ordersBacked (ho n)
  | @deliver o n e request hm hn hne he hr =>
    exact invariant_update (I := fun logs n w => OrdersBacked n logs w) OrdersBacked.mono
      (List.Subset.refl _) (ordersBacked_quiet (quietMove_arrive (net n) request) (ho n)) ho

/-- A vote against the instance stands at the sidecar of the chain that has cast it. -/
theorem cast_of_votedDown (hi : NetInv net) {n : ChainId} {id : InstanceId}
    (h : VotedDown n (shownBy TaskSystem.log net) (net n) id) :
    ∃ c x, (net c).shared.st.pending.lookup id = some x ∧ x.localVote = some false := by
  rcases h with ⟨xt, hl, hv⟩ | ⟨c, -, hlog⟩
  · exact ⟨n, xt, hl, hv⟩
  · obtain ⟨x, hx, hv⟩ := (hi c).ballots id false (mem_dealt_of_log hlog rfl)
    exact ⟨c, x, hx, hv⟩

/-- A commit needs the commit vote of everyone who takes part, as cast at their own sidecars. -/
theorem votes_of_committed (hi : NetInv net) {n : ChainId} {id : InstanceId} {xt : PendingXt}
    (hl : (net n).shared.st.pending.lookup id = some xt) (hd : xt.decision = some true)
    {c : ChainId} (hc : c ∈ xt.rawTxs) :
    ∃ x, (net c).shared.st.pending.lookup id = some x ∧ x.localVote = some true :=
  cast_of_voteOf hi hl (((hi n).tallied id xt hl).valid hd c (AList.mem_keys.mp hc))

theorem command_of_call {w : World} {id : InstanceId} {d : Bool}
    (h : (if d then BuilderCall.releaseXt id else .abortXt id) ∈ builderCalls w.log) :
    (id, d) ∈ w.commands := by
  obtain ⟨e, he, hcall⟩ := List.mem_filterMap.mp h
  refine mem_dealt_of_log he ?_
  cases d <;> cases e <;> simp_all [builderCall, orderEvent]

/-- The builders act as one. In a network of sidecars without a publisher, a rollback or a cleanup,
each only given submissions in which its own chain takes part: when the builder of one chain has been
told to release an instance, the instance is pending there, every chain of it has voted for it at its
own sidecar, and the builder of no chain has been or is about to be told to abort it. Cleanup is left
out because a sidecar that has forgotten an instance takes a repeated forward of it for a new one. -/
theorem builders_act_as_one (members : Finset ChainId) (cfg : ChainId → Config)
    (hcfg : ∀ n ∈ members, (cfg n).chainId = n ∧ (cfg n).publisher = false)
    {moves : List NetMove} {net : Net}
    (hrun : Run (fun net move net' => NetStep cfg members net move net' ∧
      move.originTakesPart = true) Net.initial moves net)
    {n : ChainId} {id : InstanceId} (hreleased : .releaseXt id ∈ builderCalls (net n).log) :
    (∃ xt, (net n).shared.st.pending.lookup id = some xt ∧ ∀ c ∈ xt.rawTxs,
      ∃ x, (net c).shared.st.pending.lookup id = some x ∧ x.localVote = some true) ∧
    ∀ m, .abortXt id ∉ builderCalls (net m).log ∧ ∀ t ∈ (net m).tasks, (id, false) ∉ t.orders := by
  have hinv := hrun.invariant (I := fun net => NetInv net ∧ NetOrders net)
    (fun _ _ _ hi h => ⟨netInv_step hcfg h.1 h.2 hi.1, netOrders_step hcfg h.1 hi.1 hi.2⟩)
    ⟨fun _ => peerInv_initial, fun _ => ordersBacked_initial⟩
  obtain ⟨hi, ho⟩ := hinv
  obtain ⟨xt, hl, hr, hd⟩ := (ho n).released id (command_of_call hreleased)
  have hno : ∀ m, (id, false) ∉ (net m).commands := by
    intro m hm
    obtain ⟨c, x, hx, hv⟩ := cast_of_votedDown hi ((ho m).aborted id hm)
    obtain ⟨x', hx', hv'⟩ := votes_of_committed hi hl hd (takesPart_of_cast hi hl hx hv)
    obtain rfl := Option.some.inj (hx.symm.trans hx')
    simp [hv] at hv'
  refine ⟨⟨xt, hl, fun c hc => votes_of_committed hi hl hd hc⟩, fun m => ⟨fun hm => ?_, ?_⟩⟩
  · exact hno m (command_of_call hm)
  · intro t ht hm
    exact hno m (List.mem_append_left _ (mem_held.mpr ⟨t, ht, hm⟩))

def builderPeerConfig (n : ChainId) : Config := { peerConfig n with xtBuilderClient := true }

/-- Chain 1 submits an instance and votes; chain 2 takes part, gets the vote and releases. -/
def releasingPicks : List NetPick :=
  [.node 1 (.arrive (.submitXt twoChainTxs 0))] ++ nodeRuns 1 0 7 ++ nodeRuns 1 1 2 ++
    nodeRuns 1 0 6 ++ [.deliver 1 2 3] ++ nodeRuns 2 0 11 ++ [.deliver 1 2 4] ++ nodeRuns 2 0 4

theorem builders_act_as_one_released : ∃ moves net,
    Run (fun net move net' => NetStep builderPeerConfig {1, 2} net move net' ∧
      move.originTakesPart = true) Net.initial moves net ∧
    .releaseXt "xt-1-1" ∈ builderCalls (net 2).log ∧
    ∀ m, .abortXt "xt-1-1" ∉ builderCalls (net m).log := by
  have hexec : (execAll (netPickStep builderPeerConfig {1, 2})
      (fun _ move => decide (move.originTakesPart = true)) releasingPicks Net.initial).map
        (fun net => builderCalls (net 2).log) =
      some [.submitXt "xt-1-1", .submitReturned "xt-1-1", .releaseXt "xt-1-1"] := by
    decide
  obtain ⟨net, hnet, hcalls⟩ := Option.map_eq_some_iff.mp hexec
  obtain ⟨moves, hrun⟩ := run_execAll netStep_of_pick hnet
  have hreleased : .releaseXt "xt-1-1" ∈ builderCalls (net 2).log := by
    rw [hcalls]
    decide
  obtain ⟨-, hnone⟩ := builders_act_as_one {1, 2} builderPeerConfig (fun _ _ => ⟨rfl, rfl⟩) hrun
    hreleased
  exact ⟨moves, net, hrun, hreleased, fun m => (hnone m).1⟩

end Network

end Sidecar.Coordinator
