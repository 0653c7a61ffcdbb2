import Sidecar.Coordinator.Atomicity
import Sidecar.Framework.AtomicCommit

/-! Sidecars without a publisher, taken together, do atomic commitment. -/

namespace Sidecar.Coordinator

open TaskSystem

section View

/-- What the sidecar of chain `n` has under the `k`th submission at the sidecar of chain `o`. -/
def entryOf (net : Net) (o : ChainId) (k : SequenceNumber) (n : ChainId) : Option PendingXt :=
  (net n).shared.st.pending.lookup (InstanceId.standalone o k)

/-- The submission as the whole network has it. -/
def instanceView (net : Net) (o : ChainId) (k : SequenceNumber) : AtomicCommit.State ChainId :=
  { parts := (entryOf net o k o).map (fun xt => { c | xt.runsOn c = true })
    votes := fun n => (entryOf net o k n).bind PendingXt.localVote
    decided := fun n => (entryOf net o k n).bind PendingXt.decision }

variable {net net' : Net} {n : ChainId} {o : ChainId} {k : SequenceNumber}

/-- A sidecar that moves changes its own vote and decision, and what the instance is if it was
submitted there. -/
theorem instanceView_of_elsewhere (h : ∀ c, c ≠ n → net' c = net c) :
    instanceView net' o k =
      { parts := (instanceView net' o k).parts
        votes := Function.update (instanceView net o k).votes n ((instanceView net' o k).votes n)
        decided := Function.update (instanceView net o k).decided n
          ((instanceView net' o k).decided n) } := by
  ext c
  · rfl
  · by_cases hc : c = n
    · simp [hc]
    · simp [instanceView, entryOf, h c hc, hc]
  · by_cases hc : c = n
    · simp [hc]
    · simp [instanceView, entryOf, h c hc, hc]

theorem instanceView_same (h : ∀ c, c ≠ n → net' c = net c)
    (hn : entryOf net' o k n = entryOf net o k n) : instanceView net' o k = instanceView net o k := by
  have hall : ∀ c, entryOf net' o k c = entryOf net o k c := by
    intro c
    by_cases hc : c = n
    · rw [hc, hn]
    · rw [entryOf, h c hc, entryOf]
  simp [instanceView, hall]

end View

section Origin

/-- What was submitted at a sidecar has transactions for its chain. -/
def OriginsTakePart (net : Net) : Prop :=
  ∀ o k xt, entryOf net o k o = some xt → xt.runsOn o = true

theorem originsTakePart_initial : OriginsTakePart Net.initial := by
  intro o k xt hl
  simp [entryOf, Net.initial, World.initial] at hl

variable {cfg : ChainId → Config} {members : Finset ChainId} {net net' : Net}

/-- An instance under an identifier of this chain was submitted here. -/
theorem PeerStep.runsOn_own {c : Config} {n : ChainId} {logs : ChainId → List Event}
    {reply : TaskReply} {w : World} {t : Task} {before after next : List Task} {sh' : Shared}
    {es : List Event} (hs : PeerStep c n logs reply w t before after next sh' es)
    (hold : ∀ k xt, w.shared.st.pending.lookup (InstanceId.standalone n k) = some xt →
      xt.runsOn n = true) {k : SequenceNumber} {xt' : PendingXt}
    (hl' : sh'.st.pending.lookup (InstanceId.standalone n k) = some xt') :
    xt'.runsOn n = true := by
  rcases entry_step hs.step hl' with ⟨xt, hl, hsame, -⟩ | hnew
  · rw [runsOn_of_rawTxs hsame.rawTxs_eq]
    exact hold k xt hl
  · obtain ⟨registrar, hreg, hnext⟩ := hnew.registrar
    obtain ⟨route, hf⟩ := hnew.fresh
    have hvoter : InstanceId.standalone n k ∈ registrar.voter := by
      cases hreg with
      | submitted txs => exact List.mem_singleton.mpr hf.id_eq.symm
      | forwarded id txs originChain originSeq buffered _ =>
        obtain ⟨hne, hlog⟩ := hs.backed
        obtain ⟨k', hid⟩ := hs.foreign originChain id txs originSeq hne hlog
        have hsame : InstanceId.standalone originChain k' = InstanceId.standalone n k :=
          hid.symm.trans hf.id_eq
        exact absurd (InstanceId.standalone_inj hsame).1 hne
      | started => simpa [Task.standalone, Request.standalone] using hs.standalone
    have hheld : InstanceId.standalone n k ∈ (before ++ next ++ after).flatMap Task.voters := by
      rw [List.flatMap_append, List.flatMap_append, hnext, voters_submitFirst]
      exact List.mem_append_left _ (List.mem_append_right _ hvoter)
    exact hs.voters_kept _ hheld xt' hl'

theorem originsTakePart_step
    (hcfg : ∀ n ∈ members, (cfg n).chainId = n ∧ (cfg n).publisher = false) {move : NetMove}
    (h : NetStep cfg members net move net') (hi : NetInv net) (ho : OriginsTakePart net) :
    OriginsTakePart net' := by
  intro o k xt hl
  cases h with
  | @node n m w' hn hstep halone =>
    by_cases hon : o = n
    · subst hon
      rw [entryOf, Function.update_self] at hl
      rcases worldStep_cases hstep with hquiet |
        ⟨t, reply, before, after, next, sh', es, -, htasks, htask, rfl⟩
      · rw [hquiet.st_eq] at hl
        exact ho o k xt hl
      · exact (peerStep_of_netInv hi (hcfg o hn).1 (hcfg o hn).2 htasks htask).runsOn_own (ho o) hl
    · rw [entryOf, Function.update_of_ne hon] at hl
      exact ho o k xt hl
  | @deliver o' n e request =>
    refine ho o k xt ?_
    by_cases hon : o = n
    · subst hon
      simpa [entryOf] using hl
    · simpa [entryOf, hon] using hl

end Origin

section Refinement

/-- A task of the sidecar of chain `n` takes a step in the network. -/
structure NetTaskStep (cfg : ChainId → Config) (net net' : Net) (n : ChainId) (reply : TaskReply)
    (t : Task) (before after next : List Task) (es : List Event) : Prop where
  step : PeerStep (cfg n) n (shownBy TaskSystem.log net) reply (net n) t before after next
    (net' n).shared es
  elsewhere : ∀ c, c ≠ n → net' c = net c
  inv : NetInv net
  inv_after : NetInv net'
  takePart : OriginsTakePart net
  takePart_after : OriginsTakePart net'

namespace NetTaskStep

variable {cfg : ChainId → Config} {net net' : Net} {n : ChainId} {reply : TaskReply} {t : Task}
  {before after next : List Task} {es : List Event}
  (hs : NetTaskStep cfg net net' n reply t before after next es) {o : ChainId}
  {k : SequenceNumber} {xt xt' : PendingXt}

include hs

/-- Where the instance was submitted it starts with its registration; elsewhere a registration
is not seen. -/
theorem run_registered (hl : entryOf net o k n = none) (hl' : entryOf net' o k n = some xt') :
    ∃ acts, Run AtomicCommit.Step (instanceView net o k) acts (instanceView net' o k) := by
  have hfresh : xt'.localVote = none ∧ xt'.decision = none := by
    rcases entry_step hs.step.step hl' with ⟨xt, hx, -⟩ | hnew
    · exact absurd (hl.symm.trans hx) (by simp)
    · obtain ⟨route, hf⟩ := hnew.fresh
      exact ⟨hf.localVote_eq, hf.decision_eq⟩
  have hvotes : (instanceView net' o k).votes n = (instanceView net o k).votes n := by
    simp [instanceView, hl, hl', hfresh]
  have hdecided : (instanceView net' o k).decided n = (instanceView net o k).decided n := by
    simp [instanceView, hl, hl', hfresh]
  rw [instanceView_of_elsewhere hs.elsewhere, hvotes, hdecided, Function.update_eq_self,
    Function.update_eq_self]
  by_cases hon : o = n
  · subst hon
    have hnone : (instanceView net o k).parts = none := by simp [instanceView, hl]
    have hsome : (instanceView net' o k).parts = some { c | xt'.runsOn c = true } := by
      simp [instanceView, hl']
    rw [hsome]
    exact ⟨[_], .cons (.start hnone ⟨o, hs.takePart_after o k xt' hl'⟩) (.nil _)⟩
  · have hparts : (instanceView net' o k).parts = (instanceView net o k).parts := by
      simp [instanceView, entryOf, hs.elsewhere o hon]
    rw [hparts]
    exact ⟨[], .nil _⟩

/-- What is taken back where it was submitted has not been sent to anybody. -/
theorem alone_of_removing (hr : InstanceId.standalone n k ∈ t.removing) {c : ChainId} (hc : c ≠ n) :
    entryOf net n k c = none := by
  cases hx : entryOf net n k c with
  | none => rfl
  | some x =>
    rcases (hs.inv c).origins _ x hx with ⟨k', -, hid⟩ | ⟨o, txs, originSeq, -, hlog, -⟩
    · exact absurd (InstanceId.standalone_inj hid).1.symm hc
    · obtain ⟨k', hid⟩ := foreign_of_netInv hs.inv hlog
      obtain ⟨rfl, -⟩ := InstanceId.standalone_inj hid
      obtain ⟨registrar, hreg, hid⟩ := registrar_of_removing hr
      have hunsent := hs.step.inv.unforwarded registrar (hs.step.holds hreg) txs
      rw [hid] at hunsent
      exact (hunsent (mem_dealt_of_log hlog rfl)).elim

/-- Nobody has voted on what is taken back where it was submitted. -/
theorem unvoted_of_removing (hl : entryOf net n k n = some xt)
    (hr : InstanceId.standalone n k ∈ t.removing) (c : ChainId) :
    (instanceView net n k).votes c = none := by
  by_cases hc : c = n
  · subst hc
    simp [instanceView, hl, hs.step.young_of_removing hl hr]
  · simp [instanceView, hs.alone_of_removing hr hc]

/-- So nobody has decided on it either. -/
theorem undecided_of_removing (hl : entryOf net n k n = some xt)
    (hr : InstanceId.standalone n k ∈ t.removing) (c : ChainId) :
    (instanceView net n k).decided c = none := by
  by_cases hc : c = n
  · subst hc
    have hnovote : ∀ c' v, voteOf c xt c' ≠ some v := by
      intro c' v hv
      obtain ⟨x, hx, hvote⟩ := cast_of_voteOf hs.inv hl hv
      have hnone := hs.unvoted_of_removing hl hr c'
      simp [instanceView, show entryOf net c k c' = some x from hx, hvote] at hnone
    have hundecided : xt.decision = none := by
      cases hd : xt.decision with
      | none => rfl
      | some d =>
        cases d with
        | true =>
          have hown := mem_rawTxs_of_runsOn (hs.takePart c k xt hl)
          exact absurd (((hs.inv c).tallied _ xt hl).valid hd c (AList.mem_keys.mp hown))
            (hnovote c true)
        | false =>
          obtain ⟨c', hv⟩ := (hs.inv c).grounded _ xt hl hd
          exact absurd hv (hnovote c' false)
    simp [instanceView, hl, hundecided]
  · simp [instanceView, hs.alone_of_removing hr hc]

/-- When the builder declines an instance it is withdrawn where it was submitted; anybody else
who has not voted leaves. -/
theorem run_removed (hl : entryOf net o k n = some xt) (hl' : entryOf net' o k n = none) :
    ∃ acts, Run AtomicCommit.Step (instanceView net o k) acts (instanceView net' o k) := by
  have hr : InstanceId.standalone o k ∈ t.removing := by
    by_contra hno
    obtain ⟨xt', hx', -⟩ := hs.step.kept hl hno
    exact absurd (hl'.symm.trans hx') (by simp)
  have hnone : (instanceView net o k).votes n = none := by
    simp [instanceView, hl, hs.step.young_of_removing hl hr]
  have hvotes : (instanceView net' o k).votes n = (instanceView net o k).votes n := by
    rw [hnone]
    simp [instanceView, hl']
  have hdecided : (instanceView net' o k).decided n = none := by simp [instanceView, hl']
  rw [instanceView_of_elsewhere hs.elsewhere, hvotes, hdecided, Function.update_eq_self]
  by_cases hon : o = n
  · subst hon
    have hparts : (instanceView net' o k).parts = none := by simp [instanceView, hl']
    have hself : Function.update (instanceView net o k).decided o none =
        (instanceView net o k).decided := by
      rw [Function.update_eq_self_iff]
      exact (hs.undecided_of_removing hl hr o).symm
    rw [hparts, hself]
    exact ⟨[_], .cons (.withdraw (hs.unvoted_of_removing hl hr) (hs.undecided_of_removing hl hr))
      (.nil _)⟩
  · have hparts : (instanceView net' o k).parts = (instanceView net o k).parts := by
      simp [instanceView, entryOf, hs.elsewhere o hon]
    rw [hparts]
    exact ⟨[_], .cons (.leave hnone) (.nil _)⟩

/-- An instance that stays keeps its decision. -/
theorem decision_kept {d : Bool} (hl : entryOf net o k n = some xt)
    (hl' : entryOf net' o k n = some xt') (hd : xt.decision = some d) : xt'.decision = some d := by
  have hroll : ∀ op, taskOp (cfg n) reply t = some op → op.rollsBack = false := by
    intro op hop
    have halone := (op_standalone hs.step.standalone hop).1
    cases op with
    | rollback => simp [Op.standalone] at halone
    | _ => rfl
  refine decision_taskStep hs.step.step (hs.step.not_registered hl) hroll ?_ hl'
  intro x hx
  obtain rfl := Option.some.inj (hl.symm.trans hx)
  exact hd

/-- The participants as the origin has them, and that everybody agrees on them. -/
theorem parts_of_entry (hl' : entryOf net' o k n = some xt') :
    (instanceView net' o k).parts = some { c | xt'.runsOn c = true } := by
  obtain ⟨o', k', x, hid, hx, -⟩ := origin_entry hs.inv_after hl'
  obtain ⟨rfl, rfl⟩ := InstanceId.standalone_inj hid
  simp only [instanceView, show entryOf net' o k o = some x from hx, Option.map_some]
  congr 1
  ext c
  simp [runsOn_agrees hs.inv_after hx hl' c]

/-- A sidecar votes on an instance, decides on it, or does both. -/
theorem run_changed (hl : entryOf net o k n = some xt) (hl' : entryOf net' o k n = some xt') :
    ∃ acts, Run AtomicCommit.Step (instanceView net o k) acts (instanceView net' o k) := by
  have hsame := hs.step.entry_before hl hl'
  have hparts' := hs.parts_of_entry hl'
  have hparts : (instanceView net o k).parts = some { c | xt'.runsOn c = true } := by
    by_cases hon : o = n
    · subst hon
      simp [instanceView, hl, PendingXt.runsOn, PendingXt.txsOf, hsame.rawTxs_eq]
    · rw [← hparts']
      simp [instanceView, entryOf, hs.elsewhere o hon]
  have hview : instanceView net' o k =
      { instanceView net o k with
        votes := Function.update (instanceView net o k).votes n xt'.localVote
        decided := Function.update (instanceView net o k).decided n xt'.decision } := by
    rw [instanceView_of_elsewhere hs.elsewhere, hparts', ← hparts]
    simp [instanceView, hl']
  have hvoted : ∀ {c x v}, entryOf net' o k c = some x → x.localVote = some v →
      Function.update (instanceView net o k).votes n xt'.localVote c = some v := by
    intro c x v hx hv
    have hvotes : (instanceView net' o k).votes c = some v := by simp [instanceView, hx, hv]
    rw [hview] at hvotes
    exact hvotes
  rw [hview]
  refine AtomicCommit.run_vote_decide ?_ ?_
  · -- a vote that is cast is one of a participant
    have hold : (instanceView net o k).votes n = xt.localVote := by simp [instanceView, hl]
    cases hv : xt.localVote with
    | some v => exact Or.inl (by rw [hold, hv, hsame.localVote_stays v hv])
    | none =>
      cases hv' : xt'.localVote with
      | none => exact Or.inl (by rw [hold, hv])
      | some v =>
        have htakes := (hs.inv_after n).localVotes _ xt' hl' (by simp [hv'])
        exact Or.inr ⟨hold.trans hv, _, hparts, htakes⟩
  · -- a decision that is made has its votes, the one just cast among them
    have hold : (instanceView net o k).decided n = xt.decision := by simp [instanceView, hl]
    cases hd : xt.decision with
    | some d => exact Or.inl (by rw [hold, hd, hs.decision_kept hl hl' hd])
    | none =>
      cases hd' : xt'.decision with
      | none => exact Or.inl (by rw [hold, hd])
      | some d =>
        refine Or.inr ⟨hold.trans hd, ?_⟩
        cases d with
        | true =>
          refine Or.inl ⟨rfl, _, hparts, fun c hc => ?_⟩
          obtain ⟨x, hx, hv⟩ := votes_of_committed hs.inv_after hl' hd' (mem_rawTxs_of_runsOn hc)
          exact hvoted hx hv
        | false =>
          obtain ⟨c, hv⟩ := (hs.inv_after n).grounded _ xt' hl' hd'
          obtain ⟨x, hx, hv⟩ := cast_of_voteOf hs.inv_after hl' hv
          exact Or.inr ⟨rfl, c, hvoted hx hv⟩

/-- A step of a task is one, or several, or no step of atomic commitment. -/
theorem refines : ∃ acts,
    Run AtomicCommit.Step (instanceView net o k) acts (instanceView net' o k) := by
  cases hl : entryOf net o k n with
  | none =>
    cases hl' : entryOf net' o k n with
    | none =>
      rw [instanceView_same hs.elsewhere (hl'.trans hl.symm)]
      exact ⟨[], .nil _⟩
    | some xt' => exact hs.run_registered hl hl'
  | some xt =>
    cases hl' : entryOf net' o k n with
    | none => exact hs.run_removed hl hl'
    | some xt' => exact hs.run_changed hl hl'

end NetTaskStep

variable {cfg : ChainId → Config} {members : Finset ChainId} {net net' : Net}

theorem refines_step (hcfg : ∀ n ∈ members, (cfg n).chainId = n ∧ (cfg n).publisher = false)
    {move : NetMove} (h : NetStep cfg members net move net') (hpart : move.originTakesPart = true)
    (hi : NetInv net) (ho : OriginsTakePart net) (o : ChainId) (k : SequenceNumber) :
    ∃ acts, Run AtomicCommit.Step (instanceView net o k) acts (instanceView net' o k) := by
  have hi' := netInv_step hcfg h hpart hi
  have ho' := originsTakePart_step hcfg h hi ho
  have hstays : ∀ {n : ChainId} {w' : World}, w'.shared.st = (net n).shared.st → ∃ acts,
      Run AtomicCommit.Step (instanceView net o k) acts
        (instanceView (Function.update net n w') o k) := by
    intro n w' hst
    have hsame := @instanceView_same net (Function.update net n w') n o k
      (fun _ hc => Function.update_of_ne hc _ _) (by simp [entryOf, hst])
    rw [hsame]
    exact ⟨[], .nil _⟩
  cases h with
  | @node n m w' hn hstep halone =>
    rcases worldStep_cases hstep with hquiet |
      ⟨t, reply, before, after, next, sh', es, -, htasks, htask, rfl⟩
    · exact hstays hquiet.st_eq
    · have hpeer := peerStep_of_netInv hi (hcfg n hn).1 (hcfg n hn).2 htasks htask
      refine @NetTaskStep.refines cfg net _ n reply t before after next es
        ⟨?_, fun _ hc => Function.update_of_ne hc _ _, hi, hi', ho, ho'⟩ o k
      rwa [Function.update_self]
  | deliver => exact hstays rfl

theorem refines_run (hcfg : ∀ n ∈ members, (cfg n).chainId = n ∧ (cfg n).publisher = false)
    {moves : List NetMove} (h : Run (fun net move net' => NetStep cfg members net move net' ∧
      move.originTakesPart = true) net moves net') (hi : NetInv net ∧ OriginsTakePart net)
    (o : ChainId) (k : SequenceNumber) : (NetInv net' ∧ OriginsTakePart net') ∧
      ∃ acts, Run AtomicCommit.Step (instanceView net o k) acts (instanceView net' o k) := by
  refine h.refines (f := fun net => instanceView net o k)
    (I := fun net => NetInv net ∧ OriginsTakePart net) ?_ hi
  intro s move s' hs hstep
  exact ⟨⟨netInv_step hcfg hstep.1 hstep.2 hs.1, originsTakePart_step hcfg hstep.1 hs.1 hs.2⟩,
    refines_step hcfg hstep.1 hstep.2 hs.1 hs.2 o k⟩

/-- The network refines atomic commitment. Along every run of sidecars without a publisher, a
rollback or a cleanup, each only given submissions in which its own chain takes part, what the
sidecars hold of a submission moves as atomic commitment does; so what one of them has decided none
of them decides against later on. A cleanup would take a decision back, which no commitment does. -/
theorem network_refines_atomic_commit (members : Finset ChainId) (cfg : ChainId → Config)
    (hcfg : ∀ n ∈ members, (cfg n).chainId = n ∧ (cfg n).publisher = false)
    {moves moves' : List NetMove} {net net' : Net}
    (hrun : Run (fun net move net' => NetStep cfg members net move net' ∧
      move.originTakesPart = true) Net.initial moves net)
    (hlater : Run (fun net move net' => NetStep cfg members net move net' ∧
      move.originTakesPart = true) net moves' net') (o : ChainId) (k : SequenceNumber) :
    (∃ acts, Run AtomicCommit.Step (instanceView net o k) acts (instanceView net' o k)) ∧
      ∀ n m d, decisionOf (net n).shared.st (InstanceId.standalone o k) = some d →
        decisionOf (net' m).shared.st (InstanceId.standalone o k) ≠ some !d := by
  obtain ⟨hi, as, hbefore⟩ := refines_run hcfg hrun ⟨fun _ => peerInv_initial,
    originsTakePart_initial⟩ o k
  obtain ⟨-, bs, hafter⟩ := refines_run hcfg hlater hi o k
  have hcoherent := AtomicCommit.coherent_run hbefore AtomicCommit.coherent_initial
  refine ⟨⟨bs, hafter⟩, ?_⟩
  intro n m d hd
  exact AtomicCommit.decisions_agree hcoherent hafter hd

/-- Chain 1 submits an instance, chain 2 takes part in it, gets the other's vote and commits. -/
def decidedFirstPicks : List NetPick :=
  [.node 1 (.arrive (.submitXt twoChainTxs 0))] ++ nodeRuns 1 0 4 ++ nodeRuns 1 1 2 ++
    nodeRuns 1 0 8 ++ participantPicks 1 2 ++ [.deliver 1 2 2, .node 2 (.run 0 {})]

/-- Chain 1 gets the vote of chain 2. -/
def decidedLaterPicks : List NetPick := [.deliver 2 1 1, .node 1 (.run 0 {})]

theorem network_refines_atomic_commit_decided : ∃ moves net moves' net',
    Run (fun net move net' => NetStep peerConfig {1, 2} net move net' ∧
      move.originTakesPart = true) Net.initial moves net ∧
    Run (fun net move net' => NetStep peerConfig {1, 2} net move net' ∧
      move.originTakesPart = true) net moves' net' ∧
    (instanceView net 1 1).decided 1 = none ∧ (instanceView net 1 1).decided 2 = some true ∧
    (instanceView net' 1 1).decided 1 = some true ∧
    (∃ acts, Run AtomicCommit.Step (instanceView net 1 1) acts (instanceView net' 1 1)) ∧
    ∀ m, (instanceView net' 1 1).decided m ≠ some false := by
  have hexec : ((execAll (netPickStep peerConfig {1, 2})
      (fun _ move => decide (move.originTakesPart = true)) decidedFirstPicks Net.initial).bind
        (fun net => (execAll (netPickStep peerConfig {1, 2})
          (fun _ move => decide (move.originTakesPart = true)) decidedLaterPicks net).map
            (fun net' => (decisionOf (net 1).shared.st "xt-1-1", decisionOf (net 2).shared.st "xt-1-1",
              decisionOf (net' 1).shared.st "xt-1-1")))) = some (none, some true, some true) := by
    decide +kernel
  obtain ⟨net, hnet, hrest⟩ := Option.bind_eq_some_iff.mp hexec
  obtain ⟨net', hnet', hd⟩ := Option.map_eq_some_iff.mp hrest
  obtain ⟨hd1, hd'⟩ := Prod.mk.inj hd
  obtain ⟨hd2, hlast⟩ := Prod.mk.inj hd'
  obtain ⟨moves, hrun⟩ := run_execAll netStep_of_pick hnet
  obtain ⟨moves', hlater⟩ := run_execAll netStep_of_pick hnet'
  obtain ⟨hrefines, hagree⟩ := network_refines_atomic_commit {1, 2} peerConfig
    (fun _ _ => ⟨rfl, rfl⟩) hrun hlater 1 1
  exact ⟨moves, net, moves', net', hrun, hlater, hd1, hd2, hlast, hrefines,
    fun m => hagree 2 m true hd2⟩

end Refinement

end Sidecar.Coordinator
