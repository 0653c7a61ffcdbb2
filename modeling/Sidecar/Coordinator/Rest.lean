import Sidecar.Coordinator.RetryBound
import Sidecar.Coordinator.WorldRun
import Sidecar.Framework.Descent

namespace Sidecar.Coordinator

open TaskSystem

section Mail

/-- The messages that wait in the mailboxes of the pending instances and in the buffer. -/
def CoordinatorState.mailCount (st : CoordinatorState) : Nat :=
  Map.total (fun xt => xt.pendingMailbox.length) st.pending +
    Map.total List.length st.mailboxBuffer

variable (cfg : Config) (st : CoordinatorState)

theorem share_pending_of_kept {op : Op} (hadmits : op.admits = false)
    (hdelivers : op.delivers = []) (id : InstanceId) :
    Map.share (fun xt => xt.pendingMailbox.length) (op.apply cfg st).pending id ≤
      Map.share (fun xt => xt.pendingMailbox.length) st.pending id := by
  have heffect := mailEffect cfg st op id
  unfold Map.share
  generalize (op.apply cfg st).pending.lookup id = after at heffect ⊢
  generalize st.pending.lookup id = before at heffect ⊢
  cases heffect with
  | absent => exact Nat.zero_le _
  | registered _ hreg => simp [admits_of_registers hreg] at hadmits
  | kept _ _ _ hmail =>
    exact Nat.le_of_eq (congrArg (fun mail : XtMail => mail.pendingMailbox.length) hmail)
  | delivered msg hop => simp [hop, Op.delivers] at hdelivers
  | @recorded xt result _ _ =>
    obtain ⟨depKeys, dependencies, outbound, hframe⟩ := recordResult_frame xt result
    rw [hframe]
    exact Nat.le_refl _
  | @fulfilled xt deps _ =>
    have hlength := length_fulfillXt xt deps
    simp only [Option.elim_some]
    omega

theorem total_buffer_of_kept {op : Op} (hadmits : op.admits = false)
    (hdelivers : op.delivers = []) :
    Map.total List.length (op.apply cfg st).mailboxBuffer ≤
      Map.total List.length st.mailboxBuffer := by
  cases op with
  | submitXt | forwardXt | startInstance => simp [Op.admits] at hadmits
  | mailbox => simp [Op.delivers] at hdelivers
  | removePending closed id =>
    simp only [Op.apply, removePendingXt]
    split <;> exact Nat.le_refl _
  | rollback now => exact Nat.zero_le _
  | cleanup closed now maxAge =>
    refine Map.total_le (fun rawId => ?_)
    simp only [Op.apply, cleanup, Map.share, Map.lookup_retain]
    cases st.mailboxBuffer.lookup rawId with
    | none => exact Nat.le_refl _
    | some bucket =>
      simp only [Option.filter]
      split_ifs
      · exact Nat.le_refl _
      · exact Nat.zero_le _
  | sendVote | peerVote | onDecision | startPeriod | confirm | enqueue | resolve | lockChain
    | recordSimulation | fulfill | dispatch =>
    rw [(routes_of_leavesRoutes cfg st _ rfl).2]

/-- A registration moves messages from the buffer to the new instance. -/
theorem mailCount_admits {op : Op} (h : op.admits = true) :
    (op.apply cfg st).mailCount ≤ st.mailCount := by
  unfold CoordinatorState.mailCount
  rcases admission_of_admits cfg st h with ⟨-, hpending, -, hbuffer⟩ | ⟨xt, hadm⟩
  · rw [hpending, hbuffer]
  · -- only the entry of the new instance changes
    have hothers : ∀ {entry : PendingXt},
        (op.apply cfg st).pending = st.pending.insert xt.id entry →
        Map.total (fun x => x.pendingMailbox.length) (op.apply cfg st).pending ≤
          Map.total (fun x => x.pendingMailbox.length) st.pending +
            entry.pendingMailbox.length := by
      intro entry hpending
      have hchange := @Map.total_change _ _ _ (fun x : PendingXt => x.pendingMailbox.length)
        st.pending (op.apply cfg st).pending xt.id (fun id hne => by
          rw [Map.share, Map.share, hpending, AList.lookup_insert_ne hne])
      have hnew : Map.share (fun x : PendingXt => x.pendingMailbox.length)
          (op.apply cfg st).pending xt.id = entry.pendingMailbox.length := by
        rw [Map.share, hpending, AList.lookup_insert]
        rfl
      omega
    cases hadm with
    | submitted txs hop hreg hxt hpending hindex hbuffer =>
      have hle := hothers hpending
      have hempty : xt.pendingMailbox.length = 0 := by
        rw [hxt]
        rfl
      rw [hbuffer]
      omega
    | drained route hop hreg hnew hraw hfresh hpending hindex hbuffer =>
      have hle := hothers hpending
      have hempty : xt.pendingMailbox = [] := congrArg XtMail.pendingMailbox hfresh
      have hdrained := Map.total_erase List.length xt.instanceId st.mailboxBuffer
      have hbucket : Map.share List.length st.mailboxBuffer xt.instanceId =
          ((st.mailboxBuffer.lookup xt.instanceId).getD []).length := by
        unfold Map.share
        cases st.mailboxBuffer.lookup xt.instanceId <;> rfl
      simp only [attachBuffered, hempty, List.nil_append] at hle
      rw [hbuffer]
      omega

/-- A change to one instance counts for no more than it changes the mailbox of that instance. -/
theorem total_updateXt (id : InstanceId) (f : PendingXt → PendingXt) :
    Map.total (fun xt => xt.pendingMailbox.length) (st.updateXt id f).pending +
        (st.pending.lookup id).elim 0 (fun xt => xt.pendingMailbox.length) ≤
      Map.total (fun xt => xt.pendingMailbox.length) st.pending +
        (st.pending.lookup id).elim 0 (fun xt => (f xt).pendingMailbox.length) := by
  have hchange := @Map.total_change _ _ _ (fun xt : PendingXt => xt.pendingMailbox.length)
    st.pending (st.updateXt id f).pending id (fun id' hne => by
      rw [Map.share, Map.share, lookup_updateXt, if_neg hne])
  rw [Map.share, Map.share, lookup_updateXt, if_pos rfl, Option.elim_map] at hchange
  exact hchange

/-- One message comes in. -/
theorem mailCount_deliver (msg : MailboxMessage) :
    (deliverMailbox st msg).mailCount ≤ st.mailCount + 1 := by
  unfold CoordinatorState.mailCount deliverMailbox
  cases st.mailboxIndex.lookup msg.instanceId with
  | some id =>
    have hupdate := total_updateXt st id (fun xt =>
      { xt with pendingMailbox := xt.pendingMailbox ++ [msg] })
    have hone : (st.pending.lookup id).elim 0 (fun xt => (xt.pendingMailbox ++ [msg]).length) ≤
        (st.pending.lookup id).elim 0 (fun xt => xt.pendingMailbox.length) + 1 := by
      cases st.pending.lookup id with
      | none => exact Nat.zero_le _
      | some xt => simp
    have hbuffer : (st.updateXt id (fun xt =>
        { xt with pendingMailbox := xt.pendingMailbox ++ [msg] })).mailboxBuffer =
        st.mailboxBuffer := rfl
    dsimp only at hupdate ⊢
    rw [hbuffer]
    omega
  | none =>
    dsimp only
    rw [pending_bufferOrphanMailbox]
    -- a bucket that takes the message has one more
    have hbucket : ∀ {buffer : Map Bytes (List MailboxMessage)},
        (∀ rawId, rawId ≠ msg.instanceId →
          buffer.lookup rawId = st.mailboxBuffer.lookup rawId) →
        Map.share List.length buffer msg.instanceId =
          Map.share List.length st.mailboxBuffer msg.instanceId + 1 →
        Map.total List.length buffer ≤ Map.total List.length st.mailboxBuffer + 1 := by
      intro buffer hothers hone
      have hchange := @Map.total_change _ _ _ List.length st.mailboxBuffer buffer msg.instanceId
        (fun rawId hne => by rw [Map.share, Map.share, hothers rawId hne])
      omega
    simp only [CoordinatorState.bufferOrphanMailbox]
    cases hl : st.mailboxBuffer.lookup msg.instanceId with
    | none =>
      dsimp only
      split_ifs
      · omega
      · have hle := @hbucket (st.mailboxBuffer.insert msg.instanceId [msg])
          (fun rawId hne => AList.lookup_insert_ne hne)
          (by rw [Map.share, Map.share, AList.lookup_insert, hl]; rfl)
        dsimp only
        omega
    | some bucket =>
      dsimp only
      split_ifs
      · omega
      · have hle := @hbucket
          (Map.update msg.instanceId (fun msgs => msgs ++ [msg]) st.mailboxBuffer)
          (fun rawId hne => by rw [Map.lookup_update, if_neg hne])
          (by rw [Map.share, Map.share, Map.lookup_update_self, hl]; simp)
        dsimp only
        omega

/-- Messages come in one at a time and are otherwise only moved or dropped. -/
theorem mailCount_apply (op : Op) :
    (op.apply cfg st).mailCount ≤ st.mailCount + op.delivers.length := by
  cases hadmits : op.admits with
  | true => exact Nat.le_add_right_of_le (mailCount_admits cfg st hadmits)
  | false =>
    by_cases hdelivers : op.delivers = []
    · have hpending := Map.total_le (share_pending_of_kept cfg st hadmits hdelivers)
      have hbuffer := total_buffer_of_kept cfg st hadmits hdelivers
      rw [hdelivers, List.length_nil, Nat.add_zero]
      unfold CoordinatorState.mailCount
      exact Nat.add_le_add hpending hbuffer
    · cases op with
      | mailbox msg => exact mailCount_deliver st msg
      | _ => simp [Op.delivers] at hdelivers

/-- A check that serves something takes a message out. -/
theorem mailCount_served {id : InstanceId} {deps : List CrossRollupDependency}
    (h : 0 < (fulfillDependenciesFromMailbox st id deps).2) :
    (fulfillDependenciesFromMailbox st id deps).1.mailCount < st.mailCount := by
  cases hl : st.pending.lookup id with
  | none => simp [fulfillDependenciesFromMailbox, hl] at h
  | some xt =>
    simp only [fulfillDependenciesFromMailbox, hl] at h ⊢
    have hupdate := total_updateXt st id (fun _ => (fulfillXt xt deps).1)
    rw [hl, Option.elim_some, Option.elim_some] at hupdate
    have hlength := length_fulfillXt xt deps
    have hadded := fulfillXt_added xt deps
    have hbuffer : (st.updateXt id (fun _ => (fulfillXt xt deps).1)).mailboxBuffer =
        st.mailboxBuffer := rfl
    unfold CoordinatorState.mailCount
    rw [hbuffer]
    omega

end Mail

section Rank

/-- How much a task has before it: how far it is, how many rounds are left in its loop, where it
is in the round, and how many elements the inner loop has left. -/
abbrev Rank := Nat ×ₗ Nat ×ₗ Nat ×ₗ Nat

def rank (stage rounds phase rest : Nat) : Rank :=
  toLex (stage, toLex (rounds, toLex (phase, rest)))

theorem rank_lt {a b c d a' b' c' d' : Nat} :
    rank a b c d < rank a' b' c' d' ↔
      a < a' ∨ a = a' ∧ (b < b' ∨ b = b' ∧ (c < c' ∨ c = c' ∧ d < d')) := by
  simp only [rank, Prod.Lex.toLex_lt_toLex]

/-- A task that is further on has less before it, whatever it still loops over. -/
theorem rank_lt_of_stage {a b c d a' b' c' d' : Nat} (h : a < a') :
    rank a b c d < rank a' b' c' d' :=
  rank_lt.mpr (Or.inl h)

/-- A woken wait has its next check before it. -/
def WaitPc.rank : WaitPc → Nat
  | .select true => 6
  | .check => 5
  | .deadline => 4
  | .clone => 3
  | .create => 2
  | .select false => 1
  | .done _ => 0

def SimFrame.left (frame : SimFrame) : Nat := frame.txs.length - frame.index

/-- The rounds of the simulation loop are the transactions. A wait that was served has the same
transaction before it once more. -/
def ProcPc.rank : ProcPc → Rank
  | .start => Coordinator.rank 23 0 0 0
  | .verify _ _ => Coordinator.rank 22 0 0 0
  | .asked _ _ _ => Coordinator.rank 21 0 0 0
  | .permissions _ _ => Coordinator.rank 20 0 0 0
  | .permit _ _ _ rest => Coordinator.rank 19 rest.length 0 0
  | .lock _ _ => Coordinator.rank 18 0 0 0
  | .setup _ _ => Coordinator.rank 17 0 0 0
  | .waiting frame _ (.done true) => Coordinator.rank 16 frame.left 6 0
  | .refresh frame => Coordinator.rank 16 frame.left 5 0
  | .simulate frame =>
    if frame.index < frame.txs.length then Coordinator.rank 16 frame.left 4 0
    else Coordinator.rank 16 0 0 0
  | .record frame _ => Coordinator.rank 16 frame.left 3 1
  | .dispatch frame _ => Coordinator.rank 16 frame.left 3 0
  | .sending frame _ toSend => Coordinator.rank 16 frame.left 2 toSend.length
  | .waiting frame _ wait => Coordinator.rank 16 frame.left 1 wait.rank
  | .vote _ => Coordinator.rank 15 0 0 0
  | .finished => Coordinator.rank 14 0 0 0

theorem rank_afterRecord (frame : SimFrame) (overrides : StateOverride)
    (result : SimulationResult) :
    (afterRecord { frame with overrides := overrides } result).rank <
      (ProcPc.record frame result).rank := by
  unfold afterRecord
  split_ifs
  · exact rank_lt_of_stage (by decide)
  · exact rank_lt_of_stage (by decide)
  · exact rank_lt.mpr (Or.inr ⟨rfl, Or.inr ⟨rfl, Or.inr ⟨rfl, Nat.zero_lt_one⟩⟩⟩)

/-- The next transaction is one round less; a frame behind its last transaction ends the loop. -/
theorem rank_afterDispatch (frame : SimFrame) (result : SimulationResult) (rest : Nat) :
    (afterDispatch frame result).rank < rank 16 frame.left 2 rest := by
  unfold afterDispatch
  split_ifs
  · simp only [ProcPc.rank, SimFrame.left]
    split_ifs with hindex
    · refine rank_lt.mpr (Or.inr ⟨rfl, Or.inl ?_⟩)
      omega
    · refine rank_lt.mpr (Or.inr ⟨rfl, ?_⟩)
      omega
  · exact rank_lt.mpr (Or.inr ⟨rfl, Or.inr ⟨rfl, Or.inl (by decide)⟩⟩)

theorem rank_simulate_lt (frame : SimFrame) (fulfilled : List CrossRollupDependency) :
    (ProcPc.simulate { frame with fulfilled := fulfilled }).rank < (ProcPc.refresh frame).rank := by
  simp only [ProcPc.rank, SimFrame.left]
  split_ifs
  · exact rank_lt.mpr (Or.inr ⟨rfl, Or.inr ⟨rfl, Or.inl (by decide)⟩⟩)
  · refine rank_lt.mpr (Or.inr ⟨rfl, ?_⟩)
    omega

/-- A step inside the wait goes on, unless its check served something. -/
theorem rank_waitStep {id : InstanceId} {deps : List CrossRollupDependency} {expired wake : Bool}
    {st st' : CoordinatorState} {pc pc' : WaitPc}
    (h : waitStep id deps expired wake st pc = some (st', pc')) :
    (pc' ≠ .done true ∧ pc'.rank < pc.rank ∧ pc ≠ .done true) ∨
      st' = (fulfillDependenciesFromMailbox st id deps).1 ∧
        0 < (fulfillDependenciesFromMailbox st id deps).2 := by
  cases pc with
  | check =>
    simp only [waitStep, Option.some.injEq, Prod.mk.injEq] at h
    obtain ⟨rfl, hpc⟩ := h
    split_ifs at hpc with hadded
    · exact Or.inr ⟨rfl, hadded⟩
    · subst hpc
      exact Or.inl (by decide)
  | deadline =>
    simp only [waitStep, Option.some.injEq, Prod.mk.injEq] at h
    obtain ⟨-, hpc⟩ := h
    split_ifs at hpc <;> subst hpc <;> exact Or.inl (by decide)
  | clone | create =>
    simp only [waitStep, Option.some.injEq, Prod.mk.injEq] at h
    obtain ⟨-, rfl⟩ := h
    exact Or.inl (by decide)
  | select woken =>
    simp only [waitStep] at h
    split_ifs at h with hwake hwoken
    · obtain ⟨-, rfl⟩ := Prod.mk.inj (Option.some.inj h)
      subst hwoken
      exact Or.inl (by decide)
    · obtain ⟨-, rfl⟩ := Prod.mk.inj (Option.some.inj h)
      cases woken <;> exact Or.inl (by decide)
  | done served => simp [waitStep] at h

theorem rank_waiting {frame : SimFrame} {deps : List CrossRollupDependency} {wait : WaitPc}
    (h : wait ≠ .done true) :
    (ProcPc.waiting frame deps wait).rank = rank 16 frame.left 1 wait.rank := by
  cases wait with
  | done served =>
    cases served with
    | true => exact absurd rfl h
    | false => rfl
  | check | deadline | clone | create | select => rfl

/-- A step of `process_xt` brings it on, or it has taken a message out of the mailbox. -/
theorem procStep_descends {cfg : Config} {id : InstanceId} {reply : Reply}
    {st st' : CoordinatorState} {pc pc' : ProcPc} {events : List ProcEvent}
    (h : procStep cfg id reply st pc = some (st', pc', events)) :
    pc'.rank < pc.rank ∨ st'.mailCount < st.mailCount := by
  have heffect := procStep_effect h
  cases heffect with
  | waits frame deps wait wait' =>
    rcases procStep_waiting h with ⟨served, rfl, hpc⟩ | ⟨w, hwait, hpc⟩
    · cases served <;> simp at hpc
    · obtain rfl : wait' = w := (ProcPc.waiting.inj hpc).2.2
      rcases rank_waitStep hwait with ⟨hnot, hless, hnot'⟩ | ⟨rfl, hadded⟩
      · rw [rank_waiting hnot, rank_waiting hnot']
        exact Or.inl (rank_lt.mpr (Or.inr ⟨rfl, Or.inr ⟨rfl, Or.inr ⟨rfl, hless⟩⟩⟩))
      · exact Or.inr (mailCount_served st hadded)
  | recorded frame result => exact Or.inl (rank_afterRecord frame _ result)
  | nothingToSend frame result =>
    refine Or.inl (lt_trans (rank_afterDispatch frame result 0) ?_)
    exact rank_lt.mpr (Or.inr ⟨rfl, Or.inr ⟨rfl, Or.inl (by decide)⟩⟩)
  | claimed frame result =>
    exact Or.inl (rank_lt.mpr (Or.inr ⟨rfl, Or.inr ⟨rfl, Or.inl (by decide)⟩⟩))
  | allSent frame result => exact Or.inl (rank_afterDispatch frame result _)
  | sent frame result msg rest =>
    refine Or.inl (rank_lt.mpr (Or.inr ⟨rfl, Or.inr ⟨rfl, Or.inr ⟨rfl, ?_⟩⟩⟩))
    exact Nat.lt_succ_self _
  | refreshed frame => exact Or.inl (rank_simulate_lt frame _)
  | served frame deps =>
    exact Or.inl (rank_lt.mpr (Or.inr ⟨rfl, Or.inr ⟨rfl, Or.inl (by decide)⟩⟩))
  | @simulated frame tx result htx =>
    have hindex : frame.index < frame.txs.length := (List.getElem?_eq_some_iff.mp htx).1
    simp only [ProcPc.rank, if_pos hindex]
    exact Or.inl (rank_lt.mpr (Or.inr ⟨rfl, Or.inr ⟨rfl, Or.inl (by decide)⟩⟩))
  | allowed txs overrides involved tx rest =>
    exact Or.inl (rank_lt.mpr (Or.inr ⟨rfl, Or.inl (Nat.lt_succ_self _)⟩))
  | allSimulated | simulationFailed =>
    simp only [ProcPc.rank]
    split_ifs <;> exact Or.inl (rank_lt_of_stage (by decide))
  | setup txs overrides =>
    simp only [ProcPc.rank]
    split_ifs <;> exact Or.inl (rank_lt_of_stage (by decide))
  | missing | noLocalTxs | ready | asks | unverified | approved | disapproved | unpermissioned
    | permissioned | permitted | denied | locked | unsimulated | setupGone | undelivered | timedOut
    | refreshGone | voted => exact Or.inl (rank_lt_of_stage (by decide))

/-- The builder commands that a handler has still to give. -/
def Resume.rounds : Resume → Nat
  | .done => 0
  | .handVote _ _ _ _ => 0
  | .nextAbort ids _ => ids.length
  | .nextRollback ids _ => ids.length

/-- Handlers come before what they start. -/
def Task.rank : Task → Rank
  | .request _ => Coordinator.rank 30 0 0 0
  | .submitStandalone _ | .submitPublisher _ _ => Coordinator.rank 29 0 0 0
  | .sendRequest _ _ _ => Coordinator.rank 28 0 0 0
  | .submit _ _ => Coordinator.rank 27 0 0 0
  | .submitting _ => Coordinator.rank 26 0 0 0
  | .registered _ | .removePending _ _ => Coordinator.rank 25 0 0 0
  | .resolve _ _ _ | .forwardXt _ _ => Coordinator.rank 24 0 0 0
  | .process _ pc => pc.rank
  | .sendVote _ _ | .forwarding _ _ _ => Coordinator.rank 14 0 0 0
  | .recordVote _ _ _ => Coordinator.rank 13 0 0 0
  | .command _ resume => Coordinator.rank 12 resume.rounds 3 0
  | .buildPutInbox _ deps _ _ resume => Coordinator.rank 12 resume.rounds 2 deps.length
  | .release _ _ resume => Coordinator.rank 12 resume.rounds 1 0
  | .recycle _ resume => Coordinator.rank 12 (resume.elim 0 Resume.rounds) 0 0
  | .reportAborted _ | .reject _ => Coordinator.rank 11 0 0 0
  | .publisherVotes votes => Coordinator.rank 10 votes.length 0 0
  | .confirmNonces ids => Coordinator.rank 10 ids.length 0 0
  | .peerVotes _ _ | .resetNonces _ | .awaitInstance _ | .notifyWaiters =>
    Coordinator.rank 10 0 0 0

variable {cfg : Config}

/-- What follows a builder command comes after it: the handler's next one, or what is further on. -/
theorem rank_next (resume : Resume) (phase rest : Nat) {u : Task} (hu : u ∈ resume.next cfg) :
    u.rank < rank 12 resume.rounds phase rest := by
  cases resume with
  | done => simp [Resume.next] at hu
  | handVote id rawId vote standalone =>
    simp only [Resume.next] at hu
    split_ifs at hu
    · obtain rfl := List.mem_singleton.mp hu
      exact rank_lt_of_stage (by decide)
    · simp at hu
    · obtain rfl := List.mem_singleton.mp hu
      exact rank_lt_of_stage (by decide)
  | nextAbort ids aborted =>
    cases ids with
    | nil =>
      obtain rfl := List.mem_singleton.mp hu
      exact rank_lt_of_stage (by decide)
    | cons id ids =>
      obtain rfl := List.mem_singleton.mp hu
      exact rank_lt.mpr (Or.inr ⟨rfl, Or.inl (Nat.lt_succ_self _)⟩)
  | nextRollback ids waiters =>
    cases ids with
    | nil =>
      obtain rfl := List.mem_singleton.mp hu
      exact rank_lt_of_stage (by decide)
    | cons id ids =>
      obtain rfl := List.mem_singleton.mp hu
      exact rank_lt.mpr (Or.inr ⟨rfl, Or.inl (Nat.lt_succ_self _)⟩)

theorem rank_next_of_stage (resume : Resume) {stage : Nat} (h : 12 < stage) {u : Task}
    (hu : u ∈ resume.next cfg) : u.rank < rank stage 0 0 0 :=
  lt_trans (rank_next resume 0 0 hu) (rank_lt_of_stage h)

theorem rank_commandOr (command : Option XtBuilderCommand) (resume : Resume) {stage : Nat}
    (h : 12 < stage) {u : Task} (hu : u ∈ commandOr cfg command resume) :
    u.rank < rank stage 0 0 0 := by
  cases command with
  | none => exact rank_next_of_stage resume h hu
  | some command =>
    obtain rfl := List.mem_singleton.mp hu
    exact rank_lt_of_stage h

theorem rank_registrarNext {registrar : Registrar} {u : Task} (hu : u ∈ registrar.next cfg) :
    u.rank < rank 25 0 0 0 := by
  rcases mem_registrarNext hu with rfl | ⟨id, txs, -, rfl⟩ | ⟨fingerprint, after, rfl⟩ <;>
    exact rank_lt_of_stage (by decide)

theorem rank_undone {registrar : Registrar} {err : CoordinatorError} {u : Task}
    (hu : u ∈ registrar.undone err) : u.rank < rank 25 0 0 0 := by
  cases registrar with
  | submitted | forwarded => simp [Registrar.undone] at hu
  | started id rawId fingerprint includesLocal =>
    obtain rfl := List.mem_singleton.mp hu
    exact rank_lt_of_stage (by decide)

theorem rank_afterResolve {after : AfterResolve} {u : Task} (hu : u ∈ after.next) :
    u.rank < rank 24 0 0 0 := by
  cases after with
  | done => simp [AfterResolve.next] at hu
  | reject rawId =>
    obtain rfl := List.mem_singleton.mp hu
    exact rank_lt_of_stage (by decide)
  | process id =>
    obtain rfl := List.mem_singleton.mp hu
    exact rank_lt_of_stage (by decide)

theorem rank_submitFirst (submission : Option XtBuilderSubmission) (registrar : Registrar) :
    (submitFirst submission registrar).rank < rank 28 0 0 0 := by
  cases submission <;> exact rank_lt_of_stage (by decide)

/-- The loop over the dependencies has one less before it. -/
theorem rank_buildPutInbox {reply : TaskReply} {sh : Shared} (id : InstanceId)
    (deps : List CrossRollupDependency) (nonce : Nat) (txs : List Bytes) (resume : Resume)
    {u : Task} (hu : u ∈ (buildPutInbox reply sh id deps nonce txs resume).2.1) :
    u.rank < (Task.buildPutInbox id deps nonce txs resume).rank := by
  cases deps with
  | nil =>
    obtain rfl := List.mem_singleton.mp hu
    exact rank_lt.mpr (Or.inr ⟨rfl, Or.inr ⟨rfl, Or.inl (by decide)⟩⟩)
  | cons dep rest =>
    cases hbuilt : reply.built with
    | ok tx =>
      simp only [buildPutInbox, hbuilt, List.mem_singleton] at hu
      subst hu
      exact rank_lt.mpr (Or.inr ⟨rfl, Or.inr ⟨rfl, Or.inr ⟨rfl, Nat.lt_succ_self _⟩⟩⟩)
    | error err =>
      simp only [buildPutInbox, hbuilt, List.mem_singleton] at hu
      subst hu
      refine rank_lt.mpr (Or.inr ⟨rfl, ?_⟩)
      simp only [Option.elim_none]
      omega

/-- A step leaves tasks that have less before them than the one that ran, or a message was taken
out of a mailbox. -/
theorem taskStep_descends {reply : TaskReply} {sh sh' : Shared} {t : Task} {next : List Task}
    {es : List Event} (h : taskStep cfg reply sh t = some (sh', next, es)) :
    (∀ u ∈ next, u.rank < t.rank) ∨ sh'.st.mailCount < sh.st.mailCount := by
  -- most steps leave one task, further on than the one that ran
  have hone : ∀ {u v : Task}, v.rank < t.rank → u ∈ [v] → u.rank < t.rank := by
    intro u v hless hu
    obtain rfl := List.mem_singleton.mp hu
    exact hless
  have heffect := taskStep_effect h
  cases heffect with
  | @processed id pc pc' events st' hproc =>
    rcases processStep_cases h with ⟨v, rfl, -⟩ | ⟨rfl, -⟩ | ⟨st, p, es', hstep, -, hsh, hnext, -⟩
    · exact Or.inl (fun u => hone (by
        cases (procStep_effect hproc)
        exact rank_lt_of_stage (by decide)))
    · simp [procStep] at hproc
    · obtain rfl : pc' = p := (Task.process.inj (List.cons.inj hnext).1).2
      rcases procStep_descends hstep with hless | hmail
      · exact Or.inl (fun u => hone hless)
      · rw [hsh]
        exact Or.inr hmail
  | stopped => exact Or.inl (fun u hu => absurd hu List.not_mem_nil)
  | forwarded | peerVoteSent | noncesReset => exact Or.inl (fun u hu => absurd hu List.not_mem_nil)
  | modeChosen txs waiter hu =>
    refine Or.inl (fun u => hone ?_)
    rcases hu with rfl | ⟨rfl, -⟩ <;> exact rank_lt_of_stage (by decide)
  | registered hreg =>
    refine Or.inl (fun u => hone (lt_trans (rank_submitFirst _ _) ?_))
    cases hreg <;> exact rank_lt_of_stage (by decide)
  | decided request _ _ _ => exact Or.inl (fun u => rank_commandOr _ _ (by decide))
  | periodOpened | rolledBack => exact Or.inl (fun u => rank_next_of_stage _ (by decide))
  | enqueued txs waiter hu =>
    refine Or.inl (fun u => hone ?_)
    rcases hu with rfl | ⟨fingerprint, req, rfl⟩ <;> exact rank_lt_of_stage (by decide)
  | requested fingerprint req waiter hu =>
    refine Or.inl (fun u => hone ?_)
    rcases hu with rfl | ⟨err, rfl⟩ <;> exact rank_lt_of_stage (by decide)
  | removed => exact Or.inl (fun u => rank_undone)
  | proceeded => exact Or.inl (fun u => rank_registrarNext)
  | resolved => exact Or.inl (fun u => rank_afterResolve)
  | voteRecorded => exact Or.inl (fun u => rank_commandOr _ _ (by decide))
  | releaseSkipped id deps resume => exact Or.inl (fun u => rank_next resume _ _)
  | releaseStarted id deps resume hc hu =>
    refine Or.inl (fun u => hone ?_)
    rcases hu with rfl | ⟨nonce, rfl⟩ <;>
      exact rank_lt.mpr (Or.inr ⟨rfl, Or.inr ⟨rfl, Or.inl (by decide)⟩⟩)
  | abortSkipped id resume =>
    refine Or.inl (fun u => hone ?_)
    exact rank_lt.mpr (Or.inr ⟨rfl, Or.inr ⟨rfl, Or.inl (by decide)⟩⟩)
  | abortSent id resume hc hn =>
    rcases hn with rfl | rfl
    · refine Or.inl (fun u => hone ?_)
      exact rank_lt.mpr (Or.inr ⟨rfl, Or.inr ⟨rfl, Or.inl (by decide)⟩⟩)
    · exact Or.inl (fun u hu => absurd hu List.not_mem_nil)
  | built id deps nonce txs resume hu =>
    refine Or.inl (fun v hv => @rank_buildPutInbox reply sh id deps nonce txs resume v ?_)
    rwa [Option.some.inj h]
  | releaseSent id txs resume hn =>
    rcases hn with rfl | rfl
    · exact Or.inl (fun u => rank_next resume _ _)
    · refine Or.inl (fun u => hone (rank_lt.mpr (Or.inr ⟨rfl, ?_⟩)))
      simp only [Option.elim_none]
      omega
  | recycled id resume => exact Or.inl (fun u => rank_next resume _ _)
  | voteSent | nonceConfirmed =>
    exact Or.inl (fun u => hone (rank_lt.mpr (Or.inr ⟨rfl, Or.inl (Nat.lt_succ_self _)⟩)))
  | refused | tooMany | confirmed | mailed | submitted | notSubmitted | accepted | declined
    | forwardStarted | rejected | processVoted | modeRead | abortsReported =>
    exact Or.inl (fun u => hone (rank_lt_of_stage (by decide)))

end Rank

section Potential

/-- What a task may still add to the mailboxes or wake others with: a delivery pays for the
message, for its notification and for itself. -/
def Task.credit : Task → List Unit
  | .request (.mailboxMessage _) => [(), (), ()]
  | .notifyWaiters => [()]
  | _ => []

/-- The messages and what is still to come of deliveries. -/
def potential (w : World) : Nat := w.shared.st.mailCount + (w.held Task.credit).length

theorem offCommands_credit : OffCommands Task.credit :=
  ⟨fun _ _ => rfl, fun _ _ => rfl, fun _ => rfl, fun _ => rfl, fun _ => rfl⟩

variable {cfg : Config} {reply : TaskReply} {sh sh' : Shared} {t : Task} {next : List Task}
  {es : List Event}

/-- Only a delivery leaves tasks with credit. -/
theorem credit_taskStep (h : taskStep cfg reply sh t = some (sh', next, es)) :
    next.flatMap Task.credit = [] ∨
      ∃ msg, t = .request (.mailboxMessage msg) ∧ next = [.notifyWaiters] := by
  have heffect := taskStep_effect h
  cases heffect with
  | mailed msg => exact Or.inr ⟨msg, rfl, rfl⟩
  | modeChosen txs waiter hu => rcases hu with rfl | ⟨rfl, -⟩ <;> exact Or.inl rfl
  | registered => exact Or.inl (flatMap_submitFirst (fun _ => rfl) rfl)
  | decided | voteRecorded => exact Or.inl (flatMap_commandOr cfg offCommands_credit _ _)
  | periodOpened | rolledBack | releaseSkipped | recycled =>
    exact Or.inl (flatMap_next cfg offCommands_credit _)
  | enqueued txs waiter hu => rcases hu with rfl | ⟨fingerprint, req, rfl⟩ <;> exact Or.inl rfl
  | requested fingerprint req waiter hu => rcases hu with rfl | ⟨err, rfl⟩ <;> exact Or.inl rfl
  | removed registrar err => cases registrar <;> exact Or.inl rfl
  | proceeded registrar =>
    exact Or.inl (flatMap_registrarNext cfg (fun _ _ => rfl) (fun _ _ => rfl) (fun _ _ _ => rfl)
      registrar)
  | resolved fingerprint result after => cases after <;> exact Or.inl rfl
  | releaseStarted id deps resume hc hu => rcases hu with rfl | ⟨nonce, rfl⟩ <;> exact Or.inl rfl
  | abortSent id resume hc hn => rcases hn with rfl | rfl <;> exact Or.inl rfl
  | built id deps nonce txs resume hu =>
    rcases hu with rfl | rfl | ⟨rest, nonce', txs', rfl⟩ <;> exact Or.inl rfl
  | releaseSent id txs resume hn =>
    rcases hn with rfl | rfl
    · exact Or.inl (flatMap_next cfg offCommands_credit _)
    · exact Or.inl rfl
  | stopped | refused | tooMany | confirmed | submitted | notSubmitted | accepted | declined
    | forwardStarted | forwarded | rejected | processed | processVoted | modeRead | abortSkipped
    | abortsReported | voteSent | peerVoteSent | noncesReset | nonceConfirmed => exact Or.inl rfl

/-- Only a delivery brings a message in. -/
theorem mailCount_taskStep (h : taskStep cfg reply sh t = some (sh', next, es)) :
    sh'.st.mailCount ≤ sh.st.mailCount ∨
      (∃ msg, t = .request (.mailboxMessage msg)) ∧ sh'.st.mailCount ≤ sh.st.mailCount + 1 := by
  rcases taskStep_op h with ⟨-, hst⟩ | ⟨op, hop, hst⟩
  · exact Or.inl (by rw [hst])
  · have hle := mailCount_apply cfg sh.st op
    rw [← hst] at hle
    have hruns := runsOp_of_taskOp hop
    cases hruns with
    | mailed msg => exact Or.inr ⟨⟨msg, rfl⟩, hle⟩
    | _ => exact Or.inl hle

theorem potential_taskStep (h : taskStep cfg reply sh t = some (sh', next, es)) :
    sh'.st.mailCount + (next.flatMap Task.credit).length ≤
      sh.st.mailCount + t.credit.length := by
  rcases credit_taskStep h with hnone | ⟨msg, rfl, rfl⟩
  · rw [hnone]
    rcases mailCount_taskStep h with hle | ⟨⟨msg, rfl⟩, hle⟩
    · exact Nat.le_add_right_of_le hle
    · exact Nat.le_trans hle (by simp [Task.credit])
  · have hle : sh'.st.mailCount ≤ sh.st.mailCount + 1 := by
      rcases mailCount_taskStep h with hle | ⟨-, hle⟩
      · exact Nat.le_succ_of_le hle
      · exact hle
    simp only [List.flatMap_cons, List.flatMap_nil, List.append_nil, Task.credit,
      List.length_cons, List.length_nil]
    omega

end Potential

section Rest

variable {cfg : Config} {w w' : World} {m : Move}

/-- The moves that the coordinator makes of its own. -/
def Move.isInternal : Move → Bool
  | .run _ _ | .notify => true
  | .arrive _ | .connection _ => false

theorem credit_notified : (fun t : Task => t.notified.credit) = Task.credit := by
  funext t
  cases t <;> rfl

/-- Every move of its own brings the coordinator nearer to rest. -/
theorem internal_descends (h : WorldStep cfg w m w') (hm : m.isInternal = true) :
    Descends potential TaskSystem.tasks Task.rank w w' := by
  cases h with
  | arrive | connection => simp [Move.isInternal] at hm
  | run hrun =>
    cases hrun with
    | @intro before after next sh' es htasks hstep =>
      have hpotential : potential ⟨sh', before ++ next ++ after, w.log ++ es⟩ ≤ potential w ∧
          (sh'.st.mailCount < w.shared.st.mailCount →
            next.flatMap Task.credit = [] →
            potential ⟨sh', before ++ next ++ after, w.log ++ es⟩ < potential w) := by
        have hle := potential_taskStep hstep
        simp only [potential, held_split_eq htasks, held_run_eq, List.length_append]
        constructor
        · omega
        · intro hmail hnone
          rw [hnone]
          simp only [List.length_nil]
          omega
      rcases taskStep_descends hstep with hless | hmail
      · rcases Nat.lt_or_eq_of_le hpotential.1 with hlt | heq
        · exact Or.inl hlt
        · exact Or.inr ⟨heq, before, _, after, next, htasks, rfl, hless⟩
      · rcases credit_taskStep hstep with hnone | ⟨msg, rfl, rfl⟩
        · exact Or.inl (hpotential.2 hmail hnone)
        · rcases Nat.lt_or_eq_of_le hpotential.1 with hlt | heq
          · exact Or.inl hlt
          · refine Or.inr ⟨heq, before, _, after, _, htasks, rfl, fun u hu => ?_⟩
            obtain rfl := List.mem_singleton.mp hu
            exact rank_lt_of_stage (by decide)
  | @notify before after htasks =>
    refine Or.inl ?_
    have hone : (Task.notifyWaiters.credit).length = 1 := rfl
    simp only [potential, TaskSystem.held, htasks, List.flatMap_map, credit_notified,
      List.flatMap_append, List.flatMap_cons, List.length_append, hone]
    omega

theorem connection_level (w : World) (up : Bool) :
    descentMeasure potential TaskSystem.tasks Task.rank
        { w with shared := { w.shared with connected := up } } =
      descentMeasure potential TaskSystem.tasks Task.rank w :=
  rfl

/-- A wait can always run out of time, and everything else goes on with any answer. -/
theorem procStep_can {pc : ProcPc} (hpc : pc ≠ .finished) (id : InstanceId)
    (st : CoordinatorState) : (procStep cfg id { expired := true } st pc).isSome := by
  cases pc with
  | start | setup | simulate | refresh =>
    simp only [procStep]
    split <;> rfl
  | verify =>
    simp only [procStep]
    split_ifs <;> rfl
  | permissions =>
    simp only [procStep]
    split_ifs
    · split <;> rfl
    · rfl
  | permit txs overrides involved rest => cases rest <;> rfl
  | dispatch =>
    simp only [procStep]
    split_ifs <;> rfl
  | sending frame result toSend => cases toSend <;> rfl
  | waiting frame deps wait => cases wait <;> rfl
  | asked | lock | record | vote => rfl
  | finished => exact absurd rfl hpc

theorem taskStep_can {t : Task} (ht : t ≠ .notifyWaiters) (sh : Shared) :
    (taskStep cfg { proc := { expired := true } } sh t).isSome := by
  cases t with
  | process id pc =>
    cases pc with
    | vote | finished => rfl
    | _ =>
      simp only [taskStep, Option.isSome_map]
      exact procStep_can (by simp) id sh.st
  | submit =>
    simp only [taskStep]
    split_ifs <;> rfl
  | publisherVotes votes =>
    cases votes with
    | nil => rfl
    | cons vote rest => rfl
  | confirmNonces ids =>
    cases ids with
    | nil => rfl
    | cons id rest => rfl
  | notifyWaiters => exact absurd rfl ht
  | _ => rfl

/-- As long as there is a task, one can move. -/
theorem exists_internal_move (h : w.tasks ≠ []) :
    ∃ m w', m.isInternal = true ∧ WorldStep cfg w m w' := by
  obtain ⟨t, rest, htasks⟩ := List.exists_cons_of_ne_nil h
  by_cases hnotify : t = .notifyWaiters
  · subst hnotify
    exact ⟨.notify, _, rfl, .notify (htasks.trans (List.nil_append _).symm)⟩
  · obtain ⟨⟨sh', next, es⟩, hstep⟩ := Option.isSome_iff_exists.mp (taskStep_can hnotify w.shared)
    exact ⟨.run t _, _, rfl, .run (.intro (htasks.trans (List.nil_append _).symm) hstep)⟩

/-- From every state the coordinator can come to an end with all that it has begun. -/
theorem comes_to_rest (cfg : Config) (w : World) :
    ∃ ms w', Run (WorldStep cfg) w ms w' ∧ (∀ m ∈ ms, m.isInternal = true) ∧ w'.tasks = [] := by
  have hwf := @wellFounded_descends World Task Rank _ potential TaskSystem.tasks Task.rank _
  induction w using hwf.induction with
  | _ w ih =>
    by_cases htasks : w.tasks = []
    · exact ⟨[], w, .nil w, by simp, htasks⟩
    · obtain ⟨m, w', hm, hstep⟩ := @exists_internal_move cfg w htasks
      obtain ⟨ms, w'', hrun, hms, hrest⟩ := ih w' (internal_descends hstep hm)
      exact ⟨m :: ms, w'', .cons hstep hrun, by simpa [hm] using hms, hrest⟩

/-- However tasks, notifications and answers from outside interleave: without new calls the
coordinator makes only finitely many moves, and it is never stuck before all its tasks have
ended. -/
theorem coordinator_comes_to_rest (cfg : Config) :
    (∀ (ws : Nat → World) (ms : Nat → Move), (∀ n, WorldStep cfg (ws n) (ms n) (ws (n + 1))) →
      (∀ n request, ms n ≠ .arrive request) →
      ∃ n, ∀ k, n ≤ k → ∃ up, ms k = .connection up) ∧
    ∀ w : World, ∃ ms w', Run (WorldStep cfg) w ms w' ∧ (∀ m ∈ ms, m.isInternal = true) ∧
      w'.tasks = [] := by
  refine ⟨fun ws ms hsteps hclosed => ?_, comes_to_rest cfg⟩
  have hlevel : ∀ n, Descends potential TaskSystem.tasks Task.rank (ws n) (ws (n + 1)) ∨
      descentMeasure potential TaskSystem.tasks Task.rank (ws (n + 1)) =
        descentMeasure potential TaskSystem.tasks Task.rank (ws n) := by
    intro n
    have hstep := hsteps n
    have hnone := hclosed n
    generalize ms n = m at hstep hnone
    generalize ws (n + 1) = w' at hstep
    cases hstep with
    | arrive request => exact absurd rfl (hnone request)
    | connection up => exact Or.inr (connection_level _ up)
    | run hrun => exact Or.inl (internal_descends (.run hrun) rfl)
    | notify htasks => exact Or.inl (@internal_descends cfg _ _ _ (.notify htasks) rfl)
  obtain ⟨n, hn⟩ := finitely_many_descents hlevel
  refine ⟨n, fun k hk => ?_⟩
  cases hm : ms k with
  | arrive request => exact absurd hm (hclosed k request)
  | connection up => exact ⟨up, rfl⟩
  | run t reply => exact absurd (internal_descends (hsteps k) (by rw [hm]; rfl)) (hn k hk)
  | notify => exact absurd (internal_descends (hsteps k) (by rw [hm]; rfl)) (hn k hk)

end Rest

end Sidecar.Coordinator
