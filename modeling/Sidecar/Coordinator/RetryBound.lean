import Sidecar.Coordinator.CommitVote
import Sidecar.Coordinator.Delivery
import Sidecar.Coordinator.LostWakeup
import Sidecar.Coordinator.MailboxConservation
import Sidecar.Coordinator.MailboxKeys
import Sidecar.Framework.Passes

namespace Sidecar.Coordinator

open Mailbox

section Run

variable (cfg : Config) (id : InstanceId)

/-- One move of `process_xt` and everything around it. The others may run any locked part, also one
that registers the instance again. -/
def procMove (s : ProcSystem) : ProcMove → Option ProcSystem
  | .proc reply =>
    (procStep cfg id reply s.st s.pc).map (fun r => ⟨r.1, r.2.1, s.log ++ r.2.2⟩)
  | .notify => some { s with pc := s.pc.notified }
  | .env op => some { s with st := op.apply cfg s.st }

def LooseStep (s : ProcSystem) (move : ProcMove) (t : ProcSystem) : Prop :=
  procMove cfg id s move = some t

theorem looseStep_of_procStep {s t : ProcSystem} {move : ProcMove} (h : ProcStep cfg id s move t) :
    LooseStep cfg id s move t := by
  cases h with
  | proc h => exact Option.map_eq_some_iff.mpr ⟨_, h, rfl⟩
  | notify => rfl
  | env h => rfl

/-- The messages that the next step of `process_xt` takes out of the mailbox. -/
def spentBy (st : CoordinatorState) : ProcPc → List MailboxMessage
  | .waiting _ deps .check => (Op.fulfill id deps).consumes st id
  | _ => []

/-- The pass that begins with the next step of `process_xt`. -/
def calledAt : ProcPc → List (Pass MailboxMessage)
  | .simulate frame => if frame.index < frame.txs.length then [⟨frame.index, []⟩] else []
  | _ => []

/-- The messages that were ever attached to the instance, and the calls of the simulator, the latest
one first, each with the messages that were consumed before the next call. -/
structure RetryLedger where
  attached : List MailboxMessage
  passes : List (Pass MailboxMessage)

def RetryLedger.write (s : ProcSystem) (move : ProcMove) (ledger : RetryLedger) : RetryLedger :=
  match move with
  | .proc _ =>
    { ledger with passes := Pass.spend (spentBy id s.st s.pc) (calledAt s.pc ++ ledger.passes) }
  | .notify => ledger
  | .env op => { ledger with attached := ledger.attached ++ op.attaches cfg s.st id }

end Run

section Consumed

/-- The number that the check counts is that of the consumed messages. -/
theorem fulfillXt_added (xt : PendingXt) (deps : List CrossRollupDependency) :
    (fulfillXt xt deps).2 = (consumedBy xt deps).length := by
  induction deps generalizing xt with
  | nil => rfl
  | cons dep deps ih =>
    rw [fulfillXt_cons, consumedBy, List.length_append, ih, fulfillOne_found]
    cases consumedOne xt dep <;> rfl

theorem length_fulfillOne (xt : PendingXt) (dep : CrossRollupDependency) :
    (fulfillOne xt dep).1.pendingMailbox.length + (consumedOne xt dep).toList.length =
      xt.pendingMailbox.length := by
  cases hone : consumedOne xt dep with
  | none =>
    rw [fulfillOne_none hone]
    rfl
  | some msg =>
    obtain ⟨-, -, rest, hrest, hxt⟩ := fulfillOne_some hone
    rw [hxt, ← hrest.length_eq]
    rfl

theorem length_fulfillXt (xt : PendingXt) (deps : List CrossRollupDependency) :
    (fulfillXt xt deps).1.pendingMailbox.length + (consumedBy xt deps).length =
      xt.pendingMailbox.length := by
  induction deps generalizing xt with
  | nil => rfl
  | cons dep deps ih =>
    have hone := length_fulfillOne xt dep
    have hrest := ih (fulfillOne xt dep).1
    rw [fulfillXt_cons, consumedBy, List.length_append]
    dsimp only
    omega

theorem keyedBy_fulfillXt {xt : PendingXt} (h : KeyedBy xt.fulfilledDeps xt.fulfilledDepKeys)
    (deps : List CrossRollupDependency) :
    KeyedBy (fulfillXt xt deps).1.fulfilledDeps (fulfillXt xt deps).1.fulfilledDepKeys := by
  induction deps generalizing xt with
  | nil => exact h
  | cons dep deps ih =>
    rw [fulfillXt_cons]
    exact ih (keyedBy_fulfillOne h dep)

end Consumed

section Ops

variable (cfg : Config) (st : CoordinatorState) (op : Op) (id : InstanceId)

/-- A locked part leaves at most so many messages as there were, were attached and not consumed. -/
theorem mailbox_step {spent attached : Nat} (hbooks : spent ≤ attached)
    (hentry : ∀ x, st.pending.lookup id = some x → spent + x.pendingMailbox.length ≤ attached)
    {x' : PendingXt} (hx' : (op.apply cfg st).pending.lookup id = some x') :
    spent + (op.consumes st id).length + x'.pendingMailbox.length ≤
      attached + (op.attaches cfg st id).length := by
  have heffect := mailEffect cfg st op id
  rw [hx'] at heffect
  generalize hold : st.pending.lookup id = old at heffect
  cases heffect with
  | registered _ hreg hmail =>
    have hattaches : op.attaches cfg st id = x'.pendingMailbox := by
      unfold Op.attaches
      rw [if_pos hreg, hx']
      rfl
    rw [hattaches, consumes_of_admits st (admits_of_registers hreg)]
    simpa using hbooks
  | @kept x _ hreg hattach hconsume hmail =>
    have hsame : x'.pendingMailbox = x.pendingMailbox := congrArg XtMail.pendingMailbox hmail
    rw [hattach, hconsume, hsame]
    exact hentry x hold
  | @delivered x msg hop hindex =>
    have hmem : id ∈ st.pending := Map.mem_of_lookup hold
    have hlength := hentry x hold
    rw [hop, attaches_mailbox, if_pos ⟨hindex, hmem⟩]
    simp only [Op.consumes, List.length_append, List.length_singleton, List.length_nil]
    omega
  | @recorded x result base hop =>
    obtain ⟨depKeys, dependencies, outbound, hframe⟩ := recordResult_frame x result
    rw [hop, hframe]
    exact hentry x hold
  | @fulfilled x deps hop =>
    have hlength := length_fulfillXt x deps
    have hbefore := hentry x hold
    have hconsumes : (Op.fulfill id deps).consumes st id = consumedBy x deps := by
      rw [Op.consumes, if_pos rfl, hold]
      rfl
    rw [hop, hconsumes]
    omega

theorem consumed_step {spent attached : Nat} (hbooks : spent ≤ attached)
    (hentry : ∀ x, st.pending.lookup id = some x → spent + x.pendingMailbox.length ≤ attached) :
    spent + (op.consumes st id).length ≤ attached := by
  cases op with
  | fulfill target deps =>
    simp only [Op.consumes]
    split_ifs with hid
    · cases hl : st.pending.lookup id with
      | none => exact hbooks
      | some x =>
        have hlength := length_fulfillXt x deps
        have hbefore := hentry x hl
        rw [Option.elim_some]
        omega
    · exact hbooks
  | _ => exact hbooks

/-- The keys beside the fulfilled dependencies stay in step. -/
theorem fulfilledKeyed_step
    (h : ∀ x, st.pending.lookup id = some x → KeyedBy x.fulfilledDeps x.fulfilledDepKeys)
    {x' : PendingXt} (hx' : (op.apply cfg st).pending.lookup id = some x') :
    KeyedBy x'.fulfilledDeps x'.fulfilledDepKeys := by
  have heffect := mailEffect cfg st op id
  rw [hx'] at heffect
  generalize hold : st.pending.lookup id = old at heffect
  cases heffect with
  | registered _ hreg hmail =>
    rw [show x'.fulfilledDeps = [] from congrArg XtMail.fulfilledDeps hmail,
      show x'.fulfilledDepKeys = ∅ from congrArg XtMail.fulfilledDepKeys hmail]
    exact .nil
  | @kept x _ hreg hattach hconsume hmail =>
    rw [show x'.fulfilledDeps = x.fulfilledDeps from congrArg XtMail.fulfilledDeps hmail,
      show x'.fulfilledDepKeys = x.fulfilledDepKeys from congrArg XtMail.fulfilledDepKeys hmail]
    exact h x hold
  | @delivered x msg hop hindex => exact h x hold
  | @recorded x result base hop =>
    obtain ⟨depKeys, dependencies, outbound, hframe⟩ := recordResult_frame x result
    rw [hframe]
    exact h x hold
  | @fulfilled x deps hop => exact keyedBy_fulfillXt (h x hold) deps

/-- Only the check of a wait fulfills a dependency. -/
theorem fulfilledKeys_step (hop : ∀ deps, op ≠ .fulfill id deps) {x' : PendingXt}
    (hx' : (op.apply cfg st).pending.lookup id = some x') {key : DependencyKey}
    (hkey : key ∈ x'.fulfilledDepKeys) :
    ∃ x, st.pending.lookup id = some x ∧ key ∈ x.fulfilledDepKeys := by
  have heffect := mailEffect cfg st op id
  rw [hx'] at heffect
  generalize hold : st.pending.lookup id = old at heffect ⊢
  cases heffect with
  | registered _ hreg hmail =>
    rw [show x'.fulfilledDepKeys = ∅ from congrArg XtMail.fulfilledDepKeys hmail] at hkey
    simp at hkey
  | @kept x _ hreg hattach hconsume hmail =>
    rw [show x'.fulfilledDepKeys = x.fulfilledDepKeys from
      congrArg XtMail.fulfilledDepKeys hmail] at hkey
    exact ⟨x, rfl, hkey⟩
  | @delivered x msg hop' hindex => exact ⟨x, rfl, hkey⟩
  | @recorded x result base hop' =>
    obtain ⟨depKeys, dependencies, outbound, hframe⟩ := recordResult_frame x result
    rw [hframe] at hkey
    exact ⟨x, rfl, hkey⟩
  | fulfilled deps hop' => exact absurd hop' (hop deps)

end Ops

section Passes

variable {cfg : Config} {id : InstanceId} {txs : List Bytes}

/-- Where `process_xt` stands in the passes that it made over its transactions. -/
def PcPaced (txs : List Bytes) (passes : List (Pass MailboxMessage)) : ProcPc → Prop
  | .start => False
  | .verify given _ | .asked given _ _ | .permissions given _ | .permit given _ _ _
  | .lock given _ | .setup given _ => given = txs ∧ passes = []
  | .simulate frame | .refresh frame => frame.txs = txs ∧ Pass.MayFollow frame.index passes
  | .record frame _ | .dispatch frame _ | .sending frame _ _ =>
    frame.txs = txs ∧ Pass.LatestAt frame.index passes
  | .waiting frame _ pc =>
    frame.txs = txs ∧ Pass.LatestAt frame.index passes ∧
      (pc = .done true → Pass.MayFollow frame.index passes)
  | .vote _ | .finished => True

/-- The calls are paced by the messages, and what was consumed had been attached. -/
structure RetryInv (id : InstanceId) (txs : List Bytes) (s : ProcSystem × RetryLedger) : Prop where
  pc : PcPaced txs s.2.passes s.1.pc
  paced : Pass.Paced s.2.passes
  below : ∀ p ∈ s.2.passes, p.index < txs.length
  calls : (attempts s.1.log).map Attempt.index = (s.2.passes.map Pass.index).reverse
  books : (Pass.total s.2.passes).length ≤ s.2.attached.length
  entry : ∀ x, s.1.st.pending.lookup id = some x →
    (Pass.total s.2.passes).length + x.pendingMailbox.length ≤ s.2.attached.length

/-- The locked part of a step attaches nothing and consumes what the step spends. -/
theorem procOp_mail {reply : Reply} {pc : ProcPc} {op : Op} (st : CoordinatorState)
    (h : procOp cfg id reply pc = some op) :
    op.attaches cfg st id = [] ∧ op.consumes st id = spentBy id st pc := by
  unfold procOp at h
  split at h
  · obtain rfl := Option.some.inj h
    exact ⟨rfl, rfl⟩
  · obtain rfl := Option.some.inj h
    exact ⟨rfl, rfl⟩
  · split_ifs at h
    obtain rfl := Option.some.inj h
    exact ⟨rfl, rfl⟩
  · obtain rfl := Option.some.inj h
    exact ⟨rfl, rfl⟩
  · obtain rfl := Option.some.inj h
    exact ⟨rfl, rfl⟩
  · simp at h

theorem spentBy_of_procOp {reply : Reply} {pc : ProcPc} (st : CoordinatorState)
    (h : procOp cfg id reply pc = none) : spentBy id st pc = [] := by
  unfold spentBy
  split
  · simp [procOp] at h
  · rfl

/-- Before it spends anything, `process_xt` has called the simulator. -/
theorem spends_latest {passes : List (Pass MailboxMessage)} {st : CoordinatorState} {pc : ProcPc}
    (h : PcPaced txs passes pc) :
    (Pass.total (Pass.spend (spentBy id st pc) (calledAt pc ++ passes))).length =
      (Pass.total passes).length + (spentBy id st pc).length := by
  unfold spentBy calledAt
  split
  · obtain ⟨-, hlatest, -⟩ := h
    exact hlatest.total_spend _
  · rw [Pass.spend_nil]
    split
    · split_ifs <;> simp [Pass.total]
    · simp

theorem retryInv_books {s t : ProcSystem} {ledger : RetryLedger} {reply : Reply}
    (hinv : RetryInv id txs (s, ledger)) {pc' : ProcPc} {events : List ProcEvent}
    (hproc : procStep cfg id reply s.st s.pc = some (t.st, pc', events)) :
    (Pass.total (ledger.write cfg id s (.proc reply)).passes).length ≤ ledger.attached.length ∧
      ∀ x, t.st.pending.lookup id = some x →
        (Pass.total (ledger.write cfg id s (.proc reply)).passes).length +
          x.pendingMailbox.length ≤ ledger.attached.length := by
  have htotal : (Pass.total (ledger.write cfg id s (.proc reply)).passes).length =
      (Pass.total ledger.passes).length + (spentBy id s.st s.pc).length := spends_latest hinv.pc
  rw [htotal]
  rcases procStep_op hproc with ⟨hop, hst⟩ | ⟨op, hop, hst⟩
  · rw [spentBy_of_procOp s.st hop, hst]
    exact ⟨hinv.books, hinv.entry⟩
  · obtain ⟨hattaches, hconsumes⟩ := procOp_mail s.st hop
    rw [← hconsumes, hst]
    refine ⟨consumed_step s.st op id hinv.books hinv.entry, fun x hx => ?_⟩
    have hstep := mailbox_step cfg s.st op id hinv.books hinv.entry hx
    rwa [hattaches] at hstep

/-- What the simulation step does: it calls the simulator on the transaction that is due, if there
is one. -/
theorem procStep_simulate {reply : Reply} {st st' : CoordinatorState} {frame : SimFrame}
    {pc' : ProcPc} {events : List ProcEvent}
    (h : procStep cfg id reply st (.simulate frame) = some (st', pc', events)) :
    (frame.txs.length ≤ frame.index ∧ pc' = .vote true ∧ attempts events = []) ∨
      (frame.index < frame.txs.length ∧ (attempts events).map Attempt.index = [frame.index] ∧
        ((∃ result, pc' = .record frame result) ∨ pc' = .vote false)) := by
  simp only [procStep] at h
  cases htx : frame.txs[frame.index]? with
  | none =>
    rw [htx] at h
    obtain ⟨-, rfl, rfl⟩ := by simpa using h
    exact Or.inl ⟨List.getElem?_eq_none_iff.mp htx, rfl, rfl⟩
  | some tx =>
    obtain ⟨hlt, -⟩ := List.getElem?_eq_some_iff.mp htx
    cases hreply : reply.simulation with
    | ok result =>
      simp only [htx, hreply, Option.some.injEq, Prod.mk.injEq] at h
      obtain ⟨-, rfl, rfl⟩ := h
      exact Or.inr ⟨hlt, rfl, Or.inl ⟨result, rfl⟩⟩
    | error err =>
      simp only [htx, hreply, Option.some.injEq, Prod.mk.injEq] at h
      obtain ⟨-, rfl, rfl⟩ := h
      exact Or.inr ⟨hlt, rfl, Or.inr rfl⟩

/-- Only the simulation step calls the simulator. -/
theorem attempts_of_not_simulate {reply : Reply} {st st' : CoordinatorState} {pc pc' : ProcPc}
    {events : List ProcEvent} (h : procStep cfg id reply st pc = some (st', pc', events))
    (hpc : ∀ frame, pc ≠ .simulate frame) : attempts events = [] := by
  cases procStep_effect h with
  | simulated frame | simulationFailed frame => exact absurd rfl (hpc frame)
  | voted vote => split_ifs <;> rfl
  | _ => rfl

theorem calledAt_of_not_simulate {pc : ProcPc} (hpc : ∀ frame, pc ≠ .simulate frame) :
    calledAt pc = [] := by
  cases pc with
  | simulate frame => exact absurd rfl (hpc frame)
  | _ => rfl

theorem reverse_calledAt (pc : ProcPc) :
    ((calledAt pc).map Pass.index).reverse = (calledAt pc).map Pass.index := by
  unfold calledAt
  split
  · split_ifs <;> rfl
  · rfl

theorem attempts_calledAt {reply : Reply} {st st' : CoordinatorState} {pc pc' : ProcPc}
    {events : List ProcEvent} (h : procStep cfg id reply st pc = some (st', pc', events)) :
    (attempts events).map Attempt.index = (calledAt pc).map Pass.index := by
  by_cases hpc : ∃ frame, pc = .simulate frame
  · obtain ⟨frame, rfl⟩ := hpc
    rcases procStep_simulate h with ⟨hle, -, hnone⟩ | ⟨hlt, hone, -⟩
    · rw [hnone, calledAt, if_neg (Nat.not_lt.mpr hle)]
      rfl
    · rw [hone, calledAt, if_pos hlt]
      rfl
  · have hnot : ∀ frame, pc ≠ .simulate frame := fun frame he => hpc ⟨frame, he⟩
    rw [attempts_of_not_simulate h hnot, calledAt_of_not_simulate hnot]
    rfl

/-- A call begins only when a pass is due. -/
theorem paced_called {passes : List (Pass MailboxMessage)} {pc : ProcPc}
    (hpc : PcPaced txs passes pc) (hpaced : Pass.Paced passes)
    (hbelow : ∀ p ∈ passes, p.index < txs.length) :
    Pass.Paced (calledAt pc ++ passes) ∧ ∀ p ∈ calledAt pc ++ passes, p.index < txs.length := by
  unfold calledAt
  split
  · next frame =>
    obtain ⟨htxs, hdue⟩ := hpc
    split_ifs with hlt
    · refine ⟨⟨hdue, hpaced⟩, fun p hp => ?_⟩
      rcases List.mem_cons.mp hp with rfl | hp
      · exact htxs ▸ hlt
      · exact hbelow p hp
    · exact ⟨hpaced, hbelow⟩
  · exact ⟨hpaced, hbelow⟩

theorem added_eq_spent (st : CoordinatorState) (frame : SimFrame)
    (deps : List CrossRollupDependency) :
    (fulfillDependenciesFromMailbox st id deps).2 =
      (spentBy id st (.waiting frame deps .check)).length := by
  simp only [fulfillDependenciesFromMailbox, spentBy, Op.consumes, if_true]
  cases st.pending.lookup id with
  | none => rfl
  | some x => exact fulfillXt_added x deps

/-- Only a check that consumed something ends the wait with success. -/
theorem waitStep_served {deps : List CrossRollupDependency} {expired wake : Bool}
    {st st' : CoordinatorState} {pc : WaitPc}
    (h : waitStep id deps expired wake st pc = some (st', .done true)) :
    pc = .check ∧ 0 < (fulfillDependenciesFromMailbox st id deps).2 := by
  cases pc with
  | check =>
    simp only [waitStep, Option.some.injEq, Prod.mk.injEq] at h
    refine ⟨rfl, ?_⟩
    by_contra hzero
    rw [if_neg hzero] at h
    simp at h
  | deadline =>
    simp only [waitStep, Option.some.injEq, Prod.mk.injEq] at h
    obtain ⟨-, h⟩ := h
    split_ifs at h
    simp at h
  | clone | create => simp [waitStep] at h
  | select woken =>
    simp only [waitStep] at h
    split_ifs at h <;> simp at h
  | done r => simp [waitStep] at h

/-- A step inside the wait stays in the wait. -/
theorem procStep_waiting {reply : Reply} {st st' : CoordinatorState} {frame : SimFrame}
    {deps : List CrossRollupDependency} {wait : WaitPc} {pc' : ProcPc} {events : List ProcEvent}
    (h : procStep cfg id reply st (.waiting frame deps wait) = some (st', pc', events)) :
    (∃ served, wait = .done served ∧ pc' = if served then .refresh frame else .vote false) ∨
      ∃ wait', waitStep id deps reply.expired reply.wake st wait = some (st', wait') ∧
        pc' = .waiting frame deps wait' := by
  cases wait with
  | done served =>
    obtain ⟨-, rfl, -⟩ := by simpa [procStep] using h
    exact Or.inl ⟨served, rfl, rfl⟩
  | check | deadline | clone | create | select =>
    simp only [procStep, Option.map_eq_some_iff, Prod.mk.injEq] at h
    obtain ⟨r, hwait, rfl, rfl, -⟩ := h
    exact Or.inr ⟨r.2, hwait, rfl⟩

theorem pcPaced_afterRecord {passes : List (Pass MailboxMessage)} {frame : SimFrame}
    (h : frame.txs = txs ∧ Pass.LatestAt frame.index passes) (result : SimulationResult) :
    PcPaced txs passes (afterRecord frame result) := by
  unfold afterRecord
  split_ifs
  · trivial
  · trivial
  · exact h

theorem pcPaced_afterDispatch {passes : List (Pass MailboxMessage)} {frame : SimFrame}
    (h : frame.txs = txs ∧ Pass.LatestAt frame.index passes) (result : SimulationResult) :
    PcPaced txs passes (afterDispatch frame result) := by
  unfold afterDispatch
  split_ifs
  · exact ⟨h.1, h.2.next⟩
  · exact ⟨h.1, h.2, by simp⟩

/-- The steps that neither call the simulator nor wait. -/
theorem pcPaced_quiet {passes : List (Pass MailboxMessage)} {reply : Reply}
    {st st' : CoordinatorState} {pc pc' : ProcPc} {events : List ProcEvent}
    (h : procStep cfg id reply st pc = some (st', pc', events)) (hpc : PcPaced txs passes pc)
    (hsim : ∀ frame, pc ≠ .simulate frame) (hwait : ∀ frame deps wait, pc ≠ .waiting frame deps wait) :
    PcPaced txs passes pc' := by
  cases procStep_effect h with
  | allSimulated frame | simulated frame | simulationFailed frame => exact absurd rfl (hsim frame)
  | waits frame deps | served frame deps | timedOut frame deps => exact absurd rfl (hwait frame deps _)
  | missing | noLocalTxs | ready => exact hpc.elim
  | setup given overrides hx =>
    obtain ⟨htxs, hnone⟩ := hpc
    rw [hnone]
    exact ⟨htxs, rfl⟩
  | recorded frame result =>
    have hlatest : frame.txs = txs ∧ Pass.LatestAt frame.index passes := hpc
    refine pcPaced_afterRecord ?_ result
    exact hlatest
  | nothingToSend | allSent => exact pcPaced_afterDispatch hpc _
  | disapproved | denied | unsimulated | setupGone | undelivered | refreshGone | voted => trivial
  | asks | unverified | approved | unpermissioned | permissioned | permitted | allowed | locked
    | claimed | sent | refreshed => exact hpc

/-- Every step leads on from where `process_xt` stood. -/
theorem pcPaced_step {passes : List (Pass MailboxMessage)} {reply : Reply}
    {st st' : CoordinatorState} {pc pc' : ProcPc} {events : List ProcEvent}
    (h : procStep cfg id reply st pc = some (st', pc', events)) (hpc : PcPaced txs passes pc) :
    PcPaced txs (Pass.spend (spentBy id st pc) (calledAt pc ++ passes)) pc' := by
  cases pc with
  | simulate frame =>
    obtain ⟨htxs, hdue⟩ := hpc
    rcases procStep_simulate h with ⟨-, rfl, -⟩ | ⟨hlt, -, ⟨result, rfl⟩ | rfl⟩
    · trivial
    · rw [calledAt, if_pos hlt]
      exact ⟨htxs, ⟨frame.index, _⟩, passes, rfl, rfl⟩
    · trivial
  | waiting frame deps wait =>
    obtain ⟨htxs, hlatest, hserved⟩ := hpc
    rcases procStep_waiting h with ⟨served, rfl, rfl⟩ | ⟨wait', hwait, rfl⟩
    · cases served with
      | false => trivial
      | true => exact ⟨htxs, by simpa [spentBy, calledAt] using hserved rfl⟩
    · refine ⟨htxs, hlatest.spend _, fun hdone => ?_⟩
      rw [hdone] at hwait
      obtain ⟨rfl, hadded⟩ := waitStep_served hwait
      rw [added_eq_spent st frame deps] at hadded
      exact hlatest.again (List.length_pos_iff.mp hadded)
  | _ =>
    have hquiet := pcPaced_quiet h hpc (by simp) (by simp)
    simpa only [spentBy, calledAt, Pass.spend_nil, List.nil_append] using hquiet

theorem pcPaced_notified {passes : List (Pass MailboxMessage)} {pc : ProcPc}
    (h : PcPaced txs passes pc) : PcPaced txs passes pc.notified := by
  cases pc with
  | waiting frame deps wait =>
    obtain ⟨htxs, hlatest, hserved⟩ := h
    refine ⟨htxs, hlatest, fun hdone => hserved ?_⟩
    cases wait <;> first | exact hdone | simp [WaitPc.notified] at hdone
  | _ => exact h

theorem retryInv_step {s t : ProcSystem × RetryLedger} {move : ProcMove}
    (h : Recorded (LooseStep cfg id) (RetryLedger.write cfg id) s move t)
    (hinv : RetryInv id txs s) : RetryInv id txs t := by
  obtain ⟨s, ledger⟩ := s
  obtain ⟨t, ledger'⟩ := t
  obtain ⟨hstep, hledger⟩ := h
  dsimp only at hstep hledger
  rw [hledger]
  cases move with
  | notify =>
    obtain rfl := Option.some.inj hstep
    exact ⟨pcPaced_notified hinv.pc, hinv.paced, hinv.below, hinv.calls, hinv.books, hinv.entry⟩
  | env op =>
    obtain rfl := Option.some.inj hstep
    have hlength : (ledger.write cfg id s (.env op)).attached.length =
        ledger.attached.length + (op.attaches cfg s.st id).length := List.length_append
    refine ⟨hinv.pc, hinv.paced, hinv.below, hinv.calls, ?_, fun x hx => ?_⟩
    · have hbooks := hinv.books
      dsimp only at hbooks ⊢
      rw [hlength]
      exact Nat.le_add_right_of_le hbooks
    · have hentry := mailbox_step cfg s.st op id hinv.books hinv.entry hx
      dsimp only at hentry ⊢
      rw [hlength]
      exact le_trans (Nat.add_le_add_right (Nat.le_add_right _ _) _) hentry
  | proc reply =>
    obtain ⟨⟨st', pc', events⟩, hproc, rfl⟩ := Option.map_eq_some_iff.mp hstep
    obtain ⟨hpaced, hbelow⟩ := paced_called hinv.pc hinv.paced hinv.below
    obtain ⟨hbooks, hentry⟩ := @retryInv_books cfg id txs s ⟨st', pc', s.log ++ events⟩ ledger reply
      hinv pc' events hproc
    refine ⟨pcPaced_step hproc hinv.pc, Pass.paced_spend _ hpaced, Pass.index_lt_spend _ hbelow, ?_,
      hbooks, hentry⟩
    have hcalls : (attempts s.log).map Attempt.index = (ledger.passes.map Pass.index).reverse :=
      hinv.calls
    dsimp only [RetryLedger.write]
    rw [attempts_append, List.map_append, attempts_calledAt hproc, hcalls, Pass.map_index_spend,
      List.map_append, List.reverse_append, reverse_calledAt]

/-- The first read of the run. -/
theorem retryInv_start {reply : Reply} {st : CoordinatorState} {xt : PendingXt}
    (hxt : st.pending.lookup id = some xt) {t : ProcSystem × RetryLedger}
    (h : Recorded (LooseStep cfg id) (RetryLedger.write cfg id)
      (⟨st, .start, []⟩, ⟨xt.pendingMailbox, []⟩) (.proc reply) t) :
    RetryInv id (xt.txsOf cfg.chainId) t := by
  obtain ⟨t, ledger⟩ := t
  obtain ⟨hstep, hledger⟩ := h
  dsimp only at hstep hledger
  obtain ⟨⟨st', pc', events⟩, hproc, rfl⟩ := Option.map_eq_some_iff.mp hstep
  rw [hledger]
  have hstate : st' = st := procStep_state hproc
  have hpc : PcPaced (xt.txsOf cfg.chainId) [] pc' := by
    cases procStep_effect hproc with
    | missing hgone => trivial
    | noLocalTxs => trivial
    | ready hready =>
      simp only [snapshotXt, hxt] at hready
      split_ifs at hready
      exact ⟨(Snapshot.ready.inj hready).1.symm, rfl⟩
  refine ⟨hpc, trivial, by simp [RetryLedger.write, spentBy, calledAt], ?_, Nat.zero_le _,
    fun x hx => ?_⟩
  · dsimp only
    rw [List.nil_append, attempts_of_not_simulate hproc (by simp)]
    rfl
  · dsimp only at hx
    rw [hstate, hxt] at hx
    rw [← Option.some.inj hx]
    exact Nat.le_of_eq (Nat.zero_add _)

end Passes

section Waits

variable {cfg : Config} {id : InstanceId}

/-- A dependency that the simulation was not given. -/
def OpenAt (frame : SimFrame) (deps : List CrossRollupDependency) : Prop :=
  ∃ dep ∈ deps, DependencyKey.ofDependency dep ∉ frame.fulfilled.map DependencyKey.ofDependency

/-- The way to the wait leads through a dependency that the simulation was not given. -/
def PcOpen : ProcPc → Prop
  | .dispatch frame result | .sending frame result _ =>
    result.success = false → OpenAt frame result.dependencies
  | .waiting frame deps _ => OpenAt frame deps
  | _ => True

/-- The local copy of the fulfilled dependencies has the key, except after a check that served. -/
def PcCovers (key : DependencyKey) : ProcPc → Prop
  | .simulate frame | .record frame _ | .dispatch frame _ | .sending frame _ _ =>
    key ∈ frame.fulfilled.map DependencyKey.ofDependency
  | .waiting frame _ wait =>
    wait ≠ .done true → key ∈ frame.fulfilled.map DependencyKey.ofDependency
  | _ => True

/-- The key set of the instance, its list of dependencies and the local copy of `process_xt` agree
on what is fulfilled. -/
structure WaitInv (id : InstanceId) (s : ProcSystem) : Prop where
  opens : PcOpen s.pc
  keyed : ∀ x, s.st.pending.lookup id = some x → KeyedBy x.fulfilledDeps x.fulfilledDepKeys
  covered : ∀ x key, s.st.pending.lookup id = some x → key ∈ x.fulfilledDepKeys → PcCovers key s.pc

theorem pcOpen_afterRecord (frame : SimFrame) (result : SimulationResult) :
    PcOpen (afterRecord frame result) := by
  unfold afterRecord
  split_ifs with hempty hall
  · trivial
  · trivial
  · intro hfailed
    have hmissing : alreadyFulfilled frame result = false := by simpa [hfailed] using hall
    rw [alreadyFulfilled, List.all_eq_false] at hmissing
    obtain ⟨dep, hdep, hnone⟩ := hmissing
    refine ⟨dep, hdep, fun hmem => hnone ?_⟩
    obtain ⟨fulfilled, hfulfilled, hkey⟩ := List.mem_map.mp hmem
    exact List.any_eq_true.mpr ⟨fulfilled, hfulfilled, (dependencyKeysEqual_iff _ _).mpr hkey⟩

theorem pcOpen_afterDispatch {frame : SimFrame} {result : SimulationResult}
    (h : result.success = false → OpenAt frame result.dependencies) :
    PcOpen (afterDispatch frame result) := by
  unfold afterDispatch
  split_ifs with hsuccess
  · trivial
  · exact h (by simpa using hsuccess)

theorem pcOpen_step {reply : Reply} {st st' : CoordinatorState} {pc pc' : ProcPc}
    {events : List ProcEvent} (h : procStep cfg id reply st pc = some (st', pc', events))
    (hpc : PcOpen pc) : PcOpen pc' := by
  cases procStep_effect h with
  | recorded => exact pcOpen_afterRecord _ _
  | nothingToSend | allSent => exact pcOpen_afterDispatch hpc
  | claimed | sent | waits => exact hpc
  | _ => trivial

theorem pcCovers_afterRecord {key : DependencyKey} {frame : SimFrame}
    (h : key ∈ frame.fulfilled.map DependencyKey.ofDependency) (result : SimulationResult) :
    PcCovers key (afterRecord frame result) := by
  unfold afterRecord
  split_ifs
  · trivial
  · trivial
  · exact h

theorem pcCovers_afterDispatch {key : DependencyKey} {frame : SimFrame}
    (h : key ∈ frame.fulfilled.map DependencyKey.ofDependency) (result : SimulationResult) :
    PcCovers key (afterDispatch frame result) := by
  unfold afterDispatch
  split_ifs
  · exact h
  · exact fun _ => h

/-- What was fulfilled before a step is in the local copy after it. -/
theorem pcCovers_step {reply : Reply} {st st' : CoordinatorState} {pc pc' : ProcPc}
    {events : List ProcEvent} (h : procStep cfg id reply st pc = some (st', pc', events))
    {x : PendingXt} (hx : st.pending.lookup id = some x)
    (hkeyed : KeyedBy x.fulfilledDeps x.fulfilledDepKeys) {key : DependencyKey}
    (hkey : key ∈ x.fulfilledDepKeys) (hpc : PcCovers key pc) : PcCovers key pc' := by
  cases procStep_effect h with
  | setup given overrides hy | refreshed frame hy =>
    rw [hx] at hy
    rw [← Option.some.inj hy]
    exact (hkeyed.mem_iff key).mp hkey
  | recorded frame result =>
    refine pcCovers_afterRecord ?_ result
    exact hpc
  | nothingToSend frame result | allSent frame result => exact pcCovers_afterDispatch hpc result
  | simulated | claimed | sent => exact hpc
  | waits frame deps wait wait' =>
    intro _
    refine hpc (fun hdone => ?_)
    rw [hdone] at h
    simp [procStep] at h
  | _ => trivial

/-- A check without a result leaves the instance as it was. -/
theorem lookup_of_unserved {st : CoordinatorState} {deps : List CrossRollupDependency}
    (h : (fulfillDependenciesFromMailbox st id deps).2 = 0) :
    (fulfillDependenciesFromMailbox st id deps).1.pending.lookup id = st.pending.lookup id := by
  unfold fulfillDependenciesFromMailbox at h ⊢
  cases hl : st.pending.lookup id with
  | none => exact hl
  | some x =>
    rw [hl] at h
    dsimp only at h ⊢
    rw [lookup_updateXt, if_pos rfl, hl, (fulfillXt_zero h).1]
    rfl

theorem procOp_ne_fulfill {reply : Reply} {pc : ProcPc} {op : Op}
    (hop : procOp cfg id reply pc = some op)
    (hpc : ∀ frame deps, pc ≠ .waiting frame deps .check) (deps : List CrossRollupDependency) :
    op ≠ .fulfill id deps := by
  intro he
  rw [he] at hop
  unfold procOp at hop
  split at hop
  · simp at hop
  · simp at hop
  · split_ifs at hop
    simp at hop
  · exact hpc _ _ rfl
  · simp at hop
  · simp at hop

/-- A key that is fulfilled after a step was fulfilled before it, or the step is a check that
serves. -/
theorem fulfilled_procStep {reply : Reply} {st st' : CoordinatorState} {pc pc' : ProcPc}
    {events : List ProcEvent} (h : procStep cfg id reply st pc = some (st', pc', events))
    {x' : PendingXt} (hx' : st'.pending.lookup id = some x') {key : DependencyKey}
    (hkey : key ∈ x'.fulfilledDepKeys) :
    (∃ x, st.pending.lookup id = some x ∧ key ∈ x.fulfilledDepKeys) ∨
      ∃ frame deps, pc' = .waiting frame deps (.done true) := by
  by_cases hcheck : ∃ frame deps, pc = .waiting frame deps .check
  · obtain ⟨frame, deps, rfl⟩ := hcheck
    rcases procStep_waiting h with ⟨served, hserved, -⟩ | ⟨wait', hwait, rfl⟩
    · simp at hserved
    · simp only [waitStep, Option.some.injEq, Prod.mk.injEq] at hwait
      obtain ⟨rfl, rfl⟩ := hwait
      by_cases hadded : 0 < (fulfillDependenciesFromMailbox st id deps).2
      · rw [if_pos hadded]
        exact Or.inr ⟨frame, deps, rfl⟩
      · rw [lookup_of_unserved (Nat.eq_zero_of_not_pos hadded)] at hx'
        exact Or.inl ⟨x', hx', hkey⟩
  · left
    rcases procStep_op h with ⟨-, rfl⟩ | ⟨op, hop, rfl⟩
    · exact ⟨x', hx', hkey⟩
    · have hne := procOp_ne_fulfill hop (fun frame deps he => hcheck ⟨frame, deps, he⟩)
      exact fulfilledKeys_step cfg st op id hne hx' hkey

theorem fulfilledKeyed_procStep {reply : Reply} {st st' : CoordinatorState} {pc pc' : ProcPc}
    {events : List ProcEvent} (h : procStep cfg id reply st pc = some (st', pc', events))
    (hkeyed : ∀ x, st.pending.lookup id = some x → KeyedBy x.fulfilledDeps x.fulfilledDepKeys)
    {x' : PendingXt} (hx' : st'.pending.lookup id = some x') :
    KeyedBy x'.fulfilledDeps x'.fulfilledDepKeys := by
  rcases procStep_op h with ⟨-, rfl⟩ | ⟨op, -, rfl⟩
  · exact hkeyed x' hx'
  · exact fulfilledKeyed_step cfg st op id hkeyed hx'

theorem pcOpen_notified {pc : ProcPc} (h : PcOpen pc) : PcOpen pc.notified := by
  cases pc <;> exact h

theorem pcCovers_notified {key : DependencyKey} {pc : ProcPc} (h : PcCovers key pc) :
    PcCovers key pc.notified := by
  cases pc with
  | waiting frame deps wait =>
    intro hdone
    refine h (fun he => hdone ?_)
    rw [he]
    rfl
  | _ => exact h

/-- Beside others that leave the fulfilling of the instance to this `process_xt`. -/
theorem waitInv_step {s t : ProcSystem} {move : ProcMove} (h : LooseStep cfg id s move t)
    (hsole : ∀ deps, move ≠ .env (.fulfill id deps)) (hinv : WaitInv id s) : WaitInv id t := by
  cases move with
  | notify =>
    obtain rfl := Option.some.inj h
    exact ⟨pcOpen_notified hinv.opens, hinv.keyed,
      fun x key hx hkey => pcCovers_notified (hinv.covered x key hx hkey)⟩
  | env op =>
    obtain rfl := Option.some.inj h
    refine ⟨hinv.opens, fun x hx => fulfilledKeyed_step cfg s.st op id hinv.keyed hx,
      fun x key hx hkey => ?_⟩
    have hne : ∀ deps, op ≠ .fulfill id deps := fun deps he => hsole deps (by rw [he])
    obtain ⟨y, hy, hold⟩ := fulfilledKeys_step cfg s.st op id hne hx hkey
    exact hinv.covered y key hy hold
  | proc reply =>
    obtain ⟨⟨st', pc', events⟩, hproc, rfl⟩ := Option.map_eq_some_iff.mp h
    refine ⟨pcOpen_step hproc hinv.opens,
      fun x hx => fulfilledKeyed_procStep hproc hinv.keyed hx, fun x key hx hkey => ?_⟩
    rcases fulfilled_procStep hproc hx hkey with ⟨y, hy, hold⟩ | ⟨frame, deps, hserved⟩
    · exact pcCovers_step hproc hy (hinv.keyed y hy) hold (hinv.covered y key hy hold)
    · dsimp only at hserved ⊢
      rw [hserved]
      exact fun hdone => absurd rfl hdone

/-- In every state that the handlers can reach the key sets are in step. -/
theorem fulfilledKeyed_run {ops : List Op} {st : CoordinatorState}
    (hrun : Run (Step cfg) {} ops st) {x : PendingXt} (hx : st.pending.lookup id = some x) :
    KeyedBy x.fulfilledDeps x.fulfilledDepKeys := by
  obtain ⟨history, hrecorded⟩ := hrun.record (MailHistory.write cfg) {}
  exact ((ledgerInv_run hrecorded ledgerInv_initial).entries id x hx).balanced.fulfilled_keys

end Waits

/-- One run of `process_xt`, begun in any reachable state, under any answers of the simulator and
beside any other locked parts: it calls the simulator at most once for each local transaction and
once for each message that was ever attached to the instance; between two calls for one transaction
it consumed a message; and, while no other `process_xt` fulfills dependencies of the instance, it
waits only for dependencies of which one is not fulfilled. -/
theorem simulator_calls_bounded (cfg : Config) (id : InstanceId) {ops : List Op}
    {st : CoordinatorState} (hst : Run (Step cfg) {} ops st) {xt : PendingXt}
    (hxt : st.pending.lookup id = some xt) {reply : Reply} {moves : List ProcMove} {t : ProcSystem}
    {ledger : RetryLedger}
    (hrun : Run (Recorded (LooseStep cfg id) (RetryLedger.write cfg id))
      (⟨st, .start, []⟩, ⟨xt.pendingMailbox, []⟩) (.proc reply :: moves) (t, ledger)) :
    (attempts t.log).length ≤ (xt.txsOf cfg.chainId).length + ledger.attached.length ∧
    ((attempts t.log).map Attempt.index = (ledger.passes.map Pass.index).reverse ∧
      ∀ newer later earlier older, ledger.passes = newer ++ later :: earlier :: older →
        later.index = earlier.index → earlier.spent ≠ []) ∧
    ((∀ deps, .env (.fulfill id deps) ∉ moves) →
      ∀ frame deps wait, t.pc = .waiting frame deps wait → wait ≠ .done true →
        ∃ dep ∈ deps, ∀ x, t.st.pending.lookup id = some x →
          DependencyKey.ofDependency dep ∉ x.fulfilledDepKeys) := by
  have hwaits : (∀ deps, .env (.fulfill id deps) ∉ moves) → WaitInv id t := by
    intro hsole
    refine hrun.invariant_of_labels (I := fun s : ProcSystem × RetryLedger => WaitInv id s.1)
      (P := fun move : ProcMove => ∀ deps, move ≠ .env (.fulfill id deps))
      (fun s move t hmove hs hstep => waitInv_step hstep.1 hmove hs) (fun move hmem deps he => ?_)
      ⟨trivial, fun x hx => fulfilledKeyed_run hst hx, fun _ _ _ _ => trivial⟩
    rw [he] at hmem
    exact hsole deps (by simpa using hmem)
  cases hrun with
  | cons hfirst hrest =>
    have hinv : RetryInv id (xt.txsOf cfg.chainId) (t, ledger) :=
      hrest.invariant (fun _ _ _ hs hstep => retryInv_step hstep hs) (retryInv_start hxt hfirst)
    refine ⟨?_, ⟨hinv.calls, fun newer later earlier older hpasses hsame => ?_⟩,
      fun hsole frame deps wait hpc hwait => ?_⟩
    · have hcount : (attempts t.log).length = ledger.passes.length := by
        simpa using congrArg List.length hinv.calls
      rw [hcount]
      exact le_trans (hinv.paced.length_le hinv.below) (Nat.add_le_add_left hinv.books _)
    · have hpaced := hinv.paced
      dsimp only at hpaced
      rw [hpasses] at hpaced
      exact hpaced.paid hsame
    · have hwaiting := hwaits hsole
      have hopen : OpenAt frame deps := by
        have hopens := hwaiting.opens
        rwa [hpc] at hopens
      obtain ⟨dep, hdep, hnew⟩ := hopen
      refine ⟨dep, hdep, fun x hx hkey => hnew ?_⟩
      have hcovers := hwaiting.covered x _ hx hkey
      rw [hpc] at hcovers
      exact hcovers hwait

/-- A failed simulation that reads the given messages. -/
def readingMove (deps : List CrossRollupDependency) : ProcMove :=
  .proc
    { simulation := .ok
        { success := false
          error := none
          stateOverrides := none
          dependencies := deps
          outboundMessages := [] }
      wake := true }

/-- The message that the first simulation reads comes while the instance waits for it; the second
one reads another message too. -/
def awaitedMoves : List ProcMove :=
  let other : CrossRollupDependency := { sampleDependency with sessionId := 8 }
  List.replicate 11 (readingMove [sampleDependency]) ++
    [.env (.mailbox (sampleMessage (InstanceId.asBytes "xt-1-1") [7])), .notify] ++
    List.replicate 11 (readingMove [sampleDependency, other])

/-- One transaction, one message and two calls; then it waits for what is not fulfilled. -/
theorem simulator_calls_bounded_awaited :
    ∃ (st : CoordinatorState) (xt : PendingXt) (t : ProcSystem) (ledger : RetryLedger),
      Run (Step sendingConfig) {} [registersSample] st ∧ st.pending.lookup "xt-1-1" = some xt ∧
      Run (Recorded (LooseStep sendingConfig "xt-1-1") (RetryLedger.write sendingConfig "xt-1-1"))
        (⟨st, .start, []⟩, ⟨xt.pendingMailbox, []⟩)
        (readingMove [sampleDependency] :: awaitedMoves) (t, ledger) ∧
      ledger.attached.length = 1 ∧ (xt.txsOf 2).length = 1 ∧ (attempts t.log).length = 2 ∧
      (attempts t.log).length ≤ (xt.txsOf 2).length + ledger.attached.length ∧
      ∃ frame deps, t.pc = .waiting frame deps (.select false) ∧
        ∃ dep ∈ deps, ∀ x, t.st.pending.lookup "xt-1-1" = some x →
          DependencyKey.ofDependency dep ∉ x.fulfilledDepKeys := by
  have hst : Run (Step sendingConfig) {} [registersSample] (registersSample.apply sendingConfig {}) :=
    .cons rfl (.nil _)
  obtain ⟨xt, hxt, hmail, htxs⟩ : ∃ xt,
      (registersSample.apply sendingConfig {}).pending.lookup "xt-1-1" = some xt ∧
      xt.pendingMailbox = [] ∧ (xt.txsOf 2).length = 1 := ⟨_, rfl, by decide, by decide⟩
  have hexec : ∃ s, (readingMove [sampleDependency] :: awaitedMoves).foldlM
      (fun (s : ProcSystem × RetryLedger) move =>
        (procMove sendingConfig "xt-1-1" s.1 move).map
          (fun t => (t, s.2.write sendingConfig "xt-1-1" s.1 move)))
      (⟨registersSample.apply sendingConfig {}, .start, []⟩, ⟨[], []⟩) = some s ∧
      s.2.attached.length = 1 ∧ (attempts s.1.log).length = 2 ∧
      ∃ frame deps, s.1.pc = .waiting frame deps (.select false) :=
    ⟨_, rfl, by decide, by decide, _, _, rfl⟩
  obtain ⟨⟨t, ledger⟩, hrun, hattached, hcalls, frame, deps, hpc⟩ := hexec
  have hmoves := run_foldlM (RetryLedger.write sendingConfig "xt-1-1") hrun
  rw [← hmail] at hmoves
  obtain ⟨hbound, -, hwaits⟩ := simulator_calls_bounded sendingConfig "xt-1-1" hst hxt hmoves
  have hsole : ∀ deps, .env (.fulfill "xt-1-1" deps) ∉ awaitedMoves := by
    simp [awaitedMoves, readingMove]
  exact ⟨_, xt, t, ledger, hst, hxt, hmoves, hattached, htxs, hcalls, hbound, frame, deps, hpc,
    hwaits hsole frame deps _ hpc (by simp)⟩

end Sidecar.Coordinator
