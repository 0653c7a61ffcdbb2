import Sidecar.Coordinator.ProcessRun
import Sidecar.Framework.Retry

namespace Sidecar.Coordinator

open Mailbox Permissions Simulation Attempt

/-- The simulation an event reports. -/
def attemptOf : ProcEvent → Option (Attempt Bytes StateOverride StateOverride)
  | .simulated index tx overrides _ (.ok result) =>
    some ⟨index, tx, overrides, result.success, result.stateOverrides⟩
  | .simulated index tx overrides _ (.error _) => some ⟨index, tx, overrides, false, none⟩
  | _ => none

def attempts (log : List ProcEvent) : List (Attempt Bytes StateOverride StateOverride) :=
  log.filterMap attemptOf

section Grounds

variable (cfg : Config) (id : InstanceId) (xt : PendingXt) (base : StateOverride)
  (log : List ProcEvent)

/-- The verification hook, if enabled, was asked about this instance and approved. -/
def Verified : Prop :=
  cfg.verification = true →
    .verified (verificationPayload cfg id xt.originChain (xt.txsOf cfg.chainId)) true ∈ log

/-- The sender of a transaction is known and the engine allowed it for all chains of the
instance. -/
def SenderAllowed (tx : Bytes) : Prop :=
  ∃ sender nonce engine, cfg.decodeSenderNonce tx = some (sender, nonce) ∧
    engine.evaluateXt sender cfg.chainId xt.rawTxs.keys = .allow ∧
    .permitted tx sender xt.rawTxs.keys engine ∈ log

/-- What precedes the simulations. -/
structure Checked : Prop where
  verified : Verified cfg id xt log
  permitted : cfg.permissionEngine = true →
    ∀ tx ∈ xt.txsOf cfg.chainId, SenderAllowed cfg xt log tx

/-- The simulations run through the local transactions in order, each from the overlay
snapshot and the diffs of the successes before it. -/
def InOrder : Prop := Sequential mergeOverrides (xt.txsOf cfg.chainId) base (attempts log)

/-- What a vote for commit rests on. -/
structure Grounds : Prop where
  checked : Checked cfg id xt log
  inOrder : InOrder cfg xt base log
  all : completed (attempts log) = (xt.txsOf cfg.chainId).length

/-- What holds while the simulation loop is about to try `frame.index`. -/
structure LoopInv (frame : SimFrame) : Prop where
  checked : Checked cfg id xt log
  inOrder : InOrder cfg xt base log
  txs_eq : frame.txs = xt.txsOf cfg.chainId
  index_eq : frame.index = completed (attempts log)
  index_le : frame.index ≤ (xt.txsOf cfg.chainId).length
  overrides_eq : frame.overrides = stateAfter mergeOverrides base (attempts log)

/-- Before the loop: the transactions and the snapshot are in hand and nothing was run. -/
structure Preparing (txs : List Bytes) (overrides : StateOverride) : Prop where
  txs_eq : txs = xt.txsOf cfg.chainId
  overrides_eq : overrides = base
  attempts_eq : attempts log = []

end Grounds

/-- The loop's variables once a recorded simulation counts. -/
def advance (frame : SimFrame) (result : SimulationResult) : SimFrame :=
  if result.success then { frame with index := frame.index + 1 } else frame

/-- The overrides that the loop goes on with after a simulation. -/
def mergeKept (overrides : StateOverride) (result : SimulationResult) : StateOverride :=
  (keptOverrides result).elim overrides (mergeOverrides overrides)

/-- The event of a simulation that came back with a result. -/
def simulatedEvent (frame : SimFrame) (tx : Bytes) (result : SimulationResult) : ProcEvent :=
  .simulated frame.index tx frame.overrides frame.fulfilled (.ok result)

section Invariant

variable (cfg : Config) (id : InstanceId) (xt : PendingXt) (base : StateOverride)

/-- What is established at each point of `process_xt`, as long as the instance is pending. -/
def PcInv (log : List ProcEvent) : ProcPc → Prop
  | .start => False
  | .verify txs overrides => Preparing cfg xt base log txs overrides
  | .asked txs overrides payload => Preparing cfg xt base log txs overrides ∧
      payload = verificationPayload cfg id xt.originChain (xt.txsOf cfg.chainId)
  | .permissions txs overrides => Preparing cfg xt base log txs overrides ∧ Verified cfg id xt log
  | .permit txs overrides involved rest => Preparing cfg xt base log txs overrides ∧
      Verified cfg id xt log ∧ involved = xt.rawTxs.keys ∧
      ∃ allowed, txs = allowed ++ rest ∧ ∀ tx ∈ allowed, SenderAllowed cfg xt log tx
  | .lock txs overrides | .setup txs overrides =>
      Preparing cfg xt base log txs overrides ∧ Checked cfg id xt log
  | .simulate frame | .waiting frame _ _ | .refresh frame => LoopInv cfg id xt base log frame
  | .record frame result => ∃ before tx, LoopInv cfg id xt base before frame ∧
      frame.txs[frame.index]? = some tx ∧
      log = before ++ [simulatedEvent frame tx result]
  | .dispatch frame result | .sending frame result _ =>
      LoopInv cfg id xt base log (advance frame result)
  | .vote true => Grounds cfg id xt base log
  | .vote false | .finished => True

end Invariant

section Append

variable {cfg : Config} {id : InstanceId} {xt : PendingXt} {base : StateOverride}
  {log : List ProcEvent}

theorem attempts_append (log events : List ProcEvent) :
    attempts (log ++ events) = attempts log ++ attempts events :=
  List.filterMap_append

theorem attempts_append_other {events : List ProcEvent} (h : attempts events = []) :
    attempts (log ++ events) = attempts log := by
  rw [attempts_append, h, List.append_nil]

theorem Verified.append (h : Verified cfg id xt log) (events : List ProcEvent) :
    Verified cfg id xt (log ++ events) :=
  fun hv => List.mem_append_left _ (h hv)

theorem SenderAllowed.append {tx : Bytes} (h : SenderAllowed cfg xt log tx)
    (events : List ProcEvent) : SenderAllowed cfg xt (log ++ events) tx := by
  obtain ⟨sender, nonce, engine, hdec, hallow, hmem⟩ := h
  exact ⟨sender, nonce, engine, hdec, hallow, List.mem_append_left _ hmem⟩

theorem Checked.append (h : Checked cfg id xt log) (events : List ProcEvent) :
    Checked cfg id xt (log ++ events) :=
  ⟨h.verified.append events, fun hp tx htx => (h.permitted hp tx htx).append events⟩

theorem Preparing.append {txs : List Bytes} {overrides : StateOverride}
    (h : Preparing cfg xt base log txs overrides) {events : List ProcEvent}
    (he : attempts events = []) : Preparing cfg xt base (log ++ events) txs overrides :=
  ⟨h.txs_eq, h.overrides_eq, (attempts_append_other he).trans h.attempts_eq⟩

theorem LoopInv.append {frame : SimFrame} (h : LoopInv cfg id xt base log frame)
    {events : List ProcEvent} (he : attempts events = []) :
    LoopInv cfg id xt base (log ++ events) frame := by
  have ha : attempts (log ++ events) = attempts log := attempts_append_other he
  exact ⟨h.checked.append events, by rw [InOrder, ha]; exact h.inOrder, h.txs_eq,
    by rw [ha]; exact h.index_eq, h.index_le, by rw [ha]; exact h.overrides_eq⟩

theorem LoopInv.of_preparing {txs : List Bytes} {overrides : StateOverride}
    (h : Preparing cfg xt base log txs overrides) (hc : Checked cfg id xt log)
    (fulfilled : List CrossRollupDependency) :
    LoopInv cfg id xt base log ⟨txs, 0, overrides, fulfilled⟩ := by
  have ha := h.attempts_eq
  refine ⟨hc, ?_, h.txs_eq, ?_, Nat.zero_le _, ?_⟩
  · rw [InOrder, ha]
    exact .nil
  · rw [ha]
    rfl
  · rw [ha]
    exact h.overrides_eq

/-- A simulation from the loop's variables extends the sequence; its diff counts exactly when
it succeeded. -/
theorem LoopInv.record {frame : SimFrame} (h : LoopInv cfg id xt base log frame) {tx : Bytes}
    (htx : frame.txs[frame.index]? = some tx) (result : SimulationResult) :
    LoopInv cfg id xt base (log ++ [simulatedEvent frame tx result])
      (advance { frame with overrides := mergeKept frame.overrides result } result) := by
  have hlt : frame.index < (xt.txsOf cfg.chainId).length := by
    rw [h.txs_eq] at htx
    exact (List.getElem?_eq_some_iff.mp htx).1
  have hattempts : attempts (log ++ [simulatedEvent frame tx result]) = attempts log ++
      [⟨frame.index, tx, frame.overrides, result.success, result.stateOverrides⟩] :=
    attempts_append _ _
  have hstate : mergeKept frame.overrides result =
      stateAfter mergeOverrides base (attempts (log ++ [simulatedEvent frame tx result])) := by
    rw [hattempts, stateAfter_snoc, h.overrides_eq]
    rfl
  have hcount := completed_snoc (attempts log)
    ⟨frame.index, tx, frame.overrides, result.success, result.stateOverrides⟩
  rw [← hattempts, ← h.index_eq] at hcount
  have hseq : InOrder cfg xt base (log ++ [simulatedEvent frame tx result]) := by
    rw [InOrder, hattempts]
    exact .snoc h.inOrder h.index_eq (h.txs_eq ▸ htx) h.overrides_eq
  unfold advance
  cases hs : result.success with
  | true =>
    refine ⟨h.checked.append _, hseq, h.txs_eq, ?_, hlt, hstate⟩
    rw [hcount, hs]
    rfl
  | false =>
    refine ⟨h.checked.append _, hseq, h.txs_eq, ?_, h.index_le, hstate⟩
    rw [hcount, hs]
    rfl

end Append

section Step

variable {cfg : Config} {id : InstanceId} {xt x : PendingXt} {base : StateOverride}
  {log : List ProcEvent} {reply : Reply} {st st' : CoordinatorState} {pc pc' : ProcPc}
  {events : List ProcEvent}

theorem pcInv_afterDispatch {frame : SimFrame} {result : SimulationResult}
    (h : LoopInv cfg id xt base log (advance frame result)) :
    PcInv cfg id xt base log (afterDispatch frame result) := by
  unfold advance at h
  unfold afterDispatch
  cases hs : result.success with
  | true => simpa [hs, PcInv] using h
  | false => simpa [hs, PcInv] using h

theorem pcInv_afterRecord {frame : SimFrame} {result : SimulationResult}
    (h : LoopInv cfg id xt base log (advance frame result)) :
    PcInv cfg id xt base log (afterRecord frame result) := by
  unfold afterRecord
  split_ifs
  · trivial
  · trivial
  · exact h

/-- While the instance is pending, recording merges the diff of a success and nothing else. -/
theorem recordSimulationState_overrides (hx : st.pending.lookup id = some x)
    (result : SimulationResult) (overrides : StateOverride) :
    (recordSimulationState cfg st id result overrides).2 = mergeKept overrides result := by
  have hmem : id ∈ st.pending := by
    rw [← AList.lookup_isSome, hx]
    rfl
  unfold recordSimulationState mergeKept
  rw [if_pos hmem]
  cases keptOverrides result <;> rfl

/-- One step of `process_xt` on the pending instance carries over what was established. -/
theorem pcInv_step (hsim : cfg.simulator = true)
    (h : procStep cfg id reply st pc = some (st', pc', events))
    (hx : st.pending.lookup id = some x) (hraw : x.rawTxs = xt.rawTxs)
    (horigin : x.originChain = xt.originChain) (hinv : PcInv cfg id xt base log pc) :
    PcInv cfg id xt base (log ++ events) pc' := by
  have hpending : st.pending.lookup id ≠ none := by simp [hx]
  cases procStep_effect h with
  | missing hl => exact absurd hl hpending
  | setupGone _ _ hl => exact absurd hl hpending
  | refreshGone _ hl => exact absurd hl hpending
  | ready => exact False.elim hinv
  | asks txs overrides =>
    refine ⟨Preparing.append hinv rfl, ?_⟩
    rw [hx, Option.bind_some, horigin, Preparing.txs_eq hinv]
  | unverified txs overrides hv => exact ⟨Preparing.append hinv rfl, fun hon => by simp [hv] at hon⟩
  | approved txs overrides payload =>
    obtain ⟨hprep, hpayload⟩ := hinv
    refine ⟨hprep.append rfl, fun _ => List.mem_append_right _ ?_⟩
    rw [hpayload]
    exact List.mem_singleton.mpr rfl
  | unpermissioned txs overrides hp =>
    obtain ⟨hprep, hver⟩ := hinv
    have hoff : cfg.permissionEngine = false := hp.resolve_right hpending
    exact ⟨hprep.append rfl, hver.append _, fun hon => by simp [hoff] at hon⟩
  | permissioned txs overrides hl =>
    obtain ⟨hprep, hver⟩ := hinv
    obtain rfl := Option.some.inj (hx.symm.trans hl)
    exact ⟨hprep.append rfl, hver.append _, by rw [hraw], [], rfl, by simp⟩
  | permitted txs overrides involved =>
    obtain ⟨hprep, hver, hinvolved, allowed, htxs, hall⟩ := hinv
    refine ⟨hprep.append rfl, hver.append _, fun _ tx htx => (hall tx ?_).append _⟩
    rw [← hprep.txs_eq, htxs, List.append_nil] at htx
    exact htx
  | allowed txs overrides involved tx rest hdecode hallow =>
    obtain ⟨hprep, hver, hinvolved, allowed, htxs, hall⟩ := hinv
    refine ⟨hprep.append rfl, hver.append _, hinvolved, allowed ++ [tx], by simp [htxs],
      fun tx' htx' => ?_⟩
    rcases List.mem_append.mp htx' with hold | hnew
    · exact (hall tx' hold).append _
    · rw [List.mem_singleton.mp hnew]
      subst hinvolved
      exact ⟨_, _, reply.engine, hdecode, hallow, by simp⟩
  | locked txs overrides => exact ⟨hinv.1.append rfl, hinv.2.append _⟩
  | unsimulated txs overrides hoff => simp [hsim] at hoff
  | setup txs overrides hl =>
    exact (LoopInv.of_preparing hinv.1 hinv.2 _).append rfl
  | allSimulated frame htx =>
    have hloop : LoopInv cfg id xt base log frame := hinv
    have hend := List.getElem?_eq_none_iff.mp htx
    rw [hloop.txs_eq] at hend
    have hle := hloop.index_le
    rw [List.append_nil]
    exact ⟨hloop.checked, hloop.inOrder, by rw [← hloop.index_eq]; omega⟩
  | simulated frame htx => exact ⟨log, _, hinv, htx, rfl⟩
  | recorded frame result =>
    obtain ⟨before, tx, hloop, htx, rfl⟩ := hinv
    rw [List.append_nil, recordSimulationState_overrides hx]
    exact pcInv_afterRecord (hloop.record htx result)
  | nothingToSend | allSent => exact pcInv_afterDispatch (LoopInv.append hinv rfl)
  | claimed | sent | waits | served => exact LoopInv.append hinv rfl
  | refreshed frame hl =>
    have hloop : LoopInv cfg id xt base log frame := hinv
    rw [List.append_nil]
    exact ⟨hloop.checked, hloop.inOrder, hloop.txs_eq, hloop.index_eq, hloop.index_le,
      hloop.overrides_eq⟩
  | noLocalTxs | disapproved | denied | simulationFailed | undelivered | timedOut | voted => trivial

end Step

section Run

variable {cfg : Config} {id : InstanceId} {xt : PendingXt} {base : StateOverride}

theorem Grounds.append {log events : List ProcEvent} (h : Grounds cfg id xt base log)
    (he : attempts events = []) : Grounds cfg id xt base (log ++ events) := by
  have ha : attempts (log ++ events) = attempts log := attempts_append_other he
  exact ⟨h.checked.append events, by rw [InOrder, ha]; exact h.inOrder, by rw [ha]; exact h.all⟩

variable (cfg id xt base) in
/-- What holds of `process_xt` along every run: it deals with the instance it has read, and a vote
for commit has its grounds. -/
def ProcInv (s : ProcSystem) : Prop :=
  GroundedRun id (fun x log pc => x.rawTxs = xt.rawTxs ∧ x.originChain = xt.originChain ∧
    PcInv cfg id xt base log pc) (Grounds cfg id xt base) s

theorem pcInv_notified {log : List ProcEvent} {pc : ProcPc} (h : PcInv cfg id xt base log pc) :
    PcInv cfg id xt base log pc.notified := by
  cases pc <;> exact h

theorem procInv_step (hsim : cfg.simulator = true) {s t : ProcSystem} {move : ProcMove}
    (h : ProcStep cfg id s move t) (hs : ProcInv cfg id xt base s) : ProcInv cfg id xt base t := by
  refine groundedRun_step h hs ?_ ?_ ?_ ?_
  · rintro reply st' pc' events x x' hstep hx - hsame ⟨hraw, horigin, hinv⟩
    exact ⟨hsame.rawTxs_eq.trans hraw, hsame.originChain_eq.trans horigin,
      pcInv_step hsim hstep hx hraw horigin hinv⟩
  · rintro op x x' - - - - hsame ⟨hraw, horigin, hinv⟩
    exact ⟨hsame.rawTxs_eq.trans hraw, hsame.originChain_eq.trans horigin, hinv⟩
  · rintro x ⟨hraw, horigin, hinv⟩
    exact ⟨hraw, horigin, pcInv_notified hinv⟩
  · rintro x ⟨-, -, hinv⟩
    exact Grounds.append hinv rfl

end Run

/-- The overlay of the local chain, as `process_xt` copies it when it starts. -/
def overlaySnapshot (cfg : Config) (st : CoordinatorState) : StateOverride :=
  match st.chainOverlay.lookup cfg.chainId with
  | some overlay => mergeOverrides ∅ overlay
  | none => ∅

theorem lookup_overlaySnapshot (cfg : Config) (st : CoordinatorState) (address : Address) :
    (overlaySnapshot cfg st).lookup address =
      ((st.chainOverlay.lookup cfg.chainId).getD ∅).lookup address := by
  unfold overlaySnapshot
  cases st.chainOverlay.lookup cfg.chainId with
  | none => rfl
  | some overlay => exact lookup_mergeOverrides_empty overlay address

/-- The first step reads the transactions and the overlay. -/
theorem procInv_start {cfg : Config} {id : InstanceId} {st : CoordinatorState} {xt : PendingXt}
    (hxt : st.pending.lookup id = some xt) {reply : Reply} {t : ProcSystem}
    (h : ProcStep cfg id ⟨st, .start, []⟩ (.proc reply) t) :
    ProcInv cfg id xt (overlaySnapshot cfg st) t := by
  cases h with
  | proc h =>
    simp only [procStep, snapshotXt, hxt] at h
    by_cases hr : xt.runsOn cfg.chainId = true
    · simp only [hr, if_true, Option.some.injEq, Prod.mk.injEq] at h
      obtain ⟨rfl, rfl, rfl⟩ := h
      refine ⟨fun x hx => ?_, by simp [casts], fun _ => rfl⟩
      obtain rfl := Option.some.inj (hxt.symm.trans hx)
      exact ⟨rfl, rfl, rfl, rfl, rfl⟩
    · simp only [hr, Bool.false_eq_true, if_false, Option.some.injEq, Prod.mk.injEq] at h
      obtain ⟨rfl, rfl, rfl⟩ := h
      refine ⟨fun x hx => ?_, by simp [casts], fun _ => rfl⟩
      obtain rfl := Option.some.inj (hxt.symm.trans hx)
      exact ⟨rfl, rfl, trivial⟩

/-- What a vote for commit says about the run of `process_xt` that started in `st` on the
instance `xt`. -/
structure CommitSound (cfg : Config) (id : InstanceId) (st : CoordinatorState) (xt : PendingXt)
    (log : List ProcEvent) : Prop where
  verified : cfg.verification = true →
    .verified (verificationPayload cfg id xt.originChain (xt.txsOf cfg.chainId)) true ∈ log
  permitted : cfg.permissionEngine = true →
    ∀ tx ∈ xt.txsOf cfg.chainId, SenderAllowed cfg xt log tx
  lastSucceeded : ∀ i < (xt.txsOf cfg.chainId).length, ∃ pre a post,
    attempts log = pre ++ a :: post ∧ a.index = i ∧ a.succeeded = true ∧ ∀ b ∈ post, b.index ≠ i
  inOrder : ∀ pre a post, attempts log = pre ++ a :: post →
    (xt.txsOf cfg.chainId)[a.index]? = some a.task ∧
    (pre.filter Attempt.succeeded).map Attempt.index = List.range a.index ∧
    a.base = ((pre.filter Attempt.succeeded).filterMap Attempt.change).foldl mergeOverrides
      (overlaySnapshot cfg st)
  snapshot : ∀ address, (overlaySnapshot cfg st).lookup address =
    ((st.chainOverlay.lookup cfg.chainId).getD ∅).lookup address

theorem commitSound_of_grounds {cfg : Config} {id : InstanceId} {st : CoordinatorState}
    {xt : PendingXt} {log : List ProcEvent}
    (h : Grounds cfg id xt (overlaySnapshot cfg st) log) : CommitSound cfg id st xt log := by
  refine ⟨h.checked.verified, h.checked.permitted,
    fun i hi => h.inOrder.last_succeeded h.all hi, fun pre a post hsplit => ?_,
    lookup_overlaySnapshot cfg st⟩
  have hseq : Sequential mergeOverrides (xt.txsOf cfg.chainId) (overlaySnapshot cfg st)
      (pre ++ a :: post) := hsplit ▸ h.inOrder
  obtain ⟨htask, hbase, hindices⟩ := hseq.at_split
  exact ⟨htask, hindices, by rw [hbase, stateAfter_eq_filter]⟩

/-- Commit votes of `process_xt` are sound: a vote for commit means that the hook approved,
that with a permission engine every local transaction has a known and allowed sender, and that
each transaction was simulated in order, last with success, from the overlay snapshot and the
diffs of the successes before it. When `process_xt` has returned and the instance is still
pending, one vote was cast, it is the local vote on record unless there was one when it was cast,
and no step ever changes the vote on record. -/
theorem commit_vote_sound (cfg : Config) (hsim : cfg.simulator = true) (id : InstanceId)
    {st : CoordinatorState} {xt : PendingXt} (hxt : st.pending.lookup id = some xt)
    {reply : Reply} {moves : List ProcMove} {t : ProcSystem}
    (hrun : Run (ProcStep cfg id) ⟨st, .start, []⟩ (.proc reply :: moves) t) :
    (true ∈ casts t.log → CommitSound cfg id st xt t.log) ∧
      (t.pc = .finished → ∀ x, t.st.pending.lookup id = some x →
        ∃ v, casts t.log = [v] ∧
          RecordedVote cfg id ⟨st, .start, []⟩ (.proc reply :: moves) t x v) ∧
      ∀ x v more u x', t.st.pending.lookup id = some x → x.localVote = some v →
        Run (ProcStep cfg id) t more u → u.st.pending.lookup id = some x' →
        x'.localVote = some v := by
  have hinv : ProcInv cfg id xt (overlaySnapshot cfg st) t := by
    cases hrun with
    | cons hs hr =>
      exact hr.invariant (I := ProcInv cfg id xt (overlaySnapshot cfg st))
        (fun _ _ _ hu hm => procInv_step hsim hm hu) (procInv_start hxt hs)
  refine ⟨fun hcast => commitSound_of_grounds (hinv.grounds hcast),
    fun ht x hx => recordedVote_of_run hrun (by simp) rfl ht hx, ?_⟩
  intro x v more u x' hx hv hmore hx'
  obtain ⟨y, hy, hsame⟩ := run_entry hmore hx'
  obtain rfl := Option.some.inj (hx.symm.trans hy)
  exact hsame.localVote_stays v hv

/-- Chain 1 has registered `xt-2-1` with one transaction of its own. -/
def processedState : CoordinatorState :=
  (forwardXt (.bare 1) {} "xt-2-1" [⟨1, [[0xab, 0xcd]]⟩, ⟨2, [[0x02]]⟩].toAList 2 1).1

/-- A simulation that succeeds and sets the nonce of one account. -/
def successfulResult : SimulationResult :=
  { success := true
    error := none
    stateOverrides := some [⟨FixedBytes.repeatByte 20 0x11, { nonce := some 7 }⟩].toAList
    dependencies := []
    outboundMessages := [] }

/-- Answers under which every question goes well. -/
def goodReply : Reply := { simulation := .ok successfulResult }

/-- A coordinator with a simulator, the verification hook and a permission engine. -/
def checkedConfig : Config :=
  { Config.bare 1 with
    simulator := true
    verification := true
    permissionEngine := true
    decodeSenderNonce := fun _ => some (FixedBytes.repeatByte 20 0x33, 0) }

/-- With both checks on, the transaction is verified, permitted, simulated and voted for, and
the vote is on record. -/
theorem commit_vote_sound_checked :
    ∃ (moves : List ProcMove) (t : ProcSystem) (x : PendingXt),
      t.st.pending.lookup "xt-2-1" = some x ∧ casts t.log = [true] ∧ x.localVote = some true ∧
      CommitSound checkedConfig "xt-2-1" processedState
        (forwardedXt (.bare 1) "xt-2-1" [⟨1, [[0xab, 0xcd]]⟩, ⟨2, [[0x02]]⟩].toAList 2 1) t.log ∧
      RecordedVote checkedConfig "xt-2-1" ⟨processedState, .start, []⟩ moves t x true := by
  have hexec : (procExec checkedConfig "xt-2-1" (goodReply :: List.replicate 12 goodReply)
      ⟨processedState, .start, []⟩).map (fun t => (t.pc.returned, casts t.log,
        (t.st.pending.lookup "xt-2-1").map PendingXt.localVote)) =
      some (true, [true], some (some true)) := by decide
  obtain ⟨t, ht, hfacts⟩ := Option.map_eq_some_iff.mp hexec
  simp only [Prod.mk.injEq] at hfacts
  obtain ⟨hreturned, hcast, hvote⟩ := hfacts
  obtain ⟨x, hx, hlocal⟩ := Option.map_eq_some_iff.mp hvote
  obtain ⟨hsound, hrecord, -⟩ :=
    commit_vote_sound checkedConfig rfl "xt-2-1" rfl (run_procExec ht)
  obtain ⟨v, hv, hrecorded⟩ := hrecord (ProcPc.eq_finished hreturned) x hx
  obtain rfl : true = v := by simpa [hcast] using hv
  exact ⟨_, t, x, hx, hcast, hlocal, hsound (by simp [hcast]), hrecorded⟩

/-- Without a permission engine nobody looks for senders: a transaction that does not decode is
voted for when its simulation succeeds. -/
theorem undecodable_tx_committed :
    ∃ (moves : List ProcMove) (t : ProcSystem),
      Run (ProcStep { Config.bare 1 with simulator := true } "xt-2-1")
        ⟨processedState, .start, []⟩ (.proc goodReply :: moves) t ∧
      true ∈ casts t.log ∧
      ∃ tx ∈ (forwardedXt (.bare 1) "xt-2-1" [⟨1, [[0xab, 0xcd]]⟩, ⟨2, [[0x02]]⟩].toAList 2
          1).txsOf 1,
        (Config.bare 1).decodeSenderNonce tx = none := by
  have hexec : (procExec { Config.bare 1 with simulator := true } "xt-2-1"
      (goodReply :: List.replicate 9 goodReply) ⟨processedState, .start, []⟩).map
      (fun t => casts t.log) = some [true] := by decide
  obtain ⟨t, ht, hcast⟩ := Option.map_eq_some_iff.mp hexec
  exact ⟨_, t, run_procExec ht, by simp [hcast], [0xab, 0xcd], by decide, rfl⟩

end Sidecar.Coordinator
