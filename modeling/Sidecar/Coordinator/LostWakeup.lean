import Sidecar.Coordinator.Decision
import Sidecar.Coordinator.Wait
import Sidecar.Framework.Run

namespace Sidecar.Coordinator

open Mailbox

/-- A running `handle_mailbox_message`, before its locked part or before it notifies. -/
inductive MailHandler where
  | push (msg : MailboxMessage)
  | notify (msg : MailboxMessage)

/-- One wait together with the mailbox handlers that run beside it. -/
structure WaitSystem where
  st : CoordinatorState
  pc : WaitPc
  expired : Bool
  handlers : List MailHandler

inductive WaitMove where
  | wait (wake : Bool)
  | call (msg : MailboxMessage)
  | push (msg : MailboxMessage)
  | notify (msg : MailboxMessage)
  | expire

/-- Every interleaving of the wait, of any number of deliveries and of the clock. -/
inductive WaitStep (id : InstanceId) (deps : List CrossRollupDependency) :
    WaitSystem → WaitMove → WaitSystem → Prop
  | wait {s : WaitSystem} {wake : Bool} {st' : CoordinatorState} {pc' : WaitPc}
      (h : waitStep id deps s.expired wake s.st s.pc = some (st', pc')) :
      WaitStep id deps s (.wait wake) { s with st := st', pc := pc' }
  | call (s : WaitSystem) (msg : MailboxMessage) :
      WaitStep id deps s (.call msg) { s with handlers := .push msg :: s.handlers }
  | push {s : WaitSystem} {msg : MailboxMessage} {before after : List MailHandler}
      (h : s.handlers = before ++ .push msg :: after) :
      WaitStep id deps s (.push msg)
        { s with st := deliverMailbox s.st msg, handlers := before ++ .notify msg :: after }
  | notify {s : WaitSystem} {msg : MailboxMessage} {before after : List MailHandler}
      (h : s.handlers = before ++ .notify msg :: after) :
      WaitStep id deps s (.notify msg)
        { s with pc := s.pc.notified, handlers := before ++ after }
  | expire (s : WaitSystem) : WaitStep id deps s .expire { s with expired := true }

section Mailbox

variable (id : InstanceId) (deps : List CrossRollupDependency)

/-- A message serves one of the dependencies that are still open for the instance. -/
def Serves (st : CoordinatorState) (msg : MailboxMessage) : Prop :=
  ∃ xt dep, st.pending.lookup id = some xt ∧ dep ∈ deps ∧
    DependencyKey.ofDependency dep ∉ xt.fulfilledDepKeys ∧ matchesDependency msg dep = true

/-- The mailbox of the instance holds a message that serves an open dependency. -/
def Unserved (st : CoordinatorState) : Prop :=
  ∃ xt msg, st.pending.lookup id = some xt ∧ msg ∈ xt.pendingMailbox ∧ Serves id deps st msg

/-- A message that is routed to the instance and serves an open dependency. -/
def Awaited (st : CoordinatorState) (msg : MailboxMessage) : Prop :=
  st.mailboxIndex.lookup msg.instanceId = some id ∧ Serves id deps st msg

end Mailbox

theorem fulfillOne_false {xt : PendingXt} {dep : CrossRollupDependency}
    (h : (fulfillOne xt dep).2 = false) :
    (fulfillOne xt dep).1 = xt ∧ (DependencyKey.ofDependency dep ∉ xt.fulfilledDepKeys →
      ∀ msg ∈ xt.pendingMailbox, matchesDependency msg dep = false) := by
  simp only [fulfillOne] at h ⊢
  split_ifs at h ⊢ with hk
  · exact ⟨rfl, fun hn => absurd hk hn⟩
  · cases hf : xt.pendingMailbox.findIdx? (fun msg => matchesDependency msg dep) with
    | some idx => simp [hf] at h
    | none =>
      refine ⟨rfl, fun _ msg hm => ?_⟩
      have hnone := List.findIdx?_eq_none_iff.mp hf msg hm
      simpa using hnone

/-- When nothing was served, nothing changed and no message fits an open dependency. -/
theorem fulfillXt_zero {xt : PendingXt} {deps : List CrossRollupDependency}
    (h : (fulfillXt xt deps).2 = 0) :
    (fulfillXt xt deps).1 = xt ∧ ∀ dep ∈ deps,
      DependencyKey.ofDependency dep ∉ xt.fulfilledDepKeys →
      ∀ msg ∈ xt.pendingMailbox, matchesDependency msg dep = false := by
  induction deps with
  | nil => exact ⟨rfl, by simp⟩
  | cons dep deps ih =>
    rw [fulfillXt_cons] at h ⊢
    have hno : (fulfillOne xt dep).2 = false := by
      cases hf : (fulfillOne xt dep).2 with
      | false => rfl
      | true => simp [hf] at h
    obtain ⟨hsame, hmatch⟩ := fulfillOne_false hno
    rw [hsame] at h ⊢
    obtain ⟨hrest, hall⟩ := ih (Nat.add_eq_zero_iff.mp h).2
    refine ⟨hrest, fun d hd => ?_⟩
    rcases List.mem_cons.mp hd with hd | hd
    · rw [hd]
      exact hmatch
    · exact hall d hd

/-- A check that serves nothing leaves nothing unserved. -/
theorem check_zero {st : CoordinatorState} {id : InstanceId} {deps : List CrossRollupDependency}
    (h : (fulfillDependenciesFromMailbox st id deps).2 = 0) :
    ¬Unserved id deps (fulfillDependenciesFromMailbox st id deps).1 := by
  simp only [fulfillDependenciesFromMailbox] at h ⊢
  cases hl : st.pending.lookup id with
  | none =>
    intro hu
    obtain ⟨xt, msg, hx, -⟩ := hu
    simp [hl] at hx
  | some xt =>
    simp only [hl] at h
    obtain ⟨hsame, hall⟩ := fulfillXt_zero h
    intro hu
    obtain ⟨x, msg, hx, hm, x', dep, hx', hd, hk, hmatch⟩ := hu
    dsimp only at hx hx'
    rw [hsame, CoordinatorState.updateXt, Map.lookup_update_self, hl] at hx hx'
    obtain rfl := Option.some.inj hx
    obtain rfl := Option.some.inj hx'
    have hno := hall dep hd hk msg hm
    simp [hmatch] at hno

/-- The wait still runs. -/
def WaitPc.running : WaitPc → Bool
  | .done _ => false
  | _ => true

/-- Between its check and its future: a notification now is lost. -/
def WaitPc.deaf : WaitPc → Bool
  | .deadline | .clone | .create => true
  | _ => false

/-- The wait will look at the mailbox again without any further notification. -/
def WaitPc.alert : WaitPc → Bool
  | .check | .select true => true
  | _ => false

section System

variable (id : InstanceId) (deps : List CrossRollupDependency)

/-- A delivery that the wait is waiting for is between its push and the wait's next check. -/
def UnderWay (s : WaitSystem) : Prop :=
  (∃ msg, .notify msg ∈ s.handlers ∧ Awaited id deps s.st msg) ∨
    (Unserved id deps s.st ∧ s.pc.alert = true)

/-- What a move must not do while the wait runs: notify of an awaited message when the wait
cannot hear it, let the deadline pass during an awaited delivery, or push an awaited message
after the deadline. -/
def Audible (s : WaitSystem) (move : WaitMove) : Prop :=
  s.pc.running = true →
    match move with
    | .notify msg => s.pc.deaf = true → ¬Awaited id deps s.st msg
    | .expire => ¬UnderWay id deps s
    | .push msg => s.expired = true → ¬Awaited id deps s.st msg
    | _ => True

/-- While the wait runs, an unserved message is on its way to a check, and none is there once
the deadline has passed. -/
structure Heard (s : WaitSystem) : Prop where
  underWay : s.pc.running = true → Unserved id deps s.st → UnderWay id deps s
  inTime : s.pc.running = true → s.expired = true → ¬Unserved id deps s.st

variable {id deps}

theorem serves_deliverMailbox {st : CoordinatorState} {msg msg' : MailboxMessage} :
    Serves id deps (deliverMailbox st msg') msg ↔ Serves id deps st msg := by
  have hlook : (∃ i, (deliverMailbox st msg').pending = Map.update i
        (fun xt => { xt with pendingMailbox := xt.pendingMailbox ++ [msg'] }) st.pending) ∨
      (deliverMailbox st msg').pending = st.pending := by
    simp only [deliverMailbox]
    cases st.mailboxIndex.lookup msg'.instanceId with
    | some i => exact Or.inl ⟨i, rfl⟩
    | none =>
      right
      simp only [CoordinatorState.bufferOrphanMailbox]
      split <;> split_ifs <;> rfl
  unfold Serves
  rcases hlook with ⟨i, hp⟩ | hp
  · rw [hp, Map.lookup_update]
    by_cases hi : id = i
    · rw [if_pos hi]
      constructor
      · intro h
        obtain ⟨x, dep, hx, hd, hk, hm⟩ := h
        obtain ⟨xt, hl, hxt⟩ := Option.map_eq_some_iff.mp hx
        rw [← hxt] at hk
        exact ⟨xt, dep, hl, hd, hk, hm⟩
      · intro h
        obtain ⟨xt, dep, hl, hd, hk, hm⟩ := h
        exact ⟨_, dep, Option.map_eq_some_iff.mpr ⟨xt, hl, rfl⟩, hd, hk, hm⟩
    · rw [if_neg hi]
  · rw [hp]

theorem awaited_deliverMailbox {st : CoordinatorState} {msg msg' : MailboxMessage} :
    Awaited id deps (deliverMailbox st msg') msg ↔ Awaited id deps st msg := by
  unfold Awaited
  rw [mailboxIndex_deliverMailbox, serves_deliverMailbox]

/-- A push adds an unserved message only when that message is awaited. -/
theorem unserved_deliverMailbox {st : CoordinatorState} {msg : MailboxMessage}
    (h : Unserved id deps (deliverMailbox st msg)) :
    Unserved id deps st ∨ Awaited id deps st msg := by
  obtain ⟨x, m, hx, hm, hs⟩ := h
  rw [serves_deliverMailbox] at hs
  simp only [deliverMailbox] at hx
  cases hi : st.mailboxIndex.lookup msg.instanceId with
  | none =>
    simp only [hi, CoordinatorState.bufferOrphanMailbox] at hx
    left
    refine ⟨x, m, ?_, hm, hs⟩
    split at hx <;> split_ifs at hx <;> exact hx
  | some i =>
    simp only [hi, CoordinatorState.updateXt, Map.lookup_update] at hx
    split_ifs at hx with hid
    · obtain ⟨xt, hl, hxt⟩ := Option.map_eq_some_iff.mp hx
      rw [← hxt] at hm
      rcases List.mem_append.mp hm with hm | hm
      · exact Or.inl ⟨xt, m, hl, hm, hs⟩
      · rw [List.mem_singleton] at hm
        rw [hm] at hs
        exact Or.inr ⟨by rw [hi, hid], hs⟩
    · exact Or.inl ⟨x, m, hx, hm, hs⟩

theorem heard_wait {s : WaitSystem} {wake : Bool} {st' : CoordinatorState} {pc' : WaitPc}
    (h : waitStep id deps s.expired wake s.st s.pc = some (st', pc')) (hs : Heard id deps s) :
    Heard id deps { s with st := st', pc := pc' } := by
  have hdone : ∀ r, pc' = .done r → Heard id deps { s with st := st', pc := pc' } := by
    intro r hr
    subst hr
    exact ⟨fun hrun => by simp [WaitPc.running] at hrun,
      fun hrun => by simp [WaitPc.running] at hrun⟩
  cases hpc : s.pc with
  | check =>
    simp only [hpc, waitStep, Option.some.injEq, Prod.mk.injEq] at h
    obtain ⟨hst, hnext⟩ := h
    by_cases hn : 0 < (fulfillDependenciesFromMailbox s.st id deps).2
    · exact hdone true (by rw [← hnext, if_pos hn])
    · have hzero := check_zero (Nat.eq_zero_of_not_pos hn)
      rw [hst] at hzero
      exact ⟨fun _ hu => absurd hu hzero, fun _ _ => hzero⟩
  | deadline =>
    simp only [hpc, waitStep, Option.some.injEq, Prod.mk.injEq] at h
    obtain ⟨rfl, hnext⟩ := h
    by_cases he : s.expired = true
    · exact hdone false (by rw [← hnext, if_pos he])
    · rw [if_neg he] at hnext
      subst hnext
      refine ⟨fun _ hu => ?_, fun _ hx => absurd hx he⟩
      rcases hs.underWay (by simp [hpc, WaitPc.running]) hu with hw | hw
      · exact Or.inl hw
      · simp [hpc, WaitPc.alert] at hw
  | clone =>
    simp only [hpc, waitStep, Option.some.injEq, Prod.mk.injEq] at h
    obtain ⟨rfl, rfl⟩ := h
    refine ⟨fun _ hu => ?_, fun _ hx => hs.inTime (by simp [hpc, WaitPc.running]) hx⟩
    rcases hs.underWay (by simp [hpc, WaitPc.running]) hu with hw | hw
    · exact Or.inl hw
    · simp [hpc, WaitPc.alert] at hw
  | create =>
    simp only [hpc, waitStep, Option.some.injEq, Prod.mk.injEq] at h
    obtain ⟨rfl, rfl⟩ := h
    refine ⟨fun _ hu => ?_, fun _ hx => hs.inTime (by simp [hpc, WaitPc.running]) hx⟩
    rcases hs.underWay (by simp [hpc, WaitPc.running]) hu with hw | hw
    · exact Or.inl hw
    · simp [hpc, WaitPc.alert] at hw
  | select woken =>
    simp only [hpc, waitStep] at h
    split_ifs at h with hwake hwoken hexp
    · obtain ⟨rfl, rfl⟩ := Prod.mk.inj (Option.some.inj h)
      exact ⟨fun _ hu => Or.inr ⟨hu, rfl⟩,
        fun _ hx => hs.inTime (by simp [hpc, WaitPc.running]) hx⟩
    · exact hdone false (Prod.mk.inj (Option.some.inj h)).2.symm
  | done r => simp [hpc, waitStep] at h

theorem heard_push {s : WaitSystem} {msg : MailboxMessage} {before after : List MailHandler}
    (h : s.handlers = before ++ .push msg :: after) (hg : Audible id deps s (.push msg))
    (hs : Heard id deps s) :
    Heard id deps { s with
      st := deliverMailbox s.st msg, handlers := before ++ .notify msg :: after } := by
  constructor
  · intro hrun hu
    rcases unserved_deliverMailbox hu with hold | hnew
    · rcases hs.underWay hrun hold with ⟨m, hm, ha⟩ | ⟨-, halert⟩
      · left
        refine ⟨m, ?_, awaited_deliverMailbox.mpr ha⟩
        rw [h] at hm
        simp only [List.mem_append, List.mem_cons, reduceCtorEq, false_or] at hm ⊢
        rcases hm with hm | hm
        · exact Or.inl hm
        · exact Or.inr (Or.inr hm)
      · exact Or.inr ⟨hu, halert⟩
    · exact Or.inl ⟨msg, by simp, awaited_deliverMailbox.mpr hnew⟩
  · intro hrun hx hu
    rcases unserved_deliverMailbox hu with hold | hnew
    · exact hs.inTime hrun hx hold
    · exact hg hrun hx hnew

theorem heard_notify {s : WaitSystem} {msg : MailboxMessage} {before after : List MailHandler}
    (h : s.handlers = before ++ .notify msg :: after) (hg : Audible id deps s (.notify msg))
    (hs : Heard id deps s) :
    Heard id deps { s with pc := s.pc.notified, handlers := before ++ after } := by
  have hrunning : s.pc.notified.running = s.pc.running := by
    cases s.pc <;> rfl
  have halert : s.pc.alert = true → s.pc.notified.alert = true := by
    cases s.pc <;> simp [WaitPc.alert, WaitPc.notified]
  constructor
  · intro hrun hu
    dsimp only at hrun hu
    rw [hrunning] at hrun
    rcases hs.underWay hrun hu with ⟨m, hm, ha⟩ | ⟨-, hal⟩
    · rw [h] at hm
      by_cases hmem : MailHandler.notify m ∈ before ++ after
      · exact Or.inl ⟨m, hmem, ha⟩
      · have hsame : m = msg := by
          simp only [List.mem_append, List.mem_cons, MailHandler.notify.injEq] at hm hmem
          tauto
        have hdeaf : ¬s.pc.deaf = true := by
          intro hd
          exact hg hrun hd (hsame ▸ ha)
        right
        refine ⟨hu, ?_⟩
        dsimp only
        cases hpc : s.pc <;> simp [hpc, WaitPc.deaf, WaitPc.running, WaitPc.alert, WaitPc.notified]
          at hdeaf hrun ⊢
    · exact Or.inr ⟨hu, halert hal⟩
  · intro hrun hx
    dsimp only at hrun
    rw [hrunning] at hrun
    exact hs.inTime hrun hx

theorem heard_step {s t : WaitSystem} {move : WaitMove} (h : WaitStep id deps s move t)
    (hg : Audible id deps s move) (hs : Heard id deps s) : Heard id deps t := by
  cases h with
  | wait h => exact heard_wait h hs
  | call msg =>
    refine ⟨fun hrun hu => ?_, hs.inTime⟩
    rcases hs.underWay hrun hu with ⟨m, hm, ha⟩ | hw
    · exact Or.inl ⟨m, List.mem_cons_of_mem _ hm, ha⟩
    · exact Or.inr hw
  | push h => exact heard_push h hg hs
  | notify h => exact heard_notify h hg hs
  | expire =>
    refine ⟨hs.underWay, fun hrun _ hu => ?_⟩
    exact hg hrun (hs.underWay hrun hu)

/-- A wait returns false only when the deadline has passed, and leaves the state alone. -/
theorem returns_false {s t : WaitSystem} {move : WaitMove} (h : WaitStep id deps s move t)
    (hrun : s.pc.running = true) (ht : t.pc = .done false) : s.expired = true ∧ t.st = s.st := by
  cases h with
  | wait h =>
    dsimp only at ht ⊢
    rw [ht] at h
    cases hpc : s.pc with
    | check =>
      simp only [hpc, waitStep, Option.some.injEq, Prod.mk.injEq] at h
      have hnext := h.2
      split_ifs at hnext
      simp at hnext
    | deadline =>
      simp only [hpc, waitStep, Option.some.injEq, Prod.mk.injEq] at h
      obtain ⟨hst, hnext⟩ := h
      split_ifs at hnext with he
      exact ⟨he, hst.symm⟩
    | clone => simp [hpc, waitStep] at h
    | create => simp [hpc, waitStep] at h
    | select woken =>
      simp only [hpc, waitStep] at h
      split_ifs at h with hwake hwoken hexp
      · simp at h
      · exact ⟨hexp, (Prod.mk.inj (Option.some.inj h)).1.symm⟩
    | done r => simp [hpc, waitStep] at h
  | call | push | expire =>
    have hpc : s.pc = .done false := ht
    simp [hpc, WaitPc.running] at hrun
  | notify h =>
    dsimp only at ht
    cases hpc : s.pc <;> simp [hpc, WaitPc.notified] at ht
    simp [hpc, WaitPc.running] at hrun

end System

/-- No lost wakeup: when no awaited notification falls between a check and the creation of
the future, the deadline does not pass during an awaited delivery and nothing awaited is
pushed after it, the wait never returns false over a message that it is waiting for. -/
theorem wait_serves_mailbox (id : InstanceId) (deps : List CrossRollupDependency)
    (st : CoordinatorState) {moves : List WaitMove} {s t : WaitSystem} {move : WaitMove}
    (hrun : Run (fun s m t => WaitStep id deps s m t ∧ Audible id deps s m)
      ⟨st, .check, false, []⟩ moves s)
    (hstep : WaitStep id deps s move t) (hrunning : s.pc.running = true)
    (hfalse : t.pc = .done false) : ¬Unserved id deps t.st := by
  have hinit : Heard id deps ⟨st, .check, false, []⟩ :=
    ⟨fun _ hu => Or.inr ⟨hu, rfl⟩, fun _ hx => by simp at hx⟩
  have hs : Heard id deps s :=
    hrun.invariant (I := Heard id deps) (fun _ _ _ hu hm => heard_step hm.1 hm.2 hu) hinit
  obtain ⟨hx, hst⟩ := returns_false hstep hrunning hfalse
  rw [hst]
  exact hs.inTime hrunning hx

/-- A message of chain 2 to chain 1 and the read that waits for it. -/
def awaitedDependency : CrossRollupDependency :=
  { sourceChainId := 2
    destChainId := 1
    sender := FixedBytes.repeatByte 20 0x11
    receiver := FixedBytes.repeatByte 20 0x22
    label := []
    data := none
    sessionId := 7 }

def awaitedMessage : MailboxMessage :=
  { instanceId := InstanceId.asBytes "xt-2-1"
    sourceChain := 2
    destinationChain := 1
    sender := List.replicate 20 0x11
    receiver := List.replicate 20 0x22
    label := ""
    payload := [0xff]
    sessionId := encodeSessionId 7 }

/-- Chain 1 has registered the instance `xt-2-1`. -/
def waitingState : CoordinatorState :=
  (forwardXt (.bare 1) {} "xt-2-1" [⟨1, [[0x01]]⟩, ⟨2, [[0x02]]⟩].toAList 2 1).1

theorem waiting_check :
    WaitStep "xt-2-1" [awaitedDependency] ⟨waitingState, .check, false, []⟩ (.wait false)
      ⟨waitingState, .deadline, false, []⟩ :=
  .wait rfl

/-- A message of another session, which nobody waits for. -/
def strayMessage : MailboxMessage := { awaitedMessage with sessionId := encodeSessionId 8 }

theorem stray_check :
    WaitStep "xt-2-1" [awaitedDependency]
      ⟨deliverMailbox waitingState strayMessage, .check, false, []⟩ (.wait false)
      ⟨deliverMailbox waitingState strayMessage, .deadline, false, []⟩ :=
  .wait rfl

/-- A message that serves nothing is pushed and wakes the wait, which checks again, finds nothing
to take and gives up at the deadline, with the message still in the mailbox. -/
theorem wait_serves_mailbox_timeout :
    ∃ moves s t xt, Run (fun s m t => WaitStep "xt-2-1" [awaitedDependency] s m t ∧
        Audible "xt-2-1" [awaitedDependency] s m) ⟨waitingState, .check, false, []⟩ moves s ∧
      .push strayMessage ∈ moves ∧ .notify strayMessage ∈ moves ∧
      WaitStep "xt-2-1" [awaitedDependency] s (.wait false) t ∧ t.pc = .done false ∧
      t.st.pending.lookup "xt-2-1" = some xt ∧ xt.pendingMailbox = [strayMessage] ∧
      ¬Unserved "xt-2-1" [awaitedDependency] t.st := by
  have hrun : Run (fun s m t => WaitStep "xt-2-1" [awaitedDependency] s m t ∧
        Audible "xt-2-1" [awaitedDependency] s m)
      ⟨waitingState, .check, false, []⟩
      [.wait false, .wait false, .wait false, .wait false, .call strayMessage, .push strayMessage,
        .notify strayMessage, .wait true, .wait false, .expire]
      ⟨deliverMailbox waitingState strayMessage, .deadline, true, []⟩ := by
    refine .cons ⟨waiting_check, fun _ => trivial⟩ <| .cons ⟨.wait rfl, fun _ => trivial⟩ <|
      .cons ⟨.wait rfl, fun _ => trivial⟩ <| .cons ⟨.wait rfl, fun _ => trivial⟩ <|
      .cons ⟨.call _ _, fun _ => trivial⟩ <|
      .cons ⟨@WaitStep.push _ _ _ _ [] [] rfl, fun _ hlate => by simp at hlate⟩ <|
      .cons ⟨@WaitStep.notify _ _ _ _ [] [] rfl, fun _ hdeaf => by simp [WaitPc.deaf] at hdeaf⟩ <|
      .cons ⟨.wait rfl, fun _ => trivial⟩ <| .cons ⟨stray_check, fun _ => trivial⟩ <|
      .cons ⟨.expire _, fun _ h => ?_⟩ (.nil _)
    rcases h with ⟨msg, hm, -⟩ | ⟨-, halert⟩
    · simp at hm
    · simp [WaitPc.alert] at halert
  have hstep : WaitStep "xt-2-1" [awaitedDependency]
      ⟨deliverMailbox waitingState strayMessage, .deadline, true, []⟩ (.wait false)
      ⟨deliverMailbox waitingState strayMessage, .done false, true, []⟩ := .wait rfl
  exact ⟨_, _, _, _, hrun, by simp, by simp, hstep, rfl, rfl, rfl,
    wait_serves_mailbox _ _ _ hrun hstep rfl rfl⟩

/-- The message comes and its handler notifies while the wait is between its check and its
future: the wait sleeps to the deadline and returns false over the message. -/
theorem wakeup_lost_after_check :
    ∃ moves s t, Run (WaitStep "xt-2-1" [awaitedDependency]) ⟨waitingState, .check, false, []⟩
        moves s ∧
      WaitStep "xt-2-1" [awaitedDependency] s (.wait false) t ∧ s.pc.running = true ∧
      t.pc = .done false ∧ Unserved "xt-2-1" [awaitedDependency] t.st := by
  have hrun : Run (WaitStep "xt-2-1" [awaitedDependency]) ⟨waitingState, .check, false, []⟩
      [.wait false, .wait false, .wait false, .call awaitedMessage, .push awaitedMessage,
        .notify awaitedMessage, .wait false, .expire]
      ⟨deliverMailbox waitingState awaitedMessage, .select false, true, []⟩ :=
    .cons waiting_check <| .cons (.wait rfl) <| .cons (.wait rfl) <| .cons (.call _ _) <|
    .cons (@WaitStep.push _ _ _ _ [] [] rfl) <| .cons (@WaitStep.notify _ _ _ _ [] [] rfl) <|
    .cons (.wait rfl) <| .cons (.expire _) (.nil _)
  have hlook : (deliverMailbox waitingState awaitedMessage).pending.lookup "xt-2-1" =
      some { forwardedXt (.bare 1) "xt-2-1" [⟨1, [[0x01]]⟩, ⟨2, [[0x02]]⟩].toAList 2 1 with
        pendingMailbox := [awaitedMessage] } := rfl
  refine ⟨_, _, _, hrun, .wait rfl, rfl, rfl, _, awaitedMessage, hlook, by simp, _,
    awaitedDependency, hlook, by simp, ?_, by decide⟩
  simp [forwardedXt]

end Sidecar.Coordinator
