import Sidecar.Coordinator.Entry
import Sidecar.Coordinator.WorldRun

namespace Sidecar.Coordinator

open TaskSystem

/-- Those who wait for the instance of a request. -/
def waitersOf (st : CoordinatorState) (fingerprint : String) : List Waiter :=
  (st.pendingSubmissions.lookup fingerprint).getD []

/-- Nobody comes to wait, and only those with a closed channel go, unless all do. -/
structure KeepsOpen (closed : Waiter → Bool) (waiters waiters' : List Waiter) : Prop where
  subset : waiters' ⊆ waiters
  kept : waiters' = [] ∨ ∀ waiter ∈ waiters, closed waiter = false → waiter ∈ waiters'

theorem KeepsOpen.refl (closed : Waiter → Bool) (waiters : List Waiter) :
    KeepsOpen closed waiters waiters :=
  ⟨List.Subset.refl _, Or.inr (fun _ hmem _ => hmem)⟩

theorem KeepsOpen.filter (closed : Waiter → Bool) (waiters : List Waiter) :
    KeepsOpen closed waiters (waiters.filter (fun waiter => !closed waiter)) := by
  refine ⟨List.filter_subset_self _, Or.inr (fun waiter hmem hopen => ?_)⟩
  exact List.mem_filter.mpr ⟨hmem, by simp [hopen]⟩

theorem KeepsOpen.nil (closed : Waiter → Bool) (waiters : List Waiter) :
    KeepsOpen closed waiters [] :=
  ⟨List.nil_subset _, Or.inl rfl⟩

section Waiters

variable (cfg : Config) (st : CoordinatorState)

theorem waitersOf_enqueue (fingerprint fingerprint' : String) (waiter : Waiter) :
    waitersOf ((Op.enqueue fingerprint waiter).apply cfg st) fingerprint' =
      if fingerprint' = fingerprint then waitersOf st fingerprint ++ [waiter]
      else waitersOf st fingerprint' := by
  simp only [waitersOf, Op.apply, enqueueSubmission, Map.lookup_insert_eq]
  split_ifs <;> rfl

theorem pendingSubmissions_submitXt (txs : RawTxs) :
    (submitXt cfg st txs).1.pendingSubmissions = st.pendingSubmissions := by
  have h := submitXt_effect cfg st txs
  generalize submitXt cfg st txs = r at h ⊢
  cases h <;> rfl

/-- What the step of a task other than a new caller's does to those who wait. -/
theorem waitersOf_apply {reply : TaskReply} {t : Task} {op : Op} (hop : RunsOp cfg reply t op)
    (hcall : ∀ txs waiter, t ≠ .submitPublisher txs waiter) (fingerprint : String) :
    KeepsOpen reply.closed (waitersOf st fingerprint)
      (waitersOf (op.apply cfg st) fingerprint) := by
  have hsame : (op.apply cfg st).pendingSubmissions = st.pendingSubmissions →
      KeepsOpen reply.closed (waitersOf st fingerprint)
        (waitersOf (op.apply cfg st) fingerprint) := by
    intro he
    rw [waitersOf, waitersOf, he]
    exact .refl _ _
  have hframe : op.onInstances = true → KeepsOpen reply.closed (waitersOf st fingerprint)
      (waitersOf (op.apply cfg st) fingerprint) := by
    intro ho
    obtain ⟨pending, chainOverlay, he⟩ := apply_onInstances cfg st ho
    exact hsame (by rw [he])
  cases hop with
  | enqueued txs waiter => exact absurd rfl (hcall txs waiter)
  | submitted txs => exact hsame (pendingSubmissions_submitXt cfg st txs)
  | forwarded id txs originChain originSeq =>
    refine hsame ?_
    rcases forwardXt_cases cfg st id txs originChain originSeq with ⟨-, hs⟩ | ⟨-, -, hs⟩ <;>
      rw [Op.apply, hs]
    rfl
  | @started msg inst htry =>
    refine hsame ?_
    rcases registerStarted_cases cfg st inst with ⟨-, hs⟩ | ⟨period, -, -, hs⟩ <;>
      rw [Op.apply, hs]
    rfl
  | removed registrar err =>
    simp only [Op.apply, removePendingXt]
    split
    · exact .refl _ _
    · rw [waitersOf, waitersOf, getD_pruneSubmissions]
      exact .filter _ _
  | cleanedUp maxAge =>
    simp only [Op.apply, cleanup]
    rw [waitersOf, waitersOf, getD_pruneSubmissions]
    exact .filter _ _
  | rolledBack => exact .nil _ _
  | resolved fingerprint' result after =>
    simp only [waitersOf, Op.apply, takeSubmission, Map.lookup_erase_eq]
    split_ifs
    · exact .nil _ _
    · exact .refl _ _
  | mailed msg =>
    refine hsame ?_
    simp only [Op.apply, deliverMailbox, CoordinatorState.bufferOrphanMailbox]
    split
    · rfl
    · split <;> split_ifs <;> rfl
  | periodStarted periodId => exact hsame rfl
  | voted | peerVoted | decided | confirmed | locked | recorded | dispatched | fulfilled =>
    exact hframe rfl

end Waiters

/-- The caller whose call a task goes on with. -/
def Task.caller : Task → List Waiter
  | .request (.submitXt _ waiter) => [waiter]
  | .submitPublisher _ waiter => [waiter]
  | .sendRequest _ _ waiter => [waiter]
  | .awaitInstance waiter => [waiter]
  | _ => []

theorem caller_notified (t : Task) : t.notified.caller = t.caller := by cases t <;> rfl

theorem offCommands_caller : OffCommands Task.caller :=
  ⟨fun _ _ => rfl, fun _ _ => rfl, fun _ => rfl, fun _ => rfl, fun _ => rfl⟩

section Step

variable {cfg : Config} {reply : TaskReply} {sh sh' : Shared} {t : Task} {next : List Task}
  {es : List Event}

/-- A call is in the hands of one task from its arrival to its end. -/
theorem caller_step (h : TaskEffect cfg reply sh sh' t next es) :
    List.Sublist (next.flatMap Task.caller) t.caller := by
  have hnone : next.flatMap Task.caller = [] →
      List.Sublist (next.flatMap Task.caller) t.caller := by
    intro he
    rw [he]
    exact List.nil_sublist _
  cases h with
  | modeChosen txs waiter hu =>
    rcases hu with rfl | ⟨rfl, -⟩
    · exact List.nil_sublist _
    · exact List.Sublist.refl _
  | enqueued txs waiter hu =>
    rcases hu with rfl | ⟨_, _, rfl⟩ <;> exact List.Sublist.refl _
  | requested fingerprint req waiter hu =>
    rcases hu with rfl | ⟨_, rfl⟩
    · exact List.Sublist.refl _
    · exact List.nil_sublist _
  | registered => exact hnone (flatMap_submitFirst (fun _ => rfl) rfl)
  | proceeded registrar =>
    exact hnone (flatMap_registrarNext cfg (fun _ _ => rfl) (fun _ _ => rfl) (fun _ _ _ => rfl)
      registrar)
  | decided | voteRecorded => exact hnone (flatMap_commandOr cfg offCommands_caller _ _)
  | periodOpened | rolledBack | releaseSkipped | recycled =>
    exact hnone (flatMap_next cfg offCommands_caller _)
  | resolved fingerprint result after => cases after <;> exact List.nil_sublist _
  | removed registrar => cases registrar <;> exact List.nil_sublist _
  | releaseSent id txs resume hn =>
    rcases hn with rfl | rfl
    · exact hnone (flatMap_next cfg offCommands_caller _)
    · exact List.nil_sublist _
  | abortSent _ _ _ hn => rcases hn with rfl | rfl <;> exact List.nil_sublist _
  | releaseStarted _ _ _ _ hu => rcases hu with rfl | ⟨_, rfl⟩ <;> exact List.nil_sublist _
  | built _ _ _ _ _ hu =>
    rcases hu with rfl | rfl | ⟨_, _, _, rfl⟩ <;> exact List.nil_sublist _
  | _ => exact List.nil_sublist _

/-- What a step other than a new caller's does to those who wait. -/
theorem waitersOf_step (h : taskStep cfg reply sh t = some (sh', next, es))
    (hcall : ∀ txs waiter, t ≠ .submitPublisher txs waiter) (fingerprint : String) :
    KeepsOpen reply.closed (waitersOf sh.st fingerprint) (waitersOf sh'.st fingerprint) := by
  rw [taskStep_state cfg reply sh h]
  cases hop : taskOp cfg reply t with
  | none => exact .refl _ _
  | some op => exact waitersOf_apply cfg sh.st (runsOp_of_taskOp hop) hcall fingerprint

end Step

section History

variable (cfg : Config)

def requestFingerprint (txs : RawTxs) : String := cfg.xtRequestFingerprint (buildXtRequest txs)

/-- Whose calls have come in, who waits no more, and the requests that were sent and whose last
waiting caller has since gone. -/
structure Callers where
  called : List Waiter := []
  gone : List Waiter := []
  abandoned : List String := []

/-- The requests that only this caller still waited for. -/
def lastWaited (st : CoordinatorState) (gone : List Waiter) (waiter : Waiter) : List String :=
  st.pendingSubmissions.keys.filter (fun fingerprint =>
    decide (waiter ∈ waitersOf st fingerprint ∧
      ∀ other ∈ waitersOf st fingerprint, other ∈ waiter :: gone))

/-- A caller that stops waiting while it is listed has timed out. -/
def recordCallers (w : World) (m : Move) (callers : Callers) : Callers :=
  match m with
  | .arrive (.submitXt _ waiter) => { callers with called := waiter :: callers.called }
  | .run (.awaitInstance waiter) _ =>
    { callers with
      gone := waiter :: callers.gone
      abandoned := lastWaited w.shared.st callers.gone waiter ++ callers.abandoned }
  | .run (.submitPublisher txs _) _ =>
    if waitersOf w.shared.st (requestFingerprint cfg txs) = [] then
      { callers with
        abandoned := callers.abandoned.filter (fun f => f != requestFingerprint cfg txs) }
    else callers
  | _ => callers

/-- Every call makes a channel of its own, and a channel is closed only when its caller has
gone. -/
def OwnChannel (s : World × Callers) : Move → Prop
  | .arrive (.submitXt _ waiter) => waiter ∉ s.2.called
  | .run _ reply => ∀ waiters ∈ Map.values s.1.shared.st.pendingSubmissions,
      ∀ waiter ∈ waiters, reply.closed waiter = true → waiter ∈ s.2.gone
  | _ => True

/-- A call that leaves the request to others has one of them still waiting. -/
def JoinsOpen (s : World × Callers) : Move → Prop
  | .run (.submitPublisher txs waiter) _ =>
    (enqueueSubmission s.1.shared.st (requestFingerprint cfg txs) waiter).2 = false →
      ∃ other ∈ waitersOf s.1.shared.st (requestFingerprint cfg txs), other ∉ s.2.gone
  | _ => True

/-- A call that comes when the last waiting caller of its request has timed out comes when the
waiters have been cleared. -/
def RetriesCleared (s : World × Callers) : Move → Prop
  | .run (.submitPublisher txs _) _ =>
    requestFingerprint cfg txs ∈ s.2.abandoned →
      waitersOf s.1.shared.st (requestFingerprint cfg txs) = []
  | _ => True

instance (s : World × Callers) (m : Move) : Decidable (OwnChannel s m) := by
  unfold OwnChannel
  split <;> infer_instance

instance (s : World × Callers) (m : Move) : Decidable (RetriesCleared cfg s m) := by
  unfold RetriesCleared
  split <;> infer_instance

/-- A move of the coordinator with what is known of the callers beside it. -/
def CallStep (s : World × Callers) (m : Move) (s' : World × Callers) : Prop :=
  Recorded (WorldStep cfg) (recordCallers cfg) s m s' ∧ OwnChannel s m

variable {cfg} {w : World} {callers : Callers} {reply : TaskReply} {t : Task} {sh' : Shared}
  {before after next : List Task} {es : List Event}

theorem called_run : (recordCallers cfg w (.run t reply) callers).called = callers.called := by
  cases t with
  | submitPublisher txs waiter =>
    simp only [recordCallers]
    split_ifs <;> rfl
  | _ => rfl

theorem mem_gone_run {v : Waiter} :
    v ∈ (recordCallers cfg w (.run t reply) callers).gone ↔
      v ∈ callers.gone ∨ t = .awaitInstance v := by
  cases t with
  | submitPublisher txs waiter =>
    simp only [recordCallers]
    split_ifs <;> simp
  | awaitInstance waiter =>
    simp only [recordCallers, List.mem_cons, Task.awaitInstance.injEq]
    rw [or_comm, eq_comm]
  | _ => simp [recordCallers]

/-- Every call is in the hands of one task, until its caller goes. -/
structure CallsInv (s : World × Callers) : Prop where
  once : (s.1.held Task.caller).Nodup
  called : ∀ v ∈ s.1.held Task.caller, v ∈ s.2.called
  gone_called : ∀ v ∈ s.2.gone, v ∈ s.2.called
  gone_left : ∀ v ∈ s.2.gone, v ∉ s.1.held Task.caller

theorem callsInv_initial : CallsInv (World.initial, {}) := by
  constructor <;> simp [World.initial, held]

theorem CallsInv.congr {w' : World} (h : w'.held Task.caller = w.held Task.caller)
    (hi : CallsInv (w, callers)) : CallsInv (w', callers) := by
  constructor
  · rw [h]
    exact hi.once
  · rw [h]
    exact hi.called
  · exact hi.gone_called
  · rw [h]
    exact hi.gone_left

/-- A new call has a channel that nobody has had before. -/
theorem callsInv_called (txs : RawTxs) {waiter : Waiter} (hnew : waiter ∉ callers.called)
    (hi : CallsInv (w, callers)) :
    CallsInv ({ w with tasks := w.tasks ++ [.request (.submitXt txs waiter)] },
      { callers with called := waiter :: callers.called }) := by
  have hheld : held Task.caller { w with tasks := w.tasks ++ [.request (.submitXt txs waiter)] } =
      w.held Task.caller ++ [waiter] := by
    simp [held, Task.caller]
  constructor
  · rw [hheld]
    refine List.nodup_append'.mpr ⟨hi.once, List.nodup_singleton _, ?_⟩
    exact List.disjoint_singleton.mpr (fun hmem => hnew (hi.called waiter hmem))
  · rw [hheld]
    intro v hv
    rcases List.mem_append.mp hv with hold | hlast
    · exact List.mem_cons_of_mem _ (hi.called v hold)
    · exact List.mem_cons.mpr (Or.inl (List.mem_singleton.mp hlast))
  · exact fun v hv => List.mem_cons_of_mem _ (hi.gone_called v hv)
  · rw [hheld]
    intro v hv hmem
    rcases List.mem_append.mp hmem with hold | hlast
    · exact hi.gone_left v hv hold
    · obtain rfl := List.mem_singleton.mp hlast
      exact hnew (hi.gone_called v hv)

theorem callsInv_run (htasks : w.tasks = before ++ t :: after)
    (h : taskStep cfg reply w.shared t = some (sh', next, es)) (hi : CallsInv (w, callers)) :
    CallsInv (⟨sh', before ++ next ++ after, w.log ++ es⟩,
      recordCallers cfg w (.run t reply) callers) := by
  have hsub := caller_step (taskStep_effect h)
  have hback : ∀ v ∈ (before ++ next ++ after).flatMap Task.caller, v ∈ w.held Task.caller := by
    intro v hv
    rcases held_of_split htasks hv with hnext | hw
    · exact mem_held.mpr ⟨t, mem_of_split htasks, hsub.subset hnext⟩
    · exact hw
  constructor
  · exact nodup_of_split htasks hi.once hsub
  · intro v hv
    rw [called_run]
    exact hi.called v (hback v hv)
  · intro v hv
    rw [called_run]
    rcases mem_gone_run.mp hv with hold | rfl
    · exact hi.gone_called v hold
    · exact hi.called v (mem_held.mpr ⟨_, mem_of_split htasks, List.mem_singleton_self v⟩)
  · intro v hv hmem
    rcases mem_gone_run.mp hv with hold | rfl
    · exact hi.gone_left v hold (hback v hmem)
    · obtain ⟨-, rfl, -⟩ : w.shared = sh' ∧ [] = next ∧ [] = es := by simpa [taskStep] using h
      rw [List.append_nil] at hmem
      exact held_once htasks hi.once hmem (List.mem_singleton_self v)

theorem callsInv_step {s s' : World × Callers} {m : Move} (h : CallStep cfg s m s')
    (hi : CallsInv s) : CallsInv s' := by
  obtain ⟨w, callers⟩ := s
  obtain ⟨w', callers'⟩ := s'
  obtain ⟨⟨hstep, hrecord⟩, hown⟩ := h
  simp only at hstep hrecord
  subst hrecord
  cases hstep with
  | arrive request =>
    cases request with
    | submitXt txs waiter => exact callsInv_called txs hown hi
    | _ => exact hi.congr (by simp [held, Task.caller])
  | connection up =>
    refine hi.congr ?_
    rfl
  | notify htasks =>
    refine hi.congr ?_
    simp only [held, htasks, List.flatMap_map, caller_notified, List.flatMap_append,
      List.flatMap_cons]
    rfl
  | run hr =>
    cases hr with
    | intro htasks htask => exact callsInv_run htasks htask hi

/-- Somebody still waits for every request that has waiters, or all who did are gone. -/
structure WaitersInv (st : CoordinatorState) (callers : Callers) : Prop where
  waited : ∀ fingerprint, fingerprint ∉ callers.abandoned → waitersOf st fingerprint ≠ [] →
    ∃ v ∈ waitersOf st fingerprint, v ∉ callers.gone
  left : ∀ fingerprint ∈ callers.abandoned, ∀ v ∈ waitersOf st fingerprint, v ∈ callers.gone

theorem waitersInv_initial : WaitersInv {} {} := by
  constructor
  · intro fingerprint _ hwaiters
    exact absurd rfl hwaiters
  · simp

variable {st st' : CoordinatorState}

/-- Those with an open channel stay, so whoever still waits does so afterwards. -/
theorem waitersInv_keeps {closed : Waiter → Bool}
    (hkeeps : ∀ fingerprint,
      KeepsOpen closed (waitersOf st fingerprint) (waitersOf st' fingerprint))
    (hclosed : ∀ fingerprint, ∀ v ∈ waitersOf st fingerprint, closed v = true → v ∈ callers.gone)
    (hi : WaitersInv st callers) : WaitersInv st' callers := by
  constructor
  · intro fingerprint hf hwaiters
    have hbefore : waitersOf st fingerprint ≠ [] := by
      intro he
      have hsub := (hkeeps fingerprint).subset
      rw [he] at hsub
      exact hwaiters (List.subset_nil.mp hsub)
    obtain ⟨v, hv, hopen⟩ := hi.waited fingerprint hf hbefore
    rcases (hkeeps fingerprint).kept with hnil | hkept
    · exact absurd hnil hwaiters
    · refine ⟨v, hkept v hv ?_, hopen⟩
      by_contra hc
      exact hopen (hclosed fingerprint v hv (by simpa using hc))
  · intro fingerprint hf v hv
    exact hi.left fingerprint hf v ((hkeeps fingerprint).subset hv)

theorem mem_lastWaited {gone : List Waiter} {waiter : Waiter} {fingerprint : String} :
    fingerprint ∈ lastWaited st gone waiter ↔ waiter ∈ waitersOf st fingerprint ∧
      ∀ other ∈ waitersOf st fingerprint, other ∈ waiter :: gone := by
  rw [lastWaited, List.mem_filter, decide_eq_true_eq]
  refine ⟨And.right, fun h => ⟨?_, h⟩⟩
  by_contra hno
  have hnone : st.pendingSubmissions.lookup fingerprint = none := AList.lookup_eq_none.mpr hno
  simp [waitersOf, hnone] at h

/-- A caller goes: a request is abandoned by it when nobody else waits. -/
theorem waitersInv_goes (waiter : Waiter) (hi : WaitersInv st callers) :
    WaitersInv st { callers with
      gone := waiter :: callers.gone
      abandoned := lastWaited st callers.gone waiter ++ callers.abandoned } := by
  constructor
  · intro fingerprint hf hwaiters
    obtain ⟨hlast, hold⟩ := not_or.mp (fun h => hf (List.mem_append.mpr h))
    by_cases hlisted : waiter ∈ waitersOf st fingerprint
    · by_contra hno
      refine hlast (mem_lastWaited.mpr ⟨hlisted, fun other hother => ?_⟩)
      by_contra hopen
      exact hno ⟨other, hother, hopen⟩
    · obtain ⟨v, hv, hopen⟩ := hi.waited fingerprint hold hwaiters
      refine ⟨v, hv, fun hmem => ?_⟩
      rcases List.mem_cons.mp hmem with rfl | hgone
      · exact hlisted hv
      · exact hopen hgone
  · intro fingerprint hf v hv
    rcases List.mem_append.mp hf with hlast | hold
    · exact (mem_lastWaited.mp hlast).2 v hv
    · exact List.mem_cons_of_mem _ (hi.left fingerprint hold v hv)

/-- A new caller waits, so its request is not abandoned any more. -/
theorem waitersInv_calls (fingerprint : String) {waiter : Waiter} {callers' : Callers}
    (hnew : waiter ∉ callers.gone) (hgone : callers'.gone = callers.gone)
    (hself : fingerprint ∉ callers'.abandoned)
    (hothers : ∀ f, f ≠ fingerprint → (f ∈ callers'.abandoned ↔ f ∈ callers.abandoned))
    (hi : WaitersInv st callers) :
    WaitersInv ((Op.enqueue fingerprint waiter).apply cfg st) callers' := by
  have hsame : ∀ f, f ≠ fingerprint →
      waitersOf ((Op.enqueue fingerprint waiter).apply cfg st) f = waitersOf st f := by
    intro f hne
    rw [waitersOf_enqueue, if_neg hne]
  constructor
  · intro f hf hwaiters
    rw [hgone]
    by_cases hne : f = fingerprint
    · rw [waitersOf_enqueue, if_pos hne]
      exact ⟨waiter, by simp, hnew⟩
    · rw [hsame f hne] at hwaiters ⊢
      exact hi.waited f (fun hmem => hf ((hothers f hne).mpr hmem)) hwaiters
  · intro f hf v hv
    have hne : f ≠ fingerprint := by
      rintro rfl
      exact hself hf
    rw [hsame f hne] at hv
    rw [hgone]
    exact hi.left f ((hothers f hne).mp hf) v hv

theorem waitersInv_step {s s' : World × Callers} {m : Move} (h : CallStep cfg s m s')
    (hretry : RetriesCleared cfg s m) (hcalls : CallsInv s)
    (hi : WaitersInv s.1.shared.st s.2) : WaitersInv s'.1.shared.st s'.2 := by
  obtain ⟨w, callers⟩ := s
  obtain ⟨w', callers'⟩ := s'
  obtain ⟨⟨hstep, hrecord⟩, hown⟩ := h
  simp only at hstep hrecord hi
  subst hrecord
  cases hstep with
  | arrive request => cases request <;> exact ⟨hi.waited, hi.left⟩
  | connection up => exact hi
  | notify htasks => exact hi
  | @run _ t reply hr =>
    cases hr with
    | @intro before after next sh' es htasks htask =>
      have hclosed : ∀ fingerprint, ∀ v ∈ waitersOf w.shared.st fingerprint,
          reply.closed v = true → v ∈ callers.gone := by
        intro fingerprint v hv
        cases hl : w.shared.st.pendingSubmissions.lookup fingerprint with
        | none => simp [waitersOf, hl] at hv
        | some waiters =>
          refine hown waiters ((Map.mem_values _ _).mpr ⟨fingerprint, hl⟩) v ?_
          simpa [waitersOf, hl] using hv
      cases t with
      | submitPublisher txs waiter =>
        have hst : sh'.st =
            (Op.enqueue (requestFingerprint cfg txs) waiter).apply cfg w.shared.st :=
          taskStep_state cfg reply w.shared htask
        have hnew : waiter ∉ callers.gone := by
          intro hgone
          exact hcalls.gone_left waiter hgone
            (mem_held.mpr ⟨_, mem_of_split htasks, List.mem_singleton_self waiter⟩)
        simp only [hst, recordCallers]
        split_ifs with hempty
        · exact waitersInv_calls _ hnew rfl (by simp) (fun f hne => by simp [hne]) hi
        · exact waitersInv_calls _ hnew rfl (fun hleft => hempty (hretry hleft))
            (fun _ _ => Iff.rfl) hi
      | awaitInstance waiter =>
        have hst : sh'.st = w.shared.st := taskStep_state cfg reply w.shared htask
        simp only [hst]
        exact waitersInv_goes waiter hi
      | _ => exact waitersInv_keeps (waitersOf_step htask (by simp)) hclosed hi

/-- As long as the invariant holds, a joined call finds somebody waiting exactly when its request
is not abandoned. -/
theorem joinsOpen_iff {s : World × Callers} (hi : WaitersInv s.1.shared.st s.2) (m : Move) :
    JoinsOpen cfg s m ↔ RetriesCleared cfg s m := by
  cases m with
  | run t reply =>
    cases t with
    | submitPublisher txs waiter =>
      have hsends : (enqueueSubmission s.1.shared.st (requestFingerprint cfg txs) waiter).2 =
          (waitersOf s.1.shared.st (requestFingerprint cfg txs)).isEmpty := rfl
      simp only [JoinsOpen, RetriesCleared, hsends]
      constructor
      · intro hopen hleft
        by_contra hwaiters
        obtain ⟨v, hv, hgone⟩ := hopen (by simpa using hwaiters)
        exact hgone (hi.left _ hleft v hv)
      · intro hcleared hjoins
        have hwaiters : waitersOf s.1.shared.st (requestFingerprint cfg txs) ≠ [] := by
          simpa using hjoins
        exact hi.waited _ (fun hleft => hwaiters (hcleared hleft)) hwaiters
    | _ => exact Iff.rfl
  | _ => exact Iff.rfl

end History

/-- Along a run, every call that leaves the request to others has one of them still waiting,
exactly when every call that comes after the last of them timed out comes after the waiters were
cleared. -/
theorem joined_calls_wait_iff {cfg : Config} {moves : List Move} {s : World × Callers} :
    Run (fun s m s' => CallStep cfg s m s' ∧ JoinsOpen cfg s m) (World.initial, {}) moves s ↔
      Run (fun s m s' => CallStep cfg s m s' ∧ RetriesCleared cfg s m) (World.initial, {})
        moves s := by
  have hinitial : CallsInv (World.initial, {}) ∧ WaitersInv World.initial.shared.st {} :=
    ⟨callsInv_initial, waitersInv_initial⟩
  constructor
  · intro h
    refine h.strengthen (I := fun s => CallsInv s ∧ WaitersInv s.1.shared.st s.2) ?_ hinitial
    rintro s m s' ⟨hcalls, hi⟩ ⟨hstep, hopen⟩
    have hcleared := (joinsOpen_iff hi m).mp hopen
    exact ⟨⟨callsInv_step hstep hcalls, waitersInv_step hstep hcleared hcalls hi⟩, hstep, hcleared⟩
  · intro h
    refine h.strengthen (I := fun s => CallsInv s ∧ WaitersInv s.1.shared.st s.2) ?_ hinitial
    rintro s m s' ⟨hcalls, hi⟩ ⟨hstep, hcleared⟩
    exact ⟨⟨callsInv_step hstep hcalls, waitersInv_step hstep hcleared hcalls hi⟩, hstep,
      (joinsOpen_iff hi m).mpr hcleared⟩

/-- How often the publisher was sent a request. -/
def requestsSent (log : List Event) : Nat :=
  log.countP (fun e => match e with
    | .publisherRequest _ => true
    | _ => false)

/-- A second caller joins the first; both time out, and a third comes after the clean-up. -/
def retryCleared : List Pick :=
  [.connection true, .arrive (.submitXt twoChainTxs 0), .run 0 {}, .run 0 {}, .run 0 {},
    .arrive (.submitXt twoChainTxs 1), .run 1 {}, .run 1 {}, .run 0 {}, .run 0 {},
    .arrive (.cleanup 0), .run 0 { closed := fun _ => true },
    .arrive (.submitXt twoChainTxs 2), .run 0 {}, .run 0 {}, .run 0 {}]

theorem joined_calls_wait_cleared :
    ∃ moves s, Run (fun s m s' => CallStep publisherConfig s m s' ∧ JoinsOpen publisherConfig s m)
      (World.initial, {}) moves s ∧ s.2.gone = [1, 0] ∧ requestsSent s.1.log = 2 := by
  have hexec : (execAll (recordPick (pickStep publisherConfig) (recordCallers publisherConfig))
      (fun s m => decide (OwnChannel s m ∧ RetriesCleared publisherConfig s m)) retryCleared
      (World.initial, {})).map (fun s => (s.2.gone, requestsSent s.1.log)) = some ([1, 0], 2) := by
    decide +kernel
  obtain ⟨s, hs, hshown⟩ := Option.map_eq_some_iff.mp hexec
  obtain ⟨hgone, hsent⟩ := Prod.mk.inj hshown
  obtain ⟨moves, hrun⟩ := run_execAll (recorded_of_recordPick worldStep_of_pick) hs
  exact ⟨moves, s, joined_calls_wait_iff.mpr (hrun.mono (fun _ _ _ h => ⟨⟨h.1, h.2.1⟩, h.2.2⟩)),
    hgone, hsent⟩

/-- The task is about to enqueue this call. -/
def Task.isCall (txs : RawTxs) (waiter : Waiter) : Task → Bool
  | .submitPublisher txs' waiter' => decide (txs' = txs ∧ waiter' = waiter)
  | _ => false

theorem task_of_isCall {t : Task} {txs : RawTxs} {waiter : Waiter}
    (h : t.isCall txs waiter = true) : t = .submitPublisher txs waiter := by
  cases t with
  | submitPublisher txs' waiter' =>
    obtain ⟨rfl, rfl⟩ := of_decide_eq_true h
    rfl
  | _ => simp [Task.isCall] at h

/-- The only caller of a request times out, and calls again before the next clean-up. -/
def retryEarly : List Pick :=
  [.connection true, .arrive (.submitXt twoChainTxs 0), .run 0 {}, .run 0 {}, .run 0 {}, .run 0 {},
    .arrive (.submitXt twoChainTxs 1), .run 0 {}]

/-- The second call finds the first one's waiter, sends nothing and waits for a request that
nobody waits for any more. -/
theorem retry_joins_abandoned_request :
    ∃ moves s s', Run (CallStep publisherConfig) (World.initial, {}) moves s ∧
      CallStep publisherConfig s (.run (.submitPublisher twoChainTxs 1) {}) s' ∧
      waitersOf s.1.shared.st (requestFingerprint publisherConfig twoChainTxs) = [0] ∧
      s.2.gone = [0] ∧ s'.1.tasks = [.awaitInstance 1] ∧
      ¬JoinsOpen publisherConfig s (.run (.submitPublisher twoChainTxs 1) {}) := by
  have hexec : (execAll (recordPick (pickStep publisherConfig) (recordCallers publisherConfig))
      (fun s m => decide (OwnChannel s m)) retryEarly (World.initial, {})).map (fun s =>
        (waitersOf s.1.shared.st (requestFingerprint publisherConfig twoChainTxs), s.2.gone,
          s.1.tasks.map (Task.isCall twoChainTxs 1))) =
      some ([0], [0], [true]) := by
    decide +kernel
  obtain ⟨s, hs, hshown⟩ := Option.map_eq_some_iff.mp hexec
  obtain ⟨hwaiters, hrest⟩ := Prod.mk.inj hshown
  obtain ⟨hgone, htasks⟩ := Prod.mk.inj hrest
  obtain ⟨t, ht, hcall⟩ := List.map_eq_singleton_iff.mp htasks
  obtain rfl := task_of_isCall hcall
  obtain ⟨moves, hrun⟩ := run_execAll (recorded_of_recordPick worldStep_of_pick) hs
  have hjoins : (enqueueSubmission s.1.shared.st (requestFingerprint publisherConfig twoChainTxs)
      1).2 = false := by
    show (waitersOf s.1.shared.st (requestFingerprint publisherConfig twoChainTxs)).isEmpty = false
    rw [hwaiters]
    rfl
  obtain ⟨sh', hnext⟩ : ∃ sh', taskStep publisherConfig {} s.1.shared
      (.submitPublisher twoChainTxs 1) = some (sh', [.awaitInstance 1], []) := by
    rw [requestFingerprint] at hjoins
    simp [taskStep, submitPublisher, hjoins]
  have hstep : WorldStep publisherConfig s.1 (.run (.submitPublisher twoChainTxs 1) {})
      ⟨sh', [] ++ [.awaitInstance 1] ++ [], s.1.log ++ []⟩ := .run (.intro ht hnext)
  refine ⟨moves, s, (_, _), hrun, ⟨⟨hstep, rfl⟩, ?_⟩, hwaiters, hgone, rfl, ?_⟩
  · intro waiters _ waiter _ hclosed
    simp at hclosed
  · intro hopen
    obtain ⟨other, hother, hno⟩ := hopen hjoins
    rw [hwaiters] at hother
    rw [hgone] at hno
    exact hno hother

end Sidecar.Coordinator
