import Sidecar.Coordinator.Handler
import Sidecar.Coordinator.Stability

namespace Sidecar.Coordinator

open Handler

/-- The error that callers who wait for their instance are sent. -/
def rollbackError : Except String InstanceId := .error "publisher submission aborted by rollback"

/-- A rollback has done its work: nothing pending is undecided or committed, the builder was
asked to drop every local instance, the nonce lane starts anew and nobody waits any more. -/
structure RolledBack (cfg : Config) (before after : Shared) (events : List Event) : Prop where
  aborted : ∀ id xt, after.st.pending.lookup id = some xt → xt.decision = some false
  asked : cfg.xtBuilderClient = true → ∀ id xt, before.st.pending.lookup id = some xt →
    xt.runsOn cfg.chainId = true → .abortXt xt.id ∈ events
  nonces : after.nonces = {}
  answered : ∀ fingerprint waiters, before.st.pendingSubmissions.lookup fingerprint = some waiters →
    ∀ waiter ∈ waiters, .answered waiter rollbackError ∈ events

/-- The instances a rollback asks the builder to drop, in this order. -/
def rollbackIds (cfg : Config) (sh : Shared) : List InstanceId := abortIds cfg (fun _ => true) sh.st

/-- When the `k`-th call fails there was nothing to do after it: no other instance to ask for,
a nonce lane that is as new already, and no caller that waits. -/
structure NothingLeft (cfg : Config) (sh : Shared) (k : Nat) : Prop where
  asked : ∀ id ∈ rollbackIds cfg sh, id ∈ (rollbackIds cfg sh).take (k + 1)
  nonces : ((rollbackIds cfg sh).take k).foldl Nonce.releaseAborted sh.nonces = {}
  answered : ∀ fingerprint waiters,
    sh.st.pendingSubmissions.lookup fingerprint = some waiters → waiters = []

/-- No call to the builder fails, or the first that does is the last thing to do. -/
def Unhindered (cfg : Config) (aborts : Nat → Except CoordinatorError Unit) (sh : Shared) : Prop :=
  cfg.xtBuilderClient = true → ∀ k < (rollbackIds cfg sh).length, FirstFailure aborts k →
    NothingLeft cfg sh k

section Lemmas

variable {cfg : Config} {aborts : Nat → Except CoordinatorError Unit} {sh : Shared}

theorem mem_rollbackIds (id : InstanceId) :
    id ∈ rollbackIds cfg sh ↔ ∃ key xt, sh.st.pending.lookup key = some xt ∧
      xt.runsOn cfg.chainId = true ∧ xt.id = id := by
  simp only [rollbackIds, mem_abortIds_lookup, true_and]

theorem decision_rollBack (cfg : Config) (now : Instant) (id : InstanceId) (xt : PendingXt)
    (h : (rollBack cfg sh.st now).1.pending.lookup id = some xt) : xt.decision = some false := by
  simp only [rollBack, Map.lookup_mapVals, Option.map_eq_some_iff] at h
  obtain ⟨old, -, rfl⟩ := h
  exact forceAbort_decision old now

/-- A loop that asked for every instance leads to a completed rollback. -/
theorem rolledBack_of_asked (now : Instant) {asked : List Event}
    (hasked : asked = if cfg.xtBuilderClient then (rollbackIds cfg sh).map .abortXt else []) :
    RolledBack cfg sh { sh with st := (rollBack cfg sh.st now).1, nonces := {} }
      (asked ++ answers (rollBack cfg sh.st now).2.waiters.flatten rollbackError) := by
  constructor
  · exact decision_rollBack cfg now
  · intro hclient id xt hl hruns
    refine List.mem_append_left _ ?_
    rw [hasked, if_pos hclient]
    exact List.mem_map_of_mem ((mem_rollbackIds _).mpr ⟨id, xt, hl, hruns, rfl⟩)
  · rfl
  · intro fingerprint group hl waiter hwaiter
    refine List.mem_append_right _
      (mem_answers_iff.mpr ⟨List.mem_flatten.mpr ⟨_, ?_, hwaiter⟩, rfl⟩)
    exact (Map.mem_values _ _).mpr ⟨fingerprint, hl⟩

/-- What is missing when the `k`-th call fails. -/
theorem rolledBack_stopped_iff (hclient : cfg.xtBuilderClient = true) (now : Instant) (k : Nat)
    (nonces : Nonce.Inner)
    (hnonces : nonces = ((rollbackIds cfg sh).take k).foldl Nonce.releaseAborted sh.nonces) :
    RolledBack cfg sh { sh with st := (rollBack cfg sh.st now).1, nonces := nonces }
        (((rollbackIds cfg sh).take (k + 1)).map .abortXt) ↔
      NothingLeft cfg sh k := by
  constructor
  · intro h
    refine ⟨?_, hnonces.symm.trans h.nonces, ?_⟩
    · intro id hid
      obtain ⟨key, xt, hl, hruns, rfl⟩ := (mem_rollbackIds id).mp hid
      obtain ⟨asked, hasked, he⟩ := List.mem_map.mp (h.asked hclient key xt hl hruns)
      rwa [← Event.abortXt.inj he]
    · intro fingerprint waiters hl
      refine List.eq_nil_iff_forall_not_mem.mpr ?_
      intro waiter hwaiter
      obtain ⟨asked, -, he⟩ := List.mem_map.mp (h.answered fingerprint waiters hl waiter hwaiter)
      exact Event.noConfusion he
  · intro h
    refine ⟨decision_rollBack cfg now, ?_, hnonces.trans h.nonces, ?_⟩
    · intro _ id xt hl hruns
      exact List.mem_map_of_mem (h.asked _ ((mem_rollbackIds _).mpr ⟨id, xt, hl, hruns, rfl⟩))
    · intro fingerprint waiters hl waiter hwaiter
      rw [h.answered fingerprint waiters hl] at hwaiter
      simp at hwaiter

/-- A rollback completes, or it stops at the first call that fails. -/
theorem completes_handleRollback (cfg : Config) (aborts : Nat → Except CoordinatorError Unit)
    (now : Instant) (sh : Shared) :
    Completes (Handler.handleRollback cfg aborts now) (sh, [])
      (fun _ s => RolledBack cfg sh s.1 s.2 ∧
        (cfg.xtBuilderClient = true → ∀ j < (rollbackIds cfg sh).length, (aborts j).isOk = true))
      (fun _ s => ∃ k < (rollbackIds cfg sh).length, FirstFailure aborts k ∧
        cfg.xtBuilderClient = true ∧ (RolledBack cfg sh s.1 s.2 ↔ NothingLeft cfg sh k)) := by
  simp only [Handler.handleRollback, Completes.bind_iff, completes_withState, completes_withNonces,
    completes_emit]
  refine (completes_abortEach (rollbackIds cfg sh) 0 _ []).mono ?_ ?_
  · rintro _ s ⟨rfl, hok⟩
    refine ⟨rolledBack_of_asked now (by simp), ?_⟩
    simpa using hok
  · rintro _ s ⟨hclient, k, hk, rfl, hfails, hbefore⟩
    refine ⟨k, hk, ⟨by simpa using hfails, by simpa using hbefore⟩, hclient, ?_⟩
    exact rolledBack_stopped_iff hclient now k _ rfl

end Lemmas

/-- Whatever the builder answers, a rollback leaves its work done exactly when no call fails, or
when the first that fails is the last thing there was to do. -/
theorem rollback_completes_iff (cfg : Config) (aborts : Nat → Except CoordinatorError Unit)
    (now : Instant) (sh : Shared) :
    Completes (Handler.handleRollback cfg aborts now) (sh, [])
        (fun _ s => RolledBack cfg sh s.1 s.2) (fun _ s => RolledBack cfg sh s.1 s.2) ↔
      Unhindered cfg aborts sh :=
  completes_iff_firstFailure (completes_handleRollback cfg aborts now sh)

def droppingConfig : Config := { Config.bare 1 with xtBuilderClient := true }

/-- Two local instances are pending, one of them owns a nonce, and a caller waits for a third. -/
def heldUp : Shared :=
  let first := (forwardXt droppingConfig {} "xt-2-1" twoChainTxs 2 1).1
  let both := (forwardXt droppingConfig first "xt-2-2" twoChainTxs 2 2).1
  { st := (enqueueSubmission both "third" 0).1
    nonces := (Nonce.reserve {} "xt-2-1" 1 (.ok 5)).2 }

/-- The builder fails the first call: the other instance is never dropped, the nonce lane keeps
its floor and its reservation, and the caller gets no answer. -/
theorem failed_abort_stops_rollback :
    Completes (Handler.handleRollback droppingConfig
        (fun _ => .error (.builderControl "unreachable")) 0) (heldUp, [])
      (fun _ _ => False)
      (fun _ s => s.2 = [.abortXt "xt-2-2"] ∧ s.1.nonces.canonicalFloor = 5 ∧
        s.1.nonces.live.lookup "xt-2-1" = some ⟨5, 6⟩ ∧ ¬ RolledBack droppingConfig heldUp s.1 s.2) := by
  have hrun : Completes (Handler.handleRollback droppingConfig
        (fun _ => .error (.builderControl "unreachable")) 0) (heldUp, [])
      (fun _ _ => False)
      (fun _ s => s.2 = [.abortXt "xt-2-2"] ∧ s.1.nonces.canonicalFloor = 5 ∧
        s.1.nonces.live.lookup "xt-2-1" = some ⟨5, 6⟩) :=
    ⟨rfl, rfl, rfl⟩
  refine hrun.mono (fun _ _ hf => hf) ?_
  rintro _ s ⟨hevents, hfloor, hlive⟩
  refine ⟨hevents, hfloor, hlive, ?_⟩
  intro hdone
  rw [hdone.nonces] at hfloor
  simp at hfloor

end Sidecar.Coordinator
