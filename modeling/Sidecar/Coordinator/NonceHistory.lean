import Sidecar.Coordinator.NonceManager
import Sidecar.Framework.Run

namespace Sidecar.Nonce

/-- The calls other components make; each runs alone under the manager's lock. -/
inductive Call where
  | reserve (id : InstanceId) (count : Nat) (fetched : Except CoordinatorError Nat)
  | releaseConfirmed (id : InstanceId)
  | releaseAborted (id : InstanceId)
  | reset

def Call.apply (inner : Inner) : Call → Inner
  | .reserve id count fetched => (Nonce.reserve inner id count fetched).2
  | .releaseConfirmed id => Nonce.releaseConfirmed inner id
  | .releaseAborted id => Nonce.releaseAborted inner id
  | .reset => Nonce.reset inner

/-- The nonces a call hands to its caller. -/
def Call.returned (inner : Inner) : Call → Option ReservedRange
  | .reserve id count fetched =>
    match (Nonce.reserve inner id count fetched).1 with
    | .ok start => some ⟨start, start + count⟩
    | .error _ => none
  | _ => none

def exec (inner : Inner) (calls : List Call) : Inner := calls.foldl Call.apply inner

/-- What callers promise: a positive count, no live reservation of the same instance,
and a run that ends below the largest `u64`. -/
def Lawful (inner : Inner) : Call → Prop
  | .reserve id count (.ok canonical) =>
    1 ≤ count ∧ inner.live.lookup id = none ∧
      pickStart (mergeCanonical inner canonical) count + count < 2 ^ 64
  | _ => True

def Step (s : Inner) (c : Call) (t : Inner) : Prop := Lawful s c ∧ t = c.apply s

/-- A nonce handed out twice was given back by its first owner, while the owner still
held it, between the two calls. -/
def ReissuedOnlyAfterAbort (calls : List Call) : Prop :=
  ∀ (pre mid post : List Call) (id : InstanceId) (count : Nat)
    (fetched : Except CoordinatorError Nat) (c : Call) (first second : ReservedRange) (n : Nat),
    calls = pre ++ .reserve id count fetched :: mid ++ c :: post → .reset ∉ mid →
    (Call.reserve id count fetched).returned (exec {} pre) = some first →
    c.returned (exec {} (pre ++ .reserve id count fetched :: mid)) = some second →
    first.start ≤ n → n < first.stop → second.start ≤ n → n < second.stop →
    ∃ m m', mid = m ++ .releaseAborted id :: m' ∧
      (exec {} (pre ++ .reserve id count fetched :: m)).live.lookup id = some first

/-- No run starts below the nonce just fetched or below what was confirmed before. -/
def StartsAboveConfirmed (calls : List Call) : Prop :=
  ∀ (pre post : List Call) (id : InstanceId) (count canonical : Nat) (range : ReservedRange),
    calls = pre ++ .reserve id count (.ok canonical) :: post →
    (Call.reserve id count (.ok canonical)).returned (exec {} pre) = some range →
    canonical ≤ range.start ∧
    ∀ (before mid : List Call) (id' : InstanceId) (confirmed : ReservedRange),
      pre = before ++ .releaseConfirmed id' :: mid → .reset ∉ mid →
      (exec {} before).live.lookup id' = some confirmed → confirmed.stop ≤ range.start

theorem run_exec {s t : Inner} {calls : List Call} (h : Run Step s calls t) :
    t = exec s calls := by
  induction h with
  | nil => rfl
  | cons hs _ ih => rw [ih, hs.2]; rfl

theorem lane_reserve (inner : Inner) (id : InstanceId) (count : Nat)
    (fetched : Except CoordinatorError Nat) (h : Lane inner)
    (hl : Lawful inner (.reserve id count fetched)) :
    Lane (reserve inner id count fetched).2 := by
  cases fetched with
  | error err => exact h
  | ok canonical =>
    have hm := lane_mergeCanonical inner canonical h
    exact lane_claim _ id _ count hm hl.2.2 (fun id' range => pickStart_clear _ count hm id' range)

theorem lane_step (s : Inner) (c : Call) (t : Inner) (h : Lane s) (hs : Step s c t) :
    Lane t := by
  obtain ⟨hl, rfl⟩ := hs
  cases c with
  | reserve id count fetched => exact lane_reserve s id count fetched h hl
  | releaseConfirmed id => exact lane_releaseConfirmed s id h
  | releaseAborted id => exact lane_releaseAborted s id h
  | reset => exact lane_default

/-- A reservation is still owned, or the floor has passed it. -/
def Held (inner : Inner) (id : InstanceId) (range : ReservedRange) : Prop :=
  inner.live.lookup id = some range ∨ range.stop ≤ inner.canonicalFloor

theorem held_reserve (inner : Inner) (id id' : InstanceId) (range : ReservedRange) (count : Nat)
    (fetched : Except CoordinatorError Nat) (hl : Lawful inner (.reserve id' count fetched))
    (h : Held inner id range) : Held (reserve inner id' count fetched).2 id range := by
  cases fetched with
  | error err => exact h
  | ok canonical =>
    have hfloor : (reserve inner id' count (.ok canonical)).2.canonicalFloor =
        max inner.canonicalFloor canonical := rfl
    unfold Held
    rw [hfloor]
    rcases h with h | h
    · by_cases hp : max inner.canonicalFloor canonical < range.stop
      · left
        have hne : id ≠ id' := by
          intro he
          rw [he, hl.2.1] at h
          simp at h
        change (claim (mergeCanonical inner canonical) id' _ count).live.lookup id = some range
        rw [lookup_claim, if_neg hne]
        exact (lookup_mergeCanonical ..).mpr ⟨h, hp⟩
      · right
        exact Nat.le_of_not_lt hp
    · right
      exact h.trans (le_max_left _ _)

theorem held_releaseConfirmed (inner : Inner) (id id' : InstanceId) (range : ReservedRange)
    (h : Held inner id range) : Held (releaseConfirmed inner id') id range := by
  unfold releaseConfirmed
  cases hl : inner.live.lookup id' with
  | none => exact h
  | some other =>
    rcases h with h | h
    · by_cases hi : id = id'
      · subst hi
        obtain rfl := Option.some.inj (hl.symm.trans h)
        exact Or.inr (le_max_right _ _)
      · left
        dsimp only
        rw [Map.lookup_erase_eq, if_neg hi]
        exact h
    · exact Or.inr (h.trans (le_max_left _ _))

theorem held_releaseAborted (inner : Inner) (id id' : InstanceId) (range : ReservedRange)
    (h : Held inner id range) (hn : ¬(id' = id ∧ inner.live.lookup id = some range)) :
    Held (releaseAborted inner id') id range := by
  rcases h with h | h
  · left
    have hne : id ≠ id' := fun hi => hn ⟨hi.symm, h⟩
    rw [lookup_releaseAborted, if_neg hne]
    exact h
  · right
    rw [floor_releaseAborted]
    exact h

/-- Along a run without resets a reservation stays held until its owner aborts it. -/
theorem held_run {s t : Inner} {calls : List Call} (hr : Run Step s calls t)
    (hreset : .reset ∉ calls) (id : InstanceId) (range : ReservedRange) (h : Held s id range) :
    Held t id range ∨ ∃ m m', calls = m ++ .releaseAborted id :: m' ∧
      (exec s m).live.lookup id = some range := by
  induction hr with
  | nil => exact Or.inl h
  | @cons s u t c cs hs _ ih =>
    obtain ⟨hl, rfl⟩ := hs
    by_cases ha : c = .releaseAborted id ∧ s.live.lookup id = some range
    · exact Or.inr ⟨[], cs, by simp [ha.1], ha.2⟩
    · have hc : Held (c.apply s) id range := by
        cases c with
        | reserve id' count fetched => exact held_reserve s id id' range count fetched hl h
        | releaseConfirmed id' => exact held_releaseConfirmed s id id' range h
        | releaseAborted id' =>
          apply held_releaseAborted s id id' range h
          intro hown
          obtain ⟨rfl, hlive⟩ := hown
          exact ha ⟨rfl, hlive⟩
        | reset => simp at hreset
      rcases ih (fun hm => hreset (List.mem_cons_of_mem _ hm)) hc with hk | ⟨m, m', rfl, hm⟩
      · exact Or.inl hk
      · exact Or.inr ⟨c :: m, m', rfl, hm⟩

theorem returned_reserve {inner : Inner} {id : InstanceId} {count : Nat}
    {fetched : Except CoordinatorError Nat} {range : ReservedRange}
    (h : (Call.reserve id count fetched).returned inner = some range) :
    ∃ canonical, fetched = .ok canonical ∧
      range = ⟨pickStart (mergeCanonical inner canonical) count,
        pickStart (mergeCanonical inner canonical) count + count⟩ := by
  cases fetched with
  | error err => simp [Call.returned, reserve] at h
  | ok canonical =>
    refine ⟨canonical, rfl, ?_⟩
    simpa [Call.returned, reserve] using h.symm

/-- A run handed out now meets no reservation that is still held. -/
theorem returned_disjoint_held {inner : Inner} {c : Call} {id : InstanceId}
    {range held : ReservedRange} (hlane : Lane inner) (hr : c.returned inner = some range)
    (h : Held inner id held) (n : Nat) (hs : range.start ≤ n) (ht : n < range.stop) :
    ¬(held.start ≤ n ∧ n < held.stop) := by
  cases c with
  | reserve id' count fetched =>
    obtain ⟨canonical, rfl, rfl⟩ := returned_reserve hr
    have hm := lane_mergeCanonical inner canonical hlane
    have hfloor := floor_le_pickStart (mergeCanonical inner canonical) count
      (fun n hn => ((mem_recycled_mergeCanonical inner canonical n).mp hn).2)
    change max inner.canonicalFloor canonical ≤ _ at hfloor
    dsimp only at hs ht
    rcases h with h | h
    · by_cases hp : max inner.canonicalFloor canonical < held.stop
      · have hc := pickStart_clear _ count hm id held ((lookup_mergeCanonical ..).mpr ⟨h, hp⟩)
        omega
      · omega
    · omega
  | releaseConfirmed _ => simp [Call.returned] at hr
  | releaseAborted _ => simp [Call.returned] at hr
  | reset => simp [Call.returned] at hr

/-- After a reservation was granted its owner holds it. -/
theorem held_after_reserve {s t : Inner} {id : InstanceId} {count : Nat}
    {fetched : Except CoordinatorError Nat} {range : ReservedRange}
    (hs : Step s (.reserve id count fetched) t)
    (hr : (Call.reserve id count fetched).returned s = some range) : Held t id range := by
  obtain ⟨hl, rfl⟩ := hs
  obtain ⟨canonical, rfl, rfl⟩ := returned_reserve hr
  left
  change (claim (mergeCanonical s canonical) id _ count).live.lookup id = _
  rw [lookup_claim, if_pos rfl, saturatingAdd_of_lt hl.2.2]

theorem floor_mono_step {s t : Inner} {c : Call} (hs : Step s c t) (hc : c ≠ .reset) :
    s.canonicalFloor ≤ t.canonicalFloor := by
  obtain ⟨-, rfl⟩ := hs
  cases c with
  | reserve id count fetched =>
    cases fetched with
    | error err => exact le_refl _
    | ok canonical => exact le_max_left _ _
  | releaseConfirmed id =>
    simp only [Call.apply, releaseConfirmed]
    split
    · exact le_refl _
    · exact le_max_left _ _
  | releaseAborted id => exact (floor_releaseAborted s id).ge
  | reset => exact absurd rfl hc

theorem floor_mono_run {s t : Inner} {calls : List Call} (hr : Run Step s calls t)
    (hreset : .reset ∉ calls) : s.canonicalFloor ≤ t.canonicalFloor := by
  refine Run.invariant_of_labels (I := fun u => s.canonicalFloor ≤ u.canonicalFloor)
    (P := fun c => c ≠ .reset) ?_ hr ?_ (le_refl _)
  · intro u c v hc hu hstep
    exact hu.trans (floor_mono_step hstep hc)
  · intro c hm he
    rw [he] at hm
    exact hreset hm

theorem reissuedOnlyAfterAbort_of_run {calls : List Call} {final : Inner}
    (hrun : Run Step {} calls final) : ReissuedOnlyAfterAbort calls := by
  intro pre mid post id count fetched c first second n hcalls hreset hfirst hsecond h1 h2 h3 h4
  subst hcalls
  obtain ⟨u, hu, -⟩ := hrun.of_append
  obtain ⟨s, hpre, hmid⟩ := hu.of_append
  have hs := run_exec hpre
  cases hmid with
  | @cons _ v _ _ _ hstep hmid =>
    have hlane : Lane u := hu.invariant lane_step lane_default
    rw [← hs] at hfirst
    rw [← run_exec hu] at hsecond
    rcases held_run hmid hreset id first (held_after_reserve hstep hfirst) with
      hheld | ⟨m, m', hm, hlive⟩
    · exact absurd ⟨h1, h2⟩ (returned_disjoint_held hlane hsecond hheld n h3 h4)
    · refine ⟨m, m', hm, ?_⟩
      have hv : exec {} (pre ++ .reserve id count fetched :: m) = exec v m := by
        rw [hstep.2, hs]
        simp [exec]
      rw [hv]
      exact hlive

theorem startsAboveConfirmed_of_run {calls : List Call} {final : Inner}
    (hrun : Run Step {} calls final) : StartsAboveConfirmed calls := by
  intro pre post id count canonical range hcalls hret
  subst hcalls
  obtain ⟨s, hpre, -⟩ := hrun.of_append
  rw [← run_exec hpre] at hret
  obtain ⟨canonical', hok, rfl⟩ := returned_reserve hret
  obtain rfl := Except.ok.inj hok
  have hfloor := floor_le_pickStart (mergeCanonical s canonical) count
    (fun n hn => ((mem_recycled_mergeCanonical s canonical n).mp hn).2)
  change max s.canonicalFloor canonical ≤ _ at hfloor
  refine ⟨(le_max_right _ _).trans hfloor, ?_⟩
  intro before mid id' confirmed hsplit hreset hlive
  subst hsplit
  obtain ⟨u, hbefore, hmid⟩ := hpre.of_append
  rw [← run_exec hbefore] at hlive
  cases hmid with
  | @cons _ v _ _ _ hstep hmid =>
    have hv : confirmed.stop ≤ v.canonicalFloor := by
      rw [hstep.2]
      simp only [Call.apply, releaseConfirmed, hlive]
      exact le_max_right _ _
    calc
      confirmed.stop ≤ v.canonicalFloor := hv
      _ ≤ s.canonicalFloor := floor_mono_run hmid hreset
      _ ≤ _ := (le_max_left _ _).trans hfloor

/-- Nonce uniqueness over histories: between two resets a nonce is issued twice only after
its first owner aborted, and no run starts below the canonical or a confirmed nonce. -/
theorem nonce_history_unique {calls : List Call} {final : Inner}
    (hrun : Run Step {} calls final) :
    ReissuedOnlyAfterAbort calls ∧ StartsAboveConfirmed calls :=
  ⟨reissuedOnlyAfterAbort_of_run hrun, startsAboveConfirmed_of_run hrun⟩

/-- Nonce 5 goes to `a`, comes back when `a` aborts, and is issued again to `c`. -/
def recycledHistory : List Call :=
  [.reserve "a" 1 (.ok 5), .reserve "b" 1 (.ok 5), .releaseAborted "a", .reserve "c" 1 (.ok 5)]

theorem nonce_history_unique_recycled :
    (Call.reserve "a" 1 (.ok 5)).returned {} = some ⟨5, 6⟩ ∧
    (Call.reserve "c" 1 (.ok 5)).returned (exec {} (recycledHistory.take 3)) = some ⟨5, 6⟩ ∧
    ReissuedOnlyAfterAbort recycledHistory ∧ StartsAboveConfirmed recycledHistory := by
  have hrun : Run Step {} recycledHistory (exec {} recycledHistory) :=
    .cons ⟨⟨by decide, by decide, by decide⟩, rfl⟩ <|
    .cons ⟨⟨by decide, by decide, by decide⟩, rfl⟩ <|
    .cons ⟨trivial, rfl⟩ <|
    .cons ⟨⟨by decide, by decide, by decide⟩, rfl⟩ (.nil _)
  exact ⟨by decide, by decide, nonce_history_unique hrun⟩

end Sidecar.Nonce
