import Mathlib.Data.List.Basic

namespace Sidecar

/-- A partial assignment to cells: what it sets a cell to, if it sets it. -/
abbrev Patch {κ : Type} (ν : κ → Type) := (c : κ) → Option (ν c)

namespace Patch

variable {κ : Type} {ν : κ → Type}

/-- First `p`, then `q`; what `q` sets wins. -/
def andThen (p q : Patch ν) : Patch ν := fun c => (q c).or (p c)

/-- The assignment after the patch; cells that it does not set stay. -/
def apply (p : Patch ν) (s : (c : κ) → ν c) : (c : κ) → ν c := fun c => (p c).getD (s c)

/-- Sets nothing. -/
def empty : Patch ν := fun _ => none

/-- All patches of a list, the first one first. -/
def sequence (ps : List (Patch ν)) : Patch ν := ps.foldl andThen empty

theorem apply_andThen (p q : Patch ν) (s : (c : κ) → ν c) :
    (p.andThen q).apply s = q.apply (p.apply s) := by
  funext c
  unfold apply andThen
  cases q c with
  | none => rw [Option.none_or, Option.getD_none]
  | some v => rfl

theorem andThen_assoc (p q r : Patch ν) : (p.andThen q).andThen r = p.andThen (q.andThen r) := by
  funext c
  exact (Option.or_assoc).symm

@[simp] theorem empty_andThen (p : Patch ν) : empty.andThen p = p := by
  funext c
  exact Option.or_none

@[simp] theorem andThen_empty (p : Patch ν) : p.andThen empty = p := by
  funext c
  exact Option.none_or

theorem foldl_andThen (ps : List (Patch ν)) (p : Patch ν) :
    ps.foldl andThen p = p.andThen (sequence ps) := by
  induction ps generalizing p with
  | nil => exact (andThen_empty p).symm
  | cons q ps ih =>
    have hq : sequence (q :: ps) = q.andThen (sequence ps) := by
      unfold sequence
      rw [List.foldl_cons, empty_andThen, ih q]
      rfl
    rw [List.foldl_cons, ih, hq, andThen_assoc]

theorem apply_foldl (ps : List (Patch ν)) (p : Patch ν) (s : (c : κ) → ν c) :
    (ps.foldl andThen p).apply s = ps.foldl (fun s q => q.apply s) (p.apply s) := by
  induction ps generalizing p with
  | nil => rfl
  | cons q ps ih => rw [List.foldl_cons, ih, apply_andThen, List.foldl_cons]

/-- What `q` sets, `p` sets too: to the same value or to that of a later patch. -/
def Shows (p q : Patch ν) (later : List (Patch ν)) : Prop :=
  ∀ c v, q c = some v → ∃ r ∈ q :: later, ∃ w, r c = some w ∧ p c = some w

theorem shows_andThen (p q : Patch ν) : (p.andThen q).Shows q [] := by
  intro c v hv
  refine ⟨q, by simp, v, hv, ?_⟩
  unfold andThen
  rw [hv, Option.some_or]

/-- A later patch hides nothing without showing its own value. -/
theorem Shows.andThen {p q : Patch ν} {later : List (Patch ν)} (h : p.Shows q later)
    (r : Patch ν) : (p.andThen r).Shows q (later ++ [r]) := by
  intro c v hv
  cases hr : r c with
  | some w =>
    refine ⟨r, by simp, w, hr, ?_⟩
    unfold Patch.andThen
    rw [hr, Option.some_or]
  | none =>
    obtain ⟨u, hu, w, hw, hp⟩ := h c v hv
    have hmem : u ∈ q :: (later ++ [r]) := by
      rw [← List.cons_append]
      exact List.mem_append_left [r] hu
    refine ⟨u, hmem, w, hw, ?_⟩
    unfold Patch.andThen
    rw [hr, Option.none_or, hp]

theorem Shows.foldl {p q : Patch ν} {later : List (Patch ν)} (h : p.Shows q later)
    (rs : List (Patch ν)) : (rs.foldl Patch.andThen p).Shows q (later ++ rs) := by
  induction rs generalizing p later with
  | nil => simpa using h
  | cons r rs ih =>
    have hnext := ih (h.andThen r)
    rwa [List.append_assoc, List.singleton_append] at hnext

section Support

/-- The two assignments differ at most where the patch sets something. -/
def AgreeOff (p : Patch ν) (s s' : (c : κ) → ν c) : Prop := ∀ c, p c = none → s c = s' c

/-- Wherever the first patch sets something, the second one does too. -/
def Covers (p q : Patch ν) : Prop := ∀ c, q c = none → p c = none

variable {p q : Patch ν} {s s' : (c : κ) → ν c}

theorem AgreeOff.mono (h : p.AgreeOff s s') (hcovers : p.Covers q) : q.AgreeOff s s' :=
  fun c hc => h c (hcovers c hc)

/-- What the patch hides does not matter below it. -/
theorem AgreeOff.apply_eq (h : p.AgreeOff s s') : p.apply s = p.apply s' := by
  funext c
  unfold apply
  cases hc : p c with
  | none => exact h c hc
  | some v => rfl

theorem apply_agreeOff (p : Patch ν) (s : (c : κ) → ν c) : p.AgreeOff (p.apply s) s := by
  intro c hc
  simp [apply, hc]

theorem AgreeOff.patch (h : p.AgreeOff s s') (d : Patch ν) : p.AgreeOff (d.apply s) (d.apply s') := by
  intro c hc
  unfold apply
  rw [h c hc]

/-- A chain of patches follows a chain of steps taken under other patches. `d` leads from the state
under `q` to what the step makes of it; merged into the state without `q`, it leads there up to what
`q` hides. -/
theorem AgreeOff.step (h : p.AgreeOff s s') (hcovers : p.Covers q) {d : Patch ν}
    {step : ((c : κ) → ν c) → (c : κ) → ν c} (hd : d.apply (q.apply s) = step (q.apply s)) :
    q.AgreeOff (d.apply s) (step (q.apply s')) := by
  have hunder : q.apply s = q.apply s' := (h.mono hcovers).apply_eq
  rw [← hunder, ← hd]
  intro c hc
  exact ((apply_agreeOff q s).patch d c hc).symm

end Support

end Patch

end Sidecar
