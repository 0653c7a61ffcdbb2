import Mathlib.Data.Finset.Insert

namespace Sidecar

variable {α κ : Type} [DecidableEq κ]

/-- The elements whose key is neither in `seen` nor that of an earlier element. -/
def firsts (key : α → κ) : Finset κ → List α → List α
  | _, [] => []
  | seen, a :: as =>
    if key a ∈ seen then firsts key seen as else a :: firsts key (insert (key a) seen) as

/-- The keys seen after a list was worked through. -/
def keysSeen (key : α → κ) (seen : Finset κ) (as : List α) : Finset κ :=
  as.foldl (fun seen a => insert (key a) seen) seen

variable (key : α → κ)

theorem firsts_append (as bs : List α) (seen : Finset κ) :
    firsts key seen (as ++ bs) = firsts key seen as ++ firsts key (keysSeen key seen as) bs := by
  induction as generalizing seen with
  | nil => rfl
  | cons a as ih =>
    have hseen : keysSeen key seen (a :: as) = keysSeen key (insert (key a) seen) as := rfl
    rw [List.cons_append, firsts, firsts, hseen]
    split_ifs with ha
    · rw [ih, Finset.insert_eq_of_mem ha]
    · rw [ih, List.cons_append]

theorem keysSeen_append (as bs : List α) (seen : Finset κ) :
    keysSeen key seen (as ++ bs) = keysSeen key (keysSeen key seen as) bs := by
  unfold keysSeen
  rw [List.foldl_append]

/-- What is kept under a key is the first element with that key. -/
theorem mem_firsts_iff (seen : Finset κ) (as : List α) (a : α) :
    a ∈ firsts key seen as ↔
      key a ∉ seen ∧ as.find? (fun b => decide (key b = key a)) = some a := by
  induction as generalizing seen with
  | nil => simp [firsts]
  | cons b as ih =>
    by_cases hab : key b = key a
    · rw [List.find?_cons_of_pos (by simpa using hab)]
      rw [firsts]
      split_ifs with hb
      · rw [ih]
        have hin : key a ∈ seen := hab ▸ hb
        simp [hin]
      · rw [List.mem_cons, ih]
        have hout : key a ∉ seen := hab ▸ hb
        simp only [← hab, Finset.mem_insert_self, not_true_eq_false, false_and, or_false]
        rw [hab, Option.some.injEq]
        constructor
        · intro h
          exact ⟨hout, h.symm⟩
        · intro h
          exact h.2.symm
    · rw [List.find?_cons_of_neg (by simpa using hab)]
      have hne : a ≠ b := by
        intro he
        exact hab (he ▸ rfl)
      rw [firsts]
      split_ifs with hb
      · exact ih seen
      · rw [List.mem_cons, ih]
        have hkey : key a ∉ insert (key b) seen ↔ key a ∉ seen := by
          rw [Finset.mem_insert, not_or]
          exact ⟨fun h => h.2, fun h => ⟨fun he => hab he.symm, h⟩⟩
        rw [hkey]
        constructor
        · intro h
          exact h.resolve_left hne
        · intro h
          exact Or.inr h

omit [DecidableEq κ] in
/-- Where at most one element passes a test, the search finds it in every order of the list. -/
theorem find?_eq_of_perm {l l' : List α} {p : α → Bool} (h : l.Perm l')
    (honce : ∀ a ∈ l, ∀ b ∈ l, p a = true → p b = true → a = b) : l.find? p = l'.find? p := by
  cases hfound : l.find? p with
  | none =>
    symm
    rw [List.find?_eq_none] at hfound ⊢
    exact fun a ha => hfound a (h.mem_iff.mpr ha)
  | some a =>
    have ha := List.mem_of_find?_eq_some hfound
    have hpa := List.find?_some hfound
    cases hfound' : l'.find? p with
    | none => exact absurd hpa (List.find?_eq_none.mp hfound' a (h.mem_iff.mp ha))
    | some b =>
      have hb := h.mem_iff.mpr (List.mem_of_find?_eq_some hfound')
      exact congrArg some (honce a ha b hb hpa (List.find?_some hfound'))

end Sidecar
