import Mathlib.Data.List.Basic

/-! Loops in which later elements override earlier ones, and loops that stop at an error. -/

namespace Sidecar

section Last

variable {α β σ : Type}

/-- What the last element that claims something claims. -/
def lastSome (claim : α → Option β) (l : List α) : Option β := l.reverse.findSome? claim

theorem lastSome_cons (claim : α → Option β) (a : α) (l : List α) :
    lastSome claim (a :: l) = (lastSome claim l).or (claim a) := by
  simp [lastSome, List.findSome?_append]

theorem lastSome_append_singleton (claim : α → Option β) (l : List α) (a : α) :
    lastSome claim (l ++ [a]) = (claim a).or (lastSome claim l) := by
  simp only [lastSome, List.reverse_append, List.reverse_singleton, List.singleton_append,
    List.findSome?_cons]
  cases claim a <;> rfl

theorem lastSome_eq_none {claim : α → Option β} {l : List α} :
    lastSome claim l = none ↔ ∀ a ∈ l, claim a = none := by
  simp [lastSome]

theorem exists_of_lastSome {claim : α → Option β} {l : List α} {b : β}
    (h : lastSome claim l = some b) : ∃ a ∈ l, claim a = some b := by
  obtain ⟨a, ha, hb⟩ := List.exists_of_findSome?_eq_some h
  exact ⟨a, List.mem_reverse.mp ha, hb⟩

theorem lastSome_map {γ : Type} (claim : α → Option β) (f : β → γ) (l : List α) :
    lastSome (fun a => (claim a).map f) l = (lastSome claim l).map f := by
  induction l with
  | nil => rfl
  | cons a l ih => rw [lastSome_cons, lastSome_cons, ih, Option.map_or]

/-- A loop that writes what an element claims shows the last claim. -/
theorem view_foldl {f : σ → α → σ} {view : σ → Option β} {claim : α → Option β}
    (h : ∀ s a, view (f s a) = (claim a).or (view s)) (l : List α) (s : σ) :
    view (l.foldl f s) = (lastSome claim l).or (view s) := by
  induction l generalizing s with
  | nil => rfl
  | cons a l ih => rw [List.foldl_cons, ih, h, lastSome_cons, Option.or_assoc]

end Last

section Stopping

variable {α β : Type}

/-- A loop that ends at the first element of one kind, and gets nothing from that kind, misses
nothing just when nothing comes after it. -/
theorem filterMap_takeWhile_iff {stops : α → Bool} {f : α → Option β}
    (hnone : ∀ a, stops a = true → f a = none) (l : List α) :
    (l.takeWhile (fun a => !stops a)).filterMap f = l.filterMap f ↔
      ∀ before a after, l = before ++ a :: after → stops a = true → after.filterMap f = [] := by
  induction l with
  | nil => simp
  | cons b l ih =>
    cases hb : stops b with
    | true =>
      simp only [List.takeWhile_cons, hb, Bool.not_true, Bool.false_eq_true, if_false,
        List.filterMap_nil, List.filterMap_cons, hnone b hb]
      constructor
      · intro h before a after hl _
        have hsuffix : after <:+ l := by
          cases before with
          | nil => exact (List.cons.inj hl).2 ▸ List.suffix_refl _
          | cons c before =>
            rw [(List.cons.inj hl).2]
            exact ⟨before ++ [a], by simp⟩
        have hsublist := hsuffix.sublist.filterMap f
        rw [← h] at hsublist
        exact List.sublist_nil.mp hsublist
      · intro h
        exact (h [] b l rfl hb).symm
    | false =>
      have hcons : ∀ rest : List α, rest.filterMap f = l.filterMap f ↔
          (b :: rest).filterMap f = (b :: l).filterMap f := by
        intro rest
        rw [List.filterMap_cons, List.filterMap_cons]
        cases f b with
        | none => rfl
        | some c => simp
      simp only [List.takeWhile_cons, hb, Bool.not_false, if_true]
      rw [← hcons, ih]
      constructor
      · intro h before a after hl ha
        cases before with
        | nil =>
          rw [← (List.cons.inj hl).1, hb] at ha
          simp at ha
        | cons c before => exact h before a after (List.cons.inj hl).2 ha
      · intro h before a after hl ha
        exact h (b :: before) a after (by rw [hl, List.cons_append]) ha

end Stopping

section Fallible

variable {α β ε : Type}

/-- A loop in which no round fails. -/
theorem foldlM_ok {f : β → α → Except ε β} {g : β → α → β} {l : List α}
    (h : ∀ a ∈ l, ∀ b, f b a = .ok (g b a)) (b : β) : l.foldlM f b = .ok (l.foldl g b) := by
  induction l generalizing b with
  | nil => rfl
  | cons a l ih =>
    rw [List.foldlM_cons, h a List.mem_cons_self, List.foldl_cons]
    exact ih (fun a' ha' => h a' (List.mem_cons_of_mem _ ha')) (g b a)

/-- A loop with a round that fails in every state. -/
theorem foldlM_error {f : β → α → Except ε β} {l : List α} {a : α} (ha : a ∈ l)
    (h : ∀ b, ∃ err, f b a = .error err) (b : β) : ∃ err, l.foldlM f b = .error err := by
  induction l generalizing b with
  | nil => simp at ha
  | cons a' l ih =>
    rw [List.foldlM_cons]
    cases hf : f b a' with
    | error err => exact ⟨err, rfl⟩
    | ok b' =>
      rcases List.mem_cons.mp ha with heq | hmem
      · obtain ⟨err, herr⟩ := h b
        rw [heq, hf] at herr
        simp at herr
      · exact ih hmem b'

end Fallible

end Sidecar
