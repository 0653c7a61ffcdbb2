import Mathlib.Data.List.Basic

namespace Sidecar

/-- One try of the task at an index, with what it used up. -/
structure Pass (μ : Type) where
  index : Nat
  spent : List μ

namespace Pass

variable {μ : Type}

/-- After these passes, the latest one first, the next task is due, or the same one again when its
last pass used something up. -/
def MayFollow (i : Nat) : List (Pass μ) → Prop
  | [] => i = 0
  | p :: _ => i = p.index + 1 ∨ i = p.index ∧ p.spent ≠ []

/-- Every pass was due when it began. -/
def Paced : List (Pass μ) → Prop
  | [] => True
  | p :: ps => MayFollow p.index ps ∧ Paced ps

/-- The latest pass is at the index. -/
def LatestAt (i : Nat) (ps : List (Pass μ)) : Prop := ∃ p rest, ps = p :: rest ∧ p.index = i

def total (ps : List (Pass μ)) : List μ := ps.flatMap Pass.spent

/-- The latest pass uses up more. -/
def spend (more : List μ) : List (Pass μ) → List (Pass μ)
  | [] => []
  | p :: ps => ⟨p.index, p.spent ++ more⟩ :: ps

@[simp] theorem spend_nil (ps : List (Pass μ)) : spend [] ps = ps := by
  cases ps with
  | nil => rfl
  | cons p ps => simp [spend]

variable {ps : List (Pass μ)} {i : Nat}

theorem map_index_spend (more : List μ) (ps : List (Pass μ)) :
    (spend more ps).map Pass.index = ps.map Pass.index := by
  cases ps with
  | nil => rfl
  | cons p ps => rfl

theorem index_lt_spend {n : Nat} (more : List μ) (h : ∀ p ∈ ps, p.index < n) :
    ∀ p ∈ spend more ps, p.index < n := by
  intro p hp
  have hmem : p.index ∈ (spend more ps).map Pass.index := List.mem_map_of_mem hp
  rw [map_index_spend] at hmem
  obtain ⟨q, hq, hsame⟩ := List.mem_map.mp hmem
  exact hsame ▸ h q hq

theorem paced_spend (more : List μ) (h : Paced ps) : Paced (spend more ps) := by
  cases ps with
  | nil => exact h
  | cons p ps => exact h

theorem LatestAt.next (h : LatestAt i ps) : MayFollow (i + 1) ps := by
  obtain ⟨p, rest, rfl, rfl⟩ := h
  exact Or.inl rfl

theorem LatestAt.spend (h : LatestAt i ps) (more : List μ) : LatestAt i (spend more ps) := by
  obtain ⟨p, rest, rfl, rfl⟩ := h
  exact ⟨_, rest, rfl, rfl⟩

/-- What a pass uses up pays for another one. -/
theorem LatestAt.again (h : LatestAt i ps) {more : List μ} (hmore : more ≠ []) :
    MayFollow i (Pass.spend more ps) := by
  obtain ⟨p, rest, rfl, rfl⟩ := h
  exact Or.inr ⟨rfl, by simp [hmore]⟩

theorem LatestAt.total_spend (h : LatestAt i ps) (more : List μ) :
    (total (Pass.spend more ps)).length = (total ps).length + more.length := by
  obtain ⟨p, rest, rfl, -⟩ := h
  simp only [Pass.spend, total, List.flatMap_cons, List.length_append]
  omega

/-- Up to the latest task there is one pass for each, and one for everything used up before. -/
theorem Paced.length_le_latest {p : Pass μ} (h : Paced (p :: ps)) :
    (p :: ps).length ≤ p.index + 1 + (total ps).length := by
  induction ps generalizing p with
  | nil =>
    rw [List.length_singleton]
    omega
  | cons q qs ih =>
    have hlatest := ih h.2
    have htotal : (total (q :: qs)).length = q.spent.length + (total qs).length := by
      rw [total, List.flatMap_cons, List.length_append]
      rfl
    rw [List.length_cons, htotal]
    rcases h.1 with hnext | ⟨hsame, hspent⟩
    · omega
    · have hpaid := List.length_pos_iff.mpr hspent
      omega

/-- The passes over so many tasks are bounded by their number and by all that was used up. -/
theorem Paced.length_le (h : Paced ps) {n : Nat} (hn : ∀ p ∈ ps, p.index < n) :
    ps.length ≤ n + (total ps).length := by
  cases ps with
  | nil => exact Nat.zero_le _
  | cons p ps =>
    have hlatest := h.length_le_latest
    have hindex := hn p List.mem_cons_self
    have htotal : (total ps).length ≤ (total (p :: ps)).length := by
      rw [total, total, List.flatMap_cons, List.length_append]
      exact Nat.le_add_left _ _
    omega

/-- Two passes at one index in a row: the earlier one used something up. -/
theorem Paced.paid {newer older : List (Pass μ)} {later earlier : Pass μ}
    (h : Paced (newer ++ later :: earlier :: older)) (hsame : later.index = earlier.index) :
    earlier.spent ≠ [] := by
  induction newer with
  | nil =>
    rcases h.1 with hnext | ⟨-, hspent⟩
    · omega
    · exact hspent
  | cons p newer ih => exact ih h.2

end Pass

end Sidecar
