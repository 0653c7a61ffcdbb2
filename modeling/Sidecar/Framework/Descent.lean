import Mathlib.Data.Multiset.DershowitzManna
import Mathlib.Data.Nat.Find
import Mathlib.Data.Prod.Lex

namespace Sidecar

variable {σ τ α : Type} [Preorder α]

/-- One element of a list makes room for smaller ones. -/
def Replaces (rank : τ → α) (l l' : List τ) : Prop :=
  ∃ before t after next, l = before ++ t :: after ∧ l' = before ++ next ++ after ∧
    ∀ u ∈ next, rank u < rank t

theorem isDershowitzMannaLT_of_replaces {rank : τ → α} {l l' : List τ} (h : Replaces rank l l') :
    Multiset.IsDershowitzMannaLT (Multiset.ofList (l'.map rank)) (Multiset.ofList (l.map rank)) := by
  obtain ⟨before, t, after, next, rfl, rfl, hless⟩ := h
  refine ⟨Multiset.ofList ((before ++ after).map rank), Multiset.ofList (next.map rank),
    {rank t}, by simp, ?_, ?_, ?_⟩
  · rw [Multiset.coe_add, Multiset.coe_eq_coe, ← List.map_append]
    refine List.Perm.map rank ?_
    rw [List.append_assoc, List.append_assoc]
    exact List.Perm.append_left before List.perm_append_comm
  · rw [← Multiset.coe_singleton, Multiset.coe_add, Multiset.coe_eq_coe, ← List.map_singleton,
      ← List.map_append]
    refine List.Perm.map rank ?_
    rw [List.append_assoc]
    exact List.Perm.append_left before (List.perm_append_singleton t after).symm
  · intro y hy
    obtain ⟨u, hu, rfl⟩ := List.mem_map.mp (Multiset.mem_coe.mp hy)
    exact ⟨rank t, Multiset.mem_singleton_self _, hless u hu⟩

variable (potential : σ → Nat) (tasks : σ → List τ) (rank : τ → α)

/-- The potential falls, or it stays and one task makes room for smaller ones. -/
def Descends (s s' : σ) : Prop :=
  potential s' < potential s ∨
    potential s' = potential s ∧ Replaces rank (tasks s) (tasks s')

/-- What descents are measured by. -/
def descentMeasure (s : σ) : Nat × Multiset α :=
  (potential s, Multiset.ofList ((tasks s).map rank))

variable {potential tasks rank}

theorem lex_of_descends {s s' : σ} (h : Descends potential tasks rank s s') :
    Prod.Lex (· < ·) Multiset.IsDershowitzMannaLT (descentMeasure potential tasks rank s')
      (descentMeasure potential tasks rank s) := by
  rcases h with hless | ⟨hsame, hreplaces⟩
  · exact Prod.Lex.left _ _ hless
  · rw [descentMeasure, descentMeasure, hsame]
    exact Prod.Lex.right _ (isDershowitzMannaLT_of_replaces hreplaces)

variable [WellFoundedLT α]

theorem wellFounded_descends :
    WellFounded (fun s' s : σ => Descends potential tasks rank s s') :=
  Subrelation.wf (fun h => lex_of_descends h)
    (InvImage.wf (descentMeasure potential tasks rank)
      (WellFounded.prod_lex Nat.lt_wfRel.wf Multiset.wellFounded_isDershowitzMannaLT))

/-- A sequence that descends or stays level descends only finitely often. -/
theorem finitely_many_descents {s : Nat → σ}
    (h : ∀ n, Descends potential tasks rank (s n) (s (n + 1)) ∨
      descentMeasure potential tasks rank (s (n + 1)) = descentMeasure potential tasks rank (s n)) :
    ∃ n, ∀ k, n ≤ k → ¬ Descends potential tasks rank (s k) (s (k + 1)) := by
  have hwf : WellFounded (Prod.Lex (· < ·) Multiset.IsDershowitzMannaLT :
      Nat × Multiset α → Nat × Multiset α → Prop) :=
    WellFounded.prod_lex Nat.lt_wfRel.wf Multiset.wellFounded_isDershowitzMannaLT
  -- by induction on the measure at some point of the sequence
  suffices hfrom : ∀ x n, descentMeasure potential tasks rank (s n) = x →
      ∃ n', ∀ k, n' ≤ k → ¬ Descends potential tasks rank (s k) (s (k + 1)) from hfrom _ 0 rfl
  intro x
  induction x using hwf.induction with
  | _ x ih =>
    intro n hn
    by_cases hlater : ∃ d, Descends potential tasks rank (s (n + d)) (s (n + d + 1))
    · classical
      -- up to the first descent the measure is the same
      have hlevel : ∀ d, d ≤ Nat.find hlater →
          descentMeasure potential tasks rank (s (n + d)) = x := by
        intro d
        induction d with
        | zero => exact fun _ => hn
        | succ d ihd =>
          intro hd
          have hnot : ¬ Descends potential tasks rank (s (n + d)) (s (n + d + 1)) :=
            Nat.find_min hlater hd
          have hstays := (h (n + d)).resolve_left hnot
          exact hstays.trans (ihd (Nat.le_of_succ_le hd))
      have hless := lex_of_descends (Nat.find_spec hlater)
      rw [hlevel _ (Nat.le_refl _)] at hless
      exact ih _ hless _ rfl
    · refine ⟨n, fun k hk hdescends => hlater ⟨k - n, ?_⟩⟩
      rwa [Nat.add_sub_cancel' hk]

end Sidecar
