import Mathlib.Data.List.Basic
import Mathlib.Data.List.Range

namespace Sidecar

/-- One try of a task in a sequence: the state it ran from, whether it succeeded and what it
would change. -/
structure Attempt (τ σ δ : Type) where
  index : Nat
  task : τ
  base : σ
  succeeded : Bool
  change : Option δ

namespace Attempt

variable {τ σ δ : Type}

/-- The change that counts; failed tries leave none. -/
def kept (a : Attempt τ σ δ) : Option δ := if a.succeeded then a.change else none

/-- How many tries have succeeded. -/
def completed (as : List (Attempt τ σ δ)) : Nat := as.countP Attempt.succeeded

/-- The changes of the successful tries, merged in order into the first state. -/
def stateAfter (merge : σ → δ → σ) (s : σ) (as : List (Attempt τ σ δ)) : σ :=
  (as.filterMap kept).foldl merge s

theorem completed_snoc (as : List (Attempt τ σ δ)) (a : Attempt τ σ δ) :
    completed (as ++ [a]) = if a.succeeded then completed as + 1 else completed as := by
  unfold completed
  rw [List.countP_append, List.countP_singleton]
  split_ifs <;> rfl

theorem completed_append (as bs : List (Attempt τ σ δ)) :
    completed (as ++ bs) = completed as + completed bs :=
  List.countP_append

theorem stateAfter_snoc (merge : σ → δ → σ) (s : σ) (as : List (Attempt τ σ δ))
    (a : Attempt τ σ δ) :
    stateAfter merge s (as ++ [a]) =
      a.kept.elim (stateAfter merge s as) (merge (stateAfter merge s as)) := by
  unfold stateAfter
  rw [List.filterMap_append, List.foldl_append]
  cases h : a.kept <;> simp [h]

/-- The changes that count, read off the successful tries. -/
theorem stateAfter_eq_filter (merge : σ → δ → σ) (s : σ) (as : List (Attempt τ σ δ)) :
    stateAfter merge s as =
      ((as.filter Attempt.succeeded).filterMap Attempt.change).foldl merge s := by
  unfold stateAfter
  congr 1
  rw [List.filterMap_filter]
  rfl

end Attempt

open Attempt

/-- Tries that work through `tasks` one after the other: each is at the first task without a
success and starts from the state that the successes so far have made. -/
inductive Sequential {τ σ δ : Type} (merge : σ → δ → σ) (tasks : List τ) (s : σ) :
    List (Attempt τ σ δ) → Prop
  | nil : Sequential merge tasks s []
  | snoc {as : List (Attempt τ σ δ)} {a : Attempt τ σ δ} (h : Sequential merge tasks s as)
      (hindex : a.index = completed as) (htask : tasks[a.index]? = some a.task)
      (hbase : a.base = stateAfter merge s as) : Sequential merge tasks s (as ++ [a])

namespace Sequential

variable {τ σ δ : Type} {merge : σ → δ → σ} {tasks : List τ} {s : σ}

theorem of_snoc {as : List (Attempt τ σ δ)} {a : Attempt τ σ δ}
    (h : Sequential merge tasks s (as ++ [a])) :
    Sequential merge tasks s as ∧ a.index = completed as ∧ tasks[a.index]? = some a.task ∧
      a.base = stateAfter merge s as := by
  generalize hl : as ++ [a] = l at h
  cases h with
  | nil => simp at hl
  | snoc h hindex htask hbase =>
    obtain ⟨rfl, ha⟩ := List.append_inj' hl rfl
    obtain rfl := List.singleton_inj.mp ha
    exact ⟨h, hindex, htask, hbase⟩

theorem of_append {as bs : List (Attempt τ σ δ)} (h : Sequential merge tasks s (as ++ bs)) :
    Sequential merge tasks s as := by
  induction bs using List.reverseRecOn with
  | nil => simpa using h
  | append_singleton bs b ih =>
    rw [← List.append_assoc] at h
    exact ih h.of_snoc.1

/-- The successes are those of the first tasks, in order. -/
theorem indices_eq {as : List (Attempt τ σ δ)} (h : Sequential merge tasks s as) :
    (as.filter Attempt.succeeded).map Attempt.index = List.range (completed as) := by
  induction h with
  | nil => rfl
  | @snoc as a _ hindex _ _ ih =>
    rw [List.filter_append, List.map_append, ih, completed_snoc]
    cases ha : a.succeeded with
    | false => simp [ha]
    | true => simp [ha, hindex, List.range_succ]

/-- What one try of the sequence ran on. -/
theorem at_split {pre post : List (Attempt τ σ δ)} {a : Attempt τ σ δ}
    (h : Sequential merge tasks s (pre ++ a :: post)) :
    tasks[a.index]? = some a.task ∧ a.base = stateAfter merge s pre ∧
      (pre.filter Attempt.succeeded).map Attempt.index = List.range a.index := by
  have hpre : Sequential merge tasks s (pre ++ [a]) := by
    have happ : pre ++ a :: post = (pre ++ [a]) ++ post := by simp
    rw [happ] at h
    exact h.of_append
  obtain ⟨hs, hindex, htask, hbase⟩ := hpre.of_snoc
  exact ⟨htask, hbase, by rw [hs.indices_eq, hindex]⟩

/-- After a task has succeeded it is not tried again. -/
theorem index_ne_of_succeeded {pre post : List (Attempt τ σ δ)} {a : Attempt τ σ δ}
    (h : Sequential merge tasks s (pre ++ a :: post)) (ha : a.succeeded = true) :
    ∀ b ∈ post, b.index ≠ a.index := by
  intro b hb
  obtain ⟨mid, rest, rfl⟩ := List.append_of_mem hb
  have hb' : pre ++ a :: (mid ++ b :: rest) = (pre ++ a :: mid) ++ b :: rest := by simp
  have hlen : ∀ as : List (Attempt τ σ δ), ∀ n,
      (as.filter Attempt.succeeded).map Attempt.index = List.range n → completed as = n := by
    intro as n hn
    have hl := congrArg List.length hn
    simpa [completed, List.countP_eq_length_filter] using hl
  have hia := hlen _ _ h.at_split.2.2
  rw [hb'] at h
  have hib := hlen _ _ h.at_split.2.2
  have hcount : completed (pre ++ a :: mid) = completed pre + (completed mid + 1) := by
    rw [completed_append]
    simp [completed, ha]
  omega

/-- Once as many tries have succeeded as there are tasks, the last try of every task is a
success. -/
theorem last_succeeded {as : List (Attempt τ σ δ)} (h : Sequential merge tasks s as)
    (hall : completed as = tasks.length) {i : Nat} (hi : i < tasks.length) :
    ∃ pre a post, as = pre ++ a :: post ∧ a.index = i ∧ a.succeeded = true ∧
      ∀ b ∈ post, b.index ≠ i := by
  have hmem : i ∈ (as.filter Attempt.succeeded).map Attempt.index := by
    rw [h.indices_eq, hall]
    exact List.mem_range.mpr hi
  obtain ⟨a, ha, hai⟩ := List.mem_map.mp hmem
  obtain ⟨hmem, hsucc⟩ := List.mem_filter.mp ha
  obtain ⟨pre, post, rfl⟩ := List.append_of_mem hmem
  refine ⟨pre, a, post, rfl, hai, hsucc, ?_⟩
  rw [← hai]
  exact h.index_ne_of_succeeded hsucc

end Sequential

end Sidecar
