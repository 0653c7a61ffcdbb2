import Sidecar.Framework.Tasks

/-! A lock over a system of tasks: at most one task is in its critical section, and what the lock
protects is described by where that task stands. -/

namespace Sidecar.TaskSystem

variable {σ τ ε : Type}

/-- The lock is free and nobody holds it, or it is taken and one task holds it. `P` says what is
true of the protected data: when nobody is at work on it, and while a task is. -/
inductive Guarded (locked : σ → Bool) (holds : τ → Bool) (P : Option τ → σ → List ε → Prop)
    (w : TaskSystem σ τ ε) : Prop
  | free (hlocked : locked w.shared = false) (hnone : w.tasks.filter holds = [])
      (h : P none w.shared w.log)
  | taken (t : τ) (hlocked : locked w.shared = true) (hone : w.tasks.filter holds = [t])
      (h : P (some t) w.shared w.log)

/-- What a step may do with the lock and with what it protects. -/
inductive LockEffect (locked : σ → Bool) (holds : τ → Bool) (P : Option τ → σ → List ε → Prop)
    (s : σ) (log : List ε) (t : τ) (s' : σ) (next : List τ) (es : List ε) : Prop
  | outside (ht : holds t = false) (hnext : next.filter holds = [])
      (hlocked : locked s' = locked s) (h : ∀ holder, P holder s log → P holder s' (log ++ es))
  | acquires (u : τ) (ht : holds t = false) (hnext : next.filter holds = [u])
      (hfree : locked s = false) (hlocked : locked s' = true)
      (h : P none s log → P (some u) s' (log ++ es))
  | inside (u : τ) (ht : holds t = true) (hnext : next.filter holds = [u])
      (hlocked : locked s' = locked s) (h : P (some t) s log → P (some u) s' (log ++ es))
  | releases (ht : holds t = true) (hnext : next.filter holds = [])
      (hlocked : locked s' = false) (h : P (some t) s log → P none s' (log ++ es))

namespace Guarded

variable {locked : σ → Bool} {holds : τ → Bool} {P : Option τ → σ → List ε → Prop}
  {w : TaskSystem σ τ ε} {before after next : List τ} {t : τ} {s' : σ} {es : List ε}

/-- A task in its critical section is the only one, and the lock is taken. -/
theorem of_holds (h : Guarded locked holds P w) (htasks : w.tasks = before ++ t :: after)
    (ht : holds t = true) :
    locked w.shared = true ∧ before.filter holds = [] ∧ after.filter holds = [] ∧
      P (some t) w.shared w.log := by
  have hsplit : w.tasks.filter holds = before.filter holds ++ t :: after.filter holds := by
    rw [htasks, List.filter_append, List.filter_cons_of_pos ht]
  cases h with
  | free _ hnone _ =>
    rw [hnone] at hsplit
    simp at hsplit
  | taken u hlocked hone hP =>
    rw [hone] at hsplit
    have hbefore : before.filter holds = [] := by
      cases hb : before.filter holds with
      | nil => rfl
      | cons x l =>
        have hlength := congrArg List.length hsplit
        rw [hb] at hlength
        simp at hlength
    rw [hbefore, List.nil_append] at hsplit
    obtain ⟨rfl, hafter⟩ := List.cons.inj hsplit
    exact ⟨hlocked, hbefore, hafter.symm, hP⟩

/-- Every step that deals with the lock in one of these ways keeps the discipline. -/
theorem step (h : Guarded locked holds P w) (htasks : w.tasks = before ++ t :: after)
    (heffect : LockEffect locked holds P w.shared w.log t s' next es) :
    Guarded locked holds P ⟨s', before ++ next ++ after, w.log ++ es⟩ := by
  have hfilter : (before ++ next ++ after).filter holds =
      before.filter holds ++ next.filter holds ++ after.filter holds := by
    simp only [List.filter_append]
  -- the tasks in their critical section, when the one that runs is not among them
  have hothers : holds t = false →
      w.tasks.filter holds = before.filter holds ++ after.filter holds := by
    intro ht
    rw [htasks, List.filter_append, List.filter_cons_of_neg (by simp [ht])]
  cases heffect with
  | outside ht hnext hlocked hP =>
    have hsame : (before ++ next ++ after).filter holds = w.tasks.filter holds := by
      rw [hfilter, hnext, List.append_nil, hothers ht]
    cases h with
    | free hfree hnone h => exact .free (hlocked.trans hfree) (hsame.trans hnone) (hP none h)
    | taken u htaken hone h => exact .taken u (hlocked.trans htaken) (hsame.trans hone) (hP _ h)
  | acquires u ht hnext hfree hlocked hP =>
    cases h with
    | taken v htaken _ _ => simp [hfree] at htaken
    | free _ hnone h =>
      rw [hothers ht] at hnone
      obtain ⟨hbefore, hafter⟩ := List.append_eq_nil_iff.mp hnone
      exact .taken u hlocked (by rw [hfilter, hbefore, hafter, hnext]; rfl) (hP h)
  | inside u ht hnext hlocked hP =>
    obtain ⟨htaken, hbefore, hafter, h⟩ := h.of_holds htasks ht
    exact .taken u (hlocked.trans htaken) (by rw [hfilter, hbefore, hafter, hnext]; rfl) (hP h)
  | releases ht hnext hlocked hP =>
    obtain ⟨-, hbefore, hafter, h⟩ := h.of_holds htasks ht
    exact .free hlocked (by rw [hfilter, hbefore, hafter, hnext]; rfl) (hP h)

/-- A new task is outside. -/
theorem arrive (h : Guarded locked holds P w) (ht : holds t = false) :
    Guarded locked holds P { w with tasks := w.tasks ++ [t] } := by
  have hsame : (w.tasks ++ [t]).filter holds = w.tasks.filter holds := by
    rw [List.filter_append, List.filter_cons_of_neg (by simp [ht]), List.filter_nil, List.append_nil]
  cases h with
  | free hfree hnone h => exact .free hfree (hsame.trans hnone) h
  | taken u htaken hone h => exact .taken u htaken (hsame.trans hone) h

end Guarded

end Sidecar.TaskSystem
