import Mathlib.Data.List.Basic

namespace Sidecar

variable {σ α : Type} {step : σ → α → σ → Prop}

/-- Finite runs of a labelled step relation, with the labels in execution order. -/
inductive Run (step : σ → α → σ → Prop) : σ → List α → σ → Prop
  | nil (s : σ) : Run step s [] s
  | cons {s t u : σ} {a : α} {as : List α} :
      step s a t → Run step t as u → Run step s (a :: as) u

namespace Run

theorem append {s t u : σ} {as bs : List α} (h : Run step s as t) (k : Run step t bs u) :
    Run step s (as ++ bs) u := by
  induction h with
  | nil => exact k
  | cons hs _ ih => exact .cons hs (ih k)

theorem of_append {s u : σ} {as bs : List α} (h : Run step s (as ++ bs) u) :
    ∃ t, Run step s as t ∧ Run step t bs u := by
  induction as generalizing s with
  | nil => exact ⟨s, .nil s, h⟩
  | cons a as ih =>
    cases h with
    | cons hs hr =>
      obtain ⟨t, ht, hu⟩ := ih hr
      exact ⟨t, .cons hs ht, hu⟩

theorem snoc {s t u : σ} {a : α} {as : List α} (h : Run step s as t) (hs : step t a u) :
    Run step s (as ++ [a]) u :=
  h.append (.cons hs (.nil u))

/-- What every step keeps, every run keeps. -/
theorem invariant {I : σ → Prop} (hI : ∀ s a t, I s → step s a t → I t)
    {s t : σ} {as : List α} (h : Run step s as t) (hs : I s) : I t := by
  induction h with
  | nil => exact hs
  | cons ha _ ih => exact ih (hI _ _ _ hs ha)

/-- As `invariant`, where what a step keeps may depend on a property of its label. -/
theorem invariant_of_labels {I : σ → Prop} {P : α → Prop}
    (hI : ∀ s a t, P a → I s → step s a t → I t)
    {s t : σ} {as : List α} (h : Run step s as t) (hP : ∀ a ∈ as, P a) (hs : I s) : I t := by
  induction h with
  | nil => exact hs
  | cons ha _ ih =>
    exact ih (fun a hm => hP a (List.mem_cons_of_mem _ hm)) (hI _ _ _ (hP _ (by simp)) hs ha)

/-- As `invariant`, where what is kept may speak of the labels so far. -/
theorem invariant_along {I : List α → σ → Prop}
    (hI : ∀ as s a t, I as s → step s a t → I (as ++ [a]) t) {s t : σ} {as : List α}
    (h : Run step s as t) (hs : I [] s) : I as t := by
  have hfrom : ∀ before, I before s → I (before ++ as) t := by
    clear hs
    induction h with
    | nil s =>
      intro before hs
      simpa using hs
    | cons hstep _ ih =>
      intro before hs
      simpa using ih (before ++ [_]) (hI before _ _ _ hs hstep)
  exact hfrom [] hs

/-- A run of a smaller step relation is a run of a larger one. -/
theorem mono {step' : σ → α → σ → Prop} (hm : ∀ s a t, step s a t → step' s a t)
    {s t : σ} {as : List α} (h : Run step s as t) : Run step' s as t := by
  induction h with
  | nil s => exact .nil s
  | cons ha _ ih => exact .cons (hm _ _ _ ha) ih

/-- As `mono`, where the larger relation may need a property of the label. -/
theorem mono_of_labels {step' : σ → α → σ → Prop} {P : α → Prop}
    (hm : ∀ s a t, P a → step s a t → step' s a t) {s t : σ} {as : List α} (h : Run step s as t)
    (hP : ∀ a ∈ as, P a) : Run step' s as t := by
  induction h with
  | nil s => exact .nil s
  | cons ha _ ih =>
    have hhead := hm _ _ _ (hP _ (by simp)) ha
    exact .cons hhead (ih (fun a hmem => hP a (List.mem_cons_of_mem _ hmem)))

/-- What every step keeps may be used to say more of every step. -/
theorem strengthen {I : σ → Prop} {step' : σ → α → σ → Prop}
    (hI : ∀ s a t, I s → step s a t → I t ∧ step' s a t) {s t : σ} {as : List α}
    (h : Run step s as t) (hs : I s) : Run step' s as t := by
  induction h with
  | nil s => exact .nil s
  | cons ha _ ih =>
    obtain ⟨hnext, hstep⟩ := hI _ _ _ hs ha
    exact .cons hstep (ih hnext)

/-- A system refines another one: when every step is a run of the other system, as the states are
seen there, so is every run. -/
theorem refines {τ β : Type} {f : σ → τ} {step' : τ → β → τ → Prop} {I : σ → Prop}
    (hI : ∀ s a t, I s → step s a t → I t ∧ ∃ bs, Run step' (f s) bs (f t)) {s t : σ}
    {as : List α} (h : Run step s as t) (hs : I s) :
    I t ∧ ∃ bs, Run step' (f s) bs (f t) := by
  induction h with
  | nil s => exact ⟨hs, [], .nil _⟩
  | cons ha _ ih =>
    obtain ⟨hnext, bs, hstep⟩ := hI _ _ _ hs ha
    obtain ⟨hlast, cs, hrest⟩ := ih hnext
    exact ⟨hlast, bs ++ cs, hstep.append hrest⟩

end Run

section History

variable {η : Type}

/-- A step relation with a history beside the state. The history is written from what the
step finds; no step reads it. -/
def Recorded (step : σ → α → σ → Prop) (write : σ → α → η → η) (s : σ × η) (a : α) (t : σ × η) :
    Prop :=
  step s.1 a t.1 ∧ t.2 = write s.1 a s.2

/-- Every run has its history. -/
theorem Run.record (write : σ → α → η → η) {s t : σ} {as : List α} (h : Run step s as t)
    (x : η) : ∃ y, Run (Recorded step write) (s, x) as (t, y) := by
  induction h generalizing x with
  | nil s => exact ⟨x, .nil (s, x)⟩
  | @cons s u t a as ha hrun ih =>
    obtain ⟨y, hy⟩ := ih (write s a x)
    have hstep : Recorded step write (s, x) a (u, write s a x) := ⟨ha, rfl⟩
    exact ⟨y, .cons hstep hy⟩

/-- The run of a function, with its history. -/
theorem Run.record_foldl {f : σ → α → σ} (write : σ → α → η → η) (as : List α) (s : σ × η) :
    Run (Recorded (fun s a t => t = f s a) write) s as
      (as.foldl (fun s a => (f s.1 a, write s.1 a s.2)) s) := by
  induction as generalizing s with
  | nil => exact .nil s
  | cons a as ih =>
    have hstep : Recorded (fun s a t => t = f s a) write s a
        (f s.1 a, write s.1 a s.2) := ⟨rfl, rfl⟩
    exact .cons hstep (ih _)

/-- Executes a step function together with its history. -/
def recordNext (f : σ → α → σ) (write : σ → α → η → η) (s : σ × η) (a : α) :
    Option (α × (σ × η)) :=
  some (a, f s.1 a, write s.1 a s.2)

theorem recorded_of_recordNext {f : σ → α → σ} {write : σ → α → η → η} (s : σ × η) (a b : α)
    (t : σ × η) (h : recordNext f write s a = some (b, t)) :
    Recorded (fun s a t => t = f s a) write s b t := by
  have hpair := Prod.mk.inj (Option.some.inj h)
  rw [← hpair.1, ← hpair.2]
  exact ⟨rfl, rfl⟩

end History

section Exec

variable {π η : Type}

/-- Takes a choice and writes the history of the step it leads to. -/
def recordPick (next : σ → π → Option (α × σ)) (write : σ → α → η → η) (s : σ × η) (p : π) :
    Option (α × (σ × η)) :=
  (next s.1 p).map (fun r => (r.1, r.2, write s.1 r.1 s.2))

theorem recorded_of_recordPick {next : σ → π → Option (α × σ)}
    (hnext : ∀ s p a s', next s p = some (a, s') → step s a s') {write : σ → α → η → η}
    (s : σ × η) (p : π) (a : α) (t : σ × η) (h : recordPick next write s p = some (a, t)) :
    Recorded step write s a t := by
  obtain ⟨r, hr, he⟩ := Option.map_eq_some_iff.mp h
  obtain ⟨rfl, rfl⟩ := Prod.mk.inj he
  exact ⟨hnext s.1 p r.1 r.2 hr, rfl⟩

/-- The run of a step function that may refuse, with its history. -/
theorem run_foldlM {f : σ → α → Option σ} (write : σ → α → η → η) {as : List α} {s t : σ × η}
    (h : as.foldlM (fun s a => (f s.1 a).map (fun u => (u, write s.1 a s.2))) s = some t) :
    Run (Recorded (fun s a t => f s a = some t) write) s as t := by
  induction as generalizing s with
  | nil =>
    obtain rfl := Option.some.inj h
    exact .nil s
  | cons a as ih =>
    rw [List.foldlM_cons] at h
    obtain ⟨u, hu, hrest⟩ := Option.bind_eq_some_iff.mp h
    obtain ⟨v, hv, rfl⟩ := Option.map_eq_some_iff.mp hu
    have hstep : Recorded (fun s a t => f s a = some t) write s a (v, write s.1 a s.2) := ⟨hv, rfl⟩
    exact .cons hstep (ih hrest)

/-- Runs a list of choices one after another, as long as each leads to a step that is allowed
where it is taken. -/
def execAll (next : σ → π → Option (α × σ)) (allowed : σ → α → Bool) : List π → σ → Option σ
  | [], s => some s
  | p :: ps, s =>
    (next s p).bind (fun r => if allowed s r.1 then execAll next allowed ps r.2 else none)

theorem run_execAll {next : σ → π → Option (α × σ)}
    (hnext : ∀ s p a s', next s p = some (a, s') → step s a s') {P : σ → α → Prop}
    [∀ s a, Decidable (P s a)] {ps : List π} {s s' : σ}
    (h : execAll next (fun s a => decide (P s a)) ps s = some s') :
    ∃ as, Run (fun s a s' => step s a s' ∧ P s a) s as s' := by
  induction ps generalizing s with
  | nil =>
    obtain rfl := Option.some.inj h
    exact ⟨[], .nil s⟩
  | cons p ps ih =>
    obtain ⟨r, hr, he⟩ := Option.bind_eq_some_iff.mp h
    split_ifs at he with hp
    obtain ⟨as, hrun⟩ := ih he
    exact ⟨r.1 :: as, .cons ⟨hnext s p r.1 r.2 hr, by simpa using hp⟩ hrun⟩

/-- Without a condition on the steps. -/
theorem run_execAll_free {next : σ → π → Option (α × σ)}
    (hnext : ∀ s p a s', next s p = some (a, s') → step s a s') {ps : List π} {s s' : σ}
    (h : execAll next (fun _ _ => true) ps s = some s') : ∃ as, Run step s as s' := by
  obtain ⟨as, hrun⟩ := run_execAll (P := fun _ _ => True) hnext (by simpa using h)
  exact ⟨as, hrun.mono (fun _ _ _ hs => hs.1)⟩

end Exec

end Sidecar
