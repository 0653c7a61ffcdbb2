import Sidecar.Framework.Run
import Mathlib.Data.List.Nodup
import Mathlib.Logic.Relation

namespace Sidecar

/-- Tasks that run beside each other over a shared state, and what they have shown to the
outside. -/
structure TaskSystem (σ τ ε : Type) where
  shared : σ
  tasks : List τ
  log : List ε

namespace TaskSystem

variable {σ τ ε ρ β : Type}

/-- One task takes one step: it may change the shared state, show events and leave other
tasks in its place. `r` is what the outside answers it. -/
inductive TaskRuns (step : ρ → σ → τ → Option (σ × List τ × List ε)) (r : ρ) (t : τ)
    (w : TaskSystem σ τ ε) : TaskSystem σ τ ε → Prop
  | intro {before after next : List τ} {s' : σ} {es : List ε}
      (htasks : w.tasks = before ++ t :: after) (hstep : step r w.shared t = some (s', next, es)) :
      TaskRuns step r t w ⟨s', before ++ next ++ after, w.log ++ es⟩

/-- What the tasks have in their hands, all together. -/
def held (f : τ → List β) (w : TaskSystem σ τ ε) : List β := w.tasks.flatMap f

theorem mem_held {f : τ → List β} {w : TaskSystem σ τ ε} {b : β} :
    b ∈ held f w ↔ ∃ t ∈ w.tasks, b ∈ f t :=
  List.mem_flatMap

/-- What is held before a step, with what the task that runs holds. -/
theorem held_split_eq {f : τ → List β} {w : TaskSystem σ τ ε} {before after : List τ} {t : τ}
    (h : w.tasks = before ++ t :: after) :
    held f w = before.flatMap f ++ (f t ++ after.flatMap f) := by
  rw [held, h, List.flatMap_append, List.flatMap_cons]

/-- What is held after the step, with what it left. -/
theorem held_run_eq (f : τ → List β) {s : σ} {before after next : List τ} {log : List ε} :
    held f (⟨s, before ++ next ++ after, log⟩ : TaskSystem σ τ ε) =
      before.flatMap f ++ (next.flatMap f ++ after.flatMap f) := by
  rw [held, List.flatMap_append, List.flatMap_append, List.append_assoc]

/-- A task that is there after a step was there before or was left by the step. -/
theorem mem_tasks_of_split {w : TaskSystem σ τ ε} {before after next : List τ} {t u : τ}
    (h : w.tasks = before ++ t :: after) (hu : u ∈ before ++ next ++ after) :
    u ∈ next ∨ u ∈ w.tasks := by
  rw [h]
  simp only [List.mem_append, List.mem_cons] at hu ⊢
  tauto

/-- What is held after a step was held before or is held by what the step left. -/
theorem held_of_split {f : τ → List β} {w : TaskSystem σ τ ε} {before after next : List τ}
    {t : τ} {b : β} (h : w.tasks = before ++ t :: after)
    (hb : b ∈ (before ++ next ++ after).flatMap f) : b ∈ next.flatMap f ∨ b ∈ held f w := by
  obtain ⟨u, hu, hbu⟩ := List.mem_flatMap.mp hb
  rcases mem_tasks_of_split h hu with hn | hw
  · exact Or.inl (List.mem_flatMap.mpr ⟨u, hn, hbu⟩)
  · exact Or.inr (mem_held.mpr ⟨u, hw, hbu⟩)

/-- What was held before a step is held after it, unless the task that ran held it. -/
theorem held_kept {f : τ → List β} {w : TaskSystem σ τ ε} {before after : List τ} {t : τ} {b : β}
    (next : List τ) (h : w.tasks = before ++ t :: after) (hb : b ∈ held f w) :
    b ∈ f t ∨ b ∈ (before ++ next ++ after).flatMap f := by
  obtain ⟨u, hu, hbu⟩ := mem_held.mp hb
  rw [h] at hu
  simp only [List.mem_append, List.mem_cons] at hu
  rcases hu with hu | rfl | hu
  · exact Or.inr (List.mem_flatMap.mpr ⟨u, by simp [hu], hbu⟩)
  · exact Or.inl hbu
  · exact Or.inr (List.mem_flatMap.mpr ⟨u, by simp [hu], hbu⟩)

theorem held_next {f : τ → List β} (before after : List τ) {next : List τ} {b : β}
    (hb : b ∈ next.flatMap f) : b ∈ (before ++ next ++ after).flatMap f := by
  obtain ⟨u, hu, hbu⟩ := List.mem_flatMap.mp hb
  exact List.mem_flatMap.mpr ⟨u, by simp [hu], hbu⟩

theorem mem_of_split {w : TaskSystem σ τ ε} {before after : List τ} {t : τ}
    (h : w.tasks = before ++ t :: after) : t ∈ w.tasks := by
  rw [h]
  simp

/-- What is held after a step is held by what the step left or by a task that did not run. -/
theorem held_split {f : τ → List β} {before after next : List τ} {b : β}
    (hb : b ∈ (before ++ next ++ after).flatMap f) :
    b ∈ next.flatMap f ∨ b ∈ (before ++ after).flatMap f := by
  simp only [List.flatMap_append, List.mem_append] at hb ⊢
  tauto

theorem held_rest {f : τ → List β} {w : TaskSystem σ τ ε} {before after : List τ} {t : τ} {b : β}
    (h : w.tasks = before ++ t :: after) (hb : b ∈ (before ++ after).flatMap f) : b ∈ held f w := by
  rw [held, h]
  simp only [List.flatMap_append, List.flatMap_cons, List.mem_append] at hb ⊢
  tauto

/-- What is held once stays so when a task hands it on at most once. -/
theorem nodup_of_split {f : τ → List β} {w : TaskSystem σ τ ε} {before after next : List τ} {t : τ}
    (h : w.tasks = before ++ t :: after) (hw : (held f w).Nodup)
    (hnext : List.Sublist (next.flatMap f) (f t)) :
    ((before ++ next ++ after).flatMap f).Nodup := by
  rw [held, h] at hw
  refine hw.sublist ?_
  rw [List.flatMap_append, List.flatMap_append, List.flatMap_append, List.flatMap_cons,
    List.append_assoc]
  exact (List.Sublist.refl _).append (hnext.append (List.Sublist.refl _))

/-- What is held once and held by another task is not held by the task that runs. -/
theorem held_once {f : τ → List β} {w : TaskSystem σ τ ε} {before after : List τ} {t : τ} {b : β}
    (h : w.tasks = before ++ t :: after) (hw : (held f w).Nodup)
    (hb : b ∈ (before ++ after).flatMap f) : b ∉ f t := by
  intro ht
  rw [held_split_eq h] at hw
  rw [List.flatMap_append, List.mem_append] at hb
  rcases hb with hl | hr
  · exact List.disjoint_of_nodup_append hw hl (List.mem_append_left _ ht)
  · exact List.disjoint_of_nodup_append hw.of_append_right ht hr

/-- A step that takes on something nobody holds keeps what is held once so. -/
theorem nodup_of_new {f : τ → List β} {w : TaskSystem σ τ ε} {before after next : List τ} {t : τ}
    {b : β} (h : w.tasks = before ++ t :: after) (hw : (held f w).Nodup)
    (hnext : next.flatMap f = [b]) (hnew : b ∉ held f w) :
    ((before ++ next ++ after).flatMap f).Nodup := by
  have hrest : ((before ++ after).flatMap f).Nodup := by
    rw [held, h] at hw
    refine hw.sublist ?_
    rw [List.flatMap_append, List.flatMap_append, List.flatMap_cons]
    exact (List.Sublist.refl _).append (List.sublist_append_right _ _)
  have hperm : List.Perm ((before ++ next ++ after).flatMap f)
      (b :: (before ++ after).flatMap f) := by
    rw [List.flatMap_append, List.flatMap_append, hnext, List.append_assoc, List.flatMap_append]
    exact List.perm_middle
  exact hperm.nodup_iff.mpr (List.nodup_cons.mpr ⟨fun hm => hnew (held_rest h hm), hrest⟩)

/-- What the tasks have in their hands and what they have shown of it. -/
def dealt (f : τ → List β) (g : ε → Option β) (w : TaskSystem σ τ ε) : List β :=
  held f w ++ w.log.filterMap g

theorem mem_dealt_of_log {f : τ → List β} {g : ε → Option β} {w : TaskSystem σ τ ε} {e : ε} {b : β}
    (he : e ∈ w.log) (hb : g e = some b) : b ∈ dealt f g w :=
  List.mem_append_right _ (List.mem_filterMap.mpr ⟨e, he, hb⟩)

/-- When tasks show only what they have in their hands, what is dealt after a step was dealt
before or is in the hands of what the step left. -/
theorem dealt_of_split {f : τ → List β} {g : ε → Option β} {w : TaskSystem σ τ ε}
    {before after next : List τ} {t : τ} {s' : σ} {es : List ε} {b : β}
    (h : w.tasks = before ++ t :: after) (hes : ∀ b ∈ es.filterMap g, b ∈ f t)
    (hb : b ∈ dealt f g ⟨s', before ++ next ++ after, w.log ++ es⟩) :
    b ∈ dealt f g w ∨ b ∈ next.flatMap f := by
  rcases List.mem_append.mp hb with hheld | hlog
  · rcases held_of_split h hheld with hnext | hw
    · exact Or.inr hnext
    · exact Or.inl (List.mem_append_left _ hw)
  · rw [List.filterMap_append, List.mem_append] at hlog
    rcases hlog with hold | hnew
    · exact Or.inl (List.mem_append_right _ hold)
    · exact Or.inl (List.mem_append_left _ (mem_held.mpr ⟨t, mem_of_split h, hes b hnew⟩))

/-- What is dealt after a step is what was dealt before and what the step adds to what its task
held. -/
theorem dealt_perm {f : τ → List β} {g : ε → Option β} {w : TaskSystem σ τ ε}
    {before after next : List τ} {t : τ} {s' : σ} {es : List ε} {new : List β}
    (h : w.tasks = before ++ t :: after)
    (hstep : (next.flatMap f ++ es.filterMap g).Perm (new ++ f t)) :
    (dealt f g ⟨s', before ++ next ++ after, w.log ++ es⟩).Perm (new ++ dealt f g w) := by
  classical
  rw [List.perm_iff_count] at hstep ⊢
  intro b
  have hb := hstep b
  simp only [dealt, held, h, List.flatMap_append, List.flatMap_cons, List.filterMap_append,
    List.count_append] at hb ⊢
  omega

/-- What the task that runs hands on or shows, or what others hold, stays dealt. -/
theorem dealt_kept {f : τ → List β} {g : ε → Option β} {w : TaskSystem σ τ ε}
    {before after next : List τ} {t : τ} {s' : σ} {es : List ε} {b : β}
    (h : w.tasks = before ++ t :: after)
    (hand : b ∈ f t → b ∈ next.flatMap f ∨ b ∈ es.filterMap g) (hb : b ∈ dealt f g w) :
    b ∈ dealt f g ⟨s', before ++ next ++ after, w.log ++ es⟩ := by
  have hlog : ∀ {l : List ε}, l ⊆ w.log ++ es → b ∈ l.filterMap g →
      b ∈ dealt f g ⟨s', before ++ next ++ after, w.log ++ es⟩ := by
    intro l hsub hl
    obtain ⟨e, he, hg⟩ := List.mem_filterMap.mp hl
    exact mem_dealt_of_log (hsub he) hg
  rcases List.mem_append.mp hb with hheld | hshown
  · rcases held_kept next h hheld with ht | hrest
    · rcases hand ht with hnext | hes
      · exact List.mem_append_left _ (held_next before after hnext)
      · exact hlog (List.subset_append_right _ _) hes
    · exact List.mem_append_left _ hrest
  · exact hlog (List.subset_append_left _ _) hshown

/-- The task at position `i` takes a step, if it can. -/
def runAt (step : ρ → σ → τ → Option (σ × List τ × List ε)) (r : ρ) (i : Nat)
    (w : TaskSystem σ τ ε) : Option (τ × TaskSystem σ τ ε) :=
  w.tasks[i]?.bind (fun t => (step r w.shared t).map (fun o =>
    (t, ⟨o.1, w.tasks.take i ++ o.2.1 ++ w.tasks.drop (i + 1), w.log ++ o.2.2⟩)))

theorem split_at {w : TaskSystem σ τ ε} {i : Nat} {t : τ} (h : w.tasks[i]? = some t) :
    w.tasks = w.tasks.take i ++ t :: w.tasks.drop (i + 1) := by
  obtain ⟨hlt, ht⟩ := List.getElem?_eq_some_iff.mp h
  rw [← ht, List.getElem_cons_drop, List.take_append_drop]

theorem taskRuns_of_runAt {step : ρ → σ → τ → Option (σ × List τ × List ε)} {r : ρ} {i : Nat}
    {w w' : TaskSystem σ τ ε} {t : τ} (h : runAt step r i w = some (t, w')) :
    TaskRuns step r t w w' := by
  obtain ⟨u, hu, hr⟩ := Option.bind_eq_some_iff.mp h
  obtain ⟨o, ho, he⟩ := Option.map_eq_some_iff.mp hr
  obtain ⟨rfl, rfl⟩ := Prod.mk.inj he
  exact .intro (split_at hu) ho

/-- Some task takes a step. -/
def Moves (step : ρ → σ → τ → Option (σ × List τ × List ε)) (w w' : TaskSystem σ τ ε) : Prop :=
  ∃ r t, TaskRuns step r t w w'

/-- The system with other tasks around, and with what was shown before. -/
def beside (before after : List τ) (log : List ε) (w : TaskSystem σ τ ε) : TaskSystem σ τ ε :=
  ⟨w.shared, before ++ w.tasks ++ after, log ++ w.log⟩

/-- The only task there is takes a step. -/
theorem moves_alone {step : ρ → σ → τ → Option (σ × List τ × List ε)} {r : ρ} {s s' : σ} {t : τ}
    {next : List τ} {es : List ε} (log : List ε) (h : step r s t = some (s', next, es)) :
    Moves step ⟨s, [t], log⟩ ⟨s', next, log ++ es⟩ := by
  have hruns : TaskRuns step r t ⟨s, [t], log⟩ ⟨s', [] ++ next ++ [], log ++ es⟩ := .intro rfl h
  rw [List.nil_append, List.append_nil] at hruns
  exact ⟨r, t, hruns⟩

/-- What tasks do alone they can do while others wait. -/
theorem moves_beside {step : ρ → σ → τ → Option (σ × List τ × List ε)} (before after : List τ)
    (log : List ε) {w w' : TaskSystem σ τ ε} (h : Relation.ReflTransGen (Moves step) w w') :
    Relation.ReflTransGen (Moves step) (beside before after log w) (beside before after log w') := by
  refine h.lift _ ?_
  rintro u v ⟨r, t, hruns⟩
  cases hruns with
  | @intro front back next s' es htasks hstep =>
    have hsplit : (beside before after log u).tasks = (before ++ front) ++ t :: (back ++ after) := by
      simp [beside, htasks]
    have hbeside := TaskRuns.intro hsplit hstep
    refine ⟨r, t, ?_⟩
    simpa [beside] using hbeside

end TaskSystem

/-- Every event of a log fits what was there before it. -/
def Along {ε : Type} (P : List ε → ε → Prop) (log : List ε) : Prop :=
  ∀ before e after, log = before ++ e :: after → P before e

theorem along_nil {ε : Type} (P : List ε → ε → Prop) : Along P [] := by
  intro before e after h
  simp at h

theorem along_append {ε : Type} {P : List ε → ε → Prop} {log es : List ε} (h : Along P log)
    (hes : ∀ before e after, es = before ++ e :: after → P (log ++ before) e) :
    Along P (log ++ es) := by
  intro before e after he
  rcases List.append_eq_append_iff.mp he with ⟨mid, hb, hm⟩ | ⟨mid, hl, hm⟩
  · rw [hb]
    exact hes mid e after hm
  · cases mid with
    | nil =>
      rw [List.append_nil] at hl
      have := hes [] e after (by simpa using hm.symm)
      rwa [List.append_nil, hl] at this
    | cons x mid =>
      obtain ⟨rfl, -⟩ := List.cons.inj (by simpa using hm)
      exact h before e mid hl

end Sidecar
