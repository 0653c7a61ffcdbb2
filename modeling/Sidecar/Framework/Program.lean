import Mathlib.Logic.Basic

namespace Sidecar

variable {ε σ α β : Type} {s : σ} {Q Q' : α → σ → Prop} {E E' : ε → σ → Prop}

/-- The program, started in `s`, returns as `Q` says or fails as `E` says. What it changed
before it failed stays changed. -/
def Completes (x : EStateM ε σ α) (s : σ) (Q : α → σ → Prop) (E : ε → σ → Prop) : Prop :=
  match x.run s with
  | .ok a s' => Q a s'
  | .error e s' => E e s'

@[simp] theorem isOk_ok (a : α) : (Except.ok a : Except ε α).isOk = true := rfl

@[simp] theorem isOk_error (e : ε) : (Except.error e : Except ε α).isOk = false := rfl

namespace Completes

theorem result {x : EStateM ε σ α} (h : Completes x s Q E) :
    (∃ a s', x.run s = .ok a s' ∧ Q a s') ∨ ∃ e s', x.run s = .error e s' ∧ E e s' := by
  unfold Completes at h
  split at h
  · next a s' hx => exact Or.inl ⟨a, s', hx, h⟩
  · next e s' hx => exact Or.inr ⟨e, s', hx, h⟩

theorem of_ok {x : EStateM ε σ α} {a : α} {s' : σ} (hx : x.run s = .ok a s') :
    Completes x s Q E ↔ Q a s' := by
  rw [Completes, hx]

theorem of_error {x : EStateM ε σ α} {e : ε} {s' : σ} (hx : x.run s = .error e s') :
    Completes x s Q E ↔ E e s' := by
  rw [Completes, hx]

theorem mono {x : EStateM ε σ α} (h : Completes x s Q E) (hQ : ∀ a s', Q a s' → Q' a s')
    (hE : ∀ e s', E e s' → E' e s') : Completes x s Q' E' := by
  rcases h.result with ⟨a, s', hx, hq⟩ | ⟨e, s', hx, he⟩
  · exact (of_ok hx).mpr (hQ a s' hq)
  · exact (of_error hx).mpr (hE e s' he)

@[simp] theorem pure_iff (a : α) : Completes (pure a : EStateM ε σ α) s Q E ↔ Q a s := Iff.rfl

@[simp] theorem throw_iff (e : ε) : Completes (throw e : EStateM ε σ α) s Q E ↔ E e s := Iff.rfl

@[simp] theorem modify_iff {Q : PUnit → σ → Prop} (f : σ → σ) :
    Completes (modify f : EStateM ε σ PUnit) s Q E ↔ Q ⟨⟩ (f s) := Iff.rfl

@[simp] theorem modifyGet_iff (f : σ → α × σ) :
    Completes (modifyGet f : EStateM ε σ α) s Q E ↔ Q (f s).1 (f s).2 := Iff.rfl

@[simp] theorem bind_iff {Q : β → σ → Prop} (x : EStateM ε σ α) (f : α → EStateM ε σ β) :
    Completes (x >>= f) s Q E ↔ Completes x s (fun a s' => Completes (f a) s' Q E) E := by
  cases hx : x.run s with
  | ok a s' =>
    have hb : (x >>= f).run s = (f a).run s' := by
      show EStateM.bind x f s = _
      simp only [EStateM.bind]
      rw [show x s = .ok a s' from hx]
      rfl
    rw [of_ok hx, Completes, hb, Completes]
  | error e s' =>
    have hb : (x >>= f).run s = .error e s' := by
      show EStateM.bind x f s = _
      simp only [EStateM.bind]
      rw [show x s = .error e s' from hx]
    rw [of_error hx, of_error hb]

@[simp] theorem ofExcept_iff (r : Except ε α) :
    Completes (MonadExcept.ofExcept r : EStateM ε σ α) s Q E ↔
      (∀ a, r = .ok a → Q a s) ∧ ∀ e, r = .error e → E e s := by
  cases r with
  | ok a => simp [MonadExcept.ofExcept]
  | error e => simp [MonadExcept.ofExcept]

end Completes

end Sidecar
