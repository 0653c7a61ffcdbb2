import Sidecar.Framework.Run

/-! Two systems beside each other, of which one looks at the other. -/

namespace Sidecar

variable {σ τ α β : Type}

/-- A step of the reader depends on the state that it finds the source in; the source moves on its
own. -/
inductive Beside (reader : σ → α → σ → Prop) (source : τ → β → τ → Prop) (finds : α → τ → Prop) :
    σ × τ → α ⊕ β → σ × τ → Prop
  | reads {s s' : σ} {u : τ} {a : α} (h : reader s a s') (hfinds : finds a u) :
      Beside reader source finds (s, u) (.inl a) (s', u)
  | moves {s : σ} {u u' : τ} {b : β} (h : source u b u') :
      Beside reader source finds (s, u) (.inr b) (s, u')

/-- What the source did in a run. -/
def sourceMoves (ms : List (α ⊕ β)) : List β := ms.filterMap Sum.getRight?

namespace Beside

variable {reader : σ → α → σ → Prop} {source : τ → β → τ → Prop} {finds : α → τ → Prop}
  {p q : σ × τ} {ms : List (α ⊕ β)}

/-- The reader by itself. -/
theorem run_reader (h : Run (Beside reader source finds) p ms q) :
    Run reader p.1 (ms.filterMap Sum.getLeft?) q.1 := by
  induction h with
  | nil p => exact .nil p.1
  | cons hstep _ ih =>
    cases hstep with
    | reads ha => exact .cons ha ih
    | moves => exact ih

/-- What the reader has noted down of the source held at some point of the run. -/
theorem noted_in_run {ε : Type} {f : τ → ε} {N : σ → ε → Prop}
    (hnotes : ∀ s a s' u e, reader s a s' → finds a u → N s' e → N s e ∨ e = f u)
    (h : Run (Beside reader source finds) p ms q) (hnone : ∀ e, ¬N p.1 e) {e : ε}
    (he : N q.1 e) :
    ∃ seen later v, sourceMoves ms = seen ++ later ∧ Run source p.2 seen v ∧ e = f v := by
  -- a note of the end is a note of the start or one of a state that is passed
  have hpassed : N p.1 e ∨
      ∃ seen later v, sourceMoves ms = seen ++ later ∧ Run source p.2 seen v ∧ e = f v := by
    clear hnone
    induction h with
    | nil => exact Or.inl he
    | @cons p r q m ms hstep hrest ih =>
      cases hstep with
      | @reads s s' u a ha hfinds =>
        rcases ih he with hnoted | ⟨seen, later, v, hmoves, hrun, hv⟩
        · rcases hnotes s a s' u e ha hfinds hnoted with hold | hnew
          · exact Or.inl hold
          · exact Or.inr ⟨[], _, u, rfl, .nil _, hnew⟩
        · exact Or.inr ⟨seen, later, v, hmoves, hrun, hv⟩
      | @moves s u u' b hb =>
        rcases ih he with hnoted | ⟨seen, later, v, hmoves, hrun, hv⟩
        · exact Or.inl hnoted
        · exact Or.inr ⟨b :: seen, later, v, congrArg (b :: ·) hmoves, .cons hb hrun, hv⟩
  exact hpassed.resolve_left (hnone e)

end Beside

end Sidecar
