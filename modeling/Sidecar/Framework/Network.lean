import Mathlib.Logic.Function.Basic
import Mathlib.Data.List.Basic

namespace Sidecar

variable {ν σ ε : Type} [DecidableEq ν]

/-- What each node of a network has shown to the others so far. -/
def shownBy (shown : σ → List ε) (net : ν → σ) : ν → List ε := fun n => shown (net n)

theorem shownBy_update {shown : σ → List ε} {net : ν → σ} {n : ν} {s' : σ}
    (hgrow : shown (net n) ⊆ shown s') (k : ν) :
    shownBy shown net k ⊆ shownBy shown (Function.update net n s') k := by
  by_cases hk : k = n
  · subst hk
    simpa [shownBy] using hgrow
  · simp [shownBy, hk]

/-- A property of every node that looks at the others only through what they have shown: when
one node moves and takes nothing back, the others keep it. -/
theorem invariant_update {shown : σ → List ε} {I : (ν → List ε) → ν → σ → Prop}
    (hmono : ∀ {logs logs' : ν → List ε} {n : ν} {s : σ}, (∀ k, logs k ⊆ logs' k) →
      I logs n s → I logs' n s)
    {net : ν → σ} {n : ν} {s' : σ} (hgrow : shown (net n) ⊆ shown s')
    (hstep : I (shownBy shown net) n s') (hi : ∀ k, I (shownBy shown net) k (net k)) :
    ∀ k, I (shownBy shown (Function.update net n s')) k (Function.update net n s' k) := by
  intro k
  refine hmono (shownBy_update hgrow) ?_
  by_cases hk : k = n
  · subst hk
    simpa using hstep
  · simpa [hk] using hi k

/-- Two families of values beside each other, changed at one node. -/
theorem update_pair {τ : Type} (f : ν → σ) (g : ν → τ) (n : ν) (a : σ) (b : τ) :
    (fun k => (Function.update f n a k, Function.update g n b k)) =
      Function.update (fun k => (f k, g k)) n (a, b) := by
  funext k
  by_cases hk : k = n
  · subst hk
    simp
  · simp [hk]

section Messages

variable {μ : Type}

/-- What has been sent and not delivered yet, every message as often as it was sent. -/
def inFlight [DecidableEq μ] (sent delivered : List μ) : List μ := sent.diff delivered

theorem delivered_of_sent [DecidableEq μ] {sent delivered : List μ} {m : μ}
    (h : inFlight sent delivered = []) (hm : m ∈ sent) : m ∈ delivered := by
  by_contra hno
  have hfly : m ∈ inFlight sent delivered := List.mem_diff_of_mem hm hno
  simp [h] at hfly

/-- The messages that each node has got from each other one, with one more from `o` to `n`. -/
def recordDelivery (delivered : ν → ν → List μ) (o n : ν) (m : μ) : ν → ν → List μ :=
  Function.update delivered n (Function.update (delivered n) o (delivered n o ++ [m]))

theorem mem_recordDelivery {delivered : ν → ν → List μ} {o n : ν} {m : μ} {c : ν} {m' : μ}
    (h : m' ∈ recordDelivery delivered o n m n c) : m' ∈ delivered n c ∨ m' = m := by
  simp only [recordDelivery, Function.update_self] at h
  by_cases hc : c = o
  · subst hc
    simpa using h
  · exact Or.inl (by simpa [hc] using h)

end Messages

end Sidecar
