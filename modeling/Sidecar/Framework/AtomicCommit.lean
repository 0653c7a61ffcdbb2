import Mathlib.Data.Set.Basic
import Mathlib.Logic.Function.Basic
import Sidecar.Framework.Run

/-! Atomic commitment. The participants of a transaction vote on it once, and whoever decides
decides as the votes have it. -/

namespace Sidecar.AtomicCommit

/-- A transaction, its participants once it is known, and for each process its vote and what it
has decided. -/
@[ext]
structure State (ρ : Type) where
  parts : Option (Set ρ)
  votes : ρ → Option Bool
  decided : ρ → Option Bool

def initial {ρ : Type} : State ρ := ⟨none, fun _ => none, fun _ => none⟩

inductive Action (ρ : Type) where
  | start (parts : Set ρ)
  | withdraw
  | vote (p : ρ) (v : Bool)
  | commit (p : ρ)
  | abort (p : ρ)
  | leave (p : ρ)

section Step

variable {ρ : Type} [DecidableEq ρ]

/-- A transaction is withdrawn only while nobody has voted or decided. A process without a vote
may leave, and then has forgotten what it decided. -/
inductive Step : State ρ → Action ρ → State ρ → Prop
  | start {s : State ρ} {parts : Set ρ} (hnone : s.parts = none) (hsome : parts.Nonempty) :
      Step s (.start parts) { s with parts := some parts }
  | withdraw {s : State ρ} (hvotes : ∀ p, s.votes p = none) (hdecided : ∀ p, s.decided p = none) :
      Step s .withdraw { s with parts := none }
  | vote {s : State ρ} {parts : Set ρ} {p : ρ} {v : Bool} (hparts : s.parts = some parts)
      (hp : p ∈ parts) (hnone : s.votes p = none) :
      Step s (.vote p v) { s with votes := Function.update s.votes p (some v) }
  | commit {s : State ρ} {parts : Set ρ} {p : ρ} (hparts : s.parts = some parts)
      (hvotes : ∀ q ∈ parts, s.votes q = some true) (hnone : s.decided p = none) :
      Step s (.commit p) { s with decided := Function.update s.decided p (some true) }
  | abort {s : State ρ} {p q : ρ} (hvote : s.votes q = some false) (hnone : s.decided p = none) :
      Step s (.abort p) { s with decided := Function.update s.decided p (some false) }
  | leave {s : State ρ} {p : ρ} (hnone : s.votes p = none) :
      Step s (.leave p) { s with decided := Function.update s.decided p none }

/-- The new vote of `p` is the old one, or the first that it casts as a participant. -/
def VoteChange (s : State ρ) (p : ρ) (v : Option Bool) : Prop :=
  v = s.votes p ∨ s.votes p = none ∧ ∃ parts, s.parts = some parts ∧ p ∈ parts

/-- The decision that `p` has now is the old one, or the votes allow it. -/
def DecisionChange (s : State ρ) (p : ρ) (d : Option Bool) : Prop :=
  d = s.decided p ∨ s.decided p = none ∧
    ((d = some true ∧ ∃ parts, s.parts = some parts ∧ ∀ q ∈ parts, s.votes q = some true) ∨
      d = some false ∧ ∃ q, s.votes q = some false)

variable {s t : State ρ} {p : ρ}

theorem run_vote {v : Option Bool} (h : VoteChange s p v) :
    ∃ as, Run Step s as { s with votes := Function.update s.votes p v } := by
  rcases h with rfl | ⟨hnone, parts, hparts, hp⟩
  · rw [Function.update_eq_self]
    exact ⟨[], .nil s⟩
  · cases v with
    | none =>
      rw [← hnone, Function.update_eq_self]
      exact ⟨[], .nil s⟩
    | some v => exact ⟨[.vote p v], .cons (.vote hparts hp hnone) (.nil _)⟩

theorem run_decide {d : Option Bool} (h : DecisionChange s p d) :
    ∃ as, Run Step s as { s with decided := Function.update s.decided p d } := by
  rcases h with rfl | ⟨hnone, ⟨rfl, parts, hparts, hvotes⟩ | ⟨rfl, q, hq⟩⟩
  · rw [Function.update_eq_self]
    exact ⟨[], .nil s⟩
  · exact ⟨[.commit p], .cons (.commit hparts hvotes hnone) (.nil _)⟩
  · exact ⟨[.abort p], .cons (.abort hq hnone) (.nil _)⟩

/-- A process may vote and decide at one go; the decision then counts its vote. -/
theorem run_vote_decide {v d : Option Bool} (hv : VoteChange s p v)
    (hd : DecisionChange { s with votes := Function.update s.votes p v } p d) :
    ∃ as, Run Step s as
      { s with votes := Function.update s.votes p v
               decided := Function.update s.decided p d } := by
  obtain ⟨as, hvote⟩ := run_vote hv
  obtain ⟨bs, hdecide⟩ := run_decide hd
  exact ⟨as ++ bs, hvote.append hdecide⟩

end Step

section Safety

variable {ρ : Type} {s t : State ρ}

/-- Votes are of participants, and decisions have the votes for them. -/
structure Coherent (s : State ρ) : Prop where
  nonempty : ∀ parts, s.parts = some parts → parts.Nonempty
  voters : ∀ p v, s.votes p = some v → ∃ parts, s.parts = some parts ∧ p ∈ parts
  commits : ∀ p, s.decided p = some true →
    ∃ parts, s.parts = some parts ∧ ∀ q ∈ parts, s.votes q = some true
  aborts : ∀ p, s.decided p = some false → ∃ q, s.votes q = some false

theorem coherent_initial : Coherent (initial : State ρ) := by
  constructor <;> simp [initial]

variable [DecidableEq ρ]

theorem Coherent.vote (hs : Coherent s) {parts : Set ρ} {p : ρ} {v : Bool}
    (hparts : s.parts = some parts) (hp : p ∈ parts) (hnone : s.votes p = none) :
    Coherent { s with votes := Function.update s.votes p (some v) } where
  nonempty := hs.nonempty
  voters := by
    intro q w hq
    by_cases hqp : q = p
    · exact ⟨parts, hparts, hqp ▸ hp⟩
    · exact hs.voters q w (by simpa [hqp] using hq)
  commits := by
    intro q hq
    obtain ⟨parts', hparts', hall⟩ := hs.commits q hq
    obtain rfl := Option.some.inj (hparts.symm.trans hparts')
    simp [hall p hp] at hnone
  aborts := by
    intro q hq
    obtain ⟨r, hr⟩ := hs.aborts q hq
    have hne : r ≠ p := by
      rintro rfl
      simp [hr] at hnone
    exact ⟨r, by simpa [hne] using hr⟩

theorem Coherent.decide (hs : Coherent s) {p : ρ} {d : Option Bool}
    (hcommit : d = some true → ∃ parts, s.parts = some parts ∧ ∀ q ∈ parts, s.votes q = some true)
    (habort : d = some false → ∃ q, s.votes q = some false) :
    Coherent { s with decided := Function.update s.decided p d } where
  nonempty := hs.nonempty
  voters := hs.voters
  commits := by
    intro q hq
    by_cases hqp : q = p
    · subst hqp
      exact hcommit (by simpa using hq)
    · exact hs.commits q (by simpa [hqp] using hq)
  aborts := by
    intro q hq
    by_cases hqp : q = p
    · subst hqp
      exact habort (by simpa using hq)
    · exact hs.aborts q (by simpa [hqp] using hq)

theorem coherent_step {a : Action ρ} (h : Step s a t) (hs : Coherent s) : Coherent t := by
  cases h with
  | start hnone hsome =>
    constructor
    · intro parts hparts
      exact Option.some.inj hparts ▸ hsome
    · intro p v hv
      obtain ⟨parts, hparts, -⟩ := hs.voters p v hv
      simp [hnone] at hparts
    · intro p hp
      obtain ⟨parts, hparts, -⟩ := hs.commits p hp
      simp [hnone] at hparts
    · exact hs.aborts
  | withdraw hvotes hdecided => constructor <;> simp [hvotes, hdecided]
  | vote hparts hp hnone => exact hs.vote hparts hp hnone
  | commit hparts hvotes => exact hs.decide (fun _ => ⟨_, hparts, hvotes⟩) (by simp)
  | abort hvote => exact hs.decide (by simp) (fun _ => ⟨_, hvote⟩)
  | leave => exact hs.decide (by simp) (by simp)

theorem coherent_run {as : List (Action ρ)} (h : Run Step s as t) (hs : Coherent s) :
    Coherent t :=
  h.invariant (fun _ _ _ hi hstep => coherent_step hstep hi) hs

/-- A vote is never taken back. -/
theorem vote_step {a : Action ρ} (h : Step s a t) {p : ρ} {v : Bool} (hv : s.votes p = some v) :
    t.votes p = some v := by
  cases h with
  | @vote _ q _ _ _ hnone =>
    have hne : p ≠ q := by
      rintro rfl
      simp [hv] at hnone
    simpa [hne] using hv
  | _ => exact hv

theorem vote_run {as : List (Action ρ)} (h : Run Step s as t) {p : ρ} {v : Bool}
    (hv : s.votes p = some v) : t.votes p = some v :=
  h.invariant (I := fun s => s.votes p = some v) (fun _ _ _ hi hstep => vote_step hstep hi) hv

/-- Once somebody has voted the participants stay. -/
theorem parts_step {a : Action ρ} (h : Step s a t) {parts : Set ρ} {p : ρ} {v : Bool}
    (hparts : s.parts = some parts) (hv : s.votes p = some v) : t.parts = some parts := by
  cases h with
  | start hnone => simp [hnone] at hparts
  | withdraw hvotes => simp [hvotes] at hv
  | _ => exact hparts

theorem parts_run {as : List (Action ρ)} (h : Run Step s as t) {parts : Set ρ} {p : ρ} {v : Bool}
    (hparts : s.parts = some parts) (hv : s.votes p = some v) : t.parts = some parts := by
  have hboth := h.invariant (I := fun s => s.parts = some parts ∧ s.votes p = some v)
    (fun _ _ _ hi hstep => ⟨parts_step hstep hi.1 hi.2, vote_step hstep hi.2⟩) ⟨hparts, hv⟩
  exact hboth.1

/-- No process ever decides against what another one has decided, even if that one has forgotten
it since. -/
theorem decisions_agree {as : List (Action ρ)} (hs : Coherent s) (h : Run Step s as t) {p q : ρ}
    {d : Bool} (hp : s.decided p = some d) : t.decided q ≠ some !d := by
  intro hq
  have ht := coherent_run h hs
  cases d with
  | true =>
    obtain ⟨parts, hparts, hall⟩ := hs.commits p hp
    obtain ⟨c, hc⟩ := hs.nonempty parts hparts
    obtain ⟨r, hr⟩ := ht.aborts q hq
    -- the vote against it is one of a participant, whose vote for it stands
    obtain ⟨parts', hparts', hrp⟩ := ht.voters r false hr
    have hkept := parts_run h hparts (hall c hc)
    obtain rfl := Option.some.inj (hkept.symm.trans hparts')
    have htrue := vote_run h (hall r hrp)
    simp [hr] at htrue
  | false =>
    obtain ⟨r, hr⟩ := hs.aborts p hp
    have hfalse := vote_run h hr
    obtain ⟨parts, hparts, hall⟩ := ht.commits q hq
    obtain ⟨parts', hparts', hrp⟩ := ht.voters r false hfalse
    obtain rfl := Option.some.inj (hparts.symm.trans hparts')
    have htrue := hall r hrp
    simp [hfalse] at htrue

end Safety

end Sidecar.AtomicCommit
