import Sidecar.Model.Primitives
import Mathlib.Data.Finset.Max
import Mathlib.Order.Interval.Finset.Nat

namespace Sidecar.Nonce

/-- A half-open run of nonces `[start, stop)` owned by one instance. -/
structure ReservedRange where
  start : Nat
  stop : Nat
  deriving DecidableEq

/-- The lane of the `putInbox` signer. The floor only grows between resets. -/
structure Inner where
  canonicalFloor : Nat := 0
  initialized : Bool := false
  live : Map InstanceId ReservedRange := ∅
  recycled : Finset Nat := ∅

/-- One past the highest nonce that is in use or below the floor. -/
def liveEnd (inner : Inner) : Nat :=
  ((Map.values inner.live).map ReservedRange.stop).foldr max inner.canonicalFloor

/-- First half of `reserve`: merge the fetched canonical nonce and trim what it passed. -/
def mergeCanonical (inner : Inner) (canonical : Nat) : Inner :=
  let floor := max inner.canonicalFloor canonical
  { canonicalFloor := floor
    initialized := true
    live := Map.retain (fun _ range => floor < range.stop) inner.live
    recycled := inner.recycled.filter (fun n => floor ≤ n) }

/-- A single nonce takes the smallest recycled one first; longer runs never do. -/
def pickStart (inner : Inner) (count : Nat) : Nat :=
  if count = 1 then inner.recycled.min.untopD (liveEnd inner) else liveEnd inner

/-- Second half of `reserve`: take `count` nonces from `start` for the instance. -/
def claim (inner : Inner) (id : InstanceId) (start count : Nat) : Inner :=
  let stop := saturatingAdd start count
  { inner with
    recycled := inner.recycled \ Finset.Ico start stop
    live := inner.live.insert id ⟨start, stop⟩ }

/-- `fetched` is the answer of `fetch_canonical`, awaited under the lock; when it fails
nothing has changed yet. -/
def reserve (inner : Inner) (id : InstanceId) (count : Nat)
    (fetched : Except CoordinatorError Nat) : Except CoordinatorError Nat × Inner :=
  match fetched with
  | .error err => (.error err, inner)
  | .ok canonical =>
    let trimmed := mergeCanonical inner canonical
    let start := pickStart trimmed count
    (.ok start, claim trimmed id start count)

def releaseConfirmed (inner : Inner) (id : InstanceId) : Inner :=
  match inner.live.lookup id with
  | none => inner
  | some range =>
    { inner with
      live := inner.live.erase id
      canonicalFloor := max inner.canonicalFloor range.stop }

def releaseAborted (inner : Inner) (id : InstanceId) : Inner :=
  match inner.live.lookup id with
  | none => inner
  | some range =>
    { inner with
      live := inner.live.erase id
      recycled := inner.recycled ∪
        (Finset.Ico range.start range.stop).filter (fun n => inner.canonicalFloor ≤ n) }

/-- The chain moved backwards: every reservation and the floor are forgotten. -/
def reset (_ : Inner) : Inner := {}

private theorem le_foldr_max (base : Nat) (l : List Nat) :
    base ≤ l.foldr max base ∧ ∀ x ∈ l, x ≤ l.foldr max base := by
  induction l with
  | nil => exact ⟨le_refl _, by simp⟩
  | cons a l ih =>
    refine ⟨ih.1.trans (le_max_right _ _), ?_⟩
    intro x hx
    rcases List.mem_cons.mp hx with rfl | hx
    · exact le_max_left _ _
    · exact (ih.2 x hx).trans (le_max_right _ _)

theorem floor_le_liveEnd (inner : Inner) : inner.canonicalFloor ≤ liveEnd inner :=
  (le_foldr_max _ _).1

theorem stop_le_liveEnd (inner : Inner) (id : InstanceId) (range : ReservedRange)
    (h : inner.live.lookup id = some range) : range.stop ≤ liveEnd inner := by
  apply (le_foldr_max _ _).2
  exact List.mem_map.mpr ⟨range, (Map.mem_values _ _).mpr ⟨id, h⟩, rfl⟩

theorem lookup_mergeCanonical (inner : Inner) (canonical : Nat) (id : InstanceId)
    (range : ReservedRange) :
    (mergeCanonical inner canonical).live.lookup id = some range ↔
      inner.live.lookup id = some range ∧ max inner.canonicalFloor canonical < range.stop := by
  simp [mergeCanonical, Map.lookup_retain, Option.filter_eq_some_iff]

theorem mem_recycled_mergeCanonical (inner : Inner) (canonical n : Nat) :
    n ∈ (mergeCanonical inner canonical).recycled ↔
      n ∈ inner.recycled ∧ max inner.canonicalFloor canonical ≤ n := by
  simp [mergeCanonical]

theorem lookup_claim (inner : Inner) (id id' : InstanceId) (start count : Nat) :
    (claim inner id start count).live.lookup id' =
      if id' = id then some ⟨start, saturatingAdd start count⟩ else inner.live.lookup id' := by
  simp only [claim, Map.lookup_insert_eq]

theorem mem_recycled_claim (inner : Inner) (id : InstanceId) (start count n : Nat) :
    n ∈ (claim inner id start count).recycled ↔
      n ∈ inner.recycled ∧ ¬(start ≤ n ∧ n < saturatingAdd start count) := by
  simp [claim]

@[simp] theorem lookup_releaseAborted (inner : Inner) (id id' : InstanceId) :
    (releaseAborted inner id).live.lookup id' = if id' = id then none else inner.live.lookup id' := by
  unfold releaseAborted
  split
  · next hnone =>
    split_ifs with hid
    · rw [hid, hnone]
    · rfl
  · exact Map.lookup_erase_eq _ _ _

@[simp] theorem floor_releaseAborted (inner : Inner) (id : InstanceId) :
    (releaseAborted inner id).canonicalFloor = inner.canonicalFloor := by
  unfold releaseAborted
  split <;> rfl

theorem mem_recycled_releaseAborted (inner : Inner) (id : InstanceId) (n : Nat) :
    n ∈ (releaseAborted inner id).recycled ↔
      n ∈ inner.recycled ∨
        (∃ range, inner.live.lookup id = some range ∧ range.start ≤ n ∧ n < range.stop) ∧
          inner.canonicalFloor ≤ n := by
  unfold releaseAborted
  cases hl : inner.live.lookup id with
  | none => simp
  | some range =>
    simp only [Finset.mem_union, Finset.mem_filter, Finset.mem_Ico, Option.some.injEq,
      exists_eq_left']

/-- Where a reservation can start: at a recycled nonce, alone, or past everything live. -/
theorem pickStart_cases (inner : Inner) (count : Nat) :
    (count = 1 ∧ pickStart inner count ∈ inner.recycled) ∨
      pickStart inner count = liveEnd inner := by
  unfold pickStart
  split_ifs with hc
  · rcases inner.recycled.eq_empty_or_nonempty with he | hne
    · right
      simp [he]
    · left
      obtain ⟨n, hn⟩ := Finset.min_of_nonempty hne
      rw [hn]
      exact ⟨hc, Finset.mem_of_min hn⟩
  · right
    rfl

theorem saturatingAdd_of_lt {a b : Nat} (h : a + b < 2 ^ 64) : saturatingAdd a b = a + b := by
  unfold saturatingAdd u64Max
  omega

/-- Live ranges do not overlap and no recycled nonce is in use. -/
structure Lane (inner : Inner) : Prop where
  disjoint : ∀ id id' range range', inner.live.lookup id = some range →
    inner.live.lookup id' = some range' → id ≠ id' →
    range.stop ≤ range'.start ∨ range'.stop ≤ range.start
  unused : ∀ id range n, inner.live.lookup id = some range → n ∈ inner.recycled →
    n < range.start ∨ range.stop ≤ n

theorem lane_default : Lane {} :=
  ⟨fun _ _ _ _ h => by simp at h, fun _ _ _ h => by simp at h⟩

theorem lane_mergeCanonical (inner : Inner) (canonical : Nat) (h : Lane inner) :
    Lane (mergeCanonical inner canonical) := by
  constructor
  · intro id id' range range' hr hr' hne
    exact h.disjoint id id' range range' ((lookup_mergeCanonical ..).mp hr).1
      ((lookup_mergeCanonical ..).mp hr').1 hne
  · intro id range n hr hn
    exact h.unused id range n ((lookup_mergeCanonical ..).mp hr).1
      ((mem_recycled_mergeCanonical ..).mp hn).1

/-- The picked run stays clear of every live range. -/
theorem pickStart_clear (inner : Inner) (count : Nat) (h : Lane inner) (id : InstanceId)
    (range : ReservedRange) (hr : inner.live.lookup id = some range) :
    range.stop ≤ pickStart inner count ∨ pickStart inner count + count ≤ range.start := by
  rcases pickStart_cases inner count with ⟨hc, hm⟩ | he
  · have hu := h.unused id range _ hr hm
    omega
  · left
    rw [he]
    exact stop_le_liveEnd inner id range hr

/-- The picked run starts at or above the floor. -/
theorem floor_le_pickStart (inner : Inner) (count : Nat)
    (h : ∀ n ∈ inner.recycled, inner.canonicalFloor ≤ n) :
    inner.canonicalFloor ≤ pickStart inner count := by
  rcases pickStart_cases inner count with ⟨-, hm⟩ | he
  · exact h _ hm
  · rw [he]
    exact floor_le_liveEnd inner

theorem lane_claim (inner : Inner) (id : InstanceId) (start count : Nat) (h : Lane inner)
    (hfit : start + count < 2 ^ 64)
    (hclear : ∀ id' range, inner.live.lookup id' = some range →
      range.stop ≤ start ∨ start + count ≤ range.start) :
    Lane (claim inner id start count) := by
  have hs := saturatingAdd_of_lt hfit
  constructor
  · intro a b ra rb ha hb hne
    rw [lookup_claim, hs] at ha hb
    split_ifs at ha hb with hai hbi hbi
    · exact absurd (hai.trans hbi.symm) hne
    · obtain rfl := Option.some.inj ha
      exact (hclear b rb hb).symm
    · obtain rfl := Option.some.inj hb
      exact hclear a ra ha
    · exact h.disjoint a b ra rb ha hb hne
  · intro a ra n ha hn
    rw [mem_recycled_claim, hs] at hn
    rw [lookup_claim, hs] at ha
    split_ifs at ha with hai
    · obtain rfl := Option.some.inj ha
      have hout := hn.2
      dsimp only
      omega
    · exact h.unused a ra n ha hn.1

theorem lane_releaseConfirmed (inner : Inner) (id : InstanceId) (h : Lane inner) :
    Lane (releaseConfirmed inner id) := by
  unfold releaseConfirmed
  cases hl : inner.live.lookup id with
  | none => exact h
  | some range =>
    constructor
    · intro a b ra rb ha hb hne
      rw [Map.lookup_erase_eq] at ha hb
      split_ifs at ha hb
      exact h.disjoint a b ra rb ha hb hne
    · intro a ra n ha hn
      rw [Map.lookup_erase_eq] at ha
      split_ifs at ha
      exact h.unused a ra n ha hn

theorem lane_releaseAborted (inner : Inner) (id : InstanceId) (h : Lane inner) :
    Lane (releaseAborted inner id) := by
  constructor
  · intro a b ra rb ha hb hne
    rw [lookup_releaseAborted] at ha hb
    split_ifs at ha hb
    exact h.disjoint a b ra rb ha hb hne
  · intro a ra n ha hn
    rw [lookup_releaseAborted] at ha
    split_ifs at ha with hai
    rcases (mem_recycled_releaseAborted ..).mp hn with hn | ⟨⟨range, hl, hlow, hhigh⟩, -⟩
    · exact h.unused a ra n ha hn
    · have hd := h.disjoint a id ra range ha hl hai
      omega

end Sidecar.Nonce
