import Sidecar.Coordinator.NonceHistory
import Mathlib.Order.Lattice.Nat

namespace Sidecar.Nonce

/-- One past the highest nonce the lane still knows of. -/
def top (inner : Inner) : Nat := max (liveEnd inner) (inner.recycled.sup (fun n => n + 1))

/-- The nonce lies in the live range of the instance. -/
def Owns (inner : Inner) (id : InstanceId) (n : Nat) : Prop :=
  ∃ range, inner.live.lookup id = some range ∧ range.start ≤ n ∧ n < range.stop

/-- Every nonce from the floor up to the top has one owner or waits to be reissued, and live
ranges keep apart even below the floor. -/
structure Partitioned (inner : Inner) : Prop where
  disjoint : ∀ id id' range range', inner.live.lookup id = some range →
    inner.live.lookup id' = some range' → id ≠ id' →
    range.stop ≤ range'.start ∨ range'.stop ≤ range.start
  exactlyOne : ∀ n, inner.canonicalFloor ≤ n → n < top inner →
    ((∃! id, Owns inner id n) ∧ n ∉ inner.recycled) ∨
      ((∀ id, ¬Owns inner id n) ∧ n ∈ inner.recycled)

private theorem lt_foldr_max (base n : Nat) (l : List Nat) :
    n < l.foldr max base ↔ n < base ∨ ∃ x ∈ l, n < x := by
  induction l with
  | nil => simp
  | cons a l ih =>
    rw [List.foldr_cons, lt_max_iff, ih]
    simp only [List.mem_cons, exists_eq_or_imp]
    exact or_left_comm

/-- What a nonce below the top is bounded by. -/
theorem lt_top_iff (inner : Inner) (n : Nat) :
    n < top inner ↔ n < inner.canonicalFloor ∨
      (∃ id range, inner.live.lookup id = some range ∧ n < range.stop) ∨
      ∃ m ∈ inner.recycled, n ≤ m := by
  have hlive : (∃ x ∈ (Map.values inner.live).map ReservedRange.stop, n < x) ↔
      ∃ id range, inner.live.lookup id = some range ∧ n < range.stop := by
    constructor
    · intro h
      obtain ⟨x, hx, hn⟩ := h
      obtain ⟨range, hr, rfl⟩ := List.mem_map.mp hx
      obtain ⟨id, hid⟩ := (Map.mem_values _ _).mp hr
      exact ⟨id, range, hid, hn⟩
    · intro h
      obtain ⟨id, range, hid, hn⟩ := h
      exact ⟨range.stop, List.mem_map.mpr ⟨range, (Map.mem_values _ _).mpr ⟨id, hid⟩, rfl⟩, hn⟩
  have hrecycled : n < inner.recycled.sup (fun m => m + 1) ↔ ∃ m ∈ inner.recycled, n ≤ m := by
    rw [Finset.lt_sup_iff]
    simp only [Nat.lt_succ_iff]
  rw [top, lt_max_iff, hrecycled, liveEnd, lt_foldr_max, hlive, or_assoc]

theorem lt_top_of_live {inner : Inner} {id : InstanceId} {range : ReservedRange} {n : Nat}
    (hr : inner.live.lookup id = some range) (hn : n < range.stop) : n < top inner :=
  (lt_top_iff inner n).mpr (Or.inr (Or.inl ⟨id, range, hr, hn⟩))

theorem lt_top_of_recycled {inner : Inner} {m n : Nat} (hm : m ∈ inner.recycled) (hn : n ≤ m) :
    n < top inner :=
  (lt_top_iff inner n).mpr (Or.inr (Or.inr ⟨m, hm, hn⟩))

/-- The top rises only by what a live range or a recycled nonce brings in. -/
theorem lt_top_of_sources {inner inner' : Inner} {n : Nat} (hfloor : inner'.canonicalFloor ≤ n)
    (htop : n < top inner')
    (hlive : ∀ id range, inner'.live.lookup id = some range → n < range.stop → n < top inner)
    (hrecycled : ∀ m ∈ inner'.recycled, n ≤ m → n < top inner) : n < top inner := by
  rcases (lt_top_iff inner' n).mp htop with hn | ⟨id, range, hr, hn⟩ | ⟨m, hm, hn⟩
  · exact absurd hn (Nat.not_lt.mpr hfloor)
  · exact hlive id range hr hn
  · exact hrecycled m hm hn

/-- No nonce from the floor up to the top is lost: it is in use or can be reissued. -/
def Covered (inner : Inner) : Prop :=
  ∀ n, inner.canonicalFloor ≤ n → n < top inner → (∃ id, Owns inner id n) ∨ n ∈ inner.recycled

theorem covered_default : Covered {} := by
  intro n hfloor htop
  rcases (lt_top_iff {} n).mp htop with h | ⟨id, range, h, -⟩ | ⟨m, h, -⟩
  · exact absurd h (Nat.not_lt.mpr hfloor)
  · simp at h
  · simp at h

/-- Raising the floor drops only what lies below it. -/
theorem covered_mergeCanonical (inner : Inner) (canonical : Nat) (h : Covered inner) :
    Covered (mergeCanonical inner canonical) := by
  intro n hfloor htop
  have hraised : max inner.canonicalFloor canonical ≤ n := hfloor
  have hold : n < top inner := by
    apply lt_top_of_sources hfloor htop
    · intro id range hr hn
      exact lt_top_of_live ((lookup_mergeCanonical ..).mp hr).1 hn
    · intro m hm hn
      exact lt_top_of_recycled ((mem_recycled_mergeCanonical ..).mp hm).1 hn
  rcases h n ((le_max_left _ _).trans hraised) hold with ⟨id, range, hr, hstart, hstop⟩ | hn
  · left
    have hkept : max inner.canonicalFloor canonical < range.stop := hraised.trans_lt hstop
    exact ⟨id, range, (lookup_mergeCanonical ..).mpr ⟨hr, hkept⟩, hstart, hstop⟩
  · right
    exact (mem_recycled_mergeCanonical ..).mpr ⟨hn, hraised⟩

/-- A picked run leaves no gap below it. -/
theorem lt_top_of_lt_pickStart (inner : Inner) (count n : Nat) (h : n < pickStart inner count) :
    n < top inner := by
  rcases pickStart_cases inner count with ⟨-, hm⟩ | he
  · exact lt_top_of_recycled hm h.le
  · rw [he] at h
    exact h.trans_le (le_max_left _ _)

theorem covered_claim (inner : Inner) (id : InstanceId) (count : Nat) (h : Covered inner)
    (hfree : inner.live.lookup id = none) :
    Covered (claim inner id (pickStart inner count) count) := by
  intro n hfloor htop
  by_cases hnew : pickStart inner count ≤ n ∧ n < saturatingAdd (pickStart inner count) count
  · left
    refine ⟨id, ⟨pickStart inner count, saturatingAdd (pickStart inner count) count⟩, ?_, hnew⟩
    rw [lookup_claim, if_pos rfl]
  · have hold : n < top inner := by
      apply lt_top_of_sources hfloor htop
      · intro id' range hr hn
        rw [lookup_claim] at hr
        split_ifs at hr with hid
        · obtain rfl := Option.some.inj hr
          have hbelow : n < pickStart inner count := by
            by_contra hge
            exact hnew ⟨Nat.le_of_not_lt hge, hn⟩
          exact lt_top_of_lt_pickStart inner count n hbelow
        · exact lt_top_of_live hr hn
      · intro m hm hn
        exact lt_top_of_recycled ((mem_recycled_claim ..).mp hm).1 hn
    rcases h n hfloor hold with ⟨id', range, hr, hin⟩ | hn
    · left
      have hne : id' ≠ id := by
        intro he
        rw [he, hfree] at hr
        simp at hr
      refine ⟨id', range, ?_, hin⟩
      rw [lookup_claim, if_neg hne]
      exact hr
    · right
      exact (mem_recycled_claim ..).mpr ⟨hn, hnew⟩

/-- A reservation that is taken out leaves the bounds of the others. -/
theorem lookup_of_erased {inner : Inner} {id id' : InstanceId} {range : ReservedRange}
    (h : (inner.live.erase id).lookup id' = some range) :
    id' ≠ id ∧ inner.live.lookup id' = some range := by
  rw [Map.lookup_erase_eq] at h
  split_ifs at h with hid
  exact ⟨hid, h⟩

theorem covered_releaseConfirmed (inner : Inner) (id : InstanceId) (h : Covered inner) :
    Covered (releaseConfirmed inner id) := by
  unfold releaseConfirmed
  cases hl : inner.live.lookup id with
  | none => exact h
  | some range =>
    intro n hfloor htop
    have hraised : max inner.canonicalFloor range.stop ≤ n := hfloor
    have hold : n < top inner := by
      apply lt_top_of_sources hfloor htop
      · intro id' range' hr hn
        exact lt_top_of_live (lookup_of_erased hr).2 hn
      · intro m hm hn
        exact lt_top_of_recycled hm hn
    rcases h n ((le_max_left _ _).trans hraised) hold with ⟨id', range', hr, hstart, hstop⟩ | hn
    · left
      have hne : id' ≠ id := by
        intro he
        rw [he, hl] at hr
        obtain rfl := Option.some.inj hr
        exact absurd hstop (Nat.not_lt.mpr ((le_max_right _ _).trans hraised))
      refine ⟨id', range', ?_, hstart, hstop⟩
      rw [Map.lookup_erase_eq, if_neg hne]
      exact hr
    · exact Or.inr hn

theorem covered_releaseAborted (inner : Inner) (id : InstanceId) (h : Covered inner) :
    Covered (releaseAborted inner id) := by
  intro n hfloor htop
  have hold : n < top inner := by
    apply lt_top_of_sources hfloor htop
    · intro id' range' hr hn
      rw [lookup_releaseAborted] at hr
      split_ifs at hr
      exact lt_top_of_live hr hn
    · intro m hm hn
      rcases (mem_recycled_releaseAborted ..).mp hm with hm | ⟨⟨range, hl, -, hhigh⟩, -⟩
      · exact lt_top_of_recycled hm hn
      · exact lt_top_of_live hl (hn.trans_lt hhigh)
  rw [floor_releaseAborted] at hfloor
  rcases h n hfloor hold with ⟨id', range', hr, hin⟩ | hn
  · by_cases he : id' = id
    · right
      exact (mem_recycled_releaseAborted ..).mpr (Or.inr ⟨⟨range', he ▸ hr, hin⟩, hfloor⟩)
    · left
      refine ⟨id', range', ?_, hin⟩
      rw [lookup_releaseAborted, if_neg he]
      exact hr
  · exact Or.inr ((mem_recycled_releaseAborted ..).mpr (Or.inl hn))

theorem covered_step (s : Inner) (c : Call) (t : Inner) (h : Covered s) (hs : Step s c t) :
    Covered t := by
  obtain ⟨hl, rfl⟩ := hs
  cases c with
  | reserve id count fetched =>
    cases fetched with
    | error err => exact h
    | ok canonical =>
      have hfree : (mergeCanonical s canonical).live.lookup id = none := by
        rw [Option.eq_none_iff_forall_not_mem]
        intro range hr
        have hlive := ((lookup_mergeCanonical s canonical id range).mp hr).1
        simp [hl.2.1] at hlive
      exact covered_claim _ id count (covered_mergeCanonical s canonical h) hfree
  | releaseConfirmed id => exact covered_releaseConfirmed s id h
  | releaseAborted id => exact covered_releaseAborted s id h
  | reset => exact covered_default

/-- Ranges that keep apart and cover the lane partition it. -/
theorem partitioned_of_covered {inner : Inner} (hlane : Lane inner) (hcovered : Covered inner) :
    Partitioned inner := by
  refine ⟨hlane.disjoint, ?_⟩
  intro n hfloor htop
  have hunused : ∀ id, Owns inner id n → n ∉ inner.recycled := by
    intro id howns hn
    obtain ⟨range, hr, hstart, hstop⟩ := howns
    have hout := hlane.unused id range n hr hn
    omega
  rcases hcovered n hfloor htop with ⟨id, howns⟩ | hn
  · left
    refine ⟨⟨id, howns, ?_⟩, hunused id howns⟩
    intro id' howns'
    by_contra hne
    obtain ⟨range, hr, hstart, hstop⟩ := howns
    obtain ⟨range', hr', hstart', hstop'⟩ := howns'
    have hapart := hlane.disjoint id' id range' range hr' hr hne
    omega
  · exact Or.inr ⟨fun id howns => hunused id howns hn, hn⟩

/-- The lane has no holes: in every state reached from the empty one, each nonce from the floor
up to the top is in exactly one live range or in the recycled set. -/
theorem nonce_lane_partitioned {calls : List Call} {inner : Inner}
    (hrun : Run Step {} calls inner) : Partitioned inner := by
  have hlane : Lane inner := hrun.invariant lane_step lane_default
  have hcovered : Covered inner := hrun.invariant covered_step covered_default
  exact partitioned_of_covered hlane hcovered

/-- A recycled nonce lies above the live ranges when a longer run swallows it, and the next
canonical nonce falls into the middle of that run. -/
def swallowingHistory : List Call :=
  [.reserve "a" 1 (.ok 5), .reserve "b" 2 (.ok 5), .releaseAborted "b", .reserve "c" 3 (.ok 5),
    .reserve "d" 1 (.ok 8), .releaseAborted "c"]

theorem nonce_lane_partitioned_swallowed :
    (exec {} (swallowingHistory.take 4)).live.lookup "c" = some ⟨6, 9⟩ ∧
      (exec {} swallowingHistory).canonicalFloor = 8 ∧ top (exec {} swallowingHistory) = 10 ∧
      (exec {} swallowingHistory).recycled = {8} ∧ Partitioned (exec {} swallowingHistory) := by
  have hrun : Run Step {} swallowingHistory (exec {} swallowingHistory) :=
    .cons ⟨⟨by decide, by decide, by decide⟩, rfl⟩ <|
    .cons ⟨⟨by decide, by decide, by decide⟩, rfl⟩ <|
    .cons ⟨trivial, rfl⟩ <|
    .cons ⟨⟨by decide, by decide, by decide⟩, rfl⟩ <|
    .cons ⟨⟨by decide, by decide, by decide⟩, rfl⟩ <|
    .cons ⟨trivial, rfl⟩ (.nil _)
  exact ⟨by decide, by decide, by decide, by decide, nonce_lane_partitioned hrun⟩

end Sidecar.Nonce
