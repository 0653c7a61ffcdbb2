import Mathlib.Algebra.Ring.Nat
import Mathlib.Data.List.AList
import Mathlib.Data.List.Perm.Subperm

namespace Sidecar

/-- Finite maps with distinct keys. The entry order stands for the iteration order of
a hash map, so no result about contents may depend on it. -/
abbrev Map (κ ν : Type) := AList (fun _ : κ => ν)

namespace Map

variable {κ ν : Type}

def values (m : Map κ ν) : List ν := m.entries.map Sigma.snd

/-- Rewrites every value in place, as a loop over mutable values does. -/
def mapVals (f : κ → ν → ν) (m : Map κ ν) : Map κ ν :=
  ⟨m.entries.map (Sigma.map id f), List.NodupKeys.map₂ f m.entries m.nodupKeys⟩

/-- Keeps the entries that satisfy the test. -/
def retain (p : κ → ν → Bool) (m : Map κ ν) : Map κ ν :=
  ⟨m.entries.filter (fun e => p e.1 e.2), m.nodupKeys.sublist List.filter_sublist⟩

theorem values_mapVals (f : ν → ν) (m : Map κ ν) :
    values (mapVals (fun _ v => f v) m) = (values m).map f := by
  simp only [values, mapVals, List.map_map]
  rfl

theorem values_retain (p : ν → Bool) (m : Map κ ν) :
    values (retain (fun _ v => p v) m) = (values m).filter p := by
  simp only [values, retain, List.filter_map]
  rfl

variable [DecidableEq κ]

/-- Equality of maps is equality of their entries, decided by computation. -/
instance decidableEq [DecidableEq ν] : DecidableEq (Map κ ν) :=
  fun m m' => decidable_of_iff (m.entries = m'.entries) AList.ext_iff.symm

/-- Rewrites the value under one key and does nothing when the key is absent. -/
def update (k : κ) (f : ν → ν) (m : Map κ ν) : Map κ ν :=
  mapVals (fun k' v => if k' = k then f v else v) m

theorem mem_values (m : Map κ ν) (v : ν) : v ∈ values m ↔ ∃ k, m.lookup k = some v := by
  constructor
  · intro h
    obtain ⟨e, he, rfl⟩ := List.mem_map.mp h
    exact ⟨e.1, (List.mem_dlookup_iff m.nodupKeys).mpr he⟩
  · intro h
    obtain ⟨k, hk⟩ := h
    exact List.mem_map.mpr ⟨⟨k, v⟩, (List.mem_dlookup_iff m.nodupKeys).mp hk, rfl⟩

theorem mem_of_lookup {m : Map κ ν} {k : κ} {v : ν} (h : m.lookup k = some v) : k ∈ m := by
  rw [← AList.lookup_isSome, h]
  rfl

theorem lookup_of_mem {m : Map κ ν} {k : κ} (h : k ∈ m) : ∃ v, m.lookup k = some v :=
  Option.isSome_iff_exists.mp (AList.lookup_isSome.mpr h)

@[simp] theorem lookup_mapVals (f : κ → ν → ν) (m : Map κ ν) (k : κ) :
    (mapVals f m).lookup k = (m.lookup k).map (f k) :=
  List.dlookup_map₂ k

theorem lookup_retain (p : κ → ν → Bool) (m : Map κ ν) (k : κ) :
    (retain p m).lookup k = (m.lookup k).filter (p k) := by
  apply Option.ext
  intro v
  have hf : v ∈ (retain p m).lookup k ↔ (⟨k, v⟩ : Σ _ : κ, ν) ∈ (retain p m).entries :=
    List.mem_dlookup_iff (retain p m).nodupKeys
  have hm : v ∈ m.lookup k ↔ (⟨k, v⟩ : Σ _ : κ, ν) ∈ m.entries :=
    List.mem_dlookup_iff m.nodupKeys
  simp only [← Option.mem_def]
  rw [hf]
  simp only [retain, List.mem_filter, ← hm, Option.mem_def, Option.filter_eq_some_iff]

theorem lookup_update (k k' : κ) (f : ν → ν) (m : Map κ ν) :
    (update k f m).lookup k' = if k' = k then (m.lookup k').map f else m.lookup k' := by
  rw [update, lookup_mapVals]
  split_ifs with h
  · rfl
  · exact Option.map_id'

@[simp] theorem lookup_update_self (k : κ) (f : ν → ν) (m : Map κ ν) :
    (update k f m).lookup k = (m.lookup k).map f := by
  rw [lookup_update, if_pos rfl]

theorem update_update (k : κ) (f g : ν → ν) (m : Map κ ν) :
    update k f (update k g m) = update k (f ∘ g) m := by
  apply AList.ext
  simp only [update, mapVals, List.map_map]
  refine List.map_congr_left (fun e _ => ?_)
  by_cases h : e.1 = k
  · simp [Sigma.map, h]
  · simp [Sigma.map, h]

theorem lookup_insert_eq (k k' : κ) (v : ν) (m : Map κ ν) :
    (m.insert k v).lookup k' = if k' = k then some v else m.lookup k' := by
  split_ifs with h
  · rw [h, AList.lookup_insert]
  · exact AList.lookup_insert_ne h

theorem lookup_erase_eq (k k' : κ) (m : Map κ ν) :
    (m.erase k).lookup k' = if k' = k then none else m.lookup k' := by
  split_ifs with h
  · rw [h, AList.lookup_erase]
  · exact AList.lookup_erase_ne h

theorem erase_of_lookup {m : Map κ ν} {k : κ} (h : m.lookup k = none) : m.erase k = m :=
  AList.ext (List.kerase_of_notMem_keys (AList.lookup_eq_none.mp h))

theorem lookup_singleton_eq (k k' : κ) (v : ν) :
    (AList.singleton k v : Map κ ν).lookup k' = if k' = k then some v else none := by
  by_cases h : k' = k
  · rw [if_pos h, h]
    exact List.dlookup_cons_eq (β := fun _ => ν) [] k v
  · rw [if_neg h]
    exact List.dlookup_cons_ne (β := fun _ => ν) [] ⟨k, v⟩ h

theorem mem_singleton_iff (k k' : κ) (v : ν) : k' ∈ (AList.singleton k v : Map κ ν) ↔ k' = k := by
  rw [← AList.lookup_isSome, lookup_singleton_eq]
  split_ifs with h <;> simp [h]

/-- How many values pass a test does not depend on the entry order. -/
theorem countP_values_congr {m m' : Map κ ν} {p : ν → Bool}
    (h : ∀ k, (m.lookup k).map p = (m'.lookup k).map p) :
    (values m).countP p = (values m').countP p := by
  have hcount : ∀ m : Map κ ν, (values m).countP p =
      (m.entries.map (fun e => (e.1, p e.2))).countP Prod.snd := by
    intro m
    rw [values, List.countP_map, List.countP_map]
    rfl
  have hnodup : ∀ m : Map κ ν, (m.entries.map (fun e => (e.1, p e.2))).Nodup := by
    intro m
    have hkeys : (m.entries.map Sigma.fst).Nodup := m.nodupKeys
    refine List.Nodup.of_map Prod.fst ?_
    rw [List.map_map]
    exact hkeys
  have hmem : ∀ (m : Map κ ν) (k : κ) (b : Bool),
      (k, b) ∈ m.entries.map (fun e => (e.1, p e.2)) ↔ (m.lookup k).map p = some b := by
    intro m k b
    rw [List.mem_map, Option.map_eq_some_iff]
    constructor
    · intro he
      obtain ⟨e, he, heq⟩ := he
      obtain ⟨rfl, rfl⟩ := Prod.mk.inj heq
      exact ⟨e.2, (List.mem_dlookup_iff m.nodupKeys).mpr he, rfl⟩
    · intro hv
      obtain ⟨v, hv, rfl⟩ := hv
      exact ⟨⟨k, v⟩, (List.mem_dlookup_iff m.nodupKeys).mp hv, rfl⟩
  rw [hcount m, hcount m']
  refine List.Perm.countP_eq _ ((List.perm_ext_iff_of_nodup (hnodup m) (hnodup m')).mpr ?_)
  intro e
  rw [hmem m e.1 e.2, hmem m' e.1 e.2, h e.1]

/-- The values that pass a test are at most those of another map and the extra keys. -/
theorem countP_values_le {m m' : Map κ ν} {p : ν → Bool} (extra : List κ)
    (h : ∀ k v, m'.lookup k = some v → p v = true →
      k ∈ extra ∨ ∃ w, m.lookup k = some w ∧ p w = true) :
    (values m').countP p ≤ extra.length + (values m).countP p := by
  have hcount : ∀ m : Map κ ν, (values m).countP p =
      ((m.entries.filter (fun e => p e.2)).map Sigma.fst).length := by
    intro m
    rw [values, List.countP_map, List.length_map, List.countP_eq_length_filter]
    rfl
  have hmem : ∀ (m : Map κ ν) (k : κ), k ∈ (m.entries.filter (fun e => p e.2)).map Sigma.fst ↔
      ∃ v, m.lookup k = some v ∧ p v = true := by
    intro m k
    simp only [List.mem_map, List.mem_filter]
    constructor
    · intro he
      obtain ⟨e, ⟨he, hp⟩, rfl⟩ := he
      exact ⟨e.2, (List.mem_dlookup_iff m.nodupKeys).mpr he, hp⟩
    · intro hv
      obtain ⟨v, hv, hp⟩ := hv
      exact ⟨⟨k, v⟩, ⟨(List.mem_dlookup_iff m.nodupKeys).mp hv, hp⟩, rfl⟩
  have hkeys : ((m'.entries.filter (fun e => p e.2)).map Sigma.fst).Nodup :=
    m'.nodupKeys.sublist List.filter_sublist
  rw [hcount m, hcount m', ← List.length_append]
  refine (List.Nodup.subperm hkeys ?_).length_le
  intro k hk
  obtain ⟨v, hv, hp⟩ := (hmem m' k).mp hk
  rcases h k v hv hp with hextra | hold
  · exact List.mem_append_left _ hextra
  · exact List.mem_append_right _ ((hmem m k).mpr hold)

theorem countP_values_erase (k : κ) (m : Map κ ν) (p : ν → Bool) :
    (values (m.erase k)).countP p + (m.lookup k).toList.countP p = (values m).countP p := by
  cases hl : m.lookup k with
  | none =>
    rw [erase_of_lookup hl]
    rfl
  | some v =>
    obtain ⟨w, before, after, -, hsplit, herase⟩ := List.exists_of_kerase (mem_of_lookup hl)
    have hv : w = v := by
      have hw : m.lookup k = some w :=
        (List.mem_dlookup_iff m.nodupKeys).mpr (by rw [hsplit]; simp)
      exact Option.some.inj (hw.symm.trans hl)
    have hrest : (m.erase k).entries = before ++ after := herase
    rw [values, values, hrest, hsplit, hv]
    simp only [List.map_append, List.map_cons, List.countP_append, List.countP_cons,
      Option.toList_some, List.countP_nil]
    omega

/-- The values of maps that agree outside one key differ by what the key holds. -/
theorem countP_values_change {m m' : Map κ ν} {p : ν → Bool} (k : κ)
    (h : ∀ k', k' ≠ k → (m'.lookup k').map p = (m.lookup k').map p) :
    (values m').countP p + (m.lookup k).toList.countP p =
      (values m).countP p + (m'.lookup k).toList.countP p := by
  have hrest : (values (m'.erase k)).countP p = (values (m.erase k)).countP p := by
    refine countP_values_congr (fun k' => ?_)
    rw [lookup_erase_eq, lookup_erase_eq]
    split_ifs with hk
    · rfl
    · exact h k' hk
  have hbefore := countP_values_erase k m p
  have hafter := countP_values_erase k m' p
  omega

theorem length_keys_insert_le (k : κ) (v : ν) (m : Map κ ν) :
    (m.insert k v).keys.length ≤ m.keys.length + 1 := by
  rw [AList.keys_insert, List.length_cons]
  exact Nat.succ_le_succ List.length_erase_le

theorem length_keys_erase_le (k : κ) (m : Map κ ν) :
    (m.erase k).keys.length ≤ m.keys.length := by
  rw [AList.keys_erase]
  exact List.length_erase_le

omit [DecidableEq κ] in
theorem length_keys_retain_le (p : κ → ν → Bool) (m : Map κ ν) :
    (retain p m).keys.length ≤ m.keys.length := by
  simp only [AList.keys, List.keys, retain, List.length_map]
  exact List.length_filter_le _ _

theorem length_keys_update (k : κ) (f : ν → ν) (m : Map κ ν) :
    (update k f m).keys.length = m.keys.length := by
  simp only [AList.keys, List.keys, update, mapVals, List.length_map]

/-- A loop over entries that rewrites, at each entry, only the value under its key. -/
theorem lookup_foldl {μ : Type} {f : Map κ ν → (Σ _ : κ, μ) → Map κ ν}
    {g : κ → μ → Option ν → Option ν}
    (hf : ∀ acc e k, (f acc e).lookup k = if k = e.1 then g k e.2 (acc.lookup k) else acc.lookup k)
    (l : List (Σ _ : κ, μ)) (hnd : l.NodupKeys) (acc : Map κ ν) (k : κ) :
    (l.foldl f acc).lookup k =
      (List.dlookup k l).elim (acc.lookup k) (fun v => g k v (acc.lookup k)) := by
  induction l generalizing acc with
  | nil => rfl
  | cons e l ih =>
    have hcons := List.nodupKeys_cons.mp hnd
    have hstep := hf acc e k
    rw [List.foldl_cons, ih hcons.2]
    by_cases hk : k = e.1
    · have hgone : List.dlookup k l = none := List.dlookup_eq_none.mpr (hk ▸ hcons.1)
      rw [if_pos hk] at hstep
      rw [hgone, Option.elim_none, hstep]
      subst hk
      rw [List.dlookup_cons_eq]
      rfl
    · rw [if_neg hk] at hstep
      rw [List.dlookup_cons_ne _ _ hk, hstep]

/-- A loop that merges every entry into what its key holds, or puts it in as it is. -/
theorem lookup_foldl_merge (merge : ν → ν → ν) (base overlay : Map κ ν) (k : κ) :
    (overlay.entries.foldl
      (fun (acc : Map κ ν) e =>
        if e.1 ∈ acc then update e.1 (fun v => merge v e.2) acc else acc.insert e.1 e.2)
      base).lookup k =
      (overlay.lookup k).elim (base.lookup k)
        (fun v => some ((base.lookup k).elim v (fun b => merge b v))) := by
  have hstep : ∀ (acc : Map κ ν) (e : Σ _ : κ, ν) (k : κ),
      (if e.1 ∈ acc then update e.1 (fun v => merge v e.2) acc else acc.insert e.1 e.2).lookup k =
      if k = e.1 then some ((acc.lookup k).elim e.2 (fun b => merge b e.2)) else acc.lookup k := by
    intro acc e k
    by_cases hm : e.1 ∈ acc
    · rw [if_pos hm, lookup_update]
      by_cases hk : k = e.1
      · obtain ⟨b, hb⟩ := lookup_of_mem hm
        rw [if_pos hk, if_pos hk, hk, hb]
        rfl
      · rw [if_neg hk, if_neg hk]
    · rw [if_neg hm, lookup_insert_eq]
      by_cases hk : k = e.1
      · rw [if_pos hk, if_pos hk, hk, AList.lookup_eq_none.mpr hm]
        rfl
      · rw [if_neg hk, if_neg hk]
  exact lookup_foldl (g := fun _ v o => some (o.elim v (fun b => merge b v))) hstep overlay.entries
    overlay.nodupKeys base k

/-- Inserts one entry after another; a later one replaces an earlier one under its key. -/
def insertAll (entries : List (κ × ν)) (m : Map κ ν) : Map κ ν :=
  entries.foldl (fun acc e => acc.insert e.1 e.2) m

theorem insertAll_append (entries more : List (κ × ν)) (m : Map κ ν) :
    insertAll (entries ++ more) m = insertAll more (insertAll entries m) :=
  List.foldl_append

theorem mem_insertAll (entries : List (κ × ν)) (m : Map κ ν) (k : κ) :
    k ∈ insertAll entries m ↔ k ∈ entries.map Prod.fst ∨ k ∈ m := by
  induction entries generalizing m with
  | nil => simp [insertAll]
  | cons e entries ih =>
    have hstep : insertAll (e :: entries) m = insertAll entries (m.insert e.1 e.2) := rfl
    rw [hstep, ih, AList.mem_insert, List.map_cons, List.mem_cons]
    tauto

theorem lookup_insertAll_of_not_mem {entries : List (κ × ν)} {k : κ}
    (h : k ∉ entries.map Prod.fst) (m : Map κ ν) :
    (insertAll entries m).lookup k = m.lookup k := by
  induction entries generalizing m with
  | nil => rfl
  | cons e entries ih =>
    have hparts := not_or.mp (fun hk => h (List.mem_cons.mpr hk))
    have hstep : insertAll (e :: entries) m = insertAll entries (m.insert e.1 e.2) := rfl
    rw [hstep, ih hparts.2, AList.lookup_insert_ne hparts.1]

/-- Entries under different keys are all found. -/
theorem lookup_insertAll {entries : List (κ × ν)} (hkeys : (entries.map Prod.fst).Nodup)
    (m : Map κ ν) {k : κ} {v : ν} (h : (k, v) ∈ entries) :
    (insertAll entries m).lookup k = some v := by
  induction entries generalizing m with
  | nil => simp at h
  | cons e entries ih =>
    have hcons := List.nodup_cons.mp hkeys
    have hstep : insertAll (e :: entries) m = insertAll entries (m.insert e.1 e.2) := rfl
    rw [hstep]
    rcases List.mem_cons.mp h with hhead | htail
    · rw [← hhead] at hcons ⊢
      rw [lookup_insertAll_of_not_mem hcons.1, AList.lookup_insert]
    · exact ih hcons.2 _ htail

section Total

variable (f : ν → Nat)

omit [DecidableEq κ] in
/-- The sum of a number over all values. -/
def total (m : Map κ ν) : Nat := ((values m).map f).sum

/-- What the value under a key counts. -/
def share (m : Map κ ν) (k : κ) : Nat := (m.lookup k).elim 0 f

theorem total_erase (k : κ) (m : Map κ ν) : total f (m.erase k) + share f m k = total f m := by
  unfold share
  cases hl : m.lookup k with
  | none =>
    rw [erase_of_lookup hl]
    rfl
  | some v =>
    obtain ⟨w, before, after, -, hsplit, herase⟩ := List.exists_of_kerase (mem_of_lookup hl)
    have hv : w = v := by
      have hw : m.lookup k = some w :=
        (List.mem_dlookup_iff m.nodupKeys).mpr (by rw [hsplit]; simp)
      exact Option.some.inj (hw.symm.trans hl)
    have hrest : (m.erase k).entries = before ++ after := herase
    rw [total, total, values, values, hrest, hsplit, hv]
    simp only [List.map_append, List.map_cons, List.sum_append, List.sum_cons, Option.elim_some]
    omega

variable {f}

/-- A map that counts no more under any key counts no more altogether. -/
theorem total_le {m m' : Map κ ν} (h : ∀ k, share f m' k ≤ share f m k) :
    total f m' ≤ total f m := by
  -- by induction on the number of keys; one key is taken out of both maps
  induction hn : m'.keys.length generalizing m m' with
  | zero =>
    have hempty : m'.entries = [] := by
      simpa [AList.keys, List.keys] using hn
    simp [total, values, hempty]
  | succ n ih =>
    obtain ⟨k, hk⟩ := List.exists_mem_of_length_pos (by omega : 0 < m'.keys.length)
    have hshorter : (m'.erase k).keys.length = n := by
      rw [AList.keys_erase, List.length_erase_of_mem hk, hn]
      rfl
    have hrest : total f (m'.erase k) ≤ total f (m.erase k) := by
      refine ih (fun k' => ?_) hshorter
      unfold share
      rw [lookup_erase_eq, lookup_erase_eq]
      split_ifs with hk'
      · exact Nat.le_refl _
      · exact h k'
    have hbefore := total_erase f k m
    have hafter := total_erase f k m'
    have hshare := h k
    omega

/-- Maps that differ under one key differ by what the key counts. -/
theorem total_change {m m' : Map κ ν} (k : κ)
    (h : ∀ k', k' ≠ k → share f m' k' ≤ share f m k') :
    total f m' + share f m k ≤ total f m + share f m' k := by
  have hrest : total f (m'.erase k) ≤ total f (m.erase k) := by
    refine total_le (fun k' => ?_)
    unfold share
    rw [lookup_erase_eq, lookup_erase_eq]
    split_ifs with hk'
    · exact Nat.le_refl _
    · exact h k' hk'
  have hbefore := total_erase f k m
  have hafter := total_erase f k m'
  omega

end Total

end Map

end Sidecar
