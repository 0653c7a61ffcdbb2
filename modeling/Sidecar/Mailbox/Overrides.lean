import Sidecar.Model.Primitives

namespace Sidecar.Mailbox

def insertSlots (base overlay : SlotMap) : SlotMap :=
  overlay.entries.foldl (fun acc e => acc.insert e.1 e.2) base

/-- A full replacement in the overlay drops what the base had; a patch goes on top of the
base's replacement or patch. -/
def mergeStorage (base overlay : AccountOverride) : AccountOverride :=
  match overlay.state, overlay.stateDiff with
  | some state, _ => { base with state := some state, stateDiff := none }
  | none, none => base
  | none, some diff =>
    match base.state with
    | some state => { base with state := some (insertSlots state diff) }
    | none => { base with stateDiff := some (insertSlots (base.stateDiff.getD ∅) diff) }

def mergeAccount (base overlay : AccountOverride) : AccountOverride :=
  { mergeStorage base overlay with
    nonce := overlay.nonce.or base.nonce
    balance := overlay.balance.or base.balance
    code := overlay.code.or base.code }

/-- Merges `overlay` into `base`, account by account; the overlay wins. -/
def mergeOverrides (base overlay : StateOverride) : StateOverride :=
  overlay.entries.foldl
    (fun acc e =>
      if e.1 ∈ acc then Map.update e.1 (fun account => mergeAccount account e.2) acc
      else acc.insert e.1 e.2)
    base

/-- The storage branches of `merge_overrides_owned`: a patch for an account without storage is
moved in as it is. -/
def mergeStorageOwned (base overlay : AccountOverride) : AccountOverride :=
  match overlay.state, overlay.stateDiff with
  | some state, _ => { base with state := some state, stateDiff := none }
  | none, none => base
  | none, some diff =>
    match base.state, base.stateDiff with
    | some state, _ => { base with state := some (insertSlots state diff) }
    | none, some baseDiff => { base with stateDiff := some (insertSlots baseDiff diff) }
    | none, none => { base with stateDiff := some diff }

def mergeAccountOwned (base overlay : AccountOverride) : AccountOverride :=
  { mergeStorageOwned base overlay with
    nonce := overlay.nonce.or base.nonce
    balance := overlay.balance.or base.balance
    code := overlay.code.or base.code }

/-- `merge_overrides_owned`: the merge that consumes its overlay. -/
def mergeOverridesOwned (base overlay : StateOverride) : StateOverride :=
  overlay.entries.foldl
    (fun acc e =>
      if e.1 ∈ acc then Map.update e.1 (fun account => mergeAccountOwned account e.2) acc
      else acc.insert e.1 e.2)
    base

theorem lookup_insertSlots (base overlay : SlotMap) (slot : B256) :
    (insertSlots base overlay).lookup slot = (overlay.lookup slot).or (base.lookup slot) := by
  have h := Map.lookup_foldl (f := fun (acc : SlotMap) e => acc.insert e.1 e.2)
    (g := fun _ v _ => some v) (fun acc e k => Map.lookup_insert_eq e.1 k e.2 acc)
    overlay.entries overlay.nodupKeys base slot
  have hl : List.dlookup slot overlay.entries = overlay.lookup slot := rfl
  rw [hl] at h
  unfold insertSlots
  rw [h]
  cases overlay.lookup slot <;> rfl

/-- The account that a merge leaves under an address. -/
def mergedAccount (base overlay : Option AccountOverride) : Option AccountOverride :=
  match overlay with
  | none => base
  | some account => some (base.elim account (fun b => mergeAccount b account))

theorem lookup_mergeOverrides (base overlay : StateOverride) (address : Address) :
    (mergeOverrides base overlay).lookup address =
      mergedAccount (base.lookup address) (overlay.lookup address) := by
  have h := Map.lookup_foldl_merge mergeAccount base overlay address
  unfold mergeOverrides
  rw [h]
  cases overlay.lookup address <;> rfl

/-- Merging into nothing keeps every account as it is. -/
theorem lookup_mergeOverrides_empty (overlay : StateOverride) (address : Address) :
    (mergeOverrides ∅ overlay).lookup address = overlay.lookup address := by
  rw [lookup_mergeOverrides, AList.lookup_empty]
  cases overlay.lookup address <;> rfl

section Contents

/-- What an override says of an account. The slots are functions, so the order in which a hash
map lists them is not part of it. -/
structure AccountContents where
  balance : Option U256
  nonce : Option Nat
  code : Option Bytes
  state : Option (B256 → Option B256)
  stateDiff : Option (B256 → Option B256)

def accountContents (account : AccountOverride) : AccountContents :=
  { balance := account.balance
    nonce := account.nonce
    code := account.code
    state := account.state.map (fun slots slot => slots.lookup slot)
    stateDiff := account.stateDiff.map (fun slots slot => slots.lookup slot) }

def contents (overrides : StateOverride) (address : Address) : Option AccountContents :=
  (overrides.lookup address).map accountContents

/-- The slots of `diff` over those of `base`. -/
def patchSlots (base diff : B256 → Option B256) (slot : B256) : Option B256 :=
  (diff slot).or (base slot)

/-- The merge of two accounts, as both functions mean it. -/
def mergeContents (base overlay : AccountContents) : AccountContents :=
  { balance := overlay.balance.or base.balance
    nonce := overlay.nonce.or base.nonce
    code := overlay.code.or base.code
    state := match overlay.state, overlay.stateDiff with
      | some state, _ => some state
      | none, some diff => base.state.map (fun state => patchSlots state diff)
      | none, none => base.state
    stateDiff := match overlay.state, overlay.stateDiff, base.state with
      | some _, _, _ => none
      | none, some diff, none => some (patchSlots (base.stateDiff.getD (fun _ => none)) diff)
      | none, _, _ => base.stateDiff }

theorem slots_insertSlots (base diff : SlotMap) :
    (fun slot => (insertSlots base diff).lookup slot) =
      patchSlots (fun slot => base.lookup slot) (fun slot => diff.lookup slot) :=
  funext (lookup_insertSlots base diff)

theorem accountContents_mergeAccount (base overlay : AccountOverride) :
    accountContents (mergeAccount base overlay) =
      mergeContents (accountContents base) (accountContents overlay) := by
  obtain ⟨balance, nonce, code, state, diff⟩ := base
  obtain ⟨balance', nonce', code', state', diff'⟩ := overlay
  cases state' with
  | some state' => rfl
  | none =>
    cases diff' with
    | none => cases state <;> rfl
    | some diff' =>
      cases state with
      | some state =>
        simp [mergeAccount, mergeStorage, accountContents, mergeContents, slots_insertSlots]
      | none =>
        cases diff <;>
          simp [mergeAccount, mergeStorage, accountContents, mergeContents, slots_insertSlots]

theorem patchSlots_nothing (diff : B256 → Option B256) : patchSlots (fun _ => none) diff = diff := by
  funext slot
  exact Option.or_none

theorem accountContents_mergeAccountOwned (base overlay : AccountOverride) :
    accountContents (mergeAccountOwned base overlay) =
      mergeContents (accountContents base) (accountContents overlay) := by
  obtain ⟨balance, nonce, code, state, diff⟩ := base
  obtain ⟨balance', nonce', code', state', diff'⟩ := overlay
  cases state' with
  | some state' => rfl
  | none =>
    cases diff' with
    | none => cases state <;> rfl
    | some diff' =>
      cases state with
      | some state =>
        simp [mergeAccountOwned, mergeStorageOwned, accountContents, mergeContents,
          slots_insertSlots]
      | none =>
        cases diff with
        | some diff =>
          simp [mergeAccountOwned, mergeStorageOwned, accountContents, mergeContents,
            slots_insertSlots]
        | none =>
          -- the patch that is moved in is the patch over nothing
          simp [mergeAccountOwned, mergeStorageOwned, accountContents, mergeContents,
            patchSlots_nothing]

/-- What a merge means for all accounts, given what it means for one. -/
def mergeAll (base overlay : Address → Option AccountContents) (address : Address) :
    Option AccountContents :=
  (overlay address).elim (base address)
    (fun account => some ((base address).elim account (fun b => mergeContents b account)))

theorem contents_merge {merge : AccountOverride → AccountOverride → AccountOverride}
    (hmerge : ∀ base overlay, accountContents (merge base overlay) =
      mergeContents (accountContents base) (accountContents overlay))
    {merged base overlay : StateOverride}
    (h : ∀ address, merged.lookup address = (overlay.lookup address).elim (base.lookup address)
      (fun account => some ((base.lookup address).elim account (fun b => merge b account)))) :
    contents merged = mergeAll (contents base) (contents overlay) := by
  funext address
  simp only [contents, mergeAll, h]
  cases overlay.lookup address with
  | none => rfl
  | some account =>
    cases base.lookup address with
    | none => rfl
    | some b => exact congrArg some (hmerge b account)

theorem contents_mergeOverrides (base overlay : StateOverride) :
    contents (mergeOverrides base overlay) = mergeAll (contents base) (contents overlay) :=
  contents_merge accountContents_mergeAccount (Map.lookup_foldl_merge mergeAccount base overlay)

theorem contents_mergeOverridesOwned (base overlay : StateOverride) :
    contents (mergeOverridesOwned base overlay) = mergeAll (contents base) (contents overlay) :=
  contents_merge accountContents_mergeAccountOwned
    (Map.lookup_foldl_merge mergeAccountOwned base overlay)

/-- The merge that consumes its overlay leaves the contents that the borrowing merge leaves, in
whatever order the two go through the maps. -/
theorem merge_overrides_owned_contents {base base' overlay overlay' : StateOverride}
    (hbase : contents base' = contents base) (hoverlay : contents overlay' = contents overlay) :
    contents (mergeOverridesOwned base' overlay') = contents (mergeOverrides base overlay) := by
  rw [contents_mergeOverridesOwned, contents_mergeOverrides, hbase, hoverlay]

theorem contents_perm {overrides overrides' : StateOverride}
    (h : overrides'.entries.Perm overrides.entries) : contents overrides' = contents overrides := by
  funext address
  rw [contents, contents, AList.perm_lookup h]

section Example

def slotOf (b : UInt8) : B256 := FixedBytes.repeatByte 32 b

def oneSlot (slot value : UInt8) : SlotMap := AList.singleton (slotOf slot) (slotOf value)

/-- An account with a replacement and a patch, and one with neither. -/
def storedAccounts : StateOverride :=
  (AList.singleton (FixedBytes.repeatByte 20 1)
    { state := some (oneSlot 1 1), stateDiff := some (oneSlot 2 2) } : StateOverride).insert
    (FixedBytes.repeatByte 20 2) { nonce := some 7 }

/-- A patch for the first account and an empty patch for the second. -/
def patchedAccounts : StateOverride :=
  (AList.singleton (FixedBytes.repeatByte 20 1)
    { stateDiff := some (oneSlot 1 9), balance := some 5 } : StateOverride).insert
    (FixedBytes.repeatByte 20 2) { stateDiff := some ∅ }

/-- The same accounts, listed the other way round. -/
def patchedAccountsSwapped : StateOverride :=
  (AList.singleton (FixedBytes.repeatByte 20 2) { stateDiff := some ∅ } : StateOverride).insert
    (FixedBytes.repeatByte 20 1) { stateDiff := some (oneSlot 1 9), balance := some 5 }

theorem merge_overrides_owned_contents_swapped :
    contents (mergeOverridesOwned storedAccounts patchedAccountsSwapped) =
      contents (mergeOverrides storedAccounts patchedAccounts) ∧
    ((mergeOverridesOwned storedAccounts patchedAccountsSwapped).lookup
      (FixedBytes.repeatByte 20 1)).bind (fun account =>
        account.state.bind (fun slots => slots.lookup (slotOf 1))) = some (slotOf 9) := by
  refine ⟨merge_overrides_owned_contents rfl (contents_perm ?_), by decide +kernel⟩
  exact List.Perm.swap _ _ []

end Example

end Contents

end Sidecar.Mailbox
