import Sidecar.Framework.Patch
import Sidecar.Mailbox.Overrides
import Sidecar.Simulation.Rpc

namespace Sidecar.Simulation

open Mailbox

/-- Everything an override can set on a chain. -/
inductive Cell where
  | balance (address : Address)
  | nonce (address : Address)
  | code (address : Address)
  | slot (address : Address) (key : B256)
  deriving DecidableEq

def Cell.address : Cell → Address
  | .balance address => address
  | .nonce address => address
  | .code address => address
  | .slot address _ => address

def Cell.Value : Cell → Type
  | .balance _ => U256
  | .nonce _ => Nat
  | .code _ => Bytes
  | .slot _ _ => B256

/-- A chain's state at every account, field and storage slot. -/
abbrev ChainState := (c : Cell) → c.Value

/-- What a node takes a slot to be under an override: `state` replaces the whole storage, so
slots that it does not list are zero, and `state_diff` sets the slots it lists. -/
def slotValue (account : AccountOverride) (key : B256) : Option B256 :=
  match account.state with
  | some slots => some ((slots.lookup key).getD zeroSlot)
  | none => account.stateDiff.bind (fun diff => diff.lookup key)

def accountSets (account : AccountOverride) : (c : Cell) → Option c.Value
  | .balance _ => account.balance
  | .nonce _ => account.nonce
  | .code _ => account.code
  | .slot _ key => slotValue account key

/-- What an override sets a cell to, if it sets it. -/
def sets (overrides : StateOverride) : Patch Cell.Value := fun c =>
  (overrides.lookup c.address).bind (fun account => accountSets account c)

/-- The state a node simulates on when it is given overrides. -/
def applyOverrides (overrides : StateOverride) (s : ChainState) : ChainState :=
  (sets overrides).apply s

/-- A node refuses an account with both a replacement and a patch of its storage. -/
def oneStorage (account : AccountOverride) : Bool :=
  account.state.isNone || account.stateDiff.isNone

def OneStorage (overrides : StateOverride) : Prop :=
  ∀ address account, overrides.lookup address = some account → oneStorage account = true

instance (overrides : StateOverride) : Decidable (OneStorage overrides) :=
  decidable_of_iff (∀ account ∈ Map.values overrides, oneStorage account = true)
    ⟨fun h address account hl => h account ((Map.mem_values overrides account).mpr ⟨address, hl⟩),
      fun h account hm => by
        have hl := (Map.mem_values overrides account).mp hm
        exact hl.elim (fun address hl => h address account hl)⟩

section Account

variable (base overlay : AccountOverride)

/-- The later account wins slot by slot. -/
theorem slotValue_mergeStorage (key : B256) :
    slotValue (mergeStorage base overlay) key = (slotValue overlay key).or (slotValue base key) := by
  unfold mergeStorage slotValue
  cases hstate : overlay.state with
  | some slots => rfl
  | none =>
    cases hdiff : overlay.stateDiff with
    | none => rfl
    | some diff =>
      cases hbase : base.state with
      | some slots =>
        dsimp only [Option.bind_some]
        rw [lookup_insertSlots]
        cases diff.lookup key <;> rfl
      | none =>
        dsimp only [Option.bind_some]
        rw [lookup_insertSlots]
        cases base.stateDiff with
        | none =>
          rw [Option.getD_none, AList.lookup_empty]
          rfl
        | some patch => rfl

theorem accountSets_mergeAccount (c : Cell) :
    accountSets (mergeAccount base overlay) c =
      (accountSets overlay c).or (accountSets base c) := by
  cases c with
  | balance address => rfl
  | nonce address => rfl
  | code address => rfl
  | slot address key => exact slotValue_mergeStorage base overlay key

theorem oneStorage_mergeAccount (hbase : oneStorage base = true) :
    oneStorage (mergeAccount base overlay) = true := by
  unfold oneStorage mergeAccount mergeStorage
  cases hstate : overlay.state with
  | some slots => rfl
  | none =>
    cases hdiff : overlay.stateDiff with
    | none => exact hbase
    | some diff =>
      cases hb : base.state with
      | some slots =>
        have hnone : base.stateDiff.isNone = true := by simpa [oneStorage, hb] using hbase
        simpa [hb] using hnone
      | none => simp

end Account

@[simp] theorem sets_empty : sets ∅ = Patch.empty := rfl

/-- Merging is composition of what the two overrides set. -/
theorem sets_mergeOverrides (base overlay : StateOverride) :
    sets (mergeOverrides base overlay) = (sets base).andThen (sets overlay) := by
  funext c
  have hover : ∀ o, overlay.lookup c.address = o →
      sets overlay c = o.bind (fun account => accountSets account c) := by
    intro o ho
    rw [sets, ho]
  unfold Patch.andThen
  cases ho : overlay.lookup c.address with
  | none =>
    rw [hover none ho, sets, lookup_mergeOverrides, ho]
    rfl
  | some account =>
    rw [hover _ ho, sets, sets, lookup_mergeOverrides, ho]
    cases base.lookup c.address with
    | none => exact Option.or_none.symm
    | some b => exact accountSets_mergeAccount b account c

theorem sets_foldl (diffs : List StateOverride) (base : StateOverride) :
    sets (diffs.foldl mergeOverrides base) = (diffs.map sets).foldl Patch.andThen (sets base) := by
  induction diffs generalizing base with
  | nil => rfl
  | cons diff diffs ih =>
    rw [List.foldl_cons, ih, sets_mergeOverrides]
    rfl

theorem oneStorage_mergeOverrides {base overlay : StateOverride} (hbase : OneStorage base)
    (hover : OneStorage overlay) : OneStorage (mergeOverrides base overlay) := by
  intro address account h
  rw [lookup_mergeOverrides] at h
  cases ho : overlay.lookup address with
  | none =>
    rw [ho] at h
    exact hbase address account h
  | some o =>
    rw [ho] at h
    cases hb : base.lookup address with
    | none =>
      rw [hb] at h
      have he : o = account := Option.some.inj h
      exact he ▸ hover address o ho
    | some b =>
      rw [hb] at h
      have he : mergeAccount b o = account := Option.some.inj h
      exact he ▸ oneStorage_mergeAccount b o (hbase address b hb)

theorem oneStorage_foldl {diffs : List StateOverride} {base : StateOverride}
    (hbase : OneStorage base) (hdiffs : ∀ d ∈ diffs, OneStorage d) :
    OneStorage (diffs.foldl mergeOverrides base) := by
  induction diffs generalizing base with
  | nil => exact hbase
  | cons diff diffs ih =>
    have hmerged := oneStorage_mergeOverrides hbase (hdiffs diff (by simp))
    exact ih hmerged (fun d hd => hdiffs d (List.mem_cons_of_mem diff hd))

/-- Merging composes: applying the merged override is applying the two in turn, the merged
one is again acceptable to a node, and further diffs may be merged in any grouping. -/
theorem mergeOverrides_composes (base overlay : StateOverride) (hbase : OneStorage base)
    (hover : OneStorage overlay) :
    (∀ s, applyOverrides (mergeOverrides base overlay) s =
        applyOverrides overlay (applyOverrides base s)) ∧
      OneStorage (mergeOverrides base overlay) ∧
      ∀ diffs : List StateOverride, (∀ d ∈ diffs, OneStorage d) →
        OneStorage (diffs.foldl mergeOverrides (mergeOverrides base overlay)) ∧
        ∀ s,
          applyOverrides (diffs.foldl mergeOverrides (mergeOverrides base overlay)) s =
              diffs.foldl (fun s d => applyOverrides d s)
                (applyOverrides overlay (applyOverrides base s)) ∧
            applyOverrides (mergeOverrides base (diffs.foldl mergeOverrides overlay)) s =
              applyOverrides (diffs.foldl mergeOverrides (mergeOverrides base overlay)) s := by
  have hmerge : ∀ s, applyOverrides (mergeOverrides base overlay) s =
      applyOverrides overlay (applyOverrides base s) := by
    intro s
    unfold applyOverrides
    rw [sets_mergeOverrides, Patch.apply_andThen]
  have hone := oneStorage_mergeOverrides hbase hover
  refine ⟨hmerge, hone, ?_⟩
  intro diffs hdiffs
  refine ⟨oneStorage_foldl hone hdiffs, ?_⟩
  intro s
  constructor
  · rw [← hmerge s]
    unfold applyOverrides
    rw [sets_foldl, Patch.apply_foldl, List.foldl_map]
  · unfold applyOverrides
    rw [sets_mergeOverrides, sets_foldl, sets_foldl, sets_mergeOverrides, Patch.foldl_andThen,
      Patch.foldl_andThen, Patch.andThen_assoc]

/-- A patch of one slot on top of a replaced storage, then a second patch. -/
theorem mergeOverrides_composes_on_replacement :
    let contract : Address := FixedBytes.repeatByte 20 1
    let one : B256 := FixedBytes.repeatByte 32 1
    let two : B256 := FixedBytes.repeatByte 32 2
    let base : StateOverride := AList.singleton contract { state := some (AList.singleton one one) }
    let overlay : StateOverride :=
      AList.singleton contract { nonce := some 3, stateDiff := some (AList.singleton two one) }
    let diff : StateOverride :=
      AList.singleton contract { stateDiff := some (AList.singleton one two) }
    OneStorage base ∧ OneStorage overlay ∧ OneStorage diff ∧
      (∀ s, applyOverrides (mergeOverrides base overlay) s =
        applyOverrides overlay (applyOverrides base s)) ∧
      (∀ s, applyOverrides (mergeOverrides base (mergeOverrides overlay diff)) s =
        applyOverrides (mergeOverrides (mergeOverrides base overlay) diff) s) ∧
      sets (mergeOverrides (mergeOverrides base overlay) diff) (.slot contract one) = some two := by
  intro contract one two base overlay diff
  have hbase : OneStorage base := by decide
  have hover : OneStorage overlay := by decide
  have hdiff : OneStorage diff := by decide
  have h := mergeOverrides_composes base overlay hbase hover
  have hchain := h.2.2 [diff] (by simpa using hdiff)
  exact ⟨hbase, hover, hdiff, h.1, fun s => (hchain.2 s).2, rfl⟩

end Sidecar.Simulation
