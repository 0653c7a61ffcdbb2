import Sidecar.Simulation.ChainState

namespace Sidecar.Simulation

open Mailbox

/-- What a cell of an account that does not exist reads as. -/
def Cell.zero : (c : Cell) → c.Value
  | .balance _ => (0 : U256)
  | .nonce _ => (0 : Nat)
  | .code _ => ([] : Bytes)
  | .slot _ _ => zeroSlot

def Cell.isSlot : Cell → Bool
  | .slot _ _ => true
  | _ => false

/-- A chain with the accounts that exist on it. -/
structure Chain where
  cells : ChainState
  live : Address → Bool
  missing_zero : ∀ c, live c.address = false → cells c = c.zero

/-- Some field, some slot or the existence of the account differs. -/
def Changed (before after : Chain) (address : Address) : Prop :=
  before.live address ≠ after.live address ∨
    ∃ c : Cell, c.address = address ∧ before.cells c ≠ after.cells c

/-- What an entry of a prestate trace lists for a cell. -/
def traced (account : AccountState) : (c : Cell) → Option c.Value
  | .balance _ => account.balance
  | .nonce _ => account.nonce
  | .code _ => account.code
  | .slot _ key => account.storage.lookup key

/-- The diff that the prestate tracer reports between two states of a chain. `post` has the
changed accounts that exist afterwards with every changed field and every changed slot that
is not zero; `pre` has the changed accounts that existed with the old values. Fields and slots
whose value is that of a missing account may be left out of `pre`. -/
structure IsDiff (before after : Chain) (diff : DiffMode) : Prop where
  mem_post : ∀ address, address ∈ diff.post ↔
    after.live address = true ∧ Changed before after address
  mem_pre : ∀ address, address ∈ diff.pre ↔
    before.live address = true ∧ Changed before after address
  post_lists : ∀ c account, diff.post.lookup c.address = some account →
    before.cells c ≠ after.cells c → (c.isSlot = true → after.cells c ≠ c.zero) →
    traced account c = some (after.cells c)
  post_value : ∀ c account v, diff.post.lookup c.address = some account →
    traced account c = some v → v = after.cells c
  pre_lists : ∀ c account, diff.pre.lookup c.address = some account →
    before.cells c ≠ after.cells c → before.cells c ≠ c.zero →
    traced account c = some (before.cells c)
  pre_value : ∀ c account v, diff.pre.lookup c.address = some account →
    traced account c = some v → v = before.cells c ∧ before.cells c ≠ after.cells c

theorem lookup_clearedSlots (preStorage postStorage : SlotMap) (key : B256) :
    (clearedSlots preStorage postStorage).lookup key =
      (postStorage.lookup key).or ((preStorage.lookup key).map (fun _ => zeroSlot)) := by
  -- over the slots still to look at, for every map built so far
  have hfold : ∀ (keys : List B256) (diff : SlotMap),
      (keys.foldl (fun (diff : SlotMap) slot =>
        if slot ∈ diff then diff else diff.insert slot zeroSlot) diff).lookup key =
        (diff.lookup key).or (if key ∈ keys then some zeroSlot else none) := by
    intro keys
    induction keys with
    | nil =>
      intro diff
      simp
    | cons slot keys ih =>
      intro diff
      rw [List.foldl_cons, ih]
      by_cases hslot : slot ∈ diff
      · rw [if_pos hslot]
        by_cases hk : key = slot
        · obtain ⟨v, hv⟩ := Option.isSome_iff_exists.mp (AList.lookup_isSome.mpr hslot)
          rw [hk, hv]
          rfl
        · simp [hk]
      · rw [if_neg hslot, Map.lookup_insert_eq]
        by_cases hk : key = slot
        · rw [if_pos hk, hk, AList.lookup_eq_none.mpr hslot]
          simp
        · simp [hk]
  have h := hfold preStorage.keys postStorage
  unfold clearedSlots
  rw [h]
  cases hpre : preStorage.lookup key with
  | none =>
    have hnot : key ∉ preStorage.keys := AList.lookup_eq_none.mp hpre
    rw [if_neg hnot]
    rfl
  | some v =>
    have hmem : key ∈ preStorage.keys := AList.lookup_isSome.mp (by rw [hpre]; rfl)
    rw [if_pos hmem]
    rfl

/-- The slots that the override of an account patches. -/
def patchedSlots (preState : Option AccountState) (postState : AccountState) : SlotMap :=
  match preState with
  | some pre => clearedSlots pre.storage postState.storage
  | none => postState.storage

/-- A slot is set when it is listed after the transaction, or only before it. -/
theorem lookup_patchedSlots (preState : Option AccountState) (postState : AccountState)
    (key : B256) :
    (patchedSlots preState postState).lookup key =
      (postState.storage.lookup key).or
        (preState.bind (fun pre => (pre.storage.lookup key).map (fun _ => zeroSlot))) := by
  cases preState with
  | none => exact Option.or_none.symm
  | some pre => exact lookup_clearedSlots pre.storage postState.storage key

theorem slotValue_accountOverride (preState : Option AccountState) (postState : AccountState)
    (key : B256) :
    slotValue (accountOverride preState postState) key =
      (patchedSlots preState postState).lookup key := by
  have hstate : (accountOverride preState postState).state = none := rfl
  have hdiff : (accountOverride preState postState).stateDiff =
      if (patchedSlots preState postState).entries.isEmpty then none
      else some (patchedSlots preState postState) := rfl
  unfold slotValue
  rw [hstate, hdiff]
  by_cases he : (patchedSlots preState postState).entries.isEmpty = true
  · have hnil : (patchedSlots preState postState).entries = [] := List.isEmpty_iff.mp he
    rw [if_pos he]
    have hl : (patchedSlots preState postState).lookup key =
        List.dlookup key (patchedSlots preState postState).entries := rfl
    rw [hl, hnil]
    rfl
  · rw [if_neg he]
    rfl

/-- An override without any field sets nothing, so it may be left out. -/
theorem accountSets_of_dropped {account : AccountOverride} (hstate : account.state = none)
    (h : ¬ (account.balance.isSome || account.nonce.isSome || account.code.isSome ||
      account.stateDiff.isSome) = true) (c : Cell) : accountSets account c = none := by
  simp only [Bool.or_eq_true, not_or, Bool.not_eq_true, Option.isSome_eq_false_iff,
    Option.isNone_iff_eq_none] at h
  obtain ⟨⟨⟨hb, hn⟩, hc⟩, hd⟩ := h
  cases c with
  | balance address => exact hb
  | nonce address => exact hn
  | code address => exact hc
  | slot address key =>
    show slotValue account key = none
    rw [slotValue, hstate, hd]
    rfl

theorem accountSets_destroyed (c : Cell) : accountSets destroyedAccount c = some c.zero := by
  cases c <;> rfl

/-- The body of the loop over `post`. -/
def overrideStep (acc : Map Address AccountState × StateOverride)
    (entry : Σ _ : Address, AccountState) : Map Address AccountState × StateOverride :=
  let account := accountOverride (acc.1.lookup entry.1) entry.2
  let keep := account.balance.isSome || account.nonce.isSome || account.code.isSome ||
    account.stateDiff.isSome
  (acc.1.erase entry.1, if keep then acc.2.insert entry.1 account else acc.2)

/-- The accounts left in `pre` and what the overrides set, after the loop over `post`. -/
theorem foldl_overrideStep (l : List (Σ _ : Address, AccountState)) (hnd : l.NodupKeys)
    (acc : Map Address AccountState × StateOverride) (c : Cell)
    (hfresh : ∀ e ∈ l, e.1 ∉ acc.2) :
    (l.foldl overrideStep acc).1.lookup c.address =
        (List.dlookup c.address l).elim (acc.1.lookup c.address) (fun _ => none) ∧
      sets (l.foldl overrideStep acc).2 c =
        (List.dlookup c.address l).elim (sets acc.2 c)
          (fun post => accountSets (accountOverride (acc.1.lookup c.address) post) c) := by
  induction l generalizing acc with
  | nil => exact ⟨rfl, rfl⟩
  | cons e l ih =>
    have hcons := List.nodupKeys_cons.mp hnd
    have hpre : ∀ address, (overrideStep acc e).1.lookup address =
        if address = e.1 then none else acc.1.lookup address := by
      intro address
      exact Map.lookup_erase_eq e.1 address acc.1
    have hover : ∀ address, address ≠ e.1 →
        (overrideStep acc e).2.lookup address = acc.2.lookup address := by
      intro address hne
      unfold overrideStep
      dsimp only
      split_ifs
      · rw [Map.lookup_insert_eq, if_neg hne]
      · rfl
    have hnext := ih hcons.2 (overrideStep acc e) (fun e' he' hmem => by
      have hne : e'.1 ≠ e.1 := fun heq => hcons.1 (heq ▸ List.mem_keys_of_mem he')
      have hold : e'.1 ∈ acc.2 := by
        rw [← AList.lookup_isSome, ← hover e'.1 hne, AList.lookup_isSome]
        exact hmem
      exact hfresh e' (List.mem_cons_of_mem e he') hold)
    rw [List.foldl_cons, hnext.1, hnext.2, hpre]
    by_cases hc : c.address = e.1
    · have hgone : List.dlookup c.address l = none := List.dlookup_eq_none.mpr (hc ▸ hcons.1)
      have hhead : List.dlookup c.address (e :: l) = some e.2 := by
        rw [hc]
        exact List.dlookup_cons_eq l e.1 e.2
      have hnot : acc.2.lookup c.address = none :=
        AList.lookup_eq_none.mpr (hc ▸ hfresh e (by simp))
      rw [hgone, hhead, if_pos hc]
      refine ⟨rfl, ?_⟩
      show sets (overrideStep acc e).2 c =
        accountSets (accountOverride (acc.1.lookup c.address) e.2) c
      unfold sets overrideStep
      dsimp only
      rw [← hc]
      split_ifs with hkeep
      · rw [AList.lookup_insert]
        rfl
      · rw [hnot]
        exact (accountSets_of_dropped rfl hkeep c).symm
    · have htail : List.dlookup c.address (e :: l) = List.dlookup c.address l :=
        List.dlookup_cons_ne l e hc
      rw [htail, if_neg hc]
      refine ⟨rfl, ?_⟩
      have hsame : sets (overrideStep acc e).2 c = sets acc.2 c := by
        rw [sets, sets, hover c.address hc]
      rw [hsame]

/-- The loop over the accounts that are gone. -/
theorem lookup_foldl_destroyed (addresses : List Address) (overrides : StateOverride)
    (address : Address) :
    (addresses.foldl (fun (acc : StateOverride) a => acc.insert a destroyedAccount)
        overrides).lookup address =
      if address ∈ addresses then some destroyedAccount else overrides.lookup address := by
  induction addresses generalizing overrides with
  | nil => simp
  | cons a addresses ih =>
    rw [List.foldl_cons, ih, Map.lookup_insert_eq]
    by_cases ha : address = a
    · simp [ha]
    · simp [ha]

/-- What the override of a diff sets: cells of accounts in `post` from their two entries,
everything in accounts only in `pre` to zero, and nothing else. -/
theorem sets_stateOverridesFromDiff (diff : DiffMode) (c : Cell) :
    sets ((stateOverridesFromDiff diff).getD ∅) c =
      (diff.post.lookup c.address).elim ((diff.pre.lookup c.address).map (fun _ => c.zero))
        (fun post => accountSets (accountOverride (diff.pre.lookup c.address) post) c) := by
  have hloop := foldl_overrideStep diff.post.entries diff.post.nodupKeys (diff.pre, ∅) c
    (fun e _ => AList.notMem_empty e.1)
  have hentries : List.dlookup c.address diff.post.entries = diff.post.lookup c.address := rfl
  rw [hentries] at hloop
  generalize hr : diff.post.entries.foldl overrideStep (diff.pre, ∅) = r at hloop
  have hall : stateOverridesFromDiff diff =
      if (r.1.keys.foldl (fun (acc : StateOverride) a => acc.insert a destroyedAccount)
        r.2).entries.isEmpty then none
      else some (r.1.keys.foldl (fun (acc : StateOverride) a => acc.insert a destroyedAccount)
        r.2) := by
    rw [← hr]
    rfl
  generalize hl : r.1.keys.foldl (fun (acc : StateOverride) a => acc.insert a destroyedAccount)
    r.2 = all at hall
  have hgetD : (stateOverridesFromDiff diff).getD ∅ = all := by
    rw [hall]
    split_ifs with he
    · exact (AList.ext (List.isEmpty_iff.mp he)).symm
    · rfl
  have hlook := lookup_foldl_destroyed r.1.keys r.2 c.address
  rw [hl] at hlook
  rw [hgetD]
  cases hpost : diff.post.lookup c.address with
  | some post =>
    rw [hpost] at hloop
    have hnot : c.address ∉ r.1.keys := AList.lookup_eq_none.mp hloop.1
    rw [if_neg hnot] at hlook
    rw [sets, hlook]
    exact hloop.2
  | none =>
    rw [hpost] at hloop
    have hpre : r.1.lookup c.address = diff.pre.lookup c.address := hloop.1
    have hnone : sets r.2 c = none := hloop.2
    cases hp : diff.pre.lookup c.address with
    | none =>
      have hnot : c.address ∉ r.1.keys := AList.lookup_eq_none.mp (hpre.trans hp)
      rw [if_neg hnot] at hlook
      rw [sets, hlook]
      exact hnone
    | some pre =>
      have hmem : c.address ∈ r.1.keys := AList.lookup_isSome.mp (by rw [hpre, hp]; rfl)
      rw [if_pos hmem] at hlook
      rw [sets, hlook]
      exact accountSets_destroyed c

/-- The override of one account from its two entries: what `post` lists, and zero for slots
that only `pre` lists. -/
theorem accountSets_accountOverride (preState : Option AccountState) (postState : AccountState)
    (c : Cell) :
    accountSets (accountOverride preState postState) c =
      (traced postState c).or
        (if c.isSlot then preState.bind (fun pre => (traced pre c).map (fun _ => c.zero))
          else none) := by
  cases c with
  | balance address => exact Option.or_none.symm
  | nonce address => exact Option.or_none.symm
  | code address => exact Option.or_none.symm
  | slot address key =>
    have h := slotValue_accountOverride preState postState key
    rw [lookup_patchedSlots] at h
    exact h

/-- A changed cell that `post` does not list is a slot that was cleared. -/
theorem cleared_of_unlisted {before after : Chain} {diff : DiffMode}
    (h : IsDiff before after diff) {c : Cell} {post : AccountState}
    (hpost : diff.post.lookup c.address = some post) (hnone : traced post c = none)
    (hchanged : before.cells c ≠ after.cells c) :
    c.isSlot = true ∧ after.cells c = c.zero := by
  by_contra hnot
  have hlisted := h.post_lists c post hpost hchanged (fun hslot hzero => hnot ⟨hslot, hzero⟩)
  rw [hnone] at hlisted
  simp at hlisted

theorem pre_of_changed {before after : Chain} {diff : DiffMode} (h : IsDiff before after diff)
    {c : Cell} (hchanged : before.cells c ≠ after.cells c) (hold : before.cells c ≠ c.zero) :
    ∃ pre, diff.pre.lookup c.address = some pre := by
  have hlive : before.live c.address = true := by
    by_contra hdead
    exact hold (before.missing_zero c (by simpa using hdead))
  have hmem := (h.mem_pre c.address).mpr ⟨hlive, Or.inr ⟨c, rfl, hchanged⟩⟩
  exact Option.isSome_iff_exists.mp (AList.lookup_isSome.mpr hmem)

/-- The override of a changed account that still exists leads to its new cells. -/
theorem accountOverride_faithful {before after : Chain} {diff : DiffMode}
    (h : IsDiff before after diff) {c : Cell} {post : AccountState}
    (hpost : diff.post.lookup c.address = some post) :
    (accountSets (accountOverride (diff.pre.lookup c.address) post) c).getD (before.cells c) =
      after.cells c := by
  rw [accountSets_accountOverride]
  cases htraced : traced post c with
  | some v => exact h.post_value c post v hpost htraced
  | none =>
    rw [Option.none_or]
    by_cases hchanged : before.cells c = after.cells c
    · -- an unchanged slot is in neither entry
      have hunlisted : (diff.pre.lookup c.address).bind
          (fun pre => (traced pre c).map (fun _ => c.zero)) = none := by
        cases hpre : diff.pre.lookup c.address with
        | none => rfl
        | some pre =>
          cases hold : traced pre c with
          | none =>
            rw [Option.bind_some, hold]
            rfl
          | some v => exact absurd hchanged (h.pre_value c pre v hpre hold).2
      rw [hunlisted, ite_self]
      exact hchanged
    · have hcleared := cleared_of_unlisted h hpost htraced hchanged
      have hold : before.cells c ≠ c.zero := fun hz => hchanged (hz.trans hcleared.2.symm)
      obtain ⟨pre, hpre⟩ := pre_of_changed h hchanged hold
      have hlisted := h.pre_lists c pre hpre hchanged hold
      rw [if_pos hcleared.1, hpre, Option.bind_some, hlisted]
      exact hcleared.2.symm

/-- Accounts outside `post` are gone, when `pre` has them, or have not changed. -/
theorem outside_post_faithful {before after : Chain} {diff : DiffMode}
    (h : IsDiff before after diff) {c : Cell} (hpost : diff.post.lookup c.address = none) :
    ((diff.pre.lookup c.address).map (fun _ => c.zero)).getD (before.cells c) =
      after.cells c := by
  have hnot : c.address ∉ diff.post := AList.lookup_eq_none.mp hpost
  cases hpre : diff.pre.lookup c.address with
  | some pre =>
    have hmem : c.address ∈ diff.pre := AList.lookup_isSome.mp (by rw [hpre]; rfl)
    have hchanged := ((h.mem_pre c.address).mp hmem).2
    have hdead : after.live c.address = false := by
      by_contra hlive
      exact hnot ((h.mem_post c.address).mpr ⟨by simpa using hlive, hchanged⟩)
    exact (after.missing_zero c hdead).symm
  | none =>
    have hnotPre : c.address ∉ diff.pre := AList.lookup_eq_none.mp hpre
    by_contra hchanged
    have hdiffers : Changed before after c.address := Or.inr ⟨c, rfl, hchanged⟩
    have hbefore : before.live c.address = false := by
      by_contra hlive
      exact hnotPre ((h.mem_pre c.address).mpr ⟨by simpa using hlive, hdiffers⟩)
    have hafter : after.live c.address = false := by
      by_contra hlive
      exact hnot ((h.mem_post c.address).mpr ⟨by simpa using hlive, hdiffers⟩)
    have hzero := before.missing_zero c hbefore
    exact hchanged (hzero.trans (after.missing_zero c hafter).symm)

/-- Applying the override of a reported diff to the old state gives the new state, and there
is no override only when nothing changed. -/
theorem stateOverridesFromDiff_faithful (before after : Chain) (diff : DiffMode)
    (h : IsDiff before after diff) :
    applyOverrides ((stateOverridesFromDiff diff).getD ∅) before.cells = after.cells ∧
      (stateOverridesFromDiff diff = none → before.cells = after.cells) := by
  have hall : applyOverrides ((stateOverridesFromDiff diff).getD ∅) before.cells =
      after.cells := by
    funext c
    show (sets ((stateOverridesFromDiff diff).getD ∅) c).getD (before.cells c) = after.cells c
    rw [sets_stateOverridesFromDiff]
    cases hpost : diff.post.lookup c.address with
    | some post => exact accountOverride_faithful h hpost
    | none => exact outside_post_faithful h hpost
  refine ⟨hall, ?_⟩
  intro hnone
  rw [hnone] at hall
  exact hall

/-- A contract with one slot in use, before and after a transaction clears it. -/
def slotChain (contract : Address) (key value : B256) : Chain :=
  { cells := Function.update Cell.zero (.slot contract key) (show Cell.Value (.slot _ _) from value)
    live := fun address => address = contract
    missing_zero := by
      intro c hdead
      have hne : c ≠ .slot contract key := by
        intro hc
        rw [hc] at hdead
        simp [Cell.address] at hdead
      exact Function.update_of_ne hne _ Cell.zero }

theorem slotChain_changed {contract : Address} {key old new : B256} {c : Cell}
    (h : (slotChain contract key old).cells c ≠ (slotChain contract key new).cells c) :
    c = .slot contract key := by
  by_contra hne
  have hold : (slotChain contract key old).cells c = c.zero :=
    Function.update_of_ne hne _ Cell.zero
  have hnew : (slotChain contract key new).cells c = c.zero :=
    Function.update_of_ne hne _ Cell.zero
  exact h (hold.trans hnew.symm)

theorem slotChain_cell (contract : Address) (key value : B256) :
    (slotChain contract key value).cells (.slot contract key) = value :=
  Function.update_self _ _ _

/-- A cleared slot appears in `pre` only; its account appears in both. -/
theorem slotChain_isDiff {contract : Address} {key old : B256} (hold : old ≠ zeroSlot) :
    IsDiff (slotChain contract key old) (slotChain contract key zeroSlot)
      { pre := AList.singleton contract { storage := AList.singleton key old }
        post := AList.singleton contract {} } := by
  have hdiffers : (slotChain contract key old).cells (.slot contract key) ≠
      (slotChain contract key zeroSlot).cells (.slot contract key) := by
    rw [slotChain_cell, slotChain_cell]
    exact hold
  have hmem : ∀ address (account : AccountState),
      address ∈ (AList.singleton contract account : Map Address AccountState) ↔
        (slotChain contract key old).live address = true ∧
          Changed (slotChain contract key old) (slotChain contract key zeroSlot) address := by
    intro address account
    rw [Map.mem_singleton_iff]
    constructor
    · intro ha
      exact ⟨by simp [slotChain, ha], Or.inr ⟨.slot contract key, ha.symm, hdiffers⟩⟩
    · intro h
      simpa [slotChain] using h.1
  have hentry : ∀ {address : Address} {account listed : AccountState},
      (AList.singleton contract listed : Map Address AccountState).lookup address =
        some account → address = contract ∧ account = listed := by
    intro address account listed h
    rw [Map.lookup_singleton_eq] at h
    split_ifs at h with ha
    exact ⟨ha, (Option.some.inj h).symm⟩
  constructor
  · exact fun address => hmem address _
  · exact fun address => hmem address _
  · intro c account hl hchanged hnonzero
    have hc := slotChain_changed hchanged
    subst hc
    exact absurd (slotChain_cell contract key zeroSlot) (hnonzero rfl)
  · intro c account v hl ht
    rw [(hentry hl).2] at ht
    cases c <;> simp [traced] at ht
  · intro c account hl hchanged hnonzero
    have hc := slotChain_changed hchanged
    subst hc
    rw [(hentry hl).2, slotChain_cell]
    exact (Map.lookup_singleton_eq key key old).trans (if_pos rfl)
  · intro c account v hl ht
    have he := hentry hl
    rw [he.2] at ht
    cases c with
    | balance address => simp [traced] at ht
    | nonce address => simp [traced] at ht
    | code address => simp [traced] at ht
    | slot address k =>
      have hslot : (if k = key then some old else none) = some v :=
        (Map.lookup_singleton_eq key k old).symm.trans ht
      have ha : address = contract := he.1
      split_ifs at hslot with hk
      subst hk ha
      rw [← Option.some.inj hslot]
      exact ⟨(slotChain_cell address k old).symm, hdiffers⟩

theorem stateOverridesFromDiff_clears_slot :
    let contract : Address := FixedBytes.repeatByte 20 1
    let key : B256 := FixedBytes.repeatByte 32 1
    let diff : DiffMode :=
      { pre := AList.singleton contract { storage := AList.singleton key key }
        post := AList.singleton contract {} }
    IsDiff (slotChain contract key key) (slotChain contract key zeroSlot) diff ∧
      applyOverrides ((stateOverridesFromDiff diff).getD ∅) (slotChain contract key key).cells =
        (slotChain contract key zeroSlot).cells ∧
      stateOverridesFromDiff diff ≠ none := by
  intro contract key diff
  have hdiff : IsDiff (slotChain contract key key) (slotChain contract key zeroSlot) diff :=
    slotChain_isDiff (by decide)
  have h := stateOverridesFromDiff_faithful (slotChain contract key key)
    (slotChain contract key zeroSlot) diff hdiff
  refine ⟨hdiff, h.1, ?_⟩
  intro hnone
  have hcell := congrFun (h.2 hnone) (.slot contract key)
  rw [slotChain_cell, slotChain_cell] at hcell
  have hne : key ≠ zeroSlot := by decide
  exact hne hcell

end Sidecar.Simulation
