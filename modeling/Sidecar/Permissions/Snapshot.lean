import Sidecar.Framework.Last
import Sidecar.Permissions.Engine

/-! Policy snapshots: the payload as it comes from the wire, its index, and what the raw lists
mean. -/

namespace Sidecar.Permissions

/-- The wire types carry the defaults of fields that a payload may leave out. -/
structure WireWallet where
  address : String := ""
  deriving DecidableEq

structure WireEntity where
  isActive : Bool := false
  ruleGroupId : String := ""
  walletAddresses : List WireWallet := []
  deriving DecidableEq

structure WireRollupItem where
  chainId : ChainId
  deriving DecidableEq

structure WireRuleGroup where
  ruleGroupId : String := ""
  sendNative : Bool := true
  canDeployContract : Bool := true
  networkScope : String := ""
  rollups : List WireRollupItem := []
  deriving DecidableEq

structure SnapshotData where
  version : Nat
  entities : List WireEntity := []
  ruleGroups : List WireRuleGroup := []
  deriving DecidableEq

structure StreamFrame where
  type : String
  data : SnapshotData
  deriving DecidableEq

inductive SnapshotError where
  | invalidAddress (text : String)
  | unknownRuleGroup (id : String)
  deriving DecidableEq

def SnapshotError.message : SnapshotError → String
  | invalidAddress text => "invalid wallet address: " ++ text
  | unknownRuleGroup id => "entity references unknown rule group: " ++ id

def toAsciiLowercase (b : UInt8) : UInt8 := if 65 ≤ b ∧ b ≤ 90 then b + 32 else b

def eqIgnoreAsciiCase (a b : String) : Bool :=
  (InstanceId.asBytes a).map toAsciiLowercase == (InstanceId.asBytes b).map toAsciiLowercase

/-- Every other text means no restriction. -/
def NetworkScope.parse (raw : String) : NetworkScope :=
  if eqIgnoreAsciiCase raw "restricted" then .restricted else .all

section Index

variable (parseAddress : String → Option Address)

def WireRuleGroup.resolve (group : WireRuleGroup) : RuleGroup :=
  { sendNative := group.sendNative
    canDeployContract := group.canDeployContract
    networkScope := NetworkScope.parse group.networkScope
    allowedPeers := (group.rollups.map WireRollupItem.chainId).toFinset }

def collectGroups (groups : List WireRuleGroup) : Map String RuleGroup :=
  groups.foldl (fun acc group => acc.insert group.ruleGroupId group.resolve) ∅

/-- The group that an entity names; the empty name stands for none. -/
def findGroup (groups : Map String RuleGroup) (id : String) :
    Except SnapshotError (Option RuleGroup) :=
  if id = "" then .ok none
  else
    match groups.lookup id with
    | some group => .ok (some group)
    | none => .error (.unknownRuleGroup id)

def indexWallet (policy : WalletPolicy) (wallets : Map Address WalletPolicy)
    (wallet : WireWallet) : Except SnapshotError (Map Address WalletPolicy) :=
  match parseAddress wallet.address with
  | some address => .ok (wallets.insert address policy)
  | none => .error (.invalidAddress wallet.address)

def indexEntity (groups : Map String RuleGroup) (wallets : Map Address WalletPolicy)
    (entity : WireEntity) : Except SnapshotError (Map Address WalletPolicy) := do
  let group ← findGroup groups entity.ruleGroupId
  entity.walletAddresses.foldlM (indexWallet parseAddress ⟨entity.isActive, group⟩) wallets

/-- One malformed entry rejects the whole snapshot. -/
def PolicySnapshot.fromWire (data : SnapshotData) : Except SnapshotError PolicySnapshot := do
  let groups := collectGroups data.ruleGroups
  let wallets ← data.entities.foldlM (indexEntity parseAddress groups) ∅
  .ok ⟨data.version, wallets⟩

end Index

section Meaning

variable (parseAddress : String → Option Address)

def WireEntity.lists (entity : WireEntity) (address : Address) : Bool :=
  entity.walletAddresses.any (fun wallet => parseAddress wallet.address == some address)

/-- The entity that speaks for an address: the last one that lists it. -/
def lastEntity (data : SnapshotData) (address : Address) : Option WireEntity :=
  lastSome (fun entity => if entity.lists parseAddress address then some entity else none)
    data.entities

/-- The group that goes by a name: the last one under it. -/
def lastGroup (data : SnapshotData) (id : String) : Option WireRuleGroup :=
  lastSome (fun group => if group.ruleGroupId = id then some group else none) data.ruleGroups

/-- Every address can be read and every named group is there. -/
def wellFormed (data : SnapshotData) : Bool :=
  data.entities.all (fun entity =>
    (decide (entity.ruleGroupId = "") ||
      data.ruleGroups.any (fun group => decide (group.ruleGroupId = entity.ruleGroupId))) &&
    entity.walletAddresses.all (fun wallet => (parseAddress wallet.address).isSome))

/-- What the raw lists say about a sender and the chains of an instance. -/
def MayTakePart (data : SnapshotData) (sender : Address) (localChain : ChainId)
    (involved : List ChainId) : Prop :=
  lastEntity parseAddress data sender = none ∨
    ∃ entity, lastEntity parseAddress data sender = some entity ∧ entity.isActive = true ∧
      (entity.ruleGroupId = "" ∨
        ∃ group, lastGroup data entity.ruleGroupId = some group ∧
          (NetworkScope.parse group.networkScope ≠ .restricted ∨
            ∀ chain ∈ involved, chain ≠ localChain → ⟨chain⟩ ∈ group.rollups))

end Meaning

section Spec

variable {parseAddress : String → Option Address}

theorem lookup_collectGroups (data : SnapshotData) (id : String) :
    (collectGroups data.ruleGroups).lookup id =
      (lastGroup data id).map WireRuleGroup.resolve := by
  have hstep : ∀ (acc : Map String RuleGroup) (group : WireRuleGroup),
      (acc.insert group.ruleGroupId group.resolve).lookup id =
        ((if group.ruleGroupId = id then some group else none).map
          WireRuleGroup.resolve).or (acc.lookup id) := by
    intro acc group
    rw [Map.lookup_insert_eq]
    by_cases hid : group.ruleGroupId = id
    · rw [if_pos hid.symm, if_pos hid]
      rfl
    · rw [if_neg (fun h => hid h.symm), if_neg hid]
      rfl
  have hview := view_foldl hstep data.ruleGroups (∅ : Map String RuleGroup)
  rw [AList.lookup_empty, Option.or_none, lastSome_map] at hview
  exact hview

/-- What the index holds for the wallets of an entity. -/
def WireEntity.policy (data : SnapshotData) (entity : WireEntity) : WalletPolicy :=
  { entityActive := entity.isActive
    group := if entity.ruleGroupId = "" then none
      else (lastGroup data entity.ruleGroupId).map WireRuleGroup.resolve }

theorem lastGroup_isSome_iff (data : SnapshotData) (id : String) :
    (∃ group, lastGroup data id = some group) ↔ ∃ group ∈ data.ruleGroups, group.ruleGroupId = id := by
  constructor
  · intro h
    obtain ⟨group, hlast⟩ := h
    obtain ⟨g, hg, hclaim⟩ := exists_of_lastSome hlast
    split_ifs at hclaim with hid
    exact ⟨g, hg, hid⟩
  · intro h
    obtain ⟨group, hg, hid⟩ := h
    rw [← Option.isSome_iff_exists, Option.isSome_iff_ne_none]
    intro hnone
    have hclaim := lastSome_eq_none.mp hnone group hg
    rw [if_pos hid] at hclaim
    simp at hclaim

theorem findGroup_ok {data : SnapshotData} {entity : WireEntity}
    (h : entity.ruleGroupId = "" ∨ ∃ group, lastGroup data entity.ruleGroupId = some group) :
    findGroup (collectGroups data.ruleGroups) entity.ruleGroupId =
      .ok (entity.policy data).group := by
  unfold findGroup WireEntity.policy
  by_cases hid : entity.ruleGroupId = ""
  · simp only [if_pos hid]
  · obtain ⟨group, hlast⟩ := h.resolve_left hid
    simp only [if_neg hid, lookup_collectGroups, hlast, Option.map_some]

theorem findGroup_error {data : SnapshotData} {id : String} (hid : id ≠ "")
    (h : lastGroup data id = none) :
    findGroup (collectGroups data.ruleGroups) id = .error (.unknownRuleGroup id) := by
  simp only [findGroup, if_neg hid, lookup_collectGroups, h, Option.map_none]

/-- The wallets of one entity, all of whose addresses can be read. -/
def indexed (parseAddress : String → Option Address) (policy : WalletPolicy)
    (wallets : Map Address WalletPolicy) (list : List WireWallet) : Map Address WalletPolicy :=
  list.foldl (fun acc wallet =>
    (parseAddress wallet.address).elim acc (fun address => acc.insert address policy)) wallets

theorem lookup_indexed (policy : WalletPolicy) (wallets : Map Address WalletPolicy)
    (entity : WireEntity) (address : Address) :
    (indexed parseAddress policy wallets entity.walletAddresses).lookup address =
      (if entity.lists parseAddress address then some policy else none).or
        (wallets.lookup address) := by
  unfold indexed WireEntity.lists
  induction entity.walletAddresses generalizing wallets with
  | nil => rfl
  | cons wallet list ih =>
    rw [List.foldl_cons, ih, List.any_cons]
    cases hparse : parseAddress wallet.address with
    | none => simp
    | some a =>
      rw [Option.elim_some, Map.lookup_insert_eq]
      by_cases ha : address = a
      · have hself : (some a == some address) = true := by simp [ha]
        rw [if_pos ha, hself, Bool.true_or, if_pos rfl]
        split_ifs <;> rfl
      · have hother : (some a == some address) = false := by
          simpa using fun h : a = address => ha h.symm
        rw [if_neg ha, hother, Bool.false_or]

theorem foldlM_indexWallet {list : List WireWallet}
    (h : ∀ wallet ∈ list, (parseAddress wallet.address).isSome) (policy : WalletPolicy)
    (wallets : Map Address WalletPolicy) :
    list.foldlM (indexWallet parseAddress policy) wallets =
      .ok (indexed parseAddress policy wallets list) := by
  refine foldlM_ok ?_ wallets
  intro wallet hwallet acc
  obtain ⟨address, hparse⟩ := Option.isSome_iff_exists.mp (h wallet hwallet)
  simp only [indexWallet, hparse, Option.elim_some]

/-- A readable address for every wallet, and a group for every name. -/
def EntityOk (parseAddress : String → Option Address) (data : SnapshotData)
    (entity : WireEntity) : Prop :=
  (entity.ruleGroupId = "" ∨ ∃ group, lastGroup data entity.ruleGroupId = some group) ∧
    ∀ wallet ∈ entity.walletAddresses, (parseAddress wallet.address).isSome

theorem wellFormed_iff (data : SnapshotData) :
    wellFormed parseAddress data = true ↔
      ∀ entity ∈ data.entities, EntityOk parseAddress data entity := by
  simp only [wellFormed, EntityOk, lastGroup_isSome_iff, List.all_eq_true, Bool.and_eq_true,
    Bool.or_eq_true, decide_eq_true_eq, List.any_eq_true]

theorem indexEntity_ok {data : SnapshotData} {entity : WireEntity}
    (h : EntityOk parseAddress data entity) (wallets : Map Address WalletPolicy) :
    indexEntity parseAddress (collectGroups data.ruleGroups) wallets entity =
      .ok (indexed parseAddress (entity.policy data) wallets entity.walletAddresses) := by
  unfold indexEntity
  rw [findGroup_ok h.1]
  exact foldlM_indexWallet h.2 _ wallets

theorem indexEntity_error {data : SnapshotData} {entity : WireEntity}
    (h : ¬EntityOk parseAddress data entity) (wallets : Map Address WalletPolicy) :
    ∃ err, indexEntity parseAddress (collectGroups data.ruleGroups) wallets entity =
      .error err := by
  unfold indexEntity
  by_cases hgroup : entity.ruleGroupId = "" ∨
      ∃ group, lastGroup data entity.ruleGroupId = some group
  · have hwallet : ∃ wallet ∈ entity.walletAddresses, parseAddress wallet.address = none := by
      by_contra hall
      refine h ⟨hgroup, fun wallet hwallet => ?_⟩
      rw [Option.isSome_iff_ne_none]
      exact fun hnone => hall ⟨wallet, hwallet, hnone⟩
    obtain ⟨wallet, hmem, hnone⟩ := hwallet
    rw [findGroup_ok hgroup]
    refine foldlM_error hmem (fun acc => ⟨.invalidAddress wallet.address, ?_⟩) wallets
    simp only [indexWallet, hnone]
  · have hparts := not_or.mp hgroup
    have hnone : lastGroup data entity.ruleGroupId = none := by
      cases hlast : lastGroup data entity.ruleGroupId with
      | none => rfl
      | some group => exact absurd ⟨group, hlast⟩ hparts.2
    rw [findGroup_error hparts.1 hnone]
    exact ⟨_, rfl⟩

/-- A well-formed payload is indexed, and the index says of every address what its last entity
says. -/
theorem fromWire_ok {data : SnapshotData} (h : wellFormed parseAddress data = true) :
    ∃ snapshot, PolicySnapshot.fromWire parseAddress data = .ok snapshot ∧
      snapshot.version = data.version ∧
      ∀ address, snapshot.wallets.lookup address =
        (lastEntity parseAddress data address).map (WireEntity.policy data) := by
  have hok := (wellFormed_iff data).mp h
  have hloop := foldlM_ok (f := indexEntity parseAddress (collectGroups data.ruleGroups))
    (fun entity hentity => indexEntity_ok (hok entity hentity)) ∅
  refine ⟨⟨data.version, data.entities.foldl (fun wallets entity =>
    indexed parseAddress (entity.policy data) wallets entity.walletAddresses) ∅⟩, ?_, rfl, ?_⟩
  · simp only [PolicySnapshot.fromWire]
    rw [hloop]
    rfl
  · intro address
    have hstep : ∀ (wallets : Map Address WalletPolicy) (entity : WireEntity),
        (indexed parseAddress (entity.policy data) wallets entity.walletAddresses).lookup address =
          ((if entity.lists parseAddress address then some entity else none).map
            (WireEntity.policy data)).or (wallets.lookup address) := by
      intro wallets entity
      rw [lookup_indexed]
      split_ifs <;> rfl
    have hview := view_foldl hstep data.entities ∅
    rw [AList.lookup_empty, Option.or_none, lastSome_map] at hview
    exact hview

theorem fromWire_error_iff (data : SnapshotData) :
    (∃ err, PolicySnapshot.fromWire parseAddress data = .error err) ↔
      wellFormed parseAddress data = false := by
  constructor
  · intro h
    obtain ⟨err, herr⟩ := h
    cases hwell : wellFormed parseAddress data with
    | false => rfl
    | true =>
      obtain ⟨snapshot, hok, -⟩ := fromWire_ok hwell
      rw [hok] at herr
      simp at herr
  · intro h
    have hbad : ∃ entity ∈ data.entities, ¬EntityOk parseAddress data entity := by
      by_contra hall
      have hwell := (wellFormed_iff data).mpr (fun entity hentity => by
        by_contra hbad
        exact hall ⟨entity, hentity, hbad⟩)
      rw [h] at hwell
      simp at hwell
    obtain ⟨entity, hentity, hbad⟩ := hbad
    obtain ⟨err, herr⟩ := foldlM_error
      (f := indexEntity parseAddress (collectGroups data.ruleGroups)) hentity
      (indexEntity_error hbad) ∅
    refine ⟨err, ?_⟩
    simp only [PolicySnapshot.fromWire]
    rw [herr]
    rfl

/-- The evaluation of a group, as its raw form says it. -/
theorem group_permits_iff (group : WireRuleGroup) (localChain : ChainId)
    (involved : List ChainId) :
    ¬(group.resolve.networkScope = .restricted ∧
        ∃ chain ∈ involved, chain ≠ localChain ∧ chain ∉ group.resolve.allowedPeers) ↔
      NetworkScope.parse group.networkScope ≠ .restricted ∨
        ∀ chain ∈ involved, chain ≠ localChain → ⟨chain⟩ ∈ group.rollups := by
  have hpeers : ∀ chain, chain ∈ group.resolve.allowedPeers ↔ ⟨chain⟩ ∈ group.rollups := by
    intro chain
    simp only [WireRuleGroup.resolve, List.mem_toFinset, List.mem_map]
    constructor
    · intro h
      obtain ⟨item, hitem, hchain⟩ := h
      rw [← hchain]
      exact hitem
    · intro h
      exact ⟨⟨chain⟩, h, rfl⟩
  have hscope : group.resolve.networkScope = NetworkScope.parse group.networkScope := rfl
  simp only [hpeers, hscope, not_and_or, not_exists, not_not]
  refine or_congr Iff.rfl (forall_congr' fun chain => ?_)
  tauto

/-- A connected engine under the index of a payload decides by the raw lists. -/
theorem evaluateXt_fromWire {data : SnapshotData} (hwell : wellFormed parseAddress data = true)
    {engine : PermissionEngine} (henabled : engine.enabled = true) {snapshot : PolicySnapshot}
    (hfresh : engine.fresh = some snapshot)
    (hindex : ∀ address, snapshot.wallets.lookup address =
      (lastEntity parseAddress data address).map (WireEntity.policy data))
    (sender : Address) (localChain : ChainId) (involved : List ChainId) :
    engine.evaluateXt sender localChain involved = .allow ↔
      MayTakePart parseAddress data sender localChain involved := by
  have hresolve : engine.resolveGroup sender =
      (lastEntity parseAddress data sender).elim (.ok none) (fun entity =>
        if entity.isActive then .ok (entity.policy data).group else .error .entityInactive) := by
    rw [PermissionEngine.resolveGroup_of_fresh henabled hfresh, hindex]
    cases lastEntity parseAddress data sender <;> rfl
  unfold PermissionEngine.evaluateXt MayTakePart
  rw [hresolve]
  cases hlast : lastEntity parseAddress data sender with
  | none => simp
  | some entity =>
    have hmem : entity ∈ data.entities := by
      obtain ⟨e, he, hclaim⟩ := exists_of_lastSome hlast
      split_ifs at hclaim
      rw [← Option.some.inj hclaim]
      exact he
    have hgroup := ((wellFormed_iff data).mp hwell entity hmem).1
    simp only [Option.elim_some, reduceCtorEq, false_or, Option.some.injEq, exists_eq_left']
    cases hactive : entity.isActive with
    | false => simp
    | true =>
      by_cases hid : entity.ruleGroupId = ""
      · simp [WireEntity.policy, hid]
      · obtain ⟨group, hg⟩ := hgroup.resolve_left hid
        have hpolicy : (entity.policy data).group = some group.resolve := by
          simp [WireEntity.policy, hid, hg]
        simp only [if_true, hpolicy, hid, hg, false_or, Option.some.injEq, exists_eq_left', true_and]
        rw [← group_permits_iff]
        split_ifs with hblocked
        · simpa using hblocked
        · simpa using hblocked

end Spec

end Sidecar.Permissions
