import Sidecar.Permissions.Snapshot
import Mathlib.Data.List.Perm.Basic

/-! What the order of a policy payload decides: which of several entries for one wallet, or of
several groups under one name, is the one that counts. -/

namespace Sidecar.Permissions

/-- The entity with its wallets in another order. -/
structure WireEntity.Relisted (entity entity' : WireEntity) : Prop where
  active : entity'.isActive = entity.isActive
  group : entity'.ruleGroupId = entity.ruleGroupId
  wallets : entity.walletAddresses.Perm entity'.walletAddresses

/-- The payload with its groups, its entities and the wallets of each entity in another order. -/
structure Relisted (data data' : SnapshotData) : Prop where
  version : data'.version = data.version
  groups : data.ruleGroups.Perm data'.ruleGroups
  entities : ∃ mid, List.Forall₂ WireEntity.Relisted data.entities mid ∧ mid.Perm data'.entities

theorem WireEntity.Relisted.refl (entity : WireEntity) : entity.Relisted entity :=
  ⟨rfl, rfl, .refl _⟩

theorem WireEntity.Relisted.symm {entity entity' : WireEntity} (h : entity.Relisted entity') :
    entity'.Relisted entity :=
  ⟨h.active.symm, h.group.symm, h.wallets.symm⟩

theorem exists_of_forall₂ {α β : Type} {R : α → β → Prop} {l : List α} {l' : List β}
    (h : List.Forall₂ R l l') {a : α} (ha : a ∈ l) : ∃ b ∈ l', R a b := by
  induction h with
  | nil => simp at ha
  | @cons x y xs ys hxy _ ih =>
    rcases List.mem_cons.mp ha with rfl | ha
    · exact ⟨y, List.mem_cons_self, hxy⟩
    · obtain ⟨b, hb, hab⟩ := ih ha
      exact ⟨b, List.mem_cons_of_mem _ hb, hab⟩

/-- Every entity of one payload stands in the other, with its wallets in some order. -/
theorem Relisted.entity {data data' : SnapshotData} (h : Relisted data data') {entity : WireEntity}
    (hentity : entity ∈ data.entities) : ∃ entity' ∈ data'.entities, entity.Relisted entity' := by
  obtain ⟨mid, hmid, hperm⟩ := h.entities
  obtain ⟨entity', hmem, hrel⟩ := exists_of_forall₂ hmid hentity
  exact ⟨entity', hperm.mem_iff.mp hmem, hrel⟩

theorem Relisted.entity' {data data' : SnapshotData} (h : Relisted data data') {entity : WireEntity}
    (hentity : entity ∈ data'.entities) : ∃ entity' ∈ data.entities, entity.Relisted entity' := by
  obtain ⟨mid, hmid, hperm⟩ := h.entities
  obtain ⟨entity', hmem, hrel⟩ := exists_of_forall₂ hmid.flip (hperm.mem_iff.mpr hentity)
  exact ⟨entity', hmem, WireEntity.Relisted.symm hrel⟩

section Says

variable (parseAddress : String → Option Address)

/-- The payload has this policy for an address: an entity lists it, and the group is one of those
under the entity's name for it. -/
def Says (data : SnapshotData) (address : Address) (policy : WalletPolicy) : Prop :=
  ∃ entity ∈ data.entities, entity.lists parseAddress address = true ∧
    ((entity.ruleGroupId = "" ∧ policy = ⟨entity.isActive, none⟩) ∨
      ∃ group ∈ data.ruleGroups, entity.ruleGroupId ≠ "" ∧
        group.ruleGroupId = entity.ruleGroupId ∧
        policy = ⟨entity.isActive, some group.resolve⟩)

variable {parseAddress} {data data' : SnapshotData}

theorem lists_relisted {entity entity' : WireEntity} (h : entity.Relisted entity')
    (address : Address) :
    entity'.lists parseAddress address = entity.lists parseAddress address := by
  rw [Bool.eq_iff_iff]
  simp only [WireEntity.lists, List.any_eq_true, h.wallets.mem_iff]

/-- What a payload says does not depend on the order. -/
theorem says_relisted (hgroups : data.ruleGroups.Perm data'.ruleGroups)
    (hentities : ∀ entity ∈ data.entities, ∃ entity' ∈ data'.entities, entity.Relisted entity')
    {address : Address} {policy : WalletPolicy} (h : Says parseAddress data address policy) :
    Says parseAddress data' address policy := by
  obtain ⟨entity, hmem, hlists, hpolicy⟩ := h
  obtain ⟨entity', hmem', hrel⟩ := hentities entity hmem
  refine ⟨entity', hmem', (lists_relisted hrel address).trans hlists, ?_⟩
  rw [hrel.active, hrel.group]
  rcases hpolicy with hnone | ⟨group, hgroup, hname⟩
  · exact Or.inl hnone
  · exact Or.inr ⟨group, hgroups.mem_iff.mp hgroup, hname⟩

theorem wellFormed_relisted (hgroups : data.ruleGroups.Perm data'.ruleGroups)
    (hentities : ∀ entity ∈ data'.entities, ∃ entity' ∈ data.entities, entity.Relisted entity')
    (h : wellFormed parseAddress data = true) : wellFormed parseAddress data' = true := by
  rw [wellFormed_iff] at h ⊢
  intro entity hmem
  obtain ⟨entity', hmem', hrel⟩ := hentities entity hmem
  obtain ⟨hgroup, hwallets⟩ := h entity' hmem'
  constructor
  · rw [lastGroup_isSome_iff, hrel.group] at hgroup
    rw [lastGroup_isSome_iff]
    refine hgroup.imp id ?_
    intro hfound
    obtain ⟨group, hg, hid⟩ := hfound
    exact ⟨group, hgroups.mem_iff.mp hg, hid⟩
  · intro wallet hwallet
    exact hwallets wallet (hrel.wallets.mem_iff.mp hwallet)

theorem Relisted.wellFormed_eq (h : Relisted data data') :
    wellFormed parseAddress data = wellFormed parseAddress data' := by
  rw [Bool.eq_iff_iff]
  exact ⟨wellFormed_relisted h.groups (fun _ => h.entity'),
    wellFormed_relisted h.groups.symm (fun _ => h.entity)⟩

theorem exists_of_lastEntity {address : Address} {entity : WireEntity}
    (h : lastEntity parseAddress data address = some entity) :
    entity ∈ data.entities ∧ entity.lists parseAddress address = true := by
  obtain ⟨e, he, hclaim⟩ := exists_of_lastSome h
  split_ifs at hclaim with hlists
  rw [← Option.some.inj hclaim]
  exact ⟨he, hlists⟩

/-- The index holds one of the policies that the payload has for an address. -/
theorem says_of_lastEntity (hwell : wellFormed parseAddress data = true) {address : Address}
    {entity : WireEntity} (h : lastEntity parseAddress data address = some entity) :
    Says parseAddress data address (entity.policy data) := by
  obtain ⟨hmem, hlists⟩ := exists_of_lastEntity h
  refine ⟨entity, hmem, hlists, ?_⟩
  by_cases hid : entity.ruleGroupId = ""
  · exact Or.inl ⟨hid, by simp [WireEntity.policy, hid]⟩
  · obtain ⟨group, hlast⟩ := (((wellFormed_iff data).mp hwell entity hmem).1).resolve_left hid
    obtain ⟨g, hg, hclaim⟩ := exists_of_lastSome hlast
    split_ifs at hclaim with hname
    obtain rfl := Option.some.inj hclaim
    exact Or.inr ⟨g, hg, hid, hname, by simp [WireEntity.policy, hid, hlast]⟩

theorem lastEntity_isSome {address : Address} {policy : WalletPolicy}
    (h : Says parseAddress data address policy) :
    ∃ entity, lastEntity parseAddress data address = some entity := by
  obtain ⟨entity, hmem, hlists, -⟩ := h
  rw [← Option.isSome_iff_exists, Option.isSome_iff_ne_none]
  intro hnone
  have hclaim := lastSome_eq_none.mp hnone entity hmem
  rw [if_pos hlists] at hclaim
  simp at hclaim

/-- The payload with one entity and one group moved to the end. -/
def SnapshotData.withLast (data : SnapshotData) (entity : WireEntity) (group : WireRuleGroup) :
    SnapshotData :=
  { version := data.version
    entities := data.entities.erase entity ++ [entity]
    ruleGroups := data.ruleGroups.erase group ++ [group] }

theorem perm_erase_append {α : Type} [DecidableEq α] {a : α} {l : List α} (h : a ∈ l) :
    l.Perm (l.erase a ++ [a]) :=
  (List.perm_cons_erase h).trans (List.perm_append_singleton _ _).symm

theorem relisted_of_entities {entities : List WireEntity} (h : data.entities.Perm entities)
    {groups : List WireRuleGroup} (hgroups : data.ruleGroups.Perm groups) :
    Relisted data ⟨data.version, entities, groups⟩ :=
  ⟨rfl, hgroups, data.entities, List.forall₂_same.mpr (fun e _ => .refl e), h⟩

theorem lastEntity_append {entities : List WireEntity} {entity : WireEntity} {address : Address}
    (h : entity.lists parseAddress address = true) (version : Nat) (groups : List WireRuleGroup) :
    lastEntity parseAddress ⟨version, entities ++ [entity], groups⟩ address = some entity := by
  rw [lastEntity, lastSome_append_singleton, if_pos h]
  rfl

/-- Any policy that a payload has for an address counts in some order of it. -/
theorem exists_relisted_policy {address : Address} {policy : WalletPolicy}
    (h : Says parseAddress data address policy) :
    ∃ data', Relisted data data' ∧
      (lastEntity parseAddress data' address).map (WireEntity.policy data') = some policy := by
  obtain ⟨entity, hmem, hlists, hpolicy⟩ := h
  rcases hpolicy with ⟨hid, hpolicy⟩ | ⟨group, hgroup, hid, hname, hpolicy⟩
  · refine ⟨⟨data.version, data.entities.erase entity ++ [entity], data.ruleGroups⟩,
      relisted_of_entities (perm_erase_append hmem) (.refl _), ?_⟩
    rw [lastEntity_append hlists, hpolicy]
    simp [WireEntity.policy, hid]
  · refine ⟨data.withLast entity group,
      relisted_of_entities (perm_erase_append hmem) (perm_erase_append hgroup), ?_⟩
    have hfound : lastGroup (data.withLast entity group) entity.ruleGroupId = some group := by
      rw [lastGroup, SnapshotData.withLast, lastSome_append_singleton, if_pos hname]
      rfl
    have hlast : lastEntity parseAddress (data.withLast entity group) address = some entity :=
      lastEntity_append hlists _ _
    rw [hlast, hpolicy]
    simp [WireEntity.policy, hid, hfound]

end Says

section Decisions

/-- What a policy lets its wallet do while the entity is active. -/
def WalletPolicy.sendsNative (policy : WalletPolicy) : Bool :=
  policy.group.elim true RuleGroup.sendNative

def WalletPolicy.deploys (policy : WalletPolicy) : Bool :=
  policy.group.elim true RuleGroup.canDeployContract

def WalletPolicy.reaches (policy : WalletPolicy) (chain : ChainId) : Bool :=
  policy.group.elim true (fun group =>
    !decide (group.networkScope = .restricted) || decide (chain ∈ group.allowedPeers))

/-- Two policies that allow the same. -/
structure WalletPolicy.Agree (p q : WalletPolicy) : Prop where
  active : p.entityActive = q.entityActive
  sendsNative : p.entityActive = true → p.sendsNative = q.sendsNative
  deploys : p.entityActive = true → p.deploys = q.deploys
  reaches : p.entityActive = true → ∀ chain, p.reaches chain = q.reaches chain

theorem WalletPolicy.Agree.refl (p : WalletPolicy) : p.Agree p :=
  ⟨rfl, fun _ => rfl, fun _ => rfl, fun _ _ => rfl⟩

/-- Engines that hold the two snapshots decide alike. -/
def SameDecisions (snapshot snapshot' : PolicySnapshot) : Prop :=
  ∀ (enabled connected : Bool) (address : Address),
    (∀ isCreate hasValue : Bool,
      PermissionEngine.evaluateTx ⟨enabled, connected, some snapshot⟩ address isCreate hasValue =
        PermissionEngine.evaluateTx ⟨enabled, connected, some snapshot'⟩ address isCreate hasValue) ∧
    ∀ (localChain : ChainId) (involved : List ChainId),
      PermissionEngine.evaluateXt ⟨enabled, connected, some snapshot⟩ address localChain involved =
        PermissionEngine.evaluateXt ⟨enabled, connected, some snapshot'⟩ address localChain involved

/-- The decision on a transaction, by the policy of the wallet. -/
def WalletPolicy.decideTx (policy : WalletPolicy) (isCreate hasValue : Bool) : Decision :=
  if !policy.entityActive then .deny .entityInactive
  else if hasValue && !policy.sendsNative then .deny .nativeSendBlocked
  else if isCreate && !policy.deploys then .deny .contractDeployBlocked
  else .allow

def WalletPolicy.decideXt (policy : WalletPolicy) (localChain : ChainId) (involved : List ChainId) :
    Decision :=
  if !policy.entityActive then .deny .entityInactive
  else if ∃ chain ∈ involved, chain ≠ localChain ∧ policy.reaches chain = false then
    .deny .peerChainNotWhitelisted
  else .allow

theorem evaluateTx_eq (snapshot : PolicySnapshot) (address : Address) (isCreate hasValue : Bool) :
    PermissionEngine.evaluateTx ⟨true, true, some snapshot⟩ address isCreate hasValue =
      (snapshot.wallets.lookup address).elim .allow
        (fun policy => policy.decideTx isCreate hasValue) := by
  rw [PermissionEngine.evaluateTx, @PermissionEngine.resolveGroup_of_fresh
    ⟨true, true, some snapshot⟩ rfl snapshot rfl address]
  cases snapshot.wallets.lookup address with
  | none => rfl
  | some policy =>
    obtain ⟨active, group⟩ := policy
    cases active with
    | false => rfl
    | true =>
      cases group with
      | none => simp [WalletPolicy.decideTx, WalletPolicy.sendsNative, WalletPolicy.deploys]
      | some group => rfl

theorem evaluateXt_eq (snapshot : PolicySnapshot) (address : Address) (localChain : ChainId)
    (involved : List ChainId) :
    PermissionEngine.evaluateXt ⟨true, true, some snapshot⟩ address localChain involved =
      (snapshot.wallets.lookup address).elim .allow
        (fun policy => policy.decideXt localChain involved) := by
  rw [PermissionEngine.evaluateXt, @PermissionEngine.resolveGroup_of_fresh
    ⟨true, true, some snapshot⟩ rfl snapshot rfl address]
  cases snapshot.wallets.lookup address with
  | none => rfl
  | some policy =>
    obtain ⟨active, group⟩ := policy
    cases active with
    | false => rfl
    | true =>
      cases group with
      | none => simp [WalletPolicy.decideXt, WalletPolicy.reaches]
      | some group =>
        have hblocked : (group.networkScope = .restricted ∧
            ∃ chain ∈ involved, chain ≠ localChain ∧ chain ∉ group.allowedPeers) ↔
            ∃ chain ∈ involved, chain ≠ localChain ∧
              WalletPolicy.reaches ⟨true, some group⟩ chain = false := by
          simp only [WalletPolicy.reaches, Option.elim_some, Bool.or_eq_false_iff,
            Bool.not_eq_false', decide_eq_true_eq, decide_eq_false_iff_not]
          constructor
          · rintro ⟨hscope, chain, hmem, hne, hnot⟩
            exact ⟨chain, hmem, hne, hscope, hnot⟩
          · rintro ⟨chain, hmem, hne, hscope, hnot⟩
            exact ⟨hscope, chain, hmem, hne, hnot⟩
        simp only [Bool.not_true, Bool.false_eq_true, if_false, if_true, Option.elim_some,
          WalletPolicy.decideXt]
        simp only [hblocked]

theorem WalletPolicy.Agree.decideTx {p q : WalletPolicy} (h : p.Agree q) (isCreate hasValue : Bool) :
    p.decideTx isCreate hasValue = q.decideTx isCreate hasValue := by
  unfold WalletPolicy.decideTx
  rw [← h.active]
  cases hactive : p.entityActive with
  | false => rfl
  | true => rw [h.sendsNative hactive, h.deploys hactive]

theorem WalletPolicy.Agree.decideXt {p q : WalletPolicy} (h : p.Agree q) (localChain : ChainId)
    (involved : List ChainId) : p.decideXt localChain involved = q.decideXt localChain involved := by
  unfold WalletPolicy.decideXt
  rw [← h.active]
  cases hactive : p.entityActive with
  | false => rfl
  | true => simp only [h.reaches hactive]

/-- The decisions of an active wallet show what its policy allows. -/
theorem agree_of_decisions {p q : WalletPolicy}
    (htx : ∀ isCreate hasValue, p.decideTx isCreate hasValue = q.decideTx isCreate hasValue)
    (hxt : ∀ localChain involved, p.decideXt localChain involved = q.decideXt localChain involved) :
    p.Agree q := by
  have hactive : p.entityActive = q.entityActive := by
    have h := htx false false
    unfold WalletPolicy.decideTx at h
    cases hp : p.entityActive <;> cases hq : q.entityActive <;> simp [hp, hq] at h ⊢
  refine ⟨hactive, fun hp => ?_, fun hp => ?_, fun hp chain => ?_⟩
  · have h := htx false true
    unfold WalletPolicy.decideTx at h
    rw [← hactive, hp] at h
    cases hs : p.sendsNative <;> cases hs' : q.sendsNative <;> simp [hs, hs'] at h ⊢
  · have h := htx true false
    unfold WalletPolicy.decideTx at h
    rw [← hactive, hp] at h
    cases hs : p.deploys <;> cases hs' : q.deploys <;> simp [hs, hs'] at h ⊢
  · have h := hxt (chain + 1) [chain]
    unfold WalletPolicy.decideXt at h
    rw [← hactive, hp] at h
    cases hs : p.reaches chain <;> cases hs' : q.reaches chain <;> simp [hs, hs'] at h ⊢

/-- Only an enabled and connected engine looks at its snapshot. -/
theorem sameDecisions_iff (snapshot snapshot' : PolicySnapshot) :
    SameDecisions snapshot snapshot' ↔
      ∀ (address : Address),
        (∀ isCreate hasValue : Bool,
          PermissionEngine.evaluateTx ⟨true, true, some snapshot⟩ address isCreate hasValue =
            PermissionEngine.evaluateTx ⟨true, true, some snapshot'⟩ address isCreate hasValue) ∧
        ∀ (localChain : ChainId) (involved : List ChainId),
          PermissionEngine.evaluateXt ⟨true, true, some snapshot⟩ address localChain involved =
            PermissionEngine.evaluateXt ⟨true, true, some snapshot'⟩ address localChain involved := by
  constructor
  · exact fun h address => h true true address
  · intro h enabled connected address
    cases enabled with
    | false => exact ⟨fun _ _ => rfl, fun _ _ => rfl⟩
    | true =>
      cases connected with
      | false => exact ⟨fun _ _ => rfl, fun _ _ => rfl⟩
      | true => exact h address

end Decisions

section Order

variable (parseAddress : String → Option Address)

/-- All that a payload says of one wallet agrees. -/
def Unambiguous (data : SnapshotData) : Prop :=
  ∀ address p q, Says parseAddress data address p → Says parseAddress data address q → p.Agree q

/-- Every other order of the payload is accepted or rejected alike and decides alike. -/
def OrderIrrelevant (data : SnapshotData) : Prop :=
  ∀ data', Relisted data data' →
    ((∃ snapshot, PolicySnapshot.fromWire parseAddress data = .ok snapshot) ↔
      ∃ snapshot, PolicySnapshot.fromWire parseAddress data' = .ok snapshot) ∧
    ∀ snapshot snapshot', PolicySnapshot.fromWire parseAddress data = .ok snapshot →
      PolicySnapshot.fromWire parseAddress data' = .ok snapshot' → SameDecisions snapshot snapshot'

variable {parseAddress} {data data' : SnapshotData}

theorem fromWire_ok_iff (data : SnapshotData) :
    (∃ snapshot, PolicySnapshot.fromWire parseAddress data = .ok snapshot) ↔
      wellFormed parseAddress data = true := by
  constructor
  · rintro ⟨snapshot, hok⟩
    cases hwell : wellFormed parseAddress data with
    | true => rfl
    | false =>
      obtain ⟨err, herr⟩ := (fromWire_error_iff data).mpr hwell
      rw [hok] at herr
      simp at herr
  · intro hwell
    obtain ⟨snapshot, hok, -⟩ := fromWire_ok hwell
    exact ⟨snapshot, hok⟩

theorem lookup_fromWire {snapshot : PolicySnapshot}
    (h : PolicySnapshot.fromWire parseAddress data = .ok snapshot) (address : Address) :
    snapshot.wallets.lookup address =
      (lastEntity parseAddress data address).map (WireEntity.policy data) := by
  obtain ⟨snapshot', hok, -, hindex⟩ := fromWire_ok ((fromWire_ok_iff data).mp ⟨snapshot, h⟩)
  rw [h] at hok
  rw [Except.ok.inj hok]
  exact hindex address

theorem sameDecisions_of_unambiguous (hrel : Relisted data data')
    (hclear : Unambiguous parseAddress data) {snapshot snapshot' : PolicySnapshot}
    (h : PolicySnapshot.fromWire parseAddress data = .ok snapshot)
    (h' : PolicySnapshot.fromWire parseAddress data' = .ok snapshot') :
    SameDecisions snapshot snapshot' := by
  have hwell := (fromWire_ok_iff data).mp ⟨snapshot, h⟩
  have hwell' := (fromWire_ok_iff data').mp ⟨snapshot', h'⟩
  have hback : ∀ address policy, Says parseAddress data' address policy →
      Says parseAddress data address policy :=
    fun address policy => says_relisted hrel.groups.symm (fun _ => hrel.entity')
  have hforth : ∀ address policy, Says parseAddress data address policy →
      Says parseAddress data' address policy :=
    fun address policy => says_relisted hrel.groups (fun _ => hrel.entity)
  rw [sameDecisions_iff]
  intro address
  simp only [evaluateTx_eq, evaluateXt_eq, lookup_fromWire h, lookup_fromWire h']
  cases hlast : lastEntity parseAddress data address with
  | none =>
    have hnone : lastEntity parseAddress data' address = none := by
      cases hlast' : lastEntity parseAddress data' address with
      | none => rfl
      | some entity =>
        obtain ⟨e, he⟩ := lastEntity_isSome (hback _ _ (says_of_lastEntity hwell' hlast'))
        rw [hlast] at he
        simp at he
    rw [hnone]
    exact ⟨fun _ _ => rfl, fun _ _ => rfl⟩
  | some entity =>
    have hsays := says_of_lastEntity hwell hlast
    obtain ⟨entity', hlast'⟩ := lastEntity_isSome (hforth _ _ hsays)
    have hagree := hclear address _ _ hsays (hback _ _ (says_of_lastEntity hwell' hlast'))
    rw [hlast']
    exact ⟨hagree.decideTx, hagree.decideXt⟩

theorem SameDecisions.agree {snapshot snapshot' : PolicySnapshot}
    (h : SameDecisions snapshot snapshot') {address : Address} {p q : WalletPolicy}
    (hp : snapshot.wallets.lookup address = some p)
    (hq : snapshot'.wallets.lookup address = some q) : p.Agree q := by
  obtain ⟨htx, hxt⟩ := (sameDecisions_iff snapshot snapshot').mp h address
  simp only [evaluateTx_eq, evaluateXt_eq, hp, hq, Option.elim_some] at htx hxt
  exact agree_of_decisions htx hxt

/-- The order of a payload never matters just when an accepted payload says one thing of every
wallet: entries of several entities, and groups under one name, must agree. -/
theorem listing_order_irrelevant_iff (parseAddress : String → Option Address)
    (data : SnapshotData) :
    OrderIrrelevant parseAddress data ↔
      (wellFormed parseAddress data = true → Unambiguous parseAddress data) := by
  constructor
  · intro h hwell address p q hp hq
    obtain ⟨snapshot, hok⟩ := (fromWire_ok_iff data).mpr hwell
    -- each of the two policies counts in an order of its own
    have hcounts : ∀ {policy : WalletPolicy}, Says parseAddress data address policy →
        ∃ snapshot', SameDecisions snapshot snapshot' ∧
          snapshot'.wallets.lookup address = some policy := by
      intro policy hsays
      obtain ⟨data', hrel, hlast⟩ := exists_relisted_policy hsays
      obtain ⟨haccepted, hsame⟩ := h data' hrel
      obtain ⟨snapshot', hok'⟩ := haccepted.mp ⟨snapshot, hok⟩
      exact ⟨snapshot', hsame snapshot snapshot' hok hok', by rw [lookup_fromWire hok', hlast]⟩
    obtain ⟨left, hleft, hlookup⟩ := hcounts hp
    obtain ⟨right, hright, hlookup'⟩ := hcounts hq
    have hboth : SameDecisions left right := fun enabled connected a =>
      ⟨fun isCreate hasValue => ((hleft enabled connected a).1 isCreate hasValue).symm.trans
          ((hright enabled connected a).1 isCreate hasValue),
        fun localChain involved => ((hleft enabled connected a).2 localChain involved).symm.trans
          ((hright enabled connected a).2 localChain involved)⟩
    exact hboth.agree hlookup hlookup'
  · intro h data' hrel
    refine ⟨?_, fun snapshot snapshot' hok hok' => ?_⟩
    · rw [fromWire_ok_iff, fromWire_ok_iff, hrel.wellFormed_eq]
    · exact sameDecisions_of_unambiguous hrel (h ((fromWire_ok_iff data).mp ⟨snapshot, hok⟩)) hok hok'

end Order

section Example

def sharedWallet : WireWallet := ⟨"0x1111111111111111111111111111111111111111"⟩

/-- One wallet of a blocked entity and of an active one. -/
def blockedFirst : SnapshotData :=
  { version := 1
    entities := [{ isActive := false, walletAddresses := [sharedWallet] },
      { isActive := true, walletAddresses := [sharedWallet] }] }

/-- The same two entities, the other way round. -/
def blockedLast : SnapshotData :=
  { version := 1
    entities := [{ isActive := true, walletAddresses := [sharedWallet] },
      { isActive := false, walletAddresses := [sharedWallet] }] }

def readShared (text : String) : Option Address :=
  if text = sharedWallet.address then some (.repeatByte 20 0x11) else none

/-- Both orders are accepted; in one the wallet is blocked, in the other it may do everything. -/
theorem listing_order_unblocks_wallet :
    Relisted blockedFirst blockedLast ∧
      ∃ snapshot snapshot', PolicySnapshot.fromWire readShared blockedFirst = .ok snapshot ∧
        PolicySnapshot.fromWire readShared blockedLast = .ok snapshot' ∧
        PermissionEngine.evaluateTx ⟨true, true, some snapshot⟩ (.repeatByte 20 0x11) true true =
          .allow ∧
        PermissionEngine.evaluateTx ⟨true, true, some snapshot'⟩ (.repeatByte 20 0x11) true true =
          .deny .entityInactive ∧
        PermissionEngine.evaluateXt ⟨true, true, some snapshot⟩ (.repeatByte 20 0x11) 1 [1, 2] =
          .allow ∧
        PermissionEngine.evaluateXt ⟨true, true, some snapshot'⟩ (.repeatByte 20 0x11) 1 [1, 2] =
          .deny .entityInactive := by
  have hrel : Relisted blockedFirst blockedLast :=
    relisted_of_entities (.swap _ _ _) (.refl _)
  exact ⟨hrel, _, _, rfl, rfl, by decide, by decide, by decide, by decide⟩

end Example

end Sidecar.Permissions
