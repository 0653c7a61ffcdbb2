import Sidecar.Mailbox.Storage

namespace Sidecar.Mailbox

section Entries

variable (keccak256 : Bytes → B256) (chainId : ChainId)

/-- The words that a `bytes` value puts into a patch, in the order of the writes. -/
def bytesEntries (slot : B256) (data : Bytes) : List (B256 × B256) :=
  if data.length ≤ 31 then [(slot, encodeShortBytes data)]
  else
    (slot, toBeBytes (BitVec.ofNat 256 data.length * 2 + 1)) ::
      (List.range (chunkCount data)).map (fun i => (chunkSlot keccak256 slot i, chunkWord data i))

def inboxSlot (dep : CrossRollupDependency) : B256 :=
  mappingSlot keccak256 (mailboxKey keccak256 chainId dep) inboxMappingSlot

def createdSlot (dep : CrossRollupDependency) : B256 :=
  mappingSlot keccak256 (mailboxKey keccak256 chainId dep) createdKeysMappingSlot

/-- The payload that the chain is to find for a dependency. -/
def applicable (dep : CrossRollupDependency) : Option Bytes :=
  if dep.destChainId = chainId then dep.data else none

def dependencyEntries (dep : CrossRollupDependency) : List (B256 × B256) :=
  (applicable chainId dep).elim [] (fun data =>
    bytesEntries keccak256 (inboxSlot keccak256 chainId dep) data ++
      [(createdSlot keccak256 chainId dep, toBeBytes 1)])

theorem applyBytesToStateDiff_eq (diff : SlotMap) (slot : B256) (data : Bytes) :
    applyBytesToStateDiff keccak256 diff slot data =
      Map.insertAll (bytesEntries keccak256 slot data) diff := by
  unfold applyBytesToStateDiff bytesEntries
  split_ifs with hshort
  · rfl
  · simp only [Map.insertAll, List.foldl_cons, List.foldl_map]

theorem writeDependency_eq (diff : SlotMap) (dep : CrossRollupDependency) :
    writeDependency keccak256 chainId diff dep =
      Map.insertAll (dependencyEntries keccak256 chainId dep) diff := by
  unfold writeDependency dependencyEntries applicable
  by_cases hdest : dep.destChainId = chainId
  · rw [if_neg (not_not.mpr hdest), if_pos hdest]
    cases dep.data with
    | none => rfl
    | some data =>
      rw [Option.elim_some, Map.insertAll_append, ← applyBytesToStateDiff_eq]
      rfl
  · rw [if_pos hdest, if_neg hdest]
    rfl

/-- The loop as one list of writes. -/
theorem mailboxStateDiff_eq (deps : List CrossRollupDependency) :
    mailboxStateDiff keccak256 chainId deps =
      Map.insertAll (deps.flatMap (dependencyEntries keccak256 chainId)) ∅ := by
  have hloop : ∀ diff : SlotMap, deps.foldl (writeDependency keccak256 chainId) diff =
      Map.insertAll (deps.flatMap (dependencyEntries keccak256 chainId)) diff := by
    induction deps with
    | nil => exact fun diff => rfl
    | cons dep deps ih =>
      intro diff
      rw [List.foldl_cons, ih, writeDependency_eq, List.flatMap_cons, Map.insertAll_append]
  exact hloop ∅

/-- The slots that belong to a dependency. -/
def derivedSlots (dep : CrossRollupDependency) : List B256 :=
  (dependencyEntries keccak256 chainId dep).map Prod.fst

theorem mem_mailboxStateDiff (deps : List CrossRollupDependency) (slot : B256) :
    slot ∈ mailboxStateDiff keccak256 chainId deps ↔
      ∃ dep ∈ deps, slot ∈ derivedSlots keccak256 chainId dep := by
  rw [mailboxStateDiff_eq, Map.mem_insertAll, List.map_flatMap, List.mem_flatMap]
  simp only [AList.notMem_empty, or_false]
  rfl

theorem derivedSlots_eq_nil (dep : CrossRollupDependency) :
    derivedSlots keccak256 chainId dep = [] ↔ applicable chainId dep = none := by
  unfold derivedSlots dependencyEntries
  cases applicable chainId dep with
  | none => simp
  | some data => simp

/-- Dependencies without a payload for the chain leave no trace. -/
theorem mailboxStateDiff_filter (deps : List CrossRollupDependency) :
    mailboxStateDiff keccak256 chainId (deps.filter (fun dep => (applicable chainId dep).isSome)) =
      mailboxStateDiff keccak256 chainId deps := by
  have hentries : (deps.filter (fun dep => (applicable chainId dep).isSome)).flatMap
      (dependencyEntries keccak256 chainId) =
      deps.flatMap (dependencyEntries keccak256 chainId) := by
    induction deps with
    | nil => rfl
    | cons dep deps ih =>
      rw [List.filter_cons, List.flatMap_cons]
      cases happ : applicable chainId dep with
      | none =>
        have hnone : dependencyEntries keccak256 chainId dep = [] := by
          simp [dependencyEntries, happ]
        rw [hnone]
        simpa using ih
      | some data =>
        simp only [Option.isSome_some, if_true, List.flatMap_cons]
        rw [ih]
  rw [mailboxStateDiff_eq, mailboxStateDiff_eq, hentries]

theorem entries_isEmpty_iff (deps : List CrossRollupDependency) :
    (mailboxStateDiff keccak256 chainId deps).entries.isEmpty = true ↔
      ∀ dep ∈ deps, applicable chainId dep = none := by
  have hkeys : (mailboxStateDiff keccak256 chainId deps).entries.isEmpty = true ↔
      ∀ slot, slot ∉ mailboxStateDiff keccak256 chainId deps := by
    rw [List.isEmpty_iff]
    constructor
    · intro h slot hslot
      rw [AList.mem_keys, AList.keys, h] at hslot
      simp at hslot
    · intro h
      rw [List.eq_nil_iff_forall_not_mem]
      intro e he
      exact h e.1 (AList.mem_keys.mpr (List.mem_map.mpr ⟨e, he, rfl⟩))
  rw [hkeys]
  constructor
  · intro h dep hdep
    rw [← derivedSlots_eq_nil keccak256 chainId dep, List.eq_nil_iff_forall_not_mem]
    intro slot hslot
    exact h slot ((mem_mailboxStateDiff keccak256 chainId deps slot).mpr ⟨dep, hdep, hslot⟩)
  · intro h slot hslot
    obtain ⟨dep, hdep, hderived⟩ := (mem_mailboxStateDiff keccak256 chainId deps slot).mp hslot
    rw [(derivedSlots_eq_nil keccak256 chainId dep).mpr (h dep hdep)] at hderived
    simp at hderived

end Entries

section Apart

variable (keccak256 : Bytes → B256) (chainId : ChainId)

/-- The slots of the words of a long payload. -/
def payloadSlots (dep : CrossRollupDependency) : List B256 :=
  (applicable chainId dep).elim [] (fun data =>
    if data.length ≤ 31 then []
    else
      (List.range (chunkCount data)).map
        (chunkSlot keccak256 (inboxSlot keccak256 chainId dep)))

/-- The slots of a dependency in the two mappings. -/
def mappedSlots (dep : CrossRollupDependency) : List B256 :=
  (applicable chainId dep).elim [] (fun _ =>
    [inboxSlot keccak256 chainId dep, createdSlot keccak256 chainId dep])

/-- The strings hashed for these slots. -/
def hashedInputs (dep : CrossRollupDependency) : List Bytes :=
  let key := mailboxKey keccak256 chainId dep
  (applicable chainId dep).elim [] (fun _ =>
    [mailboxKeyPreimage chainId dep, mappingPreimage key inboxMappingSlot,
      mappingPreimage key createdKeysMappingSlot])

/-- The hash has no collision among the strings hashed in one call, and the words of long
payloads keep clear of each other and of the mapping slots. -/
structure SlotsApart (deps : List CrossRollupDependency) : Prop where
  injective : ∀ p ∈ deps.flatMap (hashedInputs keccak256 chainId),
    ∀ q ∈ deps.flatMap (hashedInputs keccak256 chainId), keccak256 p = keccak256 q → p = q
  payloads : ∀ d ∈ deps, ∀ d' ∈ deps,
    DependencyKey.ofDependency d ≠ DependencyKey.ofDependency d' →
      ∀ slot ∈ payloadSlots keccak256 chainId d, slot ∉ payloadSlots keccak256 chainId d'
  mapped : ∀ d ∈ deps, ∀ d' ∈ deps, ∀ slot ∈ payloadSlots keccak256 chainId d,
    slot ∉ mappedSlots keccak256 chainId d'

/-- Chain ids and lengths as the machine's integers hold them. -/
def MachineSized (dep : CrossRollupDependency) : Prop :=
  dep.sourceChainId ≤ u64Max ∧ ∀ data, dep.data = some data → data.length ≤ u64Max

variable {keccak256 chainId} {deps : List CrossRollupDependency}

theorem mem_derivedSlots {dep : CrossRollupDependency} {slot : B256}
    (h : slot ∈ derivedSlots keccak256 chainId dep) :
    (∃ data, applicable chainId dep = some data) ∧
      (slot = inboxSlot keccak256 chainId dep ∨ slot = createdSlot keccak256 chainId dep ∨
        slot ∈ payloadSlots keccak256 chainId dep) := by
  unfold derivedSlots dependencyEntries at h
  unfold payloadSlots
  cases happ : applicable chainId dep with
  | none =>
    rw [happ] at h
    simp at h
  | some data =>
    rw [happ] at h
    refine ⟨⟨data, rfl⟩, ?_⟩
    simp only [Option.elim_some, List.map_append, List.mem_append, List.map_singleton,
      List.mem_singleton, bytesEntries] at h ⊢
    rcases h with hbytes | hcreated
    · split_ifs at hbytes ⊢ with hshort
      · exact Or.inl (by simpa using hbytes)
      · simp only [List.map_cons, List.map_map, List.mem_cons] at hbytes
        rcases hbytes with hslot | hchunk
        · exact Or.inl hslot
        · exact Or.inr (Or.inr hchunk)
    · exact Or.inr (Or.inl hcreated)

theorem mappingPreimage_inj {key key' : B256} {slot slot' : Nat}
    (h : mappingPreimage key slot = mappingPreimage key' slot') :
    key = key' ∧ BitVec.ofNat 256 slot = BitVec.ofNat 256 slot' := by
  obtain ⟨hkey, hslot⟩ := List.append_inj h (key.length_bytes.trans key'.length_bytes.symm)
  exact ⟨FixedBytes.eq_of_bytes hkey, toBeBytes_inj (FixedBytes.eq_of_bytes hslot)⟩

theorem applicable_dest {dep : CrossRollupDependency} {data : Bytes}
    (h : applicable chainId dep = some data) : dep.destChainId = chainId ∧ dep.data = some data := by
  unfold applicable at h
  split_ifs at h with hdest
  exact ⟨hdest, h⟩

theorem mem_mappedSlots {dep : CrossRollupDependency} {data : Bytes}
    (happ : applicable chainId dep = some data) {slot : B256} :
    slot ∈ mappedSlots keccak256 chainId dep ↔
      slot = inboxSlot keccak256 chainId dep ∨ slot = createdSlot keccak256 chainId dep := by
  simp [mappedSlots, happ]

namespace SlotsApart

variable (h : SlotsApart keccak256 chainId deps)

include h

/-- Mapping slots coincide only for one key and one mapping. -/
theorem mappingSlot_inj {d d' : CrossRollupDependency} (hd : d ∈ deps) (hd' : d' ∈ deps)
    {data data' : Bytes} (happ : applicable chainId d = some data)
    (happ' : applicable chainId d' = some data')
    {slot slot' : Nat} (hslot : slot = inboxMappingSlot ∨ slot = createdKeysMappingSlot)
    (hslot' : slot' = inboxMappingSlot ∨ slot' = createdKeysMappingSlot)
    (heq : mappingSlot keccak256 (mailboxKey keccak256 chainId d) slot =
      mappingSlot keccak256 (mailboxKey keccak256 chainId d') slot') :
    mailboxKeyPreimage chainId d = mailboxKeyPreimage chainId d' ∧
      BitVec.ofNat 256 slot = BitVec.ofNat 256 slot' := by
  have hmapped : ∀ d ∈ deps, ∀ data, applicable chainId d = some data →
      ∀ slot, slot = inboxMappingSlot ∨ slot = createdKeysMappingSlot →
        mappingPreimage (mailboxKey keccak256 chainId d) slot ∈
          deps.flatMap (hashedInputs keccak256 chainId) := by
    intro d hd data happ slot hslot
    refine List.mem_flatMap.mpr ⟨d, hd, ?_⟩
    rcases hslot with hs | hs <;> simp [hashedInputs, happ, hs]
  have hkey : ∀ d ∈ deps, ∀ data, applicable chainId d = some data →
      mailboxKeyPreimage chainId d ∈ deps.flatMap (hashedInputs keccak256 chainId) :=
    fun d hd data happ => List.mem_flatMap.mpr ⟨d, hd, by simp [hashedInputs, happ]⟩
  have hpre := h.injective _ (hmapped d hd data happ slot hslot) _
    (hmapped d' hd' data' happ' slot' hslot') heq
  obtain ⟨hkeys, hslots⟩ := mappingPreimage_inj hpre
  exact ⟨h.injective _ (hkey d hd data happ) _ (hkey d' hd' data' happ') hkeys, hslots⟩

theorem inboxSlot_ne_createdSlot {d d' : CrossRollupDependency} (hd : d ∈ deps) (hd' : d' ∈ deps)
    {data data' : Bytes} (happ : applicable chainId d = some data)
    (happ' : applicable chainId d' = some data') :
    inboxSlot keccak256 chainId d ≠ createdSlot keccak256 chainId d' := by
  intro heq
  have hslots := (h.mappingSlot_inj hd hd' happ happ' (Or.inl rfl) (Or.inr rfl) heq).2
  revert hslots
  decide

/-- Dependencies with different keys share no slot. -/
theorem disjoint {d d' : CrossRollupDependency} (hd : d ∈ deps) (hd' : d' ∈ deps)
    (hsized : MachineSized d) (hsized' : MachineSized d')
    (hne : DependencyKey.ofDependency d ≠ DependencyKey.ofDependency d') :
    List.Disjoint (derivedSlots keccak256 chainId d) (derivedSlots keccak256 chainId d') := by
  intro slot hmem hmem'
  obtain ⟨⟨data, happ⟩, hslot⟩ := mem_derivedSlots hmem
  obtain ⟨⟨data', happ'⟩, hslot'⟩ := mem_derivedSlots hmem'
  have hkeys : mailboxKeyPreimage chainId d ≠ mailboxKeyPreimage chainId d' := by
    intro hpre
    have hdest := (applicable_dest happ).1.trans (applicable_dest happ').1.symm
    exact hne ((mailboxKeyPreimage_iff hsized.1 hsized'.1 hdest).mp hpre)
  rcases hslot with hinbox | hcreated | hpayload
  · rcases hslot' with hinbox' | hcreated' | hpayload'
    · exact hkeys (h.mappingSlot_inj hd hd' happ happ' (Or.inl rfl) (Or.inl rfl)
        (hinbox.symm.trans hinbox')).1
    · exact h.inboxSlot_ne_createdSlot hd hd' happ happ' (hinbox.symm.trans hcreated')
    · exact h.mapped d' hd' d hd slot hpayload' ((mem_mappedSlots happ).mpr (Or.inl hinbox))
  · rcases hslot' with hinbox' | hcreated' | hpayload'
    · exact h.inboxSlot_ne_createdSlot hd' hd happ' happ (hinbox'.symm.trans hcreated)
    · exact hkeys (h.mappingSlot_inj hd hd' happ happ' (Or.inr rfl) (Or.inr rfl)
        (hcreated.symm.trans hcreated')).1
    · exact h.mapped d' hd' d hd slot hpayload' ((mem_mappedSlots happ).mpr (Or.inr hcreated))
  · rcases hslot' with hinbox' | hcreated' | hpayload'
    · exact h.mapped d hd d' hd' slot hpayload ((mem_mappedSlots happ').mpr (Or.inl hinbox'))
    · exact h.mapped d hd d' hd' slot hpayload ((mem_mappedSlots happ').mpr (Or.inr hcreated'))
    · exact h.payloads d hd d' hd' hne slot hpayload hpayload'

omit h in
theorem nodup_chunkSlots {data : Bytes} (hsize : data.length ≤ u64Max) (slot : B256) :
    ((List.range (chunkCount data)).map (chunkSlot keccak256 slot)).Nodup := by
  refine List.Nodup.map_on ?_ List.nodup_range
  intro i hi j hj heq
  have hbound : ∀ i ∈ List.range (chunkCount data), i < 2 ^ 256 := by
    intro i hi
    have hlt := List.mem_range.mp hi
    have hwide : u64Max < 2 ^ 64 := by decide
    have hpow : 2 ^ 64 < 2 ^ 256 := by decide
    unfold chunkCount at hlt
    omega
  have hword := toBeBytes_inj heq
  rw [← bytes_fromBeBytes slot] at hword
  exact @Solidity.dataSlot_inj (fun p => fromBeBytes (keccak256 p)) _ i j (hbound i hi)
    (hbound j hj) hword

/-- The slots of one dependency are different from each other. -/
theorem nodup_derivedSlots {dep : CrossRollupDependency} (hdep : dep ∈ deps)
    (hsized : MachineSized dep) : (derivedSlots keccak256 chainId dep).Nodup := by
  unfold derivedSlots dependencyEntries
  cases happ : applicable chainId dep with
  | none => simp
  | some data =>
    have hinbox := h.inboxSlot_ne_createdSlot hdep hdep happ happ
    simp only [Option.elim_some, List.map_append, List.map_singleton, bytesEntries]
    split_ifs with hshort
    · simpa using hinbox
    · have hpayload : payloadSlots keccak256 chainId dep =
          (List.range (chunkCount data)).map
            (chunkSlot keccak256 (inboxSlot keccak256 chainId dep)) := by
        simp [payloadSlots, happ, hshort]
      have hclear := h.mapped dep hdep dep hdep
      rw [hpayload] at hclear
      have hchunks := @nodup_chunkSlots keccak256 data
        (hsized.2 data (applicable_dest happ).2) (inboxSlot keccak256 chainId dep)
      rw [List.map_cons, List.map_map, List.cons_append, List.nodup_cons]
      refine ⟨?_, List.Nodup.append hchunks (List.nodup_singleton _) ?_⟩
      · intro hmem
        rcases List.mem_append.mp hmem with hchunk | hcreated
        · exact hclear _ hchunk ((mem_mappedSlots happ).mpr (Or.inl rfl))
        · exact hinbox (List.mem_singleton.mp hcreated)
      · intro slot hchunk hcreated
        exact hclear slot hchunk
          ((mem_mappedSlots happ).mpr (Or.inr (List.mem_singleton.mp hcreated)))

/-- No slot is written twice. -/
theorem nodup (hkeys : (deps.map DependencyKey.ofDependency).Nodup)
    (hsized : ∀ dep ∈ deps, MachineSized dep) :
    ((deps.flatMap (dependencyEntries keccak256 chainId)).map Prod.fst).Nodup := by
  rw [List.map_flatMap, List.nodup_flatMap]
  refine ⟨fun dep hdep => h.nodup_derivedSlots hdep (hsized dep hdep), ?_⟩
  have hpair : deps.Pairwise
      (fun d d' => DependencyKey.ofDependency d ≠ DependencyKey.ofDependency d') :=
    List.pairwise_map.mp hkeys
  refine hpair.imp_of_mem ?_
  intro d d' hd hd' hne
  exact h.disjoint hd hd' (hsized d hd) (hsized d' hd') hne

end SlotsApart

end Apart

section Read

variable (keccak256 : Bytes → B256)

/-- The storage of the mailbox under a patch. -/
def patched (storage : Solidity.Storage) (diff : SlotMap) : Solidity.Storage :=
  fun slot => ((diff.lookup (toBeBytes slot)).map fromBeBytes).getD (storage slot)

/-- `mapping(bytes32 => bytes) inbox`, at position 5 of the contract. -/
def readInbox (storage : Solidity.Storage) (key : B256) : Option Bytes :=
  let hash := fun bytes => fromBeBytes (keccak256 bytes)
  Solidity.readBytes hash storage (Solidity.mappingSlot hash 5 (fromBeBytes key))

/-- `mapping(bytes32 => bool) createdKeys`, at position 7 of the contract. -/
def readCreated (storage : Solidity.Storage) (key : B256) : Bool :=
  let hash := fun bytes => fromBeBytes (keccak256 bytes)
  Solidity.readBool storage (Solidity.mappingSlot hash 7 (fromBeBytes key))

variable {keccak256} {chainId : ChainId} {deps : List CrossRollupDependency}

theorem toBeBytes_mappingSlot (key : B256) (position : Nat) (hposition : position < 2 ^ 256) :
    toBeBytes (Solidity.mappingSlot (fun bytes => fromBeBytes (keccak256 bytes)) position
      (fromBeBytes key)) = mappingSlot keccak256 key position := by
  have hbytes : (toBeBytes (BitVec.ofNat 256 position)).bytes =
      BigEndian.toBytes 32 position := by
    simp only [toBeBytes, Solidity.Word.bytes, BitVec.toNat_ofNat]
    rw [Nat.mod_eq_of_lt hposition]
  rw [Solidity.mappingSlot, bytes_fromBeBytes, toBeBytes_fromBeBytes, mappingSlot, mappingPreimage,
    hbytes]

theorem patched_of_lookup {storage : Solidity.Storage} {diff : SlotMap} {slot : Solidity.Word}
    {word : B256} (h : diff.lookup (toBeBytes slot) = some word) :
    patched storage diff slot = fromBeBytes word := by
  simp [patched, h]

/-- A value whose words are all in the patch is read back. -/
theorem readBytes_of_entries {storage : Solidity.Storage} {diff : SlotMap} {slot : Solidity.Word}
    {data : Bytes} (hsize : data.length ≤ u64Max)
    (h : ∀ e ∈ bytesEntries keccak256 (toBeBytes slot) data, diff.lookup e.1 = some e.2) :
    Solidity.readBytes (fun bytes => fromBeBytes (keccak256 bytes)) (patched storage diff) slot =
      some data := by
  by_cases hshort : data.length ≤ 31
  · have hword := h (toBeBytes slot, encodeShortBytes data) (by simp [bytesEntries, hshort])
    refine Solidity.readBytes_short hshort ?_
    have hmin : min data.length 31 = data.length := Nat.min_eq_left hshort
    have hlast : UInt8.ofNat data.length * 2 = UInt8.ofNat (data.length * 2) := by
      rw [UInt8.ofNat_mul]
      rfl
    rw [patched_of_lookup hword, bytes_fromBeBytes]
    simp only [encodeShortBytes, hmin, List.take_length, hlast]
  · have hheader := h (toBeBytes slot, toBeBytes (BitVec.ofNat 256 data.length * 2 + 1))
      (by simp [bytesEntries, hshort])
    refine Solidity.readBytes_long (by omega) ?_ ?_
    · have hwide : u64Max * 2 + 1 < 2 ^ 256 := by decide
      have hone : (1 : BitVec 256).toNat = 1 := by decide
      have htwo : (2 : BitVec 256).toNat = 2 := by decide
      rw [patched_of_lookup hheader, fromBeBytes_toBeBytes]
      simp only [BitVec.toNat_add, BitVec.toNat_mul, BitVec.toNat_ofNat, hone, htwo]
      omega
    · intro i hi
      have hchunk := h (chunkSlot keccak256 (toBeBytes slot) i, chunkWord data i) (by
        simp only [bytesEntries, if_neg hshort, List.mem_cons, List.mem_map, List.mem_range]
        exact Or.inr ⟨i, hi, rfl⟩)
      have hslot : chunkSlot keccak256 (toBeBytes slot) i =
          toBeBytes (Solidity.dataSlot (fun bytes => fromBeBytes (keccak256 bytes)) slot i) := rfl
      rw [hslot] at hchunk
      rw [patched_of_lookup hchunk, bytes_fromBeBytes]
      rfl

/-- What the contract reads for a dependency under the patch of all of them. -/
theorem read_mailboxStateDiff (hkeys : (deps.map DependencyKey.ofDependency).Nodup)
    (hsized : ∀ dep ∈ deps, MachineSized dep) (hapart : SlotsApart keccak256 chainId deps)
    (storage : Solidity.Storage) {dep : CrossRollupDependency} (hdep : dep ∈ deps) {data : Bytes}
    (happ : applicable chainId dep = some data) :
    readInbox keccak256 (patched storage (mailboxStateDiff keccak256 chainId deps))
        (mailboxKey keccak256 chainId dep) = some data ∧
      readCreated keccak256 (patched storage (mailboxStateDiff keccak256 chainId deps))
        (mailboxKey keccak256 chainId dep) = true := by
  have hlookup : ∀ e ∈ dependencyEntries keccak256 chainId dep,
      (mailboxStateDiff keccak256 chainId deps).lookup e.1 = some e.2 := by
    intro e he
    rw [mailboxStateDiff_eq]
    exact Map.lookup_insertAll (hapart.nodup hkeys hsized) ∅ (List.mem_flatMap.mpr ⟨dep, hdep, he⟩)
  have hentries : dependencyEntries keccak256 chainId dep =
      bytesEntries keccak256 (inboxSlot keccak256 chainId dep) data ++
        [(createdSlot keccak256 chainId dep, toBeBytes 1)] := by
    simp [dependencyEntries, happ]
  rw [hentries] at hlookup
  constructor
  · apply readBytes_of_entries ((hsized dep hdep).2 data (applicable_dest happ).2)
    intro e he
    rw [toBeBytes_mappingSlot _ _ (by decide)] at he
    exact hlookup e (List.mem_append_left _ he)
  · apply Solidity.readBool_one
    have hcreated := hlookup (createdSlot keccak256 chainId dep, toBeBytes 1)
      (List.mem_append_right _ (List.mem_singleton.mpr rfl))
    rw [createdSlot, ← toBeBytes_mappingSlot _ _ (by decide)] at hcreated
    rw [show (7 : Nat) = createdKeysMappingSlot from rfl, patched_of_lookup hcreated,
      fromBeBytes_toBeBytes]
    rfl

end Read

theorem isSome_applicable (chainId : ChainId) (dep : CrossRollupDependency) :
    (applicable chainId dep).isSome = (decide (dep.destChainId = chainId) && dep.data.isSome) := by
  unfold applicable
  by_cases hdest : dep.destChainId = chainId <;> simp [hdest]

/-- Dependencies of other chains and those without data change nothing. -/
theorem build_filter (keccak256 : Bytes → B256) (chainId : ChainId) (mailboxAddress : Address)
    (deps : List CrossRollupDependency) :
    buildMailboxStateOverrides keccak256 chainId mailboxAddress deps =
      buildMailboxStateOverrides keccak256 chainId mailboxAddress
        (deps.filter (fun dep => decide (dep.destChainId = chainId) && dep.data.isSome)) := by
  have hfilter := mailboxStateDiff_filter keccak256 chainId deps
  simp only [isSome_applicable] at hfilter
  simp only [buildMailboxStateOverrides, hfilter]

theorem build_none_iff (keccak256 : Bytes → B256) (chainId : ChainId) (mailboxAddress : Address)
    (deps : List CrossRollupDependency) :
    buildMailboxStateOverrides keccak256 chainId mailboxAddress deps = none ↔
      ∀ dep ∈ deps, dep.destChainId ≠ chainId ∨ dep.data = none := by
  have hempty := entries_isEmpty_iff keccak256 chainId deps
  have hnone : buildMailboxStateOverrides keccak256 chainId mailboxAddress deps = none ↔
      (mailboxStateDiff keccak256 chainId deps).entries.isEmpty = true := by
    simp [buildMailboxStateOverrides]
  rw [hnone, hempty]
  refine forall₂_congr (fun dep hdep => ?_)
  rw [← Option.isNone_iff_eq_none, ← Option.not_isSome, isSome_applicable]
  cases dep.data <;> simp

/-- The overrides of the mailbox account, read by the contract's storage layout, give every
payload back, whatever the storage underneath holds; they hold the slots of these payloads and
nothing else, and there are none when no dependency has a payload for the chain. -/
theorem mailbox_storage_round_trip (keccak256 : Bytes → B256) (chainId : ChainId)
    (mailboxAddress : Address) (deps : List CrossRollupDependency)
    (hkeys : (deps.map DependencyKey.ofDependency).Nodup)
    (hsized : ∀ dep ∈ deps, MachineSized dep) (hapart : SlotsApart keccak256 chainId deps) :
    (∀ overrides, buildMailboxStateOverrides keccak256 chainId mailboxAddress deps =
        some overrides →
      ∃ diff : SlotMap, overrides.lookup mailboxAddress = some { stateDiff := some diff } ∧
        (∀ address, address ≠ mailboxAddress → overrides.lookup address = none) ∧
        (∀ slot, slot ∈ diff ↔ ∃ dep ∈ deps, dep.destChainId = chainId ∧ dep.data.isSome ∧
          slot ∈ derivedSlots keccak256 chainId dep) ∧
        ∀ storage, ∀ dep ∈ deps, ∀ data, dep.destChainId = chainId → dep.data = some data →
          readInbox keccak256 (patched storage diff) (mailboxKey keccak256 chainId dep) =
              some data ∧
            readCreated keccak256 (patched storage diff) (mailboxKey keccak256 chainId dep) =
              true) ∧
      buildMailboxStateOverrides keccak256 chainId mailboxAddress deps =
        buildMailboxStateOverrides keccak256 chainId mailboxAddress
          (deps.filter (fun dep => decide (dep.destChainId = chainId) && dep.data.isSome)) ∧
      (buildMailboxStateOverrides keccak256 chainId mailboxAddress deps = none ↔
        ∀ dep ∈ deps, dep.destChainId ≠ chainId ∨ dep.data = none) := by
  refine ⟨?_, build_filter keccak256 chainId mailboxAddress deps,
    build_none_iff keccak256 chainId mailboxAddress deps⟩
  intro overrides hbuild
  rw [buildMailboxStateOverrides] at hbuild
  simp only at hbuild
  split_ifs at hbuild
  rw [← Option.some.inj hbuild]
  refine ⟨_, AList.lookup_insert _, ?_, ?_, ?_⟩
  · intro address hne
    rw [AList.lookup_insert_ne hne, AList.lookup_empty]
  · intro slot
    rw [mem_mailboxStateDiff]
    constructor
    · intro h
      obtain ⟨dep, hdep, hslot⟩ := h
      obtain ⟨data, happ⟩ := (mem_derivedSlots hslot).1
      obtain ⟨hdest, hdata⟩ := applicable_dest happ
      exact ⟨dep, hdep, hdest, by rw [hdata]; rfl, hslot⟩
    · intro h
      obtain ⟨dep, hdep, -, -, hslot⟩ := h
      exact ⟨dep, hdep, hslot⟩
  · intro storage dep hdep data hdest hdata
    have happ : applicable chainId dep = some data := by
      rw [applicable, if_pos hdest, hdata]
    exact read_mailboxStateDiff hkeys hsized hapart storage hdep happ

/-- A message whose payload fits into its slot, one whose payload does not, one for another
chain and one without a payload. -/
def sampleDependencies : List CrossRollupDependency :=
  let dep : CrossRollupDependency :=
    { sourceChainId := 77777
      destChainId := 88888
      sender := .repeatByte 20 0x11
      receiver := .repeatByte 20 0x22
      label := [83, 69, 78, 68]
      data := some [1, 2, 3]
      sessionId := 42 }
  [dep, { dep with data := some (List.replicate 40 7), sessionId := 43 },
    { dep with destChainId := 99999, sessionId := 44 }, { dep with data := none, sessionId := 45 }]

def smallKey : U256 := 0x83bb202abe2fc619be87a2725d189d5343ebd89903f0ec51182a2db8316c815f
def largeKey : U256 := 0xf356564b4515f19243bf7652f33b81c67f1c4faeb08d47261fd326bcbe43bb3b
def largeInbox : U256 := 0xf8eb0b37216aca91d070886bb097004d788b263e98a32ed4f957ff83d8b55e90

/-- Keccak-256 on the strings hashed for the list above. -/
def keccakTable : List (Bytes × U256) :=
  (sampleDependencies.take 2).map (mailboxKeyPreimage 88888) |>.zip [smallKey, largeKey] |>.append
    [(mappingPreimage (toBeBytes smallKey) 5,
        0x136f2ef36d8c8a65bf1843a411683e82ca6fb499ec78f8bb50bffa5ada917722),
      (mappingPreimage (toBeBytes smallKey) 7,
        0xe5f33b06adc894fc4434d6dc60babbdc48555e2ebaea1d34de52f123da4c9293),
      (mappingPreimage (toBeBytes largeKey) 5, largeInbox),
      (mappingPreimage (toBeBytes largeKey) 7,
        0x1c96d12832f4c1dc7f1f67ef3e5973da235e909361d76fa4142c03efecaf53fc),
      ((toBeBytes largeInbox).bytes,
        0xba6107017ad3034021cc82221c089c56cbba31a6c22c36f7afeed4207b0fd371)]

def keccakOfTable (bytes : Bytes) : B256 := toBeBytes ((keccakTable.lookup bytes).getD 0)

theorem slotsApart_sample : SlotsApart keccakOfTable 88888 sampleDependencies := by
  constructor <;> decide +kernel

theorem machineSized_sample : ∀ dep ∈ sampleDependencies, MachineSized dep := by
  have hsource : ∀ dep ∈ sampleDependencies, dep.sourceChainId ≤ u64Max := by decide
  have hlength : ∀ dep ∈ sampleDependencies, (dep.data.getD []).length ≤ u64Max := by decide
  intro dep hdep
  refine ⟨hsource dep hdep, fun data hdata => ?_⟩
  have hle := hlength dep hdep
  rw [hdata] at hle
  exact hle

theorem nodup_sampleKeys : (sampleDependencies.map DependencyKey.ofDependency).Nodup := by
  decide +kernel

theorem mailboxKey_small : mailboxKey keccakOfTable 88888
    (sampleDependencies.get ⟨0, by decide⟩) = toBeBytes smallKey := by
  decide +kernel

theorem mailboxKey_large : mailboxKey keccakOfTable 88888
    (sampleDependencies.get ⟨1, by decide⟩) = toBeBytes largeKey := by
  decide +kernel

theorem mailbox_storage_round_trip_sample :
    ∃ overrides diff, buildMailboxStateOverrides keccakOfTable 88888 (.repeatByte 20 0x33)
        sampleDependencies = some overrides ∧
      overrides.lookup (.repeatByte 20 0x33) = some { stateDiff := some diff } ∧
      ∀ storage, readInbox keccakOfTable (patched storage diff) (toBeBytes smallKey) =
          some [1, 2, 3] ∧
        readInbox keccakOfTable (patched storage diff) (toBeBytes largeKey) =
          some (List.replicate 40 7) ∧
        readCreated keccakOfTable (patched storage diff) (toBeBytes largeKey) = true := by
  obtain ⟨hread, -, hnone⟩ := mailbox_storage_round_trip keccakOfTable 88888 (.repeatByte 20 0x33)
    sampleDependencies nodup_sampleKeys machineSized_sample slotsApart_sample
  cases hbuild : buildMailboxStateOverrides keccakOfTable 88888 (.repeatByte 20 0x33)
      sampleDependencies with
  | none =>
    exact absurd (hnone.mp hbuild) (by decide)
  | some overrides =>
    obtain ⟨diff, haccount, -, -, hpayload⟩ := hread overrides hbuild
    refine ⟨overrides, diff, rfl, haccount, fun storage => ?_⟩
    have hsmall := hpayload storage (sampleDependencies.get ⟨0, by decide⟩) (List.get_mem _ _)
      [1, 2, 3] (by decide) (by decide)
    have hlarge := hpayload storage (sampleDependencies.get ⟨1, by decide⟩) (List.get_mem _ _)
      (List.replicate 40 7) (by decide) (by decide)
    have hsmallKey : mailboxKey keccakOfTable 88888 (sampleDependencies.get ⟨0, by decide⟩) =
        toBeBytes smallKey := by decide +kernel
    have hlargeKey : mailboxKey keccakOfTable 88888 (sampleDependencies.get ⟨1, by decide⟩) =
        toBeBytes largeKey := by decide +kernel
    rw [hsmallKey] at hsmall
    rw [hlargeKey] at hlarge
    exact ⟨hsmall.1, hlarge.1, hlarge.2⟩

end Sidecar.Mailbox
