import Sidecar.Framework.SolidityStorage
import Sidecar.Mailbox.Matching

/-! The storage overrides under which the mailbox contract finds the payloads of fulfilled
dependencies, and how the contract reads them. -/

namespace Sidecar.Mailbox

def toBeBytes (x : U256) : B256 := ⟨Solidity.Word.bytes x, Solidity.Word.length_bytes x⟩

def fromBeBytes (word : B256) : U256 := Solidity.Word.ofBytes word.bytes

theorem fromBeBytes_toBeBytes (x : U256) : fromBeBytes (toBeBytes x) = x :=
  Solidity.Word.ofBytes_bytes x

theorem bytes_fromBeBytes (word : B256) : Solidity.Word.bytes (fromBeBytes word) = word.bytes :=
  Solidity.Word.bytes_ofBytes word.length_bytes

theorem toBeBytes_fromBeBytes (word : B256) : toBeBytes (fromBeBytes word) = word :=
  FixedBytes.eq_of_bytes (bytes_fromBeBytes word)

theorem toBeBytes_inj {x y : U256} (h : toBeBytes x = toBeBytes y) : x = y := by
  rw [← fromBeBytes_toBeBytes x, h, fromBeBytes_toBeBytes]

def inboxMappingSlot : Nat := 5
def createdKeysMappingSlot : Nat := 7

section Build

variable (keccak256 : Bytes → B256)

def mappingPreimage (key : B256) (slot : Nat) : Bytes :=
  key.bytes ++ (toBeBytes (BitVec.ofNat 256 slot)).bytes

def mappingSlot (key : B256) (slot : Nat) : B256 := keccak256 (mappingPreimage key slot)

/-- Up to 31 bytes, with twice their number in the last byte. -/
def encodeShortBytes (data : Bytes) : B256 :=
  ⟨data.take (min data.length 31) ++ List.replicate (31 - min data.length 31) 0 ++
      [UInt8.ofNat (min data.length 31) * 2], by
    simp only [List.length_append, List.length_take, List.length_replicate, List.length_singleton]
    omega⟩

/-- The `i`-th chunk of 32 bytes in a word of its own. -/
def chunkWord (data : Bytes) (i : Nat) : B256 :=
  ⟨Solidity.paddedWord data i, Solidity.length_paddedWord data i⟩

def chunkCount (data : Bytes) : Nat := (data.length + 31) / 32

def chunkSlot (slot : B256) (i : Nat) : B256 :=
  toBeBytes (fromBeBytes (keccak256 slot.bytes) + BitVec.ofNat 256 i)

def applyBytesToStateDiff (stateDiff : SlotMap) (slot : B256) (data : Bytes) : SlotMap :=
  if data.length ≤ 31 then stateDiff.insert slot (encodeShortBytes data)
  else
    let lenWord : U256 := BitVec.ofNat 256 data.length * 2 + 1
    (List.range (chunkCount data)).foldl
      (fun diff i => diff.insert (chunkSlot keccak256 slot i) (chunkWord data i))
      (stateDiff.insert slot (toBeBytes lenWord))

variable (chainId : ChainId)

/-- What the mailbox contract hashes into the key of a message. -/
def mailboxKeyPreimage (dep : CrossRollupDependency) : Bytes :=
  (toBeBytes (BitVec.ofNat 256 dep.sourceChainId)).bytes ++
    ((toBeBytes (BitVec.ofNat 256 chainId)).bytes ++
      (dep.sender.bytes ++ (dep.receiver.bytes ++ ((toBeBytes dep.sessionId).bytes ++ dep.label))))

def mailboxKey (dep : CrossRollupDependency) : B256 := keccak256 (mailboxKeyPreimage chainId dep)

/-- One round of the loop; dependencies of other chains and unfulfilled ones are passed over. -/
def writeDependency (stateDiff : SlotMap) (dep : CrossRollupDependency) : SlotMap :=
  if dep.destChainId ≠ chainId then stateDiff
  else
    match dep.data with
    | none => stateDiff
    | some data =>
      let key := mailboxKey keccak256 chainId dep
      let inboxSlot := mappingSlot keccak256 key inboxMappingSlot
      let createdSlot := mappingSlot keccak256 key createdKeysMappingSlot
      (applyBytesToStateDiff keccak256 stateDiff inboxSlot data).insert createdSlot (toBeBytes 1)

def mailboxStateDiff (deps : List CrossRollupDependency) : SlotMap :=
  deps.foldl (writeDependency keccak256 chainId) ∅

def buildMailboxStateOverrides (mailboxAddress : Address) (deps : List CrossRollupDependency) :
    Option StateOverride :=
  let stateDiff := mailboxStateDiff keccak256 chainId deps
  if stateDiff.entries.isEmpty then none
  else
    let account : AccountOverride := { stateDiff := some stateDiff }
    some ((∅ : StateOverride).insert mailboxAddress account)

end Build

section Keys

/-- Two keys of one chain have one preimage only when all fields agree: every field in front of
the label has its own width. -/
theorem mailboxKeyPreimage_inj {chainId : ChainId} {d d' : CrossRollupDependency}
    (hd : d.sourceChainId ≤ u64Max) (hd' : d'.sourceChainId ≤ u64Max)
    (h : mailboxKeyPreimage chainId d = mailboxKeyPreimage chainId d') :
    d.sourceChainId = d'.sourceChainId ∧ d.sender = d'.sender ∧ d.receiver = d'.receiver ∧
      d.sessionId = d'.sessionId ∧ d.label = d'.label := by
  have hfixed : ∀ {n : Nat} (a b : FixedBytes n), a.bytes.length = b.bytes.length :=
    fun a b => a.length_bytes.trans b.length_bytes.symm
  obtain ⟨hsource, h⟩ := List.append_inj h (hfixed _ _)
  obtain ⟨-, h⟩ := List.append_inj h (hfixed _ _)
  obtain ⟨hsender, h⟩ := List.append_inj h (hfixed _ _)
  obtain ⟨hreceiver, h⟩ := List.append_inj h (hfixed _ _)
  obtain ⟨hsession, hlabel⟩ := List.append_inj h (hfixed _ _)
  refine ⟨?_, FixedBytes.eq_of_bytes hsender, FixedBytes.eq_of_bytes hreceiver,
    toBeBytes_inj (FixedBytes.eq_of_bytes hsession), hlabel⟩
  have hword : BitVec.ofNat 256 d.sourceChainId = BitVec.ofNat 256 d'.sourceChainId :=
    toBeBytes_inj (FixedBytes.eq_of_bytes hsource)
  have hnat := congrArg BitVec.toNat hword
  have hwide : u64Max < 2 ^ 256 := by decide
  rw [BitVec.toNat_ofNat, BitVec.toNat_ofNat, Nat.mod_eq_of_lt (Nat.lt_of_le_of_lt hd hwide),
    Nat.mod_eq_of_lt (Nat.lt_of_le_of_lt hd' hwide)] at hnat
  exact hnat

theorem mailboxKeyPreimage_iff {chainId : ChainId} {d d' : CrossRollupDependency}
    (hd : d.sourceChainId ≤ u64Max) (hd' : d'.sourceChainId ≤ u64Max)
    (hdest : d.destChainId = d'.destChainId) :
    mailboxKeyPreimage chainId d = mailboxKeyPreimage chainId d' ↔
      DependencyKey.ofDependency d = DependencyKey.ofDependency d' := by
  constructor
  · intro h
    obtain ⟨hsource, hsender, hreceiver, hsession, hlabel⟩ := mailboxKeyPreimage_inj hd hd' h
    simp only [DependencyKey.ofDependency, hsource, hdest, hsender, hreceiver, hsession, hlabel]
  · intro h
    simp only [DependencyKey.ofDependency, DependencyKey.mk.injEq] at h
    obtain ⟨hsource, -, hsender, hreceiver, hsession, hlabel⟩ := h
    simp only [mailboxKeyPreimage, hsource, hsender, hreceiver, hsession, hlabel]

end Keys

end Sidecar.Mailbox
