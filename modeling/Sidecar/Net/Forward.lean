import Sidecar.Framework.Last
import Sidecar.Mailbox.Parser
import Sidecar.Coordinator.PendingXt

/-! The request that forwards an instance to another sidecar. -/

namespace Sidecar.Net

open Coordinator

/-- The errors of the hex decoder, with the offending character and its position. -/
inductive FromHexError where
  | invalidHexCharacter (c : Char) (index : Nat)
  | oddLength
  deriving DecidableEq

def hexDigitValue (c : UInt8) (index : Nat) : Except FromHexError UInt8 :=
  match Mailbox.hexVal c with
  | some value => .ok value
  | none => .error (.invalidHexCharacter (Char.ofNat c.toNat) index)

def decodePairs : Nat → Bytes → Except FromHexError Bytes
  | index, hi :: lo :: rest => do
    let high ← hexDigitValue hi index
    let low ← hexDigitValue lo (index + 1)
    let tail ← decodePairs (index + 2) rest
    .ok ((high * 16 + low) :: tail)
  | _, _ => .ok []

def hexDecode (text : String) : Except FromHexError Bytes :=
  let bytes := InstanceId.asBytes text
  if bytes.length % 2 ≠ 0 then .error .oddLength else decodePairs 0 bytes

structure XtForwardRequest where
  instanceId : InstanceId
  transactions : Map ChainId (List String)
  originChain : ChainId
  originSeq : SequenceNumber

namespace XtForwardRequest

def new (instanceId : InstanceId) (txs : RawTxs) (originChain : ChainId)
    (originSeq : SequenceNumber) : XtForwardRequest :=
  { instanceId := instanceId
    transactions := txs.entries.foldl
      (fun acc e => acc.insert e.1 (e.2.map InstanceId.hexEncode)) ∅
    originChain := originChain
    originSeq := originSeq }

/-- The transactions as raw bytes, or the first error that the iteration meets. -/
def decodeTransactions (req : XtForwardRequest) : Except FromHexError RawTxs :=
  req.transactions.entries.foldlM
    (fun (acc : RawTxs) e => do
      let txs ← e.2.mapM hexDecode
      .ok (acc.insert e.1 txs)) ∅

end XtForwardRequest

section Hex

/-- The bytes of the text that a digit is written as. -/
theorem utf8EncodeChar_hexDigit {n : Nat} (h : n < 16) :
    ∃ c : UInt8, String.utf8EncodeChar (InstanceId.hexDigit n) = [c] ∧
      Mailbox.hexVal c = some (UInt8.ofNat n) := by
  have hdigits : ∀ n < 16, String.utf8EncodeChar (InstanceId.hexDigit n) =
      [(if n < 10 then UInt8.ofNat (48 + n) else UInt8.ofNat (87 + n))] := by decide
  have hvals : ∀ n < 16,
      Mailbox.hexVal (if n < 10 then UInt8.ofNat (48 + n) else UInt8.ofNat (87 + n)) =
        some (UInt8.ofNat n) := by decide
  exact ⟨_, hdigits n h, hvals n h⟩

theorem asBytes_ofList (text : List Char) :
    InstanceId.asBytes (String.ofList text) = text.flatMap String.utf8EncodeChar := by
  simp [InstanceId.asBytes, List.utf8Encode]

/-- What was written in hex is read back, whatever position the reading starts at. -/
theorem decodePairs_hexEncode (bs : Bytes) (index : Nat) :
    decodePairs index (InstanceId.asBytes (InstanceId.hexEncode bs)) = .ok bs := by
  rw [InstanceId.hexEncode, asBytes_ofList]
  induction bs generalizing index with
  | nil => rfl
  | cons b bs ih =>
    have hb : b.toNat < 256 := b.toNat_lt
    obtain ⟨hi, hhi, hhigh⟩ := utf8EncodeChar_hexDigit (n := b.toNat / 16) (by omega)
    obtain ⟨lo, hlo, hlow⟩ := utf8EncodeChar_hexDigit (n := b.toNat % 16) (by omega)
    have hbyte : UInt8.ofNat (b.toNat / 16) * 16 + UInt8.ofNat (b.toNat % 16) = b := by
      apply UInt8.toNat_inj.mp
      have h16 : (16 : UInt8).toNat = 16 := rfl
      rw [UInt8.toNat_add, UInt8.toNat_mul, UInt8.toNat_ofNat', UInt8.toNat_ofNat', h16]
      omega
    simp only [List.flatMap_cons, hhi, hlo, List.cons_append, List.nil_append, decodePairs,
      hexDigitValue, hhigh, hlow, ih]
    show Except.ok (_ :: bs) = _
    rw [hbyte]

theorem length_asBytes_hexEncode (bs : Bytes) :
    (InstanceId.asBytes (InstanceId.hexEncode bs)).length = 2 * bs.length := by
  rw [InstanceId.hexEncode, asBytes_ofList]
  induction bs with
  | nil => rfl
  | cons b bs ih =>
    have hb : b.toNat < 256 := b.toNat_lt
    obtain ⟨hi, hhi, -⟩ := utf8EncodeChar_hexDigit (n := b.toNat / 16) (by omega)
    obtain ⟨lo, hlo, -⟩ := utf8EncodeChar_hexDigit (n := b.toNat % 16) (by omega)
    simp only [List.flatMap_cons, hhi, hlo, List.cons_append, List.nil_append, List.length_cons, ih]
    omega

theorem hexDecode_hexEncode (bs : Bytes) : hexDecode (InstanceId.hexEncode bs) = .ok bs := by
  have heven : (InstanceId.asBytes (InstanceId.hexEncode bs)).length % 2 = 0 := by
    rw [length_asBytes_hexEncode]
    omega
  simp only [hexDecode]
  rw [if_neg (not_not.mpr heven), decodePairs_hexEncode]

theorem mapM_hexDecode (chainTxs : List Bytes) :
    (chainTxs.map InstanceId.hexEncode).mapM hexDecode = .ok chainTxs := by
  induction chainTxs with
  | nil => rfl
  | cons tx chainTxs ih =>
    rw [List.map_cons, List.mapM_cons, hexDecode_hexEncode, ih]
    rfl

end Hex

namespace XtForwardRequest

theorem lookup_new (instanceId : InstanceId) (txs : RawTxs) (originChain : ChainId)
    (originSeq : SequenceNumber) (chainId : ChainId) :
    (new instanceId txs originChain originSeq).transactions.lookup chainId =
      (txs.lookup chainId).map (List.map InstanceId.hexEncode) := by
  have h := Map.lookup_foldl
    (f := fun (acc : Map ChainId (List String)) e =>
      acc.insert e.1 (e.2.map InstanceId.hexEncode))
    (g := fun _ v _ => some (v.map InstanceId.hexEncode))
    (fun acc e k => Map.lookup_insert_eq e.1 k _ acc) txs.entries txs.nodupKeys ∅ chainId
  have hl : List.dlookup chainId txs.entries = txs.lookup chainId := rfl
  rw [hl] at h
  unfold new
  rw [h, AList.lookup_empty]
  cases txs.lookup chainId <;> rfl

/-- A request that carries the transactions is decoded into them, in whatever order the map is
gone through. -/
theorem decodeTransactions_of_lookup {req : XtForwardRequest} {txs : RawTxs}
    (h : ∀ chainId, req.transactions.lookup chainId =
      (txs.lookup chainId).map (List.map InstanceId.hexEncode)) :
    ∃ decoded, req.decodeTransactions = .ok decoded ∧
      ∀ chainId, decoded.lookup chainId = txs.lookup chainId := by
  let insertDecoded := fun (acc : RawTxs) (e : Σ _ : ChainId, List String) =>
    acc.insert e.1 ((txs.lookup e.1).getD [])
  have hentry : ∀ e ∈ req.transactions.entries,
      e.2.mapM hexDecode = .ok ((txs.lookup e.1).getD []) := by
    intro e he
    have hl : req.transactions.lookup e.1 = some e.2 :=
      (List.mem_dlookup_iff req.transactions.nodupKeys).mpr he
    rw [h] at hl
    obtain ⟨chainTxs, htxs, hhex⟩ := Option.map_eq_some_iff.mp hl
    rw [htxs, ← hhex, mapM_hexDecode]
    rfl
  have hloop : req.decodeTransactions = .ok (req.transactions.entries.foldl insertDecoded ∅) := by
    refine foldlM_ok ?_ ∅
    intro e he acc
    rw [hentry e he]
    rfl
  refine ⟨_, hloop, ?_⟩
  intro chainId
  have hstep : ∀ (acc : RawTxs) (e : Σ _ : ChainId, List String) (k : ChainId),
      (insertDecoded acc e).lookup k =
        if k = e.1 then some ((txs.lookup k).getD []) else acc.lookup k := by
    intro acc e k
    rw [Map.lookup_insert_eq]
    by_cases hk : k = e.1
    · rw [if_pos hk, if_pos hk, hk]
    · rw [if_neg hk, if_neg hk]
  have hlookup := Map.lookup_foldl (g := fun k _ _ => some ((txs.lookup k).getD [])) hstep
    req.transactions.entries req.transactions.nodupKeys ∅ chainId
  have hl : List.dlookup chainId req.transactions.entries = req.transactions.lookup chainId := rfl
  rw [hlookup, hl, h, AList.lookup_empty]
  cases txs.lookup chainId <;> rfl

end XtForwardRequest

end Sidecar.Net
