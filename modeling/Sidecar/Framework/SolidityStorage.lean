import Sidecar.Framework.BigEndian
import Mathlib.Data.List.Basic

/-! The storage of a contract as the Solidity compiler lays it out: words of 32 bytes, values of
mappings at hashed slots, and `bytes` values in their short and their long form. -/

namespace Sidecar.Solidity

abbrev Word := BitVec 256

/-- Every slot holds a word; what was never written is zero. -/
abbrev Storage := Word → Word

namespace Word

def bytes (word : Word) : List UInt8 := BigEndian.toBytes 32 word.toNat

def ofBytes (bytes : List UInt8) : Word := BitVec.ofNat 256 (BigEndian.ofBytes bytes)

@[simp]
theorem length_bytes (word : Word) : (bytes word).length = 32 := BigEndian.length_toBytes 32 _

theorem width_eq : 256 ^ 32 = 2 ^ 256 := by decide

theorem ofBytes_bytes (word : Word) : ofBytes (bytes word) = word := by
  have hlt : word.toNat < 256 ^ 32 := by
    rw [width_eq]
    exact word.isLt
  rw [ofBytes, bytes, BigEndian.ofBytes_toBytes_of_lt hlt, BitVec.ofNat_toNat]
  exact BitVec.setWidth_eq word

theorem toNat_ofBytes {bs : List UInt8} (h : bs.length = 32) :
    (ofBytes bs).toNat = BigEndian.ofBytes bs := by
  have hlt := BigEndian.ofBytes_lt bs
  rw [h, width_eq] at hlt
  rw [ofBytes, BitVec.toNat_ofNat, Nat.mod_eq_of_lt hlt]

theorem bytes_ofBytes {bs : List UInt8} (h : bs.length = 32) : bytes (ofBytes bs) = bs := by
  have hdigits := BigEndian.toBytes_ofBytes bs
  rw [h] at hdigits
  rw [bytes, toNat_ofBytes h, hdigits]

end Word

section Words

/-- The `i`-th piece of 32 bytes, filled up with zeros. -/
def paddedWord (data : List UInt8) (i : Nat) : List UInt8 :=
  let piece := (data.drop (32 * i)).take 32
  piece ++ List.replicate (32 - piece.length) 0

@[simp]
theorem length_paddedWord (data : List UInt8) (i : Nat) : (paddedWord data i).length = 32 := by
  have hle : ((data.drop (32 * i)).take 32).length ≤ 32 := List.length_take_le 32 _
  simp only [paddedWord, List.length_append, List.length_replicate]
  omega

theorem paddedWord_succ (data : List UInt8) (i : Nat) :
    paddedWord data (i + 1) = paddedWord (data.drop 32) i := by
  have hdrop : data.drop (32 * (i + 1)) = (data.drop 32).drop (32 * i) := by
    rw [List.drop_drop]
    congr 1
    omega
  simp only [paddedWord, hdrop]

/-- The pieces one after another are the data and zeros behind it. -/
theorem flatMap_paddedWord (data : List UInt8) (count : Nat) (h : data.length ≤ 32 * count) :
    (List.range count).flatMap (paddedWord data) =
      data ++ List.replicate (32 * count - data.length) 0 := by
  induction count generalizing data with
  | zero =>
    have hnil : data = [] := List.length_eq_zero_iff.mp (by omega)
    rw [hnil]
    rfl
  | succ count ih =>
    have hrest : (data.drop 32).length ≤ 32 * count := by
      rw [List.length_drop]
      omega
    have htail : (List.range count).flatMap (fun i => paddedWord data (i + 1)) =
        data.drop 32 ++ List.replicate (32 * count - (data.length - 32)) 0 := by
      simp only [paddedWord_succ]
      rw [ih (data.drop 32) hrest, List.length_drop]
    rw [List.range_succ_eq_map, List.flatMap_cons, List.flatMap_map]
    rw [show (fun i => paddedWord data (Nat.succ i)) = fun i => paddedWord data (i + 1) from rfl,
      htail]
    by_cases hshort : data.length ≤ 32
    · have hdrop : data.drop 32 = [] := List.drop_eq_nil_of_le hshort
      have hzeros : 32 * (count + 1) - data.length =
          32 - data.length + (32 * count - (data.length - 32)) := by omega
      rw [hdrop, hzeros, List.replicate_add]
      simp [paddedWord, List.take_of_length_le hshort]
    · have hfull : (data.take 32).length = 32 := by
        rw [List.length_take]
        omega
      have hzeros : 32 * count - (data.length - 32) = 32 * (count + 1) - data.length := by omega
      have hfirst : paddedWord data 0 = data.take 32 := by
        simp only [paddedWord, Nat.mul_zero, List.drop_zero, hfull]
        simp
      rw [hfirst, hzeros, ← List.append_assoc, List.take_append_drop]

end Words

section Layout

variable (hash : List UInt8 → Word) (storage : Storage)

/-- The slot of a key of a mapping whose keys fill a word. -/
def mappingSlot (position : Nat) (key : Word) : Word :=
  hash (Word.bytes key ++ BigEndian.toBytes 32 position)

/-- The words of a long `bytes` value lie one after another from the hash of its slot on. -/
def dataSlot (slot : Word) (i : Nat) : Word := hash (Word.bytes slot) + BitVec.ofNat 256 i

def readBool (slot : Word) : Bool := (storage slot).toNat % 256 != 0

/-- A `bytes` value. The lowest bit of its slot tells the forms apart: a short value shares the
slot with twice its length, the slot of a long one holds twice the length and one. A length
that does not go with the form is no encoding, and the contract panics. -/
def readBytes (slot : Word) : Option (List UInt8) :=
  let header := (storage slot).toNat
  if header % 2 = 0 then
    let length := header / 2 % 128
    if length < 32 then some ((Word.bytes (storage slot)).take length) else none
  else
    let length := header / 2
    if length < 32 then none
    else
      some (((List.range ((length + 31) / 32)).flatMap
        (fun i => Word.bytes (storage (dataSlot hash slot i)))).take length)

variable {hash storage}

theorem readBytes_short {slot : Word} {data : List UInt8} (hlength : data.length ≤ 31)
    (hword : Word.bytes (storage slot) =
      data ++ List.replicate (31 - data.length) 0 ++ [UInt8.ofNat (data.length * 2)]) :
    readBytes hash storage slot = some data := by
  have hheader : (storage slot).toNat =
      BigEndian.ofBytes (data ++ List.replicate (31 - data.length) 0) * 256 + data.length * 2 := by
    have hlast : (UInt8.ofNat (data.length * 2)).toNat = data.length * 2 := by
      rw [UInt8.toNat_ofNat']
      omega
    rw [← Word.ofBytes_bytes (storage slot), Word.toNat_ofBytes (Word.length_bytes _), hword,
      BigEndian.ofBytes_append_singleton, hlast]
  have heven : (storage slot).toNat % 2 = 0 := by omega
  have hsize : (storage slot).toNat / 2 % 128 = data.length := by omega
  simp only [readBytes]
  rw [if_pos heven, hsize, if_pos (by omega), hword, List.append_assoc, List.take_left']
  rfl

theorem readBytes_long {slot : Word} {data : List UInt8} (hlength : 32 ≤ data.length)
    (hheader : (storage slot).toNat = data.length * 2 + 1)
    (hwords : ∀ i < (data.length + 31) / 32,
      Word.bytes (storage (dataSlot hash slot i)) = paddedWord data i) :
    readBytes hash storage slot = some data := by
  have hsize : (storage slot).toNat / 2 = data.length := by omega
  have hpieces : (List.range ((data.length + 31) / 32)).flatMap
      (fun i => Word.bytes (storage (dataSlot hash slot i))) =
      data ++ List.replicate (32 * ((data.length + 31) / 32) - data.length) 0 := by
    rw [← flatMap_paddedWord data _ (by omega)]
    apply List.flatMap_congr
    intro i hi
    exact hwords i (List.mem_range.mp hi)
  simp only [readBytes]
  rw [if_neg (by omega), hsize, if_neg (by omega), hpieces, List.take_left']
  rfl

theorem readBool_one {slot : Word} (h : (storage slot).toNat = 1) : readBool storage slot = true := by
  simp [readBool, h]

/-- The words of one value do not lie on each other. -/
theorem dataSlot_inj {slot : Word} {i j : Nat} (hi : i < 2 ^ 256) (hj : j < 2 ^ 256)
    (h : dataSlot hash slot i = dataSlot hash slot j) : i = j := by
  have hoffset : BitVec.ofNat 256 i = BitVec.ofNat 256 j := by
    simpa only [dataSlot, BitVec.add_right_inj] using h
  have hnat := congrArg BitVec.toNat hoffset
  rw [BitVec.toNat_ofNat, BitVec.toNat_ofNat, Nat.mod_eq_of_lt hi, Nat.mod_eq_of_lt hj] at hnat
  exact hnat

end Layout

end Sidecar.Solidity
