import Sidecar.Framework.SolidityStorage

/-! The encoding of call arguments between contracts: words of 32 bytes, byte strings behind their
length, and structs whose parts of variable size stand behind the others. -/

namespace Sidecar.Solidity.Abi

/-- Numbers and addresses fill a word; `bytes` and `string` are strings of any length. -/
inductive Shape where
  | word
  | bytes
  | tuple (items : List Shape)

inductive Val where
  | word (word : Word)
  | bytes (data : List UInt8)
  | tuple (items : List Val)

mutual

def Shape.isDynamic : Shape → Bool
  | .word => false
  | .bytes => true
  | .tuple items => anyDynamic items

def anyDynamic : List Shape → Bool
  | [] => false
  | item :: items => item.isDynamic || anyDynamic items

end

mutual

/-- What a part takes in the front of its struct; parts of variable size leave an offset there. -/
def Shape.headSize : Shape → Nat
  | .word => 32
  | .bytes => 32
  | .tuple items => if anyDynamic items then 32 else headSizes items

def headSizes : List Shape → Nat
  | [] => 0
  | item :: items => item.headSize + headSizes items

end

mutual

def Val.shape : Val → Shape
  | .word _ => .word
  | .bytes _ => .bytes
  | .tuple items => .tuple (shapes items)

def shapes : List Val → List Shape
  | [] => []
  | item :: items => item.shape :: shapes items

end

def natWord (n : Nat) : List UInt8 := Word.bytes (BitVec.ofNat 256 n)

/-- Zeros up to the next full word. -/
def padding (data : List UInt8) : List UInt8 :=
  List.replicate (32 * ((data.length + 31) / 32) - data.length) 0

mutual

def encode : Val → List UInt8
  | .word word => Word.bytes word
  | .bytes data => natWord data.length ++ (data ++ padding data)
  | .tuple items => heads items (headSizes (shapes items)) ++ tails items

/-- The front of a struct; `next` is where its next part of variable size begins. -/
def heads : List Val → Nat → List UInt8
  | [], _ => []
  | item :: items, next =>
    if item.shape.isDynamic then natWord next ++ heads items (next + (encode item).length)
    else encode item ++ heads items next

def tails : List Val → List UInt8
  | [] => []
  | item :: items => (if item.shape.isDynamic then encode item else []) ++ tails items

end

/-- The word at the front of the data. -/
def takeWord (data : List UInt8) : Option Word :=
  if data.length < 32 then none else some (Word.ofBytes (data.take 32))

mutual

/-- Reads a value of a known shape; offsets count from the beginning of their struct. -/
def decode : Shape → List UInt8 → Option Val
  | .word, data => (takeWord data).map Val.word
  | .bytes, data =>
    (takeWord data).bind (fun length =>
      if (data.drop 32).length < length.toNat then none
      else some (.bytes ((data.drop 32).take length.toNat)))
  | .tuple items, data => (decodeItems items data 0).map Val.tuple

def decodeItems : List Shape → List UInt8 → Nat → Option (List Val)
  | [], _, _ => some []
  | item :: items, data, pos =>
    (if item.isDynamic then
      (takeWord (data.drop pos)).bind (fun offset => decode item (data.drop offset.toNat))
    else decode item (data.drop pos)).bind (fun value =>
      (decodeItems items data (pos + item.headSize)).map (value :: ·))

end

section RoundTrip

@[simp]
theorem length_natWord (n : Nat) : (natWord n).length = 32 := Word.length_bytes _

theorem takeWord_append (word : Word) (rest : List UInt8) :
    takeWord (Word.bytes word ++ rest) = some word := by
  have hlength : ¬(Word.bytes word ++ rest).length < 32 := by
    simp
  have htake : (Word.bytes word ++ rest).take 32 = Word.bytes word :=
    List.take_left' (Word.length_bytes word)
  rw [takeWord, if_neg hlength, htake, Word.ofBytes_bytes]

theorem toNat_ofNat {n : Nat} (h : n < 2 ^ 256) : (BitVec.ofNat 256 n).toNat = n := by
  rw [BitVec.toNat_ofNat, Nat.mod_eq_of_lt h]

theorem headSize_dynamic {s : Shape} (h : s.isDynamic = true) : s.headSize = 32 := by
  cases s with
  | word => rfl
  | bytes => rfl
  | tuple items =>
    have hany : anyDynamic items = true := by simpa [Shape.isDynamic] using h
    simp [Shape.headSize, hany]

mutual

/-- A value of fixed size stands in the front of its struct as it is. -/
theorem length_encode_static (v : Val) (h : v.shape.isDynamic = false) :
    (encode v).length = v.shape.headSize := by
  cases v with
  | word w => simp [encode, Val.shape, Shape.headSize]
  | bytes data => simp [Val.shape, Shape.isDynamic] at h
  | tuple items =>
    simp only [Val.shape, Shape.isDynamic] at h
    simp only [encode, Val.shape, Shape.headSize, h]
    rw [List.length_append, length_heads, tails_static items h]
    simp

theorem length_heads (vs : List Val) (next : Nat) :
    (heads vs next).length = headSizes (shapes vs) := by
  cases vs with
  | nil => rfl
  | cons v vs =>
    simp only [heads, shapes, headSizes]
    split_ifs with hdynamic
    · rw [List.length_append, length_natWord, length_heads vs, headSize_dynamic hdynamic]
    · have hstatic : v.shape.isDynamic = false := by simpa using hdynamic
      rw [List.length_append, length_encode_static v hstatic, length_heads vs]

theorem tails_static (vs : List Val) (h : anyDynamic (shapes vs) = false) : tails vs = [] := by
  cases vs with
  | nil => rfl
  | cons v vs =>
    simp only [shapes, anyDynamic, Bool.or_eq_false_iff] at h
    simp [tails, h.1, tails_static vs h.2]

end

theorem length_encode_tuple (items : List Val) :
    (encode (.tuple items)).length = headSizes (shapes items) + (tails items).length := by
  simp only [encode]
  rw [List.length_append, length_heads]

mutual

/-- No encoding is longer than this. -/
def Val.room : Val → Nat
  | .word _ => 32
  | .bytes data => data.length + 63
  | .tuple items => roomOf items

def roomOf : List Val → Nat
  | [] => 0
  | item :: items => 32 + item.room + roomOf items

end

mutual

theorem length_encode_le (v : Val) : (encode v).length ≤ v.room := by
  cases v with
  | word w => simp [encode, Val.room]
  | bytes data =>
    simp only [encode, padding, Val.room, List.length_append, length_natWord, List.length_replicate]
    omega
  | tuple items =>
    rw [length_encode_tuple, Val.room]
    exact length_tuple_le items

theorem length_tuple_le (vs : List Val) :
    headSizes (shapes vs) + (tails vs).length ≤ roomOf vs := by
  cases vs with
  | nil => exact Nat.le_refl 0
  | cons v vs =>
    have hv := length_encode_le v
    have hvs := length_tuple_le vs
    simp only [shapes, headSizes, tails, roomOf, List.length_append]
    by_cases hdynamic : v.shape.isDynamic = true
    · rw [if_pos hdynamic, headSize_dynamic hdynamic]
      omega
    · have hstatic : v.shape.isDynamic = false := by simpa using hdynamic
      rw [if_neg hdynamic, ← length_encode_static v hstatic, List.length_nil]
      omega

end

theorem decode_bytes {data rest : List UInt8} (h : data.length < 2 ^ 256) :
    decode .bytes (natWord data.length ++ (data ++ rest)) = some (.bytes data) := by
  have hdrop : (natWord data.length ++ (data ++ rest)).drop 32 = data ++ rest :=
    List.drop_left' (length_natWord _)
  simp only [decode]
  rw [natWord, takeWord_append, Option.bind_some, ← natWord, hdrop, toNat_ofNat h,
    if_neg (by simp), List.take_left' rfl]

mutual

/-- A value is read back from the front of its encoding, whatever follows. -/
theorem decode_encode (v : Val) (rest : List UInt8) (h : (encode v).length < 2 ^ 256) :
    decode v.shape (encode v ++ rest) = some v := by
  cases v with
  | word w =>
    simp only [encode, Val.shape, decode]
    rw [takeWord_append]
    rfl
  | bytes data =>
    simp only [encode, List.length_append] at h
    simp only [encode, Val.shape, List.append_assoc]
    exact decode_bytes (by omega)
  | tuple items =>
    rw [length_encode_tuple] at h
    simp only [encode, Val.shape, decode]
    rw [decodeItems_encoded items _ 0 (headSizes (shapes items)) (tails items ++ rest) rest
      (by simp) (by rw [List.append_assoc, List.drop_left' (length_heads _ _)]) (by omega) h]
    rfl

/-- The parts of a struct are read back when their front stands at `pos` and their parts of
variable size from `next` on. -/
theorem decodeItems_encoded (vs : List Val) (data : List UInt8) (pos next : Nat)
    (after rest : List UInt8) (hfront : data.drop pos = heads vs next ++ after)
    (hback : data.drop next = tails vs ++ rest) (hsize : headSizes (shapes vs) < 2 ^ 256)
    (h : next + (tails vs).length < 2 ^ 256) :
    decodeItems (shapes vs) data pos = some vs := by
  cases vs with
  | nil => rfl
  | cons v vs =>
    simp only [heads, tails, shapes, headSizes] at hfront hback hsize h
    simp only [shapes, decodeItems]
    by_cases hdynamic : v.shape.isDynamic = true
    · simp only [hdynamic, if_true, List.length_append, List.append_assoc] at hfront hback h ⊢
      have hnext : data.drop (pos + v.shape.headSize) =
          heads vs (next + (encode v).length) ++ after := by
        rw [← List.drop_drop, hfront, headSize_dynamic hdynamic, List.drop_left' (length_natWord _)]
      have htails : data.drop (next + (encode v).length) = tails vs ++ rest := by
        rw [← List.drop_drop, hback, List.drop_left' rfl]
      rw [hfront, natWord, takeWord_append, Option.bind_some, toNat_ofNat (by omega), hback,
        decode_encode v _ (by omega), Option.bind_some,
        decodeItems_encoded vs data _ _ after rest hnext htails (by omega) (by omega)]
      rfl
    · have hstatic : v.shape.isDynamic = false := by simpa using hdynamic
      simp only [hstatic, Bool.false_eq_true, if_false, List.nil_append,
        List.append_assoc] at hfront hback h ⊢
      have hnext : data.drop (pos + v.shape.headSize) = heads vs next ++ after := by
        rw [← List.drop_drop, hfront, List.drop_left' (length_encode_static v hstatic)]
      rw [hfront, decode_encode v _ (by rw [length_encode_static v hstatic]; omega),
        Option.bind_some,
        decodeItems_encoded vs data _ next after rest hnext hback (by omega) h]
      rfl

end

end RoundTrip

end Sidecar.Solidity.Abi
