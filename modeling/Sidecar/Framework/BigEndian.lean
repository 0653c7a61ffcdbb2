import Mathlib.Algebra.Ring.Nat
import Mathlib.Data.List.Induction

/-! Numbers as byte strings of a fixed width, most significant byte first. -/

namespace Sidecar.BigEndian

/-- The last `width` digits of `n` in base 256. -/
def toBytes (width n : Nat) : List UInt8 :=
  (List.range width).map (fun i => UInt8.ofNat (n / 256 ^ (width - 1 - i)))

def ofBytes (bytes : List UInt8) : Nat := bytes.foldl (fun acc b => acc * 256 + b.toNat) 0

@[simp]
theorem length_toBytes (width n : Nat) : (toBytes width n).length = width := by
  simp [toBytes]

/-- One digit more is the last byte. -/
theorem toBytes_succ (width n : Nat) :
    toBytes (width + 1) n = toBytes width (n / 256) ++ [UInt8.ofNat n] := by
  have hdigit : ∀ i ∈ List.range width,
      UInt8.ofNat (n / 256 ^ (width + 1 - 1 - i)) =
        UInt8.ofNat (n / 256 / 256 ^ (width - 1 - i)) := by
    intro i hi
    have hlt : i < width := List.mem_range.mp hi
    have hexp : width + 1 - 1 - i = width - 1 - i + 1 := by omega
    rw [hexp, pow_succ, Nat.div_div_eq_div_mul, Nat.mul_comm]
  have hlast : n / 256 ^ (width + 1 - 1 - width) = n := by
    simp
  unfold toBytes
  rw [List.range_succ, List.map_append, List.map_congr_left hdigit, List.map_singleton, hlast]

theorem ofBytes_append_singleton (bytes : List UInt8) (b : UInt8) :
    ofBytes (bytes ++ [b]) = ofBytes bytes * 256 + b.toNat := by
  simp [ofBytes]

theorem ofBytes_lt (bytes : List UInt8) : ofBytes bytes < 256 ^ bytes.length := by
  induction bytes using List.reverseRecOn with
  | nil => simp [ofBytes]
  | append_singleton bytes b ih =>
    have hb : b.toNat < 256 := b.toNat_lt
    rw [ofBytes_append_singleton, List.length_append, List.length_singleton, pow_succ]
    omega

/-- Reading back the last digits of a number. -/
theorem ofBytes_toBytes (width n : Nat) : ofBytes (toBytes width n) = n % 256 ^ width := by
  induction width generalizing n with
  | zero => simp [toBytes, ofBytes, Nat.mod_one]
  | succ width ih =>
    have hdigit : (UInt8.ofNat n).toNat = n % 256 := by simp
    have hsplit : n % (256 * 256 ^ width) = n % 256 + 256 * (n / 256 % 256 ^ width) :=
      Nat.mod_mul
    rw [toBytes_succ, ofBytes_append_singleton, ih, hdigit, pow_succ,
      Nat.mul_comm (256 ^ width) 256, hsplit]
    omega

theorem ofBytes_toBytes_of_lt {width n : Nat} (h : n < 256 ^ width) :
    ofBytes (toBytes width n) = n := by
  rw [ofBytes_toBytes, Nat.mod_eq_of_lt h]

/-- Every byte string is the digits of the number it stands for. -/
theorem toBytes_ofBytes (bytes : List UInt8) : toBytes bytes.length (ofBytes bytes) = bytes := by
  induction bytes using List.reverseRecOn with
  | nil => rfl
  | append_singleton bytes b ih =>
    have hb : b.toNat < 256 := b.toNat_lt
    have hdiv : (ofBytes bytes * 256 + b.toNat) / 256 = ofBytes bytes := by omega
    have hlast : UInt8.ofNat (ofBytes bytes * 256 + b.toNat) = b := by
      apply UInt8.toNat_inj.mp
      simp
    rw [ofBytes_append_singleton, List.length_append, List.length_singleton, toBytes_succ, hdiv, ih,
      hlast]

theorem ofBytes_inj {bytes bytes' : List UInt8} (hlength : bytes.length = bytes'.length)
    (h : ofBytes bytes = ofBytes bytes') : bytes = bytes' := by
  rw [← toBytes_ofBytes bytes, ← toBytes_ofBytes bytes', hlength, h]

end Sidecar.BigEndian
