import TransferRouter.Order

/-!
Byte strings: numbers of fixed width in either byte order, and the least string above every
extension of a given one.
-/

namespace TransferRouter

/-- A byte string. -/
abbrev Bytes := List UInt8

namespace Bytes

/-- The lowest `width` base-256 digits of `n`, least significant first. -/
def littleEndian : (width n : Nat) → Bytes
  | 0, _ => []
  | width + 1, n => UInt8.ofNat n :: littleEndian width (n / 256)

/-- The number that base-256 digits spell, least significant first. -/
def ofLittleEndian : Bytes → Nat
  | [] => 0
  | b :: s => b.toNat + 256 * ofLittleEndian s

/-- The lowest `width` base-256 digits of `n`, most significant first. -/
def bigEndian (width n : Nat) : Bytes := (littleEndian width n).reverse

/-- The number that base-256 digits spell, most significant first. -/
def ofBigEndian (s : Bytes) : Nat := ofLittleEndian s.reverse

/-- The number of byte strings of a length. -/
def count : (width : Nat) → Nat
  | 0 => 1
  | width + 1 => 256 * count width

@[simp] theorem length_littleEndian (width n : Nat) : (littleEndian width n).length = width := by
  induction width generalizing n with
  | zero => rfl
  | succ width ih => simp [littleEndian, ih]

@[simp] theorem length_bigEndian (width n : Nat) : (bigEndian width n).length = width := by
  simp [bigEndian]

theorem ofLittleEndian_littleEndian {width n : Nat} (h : n < count width) :
    ofLittleEndian (littleEndian width n) = n := by
  induction width generalizing n with
  | zero => simp [littleEndian, ofLittleEndian, Nat.lt_one_iff.1 h]
  | succ width ih =>
    have h' : n / 256 < count width := Nat.div_lt_of_lt_mul h
    simp only [littleEndian, ofLittleEndian, ih h', UInt8.toNat_ofNat']
    omega

theorem ofBigEndian_bigEndian {width n : Nat} (h : n < count width) :
    ofBigEndian (bigEndian width n) = n := by
  simp [ofBigEndian, bigEndian, ofLittleEndian_littleEndian h]

/-- The least byte string above every extension of the given one. There is none when every byte
is the highest one. -/
def ceiling : Bytes → Option Bytes
  | [] => none
  | b :: s =>
    match ceiling s with
    | some e => some (b :: e)
    | none => if b.toNat < 255 then some [b + 1] else none

end Bytes

end TransferRouter
