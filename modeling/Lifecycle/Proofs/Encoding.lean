import Lifecycle.Proofs.Memory
import Mathlib.Tactic.Ring

/-!
# Numbers and their bytes

`LittleEndian.byteOf` tells the bytes of an integer of any size and sign, and `Scalar.InRange` the
integers that a type has. Encoding a number puts down its lowest bytes, and any bytes of the right
number are the encoding of one number in range, so that encoding and decoding are inverse at every
width.
-/

namespace Lifecycle

namespace LittleEndian

/-- The byte of an integer at a place, the lowest at place zero. Above a negative integer every bit
is set. -/
def byteOf (value : Int) (index : Nat) : UInt8 := UInt8.ofInt (value / 256 ^ index)

theorem byteOf_natCast (number index : Nat) :
    byteOf number index = UInt8.ofNat (number / 256 ^ index) := by
  have hbyte : ((number : Int) / 256 ^ index % 2 ^ 8).toNat = number / 256 ^ index % 2 ^ 8 := by
    norm_cast
  rw [byteOf, UInt8.ofInt, hbyte]
  exact UInt8.ofNat_mod_size

/-- The low bytes of an integer are those of its residue. -/
theorem byteOf_emod {width index : Nat} (hlt : index < width) (value : Int) :
    byteOf (value % 256 ^ width) index = byteOf value index := by
  obtain ⟨more, rfl⟩ := Nat.exists_eq_add_of_lt hlt
  have hpower : (256 : Int) ^ (index + more + 1) = 256 ^ index * (2 ^ 8 * 256 ^ more) := by ring
  have hnonzero : (256 : Int) ^ index ≠ 0 := pow_ne_zero _ (by decide)
  have hquotient : value / 256 ^ index =
      value % 256 ^ (index + more + 1) / 256 ^ index +
        2 ^ 8 * (256 ^ more * (value / 256 ^ (index + more + 1))) :=
    calc
      value / 256 ^ index =
          (value % 256 ^ (index + more + 1) +
            256 ^ (index + more + 1) * (value / 256 ^ (index + more + 1))) / 256 ^ index := by
        rw [Int.emod_add_mul_ediv]
      _ = (value % 256 ^ (index + more + 1) +
            256 ^ index * (2 ^ 8 * (256 ^ more * (value / 256 ^ (index + more + 1))))) /
              256 ^ index := by
        rw [← Int.mul_assoc (2 ^ 8), ← Int.mul_assoc (256 ^ index), ← hpower]
      _ = _ := Int.add_mul_ediv_left _ _ hnonzero
  rw [byteOf, byteOf, hquotient, UInt8.ofInt, UInt8.ofInt, Int.add_mul_emod_self_left]

theorem encode_decode (bytes : Bytes) : encode bytes.length (decode bytes) = bytes := by
  induction bytes with
  | nil => rfl
  | cons byte rest ih =>
    have hlt := byte.toNat_lt
    have hfirst : UInt8.ofNat (byte.toNat + 256 * decode rest) = byte := by
      apply UInt8.toNat_inj.1
      rw [UInt8.toNat_ofNat']
      omega
    have hrest : (byte.toNat + 256 * decode rest) / 256 = decode rest := by omega
    rw [List.length_cons, encode, decode, hfirst, hrest, ih]

end LittleEndian

namespace Scalar

variable {scalar : Scalar} {value : Int} {bits index : Nat} {bytes : Bytes}

/-- The integers that a type has. -/
def InRange (scalar : Scalar) (value : Int) : Prop :=
  if scalar.isSigned then -(scalar.modulus : Int) ≤ 2 * value ∧ 2 * value < scalar.modulus
  else 0 ≤ value ∧ value < scalar.modulus

theorem size_pos (scalar : Scalar) : 0 < scalar.size := by cases scalar <;> decide

/-! ## Bits -/

theorem natCast_toBits (scalar : Scalar) (value : Int) :
    (scalar.toBits value : Int) = value % 256 ^ scalar.size := by
  have hmodulus : (scalar.modulus : Int) = 256 ^ scalar.size := Int.natCast_pow 256 _
  rw [toBits, hmodulus, Int.toNat_of_nonneg]
  exact Int.emod_nonneg _ (pow_ne_zero _ (by decide))

theorem toBits_ofBits (hlt : bits < scalar.modulus) :
    scalar.toBits (scalar.ofBits bits) = bits := by
  have hbits : ((bits : Int) % scalar.modulus).toNat = bits := by
    rw [← Int.natCast_emod, Nat.mod_eq_of_lt hlt, Int.toNat_natCast]
  unfold toBits ofBits
  split
  · rw [Int.sub_emod_right, hbits]
  · exact hbits

theorem inRange_ofBits (hlt : bits < scalar.modulus) : scalar.InRange (scalar.ofBits bits) := by
  unfold InRange ofBits
  split
  · next hsigned =>
    simp only [hsigned, true_and]
    split <;> omega
  · next hunsigned =>
    rw [if_neg fun h ↦ hunsigned h.1]
    omega

theorem exists_ofBits (hrange : scalar.InRange value) :
    ∃ bits < scalar.modulus, scalar.ofBits bits = value := by
  unfold InRange at hrange
  split at hrange
  · next hsigned =>
    by_cases hnegative : value < 0
    · refine ⟨(value + scalar.modulus).toNat, by omega, ?_⟩
      rw [ofBits, if_pos ⟨hsigned, by omega⟩]
      omega
    · refine ⟨value.toNat, by omega, ?_⟩
      rw [ofBits, if_neg fun h ↦ by omega]
      omega
  · next hunsigned =>
    refine ⟨value.toNat, by omega, ?_⟩
    rw [ofBits, if_neg fun h ↦ hunsigned h.1]
    omega

theorem truncate_of_inRange (hrange : scalar.InRange value) : scalar.truncate value = value := by
  obtain ⟨bits, hlt, rfl⟩ := exists_ofBits hrange
  rw [truncate, toBits_ofBits hlt]

/-! ## Bytes -/

theorem getElem?_encode (hlt : index < scalar.size) (value : Int) :
    (scalar.encode value)[index]? = some (LittleEndian.byteOf value index) := by
  rw [encode, LittleEndian.getElem?_encode hlt, ← LittleEndian.byteOf_emod hlt, ← natCast_toBits,
    LittleEndian.byteOf_natCast]
  rfl

theorem decode_lt (hlength : bytes.length = scalar.size) :
    LittleEndian.decode bytes < scalar.modulus := by
  rw [modulus, ← hlength]
  exact LittleEndian.decode_lt bytes

theorem inRange_decode (hlength : bytes.length = scalar.size) :
    scalar.InRange (scalar.decode bytes) :=
  inRange_ofBits (decode_lt hlength)

theorem encode_decode (hlength : bytes.length = scalar.size) :
    scalar.encode (scalar.decode bytes) = bytes := by
  rw [encode, decode, toBits_ofBits (decode_lt hlength), ← hlength, LittleEndian.encode_decode]

end Scalar

end Lifecycle
