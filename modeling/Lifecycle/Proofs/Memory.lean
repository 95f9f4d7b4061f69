import Lifecycle.Memory.Scalar
import Mathlib.Data.List.Basic
import Mathlib.Data.List.TakeWhile

/-!
# What memory holds

`Memory.Holds` says which bytes stand in memory from an address on. Whatever was written in full is
held, a held sequence is held part by part, and each kind of reading gives back what is held: a text
up to its terminator, and a table of pointers. `Memory.Stores` says what the write of a code does.
A reading is refused because of an address that is not mapped or of a text that does not end.
-/

namespace Lifecycle

namespace LittleEndian

theorem getElem?_encode {width value index : Nat} (hlt : index < width) :
    (encode width value)[index]? = some (UInt8.ofNat (value / Nat.pow 256 index)) := by
  induction width generalizing value index with
  | zero => exact absurd hlt (Nat.not_lt_zero _)
  | succ width ih =>
    cases index with
    | zero => simp [encode]
    | succ index =>
      have hpower : Nat.pow 256 (index + 1) = 256 * Nat.pow 256 index :=
        Nat.mul_comm (Nat.pow 256 index) 256
      rw [encode, List.getElem?_cons_succ, ih (Nat.lt_of_succ_lt_succ hlt), Nat.div_div_eq_div_mul,
        hpower]

theorem decodeVector_encode {width : Nat} {numbers : List Nat} (scalar : Scalar)
    (hwidth : scalar.size = width) (hunsigned : scalar.isSigned = false)
    (hsmall : ∀ number ∈ numbers, number < Nat.pow 256 width) :
    Memory.decodeVector scalar numbers.length (numbers.flatMap (encode width)) =
      numbers.map Int.ofNat := by
  subst hwidth
  induction numbers with
  | nil => rfl
  | cons number rest ih =>
    obtain ⟨hnumber, hrest⟩ := List.forall_mem_cons.1 hsmall
    have hdecode : scalar.decode (encode scalar.size number) = Int.ofNat number := by
      rw [Scalar.decode, decode_encode, Nat.mod_eq_of_lt hnumber, Scalar.ofBits, hunsigned]
      simp
    rw [List.length_cons, List.flatMap_cons, Memory.decodeVector, List.map_cons]
    rw [List.take_left' (length_encode _ _), List.drop_left' (length_encode _ _), hdecode, ih hrest]

end LittleEndian

/-- A code is cut into bytes as the unsigned number that has its bits. -/
theorem Scalar.toBits_toInt (code : Int32) :
    Scalar.i32.toBits code.toInt = code.toUInt32.toNat := by
  have hmodulus : Scalar.i32.modulus = 2 ^ 32 := rfl
  have hbits : code.toInt = (code.toUInt32.toNat : Int).bmod (2 ^ 32) :=
    BitVec.toInt_eq_toNat_bmod _
  have hlt : code.toUInt32.toNat < 2 ^ 32 := UInt32.toNat_lt _
  rw [Scalar.toBits, hmodulus, hbits, Int.bmod_emod]
  omega

namespace Memory

variable {memory : Memory} {address : Nat} {bytes front back : Bytes}

/-- The bytes that stand in memory from an address on. -/
def Holds (memory : Memory) (address : Nat) (bytes : Bytes) : Prop :=
  ∀ index byte, bytes[index]? = some byte →
    memory.IsMapped (address + index) ∧ memory.byteAt (address + index) = byte

theorem holds_append_iff :
    memory.Holds address (front ++ back) ↔
      memory.Holds address front ∧ memory.Holds (address + front.length) back := by
  constructor
  · refine fun holds ↦ ⟨fun index byte hbyte ↦ ?_, fun index byte hbyte ↦ ?_⟩
    · have hlt : index < front.length := (List.getElem?_eq_some_iff.1 hbyte).1
      exact holds index byte (by rwa [List.getElem?_append_left hlt])
    · have hbehind := holds (front.length + index) byte
      rw [List.getElem?_append_right (Nat.le_add_right _ _), Nat.add_sub_cancel_left,
        ← Nat.add_assoc] at hbehind
      exact hbehind hbyte
  · rintro ⟨hfront, hback⟩ index byte hbyte
    by_cases hlt : index < front.length
    · rw [List.getElem?_append_left hlt] at hbyte
      exact hfront index byte hbyte
    · rw [List.getElem?_append_right (Nat.not_lt.1 hlt)] at hbyte
      have hplace : address + front.length + (index - front.length) = address + index := by omega
      exact hplace ▸ hback _ byte hbyte

theorem span_le (memory : Memory) (address length : Nat) : memory.span address length ≤ length := by
  unfold span
  split <;> omega

/-- Mapped addresses lie side by side, so a sequence is mapped if its ends are. -/
theorem span_of_holds (holds : memory.Holds address bytes) {length : Nat}
    (hle : bytes.length ≤ length) : bytes.length ≤ memory.span address length := by
  cases hempty : bytes with
  | nil => exact Nat.zero_le _
  | cons first rest =>
    have hfirst : memory.IsMapped address := (holds 0 first (by rw [hempty]; rfl)).1
    have hlt : rest.length < bytes.length := by rw [hempty]; exact Nat.lt_succ_self _
    have hlast := (holds rest.length bytes[rest.length] (List.getElem?_eq_getElem hlt)).1
    rw [hempty, List.length_cons] at hle
    rw [span, if_pos hfirst, List.length_cons]
    unfold IsMapped at hlast
    omega

/-- A reading that is long enough begins with the bytes that are held. -/
theorem read_of_holds (holds : memory.Holds address bytes) {length : Nat}
    (hle : bytes.length ≤ length) : ∃ rest, memory.read address length = bytes ++ rest := by
  refine ⟨(memory.read address length).drop bytes.length, ?_⟩
  have hfront : (memory.read address length).take bytes.length = bytes := by
    have hspan := span_of_holds holds hle
    apply List.ext_getElem
    · rw [List.length_take, length_read]
      omega
    · intro index _ hlt
      simp only [List.getElem_take, read, List.getElem_map, List.getElem_range]
      exact (holds index bytes[index] (List.getElem?_eq_getElem hlt)).2
  calc
    memory.read address length =
        (memory.read address length).take bytes.length ++
          (memory.read address length).drop bytes.length := (List.take_append_drop _ _).symm
    _ = bytes ++ (memory.read address length).drop bytes.length := by rw [hfront]

theorem read_eq_of_holds (holds : memory.Holds address bytes) :
    memory.read address bytes.length = bytes := by
  obtain ⟨rest, hrest⟩ := read_of_holds holds (Nat.le_refl _)
  have hlength := congrArg List.length hrest
  rw [length_read, List.length_append] at hlength
  have hle := span_le memory address bytes.length
  have hnil : rest = [] := List.eq_nil_of_length_eq_zero (by omega)
  rw [hrest, hnil, List.append_nil]

theorem holds_write (hspan : memory.span address bytes.length = bytes.length) :
    (memory.write address bytes).Holds address bytes := by
  intro index byte hbyte
  obtain ⟨hlt, rfl⟩ := List.getElem?_eq_some_iff.1 hbyte
  have hmapped : memory.IsMapped address := by
    by_contra hnot
    rw [span, if_neg hnot] at hspan
    omega
  constructor
  · rw [span, if_pos hmapped] at hspan
    unfold IsMapped limit at hmapped ⊢
    unfold limit at hspan
    rw [base_write, size_write]
    omega
  · rw [byteAt_write, hspan, if_pos ⟨Nat.le_add_right _ _, Nat.add_lt_add_left hlt _⟩,
      Nat.add_sub_cancel_left, hbyte, Option.getD_some]

/-- Whatever is read stands in memory. -/
theorem holds_read (memory : Memory) (address length : Nat) :
    memory.Holds address (memory.read address length) := by
  intro index byte hbyte
  obtain ⟨hlt, rfl⟩ := List.getElem?_eq_some_iff.1 hbyte
  rw [length_read] at hlt
  have hmapped : memory.IsMapped address := by
    by_contra hnot
    rw [span, if_neg hnot] at hlt
    exact Nat.not_lt_zero _ hlt
  rw [span, if_pos hmapped] at hlt
  constructor
  · unfold IsMapped at hmapped ⊢
    omega
  · simp [read]

theorem span_eq_iff {length : Nat} :
    memory.span address length = length ↔
      ∀ index < length, memory.IsMapped (address + index) := by
  unfold span
  cases length with
  | zero => simp
  | succ length =>
    constructor
    · intro hspan index hlt
      split at hspan
      · next hmapped =>
        unfold IsMapped at hmapped ⊢
        omega
      · cases hspan
    · intro hmapped
      have hfirst := hmapped 0 (Nat.succ_pos _)
      have hlast := hmapped length (Nat.lt_succ_self _)
      rw [Nat.add_zero] at hfirst
      rw [if_pos hfirst]
      unfold IsMapped at hlast
      omega

/-! ## Codes that are written -/

/-- No byte has changed but the `length` ones at an address. -/
structure SameBut (before after : Memory) (address length : Nat) : Prop where
  base_eq : after.base = before.base
  size_eq : after.size = before.size
  byteAt_eq {place : Nat} (houtside : place < address ∨ address + length ≤ place) :
    after.byteAt place = before.byteAt place

/-- The four bytes at an address have come to hold a code, the lowest first, and no other byte has
changed. -/
structure Stores (before after : Memory) (address : Nat) (code : Int32) : Prop
    extends SameBut before after address 4 where
  stored {index : Nat} (hlt : index < 4) :
    before.IsMapped (address + index) ∧
      after.byteAt (address + index) = UInt8.ofNat (code.toUInt32.toNat / Nat.pow 256 index)

theorem SameBut.mono {before after : Memory} {length longer : Nat}
    (hsame : SameBut before after address length) (hle : length ≤ longer) :
    SameBut before after address longer where
  base_eq := hsame.base_eq
  size_eq := hsame.size_eq
  byteAt_eq houtside := hsame.byteAt_eq (by omega)

/-- A write leaves alone what it does not reach. -/
theorem sameBut_write (memory : Memory) (address : Nat) (bytes : Bytes) :
    memory.SameBut (memory.write address bytes) address (memory.span address bytes.length) where
  base_eq := base_write memory address bytes
  size_eq := size_write memory address bytes
  byteAt_eq houtside := by
    rw [byteAt_write, if_neg]
    omega

section WriteScalar

variable {after : Memory} {code : Int32}

theorem stores_of_written
    (hwritten : memory.writeScalar .i32 address code.toInt = (after, .ok ())) :
    memory.Stores after address code := by
  have hsame := (sameBut_write memory address (Scalar.i32.encode code.toInt)).mono
    (span_le memory address _)
  unfold writeScalar at hwritten
  split at hwritten
  case isFalse => cases hwritten
  next hspan =>
  cases hwritten
  refine ⟨hsame, fun {index} hlt ↦ ⟨span_eq_iff.1 hspan index hlt, ?_⟩⟩
  have hfull : memory.span address (Scalar.i32.encode code.toInt).length =
      (Scalar.i32.encode code.toInt).length := by
    rw [Scalar.length_encode, hspan]
  have hbyte : (Scalar.i32.encode code.toInt)[index]? =
      some (UInt8.ofNat (code.toUInt32.toNat / Nat.pow 256 index)) := by
    have hsize : index < Scalar.i32.size := hlt
    rw [Scalar.encode, LittleEndian.getElem?_encode hsize, Scalar.toBits_toInt]
  exact (holds_write hfull index _ hbyte).2

theorem unmapped_of_unwritten {cause : Errno}
    (hunwritten : memory.writeScalar .i32 address code.toInt = (after, .error cause)) :
    memory.SameBut after address 4 ∧ ¬ ∀ index < 4, memory.IsMapped (address + index) := by
  have hsame := (sameBut_write memory address (Scalar.i32.encode code.toInt)).mono
    (span_le memory address _)
  unfold writeScalar at hunwritten
  split at hunwritten
  case isTrue => cases hunwritten
  next hspan =>
  cases hunwritten
  exact ⟨hsame, mt span_eq_iff.2 hspan⟩

end WriteScalar

/-! ## Typed readings -/

/-- A terminated text is read up to its terminator, whatever stands behind it. -/
theorem readText_of_holds {text : Bytes} {longest : Nat} (hlength : text.length ≤ longest)
    (hplain : 0 ∉ text) (holds : memory.Holds address (text ++ [0])) :
    memory.readText address longest = .ok text := by
  have hroom : (text ++ [0]).length ≤ longest + 1 := by simpa using hlength
  obtain ⟨rest, hread⟩ := read_of_holds holds hroom
  have htext : (memory.read address (longest + 1)).takeWhile (· ≠ 0) = text := by
    rw [hread, List.append_assoc, List.takeWhile_append_of_pos]
    · simp
    · intro byte hmem
      exact decide_eq_true fun hzero ↦ hplain (hzero ▸ hmem)
  unfold readText
  simp only [htext]
  rw [if_pos]
  rw [hread, List.length_append, List.length_append, List.length_singleton]
  omega

/-- A text is read if and only if it stands in memory, terminated and short enough. -/
theorem readText_eq_ok_iff {text : Bytes} {longest : Nat} :
    memory.readText address longest = .ok text ↔
      text.length ≤ longest ∧ 0 ∉ text ∧ memory.Holds address (text ++ [0]) := by
  refine ⟨fun hread ↦ ?_, fun ⟨hlength, hplain, holds⟩ ↦ readText_of_holds hlength hplain holds⟩
  unfold readText at hread
  simp only at hread
  split at hread
  case isFalse => split at hread <;> cases hread
  next hshort =>
  cases hread
  have hbytes := holds_read memory address (longest + 1)
  have hle := span_le memory address (longest + 1)
  rw [length_read] at hshort
  have hsplit := List.takeWhile_append_dropWhile (p := (· ≠ 0))
    (l := memory.read address (longest + 1))
  refine ⟨by omega, fun hmem ↦ ?_, ?_⟩
  · have hplain := List.all_eq_true.1 List.all_takeWhile 0 hmem
    simp at hplain
  · cases hrest : (memory.read address (longest + 1)).dropWhile (· ≠ 0) with
    | nil =>
      rw [hrest, List.append_nil] at hsplit
      rw [hsplit, length_read] at hshort
      exact absurd hshort (Nat.lt_irrefl _)
    | cons first rest =>
      have hzero : first = 0 := by
        have hstop := List.head?_dropWhile_not (· ≠ 0) (memory.read address (longest + 1))
        rw [hrest] at hstop
        simpa using hstop
      rw [hzero] at hrest
      rw [← hsplit, hrest, List.append_cons, holds_append_iff] at hbytes
      exact hbytes.1

/-- A table of pointers is read entry by entry. -/
theorem readVector_of_holds {pointers : List Nat}
    (hsmall : ∀ pointer ∈ pointers, pointer < Limits.pointerLimit)
    (hlength : pointers.length * Limits.pointerSize < Limits.wordLimit)
    (holds : memory.Holds address (pointers.flatMap (LittleEndian.encode Limits.pointerSize))) :
    memory.readVector .u32 address pointers.length = .ok (pointers.map Int.ofNat) := by
  have hbytes : (pointers.flatMap (LittleEndian.encode Limits.pointerSize)).length =
      pointers.length * Limits.pointerSize := by
    simp [List.length_flatMap, List.map_const']
  have hspan := span_of_holds holds (Nat.le_refl _)
  have hread := read_eq_of_holds holds
  rw [hbytes] at hspan hread
  have hfull : memory.span address (pointers.length * Limits.pointerSize) =
      pointers.length * Limits.pointerSize :=
    Nat.le_antisymm (span_le memory address _) hspan
  have hcondition : pointers.length * Scalar.u32.size < Limits.wordLimit ∧
      memory.span address (pointers.length * Scalar.u32.size) =
        pointers.length * Scalar.u32.size := ⟨hlength, hfull⟩
  unfold readVector
  simp only [hcondition, and_self, if_true]
  change Except.ok (decodeVector .u32 pointers.length
    (memory.read address (pointers.length * Limits.pointerSize))) = _
  rw [hread]
  exact congrArg _ (LittleEndian.decodeVector_encode .u32 rfl rfl hsmall)

theorem read_of_mapped {length : Nat}
    (hmapped : ∀ index < length, memory.IsMapped (address + index)) :
    memory.read address length =
      (List.range length).map fun offset ↦ memory.byteAt (address + offset) := by
  rw [read, span_eq_iff.2 hmapped]

/-- A reading of several values falls into the readings of each of them. -/
theorem decodeVector_read {count : Nat} (scalar : Scalar)
    (hmapped : ∀ index < count * scalar.size, memory.IsMapped (address + index)) :
    decodeVector scalar count (memory.read address (count * scalar.size)) =
      (List.range count).map fun index ↦
        scalar.decode (memory.read (address + index * scalar.size) scalar.size) := by
  induction count generalizing address with
  | zero => rfl
  | succ count ih =>
    have hlength : (count + 1) * scalar.size = scalar.size + count * scalar.size := by
      rw [Nat.succ_mul, Nat.add_comm]
    rw [hlength] at hmapped ⊢
    have hfirst (index : Nat) (hlt : index < scalar.size) : memory.IsMapped (address + index) :=
      hmapped index (by omega)
    have hrest (index : Nat) (hlt : index < count * scalar.size) :
        memory.IsMapped (address + scalar.size + index) := by
      rw [Nat.add_assoc]
      exact hmapped _ (by omega)
    have hsplit : memory.read address (scalar.size + count * scalar.size) =
        memory.read address scalar.size ++
          memory.read (address + scalar.size) (count * scalar.size) := by
      rw [read_of_mapped hmapped, read_of_mapped hfirst, read_of_mapped hrest, List.range_add,
        List.map_append, List.map_map]
      simp only [Function.comp_def, Nat.add_assoc]
    have hfront : (memory.read address scalar.size).length = scalar.size := by
      rw [length_read, span_eq_iff.2 hfirst]
    rw [hsplit, decodeVector, List.take_left' hfront, List.drop_left' hfront, ih hrest,
      List.range_succ_eq_map, List.map_cons, List.map_map, Nat.zero_mul, Nat.add_zero]
    simp only [Function.comp_def, Nat.succ_mul, Nat.add_assoc, Nat.add_comm scalar.size]

theorem readVector_of_mapped {count : Nat} (scalar : Scalar)
    (hlimit : count * scalar.size < Limits.wordLimit)
    (hmapped : ∀ index < count * scalar.size, memory.IsMapped (address + index)) :
    memory.readVector scalar address count =
      .ok ((List.range count).map fun index ↦
        scalar.decode (memory.read (address + index * scalar.size) scalar.size)) := by
  rw [readVector, if_pos ⟨hlimit, span_eq_iff.2 hmapped⟩, decodeVector_read scalar hmapped]

theorem readVector_of_unmapped {count : Nat} (scalar : Scalar)
    (hunmapped : ¬ ∀ index < count * scalar.size, memory.IsMapped (address + index)) :
    memory.readVector scalar address count = .error .EFAULT := by
  rw [readVector, if_neg fun h ↦ hunmapped (span_eq_iff.1 h.2)]

/-- No byte that can be read, among the first few, ends a text. -/
def Unterminated (memory : Memory) (address longest : Nat) : Prop :=
  ∀ offset ≤ longest, (∀ before ≤ offset, memory.IsMapped (address + before)) →
    memory.byteAt (address + offset) ≠ 0

theorem lt_span_iff {length offset : Nat} :
    offset < memory.span address length ↔
      offset < length ∧ ∀ before ≤ offset, memory.IsMapped (address + before) := by
  unfold span
  split
  · next hmapped =>
    unfold IsMapped at hmapped ⊢
    constructor
    · intro hlt
      exact ⟨by omega, fun before hle ↦ by omega⟩
    · rintro ⟨hlt, hall⟩
      have hlast := hall offset (Nat.le_refl _)
      omega
  · next hunmapped =>
    refine iff_of_false (Nat.not_lt_zero _) ?_
    rintro ⟨-, hall⟩
    exact hunmapped (hall 0 (Nat.zero_le _))

theorem unterminated_iff {longest : Nat} :
    memory.Unterminated address longest ↔ 0 ∉ memory.read address (longest + 1) := by
  unfold read
  rw [List.mem_map]
  constructor
  · rintro hplain ⟨offset, hmem, hzero⟩
    obtain ⟨hlt, hmapped⟩ := lt_span_iff.1 (List.mem_range.1 hmem)
    exact hplain offset (Nat.le_of_lt_succ hlt) hmapped hzero
  · intro hnone offset hle hmapped hzero
    exact hnone ⟨offset, List.mem_range.2 (lt_span_iff.2 ⟨Nat.lt_succ_of_le hle, hmapped⟩), hzero⟩

/-- A text cannot be read if it does not end in time. -/
theorem readText_eq_error_iff {longest : Nat} {cause : Errno} :
    memory.readText address longest = .error cause ↔
      memory.Unterminated address longest ∧
        cause = if ∀ offset ≤ longest, memory.IsMapped (address + offset) then .ENAMETOOLONG
          else .EFAULT := by
  have hfull : (memory.read address (longest + 1)).length < longest + 1 ↔
      ¬ ∀ offset ≤ longest, memory.IsMapped (address + offset) := by
    have hle := span_le memory address (longest + 1)
    have hspan := @span_eq_iff memory address (longest + 1)
    simp only [Nat.lt_succ_iff] at hspan
    rw [length_read, ← hspan]
    omega
  have hshort : ((memory.read address (longest + 1)).takeWhile (· ≠ 0)).length <
      (memory.read address (longest + 1)).length ↔ 0 ∈ memory.read address (longest + 1) := by
    have hfront := List.takeWhile_prefix (l := memory.read address (longest + 1)) (· ≠ 0)
    constructor
    · intro hlt
      by_contra hplain
      have hself : (memory.read address (longest + 1)).takeWhile (· ≠ 0) =
          memory.read address (longest + 1) := by
        rw [List.takeWhile_eq_self_iff]
        exact fun byte hmem ↦ decide_eq_true fun hzero ↦ hplain (hzero ▸ hmem)
      rw [hself] at hlt
      exact Nat.lt_irrefl _ hlt
    · intro hzero
      refine Nat.lt_of_le_of_ne hfront.length_le fun hlength ↦ ?_
      rw [← hfront.eq_of_length hlength] at hzero
      simpa using List.mem_takeWhile_imp hzero
  unfold readText
  simp only
  rw [unterminated_iff, ← hshort, ← ite_not (∀ offset ≤ longest, _), ← if_congr hfull rfl rfl]
  split
  · next hlt => exact iff_of_false nofun fun h ↦ h.1 hlt
  · next hnot =>
    split <;> exact ⟨fun h ↦ ⟨hnot, (Except.error.inj h).symm⟩, fun h ↦ congrArg _ h.2.symm⟩

end Memory

end Lifecycle
