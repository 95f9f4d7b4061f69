import Lifecycle.Memory.Access
import Lifecycle.Proofs.Encoding
import Mathlib.Data.List.Forall2

/-!
# Values in user memory

A value stands in memory if its bytes do, and a scalar is read if and only if it stands there, at
every width and with either sign. A write puts down the bytes of its value as far as memory is
mapped and changes nothing else; it is refused exactly if memory ends before the value does. Reading
a vector is reading its values one after another, for every number of them whose bytes a buffer can
hold.
-/

namespace Lifecycle.Memory

variable {memory after : Memory} {scalar : Scalar} {address count width : Nat} {value : Int}
  {values : List Int}

/-! ## Values that stand in memory -/

/-- The bytes of a value of the type stand in memory, the lowest first. -/
structure HoldsValue (memory : Memory) (scalar : Scalar) (address : Nat) (value : Int) : Prop where
  inRange : scalar.InRange value
  bytes (index : Nat) (hlt : index < scalar.size) :
    memory.IsMapped (address + index) ∧
      memory.byteAt (address + index) = LittleEndian.byteOf value index

theorem holds_encode_iff :
    memory.Holds address (scalar.encode value) ↔
      ∀ index < scalar.size, memory.IsMapped (address + index) ∧
        memory.byteAt (address + index) = LittleEndian.byteOf value index := by
  constructor
  · exact fun holds index hlt ↦ holds index _ (Scalar.getElem?_encode hlt value)
  · intro hbytes index byte hbyte
    have hlt : index < scalar.size := by
      simpa using (List.getElem?_eq_some_iff.1 hbyte).1
    rw [Scalar.getElem?_encode hlt, Option.some_inj] at hbyte
    exact hbyte ▸ hbytes index hlt

/-- What is read of a type is what stands in memory. -/
theorem readScalar_eq_ok_iff :
    memory.readScalar scalar address = .ok value ↔ memory.HoldsValue scalar address value := by
  unfold readScalar
  constructor
  · intro hread
    split at hread
    case isFalse => cases hread
    next hspan =>
    cases hread
    have hlength : (memory.read address scalar.size).length = scalar.size := by
      rw [length_read, hspan]
    refine ⟨Scalar.inRange_decode hlength, holds_encode_iff.1 ?_⟩
    rw [Scalar.encode_decode hlength]
    exact holds_read memory address scalar.size
  · intro holds
    have hspan := span_eq_iff.2 fun index hlt ↦ (holds.bytes index hlt).1
    have hread := read_eq_of_holds (holds_encode_iff.2 holds.bytes)
    rw [Scalar.length_encode] at hread
    rw [if_pos hspan, hread, Scalar.decode_encode, Scalar.truncate_of_inRange holds.inRange]

theorem readScalar_of_mapped (hmapped : ∀ index < scalar.size, memory.IsMapped (address + index)) :
    memory.readScalar scalar address =
      .ok (scalar.decode (memory.read address scalar.size)) := by
  rw [readScalar, if_pos (span_eq_iff.2 hmapped)]

theorem exists_readScalar_iff :
    (∃ value, memory.readScalar scalar address = .ok value) ↔
      ∀ index < scalar.size, memory.IsMapped (address + index) := by
  constructor
  · rintro ⟨value, hread⟩ index hlt
    exact ((readScalar_eq_ok_iff.1 hread).bytes index hlt).1
  · exact fun hmapped ↦ ⟨_, readScalar_of_mapped hmapped⟩

/-! ## Values that are written -/

/-- The first bytes of a value have come to stand at an address, and no other byte has changed. -/
structure Receives (before after : Memory) (address count : Nat) (value : Int) : Prop
    extends SameBut before after address count where
  stored (index : Nat) (hlt : index < count) :
    after.byteAt (address + index) = LittleEndian.byteOf value index

/-- Of `length` addresses the first `count` are mapped, and the next one is not. -/
structure FallsShort (memory : Memory) (address length count : Nat) : Prop where
  count_lt : count < length
  mapped (index : Nat) (hlt : index < count) : memory.IsMapped (address + index)
  unmapped : ¬ memory.IsMapped (address + count)

theorem fallsShort_span {length : Nat} (hunmapped : ¬ ∀ index < length,
    memory.IsMapped (address + index)) :
    memory.FallsShort address length (memory.span address length) := by
  have hlt : memory.span address length < length :=
    Nat.lt_of_le_of_ne (span_le memory address length) (mt span_eq_iff.1 hunmapped)
  have hmapped (index : Nat) (hindex : index < memory.span address length) :
      memory.IsMapped (address + index) :=
    (lt_span_iff.1 hindex).2 index (Nat.le_refl _)
  refine ⟨hlt, hmapped, fun hnext ↦ Nat.lt_irrefl _ (lt_span_iff.2 ⟨hlt, fun index hle ↦ ?_⟩)⟩
  obtain hbefore | rfl := Nat.lt_or_eq_of_le hle
  · exact hmapped index hbefore
  · exact hnext

theorem receives_write (memory : Memory) (scalar : Scalar) (address : Nat) (value : Int) :
    memory.Receives (memory.write address (scalar.encode value)) address
      (memory.span address scalar.size) value := by
  have hsame := sameBut_write memory address (scalar.encode value)
  rw [Scalar.length_encode] at hsame
  refine ⟨hsame, fun index hlt ↦ ?_⟩
  have hsize : index < scalar.size := (lt_span_iff.1 hlt).1
  rw [byteAt_write, Scalar.length_encode,
    if_pos ⟨Nat.le_add_right _ _, Nat.add_lt_add_left hlt _⟩, Nat.add_sub_cancel_left,
    Scalar.getElem?_encode hsize, Option.getD_some]

/-- A value that was received in full stands in memory. -/
theorem Receives.holdsValue (receives : memory.Receives after address scalar.size value)
    (hmapped : ∀ index < scalar.size, memory.IsMapped (address + index))
    (hrange : scalar.InRange value) : after.HoldsValue scalar address value := by
  refine ⟨hrange, fun index hlt ↦ ⟨?_, receives.stored index hlt⟩⟩
  have hbefore := hmapped index hlt
  unfold IsMapped limit at hbefore ⊢
  rwa [receives.base_eq, receives.size_eq]

/-! ## Vectors -/

/-- A range is mapped if each of the pieces is mapped into which it is cut. -/
theorem mapped_mul_iff :
    (∀ index < count * width, memory.IsMapped (address + index)) ↔
      ∀ index < count, ∀ offset < width, memory.IsMapped (address + index * width + offset) := by
  constructor
  · intro hmapped index hindex offset hoffset
    have hinside : index * width + offset < count * width :=
      calc
        index * width + offset < index * width + width := Nat.add_lt_add_left hoffset _
        _ = (index + 1) * width := (Nat.succ_mul index width).symm
        _ ≤ count * width := Nat.mul_le_mul_right width hindex
    rw [Nat.add_assoc]
    exact hmapped _ hinside
  · intro hmapped index hlt
    have hwidth : 0 < width := Nat.pos_of_mul_pos_left (Nat.zero_lt_of_lt hlt)
    have hpiece : index / width < count := (Nat.div_lt_iff_lt_mul hwidth).2 hlt
    have hplace := hmapped _ hpiece _ (Nat.mod_lt index hwidth)
    rwa [Nat.add_assoc, Nat.div_add_mod'] at hplace

/-- A vector is read as its values are, one after another. -/
theorem readVector_eq_ok_iff (hlimit : count * scalar.size < Limits.wordLimit) :
    memory.readVector scalar address count = .ok values ↔
      List.Forall₂
        (fun index value ↦ memory.readScalar scalar (address + index * scalar.size) = .ok value)
        (List.range count) values := by
  by_cases hmapped : ∀ index < count * scalar.size, memory.IsMapped (address + index)
  · have hall : List.Forall₂
        (fun index value ↦ memory.readScalar scalar (address + index * scalar.size) = .ok value)
        (List.range count) ((List.range count).map fun index ↦
          scalar.decode (memory.read (address + index * scalar.size) scalar.size)) :=
      List.forall₂_map_right_iff.2 <| List.forall₂_same.2 fun index hmem ↦
        readScalar_of_mapped (mapped_mul_iff.1 hmapped index (List.mem_range.1 hmem))
    rw [readVector_of_mapped scalar hlimit hmapped, Except.ok.injEq]
    constructor
    · rintro rfl
      exact hall
    · refine fun hvalues ↦ List.right_unique_forall₂' ?_ hall hvalues
      intro index value other hvalue hother
      exact Except.ok.inj (hvalue.symm.trans hother)
  · rw [readVector_of_unmapped scalar hmapped]
    refine iff_of_false nofun fun hvalues ↦ hmapped (mapped_mul_iff.2 fun index hlt ↦ ?_)
    have hindex : index < (List.range count).length := by rwa [List.length_range]
    have hread := hvalues.get hindex (hvalues.length_eq ▸ hindex)
    simp only [List.get_eq_getElem, List.getElem_range] at hread
    exact exists_readScalar_iff.1 ⟨_, hread⟩

theorem exists_readVector_iff (hlimit : count * scalar.size < Limits.wordLimit) :
    (∃ values, memory.readVector scalar address count = .ok values) ↔
      ∀ index < count, ∃ value,
        memory.readScalar scalar (address + index * scalar.size) = .ok value := by
  simp only [exists_readScalar_iff]
  rw [← mapped_mul_iff]
  constructor
  · rintro ⟨values, hread⟩
    by_contra hunmapped
    cases hread.symm.trans (readVector_of_unmapped scalar hunmapped)
  · exact fun hmapped ↦ ⟨_, readVector_of_mapped scalar hlimit hmapped⟩

/-- No memory is mapped all around the words, so nothing is gained by going on at the bottom when
the top is reached. -/
theorem mapped_around_iff (hlimit : memory.limit ≤ Limits.wordLimit)
    (hsize : memory.size < Limits.wordLimit) (haddress : address < Limits.wordLimit)
    (hwidth : 0 < width) :
    (∀ index < count, ∀ offset < width,
        memory.IsMapped ((address + index * width) % Limits.wordLimit + offset)) ↔
      ∀ index < count, ∀ offset < width, memory.IsMapped (address + index * width + offset) := by
  constructor
  · intro haround
    have hbelow (index : Nat) (hlt : index < count) :
        address + index * width < Limits.wordLimit := by
      induction index with
      | zero => rwa [Nat.zero_mul, Nat.add_zero]
      | succ index ih =>
        have hbefore := ih (Nat.lt_of_succ_lt hlt)
        have hlast := haround index (Nat.lt_of_succ_lt hlt) (width - 1) (by omega)
        have hfirst := haround (index + 1) hlt 0 hwidth
        rw [Nat.mod_eq_of_lt hbefore] at hlast
        rw [Nat.succ_mul] at hfirst ⊢
        unfold IsMapped at hlast hfirst
        by_contra hreached
        have htop : address + (index * width + width) = Limits.wordLimit := by omega
        rw [htop, Nat.mod_self] at hfirst
        unfold limit at *
        omega
    intro index hlt offset hoffset
    have hplace := haround index hlt offset hoffset
    rwa [Nat.mod_eq_of_lt (hbelow index hlt)] at hplace
  · intro hmapped index hlt offset hoffset
    have hbelow := (hmapped index hlt offset hoffset).2
    rw [Nat.mod_eq_of_lt (by omega)]
    exact hmapped index hlt offset hoffset

theorem readVector_eq_error {cause : Errno}
    (hread : memory.readVector scalar address count = .error cause) : cause = .EFAULT := by
  unfold readVector at hread
  simp only at hread
  split at hread <;> cases hread
  rfl

/-! ## Accesses -/

/-- A reading gives a value and leaves memory alone. -/
def Reads (memory : Memory) (scalar : Scalar) (address : Nat) (value : Int) : Prop :=
  memory.perform (.read scalar address) = (memory, .value value)

/-- A reading of several values gives a list of them and leaves memory alone. -/
def ReadsAll (memory : Memory) (scalar : Scalar) (address count : Nat) (values : List Int) : Prop :=
  memory.perform (.vector scalar address count) = (memory, .values values)

theorem reads_iff :
    memory.Reads scalar address value ↔ memory.readScalar scalar address = .ok value := by
  unfold Reads
  rw [perform]
  cases memory.readScalar scalar address <;> simp

theorem perform_vector (hbuffer : count * scalar.size < Limits.bufferLimit) :
    memory.perform (.vector scalar address count) =
      (memory, match memory.readVector scalar address count with
        | .ok values => .values values
        | .error cause => .refused cause) := by
  have hlimit : count * scalar.size < Limits.wordLimit := hbuffer.trans (by decide)
  rw [perform]
  simp only [if_neg (Nat.not_le.2 hlimit), bufferFault?, if_neg (Nat.not_le.2 hbuffer)]
  cases memory.readVector scalar address count <;> rfl

theorem readsAll_iff (hbuffer : count * scalar.size < Limits.bufferLimit) :
    memory.ReadsAll scalar address count values ↔
      memory.readVector scalar address count = .ok values := by
  unfold ReadsAll
  rw [perform_vector hbuffer]
  cases memory.readVector scalar address count <;> simp

theorem exists_readsAll_iff (hbuffer : count * scalar.size < Limits.bufferLimit) :
    (∃ values, memory.ReadsAll scalar address count values) ↔
      ∀ index < count, ∀ offset < scalar.size,
        memory.IsMapped (address + index * scalar.size + offset) := by
  simp only [readsAll_iff hbuffer]
  rw [exists_readVector_iff (hbuffer.trans (by decide))]
  simp only [exists_readScalar_iff]

theorem perform_vector_of_unread (hbuffer : count * scalar.size < Limits.bufferLimit)
    (hnone : ∀ values, ¬ memory.ReadsAll scalar address count values) :
    memory.perform (.vector scalar address count) = (memory, .refused .EFAULT) := by
  rw [perform_vector hbuffer]
  cases hread : memory.readVector scalar address count with
  | ok values => exact absurd ((readsAll_iff hbuffer).2 hread) (hnone values)
  | error cause => rw [readVector_eq_error hread]

theorem perform_vector_of_overflow (hlong : Limits.wordLimit ≤ count * scalar.size) :
    memory.perform (.vector scalar address count) = (memory, .refused .EFAULT) := by
  rw [perform]
  simp only [if_pos hlong]

theorem perform_write_of_mapped
    (hmapped : ∀ index < scalar.size, memory.IsMapped (address + index)) (value : Int) :
    memory.perform (.write scalar address value) =
      (memory.write address (scalar.encode value), .written) := by
  rw [perform, writeScalar, if_pos (span_eq_iff.2 hmapped)]

theorem perform_write_of_unmapped
    (hunmapped : ¬ ∀ index < scalar.size, memory.IsMapped (address + index)) (value : Int) :
    memory.perform (.write scalar address value) =
      (memory.write address (scalar.encode value), .refused .EFAULT) := by
  rw [perform, writeScalar, if_neg (mt span_eq_iff.1 hunmapped)]

/-- A write succeeds exactly where all of the value is mapped. -/
theorem perform_write_eq_written_iff :
    (memory.perform (.write scalar address value)).2 = .written ↔
      ∀ index < scalar.size, memory.IsMapped (address + index) := by
  by_cases hmapped : ∀ index < scalar.size, memory.IsMapped (address + index)
  · rw [perform_write_of_mapped hmapped]
    exact iff_of_true rfl hmapped
  · rw [perform_write_of_unmapped hmapped]
    exact iff_of_false nofun hmapped

theorem receives_of_written
    (hwritten : memory.perform (.write scalar address value) = (after, .written)) :
    memory.Receives after address scalar.size value := by
  have hmapped := perform_write_eq_written_iff.1 (congrArg Prod.snd hwritten)
  have hreceives := receives_write memory scalar address value
  rw [perform_write_of_mapped hmapped] at hwritten
  cases hwritten
  rwa [span_eq_iff.2 hmapped] at hreceives

theorem reads_of_written
    (hwritten : memory.perform (.write scalar address value) = (after, .written))
    (hrange : scalar.InRange value) : after.Reads scalar address value := by
  have hmapped := perform_write_eq_written_iff.1 (congrArg Prod.snd hwritten)
  have holds := (receives_of_written hwritten).holdsValue hmapped hrange
  exact reads_iff.2 (readScalar_eq_ok_iff.2 holds)

/-- A write that is refused has put down what is mapped. -/
theorem receives_of_unwritten {result : AccessResult}
    (hresult : memory.perform (.write scalar address value) = (after, result))
    (hne : result ≠ .written) :
    result = .refused .EFAULT ∧
      ∃ count, memory.FallsShort address scalar.size count ∧
        memory.Receives after address count value := by
  have hunmapped : ¬ ∀ index < scalar.size, memory.IsMapped (address + index) := by
    rw [← perform_write_eq_written_iff, hresult]
    exact hne
  rw [perform_write_of_unmapped hunmapped] at hresult
  cases hresult
  exact ⟨rfl, _, fallsShort_span hunmapped, receives_write memory scalar address value⟩

/-- The accesses of a type at an address agree. What is written is read there, a refused write has
put down the part that is mapped, and a vector is read if all of its values are, be their addresses
counted around the top of the words or not. -/
structure AccessKept (memory : Memory) (scalar : Scalar) (address : Nat) : Prop where
  written_iff {value : Int} :
    (memory.perform (.write scalar address value)).2 = .written ↔
      ∀ index < scalar.size, memory.IsMapped (address + index)
  written {value : Int} {after : Memory}
    (hwritten : memory.perform (.write scalar address value) = (after, .written)) :
    memory.Receives after address scalar.size value
  readBack {value : Int} {after : Memory}
    (hwritten : memory.perform (.write scalar address value) = (after, .written))
    (hrange : scalar.InRange value) : after.Reads scalar address value
  unwritten {value : Int} {after : Memory} {result : AccessResult}
    (hresult : memory.perform (.write scalar address value) = (after, result))
    (hne : result ≠ .written) :
    result = .refused .EFAULT ∧
      ∃ count, memory.FallsShort address scalar.size count ∧
        memory.Receives after address count value
  reads_iff {value : Int} :
    memory.Reads scalar address value ↔ memory.HoldsValue scalar address value
  readsAll_iff {count : Nat} {values : List Int}
    (hbuffer : count * scalar.size < Limits.bufferLimit) :
    memory.ReadsAll scalar address count values ↔
      List.Forall₂ (fun index value ↦ memory.Reads scalar (address + index * scalar.size) value)
        (List.range count) values
  exists_readsAll_iff {count : Nat} (hbuffer : count * scalar.size < Limits.bufferLimit) :
    (∃ values, memory.ReadsAll scalar address count values) ↔
      ∀ index < count, ∃ value, memory.Reads scalar (address + index * scalar.size) value
  around {count : Nat} (hbuffer : count * scalar.size < Limits.bufferLimit)
    (hlimit : memory.limit ≤ Limits.wordLimit) (hsize : memory.size < Limits.wordLimit)
    (haddress : address < Limits.wordLimit) :
    (∃ values, memory.ReadsAll scalar address count values) ↔
      ∀ index < count, ∃ value,
        memory.Reads scalar ((address + index * scalar.size) % Limits.wordLimit) value
  unread {count : Nat} (hbuffer : count * scalar.size < Limits.bufferLimit)
    (hnone : ∀ values, ¬ memory.ReadsAll scalar address count values) :
    memory.perform (.vector scalar address count) = (memory, .refused .EFAULT)
  overflow {count : Nat} (hlong : Limits.wordLimit ≤ count * scalar.size) :
    memory.perform (.vector scalar address count) = (memory, .refused .EFAULT)

theorem accessKept (memory : Memory) (scalar : Scalar) (address : Nat) :
    AccessKept memory scalar address where
  written_iff := perform_write_eq_written_iff
  written := receives_of_written
  readBack := reads_of_written
  unwritten := receives_of_unwritten
  reads_iff := reads_iff.trans readScalar_eq_ok_iff
  readsAll_iff hbuffer := by
    rw [readsAll_iff hbuffer, readVector_eq_ok_iff (hbuffer.trans (by decide))]
    simp only [reads_iff]
  exists_readsAll_iff hbuffer := by
    simp only [exists_readsAll_iff hbuffer, reads_iff, exists_readScalar_iff]
  around hbuffer hlimit hsize haddress := by
    simp only [exists_readsAll_iff hbuffer, reads_iff, exists_readScalar_iff]
    exact (mapped_around_iff hlimit hsize haddress scalar.size_pos).symm
  unread := perform_vector_of_unread
  overflow := perform_vector_of_overflow

/-- A code that is written three bytes before memory ends leaves its three low bytes. -/
example : (((zeroed 16 5).perform (.write .i32 18 (-2))).1.contents,
    ((zeroed 16 5).perform (.write .i32 18 (-2))).2) =
      ([0, 0, 0xfe, 0xff, 0xff], .refused .EFAULT) := by
  decide +kernel

end Lifecycle.Memory
