import Lifecycle.Proofs.Memory
import Lifecycle.Session.Program
import Mathlib.Data.List.Forall2
import Mathlib.Data.List.TakeWhile

/-!
# Arguments from one memory to another

Every argument vector that is made is short enough for a page, and its strings are plain and not
too long. When such a vector is laid out for an image and the page is written there in full, reading
it back with the image's pointer table gives the vector again: each pointer leads to its own string
and to the terminator behind it, and a reading stops there, whatever comes next.
-/

namespace Lifecycle.ArgumentVector

variable {vector : ArgumentVector} {memory : Memory} {announced : Int32}
  {argv base start : Nat}
  {strings : List Bytes} {entry : Entry}

/-! ## Vectors that are made -/

/-- A vector within all limits. -/
structure Legal (vector : ArgumentVector) : Prop where
  argc_le : vector.argc ≤ Limits.maxArgumentCount
  isArgument {string : Bytes} (hmem : string ∈ vector.strings) : IsArgument string
  pageLength_le : vector.pageLength ≤ Limits.pageSize

theorem ifFits_eq_ok {made : ArgumentVector} (hfits : (ifFits vector).value = .ok made) :
    made = vector ∧ vector.pageLength ≤ Limits.pageSize := by
  unfold ifFits at hfits
  split at hfits
  · cases hfits
  · next hle =>
    cases hfits
    exact ⟨rfl, Nat.not_lt.1 hle⟩

theorem legal_empty : empty.Legal where
  argc_le := Nat.zero_le _
  isArgument hmem := absurd hmem List.not_mem_nil
  pageLength_le := Nat.zero_le _

/-- What is read as a text is plain and not too long. -/
theorem isArgument_of_copyString {address : Nat} {string : Bytes}
    (hcopied : copyString memory address = .ok string) : IsArgument string := by
  have hread : memory.readText address Limits.maxArgumentLength = .ok string := by
    unfold copyString at hcopied
    split at hcopied
    · cases hcopied
    · exact hcopied
  unfold Memory.readText at hread
  simp only at hread
  split at hread
  · next hshort =>
    cases hread
    constructor
    · have hspan := Memory.span_le memory address (Limits.maxArgumentLength + 1)
      rw [Memory.length_read] at hshort
      omega
    · intro hmem
      simpa using List.mem_takeWhile_imp hmem
  · split at hread <;> cases hread

theorem copyStrings_eq_none {pointers : List Nat}
    (hcopied : copyStrings memory pointers = (strings, none)) :
    strings.length = pointers.length ∧ ∀ string ∈ strings, IsArgument string := by
  induction pointers generalizing strings with
  | nil =>
    cases hcopied
    exact ⟨rfl, nofun⟩
  | cons pointer rest ih =>
    unfold copyStrings at hcopied
    split at hcopied
    · cases hcopied
    · next string hstring =>
      obtain ⟨hstrings, hfailure⟩ := Prod.mk.inj hcopied
      obtain ⟨hlength, hrest⟩ := ih (Prod.ext rfl hfailure)
      subst hstrings
      refine ⟨congrArg Nat.succ hlength, List.forall_mem_cons.2 ⟨?_, hrest⟩⟩
      exact isArgument_of_copyString hstring

theorem length_decodeVector (scalar : Scalar) (count : Nat) (bytes : Bytes) :
    (Memory.decodeVector scalar count bytes).length = count := by
  induction count generalizing bytes with
  | zero => rfl
  | succ count ih => rw [Memory.decodeVector, List.length_cons, ih]

/-- A vector that was copied in is within all limits, and has as many strings as was announced. -/
theorem legal_of_ofMemory (hcopied : (ofMemory memory announced argv).value = .ok vector) :
    vector.Legal ∧ (vector.argc : Int) = announced.toInt := by
  unfold ofMemory at hcopied
  split at hcopied
  · cases hcopied
  next hsign =>
  have hnonneg : 0 ≤ announced.toInt := by
    rw [Int32.lt_iff_toInt_lt] at hsign
    exact Int.not_lt.1 hsign
  simp only at hcopied
  split at hcopied
  · cases hcopied
  next hcount =>
  split at hcopied
  · next hzero =>
    cases hcopied
    have hnone : empty.argc = 0 := rfl
    exact ⟨legal_empty, by omega⟩
  split at hcopied
  · cases hcopied
  next pointers hpointers =>
  have hlength : pointers.length = announced.toInt.toNat := by
    unfold Memory.readVector at hpointers
    simp only at hpointers
    split at hpointers
    · cases hpointers
      exact length_decodeVector _ _ _
    · cases hpointers
  generalize hstrings : copyStrings memory (pointers.map Int.toNat) = copied at hcopied
  obtain ⟨strings, failure⟩ := copied
  cases failure with
  | some cause => cases hcopied
  | none =>
    obtain ⟨rfl, hfits⟩ := ifFits_eq_ok hcopied
    obtain ⟨hsame, hplain⟩ := copyStrings_eq_none hstrings
    rw [List.length_map, hlength] at hsame
    have hargc : argc ⟨strings⟩ = announced.toInt.toNat := hsame
    refine ⟨⟨?_, fun hmem ↦ hplain _ hmem, hfits⟩, ?_⟩
    · rw [hargc]
      exact Nat.not_lt.1 hcount
    · rw [hargc, Int.toNat_of_nonneg hnonneg]

theorem legal_of_ofStrings (hmade : (ofStrings strings).value = .ok vector) :
    vector.Legal ∧ vector.strings = strings := by
  unfold ofStrings at hmade
  split at hmade
  · cases hmade
  next hcount =>
  split at hmade
  · next hplain =>
    obtain ⟨rfl, hfits⟩ := ifFits_eq_ok hmade
    exact ⟨⟨Nat.not_lt.1 hcount, fun hmem ↦ hplain _ hmem, hfits⟩, rfl⟩
  · cases hmade

/-! ## Where the strings lie -/

/-- The strings of a vector with their terminators. -/
def texts (strings : List Bytes) : Bytes := strings.flatMap (· ++ [0])

/-- The pointers in the table of a page. -/
def pointersFrom (vector : ArgumentVector) (base : Nat) : List Nat :=
  (offsets (vector.argc * Limits.pointerSize) vector.strings).map (base + ·)

theorem length_texts_cons (string : Bytes) (rest : List Bytes) :
    (texts (string :: rest)).length = string.length + 1 + (texts rest).length := by
  rw [texts, List.flatMap_cons, List.length_append, List.length_append, List.length_singleton]
  rfl

theorem pageLength_eq (vector : ArgumentVector) :
    vector.pageLength = vector.argc * Limits.pointerSize + (texts vector.strings).length := by
  obtain ⟨strings⟩ := vector
  induction strings with
  | nil => rfl
  | cons string rest ih =>
    have hcons : (⟨string :: rest⟩ : ArgumentVector).pageLength =
        Limits.pointerSize + string.length + 1 + (⟨rest⟩ : ArgumentVector).pageLength := rfl
    have hargc : (⟨string :: rest⟩ : ArgumentVector).argc =
        (⟨rest⟩ : ArgumentVector).argc + 1 := rfl
    rw [hcons, ih, length_texts_cons, hargc, Nat.succ_mul]
    simp only
    omega

theorem length_offsets (start : Nat) (strings : List Bytes) :
    (offsets start strings).length = strings.length := by
  induction strings generalizing start with
  | nil => rfl
  | cons string rest ih => rw [offsets, List.length_cons, ih, List.length_cons]

/-- The strings follow each other without overlaps. -/
theorem offsets_bounds (start : Nat) (strings : List Bytes) :
    List.Forall₂ (fun offset string ↦
        start ≤ offset ∧ offset + string.length + 1 ≤ start + (texts strings).length)
      (offsets start strings) strings := by
  induction strings generalizing start with
  | nil => exact .nil
  | cons string rest ih =>
    rw [offsets, length_texts_cons]
    refine .cons ⟨Nat.le_refl _, by omega⟩ ((ih (start + string.length + 1)).imp ?_)
    rintro offset other ⟨hlow, hhigh⟩
    omega

theorem offsets_hold (holds : memory.Holds (base + start) (texts strings)) :
    List.Forall₂ (fun offset string ↦ memory.Holds (base + offset) (string ++ [0]))
      (offsets start strings) strings := by
  induction strings generalizing start with
  | nil => exact .nil
  | cons string rest ih =>
    have hsplit : texts (string :: rest) = (string ++ [0]) ++ texts rest := rfl
    rw [hsplit, Memory.holds_append_iff] at holds
    obtain ⟨hfirst, hrest⟩ := holds
    rw [List.length_append, List.length_singleton, Nat.add_assoc, ← Nat.add_assoc start] at hrest
    exact .cons hfirst (ih hrest)

/-- Strings are copied if each of them stands behind its pointer. -/
theorem copyStrings_of_hold {pointers : List Nat}
    (hhold : List.Forall₂ (fun pointer string ↦ memory.Holds pointer (string ++ [0])) pointers
      strings) (hplain : ∀ string ∈ strings, IsArgument string) :
    copyStrings memory pointers = (strings, none) := by
  induction hhold with
  | nil => rfl
  | @cons pointer string pointers strings hstring _ ih =>
    obtain ⟨⟨hlength, hzero⟩, hrest⟩ := List.forall_mem_cons.1 hplain
    have hcopied : copyString memory pointer = .ok string := by
      rw [copyString, Memory.readText_of_holds hlength hzero hstring]
    rw [copyStrings, hcopied, ih hrest]

/-! ## Laying out and reading back -/

theorem layout_eq_ok {page : ArgumentPage} (hlayout : vector.layout base = .ok page) :
    base + vector.pageLength < Limits.pointerLimit ∧ page.argc = vector.argc ∧ page.argv = base ∧
      page.bytes = (vector.pointersFrom base).flatMap (LittleEndian.encode Limits.pointerSize) ++
        texts vector.strings := by
  unfold layout at hlayout
  split at hlayout
  · cases hlayout
  · next hlimit =>
    cases hlayout
    refine ⟨Nat.not_le.1 hlimit, rfl, rfl, ?_⟩
    rw [pointersFrom, List.flatMap_map]
    rfl

/-- A vector that has become the arguments of a new image, announced by their number. -/
structure Reaches (vector : ArgumentVector) (announced : Int32) (entry : Entry) : Prop where
  argc_eq : (entry.argc : Int) = announced.toInt
  /-- Whoever reads the arguments out of the new image finds the same strings. -/
  copied : (ofMemory entry.memory announced entry.argv).value = .ok vector
  /-- The strings lie behind the pointer table, in the same page. -/
  inside : ∃ pointers : List Nat,
    entry.memory.readVector .u32 entry.argv entry.argc = .ok (pointers.map Int.ofNat) ∧
      List.Forall₂ (fun pointer string ↦
          entry.argv + entry.argc * Limits.pointerSize ≤ pointer ∧
            pointer + string.length + 1 ≤ entry.argv + vector.pageLength)
        pointers vector.strings
  pageLength_le : vector.pageLength ≤ Limits.pageSize

section Page

variable (legal : vector.Legal)
  (hlimit : base + vector.pageLength < Limits.pointerLimit)
  (holds : memory.Holds base
    ((vector.pointersFrom base).flatMap (LittleEndian.encode Limits.pointerSize) ++
      texts vector.strings))

theorem pointersFrom_bounds (vector : ArgumentVector) (base : Nat) :
    List.Forall₂ (fun pointer string ↦ base + vector.argc * Limits.pointerSize ≤ pointer ∧
        pointer + string.length + 1 ≤ base + vector.pageLength)
      (vector.pointersFrom base) vector.strings := by
  rw [pointersFrom, List.forall₂_map_left_iff]
  refine (offsets_bounds _ _).imp ?_
  rintro offset string ⟨hlow, hhigh⟩
  rw [pageLength_eq]
  omega

theorem lt_of_bounds {pointers : List Nat} {low high pointer : Nat}
    (hbounds : List.Forall₂ (fun pointer string ↦
      low ≤ pointer ∧ pointer + string.length + 1 ≤ high) pointers strings)
    (hmem : pointer ∈ pointers) : pointer < high := by
  induction hbounds with
  | nil => cases hmem
  | cons hfirst _ ih =>
    obtain rfl | hrest := List.mem_cons.1 hmem
    · omega
    · exact ih hrest

theorem length_pointersFrom (vector : ArgumentVector) (base : Nat) :
    (vector.pointersFrom base).length = vector.argc := by
  rw [pointersFrom, List.length_map, length_offsets, argc]

include legal holds

theorem copyStrings_page :
    copyStrings memory (vector.pointersFrom base) = (vector.strings, none) := by
  obtain ⟨-, hstrings⟩ := Memory.holds_append_iff.1 holds
  have htable : ((vector.pointersFrom base).flatMap
      (LittleEndian.encode Limits.pointerSize)).length = vector.argc * Limits.pointerSize := by
    simp [List.length_flatMap, List.map_const', length_pointersFrom]
  rw [htable] at hstrings
  refine copyStrings_of_hold ?_ fun _ hmem ↦ legal.isArgument hmem
  rw [pointersFrom, List.forall₂_map_left_iff]
  exact offsets_hold hstrings

include hlimit

theorem readVector_page :
    memory.readVector .u32 base vector.argc = .ok ((vector.pointersFrom base).map Int.ofNat) := by
  have hcount := legal.argc_le
  rw [← length_pointersFrom vector base] at hcount ⊢
  apply Memory.readVector_of_holds
  · intro pointer hmem
    exact Nat.lt_trans (lt_of_bounds (pointersFrom_bounds vector base) hmem) hlimit
  · calc
      (vector.pointersFrom base).length * Limits.pointerSize ≤
          Limits.maxArgumentCount * Limits.pointerSize := Nat.mul_le_mul_right _ hcount
      _ < Limits.wordLimit := by decide
  · exact (Memory.holds_append_iff.1 holds).1

/-- A page that stands in memory is copied in as the vector that was laid out. -/
theorem ofMemory_page (hargc : (vector.argc : Int) = announced.toInt) :
    (ofMemory memory announced base).value = .ok vector := by
  have hcount : announced.toInt.toNat = vector.argc := by omega
  have hsign : ¬ announced < 0 := by
    rw [Int32.lt_iff_toInt_lt, ← hargc]
    exact Int.not_lt.2 (Int.natCast_nonneg _)
  have hpointers : ((vector.pointersFrom base).map Int.ofNat).map Int.toNat =
      vector.pointersFrom base := by
    rw [List.map_map]
    exact List.map_id _
  unfold ofMemory
  simp only [hsign, if_false, hcount, if_neg (Nat.not_lt.2 legal.argc_le)]
  split
  · next hnone =>
    have hempty : vector = empty := by
      obtain ⟨strings⟩ := vector
      exact congrArg mk (List.eq_nil_of_length_eq_zero hnone)
    rw [hempty]
  · rw [readVector_page legal hlimit holds]
    simp only [hpointers, copyStrings_page legal holds]
    rw [ifFits, if_neg (Nat.not_lt.2 legal.pageLength_le)]

end Page

/-- The loader's page, written in full, hands a vector on as it is. -/
theorem Legal.reaches {layout : Session.Layout} (legal : vector.Legal)
    (hargc : (vector.argc : Int) = announced.toInt) (hload : layout.load vector = .ok entry) :
    vector.Reaches announced entry := by
  unfold Session.Layout.load at hload
  split at hload
  · cases hload
  split at hload
  · cases hload
  next page hpage =>
  obtain ⟨hlimit, hcount, hbase, hbytes⟩ := layout_eq_ok hpage
  simp only at hload
  split at hload
  · next hspan =>
    cases hload
    have holds := Memory.holds_write hspan
    rw [hbytes] at holds
    constructor
    case argc_eq => rw [hcount, hargc]
    case copied =>
      rw [hbase, hbytes]
      exact ofMemory_page legal hlimit holds hargc
    case inside =>
      rw [hcount, hbase, hbytes]
      exact ⟨_, readVector_page legal hlimit holds, pointersFrom_bounds vector _⟩
    case pageLength_le => exact legal.pageLength_le
  · cases hload

end Lifecycle.ArgumentVector
