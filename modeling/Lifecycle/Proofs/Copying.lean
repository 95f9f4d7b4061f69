import Lifecycle.Proofs.Arguments
import Mathlib.Algebra.Order.BigOperators.Group.List
import Mathlib.Algebra.Order.Ring.Nat

/-!
# What can be copied in

Copying an argument vector out of user memory is told in the order in which it can fail: the number
that is announced, the pointer table, the strings one after the other, and at last the page they
have to fit in. If all strings stand in memory, those are copied in that a vector can be made of,
and with a smaller number the first of them.
-/

namespace Lifecycle

namespace Memory

variable {memory : Memory} {address : Nat} {text other : Bytes}

/-- The pointer in a table, by its index. -/
def pointerAt (memory : Memory) (table index : Nat) : Nat :=
  LittleEndian.decode (memory.read (table + index * Limits.pointerSize) Limits.pointerSize)

/-- The bytes before the first NUL. -/
structure HoldsText (memory : Memory) (address : Nat) (text : Bytes) : Prop where
  plain : 0 ∉ text
  holds : memory.Holds address (text ++ [0])

/-- There is one text at an address, however far one looks. -/
theorem HoldsText.unique (first : memory.HoldsText address text)
    (second : memory.HoldsText address other) : text = other := by
  let longest := max text.length other.length
  have hfirst : memory.readText address longest = .ok text :=
    readText_of_holds (Nat.le_max_left _ _) first.plain first.holds
  have hsecond : memory.readText address longest = .ok other :=
    readText_of_holds (Nat.le_max_right _ _) second.plain second.holds
  rw [hfirst] at hsecond
  exact Except.ok.inj hsecond

end Memory

namespace ArgumentVector

variable {memory : Memory} {announced : Int32} {argv count : Nat} {strings : List Bytes}
  {vector : ArgumentVector}

/-- The first pointers of a table lead to these strings. -/
def Spells (memory : Memory) (argv : Nat) (strings : List Bytes) : Prop :=
  ∀ index string, strings[index]? = some string →
    memory.HoldsText (memory.pointerAt argv index) string

/-- An announced number of pointers that is not too large. -/
structure Tabled (memory : Memory) (announced : Int32) (argv count : Nat) : Prop where
  count_eq : announced.toInt = count
  positive : 0 < count
  count_le : count ≤ Limits.maxArgumentCount
  mapped (index : Nat) (hlt : index < 4 * count) : memory.IsMapped (argv + index)

/-- Why a string cannot be copied: it goes on for too long, or memory ends too early. -/
def copyFailure (memory : Memory) (address : Nat) : Errno :=
  if ∀ offset ≤ Limits.maxArgumentLength, memory.IsMapped (address + offset) then .E2BIG
  else .EFAULT

/-- What comes of copying an argument vector in. -/
inductive Copies (memory : Memory) (announced : Int32) (argv : Nat) :
    Except Errno ArgumentVector → Prop where
  | negative (hsign : announced.toInt < 0) : Copies memory announced argv (.error .EINVAL)
  | tooMany (hmany : (Limits.maxArgumentCount : Int) < announced.toInt) :
      Copies memory announced argv (.error .E2BIG)
  | nothing (hzero : announced.toInt = 0) : Copies memory announced argv (.ok empty)
  | unmapped {count : Nat} (hcount : announced.toInt = count) (hpositive : 0 < count)
      (hle : count ≤ Limits.maxArgumentCount)
      (hunmapped : ¬ ∀ index < 4 * count, memory.IsMapped (argv + index)) :
      Copies memory announced argv (.error .EFAULT)
  /-- The first string that does not end in time decides. -/
  | unterminated {count index : Nat} (tabled : Tabled memory announced argv count)
      (hindex : index < count)
      (hbefore : ∀ earlier < index, ∃ string, string.length ≤ Limits.maxArgumentLength ∧
        memory.HoldsText (memory.pointerAt argv earlier) string)
      (hfirst : memory.Unterminated (memory.pointerAt argv index) Limits.maxArgumentLength) :
      Copies memory announced argv (.error (copyFailure memory (memory.pointerAt argv index)))
  | overflow {strings : List Bytes} (tabled : Tabled memory announced argv strings.length)
      (hshort : ∀ string ∈ strings, string.length ≤ Limits.maxArgumentLength)
      (hspells : Spells memory argv strings)
      (hlong : Limits.pageSize < (strings.map (4 + ·.length + 1)).sum) :
      Copies memory announced argv (.error .E2BIG)
  | copied {strings : List Bytes} (tabled : Tabled memory announced argv strings.length)
      (hshort : ∀ string ∈ strings, string.length ≤ Limits.maxArgumentLength)
      (hspells : Spells memory argv strings)
      (hfits : (strings.map (4 + ·.length + 1)).sum ≤ Limits.pageSize) :
      Copies memory announced argv (.ok ⟨strings⟩)

/-! ## Single strings -/

theorem copyString_eq_ok_iff {address : Nat} {string : Bytes} :
    copyString memory address = .ok string ↔
      string.length ≤ Limits.maxArgumentLength ∧ memory.HoldsText address string := by
  have hread : copyString memory address = .ok string ↔
      memory.readText address Limits.maxArgumentLength = .ok string := by
    unfold copyString
    split
    · next hlong => simp [hlong]
    · rfl
  rw [hread, Memory.readText_eq_ok_iff]
  exact ⟨fun ⟨hshort, hplain, holds⟩ ↦ ⟨hshort, hplain, holds⟩,
    fun ⟨hshort, htext⟩ ↦ ⟨hshort, htext.plain, htext.holds⟩⟩

theorem copyString_eq_error_iff {address : Nat} {cause : Errno} :
    copyString memory address = .error cause ↔
      memory.Unterminated address Limits.maxArgumentLength ∧
        cause = copyFailure memory address := by
  cases hread : memory.readText address Limits.maxArgumentLength with
  | ok text =>
    have hcopied : copyString memory address = .ok text := by rw [copyString, hread]
    refine iff_of_false (by simp [hcopied]) ?_
    rintro ⟨hopen, -⟩
    have herror := Memory.readText_eq_error_iff.2 ⟨hopen, rfl⟩
    rw [hread] at herror
    cases herror
  | error reason =>
    obtain ⟨hopen, hreason⟩ := Memory.readText_eq_error_iff.1 hread
    have hcopied : copyString memory address = .error (copyFailure memory address) := by
      by_cases hmapped : ∀ offset ≤ Limits.maxArgumentLength, memory.IsMapped (address + offset)
      · rw [if_pos hmapped] at hreason
        rw [copyString, hread, hreason, copyFailure, if_pos hmapped]
      · rw [if_neg hmapped] at hreason
        rw [copyString, hread, hreason, copyFailure, if_neg hmapped]
    rw [hcopied, Except.error.injEq]
    exact ⟨fun h ↦ ⟨hopen, h.symm⟩, fun h ↦ h.2.symm⟩

/-! ## Tables -/

theorem toNat_decode_u32 (bytes : Bytes) : (Scalar.u32.decode bytes).toNat =
    LittleEndian.decode bytes := by
  have hunsigned : Scalar.u32.decode bytes = (LittleEndian.decode bytes : Int) := rfl
  rw [hunsigned, Int.toNat_natCast]

/-- The strings that a table leads to are copied one after the other. -/
theorem copyStrings_eq_none_iff {pointers : List Nat} :
    copyStrings memory pointers = (strings, none) ↔
      List.Forall₂ (fun pointer string ↦ copyString memory pointer = .ok string) pointers
        strings := by
  induction pointers generalizing strings with
  | nil => simp [copyStrings, eq_comm]
  | cons pointer rest ih =>
    rw [copyStrings, List.forall₂_cons_left_iff]
    cases hcopied : copyString memory pointer with
    | error cause => simp
    | ok string =>
      simp only [← ih, Except.ok.injEq]
      constructor
      · intro hstrings
        obtain ⟨rfl, hfailure⟩ := Prod.mk.inj hstrings
        exact ⟨string, _, rfl, Prod.ext rfl hfailure, rfl⟩
      · rintro ⟨_, others, rfl, hothers, rfl⟩
        rw [hothers]

/-- The first string that cannot be copied decides. -/
theorem copyStrings_eq_some_iff {pointers : List Nat} {cause : Errno} :
    (copyStrings memory pointers).2 = some cause ↔
      ∃ (index pointer : Nat), pointers[index]? = some pointer ∧
        copyString memory pointer = .error cause ∧
        ∀ earlier < index, ∀ before : Nat, pointers[earlier]? = some before →
          ∃ string, copyString memory before = .ok string := by
  induction pointers with
  | nil => simp [copyStrings]
  | cons first rest ih =>
    rw [copyStrings]
    cases hcopied : copyString memory first with
    | error reason =>
      constructor
      · rintro ⟨⟩
        exact ⟨0, first, rfl, hcopied, fun _ hlt ↦ absurd hlt (Nat.not_lt_zero _)⟩
      · rintro ⟨index, pointer, hpointer, hfailed, hbefore⟩
        cases index with
        | zero =>
          obtain rfl := Option.some_inj.1 hpointer
          rw [hcopied] at hfailed
          exact congrArg some (Except.error.inj hfailed)
        | succ index =>
          obtain ⟨string, hstring⟩ := hbefore 0 (Nat.succ_pos _) first rfl
          rw [hcopied] at hstring
          cases hstring
    | ok string =>
      rw [ih]
      constructor
      · rintro ⟨index, pointer, hpointer, hfailed, hbefore⟩
        refine ⟨index + 1, pointer, hpointer, hfailed, fun earlier hlt before hget ↦ ?_⟩
        cases earlier with
        | zero =>
          obtain rfl := Option.some_inj.1 hget
          exact ⟨string, hcopied⟩
        | succ earlier => exact hbefore earlier (Nat.lt_of_succ_lt_succ hlt) before hget
      · rintro ⟨index, pointer, hpointer, hfailed, hbefore⟩
        cases index with
        | zero =>
          obtain rfl := Option.some_inj.1 hpointer
          rw [hcopied] at hfailed
          cases hfailed
        | succ index =>
          exact ⟨index, pointer, hpointer, hfailed, fun earlier hlt before hget ↦
            hbefore (earlier + 1) (Nat.succ_lt_succ hlt) before hget⟩

/-- The pointers of a table that is mapped. -/
def pointers (memory : Memory) (argv count : Nat) : List Nat :=
  (List.range count).map (memory.pointerAt argv)

theorem getElem?_pointers {index : Nat} (hlt : index < count) :
    (pointers memory argv count)[index]? = some (memory.pointerAt argv index) := by
  rw [pointers, List.getElem?_map, List.getElem?_range hlt, Option.map_some]

theorem copyStrings_pointers_iff :
    copyStrings memory (pointers memory argv strings.length) = (strings, none) ↔
      (∀ string ∈ strings, string.length ≤ Limits.maxArgumentLength) ∧
        Spells memory argv strings := by
  have hlength : (pointers memory argv strings.length).length = strings.length := by
    rw [pointers, List.length_map, List.length_range]
  rw [copyStrings_eq_none_iff, List.forall₂_iff_get]
  constructor
  · rintro ⟨-, hcopied⟩
    have heach (index : Nat) (string : Bytes) (hstring : strings[index]? = some string) :
        string.length ≤ Limits.maxArgumentLength ∧
          memory.HoldsText (memory.pointerAt argv index) string := by
      obtain ⟨hlt, rfl⟩ := List.getElem?_eq_some_iff.1 hstring
      have hone := hcopied index (hlength.symm ▸ hlt) hlt
      simpa [pointers] using copyString_eq_ok_iff.1 hone
    refine ⟨fun string hmem ↦ ?_, fun index string hstring ↦ (heach index string hstring).2⟩
    obtain ⟨index, hindex⟩ := List.mem_iff_getElem?.1 hmem
    exact (heach index string hindex).1
  · rintro ⟨hshort, hspells⟩
    refine ⟨hlength, fun index hpointer hlt ↦ copyString_eq_ok_iff.2 ⟨?_, ?_⟩⟩
    · exact hshort _ (List.get_mem _ _)
    · simpa [pointers] using hspells index strings[index] (List.getElem?_eq_getElem hlt)

/-- A table fails with the first of its strings that does not end in time. -/
theorem copyStrings_pointers_eq_some_iff {cause : Errno} :
    (copyStrings memory (pointers memory argv count)).2 = some cause ↔
      ∃ index < count, (∀ earlier < index, ∃ string, string.length ≤ Limits.maxArgumentLength ∧
          memory.HoldsText (memory.pointerAt argv earlier) string) ∧
        memory.Unterminated (memory.pointerAt argv index) Limits.maxArgumentLength ∧
        cause = copyFailure memory (memory.pointerAt argv index) := by
  have hcount : (pointers memory argv count).length = count := by
    rw [pointers, List.length_map, List.length_range]
  rw [copyStrings_eq_some_iff]
  constructor
  · rintro ⟨index, pointer, hpointer, hfailed, hbefore⟩
    have hlt : index < count := hcount ▸ (List.getElem?_eq_some_iff.1 hpointer).1
    rw [getElem?_pointers hlt, Option.some_inj] at hpointer
    subst hpointer
    obtain ⟨hopen, hcause⟩ := copyString_eq_error_iff.1 hfailed
    refine ⟨index, hlt, fun earlier hearlier ↦ ?_, hopen, hcause⟩
    obtain ⟨string, hstring⟩ := hbefore earlier hearlier _ (getElem?_pointers (hearlier.trans hlt))
    exact ⟨string, copyString_eq_ok_iff.1 hstring⟩
  · rintro ⟨index, hlt, hbefore, hopen, hcause⟩
    refine ⟨index, _, getElem?_pointers hlt, copyString_eq_error_iff.2 ⟨hopen, hcause⟩,
      fun earlier hearlier pointer hpointer ↦ ?_⟩
    rw [getElem?_pointers (hearlier.trans hlt), Option.some_inj] at hpointer
    subst hpointer
    obtain ⟨string, hstring⟩ := hbefore earlier hearlier
    exact ⟨string, copyString_eq_ok_iff.2 hstring⟩

/-- A table leads to one sequence of strings, if it leads to one. -/
theorem Spells.unique {others : List Bytes} (spells : Spells memory argv strings)
    (same : Spells memory argv others) (hlength : strings.length = others.length) :
    strings = others := by
  refine List.ext_getElem hlength fun index hlt hother ↦ ?_
  exact (spells index _ (List.getElem?_eq_getElem hlt)).unique
    (same index _ (List.getElem?_eq_getElem hother))

theorem Spells.take (spells : Spells memory argv strings) (count : Nat) :
    Spells memory argv (strings.take count) := by
  intro index string hstring
  rw [List.getElem?_take] at hstring
  split at hstring
  · exact spells index string hstring
  · cases hstring

theorem pageLength_eq_sum (strings : List Bytes) :
    (⟨strings⟩ : ArgumentVector).pageLength = (strings.map (4 + ·.length + 1)).sum := by
  induction strings with
  | nil => rfl
  | cons string rest ih =>
    rw [List.map_cons, List.sum_cons, ← ih]
    rfl

theorem value_ifFits (strings : List Bytes) :
    (ifFits ⟨strings⟩).value =
      if (strings.map (4 + ·.length + 1)).sum ≤ Limits.pageSize then .ok ⟨strings⟩
      else .error .E2BIG := by
  rw [ifFits, pageLength_eq_sum, ← ite_not]
  simp only [Nat.not_lt]
  split <;> rfl

/-! ## Copying in -/

section Value

theorem value_of_negative (hsign : announced.toInt < 0) :
    (ofMemory memory announced argv).value = .error .EINVAL := by
  rw [ofMemory, if_pos (Int32.lt_iff_toInt_lt.2 hsign)]

/-- The number is looked at before the table, and the table before the strings. -/
theorem value_of_count (hcount : announced.toInt = count) :
    (ofMemory memory announced argv).value =
      if Limits.maxArgumentCount < count then .error .E2BIG
      else if count = 0 then .ok empty
      else if ∀ index < 4 * count, memory.IsMapped (argv + index) then
        match copyStrings memory (pointers memory argv count) with
        | (strings, none) => (ifFits ⟨strings⟩).value
        | (_, some cause) => .error cause
      else .error .EFAULT := by
  have hsign : ¬ announced < 0 := by
    rw [Int32.lt_iff_toInt_lt, hcount]
    exact Int.not_lt.2 (Int.natCast_nonneg count)
  have hnumber : announced.toInt.toNat = count := by rw [hcount, Int.toNat_natCast]
  have hsize : count * Scalar.u32.size = 4 * count := Nat.mul_comm count 4
  unfold ofMemory
  rw [if_neg hsign]
  simp only [hnumber]
  split
  · rfl
  next hle =>
  split
  · rfl
  by_cases hmapped : ∀ index < 4 * count, memory.IsMapped (argv + index)
  · have hlimit : count * Scalar.u32.size < Limits.wordLimit := by
      have hsmall : Limits.maxArgumentCount * 4 < Limits.wordLimit := by decide
      omega
    have htable := Memory.readVector_of_mapped Scalar.u32 hlimit (hsize.symm ▸ hmapped)
    have hpointers : ((List.range count).map fun index ↦
        Scalar.u32.decode (memory.read (argv + index * Scalar.u32.size) Scalar.u32.size)).map
          Int.toNat = pointers memory argv count := by
      simp only [List.map_map, Function.comp_def, toNat_decode_u32]
      rfl
    rw [if_pos hmapped, htable]
    simp only [hpointers]
    cases hcopied : copyStrings memory (pointers memory argv count) with
    | mk strings failure => cases failure <;> rfl
  · rw [if_neg hmapped, Memory.readVector_of_unmapped Scalar.u32 (hsize.symm ▸ hmapped)]

theorem Tabled.value_eq (tabled : Tabled memory announced argv count) :
    (ofMemory memory announced argv).value =
      match copyStrings memory (pointers memory argv count) with
      | (strings, none) => (ifFits ⟨strings⟩).value
      | (_, some cause) => .error cause := by
  rw [value_of_count tabled.count_eq, if_neg (Nat.not_lt.2 tabled.count_le),
    if_neg (Nat.pos_iff_ne_zero.1 tabled.positive), if_pos tabled.mapped]

theorem Tabled.value_of_spells (tabled : Tabled memory announced argv strings.length)
    (hshort : ∀ string ∈ strings, string.length ≤ Limits.maxArgumentLength)
    (spells : Spells memory argv strings) :
    (ofMemory memory announced argv).value =
      if (strings.map (4 + ·.length + 1)).sum ≤ Limits.pageSize then .ok ⟨strings⟩
      else .error .E2BIG := by
  rw [tabled.value_eq, copyStrings_pointers_iff.2 ⟨hshort, spells⟩]
  exact value_ifFits strings

end Value

/-- What comes of copying is one of the outcomes that are told. -/
theorem copies_value : Copies memory announced argv (ofMemory memory announced argv).value := by
  by_cases hsign : announced.toInt < 0
  · rw [value_of_negative hsign]
    exact .negative hsign
  obtain ⟨count, hcount⟩ := Int.eq_ofNat_of_zero_le (Int.not_lt.1 hsign)
  by_cases hle : count ≤ Limits.maxArgumentCount
  case neg =>
    rw [value_of_count hcount, if_pos (Nat.not_le.1 hle)]
    exact .tooMany (by omega)
  obtain hzero | hpositive := Nat.eq_zero_or_pos count
  · rw [value_of_count hcount, if_neg (Nat.not_lt.2 hle), if_pos hzero]
    exact .nothing (by omega)
  by_cases hmapped : ∀ index < 4 * count, memory.IsMapped (argv + index)
  case neg =>
    rw [value_of_count hcount, if_neg (Nat.not_lt.2 hle), if_neg (Nat.pos_iff_ne_zero.1 hpositive),
      if_neg hmapped]
    exact .unmapped hcount hpositive hle hmapped
  have tabled : Tabled memory announced argv count := ⟨hcount, hpositive, hle, hmapped⟩
  cases hcopied : copyStrings memory (pointers memory argv count) with
  | mk strings failure =>
  cases failure with
  | some cause =>
    have hfailure : (copyStrings memory (pointers memory argv count)).2 = some cause := by
      rw [hcopied]
    obtain ⟨index, hindex, hbefore, hfirst, hcause⟩ :=
      copyStrings_pointers_eq_some_iff.1 hfailure
    rw [tabled.value_eq, hcopied, hcause]
    exact .unterminated tabled hindex hbefore hfirst
  | none =>
    have hlength : count = strings.length := by
      simpa [pointers] using (copyStrings_eq_none_iff.1 hcopied).length_eq
    subst hlength
    obtain ⟨hshort, spells⟩ := copyStrings_pointers_iff.1 hcopied
    rw [tabled.value_of_spells hshort spells]
    split
    · next hfits => exact .copied tabled hshort spells hfits
    · next hlong => exact .overflow tabled hshort spells (Nat.not_le.1 hlong)

theorem Copies.value_eq {result : Except Errno ArgumentVector}
    (copies : Copies memory announced argv result) :
    (ofMemory memory announced argv).value = result := by
  cases copies with
  | negative hsign => exact value_of_negative hsign
  | tooMany hmany =>
    obtain ⟨count, hcount⟩ := Int.eq_ofNat_of_zero_le (a := announced.toInt) (by omega)
    have hlarge : Limits.maxArgumentCount < count := by
      rw [hcount] at hmany
      exact Int.ofNat_lt.1 hmany
    rw [value_of_count hcount, if_pos hlarge]
  | nothing hzero =>
    have hcount : announced.toInt = (0 : Nat) := hzero
    rw [value_of_count hcount, if_neg (Nat.not_lt_zero _), if_pos rfl]
  | unmapped hcount hpositive hle hunmapped =>
    rw [value_of_count hcount, if_neg (Nat.not_lt.2 hle), if_neg (Nat.pos_iff_ne_zero.1 hpositive),
      if_neg hunmapped]
  | unterminated tabled hindex hbefore hfirst =>
    have hfailure := copyStrings_pointers_eq_some_iff.2 ⟨_, hindex, hbefore, hfirst, rfl⟩
    rw [tabled.value_eq]
    split
    · next hcopied =>
      rw [hcopied] at hfailure
      cases hfailure
    · next hcopied =>
      rw [hcopied] at hfailure
      exact congrArg _ (Option.some.inj hfailure)
  | overflow tabled hshort spells hlong =>
    rw [tabled.value_of_spells hshort spells, if_neg (Nat.not_le.2 hlong)]
  | copied tabled hshort spells hfits =>
    rw [tabled.value_of_spells hshort spells, if_pos hfits]

theorem value_eq_iff {result : Except Errno ArgumentVector} :
    (ofMemory memory announced argv).value = result ↔ Copies memory announced argv result :=
  ⟨fun h ↦ h ▸ copies_value, Copies.value_eq⟩

/-! ## What is accepted -/

/-- Strings stand in memory behind a table, and a vector can be made of them. -/
structure Stands (memory : Memory) (argv : Nat) (strings : List Bytes) : Prop where
  count_le : strings.length ≤ Limits.maxArgumentCount
  mapped (index : Nat) (hlt : index < 4 * strings.length) : memory.IsMapped (argv + index)
  short (string : Bytes) (hmem : string ∈ strings) : string.length ≤ Limits.maxArgumentLength
  spells : Spells memory argv strings
  fits : (strings.map (4 + ·.length + 1)).sum ≤ Limits.pageSize

theorem Stands.take (stands : Stands memory argv strings) (count : Nat) :
    Stands memory argv (strings.take count) where
  count_le := (List.length_take_le' _ _).trans stands.count_le
  mapped index hlt := by
    have hle := List.length_take_le' count strings
    exact stands.mapped index (by omega)
  short string hmem := stands.short string (List.mem_of_mem_take hmem)
  spells := stands.spells.take count
  fits := by
    have hfront : ((strings.take count).map (4 + ·.length + 1)).Sublist
        (strings.map (4 + ·.length + 1)) := (List.take_sublist count strings).map _
    exact (hfront.sum_le_sum fun _ _ ↦ Nat.zero_le _).trans stands.fits

theorem value_eq_ok_iff :
    (ofMemory memory announced argv).value = .ok vector ↔
      announced.toInt = vector.strings.length ∧ Stands memory argv vector.strings := by
  rw [value_eq_iff]
  constructor
  · intro copies
    cases copies with
    | nothing hzero => exact ⟨hzero, ⟨Nat.zero_le _, nofun, nofun, nofun, Nat.zero_le _⟩⟩
    | copied tabled hshort spells hfits =>
      exact ⟨tabled.count_eq, ⟨tabled.count_le, tabled.mapped, hshort, spells, hfits⟩⟩
  · rintro ⟨hcount, stands⟩
    obtain hzero | hpositive := Nat.eq_zero_or_pos vector.strings.length
    · have hempty : vector = empty := congrArg mk (List.length_eq_zero_iff.1 hzero)
      rw [hempty] at hcount ⊢
      exact .nothing hcount
    · exact .copied ⟨hcount, hpositive, stands.count_le, stands.mapped⟩ stands.short stands.spells
        stands.fits

theorem value_ofStrings_eq_ok_iff :
    (ofStrings strings).value = .ok vector ↔
      vector = ⟨strings⟩ ∧ strings.length ≤ Limits.maxArgumentCount ∧
        (∀ string ∈ strings, IsArgument string) ∧
        (strings.map (4 + ·.length + 1)).sum ≤ Limits.pageSize := by
  unfold ofStrings
  split
  · next hmany => exact iff_of_false nofun fun h ↦ Nat.not_lt.2 h.2.1 hmany
  next hle =>
  split
  · next hargument =>
    rw [value_ifFits]
    split
    · next hfits =>
      rw [Except.ok.injEq]
      exact ⟨fun h ↦ ⟨h.symm, Nat.not_lt.1 hle, hargument, hfits⟩, fun h ↦ h.1.symm⟩
    · next hlong => exact iff_of_false nofun fun h ↦ hlong h.2.2.2
  · next hnone => exact iff_of_false nofun fun h ↦ hnone h.2.2.1

/-- Strings that stand in memory are copied if and only if a vector can be made of them. -/
theorem value_eq_ok_iff_ofStrings (hcount : announced.toInt = strings.length)
    (hmapped : ∀ index < 4 * strings.length, memory.IsMapped (argv + index))
    (spells : Spells memory argv strings) :
    (ofMemory memory announced argv).value = .ok vector ↔
      (ofStrings strings).value = .ok vector := by
  rw [value_eq_ok_iff, value_ofStrings_eq_ok_iff]
  constructor
  · rintro ⟨hlength, stands⟩
    have hsame : vector.strings = strings :=
      stands.spells.unique spells (Int.ofNat.inj (hlength.symm.trans hcount))
    rw [hsame] at stands
    refine ⟨congrArg mk hsame, stands.count_le, fun string hmem ↦ ⟨stands.short string hmem, ?_⟩,
      stands.fits⟩
    obtain ⟨index, hindex⟩ := List.mem_iff_getElem?.1 hmem
    exact (spells index string hindex).plain
  · rintro ⟨rfl, hle, hargument, hfits⟩
    exact ⟨hcount, ⟨hle, hmapped, fun string hmem ↦ (hargument string hmem).1, spells, hfits⟩⟩

/-- With a smaller number the first strings are copied in. -/
theorem value_of_fewer {fewer : Int32}
    (hcopied : (ofMemory memory announced argv).value = .ok vector)
    (hsign : 0 ≤ fewer.toInt) (hle : fewer.toInt ≤ announced.toInt) :
    (ofMemory memory fewer argv).value = .ok ⟨vector.strings.take fewer.toInt.toNat⟩ := by
  obtain ⟨hcount, stands⟩ := value_eq_ok_iff.1 hcopied
  refine value_eq_ok_iff.2 ⟨?_, stands.take _⟩
  rw [List.length_take]
  omega

/-- Copying in has the outcomes that are told and accepts what strings in the kernel are accepted
for. -/
structure CopyingKept (memory : Memory) (announced : Int32) (argv : Nat) : Prop where
  outcome {result : Except Errno ArgumentVector} :
    (ofMemory memory announced argv).value = result ↔ Copies memory announced argv result
  invalid : (ofMemory memory announced argv).value = .error .EINVAL ↔ announced.toInt < 0
  accepts {strings : List Bytes} {vector : ArgumentVector}
    (hcount : announced.toInt = strings.length)
    (hmapped : ∀ index < 4 * strings.length, memory.IsMapped (argv + index))
    (spells : Spells memory argv strings) :
    (ofMemory memory announced argv).value = .ok vector ↔
      (ofStrings strings).value = .ok vector
  shorter {fewer : Int32} {vector : ArgumentVector}
    (hcopied : (ofMemory memory announced argv).value = .ok vector) (hsign : 0 ≤ fewer.toInt)
    (hle : fewer.toInt ≤ announced.toInt) :
    (ofMemory memory fewer argv).value = .ok ⟨vector.strings.take fewer.toInt.toNat⟩

theorem copyingKept (memory : Memory) (announced : Int32) (argv : Nat) :
    CopyingKept memory announced argv where
  outcome := value_eq_iff
  invalid := by
    rw [value_eq_iff]
    refine ⟨fun copies ↦ ?_, .negative⟩
    generalize hresult :
      (Except.error Errno.EINVAL : Except Errno ArgumentVector) = result at copies
    cases copies with
    | negative hsign => exact hsign
    | unterminated tabled hindex hbefore hfirst =>
      unfold copyFailure at hresult
      split at hresult <;> cases hresult
    | _ => cases hresult
  accepts := value_eq_ok_iff_ofStrings
  shorter := value_of_fewer

end ArgumentVector

end Lifecycle
