import Lifecycle.Proofs.Table.Insertion
import Lifecycle.Proofs.Table.Removal
import Lifecycle.Table.Termination
import Mathlib.Data.List.Basic

/-!
# Handing children on

The children of a process that ends go to an heir one after the other. `HandedOn` describes the
table afterwards, whatever the number of children; the induction is on their list.
-/

namespace Lifecycle

variable {Waker : Type}

namespace Record

def withChildren (record : Record Waker) (children : List Pid) : Record Waker :=
  { record with children := children.foldl (·.insert ·) record.children }

/-- The record of a child after it was handed on. An exited child that nobody inherits has
none. -/
def inheritedBy (record : Record Waker) (heir : Option Pid) : Option (Record Waker) :=
  if heir = none ∧ ¬ record.IsRunning then none
  else some { record with claim := none, parent := heir }

theorem mem_children_withChildren (record : Record Waker) (children : List Pid) (other : Pid) :
    other ∈ (record.withChildren children).children ↔
      other ∈ children ∨ other ∈ record.children := by
  induction children generalizing record with
  | nil => simp [withChildren]
  | cons child rest ih =>
    have hrest := ih (record.withChild child)
    change other ∈ ((record.withChild child).withChildren rest).children ↔ _
    rw [hrest, mem_children_withChild, List.mem_cons]
    grind

theorem inheritedBy_some (record : Record Waker) (heir : Pid) :
    record.inheritedBy (some heir) = some { record with claim := none, parent := some heir } := by
  simp [inheritedBy]

theorem inheritedBy_of_running {record : Record Waker} (hrunning : record.IsRunning)
    (heir : Option Pid) :
    record.inheritedBy heir = some { record with claim := none, parent := heir } := by
  simp [inheritedBy, hrunning]

theorem inheritedBy_none_of_stopped {record : Record Waker} (hstopped : ¬ record.IsRunning) :
    record.inheritedBy none = none := by
  simp [inheritedBy, hstopped]

theorem pid_of_inheritedBy {record kept : Record Waker} {heir : Option Pid}
    (hkept : record.inheritedBy heir = some kept) : kept.pid = record.pid := by
  unfold inheritedBy at hkept
  split at hkept
  · cases hkept
  · cases hkept
    rfl

end Record

namespace Table

variable {table before middle after : Table Waker} {heir : Option Pid} {child : Pid}
  {children rest : List Pid}

/-- What children and heir have to be like for the children to be handed on. -/
structure Adoptable (table : Table Waker) (heir : Option Pid) (children : List Pid) : Prop where
  distinct : children.Nodup
  present {child : Pid} (hmem : child ∈ children) : table.record? child ≠ none
  stored {pid : Pid} {record : Record Waker} (hrecord : table.record? pid = some record) :
    record.pid = pid
  childless {child : Pid} (hmem : child ∈ children) (hstopped : ¬ table.IsRunning child)
    (other : Pid) : ¬ table.HasChild child other
  isOut {child : Pid} (hmem : child ∈ children) : table.pids.IsOut child
  not_root {child : Pid} (hmem : child ∈ children) : table.root ≠ some child
  heir_present {holder : Pid} (hheir : heir = some holder) :
    holder ∉ children ∧ table.record? holder ≠ none

/-- How the table changes when children go to an heir. -/
structure HandedOn (before after : Table Waker) (heir : Option Pid) (children : List Pid) :
    Prop where
  record?_eq (other : Pid) :
    after.record? other =
      if other ∈ children then (before.record? other).bind (·.inheritedBy heir)
      else if heir = some other then (before.record? other).map (·.withChildren children)
      else before.record? other
  root_eq : after.root = before.root
  running_eq : after.running = before.running
  births_eq : after.births = before.births
  next_eq : after.pids.next = before.pids.next
  limit_eq : after.pids.limit = before.pids.limit
  freed_iff (other : Pid) :
    other ∈ after.pids.freed ↔
      other ∈ before.pids.freed ∨ other ∈ children ∧ after.record? other = none
  size_le : after.size ≤ before.size

theorem handedOn_nil (table : Table Waker) (heir : Option Pid) : table.HandedOn table heir [] := by
  refine ⟨fun other ↦ ?_, rfl, rfl, rfl, rfl, rfl, fun other ↦ by simp, Nat.le_refl _⟩
  cases table.record? other <;> simp [Record.withChildren]

/-- Handing on is done child by child. -/
theorem HandedOn.cons (hfirst : before.HandedOn middle heir [child])
    (hrest : middle.HandedOn after heir rest) (hdistinct : child ∉ rest)
    (hheir : ∀ holder, heir = some holder → holder ∉ child :: rest) :
    before.HandedOn after heir (child :: rest) := by
  have hmiddle (other : Pid) := hfirst.record?_eq other
  have hafter (other : Pid) := hrest.record?_eq other
  simp only [List.mem_singleton] at hmiddle
  have hchild : after.record? child = middle.record? child := by
    rw [hafter, if_neg hdistinct, if_neg]
    exact fun heq ↦ hheir child heq List.mem_cons_self
  refine ⟨fun other ↦ ?_, hrest.root_eq.trans hfirst.root_eq,
    hrest.running_eq.trans hfirst.running_eq, hrest.births_eq.trans hfirst.births_eq,
    hrest.next_eq.trans hfirst.next_eq, hrest.limit_eq.trans hfirst.limit_eq, fun other ↦ ?_,
    Nat.le_trans hrest.size_le hfirst.size_le⟩
  · by_cases hself : other = child
    · rw [hself, hchild, hmiddle, if_pos rfl, if_pos List.mem_cons_self]
    by_cases hmem : other ∈ rest
    · have hne : heir ≠ some other := fun heq ↦ hheir other heq (List.mem_cons_of_mem child hmem)
      rw [hafter, if_pos hmem, hmiddle, if_neg hself, if_neg hne,
        if_pos (List.mem_cons_of_mem child hmem)]
    have hnot : other ∉ child :: rest := by simp [hself, hmem]
    rw [hafter, if_neg hmem, if_neg hnot, hmiddle, if_neg hself]
    split
    · cases before.record? other <;> rfl
    · rfl
  · have hfreed := hfirst.freed_iff other
    rw [hrest.freed_iff, hfreed, List.mem_singleton, List.mem_cons]
    grind

/-! ## One child -/

/-- The child's record as it is stored before the heir learns of it. -/
def handed (record : Record Waker) (heir : Option Pid) : Record Waker :=
  { record with claim := none, parent := heir }

section Adopt

variable {record : Record Waker} (adoptable : before.Adoptable heir children)
  (hrecord : before.record? child = some record)

include hrecord

theorem linkedRecord_yields :
    (Action.linkedRecord child).Yields before (.ok record) before [] := by
  apply Action.yields_of_run [] rfl
  intro effects
  simp [Action.linkedRecord, hrecord, Outcome.ofResult]

include adoptable

theorem record?_put_handed (other : Pid) :
    (before.put (handed record heir)).record? other =
      if other = child then some (handed record heir) else before.record? other := by
  have hpid : record.pid = child := adoptable.stored hrecord
  rw [record?_put]
  change (if record.pid = other then _ else _) = _
  rw [hpid]
  grind

theorem size_put_handed : (before.put (handed record heir)).size = before.size := by
  apply size_put_of_present before (handed record heir)
  change before.record? record.pid ≠ none
  rw [adoptable.stored hrecord, hrecord]
  exact Option.some_ne_none record

end Adopt

theorem adopt_under {holder : Pid} {record : Record Waker}
    (adoptable : before.Adoptable (some holder) children) (hmem : child ∈ children)
    (hrecord : before.record? child = some record) :
    ∃ after, before.HandedOn after (some holder) [child] ∧
      (adopt child (some holder)).Yields before (.ok record.waker?) after [] := by
  obtain ⟨hfree, hpresent⟩ := adoptable.heir_present rfl
  obtain ⟨holding, hholding⟩ := Option.ne_none_iff_exists'.1 hpresent
  have hne : holder ≠ child := fun heq ↦ hfree (heq ▸ hmem)
  have hstored : holding.pid = holder := adoptable.stored hholding
  have hpid : (holding.withChild child).pid = holder := hstored
  let middle : Table Waker := before.put (handed record (some holder))
  have hmiddle (other : Pid) :
      middle.record? other =
        if other = child then some (handed record (some holder)) else before.record? other :=
    record?_put_handed adoptable hrecord other
  have hkept : middle.record? holder = some holding := by
    rw [hmiddle, if_neg hne, hholding]
  have hafter (other : Pid) :
      (middle.put (holding.withChild child)).record? other =
        if holder = other then some (holding.withChild child) else middle.record? other := by
    rw [record?_put, hpid]
  refine ⟨middle.put (holding.withChild child),
    ⟨fun other ↦ ?_, rfl, rfl, rfl, rfl, rfl, fun other ↦ ?_, ?_⟩, ?_⟩
  · simp only [hafter, hmiddle, List.mem_singleton, Option.some_inj]
    by_cases hself : other = child
    · rw [if_pos hself, if_pos hself, if_neg (hself ▸ hne), hself, hrecord]
      exact (record.inheritedBy_some holder).symm
    · rw [if_neg hself, if_neg hself]
      split
      · next heq =>
        rw [← heq, hholding]
        rfl
      · rfl
  · have hchild : (middle.put (holding.withChild child)).record? child ≠ none := by
      rw [hafter, if_neg hne, hmiddle, if_pos rfl]
      exact Option.some_ne_none _
    change other ∈ before.pids.freed ↔ _
    grind
  · have hpresent : middle.record? (holding.withChild child).pid ≠ none := by
      rw [hpid, hkept]
      exact Option.some_ne_none holding
    rw [size_put_of_present _ _ hpresent]
    exact Nat.le_of_eq (size_put_handed adoptable hrecord)
  · unfold adopt
    apply Action.Yields.bind_silent (linkedRecord_yields hrecord)
    apply Action.Yields.bind_silent (Action.yields_update _ _)
    refine .bind_silent (.holding _ (?_ : Action.Yields _ _ (.ok ()) _ _)) (Action.yields_pure _ _)
    exact .bind_silent (addChild_yields hkept child) (Action.yields_note _ _)

theorem adopt_running {record : Record Waker} (adoptable : before.Adoptable none children)
    (hrecord : before.record? child = some record) (hrunning : record.phase = .running) :
    ∃ after, before.HandedOn after none [child] ∧
      (adopt child none).Yields before (.ok record.waker?) after [] := by
  have hmiddle := record?_put_handed adoptable hrecord
  refine ⟨before.put (handed record none),
    ⟨fun other ↦ ?_, rfl, rfl, rfl, rfl, rfl, fun other ↦ ?_, ?_⟩, ?_⟩
  · simp only [hmiddle, List.mem_singleton]
    split
    · next heq =>
      rw [heq, hrecord]
      exact (Record.inheritedBy_of_running hrunning none).symm
    · rfl
  · have hchild : (before.put (handed record none)).record? child ≠ none := by
      rw [hmiddle, if_pos rfl]
      exact Option.some_ne_none _
    change other ∈ before.pids.freed ↔ _
    grind
  · exact Nat.le_of_eq (size_put_handed adoptable hrecord)
  · unfold adopt
    apply Action.Yields.bind_silent (linkedRecord_yields hrecord)
    apply Action.Yields.bind_silent (Action.yields_update _ _)
    refine .bind_silent (.holding _ (?_ : Action.Yields _ _ (.ok ()) _ _)) (Action.yields_pure _ _)
    simp only
    split
    · next hheir => cases hheir
    · next hexited =>
      rw [hrunning] at hexited
      cases hexited
    · exact Action.yields_note _ _

theorem adopt_exited {record : Record Waker} (adoptable : before.Adoptable none children)
    (hmem : child ∈ children) (hrecord : before.record? child = some record)
    {status : ExitStatus} (hexited : record.phase = .exited status) :
    ∃ after, before.HandedOn after none [child] ∧
      (adopt child none).Yields before (.ok record.waker?) after [] := by
  let middle : Table Waker := before.put (handed record none)
  have hmiddle (other : Pid) :
      middle.record? other =
        if other = child then some (handed record none) else before.record? other :=
    record?_put_handed adoptable hrecord other
  have hkept : middle.record? child = some (handed record none) := by rw [hmiddle, if_pos rfl]
  have hstopped : ¬ record.IsRunning := by simp [Record.IsRunning, hexited]
  have hchildless : record.children = ∅ := by
    refine children_eq_empty hrecord (adoptable.childless hmem ?_)
    simpa [IsRunning, hrecord] using hstopped
  have hafter (other : Pid) :
      (middle.without child none).record? other =
        if other = child then none else before.record? other := by
    change (middle.erase child).record? other = _
    rw [record?_erase, hmiddle]
    grind
  have hsize : (middle.without child none).size + 1 = middle.size :=
    size_erase_of_present (by rw [hkept]; exact Option.some_ne_none _)
  refine ⟨middle.without child none, ⟨fun other ↦ ?_, ?_, rfl, rfl, ?_, ?_, fun other ↦ ?_, ?_⟩, ?_⟩
  · simp only [hafter, List.mem_singleton]
    split
    · next heq =>
      rw [heq, hrecord]
      exact (Record.inheritedBy_none_of_stopped hstopped).symm
    · rfl
  · have hroot := adoptable.not_root hmem
    change before.root.filter (· ≠ child) = before.root
    cases hcase : before.root with
    | none => rfl
    | some root =>
      have hne : root ≠ child := fun heq ↦ hroot (heq ▸ hcase)
      simp [Option.filter_some, hne]
  · exact IdPool.next_released before.pids child
  · exact IdPool.limit_released before.pids child
  · have hfreed := IdPool.freed_released (adoptable.isOut hmem)
    change other ∈ (before.pids.released child).freed ↔ _
    rw [hfreed, hafter]
    grind
  · have hput : middle.size = before.size := size_put_handed adoptable hrecord
    omega
  · unfold adopt
    apply Action.Yields.bind_silent (linkedRecord_yields hrecord)
    apply Action.Yields.bind_silent (Action.yields_update _ _)
    refine .bind_silent (.holding _ (?_ : Action.Yields _ _ (.ok ()) _ _)) (Action.yields_pure _ _)
    simp only
    split
    · next hheir => cases hheir
    · have hreap := reap_yields hkept hexited rfl hchildless (adoptable.isOut hmem)
      exact .bind_silent hreap.attempt (Action.yields_note _ _)
    · next hrunning =>
      rw [hexited] at hrunning
      cases hrunning

theorem adopt_spec (adoptable : before.Adoptable heir children) (hmem : child ∈ children) :
    ∃ after, before.HandedOn after heir [child] ∧
      (adopt child heir).Yields before (.ok (before.wakerOf? child)) after [] := by
  obtain ⟨record, hrecord⟩ := Option.ne_none_iff_exists'.1 (adoptable.present hmem)
  rw [wakerOf?_of_record? hrecord]
  cases heir with
  | some holder => exact adopt_under adoptable hmem hrecord
  | none =>
    cases hphase : record.phase with
    | running => exact adopt_running adoptable hrecord hphase
    | exited status => exact adopt_exited adoptable hmem hrecord hphase

/-! ## All children -/

/-- The record of a child is not touched before its turn. -/
theorem HandedOn.record?_rest (adoptable : before.Adoptable heir (child :: rest))
    (handedOn : before.HandedOn middle heir [child]) {other : Pid} (hmem : other ∈ rest) :
    middle.record? other = before.record? other := by
  have hne : other ≠ child := by
    rintro rfl
    exact (List.nodup_cons.1 adoptable.distinct).1 hmem
  have hheir : heir ≠ some other :=
    fun heq ↦ (adoptable.heir_present heq).1 (List.mem_cons_of_mem child hmem)
  rw [handedOn.record?_eq, if_neg (by simpa using hne), if_neg hheir]

theorem Adoptable.tail (adoptable : before.Adoptable heir (child :: rest))
    (handedOn : before.HandedOn middle heir [child]) : middle.Adoptable heir rest := by
  have hrest {other : Pid} (hmem : other ∈ rest) : middle.record? other = before.record? other :=
    handedOn.record?_rest adoptable hmem
  obtain ⟨hdistinct, htail⟩ := List.nodup_cons.1 adoptable.distinct
  constructor
  case distinct => exact htail
  case present =>
    intro other hmem
    rw [hrest hmem]
    exact adoptable.present (List.mem_cons_of_mem child hmem)
  case stored =>
    intro other record hrecord
    rw [handedOn.record?_eq] at hrecord
    split at hrecord
    · obtain ⟨old, hold, hinherited⟩ := Option.bind_eq_some_iff.1 hrecord
      exact (Record.pid_of_inheritedBy hinherited).trans (adoptable.stored hold)
    split at hrecord
    · obtain ⟨old, hold, rfl⟩ := Option.map_eq_some_iff.1 hrecord
      have hpid := adoptable.stored hold
      exact hpid
    · exact adoptable.stored hrecord
  case childless =>
    intro other hmem hstopped
    have hchildless := adoptable.childless (List.mem_cons_of_mem child hmem)
    unfold HasChild at hchildless ⊢
    unfold IsRunning at hchildless hstopped
    rw [hrest hmem] at hstopped ⊢
    exact hchildless hstopped
  case isOut =>
    intro other hmem
    have hout := adoptable.isOut (List.mem_cons_of_mem child hmem)
    refine ⟨handedOn.next_eq ▸ hout.1, fun hfreed ↦ ?_⟩
    obtain hold | ⟨hself, -⟩ := (handedOn.freed_iff other).1 hfreed
    · exact hout.2 hold
    · rw [List.mem_singleton] at hself
      exact hdistinct (hself ▸ hmem)
  case not_root =>
    intro other hmem
    rw [handedOn.root_eq]
    exact adoptable.not_root (List.mem_cons_of_mem child hmem)
  case heir_present =>
    intro holder hheir
    obtain ⟨hfree, hpresent⟩ := adoptable.heir_present hheir
    refine ⟨fun hmem ↦ hfree (List.mem_cons_of_mem child hmem), ?_⟩
    have hself : holder ∉ [child] :=
      fun hmem ↦ hfree (List.mem_singleton.1 hmem ▸ List.mem_cons_self)
    rw [handedOn.record?_eq, if_neg hself, if_pos hheir, ne_eq, Option.map_eq_none_iff]
    exact hpresent

theorem adoptAll_spec (adoptable : before.Adoptable heir children) (wakers : List Waker) :
    ∃ after, before.HandedOn after heir children ∧
      (adoptAll heir children wakers).Yields before
        (.ok (wakers ++ children.filterMap before.wakerOf?)) after [] := by
  induction children generalizing before wakers with
  | nil =>
    refine ⟨before, handedOn_nil before heir, ?_⟩
    rw [List.filterMap_nil, List.append_nil]
    exact Action.yields_pure _ _
  | cons child rest ih =>
    obtain ⟨middle, hfirst, hadopt⟩ := adopt_spec adoptable List.mem_cons_self
    obtain ⟨after, hrest, hall⟩ :=
      ih (adoptable.tail hfirst) (wakers ++ (before.wakerOf? child).toList)
    have hwakers : rest.filterMap middle.wakerOf? = rest.filterMap before.wakerOf? := by
      apply List.filterMap_congr
      intro other hmem
      rw [wakerOf?, hfirst.record?_rest adoptable hmem, wakerOf?]
    refine ⟨after, hfirst.cons hrest (List.nodup_cons.1 adoptable.distinct).1
      fun holder hheir ↦ (adoptable.heir_present hheir).1, ?_⟩
    have hresult : wakers ++ (child :: rest).filterMap before.wakerOf? =
        wakers ++ (before.wakerOf? child).toList ++ rest.filterMap middle.wakerOf? := by
      rw [hwakers, List.append_assoc, List.filterMap_cons]
      cases before.wakerOf? child <;> rfl
    rw [hresult]
    exact .bind_silent (hadopt.holding wakers) hall

end Table

end Lifecycle
