import Lifecycle.Proofs.Kernel.Run
import Lifecycle.Proofs.Table.Count

/-!
# What user programs can do

User programs reach the kernel by syscalls only, and only once they are admitted. However they
interleave, and whatever the loader lets happen while it works, no call stops on a fault.
-/

namespace Lifecycle.Kernel

variable {Waker : Type}

/-- The process that is admitted, by its birth. -/
def Demand.admission? (table : Table Waker) : Demand Waker → Option Nat
  | .settle load (.ok _) => table.birthOf? load.pid
  | _ => none

/-- The processes that were admitted so far. -/
def admitted (past : List (Step Waker)) : List Nat :=
  past.filterMap fun step ↦ step.demand.admission? step.before.table

/-- The process, by its birth, whose syscall begins with a poll. -/
def beginner? (kernel : Kernel Waker) (request : RequestId) : Option Nat :=
  match kernel.requests[request]? with
  | some (.syscall call) => kernel.table.birthOf? call.caller
  | _ => none

/-- The calls that a system of user programs makes: a root is started when there is no process, and
otherwise there are syscalls and loads that end. A syscall may be made for any id, but if it begins
for a process that has a record, the process was admitted. -/
def UserCall (past : List (Step Waker)) (kernel : Kernel Waker) : Call Waker → Prop
  | .spawn none _ _ => kernel.table.size = 0
  | .poll request _ _ => ∀ birth ∈ kernel.beginner? request, birth ∈ admitted past
  | .finishLoad _ | .openSyscall _ | .abandon _ => True
  | .spawn (some _) .. | .terminate .. | .shutdown | .openJoin .. => False

/-- The runs of user programs, by their steps so far and the kernel they lead to. Nothing is assumed
about faults. -/
inductive UserRun : List (Step Waker) → Kernel Waker → Prop where
  | start : UserRun [] initial
  | step {past : List (Step Waker)} {kernel : Kernel Waker} {call : Call Waker}
      (hrun : UserRun past kernel) (hcall : UserCall past kernel call) :
      UserRun (past ++ [⟨kernel, call⟩]) (kernel.perform call).kernel

/-- What user programs cannot break. The loads in progress are for processes that run, have no
children and were not admitted; a root that is being loaded is the only process. -/
structure Orderly (admitted : List Nat) (table : Table Waker) (loads : List Load) : Prop where
  sound : table.Sound
  counted : table.Counted
  distinct : (loads.map (·.pid)).Nodup
  running {load : Load} (hmem : load ∈ loads) : table.phaseOf? load.pid = some .running
  childless {load : Load} (hmem : load ∈ loads) (child : Pid) : ¬ table.HasChild load.pid child
  unadmitted {load : Load} {birth : Nat} (hmem : load ∈ loads)
    (hbirth : table.birthOf? load.pid = some birth) : birth ∉ admitted
  admitted_lt {birth : Nat} (hmem : birth ∈ admitted) : birth < table.births
  alone {load : Load} {pid : Pid} (hmem : load ∈ loads) (hroot : table.root = some load.pid)
    (hpresent : table.phaseOf? pid ≠ none) : pid = load.pid

variable {past : List (Step Waker)} {kernel : Kernel Waker} {call : Call Waker}
  {admitted : List Nat} {before after : Table Waker} {loads left : List Load} {pid : Pid}

theorem admitted_concat (past : List (Step Waker)) (step : Step Waker) :
    Kernel.admitted (past ++ [step]) =
      Kernel.admitted past ++ (step.demand.admission? step.before.table).toList := by
  rw [Kernel.admitted, List.filterMap_append, Kernel.admitted, List.append_cancel_left_eq]
  cases h : step.demand.admission? step.before.table <;> simp [h]

/-! ## Demands of user programs -/

/-- What user programs demand of the table is harmless. -/
inductive Meek (admitted : List Nat) (table : Table Waker) (loads : List Load) :
    Demand Waker → Prop where
  | nothing : Meek admitted table loads .nothing
  | startRoot (hempty : table.size = 0) : Meek admitted table loads (.start none)
  | startChild {parent : Pid} {birth : Nat} (hbirth : table.birthOf? parent = some birth)
      (hadmitted : birth ∈ admitted) : Meek admitted table loads (.start (some parent))
  | settle {load : Load} (hmem : load ∈ loads) (outcome : Except LoadFailure Entry) :
      Meek admitted table loads (.settle load outcome)
  | finish {pid : Pid} {birth : Nat} (status : ExitStatus)
      (hrunning : table.phaseOf? pid = some .running) (hbirth : table.birthOf? pid = some birth)
      (hadmitted : birth ∈ admitted) : Meek admitted table loads (.finish pid status)
  | join (wait : Wait) (waker : Waker) : Meek admitted table loads (.join wait waker)
  | leave (wait : Wait) : Meek admitted table loads (.leave wait)

theorem meek_syscall {call : Syscall} (request : RequestId) (waker : Waker)
    (hcaller : ∀ birth, kernel.table.birthOf? call.caller = some birth → birth ∈ admitted) :
    Meek admitted kernel.table kernel.loads (call.demand kernel.table request waker) := by
  unfold Syscall.demand
  split
  · exact .nothing
  next hnot =>
  have hrunning := Table.isRunning_iff_phaseOf?.1 (not_not.1 hnot)
  obtain ⟨birth, hbirth⟩ := Table.exists_birthOf? hrunning
  have hadmitted := hcaller birth hbirth
  split
  · exact .finish _ hrunning hbirth hadmitted
  · exact .nothing
  · exact .finish _ hrunning hbirth hadmitted
  · exact .startChild hbirth hadmitted
  · split
    · exact .join _ waker
    · exact .nothing

theorem meek_of_userCall (hcall : UserCall past kernel call) :
    Meek (Kernel.admitted past) kernel.table kernel.loads (kernel.demand call) := by
  cases call with
  | spawn parent path arguments =>
    cases parent with
    | none => exact .startRoot hcall
    | some parent => exact hcall.elim
  | finishLoad outcome =>
    cases hloads : kernel.loads with
    | nil =>
      simp only [demand, hloads]
      exact .nothing
    | cons load loads =>
      simp only [demand, hloads]
      exact .settle List.mem_cons_self outcome
  | terminate | shutdown | openJoin => exact hcall.elim
  | openSyscall call => exact .nothing
  | poll request waker memory =>
    cases hrequest : kernel.requests[request]? with
    | none =>
      simp only [demand, hrequest]
      exact .nothing
    | some entry =>
      simp only [demand, hrequest]
      cases entry with
      | join wait | collecting wait _ => exact .join wait waker
      | syscall call =>
        refine meek_syscall request waker fun birth hbirth ↦ hcall birth ?_
        rw [beginner?, hrequest]
        exact hbirth
  | abandon request =>
    cases hrequest : kernel.requests[request]? with
    | none =>
      simp only [demand, hrequest]
      exact .nothing
    | some entry =>
      simp only [demand, hrequest]
      cases entry with
      | syscall call => exact .nothing
      | join wait | collecting wait _ => exact .leave wait

/-- No demand of user programs is a blunder. -/
theorem Orderly.not_blunder {demand : Demand Waker} (orderly : Orderly admitted before loads)
    (meek : Meek admitted before loads demand) : ¬ Blunder before demand := by
  intro hblunder
  cases hblunder with
  | finish status hpresent hbad =>
    cases meek with
    | finish _ hrunning _ _ => exact orderly.counted.ne_zero hrunning (hbad hrunning)
  | withdraw cause hpresent hbad =>
    cases meek with
    | settle hmem _ =>
      exact orderly.counted.ne_zero (orderly.running hmem) (hbad (orderly.childless hmem))

/-! ## What stays in order -/

theorem absent_of_root (meek : Meek admitted before loads (.start none)) (pid : Pid) :
    before.phaseOf? pid = none := by
  cases meek with
  | startRoot hempty =>
    have hrecords : before.records = ∅ := Std.ExtTreeMap.eq_empty_iff_size_eq_zero.2 hempty
    rw [Table.phaseOf?_eq_none_iff]
    simp [Table.record?, hrecords]

namespace Orderly

/-- Nothing is out of order while nothing is being loaded. -/
theorem of_idle (sound : after.Sound) (counted : after.Counted)
    (hadmitted : ∀ birth ∈ admitted, birth < after.births) : Orderly admitted after [] := by
  refine ⟨sound, counted, List.nodup_nil, ?_, ?_, ?_, hadmitted _, ?_⟩ <;> nofun

variable (orderly : Orderly admitted before loads)

include orderly

/-- Loads stay in order if no process comes in and those that are being loaded stay as they are. -/
theorem of_shrinks (shrinks : before.Shrinks after) (sound : after.Sound) (counted : after.Counted)
    (hleft : left.Sublist loads)
    (hrunning : ∀ load ∈ left, after.phaseOf? load.pid = some .running)
    (hchildless : ∀ load ∈ left, ∀ child, ¬ after.HasChild load.pid child) :
    Orderly admitted after left where
  sound := sound
  counted := counted
  distinct := orderly.distinct.sublist (hleft.map _)
  running {load} hmem := hrunning load hmem
  childless {load} hmem := hchildless load hmem
  unadmitted hmem hbirth :=
    orderly.unadmitted (hleft.subset hmem) (shrinks.birthOf?_of hbirth)
  admitted_lt hmem := shrinks.births_eq ▸ orderly.admitted_lt hmem
  alone hmem hroot hpresent :=
    orderly.alone (hleft.subset hmem) (shrinks.root_of hroot) (shrinks.present_of hpresent)

theorem setClaim {claim : Option (Claim Waker)} (sound : (before.setClaim pid claim).Sound) :
    Orderly admitted (before.setClaim pid claim) loads := by
  have hsound := orderly.sound
  refine orderly.of_shrinks (Table.shrinks_setClaim hsound pid claim) sound
    (Table.counted_setClaim hsound orderly.counted claim) (List.Sublist.refl loads) ?_ ?_
  · intro load hmem
    rw [Table.phaseOf?_setClaim hsound]
    exact orderly.running hmem
  · intro load hmem child
    rw [Table.hasChild_setClaim hsound]
    exact orderly.childless hmem child

/-- A process that is removed may be one whose load is over. -/
theorem removed (removed : before.Removed after pid) (counted : after.Counted)
    (hleft : left.Sublist loads) (hother : ∀ load ∈ left, load.pid ≠ pid) :
    Orderly admitted after left := by
  have hsound := orderly.sound
  refine orderly.of_shrinks removed.shrinks (removed.sound hsound) counted hleft ?_ ?_
  · intro load hmem
    rw [removed.phaseOf?_eq, if_neg (hother load hmem)]
    exact orderly.running (hleft.subset hmem)
  · intro load hmem child
    rw [removed.hasChild_iff hsound]
    exact fun h ↦ orderly.childless (hleft.subset hmem) child h.2

/-- No load is for a process that was admitted. -/
theorem ne_of_admitted {birth : Nat} (hbirth : before.birthOf? pid = some birth)
    (hadmitted : birth ∈ admitted) : ∀ load ∈ loads, load.pid ≠ pid := by
  rintro load hmem rfl
  exact orderly.unadmitted hmem hbirth hadmitted

theorem parent_ne {parent : Pid} (meek : Meek admitted before loads (.start (some parent))) :
    ∀ load ∈ loads, load.pid ≠ parent := by
  cases meek with
  | startChild hbirth hadmitted => exact orderly.ne_of_admitted hbirth hadmitted

theorem ended {status : ExitStatus} {wakers : List Waker} {birth : Nat}
    (ended : before.Ended after pid status wakers) (hbirth : before.birthOf? pid = some birth)
    (hadmitted : birth ∈ admitted) : Orderly admitted after loads := by
  have hsound := orderly.sound
  have hother := orderly.ne_of_admitted hbirth hadmitted
  refine orderly.of_shrinks (ended.shrinks hsound) (ended.sound hsound)
    (ended.counted hsound orderly.counted) (List.Sublist.refl loads) ?_ ?_
  · intro load hmem
    have hrunning := orderly.running hmem
    rw [ended.phaseOf?_eq hsound, if_neg (hother load hmem), if_neg (fun h ↦ h.2.2 hrunning)]
    exact hrunning
  · intro load hmem child
    rw [ended.hasChild_iff hsound, ended.parentOf?_eq hsound]
    split
    · -- the heir would be a root that is being loaded, but that one is alone
      intro hheir
      rw [Table.heirOf, Option.filter_eq_some_iff] at hheir
      have hpresent : before.phaseOf? pid ≠ none := by
        rw [ended.was_running]
        exact Option.some_ne_none _
      exact hother load hmem (orderly.alone hmem hheir.1 hpresent).symm
    · rw [← hsound.hasChild_iff_parentOf?]
      exact orderly.childless hmem child

theorem attempted {caller target : Pid} {token : Nat} {waker : Waker}
    {result : Except Errno (Option ExitStatus)}
    (attempts : before.Attempts caller target token waker result after) :
    Orderly admitted after loads := by
  have sound := attempts.sound orderly.sound
  have counted := attempts.counted orderly.sound orderly.counted
  cases attempts with
  | stranger | busy => exact orderly
  | collected _ hexited hremoved =>
    apply orderly.removed hremoved counted (List.Sublist.refl loads)
    rintro load hmem rfl
    rw [orderly.running hmem] at hexited
    cases hexited
  | parked => exact orderly.setClaim sound

theorem cleared (hidle : before.running = 0) : Orderly admitted before.vacated loads := by
  have hnone : loads = [] := by
    apply List.eq_nil_iff_forall_not_mem.2
    intro load hmem
    exact orderly.counted.ne_zero (orderly.running hmem) hidle
  have sound := Table.sound_vacated before
  subst hnone
  exact .of_idle sound (Table.counted_vacated before) fun birth hmem ↦ orderly.admitted_lt hmem

section Inserted

variable {load : Load} {name : String} (meek : Meek admitted before loads (.start load.parent))
  (hinserted : before.Inserted after load.parent name load.pid)

include hinserted

theorem pid_ne_inserted : ∀ other ∈ loads, other.pid ≠ load.pid := by
  intro other hmem heq
  have hrunning := orderly.running hmem
  rw [heq, Table.phaseOf?_eq_none_iff.2 hinserted.absent] at hrunning
  cases hrunning

include meek

theorem childless_inserted {other : Load} (hmem : other ∈ load :: loads) (child : Pid) :
    ¬ after.HasChild other.pid child := by
  rw [hinserted.hasChild_iff]
  rintro (⟨hparent, -⟩ | hchild)
  · obtain rfl | hmem := List.mem_cons.1 hmem
    · obtain ⟨record, hrecord, -⟩ := hinserted.parent_running hparent
      rw [hinserted.absent] at hrecord
      cases hrecord
    · exact orderly.parent_ne (hparent ▸ meek) other hmem rfl
  · obtain rfl | hmem := List.mem_cons.1 hmem
    · obtain ⟨record, hrecord, -⟩ := hchild
      rw [hinserted.absent] at hrecord
      cases hrecord
    · exact orderly.childless hmem child hchild

theorem alone_inserted {other : Load} (hmem : other ∈ load :: loads)
    (hroot : after.root = some other.pid) (hpresent : after.phaseOf? pid ≠ none) :
    pid = other.pid := by
  rw [hinserted.root_eq] at hroot
  rw [hinserted.phaseOf?_eq] at hpresent
  cases hparent : load.parent with
  | none =>
    rw [if_pos hparent] at hroot
    rw [absent_of_root (hparent ▸ meek), Option.some.inj hroot] at hpresent
    exact of_not_not fun hne ↦ hpresent (if_neg hne)
  | some holder =>
    rw [hparent, if_neg (Option.some_ne_none holder)] at hroot
    have hrunning := Table.isRunning_iff_phaseOf?.1 (hinserted.parent_running hparent)
    obtain rfl | hmem := List.mem_cons.1 hmem
    · have habsent := Table.phaseOf?_eq_none_iff.2 hinserted.absent
      rw [(orderly.sound.root_running hroot).1] at habsent
      cases habsent
    · -- the holder would be a root that is being loaded
      have hheld : before.phaseOf? holder ≠ none := by
        rw [hrunning]
        exact Option.some_ne_none _
      have heq := orderly.alone hmem hroot hheld
      exact absurd heq.symm (orderly.parent_ne (hparent ▸ meek) other hmem)

/-- A process that is started is the only one, or its parent is none that is being loaded. -/
theorem inserted : Orderly admitted after (load :: loads) := by
  have hne := orderly.pid_ne_inserted hinserted
  constructor
  case sound => exact hinserted.sound orderly.sound
  case counted => exact hinserted.counted orderly.counted
  case distinct =>
    rw [List.map_cons, List.nodup_cons]
    refine ⟨fun hmem ↦ ?_, orderly.distinct⟩
    obtain ⟨other, hother, heq⟩ := List.mem_map.1 hmem
    exact hne other hother heq
  case running =>
    intro other hmem
    rw [hinserted.phaseOf?_eq]
    obtain rfl | hmem := List.mem_cons.1 hmem
    · rw [if_pos rfl]
    · rw [if_neg (hne other hmem)]
      exact orderly.running hmem
  case childless => exact orderly.childless_inserted meek hinserted
  case unadmitted =>
    intro other birth hmem hbirth hadmitted
    rw [hinserted.birthOf?_eq] at hbirth
    obtain rfl | hmem := List.mem_cons.1 hmem
    · rw [if_pos rfl] at hbirth
      cases hbirth
      exact Nat.lt_irrefl _ (orderly.admitted_lt hadmitted)
    · rw [if_neg (hne other hmem)] at hbirth
      exact orderly.unadmitted hmem hbirth hadmitted
  case admitted_lt =>
    intro birth hadmitted
    rw [hinserted.births_eq]
    exact Nat.lt_succ_of_lt (orderly.admitted_lt hadmitted)
  case alone => exact orderly.alone_inserted meek hinserted

end Inserted

end Orderly

/-- What is admitted does not count as being loaded any more. -/
theorem Orderly.admit {load : Load} (orderly : Orderly admitted before (load :: loads)) :
    Orderly (admitted ++ (before.birthOf? load.pid).toList) before loads := by
  obtain ⟨hhead, hdistinct⟩ := List.nodup_cons.1 orderly.distinct
  constructor
  case sound => exact orderly.sound
  case counted => exact orderly.counted
  case distinct => exact hdistinct
  case running => exact fun hmem ↦ orderly.running (List.mem_cons_of_mem load hmem)
  case childless => exact fun hmem ↦ orderly.childless (List.mem_cons_of_mem load hmem)
  case unadmitted =>
    intro other birth hmem hbirth hadmitted
    obtain hold | hnew := List.mem_append.1 hadmitted
    · exact orderly.unadmitted (List.mem_cons_of_mem load hmem) hbirth hold
    · rw [Option.mem_toList] at hnew
      have heq := orderly.sound.birth_injective hnew hbirth
      exact hhead (List.mem_map.2 ⟨other, hmem, heq.symm⟩)
  case admitted_lt =>
    intro birth hadmitted
    obtain hold | hnew := List.mem_append.1 hadmitted
    · exact orderly.admitted_lt hold
    · rw [Option.mem_toList] at hnew
      exact orderly.sound.birth_lt hnew
  case alone => exact fun hmem ↦ orderly.alone (List.mem_cons_of_mem load hmem)

theorem Orderly.admit_none {demand : Demand Waker} (orderly : Orderly admitted after left)
    (hnone : demand.admission? before = none) :
    Orderly (admitted ++ (demand.admission? before).toList) after left := by
  rw [hnone, Option.toList_none, List.append_nil]
  exact orderly

/-- Whatever comes of a harmless demand, what was in order stays so. -/
theorem Change.orderly {demand : Demand Waker} {audible : List (Effect Waker)} {answer : Answer}
    (change : kernel.Change demand after left audible answer)
    (orderly : Orderly admitted kernel.table kernel.loads)
    (meek : Meek admitted kernel.table kernel.loads demand) :
    Orderly (admitted ++ (demand.admission? kernel.table).toList) after left := by
  cases change with
  | unchanged hvoid => exact orderly.admit_none (by cases hvoid <;> rfl)
  | admitted hloads =>
    rw [hloads] at orderly
    exact orderly.admit
  | inserted hinserted => exact (orderly.inserted meek hinserted).admit_none rfl
  | gone hloads habsent =>
    rw [hloads] at orderly
    rw [orderly.running List.mem_cons_self] at habsent
    cases habsent
  | withdrawn hloads hremoved hcount =>
    rw [hloads] at orderly
    have hrunning := orderly.running List.mem_cons_self
    have counted := hremoved.counted_of_running orderly.counted hrunning hcount
    have hhead := (List.nodup_cons.1 orderly.distinct).1
    have hother (other : Load) (hmem : other ∈ left) (heq : other.pid = _) : False :=
      hhead (List.mem_map.2 ⟨other, hmem, heq⟩)
    have hremaining := orderly.removed hremoved counted (List.sublist_cons_self _ left) hother
    exact hremaining.admit_none rfl
  | ended hends =>
    cases meek with
    | finish _ _ hbirth hadmitted =>
      cases hends with
      | left hended _ => exact (orderly.ended hended hbirth hadmitted).admit_none rfl
      | last hended hlast =>
        exact ((orderly.ended hended hbirth hadmitted).cleared hlast).admit_none rfl
  | cleared => cases meek
  | polled hattempts => exact (orderly.attempted hattempts).admit_none rfl
  | released =>
    exact (orderly.setClaim (Table.sound_setClaim orderly.sound _ none (.inl rfl))).admit_none rfl

/-! ## Runs of user programs -/

/-- A call of user programs comes to its end if nothing is out of order. -/
theorem Orderly.change_of_userCall
    (orderly : Orderly (Kernel.admitted past) kernel.table kernel.loads)
    (hcall : UserCall past kernel call) :
    ¬ (kernel.perform call).Faulted ∧
      kernel.Change (kernel.demand call) (kernel.perform call).kernel.table
        (kernel.perform call).kernel.loads (kernel.perform call).audible
        (kernel.perform call).answer := by
  obtain hdone | ⟨-, hblunder⟩ := perform_spec orderly.sound call
  · exact hdone
  · exact absurd hblunder (orderly.not_blunder (meek_of_userCall hcall))

theorem UserRun.orderly (hrun : UserRun past kernel) :
    Orderly (Kernel.admitted past) kernel.table kernel.loads := by
  induction hrun with
  | start => exact .of_idle (.of_vacant rfl rfl rfl) (Table.counted_vacated .empty) nofun
  | step _ hcall ih =>
    have hchange := (ih.change_of_userCall hcall).2
    rw [admitted_concat]
    exact hchange.orderly ih (meek_of_userCall hcall)

/-- Calls that user programs can make one after the other. -/
def UserCalls (past : List (Step Waker)) (kernel : Kernel Waker) : List (Call Waker) → Prop
  | [] => True
  | call :: rest =>
    UserCall past kernel call ∧
      UserCalls (past ++ [⟨kernel, call⟩]) (kernel.perform call).kernel rest

instance (past : List (Step Waker)) (kernel : Kernel Waker) (call : Call Waker) :
    Decidable (UserCall past kernel call) :=
  match call with
  | .spawn none _ _ => inferInstanceAs (Decidable (kernel.table.size = 0))
  | .poll request _ _ =>
    inferInstanceAs (Decidable (∀ birth ∈ kernel.beginner? request, birth ∈ Kernel.admitted past))
  | .finishLoad _ | .openSyscall _ | .abandon _ => .isTrue trivial
  | .spawn (some _) .. | .terminate .. | .shutdown | .openJoin .. => .isFalse id

instance decidableUserCalls (past : List (Step Waker)) (kernel : Kernel Waker) :
    (calls : List (Call Waker)) → Decidable (UserCalls past kernel calls)
  | [] => .isTrue trivial
  | call :: rest =>
    @instDecidableAnd (UserCall past kernel call) _ inferInstance
      (decidableUserCalls (past ++ [⟨kernel, call⟩]) (kernel.perform call).kernel rest)

theorem UserRun.append (hrun : UserRun past kernel) {calls : List (Call Waker)}
    (hcalls : UserCalls past kernel calls) :
    UserRun (past ++ kernel.steps calls) (kernel.reach calls) := by
  induction calls generalizing past kernel with
  | nil =>
    rw [steps, List.append_nil]
    exact hrun
  | cons call rest ih =>
    rw [steps, List.append_cons]
    exact ih (hrun.step hcalls.1) hcalls.2

/-- A root asks for a child and exits while the child is being loaded, which fails then. -/
def orphanage : List (Call Nat) :=
  [.spawn none "init" .empty, .finishLoad (.ok ⟨0, 0, 0, 0, blank⟩),
    .openSyscall (.ofWords 1 2 [4, 0, 4, 0]), .poll 0 7 ((Memory.zeroed 4 8).write 4 [99, 104]),
    .openSyscall (.ofWords 1 1 []), .poll 1 7 blank, .finishLoad (.error .notFound)]

/-- No call that user programs make stops on a fault. -/
theorem UserRun.never_faults (hrun : UserRun past kernel) :
    ∀ step ∈ past, ¬ step.reply.Faulted := by
  induction hrun with
  | start => nofun
  | step hrun hcall ih =>
    rw [List.forall_mem_append, List.forall_mem_singleton]
    exact ⟨ih, (hrun.orderly.change_of_userCall hcall).1⟩

theorem never_faults_orphanage :
    UserRun (initial.steps orphanage) (initial.reach orphanage) ∧
      ∀ step ∈ initial.steps orphanage, ¬ step.reply.Faulted := by
  have hcalls : UserCalls [] initial orphanage := by decide +kernel
  have hrun := UserRun.start.append hcalls
  exact ⟨hrun, hrun.never_faults⟩

end Lifecycle.Kernel
