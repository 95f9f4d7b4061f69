import Lifecycle.Proofs.Kernel.Spawning
import Lifecycle.Proofs.Memory

/-!
# What an EXEC needs, and what it does

An EXEC starts a child if user memory holds a path and arguments for it, the table has room and the
image can be loaded. The loader is asked if everything else is in order, and for nothing but what
user memory holds. An EXEC that starts no child answers -1.
-/

namespace Lifecycle

variable {Waker : Type}

namespace Memory

variable {memory : Memory} {address : Nat} {path : String}

/-- A path stands in memory, terminated and not too long. -/
structure HoldsPath (memory : Memory) (address : Nat) (path : String) : Prop where
  short : path.toByteArray.size ≤ Limits.maxArgumentLength
  plain : 0 ∉ path.toByteArray.data.toList
  holds : memory.Holds address (path.toByteArray.data.toList ++ [0])

theorem fromUTF8?_eq_some_iff {bytes : ByteArray} :
    String.fromUTF8? bytes = some path ↔ bytes = path.toByteArray := by
  unfold String.fromUTF8?
  constructor
  · intro hpath
    split at hpath
    · cases hpath
      rfl
    · cases hpath
  · rintro rfl
    exact dif_pos path.isValidUTF8

theorem readPath_eq_ok_iff :
    Kernel.Syscall.readPath memory address = .ok path ↔ memory.HoldsPath address path := by
  unfold Kernel.Syscall.readPath
  constructor
  · intro hread
    split at hread
    · cases hread
    next bytes htext =>
    split at hread
    · next held hheld =>
      cases hread
      have hbytes := congrArg (·.data.toList) (fromUTF8?_eq_some_iff.1 hheld)
      obtain ⟨hshort, hplain, holds⟩ := readText_eq_ok_iff.1 htext
      simp only at hbytes
      rw [hbytes] at hshort hplain holds
      exact ⟨hshort, hplain, holds⟩
    · cases hread
  · rintro ⟨hshort, hplain, holds⟩
    have hpath : String.fromUTF8? ⟨path.toByteArray.data.toList.toArray⟩ = some path := by
      rw [fromUTF8?_eq_some_iff, Array.toArray_toList]
    rw [readText_of_holds hshort hplain holds]
    simp only [hpath]

end Memory

namespace Kernel

variable {kernel : Kernel Waker} {request : RequestId} {call : Syscall} {waker : Waker}
  {memory : Memory} {loader : Loader} {path : String} {arguments : ArgumentVector}

/-- What user memory has to hold for an EXEC. -/
structure Orders (call : Syscall) (memory : Memory) (path : String) (arguments : ArgumentVector) :
    Prop where
  nonnegative : 0 ≤ Word.lowCode call.secondWord
  named : path ≠ ""
  holds : memory.HoldsPath call.firstWord path
  copied : (ArgumentVector.ofMemory memory (Word.lowCode call.secondWord) call.thirdWord).value =
    .ok arguments

theorem readExec_eq_ok_iff {name argv : Nat} {argc : Int32} :
    Syscall.readExec memory name argc argv = .ok (path, arguments) ↔
      0 ≤ argc ∧ memory.HoldsPath name path ∧
        (ArgumentVector.ofMemory memory argc argv).value = .ok arguments := by
  rw [← Memory.readPath_eq_ok_iff, ← Int32.not_lt]
  unfold Syscall.readExec
  grind

/-- What an EXEC asks the loader for, and what it does. -/
structure Launch (kernel : Kernel Waker) (call : Syscall) (path : String) (entry : Entry)
    (pid : Pid) (reply : Reply Waker) : Prop where
  positive : 0 < pid
  absent : kernel.table.record? pid = none
  /-- The child has begun to run, and nobody waits for it yet. -/
  child : reply.kernel.table.record? pid =
    some (.fresh pid kernel.table.births path (some call.caller))
  /-- The caller has one child more and is otherwise the same. -/
  caller : ∃ record children, kernel.table.record? call.caller = some record ∧
    reply.kernel.table.record? call.caller = some { record with children } ∧
    ∀ other, other ∈ children ↔ other = pid ∨ other ∈ record.children
  others {other : Pid} (hchild : other ≠ pid) (hcaller : other ≠ call.caller) :
    reply.kernel.table.record? other = kernel.table.record? other
  /-- The child is admitted once, and nothing else is heard. -/
  audible : reply.audible = [.admitted pid path entry reply.kernel.table.size]

/-- What an EXEC of a running process comes to. -/
structure ExecKept (kernel : Kernel Waker) (loader : Loader) (request : RequestId)
    (call : Syscall) (waker : Waker) (memory : Memory) : Prop where
  positive_iff :
    (∃ pid : Pid, 0 < pid ∧ (kernel.attend loader (.poll request waker memory)).answer =
      .returned (pid : Int) none) ↔
    ∃ path arguments entry, Orders call memory path arguments ∧
      kernel.table.size < Limits.maxProcesses ∧ loader path arguments = .ok entry
  /-- The loader is asked if everything else is in order. -/
  asked_iff (path : String) (arguments : ArgumentVector) :
    kernel.asked? (.poll request waker memory) = some (path, arguments) ↔
      Orders call memory path arguments ∧ kernel.table.size < Limits.maxProcesses
  started {path : String} {arguments : ArgumentVector} {entry : Entry}
    (orders : Orders call memory path arguments)
    (hroom : kernel.table.size < Limits.maxProcesses)
    (hloaded : loader path arguments = .ok entry) :
    ∃ pid : Pid, (kernel.attend loader (.poll request waker memory)).answer =
        .returned (pid : Int) none ∧
      Launch kernel call path entry pid (kernel.attend loader (.poll request waker memory))
  failed (hfailed : ¬ ∃ path arguments entry, Orders call memory path arguments ∧
      kernel.table.size < Limits.maxProcesses ∧ loader path arguments = .ok entry) :
    (kernel.attend loader (.poll request waker memory)).answer = .returned (-1) none ∧
      (kernel.attend loader (.poll request waker memory)).kernel.table.records =
        kernel.table.records ∧
      (kernel.attend loader (.poll request waker memory)).audible = []

/-! ## Polls of an EXEC -/

section Poll

variable (hrequest : kernel.requests[request]? = some (.syscall call))
  (hkind : SyscallKind.ofNumber? call.number = some .exec)
  (hrunning : kernel.table.IsRunning call.caller)

include hrequest hkind hrunning

theorem perform_exec_of_error {cause : Errno}
    (hexec : (Syscall.exec call.caller memory call.firstWord (Word.lowCode call.secondWord)
      call.thirdWord).Yields kernel.table (.error cause) kernel.table []) (waker : Waker) :
    ∃ effects, effects.filter Effect.isAudible = [] ∧
      kernel.perform (.poll request waker memory) =
        ⟨kernel.forget request, effects, .returned (-1) none⟩ :=
  perform_returned request call waker memory (start_exec_of_error hrunning memory hkind hexec)
    hrequest

theorem perform_exec_of_ok {load : Load} {middle : Table Waker}
    (hexec : (Syscall.exec call.caller memory call.firstWord (Word.lowCode call.secondWord)
      call.thirdWord).Yields kernel.table (.ok load) middle []) (waker : Waker) :
    ∃ effects, effects.filter Effect.isAudible = [] ∧
      kernel.perform (.poll request waker memory) =
        ⟨{ kernel.forget request with table := middle, loads := load :: kernel.loads }, effects,
          .loading load.path load.arguments⟩ := by
  have hpoll : (pollSyscall call request waker memory).Yields kernel.table
      (.ok (.loading load)) middle [] :=
    (start_exec_of_ok hrunning memory hkind hexec).bind_silent (Action.yields_pure _ _)
  simp only [perform, poll, hrequest]
  exact act_of_ok (settleSyscall request) (·.forget request) hpoll

end Poll

/-- An EXEC that gets no further than to be refused. -/
theorem execKept_of_unasked {effects : List (Effect Waker)}
    (hsilent : effects.filter Effect.isAudible = [])
    (hperform : kernel.perform (.poll request waker memory) =
      ⟨kernel.forget request, effects, .returned (-1) none⟩)
    (hnot : ∀ path arguments, ¬ (Orders call memory path arguments ∧
      kernel.table.size < Limits.maxProcesses)) (loader : Loader) :
    ExecKept kernel loader request call waker memory := by
  have hasked : kernel.asked? (.poll request waker memory) = none := by rw [asked?, hperform]
  have hattend : kernel.attend loader (.poll request waker memory) =
      ⟨kernel.forget request, effects, .returned (-1) none⟩ := by
    rw [attend_of_unasked hasked, hperform]
  constructor
  case positive_iff =>
    rw [hattend]
    constructor
    · rintro ⟨pid, -, hanswer⟩
      cases hanswer
    · rintro ⟨path, arguments, entry, orders, hroom, -⟩
      exact absurd ⟨orders, hroom⟩ (hnot path arguments)
  case asked_iff =>
    intro path arguments
    rw [hasked]
    exact iff_of_false (Option.some_ne_none _).symm (hnot path arguments)
  case started =>
    intro path arguments entry orders hroom _
    exact absurd ⟨orders, hroom⟩ (hnot path arguments)
  case failed =>
    rw [hattend]
    exact fun _ ↦ ⟨rfl, rfl, hsilent⟩

/-- The child of an EXEC is launched when its image is loaded. -/
theorem launch_of_inserted {middle : Table Waker} {entry : Entry} {pid : Pid} {reply : Reply Waker}
    (sound : kernel.table.Sound)
    (inserted : kernel.table.Inserted middle (some call.caller) path pid)
    (htable : reply.kernel.table = middle)
    (haudible : reply.audible = [.admitted pid path entry middle.size]) :
    Launch kernel call path entry pid reply := by
  have hne : call.caller ≠ pid := by
    have hself := (inserted.sound sound).parent_ne pid
    rw [inserted.parentOf?_eq, if_pos rfl] at hself
    exact fun heq ↦ hself (congrArg some heq)
  constructor
  case positive =>
    have hpresent : middle.phaseOf? pid ≠ none := by simp [inserted.phaseOf?_eq]
    exact (((inserted.sound sound).accounted pid).1 (.inl hpresent)).1
  case absent => exact inserted.absent
  case child => rw [htable, inserted.record?_eq, if_pos rfl]
  case caller =>
    obtain ⟨record, hrecord, -⟩ := inserted.parent_running rfl
    rw [Option.mem_def] at hrecord
    refine ⟨record, (record.withChild pid).children, hrecord, ?_, fun other ↦ ?_⟩
    · rw [htable, inserted.record?_eq, if_neg hne, if_pos rfl, hrecord]
      rfl
    · exact Record.mem_children_withChild record pid other
  case others =>
    intro other hchild hcaller
    rw [htable, inserted.record?_eq, if_neg hchild,
      if_neg fun heq ↦ hcaller (Option.some_inj.1 heq).symm]
  case audible => rw [haudible, htable]

section Inserted

variable {middle : Table Waker} {pid : Pid} (sound : kernel.table.Sound)
  (orders : Orders call memory path arguments)
  (inserted : kernel.table.Inserted middle (some call.caller) path pid)
  {effects : List (Effect Waker)} (hsilent : effects.filter Effect.isAudible = [])
  (hperform : kernel.perform (.poll request waker memory) =
    ⟨{ kernel.forget request with
        table := middle
        loads := ⟨pid, some call.caller, path, arguments, true⟩ :: kernel.loads }, effects,
      .loading path arguments⟩)

theorem Orders.unique {otherPath : String} {others : ArgumentVector}
    (orders : Orders call memory path arguments) (same : Orders call memory otherPath others) :
    otherPath = path ∧ others = arguments := by
  have hpath := Memory.readPath_eq_ok_iff.2 orders.holds
  rw [Memory.readPath_eq_ok_iff.2 same.holds, Except.ok.injEq] at hpath
  have harguments := orders.copied
  rw [same.copied, Except.ok.injEq] at harguments
  exact ⟨hpath, harguments⟩

include sound orders inserted hsilent hperform

theorem execKept_of_inserted (loader : Loader) :
    ExecKept kernel loader request call waker memory := by
  obtain ⟨hasked, after, concluded, hkernel, hanswer⟩ :=
    @attend_of_begun _ _ (kernel.forget request) _ ⟨pid, some call.caller, path, arguments, true⟩ _
      sound inserted _ hsilent hperform loader
  have htable : (kernel.attend loader (.poll request waker memory)).kernel.table = after := by
    rw [hkernel]
  generalize houtcome : loader path arguments = outcome at concluded hanswer
  generalize haudible : (kernel.attend loader (.poll request waker memory)).audible = audible
    at concluded
  have hasked_iff (otherPath : String) (others : ArgumentVector) :
      kernel.asked? (.poll request waker memory) = some (otherPath, others) ↔
        Orders call memory otherPath others ∧ kernel.table.size < Limits.maxProcesses := by
    rw [hasked, Option.some_inj, Prod.mk.injEq]
    constructor
    · rintro ⟨rfl, rfl⟩
      exact ⟨orders, inserted.room⟩
    · rintro ⟨same, -⟩
      obtain ⟨rfl, rfl⟩ := orders.unique same
      exact ⟨rfl, rfl⟩
  cases concluded with
  | admitted entry =>
    have launch := launch_of_inserted sound inserted htable haudible
    constructor
    case positive_iff =>
      exact iff_of_true ⟨pid, launch.positive, hanswer⟩
        ⟨path, arguments, entry, orders, inserted.room, houtcome⟩
    case asked_iff => exact hasked_iff
    case started =>
      intro otherPath others other same _ hloaded
      obtain ⟨rfl, rfl⟩ := orders.unique same
      rw [houtcome, Except.ok.injEq] at hloaded
      exact ⟨pid, hanswer, hloaded ▸ launch⟩
    case failed =>
      exact fun hfailed ↦
        absurd ⟨path, arguments, entry, orders, inserted.room, houtcome⟩ hfailed
  | undone failure restored =>
    have hunloaded {otherPath : String} {others : ArgumentVector} {entry : Entry}
        (same : Orders call memory otherPath others) : loader otherPath others ≠ .ok entry := by
      obtain ⟨rfl, rfl⟩ := orders.unique same
      rw [houtcome]
      nofun
    constructor
    case positive_iff =>
      constructor
      · rintro ⟨other, -, hother⟩
        rw [hanswer] at hother
        cases hother
      · rintro ⟨_, _, entry, same, -, hloaded⟩
        exact absurd hloaded (hunloaded same)
    case asked_iff => exact hasked_iff
    case started => exact fun same _ hloaded ↦ absurd hloaded (hunloaded same)
    case failed => exact fun _ ↦ ⟨hanswer, htable ▸ restored.records_eq, haudible⟩

end Inserted

/-- If loaders make no calls, an EXEC starts a child exactly when everything checks out. -/
theorem Secluded.execKept {calls : List (Call Waker)} (secluded : Secluded (initial.steps calls))
    (hrequest : (initial.reach calls).requests[request]? = some (.syscall call))
    (hkind : SyscallKind.ofNumber? call.number = some .exec)
    (hrunning : (initial.reach calls).table.IsRunning call.caller) (loader : Loader)
    (waker : Waker) (memory : Memory) :
    ExecKept (initial.reach calls) loader request call waker memory := by
  obtain ⟨past, hrun, -⟩ := exists_run_of_secluded calls secluded
  cases hread : Syscall.readExec memory call.firstWord (Word.lowCode call.secondWord)
      call.thirdWord with
  | error cause =>
    obtain ⟨effects, hsilent, hperform⟩ :=
      perform_exec_of_error hrequest hkind hrunning (exec_unread _ hread) waker
    refine execKept_of_unasked hsilent hperform (fun path arguments hordered ↦ ?_) loader
    have orders := hordered.1
    rw [readExec_eq_ok_iff.2 ⟨orders.nonnegative, orders.holds, orders.copied⟩] at hread
    cases hread
  | ok asked =>
    obtain ⟨path, arguments⟩ := asked
    obtain ⟨hnonnegative, holds, hcopied⟩ := readExec_eq_ok_iff.1 hread
    obtain ⟨cause, hrejects⟩ | ⟨hnamed, pid, middle, inserted, hyields⟩ :=
      rejects_or_inserts hrun.sound (some call.caller) path
    · obtain ⟨effects, hsilent, hperform⟩ := perform_exec_of_error hrequest hkind hrunning
        (exec_read hread (beginLoad_rejects hrejects arguments true)) waker
      refine execKept_of_unasked hsilent hperform (fun other others hordered ↦ ?_) loader
      obtain ⟨orders, hroom⟩ := hordered
      have hpath := Memory.readPath_eq_ok_iff.2 orders.holds
      rw [Memory.readPath_eq_ok_iff.2 holds, Except.ok.injEq] at hpath
      cases hrejects with
      | unnamed hunnamed => exact orders.named (hpath ▸ hunnamed)
      | declined _ hdeclines =>
        cases hdeclines with
        | full _ hfull => exact absurd hroom (Nat.not_lt.2 hfull)
        | stopped _ hstopped => exact hstopped hrunning
    · obtain ⟨effects, hsilent, hperform⟩ := perform_exec_of_ok hrequest hkind hrunning
        (exec_read hread (beginLoad_inserts hnamed hyields arguments true)) waker
      exact execKept_of_inserted hrun.sound ⟨hnonnegative, hnamed, holds, hcopied⟩ inserted hsilent
        hperform loader

/-- The root asks for an image by the name at address 4096, without arguments. -/
def errand : List (Call Nat) :=
  [.spawn none "init" .empty, .finishLoad (.ok ⟨0, 0, 0, 0, blank⟩),
    .openSyscall (.ofWords 1 SyscallKind.exec.number [4096, 0, 0])]

/-- The name is `work`, and zeroes come behind it. -/
def workName : Memory := (Memory.zeroed 4096 16).write 4096 [119, 111, 114, 107]

theorem execKept_errand :
    (initial.reach errand).asked? (.poll 0 7 workName) = some ("work", .empty) ∧
      ExecKept (initial.reach errand) (fun _ _ ↦ .ok ⟨0, 0, 0, 0, blank⟩) 0
        (.ofWords 1 SyscallKind.exec.number [4096, 0, 0]) 7 workName := by
  have secluded : Secluded (initial.steps errand) := by decide +kernel
  exact ⟨by decide +kernel,
    secluded.execKept (by decide +kernel) rfl (by decide +kernel) _ 7 workName⟩

end Kernel

end Lifecycle
