import Lifecycle.Proofs.Arguments
import Lifecycle.Proofs.Kernel.Admission
import Lifecycle.Proofs.Kernel.Service

/-!
# What processes get as arguments

The arguments of a load are the ones that its caller gave, or the ones that an EXEC syscall copied
out of its caller's memory. A loader that lays them out in the new image hands them on unchanged, so
the process that is admitted can read what its parent wrote.
-/

namespace Lifecycle

variable {Waker : Type}

namespace Kernel

variable {scene last : Scene Waker} {load : Load} {memory : Memory} {call : Syscall}

/-! ## Where the arguments of a load come from -/

theorem pollCollecting_ne_loading {wait : Wait} {statusAddress : Nat} {waker : Waker} :
    (pollCollecting wait statusAddress waker memory).run scene ≠ .done (.loading load) last := by
  intro hdone
  obtain ⟨outcome, _, -, hdone⟩ := Action.run_bind_eq_done hdone
  cases outcome with
  | none => cases hdone
  | some result =>
    obtain ⟨_, _, -, hdone⟩ := Action.run_bind_eq_done hdone
    cases hdone

theorem pollSyscall_arguments {token : Nat} {waker : Waker}
    (hdone : (pollSyscall call token waker memory).run scene = .done (.loading load) last) :
    (ArgumentVector.ofMemory memory (Word.lowCode call.secondWord) call.thirdWord).value =
      .ok load.arguments := by
  unfold pollSyscall at hdone
  obtain ⟨started, middle, hstart, hdone⟩ := Action.run_bind_eq_done hdone
  cases started with
  | returned value => cases hdone
  | loading begun =>
    cases hdone
    obtain ⟨_, _, hexec⟩ := exec_of_start hstart
    exact (exec_eq_done hexec).1
  | joining target statusAddress => exact absurd hdone pollCollecting_ne_loading

section Begun

variable {begun : Step Waker} {waker : Waker} {request : RequestId}
  (hbegins : begun.after.loads = load :: begun.before.loads)

include hbegins

theorem spawn_arguments {parent : Option Pid} {path : String} {arguments : ArgumentVector}
    (hcall : begun.call = .spawn parent path arguments) : load.arguments = arguments := by
  unfold Step.after Step.reply at hbegins
  rw [hcall] at hbegins
  unfold perform act at hbegins
  simp only at hbegins
  split at hbegins
  · next begunLoad scene hrun =>
    obtain ⟨rfl, -⟩ := List.cons.inj hbegins
    exact (beginLoad_eq_done hrun).1
  · exact absurd hbegins (List.cons_ne_self _ _).symm

theorem poll_arguments (hcall : begun.call = .poll request waker memory)
    (hrequest : begun.before.requests[request]? = some (.syscall call)) :
    (ArgumentVector.ofMemory memory (Word.lowCode call.secondWord) call.thirdWord).value =
      .ok load.arguments := by
  unfold Step.after Step.reply at hbegins
  rw [hcall] at hbegins
  simp only [perform, poll, hrequest] at hbegins
  unfold act at hbegins
  split at hbegins
  · next progress scene hrun =>
    cases progress with
    | waiting | returned => exact absurd hbegins (List.cons_ne_self _ _).symm
    | loading begunLoad =>
      obtain ⟨rfl, -⟩ := List.cons.inj hbegins
      exact pollSyscall_arguments hrun
  · exact absurd hbegins (List.cons_ne_self _ _).symm

end Begun

/-! ## Arguments in a run -/

variable {past : List (Step Waker)} {kernel : Kernel Waker}

theorem Admission.admitted_mem (admission : Admission past) (hrun : Run past kernel) :
    ∃ size, .admitted admission.load.pid admission.load.path admission.entry size ∈
      admission.step.reply.effects := by
  obtain ⟨hbefore, hsafe⟩ := admission.run_before hrun
  have change := admission.step.change hbefore.sound hsafe
  rw [admission.demand_eq] at change
  have haudible : .admitted admission.load.pid admission.load.path admission.entry
      admission.step.before.table.size ∈ admission.step.reply.audible := by
    rw [change.audible_of_admitted]
    exact List.mem_singleton_self _
  exact ⟨_, List.mem_of_mem_filter haudible⟩

/-- How arguments get from whoever starts a process to the process. Images are loaded by laying the
arguments out in a page of their own. -/
structure ArgumentsKept (past : List (Step Waker)) : Prop where
  /-- A vector that can be copied out of a memory can be copied out of the image. -/
  copied {memory : Memory} {announced : Int32} {argv : Nat} {vector : ArgumentVector}
    {layout : Session.Layout} {entry : Entry}
    (hcopied : (ArgumentVector.ofMemory memory announced argv).value = .ok vector)
    (hload : layout.load vector = .ok entry) : vector.Reaches announced entry
  /-- So can one that was made of strings, and it has these strings. -/
  made {strings : List Bytes} {vector : ArgumentVector} {layout : Session.Layout} {entry : Entry}
    (hmade : (ArgumentVector.ofStrings strings).value = .ok vector)
    (hload : layout.load vector = .ok entry) :
    vector.strings = strings ∧ vector.Reaches (Int32.ofNat strings.length) entry
  admitted (admission : Admission past) :
    ∃ size, .admitted admission.load.pid admission.load.path admission.entry size ∈
      admission.step.reply.effects
  /-- A process that is started by an EXEC syscall gets what stands in its caller's memory. -/
  executed {admission : Admission past} {request : RequestId} {waker : Waker} {memory : Memory}
    {call : Syscall} {layout : Session.Layout}
    (hcall : admission.begun.call = .poll request waker memory)
    (hrequest : admission.begun.before.requests[request]? = some (.syscall call))
    (hload : layout.load admission.load.arguments = .ok admission.entry) :
    (ArgumentVector.ofMemory memory (Word.lowCode call.secondWord) call.thirdWord).value =
        .ok admission.load.arguments ∧
      admission.load.arguments.Reaches (Word.lowCode call.secondWord) admission.entry
  /-- A process that is started from outside gets what it is started with. -/
  spawned {admission : Admission past} {parent : Option Pid} {path : String}
    {strings : List Bytes} {arguments : ArgumentVector} {layout : Session.Layout}
    (hcall : admission.begun.call = .spawn parent path arguments)
    (hmade : (ArgumentVector.ofStrings strings).value = .ok arguments)
    (hload : layout.load admission.load.arguments = .ok admission.entry) :
    admission.load.arguments = arguments ∧ arguments.strings = strings ∧
      arguments.Reaches (Int32.ofNat strings.length) admission.entry

theorem Run.argumentsKept (hrun : Run past kernel) : ArgumentsKept past := by
  have hcopied {memory : Memory} {announced : Int32} {argv : Nat} {vector : ArgumentVector}
      {layout : Session.Layout} {entry : Entry}
      (hcopied : (ArgumentVector.ofMemory memory announced argv).value = .ok vector)
      (hload : layout.load vector = .ok entry) : vector.Reaches announced entry := by
    obtain ⟨legal, hargc⟩ := ArgumentVector.legal_of_ofMemory hcopied
    exact legal.reaches hargc hload
  have hmade {strings : List Bytes} {vector : ArgumentVector} {layout : Session.Layout}
      {entry : Entry} (hmade : (ArgumentVector.ofStrings strings).value = .ok vector)
      (hload : layout.load vector = .ok entry) :
      vector.strings = strings ∧ vector.Reaches (Int32.ofNat strings.length) entry := by
    obtain ⟨legal, rfl⟩ := ArgumentVector.legal_of_ofStrings hmade
    refine ⟨rfl, legal.reaches ?_ hload⟩
    have hsmall : vector.strings.length < Nat.pow 2 31 :=
      Nat.lt_of_le_of_lt legal.argc_le (by decide)
    exact (Int32.toInt_ofNat_of_lt hsmall).symm
  constructor
  case copied => exact hcopied
  case made => exact hmade
  case admitted => exact fun admission ↦ admission.admitted_mem hrun
  case executed =>
    intro admission request waker memory call layout hcall hrequest hload
    have harguments := poll_arguments admission.loading.begins hcall hrequest
    exact ⟨harguments, hcopied harguments hload⟩
  case spawned =>
    intro admission parent path strings arguments layout hcall hstrings hload
    have harguments := spawn_arguments admission.loading.begins hcall
    rw [harguments] at hload
    exact ⟨harguments, hmade hstrings hload⟩

/-- Memory with a name, a table of two pointers, and two strings of which one is empty. -/
def scribbled : Memory :=
  (Memory.zeroed 0 64).write 4 ([99, 0, 0, 0] ++ [16, 0, 0, 0] ++ [18, 0, 0, 0] ++ [104, 0, 0])

/-- The root executes an image with arguments from its memory. -/
def bequest : List (Call Nat) :=
  [.spawn none "init" .empty, .finishLoad (.ok ⟨0, 0, 0, 0, blank⟩),
    .openSyscall (.ofWords 1 2 [4, 2, 8]), .poll 0 7 scribbled,
    .finishLoad (({} : Session.Layout).load ⟨[[104], []]⟩)]

theorem argumentsKept_bequest :
    ((initial.reach (bequest.take 4)).loads.map (·.arguments) = [⟨[[104], []]⟩] ∧
      ((initial.reach bequest).table.phaseOf? 2 = some .running)) ∧
      ArgumentsKept (initial.steps bequest) := by
  have hrun : Run (initial.steps bequest) (initial.reach bequest) :=
    run_of_calls bequest (by decide +kernel)
  exact ⟨by decide +kernel, hrun.argumentsKept⟩

end Kernel

end Lifecycle
