import Lifecycle.Proofs.Kernel.Requests
import Lifecycle.Proofs.Table.Hosting

/-!
# The kernel's programs, with and without a guest

Loads, endings, waits and syscalls on a table and on the same one without a guest. A wait that is
not the guest's has another token when he is around; only a wait for the child of his seat may tell
the two tables apart.
-/

namespace Lifecycle.Kernel

variable {Waker : Type} {guest : Nat} {seat : Option (Pid × Pid)} {one two : Table Waker}

open Lifecycle.Action

/-! ## Loads and endings -/

theorem pairs_beginLoad (twin : one.Twin guest seat two) (parent : Option Pid) (path : String)
    (arguments : ArgumentVector) (bySyscall : Bool) :
    Pairs (Table.Twin guest seat) (· = ·) (beginLoad parent path arguments bySyscall)
      (beginLoad parent path arguments bySyscall) one two := by
  apply pairs_ite Iff.rfl
  · exact fun _ ↦ pairs_refuse_bind _ twin
  intro _
  apply (Table.pairs_insert twin parent path).bind
  rintro pid _ one two rfl twin
  exact pairs_pure rfl twin

theorem pairs_endLoad (twin : one.Twin guest seat two) (load : Load)
    (outcome : Except LoadFailure Entry) :
    Pairs (Table.Twin guest seat) (· = ·) (endLoad load outcome) (endLoad load outcome)
      one two := by
  cases outcome with
  | ok entry =>
    apply (pairs_note _ twin).bind
    intro _ _ one two _ twin
    apply pairs_table_bind
    apply (pairs_emit _ _ twin).bind
    exact fun _ twin ↦ pairs_pure rfl twin
  | error cause =>
    apply (pairs_note _ twin).bind
    intro _ _ one two _ twin
    apply (Table.pairs_withdraw twin load.pid).bind
    intro _ _ one two _ twin
    apply (pairs_wakeAll _ _ twin).bind
    exact fun _ twin ↦ pairs_refuse _ twin

theorem pairs_shutdown (twin : one.Twin guest seat two) :
    Pairs (Table.Twin guest seat) (· = ·) shutdown shutdown one two := by
  apply (Table.pairs_clear twin).bind
  intro _ _ one two _ twin
  apply (pairs_wakeAll _ _ twin).bind
  intro _ _ one two _ twin
  exact pairs_table_bind (pairs_emit _ _ twin)

theorem pairs_terminate (twin : one.Twin guest seat two) (pid : Pid) (status : ExitStatus) :
    Pairs (Table.Twin guest seat) (· = ·) (terminate pid status) (terminate pid status)
      one two := by
  apply (Table.pairs_terminate twin pid status).bind
  intro _ _ one two hlast twin
  apply (pairs_note _ twin).bind
  intro _ _ one two _ twin
  apply (pairs_wakeAll _ _ twin).bind
  intro _ _ one two _ twin
  apply pairs_ite (by rw [hlast])
  · exact fun _ ↦ (pairs_note _ twin).bind fun _ twin ↦ pairs_shutdown twin
  · exact fun _ ↦ pairs_pure rfl twin

/-! ## Waits -/

/-- A wait as it is with a guest around. -/
def Wait.raise (guest : Nat) (wait : Wait) : Wait :=
  { wait with token := Token.raise guest wait.token }

theorem Wait.pairs_abandon (twin : one.Twin guest seat two) (wait : Wait) :
    Pairs (Table.Twin guest seat) (· = ·) (wait.raise guest).abandon wait.abandon one two := by
  apply pairs_ite Iff.rfl
  · exact fun _ ↦ Table.pairs_releaseSlot twin wait.target wait.token
  · exact fun _ ↦ pairs_pure rfl twin

theorem Wait.pairs_poll (twin : one.Twin guest seat two) (wait : Wait)
    (hseat : seat ≠ some (wait.caller, wait.target)) (waker : Waker) :
    Pairs (Table.Twin guest seat) (· = ·) ((wait.raise guest).poll waker) (wait.poll waker)
      one two := by
  have hjoin := (Table.pairs_join twin hseat wait.token waker).attempt
  apply (hjoin.onFailure fun twin ↦ pairs_abandon twin wait).bind
  rintro _ _ one two hboth twin
  cases hboth with
  | @ok outcome _ hvalues =>
    subst hvalues
    cases outcome with
    | none =>
      apply pairs_ite Iff.rfl
      · exact fun _ ↦ pairs_pure rfl twin
      · exact fun _ ↦ (pairs_note _ twin).bind fun _ twin ↦ pairs_pure rfl twin
    | some status => exact (pairs_note _ twin).bind fun _ twin ↦ pairs_pure rfl twin
  | error cause => exact (pairs_note _ twin).bind fun _ twin ↦ pairs_pure rfl twin

/-! ## Syscalls -/

namespace Syscall

theorem pairs_halt (twin : one.Twin guest seat two) (caller : Pid) :
    Pairs (Table.Twin guest seat) (· = ·) (halt caller) (halt caller) one two := by
  apply pairs_table_bind
  apply pairs_ite (by rw [twin.root_eq])
  · exact fun _ ↦ (pairs_note _ twin).bind fun _ twin ↦ pairs_emit _ _ twin
  · exact fun _ ↦ pairs_note _ twin

theorem pairs_exit (twin : one.Twin guest seat two) (caller : Pid) (code : Int32) :
    Pairs (Table.Twin guest seat) (· = ·) (exit caller code) (exit caller code) one two :=
  (pairs_note _ twin).bind fun _ twin ↦ pairs_terminate twin caller (.exited code)

theorem pairs_kill (twin : one.Twin guest seat two) (caller : Pid) :
    Pairs (Table.Twin guest seat) (· = ·) (kill caller) (kill caller) one two := by
  apply (pairs_terminate twin caller .killed).attempt.bind
  rintro _ _ one two hboth twin
  cases hboth with
  | ok => exact pairs_pure rfl twin
  | error cause => exact pairs_note _ twin

theorem pairs_liftResult {α : Type} (twin : one.Twin guest seat two) (result : Except Errno α) :
    Pairs (Table.Twin guest seat) (· = ·) (liftResult result) (liftResult result) one two := by
  cases result with
  | ok value => exact pairs_pure rfl twin
  | error cause => exact pairs_refuse cause twin

theorem pairs_exec (twin : one.Twin guest seat two) (caller : Pid) (memory : Memory) (name : Nat)
    (argc : Int32) (argv : Nat) :
    Pairs (Table.Twin guest seat) (· = ·) (exec caller memory name argc argv)
      (exec caller memory name argc argv) one two := by
  apply pairs_ite Iff.rfl
  · exact fun _ ↦ pairs_refuse_bind _ twin
  intro _
  apply (pairs_liftResult twin _).bind
  rintro path _ one two rfl twin
  apply (pairs_noteAll _ twin).bind
  intro _ _ one two _ twin
  apply (pairs_liftResult twin _).bind
  rintro arguments _ one two rfl twin
  apply (pairs_note _ twin).bind
  exact fun _ twin ↦ pairs_beginLoad twin (some caller) path arguments true

theorem pairs_answerExec (twin : one.Twin guest seat two) (load : Load)
    (outcome : Except LoadFailure Entry) :
    Pairs (Table.Twin guest seat) (· = ·) (answerExec load outcome) (answerExec load outcome)
      one two := by
  apply (pairs_endLoad twin load outcome).attempt.bind
  rintro _ _ one two hboth twin
  cases hboth with
  | ok hvalues => exact pairs_pure (congrArg _ hvalues) twin
  | error cause => exact (pairs_note _ twin).bind fun _ twin ↦ pairs_pure rfl twin

/-- The child that a JOIN names. -/
def child? (call : Syscall) : Option Pid := Pid.ofUser? (Word.lowCode call.firstWord)

theorem demand_of_child {call : Syscall} {table : Table Waker} {token : Nat} {waker : Waker}
    {target : Pid} (hrunning : table.IsRunning call.caller)
    (hkind : SyscallKind.ofNumber? call.number = some .join) (hchild : call.child? = some target) :
    call.demand table token waker = .join ⟨call.caller, target, token, false⟩ waker := by
  unfold child? at hchild
  simp only [demand, not_not.2 hrunning, if_false, hkind, hchild]

/-- The first step of a syscall is the same with a guest around. If it is a JOIN it goes on to wait
for the child that it names. -/
theorem pairs_start (twin : one.Twin guest seat two) (call : Syscall) (memory : Memory) :
    Pairs (Table.Twin guest seat)
      (fun started plain ↦ started = plain ∧ ∀ target address,
        started = .joining target address →
          one.IsRunning call.caller ∧ SyscallKind.ofNumber? call.number = some .join ∧
            call.child? = some target)
      (call.start memory) (call.start memory) one two := by
  apply pairs_table_bind
  apply pairs_ite (not_congr (twin.isRunning_iff call.caller).symm)
  · intro _
    apply (pairs_note _ twin).bind
    exact fun _ twin ↦ pairs_pure ⟨rfl, nofun⟩ twin
  intro hrunning
  cases hkind : SyscallKind.ofNumber? call.number with
  | none =>
    apply (pairs_note _ twin).bind
    intro _ _ one two _ twin
    apply (pairs_kill twin call.caller).bind
    exact fun _ twin ↦ pairs_pure ⟨rfl, nofun⟩ twin
  | some kind =>
    apply (pairs_note _ twin).bind
    intro _ _ one two _ twin
    cases kind with
    | halt =>
      apply (pairs_halt twin call.caller).bind
      exact fun _ twin ↦ pairs_pure ⟨rfl, nofun⟩ twin
    | exit =>
      apply (pairs_exit twin call.caller _).attempt.bind
      rintro _ _ one two hboth twin
      cases hboth with
      | ok => exact pairs_pure ⟨rfl, nofun⟩ twin
      | error cause => exact pairs_pure ⟨rfl, nofun⟩ twin
    | exec =>
      apply (pairs_exec twin call.caller memory _ _ _).attempt.bind
      rintro _ _ one two hboth twin
      cases hboth with
      | ok hvalues => exact pairs_pure ⟨congrArg _ hvalues, nofun⟩ twin
      | error cause =>
        apply (pairs_note _ twin).bind
        exact fun _ twin ↦ pairs_pure ⟨rfl, nofun⟩ twin
    | join =>
      rw [words_zero]
      cases hchild : Pid.ofUser? (Word.lowCode call.firstWord) with
      | some target =>
        apply pairs_pure _ twin
        refine ⟨rfl, ?_⟩
        rintro _ _ ⟨⟩
        exact ⟨Decidable.not_not.1 hrunning, rfl, hchild⟩
      | none =>
        apply (pairs_note _ twin).bind
        exact fun _ twin ↦ pairs_pure ⟨rfl, nofun⟩ twin

end Syscall

/-! ## Polling -/

def Progress.raise (guest : Nat) : Progress → Progress
  | .waiting wait statusAddress => .waiting (wait.raise guest) statusAddress
  | .returned value written => .returned value written
  | .loading load => .loading load

theorem pairs_pollCollecting (twin : one.Twin guest seat two) (wait : Wait)
    (hseat : seat ≠ some (wait.caller, wait.target)) (statusAddress : Nat) (waker : Waker)
    (memory : Memory) :
    Pairs (Table.Twin guest seat) (fun progress plain ↦ progress = plain.raise guest)
      (pollCollecting (wait.raise guest) statusAddress waker memory)
      (pollCollecting wait statusAddress waker memory) one two := by
  apply (Wait.pairs_poll twin wait hseat waker).bind
  rintro outcome _ one two rfl twin
  cases outcome with
  | none => exact pairs_pure rfl twin
  | some result =>
    have hanswer (table : Table Waker) := answerJoin_yields memory statusAddress result table
    apply (pairs_of_yields (hanswer one) (hanswer two) rfl twin).bind
    rintro answer _ one two rfl twin
    exact pairs_pure rfl twin

/-- A syscall is polled for the first time alike, unless it is a JOIN for the guest's seat. -/
theorem pairs_pollSyscall (twin : one.Twin guest seat two) {call : Syscall} {token : Nat}
    {waker : Waker}
    (hseat : ∀ wait used,
      call.demand one (Token.raise guest token) waker = .join wait used →
        seat ≠ some (wait.caller, wait.target))
    (memory : Memory) :
    Pairs (Table.Twin guest seat) (fun progress plain ↦ progress = plain.raise guest)
      (pollSyscall call (Token.raise guest token) waker memory)
      (pollSyscall call token waker memory) one two := by
  apply (call.pairs_start twin memory).bind
  rintro started _ after _ ⟨rfl, hjoining⟩ twin
  cases started with
  | returned value => exact pairs_pure rfl twin
  | loading load => exact pairs_pure rfl twin
  | joining target statusAddress =>
    obtain ⟨hrunning, hkind, hchild⟩ := hjoining target statusAddress rfl
    have hdemand : call.demand one (Token.raise guest token) waker =
        .join ⟨call.caller, target, Token.raise guest token, false⟩ waker :=
      Syscall.demand_of_child hrunning hkind hchild
    have hother : seat ≠ some (call.caller, target) := hseat _ _ hdemand
    exact pairs_pollCollecting twin ⟨call.caller, target, token, false⟩ hother statusAddress waker
      memory

end Lifecycle.Kernel
