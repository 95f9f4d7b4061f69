import Lifecycle.Proofs.Kernel.Demand

/-!
# What calls come to

Every call either changes the table in the way that its demand allows, or it stops on a fault
because its demand was a blunder.
-/

namespace Lifecycle.Kernel

variable {Waker : Type} {before after : Table Waker}

/-! ## Loads -/

/-- What becomes of a process that is to be started. -/
inductive Taken (before : Table Waker) (parent : Option Pid) :
    Except Errno Load → Table Waker → Prop where
  | refused (cause : Errno) : Taken before parent (.error cause) before
  | taken {load : Load} {name : String} {after : Table Waker} (hparent : load.parent = parent)
      (hinserted : before.Inserted after parent name load.pid) :
      Taken before parent (.ok load) after

/-- Why a process is not even taken in. -/
inductive Rejects (table : Table Waker) (parent : Option Pid) (path : String) : Errno → Prop where
  | unnamed (hunnamed : path = "") : Rejects table parent path .ENOENT
  | declined {cause : Errno} (hnamed : path ≠ "") (hdeclines : table.Declines parent cause) :
      Rejects table parent path cause

section Begin

variable {parent : Option Pid} {path : String}

theorem beginLoad_rejects {cause : Errno} (hrejects : Rejects before parent path cause)
    (arguments : ArgumentVector) (bySyscall : Bool) :
    (beginLoad parent path arguments bySyscall).Yields before (.error cause) before [] := by
  unfold beginLoad
  cases hrejects with
  | unnamed hunnamed =>
    rw [if_pos (String.isEmpty_iff.2 hunnamed)]
    exact .bind_error (Action.yields_refuse _ _)
  | declined hnamed hdeclines =>
    rw [if_neg (mt String.isEmpty_iff.1 hnamed)]
    exact .bind_error (Table.insert_declines hdeclines)

theorem beginLoad_inserts {pid : Pid} (hnamed : path ≠ "")
    (hyields : (Table.insert parent path).Yields before (.ok pid) after [])
    (arguments : ArgumentVector) (bySyscall : Bool) :
    (beginLoad parent path arguments bySyscall).Yields before
      (.ok ⟨pid, parent, path, arguments, bySyscall⟩) after [] := by
  unfold beginLoad
  rw [if_neg (mt String.isEmpty_iff.1 hnamed)]
  exact .bind_silent hyields (Action.yields_pure _ _)

/-- Either there is a reason against it, or a process is taken in. -/
theorem rejects_or_inserts (sound : before.Sound) (parent : Option Pid) (path : String) :
    (∃ cause, Rejects before parent path cause) ∨
    path ≠ "" ∧ ∃ pid after, before.Inserted after parent path pid ∧
      (Table.insert parent path).Yields before (.ok pid) after [] := by
  by_cases hunnamed : path = ""
  · exact .inl ⟨.ENOENT, .unnamed hunnamed⟩
  obtain ⟨cause, hdeclines, -⟩ | hinserts := Table.insert_spec sound parent path
  · exact .inl ⟨cause, .declined hunnamed hdeclines⟩
  · exact .inr ⟨hunnamed, hinserts⟩

end Begin

theorem beginLoad_spec (sound : before.Sound) (parent : Option Pid) (path : String)
    (arguments : ArgumentVector) (bySyscall : Bool) :
    ∃ result after, Taken before parent result after ∧
      (beginLoad parent path arguments bySyscall).Yields before result after [] := by
  obtain ⟨cause, hrejects⟩ | ⟨hnamed, pid, after, hinserted, hyields⟩ :=
    rejects_or_inserts sound parent path
  · exact ⟨_, _, .refused cause, beginLoad_rejects hrejects arguments bySyscall⟩
  · refine ⟨.ok ⟨pid, parent, path, arguments, bySyscall⟩, after, .taken rfl hinserted, ?_⟩
    exact beginLoad_inserts hnamed hyields arguments bySyscall

/-- What becomes of the table when a load ends. -/
inductive Settled (before : Table Waker) (load : Load) :
    Except LoadFailure Entry → Table Waker → List (Effect Waker) → Prop where
  | admitted (entry : Entry) :
      Settled before load (.ok entry) before [.admitted load.pid load.path entry before.size]
  | gone (cause : LoadFailure) (habsent : before.phaseOf? load.pid = none) :
      Settled before load (.error cause) before []
  | withdrawn {after : Table Waker} (cause : LoadFailure) (hremoved : before.Removed after load.pid)
      (hcount : after.running + 1 = before.running) :
      Settled before load (.error cause) after
        ((before.wakerOf? load.pid).toList.map (.wake · after.size))

theorem withdraw_spec (sound : before.Sound) (pid : Pid) :
    (before.phaseOf? pid = none ∧ (Table.withdraw pid).Yields before (.ok none) before []) ∨
    (((∀ child, ¬ before.HasChild pid child) → before.running = 0) ∧ before.phaseOf? pid ≠ none ∧
      (Table.withdraw pid).Faults before) ∨
    ∃ after, before.Removed after pid ∧ after.running + 1 = before.running ∧
      (Table.withdraw pid).Yields before (.ok (before.wakerOf? pid)) after [] := by
  cases hrecord : before.record? pid with
  | none => exact .inl ⟨Table.phaseOf?_eq_none_iff.2 hrecord, Table.withdraw_absent hrecord⟩
  | some record =>
    right
    by_cases hbad : record.children ≠ ∅ ∨ before.running = 0
    · refine .inl ⟨fun hchildless ↦ ?_, ?_, Table.withdraw_faults hrecord hbad⟩
      · exact hbad.resolve_left (not_not_intro (Table.children_eq_empty hrecord hchildless))
      · rw [Table.phaseOf?_of_record? hrecord]
        exact Option.some_ne_none _
    · rw [not_or, not_not] at hbad
      have hremoved := Table.removed_without hrecord hbad.1
        (Table.parentOf?_of_record? hrecord ▸ sound.parent_ne pid) fun _ _ ↦ sound.stored
      have hyields := Table.withdraw_yields hrecord hbad.1 hbad.2 (sound.isOut hrecord)
      rw [Table.wakerOf?_of_record? hrecord]
      refine .inr ⟨_, ?_, ?_, hyields⟩
      · obtain ⟨hpresent, hchildless, hrecords, hroot, hbirths, hpids, hsize⟩ := hremoved
        exact ⟨hpresent, hchildless, hrecords, hroot, hbirths, hpids, hsize⟩
      · exact Nat.sub_add_cancel (Nat.pos_of_ne_zero hbad.2)

theorem endLoad_ok (before : Table Waker) (load : Load) (entry : Entry) :
    (endLoad load (.ok entry)).Yields before (.ok load.pid) before
      [.admitted load.pid load.path entry before.size] := by
  apply Action.Yields.bind_silent (Action.yields_note _ _)
  exact Action.yields_of_run [.admitted load.pid load.path entry before.size] rfl fun _ ↦ rfl

/-- Whatever became of the process, a load that failed is answered with its cause. -/
theorem endLoad_error (sound : before.Sound) (load : Load) (cause : LoadFailure) :
    (∃ after audible, Settled before load (.error cause) after audible ∧
      (endLoad load (.error cause)).Yields before (.error cause.toErrno) after audible) ∨
    (Blunder before (.settle load (.error cause)) ∧
      (endLoad load (.error cause)).Faults before) := by
  unfold endLoad
  obtain ⟨habsent, hyields⟩ | ⟨hbad, hpresent, hfaults⟩ | ⟨after, hremoved, hcount, hyields⟩ :=
    withdraw_spec sound load.pid
  · refine .inl ⟨before, [], .gone cause habsent, ?_⟩
    apply Action.Yields.bind_silent (Action.yields_note _ _)
    exact .bind_silent hyields (Action.yields_refuse _ _)
  · refine .inr ⟨.withdraw cause hpresent hbad, ?_⟩
    exact Action.Yields.bind_faults (Action.yields_note _ _) hfaults.bind
  · refine .inl ⟨after, _, .withdrawn cause hremoved hcount, ?_⟩
    refine .bind_silent (Action.yields_note _ _) (.bind_silent hyields ?_)
    rw [← List.append_nil (List.map _ _)]
    exact (Action.yields_wakeAll _ _).bind (Action.yields_refuse _ _)

theorem endLoad_spec (sound : before.Sound) (load : Load) (outcome : Except LoadFailure Entry) :
    (∃ result after audible, Settled before load outcome after audible ∧
      (endLoad load outcome).Yields before result after audible) ∨
    (Blunder before (.settle load outcome) ∧ (endLoad load outcome).Faults before) := by
  cases outcome with
  | ok entry => exact .inl ⟨.ok load.pid, before, _, .admitted entry, endLoad_ok before load entry⟩
  | error cause =>
    obtain ⟨after, audible, settled, hyields⟩ | hblunder := endLoad_error sound load cause
    · exact .inl ⟨.error cause.toErrno, after, audible, settled, hyields⟩
    · exact .inr hblunder

/-- The answer of an EXEC whose load came to a result. -/
def Syscall.execValue : Except Errno Pid → Int
  | .ok pid => pid
  | .error _ => execFailed

/-- An EXEC syscall answers whatever came of its load. -/
theorem answerExec_yields {load : Load} {outcome : Except LoadFailure Entry}
    {result : Except Errno Pid} {audible : List (Effect Waker)}
    (hyields : (endLoad load outcome).Yields before result after audible) :
    (Syscall.answerExec load outcome).Yields before (.ok (Syscall.execValue result)) after
      audible := by
  unfold Syscall.answerExec
  rw [← List.append_nil audible]
  cases result with
  | ok pid => exact hyields.attempt.bind (Action.yields_pure _ _)
  | error cause =>
    apply hyields.attempt.bind
    exact .bind_silent (Action.yields_note _ _) (Action.yields_pure _ _)

/-! ## Waits -/

theorem Wait.poll_yields {wait : Wait} {waker : Waker} {result : Except Errno (Option ExitStatus)}
    (hjoin : (Table.join wait.caller wait.target wait.token waker).Yields before result after []) :
    (wait.poll waker).Yields before (.ok (Wait.outcomeOf result)) after [] := by
  apply Action.Yields.bind_silent (hjoin.attempt.onFailure wait.abandon)
  match result with
  | .ok none =>
    by_cases hparked : wait.parked = true
    · simp only [hparked, if_true]
      exact Action.yields_pure _ _
    · simp only [hparked, if_false, Bool.false_eq_true]
      exact .bind_silent (Action.yields_note _ _) (Action.yields_pure _ _)
  | .ok (some status) => exact .bind_silent (Action.yields_note _ _) (Action.yields_pure _ _)
  | .error cause => exact .bind_silent (Action.yields_note _ _) (Action.yields_pure _ _)

theorem Wait.poll_spec (sound : before.Sound) (wait : Wait) (waker : Waker) :
    ∃ result after, before.Attempts wait.caller wait.target wait.token waker result after ∧
      (wait.poll waker).Yields before (.ok (Wait.outcomeOf result)) after [] := by
  obtain ⟨result, after, hattempts, hyields⟩ :=
    Table.join_spec sound wait.caller wait.target wait.token waker
  exact ⟨result, after, hattempts, Wait.poll_yields hyields⟩

theorem Wait.abandon_held {wait : Wait} (hparked : wait.parked = true)
    (hheld : before.IsHeld wait.target wait.token) :
    wait.abandon.Yields before (.ok ()) (before.setClaim wait.target none) [] := by
  rw [Wait.abandon, if_pos hparked]
  exact Table.releaseSlot_held hheld

theorem Wait.abandon_idle {wait : Wait}
    (hidle : ¬ wait.parked = true ∨ ¬ before.IsHeld wait.target wait.token) :
    wait.abandon.Yields before (.ok ()) before [] := by
  rw [Wait.abandon]
  split
  · next hparked => exact Table.releaseSlot_idle (hidle.resolve_left (not_not_intro hparked))
  · exact Action.yields_pure _ _

/-- How the answer to a poll shows what came of the attempt to join. A wait is answered with the
status or the refusal itself, a JOIN syscall with a number. -/
inductive Answer.Shows : Option (Except Errno ExitStatus) → Answer → Prop where
  | parked : Answer.Shows none .pending
  | collected (status : ExitStatus) : Answer.Shows (some (.ok status)) (.collected status)
  | refused (cause : Errno) : Answer.Shows (some (.error cause)) (.refused cause)
  | killed : Answer.Shows (some (.ok .killed)) (.returned Syscall.joinAbnormal none)
  | exited (code : Int32) (written : Option Memory) :
      Answer.Shows (some (.ok (.exited code))) (.returned Syscall.joinNormal written)
  /-- The code could not be written to the caller's memory. -/
  | unwritten (code : Int32) (written : Memory) :
      Answer.Shows (some (.ok (.exited code))) (.returned Syscall.joinNotChild (some written))
  | busy : Answer.Shows (some (.error .EBUSY)) (.returned Syscall.joinAlreadyJoined none)
  | turnedDown {cause : Errno} (hcause : cause ≠ .EBUSY) :
      Answer.Shows (some (.error cause)) (.returned Syscall.joinNotChild none)

/-- The answer of a JOIN whose wait is over, and its caller's memory if it was written. -/
def Syscall.joinAnswer (memory : Memory) (statusAddress : Nat) :
    Except Errno ExitStatus → Int × Option Memory
  | .ok .killed => (joinAbnormal, none)
  | .ok (.exited code) =>
    if statusAddress = 0 then (joinNormal, none)
    else
      match memory.writeScalar .i32 statusAddress code.toInt with
      | (written, .ok ()) => (joinNormal, some written)
      | (written, .error _) => (joinNotChild, some written)
  | .error .EBUSY => (joinAlreadyJoined, none)
  | .error _ => (joinNotChild, none)

theorem shows_joinAnswer (memory : Memory) (statusAddress : Nat)
    (result : Except Errno ExitStatus) :
    Answer.Shows (some result) (.returned (Syscall.joinAnswer memory statusAddress result).1
      (Syscall.joinAnswer memory statusAddress result).2) := by
  unfold Syscall.joinAnswer
  split
  · exact .killed
  · next code =>
    split
    · exact .exited code none
    · split
      · next written _ => exact .exited code (some written)
      · next written _ _ => exact .unwritten code written
  · exact .busy
  · next cause hcause => exact .turnedDown hcause

/-- The answer of a JOIN is worked out without a look at the table. -/
theorem answerJoin_yields (memory : Memory) (statusAddress : Nat)
    (result : Except Errno ExitStatus) (table : Table Waker) :
    (Syscall.answerJoin memory statusAddress result).Yields table
      (.ok (Syscall.joinAnswer memory statusAddress result)) table [] := by
  unfold Syscall.answerJoin
  split
  · exact Action.yields_pure _ _
  · simp only [Syscall.joinAnswer]
    split
    · exact Action.yields_pure _ _
    · cases memory.writeScalar .i32 statusAddress _ with
      | mk written outcome =>
        cases outcome with
        | ok => exact Action.yields_pure _ _
        | error cause => exact .bind_silent (Action.yields_note _ _) (Action.yields_pure _ _)
  · exact Action.yields_pure _ _
  · simp only [Syscall.joinAnswer]
    exact .bind_silent (Action.yields_note _ _) (Action.yields_pure _ _)

/-- How a poll of a wait brings a JOIN syscall on. -/
inductive Brings (wait : Wait) (statusAddress : Nat) :
    Except Errno (Option ExitStatus) → Progress → Prop where
  | waiting : Brings wait statusAddress (.ok none) (.waiting (wait.after none) statusAddress)
  | returned {result : Except Errno (Option ExitStatus)} (hover : result ≠ .ok none) (value : Int)
      (written : Option Memory)
      (hshows : Answer.Shows (Wait.outcomeOf result) (.returned value written)) :
      Brings wait statusAddress result (.returned value written)

/-- What a poll makes of a JOIN syscall, by the result of its attempt to join. -/
def joinProgress (wait : Wait) (statusAddress : Nat) (memory : Memory) :
    Except Errno (Option ExitStatus) → Progress
  | .ok none => .waiting (wait.after none) statusAddress
  | .ok (some status) =>
    .returned (Syscall.joinAnswer memory statusAddress (.ok status)).1
      (Syscall.joinAnswer memory statusAddress (.ok status)).2
  | .error cause =>
    .returned (Syscall.joinAnswer memory statusAddress (.error cause)).1
      (Syscall.joinAnswer memory statusAddress (.error cause)).2

theorem brings_joinProgress (wait : Wait) (statusAddress : Nat) (memory : Memory)
    (result : Except Errno (Option ExitStatus)) :
    Brings wait statusAddress result (joinProgress wait statusAddress memory result) := by
  match result with
  | .ok none => exact .waiting
  | .ok (some status) => exact .returned (by simp) _ _ (shows_joinAnswer memory statusAddress _)
  | .error cause => exact .returned (by simp) _ _ (shows_joinAnswer memory statusAddress _)

theorem pollCollecting_progress {wait : Wait} {waker : Waker}
    {result : Except Errno (Option ExitStatus)}
    (hyields : (wait.poll waker).Yields before (.ok (Wait.outcomeOf result)) after [])
    (statusAddress : Nat) (memory : Memory) :
    (pollCollecting wait statusAddress waker memory).Yields before
      (.ok (joinProgress wait statusAddress memory result)) after [] := by
  match result with
  | .ok none => exact .bind_silent hyields (Action.yields_pure _ _)
  | .ok (some status) =>
    have hanswer := answerJoin_yields memory statusAddress (.ok status) after
    exact .bind_silent hyields (.bind_silent hanswer (Action.yields_pure _ _))
  | .error cause =>
    have hanswer := answerJoin_yields memory statusAddress (.error cause) after
    exact .bind_silent hyields (.bind_silent hanswer (Action.yields_pure _ _))

theorem pollCollecting_yields {wait : Wait} {waker : Waker}
    {result : Except Errno (Option ExitStatus)}
    (hyields : (wait.poll waker).Yields before (.ok (Wait.outcomeOf result)) after [])
    (statusAddress : Nat) (memory : Memory) :
    ∃ progress, Brings wait statusAddress result progress ∧
      (pollCollecting wait statusAddress waker memory).Yields before (.ok progress) after [] :=
  ⟨_, brings_joinProgress wait statusAddress memory result,
    pollCollecting_progress hyields statusAddress memory⟩

/-! ## Syscalls -/

/-- The path and the arguments that user memory holds for an EXEC. -/
def Syscall.readExec (memory : Memory) (name : Nat) (argc : Int32) (argv : Nat) :
    Except Errno (String × ArgumentVector) :=
  if argc < 0 then .error .EINVAL
  else
    match readPath memory name with
    | .error cause => .error cause
    | .ok path =>
      match (ArgumentVector.ofMemory memory argc argv).value with
      | .error cause => .error cause
      | .ok arguments => .ok (path, arguments)

section Exec

variable {caller : Pid} {memory : Memory} {name argv : Nat} {argc : Int32}

theorem exec_unread {cause : Errno} (before : Table Waker)
    (hread : Syscall.readExec memory name argc argv = .error cause) :
    (Syscall.exec caller memory name argc argv).Yields before (.error cause) before [] := by
  unfold Syscall.readExec at hread
  unfold Syscall.exec
  split at hread
  · next hnegative =>
    cases hread
    rw [if_pos hnegative]
    exact .bind_error (Action.yields_refuse _ _)
  next hnegative =>
  rw [if_neg hnegative]
  cases hpath : Syscall.readPath memory name with
  | error early =>
    rw [hpath] at hread
    cases hread
    exact .bind_error (Action.yields_refuse _ _)
  | ok path =>
    refine .bind_silent (Action.yields_pure _ _) (.bind_silent (Action.yields_noteAll _ _) ?_)
    cases hcopied : (ArgumentVector.ofMemory memory argc argv).value with
    | error late =>
      rw [hpath, hcopied] at hread
      cases hread
      exact .bind_error (Action.yields_refuse _ _)
    | ok arguments =>
      rw [hpath, hcopied] at hread
      cases hread

/-- An EXEC goes on with what user memory holds for it. -/
theorem exec_read {path : String} {arguments : ArgumentVector} {result : Except Errno Load}
    (hread : Syscall.readExec memory name argc argv = .ok (path, arguments))
    (hyields : (beginLoad (some caller) path arguments true).Yields before result after []) :
    (Syscall.exec caller memory name argc argv).Yields before result after [] := by
  unfold Syscall.readExec at hread
  unfold Syscall.exec
  split at hread
  · cases hread
  next hnegative =>
  rw [if_neg hnegative]
  split at hread
  · cases hread
  next hpath =>
  split at hread
  · cases hread
  next hcopied =>
  cases hread
  rw [hpath]
  refine .bind_silent (Action.yields_pure _ _) (.bind_silent (Action.yields_noteAll _ _) ?_)
  rw [hcopied]
  exact .bind_silent (Action.yields_pure _ _) (.bind_silent (Action.yields_note _ _) hyields)

end Exec

theorem exec_spec (sound : before.Sound) (caller : Pid) (memory : Memory) (name : Nat)
    (argc : Int32) (argv : Nat) :
    ∃ result after, Taken before (some caller) result after ∧
      (Syscall.exec caller memory name argc argv).Yields before result after [] := by
  cases hread : Syscall.readExec memory name argc argv with
  | error cause => exact ⟨_, _, .refused cause, exec_unread before hread⟩
  | ok asked =>
    obtain ⟨result, after, htaken, hyields⟩ :=
      beginLoad_spec sound (some caller) asked.1 asked.2 true
    exact ⟨result, after, htaken, exec_read hread hyields⟩

/-- A syscall of a running process makes its demand; the others make none. -/
theorem start_stopped {call : Syscall} (hstopped : ¬ before.IsRunning call.caller)
    (memory : Memory) :
    (call.start memory).Yields before (.ok (.returned Errno.ESRCH.negated)) before [] := by
  unfold Syscall.start
  apply Action.Yields.bind_silent (Action.yields_table before)
  rw [if_pos hstopped]
  exact .bind_silent (Action.yields_note _ _) (Action.yields_pure _ _)

section Running

variable {call : Syscall} (sound : before.Sound) (hrunning : before.IsRunning call.caller)
  (memory : Memory)

include hrunning

theorem start_halt (hkind : SyscallKind.ofNumber? call.number = some .halt) :
    ∃ audible, (∀ effect ∈ audible, ∃ size, effect = .halt size) ∧
      (call.start memory).Yields before (.ok (.returned 0)) before audible := by
  have hhalt : ∃ audible, (∀ effect ∈ audible, ∃ size, effect = .halt size) ∧
      (Syscall.halt call.caller).Yields before (.ok ()) before audible := by
    unfold Syscall.halt
    by_cases hroot : before.root = some call.caller
    · refine ⟨[.halt before.size], by simp, .bind_silent (Action.yields_table before) ?_⟩
      rw [if_pos hroot]
      apply Action.Yields.bind_silent (Action.yields_note _ _)
      exact Action.yields_of_run [.halt before.size] rfl fun _ ↦ rfl
    · refine ⟨[], nofun, .bind_silent (Action.yields_table before) ?_⟩
      rw [if_neg hroot]
      exact Action.yields_note _ _
  obtain ⟨audible, hquiet, hyields⟩ := hhalt
  refine ⟨audible, hquiet, ?_⟩
  unfold Syscall.start
  apply Action.Yields.bind_silent (Action.yields_table before)
  rw [if_neg (not_not_intro hrunning), hkind]
  apply Action.Yields.bind_silent (Action.yields_note _ _)
  rw [← List.append_nil audible]
  exact hyields.bind (Action.yields_pure _ _)

theorem start_exec_of_error {cause : Errno}
    (hkind : SyscallKind.ofNumber? call.number = some .exec)
    (hexec : (Syscall.exec call.caller memory call.firstWord (Word.lowCode call.secondWord)
      call.thirdWord).Yields before (.error cause) after []) :
    (call.start memory).Yields before (.ok (.returned Syscall.execFailed)) after [] := by
  rw [← call.words_zero (by decide), ← call.words_one (by decide),
    ← call.words_two (by decide)] at hexec
  unfold Syscall.start
  apply Action.Yields.bind_silent (Action.yields_table before)
  rw [if_neg (not_not_intro hrunning), hkind]
  refine .bind_silent (Action.yields_note _ _) (.bind_silent hexec.attempt ?_)
  exact .bind_silent (Action.yields_note _ _) (Action.yields_pure _ _)

theorem start_exec_of_ok {load : Load} (hkind : SyscallKind.ofNumber? call.number = some .exec)
    (hexec : (Syscall.exec call.caller memory call.firstWord (Word.lowCode call.secondWord)
      call.thirdWord).Yields before (.ok load) after []) :
    (call.start memory).Yields before (.ok (.loading load)) after [] := by
  rw [← call.words_zero (by decide), ← call.words_one (by decide),
    ← call.words_two (by decide)] at hexec
  unfold Syscall.start
  apply Action.Yields.bind_silent (Action.yields_table before)
  rw [if_neg (not_not_intro hrunning), hkind]
  refine .bind_silent (Action.yields_note _ _) (.bind_silent hexec.attempt ?_)
  exact Action.yields_pure _ _

theorem start_exec (sound : before.Sound)
    (hkind : SyscallKind.ofNumber? call.number = some .exec) :
    (∃ value, (call.start memory).Yields before (.ok (.returned value)) before []) ∨
    ∃ load after, Taken before (some call.caller) (.ok load) after ∧
      (call.start memory).Yields before (.ok (.loading load)) after [] := by
  obtain ⟨result, after, htaken, hyields⟩ := exec_spec sound call.caller memory call.firstWord
    (Word.lowCode call.secondWord) call.thirdWord
  cases htaken with
  | refused cause => exact .inl ⟨_, start_exec_of_error hrunning memory hkind hyields⟩
  | taken hparent hinserted =>
    exact .inr ⟨_, after, .taken hparent hinserted,
      start_exec_of_ok hrunning memory hkind hyields⟩

theorem start_join (hkind : SyscallKind.ofNumber? call.number = some .join) :
    (call.start memory).Yields before
      (.ok (match Pid.ofUser? (Word.lowCode call.firstWord) with
        | some target => .joining target call.secondWord
        | none => .returned Syscall.joinNotChild)) before [] := by
  rw [← call.words_zero (by decide), ← call.words_one (by decide)]
  unfold Syscall.start
  apply Action.Yields.bind_silent (Action.yields_table before)
  rw [if_neg (not_not_intro hrunning), hkind]
  apply Action.Yields.bind_silent (Action.yields_note _ _)
  cases Pid.ofUser? (Word.lowCode call.words[0]) with
  | some target => exact Action.yields_pure _ _
  | none => exact .bind_silent (Action.yields_note _ _) (Action.yields_pure _ _)

theorem terminate_running (sound : before.Sound) (status : ExitStatus) :
    (∃ after audible, before.Ends call.caller status after audible ∧
      (terminate call.caller status).Yields before (.ok ()) after audible) ∨
    (Blunder before (.finish call.caller status) ∧
      (terminate call.caller status).Faults before) := by
  obtain ⟨habsent, -⟩ | ⟨hbad, hpresent, hfaults⟩ | hends :=
    terminate_spec sound call.caller status
  · rw [Table.isRunning_iff_phaseOf?, habsent] at hrunning
    cases hrunning
  · exact .inr ⟨.finish status hpresent hbad, hfaults⟩
  · exact .inl hends

theorem start_exit (sound : before.Sound)
    (hkind : SyscallKind.ofNumber? call.number = some .exit) :
    (∃ value after audible,
      before.Ends call.caller (.exited (Word.lowCode call.firstWord)) after audible ∧
      (call.start memory).Yields before (.ok (.returned value)) after audible) ∨
    (Blunder before (.finish call.caller (.exited (Word.lowCode call.firstWord))) ∧
      (call.start memory).Faults before) := by
  rw [← call.words_zero (by decide)]
  unfold Syscall.start
  obtain ⟨after, audible, hends, hyields⟩ | ⟨hblunder, hfaults⟩ :=
    terminate_running hrunning sound (.exited (Word.lowCode call.words[0]))
  · refine .inl ⟨0, after, audible, hends, .bind_silent (Action.yields_table before) ?_⟩
    rw [if_neg (not_not_intro hrunning), hkind]
    apply Action.Yields.bind_silent (Action.yields_note _ _)
    rw [← List.append_nil audible]
    exact (Action.Yields.bind_silent (Action.yields_note _ _) hyields).attempt.bind
      (Action.yields_pure _ _)
  · refine .inr ⟨hblunder, Action.Yields.bind_faults (Action.yields_table before) ?_⟩
    rw [if_neg (not_not_intro hrunning), hkind]
    apply Action.Yields.bind_faults (Action.yields_note _ _)
    exact (Action.Yields.bind_faults (Action.yields_note _ _) hfaults).attempt.bind

theorem start_unknown (sound : before.Sound)
    (hkind : SyscallKind.ofNumber? call.number = none) :
    (∃ value after audible, before.Ends call.caller .killed after audible ∧
      (call.start memory).Yields before (.ok (.returned value)) after audible) ∨
    (Blunder before (.finish call.caller .killed) ∧ (call.start memory).Faults before) := by
  unfold Syscall.start Syscall.kill
  obtain ⟨after, audible, hends, hyields⟩ | ⟨hblunder, hfaults⟩ :=
    terminate_running hrunning sound .killed
  · refine .inl ⟨Errno.ENOSYS.negated, after, audible, hends,
      .bind_silent (Action.yields_table before) ?_⟩
    rw [if_neg (not_not_intro hrunning), hkind]
    apply Action.Yields.bind_silent (Action.yields_note _ _)
    rw [← List.append_nil audible]
    refine Action.Yields.bind (?_ : Action.Yields _ _ (.ok ()) _ _) (Action.yields_pure _ _)
    rw [← List.append_nil audible]
    exact hyields.attempt.bind (Action.yields_pure _ _)
  · refine .inr ⟨hblunder, Action.Yields.bind_faults (Action.yields_table before) ?_⟩
    rw [if_neg (not_not_intro hrunning), hkind]
    exact Action.Yields.bind_faults (Action.yields_note _ _) hfaults.attempt.bind.bind

end Running

/-! ## Replies -/

section Act

variable {α : Type} {kernel acting : Kernel Waker} {demand : Demand Waker} {action : Action Waker α}
  {settle : Kernel Waker → α → Kernel Waker × Answer} {unsettle : Kernel Waker → Kernel Waker}
  {audible : List (Effect Waker)}

theorem Answer.IsPlain.ne_faulted {answer : Answer} (hplain : answer.IsPlain) (fault : Fault) :
    answer ≠ .faulted fault := by
  rintro rfl
  exact hplain

theorem act_of_ok {value : α} (settle : Kernel Waker → α → Kernel Waker × Answer)
    (unsettle : Kernel Waker → Kernel Waker)
    (hyields : action.Yields acting.table (.ok value) after audible) :
    ∃ effects, effects.filter Effect.isAudible = audible ∧ acting.act action settle unsettle =
      ⟨(settle { acting with table := after } value).1, effects,
        (settle { acting with table := after } value).2⟩ := by
  obtain ⟨added, haudible, hrun⟩ := hyields []
  refine ⟨added, haudible, ?_⟩
  rw [act, hrun]
  rfl

theorem act_of_error {cause : Errno} (settle : Kernel Waker → α → Kernel Waker × Answer)
    (unsettle : Kernel Waker → Kernel Waker)
    (hyields : action.Yields acting.table (.error cause) after audible) :
    ∃ effects, effects.filter Effect.isAudible = audible ∧ acting.act action settle unsettle =
      ⟨unsettle { acting with table := after }, effects, .refused cause⟩ := by
  obtain ⟨added, haudible, hrun⟩ := hyields []
  refine ⟨added, haudible, ?_⟩
  rw [act, hrun]
  rfl

theorem fulfils_of_ok {value : α}
    (hyields : action.Yields acting.table (.ok value) after audible)
    (hanswer : ∀ fault, (settle { acting with table := after } value).2 ≠ .faulted fault)
    (hchange : kernel.Change demand (settle { acting with table := after } value).1.table
      (settle { acting with table := after } value).1.loads audible
      (settle { acting with table := after } value).2) :
    kernel.Fulfils demand (acting.act action settle unsettle) := by
  obtain ⟨effects, haudible, hact⟩ := act_of_ok settle unsettle hyields
  rw [hact]
  subst haudible
  exact .inl ⟨fun ⟨fault, hfault⟩ ↦ hanswer fault hfault, hchange⟩

theorem fulfils_of_error {cause : Errno}
    (hyields : action.Yields acting.table (.error cause) after audible)
    (hchange : kernel.Change demand (unsettle { acting with table := after }).table
      (unsettle { acting with table := after }).loads audible (.refused cause)) :
    kernel.Fulfils demand (acting.act action settle unsettle) := by
  obtain ⟨effects, haudible, hact⟩ := act_of_error settle unsettle hyields
  rw [hact]
  subst haudible
  exact .inl ⟨nofun, hchange⟩

theorem faulted_of_faults (hfaults : action.Faults acting.table) :
    (acting.act action settle unsettle).Faulted := by
  obtain ⟨cause, scene, hrun⟩ := hfaults []
  rw [act, hrun]
  exact ⟨cause, rfl⟩

theorem fulfils_of_faults (hfaults : action.Faults acting.table)
    (hblunder : Blunder kernel.table demand) :
    kernel.Fulfils demand (acting.act action settle unsettle) :=
  .inr ⟨faulted_of_faults hfaults, hblunder⟩

end Act

variable {kernel : Kernel Waker}

/-- A call that does not look at the table. -/
theorem fulfils_nothing {reached : Kernel Waker} {answer : Answer}
    (htable : reached.table = kernel.table) (hloads : reached.loads = kernel.loads)
    (hplain : answer.IsPlain) : kernel.Fulfils .nothing ⟨reached, [], answer⟩ := by
  refine .inl ⟨fun ⟨fault, hfault⟩ ↦ hplain.ne_faulted fault hfault, ?_⟩
  rw [htable, hloads]
  exact .unchanged .nothing nofun hplain

theorem fulfils_absent (kernel : Kernel Waker) : kernel.Fulfils .nothing ⟨kernel, [], .absent⟩ :=
  fulfils_nothing rfl rfl trivial

theorem fulfils_spawn (sound : kernel.table.Sound) (parent : Option Pid) (path : String)
    (arguments : ArgumentVector) :
    kernel.Fulfils (.start parent)
      (kernel.act (beginLoad parent path arguments false) pushLoad id) := by
  obtain ⟨result, after, htaken, hyields⟩ := beginLoad_spec sound parent path arguments false
  cases htaken with
  | refused cause => exact fulfils_of_error hyields (.unchanged (.start parent) nofun trivial)
  | taken hparent hinserted =>
    subst hparent
    exact fulfils_of_ok hyields nofun (.inserted hinserted trivial)

theorem Settled.change {load : Load} {loads : List Load} {outcome : Except LoadFailure Entry}
    {audible : List (Effect Waker)} (settled : Settled kernel.table load outcome after audible)
    (hloads : kernel.loads = load :: loads) {answer : Answer} (hplain : answer.IsPlain) :
    kernel.Change (.settle load outcome) after loads audible answer := by
  cases settled with
  | admitted entry => exact .admitted hloads hplain
  | gone cause habsent => exact .gone hloads habsent hplain
  | withdrawn cause hremoved hcount => exact .withdrawn hloads hremoved hcount hplain

theorem fulfils_finishLoad (sound : kernel.table.Sound) (outcome : Except LoadFailure Entry) :
    kernel.Fulfils (kernel.demand (.finishLoad outcome)) (kernel.finishLoad outcome) := by
  cases hloads : kernel.loads with
  | nil =>
    have hreply : kernel.finishLoad outcome = ⟨kernel, [], .absent⟩ := by
      simp only [finishLoad, hloads]
    have hdemand : kernel.demand (.finishLoad outcome) = .nothing := by
      simp only [demand, hloads]
    rw [hreply, hdemand]
    exact fulfils_absent kernel
  | cons load loads =>
    have hdemand : kernel.demand (.finishLoad outcome) = .settle load outcome := by
      simp only [demand, hloads]
    simp only [finishLoad, hloads, hdemand]
    obtain ⟨result, after, audible, settled, hyields⟩ | ⟨hblunder, hfaults⟩ :=
      endLoad_spec sound load outcome
    · have hchange {answer : Answer} (hplain : answer.IsPlain) :=
        settled.change hloads hplain
      split
      · exact fulfils_of_ok (answerExec_yields hyields) nofun (hchange trivial)
      · cases result with
        | ok pid => exact fulfils_of_ok hyields nofun (hchange trivial)
        | error cause => exact fulfils_of_error hyields (hchange trivial)
    · split
      · exact fulfils_of_faults hfaults.attempt.bind hblunder
      · exact fulfils_of_faults hfaults hblunder

theorem fulfils_terminate (sound : kernel.table.Sound) (pid : Pid) (status : ExitStatus) :
    kernel.Fulfils (.finish pid status)
      (kernel.act (terminate pid status) (fun kernel _ ↦ (kernel, .done)) id) := by
  obtain ⟨habsent, hyields⟩ | ⟨hbad, hpresent, hfaults⟩ | ⟨after, audible, hends, hyields⟩ :=
    terminate_spec sound pid status
  · exact fulfils_of_error hyields (.unchanged (.finish status habsent) nofun trivial)
  · exact fulfils_of_faults hfaults (.finish status hpresent hbad)
  · exact fulfils_of_ok hyields nofun (.ended hends trivial)

theorem fulfils_shutdown (kernel : Kernel Waker) :
    kernel.Fulfils .clear (kernel.act shutdown (fun kernel _ ↦ (kernel, .done)) id) :=
  fulfils_of_ok (shutdown_yields kernel.table) nofun (.cleared trivial)

/-! ### Polls -/

theorem fulfils_join (sound : kernel.table.Sound) (request : RequestId) (wait : Wait)
    (waker : Waker) :
    kernel.Fulfils (.join wait waker)
      (kernel.act (wait.poll waker) (settleJoin request wait) (·.forget request)) := by
  obtain ⟨result, after, hattempts, hyields⟩ := Wait.poll_spec sound wait waker
  refine fulfils_of_ok hyields ?_ (.polled hattempts hyields ?_ ?_)
  all_goals match result with
    | .ok none | .ok (some status) | .error cause => simp [settleJoin, Wait.outcomeOf, eq_comm]

/-- What a JOIN syscall comes to, whether it has just begun or waits already. -/
theorem fulfils_collecting {request : RequestId} {wait : Wait} {statusAddress : Nat}
    {waker : Waker} {result : Except Errno (Option ExitStatus)} {progress : Progress}
    {action : Action Waker Progress}
    (hattempts : kernel.table.Attempts wait.caller wait.target wait.token waker result after)
    (hpoll : (wait.poll waker).Yields kernel.table (.ok (Wait.outcomeOf result)) after [])
    (hbrings : Brings wait statusAddress result progress)
    (hyields : action.Yields kernel.table (.ok progress) after []) :
    kernel.Fulfils (.join wait waker)
      (kernel.act action (settleSyscall request) (·.forget request)) := by
  cases hbrings with
  | waiting =>
    exact fulfils_of_ok hyields nofun (.polled hattempts hpoll (by simp [settleSyscall]) nofun)
  | returned hover value written =>
    exact fulfils_of_ok hyields nofun
      (.polled hattempts hpoll (by simp [settleSyscall, hover]) nofun)

theorem fulfils_pollCollecting (sound : kernel.table.Sound) (request : RequestId) (wait : Wait)
    (statusAddress : Nat) (waker : Waker) (memory : Memory) :
    kernel.Fulfils (.join wait waker)
      (kernel.act (pollCollecting wait statusAddress waker memory) (settleSyscall request)
        (·.forget request)) := by
  obtain ⟨result, after, hattempts, hpoll⟩ := Wait.poll_spec sound wait waker
  obtain ⟨progress, hbrings, hyields⟩ := pollCollecting_yields hpoll statusAddress memory
  exact fulfils_collecting hattempts hpoll hbrings hyields

section Syscall

variable (sound : kernel.table.Sound) (request : RequestId) (call : Syscall) (waker : Waker)
  (memory : Memory)

section Returned

variable {audible : List (Effect Waker)} {value : Int}
  (hyields : (call.start memory).Yields kernel.table (.ok (.returned value)) after audible)

include hyields

/-- A syscall that returns from its first step. -/
theorem pollSyscall_returned :
    (pollSyscall call request waker memory).Yields kernel.table (.ok (.returned value none)) after
      audible := by
  rw [← List.append_nil audible]
  exact hyields.bind (Action.yields_pure _ _)

theorem fulfils_returned {demand : Demand Waker}
    (hchange : kernel.Change demand after kernel.loads audible (.returned value none)) :
    kernel.Fulfils demand
      (kernel.act (pollSyscall call request waker memory) (settleSyscall request)
        (·.forget request)) :=
  fulfils_of_ok (pollSyscall_returned request call waker memory hyields) nofun hchange

theorem perform_returned (hrequest : kernel.requests[request]? = some (.syscall call)) :
    ∃ effects, effects.filter Effect.isAudible = audible ∧
      kernel.perform (.poll request waker memory) =
        ⟨{ kernel with table := after }.forget request, effects, .returned value none⟩ := by
  simp only [perform, poll, hrequest]
  exact act_of_ok (settleSyscall request) (·.forget request)
    (pollSyscall_returned request call waker memory hyields)

end Returned

include sound

theorem fulfils_pollSyscall :
    kernel.Fulfils (call.demand kernel.table request waker)
      (kernel.act (pollSyscall call request waker memory) (settleSyscall request)
        (·.forget request)) := by
  unfold Syscall.demand
  split
  · next hstopped =>
    exact fulfils_returned request call waker memory (start_stopped hstopped memory)
      (.unchanged .nothing nofun trivial)
  next hnot =>
  have hrunning := not_not.1 hnot
  split
  · next hkind =>
    obtain ⟨value, after, audible, hends, hyields⟩ | ⟨hblunder, hfaults⟩ :=
      start_unknown hrunning memory sound hkind
    · exact fulfils_returned request call waker memory hyields (.ended hends trivial)
    · exact fulfils_of_faults hfaults.bind hblunder
  · next hkind =>
    obtain ⟨audible, hquiet, hyields⟩ := start_halt hrunning memory hkind
    exact fulfils_returned request call waker memory hyields (.unchanged .nothing hquiet trivial)
  · next hkind =>
    obtain ⟨value, after, audible, hends, hyields⟩ | ⟨hblunder, hfaults⟩ :=
      start_exit hrunning memory sound hkind
    · exact fulfils_returned request call waker memory hyields (.ended hends trivial)
    · exact fulfils_of_faults hfaults.bind hblunder
  · next hkind =>
    obtain ⟨value, hyields⟩ | ⟨load, after, htaken, hyields⟩ :=
      start_exec hrunning memory sound hkind
    · exact fulfils_returned request call waker memory hyields
        (.unchanged (.start _) nofun trivial)
    · cases htaken with
      | taken hparent hinserted =>
        rw [← hparent] at hinserted ⊢
        exact fulfils_of_ok (.bind_silent hyields (Action.yields_pure _ _)) nofun
          (.inserted hinserted trivial)
  · next hkind =>
    have hyields := start_join hrunning memory hkind
    split
    · next target htarget =>
      rw [htarget] at hyields
      obtain ⟨result, after, hattempts, hpoll⟩ :=
        Wait.poll_spec sound ⟨call.caller, target, request, false⟩ waker
      obtain ⟨progress, hbrings, hcollecting⟩ :=
        pollCollecting_yields hpoll call.secondWord memory
      exact fulfils_collecting hattempts hpoll hbrings (.bind_silent hyields hcollecting)
    · next htarget =>
      rw [htarget] at hyields
      exact fulfils_returned request call waker memory hyields (.unchanged .nothing nofun trivial)

end Syscall

theorem fulfils_poll (sound : kernel.table.Sound) (request : RequestId) (waker : Waker)
    (memory : Memory) :
    kernel.Fulfils (kernel.demand (.poll request waker memory))
      (kernel.poll request waker memory) := by
  cases hrequest : kernel.requests[request]? with
  | none =>
    simp only [demand, poll, hrequest]
    exact fulfils_absent kernel
  | some entry =>
    simp only [demand, poll, hrequest]
    cases entry with
    | join wait => exact fulfils_join sound request wait waker
    | syscall call => exact fulfils_pollSyscall sound request call waker memory
    | collecting wait statusAddress =>
      exact fulfils_pollCollecting sound request wait statusAddress waker memory

theorem fulfils_leave (request : RequestId) (wait : Wait) :
    kernel.Fulfils (.leave wait)
      (kernel.act wait.abandon (fun kernel _ ↦ (kernel.forget request, .done))
        (·.forget request)) := by
  by_cases hidle : ¬ wait.parked = true ∨ ¬ kernel.table.IsHeld wait.target wait.token
  · exact fulfils_of_ok (Wait.abandon_idle hidle) nofun (.unchanged (.leave hidle) nofun trivial)
  · rw [not_or, not_not, not_not] at hidle
    exact fulfils_of_ok (Wait.abandon_held hidle.1 hidle.2) nofun (.released hidle.2 trivial)

theorem fulfils_abandon (kernel : Kernel Waker) (request : RequestId) :
    kernel.Fulfils (kernel.demand (.abandon request)) (kernel.abandon request) := by
  cases hrequest : kernel.requests[request]? with
  | none =>
    simp only [demand, abandon, hrequest]
    exact fulfils_absent kernel
  | some entry =>
    simp only [demand, abandon, hrequest]
    cases entry with
    | syscall call => exact fulfils_nothing rfl rfl trivial
    | join wait => exact fulfils_leave request wait
    | collecting wait statusAddress => exact fulfils_leave request wait

/-- Every call on a sound table comes to what its demand allows. -/
theorem perform_spec (sound : kernel.table.Sound) (call : Call Waker) :
    kernel.Fulfils (kernel.demand call) (kernel.perform call) := by
  cases call with
  | spawn parent path arguments => exact fulfils_spawn sound parent path arguments
  | finishLoad outcome => exact fulfils_finishLoad sound outcome
  | terminate pid status => exact fulfils_terminate sound pid status
  | shutdown => exact fulfils_shutdown kernel
  | openJoin caller target => exact fulfils_nothing rfl rfl trivial
  | openSyscall call => exact fulfils_nothing rfl rfl trivial
  | poll request waker memory => exact fulfils_poll sound request waker memory
  | abandon request => exact fulfils_abandon kernel request

end Lifecycle.Kernel
