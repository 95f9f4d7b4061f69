import Lifecycle.Kernel.Ending
import Lifecycle.Proofs.Table.Termination

/-!
# Ending processes and the machine

The termination handler leaves the table of `Table.Ended`, or an empty one if no process runs any
more. In either case the wakers that leave the table are used.
-/

namespace Lifecycle

variable {Waker : Type} {before after : Table Waker} {pid : Pid} {status : ExitStatus}

namespace Table

/-- The table after a tear-down. Only births go on counting. -/
def vacated (table : Table Waker) : Table Waker :=
  { (Table.empty : Table Waker) with births := table.births }

/-- The wakers of all parked joiners. -/
def parked (table : Table Waker) : List Waker := table.recordList.filterMap (·.waker?)

@[simp]
theorem record?_vacated (table : Table Waker) (pid : Pid) : table.vacated.record? pid = none := by
  simp [vacated, record?, empty]

theorem sound_vacated (table : Table Waker) : table.vacated.Sound := .of_vacant rfl rfl rfl

/-- Nothing is left after a tear-down that was not there before. -/
theorem shrinks_vacated {before table : Table Waker} (hbirths : table.births = before.births) :
    before.Shrinks table.vacated where
  birthOf?_of hbirth := by simp [birthOf?] at hbirth
  root_of hroot := by cases hroot
  births_eq := hbirths

theorem clear_yields (table : Table Waker) :
    clear.Yields table (.ok table.parked) table.vacated [] := by
  apply Action.Yields.bind_silent (Action.yields_table table)
  apply Action.Yields.bind_silent (Action.yields_note _ _)
  exact .bind_silent (Action.yields_update _ _) (Action.yields_pure _ _)

/-- What is left when a process has ended, and what others hear of it: the wake-ups, and the stop
of the machine if no process runs any more. -/
inductive Ends (before : Table Waker) (pid : Pid) (status : ExitStatus) :
    Table Waker → List (Effect Waker) → Prop where
  | left {after : Table Waker} {wakers : List Waker}
      (hended : before.Ended after pid status wakers) (hleft : after.running ≠ 0) :
      before.Ends pid status after (wakers.map (.wake · after.size))
  | last {middle : Table Waker} {wakers : List Waker}
      (hended : before.Ended middle pid status wakers) (hlast : middle.running = 0) :
      before.Ends pid status middle.vacated
        (wakers.map (.wake · middle.size) ++ middle.parked.map (.wake · 0) ++ [.stop 0])

end Table

namespace Action

theorem yields_stop (table : Table Waker) :
    (do emit (.stop (← Action.table).size) : Action Waker Unit).Yields table (.ok ()) table
      [.stop table.size] :=
  yields_of_run [.stop table.size] rfl fun _ ↦ rfl

end Action

namespace Kernel

theorem shutdown_yields (table : Table Waker) :
    shutdown.Yields table (.ok ()) table.vacated
      (table.parked.map (.wake · 0) ++ [.stop 0]) := by
  apply Action.Yields.bind_silent table.clear_yields
  exact (Action.yields_wakeAll _ _).bind (Action.yields_stop _)

/-- Ending a process is refused, or it is a fault, or the process has ended afterwards. -/
theorem terminate_spec (sound : before.Sound) (pid : Pid) (status : ExitStatus) :
    (before.phaseOf? pid = none ∧
      (terminate pid status).Yields before (.error .ESRCH) before []) ∨
    ((before.phaseOf? pid = some .running → before.running = 0) ∧
      before.phaseOf? pid ≠ none ∧ (terminate pid status).Faults before) ∨
    ∃ after audible, before.Ends pid status after audible ∧
      (terminate pid status).Yields before (.ok ()) after audible := by
  obtain ⟨habsent, hyields⟩ | ⟨hbad, hpresent, hfaults⟩ | ⟨after, wakers, hended, hyields⟩ :=
    Table.terminate_spec sound pid status
  · exact .inl ⟨habsent, hyields.bind_error⟩
  · exact .inr (.inl ⟨hbad, hpresent, hfaults.bind⟩)
  · right; right
    by_cases hlast : after.running = 0
    · refine ⟨after.vacated, _, .last hended hlast, ?_⟩
      apply Action.Yields.bind_silent hyields
      apply Action.Yields.bind_silent (Action.yields_note _ _)
      rw [List.append_assoc]
      apply (Action.yields_wakeAll _ _).bind
      simp only [hlast, decide_true, if_true]
      exact .bind_silent (Action.yields_note _ _) (shutdown_yields after)
    · refine ⟨after, _, .left hended hlast, ?_⟩
      apply Action.Yields.bind_silent hyields
      apply Action.Yields.bind_silent (Action.yields_note _ _)
      rw [← List.append_nil (wakers.map _)]
      apply (Action.yields_wakeAll _ _).bind
      simp only [hlast, decide_false, Bool.false_eq_true, if_false]
      exact Action.yields_pure _ _

end Kernel

namespace Table.Ends

variable {audible : List (Effect Waker)}

theorem sound (ends : before.Ends pid status after audible) (sound : before.Sound) :
    after.Sound := by
  cases ends with
  | left hended _ => exact hended.sound sound
  | last _ _ => exact sound_vacated _

end Table.Ends

end Lifecycle
