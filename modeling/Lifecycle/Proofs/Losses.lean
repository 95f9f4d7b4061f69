import Lifecycle.Kernel.Syscall
import Lifecycle.Proofs.Yield

/-!
# Wakers that are lost

Some operations on the table have wakers in hand, and lose them if they fail. An action is sparing
if it loses none however it ends, and saving if it loses none when it succeeds. All operations on
the table are at least saving, but for the two that replace or drop a claim.
-/

namespace Lifecycle

variable {Waker α β : Type}

namespace Action

variable {action : Action Waker α} {next : α → Action Waker β} {scene : Scene Waker}

/-- However it ends, an action loses no waker. -/
def Sparing (action : Action Waker α) : Prop :=
  ∀ scene waker, .discard waker ∈ (action.run scene).scene.effects → .discard waker ∈ scene.effects

/-- An action that succeeds has lost no waker. -/
def Saving (action : Action Waker α) : Prop :=
  ∀ scene value last, action.run scene = .done value last →
    ∀ waker, .discard waker ∈ last.effects → .discard waker ∈ scene.effects

theorem Sparing.saving (sparing : action.Sparing) : action.Saving := by
  intro scene value last hdone waker hmem
  apply sparing scene waker
  rw [hdone]
  exact hmem

/-! ## Actions that lose nothing -/

@[simp]
theorem sparing_pure (value : α) : (pure value : Action Waker α).Sparing := fun _ _ h ↦ h

@[simp]
theorem sparing_fail (failure : Failure) : (fail failure : Action Waker α).Sparing :=
  fun _ _ h ↦ h

@[simp]
theorem sparing_refuse (cause : Errno) : (refuse cause : Action Waker α).Sparing :=
  sparing_fail _

@[simp]
theorem sparing_fault (cause : Fault) : (fault cause : Action Waker α).Sparing := sparing_fail _

@[simp]
theorem sparing_table : (table : Action Waker (Table Waker)).Sparing := fun _ _ h ↦ h

@[simp]
theorem sparing_update (change : Table Waker → Table Waker) : (update change).Sparing :=
  fun _ _ h ↦ h

theorem sparing_emit {effect : Effect Waker} (hkeeps : ∀ waker, effect ≠ .discard waker) :
    (emit effect).Sparing := by
  intro scene waker hmem
  obtain hbefore | hlast := List.mem_append.1 hmem
  · exact hbefore
  · exact absurd (List.mem_singleton.1 hlast).symm (hkeeps waker)

@[simp]
theorem sparing_note (notice : Notice) : (note notice : Action Waker Unit).Sparing :=
  sparing_emit nofun

theorem Sparing.bind (hfirst : action.Sparing) (hnext : ∀ value, (next value).Sparing) :
    (action >>= next).Sparing := by
  intro scene waker hmem
  rw [run_bind] at hmem
  have hbefore := hfirst scene waker
  cases hrun : action.run scene with
  | done value middle =>
    rw [hrun] at hmem hbefore
    exact hbefore (hnext value middle waker hmem)
  | failed failure middle =>
    rw [hrun] at hmem hbefore
    exact hbefore hmem

theorem Sparing.attempt (sparing : action.Sparing) : (Action.attempt action).Sparing := by
  intro scene waker hmem
  refine sparing scene waker ?_
  unfold Action.attempt at hmem
  simp only at hmem
  split at hmem
  all_goals
    next hrun =>
    rw [hrun]
    exact hmem

theorem sparing_forM {Item : Type} (items : List Item) {body : Item → Action Waker Unit}
    (hbody : ∀ item, (body item).Sparing) : (forM items body).Sparing := by
  induction items with
  | nil => exact sparing_pure ()
  | cons item rest ih => exact .bind (hbody item) fun _ ↦ ih

@[simp]
theorem sparing_wake (waker : Waker) : (wake waker).Sparing :=
  .bind sparing_table fun _ ↦ sparing_emit nofun

/-! ## Actions that lose nothing if they succeed -/

theorem Saving.bind (hfirst : action.Saving) (hnext : ∀ value, (next value).Saving) :
    (action >>= next).Saving := by
  intro scene value last hdone waker hmem
  obtain ⟨first, middle, hrun, hrest⟩ := run_bind_eq_done hdone
  exact hfirst scene first middle hrun waker (hnext first middle value last hrest waker hmem)

/-- The wakers in hand are lost on a failure only. -/
theorem Saving.holding (wakers : List Waker) (saving : action.Saving) :
    (Action.holding wakers action).Saving :=
  fun scene value last hdone ↦ saving scene value last (run_onFailure_eq_done hdone)

/-- To attempt an action is saving if the action is, and is not refused half-way. -/
theorem Saving.attempt (saving : action.Saving)
    (hrefused : ∀ scene cause last, action.run scene = .failed (.refused cause) last →
      last = scene) : (Action.attempt action).Saving := by
  intro scene result last hdone waker hmem
  have hrun := run_attempt_eq_done hdone
  cases result with
  | ok value => exact saving scene value last hrun waker hmem
  | error cause => exact hrefused scene cause last hrun ▸ hmem

/-! ## Parts of several table operations -/

theorem sparing_linkedRecord (pid : Pid) : (linkedRecord pid : Action Waker _).Sparing := by
  refine .bind sparing_table fun current ↦ ?_
  split
  · exact sparing_pure _
  · exact .bind (sparing_note _) fun _ ↦ sparing_fail _

@[simp]
theorem sparing_addChild (parent child : Pid) : (addChild parent child : Action Waker _).Sparing :=
  .bind (sparing_linkedRecord parent) fun _ ↦ sparing_update _

@[simp]
theorem sparing_countEnded : (countEnded : Action Waker Unit).Sparing := by
  refine .bind sparing_table fun current ↦ ?_
  split
  · exact sparing_fail _
  · exact sparing_update _

@[simp]
theorem sparing_releasePid (pid : Pid) : (releasePid pid : Action Waker Unit).Sparing := by
  refine .bind sparing_table fun current ↦ ?_
  split
  · exact sparing_update _
  · exact sparing_fail _

end Action

open Lifecycle.Action

/-! ## Operations on the table -/

namespace Table

theorem sparing_insert (parent : Option Pid) (name : String) :
    (insert parent name : Action Waker Pid).Sparing := by
  unfold insert
  repeat' with_reducible first
    | refine .bind ?_ fun _ ↦ ?_
    | split
  all_goals simp

/-- Reaping is refused at the start only. -/
theorem reap_refused {pid : Pid} {cause : Errno} {scene last : Scene Waker}
    (hrefused : (reap pid).run scene = .failed (.refused cause) last) : last = scene := by
  unfold reap releasePid holding onFailure at hrefused
  simp only [run_bind, run_table, Outcome.andThen_done] at hrefused
  repeat' split at hrefused
  · cases hrefused
    rfl
  all_goals
    simp only [run_bind, run_note, run_update, run_fault, run_table, Outcome.andThen_done,
      Outcome.andThen_failed, List.forM_eq_forM, run_forM_discard] at hrefused
  any_goals cases hrefused
  -- the id is given back, or that is a fault
  split at hrefused <;> cases hrefused

theorem saving_reap (pid : Pid) : (reap pid : Action Waker ExitStatus).Saving := by
  unfold reap
  repeat' with_reducible first
    | refine .bind ?_ fun _ ↦ ?_
    | refine .holding _ ?_
    | split
  all_goals exact Sparing.saving (by simp)

theorem saving_adopt (child : Pid) (parent : Option Pid) :
    (adopt child parent : Action Waker _).Saving := by
  have hreap : (attempt (reap child) : Action Waker _).Saving :=
    (saving_reap child).attempt fun _ _ _ ↦ reap_refused
  refine .bind (sparing_linkedRecord child).saving fun record ↦ ?_
  refine .bind (sparing_update _).saving fun _ ↦ ?_
  refine .bind (.holding _ ?_) fun _ ↦ (sparing_pure _).saving
  split
  · exact .bind (sparing_addChild _ child).saving fun _ ↦ (sparing_note _).saving
  · exact .bind hreap fun _ ↦ (sparing_note _).saving
  · exact (sparing_note _).saving

theorem saving_adoptAll (parent : Option Pid) (children : List Pid) (wakers : List Waker) :
    (adoptAll parent children wakers).Saving := by
  induction children generalizing wakers with
  | nil => exact (sparing_pure wakers).saving
  | cons child rest ih =>
    exact .bind (.holding wakers (saving_adopt child parent)) fun revoked ↦ ih _

theorem saving_terminate (pid : Pid) (status : ExitStatus) :
    (terminate pid status : Action Waker _).Saving := by
  refine .bind sparing_table.saving fun current ↦ ?_
  split
  · exact (sparing_refuse _).saving
  · next record hrecord =>
    split
    · exact .bind (sparing_note _).saving fun _ ↦ (sparing_fault _).saving
    · refine .bind (sparing_update _).saving fun _ ↦ ?_
      refine .bind (.holding _ sparing_countEnded.saving) fun _ ↦ ?_
      refine .bind (saving_adoptAll _ _ _) fun wakers ↦ ?_
      refine .bind (sparing_update _).saving fun _ ↦ ?_
      have hanswer : (do
          return ⟨wakers, (← Action.table).running = 0⟩ : Action Waker (Ending Waker)).Saving :=
        .bind sparing_table.saving fun _ ↦ (sparing_pure _).saving
      split
      · exact .bind (.holding wakers (saving_reap pid)) fun _ ↦ hanswer
      · exact hanswer

theorem sparing_clear : (clear : Action Waker (List Waker)).Sparing :=
  .bind sparing_table fun _ ↦ .bind (sparing_note _) fun _ ↦ .bind (sparing_update _) fun _ ↦
    sparing_pure _

theorem saving_withdraw (pid : Pid) : (withdraw pid : Action Waker _).Saving := by
  unfold withdraw
  repeat' with_reducible first
    | refine .bind ?_ fun _ ↦ ?_
    | refine .holding _ ?_
    | split
  all_goals exact Sparing.saving (by simp)

end Table

/-! ## The kernel's part -/

namespace Kernel

theorem sparing_shutdown : (shutdown : Action Waker Unit).Sparing :=
  .bind Table.sparing_clear fun parked ↦ .bind (sparing_forM parked sparing_wake) fun _ ↦
    .bind sparing_table fun _ ↦ sparing_emit nofun

theorem saving_terminate (pid : Pid) (status : ExitStatus) :
    (terminate pid status : Action Waker Unit).Saving := by
  refine .bind (Table.saving_terminate pid status) fun ending ↦ ?_
  refine .bind (sparing_note _).saving fun _ ↦ ?_
  refine .bind (sparing_forM _ sparing_wake).saving fun _ ↦ ?_
  split
  · exact .bind (sparing_note _).saving fun _ ↦ sparing_shutdown.saving
  · exact (sparing_pure _).saving

theorem sparing_beginLoad (parent : Option Pid) (path : String) (arguments : ArgumentVector)
    (bySyscall : Bool) :
    (beginLoad parent path arguments bySyscall : Action Waker Load).Sparing := by
  have hinsert : (do
      let pid ← Table.insert parent path
      return { pid, parent, path, arguments, bySyscall } : Action Waker Load).Sparing :=
    .bind (Table.sparing_insert parent path) fun _ ↦ sparing_pure _
  unfold beginLoad
  split
  · exact .bind (sparing_refuse _) fun _ ↦ hinsert
  · exact hinsert

namespace Syscall

theorem sparing_liftResult (result : Except Errno α) :
    (liftResult result : Action Waker α).Sparing := by
  cases result with
  | ok value => exact sparing_pure value
  | error cause => exact sparing_refuse cause

theorem sparing_exec (caller : Pid) (memory : Memory) (name : Nat) (argc : Int32) (argv : Nat) :
    (exec caller memory name argc argv : Action Waker Load).Sparing := by
  have hload : (do
      let path ← liftResult (readPath memory name)
      let copied := ArgumentVector.ofMemory memory argc argv
      noteAll copied.notices
      let arguments ← liftResult copied.value
      note (.executing caller path argc)
      beginLoad (some caller) path arguments true : Action Waker Load).Sparing :=
    .bind (sparing_liftResult _) fun _ ↦ .bind (sparing_forM _ sparing_note) fun _ ↦
      .bind (sparing_liftResult _) fun _ ↦ .bind (sparing_note _) fun _ ↦
        sparing_beginLoad _ _ _ _
  unfold exec
  split
  · exact .bind (sparing_refuse _) fun _ ↦ hload
  · exact hload

theorem sparing_halt (caller : Pid) : (halt caller : Action Waker Unit).Sparing := by
  refine .bind sparing_table fun current ↦ ?_
  split
  · exact .bind (sparing_note _) fun _ ↦ sparing_emit nofun
  · exact sparing_note _

theorem sparing_answerJoin (memory : Memory) (statusAddress : Nat)
    (result : Except Errno ExitStatus) :
    (answerJoin memory statusAddress result : Action Waker _).Sparing := by
  unfold answerJoin
  repeat' with_reducible first
    | refine .bind ?_ fun _ ↦ ?_
    | split
  all_goals simp

end Syscall

end Kernel

end Lifecycle
