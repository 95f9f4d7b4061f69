import Lifecycle.Proofs.Kernel.Ending
import Lifecycle.Proofs.Table.Insertion
import Lifecycle.Proofs.Table.Joining
import Mathlib.Logic.Relation

/-!
# Ancestors

Every process can be given a depth so that parents lie above their children. So nobody is an
ancestor of himself. The only processes that move are those whose parent ends, and they move to the
root, which has no parent.
-/

namespace Lifecycle.Table

variable {Waker : Type} {before after table : Table Waker} {pid child parent : Pid}
  {depth : Pid → Nat}

/-- Parents lie above their children. -/
def Graded (table : Table Waker) (depth : Pid → Nat) : Prop :=
  ∀ child parent, table.parentOf? child = some parent → depth parent < depth child

/-- A chain of parents, from one process up to another. -/
def Descends (table : Table Waker) : Pid → Pid → Prop :=
  Relation.TransGen fun child parent ↦ table.parentOf? child = some parent

theorem Graded.lt_of_descends (graded : table.Graded depth)
    (hdescends : table.Descends child parent) :
    depth parent < depth child := by
  induction hdescends with
  | single hparent => exact graded _ _ hparent
  | tail _ hparent ih => exact Nat.lt_trans (graded _ _ hparent) ih

theorem Graded.not_descends (graded : table.Graded depth) (pid : Pid) : ¬ table.Descends pid pid :=
  fun hdescends ↦ Nat.lt_irrefl _ (graded.lt_of_descends hdescends)

/-- No process gets a parent that it did not have. -/
theorem Graded.of_le (graded : before.Graded depth)
    (hparents : ∀ child parent, after.parentOf? child = some parent →
      before.parentOf? child = some parent) : after.Graded depth :=
  fun child parent hparent ↦ graded child parent (hparents child parent hparent)

theorem graded_vacated (table : Table Waker) (depth : Pid → Nat) : table.vacated.Graded depth := by
  intro child parent hparent
  simp [parentOf?] at hparent

/-- A new process lies below everybody else. -/
theorem Inserted.graded {holder : Option Pid} {name : String} (sound : before.Sound)
    (inserted : before.Inserted after holder name pid) (graded : before.Graded depth) :
    after.Graded (Function.update depth pid ((holder.map depth).getD 0 + 1)) := by
  have habsent : before.phaseOf? pid = none := phaseOf?_eq_none_iff.2 inserted.absent
  have hparents {child parent : Pid} (hparent : before.parentOf? child = some parent) :
      parent ≠ pid := by
    rintro rfl
    rw [sound.parent_running hparent] at habsent
    cases habsent
  intro child parent hparent
  rw [inserted.parentOf?_eq] at hparent
  split at hparent
  · next hself =>
    subst hself hparent
    have hne : parent ≠ child := by
      rintro rfl
      rw [isRunning_iff_phaseOf?.1 (inserted.parent_running rfl)] at habsent
      cases habsent
    rw [Function.update_of_ne hne, Function.update_self]
    exact Nat.lt_succ_self _
  · next hother =>
    rw [Function.update_of_ne (hparents hparent), Function.update_of_ne hother]
    exact graded child parent hparent

/-- The heir moves to the top, since children come to it from anywhere. -/
theorem Ended.graded {status : ExitStatus} {wakers : List Waker} (sound : before.Sound)
    (ended : before.Ended after pid status wakers) (graded : before.Graded depth) :
    after.Graded fun other ↦ if before.heirOf pid = some other then 0 else depth other + 1 := by
  intro child parent hparent
  rw [ended.parentOf?_eq sound] at hparent
  have hmoved : before.parentOf? child ≠ none := by
    intro hnone
    simp [hnone] at hparent
  have hchild : before.heirOf pid ≠ some child := by
    intro hheir
    exact hmoved (sound.root_running (Option.filter_eq_some_iff.1 hheir).1).2
  beta_reduce
  rw [if_neg hchild]
  split at hparent
  · rw [if_pos hparent]
    exact Nat.succ_pos _
  · split
    · exact Nat.succ_pos _
    · exact Nat.succ_lt_succ (graded child parent hparent)

end Lifecycle.Table
