import Lifecycle.Proofs.Yield

/-!
# Actions side by side

Two actions that are started on related tables end alike if both come to related values, or both to
the same failure, and the tables are related again. What they let out is not compared. The rules
follow the way actions are put together.
-/

namespace Lifecycle

variable {Waker α β γ δ : Type} {tables : Table Waker → Table Waker → Prop}
  {values : α → β → Prop} {results : γ → δ → Prop}

/-- Two ends that are alike. -/
inductive Outcome.Paired (tables : Table Waker → Table Waker → Prop) (values : α → β → Prop) :
    Outcome Waker α → Outcome Waker β → Prop where
  | done {first : α} {second : β} {one two : Scene Waker} (hvalues : values first second)
      (htables : tables one.table two.table) :
      Paired tables values (.done first one) (.done second two)
  | failed {failure : Failure} {one two : Scene Waker} (htables : tables one.table two.table) :
      Paired tables values (.failed failure one) (.failed failure two)

/-- Two results of attempts that are alike. -/
inductive Both (values : α → β → Prop) : Except Errno α → Except Errno β → Prop where
  | ok {first : α} {second : β} (hvalues : values first second) :
      Both values (.ok first) (.ok second)
  | error (cause : Errno) : Both values (.error cause) (.error cause)

namespace Action

/-- Started on two tables, two actions end alike. -/
def Pairs (tables : Table Waker → Table Waker → Prop) (values : α → β → Prop)
    (first : Action Waker α) (second : Action Waker β) (one two : Table Waker) : Prop :=
  ∀ effects others,
    Outcome.Paired tables values (first.run ⟨one, effects⟩) (second.run ⟨two, others⟩)

variable {first : Action Waker α} {second : Action Waker β} {one two : Table Waker}
  {next : α → Action Waker γ} {other : β → Action Waker δ}

/-! ## Single steps -/

theorem pairs_pure {value : α} {twin : β} (hvalues : values value twin) (htables : tables one two) :
    Pairs tables values (pure value) (pure twin) one two :=
  fun _ _ ↦ .done hvalues htables

theorem pairs_refuse (cause : Errno) (htables : tables one two) :
    Pairs tables values (refuse cause) (refuse cause) one two :=
  fun _ _ ↦ .failed htables

theorem pairs_fault (cause : Fault) (htables : tables one two) :
    Pairs tables values (fault cause) (fault cause) one two :=
  fun _ _ ↦ .failed htables

theorem pairs_update {change twin : Table Waker → Table Waker}
    (htables : tables (change one) (twin two)) :
    Pairs tables (· = ·) (update change) (update twin) one two :=
  fun _ _ ↦ .done rfl htables

theorem pairs_emit (effect twin : Effect Waker) (htables : tables one two) :
    Pairs tables (· = ·) (emit effect) (emit twin) one two :=
  fun _ _ ↦ .done rfl htables

theorem pairs_note (notice : Notice) (htables : tables one two) :
    Pairs tables (· = ·) (note notice) (note notice) one two :=
  pairs_emit _ _ htables

theorem pairs_noteAll (notices : List Notice) (htables : tables one two) :
    Pairs tables (· = ·) (noteAll notices) (noteAll notices) one two := by
  intro effects others
  rw [run_noteAll, run_noteAll]
  exact .done rfl htables

/-- Whoever is woken need not be the same. -/
theorem pairs_wakeAll (wakers twins : List Waker) (htables : tables one two) :
    Pairs tables (· = ·) (wakers.forM wake) (twins.forM wake) one two := by
  intro effects others
  rw [List.forM_eq_forM, run_forM_wake, run_forM_wake]
  exact .done rfl htables

theorem pairs_discardAll (wakers twins : List Waker) (htables : tables one two) :
    Pairs tables (· = ·) (wakers.forM discard) (twins.forM discard) one two := by
  intro effects others
  rw [List.forM_eq_forM, run_forM_discard, run_forM_discard]
  exact .done rfl htables

/-- Actions that yield something yield it alike. -/
theorem pairs_of_yields {value : α} {twin : β} {oneAfter twoAfter : Table Waker}
    {audible others : List (Effect Waker)} (hfirst : first.Yields one (.ok value) oneAfter audible)
    (hsecond : second.Yields two (.ok twin) twoAfter others) (hvalues : values value twin)
    (htables : tables oneAfter twoAfter) : Pairs tables values first second one two := by
  intro effects effects'
  obtain ⟨_, -, hrun⟩ := hfirst effects
  obtain ⟨_, -, hother⟩ := hsecond effects'
  rw [hrun, hother]
  exact .done hvalues htables

/-! ## Sequences -/

theorem Pairs.bind (hfirst : Pairs tables values first second one two)
    (hnext : ∀ {value twin one two}, values value twin → tables one two →
      Pairs tables results (next value) (other twin) one two) :
    Pairs tables results (first >>= next) (second >>= other) one two := by
  intro effects others
  rw [run_bind, run_bind]
  have hends := hfirst effects others
  generalize first.run ⟨one, effects⟩ = left at hends ⊢
  generalize second.run ⟨two, others⟩ = right at hends ⊢
  cases hends with
  | done hvalues htables => exact hnext hvalues htables _ _
  | failed htables => exact .failed htables

/-- After a refusal nothing more happens. -/
theorem pairs_refuse_bind (cause : Errno) (htables : tables one two) :
    Pairs tables results (refuse cause >>= next) (refuse cause >>= other) one two :=
  fun _ _ ↦ .failed htables

/-- After a fault nothing more happens. -/
theorem pairs_fault_bind (cause : Fault) (htables : tables one two) :
    Pairs tables results (fault cause >>= next) (fault cause >>= other) one two :=
  fun _ _ ↦ .failed htables

theorem pairs_table_bind {next : Table Waker → Action Waker γ}
    {other : Table Waker → Action Waker δ}
    (hnext : Pairs tables results (next one) (other two) one two) :
    Pairs tables results (table >>= next) (table >>= other) one two :=
  fun effects others ↦ hnext effects others

theorem pairs_ite {holds also : Prop} [Decidable holds] [Decidable also]
    {first left : Action Waker α} {second right : Action Waker β} (hiff : holds ↔ also)
    (hyes : holds → Pairs tables values first second one two)
    (hno : ¬ holds → Pairs tables values left right one two) :
    Pairs tables values (if holds then first else left) (if also then second else right)
      one two := by
  by_cases hholds : holds
  · rw [if_pos hholds, if_pos (hiff.1 hholds)]
    exact hyes hholds
  · rw [if_neg hholds, if_neg (mt hiff.2 hholds)]
    exact hno hholds

theorem Pairs.attempt (hpairs : Pairs tables values first second one two) :
    Pairs tables (Both values) (Action.attempt first) (Action.attempt second) one two := by
  intro effects others
  have hends := hpairs effects others
  simp only [Action.attempt]
  generalize first.run ⟨one, effects⟩ = left at hends ⊢
  generalize second.run ⟨two, others⟩ = right at hends ⊢
  cases hends with
  | done hvalues htables => exact .done (.ok hvalues) htables
  | @failed failure _ _ htables =>
    cases failure with
    | refused cause => exact .done (.error cause) htables
    | fault cause => exact .failed htables

theorem Pairs.onFailure {remedy twin : Action Waker Unit}
    (hpairs : Pairs tables values first second one two)
    (hremedy : ∀ {one two}, tables one two → Pairs tables (· = ·) remedy twin one two) :
    Pairs tables values (first.onFailure remedy) (second.onFailure twin) one two := by
  intro effects others
  have hends := hpairs effects others
  simp only [Action.onFailure]
  generalize first.run ⟨one, effects⟩ = left at hends ⊢
  generalize second.run ⟨two, others⟩ = right at hends ⊢
  cases hends with
  | done hvalues htables => exact .done hvalues htables
  | @failed failure leftScene rightScene htables =>
    have hrest : Pairs tables values (remedy >>= fun _ ↦ fail failure)
        (twin >>= fun _ ↦ fail failure) leftScene.table rightScene.table :=
      (hremedy htables).bind fun _ htables _ _ ↦ .failed htables
    exact hrest leftScene.effects rightScene.effects

theorem Pairs.holding (wakers twins : List Waker)
    (hpairs : Pairs tables values first second one two) :
    Pairs tables values (Action.holding wakers first) (Action.holding twins second) one two :=
  hpairs.onFailure fun htables ↦ pairs_discardAll wakers twins htables

end Action

end Lifecycle
