import Lifecycle.Table.Action

/-!
# What actions come to

`Action.Yields` says how an action ends when it is started on a table: its result, the table it
leaves, and the effects that somebody outside the table acts on. Notes are only read, and a lost
waker reaches nobody, so neither counts. `Action.Faults` says that an action stops on a fault.
Both follow the way an action is put together, which is how every operation on the table is
taken apart later.
-/

namespace Lifecycle

variable {Waker α β : Type}

namespace Effect

/-- Whether somebody outside the table acts on an effect. -/
def isAudible : Effect Waker → Bool
  | .note _ | .discard _ => false
  | .wake .. | .admitted .. | .halt _ | .stop _ => true

/-- The waker that an effect uses. -/
def waker? : Effect Waker → Option Waker
  | .wake waker _ => some waker
  | _ => none

/-- Whoever uses a waker is heard. -/
theorem filterMap_waker?_audible (effects : List (Effect Waker)) :
    (effects.filter isAudible).filterMap waker? = effects.filterMap waker? := by
  induction effects with
  | nil => rfl
  | cons effect rest ih =>
    rw [List.filter_cons, List.filterMap_cons, ← ih]
    cases effect <;> rfl

@[simp]
theorem filterMap_waker?_wakes (wakers : List Waker) (size : Nat) :
    (wakers.map (.wake · size)).filterMap waker? = wakers := by
  rw [List.filterMap_map]
  exact List.filterMap_some

end Effect

/-- How an action ends that does not stop on a fault. -/
def Outcome.ofResult (scene : Scene Waker) : Except Errno α → Outcome Waker α
  | .ok value => .done value scene
  | .error cause => .failed (.refused cause) scene

namespace Action

/-- Started on a table, an action comes to a result and leaves a table. The audible effects it
lets out are listed in order. -/
def Yields (action : Action Waker α) (before : Table Waker) (result : Except Errno α)
    (after : Table Waker) (audible : List (Effect Waker)) : Prop :=
  ∀ effects, ∃ added, added.filter Effect.isAudible = audible ∧
    action.run ⟨before, effects⟩ = .ofResult ⟨after, effects ++ added⟩ result

/-- Started on a table, an action stops on a fault. -/
def Faults (action : Action Waker α) (before : Table Waker) : Prop :=
  ∀ effects, ∃ cause scene, action.run ⟨before, effects⟩ = .failed (.fault cause) scene

variable {before middle after : Table Waker} {action : Action Waker α}
  {next : α → Action Waker β}

/-- The common way to establish `Yields`: run the action and list what it lets out. -/
theorem yields_of_run {result : Except Errno α} {audible : List (Effect Waker)}
    (added : List (Effect Waker)) (haudible : added.filter Effect.isAudible = audible)
    (hrun : ∀ effects, action.run ⟨before, effects⟩ = .ofResult ⟨after, effects ++ added⟩ result) :
    action.Yields before result after audible :=
  fun effects ↦ ⟨added, haudible, hrun effects⟩

/-- An action comes to one result and leaves one table. -/
theorem Yields.unique {first second : Except Errno α} {last : Table Waker}
    {audible heard : List (Effect Waker)} (hfirst : action.Yields before first after audible)
    (hsecond : action.Yields before second last heard) : first = second ∧ after = last := by
  obtain ⟨added, -, hrun⟩ := hfirst []
  obtain ⟨others, -, hsame⟩ := hsecond []
  rw [hrun] at hsame
  cases first with
  | ok value =>
    cases second with
    | ok other =>
      cases hsame
      exact ⟨rfl, rfl⟩
    | error cause => cases hsame
  | error cause =>
    cases second with
    | ok other => cases hsame
    | error other =>
      cases hsame
      exact ⟨rfl, rfl⟩

theorem yields_pure (value : α) (table : Table Waker) :
    (pure value : Action Waker α).Yields table (.ok value) table [] :=
  yields_of_run [] rfl fun effects ↦ by
    rw [run_pure, List.append_nil]
    rfl

theorem yields_refuse (cause : Errno) (table : Table Waker) :
    (refuse cause : Action Waker α).Yields table (.error cause) table [] :=
  yields_of_run [] rfl fun effects ↦ by
    rw [run_refuse, List.append_nil]
    rfl

theorem yields_table (current : Table Waker) :
    table.Yields current (.ok current) current [] :=
  yields_of_run [] rfl fun effects ↦ by
    rw [run_table, List.append_nil]
    rfl

theorem yields_update (change : Table Waker → Table Waker) (table : Table Waker) :
    (update change).Yields table (.ok ()) (change table) [] :=
  yields_of_run [] rfl fun effects ↦ by
    rw [run_update, List.append_nil]
    rfl

theorem yields_note (notice : Notice) (table : Table Waker) :
    (note notice).Yields table (.ok ()) table [] :=
  yields_of_run [.note notice] rfl fun _ ↦ rfl

theorem yields_noteAll (notices : List Notice) (table : Table Waker) :
    (noteAll notices).Yields table (.ok ()) table [] := by
  refine yields_of_run (notices.map .note) ?_ fun effects ↦ run_noteAll notices _
  rw [List.filter_eq_nil_iff]
  intro effect hmem
  obtain ⟨notice, -, rfl⟩ := List.mem_map.1 hmem
  simp [Effect.isAudible]

theorem yields_discardAll (wakers : List Waker) (table : Table Waker) :
    (wakers.forM discard).Yields table (.ok ()) table [] := by
  refine yields_of_run (wakers.map .discard) ?_ fun effects ↦ run_forM_discard wakers _
  rw [List.filter_eq_nil_iff]
  intro effect hmem
  obtain ⟨waker, -, rfl⟩ := List.mem_map.1 hmem
  simp [Effect.isAudible]

theorem yields_wakeAll (wakers : List Waker) (table : Table Waker) :
    (wakers.forM wake).Yields table (.ok ()) table (wakers.map (.wake · table.size)) := by
  refine yields_of_run (wakers.map (.wake · table.size)) ?_ fun effects ↦ run_forM_wake wakers _
  rw [List.filter_eq_self]
  intro effect hmem
  obtain ⟨waker, -, rfl⟩ := List.mem_map.1 hmem
  rfl

/-! ## Sequences -/

theorem Yields.bind {value : α} {result : Except Errno β} {first second : List (Effect Waker)}
    (hfirst : action.Yields before (.ok value) middle first)
    (hsecond : (next value).Yields middle result after second) :
    (action >>= next).Yields before result after (first ++ second) := by
  intro effects
  obtain ⟨early, hearly, hrun⟩ := hfirst effects
  obtain ⟨late, hlate, hnext⟩ := hsecond (effects ++ early)
  refine ⟨early ++ late, ?_, ?_⟩
  · rw [List.filter_append, hearly, hlate]
  · rw [run_bind, hrun]
    change (next value).run ⟨middle, effects ++ early⟩ = _
    rw [hnext, List.append_assoc]

/-- A step that nobody hears can be taken off the front. -/
theorem Yields.bind_silent {value : α} {result : Except Errno β} {audible : List (Effect Waker)}
    (hfirst : action.Yields before (.ok value) middle [])
    (hsecond : (next value).Yields middle result after audible) :
    (action >>= next).Yields before result after audible :=
  hfirst.bind hsecond

theorem Yields.bind_error {cause : Errno} {audible : List (Effect Waker)}
    (hfirst : action.Yields before (.error cause) after audible) :
    (action >>= next).Yields before (.error cause) after audible := by
  intro effects
  obtain ⟨added, hadded, hrun⟩ := hfirst effects
  exact ⟨added, hadded, by rw [run_bind, hrun]; rfl⟩

theorem Yields.attempt {result : Except Errno α} {audible : List (Effect Waker)}
    (hyields : action.Yields before result after audible) :
    (Action.attempt action).Yields before (.ok result) after audible := by
  intro effects
  obtain ⟨added, hadded, hrun⟩ := hyields effects
  refine ⟨added, hadded, ?_⟩
  cases result <;> simp only [Action.attempt, hrun, Outcome.ofResult]

theorem Yields.onFailure {value : α} {audible : List (Effect Waker)} (remedy : Action Waker Unit)
    (hyields : action.Yields before (.ok value) after audible) :
    (action.onFailure remedy).Yields before (.ok value) after audible := by
  intro effects
  obtain ⟨added, hadded, hrun⟩ := hyields effects
  exact ⟨added, hadded, by simp only [Action.onFailure, hrun, Outcome.ofResult]⟩

theorem Yields.holding {value : α} {audible : List (Effect Waker)} (wakers : List Waker)
    (hyields : action.Yields before (.ok value) after audible) :
    (Action.holding wakers action).Yields before (.ok value) after audible :=
  hyields.onFailure _

/-! ## Faults -/

theorem faults_fault (cause : Fault) (table : Table Waker) :
    (fault cause : Action Waker α).Faults table :=
  fun effects ↦ ⟨cause, ⟨table, effects⟩, rfl⟩

theorem Faults.bind (hfaults : action.Faults before) : (action >>= next).Faults before := by
  intro effects
  obtain ⟨cause, scene, hrun⟩ := hfaults effects
  exact ⟨cause, scene, by rw [run_bind, hrun]; rfl⟩

theorem Yields.bind_faults {value : α} {audible : List (Effect Waker)}
    (hfirst : action.Yields before (.ok value) middle audible)
    (hsecond : (next value).Faults middle) : (action >>= next).Faults before := by
  intro effects
  obtain ⟨added, -, hrun⟩ := hfirst effects
  obtain ⟨cause, scene, hnext⟩ := hsecond (effects ++ added)
  exact ⟨cause, scene, by rw [run_bind, hrun]; exact hnext⟩

theorem Faults.attempt (hfaults : action.Faults before) :
    (Action.attempt action).Faults before := by
  intro effects
  obtain ⟨cause, scene, hrun⟩ := hfaults effects
  exact ⟨cause, scene, by simp only [Action.attempt, hrun]⟩

theorem Faults.holding (wakers : List Waker) (hfaults : action.Faults before) :
    (Action.holding wakers action).Faults before := by
  intro effects
  obtain ⟨cause, scene, hrun⟩ := hfaults effects
  refine ⟨cause, { scene with effects := scene.effects ++ wakers.map .discard }, ?_⟩
  simp only [Action.holding, Action.onFailure, hrun, List.forM_eq_forM, run_forM_discard]
  rfl

/-! ## Runs that succeed -/

section Run

variable {scene last : Scene Waker}

theorem run_bind_eq_done {value : β} (hdone : (action >>= next).run scene = .done value last) :
    ∃ first middle, action.run scene = .done first middle ∧
      (next first).run middle = .done value last := by
  rw [run_bind] at hdone
  cases hrun : action.run scene with
  | done first middle =>
    rw [hrun, Outcome.andThen_done] at hdone
    exact ⟨first, middle, rfl, hdone⟩
  | failed failure left =>
    rw [hrun, Outcome.andThen_failed] at hdone
    cases hdone

theorem run_attempt_eq_done {result : Except Errno α}
    (hdone : (Action.attempt action).run scene = .done result last) :
    action.run scene = .ofResult last result := by
  unfold Action.attempt at hdone
  simp only at hdone
  split at hdone
  · next hrun =>
    cases hdone
    exact hrun
  · next hrun =>
    cases hdone
    exact hrun
  · cases hdone

theorem run_onFailure_eq_done {value : α} {remedy : Action Waker Unit}
    (hdone : (action.onFailure remedy).run scene = .done value last) :
    action.run scene = .done value last := by
  unfold Action.onFailure at hdone
  simp only at hdone
  split at hdone
  · next hrun =>
    cases hdone
    exact hrun
  · next failure left hrun =>
    cases hremedy : remedy.run left with
    | done | failed =>
      rw [hremedy] at hdone
      cases hdone

end Run

end Action

end Lifecycle
