import Lifecycle.Log.Notice
import Lifecycle.Table.Basic

/-!
# Actions on the process table

An action changes the table and lets effects out, in order: things to log, wakers to use or to
lose, new processes to run, the machine to stop. An action that fails keeps the changes and the
effects it had made by then.

Actions form a monad. Each primitive has a lemma about its `run`, and `run_bind` takes a sequence
apart, so what an action does to a scene can be computed without opening the primitives.
-/

namespace Lifecycle

/-- What an action asks of the world outside the table. An effect that others can watch carries
the number of records at that moment. -/
inductive Effect (Waker : Type) where
  | note (notice : Notice)
  /-- Use a waker. -/
  | wake (waker : Waker) (size : Nat)
  /-- Lose a waker without using it. -/
  | discard (waker : Waker)
  /-- Begin to run a process whose image was loaded from a path. -/
  | admitted (pid : Pid) (path : String) (entry : Entry) (size : Nat)
  /-- Power the machine off, at the request of the root process. -/
  | halt (size : Nat)
  /-- Stop the machine, because no process is left. -/
  | stop (size : Nat)

/-- How far an action has come. -/
structure Scene (Waker : Type) where
  table : Table Waker
  /-- The effects so far, in order. -/
  effects : List (Effect Waker)

/-- How an action ends, with the scene that it leaves. -/
inductive Outcome (Waker α : Type) where
  | done (value : α) (scene : Scene Waker)
  | failed (failure : Failure) (scene : Scene Waker)

structure Action (Waker α : Type) where
  run : Scene Waker → Outcome Waker α

namespace Outcome

variable {Waker α β : Type}

def scene : Outcome Waker α → Scene Waker
  | .done _ scene | .failed _ scene => scene

/-- Goes on from the scene that is left, unless the action failed. -/
def andThen (outcome : Outcome Waker α) (next : α → Action Waker β) : Outcome Waker β :=
  match outcome with
  | .done value scene => (next value).run scene
  | .failed failure scene => .failed failure scene

@[simp] theorem scene_done (value : α) (scene : Scene Waker) :
    (done value scene).scene = scene := rfl

@[simp] theorem scene_failed (failure : Failure) (scene : Scene Waker) :
    (failed failure scene : Outcome Waker α).scene = scene := rfl

@[simp] theorem andThen_done (value : α) (scene : Scene Waker) (next : α → Action Waker β) :
    (done value scene).andThen next = (next value).run scene := rfl

@[simp] theorem andThen_failed (failure : Failure) (scene : Scene Waker)
    (next : α → Action Waker β) :
    (failed failure scene).andThen next = failed failure scene := rfl

end Outcome

namespace Action

variable {Waker α β : Type}

instance : Monad (Action Waker) where
  pure value := ⟨.done value⟩
  bind action next := ⟨fun scene ↦ (action.run scene).andThen next⟩

@[ext] theorem ext {first second : Action Waker α}
    (same : ∀ scene, first.run scene = second.run scene) : first = second := by
  obtain ⟨first⟩ := first
  obtain ⟨second⟩ := second
  exact congrArg mk (funext same)

@[simp] theorem run_pure (value : α) (scene : Scene Waker) :
    (pure value : Action Waker α).run scene = .done value scene := (rfl)

@[simp] theorem run_bind (action : Action Waker α) (next : α → Action Waker β)
    (scene : Scene Waker) :
    (action >>= next).run scene = (action.run scene).andThen next := (rfl)

instance : LawfulMonad (Action Waker) :=
  .mk' (Action Waker)
    (fun action ↦ by
      ext scene
      change (action.run scene).andThen _ = _
      cases action.run scene <;> rfl)
    (fun value next ↦ by ext scene; simp)
    (fun action next last ↦ by
      ext scene
      simp only [run_bind]
      cases action.run scene <;> simp)

/-! ## Primitives -/

def table : Action Waker (Table Waker) := ⟨fun scene ↦ .done scene.table scene⟩

def update (change : Table Waker → Table Waker) : Action Waker Unit :=
  ⟨fun scene ↦ .done () { scene with table := change scene.table }⟩

def emit (effect : Effect Waker) : Action Waker Unit :=
  ⟨fun scene ↦ .done () { scene with effects := scene.effects ++ [effect] }⟩

def fail (failure : Failure) : Action Waker α := ⟨.failed failure⟩

def refuse (cause : Errno) : Action Waker α := fail (.refused cause)

def fault (cause : Fault) : Action Waker α := fail (.fault cause)

/-- Turns a refusal into a value. A fault stays a failure. -/
def attempt (action : Action Waker α) : Action Waker (Except Errno α) :=
  ⟨fun scene ↦
    match action.run scene with
    | .done value scene => .done (.ok value) scene
    | .failed (.refused cause) scene => .done (.error cause) scene
    | .failed (.fault cause) scene => .failed (.fault cause) scene⟩

/-- Does something more if an action fails, and then fails the same way. -/
def onFailure (action : Action Waker α) (remedy : Action Waker Unit) : Action Waker α :=
  ⟨fun scene ↦
    match action.run scene with
    | .done value scene => .done value scene
    | .failed failure scene => (remedy.run scene).andThen fun _ ↦ fail failure⟩

@[simp] theorem run_table (scene : Scene Waker) :
    table.run scene = .done scene.table scene := (rfl)

@[simp] theorem run_update (change : Table Waker → Table Waker) (scene : Scene Waker) :
    (update change).run scene = .done () { scene with table := change scene.table } := (rfl)

@[simp] theorem run_emit (effect : Effect Waker) (scene : Scene Waker) :
    (emit effect).run scene =
      .done () { scene with effects := scene.effects ++ [effect] } := (rfl)

@[simp] theorem run_fail (failure : Failure) (scene : Scene Waker) :
    (fail failure : Action Waker α).run scene = .failed failure scene := (rfl)

@[simp] theorem run_refuse (cause : Errno) (scene : Scene Waker) :
    (refuse cause : Action Waker α).run scene = .failed (.refused cause) scene := (rfl)

@[simp] theorem run_fault (cause : Fault) (scene : Scene Waker) :
    (fault cause : Action Waker α).run scene = .failed (.fault cause) scene := (rfl)

/-! ## Effects -/

def note (notice : Notice) : Action Waker Unit := emit (.note notice)

def noteAll (notices : List Notice) : Action Waker Unit := notices.forM note

def wake (waker : Waker) : Action Waker Unit := do
  emit (.wake waker (← table).size)

def discard (waker : Waker) : Action Waker Unit := emit (.discard waker)

/-- Loses wakers that are in hand if an action fails. -/
def holding (wakers : List Waker) (action : Action Waker α) : Action Waker α :=
  action.onFailure (wakers.forM discard)

@[simp] theorem run_note (notice : Notice) (scene : Scene Waker) :
    (note notice).run scene =
      .done () { scene with effects := scene.effects ++ [.note notice] } := (rfl)

@[simp] theorem run_wake (waker : Waker) (scene : Scene Waker) :
    (wake waker).run scene =
      .done () { scene with effects := scene.effects ++ [.wake waker scene.table.size] } := (rfl)

@[simp] theorem run_discard (waker : Waker) (scene : Scene Waker) :
    (discard waker).run scene =
      .done () { scene with effects := scene.effects ++ [.discard waker] } := (rfl)

/-- What is noted, woken or discarded one after the other adds up in the same order. -/
theorem run_forM_emit {Item : Type} (items : List Item) (action : Item → Action Waker Unit)
    (effect : Item → Effect Waker) (table : Table Waker)
    (emits : ∀ item effects,
      (action item).run ⟨table, effects⟩ = .done () ⟨table, effects ++ [effect item]⟩)
    (effects : List (Effect Waker)) :
    (forM items action).run ⟨table, effects⟩ =
      .done () ⟨table, effects ++ items.map effect⟩ := by
  induction items generalizing effects with
  | nil => simp
  | cons item items induction => simp [emits, induction]

@[simp] theorem run_noteAll (notices : List Notice) (scene : Scene Waker) :
    (noteAll notices).run scene =
      .done () { scene with effects := scene.effects ++ notices.map .note } :=
  run_forM_emit notices note .note scene.table (fun _ _ ↦ rfl) scene.effects

@[simp] theorem run_forM_wake (wakers : List Waker) (scene : Scene Waker) :
    (forM wakers wake).run scene =
      .done ()
        { scene with
          effects := scene.effects ++ wakers.map (.wake · scene.table.size) } :=
  run_forM_emit wakers wake (.wake · scene.table.size) scene.table (fun _ _ ↦ rfl) scene.effects

@[simp] theorem run_forM_discard (wakers : List Waker) (scene : Scene Waker) :
    (forM wakers discard).run scene =
      .done () { scene with effects := scene.effects ++ wakers.map .discard } :=
  run_forM_emit wakers discard .discard scene.table (fun _ _ ↦ rfl) scene.effects

/-! ## Parts of several table operations -/

/-- The record of a process that another record links to. -/
def linkedRecord (pid : Pid) : Action Waker (Record Waker) := do
  match (← table).record? pid with
  | some record => return record
  | none =>
    note (.recordMissing pid)
    fault (.missingRecord pid)

/-- Adds a child to the set of a process that must have a record. -/
def addChild (parent child : Pid) : Action Waker Unit := do
  let record ← linkedRecord parent
  update (·.put { record with children := record.children.insert child })

/-- Counts one running process less. -/
def countEnded : Action Waker Unit := do
  match (← table).running with
  | 0 => fault .countBelowZero
  | running + 1 => update ({ · with running })

/-- Gives an id back to the pool. -/
def releasePid (pid : Pid) : Action Waker Unit := do
  match (← table).pids.release pid with
  | .ok pids => update ({ · with pids })
  | .error cause => fault cause

end Action

end Lifecycle
