import Lifecycle.Proofs.Kernel.Seclusion
import Lifecycle.Proofs.Table.Restoration

/-!
# Loaders that answer at once

A loader that makes no calls is a function of the path and the arguments. A call that asks it for
an image goes on with the end of the load, so that it has an answer of its own: the new process is
admitted, or nothing is left of it but the use of an id.
-/

namespace Lifecycle.Kernel

variable {Waker : Type}

/-- What comes of a path and arguments that are to be loaded. -/
abbrev Loader := String → ArgumentVector → Except LoadFailure Entry

/-- A call and, if it asks for an image, the end of the load at once. -/
def attend (kernel : Kernel Waker) (loader : Loader) (call : Call Waker) : Reply Waker :=
  let begun := kernel.perform call
  match begun.answer with
  | .loading path arguments =>
    let ended := begun.kernel.finishLoad (loader path arguments)
    ⟨ended.kernel, begun.effects ++ ended.effects, ended.answer⟩
  | _ => begun

/-- What a call asks the loader for. -/
def asked? (kernel : Kernel Waker) (call : Call Waker) : Option (String × ArgumentVector) :=
  match (kernel.perform call).answer with
  | .loading path arguments => some (path, arguments)
  | _ => none

variable {kernel acting : Kernel Waker} {call : Call Waker} {loader : Loader} {path : String}
  {arguments : ArgumentVector} {parent : Option Pid} {load : Load}
  {before middle after : Table Waker}

theorem attend_of_asked (hasked : kernel.asked? call = some (path, arguments)) :
    kernel.attend loader call =
      ⟨((kernel.perform call).kernel.finishLoad (loader path arguments)).kernel,
        (kernel.perform call).effects ++
          ((kernel.perform call).kernel.finishLoad (loader path arguments)).effects,
        ((kernel.perform call).kernel.finishLoad (loader path arguments)).answer⟩ := by
  unfold asked? at hasked
  unfold attend
  split at hasked
  · next hanswer =>
    cases hasked
    simp only [hanswer]
  · cases hasked

theorem attend_of_unasked (hunasked : kernel.asked? call = none) :
    kernel.attend loader call = kernel.perform call := by
  unfold asked? at hunasked
  unfold attend
  split at hunasked
  · cases hunasked
  · simp only

/-- What comes of a load that ends as soon as the process is taken in. -/
inductive Concluded (before middle : Table Waker) (load : Load) :
    Except LoadFailure Entry → Table Waker → List (Effect Waker) → Prop where
  | admitted (entry : Entry) : Concluded before middle load (.ok entry) middle
      [.admitted load.pid load.path entry middle.size]
  | undone (cause : LoadFailure) {after : Table Waker} (restored : before.Restored after) :
      Concluded before middle load (.error cause) after []

theorem endLoad_concluded (sound : before.Sound)
    (inserted : before.Inserted middle load.parent load.path load.pid)
    (outcome : Except LoadFailure Entry) :
    ∃ after audible, Concluded before middle load outcome after audible ∧
      (endLoad load outcome).Yields middle (load.result outcome) after audible := by
  cases outcome with
  | ok entry => exact ⟨middle, _, .admitted entry, endLoad_ok middle load entry⟩
  | error cause =>
    have hcount : middle.running ≠ 0 := inserted.running_eq ▸ Nat.succ_ne_zero _
    obtain ⟨after, audible, settled, hyields⟩ | ⟨hblunder, -⟩ :=
      endLoad_error (inserted.sound sound) load cause
    · cases settled with
      | gone _ habsent =>
        rw [inserted.phaseOf?_eq, if_pos rfl] at habsent
        cases habsent
      | withdrawn _ hremoved hlost =>
        rw [inserted.wakerOf?_eq, if_pos rfl] at hyields
        exact ⟨after, [], .undone cause (inserted.restored sound hremoved hlost), hyields⟩
    · cases hblunder with
      | withdraw _ _ hbad => exact absurd (hbad inserted.childless) hcount

/-- The innermost load ends, and the table is the only other thing that changes. -/
theorem finishLoad_yields {outcome : Except LoadFailure Entry} {audible : List (Effect Waker)}
    (hloads : kernel.loads = load :: acting.loads)
    (hacting : { kernel with loads := acting.loads } = acting)
    (hyields : (endLoad load outcome).Yields acting.table (load.result outcome) after audible) :
    ∃ effects, effects.filter Effect.isAudible = audible ∧
      kernel.finishLoad outcome =
        ⟨{ acting with table := after }, effects, load.answer outcome⟩ := by
  simp only [finishLoad, hloads, hacting, Load.answer]
  split
  · exact act_of_ok _ _ (answerExec_yields hyields)
  cases hresult : load.result outcome with
  | ok pid => exact act_of_ok _ _ (hresult ▸ hyields)
  | error cause => exact act_of_error _ _ (hresult ▸ hyields)

/-- A call that takes a process in leads on to the end of its load. -/
theorem attend_of_begun (sound : acting.table.Sound)
    (inserted : acting.table.Inserted middle load.parent load.path load.pid)
    {effects : List (Effect Waker)} (hsilent : effects.filter Effect.isAudible = [])
    (hbegun : kernel.perform call =
      ⟨{ acting with table := middle, loads := load :: acting.loads }, effects,
        .loading load.path load.arguments⟩) (loader : Loader) :
    kernel.asked? call = some (load.path, load.arguments) ∧
      ∃ after, Concluded acting.table middle load (loader load.path load.arguments) after
          (kernel.attend loader call).audible ∧
        (kernel.attend loader call).kernel = { acting with table := after } ∧
        (kernel.attend loader call).answer = load.answer (loader load.path load.arguments) := by
  have hasked : kernel.asked? call = some (load.path, load.arguments) := by rw [asked?, hbegun]
  obtain ⟨after, audible, concluded, hyields⟩ :=
    endLoad_concluded sound inserted (loader load.path load.arguments)
  let loading : Kernel Waker := { acting with table := middle, loads := load :: acting.loads }
  obtain ⟨late, rfl, hended⟩ : ∃ late, late.filter Effect.isAudible = audible ∧
      loading.finishLoad (loader load.path load.arguments) =
        ⟨{ acting with table := after }, late, load.answer (loader load.path load.arguments)⟩ :=
    @finishLoad_yields _ loading { acting with table := middle } _ _ _ _ rfl rfl hyields
  have hattend : kernel.attend loader call = ⟨{ acting with table := after }, effects ++ late,
      load.answer (loader load.path load.arguments)⟩ := by
    rw [attend_of_asked hasked, hbegun, hended]
  rw [hattend, Reply.audible, List.filter_append, hsilent]
  exact ⟨hasked, after, concluded, rfl, rfl⟩

/-! ## Spawns -/

/-- What is left of a spawn that is refused. -/
structure Spurned (kernel : Kernel Waker) (loader : Loader) (parent : Option Pid) (path : String)
    (arguments : ArgumentVector) (cause : Errno) : Prop where
  records_eq : (kernel.attend loader (.spawn parent path arguments)).kernel.table.records =
    kernel.table.records
  root_eq : (kernel.attend loader (.spawn parent path arguments)).kernel.table.root =
    kernel.table.root
  running_eq : (kernel.attend loader (.spawn parent path arguments)).kernel.table.running =
    kernel.table.running
  requests_eq : (kernel.attend loader (.spawn parent path arguments)).kernel.requests =
    kernel.requests
  loads_eq : (kernel.attend loader (.spawn parent path arguments)).kernel.loads = kernel.loads
  /-- Nothing is admitted, and nobody is woken. -/
  silent : (kernel.attend loader (.spawn parent path arguments)).audible = []
  /-- A refusal before the load changes nothing at all. -/
  early (hearly : kernel.asked? (.spawn parent path arguments) = none) :
    Rejects kernel.table parent path cause ∧
      (kernel.attend loader (.spawn parent path arguments)).kernel = kernel
  /-- A refusal by the loader uses an id, unless all have been in use before. -/
  late {asked : String × ArgumentVector}
    (hlate : kernel.asked? (.spawn parent path arguments) = some asked) :
    asked = (path, arguments) ∧
      (∃ failure, loader path arguments = .error failure ∧ cause = failure.toErrno) ∧
      kernel.table.pids.Recycled
        (kernel.attend loader (.spawn parent path arguments)).kernel.table.pids

structure SpawnKept (kernel : Kernel Waker) (loader : Loader) (parent : Option Pid) (path : String)
    (arguments : ArgumentVector) : Prop where
  answered :
    (∃ pid, (kernel.attend loader (.spawn parent path arguments)).answer = .spawned pid) ∨
    ∃ cause, (kernel.attend loader (.spawn parent path arguments)).answer = .refused cause
  spurned {cause : Errno}
    (hrefused : (kernel.attend loader (.spawn parent path arguments)).answer = .refused cause) :
    Spurned kernel loader parent path arguments cause

theorem spawnKept_of_rejects {cause : Errno} (hrejects : Rejects kernel.table parent path cause)
    (loader : Loader) (arguments : ArgumentVector) :
    SpawnKept kernel loader parent path arguments := by
  obtain ⟨effects, hsilent, hperform⟩ : ∃ effects, effects.filter Effect.isAudible = [] ∧
      kernel.perform (.spawn parent path arguments) = ⟨kernel, effects, .refused cause⟩ :=
    act_of_error pushLoad id (beginLoad_rejects hrejects arguments false)
  have hasked : kernel.asked? (.spawn parent path arguments) = none := by rw [asked?, hperform]
  have hattend : kernel.attend loader (.spawn parent path arguments) =
      ⟨kernel, effects, .refused cause⟩ := by rw [attend_of_unasked hasked, hperform]
  refine ⟨.inr ⟨cause, by rw [hattend]⟩, fun hrefused ↦ ?_⟩
  rw [hattend] at hrefused
  cases hrefused
  constructor
  case records_eq | root_eq | running_eq | requests_eq | loads_eq => rw [hattend]
  case silent =>
    rw [hattend]
    exact hsilent
  case early => exact fun _ ↦ ⟨hrejects, by rw [hattend]⟩
  case late =>
    intro asked hlate
    rw [hasked] at hlate
    cases hlate

theorem spawnKept_of_inserted {pid : Pid} (sound : kernel.table.Sound) (hnamed : path ≠ "")
    (inserted : kernel.table.Inserted middle parent path pid)
    (hyields : (Table.insert parent path).Yields kernel.table (.ok pid) middle [])
    (loader : Loader) (arguments : ArgumentVector) :
    SpawnKept kernel loader parent path arguments := by
  let load : Load := ⟨pid, parent, path, arguments, false⟩
  obtain ⟨effects, hsilent, hbegun⟩ : ∃ effects, effects.filter Effect.isAudible = [] ∧
      kernel.perform (.spawn parent path arguments) =
        ⟨{ kernel with table := middle, loads := load :: kernel.loads }, effects,
          .loading path arguments⟩ :=
    act_of_ok pushLoad id (beginLoad_inserts hnamed hyields arguments false)
  obtain ⟨hasked, after, concluded, hkernel, hanswer⟩ :=
    attend_of_begun sound inserted hsilent hbegun loader
  generalize houtcome : loader path arguments = outcome at concluded hanswer
  generalize haudible : (kernel.attend loader (.spawn parent path arguments)).audible = audible at *
  cases concluded with
  | admitted entry =>
    refine ⟨.inl ⟨pid, hanswer⟩, fun hrefused ↦ ?_⟩
    rw [hanswer] at hrefused
    cases hrefused
  | undone failure restored =>
    refine ⟨.inr ⟨failure.toErrno, hanswer⟩, fun hrefused ↦ ?_⟩
    rw [hanswer] at hrefused
    cases hrefused
    constructor
    case records_eq => exact hkernel ▸ restored.records_eq
    case root_eq => exact hkernel ▸ restored.root_eq
    case running_eq => exact hkernel ▸ restored.running_eq
    case requests_eq | loads_eq => rw [hkernel]
    case silent => exact haudible
    case early =>
      intro hearly
      rw [hasked] at hearly
      cases hearly
    case late =>
      intro asked hlate
      rw [hasked] at hlate
      cases hlate
      exact ⟨rfl, ⟨failure, houtcome, rfl⟩, hkernel ▸ restored.recycled⟩

/-- If loaders make no calls, a spawn that is refused leaves no trace after any calls. -/
theorem Secluded.spawnKept {calls : List (Call Waker)} (secluded : Secluded (initial.steps calls))
    (loader : Loader) (parent : Option Pid) (path : String) (arguments : ArgumentVector) :
    SpawnKept (initial.reach calls) loader parent path arguments := by
  obtain ⟨past, hrun, -⟩ := exists_run_of_secluded calls secluded
  obtain ⟨cause, hrejects⟩ | ⟨hnamed, pid, middle, inserted, hyields⟩ :=
    rejects_or_inserts hrun.sound parent path
  · exact spawnKept_of_rejects hrejects loader arguments
  · exact spawnKept_of_inserted hrun.sound hnamed inserted hyields loader arguments

/-- A child has exited, and one that its parent waits for runs. -/
def siblings : List (Call Nat) :=
  [.spawn none "init" .empty, .finishLoad (.ok ⟨0, 0, 0, 0, blank⟩),
    .spawn (some 1) "work" .empty, .finishLoad (.ok ⟨0, 0, 0, 0, blank⟩),
    .spawn (some 1) "done" .empty, .finishLoad (.ok ⟨0, 0, 0, 0, blank⟩),
    .openJoin 1 2, .poll 0 7 blank, .terminate 3 (.exited 5)]

/-- No image can be loaded. -/
def noImages : Loader := fun _ _ ↦ .error .badImage

theorem spawnKept_siblings :
    ((initial.reach siblings).asked? (.spawn (some 1) "late" .empty)).isSome ∧
      SpawnKept (initial.reach siblings) noImages (some 1) "late" .empty := by
  have secluded : Secluded (initial.steps siblings) := by decide +kernel
  exact ⟨by decide +kernel, secluded.spawnKept noImages (some 1) "late" .empty⟩

end Lifecycle.Kernel
