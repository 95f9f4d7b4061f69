import Lifecycle.Proofs.Kernel.Loads
import Lifecycle.Proofs.Kernel.Users

/-!
# Loads that fail

While a process is being loaded, others may start children, wait and end. As long as all of them
were admitted, the process that is being loaded is left alone, and if its load fails it can be
withdrawn without a trace. The exception is a new root: it is the heir of those who lose their
parent, and once it has children it cannot be withdrawn any more.
-/

namespace Lifecycle.Kernel

variable {Waker : Type} {past earlier later meanwhile : List (Step Waker)}
  {kernel : Kernel Waker} {begun step : Step Waker} {load : Load} {child parent : Pid}

/-! ## How a process comes to its parent -/

/-- A process after a demand has the parent it had before, or it was started by that parent, or it
was handed on to the root. -/
inductive Parentage (before : Table Waker) (demand : Demand Waker) (child parent : Pid) : Prop where
  | kept (hparent : before.parentOf? child = some parent)
  | started (hdemand : demand = .start (some parent))
  | handedOn {former : Pid} {status : ExitStatus} (hdemand : demand = .finish former status)
      (hformer : before.parentOf? child = some former)
      (hheir : before.heirOf former = some parent)

section Change

variable {demand : Demand Waker} {after : Table Waker} {loads : List Load}
  {audible : List (Effect Waker)} {answer : Answer}
  (change : kernel.Change demand after loads audible answer) (sound : kernel.table.Sound)

include change sound

theorem Change.parentage (hparent : after.parentOf? child = some parent) :
    Parentage kernel.table demand child parent := by
  cases change with
  | unchanged | admitted | gone => exact .kept hparent
  | inserted hinserted =>
    rw [hinserted.parentOf?_eq] at hparent
    split at hparent
    · exact .started (congrArg _ hparent)
    · exact .kept hparent
  | withdrawn _ hremoved => exact .kept (hremoved.parentOf?_of hparent)
  | ended hends =>
    cases hends with
    | left hended _ =>
      rw [hended.parentOf?_eq sound] at hparent
      split at hparent
      · next hformer => exact .handedOn rfl hformer hparent
      · exact .kept hparent
    | last _ _ => simp [Table.parentOf?] at hparent
  | cleared => simp [Table.parentOf?] at hparent
  | polled hattempts =>
    cases hattempts with
    | stranger | busy => exact .kept hparent
    | collected _ _ hremoved _ => exact .kept (hremoved.parentOf?_of hparent)
    | parked =>
      rw [Table.parentOf?_setClaim sound] at hparent
      exact .kept hparent
  | released =>
    rw [Table.parentOf?_setClaim sound] at hparent
    exact .kept hparent

/-- A process becomes the root only by being started as the root. -/
theorem Change.root_of {root : Pid} (hroot : after.root = some root)
    (hdemand : demand ≠ .start none) : kernel.table.root = some root := by
  obtain ⟨load, name, rfl, -, hinserted⟩ | hshrinks := change.inserted_or_shrinks sound
  · rw [hinserted.root_eq, if_neg fun h ↦ hdemand (congrArg _ h)] at hroot
    exact hroot
  · exact hshrinks.root_of hroot

end Change

/-! ## What admitted processes do -/

/-- What is demanded on behalf of an admitted process, or of none: no root is started, the table is
not cleared, and whoever starts a child or ends was admitted if it has a record. -/
def Demand.ByAdmitted (admitted : List Nat) (table : Table Waker) : Demand Waker → Prop
  | .start none | .clear => False
  | .start (some pid) | .finish pid _ => ∀ birth ∈ table.birthOf? pid, birth ∈ admitted
  | .nothing | .settle .. | .join .. | .leave _ => True

/-- A process is handed on to the root when its parent ends. -/
def Step.HandsOn (step : Step Waker) (child heir : Pid) : Prop :=
  ∃ former status, step.demand = .finish former status ∧
    step.before.table.parentOf? child = some former ∧ step.before.table.root = some heir

/-- A process that is being loaded while only admitted processes act: it is as it was when the load
began, but if it is a root it may have inherited children. -/
structure Sheltered (admitted : List Nat) (begun : Step Waker) (load : Load)
    (sofar : List (Step Waker)) (kernel : Kernel Waker) : Prop where
  held : Held load begun.before.table.births begun.before.loads kernel
  unadmitted : begun.before.table.births ∉ admitted
  parentless (hroot : kernel.table.root = some load.pid) : load.parent = none
  handedOn {child : Pid} (hparent : kernel.table.parentOf? child = some load.pid) :
    load.parent = none ∧ ∃ step ∈ sofar, step.HandsOn child load.pid

theorem Run.admitted_lt (hrun : Run (earlier ++ begun :: later) kernel) {birth : Nat}
    (hmem : birth ∈ admitted (earlier ++ [begun])) : birth < begun.before.table.births := by
  obtain ⟨step, hstep, hadmission⟩ := List.mem_filterMap.1 hmem
  have hpast : step ∈ earlier ++ begun :: later := by
    rw [List.append_cons]
    exact List.mem_append_left later hstep
  have hbirth : birth < step.before.table.births := by
    unfold Demand.admission? at hadmission
    split at hadmission
    · exact (hrun.of_mem hpast).1.birth_lt hadmission
    · cases hadmission
  obtain hearlier | hlast := List.mem_append.1 hstep
  · exact Nat.lt_of_lt_of_le hbirth (hrun.of_append.1.births_le hearlier)
  · rw [List.mem_singleton] at hlast
    exact hlast ▸ hbirth

theorem Sheltered.begin (hrun : Run (earlier ++ begun :: later) kernel)
    (hbegins : begun.after.loads = load :: begun.before.loads) :
    Sheltered (admitted (earlier ++ [begun])) begun load [] begun.after := by
  have sound := hrun.of_append.1.sound
  obtain ⟨name, hinserted⟩ := hrun.exists_inserted hbegins
  have habsent := Table.phaseOf?_eq_none_iff.2 hinserted.absent
  constructor
  case held => exact .begin hinserted hbegins
  case unadmitted => exact fun hmem ↦ Nat.lt_irrefl _ (hrun.admitted_lt hmem)
  case parentless =>
    intro hroot
    rw [hinserted.root_eq] at hroot
    split at hroot
    · next hnone => exact hnone
    · rw [(sound.root_running hroot).1] at habsent
      cases habsent
  case handedOn =>
    -- the new process has not had the time to become a parent
    intro child hparent
    rw [hinserted.parentOf?_eq] at hparent
    split at hparent
    · rw [Table.isRunning_iff_phaseOf?.1 (hinserted.parent_running hparent)] at habsent
      cases habsent
    · rw [sound.parent_running hparent] at habsent
      cases habsent

section Next

variable {admitted : List Nat} {sofar : List (Step Waker)}
  (sheltered : Sheltered admitted begun load sofar step.before)
  (change : step.before.Change step.demand step.after.table step.after.loads step.reply.audible
    step.reply.answer)
  (sound : step.before.table.Sound)
  (hstays : load :: begun.before.loads <:+ step.after.loads)
  (hmild : step.demand.ByAdmitted admitted step.before.table)

include sheltered

section

include change sound hstays

theorem Sheltered.unadmitted_next :
    begun.before.table.births ∉
      admitted ++ (step.demand.admission? step.before.table).toList := by
  rw [List.mem_append, not_or]
  refine ⟨sheltered.unadmitted, fun hmem ↦ ?_⟩
  rw [Option.mem_toList] at hmem
  cases hdemand : step.demand with
  | settle other outcome =>
    rw [hdemand] at hmem
    cases outcome with
    | ok entry =>
      have hpid := sound.birth_injective hmem sheltered.held.born
      exact sheltered.held.ne_of_settle change hstays hdemand hpid
    | error cause => cases hmem
  | _ =>
    rw [hdemand] at hmem
    cases hmem

end

include hmild

theorem Sheltered.not_ending (status : ExitStatus) :
    step.ending? ≠ some (begun.before.table.births, status) := by
  intro hending
  obtain ⟨pid, hdemand, -, hbirth⟩ := ending?_eq_some hending
  rw [hdemand] at hmild
  exact sheltered.unadmitted (hmild _ hbirth)

include change sound

theorem Sheltered.handedOn_next {child : Pid}
    (hparent : step.after.table.parentOf? child = some load.pid) :
    load.parent = none ∧ ∃ former ∈ sofar ++ [step], former.HandsOn child load.pid := by
  cases change.parentage sound hparent with
  | kept hbefore =>
    obtain ⟨hnone, former, hmem, hhands⟩ := sheltered.handedOn hbefore
    exact ⟨hnone, former, List.mem_append_left _ hmem, hhands⟩
  | started hdemand =>
    rw [hdemand] at hmild
    exact absurd (hmild _ sheltered.held.born) sheltered.unadmitted
  | handedOn hdemand hformer hheir =>
    rw [Table.heirOf, Option.filter_eq_some_iff] at hheir
    exact ⟨sheltered.parentless hheir.1, step, List.mem_concat_self, _, _, hdemand, hformer,
      hheir.1⟩

include hstays

theorem Sheltered.next (hstops : step.stops = false) :
    Sheltered (admitted ++ (step.demand.admission? step.before.table).toList) begun load
      (sofar ++ [step]) step.after := by
  constructor
  case held =>
    exact sheltered.held.next change hstays sound hstops (sheltered.not_ending hmild)
  case unadmitted => exact sheltered.unadmitted_next change sound hstays
  case parentless =>
    intro hroot
    refine sheltered.parentless (change.root_of sound hroot fun hdemand ↦ ?_)
    rw [hdemand] at hmild
    exact hmild
  case handedOn => exact fun hparent ↦ sheltered.handedOn_next change sound hmild hparent

end Next

/-- Admitted processes that are gone take nobody in. -/
theorem Change.vacant {admitted : List Nat} {demand : Demand Waker} {after : Table Waker}
    {loads : List Load} {audible : List (Effect Waker)} {answer : Answer}
    (change : kernel.Change demand after loads audible answer) (sound : kernel.table.Sound)
    (hvacant : ∀ pid, kernel.table.phaseOf? pid = none)
    (hmild : demand.ByAdmitted admitted kernel.table) (pid : Pid) : after.phaseOf? pid = none := by
  obtain ⟨load, name, rfl, -, hinserted⟩ | hshrinks := change.inserted_or_shrinks sound
  · cases hparent : load.parent with
    | none =>
      rw [hparent] at hmild
      exact hmild.elim
    | some holder =>
      have hrunning := Table.isRunning_iff_phaseOf?.1 (hinserted.parent_running hparent)
      rw [hvacant] at hrunning
      cases hrunning
  · by_contra hpresent
    exact hshrinks.present_of hpresent (hvacant pid)

theorem Run.sheltered_or_vacant (hrun : Run (earlier ++ begun :: meanwhile) kernel)
    (loading : Loading begun meanwhile load)
    (hmild : ∀ sofar step rest, meanwhile = sofar ++ step :: rest →
      step.demand.ByAdmitted (admitted (earlier ++ begun :: sofar)) step.before.table) :
    Sheltered (admitted (earlier ++ begun :: meanwhile)) begun load meanwhile kernel ∨
      ∀ pid, kernel.table.phaseOf? pid = none := by
  refine hrun.since
    (motive := fun sofar kernel ↦
      Sheltered (admitted (earlier ++ begun :: sofar)) begun load sofar kernel ∨
        ∀ pid, kernel.table.phaseOf? pid = none) (.inl (.begin hrun loading.begins)) ?_
  rintro sofar step rest rfl hbefore hsafe hsofar
  have change := step.change hbefore.sound hsafe
  have hstep := hmild sofar step rest rfl
  have hmem : step ∈ sofar ++ step :: rest := List.mem_append_cons_self
  obtain sheltered | hvacant := hsofar
  · cases hstops : step.stops with
    | true =>
      obtain ⟨last, hvacated⟩ := step.vacated_of_stops hbefore.sound hsafe hstops
      right
      rw [hvacated]
      simp [Table.phaseOf?]
    | false =>
      left
      rw [← List.cons_append, ← List.append_assoc, admitted_concat]
      exact sheltered.next change hbefore.sound (loading.stays hmem) hstep hstops
  · exact .inr (change.vacant hbefore.sound hvacant hstep)

/-! ## The end of a load that failed -/

section Failed

variable {rest : List Load} {cause : LoadFailure} {after : Table Waker}
  {audible : List (Effect Waker)} {answer : Answer}
  (change : kernel.Change (.settle load (.error cause)) after rest audible answer)

include change

theorem Change.childless_of_failed :
    (∀ child, ¬ kernel.table.HasChild load.pid child) ∧
      (kernel.table.phaseOf? load.pid = none ∨ kernel.table.running ≠ 0) := by
  cases change with
  | unchanged hvoid => cases hvoid
  | gone _ habsent =>
    refine ⟨?_, .inl habsent⟩
    rintro child ⟨record, hrecord, -⟩
    rw [Table.phaseOf?_of_record? hrecord] at habsent
    cases habsent
  | withdrawn _ hremoved hcount => exact ⟨hremoved.childless, .inr (by omega)⟩

/-- No record is changed but that of the process, which is gone. -/
theorem Change.views_of_failed (other : Pid) :
    after.phaseOf? other = (if other = load.pid then none else kernel.table.phaseOf? other) ∧
      after.birthOf? other = (if other = load.pid then none else kernel.table.birthOf? other) ∧
      after.parentOf? other = if other = load.pid then none else kernel.table.parentOf? other := by
  cases change with
  | unchanged hvoid => cases hvoid
  | gone _ habsent =>
    by_cases hself : other = load.pid
    · rw [Table.phaseOf?_eq_none_iff] at habsent
      simp [hself, Table.phaseOf?, Table.birthOf?, Table.parentOf?, habsent]
    · simp [hself]
  | withdrawn _ hremoved _ =>
    exact ⟨hremoved.phaseOf?_eq other, hremoved.birthOf?_eq other, hremoved.parentOf?_eq other⟩

end Failed

/-- A load that failed cannot be undone if the process got children, or if nobody is counted. -/
theorem faulted_finishLoad_iff {rest : List Load} (sound : kernel.table.Sound)
    (hloads : kernel.loads = load :: rest) (cause : LoadFailure) :
    (kernel.perform (.finishLoad (.error cause))).Faulted ↔
      (∃ child, kernel.table.HasChild load.pid child) ∨
        kernel.table.phaseOf? load.pid ≠ none ∧ kernel.table.running = 0 := by
  have hdemand : kernel.demand (.finishLoad (.error cause)) = .settle load (.error cause) := by
    simp only [demand, hloads]
  constructor
  · intro hfaulted
    obtain ⟨hsafe, -⟩ | ⟨-, hblunder⟩ := perform_spec sound (.finishLoad (.error cause))
    · exact absurd hfaulted hsafe
    rw [hdemand] at hblunder
    cases hblunder with
    | withdraw _ hpresent hbad =>
      by_cases hchild : ∃ child, kernel.table.HasChild load.pid child
      · exact .inl hchild
      · exact .inr ⟨hpresent, hbad (not_exists.1 hchild)⟩
  · intro hbad
    by_contra hsafe
    have change := change_of_safe sound hsafe
    rw [hdemand] at change
    obtain ⟨hchildless, hcounted⟩ := change.childless_of_failed
    obtain ⟨child, hchild⟩ | ⟨hpresent, hcount⟩ := hbad
    · exact hchildless child hchild
    · exact hcounted.elim hpresent (· hcount)

/-- What becomes of a load that fails in a step, if only admitted processes acted while it was in
progress. -/
structure Undone (past meanwhile : List (Step Waker)) (load : Load) (cause : LoadFailure)
    (step : Step Waker) : Prop where
  /-- The step stops on a fault if the process has children, or if the count fell short by as many
  as there are running processes. -/
  faulted_iff : step.reply.Faulted ↔
    (∃ child, step.before.table.HasChild load.pid child) ∨
      step.before.table.phaseOf? load.pid = some .running ∧
        step.before.table.runningPids.card = miscounted past
  /-- Only a new root has children by then, those of processes that ended while it was loaded. -/
  inherited {child : Pid} (hchild : step.before.table.HasChild load.pid child) :
    load.parent = none ∧ ∃ former ∈ meanwhile, former.HandsOn child load.pid
  answer_eq (hsafe : ¬ step.reply.Faulted) : step.reply.answer = load.answer (.error cause)
  absent (hsafe : ¬ step.reply.Faulted) : step.after.table.phaseOf? load.pid = none
  /-- No record names the process as its parent or among its children. -/
  unnamed (hsafe : ¬ step.reply.Faulted) (other : Pid) :
    step.after.table.parentOf? other ≠ some load.pid ∧
      ¬ step.after.table.HasChild other load.pid
  linked (hsafe : ¬ step.reply.Faulted) {child parent : Pid}
    (hparent : step.after.table.parentOf? child = some parent) :
    step.after.table.phaseOf? parent = some .running
  /-- All others are what they were. -/
  kept (hsafe : ¬ step.reply.Faulted) {other : Pid} (hother : other ≠ load.pid) :
    step.after.table.phaseOf? other = step.before.table.phaseOf? other ∧
      step.after.table.birthOf? other = step.before.table.birthOf? other ∧
      step.after.table.parentOf? other = step.before.table.parentOf? other

theorem Run.undone {cause : LoadFailure}
    (hrun : Run (earlier ++ begun :: meanwhile) step.before)
    (loading : Loading begun meanwhile load)
    (hmild : ∀ sofar next rest, meanwhile = sofar ++ next :: rest →
      next.demand.ByAdmitted (admitted (earlier ++ begun :: sofar)) next.before.table)
    (hdemand : step.demand = .settle load (.error cause)) :
    Undone (earlier ++ begun :: meanwhile) meanwhile load cause step := by
  obtain ⟨hcall, rest, hloads⟩ := call_of_settle hdemand
  have sound := hrun.sound
  have hadd := hrun.running_add
  have hstate := hrun.sheltered_or_vacant loading hmild
  have hchange (hsafe : ¬ step.reply.Faulted) :
      step.before.Change (.settle load (.error cause)) step.after.table step.after.loads
        step.reply.audible step.reply.answer :=
    hdemand ▸ step.change sound hsafe
  have hviews (hsafe : ¬ step.reply.Faulted) := (hchange hsafe).views_of_failed
  have hafter (hsafe : ¬ step.reply.Faulted) : step.after.table.Sound :=
    (hchange hsafe).sound sound
  have hgone (hsafe : ¬ step.reply.Faulted) : step.after.table.phaseOf? load.pid = none := by
    rw [(hviews hsafe load.pid).1, if_pos rfl]
  constructor
  case faulted_iff =>
    have hrunning : step.before.table.phaseOf? load.pid ≠ none ↔
        step.before.table.phaseOf? load.pid = some .running := by
      obtain sheltered | hvacant := hstate
      · simp [sheltered.held.running]
      · simp [hvacant]
    have hcount : step.before.table.running = 0 ↔
        step.before.table.runningPids.card = miscounted (earlier ++ begun :: meanwhile) := by
      omega
    rw [Step.reply, hcall, faulted_finishLoad_iff sound hloads, hrunning, hcount]
  case inherited =>
    intro child hchild
    have hparent := sound.hasChild_iff_parentOf?.1 hchild
    obtain sheltered | hvacant := hstate
    · exact sheltered.handedOn hparent
    · have hholder := sound.parent_running hparent
      rw [hvacant] at hholder
      cases hholder
  case answer_eq =>
    intro hsafe
    rw [Step.reply, hcall] at hsafe ⊢
    exact answer_finishLoad sound hloads hsafe
  case absent => exact hgone
  case unnamed =>
    intro hsafe other
    constructor
    · intro hparent
      have hholder := (hafter hsafe).parent_running hparent
      rw [hgone hsafe] at hholder
      cases hholder
    · intro hchild
      have hparent := (hafter hsafe).hasChild_iff_parentOf?.1 hchild
      rw [(hviews hsafe load.pid).2.2, if_pos rfl] at hparent
      cases hparent
  case linked => exact fun hsafe ↦ (hafter hsafe).parent_running
  case kept =>
    intro hsafe other hother
    have hother' := hviews hsafe other
    simpa only [if_neg hother] using hother'

/-- A root ends and leaves a child behind, which has a child, too. Then a new root is begun, and
while it is loaded the first child ends. -/
def foster : List (Call Nat) :=
  [.spawn none "init" .empty, .finishLoad (.ok ⟨0, 0, 0, 0, blank⟩),
    .spawn (some 1) "work" .empty, .finishLoad (.ok ⟨0, 0, 0, 0, blank⟩),
    .spawn (some 2) "work" .empty, .finishLoad (.ok ⟨0, 0, 0, 0, blank⟩),
    .terminate 1 (.exited 0), .spawn none "next" .empty, .terminate 2 (.exited 0)]

theorem undone_foster :
    let begun : Step Nat := ⟨initial.reach (foster.take 7), .spawn none "next" .empty⟩
    let next : Step Nat := ⟨initial.reach (foster.take 8), .terminate 2 (.exited 0)⟩
    let load : Load := ⟨4, none, "next", .empty, false⟩
    Undone (initial.steps (foster.take 7) ++ begun :: [next]) [next] load .badImage
      ⟨initial.reach foster, .finishLoad (.error .badImage)⟩ := by
  intro begun next load
  have hrun : Run (initial.steps (foster.take 7) ++ begun :: [next]) (initial.reach foster) :=
    run_of_calls foster (by decide +kernel)
  have hstays : ∀ step ∈ [next], load :: begun.before.loads <:+ step.after.loads := by
    decide +kernel
  have loading : Loading begun [next] load := ⟨by decide +kernel, @hstays⟩
  have hended : ∀ birth ∈ (initial.reach (foster.take 8)).table.birthOf? 2,
      birth ∈ admitted (initial.steps (foster.take 7) ++ [begun]) := by
    decide +kernel
  refine Run.undone hrun loading ?_ rfl
  intro sofar other rest hsplit
  cases sofar with
  | nil =>
    cases hsplit
    exact hended
  | cons first sofar => simp at hsplit

/-- The first child had been admitted. Its own child goes to the new root, which cannot be withdrawn
any more when its load fails. -/
theorem faulted_foster :
    Run (initial.steps foster) (initial.reach foster) ∧
      admitted (initial.steps foster) = [0, 1, 2] ∧
      (initial.reach (foster.take 8)).table.birthOf? 2 = some 1 ∧
      (initial.reach foster).loads = [⟨4, none, "next", .empty, false⟩] ∧
      ((initial.reach foster).perform (.finishLoad (.error .badImage))).answer =
        .faulted .childrenRemain := by
  have hrun : Run (initial.steps foster) (initial.reach foster) :=
    run_of_calls foster (by decide +kernel)
  exact ⟨hrun, by decide +kernel, by decide +kernel, by decide +kernel, rfl⟩

end Lifecycle.Kernel
