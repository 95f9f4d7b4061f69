import Lifecycle.Proofs.Kernel.Binding
import Lifecycle.Proofs.Kernel.Reissue

/-!
# Whom a later poll is about

A wait names its target and its caller by their ids. Once one of the two processes is gone a later
poll is refused, even if the caller's id has gone to somebody else, because the target is in other
hands by then. Only if the target's id is handed out again, and the new process comes to be a child
under the caller's id, does the wait go on as if nothing had happened.
-/

namespace Lifecycle

variable {Waker : Type}

theorem Table.Removed.root_stays {before after : Table Waker} {gone root : Pid}
    (removed : before.Removed after gone) (hroot : before.root = some root)
    (hrunning : after.phaseOf? root = some .running) : after.root = some root := by
  have hne : root ≠ gone := by
    rintro rfl
    rw [removed.phaseOf?_eq, if_pos rfl] at hrunning
    cases hrunning
  simp [removed.root_eq, hroot, hne]

namespace Kernel

variable {past earlier later : List (Step Waker)} {kernel : Kernel Waker} {first step : Step Waker}
  {wait : Wait} {waker : Waker}

section Change

variable {demand : Demand Waker} {after : Table Waker} {loads : List Load}
  {audible : List (Effect Waker)} {answer : Answer}
  (change : kernel.Change demand after loads audible answer) (sound : kernel.table.Sound)

include change sound

/-- A root that runs on stays the root. -/
theorem Change.root_stays {root : Pid} (hroot : kernel.table.root = some root)
    (hrunning : after.phaseOf? root = some .running) : after.root = some root := by
  cases change with
  | unchanged | admitted | gone => exact hroot
  | inserted hinserted =>
    rw [hinserted.root_eq]
    split
    · next hnone =>
      rw [hinserted.rootless hnone] at hroot
      cases hroot
    · exact hroot
  | withdrawn _ hremoved => exact hremoved.root_stays hroot hrunning
  | ended hends =>
    cases hends with
    | left hended _ =>
      rw [hended.root_eq, Table.heirOf, Option.filter_eq_some_iff]
      refine ⟨hroot, decide_eq_true ?_⟩
      rintro rfl
      rw [hended.phaseOf?_eq sound, if_pos rfl] at hrunning
      split at hrunning <;> cases hrunning
    | last _ _ => simp [Table.phaseOf?] at hrunning
  | cleared => simp [Table.phaseOf?] at hrunning
  | polled hattempts =>
    cases hattempts with
    | stranger | busy => exact hroot
    | collected _ _ hremoved _ => exact hremoved.root_stays hroot hrunning
    | parked => rw [Table.root_setClaim, hroot]
  | released => rw [Table.root_setClaim, hroot]

/-- Who was there before keeps its parent unless the parent ends. -/
theorem Change.parentage_of_old {child parent : Pid} {birth : Nat}
    (hborn : kernel.table.birthOf? child = some birth)
    (hparent : after.parentOf? child = some parent) :
    kernel.table.parentOf? child = some parent ∨
      ∃ former, kernel.table.parentOf? child = some former ∧
        kernel.table.heirOf former = some parent := by
  cases change.parentage sound hparent with
  | kept hbefore => exact .inl hbefore
  | handedOn _ hformer hheir => exact .inr ⟨_, hformer, hheir⟩
  | started hdemand =>
    left
    cases change with
    | unchanged => exact hparent
    | inserted hinserted =>
      rw [hinserted.parentOf?_eq, if_neg (hinserted.ne_of_born hborn)] at hparent
      exact hparent
    | admitted | gone | withdrawn | ended | cleared | polled | released => cases hdemand

end Change

namespace Parking

/-! ## Parted waits -/

/-- Target and caller are the processes that the wait was parked with, and the caller runs. -/
structure Stands (parking : Parking first) (table : Table Waker) : Prop where
  target_born : table.birthOf? parking.target = some parking.targetBirth
  caller_born : table.birthOf? parking.caller = some parking.callerBirth
  caller_running : table.phaseOf? parking.caller = some .running

/-- The target is gone, or it is in other hands: the caller does not run any more, and if the target
has a parent it is the root, under another id than the caller's. -/
structure Parted (parking : Parking first) (table : Table Waker) : Prop where
  not_stands : ¬ parking.Stands table
  handedOn {parent : Pid} (hborn : table.birthOf? parking.target = some parking.targetBirth)
    (hparent : table.parentOf? parking.target = some parent) :
    table.root = some parent ∧ parent ≠ parking.caller

/-- Nobody but the target that the wait was parked with has its id. -/
def IdKept (parking : Parking first) (table : Table Waker) : Prop :=
  ∀ ⦃birth⦄, table.birthOf? parking.target = some birth → birth = parking.targetBirth

variable {parking : Parking first}

theorem Bound.stands {table : Table Waker} (bound : parking.Bound table) (sound : table.Sound) :
    parking.Stands table :=
  ⟨bound.target_born, bound.caller_born, bound.caller_running sound⟩

theorem Parted.of_absent {table : Table Waker}
    (habsent : table.birthOf? parking.target ≠ some parking.targetBirth) : parking.Parted table :=
  ⟨fun stands ↦ habsent stands.target_born, fun hborn ↦ absurd hborn habsent⟩

theorem Parted.of_removed {before after : Table Waker}
    (removed : before.Removed after parking.target) : parking.Parted after := by
  apply Parted.of_absent
  rw [removed.birthOf?_eq, if_pos rfl]
  exact (Option.some_ne_none _).symm

section Next

variable (hrun : Run past step.before) (hsafe : ¬ step.reply.Faulted)

include hrun hsafe

/-- When the caller ends the target goes to the root. -/
theorem Parted.of_callerEnded {status : ExitStatus} (bound : parking.Bound step.before.table)
    (hdemand : step.demand = .finish parking.caller status) : parking.Parted step.after.table := by
  have sound := hrun.sound
  have hrunning := bound.caller_running sound
  have change := step.change sound hsafe
  rw [hdemand] at change
  have hstopped := change.stopped sound hrunning
  refine ⟨fun stands ↦ hstopped stands.caller_running, ?_⟩
  intro parent hborn hparent
  have hends := change.ends_of_running hrunning
  generalize step.after.table = after at hends hborn hparent ⊢
  generalize step.reply.audible = audible at hends
  cases hends with
  | left hended _ =>
    rw [hended.parentOf?_eq sound, if_pos bound.parent_eq] at hparent
    refine ⟨hended.root_eq.trans hparent, ?_⟩
    rintro rfl
    exact Table.heirOf_ne _ _ hparent
  | last _ _ => simp [Table.birthOf?] at hborn

/-- Whatever parts a wait from its processes leaves it parted, unless it drops the request. -/
theorem Severed.parted (severed : parking.Severed step) (bound : parking.Bound step.before.table)
    (hkept : step.call ≠ .abandon parking.request) : parking.Parted step.after.table := by
  cases severed with
  | cleared _ hstops | last _ _ hstops =>
    obtain ⟨last, hvacated⟩ := step.vacated_of_stops hrun.sound hsafe hstops
    apply Parted.of_absent
    simp [hvacated, Table.birthOf?]
  | callerEnded hdemand => exact .of_callerEnded hrun hsafe bound hdemand
  | withdrawn hdemand hpid =>
    have change := step.change hrun.sound hsafe
    rw [hdemand] at change
    apply Parted.of_absent
    rw [(change.views_of_failed parking.target).2.1, if_pos hpid.symm]
    exact (Option.some_ne_none _).symm
  | collected hdemand htoken hexited =>
    exact .of_removed (bound.poll_exited hrun hdemand htoken hexited).2.2
  | dropped hcall => exact absurd hcall hkept

/-- Target and caller do not find together again. -/
theorem Parted.next (parted : parking.Parted step.before.table)
    (htarget : parking.targetBirth < step.before.table.births)
    (hcaller : parking.callerBirth < step.before.table.births) :
    parking.Parted step.after.table := by
  have sound := hrun.sound
  have change := step.change sound hsafe
  have hafter := change.sound sound
  constructor
  case not_stands =>
    rintro ⟨htargetBorn, hcallerBorn, hrunning⟩
    exact parted.not_stands ⟨change.birthOf?_of_old sound htarget htargetBorn,
      change.birthOf?_of_old sound hcaller hcallerBorn,
      change.running_of_old sound hcaller hcallerBorn hrunning⟩
  case handedOn =>
    intro parent hborn hparent
    have hbefore := change.birthOf?_of_old sound htarget hborn
    obtain hkept | ⟨former, hformer, hheir⟩ := change.parentage_of_old sound hbefore hparent
    · obtain ⟨hroot, hother⟩ := parted.handedOn hbefore hkept
      exact ⟨change.root_stays sound hroot (hafter.parent_running hparent), hother⟩
    · -- the parent was the root, so it has no heir
      have hroot := (parted.handedOn hbefore hformer).1
      rw [Table.heirOf, hroot, Option.filter_some, if_neg (by simp)] at hheir
      cases hheir

end Next

/-- A wait is bound to its processes, or it is parted from them, or its request is gone. -/
theorem bound_or_parted (parking : Parking first)
    (hrun : Run (earlier ++ first :: later) kernel) :
    parking.Bound kernel.table ∨ parking.Parted kernel.table ∨
      kernel.requests[parking.request]? = none := by
  refine hrun.since
    (motive := fun _ kernel ↦ parking.Bound kernel.table ∨ parking.Parted kernel.table ∨
      kernel.requests[parking.request]? = none) ?_ ?_
  · obtain ⟨hbefore, hsafe⟩ := hrun.of_append
    exact .inl (parking.bound hbefore hsafe)
  · rintro sofar step rest - hbefore hsafe (bound | parted | hgone)
    · obtain hstill | severed := bound.next hbefore hsafe
      · exact .inl hstill
      · by_cases hdropped : step.call = .abandon parking.request
        · right; right
          rw [Step.after, Step.reply, hdropped]
          exact requests_abandon step.before parking.request
        · exact .inr (.inl (severed.parted hbefore hsafe bound hdropped))
    · have hfirst := hrun.of_append
      have sound := (first.change hfirst.1.sound hfirst.2).sound hfirst.1.sound
      have hbirths := hbefore.births_le_since
      have htarget := sound.birth_lt parking.target_born
      have hcaller := sound.birth_lt parking.caller_born
      exact .inr (.inl (parted.next hbefore hsafe (Nat.lt_of_lt_of_le htarget hbirths)
        (Nat.lt_of_lt_of_le hcaller hbirths)))
    · exact .inr (.inr (requests_of_gone (parking.lasting hbefore).opened hgone))

/-! ## Later polls -/

/-- What a later poll of a request comes to that a poll has parked. -/
structure PollKept (parking : Parking first) (later : List (Step Waker)) (step : Step Waker) :
    Prop where
  /-- The poll makes an attempt; it never stops on a fault. -/
  attempted : ∃ outcome, step.Attempted outcome
  /-- It is refused if the process under the target's id is no child under the caller's id. -/
  stranger_iff : step.Attempted (some (.error .ECHILD)) ↔
    step.before.table.parentOf? parking.target ≠ some parking.caller
  /-- Unless somebody else has the target's id, it is refused if target or caller is gone. -/
  refused_iff (hown : parking.IdKept step.before.table) :
    step.Attempted (some (.error .ECHILD)) ↔ ¬ parking.Stands step.before.table
  /-- If both are there, it keeps the target's slot or hands the target's own status out. -/
  faithful (hstands : parking.Stands step.before.table) :
    (step.Attempted none ∧ step.before.table.phaseOf? parking.target = some .running ∧
      step.after.table.IsHeld parking.target parking.request) ∨
    ∃ status, step.Attempted (some (.ok status)) ∧
      step.before.table.phaseOf? parking.target = some (.exited status) ∧
      step.delivery? = some (parking.targetBirth, status)
  /-- Somebody else has the target's id only if it was handed out again, after the machine had
  stopped or when no fresh ids were left. -/
  reissued {birth : Nat} (hbirth : step.before.table.birthOf? parking.target = some birth)
    (hother : birth ≠ parking.targetBirth) : Reissued later parking.target birth

section Poll

variable (parking : Parking first) (hrun : Run (earlier ++ first :: later) step.before)
  (hopen : step.before.requests[parking.request]? ≠ none)

include hrun hopen

/-- Unless somebody else has the target's id, the wait is bound or a poll of it is refused. -/
theorem bound_or_stranger (hown : parking.IdKept step.before.table) :
    parking.Bound step.before.table ∨ ¬ parking.Stands step.before.table ∧
      step.before.table.parentOf? parking.target ≠ some parking.caller := by
  obtain bound | parted | hgone := parking.bound_or_parted hrun
  · exact .inl bound
  · refine .inr ⟨parted.not_stands, fun hparent ↦ ?_⟩
    obtain ⟨record, hrecord, -⟩ := Option.bind_eq_some_iff.1 hparent
    have hborn := Table.birthOf?_of_record? hrecord
    rw [hown hborn] at hborn
    exact (parted.handedOn hborn hparent).2 rfl
  · exact absurd hgone hopen

theorem bound_of_stands (hstands : parking.Stands step.before.table) :
    parking.Bound step.before.table := by
  obtain bound | parted | hgone := parking.bound_or_parted hrun
  · exact bound
  · exact absurd hstands parted.not_stands
  · exact absurd hgone hopen

end Poll

/-- A later poll that parks the request again is a parking of its own, of the same wait: what holds
of the polls after the first holds of those after this one. -/
theorem exists_again (parking : Parking first) (hrun : Run (earlier ++ first :: later) step.before)
    (hsafe : ¬ step.reply.Faulted) {memory : Memory}
    (hcall : step.call = .poll parking.request waker memory)
    (hanswer : step.reply.answer = .pending) :
    ∃ again : Parking step, again.own = parking.own ∧ again.Bound step.after.table := by
  obtain ⟨again, hrequest, -⟩ := exists_parking hrun.sound hrun.tidy hsafe hcall hanswer
  refine ⟨again, ?_, again.bound hrun hsafe⟩
  have hlasting := (parking.lasting hrun).perform hrun.sound step.call
  obtain ⟨entry, hentry, hwait⟩ := Option.bind_eq_some_iff.1 again.waitOf?_eq
  obtain ⟨parked, hsame⟩ := hlasting.entry_eq (hrequest ▸ hentry)
  have hown : again.own = { parking.own with parked } :=
    Option.some_inj.1 (hwait.symm.trans hsame)
  obtain rfl : true = parked := congrArg Wait.parked hown
  exact hown

end Parking

/-- A later poll of a parked request is about the processes it was parked with, unless somebody else
has got the target's id. -/
theorem Run.pollKept (hrun : Run (earlier ++ first :: later) step.before) (parking : Parking first)
    {memory : Memory} (hcall : step.call = .poll parking.request waker memory)
    (hopen : step.before.requests[parking.request]? ≠ none) : parking.PollKept later step := by
  have sound := hrun.sound
  obtain ⟨parked, hdemand⟩ := parking.demand_of_poll hrun hopen hcall
  let result := step.before.table.joinResult parking.caller parking.target parking.request
  have hattempted : step.Attempted (Wait.outcomeOf result) := Step.attempted sound hdemand
  have hresult : result = .error .ECHILD ↔
      step.before.table.parentOf? parking.target ≠ some parking.caller :=
    Table.joinResult_eq_stranger_iff
  have hstranger : step.Attempted (some (.error .ECHILD)) ↔
      step.before.table.parentOf? parking.target ≠ some parking.caller := by
    rw [← hresult]
    constructor
    · intro hrefused
      exact Wait.outcomeOf_injective (Step.outcome_eq sound hdemand hrefused).symm
    · intro hstrange
      rw [hstrange] at hattempted
      exact hattempted
  constructor
  case attempted => exact ⟨_, hattempted⟩
  case stranger_iff => exact hstranger
  case refused_iff =>
    intro hown
    rw [hstranger]
    obtain bound | ⟨hgone, hparent⟩ := parking.bound_or_stranger hrun hopen hown
    · exact iff_of_false (not_not_intro bound.parent_eq) (not_not_intro (bound.stands sound))
    · exact iff_of_true hparent hgone
  case faithful =>
    intro hstands
    have bound := parking.bound_of_stands hrun hopen hstands
    obtain ⟨phase, hphase⟩ := Table.exists_phaseOf? bound.target_born
    cases phase with
    | running =>
      obtain ⟨hpending, hheld⟩ := bound.poll_running hrun hdemand rfl hphase
      exact .inl ⟨hpending, hphase, hheld⟩
    | exited status =>
      obtain ⟨hcollected, hdelivery, -⟩ := bound.poll_exited hrun hdemand rfl hphase
      exact .inr ⟨status, hcollected, hphase, hdelivery⟩
  case reissued => exact hrun.reissued parking.target_born

/-- A request waits for a child when the machine stops. Another root starts another child, and the
two get the ids of those that are gone. -/
def revenant : List (Call Nat) := family.take 6 ++ .shutdown :: family.take 4

theorem pollKept_revenant :
    let later := (initial.reach (family.take 6)).steps (.shutdown :: family.take 4)
    familyParking.PollKept later ⟨initial.reach revenant, .poll 0 8 blank⟩ := by
  intro later
  have hrun : Run (initial.steps (family.take 5) ++
      ⟨initial.reach (family.take 5), .poll 0 7 blank⟩ :: later) (initial.reach revenant) :=
    run_of_calls revenant (by decide +kernel)
  exact Run.pollKept hrun familyParking rfl (by decide +kernel)

/-- The wait was parked on the first child. When it is polled again it takes the slot of the second
one, although the first one and its parent are gone. -/
theorem crosses_revenant :
    Run (initial.steps revenant) (initial.reach revenant) ∧
      (initial.reach (family.take 6)).waitOf? 0 = some ⟨1, 2, 0, true⟩ ∧
      (initial.reach (family.take 6)).table.birthOf? 2 = some 1 ∧
      (initial.reach revenant).table.birthOf? 2 = some 3 ∧
      ¬ familyParking.Stands (initial.reach revenant).table ∧
      (initial.reach revenant).table.claimOf? 2 = none ∧
      ((initial.reach revenant).perform (.poll 0 8 blank)).answer = .pending ∧
      ((initial.reach revenant).perform (.poll 0 8 blank)).kernel.table.claimOf? 2 =
        some ⟨0, some 8⟩ := by
  have hrun : Run (initial.steps revenant) (initial.reach revenant) :=
    run_of_calls revenant (by decide +kernel)
  have hsecond : (initial.reach revenant).table.birthOf? 2 = some 3 := by decide +kernel
  refine ⟨hrun, by decide +kernel, by decide +kernel, hsecond, fun stands ↦ ?_, rfl, rfl, rfl⟩
  have hfirst : (initial.reach revenant).table.birthOf? 2 = some 1 := stands.target_born
  rw [hsecond] at hfirst
  cases hfirst

end Kernel

end Lifecycle
