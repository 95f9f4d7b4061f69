import Lifecycle.Proofs.Kernel.Slots

/-!
# What a new wait is told

The first poll of a wait goes by the children of the caller. Whoever is not among them is refused at
once, be it the caller itself, somebody else's child or nobody at all. A child whose slot is held is
busy, one that has exited hands out its status and is gone, and one that runs keeps the joiner in
its slot. A refusal leaves the table as it was.
-/

namespace Lifecycle

variable {Waker : Type}

namespace Table

/-- A child is gone, and all else is as before. -/
structure Parts (before after : Table Waker) (caller target : Pid) : Prop where
  gone : after.record? target = none
  unlinked : ∃ record, before.record? caller = some record ∧ target ∈ record.children ∧
    after.record? caller = some (record.withoutChild target)
  others {other : Pid} (htarget : other ≠ target) (hcaller : other ≠ caller) :
    after.record? other = before.record? other
  root_eq : after.root = before.root
  running_eq : after.running = before.running
  /-- The id is free again. -/
  pids_eq : after.pids = before.pids.released target

variable {table after : Table Waker} {caller target : Pid}

/-- A child that is removed leaves its parent's set. -/
theorem Removed.parts (removed : table.Removed after target) (sound : table.Sound)
    (hparent : table.parentOf? target = some caller) (hcount : after.running = table.running) :
    table.Parts after caller target where
  gone := by rw [removed.record?_eq, if_pos rfl]
  unlinked := by
    have hne : caller ≠ target := fun heq ↦ sound.parent_ne target (heq ▸ hparent)
    obtain ⟨record, hrecord, hmem⟩ := sound.hasChild_iff_parentOf?.2 hparent
    refine ⟨record, hrecord, hmem, ?_⟩
    rw [removed.record?_eq, if_neg hne, if_pos hparent, hrecord, Option.map_some]
  others htarget hcaller := by
    have hstranger : table.parentOf? target ≠ some _ :=
      fun h ↦ hcaller (Option.some_inj.1 (h.symm.trans hparent))
    rw [removed.record?_eq, if_neg htarget, if_neg hstranger]
  root_eq := by
    rw [removed.root_eq]
    cases hroot : table.root with
    | none => rfl
    | some root =>
      refine Option.filter_eq_some_iff.2 ⟨rfl, decide_eq_true ?_⟩
      rintro rfl
      rw [(sound.root_running hroot).2] at hparent
      cases hparent
  running_eq := hcount
  pids_eq := removed.pids_eq

end Table

namespace Kernel

variable {past : List (Step Waker)} {kernel : Kernel Waker} {request : RequestId} {wait : Wait}
  {caller target : Pid}

/-- What a poll of a wait answers, by the result of its attempt to join. -/
def Answer.ofJoin : Except Errno (Option ExitStatus) → Answer
  | .ok none => .pending
  | .ok (some status) => .collected status
  | .error cause => .refused cause

theorem perform_join (sound : kernel.table.Sound)
    (hrequest : kernel.requests[request]? = some (.join wait)) (waker : Waker) (memory : Memory) :
    ∃ after effects,
      kernel.table.Attempts wait.caller wait.target wait.token waker
        (kernel.table.joinResult wait.caller wait.target wait.token) after ∧
      kernel.perform (.poll request waker memory) =
        ⟨{ kernel with table := after }.keep request
            (.join (wait.after (wait.outcomeIn kernel.table))),
          effects, .ofJoin (kernel.table.joinResult wait.caller wait.target wait.token)⟩ := by
  obtain ⟨after, attempts, hjoin⟩ :=
    Table.join_yields sound wait.caller wait.target wait.token waker
  obtain ⟨effects, -, hact⟩ :=
    act_of_ok (settleJoin request wait) (·.forget request) (Wait.poll_yields hjoin)
  refine ⟨after, effects, attempts, ?_⟩
  simp only [perform, poll, hrequest]
  rw [hact]
  cases hresult : kernel.table.joinResult wait.caller wait.target wait.token with
  | error cause => simp [settleJoin, Wait.outcomeIn, hresult, Wait.outcomeOf, Answer.ofJoin]
  | ok outcome =>
    cases outcome <;> simp [settleJoin, Wait.outcomeIn, hresult, Wait.outcomeOf, Answer.ofJoin]

/-- A wait was opened, and no call has named it since. -/
def Unpolled (past : List (Step Waker)) (request : RequestId) (caller target : Pid) : Prop :=
  ∃ earlier opening later, past = earlier ++ opening :: later ∧
    opening.call = .openJoin caller target ∧ opening.reply.answer = .opened request ∧
    ∀ step ∈ later, step.call.request? ≠ some request

theorem Unpolled.request_eq (unpolled : Unpolled past request caller target)
    (hrun : Run past kernel) :
    kernel.requests[request]? = some (.join ⟨caller, target, request, false⟩) := by
  obtain ⟨earlier, opening, later, rfl, hcall, hanswer, huntouched⟩ := unpolled
  -- the wait is there when it is opened, and the calls since leave it alone
  let motive (_ : List (Step Waker)) (kernel : Kernel Waker) : Prop :=
    kernel.requests[request]? = some (.join ⟨caller, target, request, false⟩)
  refine hrun.since (motive := motive) ?_ ?_
  · obtain ⟨before, call⟩ := opening
    obtain rfl : call = .openJoin caller target := hcall
    cases hanswer
    exact (requests_keep _ _).trans (if_pos rfl)
  · rintro sofar step rest rfl hbefore - hrequest
    have hleft := huntouched step (List.mem_append_cons_self)
    exact hbefore.tidy.requests_untouched hrequest hleft

/-- What the first poll of a wait comes to: the table afterwards, and the answer. -/
structure Verdict (table : Table Waker) (caller target : Pid) (request : RequestId)
    (waker : Waker) (after : Table Waker) (answer : Answer) : Prop where
  stranger_iff : answer = .refused .ECHILD ↔ ¬ table.HasChild caller target
  busy_iff (hchild : table.HasChild caller target) :
    answer = .refused .EBUSY ↔ ∃ claim, table.claimOf? target = some claim
  collected_iff (hchild : table.HasChild caller target) (status : ExitStatus) :
    answer = .collected status ↔
      table.claimOf? target = none ∧ table.phaseOf? target = some (.exited status)
  pending_iff (hchild : table.HasChild caller target) :
    answer = .pending ↔
      table.claimOf? target = none ∧ table.phaseOf? target = some .running
  /-- Nobody is his own child, and whoever has no record is nobody's child or parent. -/
  strange (hstrange : caller = target ∨ table.record? target = none ∨
    table.record? caller = none ∨ table.parentOf? target ≠ some caller) :
    ¬ table.HasChild caller target
  refused {cause : Errno} (hanswer : answer = .refused cause) : after = table
  collected {status : ExitStatus} (hanswer : answer = .collected status) :
    table.Parts after caller target
  parked (hanswer : answer = .pending) :
    after = table.setClaim target (some ⟨request, some waker⟩)

theorem Answer.ofJoin_injective {first second : Except Errno (Option ExitStatus)}
    (hsame : Answer.ofJoin first = Answer.ofJoin second) : first = second := by
  match first, second with
  | .ok none, .ok none => rfl
  | .ok (some _), .ok (some _) | .error _, .error _ =>
    cases hsame
    rfl
  | .ok none, .ok (some _) | .ok none, .error _ | .ok (some _), .ok none
  | .ok (some _), .error _ | .error _, .ok none | .error _, .ok (some _) => cases hsame

/-- A wait that holds no slot yet is told how things stand. -/
theorem verdict_of_attempts {table after : Table Waker} {waker : Waker} (sound : table.Sound)
    (hunheld : ∀ claim, table.claimOf? target = some claim → claim.token ≠ request)
    (attempts : table.Attempts caller target request waker
      (table.joinResult caller target request) after) :
    Verdict table caller target request waker after
      (.ofJoin (table.joinResult caller target request)) := by
  have hchild_iff : table.HasChild caller target ↔ table.parentOf? target = some caller :=
    sound.hasChild_iff_parentOf?
  have hanswer (result : Except Errno (Option ExitStatus)) :
      Answer.ofJoin (table.joinResult caller target request) = .ofJoin result ↔
        table.joinResult caller target request = result :=
    ⟨Answer.ofJoin_injective, congrArg _⟩
  have hok_iff (hchild : table.HasChild caller target) (outcome : Option ExitStatus) :
      table.joinResult caller target request = .ok outcome ↔
        table.claimOf? target = none ∧ (table.phaseOf? target).bind Phase.status? = outcome := by
    unfold Table.joinResult
    rw [if_neg (not_not_intro (hchild_iff.1 hchild))]
    cases hclaim : table.claimOf? target with
    | none => simp
    | some claim => simp [hunheld claim hclaim]
  have hpresent (hchild : table.HasChild caller target) :
      ∃ phase, table.phaseOf? target = some phase := by
    obtain ⟨record, hrecord, -⟩ := Option.bind_eq_some_iff.1 (hchild_iff.1 hchild)
    exact ⟨record.phase, Table.phaseOf?_of_record? hrecord⟩
  constructor
  case stranger_iff =>
    rw [hchild_iff]
    exact (hanswer (.error .ECHILD)).trans Table.joinResult_eq_stranger_iff
  case busy_iff =>
    intro hchild
    refine (hanswer (.error .EBUSY)).trans (Table.joinResult_eq_busy_iff.trans ?_)
    exact ⟨fun ⟨_, claim, hclaim, _⟩ ↦ ⟨claim, hclaim⟩,
      fun ⟨claim, hclaim⟩ ↦ ⟨hchild_iff.1 hchild, claim, hclaim, hunheld claim hclaim⟩⟩
  case collected_iff =>
    intro hchild status
    obtain ⟨phase, hphase⟩ := hpresent hchild
    refine (hanswer (.ok (some status))).trans ((hok_iff hchild _).trans ?_)
    cases phase <;> simp [hphase, Phase.status?]
  case pending_iff =>
    intro hchild
    obtain ⟨phase, hphase⟩ := hpresent hchild
    refine (hanswer (.ok none)).trans ((hok_iff hchild _).trans ?_)
    cases phase <;> simp [hphase, Phase.status?]
  case strange =>
    rintro hstrange hchild
    have hparent := hchild_iff.1 hchild
    obtain rfl | habsent | habsent | hother := hstrange
    · exact sound.parent_ne _ hparent
    · simp [Table.parentOf?, habsent] at hparent
    · obtain ⟨record, hrecord, -⟩ := hchild
      simp [habsent] at hrecord
    · exact hother hparent
  all_goals generalize table.joinResult caller target request = result at attempts
  case refused =>
    intro cause hrefused
    cases attempts with
    | stranger | busy => rfl
    | collected | parked => cases hrefused
  case collected =>
    intro status hcollected
    cases attempts with
    | stranger | busy | parked => cases hcollected
    | collected hparent _ hremoved hcount => exact hremoved.parts sound hparent hcount
  case parked =>
    intro hparked
    cases attempts with
    | stranger | busy | collected => cases hparked
    | parked => rfl

/-- It is decided by the children of the caller what a new wait is told. -/
theorem Run.verdictKept (hrun : Run past kernel) (unpolled : Unpolled past request caller target)
    (waker : Waker) (memory : Memory) :
    Verdict kernel.table caller target request waker
      (kernel.perform (.poll request waker memory)).kernel.table
      (kernel.perform (.poll request waker memory)).answer := by
  have hrequest := unpolled.request_eq hrun
  have hunheld (claim : Claim Waker) (hclaim : kernel.table.claimOf? target = some claim) :
      claim.token ≠ request := by
    -- the owner of a slot was parked by his last poll, but this wait was never polled
    rintro rfl
    obtain ⟨wait, left, owned⟩ := hrun.owned hclaim
    have hwait := owned.waitOf?_eq
    rw [waitOf?, hrequest] at hwait
    cases hwait
    exact Bool.false_ne_true owned.parked
  obtain ⟨after, effects, attempts, hperform⟩ := perform_join hrun.sound hrequest waker memory
  rw [hperform]
  exact verdict_of_attempts hrun.sound hunheld attempts

/-- A root with a child that runs, one that has exited, and one of a child's own. -/
def relatives : List (Call Nat) :=
  [.spawn none "init" .empty, .finishLoad (.ok ⟨0, 0, 0, 0, blank⟩),
    .spawn (some 1) "work" .empty, .finishLoad (.ok ⟨0, 0, 0, 0, blank⟩),
    .spawn (some 1) "done" .empty, .finishLoad (.ok ⟨0, 0, 0, 0, blank⟩),
    .spawn (some 2) "other" .empty, .finishLoad (.ok ⟨0, 0, 0, 0, blank⟩),
    .terminate 3 (.exited 5), .openJoin 1 3]

theorem verdictKept_relatives :
    Unpolled (initial.steps relatives) 0 1 3 ∧
      Verdict (initial.reach relatives).table 1 3 0 7
        ((initial.reach relatives).perform (.poll 0 7 blank)).kernel.table
        ((initial.reach relatives).perform (.poll 0 7 blank)).answer ∧
      ((initial.reach relatives).perform (.poll 0 7 blank)).answer = .collected (.exited 5) := by
  have hrun : Run (initial.steps relatives) (initial.reach relatives) :=
    run_of_calls relatives (by decide +kernel)
  have unpolled : Unpolled (initial.steps relatives) 0 1 3 :=
    ⟨initial.steps (relatives.take 9), ⟨initial.reach (relatives.take 9), .openJoin 1 3⟩, [], rfl,
      rfl, rfl, nofun⟩
  have kept := hrun.verdictKept unpolled 7 blank
  refine ⟨unpolled, kept, (kept.collected_iff ?_ _).2 ?_⟩
  · rw [hrun.sound.hasChild_iff_parentOf?]
    decide +kernel
  · exact ⟨Option.isNone_iff_eq_none.1 (by decide +kernel), by decide +kernel⟩

end Kernel

end Lifecycle
