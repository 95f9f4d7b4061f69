import Lifecycle.Proofs.Kernel.Attempts
import Lifecycle.Proofs.Kernel.Seclusion

/-!
# What a JOIN answers

A JOIN is polled until its child has exited. In between the caller may end, the child may get
another parent, and others may try to join it; the poll that answers goes by what it finds then.
A poll comes to one of seven things, and if it answers, it does so with one of four numbers. A JOIN
that cannot write the code of its child has collected it nevertheless.
-/

namespace Lifecycle.Kernel

variable {Waker : Type} {past : List (Step Waker)} {step : Step Waker} {kernel : Kernel Waker}
  {table after : Table Waker} {request : RequestId} {call : Syscall} {waker : Waker}
  {memory : Memory} {target : Pid} {status : ExitStatus}

/-- The process that a JOIN asks for. -/
def Syscall.Names (call : Syscall) (target : Pid) : Prop :=
  Pid.ofUser? (Word.lowCode call.firstWord) = some target

/-- A child of the caller has exited, and no other joiner holds its slot. -/
structure Ripe (table : Table Waker) (request : RequestId) (call : Syscall) (target : Pid)
    (status : ExitStatus) : Prop where
  names : call.Names target
  parent : table.parentOf? target = some call.caller
  exited : table.phaseOf? target = some (.exited status)
  free {claim : Claim Waker} (hclaim : table.claimOf? target = some claim) : claim.token = request

/-- Another joiner holds the slot of a child of the caller. -/
structure Contested (table : Table Waker) (request : RequestId) (call : Syscall) (target : Pid) :
    Prop where
  names : call.Names target
  parent : table.parentOf? target = some call.caller
  held : ∃ claim, table.claimOf? target = some claim ∧ claim.token ≠ request

/-- What a poll of a JOIN comes to: the table afterwards, and the answer. -/
inductive Joins (table : Table Waker) (request : RequestId) (call : Syscall) (waker : Waker)
    (memory : Memory) : Table Waker → Answer → Prop where
  | parked {target : Pid} (hnames : call.Names target)
      (hparent : table.parentOf? target = some call.caller)
      (hrunning : table.phaseOf? target = some .running)
      (hfree : ∀ claim, table.claimOf? target = some claim → claim.token = request) :
      Joins table request call waker memory (table.setClaim target (some ⟨request, some waker⟩))
        .pending
  | stranger (hstrange : ∀ target, call.Names target → table.parentOf? target ≠ some call.caller) :
      Joins table request call waker memory table (.returned (-1) none)
  | busy {target : Pid} (contested : Contested table request call target) :
      Joins table request call waker memory table (.returned (-2) none)
  | killed {target : Pid} {after : Table Waker} (ripe : Ripe table request call target .killed)
      (removed : table.Removed after target) :
      Joins table request call waker memory after (.returned 0 none)
  /-- There is no address to write the code to. -/
  | discarded {target : Pid} {code : Int32} {after : Table Waker}
      (ripe : Ripe table request call target (.exited code))
      (removed : table.Removed after target) (hnull : call.secondWord = 0) :
      Joins table request call waker memory after (.returned 1 none)
  | stored {target : Pid} {code : Int32} {after : Table Waker} {written : Memory}
      (ripe : Ripe table request call target (.exited code))
      (removed : table.Removed after target) (haddress : call.secondWord ≠ 0)
      (stores : memory.Stores written call.secondWord code) :
      Joins table request call waker memory after (.returned 1 (some written))
  | unwritten {target : Pid} {code : Int32} {after : Table Waker} {written : Memory}
      (ripe : Ripe table request call target (.exited code))
      (removed : table.Removed after target) (haddress : call.secondWord ≠ 0)
      (same : memory.SameBut written call.secondWord 4)
      (hunmapped : ¬ ∀ index < 4, memory.IsMapped (call.secondWord + index)) :
      Joins table request call waker memory after (.returned (-1) (some written))

section Joins

variable {answer : Answer} {other : Pid}

theorem Syscall.Names.unique (names : call.Names target) (same : call.Names other) :
    target = other :=
  Option.some_inj.1 (names.symm.trans same)

/-- A JOIN asks for one child, and that one has one status. -/
theorem Ripe.unique {last : ExitStatus} (ripe : Ripe table request call target status)
    (same : Ripe table request call other last) : status = last := by
  obtain rfl := ripe.names.unique same.names
  have hexited := ripe.exited.symm.trans same.exited
  rw [Option.some_inj, Phase.exited.injEq] at hexited
  exact hexited

theorem Ripe.not_contested (ripe : Ripe table request call target status) :
    ¬ Contested table request call other := by
  intro contested
  obtain rfl := ripe.names.unique contested.names
  obtain ⟨claim, hclaim, hother⟩ := contested.held
  exact hother (ripe.free hclaim)

theorem Joins.killed_iff (joins : Joins table request call waker memory after answer) :
    (∃ written, answer = .returned 0 written) ↔
      ∃ target, Ripe table request call target .killed := by
  cases joins with
  | parked hnames _ hrunning =>
    refine iff_of_false (by simp) ?_
    rintro ⟨other, ripe⟩
    obtain rfl := hnames.unique ripe.names
    rw [ripe.exited] at hrunning
    cases hrunning
  | stranger hstrange =>
    refine iff_of_false (by simp) ?_
    rintro ⟨other, ripe⟩
    exact hstrange other ripe.names ripe.parent
  | busy contested =>
    refine iff_of_false (by simp) ?_
    rintro ⟨other, ripe⟩
    exact ripe.not_contested contested
  | killed ripe _ => exact iff_of_true ⟨none, rfl⟩ ⟨_, ripe⟩
  | discarded ripe _ _ | stored ripe _ _ _ | unwritten ripe _ _ _ _ =>
    refine iff_of_false (by simp) ?_
    rintro ⟨other, same⟩
    cases ripe.unique same

theorem Joins.busy_iff (joins : Joins table request call waker memory after answer) :
    (∃ written, answer = .returned (-2) written) ↔
      ∃ target, Contested table request call target := by
  cases joins with
  | parked hnames _ _ hfree =>
    refine iff_of_false (by simp) ?_
    rintro ⟨other, contested⟩
    obtain rfl := hnames.unique contested.names
    obtain ⟨claim, hclaim, hother⟩ := contested.held
    exact hother (hfree claim hclaim)
  | stranger hstrange =>
    refine iff_of_false (by simp) ?_
    rintro ⟨other, contested⟩
    exact hstrange other contested.names contested.parent
  | busy contested => exact iff_of_true ⟨none, rfl⟩ ⟨_, contested⟩
  | killed ripe _ | discarded ripe _ _ | stored ripe _ _ _ | unwritten ripe _ _ _ _ =>
    refine iff_of_false (by simp) ?_
    rintro ⟨other, contested⟩
    exact ripe.not_contested contested

end Joins

/-! ## Polls of a JOIN -/

/-- How far the request of a JOIN has come. -/
inductive Course (kernel : Kernel Waker) (request : RequestId) (call : Syscall) : Prop where
  | gone (hgone : kernel.requests[request]? = none)
  | begun (hrequest : kernel.requests[request]? = some (.syscall call))
  | waiting {target : Pid} {parked : Bool} (hnames : call.Names target)
      (hrequest : kernel.requests[request]? =
        some (.collecting ⟨call.caller, target, request, parked⟩ call.secondWord))

theorem table_settleSyscall (request : RequestId) (acting : Kernel Waker) (progress : Progress) :
    (settleSyscall request acting progress).1.table = acting.table := by
  cases progress <;> rfl

theorem course_of_progress {parked : Bool} (hnames : call.Names target) (acting : Kernel Waker)
    (memory : Memory) (result : Except Errno (Option ExitStatus)) :
    Course (settleSyscall request acting
      (joinProgress ⟨call.caller, target, request, parked⟩ call.secondWord memory result)).1
      request call := by
  have hgone (value : Int) (written : Option Memory) :
      Course (settleSyscall request acting (.returned value written)).1 request call :=
    .gone (by rw [settleSyscall, requests_forget, if_pos rfl])
  cases result with
  | error cause => exact hgone _ _
  | ok outcome =>
    cases outcome with
    | some status => exact hgone _ _
    | none =>
      have hkept : (acting.keep request (.collecting ⟨call.caller, target, request, true⟩
          call.secondWord)).requests[request]? =
            some (.collecting ⟨call.caller, target, request, true⟩ call.secondWord) :=
        (requests_keep _ _).trans (if_pos rfl)
      exact .waiting hnames hkept

theorem joins_of_collected (ripe : Ripe table request call target status)
    (removed : table.Removed after target) (waker : Waker) (memory : Memory) :
    Joins table request call waker memory after
      (.returned (Syscall.joinAnswer memory call.secondWord (.ok status)).1
        (Syscall.joinAnswer memory call.secondWord (.ok status)).2) := by
  have tells := Syscall.tells_joinAnswer memory call.secondWord status
  generalize (Syscall.joinAnswer memory call.secondWord (.ok status)).1 = value at tells ⊢
  generalize (Syscall.joinAnswer memory call.secondWord (.ok status)).2 = written at tells ⊢
  cases tells with
  | killed => exact .killed ripe removed
  | discarded code hnull => exact .discarded ripe removed hnull
  | stored haddress stores => exact .stored ripe removed haddress stores
  | unwritten code haddress same hunmapped =>
    exact .unwritten ripe removed haddress same hunmapped

theorem joins_of_attempts {parked : Bool} (hnames : call.Names target)
    (attempts : table.Attempts call.caller target request waker
      (table.joinResult call.caller target request) after)
    (acting : Kernel Waker) (memory : Memory) :
    Joins table request call waker memory after (settleSyscall request acting
      (joinProgress ⟨call.caller, target, request, parked⟩ call.secondWord memory
        (table.joinResult call.caller target request))).2 := by
  generalize hresult : table.joinResult call.caller target request = result at attempts ⊢
  cases attempts with
  | stranger hparent => exact .stranger fun other hother ↦ hnames.unique hother ▸ hparent
  | busy hparent hclaim hother => exact .busy ⟨hnames, hparent, _, hclaim, hother⟩
  | @collected status after hparent hexited hremoved _ =>
    have hfree {claim : Claim Waker} (hclaim : table.claimOf? target = some claim) :
        claim.token = request := by
      -- the slot of another joiner is found before the child's phase is looked at
      by_contra hother
      rw [Table.joinResult_eq_busy_iff.2 ⟨hparent, claim, hclaim, hother⟩] at hresult
      cases hresult
    exact joins_of_collected ⟨hnames, hparent, hexited, hfree⟩ hremoved waker memory
  | parked hparent hrunning hfree => exact .parked hnames hparent hrunning hfree

section Poll

variable (hkind : SyscallKind.ofNumber? call.number = some .join)

include hkind

/-- A JOIN goes by what an attempt to join comes to, whether it has just begun or waits already. -/
theorem Course.perform_named (course : Course kernel request call) (sound : kernel.table.Sound)
    (hopen : kernel.requests[request]? ≠ none)
    (hrunning : kernel.requests[request]? = some (.syscall call) →
      kernel.table.IsRunning call.caller)
    (hnames : call.Names target) (waker : Waker) (memory : Memory) :
    ∃ parked after effects,
      kernel.table.Attempts call.caller target request waker
        (kernel.table.joinResult call.caller target request) after ∧
      kernel.perform (.poll request waker memory) =
        let progress := joinProgress ⟨call.caller, target, request, parked⟩ call.secondWord memory
          (kernel.table.joinResult call.caller target request)
        let settled := settleSyscall request { kernel with table := after } progress
        ⟨settled.1, effects, settled.2⟩ := by
  obtain ⟨after, attempts, hjoin⟩ := Table.join_yields sound call.caller target request waker
  have hcollecting (parked : Bool) :
      (pollCollecting ⟨call.caller, target, request, parked⟩ call.secondWord waker memory).Yields
        kernel.table _ after [] :=
    pollCollecting_progress (Wait.poll_yields hjoin) call.secondWord memory
  cases course with
  | gone hgone => exact absurd hgone hopen
  | begun hrequest =>
    have hstart := start_join (hrunning hrequest) memory hkind
    rw [hnames] at hstart
    have hpoll : (pollSyscall call request waker memory).Yields kernel.table _ after [] :=
      .bind_silent hstart (hcollecting false)
    obtain ⟨effects, -, hact⟩ := act_of_ok (settleSyscall request) (·.forget request) hpoll
    refine ⟨false, after, effects, attempts, ?_⟩
    simp only [perform, poll, hrequest]
    exact hact
  | @waiting other parked hother hrequest =>
    obtain rfl := hnames.unique hother
    obtain ⟨effects, -, hact⟩ :=
      act_of_ok (settleSyscall request) (·.forget request) (hcollecting parked)
    refine ⟨parked, after, effects, attempts, ?_⟩
    simp only [perform, poll, hrequest]
    exact hact

theorem Course.joins (course : Course kernel request call) (sound : kernel.table.Sound)
    (hopen : kernel.requests[request]? ≠ none)
    (hrunning : kernel.requests[request]? = some (.syscall call) →
      kernel.table.IsRunning call.caller) (waker : Waker) (memory : Memory) :
    Joins kernel.table request call waker memory
      (kernel.perform (.poll request waker memory)).kernel.table
      (kernel.perform (.poll request waker memory)).answer ∧
    Course (kernel.perform (.poll request waker memory)).kernel request call := by
  cases hnamed : Pid.ofUser? (Word.lowCode call.firstWord) with
  | some target =>
    obtain ⟨parked, after, effects, attempts, hperform⟩ :=
      course.perform_named hkind sound hopen hrunning hnamed waker memory
    simp only [hperform, table_settleSyscall]
    exact ⟨joins_of_attempts hnamed attempts _ memory, course_of_progress hnamed _ memory _⟩
  | none =>
    have hunnamed (target : Pid) : ¬ call.Names target := by
      rw [Syscall.Names, hnamed]
      exact (Option.some_ne_none target).symm
    cases course with
    | gone hgone => exact absurd hgone hopen
    | waiting hnames _ => exact absurd hnames (hunnamed _)
    | begun hrequest =>
      have hstart := start_join (hrunning hrequest) memory hkind
      rw [hnamed] at hstart
      obtain ⟨effects, -, hperform⟩ := perform_returned request call waker memory hstart hrequest
      rw [hperform]
      refine ⟨.stranger fun target hnames ↦ absurd hnames (hunnamed target), .gone ?_⟩
      rw [requests_forget, if_pos rfl]

/-! ## The course of a JOIN -/

theorem Course.poll (course : Course kernel request call) (sound : kernel.table.Sound)
    (waker : Waker) (memory : Memory) :
    Course (kernel.perform (.poll request waker memory)).kernel request call := by
  by_cases hopen : kernel.requests[request]? = none
  · simp only [perform, Kernel.poll, hopen]
    exact .gone hopen
  by_cases hrunning : kernel.requests[request]? = some (.syscall call) →
      kernel.table.IsRunning call.caller
  · exact (course.joins hkind sound hopen hrunning waker memory).2
  · obtain ⟨hrequest, hstopped⟩ := Classical.not_imp.1 hrunning
    obtain ⟨effects, -, hperform⟩ :=
      perform_returned request call waker memory (start_stopped hstopped memory) hrequest
    rw [hperform]
    exact .gone (by rw [requests_forget, if_pos rfl])

theorem Course.perform (course : Course kernel request call) (sound : kernel.table.Sound)
    (hlt : request < kernel.nextRequest) (performed : Call Waker) :
    Course (kernel.perform performed).kernel request call := by
  by_cases htouched : performed.request? = some request
  · cases performed with
    | poll other waker memory =>
      obtain rfl := Option.some_inj.1 htouched
      exact course.poll hkind sound waker memory
    | abandon other =>
      obtain rfl := Option.some_inj.1 htouched
      exact .gone (requests_abandon kernel other)
    | spawn | finishLoad | terminate | shutdown | openJoin | openSyscall => cases htouched
  · have hsame := requests_untouched hlt htouched
    cases course with
    | gone hgone => exact .gone (hsame.trans hgone)
    | begun hrequest => exact .begun (hsame.trans hrequest)
    | waiting hnames hrequest => exact .waiting hnames (hsame.trans hrequest)

end Poll

/-- A process has made a syscall, and this is the request for it. -/
def Opened (past : List (Step Waker)) (request : RequestId) (call : Syscall) : Prop :=
  ∃ step ∈ past, step.call = .openSyscall call ∧ step.reply.answer = .opened request

theorem course_of_opened {calls : List (Call Waker)} (secluded : Secluded (initial.steps calls))
    (hkind : SyscallKind.ofNumber? call.number = some .join)
    (hopened : Opened (initial.steps calls) request call) :
    request < (initial.reach calls).nextRequest ∧ Course (initial.reach calls) request call := by
  -- the request was opened by the last call, or it has kept its course in the calls before
  induction calls using List.reverseRec with
  | nil =>
    obtain ⟨step, hmem, -⟩ := hopened
    cases hmem
  | append_singleton earlier last ih =>
    obtain ⟨hearlier, -⟩ := secluded.of_concat
    rw [reach_append]
    change _ < ((initial.reach earlier).perform last).kernel.nextRequest ∧
      Course ((initial.reach earlier).perform last).kernel request call
    obtain ⟨step, hmem, hcall, hanswer⟩ := hopened
    obtain hbefore | rfl := mem_steps_concat.1 hmem
    · obtain ⟨hlt, course⟩ := ih hearlier ⟨step, hbefore, hcall, hanswer⟩
      obtain ⟨hrun, -⟩ := run_safeSteps earlier hearlier
      have hnext := nextRequest_le (initial.reach earlier) last
      exact ⟨Nat.lt_of_lt_of_le hlt hnext, course.perform hkind hrun.sound hlt last⟩
    · obtain rfl : last = .openSyscall call := hcall
      cases hanswer
      refine ⟨Nat.lt_succ_self _, .begun ?_⟩
      exact (requests_keep _ _).trans (if_pos rfl)

/-! ## Words that processes exit with -/

/-- A process makes an EXIT with a word. -/
def Step.Exits (step : Step Waker) (birth word : Nat) : Prop :=
  ∃ request waker memory call, step.call = .poll request waker memory ∧
    step.before.requests[request]? = some (.syscall call) ∧
    SyscallKind.ofNumber? call.number = some .exit ∧ call.firstWord = word ∧
    step.before.table.IsRunning call.caller ∧
    step.before.table.birthOf? call.caller = some birth

theorem Step.Exits.ending?_eq {birth word : Nat} (exits : step.Exits birth word) :
    step.ending? = some (birth, .exited (Word.lowCode word)) := by
  obtain ⟨request, waker, memory, call, hcall, hrequest, hkind, rfl, hrunning, hbirth⟩ := exits
  have hdemand : step.demand = .finish call.caller (.exited (Word.lowCode call.firstWord)) := by
    simp [Step.demand, hcall, Kernel.demand, hrequest, Syscall.demand, hrunning, hkind]
  exact ending?_of_running hdemand (Table.isRunning_iff_phaseOf?.1 hrunning) hbirth

/-- A process is ended once. -/
theorem Run.ending_unique (hrun : Run past kernel) {other : Step Waker} {birth : Nat}
    {first last : ExitStatus} (hmem : step ∈ past) (hother : other ∈ past)
    (hfirst : step.ending? = some (birth, first)) (hlast : other.ending? = some (birth, last)) :
    first = last := by
  have hpast := List.mem_filterMap.2 ⟨step, hmem, hfirst⟩
  have hlater := List.mem_filterMap.2 ⟨other, hother, hlast⟩
  exact congrArg Prod.snd (List.inj_on_of_nodup_map hrun.ended_nodup hpast hlater rfl)

/-- Where the status of an exited process comes from. -/
structure Attested (past : List (Step Waker)) (table : Table Waker) (target : Pid)
    (status : ExitStatus) : Prop where
  ended : ∃ birth, table.birthOf? target = some birth ∧
    ∃ step ∈ past, step.ending? = some (birth, status)
  /-- The code of an EXIT is the low half of its word, with a sign. -/
  exits {step : Step Waker} {birth word : Nat} (hbirth : table.birthOf? target = some birth)
    (hmem : step ∈ past) (hexits : step.Exits birth word) :
    ∃ code, status = .exited code ∧ code.toInt = (word : Int).bmod (Nat.pow 2 32)

theorem attested_of_exited {calls : List (Call Waker)} (secluded : Secluded (initial.steps calls))
    (hexited : (initial.reach calls).table.phaseOf? target = some (.exited status)) :
    Attested (initial.steps calls) (initial.reach calls).table target status := by
  obtain ⟨hrun, -⟩ := run_safeSteps calls secluded
  obtain ⟨birth, hbirth⟩ := Table.exists_birthOf? hexited
  obtain ⟨ender, hender, hending⟩ := hrun.ledger.exited_ended hbirth hexited
  constructor
  case ended => exact ⟨birth, hbirth, ender, (mem_safeSteps.1 hender).1, hending⟩
  case exits =>
    intro step other word hother hmem exits
    rw [hbirth, Option.some_inj] at hother
    subst hother
    -- the step has ended the process, for only an order from outside stops on a fault
    have hsafe : ¬ step.reply.Faulted := by
      intro hfaulted
      obtain ⟨_, _, hterminate⟩ := call_of_faulted secluded hmem hfaulted
      obtain ⟨_, _, _, _, hpoll, -⟩ := exits
      rw [hpoll] at hterminate
      cases hterminate
    refine ⟨Word.lowCode word, ?_, Int32.toInt_ofNat'⟩
    exact hrun.ending_unique hender (mem_safeSteps.2 ⟨hmem, hsafe⟩) hending exits.ending?_eq

/-! ## JOIN after any calls -/

/-- What a poll of a JOIN comes to. -/
structure JoinKept (past : List (Step Waker)) (kernel : Kernel Waker) (request : RequestId)
    (call : Syscall) (waker : Waker) (memory : Memory) : Prop where
  joins : Joins kernel.table request call waker memory
    (kernel.perform (.poll request waker memory)).kernel.table
    (kernel.perform (.poll request waker memory)).answer
  killed_iff :
    (∃ written, (kernel.perform (.poll request waker memory)).answer = .returned 0 written) ↔
      ∃ target, Ripe kernel.table request call target .killed
  busy_iff :
    (∃ written, (kernel.perform (.poll request waker memory)).answer = .returned (-2) written) ↔
      ∃ target, Contested kernel.table request call target
  attested {target : Pid} {status : ExitStatus}
    (ripe : Ripe kernel.table request call target status) :
    Attested past kernel.table target status

/-- If loaders make no calls, every poll of a JOIN of a running process comes to one of these. -/
theorem Secluded.joinKept {calls : List (Call Waker)} (secluded : Secluded (initial.steps calls))
    (hopened : Opened (initial.steps calls) request call)
    (hkind : SyscallKind.ofNumber? call.number = some .join)
    (hopen : (initial.reach calls).requests[request]? ≠ none)
    (hrunning : (initial.reach calls).requests[request]? = some (.syscall call) →
      (initial.reach calls).table.IsRunning call.caller) (waker : Waker) (memory : Memory) :
    JoinKept (initial.steps calls) (initial.reach calls) request call waker memory := by
  obtain ⟨hrun, -⟩ := run_safeSteps calls secluded
  obtain ⟨-, course⟩ := course_of_opened secluded hkind hopened
  obtain ⟨joins, -⟩ := course.joins hkind hrun.sound hopen hrunning waker memory
  exact ⟨joins, joins.killed_iff, joins.busy_iff,
    fun ripe ↦ attested_of_exited secluded ripe.exited⟩

/-- The JOIN of a root for its child, whose code it wants at address 4096. -/
def collectingSyscall : Syscall := .ofWords 1 SyscallKind.join.number [2, 4096]

/-- The root waits for its child, which exits with a word that is too long for a code. -/
def vigil : List (Call Nat) :=
  [.spawn none "init" .empty, .finishLoad (.ok ⟨0, 0, 0, 0, blank⟩),
    .spawn (some 1) "child" .empty, .finishLoad (.ok ⟨0, 0, 0, 0, blank⟩),
    .openSyscall collectingSyscall, .poll 0 7 blank,
    .openSyscall (.ofWords 2 SyscallKind.exit.number [Nat.pow 2 33 - 5]), .poll 1 8 blank]

theorem joinKept_vigil :
    (initial.reach vigil).requests[0]? = some (.collecting ⟨1, 2, 0, true⟩ 4096) ∧
      (initial.reach vigil).table.phaseOf? 2 = some (.exited (.exited (-5))) ∧
      JoinKept (initial.steps vigil) (initial.reach vigil) 0 collectingSyscall 9
        (Memory.zeroed 4096 16) := by
  have secluded : Secluded (initial.steps vigil) := by decide +kernel
  have hopened : Opened (initial.steps vigil) 0 collectingSyscall :=
    ⟨⟨initial.reach (vigil.take 4), .openSyscall collectingSyscall⟩,
      .tail _ (.tail _ (.tail _ (.tail _ (.head _)))), rfl, rfl⟩
  exact ⟨by decide +kernel, by decide +kernel,
    secluded.joinKept hopened rfl (by decide +kernel) (fun _ ↦ by decide +kernel) 9 _⟩

end Lifecycle.Kernel
