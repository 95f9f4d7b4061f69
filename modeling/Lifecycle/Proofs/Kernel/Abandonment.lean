import Lifecycle.Proofs.Kernel.Guests

/-!
# Joins that are abandoned

A join that is opened, polled as often as one likes without an answer, and dropped, is as if it had
never been. The run with it is compared, call by call, with the run without: the answers are the
same but for the ids of requests, and the tables but for tokens and, while the join is parked, its
claim. All this takes is that nobody else polls a join of the same process for the same child
between the first poll and the drop.
-/

namespace Lifecycle.Kernel

variable {Waker : Type}

/-- What happens while a join is open. -/
inductive Turn (Waker : Type) where
  /-- A call of another party, as it is without the join. -/
  | other (call : Call Waker)
  /-- A poll of the join. -/
  | poll (waker : Waker) (memory : Memory)

namespace Turn

def other? : Turn Waker → Option (Call Waker)
  | .other call => some call
  | .poll .. => none

/-- The call that is made if the join is the request `guest`. -/
def call (guest : RequestId) : Turn Waker → Call Waker
  | .other call => call.raise guest
  | .poll waker memory => .poll guest waker memory

end Turn

/-- Whether a demand is to collect the status of a child for a process. -/
def Demand.Joins (caller target : Pid) : Demand Waker → Prop
  | .join wait _ => wait.caller = caller ∧ wait.target = target
  | _ => False

instance (caller target : Pid) (demand : Demand Waker) : Decidable (demand.Joins caller target) :=
  match demand with
  | .join _ _ => inferInstanceAs (Decidable (_ ∧ _))
  | .nothing | .start _ | .settle .. | .finish .. | .clear | .leave _ => isFalse not_false

instance (answer : Answer) : Decidable (answer = .pending) :=
  match answer with
  | .pending => isTrue rfl
  | .done | .opened _ | .spawned _ | .loading .. | .collected _ | .returned .. | .refused _
  | .faulted _ | .absent => isFalse nofun

/-! ## The stay of a guest -/

/-- What is asked of the turns of a stay: the run without the guest stops on no fault, the guest's
polls leave him parked, and once he was polled nobody else wants his seat. -/
structure Stay (guest : RequestId) (caller target : Pid) (parked : Bool)
    (hosting plain : Kernel Waker) (turns : List (Turn Waker)) : Prop where
  safe : ∀ step ∈ plain.steps (turns.filterMap Turn.other?), ¬ step.reply.Faulted
  pending : ∀ step ∈ hosting.steps (turns.map (Turn.call guest)),
    step.call.request? = some guest → step.reply.answer = .pending
  alone : (hosting.steps (turns.map (Turn.call guest))).Pairwise fun earlier later ↦
    earlier.call.request? = some guest → later.call.request? ≠ some guest →
      ¬ later.demand.Joins caller target
  taken : parked = true → ∀ step ∈ hosting.steps (turns.map (Turn.call guest)),
    step.call.request? ≠ some guest → ¬ step.demand.Joins caller target

section Stay

variable {guest : RequestId} {caller target : Pid} {parked : Bool} {hosting plain : Kernel Waker}
  {turns : List (Turn Waker)} {call : Call Waker} {waker : Waker} {memory : Memory}

/-- Answers that are the same but for ids are no faults, or both are. -/
theorem Reply.Mirrors.safe {seat : Option (Pid × Pid)} {reply other : Reply Waker}
    (mirrors : Reply.Mirrors guest seat reply other) (hsafe : ¬ other.Faulted) :
    ¬ reply.Faulted := by
  rintro ⟨fault, hfault⟩
  rw [mirrors.answer_eq] at hfault
  exact hsafe ⟨fault, Answer.faulted_raise hfault⟩

/-- The next call of another party comes to the same. -/
theorem Stay.mirrors
    (stays : Stay guest caller target parked hosting plain (.other call :: turns))
    (hosted : Hosted guest caller target parked hosting plain) :
    Reply.Mirrors guest (if parked then some (caller, target) else none)
      (hosting.perform (call.raise guest)) (plain.perform call) := by
  apply hosted.mirrors.perform
  intro wait used hdemand
  cases parked with
  | false => exact nofun
  | true =>
    intro hseat
    have hjoins := stays.taken rfl ⟨hosting, call.raise guest⟩ List.mem_cons_self
      (call.request?_raise guest)
    cases hseat
    exact hjoins (by rw [Step.demand, hdemand]; exact ⟨rfl, rfl⟩)

theorem Stay.other
    (stays : Stay guest caller target parked hosting plain (.other call :: turns)) :
    Stay guest caller target parked (hosting.perform (call.raise guest)).kernel
      (plain.perform call).kernel turns where
  safe := (List.forall_mem_cons.1 stays.safe).2
  pending := (List.forall_mem_cons.1 stays.pending).2
  alone := (List.pairwise_cons.1 stays.alone).2
  taken hparked := (List.forall_mem_cons.1 (stays.taken hparked)).2

theorem Stay.poll (stays : Stay guest caller target parked hosting plain
      (.poll waker memory :: turns)) :
    Stay guest caller target true (hosting.poll guest waker memory).kernel plain turns where
  safe := stays.safe
  pending := (List.forall_mem_cons.1 stays.pending).2
  alone := (List.pairwise_cons.1 stays.alone).2
  taken _ step hmem := (List.pairwise_cons.1 stays.alone).1 step hmem rfl

/-- At any time during the stay the guest changes nothing. -/
theorem Stay.hosted {sofar later : List (Turn Waker)}
    (stays : Stay guest caller target parked hosting plain (sofar ++ later))
    (hosted : Hosted guest caller target parked hosting plain) (sound : hosting.table.Sound) :
    ∃ still, Hosted guest caller target still (hosting.reach (sofar.map (Turn.call guest)))
        (plain.reach (sofar.filterMap Turn.other?)) ∧
      Stay guest caller target still (hosting.reach (sofar.map (Turn.call guest)))
        (plain.reach (sofar.filterMap Turn.other?)) later ∧
      (hosting.reach (sofar.map (Turn.call guest))).table.Sound ∧
      ∀ step ∈ hosting.steps (sofar.map (Turn.call guest)), ¬ step.reply.Faulted := by
  -- a call of another party moves both kernels, a poll of the guest only the one he is in
  induction sofar generalizing parked hosting plain with
  | nil => exact ⟨parked, hosted, stays, sound, List.forall_mem_nil _⟩
  | cons turn sofar ih =>
    cases turn with
    | other call =>
      have hreply := stays.mirrors hosted
      have hsafe : ¬ (hosting.perform (call.raise guest)).Faulted :=
        hreply.safe (stays.safe ⟨plain, call⟩ List.mem_cons_self)
      obtain ⟨still, hosted, stays, sound, hrest⟩ :=
        ih stays.other (hosted.other hreply) ((change_of_safe sound hsafe).sound sound)
      exact ⟨still, hosted, stays, sound, List.forall_mem_cons.2 ⟨hsafe, hrest⟩⟩
    | poll waker memory =>
      have hpending : (hosting.poll guest waker memory).answer = .pending :=
        stays.pending ⟨hosting, .poll guest waker memory⟩ List.mem_cons_self rfl
      have hsafe : ¬ (hosting.perform (.poll guest waker memory)).Faulted := by
        rintro ⟨fault, hfault⟩
        cases hpending.symm.trans hfault
      obtain ⟨still, hosted, stays, sound, hrest⟩ :=
        ih stays.poll (hosted.poll sound hpending) ((change_of_safe sound hsafe).sound sound)
      exact ⟨still, hosted, stays, sound, List.forall_mem_cons.2 ⟨hsafe, hrest⟩⟩

/-- Once the guest has gone all calls come to the same. -/
theorem Mirrors.after (mirrors : Mirrors guest none hosting plain) (calls : List (Call Waker)) :
    Mirrors guest none (hosting.reach (calls.map (Call.raise guest))) (plain.reach calls) := by
  induction calls generalizing hosting plain with
  | nil => exact mirrors
  | cons call rest ih => exact ih (mirrors.perform call fun _ _ _ ↦ nofun).kernel

theorem Mirrors.safe_after (mirrors : Mirrors guest none hosting plain) {calls : List (Call Waker)}
    (hsafe : ∀ step ∈ plain.steps calls, ¬ step.reply.Faulted) :
    ∀ step ∈ hosting.steps (calls.map (Call.raise guest)), ¬ step.reply.Faulted := by
  induction calls generalizing hosting plain with
  | nil => exact List.forall_mem_nil _
  | cons call rest ih =>
    obtain ⟨hfirst, hrest⟩ := List.forall_mem_cons.1 hsafe
    have hreply := mirrors.perform call fun _ _ _ ↦ nofun
    exact List.forall_mem_cons.2 ⟨hreply.safe hfirst, ih hreply.kernel hrest⟩

end Stay

/-! ## Episodes -/

/-- A run into which a join is put that is abandoned later. -/
structure Episode (Waker : Type) where
  /-- The calls before the join is opened. -/
  before : List (Call Waker)
  caller : Pid
  target : Pid
  turns : List (Turn Waker)
  /-- The calls after the join is dropped, as they are without it. -/
  rest : List (Call Waker)

namespace Episode

/-- The id of the join's request. -/
def guest (episode : Episode Waker) : RequestId := (initial.reach episode.before).nextRequest

/-- The calls from the opening of the join up to some turn. -/
def stay (episode : Episode Waker) (sofar : List (Turn Waker)) : List (Call Waker) :=
  .openJoin episode.caller episode.target :: sofar.map (Turn.call episode.guest)

/-- The calls from the drop of the join up to some later one. -/
def departure (episode : Episode Waker) (sofar : List (Call Waker)) : List (Call Waker) :=
  .abandon episode.guest :: sofar.map (Call.raise episode.guest)

/-- All calls of the run with the join. -/
def hostingCalls (episode : Episode Waker) : List (Call Waker) :=
  episode.before ++ episode.stay episode.turns ++ episode.departure episode.rest

/-- All calls of the run without the join. -/
def plainCalls (episode : Episode Waker) : List (Call Waker) :=
  episode.before ++ episode.turns.filterMap Turn.other? ++ episode.rest

/-- The steps between the opening of the join and its drop. -/
def stayed (episode : Episode Waker) : List (Step Waker) :=
  (initial.reach episode.before).steps (episode.stay episode.turns)

/-! ### The two runs, up to some time during the stay or after it -/

def hostingDuring (episode : Episode Waker) (sofar : List (Turn Waker)) : Kernel Waker :=
  initial.reach (episode.before ++ episode.stay sofar)

def plainDuring (episode : Episode Waker) (sofar : List (Turn Waker)) : Kernel Waker :=
  initial.reach (episode.before ++ sofar.filterMap Turn.other?)

def hostingAfter (episode : Episode Waker) (sofar : List (Call Waker)) : Kernel Waker :=
  initial.reach (episode.before ++ episode.stay episode.turns ++ episode.departure sofar)

def plainAfter (episode : Episode Waker) (sofar : List (Call Waker)) : Kernel Waker :=
  initial.reach (episode.before ++ episode.turns.filterMap Turn.other? ++ sofar)

/-- The join is as if it had never been. -/
structure Traceless (episode : Episode Waker) : Prop where
  /-- The run with the join stops on no fault either. -/
  safe : ∀ step ∈ initial.steps episode.hostingCalls, ¬ step.reply.Faulted
  answer_during {sofar later : List (Turn Waker)} {call : Call Waker}
    (hturns : episode.turns = sofar ++ .other call :: later) :
    ((episode.hostingDuring sofar).perform (call.raise episode.guest)).answer =
      ((episode.plainDuring sofar).perform call).answer.raise episode.guest
  /-- While the join is open the tables differ by claims only: its own one is there, and the later
  ones have higher tokens. -/
  table_during {sofar later : List (Turn Waker)} (hturns : episode.turns = sofar ++ later) :
    (episode.hostingDuring sofar).table.lower episode.guest = (episode.plainDuring sofar).table
  dropped : ((episode.hostingDuring episode.turns).perform (.abandon episode.guest)).answer = .done
  answer_after {sofar later : List (Call Waker)} {call : Call Waker}
    (hrest : episode.rest = sofar ++ call :: later) :
    ((episode.hostingAfter sofar).perform (call.raise episode.guest)).answer =
      ((episode.plainAfter sofar).perform call).answer.raise episode.guest
  /-- Once the join is dropped the tables differ by the tokens of claims only. -/
  table_after {sofar later : List (Call Waker)} (hrest : episode.rest = sofar ++ later) :
    (episode.hostingAfter sofar).table = (episode.plainAfter sofar).table.raise episode.guest

/-! ### The run with the join and the run without -/

/-- The kernel right after the join was opened. -/
def opened (episode : Episode Waker) : Kernel Waker :=
  ((initial.reach episode.before).perform (.openJoin episode.caller episode.target)).kernel

section Comparison

variable {episode : Episode Waker}

theorem hostingDuring_eq (sofar : List (Turn Waker)) :
    episode.hostingDuring sofar = episode.opened.reach (sofar.map (Turn.call episode.guest)) :=
  reach_append initial episode.before (episode.stay sofar)

theorem plainDuring_eq (sofar : List (Turn Waker)) :
    episode.plainDuring sofar =
      (initial.reach episode.before).reach (sofar.filterMap Turn.other?) :=
  reach_append initial episode.before _

theorem hostingAfter_eq (sofar : List (Call Waker)) :
    episode.hostingAfter sofar =
      ((episode.hostingDuring episode.turns).abandon episode.guest).kernel.reach
        (sofar.map (Call.raise episode.guest)) :=
  reach_append initial _ (episode.departure sofar)

theorem plainAfter_eq (sofar : List (Call Waker)) :
    episode.plainAfter sofar = (episode.plainDuring episode.turns).reach sofar :=
  reach_append initial _ sofar

variable (hsafe : ∀ step ∈ initial.steps episode.plainCalls, ¬ step.reply.Faulted)
  (hpending : ∀ step ∈ episode.stayed,
    step.call.request? = some episode.guest → step.reply.answer = .pending)
  (halone : episode.stayed.Pairwise fun earlier later ↦
    earlier.call.request? = some episode.guest → later.call.request? ≠ some episode.guest →
      ¬ later.demand.Joins episode.caller episode.target)

include hsafe

theorem safe_plain :
    (∀ step ∈ initial.steps episode.before, ¬ step.reply.Faulted) ∧
      (∀ step ∈ (initial.reach episode.before).steps (episode.turns.filterMap Turn.other?),
        ¬ step.reply.Faulted) ∧
      ∀ step ∈ (episode.plainDuring episode.turns).steps episode.rest, ¬ step.reply.Faulted := by
  unfold plainCalls at hsafe
  rw [steps_append, List.forall_mem_append, steps_append, List.forall_mem_append] at hsafe
  exact ⟨hsafe.1.1, hsafe.1.2, hsafe.2⟩

theorem hosted_opened :
    Hosted episode.guest episode.caller episode.target false episode.opened
        (initial.reach episode.before) ∧
      episode.opened.table.Sound := by
  have hrun := run_of_calls episode.before (safe_plain hsafe).1
  have hopens : ¬ ((initial.reach episode.before).perform
      (.openJoin episode.caller episode.target)).Faulted := by
    rintro ⟨fault, hfault⟩
    cases hfault
  exact ⟨hosted_of_open hrun _ _, (change_of_safe hrun.sound hopens).sound hrun.sound⟩

include hpending halone

theorem stays_opened :
    Stay episode.guest episode.caller episode.target false episode.opened
      (initial.reach episode.before) episode.turns where
  safe := (safe_plain hsafe).2.1
  pending := (List.forall_mem_cons.1 hpending).2
  alone := (List.pairwise_cons.1 halone).2
  taken := nofun

theorem hosted_during {sofar later : List (Turn Waker)} (hturns : episode.turns = sofar ++ later) :
    ∃ still,
      Hosted episode.guest episode.caller episode.target still (episode.hostingDuring sofar)
          (episode.plainDuring sofar) ∧
        Stay episode.guest episode.caller episode.target still (episode.hostingDuring sofar)
          (episode.plainDuring sofar) later ∧
        (episode.hostingDuring sofar).table.Sound ∧
        ∀ step ∈ episode.opened.steps (sofar.map (Turn.call episode.guest)),
          ¬ step.reply.Faulted := by
  have stays := stays_opened hsafe hpending halone
  obtain ⟨hosted, sound⟩ := hosted_opened hsafe
  rw [hturns] at stays
  rw [hostingDuring_eq, plainDuring_eq]
  exact stays.hosted hosted sound

theorem mirrors_dropped :
    Mirrors episode.guest none
        ((episode.hostingDuring episode.turns).abandon episode.guest).kernel
        (episode.plainDuring episode.turns) ∧
      ((episode.hostingDuring episode.turns).abandon episode.guest).answer = .done := by
  obtain ⟨still, hosted, -, sound, -⟩ :=
    hosted_during hsafe hpending halone (List.append_nil episode.turns).symm
  exact hosted.drop sound

theorem mirrors_after (sofar : List (Call Waker)) :
    Mirrors episode.guest none (episode.hostingAfter sofar) (episode.plainAfter sofar) := by
  rw [hostingAfter_eq, plainAfter_eq]
  exact (mirrors_dropped hsafe hpending halone).1.after sofar

theorem safe_hosting : ∀ step ∈ initial.steps episode.hostingCalls, ¬ step.reply.Faulted := by
  obtain ⟨hbefore, -, hrest⟩ := safe_plain hsafe
  obtain ⟨-, -, -, -, hstay⟩ :=
    hosted_during hsafe hpending halone (List.append_nil episode.turns).symm
  obtain ⟨mirrors, hdone⟩ := mirrors_dropped hsafe hpending halone
  have hopens : ¬ (⟨initial.reach episode.before,
      .openJoin episode.caller episode.target⟩ : Step Waker).reply.Faulted := by
    rintro ⟨fault, hfault⟩
    cases hfault
  have hdrops : ¬ (⟨episode.hostingDuring episode.turns, .abandon episode.guest⟩ :
      Step Waker).reply.Faulted := by
    rintro ⟨fault, hfault⟩
    cases hdone.symm.trans hfault
  unfold hostingCalls
  rw [steps_append, List.forall_mem_append, steps_append, List.forall_mem_append]
  refine ⟨⟨hbefore, List.forall_mem_cons.2 ⟨hopens, hstay⟩⟩, ?_⟩
  exact List.forall_mem_cons.2 ⟨hdrops, mirrors.safe_after hrest⟩

/-- A join that is abandoned is as if it had never been opened. -/
theorem tracelessKept : episode.Traceless where
  safe := safe_hosting hsafe hpending halone
  answer_during hturns := by
    obtain ⟨still, hosted, stays, -⟩ := hosted_during hsafe hpending halone hturns
    exact (stays.mirrors hosted).answer_eq
  table_during hturns := by
    obtain ⟨still, hosted, -⟩ := hosted_during hsafe hpending halone hturns
    exact hosted.mirrors.twin.plain_eq.symm
  dropped := (mirrors_dropped hsafe hpending halone).2
  answer_after {sofar later call} _ := by
    have mirrors := mirrors_after hsafe hpending halone sofar
    exact (mirrors.perform call fun _ _ _ ↦ nofun).answer_eq
  table_after {sofar later} _ := (mirrors_after hsafe hpending halone sofar).twin.eq_raise

end Comparison

/-- The root waits for its grandchild too. While the abandoned join of the parent is parked the
parent is killed, the root gets the child and parks on it, and the child exits; the root collects
its status when the join is gone. -/
def orphaned : Episode Nat where
  before := [.spawn none "init" .empty, .finishLoad (.ok ⟨0, 0, 0, 0, blank⟩),
    .spawn (some 1) "parent" .empty, .finishLoad (.ok ⟨0, 0, 0, 0, blank⟩),
    .spawn (some 2) "child" .empty, .finishLoad (.ok ⟨0, 0, 0, 0, blank⟩)]
  caller := 2
  target := 3
  turns := [.poll 7 blank, .other (.openJoin 1 3), .poll 8 blank, .other (.terminate 2 .killed),
    .other (.poll 0 9 blank), .other (.terminate 3 (.exited 4))]
  rest := [.poll 0 10 blank]

theorem tracelessKept_orphaned :
    (∀ step ∈ initial.steps orphaned.plainCalls, ¬ step.reply.Faulted) ∧
      (∀ step ∈ orphaned.stayed,
        step.call.request? = some orphaned.guest → step.reply.answer = .pending) ∧
      (orphaned.stayed.Pairwise fun earlier later ↦
        earlier.call.request? = some orphaned.guest → later.call.request? ≠ some orphaned.guest →
          ¬ later.demand.Joins orphaned.caller orphaned.target) ∧
      orphaned.Traceless := by
  have hsafe : ∀ step ∈ initial.steps orphaned.plainCalls, ¬ step.reply.Faulted := by
    decide +kernel
  have hpending : ∀ step ∈ orphaned.stayed,
      step.call.request? = some orphaned.guest → step.reply.answer = .pending := by
    decide +kernel
  have halone : orphaned.stayed.Pairwise fun earlier later ↦
      earlier.call.request? = some orphaned.guest → later.call.request? ≠ some orphaned.guest →
        ¬ later.demand.Joins orphaned.caller orphaned.target := by
    decide +kernel
  exact ⟨hsafe, hpending, halone, tracelessKept hsafe hpending halone⟩

end Episode

end Lifecycle.Kernel
