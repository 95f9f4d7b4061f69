import Lifecycle.Scheduling.RunQueue
import Lifecycle.Scheduling.SelfWake
import Mathlib.Data.List.Basic

/-!
# Run queues that throw nothing away

As long as no suspended task loses its last waker, everybody in the line is there once and is to be
run. What the operations on a queue do is described by the standing of one task at a time.
-/

namespace Lifecycle

theorem SelfWake.count_pos (how : SelfWake) : 0 < how.count := by cases how <;> decide

namespace RunQueue

variable {queue : RunQueue} {task other : TaskId} {standing : Standing}

/-- Everybody in the line is there once, and is to be run. -/
structure Trim (queue : RunQueue) : Prop where
  nodup : queue.line.Nodup
  ready {task : TaskId} (hmem : task ∈ queue.line) : queue.standing task = .ready
  numbered {task : TaskId} (hstanding : queue.standing task ≠ .ended) : task < queue.next

theorem trim_empty : empty.Trim where
  nodup := List.nodup_nil
  ready hmem := by cases hmem
  numbered hstanding := by simp at hstanding

theorem standing_place_self (queue : RunQueue) (task : TaskId) (standing : Standing) :
    (queue.place task standing).standing task = standing := by
  rw [standing_place, if_pos rfl]

theorem standing_place_of_ne (hne : task ≠ other) :
    (queue.place task standing).standing other = queue.standing other := by
  rw [standing_place, if_neg hne]

namespace Trim

variable (trim : queue.Trim)

include trim

/-- Only those who are to be run stand in the line. -/
theorem not_mem (hstanding : queue.standing task ≠ .ready) : task ∉ queue.line :=
  fun hmem ↦ hstanding (trim.ready hmem)

theorem standing_next : queue.standing queue.next = .ended := by
  by_contra hstanding
  exact Nat.lt_irrefl _ (trim.numbered hstanding)

theorem place (hmem : task ∉ queue.line) (hlt : task < queue.next) (standing : Standing) :
    (queue.place task standing).Trim where
  nodup := trim.nodup
  ready {other} hother := by
    have hne : task ≠ other := by
      rintro rfl
      exact hmem hother
    rw [standing_place_of_ne hne]
    exact trim.ready hother
  numbered {other} hother := by
    rw [standing_place] at hother
    split at hother
    · next heq => exact heq ▸ hlt
    · exact trim.numbered hother

/-- Whoever joins the line stands there once, be it at the head or at the tail. -/
theorem enter {line : List TaskId} (hmem : task ∉ queue.line) (hlt : task < queue.next)
    (hline : line.Perm (task :: queue.line)) :
    ({ queue.place task .ready with line } : RunQueue).Trim where
  nodup := hline.nodup_iff.2 (List.nodup_cons.2 ⟨hmem, trim.nodup⟩)
  ready {other} hother := by
    change (queue.place task .ready).standing other = .ready
    rw [standing_place]
    split
    · rfl
    · next hne =>
      obtain heq | htail := List.mem_cons.1 (hline.mem_iff.1 hother)
      · exact absurd heq.symm hne
      · exact trim.ready htail
  numbered hother := (trim.place hmem hlt .ready).numbered hother

end Trim

@[simp]
theorem standing_pushHead (queue : RunQueue) (task other : TaskId) :
    (queue.pushHead task).standing other = queue.standing other := rfl

@[simp]
theorem standing_pushTail (queue : RunQueue) (task other : TaskId) :
    (queue.pushTail task).standing other = queue.standing other := rfl

/-! ## Waking -/

/-- What the use of a waker makes of a standing. -/
def woken : Standing → Standing
  | .suspended => .ready
  | .running _ => .running true
  | .held => .held
  | .ready => .ready
  | .closing => .closing
  | .ended => .ended

theorem standing_wake (queue : RunQueue) (task other : TaskId) :
    (queue.wake task).standing other =
      if task = other then woken (queue.standing task) else queue.standing other := by
  unfold wake
  split
  · next hstanding =>
    rw [standing_pushHead, standing_place, hstanding]
    rfl
  · next hstanding =>
    rw [standing_place, hstanding]
    rfl
  · next hnot hidle =>
    split
    · next heq =>
      subst heq
      cases hstanding : queue.standing task with
      | suspended => exact absurd hstanding hnot
      | running before => exact absurd hstanding (hidle before)
      | held | ready | closing | ended => rfl
    · rfl

/-- Whoever is woken is not suspended any more. -/
theorem standing_wake_self (queue : RunQueue) (task : TaskId) :
    (queue.wake task).standing task ≠ .suspended := by
  rw [standing_wake, if_pos rfl]
  cases queue.standing task <;> simp [woken]

theorem standing_of_wake (hstanding : (queue.wake task).standing other ≠ .ended) :
    queue.standing other ≠ .ended := by
  intro hended
  rw [standing_wake] at hstanding
  split at hstanding
  · next heq =>
    rw [heq, hended] at hstanding
    exact hstanding rfl
  · exact hstanding hended

theorem line_wake (queue : RunQueue) (task : TaskId) :
    (queue.wake task).line =
      if queue.standing task = .suspended then task :: queue.line else queue.line := by
  unfold wake
  split
  · next hstanding =>
    rw [if_pos hstanding]
    rfl
  · next hstanding =>
    rw [if_neg (by simp [hstanding])]
    rfl
  · next hnot _ => rw [if_neg hnot]

theorem next_wake (queue : RunQueue) (task : TaskId) : (queue.wake task).next = queue.next := by
  unfold wake
  split <;> rfl

theorem Trim.wake (trim : queue.Trim) (task : TaskId) : (queue.wake task).Trim := by
  unfold RunQueue.wake
  split
  · next hstanding =>
    exact trim.enter (trim.not_mem (by simp [hstanding])) (trim.numbered (by simp [hstanding]))
      (.refl _)
  · next hstanding =>
    exact trim.place (trim.not_mem (by simp [hstanding])) (trim.numbered (by simp [hstanding])) _
  · exact trim

theorem forsake_of_ne (hstanding : queue.standing task ≠ .suspended) :
    queue.forsake task = queue := by
  unfold forsake
  split
  · next hsuspended => exact absurd hsuspended hstanding
  · rfl

/-! ## New tasks -/

theorem spawn_eq (queue : RunQueue) :
    queue.spawn = (queue.next, (queue.prepare.2.place queue.next .ready).pushHead queue.next) := by
  have hheld : queue.prepare.2.standing queue.next = .held := standing_place_self _ _ _
  have hspawn : queue.spawn = (queue.next, queue.prepare.2.schedule queue.next) := rfl
  rw [hspawn, schedule, hheld]

theorem standing_spawn (queue : RunQueue) (other : TaskId) :
    queue.spawn.2.standing other =
      if queue.next = other then .ready else queue.standing other := by
  rw [spawn_eq, standing_pushHead, standing_place]
  split
  · rfl
  · next hne => exact standing_place_of_ne hne

theorem line_spawn (queue : RunQueue) : queue.spawn.2.line = queue.next :: queue.line := by
  rw [spawn_eq]
  rfl

theorem next_spawn (queue : RunQueue) : queue.spawn.2.next = queue.next + 1 := by
  rw [spawn_eq]
  rfl

theorem id_spawn (queue : RunQueue) : queue.spawn.1 = queue.next := by rw [spawn_eq]

theorem Trim.spawn (trim : queue.Trim) : queue.spawn.2.Trim := by
  have hnew : queue.next ∉ queue.line := trim.not_mem (by simp [trim.standing_next])
  constructor
  case nodup =>
    rw [line_spawn]
    exact List.nodup_cons.2 ⟨hnew, trim.nodup⟩
  case ready =>
    intro task hmem
    rw [line_spawn] at hmem
    rw [standing_spawn]
    split
    · rfl
    · next hne => exact trim.ready (List.mem_of_ne_of_mem (Ne.symm hne) hmem)
  case numbered =>
    intro task hstanding
    rw [standing_spawn] at hstanding
    rw [next_spawn]
    split at hstanding
    · next heq => exact heq ▸ Nat.lt_succ_self _
    · exact Nat.lt_succ_of_lt (trim.numbered hstanding)

/-! ## Runs of single tasks -/

theorem line_of_fetch (hfetch : queue.fetch? = none) : queue.line = [] := by
  cases hline : queue.line with
  | nil => rfl
  | cons task line =>
    simp only [fetch?, hline] at hfetch
    split at hfetch <;> cases hfetch

/-- The head of the line is to be run. -/
theorem Trim.fetch (trim : queue.Trim) {fetched : Fetched} {left : RunQueue}
    (hfetch : queue.fetch? = some (fetched, left)) :
    ∃ task line, queue.line = task :: line ∧ fetched = .toRun task ∧
      left = { queue.place task (.running false) with line } := by
  unfold fetch? at hfetch
  split at hfetch
  · cases hfetch
  · next task line hline =>
    have hready : ({ queue with line } : RunQueue).standing task = .ready :=
      trim.ready (hline ▸ List.mem_cons_self)
    simp only [hready] at hfetch
    cases hfetch
    exact ⟨task, line, hline, rfl, rfl⟩

theorem Trim.fetched (trim : queue.Trim) {line : List TaskId} (hline : queue.line = task :: line) :
    ({ queue.place task (.running false) with line } : RunQueue).Trim := by
  have hnodup : (task :: line).Nodup := hline ▸ trim.nodup
  have hready := trim.ready (hline ▸ List.mem_cons_self : task ∈ queue.line)
  have hlast : ({ queue with line } : RunQueue).Trim :=
    ⟨(List.nodup_cons.1 hnodup).2, fun hmem ↦ trim.ready (hline ▸ List.mem_cons_of_mem _ hmem),
      fun h ↦ trim.numbered h⟩
  exact hlast.place (List.nodup_cons.1 hnodup).1 (trim.numbered (by simp [hready])) _

theorem standing_suspend {woken : Bool} (hrunning : queue.standing task = .running woken)
    (other : TaskId) :
    (queue.suspend task).1.standing other =
      if task = other then (if woken then .ready else .suspended) else queue.standing other := by
  unfold suspend
  rw [hrunning]
  cases woken with
  | true => exact standing_place _ _ _ _
  | false => exact standing_place _ _ _ _

theorem line_suspend {woken : Bool} (hrunning : queue.standing task = .running woken) :
    (queue.suspend task).1.line = if woken then queue.line ++ [task] else queue.line := by
  unfold suspend
  rw [hrunning]
  cases woken <;> rfl

theorem next_suspend (queue : RunQueue) (task : TaskId) :
    (queue.suspend task).1.next = queue.next := by
  unfold suspend
  split <;> rfl

theorem Trim.suspend (trim : queue.Trim) {woken : Bool}
    (hrunning : queue.standing task = .running woken) : (queue.suspend task).1.Trim := by
  have hmem := trim.not_mem (by simp [hrunning] : queue.standing task ≠ .ready)
  have hlt := trim.numbered (by simp [hrunning] : queue.standing task ≠ .ended)
  unfold RunQueue.suspend
  rw [hrunning]
  cases woken with
  | true => exact trim.enter hmem hlt (List.perm_append_singleton task queue.line)
  | false => exact trim.place hmem hlt .suspended

theorem Trim.finish (trim : queue.Trim) (hmem : task ∉ queue.line) : (queue.finish task).Trim where
  nodup := trim.nodup
  ready {other} hother := by
    have hne : task ≠ other := by
      rintro rfl
      exact hmem hother
    exact (standing_place_of_ne hne).trans (trim.ready hother)
  numbered {other} hother := by
    unfold RunQueue.finish at hother
    rw [standing_place] at hother
    split at hother
    · exact absurd rfl hother
    · exact trim.numbered hother

/-! ## Giving way -/

/-- A running task that is woken stays where it is, and it is known that it was woken. -/
theorem repeat_wake {before : Bool} (hrunning : queue.standing task = .running before)
    (count : Nat) :
    let left := count.repeat (fun queue ↦ queue.wake task) queue
    left.line = queue.line ∧ left.next = queue.next ∧
      ∀ other, left.standing other =
        if task = other then .running (before || decide (0 < count)) else queue.standing other := by
  induction count with
  | zero =>
    refine ⟨rfl, rfl, fun other ↦ ?_⟩
    change queue.standing other = _
    split
    · next heq => simpa [← heq] using hrunning
    · rfl
  | succ count ih =>
    obtain ⟨hline, hnext, hstanding⟩ := ih
    rw [Nat.repeat]
    generalize count.repeat (fun queue ↦ queue.wake task) queue = left at *
    have hagain := hstanding task
    rw [if_pos rfl] at hagain
    refine ⟨?_, ?_, fun other ↦ ?_⟩
    · rw [line_wake, if_neg (by simp [hagain]), hline]
    · rw [next_wake, hnext]
    · rw [standing_wake, hagain, hstanding]
      split
      · simp [RunQueue.woken]
      · rfl

/-- A task that gave way is at the tail of the line, be it woken once or twice. -/
theorem suspend_woken {before : Bool} (hrunning : queue.standing task = .running before)
    (how : SelfWake) :
    let left := (how.count.repeat (fun queue ↦ queue.wake task) queue).suspend task
    left.1.line = queue.line ++ [task] ∧ left.1.next = queue.next ∧
      ∀ other, left.1.standing other = if task = other then .ready else queue.standing other := by
  obtain ⟨hline, hnext, hstanding⟩ := repeat_wake hrunning how.count
  generalize how.count.repeat (fun queue ↦ queue.wake task) queue = left at *
  have hwoken : left.standing task = .running true := by simp [hstanding, how.count_pos]
  refine ⟨?_, ?_, fun other ↦ ?_⟩
  · rw [line_suspend hwoken, hline, if_pos rfl]
  · rw [next_suspend, hnext]
  · rw [standing_suspend hwoken, hstanding]
    split <;> rfl

/-! ## Held tasks -/

theorem standing_prepare (queue : RunQueue) (other : TaskId) :
    queue.prepare.2.standing other = if queue.next = other then .held else queue.standing other :=
  standing_place _ _ _ _

theorem standing_schedule (hheld : queue.standing task = .held) (other : TaskId) :
    (queue.schedule task).standing other =
      if task = other then .ready else queue.standing other := by
  rw [schedule, hheld]
  exact standing_place _ _ _ _

theorem standing_start (hheld : queue.standing task = .held) (other : TaskId) :
    (queue.start task).standing other =
      if task = other then .running false else queue.standing other := by
  rw [start, hheld]
  exact standing_place _ _ _ _

/-! ## Queues that hold everybody who is to be run -/

/-- The line is made of those who are to be run, each of them once. -/
structure Exact (queue : RunQueue) : Prop extends Trim queue where
  waits {task : TaskId} (hready : queue.standing task = .ready) : task ∈ queue.line

theorem exact_empty : empty.Exact where
  toTrim := trim_empty
  waits hready := by simp at hready

namespace Exact

variable (full : queue.Exact)

include full

theorem place (hmem : task ∉ queue.line) (hlt : task < queue.next) (hstanding : standing ≠ .ready) :
    (queue.place task standing).Exact where
  toTrim := full.toTrim.place hmem hlt standing
  waits {other} hready := by
    rw [standing_place] at hready
    split at hready
    · exact absurd hready hstanding
    · exact full.waits hready

theorem enter {line : List TaskId} (hmem : task ∉ queue.line) (hlt : task < queue.next)
    (hline : line.Perm (task :: queue.line)) :
    ({ queue.place task .ready with line } : RunQueue).Exact where
  toTrim := full.toTrim.enter hmem hlt hline
  waits {other} hready := by
    change (queue.place task .ready).standing other = .ready at hready
    rw [standing_place] at hready
    refine hline.mem_iff.2 ?_
    split at hready
    · next heq => exact heq ▸ List.mem_cons_self
    · exact List.mem_cons_of_mem _ (full.waits hready)

theorem wake (task : TaskId) : (queue.wake task).Exact := by
  unfold RunQueue.wake
  split
  · next hstanding =>
    exact full.enter (full.not_mem (by simp [hstanding])) (full.numbered (by simp [hstanding]))
      (.refl _)
  · next hstanding =>
    exact full.place (full.not_mem (by simp [hstanding])) (full.numbered (by simp [hstanding]))
      nofun
  · exact full

theorem prepare : queue.prepare.2.Exact := by
  have hnext := full.standing_next
  have hmem : queue.next ∉ queue.line := full.not_mem (by simp [hnext])
  have hwider : ({ queue with next := queue.next + 1 } : RunQueue).Exact :=
    ⟨⟨full.nodup, full.ready, fun h ↦ Nat.lt_succ_of_lt (full.numbered h)⟩, full.waits⟩
  exact hwider.place hmem (Nat.lt_succ_self _) nofun

theorem schedule (hheld : queue.standing task = .held) : (queue.schedule task).Exact := by
  rw [RunQueue.schedule, hheld]
  exact full.enter (full.not_mem (by simp [hheld])) (full.numbered (by simp [hheld])) (.refl _)

theorem start (hheld : queue.standing task = .held) : (queue.start task).Exact := by
  rw [RunQueue.start, hheld]
  exact full.place (full.not_mem (by simp [hheld])) (full.numbered (by simp [hheld])) nofun

theorem spawn : queue.spawn.2.Exact := by
  have hheld : queue.prepare.2.standing queue.next = .held := standing_place_self _ _ _
  exact full.prepare.schedule hheld

theorem fetched {line : List TaskId} (hline : queue.line = task :: line) :
    ({ queue.place task (.running false) with line } : RunQueue).Exact where
  toTrim := full.toTrim.fetched hline
  waits {other} hready := by
    change (queue.place task (.running false)).standing other = .ready at hready
    rw [standing_place] at hready
    split at hready
    · cases hready
    · next hne =>
      have hmem := hline ▸ full.waits hready
      exact List.mem_of_ne_of_mem (Ne.symm hne) hmem

theorem suspend {woken : Bool} (hrunning : queue.standing task = .running woken) :
    (queue.suspend task).1.Exact := by
  have hmem := full.not_mem (by simp [hrunning] : queue.standing task ≠ .ready)
  have hlt := full.numbered (by simp [hrunning] : queue.standing task ≠ .ended)
  unfold RunQueue.suspend
  rw [hrunning]
  cases woken with
  | true => exact full.enter hmem hlt (List.perm_append_singleton task queue.line)
  | false => exact full.place hmem hlt nofun

theorem finish (hmem : task ∉ queue.line) : (queue.finish task).Exact where
  toTrim := full.toTrim.finish hmem
  waits {other} hready := by
    unfold RunQueue.finish at hready
    rw [standing_place] at hready
    split at hready
    · cases hready
    · exact full.waits hready

end Exact

end RunQueue

end Lifecycle
