import Lifecycle.Session.Script
import Mathlib.Data.List.Forall2

/-!
# What an action of a session leads to

`Leads` follows an action from one session to the next, part by part. Only the core of a session
decides what is run: the kernel, the tasks and their queue, the handles and the images. Whatever
looks after events, memories and names is idle, that is, it leaves the core alone.
-/

namespace Lifecycle.Session

variable {α β : Type} {session : Session}

/-- The part of a session that decides what is run. -/
structure Core where
  kernel : Kernel Waker
  images : List (String × Image)
  handles : List (String × Handle)
  queue : RunQueue
  tasks : Std.ExtTreeMap TaskId Task
  runLimit : Nat

def core (session : Session) : Core :=
  ⟨session.kernel, session.images, session.handles, session.queue, session.tasks,
    session.runLimit⟩

/-- Started in a session, an action leads to a value and a core of some kind. -/
def Leads (action : SessionM α) (session : Session) (post : α → Core → Prop) : Prop :=
  post (action.run session).1 (action.run session).2.core

/-- An action leaves the core of every session alone. -/
def Idle (action : SessionM α) : Prop :=
  ∀ session : Session, (action.run session).2.core = session.core

variable {action : SessionM α} {next : α → SessionM β} {first : α → Core → Prop}
  {post : β → Core → Prop}

theorem Leads.mono {second : α → Core → Prop} (hleads : Leads action session first)
    (himplies : ∀ value core, first value core → second value core) :
    Leads action session second :=
  himplies _ _ hleads

theorem Leads.bind (hfirst : Leads action session first)
    (hnext : ∀ value (middle : Session), first value middle.core → Leads (next value) middle post) :
    Leads (action >>= next) session post :=
  hnext _ _ hfirst

theorem leads_pure {value : α} (hpost : first value session.core) :
    Leads (pure value) session first :=
  hpost

/-- A session that is looked at stays the same. -/
theorem leads_get_bind {next : Session → SessionM β} (hnext : Leads (next session) session post) :
    Leads (get >>= next) session post :=
  hnext

theorem leads_modify_bind {change : Session → Session} {next : PUnit → SessionM β}
    (hnext : Leads (next ⟨⟩) (change session) post) :
    Leads (modify change >>= next) session post :=
  hnext

theorem Idle.bind_leads (idle : Idle action)
    (hnext : ∀ value (middle : Session), middle.core = session.core →
      Leads (next value) middle post) : Leads (action >>= next) session post :=
  hnext _ _ (idle session)

theorem Idle.leads (idle : Idle action) (hpost : ∀ value, first value session.core) :
    Leads action session first := by
  unfold Leads
  rw [idle session]
  exact hpost _

theorem leads_quietly {post : α → Core → Prop}
    (hleads : ∀ middle : Session, middle.core = session.core → Leads action middle post) :
    Leads (quietly action) session post := by
  refine leads_get_bind (leads_modify_bind ?_)
  refine Leads.bind (hleads { session with isQuiet := true } rfl) fun _ _ hlast ↦ ?_
  exact leads_modify_bind (leads_pure hlast)

/-- Actions that keep some kind of core, one after the other, and what each of them answers. -/
theorem leads_mapM {Item : Type} {body : Item → SessionM α} {kind : Core → Prop}
    {fits : Item → α → Prop} (items : List Item)
    (hbody : ∀ (item : Item) (middle : Session), kind middle.core →
      Leads (body item) middle fun value after ↦ fits item value ∧ kind after)
    (hkind : kind session.core) :
    Leads (items.mapM body) session fun values after ↦
      List.Forall₂ fits items values ∧ kind after := by
  induction items generalizing session with
  | nil => exact leads_pure ⟨.nil, hkind⟩
  | cons item rest ih =>
    rw [List.mapM_cons]
    refine (hbody item session hkind).bind fun value middle ⟨hfits, hmiddle⟩ ↦ ?_
    exact (ih hmiddle).bind fun values last ⟨hall, hlast⟩ ↦ leads_pure ⟨.cons hfits hall, hlast⟩

/-! ## How idle actions are put together -/

theorem idle_pure (value : α) : Idle (pure value) := fun _ ↦ rfl

theorem idle_get : Idle get := fun _ ↦ rfl

theorem idle_modify {change : Session → Session}
    (hchange : ∀ session, (change session).core = session.core) : Idle (modify change) :=
  hchange

theorem Idle.bind (idle : Idle action) (hnext : ∀ value, Idle (next value)) :
    Idle (action >>= next) :=
  fun session ↦ (hnext _ _).trans (idle session)

theorem idle_mapM {Item : Type} {body : Item → SessionM α} (items : List Item)
    (hbody : ∀ item ∈ items, Idle (body item)) : Idle (items.mapM body) := by
  induction items with
  | nil => exact idle_pure _
  | cons item rest ih =>
    rw [List.mapM_cons]
    rw [List.forall_mem_cons] at hbody
    exact hbody.1.bind fun _ ↦ (ih hbody.2).bind fun _ ↦ idle_pure _

theorem idle_forM {Item : Type} {body : Item → SessionM PUnit} (items : List Item)
    (hbody : ∀ item ∈ items, Idle (body item)) : Idle (items.forM body) := by
  induction items with
  | nil => exact idle_pure _
  | cons item rest ih =>
    rw [List.forall_mem_cons] at hbody
    exact hbody.1.bind fun _ ↦ ih hbody.2

/-! ## Events, spaces and views -/

theorem idle_emit (event : Event) : Idle (emit event) := by
  refine idle_modify fun session ↦ ?_
  split <;> rfl

theorem idle_log (notice : Notice) : Idle (log notice) := by
  refine idle_get.bind fun session ↦ ?_
  split
  · exact idle_emit _
  · exact idle_pure _

theorem idle_tableSize : Idle tableSize := fun _ ↦ rfl

theorem idle_addSpace (space : Space) : Idle (addSpace space) := fun _ ↦ rfl

theorem idle_nameSpace (name : String) (space : SpaceId) : Idle (nameSpace name space) :=
  fun _ ↦ rfl

theorem idle_spaceNamed? (name : String) : Idle (spaceNamed? name) := fun _ ↦ rfl

theorem idle_memory (id : SpaceId) : Idle (memory id) := fun _ ↦ rfl

theorem idle_setMemory (id : SpaceId) (memory : Memory) : Idle (setMemory id memory) := fun _ ↦ rfl

theorem idle_view : Idle view := by
  refine idle_get.bind fun session ↦ ?_
  split <;> exact idle_pure _

/-! ## Memory and values of a process -/

theorem idle_reserve (process : Process) (length : Nat) : Idle (reserve process length) :=
  fun _ ↦ rfl

theorem idle_store (process : Process) (address : Nat) (bytes : Bytes) :
    Idle (store process address bytes) := fun _ ↦ rfl

theorem idle_putString (process : Process) (bytes : Bytes) : Idle (putString process bytes) :=
  fun _ ↦ rfl

theorem idle_putTable (process : Process) (strings : List Bytes) :
    Idle (putTable process strings) :=
  (idle_mapM strings fun _ _ ↦ idle_putString process _).bind fun _ ↦
    (idle_reserve process _).bind fun _ ↦ (idle_store process _ _).bind fun _ ↦ idle_pure _

theorem idle_evaluate (process : Process) (bindings : Bindings) (operand : Operand) :
    Idle (evaluate process bindings operand) := by
  cases operand with
  | literal | named => exact idle_pure _
  | string bytes => exact (idle_putString process bytes).bind fun _ ↦ idle_pure _

theorem idle_ownArguments (process : Process) : Idle (ownArguments process) := by
  refine (idle_memory _).bind fun memory ↦ ?_
  split <;> exact idle_pure _

theorem idle_phaseOf (pid : Pid) : Idle (phaseOf pid) := fun _ ↦ rfl

theorem idle_showPerformed (process : Process) (instruction : String) (details : List Detail) :
    Idle (showPerformed process instruction details) := idle_emit _

theorem idle_finishSyscall (process : Process) (bindings : Bindings) (value : Int)
    (continuation : Continuation) : Idle (finishSyscall process bindings value continuation) := by
  cases continuation with
  | shown => exact (idle_showPerformed _ _ _).bind fun _ ↦ idle_pure _
  | shownWithWord =>
    exact (idle_memory _).bind fun _ ↦ (idle_showPerformed _ _ _).bind fun _ ↦ idle_pure _

end Lifecycle.Session
