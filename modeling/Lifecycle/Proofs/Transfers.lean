import Lifecycle.IdPool
import Mathlib.Data.List.Induction

/-!
# Histories of loans and returns

Whatever a pool is asked, its numbers are lent and returned in turn. A history of this tells for
each number what happened to it last, and which numbers wait to be lent again: those whose last
transfer was a return, the latest return first.
-/

namespace Lifecycle.IdPool

/-- A number changes hands. -/
inductive Transfer where
  | lent (id : Nat)
  | returned (id : Nat)
  deriving DecidableEq, Repr

namespace Transfer

def id : Transfer → Nat
  | lent id => id
  | returned id => id

def isLent : Transfer → Bool
  | lent _ => true
  | returned _ => false

/-- What a transfer makes of the numbers in wait. -/
def move : Transfer → List Nat → List Nat
  | lent id, ids => ids.filter (· != id)
  | returned id, ids => id :: ids.filter (· != id)

end Transfer

variable {id : Nat} {history front back : List Transfer} {transfer : Transfer}

/-- What happened to a number last. -/
def last? (history : List Transfer) (id : Nat) : Option Transfer :=
  (history.filter (·.id = id)).getLast?

/-- The number was handed out and not given back since. -/
def OnLoan (history : List Transfer) (id : Nat) : Prop := last? history id = some (.lent id)

/-- The number was given back and not handed out since. -/
def InWait (history : List Transfer) (id : Nat) : Prop := last? history id = some (.returned id)

instance : Decidable (OnLoan history id) := inferInstanceAs (Decidable (_ = _))

instance : Decidable (InWait history id) := inferInstanceAs (Decidable (_ = _))

/-- The number was given back and not handed out since, and all that were given back after it were
handed out since. -/
def IsLatest (history : List Transfer) (id : Nat) : Prop :=
  ∃ front back, history = front ++ .returned id :: back ∧ .lent id ∉ back ∧
    ∀ other, .returned other ∈ back → ¬ InWait history other

/-- The numbers in wait, the one that came back last in front. -/
def waiting (history : List Transfer) : List Nat :=
  history.foldl (fun ids transfer ↦ transfer.move ids) []

def loans (history : List Transfer) : Nat := history.countP Transfer.isLent

theorem last?_append (front back : List Transfer) (id : Nat) :
    last? (front ++ back) id = (last? back id).or (last? front id) := by
  unfold last?
  rw [List.filter_append, List.getLast?_append]

theorem last?_concat (history : List Transfer) (transfer : Transfer) (id : Nat) :
    last? (history ++ [transfer]) id =
      if transfer.id = id then some transfer else last? history id := by
  rw [last?_append]
  by_cases heq : transfer.id = id <;> simp [last?, heq]

theorem id_of_last? (hlast : last? history id = some transfer) : transfer.id = id := by
  have hmem := List.mem_of_getLast? hlast
  exact of_decide_eq_true (List.mem_filter.1 hmem).2

theorem mem_of_last? (hlast : last? history id = some transfer) : transfer ∈ history :=
  (List.mem_filter.1 (List.mem_of_getLast? hlast)).1

theorem last?_eq_none_iff : last? history id = none ↔ ∀ transfer ∈ history, transfer.id ≠ id := by
  simp [last?]

/-- A number is on loan or in wait, or never changed hands. -/
theorem onLoan_or_inWait (hlast : last? history id ≠ none) :
    OnLoan history id ∨ InWait history id := by
  obtain ⟨transfer, hsome⟩ := Option.ne_none_iff_exists'.1 hlast
  have hid := id_of_last? hsome
  cases transfer with
  | lent other =>
    obtain rfl : other = id := hid
    exact .inl hsome
  | returned other =>
    obtain rfl : other = id := hid
    exact .inr hsome

theorem OnLoan.last?_ne_none (hloan : OnLoan history id) : last? history id ≠ none :=
  Option.ne_none_iff_exists'.2 ⟨_, hloan⟩

theorem InWait.last?_ne_none (hwait : InWait history id) : last? history id ≠ none :=
  Option.ne_none_iff_exists'.2 ⟨_, hwait⟩

theorem OnLoan.not_inWait (hloan : OnLoan history id) : ¬ InWait history id := by
  intro hwait
  cases hloan.symm.trans hwait

/-- What happened to a number last is told by any end of the history that names it. -/
theorem last?_of_suffix (hsuffix : back <:+ history) (hlast : last? back id ≠ none) :
    last? history id = last? back id := by
  obtain ⟨front, rfl⟩ := hsuffix
  obtain ⟨transfer, hsome⟩ := Option.ne_none_iff_exists'.1 hlast
  rw [last?_append, hsome, Option.some_or]

theorem waiting_concat (history : List Transfer) (transfer : Transfer) :
    waiting (history ++ [transfer]) = transfer.move (waiting history) := by
  simp [waiting]

theorem loans_concat (history : List Transfer) (transfer : Transfer) :
    loans (history ++ [transfer]) = loans history + (if transfer.isLent then 1 else 0) := by
  simp [loans, List.countP_append, List.countP_singleton]

/-- Later transfers leave those in wait whom they do not name. -/
theorem waiting_append (front back : List Transfer) :
    waiting (front ++ back) =
      waiting back ++ (waiting front).filter fun id ↦ (last? back id).isNone := by
  induction back using List.reverseRecOn with
  | nil =>
    have hall : ∀ id ∈ waiting front, (last? [] id).isNone = true := fun _ _ ↦ rfl
    rw [List.filter_eq_self.2 hall, List.append_nil]
    rfl
  | append_singleton back transfer ih =>
    have hlast (id : Nat) : (last? (back ++ [transfer]) id).isNone =
        (id != transfer.id && (last? back id).isNone) := by
      rw [last?_concat]
      by_cases heq : transfer.id = id
      · simp [heq]
      · simp [heq, Ne.symm heq]
    rw [← List.append_assoc, waiting_concat, waiting_concat, ih]
    simp only [hlast]
    cases transfer <;> simp only [Transfer.move, Transfer.id, List.filter_append,
      List.filter_filter, List.cons_append]

theorem mem_waiting_iff : id ∈ waiting history ↔ InWait history id := by
  unfold InWait
  induction history using List.reverseRecOn with
  | nil => simp [waiting, last?]
  | append_singleton history transfer ih =>
    rw [waiting_concat, last?_concat]
    cases transfer with
    | lent other =>
      by_cases heq : id = other
      · simp [Transfer.move, Transfer.id, heq]
      · simp [Transfer.move, Transfer.id, heq, Ne.symm heq, ih]
    | returned other =>
      by_cases heq : id = other
      · simp [Transfer.move, Transfer.id, heq]
      · simp [Transfer.move, Transfer.id, heq, Ne.symm heq, ih]

/-- The place in a history where a number changed hands last. -/
theorem split_of_last? (hlast : last? history id = some transfer) :
    ∃ front back, history = front ++ transfer :: back ∧ last? back id = none := by
  induction history using List.reverseRecOn with
  | nil => cases hlast
  | append_singleton history last ih =>
    rw [last?_concat] at hlast
    split at hlast
    · next heq =>
      cases hlast
      exact ⟨history, [], rfl, rfl⟩
    · next hne =>
      obtain ⟨front, back, rfl, hback⟩ := ih hlast
      refine ⟨front, back ++ [last], by simp, ?_⟩
      rw [last?_concat, if_neg hne, hback]

/-- What waits at the end of a history waits because of its last return. -/
theorem waiting_split (front back : List Transfer) (id : Nat) (hback : last? back id = none) :
    ∃ rest, waiting (front ++ .returned id :: back) = waiting back ++ id :: rest := by
  have hself : waiting [.returned id] = [id] := rfl
  rw [List.append_cons, waiting_append, waiting_append, hself]
  simp [hback]

/-- In front of the numbers in wait is the one that came back last of them. -/
theorem head?_waiting_iff : (waiting history).head? = some id ↔ IsLatest history id := by
  constructor
  case mp =>
    intro hhead
    have hwait : InWait history id := mem_waiting_iff.1 (List.mem_of_head? hhead)
    obtain ⟨front, back, rfl, hback⟩ := split_of_last? hwait
    obtain ⟨rest, hsplit⟩ := waiting_split front back id hback
    have hsuffix : back <:+ front ++ .returned id :: back := ⟨front ++ [.returned id], by simp⟩
    have hnone : waiting back = [] := by
      cases hwaiting : waiting back with
      | nil => rfl
      | cons other others =>
        rw [hsplit, hwaiting] at hhead
        obtain rfl : other = id := Option.some_inj.1 hhead
        have hother : InWait back other := mem_waiting_iff.1 (hwaiting ▸ List.mem_cons_self)
        cases hback.symm.trans hother
    refine ⟨front, back, rfl, fun hlent ↦ last?_eq_none_iff.1 hback _ hlent rfl, ?_⟩
    intro other hreturned hwhole
    have hlast : last? back other ≠ none := fun h ↦ last?_eq_none_iff.1 h _ hreturned rfl
    have hother : InWait back other := (last?_of_suffix hsuffix hlast).symm.trans hwhole
    exact List.not_mem_nil (hnone ▸ mem_waiting_iff.2 hother)
  case mpr =>
    rintro ⟨front, back, rfl, hlent, hothers⟩
    have hsuffix : back <:+ front ++ .returned id :: back := ⟨front ++ [.returned id], by simp⟩
    have hnone : waiting back = [] := by
      refine List.eq_nil_iff_forall_not_mem.2 fun other hmem ↦ ?_
      have hother : InWait back other := mem_waiting_iff.1 hmem
      have hlast : last? back other ≠ none := hother.last?_ne_none
      exact hothers other (mem_of_last? hother) ((last?_of_suffix hsuffix hlast).trans hother)
    have hback : last? back id = none := by
      by_contra hsome
      obtain hloan | hwait := onLoan_or_inWait hsome
      · exact hlent (mem_of_last? hloan)
      · exact List.not_mem_nil (hnone ▸ mem_waiting_iff.2 hwait)
    obtain ⟨rest, hsplit⟩ := waiting_split front back id hback
    rw [hsplit, hnone]
    rfl

end Lifecycle.IdPool
