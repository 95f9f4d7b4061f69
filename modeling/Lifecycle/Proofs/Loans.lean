import Lifecycle.Proofs.Pool
import Lifecycle.Proofs.Transfers

/-!
# Numbers on loan

What a pool is asked and what it answers make a history of loans and returns, and the history tells
the pool: how many loans there were tells the next fresh number, and those in wait are the numbers
to be lent again. From this follow the replies to all requests.

A number of the range can be given back exactly while it is on loan. Numbers below the range can be
given back as well, once, and are lent afterwards like any other. As long as only numbers on loan
are given back, the first loans go through the range in order, each later one is of the number that
came back last, and nothing is left to lend exactly if all of the range is on loan.
-/

namespace Lifecycle.IdPool

variable {start limit id : Nat} {pool : IdPool} {request : Request}
  {before requests : List Request} {history : List Transfer} {transfer : Transfer}

/-! ## What the history tells of a pool -/

/-- The change of hands that a reply stands for, if any. -/
def Request.transfer? : Request → Reply → Option Transfer
  | .take, .taken id => id.map .lent
  | .release id, .released => some (.returned id)
  | _, _ => none

/-- The reply to a request that comes after others. -/
def replyAfter (pool : IdPool) (before : List Request) (request : Request) : Reply :=
  ((pool.serveAll before).1.serve request).2

/-- The changes of hands while requests are served. -/
def transfers (pool : IdPool) (requests : List Request) : List Transfer :=
  (requests.zip (pool.serveAll requests).2).filterMap fun (request, reply) ↦
    request.transfer? reply

theorem serveAll_append (pool : IdPool) (before after : List Request) :
    pool.serveAll (before ++ after) =
      (((pool.serveAll before).1.serveAll after).1,
        (pool.serveAll before).2 ++ ((pool.serveAll before).1.serveAll after).2) := by
  induction before generalizing pool with
  | nil => rfl
  | cons request rest ih => simp only [List.cons_append, serveAll, ih]

theorem length_serveAll (pool : IdPool) (requests : List Request) :
    (pool.serveAll requests).2.length = requests.length := by
  induction requests generalizing pool with
  | nil => rfl
  | cons request rest ih => simp only [serveAll, List.length_cons, ih]

theorem transfers_concat (pool : IdPool) (before : List Request) (request : Request) :
    pool.transfers (before ++ [request]) =
      pool.transfers before ++ (request.transfer? (pool.replyAfter before request)).toList := by
  unfold transfers
  rw [serveAll_append, List.zip_append (length_serveAll pool before).symm, List.filterMap_append]
  rfl

/-- A pool over a range after a history of loans and returns. -/
structure Tallies (start limit : Nat) (history : List Transfer) (pool : IdPool) : Prop where
  limit_eq : pool.limit = limit
  next_eq : pool.next = start + min (loans history) (limit - start)
  freed_eq : pool.freed = waiting history
  reached {id : Nat} (hlast : last? history id ≠ none) : id < pool.next
  moved {id : Nat} (hstart : start ≤ id) (hnext : id < pool.next) : last? history id ≠ none

theorem tallies_fresh (start limit : Nat) : Tallies start limit [] (fresh start limit) where
  limit_eq := rfl
  next_eq := by simp [fresh, loans]
  freed_eq := rfl
  reached hlast := absurd rfl hlast
  moved hstart hnext := absurd hnext (Nat.not_lt.2 hstart)

namespace Tallies

variable (tallies : Tallies start limit history pool)

include tallies

/-- A fresh number goes next while there were fewer loans than the range has numbers, then the
number that came back last. -/
theorem reply_take : (pool.serve .take).2 = .taken
    (if loans history < limit - start then some (start + loans history)
      else (waiting history).head?) := by
  have hnext := tallies.next_eq
  have hlimit := tallies.limit_eq
  cases htake : pool.take? with
  | none =>
    obtain ⟨hused, hfreed⟩ := take?_eq_none_iff.1 htake
    rw [if_neg (by omega), ← tallies.freed_eq, hfreed]
    simp [serve, htake]
  | some taken =>
    obtain ⟨id, rest⟩ := taken
    obtain ⟨hfresh, rfl, -⟩ | ⟨hused, hfront, -⟩ := take?_eq_some htake
    · rw [if_pos (by omega), show start + loans history = pool.next by omega]
      simp [serve, htake]
    · rw [if_neg (by omega), ← tallies.freed_eq, hfront]
      simp [serve, htake]

/-- A number that never changed hands is not in wait. -/
theorem isOut_of_none (hlast : last? history id = none) (hnext : id < pool.next) :
    pool.IsOut id := by
  refine ⟨hnext, fun hmem ↦ ?_⟩
  have hwait : InWait history id := mem_waiting_iff.1 (tallies.freed_eq ▸ hmem)
  cases hlast.symm.trans hwait

theorem isOut_of_onLoan (hloan : OnLoan history id) : pool.IsOut id := by
  refine ⟨tallies.reached hloan.last?_ne_none, fun hmem ↦ ?_⟩
  exact hloan.not_inWait (mem_waiting_iff.1 (tallies.freed_eq ▸ hmem))

/-- Numbers on loan are taken back, and so are those below the range at first. -/
theorem reply_release (id : Nat) : (pool.serve (.release id)).2 =
    match last? history id with
    | some (.lent _) => .released
    | some (.returned _) => .faulted (.freedTwice id)
    | none => if id < start then .released else .faulted (.neverAllocated id) := by
  cases hlast : last? history id with
  | none =>
    have hstart : start ≤ pool.next := tallies.next_eq ▸ Nat.le_add_right _ _
    by_cases hbelow : id < start
    · have hout := tallies.isOut_of_none hlast (Nat.lt_of_lt_of_le hbelow hstart)
      rw [serve_release_of_isOut hout]
      simp [hbelow]
    · have hnext : pool.next ≤ id := by
        by_contra hreached
        exact tallies.moved (Nat.le_of_not_lt hbelow) (Nat.lt_of_not_le hreached) hlast
      rw [serve_release_of_unreached hnext]
      simp [hbelow]
  | some transfer =>
    have hid := id_of_last? hlast
    cases transfer with
    | lent other =>
      obtain rfl : other = id := hid
      rw [serve_release_of_isOut (tallies.isOut_of_onLoan hlast)]
    | returned other =>
      obtain rfl : other = id := hid
      have hmem : other ∈ pool.freed := tallies.freed_eq ▸ mem_waiting_iff.2 hlast
      have hlt := tallies.reached (InWait.last?_ne_none hlast)
      rw [serve_release_of_freed hlt hmem]

/-- A fresh number is handed out. -/
theorem lend_fresh {rest : IdPool} (hfresh : loans history < limit - start)
    (hnext : rest.next = pool.next + 1) (hfreed : rest.freed = pool.freed)
    (hlimit : rest.limit = pool.limit) :
    Tallies start limit (history ++ [.lent pool.next]) rest := by
  have hbefore := tallies.next_eq
  have hnew : last? history pool.next = none := by
    by_contra hlast
    exact Nat.lt_irrefl _ (tallies.reached hlast)
  constructor
  case limit_eq => rw [hlimit, tallies.limit_eq]
  case next_eq =>
    rw [loans_concat, hnext]
    simp only [Transfer.isLent, if_true]
    omega
  case freed_eq =>
    rw [hfreed, tallies.freed_eq, waiting_concat]
    refine (List.filter_eq_self.2 fun id hmem ↦ ?_).symm
    have hwait : InWait history id := mem_waiting_iff.1 hmem
    have hne : id ≠ pool.next := by
      rintro rfl
      cases hnew.symm.trans hwait
    simpa using hne
  case reached =>
    intro id hlast
    rw [last?_concat] at hlast
    split at hlast
    · next heq =>
      have hid : pool.next = id := heq
      omega
    · have hlt := tallies.reached hlast
      omega
  case moved =>
    intro id hstart hlt
    rw [last?_concat]
    split
    · exact Option.some_ne_none _
    · next hne =>
      have hother : pool.next ≠ id := hne
      exact tallies.moved hstart (by omega)

/-- The number in front of those in wait is handed out. -/
theorem lend_front {rest : IdPool} (hused : limit - start ≤ loans history)
    (hfront : pool.freed = id :: rest.freed) (hnext : rest.next = pool.next)
    (hlimit : rest.limit = pool.limit) :
    Tallies start limit (history ++ [.lent id]) rest := by
  have hbefore := tallies.next_eq
  have hwait : InWait history id :=
    mem_waiting_iff.1 (tallies.freed_eq ▸ hfront ▸ List.mem_cons_self)
  have hlast : last? history id ≠ none := hwait.last?_ne_none
  constructor
  case limit_eq => rw [hlimit, tallies.limit_eq]
  case next_eq =>
    rw [loans_concat, hnext]
    omega
  case freed_eq =>
    have hnodup : (id :: rest.freed).Nodup := hfront ▸ pool.freed_nodup
    rw [waiting_concat, ← tallies.freed_eq, hfront, Transfer.move,
      List.filter_cons_of_neg (by simp)]
    refine (List.filter_eq_self.2 fun other hmem ↦ ?_).symm
    simpa using fun heq : other = id ↦ (List.nodup_cons.1 hnodup).1 (heq ▸ hmem)
  case reached =>
    intro other hother
    rw [last?_concat] at hother
    rw [hnext]
    split at hother
    · next heq => exact heq ▸ tallies.reached hlast
    · exact tallies.reached hother
  case moved =>
    intro other hstart hlt
    rw [last?_concat]
    split
    · exact Option.some_ne_none _
    · exact tallies.moved hstart (hnext ▸ hlt)

/-- A number is given back. -/
theorem give_back (hout : pool.IsOut id) :
    Tallies start limit (history ++ [.returned id]) (pool.released id) := by
  constructor
  case limit_eq => rw [limit_released, tallies.limit_eq]
  case next_eq =>
    rw [next_released, loans_concat]
    exact tallies.next_eq
  case freed_eq =>
    rw [freed_released hout, waiting_concat, ← tallies.freed_eq, Transfer.move,
      List.filter_eq_self.2]
    intro other hmem
    simpa using fun heq : other = id ↦ hout.2 (heq ▸ hmem)
  case reached =>
    intro other hlast
    rw [last?_concat] at hlast
    rw [next_released]
    split at hlast
    · next heq => exact heq ▸ hout.1
    · exact tallies.reached hlast
  case moved =>
    intro other hstart hlt
    rw [last?_concat]
    split
    · exact Option.some_ne_none _
    · exact tallies.moved hstart (next_released pool id ▸ hlt)

/-- The history goes on with what a request brings about. -/
theorem serve (request : Request) :
    Tallies start limit (history ++ (request.transfer? (pool.serve request).2).toList)
      (pool.serve request).1 := by
  have hnext := tallies.next_eq
  have hlimit := tallies.limit_eq
  cases request with
  | take =>
    unfold IdPool.serve
    cases htake : pool.take? with
    | none => simpa [Request.transfer?] using tallies
    | some taken =>
      obtain ⟨id, rest⟩ := taken
      obtain ⟨hfresh, rfl, hrest⟩ | ⟨hused, hfront, hrest⟩ := take?_eq_some htake
      · exact tallies.lend_fresh (by omega) hrest.1 hrest.2.1 hrest.2.2
      · exact tallies.lend_front (by omega) hfront hrest.1 hrest.2
  | release id =>
    by_cases hunreached : pool.next ≤ id
    · rw [serve_release_of_unreached hunreached]
      simpa [Request.transfer?] using tallies
    · by_cases hfreed : id ∈ pool.freed
      · rw [serve_release_of_freed (Nat.lt_of_not_le hunreached) hfreed]
        simpa [Request.transfer?] using tallies
      · have hout : pool.IsOut id := ⟨Nat.lt_of_not_le hunreached, hfreed⟩
        rw [serve_release_of_isOut hout]
        exact tallies.give_back hout

end Tallies

/-- After any requests a pool over a range is told by what changed hands. -/
theorem tallies_serveAll (start limit : Nat) (before : List Request) :
    Tallies start limit ((fresh start limit).transfers before)
      ((fresh start limit).serveAll before).1 := by
  induction before using List.reverseRecOn with
  | nil => exact tallies_fresh start limit
  | append_singleton before request ih =>
    rw [transfers_concat, serveAll_append]
    exact ih.serve request

section Replies

variable (start limit : Nat) (before : List Request)

theorem replyAfter_take :
    (fresh start limit).replyAfter before .take = .taken
      (if loans ((fresh start limit).transfers before) < limit - start then
        some (start + loans ((fresh start limit).transfers before))
      else (waiting ((fresh start limit).transfers before)).head?) :=
  (tallies_serveAll start limit before).reply_take

theorem replyAfter_release (id : Nat) :
    (fresh start limit).replyAfter before (.release id) =
      match last? ((fresh start limit).transfers before) id with
      | some (.lent _) => .released
      | some (.returned _) => .faulted (.freedTwice id)
      | none => if id < start then .released else .faulted (.neverAllocated id) :=
  (tallies_serveAll start limit before).reply_release id

end Replies

/-- A number that is handed out is fresh or was in wait. -/
theorem fresh_or_inWait
    (htaken : (fresh start limit).replyAfter before .take = .taken (some id)) :
    (loans ((fresh start limit).transfers before) < limit - start ∧
        id = start + loans ((fresh start limit).transfers before)) ∨
      InWait ((fresh start limit).transfers before) id := by
  rw [replyAfter_take] at htaken
  split at htaken
  · next hfresh =>
    cases htaken
    exact .inl ⟨hfresh, rfl⟩
  · exact .inr (mem_waiting_iff.1 (List.mem_of_head? (Reply.taken.inj htaken)))

theorem exists_replyAfter {reply : Reply} (hreply : reply ∈ (pool.serveAll requests).2) :
    ∃ before request after, requests = before ++ request :: after ∧
      reply = pool.replyAfter before request := by
  induction requests generalizing pool with
  | nil => cases hreply
  | cons request rest ih =>
    obtain hfirst | hlater := List.mem_cons.1 hreply
    · exact ⟨[], request, rest, rfl, hfirst⟩
    · obtain ⟨before, later, after, rfl, heq⟩ := ih hlater
      exact ⟨request :: before, later, after, rfl, heq⟩

theorem transfer?_eq_some {reply : Reply} (hmoved : request.transfer? reply = some transfer) :
    (request = .take ∧ reply = .taken (some transfer.id)) ∨
      (request = .release transfer.id ∧ reply = .released) := by
  cases request <;> cases reply <;> simp only [Request.transfer?, reduceCtorEq] at hmoved
  case take.taken taken =>
    obtain ⟨id, rfl, rfl⟩ := Option.map_eq_some_iff.1 hmoved
    exact .inl ⟨rfl, rfl⟩
  case release.released id =>
    cases hmoved
    exact .inr ⟨rfl, rfl⟩

/-- No number below the range changes hands as long as none comes back that is not on loan. -/
theorem start_le_of_last?
    (hreturns : ∀ {before after : List Request} {id : Nat},
      requests = before ++ .release id :: after →
        start ≤ id ∨ OnLoan ((fresh start limit).transfers before) id)
    (hbefore : before <+: requests)
    (hlast : last? ((fresh start limit).transfers before) id ≠ none) : start ≤ id := by
  induction before using List.reverseRecOn generalizing id with
  | nil => exact absurd rfl hlast
  | append_singleton before request ih =>
    have hearlier : before <+: requests := (List.prefix_append before [request]).trans hbefore
    obtain ⟨after, hsplit⟩ := hbefore
    rw [List.append_assoc] at hsplit
    rw [transfers_concat] at hlast
    cases hmoved : request.transfer? ((fresh start limit).replyAfter before request) with
    | none =>
      rw [hmoved, Option.toList_none, List.append_nil] at hlast
      exact ih hearlier hlast
    | some transfer =>
      rw [hmoved, Option.toList_some, last?_concat] at hlast
      split at hlast
      case isFalse => exact ih hearlier hlast
      next hid =>
      subst hid
      obtain ⟨rfl, htaken⟩ | ⟨rfl, -⟩ := transfer?_eq_some hmoved
      · obtain ⟨-, hfresh⟩ | hwait := fresh_or_inWait htaken
        · exact hfresh ▸ Nat.le_add_right _ _
        · exact ih hearlier hwait.last?_ne_none
      · obtain hstart | hloan := hreturns hsplit.symm
        · exact hstart
        · exact ih hearlier hloan.last?_ne_none

/-! ## Returns of any kind -/

def Reply.Faulted (reply : Reply) : Prop := ∃ fault, reply = .faulted fault

theorem faulted_release_iff :
    ((fresh start limit).replyAfter before (.release id)).Faulted ↔
      ¬ OnLoan ((fresh start limit).transfers before) id ∧
        (start ≤ id ∨ InWait ((fresh start limit).transfers before) id) := by
  rw [replyAfter_release, Reply.Faulted]
  cases hlast : last? ((fresh start limit).transfers before) id with
  | none =>
    by_cases hbelow : id < start
    · simp [OnLoan, InWait, hlast, hbelow]
    · simp [OnLoan, InWait, hlast, hbelow, Nat.le_of_not_lt]
  | some transfer =>
    have hid := id_of_last? hlast
    cases transfer with
    | lent other =>
      obtain rfl : other = id := hid
      simp [OnLoan, hlast]
    | returned other =>
      obtain rfl : other = id := hid
      simp [OnLoan, InWait, hlast]

/-- What is handed out was not on loan and does not lie above the range. -/
theorem lt_of_taken (hrange : start < limit)
    (htaken : (fresh start limit).replyAfter before .take = .taken (some id)) :
    id < limit ∧ ¬ OnLoan ((fresh start limit).transfers before) id := by
  have tallies := tallies_serveAll start limit before
  have hnext := tallies.next_eq
  obtain ⟨hfresh, rfl⟩ | hwait := fresh_or_inWait htaken
  · refine ⟨by omega, fun hloan ↦ ?_⟩
    have hreached := tallies.reached hloan.last?_ne_none
    omega
  · have hreached := tallies.reached hwait.last?_ne_none
    exact ⟨by omega, fun hloan ↦ hloan.not_inWait hwait⟩

/-- Only what is on loan can be given back, and only numbers of the range that are not on loan are
handed out. -/
structure Guarded (start limit : Nat) (pool : IdPool) (requests : List Request) : Prop where
  faulted_iff {before after : List Request} {id : Nat}
    (hsplit : requests = before ++ .release id :: after) :
    (pool.replyAfter before (.release id)).Faulted ↔ ¬ OnLoan (pool.transfers before) id
  taken {before after : List Request} {id : Nat} (hsplit : requests = before ++ .take :: after)
    (htaken : pool.replyAfter before .take = .taken (some id)) :
    start ≤ id ∧ id < limit ∧ ¬ OnLoan (pool.transfers before) id

/-- What becomes of returns of any kind. A number below the range is taken back unless it is in wait
already, and may then be handed out; apart from that, returns are guarded. -/
structure ReturnsKept (start limit : Nat) (pool : IdPool) (requests : List Request) : Prop where
  guarded (hrange : ∀ id, .release id ∈ requests → start ≤ id) : Guarded start limit pool requests
  faulted_iff {before after : List Request} {id : Nat}
    (hsplit : requests = before ++ .release id :: after) :
    (pool.replyAfter before (.release id)).Faulted ↔
      ¬ OnLoan (pool.transfers before) id ∧ (start ≤ id ∨ InWait (pool.transfers before) id)
  taken {before after : List Request} {id : Nat} (hsplit : requests = before ++ .take :: after)
    (htaken : pool.replyAfter before .take = .taken (some id)) :
    id < limit ∧ ¬ OnLoan (pool.transfers before) id ∧
      (start ≤ id ∨ InWait (pool.transfers before) id)

theorem ofRange_eq_ok (hpool : ofRange start limit = .ok pool) :
    start < limit ∧ pool = fresh start limit := by
  unfold ofRange at hpool
  split at hpool
  · next hrange =>
    cases hpool
    exact ⟨hrange, rfl⟩
  · cases hpool

theorem start_le_or_inWait
    (htaken : (fresh start limit).replyAfter before .take = .taken (some id)) :
    start ≤ id ∨ InWait ((fresh start limit).transfers before) id :=
  (fresh_or_inWait htaken).imp_left fun ⟨_, hfresh⟩ ↦ hfresh ▸ Nat.le_add_right _ _

theorem returnsKept (hpool : ofRange start limit = .ok pool) (requests : List Request) :
    ReturnsKept start limit pool requests := by
  obtain ⟨hrange, rfl⟩ := ofRange_eq_ok hpool
  constructor
  case faulted_iff => exact fun _ ↦ faulted_release_iff
  case taken =>
    intro before after id hsplit htaken
    obtain ⟨hlt, hloan⟩ := lt_of_taken hrange htaken
    exact ⟨hlt, hloan, start_le_or_inWait htaken⟩
  case guarded =>
    intro hreturns
    constructor
    case faulted_iff =>
      intro before after id hsplit
      have hstart := hreturns id (hsplit ▸ List.mem_append_right _ List.mem_cons_self)
      rw [faulted_release_iff]
      exact and_iff_left (.inl hstart)
    case taken =>
      intro before after id hsplit htaken
      obtain ⟨hlt, hloan⟩ := lt_of_taken hrange htaken
      refine ⟨?_, hlt, hloan⟩
      obtain hstart | hwait := start_le_or_inWait htaken
      · exact hstart
      · refine start_le_of_last? (fun {_ _ id} hother ↦ .inl (hreturns id ?_))
          (hsplit ▸ List.prefix_append before _) hwait.last?_ne_none
        exact hother ▸ List.mem_append_right _ List.mem_cons_self

/-- A number below the range is given back, and lent when the range is used up. -/
def stray : List Request := [.release 0, .take, .take, .take, .release 0, .release 0, .release 5]

theorem returnsKept_stray :
    ofRange 5 7 = .ok (fresh 5 7) ∧ ReturnsKept 5 7 (fresh 5 7) stray :=
  ⟨rfl, returnsKept rfl stray⟩

/-- The pool of the numbers 5 and 6 takes back 0, which it never lent, and then lends it. -/
theorem not_guarded_stray :
    ofRange 5 7 = .ok (fresh 5 7) ∧ ¬ Guarded 5 7 (fresh 5 7) stray ∧
      ((fresh 5 7).serveAll stray).2 = [.released, .taken (some 5), .taken (some 6),
        .taken (some 0), .released, .faulted (.freedTwice 0), .released] := by
  refine ⟨rfl, fun guarded ↦ ?_, by decide +kernel⟩
  have hsplit : stray = [] ++ .release 0 :: stray.tail := rfl
  obtain ⟨fault, hreply⟩ := (guarded.faulted_iff hsplit).2 (by decide +kernel)
  cases hreply.symm.trans (by decide +kernel : _ = Reply.released)

/-! ## Returns of numbers on loan -/

/-- Only what is on loan is given back. -/
def Request.Allowed (history : List Transfer) : Request → Prop
  | .take => True
  | .release id => OnLoan history id

instance : Decidable (request.Allowed history) :=
  match request with
  | .take => .isTrue trivial
  | .release id => inferInstanceAs (Decidable (OnLoan history id))

/-- Each request is allowed after those before it. -/
def Lawful (pool : IdPool) (requests : List Request) : Prop :=
  ∀ index : Fin requests.length,
    (requests.get index).Allowed (pool.transfers (requests.take index))

instance : Decidable (pool.Lawful requests) :=
  inferInstanceAs (Decidable (∀ _ : Fin requests.length, _))

theorem Lawful.onLoan {after : List Request} (hlawful : pool.Lawful requests)
    (hsplit : requests = before ++ .release id :: after) : OnLoan (pool.transfers before) id := by
  subst hsplit
  have hallowed := hlawful ⟨before.length, by simp⟩
  simpa [Request.Allowed] using hallowed

/-- While only numbers on loan are given back, no request is at fault, the range is lent in order,
then the number that came back last, and nothing is left exactly if all are on loan. -/
structure LoansKept (start limit : Nat) (pool : IdPool) (requests : List Request) : Prop where
  served : ∀ reply ∈ (pool.serveAll requests).2, ¬ reply.Faulted
  exhausted_iff {before after : List Request} (hsplit : requests = before ++ .take :: after) :
    pool.replyAfter before .take = .taken none ↔
      ∀ id, start ≤ id → id < limit → OnLoan (pool.transfers before) id
  fresh {before after : List Request} (hsplit : requests = before ++ .take :: after)
    (hfew : loans (pool.transfers before) < limit - start) :
    pool.replyAfter before .take = .taken (some (start + loans (pool.transfers before)))
  latest_iff {before after : List Request} {id : Nat} (hsplit : requests = before ++ .take :: after)
    (hmany : limit - start ≤ loans (pool.transfers before)) :
    pool.replyAfter before .take = .taken (some id) ↔ IsLatest (pool.transfers before) id

/-- Nothing is left to hand out exactly if all fresh numbers were lent and none is in wait. -/
theorem taken_none_iff :
    (fresh start limit).replyAfter before .take = .taken none ↔
      limit - start ≤ loans ((fresh start limit).transfers before) ∧
        waiting ((fresh start limit).transfers before) = [] := by
  rw [replyAfter_take]
  split
  · next hfew => exact iff_of_false nofun fun hused ↦ Nat.not_le.2 hfew hused.1
  · next hmany => simp [-Nat.sub_le_iff_le_add, Nat.not_lt.1 hmany]

/-- Nothing is left to hand out exactly if the range is on loan, unless a number below it came
back. -/
theorem exhausted_iff_onLoan (hrange : start < limit)
    (hstart : ∀ id, InWait ((fresh start limit).transfers before) id → start ≤ id) :
    (fresh start limit).replyAfter before .take = .taken none ↔
      ∀ id, start ≤ id → id < limit → OnLoan ((fresh start limit).transfers before) id := by
  have tallies := tallies_serveAll start limit before
  have hnext := tallies.next_eq
  rw [taken_none_iff]
  constructor
  case mp =>
    rintro ⟨hmany, hnone⟩ id hstart hlt
    obtain hloan | hwait := onLoan_or_inWait (tallies.moved hstart (by omega))
    · exact hloan
    · exact absurd (mem_waiting_iff.2 hwait) (hnone ▸ List.not_mem_nil)
  case mpr =>
    intro hall
    have hmany : limit - start ≤ loans ((fresh start limit).transfers before) := by
      by_contra hfew
      have hloan := hall ((fresh start limit).serveAll before).1.next (by omega) (by omega)
      exact Nat.lt_irrefl _ (tallies.reached hloan.last?_ne_none)
    refine ⟨hmany, List.eq_nil_iff_forall_not_mem.2 fun id hmem ↦ ?_⟩
    have hwait := mem_waiting_iff.1 hmem
    have hreached := tallies.reached hwait.last?_ne_none
    exact (hall id (hstart id hwait) (by omega)).not_inWait hwait

theorem loansKept (hpool : ofRange start limit = .ok pool) (hlawful : pool.Lawful requests) :
    LoansKept start limit pool requests := by
  obtain ⟨hrange, rfl⟩ := ofRange_eq_ok hpool
  constructor
  case served =>
    rintro reply hreply ⟨fault, rfl⟩
    obtain ⟨before, request, after, hsplit, hfault⟩ := exists_replyAfter hreply
    cases request with
    | take =>
      rw [replyAfter_take] at hfault
      cases hfault
    | release id => exact (faulted_release_iff.1 ⟨fault, hfault.symm⟩).1 (hlawful.onLoan hsplit)
  case exhausted_iff =>
    intro before after hsplit
    exact exhausted_iff_onLoan hrange fun id hwait ↦
      start_le_of_last? (fun hother ↦ .inr (hlawful.onLoan hother))
        (hsplit ▸ List.prefix_append before _) hwait.last?_ne_none
  case fresh =>
    intro before after hsplit hfew
    rw [replyAfter_take, if_pos hfew]
  case latest_iff =>
    intro before after id hsplit hmany
    rw [replyAfter_take, if_neg (Nat.not_lt.2 hmany), ← head?_waiting_iff]
    simp

/-- Numbers come back while there are fresh ones, and go out again when these are used up. -/
def recycling : List Request :=
  [.take, .take, .release 5, .release 6, .take, .take, .take, .release 7, .take, .take]

theorem loansKept_recycling :
    ofRange 5 8 = .ok (fresh 5 8) ∧ (fresh 5 8).Lawful recycling ∧
      LoansKept 5 8 (fresh 5 8) recycling := by
  have hlawful : (fresh 5 8).Lawful recycling := by decide +kernel
  exact ⟨rfl, hlawful, loansKept rfl hlawful⟩

end Lifecycle.IdPool
