import Lifecycle.Proofs.Pairing
import Lifecycle.Proofs.Table.Guest
import Lifecycle.Table.Insertion
import Lifecycle.Table.Joining
import Lifecycle.Table.Termination

/-!
# The table, with and without a guest

Every operation ends alike on a table and on the same one without a guest, and leaves two such
tables. The one exception is a joiner who wants the very seat that the guest has.
-/

namespace Lifecycle

variable {Waker : Type} {guest : Nat} {seat : Option (Pid × Pid)} {one two : Table Waker}

open Lifecycle.Action

/-! ## Parts of several operations -/

theorem pairs_linkedRecord (twin : one.Twin guest seat two) (pid : Pid) :
    Pairs (Table.Twin guest seat)
      (fun record plain ↦ plain = record.lower guest ∧ record.Fits guest seat)
      (linkedRecord pid) (linkedRecord pid) one two := by
  unfold linkedRecord
  apply pairs_table_bind
  rw [twin.record?_eq]
  cases hrecord : one.record? pid with
  | none => exact (pairs_note _ twin).bind fun _ htables ↦ pairs_fault _ htables
  | some record => exact pairs_pure ⟨rfl, (twin.hosts pid record hrecord).2⟩ twin

theorem pairs_addChild (twin : one.Twin guest seat two) (parent child : Pid) :
    Pairs (Table.Twin guest seat) (· = ·) (addChild parent child) (addChild parent child)
      one two := by
  apply (pairs_linkedRecord twin parent).bind
  rintro record _ one two ⟨rfl, fits⟩ twin
  exact pairs_update (twin.put fits)

theorem pairs_countEnded (twin : one.Twin guest seat two) :
    Pairs (Table.Twin guest seat) (· = ·) countEnded countEnded one two := by
  obtain ⟨hosts, rfl⟩ := twin
  unfold countEnded
  apply pairs_table_bind
  rw [Table.running_lower]
  cases one.running with
  | zero => exact pairs_fault _ ⟨hosts, rfl⟩
  | succ running => exact pairs_update ⟨hosts, rfl⟩

theorem pairs_releasePid (twin : one.Twin guest seat two) (pid : Pid) :
    Pairs (Table.Twin guest seat) (· = ·) (releasePid pid) (releasePid pid) one two := by
  obtain ⟨hosts, rfl⟩ := twin
  unfold releasePid
  apply pairs_table_bind
  rw [Table.pids_lower]
  cases one.pids.release pid with
  | ok pids => exact pairs_update ⟨hosts, rfl⟩
  | error cause => exact pairs_fault _ ⟨hosts, rfl⟩

namespace Table

/-! ## Taking processes in, and out again -/

theorem Twin.count (twin : one.Twin guest seat two) :
    Twin guest seat { one with running := one.running + 1 }
      { two with running := two.running + 1 } := by
  obtain ⟨hosts, rfl⟩ := twin
  exact ⟨hosts, rfl⟩

theorem Twin.putFresh (twin : one.Twin guest seat two) (pid : Pid) (name : String)
    (parent : Option Pid) :
    Twin guest seat
      { one.put (.fresh pid one.births name parent) with births := one.births + 1 }
      { two.put (.fresh pid two.births name parent) with births := two.births + 1 } := by
  obtain ⟨hosts, rfl⟩ := twin
  have fits : (Record.fresh pid one.births name parent : Record Waker).Fits guest seat :=
    Record.fits_of_unclaimed rfl
  obtain ⟨hosts, hlower⟩ := Twin.put ⟨hosts, rfl⟩ fits
  exact ⟨hosts, congrArg (fun table ↦ { table with births := one.births + 1 }) hlower⟩

/-- Another joiner takes a slot, with the token that he has with the guest around. -/
theorem Twin.putClaim (twin : one.Twin guest seat two) (record : Record Waker) (token : Nat)
    (waker : Waker) :
    Twin guest seat (one.put { record with claim := some ⟨Token.raise guest token, some waker⟩ })
      (two.put { record.lower guest with claim := some ⟨token, some waker⟩ }) := by
  have fits : { record with claim := some ⟨Token.raise guest token, some waker⟩ :
      Record Waker }.Fits guest seat := by
    rintro claim ⟨⟩ htoken
    exact absurd htoken (Token.raise_ne guest token)
  have hlower : { record with claim := some ⟨Token.raise guest token, some waker⟩ :
      Record Waker }.lower guest =
        { record.lower guest with claim := some ⟨token, some waker⟩ } := by
    simp [Record.lower, Claim.lower_of_ne, Token.raise_ne, Token.lower_raise]
  rw [← hlower]
  exact twin.put fits

theorem pairs_insert (twin : one.Twin guest seat two) (parent : Option Pid) (name : String) :
    Pairs (Twin guest seat) (· = ·) (insert parent name) (insert parent name) one two := by
  have hlast (pid : Pid) {one two : Table Waker} (twin : one.Twin guest seat two) :
      Pairs (Twin guest seat) (· = ·)
        (do
          update fun table ↦ { table with running := table.running + 1 }
          note (.inserted pid name parent)
          return pid)
        (do
          update fun table ↦ { table with running := table.running + 1 }
          note (.inserted pid name parent)
          return pid)
        one two := by
    apply (pairs_update twin.count).bind
    intro _ _ one two _ twin
    apply (pairs_note _ twin).bind
    exact fun _ twin ↦ pairs_pure rfl twin
  obtain ⟨hosts, rfl⟩ := twin
  unfold insert
  apply pairs_table_bind
  apply pairs_ite (by rw [size_lower])
  · intro _
    apply (pairs_note _ ⟨hosts, rfl⟩).bind
    exact fun _ twin ↦ pairs_refuse_bind _ twin
  intro _
  cases parent with
  | none =>
    apply pairs_ite Iff.rfl
    · exact fun _ ↦ pairs_refuse_bind _ ⟨hosts, rfl⟩
    intro _
    rw [pids_lower]
    cases one.pids.take? with
    | none => exact pairs_refuse _ ⟨hosts, rfl⟩
    | some taken =>
      apply (pairs_update ⟨hosts, rfl⟩).bind
      intro _ _ one two _ twin
      apply pairs_ite (by simp)
      · exact fun _ ↦ pairs_fault_bind _ twin
      intro _
      apply (pairs_update (twin.putFresh _ _ _)).bind
      intro _ _ one two _ twin
      obtain ⟨hosts, rfl⟩ := twin
      apply (pairs_update ⟨hosts, rfl⟩).bind
      exact fun _ twin ↦ hlast _ twin
  | some parent =>
    apply pairs_ite (not_congr (isRunning_lower guest one parent).symm)
    · exact fun _ ↦ pairs_refuse_bind _ ⟨hosts, rfl⟩
    intro _
    rw [pids_lower]
    cases one.pids.take? with
    | none => exact pairs_refuse _ ⟨hosts, rfl⟩
    | some taken =>
      apply (pairs_update ⟨hosts, rfl⟩).bind
      intro _ _ one two _ twin
      apply pairs_ite (by simp)
      · exact fun _ ↦ pairs_fault_bind _ twin
      intro _
      apply (pairs_update (twin.putFresh _ _ _)).bind
      intro _ _ one two _ twin
      apply (pairs_addChild twin parent _).bind
      exact fun _ twin ↦ hlast _ twin

theorem pairs_withdraw (twin : one.Twin guest seat two) (pid : Pid) :
    Pairs (Twin guest seat) (fun _ _ ↦ True) (withdraw pid) (withdraw pid) one two := by
  unfold withdraw
  apply pairs_table_bind
  rw [twin.record?_eq]
  cases one.record? pid with
  | none => exact pairs_pure trivial twin
  | some record =>
    apply (pairs_update (twin.erase pid)).bind
    intro _ _ one two _ twin
    refine Pairs.bind (Pairs.holding _ _ (?_ : Pairs _ (· = ·) _ _ _ _)) ?_
    · apply pairs_ite Iff.rfl
      · intro _
        apply (pairs_update (twin.unlink record.parent pid)).bind
        intro _ _ one two _ twin
        apply (pairs_update (twin.unsetRoot pid)).bind
        intro _ _ one two _ twin
        apply (pairs_countEnded twin).bind
        intro _ _ one two _ twin
        apply (pairs_releasePid twin pid).bind
        exact fun _ twin ↦ pairs_note _ twin
      · exact fun _ ↦ pairs_fault_bind _ twin
    · exact fun _ twin ↦ pairs_pure trivial twin

/-! ## Reaping -/

theorem pairs_reap (twin : one.Twin guest seat two) (pid : Pid) :
    Pairs (Twin guest seat) (· = ·) (reap pid) (reap pid) one two := by
  unfold reap
  apply pairs_table_bind
  rw [twin.record?_eq]
  cases hrecord : one.record? pid with
  | none => exact pairs_refuse _ twin
  | some record =>
    have fits : record.Fits guest seat := (twin.hosts pid record hrecord).2
    simp only [Option.map_some, Record.phase_lower]
    cases hphase : record.phase with
    | running => exact (pairs_note _ twin).bind fun _ twin ↦ pairs_fault _ twin
    | exited status =>
      apply (pairs_update (twin.erase pid)).bind
      intro _ _ one two _ twin
      rw [Record.waker?_lower_of_exited fits (by simp [hphase])]
      cases record.waker? with
      | some waker =>
        apply (pairs_note _ twin).bind
        exact fun _ twin ↦ (pairs_fault _ twin).holding _ _
      | none =>
        apply pairs_ite Iff.rfl
        · intro _
          apply (pairs_update (twin.unlink record.parent pid)).bind
          intro _ _ one two _ twin
          apply (pairs_update (twin.unsetRoot pid)).bind
          intro _ _ one two _ twin
          apply (pairs_releasePid twin pid).bind
          intro _ _ one two _ twin
          apply (pairs_note _ twin).bind
          exact fun _ twin ↦ pairs_pure rfl twin
        · exact fun _ ↦ pairs_fault_bind _ twin

/-! ## Ending processes -/

theorem pairs_adopt (twin : one.Twin guest seat two) (child : Pid) (parent : Option Pid) :
    Pairs (Twin guest seat) (fun _ _ ↦ True) (adopt child parent) (adopt child parent)
      one two := by
  unfold adopt
  apply (pairs_linkedRecord twin child).bind
  rintro record _ one two ⟨rfl, -⟩ twin
  apply (pairs_update (twin.put (Record.fits_of_unclaimed rfl))).bind
  intro _ _ one two _ twin
  refine Pairs.bind (Pairs.holding _ _ (?_ : Pairs _ (· = ·) _ _ _ _)) ?_
  · rw [Record.phase_lower]
    cases parent with
    | some parent =>
      apply (pairs_addChild twin parent child).bind
      exact fun _ twin ↦ pairs_note _ twin
    | none =>
      cases record.phase with
      | exited status =>
        apply (pairs_reap twin child).attempt.bind
        exact fun _ twin ↦ pairs_note _ twin
      | running => exact pairs_note _ twin
  · exact fun _ twin ↦ pairs_pure trivial twin

theorem pairs_adoptAll (twin : one.Twin guest seat two) (parent : Option Pid)
    (children : List Pid) (wakers twins : List Waker) :
    Pairs (Twin guest seat) (fun _ _ ↦ True) (adoptAll parent children wakers)
      (adoptAll parent children twins) one two := by
  induction children generalizing one two wakers twins with
  | nil => exact pairs_pure trivial twin
  | cons child rest ih =>
    apply ((pairs_adopt twin child parent).holding wakers twins).bind
    exact fun _ twin ↦ ih twin _ _

theorem pairs_terminate (twin : one.Twin guest seat two) (pid : Pid) (status : ExitStatus) :
    Pairs (Twin guest seat) (fun ending plain ↦ ending.isLast = plain.isLast)
      (terminate pid status) (terminate pid status) one two := by
  unfold terminate
  apply pairs_table_bind
  rw [twin.record?_eq]
  cases hrecord : one.record? pid with
  | none => exact pairs_refuse _ twin
  | some record =>
    have fits : record.Fits guest seat := (twin.hosts pid record hrecord).2
    simp only [Option.map_some, Record.phase_lower]
    cases record.phase with
    | exited first => exact (pairs_note _ twin).bind fun _ twin ↦ pairs_fault _ twin
    | running =>
      have hput : Twin guest seat
          (one.put { record.takeWaker with phase := .exited status, children := ∅ })
          (two.put { (record.lower guest).takeWaker with
            phase := .exited status, children := ∅ }) := by
        rw [← Record.lower_takeWaker]
        exact twin.put (fits.exit status)
      rw [twin.root_eq]
      apply (pairs_update hput).bind
      intro _ _ one two _ twin
      apply ((pairs_countEnded twin).holding _ _).bind
      intro _ _ one two _ twin
      apply (pairs_adoptAll twin _ record.children.toList _ _).bind
      intro wakers twins one two _ twin
      apply (pairs_update (twin.unsetRoot pid)).bind
      intro _ _ one two _ twin
      have hlast {one two : Table Waker} (twin : one.Twin guest seat two) :
          Pairs (Twin guest seat) (fun ending plain ↦ ending.isLast = plain.isLast)
            (do return (⟨wakers, (← table).running = 0⟩ : Ending Waker))
            (do return (⟨twins, (← table).running = 0⟩ : Ending Waker)) one two := by
        apply pairs_table_bind
        rw [twin.running_eq]
        exact pairs_pure rfl twin
      apply pairs_ite Iff.rfl
      · intro _
        apply ((pairs_reap twin pid).holding wakers twins).bind
        exact fun _ twin ↦ hlast twin
      · exact fun _ ↦ hlast twin

theorem pairs_clear (twin : one.Twin guest seat two) :
    Pairs (Twin guest seat) (fun _ _ ↦ True) clear clear one two := by
  obtain ⟨hosts, rfl⟩ := twin
  unfold clear
  apply pairs_table_bind
  rw [size_lower]
  apply (pairs_note _ ⟨hosts, rfl⟩).bind
  intro _ _ one two _ twin
  have hvacant : Twin guest seat { (empty : Table Waker) with births := one.births }
      { (empty : Table Waker) with births := two.births } := by
    rw [twin.plain_eq]
    refine ⟨fun pid record hrecord ↦ ?_, (lower_vacant guest one.births).symm⟩
    change (empty : Table Waker).record? pid = some record at hrecord
    rw [record?_empty] at hrecord
    cases hrecord
  apply (pairs_update hvacant).bind
  exact fun _ twin ↦ pairs_pure trivial twin

/-! ## Join slots -/

theorem pairs_discardClaim (twin : one.Twin guest seat two) (claim other : Option (Claim Waker)) :
    Pairs (Twin guest seat) (· = ·) (discardClaim claim) (discardClaim other) one two :=
  pairs_discardAll _ _ twin

theorem pairs_releaseSlot (twin : one.Twin guest seat two) (target : Pid) (token : Nat) :
    Pairs (Twin guest seat) (· = ·) (releaseSlot target (Token.raise guest token))
      (releaseSlot target token) one two := by
  unfold releaseSlot
  apply pairs_table_bind
  rw [twin.record?_eq]
  cases one.record? target with
  | none => exact pairs_pure rfl twin
  | some record =>
    apply pairs_ite (by rw [Record.holds_lower])
    · intro _
      apply (pairs_update (twin.put (Record.fits_of_unclaimed rfl))).bind
      intro _ _ one two _ twin
      apply (pairs_discardClaim twin _ _).bind
      exact fun _ twin ↦ pairs_note _ twin
    · exact fun _ ↦ pairs_pure rfl twin

/-- A joiner other than the guest, who is after another seat, finds what he would find. -/
theorem pairs_join (twin : one.Twin guest seat two) {caller target : Pid}
    (hseat : seat ≠ some (caller, target)) (token : Nat) (waker : Waker) :
    Pairs (Twin guest seat) (· = ·) (join caller target (Token.raise guest token) waker)
      (join caller target token waker) one two := by
  unfold join
  apply pairs_ite Iff.rfl
  · exact fun _ ↦ pairs_refuse_bind _ twin
  intro _
  apply pairs_table_bind
  rw [twin.record?_eq]
  cases hrecord : one.record? target with
  | none => exact pairs_refuse _ twin
  | some record =>
    obtain ⟨hpid, fits⟩ := twin.hosts target record hrecord
    apply pairs_ite Iff.rfl
    · exact fun _ ↦ pairs_refuse_bind _ twin
    intro hparent
    have hfree (claim : Claim Waker) (hclaim : record.claim = some claim) :
        claim.token ≠ guest := by
      -- where the guest is, it is for the parent, and the caller is the parent here
      intro htoken
      obtain ⟨holder, hholder, hholds, -⟩ := fits claim hclaim htoken
      rw [Decidable.not_not.1 hparent] at hholds
      cases hholds
      exact hseat (hpid ▸ hholder)
    apply pairs_ite (by rw [Record.isTaken_lower token hfree])
    · exact fun _ ↦ pairs_refuse_bind _ twin
    intro _
    rw [Record.phase_lower]
    cases record.phase with
    | exited status =>
      apply (pairs_update (twin.put (Record.fits_of_unclaimed rfl))).bind
      intro _ _ one two _ twin
      apply (pairs_discardClaim twin _ _).bind
      intro _ _ one two _ twin
      apply (pairs_reap twin target).bind
      rintro status _ one two rfl twin
      exact pairs_pure rfl twin
    | running =>
      apply (pairs_update (twin.putClaim { record with phase := .running } token waker)).bind
      intro _ _ one two _ twin
      apply (pairs_discardClaim twin _ _).bind
      exact fun _ twin ↦ pairs_pure rfl twin

end Table

end Lifecycle
