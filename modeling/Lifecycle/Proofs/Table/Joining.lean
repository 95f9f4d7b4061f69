import Lifecycle.Proofs.Table.Removal
import Lifecycle.Table.Joining

/-!
# Join slots

What one attempt to join comes to, by what the caller finds: a process that is not its child, a
slot that somebody else holds, an exited child or a running one.
-/

namespace Lifecycle.Table

variable {Waker : Type} {table : Table Waker} {pid : Pid}

/-- The table with another claim on a process, if the process has a record. -/
def setClaim (table : Table Waker) (pid : Pid) (claim : Option (Claim Waker)) : Table Waker :=
  match table.record? pid with
  | some record => table.put (record.withClaim claim)
  | none => table

theorem setClaim_of_record? {record : Record Waker} (hrecord : table.record? pid = some record)
    (claim : Option (Claim Waker)) :
    table.setClaim pid claim = table.put (record.withClaim claim) := by
  rw [setClaim, hrecord]

section SetClaim

variable (sound : table.Sound) (pid : Pid) (claim : Option (Claim Waker))

@[simp]
theorem root_setClaim : (table.setClaim pid claim).root = table.root := by
  unfold setClaim
  split <;> rfl

@[simp]
theorem pids_setClaim : (table.setClaim pid claim).pids = table.pids := by
  unfold setClaim
  split <;> rfl

@[simp]
theorem births_setClaim : (table.setClaim pid claim).births = table.births := by
  unfold setClaim
  split <;> rfl

@[simp]
theorem running_setClaim : (table.setClaim pid claim).running = table.running := by
  unfold setClaim
  split <;> rfl

include sound

theorem record?_setClaim (other : Pid) :
    (table.setClaim pid claim).record? other =
      if other = pid then (table.record? other).map (·.withClaim claim)
      else table.record? other := by
  unfold setClaim
  split
  · next record hrecord =>
    have hpid : record.pid = pid := sound.stored hrecord
    rw [record?_put]
    change (if record.pid = other then some (record.withClaim claim) else _) = _
    rw [hpid]
    grind
  · next hnone => grind

theorem size_setClaim : (table.setClaim pid claim).size = table.size := by
  unfold setClaim
  split
  · next record hrecord =>
    apply size_put_of_present _ _
    change table.record? record.pid ≠ none
    rw [sound.stored hrecord, hrecord]
    exact Option.some_ne_none record
  · rfl

/-- A view that does not show claims is the same as before. -/
theorem view_setClaim {β : Type} (view : Record Waker → Option β)
    (hview : ∀ record, view (record.withClaim claim) = view record) (other : Pid) :
    ((table.setClaim pid claim).record? other).bind view = (table.record? other).bind view := by
  rw [record?_setClaim sound]
  split
  · rw [Option.bind_map]
    exact congrArg _ (funext hview)
  · rfl

theorem parentOf?_setClaim (other : Pid) :
    (table.setClaim pid claim).parentOf? other = table.parentOf? other :=
  view_setClaim sound pid claim (·.parent) (fun _ ↦ rfl) other

theorem phaseOf?_setClaim (other : Pid) :
    (table.setClaim pid claim).phaseOf? other = table.phaseOf? other := by
  rw [phaseOf?, phaseOf?, Option.map_eq_bind, Option.map_eq_bind]
  exact view_setClaim sound pid claim _ (fun _ ↦ rfl) other

theorem birthOf?_setClaim (other : Pid) :
    (table.setClaim pid claim).birthOf? other = table.birthOf? other := by
  rw [birthOf?, birthOf?, Option.map_eq_bind, Option.map_eq_bind]
  exact view_setClaim sound pid claim _ (fun _ ↦ rfl) other

theorem claimOf?_setClaim (other : Pid) :
    (table.setClaim pid claim).claimOf? other =
      if other = pid then (table.record? pid).bind fun _ ↦ claim else table.claimOf? other := by
  unfold claimOf?
  rw [record?_setClaim sound]
  split
  · next heq =>
    subst heq
    exact Option.bind_map
  · rfl

/-- Whoever has a record gets the claim. -/
theorem claimOf?_setClaim_self {phase : Phase} (hphase : table.phaseOf? pid = some phase) :
    (table.setClaim pid claim).claimOf? pid = claim := by
  obtain ⟨record, hrecord, -⟩ := Option.map_eq_some_iff.1 hphase
  rw [claimOf?_setClaim sound, if_pos rfl, hrecord, Option.bind_some]

theorem hasChild_setClaim (holder child : Pid) :
    (table.setClaim pid claim).HasChild holder child ↔ table.HasChild holder child := by
  unfold HasChild
  rw [record?_setClaim sound]
  split
  · cases table.record? holder <;> simp [Record.withClaim]
  · rfl

theorem wakerOf?_setClaim (other : Pid) :
    (table.setClaim pid claim).wakerOf? other =
      if other = pid then (table.record? pid).bind fun _ ↦ claim.bind (·.waker)
      else table.wakerOf? other := by
  rw [wakerOf?_eq_bind_claimOf?, wakerOf?_eq_bind_claimOf?, claimOf?_setClaim sound]
  split
  · exact Option.bind_assoc _ _ _
  · rfl

theorem shrinks_setClaim : table.Shrinks (table.setClaim pid claim) where
  birthOf?_of hbirth := birthOf?_setClaim sound pid claim _ ▸ hbirth
  root_of hroot := root_setClaim pid claim ▸ hroot
  births_eq := births_setClaim pid claim

/-- Links and phases do not depend on claims. -/
theorem wellFormed_setClaim : (table.setClaim pid claim).WellFormed := by
  have hparentOf := parentOf?_setClaim sound pid claim
  have hphaseOf := phaseOf?_setClaim sound pid claim
  have hroot : (table.setClaim pid claim).root = table.root := root_setClaim pid claim
  constructor
  case hasChild_iff =>
    intro holder child
    apply hasChild_iff_of_links
    rw [hasChild_setClaim sound, hparentOf]
    exact sound.hasChild_iff_parentOf?
  case parent_running => exact fun h ↦ hphaseOf _ ▸ sound.parent_running (hparentOf _ ▸ h)
  case exited_iff_status => exact fun _ ↦ exited_iff_status_of_phase _
  case exited_childless =>
    intro other status hexited child
    rw [hphaseOf] at hexited
    rw [hasChild_setClaim sound]
    exact sound.exited_childless hexited child
  case exited_parent => exact fun h ↦ hparentOf _ ▸ sound.exited_parent (hphaseOf _ ▸ h)
  case root_running =>
    intro root h
    rw [hphaseOf, hparentOf]
    exact sound.root_running (hroot ▸ h)
  case size_le => exact size_setClaim sound pid claim ▸ sound.size_le
  case stored =>
    intro other record hrecord
    rw [record?_setClaim sound] at hrecord
    split at hrecord
    · obtain ⟨old, hold, rfl⟩ := Option.map_eq_some_iff.1 hrecord
      have hpid := sound.stored hold
      exact hpid
    · exact sound.stored hrecord

/-- A claim may change if nobody comes to be parked on a process that has exited. -/
theorem sound_setClaim
    (hclaim : claim.bind (·.waker) = none ∨ table.phaseOf? pid = some .running) :
    (table.setClaim pid claim).Sound := by
  have hparentOf := parentOf?_setClaim sound pid claim
  have hphaseOf := phaseOf?_setClaim sound pid claim
  have hpids : (table.setClaim pid claim).pids = table.pids := pids_setClaim pid claim
  have hshrinks := shrinks_setClaim sound pid claim
  constructor
  case toWellFormed => exact wellFormed_setClaim sound pid claim
  case parent_ne => exact fun other ↦ hparentOf other ▸ sound.parent_ne other
  case exited_unparked =>
    intro other status hexited
    rw [hphaseOf] at hexited
    rw [wakerOf?_setClaim sound]
    split
    · next heq =>
      subst heq
      obtain hnone | hrunning := hclaim
      · simp [hnone]
      · simp [hrunning] at hexited
    · exact sound.exited_unparked hexited
  case accounted => exact fun other ↦ hpids ▸ hphaseOf other ▸ sound.accounted other
  case freed_absent => exact fun h ↦ hphaseOf _ ▸ sound.freed_absent (hpids ▸ h)
  case first_le => exact hpids ▸ sound.first_le
  case next_le => exact hpids ▸ sound.next_le
  case limit_eq => exact hpids ▸ sound.limit_eq
  case birth_lt => exact hshrinks.birth_lt sound
  case birth_injective => exact hshrinks.birth_injective sound

end SetClaim

/-! ## Attempts -/

/-- What an attempt to join answers, and the table that it leaves. -/
inductive Attempts (before : Table Waker) (caller target : Pid) (token : Nat) (waker : Waker) :
    Except Errno (Option ExitStatus) → Table Waker → Prop where
  | stranger (hparent : before.parentOf? target ≠ some caller) :
      before.Attempts caller target token waker (.error .ECHILD) before
  | busy {claim : Claim Waker} (hparent : before.parentOf? target = some caller)
      (hclaim : before.claimOf? target = some claim) (hother : claim.token ≠ token) :
      before.Attempts caller target token waker (.error .EBUSY) before
  | collected {status : ExitStatus} {after : Table Waker}
      (hparent : before.parentOf? target = some caller)
      (hexited : before.phaseOf? target = some (.exited status))
      (hremoved : before.Removed after target) (hcount : after.running = before.running) :
      before.Attempts caller target token waker (.ok (some status)) after
  | parked (hparent : before.parentOf? target = some caller)
      (hrunning : before.phaseOf? target = some .running)
      (hfree : ∀ claim, before.claimOf? target = some claim → claim.token = token) :
      before.Attempts caller target token waker (.ok none)
        (before.setClaim target (some ⟨token, some waker⟩))

/-- What an attempt to join answers, as the target's record has it. -/
def joinResult (table : Table Waker) (caller target : Pid) (token : Nat) :
    Except Errno (Option ExitStatus) :=
  if table.parentOf? target ≠ some caller then .error .ECHILD
  else if (table.claimOf? target).any (·.token ≠ token) then .error .EBUSY
  else .ok ((table.phaseOf? target).bind Phase.status?)

/-- A claim on an exited process is of no account when the process is removed. -/
theorem removed_of_setClaim {after : Table Waker} (sound : table.Sound)
    (claim : Option (Claim Waker)) (hremoved : (table.setClaim pid claim).Removed after pid) :
    table.Removed after pid := by
  refine ⟨?_, ?_, ?_, ?_, ?_, ?_, ?_⟩
  · rw [ne_eq, ← phaseOf?_eq_none_iff, ← phaseOf?_setClaim sound pid claim, phaseOf?_eq_none_iff]
    exact hremoved.present
  · exact fun child ↦ mt (hasChild_setClaim sound pid claim pid child).2 (hremoved.childless child)
  · intro other
    rw [hremoved.record?_eq, parentOf?_setClaim sound, record?_setClaim sound]
    grind
  · rw [hremoved.root_eq, root_setClaim]
  · rw [hremoved.births_eq, births_setClaim]
  · rw [hremoved.pids_eq, pids_setClaim]
  · rw [hremoved.size_eq, size_setClaim sound]

section Join

variable {caller target : Pid} {token : Nat} {waker : Waker} {record : Record Waker}

theorem join_stranger (hparent : table.parentOf? target ≠ some caller) :
    (join caller target token waker).Yields table (.error .ECHILD) table [] := by
  apply Action.yields_of_run [] rfl
  intro effects
  by_cases hself : caller = target
  · simp [join, hself, Outcome.ofResult]
  cases hrecord : table.record? target with
  | none => simp [join, hself, hrecord, Outcome.ofResult]
  | some record =>
    rw [parentOf?_of_record? hrecord] at hparent
    simp [join, hself, hrecord, hparent, Outcome.ofResult]

theorem join_busy {claim : Claim Waker} (hself : caller ≠ target)
    (hrecord : table.record? target = some record) (hparent : record.parent = some caller)
    (hclaim : record.claim = some claim) (hother : claim.token ≠ token) :
    (join caller target token waker).Yields table (.error .EBUSY) table [] := by
  apply Action.yields_of_run [] rfl
  intro effects
  simp [join, hself, hrecord, hparent, hclaim, hother, Outcome.ofResult]

theorem discardClaim_yields (claim : Option (Claim Waker)) (table : Table Waker) :
    (discardClaim claim).Yields table (.ok ()) table [] :=
  Action.yields_discardAll _ table

theorem join_parked (hself : caller ≠ target) (hrecord : table.record? target = some record)
    (hparent : record.parent = some caller) (hfree : record.claim.any (·.token ≠ token) = false)
    (hrunning : record.phase = .running) :
    (join caller target token waker).Yields table (.ok none)
      (table.setClaim target (some ⟨token, some waker⟩)) [] := by
  rw [setClaim_of_record? hrecord]
  unfold join
  rw [if_neg hself]
  apply Action.Yields.bind_silent (Action.yields_table table)
  simp only [hrecord]
  rw [if_neg (not_not_intro hparent), hfree, if_neg Bool.false_ne_true]
  split
  · next status hexited =>
    rw [hrunning] at hexited
    cases hexited
  · apply Action.Yields.bind_silent (Action.yields_update _ _)
    exact .bind_silent (discardClaim_yields _ _) (Action.yields_pure _ _)

theorem join_collected (sound : table.Sound) {status : ExitStatus} (hself : caller ≠ target)
    (hrecord : table.record? target = some record) (hparent : record.parent = some caller)
    (hfree : record.claim.any (·.token ≠ token) = false)
    (hexited : record.phase = .exited status) :
    ∃ after, table.Removed after target ∧ after.running = table.running ∧
      (join caller target token waker).Yields table (.ok (some status)) after [] := by
  let cleared : Table Waker := table.setClaim target none
  have hcleared : cleared.Sound := sound_setClaim sound target none (.inl rfl)
  have hput : cleared = table.put (record.withClaim none) := setClaim_of_record? hrecord none
  have hkept : cleared.record? target = some (record.withClaim none) := by
    rw [record?_setClaim sound, if_pos rfl, hrecord, Option.map_some]
  have hphase : cleared.phaseOf? target = some (.exited status) := by
    rw [phaseOf?_of_record? hkept]
    exact congrArg some hexited
  have hchildless : record.children = ∅ := by
    have hempty := children_eq_empty hkept (hcleared.exited_childless hphase)
    exact hempty
  have hne : record.parent ≠ some target := parentOf?_of_record? hrecord ▸ sound.parent_ne target
  refine ⟨cleared.without target record.parent, ?_, ?_, ?_⟩
  · have hremoved := removed_without hkept hchildless hne fun _ _ ↦ hcleared.stored
    exact removed_of_setClaim sound none hremoved
  · rw [running_without, hput]
    rfl
  · unfold join
    rw [if_neg hself]
    apply Action.Yields.bind_silent (Action.yields_table table)
    simp only [hrecord]
    rw [if_neg (not_not_intro hparent), hfree, if_neg Bool.false_ne_true]
    split
    · apply Action.Yields.bind_silent (Action.yields_update _ _)
      apply Action.Yields.bind_silent (discardClaim_yields _ _)
      have hreap := reap_yields hkept hexited rfl hchildless (hcleared.isOut hkept)
      rw [hput] at hreap ⊢
      exact .bind_silent hreap (Action.yields_pure _ _)
    · next hrunning =>
      rw [hexited] at hrunning
      cases hrunning

theorem join_yields (sound : table.Sound) (caller target : Pid) (token : Nat) (waker : Waker) :
    ∃ after, table.Attempts caller target token waker (table.joinResult caller target token) after ∧
      (join caller target token waker).Yields table (table.joinResult caller target token) after
        [] := by
  unfold joinResult
  by_cases hparent : table.parentOf? target = some caller
  case neg =>
    rw [if_pos hparent]
    exact ⟨_, .stranger hparent, join_stranger hparent⟩
  rw [if_neg (not_not_intro hparent)]
  have hself : caller ≠ target := fun heq ↦ sound.parent_ne target (heq ▸ hparent)
  obtain ⟨record, hrecord, hlink⟩ := Option.bind_eq_some_iff.1 hparent
  have hclaimOf : table.claimOf? target = record.claim := claimOf?_of_record? hrecord
  have hphaseOf : table.phaseOf? target = some record.phase := phaseOf?_of_record? hrecord
  rw [hclaimOf, hphaseOf, Option.bind_some]
  cases hother : record.claim.any (·.token ≠ token) with
  | true =>
    obtain ⟨claim, hclaim, hdiffers⟩ := (Option.any_eq_true _ _).1 hother
    have hne : claim.token ≠ token := of_decide_eq_true hdiffers
    exact ⟨_, .busy hparent (hclaimOf.trans hclaim) hne,
      join_busy hself hrecord hlink hclaim hne⟩
  | false =>
    cases hphase : record.phase with
    | exited status =>
      obtain ⟨after, hremoved, hcount, hyields⟩ :=
        join_collected sound hself hrecord hlink hother hphase
      exact ⟨after, .collected hparent (hphase ▸ hphaseOf) hremoved hcount, hyields⟩
    | running =>
      refine ⟨_, .parked hparent (hphase ▸ hphaseOf) ?_,
        join_parked hself hrecord hlink hother hphase⟩
      intro claim hclaim
      rw [hclaimOf] at hclaim
      simpa [hclaim] using hother

theorem join_spec (sound : table.Sound) (caller target : Pid) (token : Nat) (waker : Waker) :
    ∃ result after, table.Attempts caller target token waker result after ∧
      (join caller target token waker).Yields table result after [] := by
  obtain ⟨after, hattempts, hyields⟩ := join_yields sound caller target token waker
  exact ⟨_, after, hattempts, hyields⟩

end Join

theorem Attempts.shrinks {after : Table Waker} {caller target : Pid} {token : Nat} {waker : Waker}
    {result : Except Errno (Option ExitStatus)} (sound : table.Sound)
    (attempts : table.Attempts caller target token waker result after) : table.Shrinks after := by
  cases attempts with
  | stranger | busy => exact .refl _
  | collected _ _ hremoved _ => exact hremoved.shrinks
  | parked => exact shrinks_setClaim sound _ _

theorem Attempts.sound {after : Table Waker} {caller target : Pid} {token : Nat} {waker : Waker}
    {result : Except Errno (Option ExitStatus)}
    (attempts : table.Attempts caller target token waker result after) (sound : table.Sound) :
    after.Sound := by
  cases attempts with
  | stranger | busy => exact sound
  | collected _ _ hremoved _ => exact hremoved.sound sound
  | parked _ hrunning _ => exact sound_setClaim sound target _ (.inr hrunning)

/-! ## Giving a slot up -/

/-- Whether a joiner holds the slot of a process. -/
def IsHeld (table : Table Waker) (pid : Pid) (token : Nat) : Prop :=
  ∃ claim, table.claimOf? pid = some claim ∧ claim.token = token

/-- Whoever has been parked holds the slot. -/
theorem Attempts.isHeld_of_parked {after : Table Waker} {caller target : Pid} {token : Nat}
    {waker : Waker} (sound : table.Sound)
    (attempts : table.Attempts caller target token waker (.ok none) after) :
    after.IsHeld target token := by
  cases attempts with
  | parked _ hrunning _ =>
    exact ⟨⟨token, some waker⟩, claimOf?_setClaim_self sound _ _ hrunning, rfl⟩

section Result

variable {caller target : Pid} {token : Nat}

/-- It is only to strangers that a process is no child. -/
theorem joinResult_eq_stranger_iff :
    table.joinResult caller target token = .error .ECHILD ↔
      table.parentOf? target ≠ some caller := by
  unfold joinResult
  split
  · next hparent => exact iff_of_true rfl hparent
  · next hparent =>
    refine iff_of_false ?_ hparent
    split <;> nofun

theorem joinResult_eq_busy_iff :
    table.joinResult caller target token = .error .EBUSY ↔
      table.parentOf? target = some caller ∧
        ∃ claim, table.claimOf? target = some claim ∧ claim.token ≠ token := by
  unfold joinResult
  split
  · next hparent => simp [hparent]
  · next hparent =>
    rw [Decidable.not_not] at hparent
    split
    · next hother => simpa [hparent, Option.any_eq_true] using hother
    · next hfree => simpa [hparent, Option.any_eq_true] using hfree

/-- While a joiner holds the slot every other one is refused. -/
theorem joinResult_of_other {holder : Nat} (hheld : table.IsHeld target holder)
    (hother : token ≠ holder) :
    table.joinResult caller target token =
      .error (if table.parentOf? target = some caller then .EBUSY else .ECHILD) := by
  obtain ⟨claim, hclaim, rfl⟩ := hheld
  split
  · next hparent => exact joinResult_eq_busy_iff.2 ⟨hparent, claim, hclaim, hother.symm⟩
  · next hparent => exact joinResult_eq_stranger_iff.2 hparent

/-- The joiner that holds the slot learns whether the process has ended. -/
theorem joinResult_of_own (hheld : table.IsHeld target token)
    (hparent : table.parentOf? target = some caller) :
    table.joinResult caller target token = .ok ((table.phaseOf? target).bind Phase.status?) := by
  obtain ⟨claim, hclaim, rfl⟩ := hheld
  simp [joinResult, hparent, hclaim]

end Result

theorem releaseSlot_held {target : Pid} {token : Nat} (hheld : table.IsHeld target token) :
    (releaseSlot target token).Yields table (.ok ()) (table.setClaim target none) [] := by
  obtain ⟨claim, hclaim, htoken⟩ := hheld
  obtain ⟨record, hrecord, hslot⟩ := Option.bind_eq_some_iff.1 hclaim
  have hany : record.claim.any (·.token = token) = true := by simp [hslot, htoken]
  rw [setClaim_of_record? hrecord]
  unfold releaseSlot
  apply Action.Yields.bind_silent (Action.yields_table table)
  simp only [hrecord, hany, if_true]
  apply Action.Yields.bind_silent (Action.yields_update _ _)
  exact .bind_silent (discardClaim_yields _ _) (Action.yields_note _ _)

theorem releaseSlot_idle {target : Pid} {token : Nat} (hidle : ¬ table.IsHeld target token) :
    (releaseSlot target token).Yields table (.ok ()) table [] := by
  apply Action.yields_of_run [] rfl
  intro effects
  cases hrecord : table.record? target with
  | none => simp [releaseSlot, hrecord, Outcome.ofResult]
  | some record =>
    have hany : record.claim.any (·.token = token) = false := by
      rw [Option.any_eq_false]
      intro claim hclaim
      have hne : claim.token ≠ token :=
        fun htoken ↦ hidle ⟨claim, (claimOf?_of_record? hrecord).trans hclaim, htoken⟩
      simpa using hne
    simp [releaseSlot, hrecord, hany, Outcome.ofResult]

end Lifecycle.Table
