import Lifecycle.Proofs.Table.Joining

/-!
# Tables without a guest

A guest is a joiner that might as well not have come. Without him his claim is gone from the table,
and the tokens that were given out after his are one lower; nothing else is different. A guest sits
in one seat at most: that of a child, on behalf of its parent. If the child exits his waker has been
taken, and if the child gets another parent so has the seat.
-/

namespace Lifecycle

namespace Token

/-- A token as it is with a guest among the joiners. -/
def raise (guest token : Nat) : Nat := if token < guest then token else token + 1

/-- A token as it is without a guest. -/
def lower (guest token : Nat) : Nat := if token < guest then token else token - 1

variable {guest token other : Nat}

theorem raise_ne (guest token : Nat) : raise guest token ≠ guest := by
  unfold raise
  split <;> omega

theorem raise_of_lt (hlt : token < guest) : raise guest token = token := if_pos hlt

theorem raise_of_le (hle : guest ≤ token) : raise guest token = token + 1 :=
  if_neg (Nat.not_lt.2 hle)

theorem lower_of_lt (hlt : token < guest) : lower guest token = token := if_pos hlt

theorem lower_of_gt (hgt : guest < token) : lower guest token = token - 1 :=
  if_neg (Nat.not_lt.2 (Nat.le_of_lt hgt))

theorem lower_raise (guest token : Nat) : lower guest (raise guest token) = token := by
  obtain hlt | hle := Nat.lt_or_ge token guest
  · rw [raise_of_lt hlt, lower_of_lt hlt]
  · rw [raise_of_le hle, lower_of_gt (Nat.lt_succ_of_le hle)]
    exact Nat.add_sub_cancel token 1

theorem raise_lower (hne : token ≠ guest) : raise guest (lower guest token) = token := by
  obtain hlt | hgt := Nat.lt_or_gt_of_ne hne
  · rw [lower_of_lt hlt, raise_of_lt hlt]
  · rw [lower_of_gt hgt, raise_of_le (Nat.le_sub_one_of_lt hgt),
      Nat.sub_add_cancel (Nat.zero_lt_of_lt hgt)]

theorem raise_injective (hraise : raise guest token = raise guest other) : token = other := by
  rw [← lower_raise guest token, hraise, lower_raise]

theorem lower_eq_iff (hne : token ≠ guest) :
    lower guest token = other ↔ token = raise guest other := by
  constructor
  · rintro rfl
    exact (raise_lower hne).symm
  · rintro rfl
    exact lower_raise guest other

end Token

variable {Waker : Type}

/-! ## Claims and records -/

def Claim.raise (guest : Nat) (claim : Claim Waker) : Claim Waker :=
  { claim with token := Token.raise guest claim.token }

/-- A claim without a guest, unless it is his. -/
def Claim.lower (guest : Nat) (claim : Claim Waker) : Option (Claim Waker) :=
  if claim.token = guest then none else some { claim with token := Token.lower guest claim.token }

theorem Claim.lower_of_ne {guest : Nat} {claim : Claim Waker} (hne : claim.token ≠ guest) :
    claim.lower guest = some { claim with token := Token.lower guest claim.token } := if_neg hne

/-- The slot of a process is free without the guest if he has it or nobody has. -/
theorem Claim.bind_lower_eq_none {guest : Nat} {slot : Option (Claim Waker)}
    (hfree : ∀ claim, slot = some claim → claim.token = guest) :
    slot.bind (·.lower guest) = none := by
  cases slot with
  | none => rfl
  | some claim => exact if_pos (hfree claim rfl)

namespace Record

def raise (guest : Nat) (record : Record Waker) : Record Waker :=
  { record with claim := record.claim.map (·.raise guest) }

def lower (guest : Nat) (record : Record Waker) : Record Waker :=
  { record with claim := record.claim.bind (·.lower guest) }

/-- If a guest holds the slot of a process he does so for its parent, and leaves no waker if the
process has exited. -/
def Fits (guest : Nat) (seat : Option (Pid × Pid)) (record : Record Waker) : Prop :=
  ∀ claim, record.claim = some claim → claim.token = guest →
    ∃ caller, seat = some (caller, record.pid) ∧ record.parent = some caller ∧
      (record.phase ≠ .running → claim.waker = none)

variable {guest : Nat} {seat : Option (Pid × Pid)} {record : Record Waker}

@[simp] theorem phase_lower (guest : Nat) (record : Record Waker) :
    (record.lower guest).phase = record.phase := rfl

/-- Whether another joiner holds the slot does not depend on the guest. -/
theorem holds_lower (guest token : Nat) (record : Record Waker) :
    ((record.lower guest).claim.any (·.token = token)) =
      record.claim.any (·.token = Token.raise guest token) := by
  unfold lower
  cases record.claim with
  | none => rfl
  | some claim =>
    by_cases hguest : claim.token = guest
    · simp [Claim.lower, hguest, (Token.raise_ne guest token).symm]
    · simp [Claim.lower_of_ne hguest, Token.lower_eq_iff hguest]

/-- A joiner finds the same slots taken, unless the guest has taken his. -/
theorem isTaken_lower (token : Nat)
    (hfree : ∀ claim, record.claim = some claim → claim.token ≠ guest) :
    ((record.lower guest).claim.any (·.token ≠ token)) =
      record.claim.any (·.token ≠ Token.raise guest token) := by
  unfold lower
  cases hclaim : record.claim with
  | none => rfl
  | some claim =>
    have hguest : claim.token ≠ guest := hfree claim hclaim
    simp [Claim.lower_of_ne hguest, Token.lower_eq_iff hguest]

theorem raise_lower (hfree : ∀ claim, record.claim = some claim → claim.token ≠ guest) :
    (record.lower guest).raise guest = record := by
  obtain ⟨pid, birth, name, parent, phase, children, slot⟩ := record
  cases slot with
  | none => rfl
  | some claim =>
    have hguest : claim.token ≠ guest := hfree claim rfl
    simp [raise, lower, Claim.lower_of_ne hguest, Claim.raise, Token.raise_lower hguest]

theorem lower_of_lt (hearlier : ∀ claim, record.claim = some claim → claim.token < guest) :
    record.lower guest = record := by
  obtain ⟨pid, birth, name, parent, phase, children, slot⟩ := record
  cases slot with
  | none => rfl
  | some claim =>
    have hlt : claim.token < guest := hearlier claim rfl
    simp [lower, Claim.lower_of_ne (Nat.ne_of_lt hlt), Token.lower_of_lt hlt]

theorem fits_of_unclaimed (hclaim : record.claim = none) : record.Fits guest seat := by
  intro claim hsome
  rw [hclaim] at hsome
  cases hsome

/-- Another seat may be given to a guest, who then may not be in the old one. -/
theorem Fits.mono {place : Option (Pid × Pid)} (fits : record.Fits guest seat)
    (hplace : ∀ caller claim, record.claim = some claim → claim.token = guest →
      seat = some (caller, record.pid) → place = some (caller, record.pid)) :
    record.Fits guest place := by
  intro claim hclaim htoken
  obtain ⟨caller, hseat, hrest⟩ := fits claim hclaim htoken
  exact ⟨caller, hplace caller claim hclaim htoken hseat, hrest⟩

/-- A process that exits keeps the guest in its slot, without his waker. -/
theorem Fits.exit (fits : record.Fits guest seat) (status : ExitStatus) :
    { record.takeWaker with phase := .exited status, children := ∅ : Record Waker }.Fits
      guest seat := by
  intro claim hclaim htoken
  obtain ⟨held, hheld, rfl⟩ := Option.map_eq_some_iff.1 hclaim
  obtain ⟨caller, hseat, hparent, -⟩ := fits held hheld htoken
  exact ⟨caller, hseat, hparent, fun _ ↦ rfl⟩

theorem lower_takeWaker (record : Record Waker) :
    record.takeWaker.lower guest = (record.lower guest).takeWaker := by
  obtain ⟨pid, birth, name, parent, phase, children, claim⟩ := record
  cases claim with
  | none => rfl
  | some claim =>
    simp only [lower, takeWaker, Option.map_some, Option.bind_some, Claim.lower]
    split <;> rfl

/-- Without the guest there is the same waker for an exited process. -/
theorem waker?_lower_of_exited (fits : record.Fits guest seat) (hexited : record.phase ≠ .running) :
    (record.lower guest).waker? = record.waker? := by
  unfold waker? lower
  cases hclaim : record.claim with
  | none => rfl
  | some claim =>
    simp only [Option.bind_some, Claim.lower]
    split
    · next hguest =>
      obtain ⟨-, -, -, hwaker⟩ := fits claim hclaim hguest
      exact (hwaker hexited).symm
    · rfl

end Record

namespace Table

variable {guest : Nat} {seat : Option (Pid × Pid)} {table : Table Waker} {record : Record Waker}
  {pid : Pid}

def raise (guest : Nat) (table : Table Waker) : Table Waker :=
  { table with records := table.records.map fun _ record ↦ record.raise guest }

def lower (guest : Nat) (table : Table Waker) : Table Waker :=
  { table with records := table.records.map fun _ record ↦ record.lower guest }

@[simp]
theorem record?_lower (guest : Nat) (table : Table Waker) (pid : Pid) :
    (table.lower guest).record? pid = (table.record? pid).map (·.lower guest) := by
  simp [record?, lower]

@[simp]
theorem size_lower (guest : Nat) (table : Table Waker) :
    (table.lower guest).size = table.size := by
  simp [size, lower]

@[simp] theorem pids_lower (guest : Nat) (table : Table Waker) :
    (table.lower guest).pids = table.pids := rfl

@[simp] theorem root_lower (guest : Nat) (table : Table Waker) :
    (table.lower guest).root = table.root := rfl

@[simp] theorem running_lower (guest : Nat) (table : Table Waker) :
    (table.lower guest).running = table.running := rfl

theorem isRunning_lower (guest : Nat) (table : Table Waker) (pid : Pid) :
    (table.lower guest).IsRunning pid ↔ table.IsRunning pid := by
  unfold IsRunning
  rw [record?_lower]
  cases table.record? pid with
  | none => simp
  | some record => simp [Record.IsRunning, Record.lower]

theorem lower_put (guest : Nat) (table : Table Waker) (record : Record Waker) :
    (table.put record).lower guest = (table.lower guest).put (record.lower guest) := by
  have hrecords : (table.records.insert record.pid record).map
        (fun _ record ↦ record.lower guest) =
      (table.records.map fun _ record ↦ record.lower guest).insert record.pid
        (record.lower guest) := by
    ext pid found
    simp only [Std.ExtTreeMap.getElem?_map, Std.ExtTreeMap.getElem?_insert]
    split <;> rfl
  unfold put lower
  rw [hrecords]
  rfl

theorem lower_erase (guest : Nat) (table : Table Waker) (pid : Pid) :
    (table.erase pid).lower guest = (table.lower guest).erase pid := by
  have hrecords : (table.records.erase pid).map (fun _ record ↦ record.lower guest) =
      (table.records.map fun _ record ↦ record.lower guest).erase pid := by
    ext other found
    simp only [Std.ExtTreeMap.getElem?_map, Std.ExtTreeMap.getElem?_erase]
    split <;> rfl
  unfold erase lower
  rw [hrecords]

theorem lower_unlink (guest : Nat) (table : Table Waker) (parent : Option Pid) (child : Pid) :
    (table.unlink parent child).lower guest = (table.lower guest).unlink parent child := by
  unfold unlink
  cases parent with
  | none => rfl
  | some parent =>
    rw [Option.bind_some, Option.bind_some, record?_lower]
    cases table.record? parent with
    | none => rfl
    | some record => exact lower_put guest table _

theorem lower_vacant (guest births : Nat) :
    ({ (empty : Table Waker) with births } : Table Waker).lower guest =
      { (empty : Table Waker) with births } := by
  have hrecords : (∅ : Std.ExtTreeMap Pid (Record Waker)).map
      (fun _ record ↦ record.lower guest) = ∅ := by
    ext pid found
    simp
  unfold lower
  exact congrArg (fun records ↦ (⟨records, .ofPids, none, 0, births⟩ : Table Waker)) hrecords

theorem lower_unsetRoot (guest : Nat) (table : Table Waker) (pid : Pid) :
    (table.unsetRoot pid).lower guest = (table.lower guest).unsetRoot pid := rfl

/-- What is stored already may be stored once more. -/
theorem put_of_record? (hrecord : table.record? pid = some record) (hpid : record.pid = pid) :
    table.put record = table := by
  have hrecords : table.records.insert record.pid record = table.records := by
    subst hpid
    ext other found
    rw [Std.ExtTreeMap.getElem?_insert]
    unfold record? at hrecord
    grind
  unfold put
  rw [hrecords]

/-! ## Seats -/

/-- A guest is nowhere in a table but in his seat. -/
def Hosts (guest : Nat) (seat : Option (Pid × Pid)) (table : Table Waker) : Prop :=
  ∀ pid record, table.record? pid = some record → record.pid = pid ∧ record.Fits guest seat

theorem Hosts.put (hosts : table.Hosts guest seat) (fits : record.Fits guest seat) :
    (table.put record).Hosts guest seat := by
  intro pid found hfound
  rw [record?_put] at hfound
  split at hfound
  · next hpid =>
    cases hfound
    exact ⟨hpid, fits⟩
  · exact hosts pid found hfound

theorem Hosts.erase (hosts : table.Hosts guest seat) (pid : Pid) :
    (table.erase pid).Hosts guest seat := by
  intro other found hfound
  rw [record?_erase] at hfound
  split at hfound
  · cases hfound
  · exact hosts other found hfound

theorem Hosts.unlink (hosts : table.Hosts guest seat) (parent : Option Pid) (child : Pid) :
    (table.unlink parent child).Hosts guest seat := by
  unfold Table.unlink
  split
  · next record hrecord =>
    obtain ⟨holder, -, hholder⟩ := Option.bind_eq_some_iff.1 hrecord
    exact hosts.put (hosts holder record hholder).2
  · exact hosts

/-- A table and the same one without a guest. -/
structure Twin (guest : Nat) (seat : Option (Pid × Pid)) (table plain : Table Waker) : Prop where
  hosts : table.Hosts guest seat
  plain_eq : plain = table.lower guest

variable {plain : Table Waker}

theorem Twin.record?_eq (twin : table.Twin guest seat plain) (pid : Pid) :
    plain.record? pid = (table.record? pid).map (·.lower guest) := by
  rw [twin.plain_eq, record?_lower]

theorem Twin.isRunning_iff (twin : table.Twin guest seat plain) (pid : Pid) :
    plain.IsRunning pid ↔ table.IsRunning pid := by
  rw [twin.plain_eq, isRunning_lower]

theorem Twin.root_eq (twin : table.Twin guest seat plain) : plain.root = table.root := by
  rw [twin.plain_eq, root_lower]

theorem Twin.running_eq (twin : table.Twin guest seat plain) :
    plain.running = table.running := by
  rw [twin.plain_eq, running_lower]

theorem Twin.put (twin : table.Twin guest seat plain) (fits : record.Fits guest seat) :
    (table.put record).Twin guest seat (plain.put (record.lower guest)) := by
  obtain ⟨hosts, rfl⟩ := twin
  exact ⟨hosts.put fits, (lower_put guest table record).symm⟩

theorem Twin.erase (twin : table.Twin guest seat plain) (pid : Pid) :
    (table.erase pid).Twin guest seat (plain.erase pid) := by
  obtain ⟨hosts, rfl⟩ := twin
  exact ⟨hosts.erase pid, (lower_erase guest table pid).symm⟩

theorem Twin.unlink (twin : table.Twin guest seat plain) (parent : Option Pid) (child : Pid) :
    (table.unlink parent child).Twin guest seat (plain.unlink parent child) := by
  obtain ⟨hosts, rfl⟩ := twin
  exact ⟨hosts.unlink parent child, (lower_unlink guest table parent child).symm⟩

theorem Twin.unsetRoot (twin : table.Twin guest seat plain) (pid : Pid) :
    (table.unsetRoot pid).Twin guest seat (plain.unsetRoot pid) := by
  obtain ⟨hosts, rfl⟩ := twin
  exact ⟨hosts, (lower_unsetRoot guest table pid).symm⟩

/-! ## The guest comes and goes -/

/-- Without the guest a slot looks the same, whether he has it or nobody has. -/
theorem Hosts.lower_setClaim (hosts : table.Hosts guest seat) {slot : Option (Claim Waker)}
    (hbefore : ∀ claim, table.claimOf? pid = some claim → claim.token = guest)
    (hafter : ∀ claim, slot = some claim → claim.token = guest) :
    (table.setClaim pid slot).lower guest = table.lower guest := by
  unfold setClaim
  cases hrecord : table.record? pid with
  | none => rfl
  | some record =>
    obtain ⟨hpid, -⟩ := hosts pid record hrecord
    rw [claimOf?_of_record? hrecord] at hbefore
    have hsame : (record.withClaim slot).lower guest = record.lower guest := by
      unfold Record.lower
      rw [Claim.bind_lower_eq_none hbefore]
      exact congrArg record.withClaim (Claim.bind_lower_eq_none hafter)
    change (table.put (record.withClaim slot)).lower guest = table.lower guest
    rw [lower_put, hsame]
    exact put_of_record? (by rw [record?_lower, hrecord, Option.map_some]) hpid

section Seat

variable {caller target : Pid}

/-- When the guest parks, nothing changes without him. -/
theorem Twin.park (twin : table.Twin guest seat plain)
    (hseat : ∀ place, seat = some place → place = (caller, target))
    (hparent : table.parentOf? target = some caller)
    (hrunning : table.phaseOf? target = some .running)
    (hfree : ∀ claim, table.claimOf? target = some claim → claim.token = guest) (waker : Waker) :
    (table.setClaim target (some ⟨guest, some waker⟩)).Twin guest (some (caller, target))
      plain := by
  obtain ⟨record, hrecord, hphase⟩ := Option.map_eq_some_iff.1 hrunning
  obtain ⟨hosts, rfl⟩ := twin
  obtain ⟨hpid, -⟩ := hosts target record hrecord
  rw [parentOf?_of_record? hrecord] at hparent
  have fits : (record.withClaim (some ⟨guest, some waker⟩)).Fits guest
      (some (caller, target)) := by
    intro _ _ _
    exact ⟨caller, congrArg (fun pid ↦ some (caller, pid)) hpid.symm, hparent,
      fun hexited ↦ absurd hphase hexited⟩
  refine ⟨?_, (hosts.lower_setClaim hfree ?_).symm⟩
  · rw [setClaim_of_record? hrecord]
    refine Hosts.put (fun pid found hfound ↦ ?_) fits
    obtain ⟨hpid, fits⟩ := hosts pid found hfound
    exact ⟨hpid, fits.mono fun holder _ _ _ hholder ↦ congrArg some (hseat _ hholder).symm⟩
  · rintro claim ⟨⟩
    rfl

/-- A guest who is not in his seat is nowhere. -/
theorem Twin.vacate (twin : table.Twin guest (some (caller, target)) plain)
    (hgone : ¬ table.IsHeld target guest) : table.Twin guest none plain := by
  refine ⟨fun pid record hrecord ↦ ?_, twin.plain_eq⟩
  obtain ⟨hpid, fits⟩ := twin.hosts pid record hrecord
  refine ⟨hpid, fits.mono fun holder claim hclaim htoken hholder ↦ absurd ?_ hgone⟩
  cases hholder
  rw [hpid]
  exact ⟨claim, (claimOf?_of_record? hrecord).trans hclaim, htoken⟩

/-- When the guest gives his seat up, nothing changes without him. -/
theorem Twin.leave (sound : table.Sound) (twin : table.Twin guest (some (caller, target)) plain)
    (hheld : table.IsHeld target guest) : (table.setClaim target none).Twin guest none plain := by
  obtain ⟨claim, hclaim, htoken⟩ := hheld
  obtain ⟨record, hrecord, -⟩ := Option.bind_eq_some_iff.1 hclaim
  obtain ⟨hosts, rfl⟩ := twin
  have hbefore (other : Claim Waker) (hother : table.claimOf? target = some other) :
      other.token = guest := by
    rw [hclaim] at hother
    cases hother
    exact htoken
  have hafter : (table.setClaim target none).Hosts guest (some (caller, target)) := by
    rw [setClaim_of_record? hrecord]
    exact hosts.put (Record.fits_of_unclaimed rfl)
  apply Twin.vacate ⟨hafter, (hosts.lower_setClaim hbefore (by rintro _ ⟨⟩)).symm⟩
  rintro ⟨other, hother, -⟩
  rw [claimOf?_setClaim sound, if_pos rfl, hrecord] at hother
  cases hother

end Seat

/-- What leaves every record alone leaves the table alone. -/
theorem map_records_eq_self {change : Record Waker → Record Waker}
    (hsame : ∀ pid record, table.record? pid = some record → change record = record) :
    { table with records := table.records.map fun _ record ↦ change record } = table := by
  have hrecords : table.records.map (fun _ record ↦ change record) = table.records := by
    ext pid found
    rw [Std.ExtTreeMap.getElem?_map]
    cases hrecord : table.records[pid]? with
    | none => rfl
    | some record => rw [Option.map_some, hsame pid record hrecord]
  rw [hrecords]

/-- Without a guest anywhere, all that differs is the tokens. -/
theorem Twin.eq_raise (twin : table.Twin guest none plain) : table = plain.raise guest := by
  obtain ⟨hosts, rfl⟩ := twin
  have hsame (pid : Pid) (record : Record Waker) (hrecord : table.record? pid = some record) :
      (record.lower guest).raise guest = record := by
    obtain ⟨-, fits⟩ := hosts pid record hrecord
    apply Record.raise_lower
    intro claim hclaim htoken
    obtain ⟨caller, hnone, -⟩ := fits claim hclaim htoken
    cases hnone
  calc
    table = { table with
        records := table.records.map fun _ record ↦ (record.lower guest).raise guest } :=
      (map_records_eq_self hsame).symm
    _ = (table.lower guest).raise guest := by
      unfold raise lower
      rw [Std.ExtTreeMap.map_map]

/-- A guest who comes after all others is not there yet. -/
theorem twin_of_later (hstored : ∀ pid record, table.record? pid = some record → record.pid = pid)
    (hearlier : ∀ pid claim, table.claimOf? pid = some claim → claim.token < guest) :
    table.Twin guest none table := by
  have hlt {pid : Pid} {record : Record Waker} (hrecord : table.record? pid = some record)
      (claim : Claim Waker) (hclaim : record.claim = some claim) : claim.token < guest :=
    hearlier pid claim ((claimOf?_of_record? hrecord).trans hclaim)
  refine ⟨fun pid record hrecord ↦ ⟨hstored pid record hrecord, ?_⟩, ?_⟩
  · intro claim hclaim htoken
    exact absurd htoken (Nat.ne_of_lt (hlt hrecord claim hclaim))
  · exact (map_records_eq_self fun pid record hrecord ↦ Record.lower_of_lt (hlt hrecord)).symm

end Table

end Lifecycle
