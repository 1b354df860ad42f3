/-
Which backups are removed (`MaybeDoBackupMaintenance` of
`pkg/backupcontroller/cleanup.go`, and `parse.go`).

A run puts the backups it lists into tiers by their age. The fresh ones are all
kept; of those of the last days the first of each hour is kept, of older ones
the first of each day. Hours and days are told apart by when they begin, in one
map, and a backup moves from tier to tier as time goes by. What carries over from run
to run is that the first backup of a period that is still to be kept was kept
so far (`World.Sound`), and so is listed again, and is the first again.

Times are map keys here, and a key has the location the time was read with. Only
times that were read as UTC are compared with each other.

The store is an interface to this code. That the store of files is one as it is
taken to be here is `listBackups_serves` and `removeBackup_serves`.
-/
import Etcdadm.BackupStore

namespace Etcdadm

/-! ## Times -/

/-- `time.Duration`: nanoseconds that fit an `int64` -/
structure Duration where
  ns : Int
  fits : -9223372036854775808 ≤ ns ∧ ns ≤ 9223372036854775807
  deriving DecidableEq

namespace Duration

instance : LT Duration := ⟨fun d d' => d.ns < d'.ns⟩

instance (d d' : Duration) : Decidable (d < d') := inferInstanceAs (Decidable (d.ns < d'.ns))

/-- `Sub`: the time between, or the duration closest to it. -/
def sub (t u : Int) : Duration :=
  ⟨max (-9223372036854775808) (min 9223372036854775807 (t - u)), by omega⟩

def hour : Duration := ⟨3600000000000, by omega⟩

def day : Duration := ⟨86400000000000, by omega⟩

end Duration

/-- A `*time.Location` other than UTC: that of the machine, or one made for an
offset. -/
inductive Zone where
  | local
  | fixed (pointer : Nat)
  deriving DecidableEq

/-- `time.Time`: nanoseconds since 1970, and the location, which is nil for UTC. -/
structure Timestamp where
  instant : Int
  loc : Option Zone
  deriving DecidableEq

namespace Timestamp

/-- The zero `time.Time`, 1 January of year 1. -/
def zero : Timestamp := ⟨-62135596800000000000, none⟩

def isZero (t : Timestamp) : Prop := t.instant = zero.instant

instance (t : Timestamp) : Decidable t.isZero := inferInstanceAs (Decidable (_ = _))

/-- `Truncate`: down to a multiple of `d` since the zero time. -/
def truncate (t : Timestamp) (d : Duration) : Timestamp := { t with instant := t.instant - (t.instant - zero.instant) % d.ns }

end Timestamp

namespace Retention

/-! ## Names -/

/-- At the first `Z-`, if there is one: up to the `Z`, and after the dash. -/
def cutAtZ : List Char → Option (List Char × List Char)
  | [] => none
  | 'Z' :: '-' :: suffix => some (['Z'], suffix)
  | c :: rest => (cutAtZ rest).map fun (timeString, suffix) => (c :: timeString, suffix)

def splitName (name : String) : List Char × String :=
  match cutAtZ name.toList with
  | some (timeString, suffix) => (timeString, String.ofList suffix)
  | none => (name.toList, "")

/-- The time a name gives, and the offset it gives it with unless it is UTC. -/
def timeOf (name : String) : Option (Int × Option Int) := parseRFC3339 (splitName name).1

/-- The time of a name that gives it in UTC. -/
def utcTime (name : String) : Option Int :=
  match timeOf name with
  | some (t, none) => some t
  | _ => none

theorem timeOf_of_utcTime {name : String} {t : Int} (h : utcTime name = some t) : timeOf name = some (t, none) := by
  unfold utcTime at h
  split at h
  · next heq =>
    cases h
    exact heq
  · cases h

/-! ## Maintenance -/

inductive CleanupReq where
  | now
  /-- `time.Parse` finds or makes a location for an offset. -/
  | location (offset t : Int)
  | listBackups
  | removeBackup (backup : String)

@[reducible] def CleanupReq.Resp : CleanupReq → Type
  | .now => Nat
  | .location _ _ => Zone
  | .listBackups => Except Error (List String)
  | .removeBackup _ => Option Error

@[reducible] def cleanupSig : Sig := ⟨CleanupReq, CleanupReq.Resp⟩

abbrev CleanupM := Prog cleanupSig

def ask (r : CleanupReq) : CleanupM r.Resp := .call (S := cleanupSig) r .ret

structure BackupNameInfo where
  timestamp : Timestamp
  suffix : String

def parseBackupNameInfo (name : String) : CleanupM (Option BackupNameInfo) :=
  match timeOf name with
  | none => return none
  | some (t, none) => return some ⟨⟨t, none⟩, (splitName name).2⟩
  | some (t, some offset) => do
    let z ← ask (.location offset t)
    return some ⟨⟨t, some z⟩, (splitName name).2⟩

/-- `HourlyBackupsRetention` and `DailyBackupsRetention` -/
structure Limits where
  hourly : Duration
  daily : Duration

/-- The maps a run makes from the listing. -/
structure Tiers where
  backups : AList fun _ : Timestamp => String
  retain : Finset String
  ignore : Finset String
  buckets : AList fun _ : Timestamp => Timestamp

namespace Tiers

def empty : Tiers := ⟨∅, ∅, ∅, ∅⟩

/-- A bucket has the first of its times. One that is missing reads as the zero
time, and so does one with the zero time. -/
def bucket (buckets : AList fun _ : Timestamp => Timestamp) (bucketed t : Timestamp) : AList fun _ : Timestamp => Timestamp :=
  let existing := (buckets.lookup bucketed).getD .zero
  if existing.isZero ∨ t.instant < existing.instant then buckets.insert bucketed t else buckets

def add (limits : Limits) (now : Nat) (s : Tiers) (backup : String) (t : Timestamp) : Tiers :=
  let s := { s with backups := s.backups.insert t backup }
  let age := Duration.sub now t.instant
  if age < .hour then { s with retain := insert backup s.retain }
  else if age < limits.hourly then { s with buckets := bucket s.buckets (t.truncate .hour) t }
  else if age < limits.daily then { s with buckets := bucket s.buckets (t.truncate .day) t }
  else s

/-- What is retained in the end. It does not matter in which order the buckets
come. -/
def retained (s : Tiers) : Finset String :=
  s.buckets.entries.foldl (fun retain e => insert ((s.backups.lookup e.2).getD "") retain) s.retain

end Tiers

/-- The loop over the listing. -/
def sortBackups (limits : Limits) (now : Nat) : List String → Tiers → CleanupM Tiers
  | [], s => return s
  | backup :: rest, s => do
    match ← parseBackupNameInfo backup with
    | none => sortBackups limits now rest { s with ignore := insert backup s.ignore }
    | some i => sortBackups limits now rest (s.add limits now backup i.timestamp)

/-- The second loop over it. A removal that fails is logged, and no more. -/
def removeBackups (retain ignore : Finset String) : List String → CleanupM Unit
  | [] => return ()
  | backup :: rest => do
    if backup ∈ retain then removeBackups retain ignore rest
    else if backup ∈ ignore then removeBackups retain ignore rest
    else
      let _ ← ask (.removeBackup backup)
      removeBackups retain ignore rest

structure BackupCleanup where
  lastBackupCleanup : Int
  backupCleanupInterval : Duration
  deriving DecidableEq

/-- `NewBackupCleanup` -/
def BackupCleanup.new : BackupCleanup := ⟨Timestamp.zero.instant, .hour⟩

def BackupCleanup.maybeDoBackupMaintenance (m : BackupCleanup) (limits : Limits) :
    CleanupM (BackupCleanup × Option Error) := do
  let now ← ask .now
  if Duration.sub now m.lastBackupCleanup < m.backupCleanupInterval then return (m, none)
  match ← ask .listBackups with
  | .error err => return (m, some s!"error listing backups: {err}")
  | .ok backupNames =>
    let s ← sortBackups limits now backupNames .empty
    removeBackups s.retained s.ignore backupNames
    return ({ m with lastBackupCleanup := now }, none)

/-! ## Histories -/

/-- A run that got a listing, and when it read the clock. -/
structure Run where
  now : Nat
  listed : List String
  deriving DecidableEq

/-- The clock, which counts from 1970, the backups in the store, the runs there
were, and what they asked to have removed, each with its clock. -/
structure World where
  clock : Nat
  backups : Finset String
  runs : List Run
  removals : List (Nat × String)
  deriving DecidableEq

/-- A run gets this listing. -/
def World.listing (w : World) (l : List String) : World := { w with runs := w.runs ++ [⟨w.clock, l⟩] }

/-- A listing may fail. So may a removal, whether or not it was carried out. -/
inductive Serves (w : World) : (r : CleanupReq) → r.Resp → World → Prop
  | now {now} : w.clock ≤ now → Serves w .now now { w with clock := now }
  | located {offset t z} : Serves w (.location offset t) z w
  | listed {l} : (∀ backup, backup ∈ l ↔ backup ∈ w.backups) →
      Serves w .listBackups (.ok l) (w.listing l)
  | listFailed {err} : Serves w .listBackups (.error err) w
  | removed {backup x} : Serves w (.removeBackup backup) x
      { w with backups := w.backups.erase backup, removals := w.removals ++ [(w.clock, backup)] }
  | removeFailed {backup err} : Serves w (.removeBackup backup) (some err)
      { w with removals := w.removals ++ [(w.clock, backup)] }

/-- Meanwhile backups may be added. -/
def Answers (w : World) (r : CleanupReq) (x : r.Resp) (w' : World) : Prop :=
  ∃ added, Serves { w with backups := w.backups ∪ added } r x w'

/-- A backup is added, or some manager calls for maintenance, which may be cut
short. -/
inductive Step (limits : Limits) : World → World → Prop
  | add {w backup} : Step limits w { w with backups := insert backup w.backups }
  | call {w w'} {m : BackupCleanup} {p} : Prog.Goes Answers w (m.maybeDoBackupMaintenance limits) p w' → Step limits w w'

/-- What backups are kept of. -/
inductive Period where
  | hour
  | day

def Period.length : Period → Int
  | .hour => 3600000000000
  | .day => 86400000000000

theorem Period.length_pos (p : Period) : 0 < p.length := by
  cases p <;> decide

def Limits.of (limits : Limits) : Period → Duration
  | .hour => limits.hourly
  | .day => limits.daily

/-- Some run has listed a backup that is named after this time in UTC. -/
def World.Listed (w : World) (t : Int) : Prop := ∃ run ∈ w.runs, ∃ backup ∈ run.listed, utcTime backup = some t

/-- The first of its period that was ever listed. -/
structure World.Earliest (w : World) (p : Period) (k e : Int) : Prop where
  listed : w.Listed e
  within : e / p.length = k
  le : ∀ t, w.Listed t → t / p.length = k → e ≤ t

/-- There is a backup of this time. -/
def World.Holds (w : World) (t : Int) : Prop := ∃ backup ∈ w.backups, utcTime backup = some t

/-! ## Tiers -/

namespace Tiers

variable {limits : Limits} {now : Nat} {s : Tiers} {backup : String} {t : Timestamp}

/-- The bucket a time goes to, if it goes to one. -/
def bucketOf (limits : Limits) (now : Nat) (t : Timestamp) : Option Timestamp :=
  let age := Duration.sub now t.instant
  if age < .hour then none
  else if age < limits.hourly then some (t.truncate .hour)
  else if age < limits.daily then some (t.truncate .day)
  else none

theorem add_eq : s.add limits now backup t =
    { backups := s.backups.insert t backup
      retain := if Duration.sub now t.instant < .hour then insert backup s.retain else s.retain
      ignore := s.ignore
      buckets := (bucketOf limits now t).elim s.buckets (bucket s.buckets · t) } := by
  simp only [add, bucketOf]
  by_cases hhour : Duration.sub now t.instant < .hour
  · simp [hhour]
  by_cases hhourly : Duration.sub now t.instant < limits.hourly
  · simp [hhour, hhourly]
  by_cases hdaily : Duration.sub now t.instant < limits.daily
  · simp [hhour, hhourly, hdaily]
  · simp [hhour, hhourly, hdaily]

variable {buckets : AList fun _ : Timestamp => Timestamp} {bucketed : Timestamp} {l : List String}

/-- A bucket keeps its time or gets the new one, whichever is first. -/
theorem lookup_bucket (hnonzero : ∀ v, buckets.lookup bucketed = some v → ¬ v.isZero) :
    ∃ v, (bucket buckets bucketed t).lookup bucketed = some v ∧ (v = t ∨ buckets.lookup bucketed = some v) ∧
      v.instant ≤ t.instant ∧ ∀ v', buckets.lookup bucketed = some v' → v.instant ≤ v'.instant := by
  simp only [bucket]
  cases hlookup : buckets.lookup bucketed with
  | none =>
    have hzero : Timestamp.zero.isZero := rfl
    rw [Option.getD_none, if_pos (.inl hzero)]
    exact ⟨t, AList.lookup_insert _, .inl rfl, le_rfl, nofun⟩
  | some existing =>
    simp only [Option.getD_some, hnonzero existing hlookup, false_or, Option.some.injEq, forall_eq']
    split
    · next hlt => exact ⟨t, AList.lookup_insert _, .inl rfl, le_rfl, hlt.le⟩
    · next hle => exact ⟨existing, hlookup, .inr rfl, not_lt.1 hle, le_rfl⟩

theorem lookup_bucket_ne {other : Timestamp} (h : other ≠ bucketed) :
    (bucket buckets bucketed t).lookup other = buckets.lookup other := by
  simp only [bucket]
  split
  · exact AList.lookup_insert_ne h
  · rfl

theorem mem_foldl_insert {ι : Type} {f : ι → String} : ∀ {l : List ι} {retain : Finset String},
    backup ∈ l.foldl (fun retain i => insert (f i) retain) retain ↔ backup ∈ retain ∨ ∃ i ∈ l, f i = backup
  | [], retain => by simp
  | i :: l, retain => by
    rw [List.foldl_cons, mem_foldl_insert]
    simp [or_left_comm, or_assoc, eq_comm]

theorem mem_retained : backup ∈ s.retained ↔
    backup ∈ s.retain ∨ ∃ k v, s.buckets.lookup k = some v ∧ (s.backups.lookup v).getD "" = backup := by
  rw [retained, mem_foldl_insert]
  refine or_congr_right ⟨?_, ?_⟩
  · intro ⟨⟨k, v⟩, he, hbackup⟩
    exact ⟨k, v, AList.mem_lookup_iff.2 he, hbackup⟩
  · intro ⟨k, v, hlookup, hbackup⟩
    exact ⟨⟨k, v⟩, AList.mem_lookup_iff.1 hlookup, hbackup⟩

theorem bucketOf_spec {k : Timestamp} (h : bucketOf limits now t = some k) :
    k.loc = t.loc ∧ k.instant ≤ t.instant ∧ ¬ t.isZero := by
  -- the zero time is too long ago for an age, and no limit is above the highest age
  have hzero : ¬ t.isZero := by
    intro hzero
    have hinstant : t.instant = -62135596800000000000 := hzero
    have hmax : (Duration.sub now t.instant).ns = 9223372036854775807 := by
      simp only [Duration.sub]
      omega
    have hnot (d : Duration) : ¬ Duration.sub now t.instant < d := by
      intro hlt
      have hlt' : (Duration.sub now t.instant).ns < d.ns := hlt
      have hfits := d.fits
      omega
    simp [bucketOf, hnot] at h
  simp only [bucketOf, Timestamp.truncate] at h
  split at h
  · cases h
  split at h
  · cases h
    exact ⟨rfl, by simp only [Duration.hour]; omega, hzero⟩
  split at h
  · cases h
    exact ⟨rfl, by simp only [Duration.day]; omega, hzero⟩
  · cases h

section Added

variable {k : Timestamp} (hnonzero : ∀ v, s.buckets.lookup k = some v → ¬ v.isZero)
include hnonzero

/-- What a bucket holds after a backup was sorted in was there, or is its time. -/
theorem lookup_add_buckets {v : Timestamp} (hlookup : (s.add limits now backup t).buckets.lookup k = some v) :
    s.buckets.lookup k = some v ∨ bucketOf limits now t = some k ∧ v = t := by
  rw [add_eq] at hlookup
  cases hbucket : bucketOf limits now t with
  | none =>
    rw [hbucket] at hlookup
    exact .inl hlookup
  | some bucketed =>
    rw [hbucket, Option.elim_some] at hlookup
    by_cases hk : k = bucketed
    · subst hk
      obtain ⟨v', hv', hwhich, -⟩ := lookup_bucket (t := t) hnonzero
      obtain rfl := Option.some.inj (hv'.symm.trans hlookup)
      exact hwhich.symm.imp_right fun hv => ⟨rfl, hv⟩
    · rw [lookup_bucket_ne hk] at hlookup
      exact .inl hlookup

/-- A bucket is never left with a later time. -/
theorem add_buckets_le {v : Timestamp} (hlookup : s.buckets.lookup k = some v) :
    ∃ v', (s.add limits now backup t).buckets.lookup k = some v' ∧ v'.instant ≤ v.instant := by
  rw [add_eq]
  cases hbucket : bucketOf limits now t with
  | none => exact ⟨v, hlookup, le_rfl⟩
  | some bucketed =>
    by_cases hk : k = bucketed
    · subst hk
      obtain ⟨v', hv', -, -, hfirst⟩ := lookup_bucket (t := t) hnonzero
      exact ⟨v', hv', hfirst v hlookup⟩
    · exact ⟨v, (lookup_bucket_ne hk).trans hlookup, le_rfl⟩

theorem add_buckets_filed (hk : bucketOf limits now t = some k) :
    ∃ v, (s.add limits now backup t).buckets.lookup k = some v ∧ v.instant ≤ t.instant := by
  rw [add_eq, hk]
  obtain ⟨v, hv, -, hle, -⟩ := lookup_bucket (t := t) hnonzero
  exact ⟨v, hv, hle⟩

end Added

theorem add_backups : (s.add limits now backup t).backups = s.backups.insert t backup := by rw [add_eq]

/-- The backup of a time is still there, or replaced by the new one. -/
theorem exists_add_backups {v : Timestamp} (h : ∃ backup, s.backups.lookup v = some backup) :
    ∃ backup', (s.add limits now backup t).backups.lookup v = some backup' := by
  rw [add_backups]
  by_cases hvt : v = t
  · exact ⟨backup, hvt ▸ AList.lookup_insert _⟩
  · rwa [AList.lookup_insert_ne hvt]

theorem utcTime_eq_some_iff {offset : Option Int} (htime : timeOf backup = some (t.instant, offset))
    (hloc : t.loc = none ↔ offset = none) {t' : Int} : utcTime backup = some t' ↔ t = ⟨t', none⟩ := by
  rw [utcTime, htime]
  obtain ⟨instant, loc⟩ := t
  cases offset with
  | none =>
    have hnone : loc = none := hloc.2 rfl
    simp [hnone]
  | some offset =>
    have hsome : loc ≠ none := fun hnone => by simpa using hloc.1 hnone
    simp [hsome]

/-- What the maps say of the backups that were sorted so far. -/
structure Sound (limits : Limits) (now : Nat) (l : List String) (s : Tiers) : Prop where
  ignore : ∀ backup ∈ l, timeOf backup = none → backup ∈ s.ignore
  fresh : ∀ backup ∈ l, ∀ t offset, timeOf backup = some (t, offset) → Duration.sub now t < .hour → backup ∈ s.retain
  backups : ∀ t backup, s.backups.lookup ⟨t, none⟩ = some backup → backup ∈ l ∧ utcTime backup = some t
  buckets : ∀ k v, s.buckets.lookup ⟨k, none⟩ = some v →
    v.loc = none ∧ k ≤ v.instant ∧ ¬ v.isZero ∧ ∃ backup, s.backups.lookup v = some backup
  filed : ∀ backup ∈ l, ∀ t, utcTime backup = some t → ∀ k, bucketOf limits now ⟨t, none⟩ = some k →
    ∃ v, s.buckets.lookup k = some v ∧ v.instant ≤ t

namespace Sound

theorem nil : Sound limits now [] .empty where
  ignore := by simp
  fresh := by simp
  backups t backup h := by simp [empty] at h
  buckets k v h := by simp [empty] at h
  filed := by simp

theorem ignored (h : Sound limits now l s) (htime : timeOf backup = none) :
    Sound limits now (l ++ [backup]) { s with ignore := insert backup s.ignore } where
  ignore := by
    intro backup' hmem htime'
    rw [Finset.mem_insert]
    rcases List.mem_append.1 hmem with hmem | hmem
    · exact .inr (h.ignore backup' hmem htime')
    · exact .inl (List.mem_singleton.1 hmem)
  fresh := by
    intro backup' hmem t offset htime' hage
    rcases List.mem_append.1 hmem with hmem | hmem
    · exact h.fresh backup' hmem t offset htime' hage
    · rw [List.mem_singleton.1 hmem, htime] at htime'
      cases htime'
  backups := by
    intro t backup' hlookup
    exact ⟨List.mem_append_left _ (h.backups t backup' hlookup).1, (h.backups t backup' hlookup).2⟩
  buckets := h.buckets
  filed := by
    intro backup' hmem t htime'
    rcases List.mem_append.1 hmem with hmem | hmem
    · exact h.filed backup' hmem t htime'
    · rw [List.mem_singleton.1 hmem, utcTime, htime] at htime'
      cases htime'

theorem added (h : Sound limits now l s) {offset : Option Int} (htime : timeOf backup = some (t.instant, offset))
    (hloc : t.loc = none ↔ offset = none) : Sound limits now (l ++ [backup]) (s.add limits now backup t) := by
  have hutc {t' : Int} : utcTime backup = some t' ↔ t = ⟨t', none⟩ := utcTime_eq_some_iff htime hloc
  have hnonzero {k : Int} (v : Timestamp) (hv : s.buckets.lookup ⟨k, none⟩ = some v) : ¬ v.isZero := (h.buckets k v hv).2.2.1
  refine ⟨?_, ?_, ?_, ?_, ?_⟩
  · intro backup' hmem htime'
    rw [add_eq]
    rcases List.mem_append.1 hmem with hmem | hmem
    · exact h.ignore backup' hmem htime'
    · rw [List.mem_singleton.1 hmem, htime] at htime'
      cases htime'
  · intro backup' hmem t' offset' htime' hage
    rw [add_eq]
    rcases List.mem_append.1 hmem with hmem | hmem
    · have hretain := h.fresh backup' hmem t' offset' htime' hage
      dsimp only
      split
      · exact Finset.mem_insert_of_mem hretain
      · exact hretain
    · rw [List.mem_singleton.1 hmem] at htime' ⊢
      rw [htime] at htime'
      cases htime'
      dsimp only
      rw [if_pos hage]
      exact Finset.mem_insert_self _ _
  · intro t' backup' hlookup
    rw [add_backups] at hlookup
    by_cases ht' : ⟨t', none⟩ = t
    · subst ht'
      rw [AList.lookup_insert] at hlookup
      cases hlookup
      exact ⟨by simp, hutc.2 rfl⟩
    · rw [AList.lookup_insert_ne ht'] at hlookup
      exact ⟨List.mem_append_left _ (h.backups t' backup' hlookup).1, (h.backups t' backup' hlookup).2⟩
  · intro k v hlookup
    cases lookup_add_buckets hnonzero hlookup with
    | inl hlookup =>
      obtain ⟨hloc', hle, hzero, hmem⟩ := h.buckets k v hlookup
      exact ⟨hloc', hle, hzero, exists_add_backups hmem⟩
    | inr hnew =>
      obtain ⟨hbucket, rfl⟩ := hnew
      obtain ⟨hloc', hle, hzero⟩ := bucketOf_spec hbucket
      exact ⟨hloc'.symm, hle, hzero, backup, by rw [add_backups, AList.lookup_insert]⟩
  · intro backup' hmem t' htime' k hk
    obtain ⟨k, loc⟩ := k
    have hkloc : loc = none := (bucketOf_spec hk).1
    subst hkloc
    rcases List.mem_append.1 hmem with hmem | hmem
    · obtain ⟨v, hv, hold⟩ := h.filed backup' hmem t' htime' ⟨k, none⟩ hk
      have hle : ∃ v', (s.add limits now backup t).buckets.lookup ⟨k, none⟩ = some v' ∧ v'.instant ≤ v.instant :=
        add_buckets_le hnonzero hv
      obtain ⟨v', hv', hle'⟩ := hle
      exact ⟨v', hv', hle'.trans hold⟩
    · rw [List.mem_singleton.1 hmem] at htime'
      have ht := hutc.1 htime'
      subst ht
      exact add_buckets_filed hnonzero hk

/-- A backup that is still to be kept for its period is fresh, or in a bucket that
begins no earlier than the period. -/
theorem bucketOf_of_due {p : Period} {t : Int} (hdue : now - t / p.length * p.length < (limits.of p).ns)
    (hold : ¬ Duration.sub now t < .hour) : ∃ k, bucketOf limits now ⟨t, none⟩ = some k ∧ t / p.length * p.length ≤ k.instant := by
  have hhour : 3600000000000 ≤ (Duration.sub now t).ns := not_lt.1 hold
  have hage {d : Duration} (hlt : now - t < d.ns) : Duration.sub now t < d := by
    show (Duration.sub now t).ns < d.ns
    simp only [Duration.sub] at hhour ⊢
    omega
  have htrunc (d : Int) (hd : d = 3600000000000 ∨ d = 86400000000000) :
      t / 86400000000000 * 86400000000000 ≤ t - (t - Timestamp.zero.instant) % d := by
    simp only [Timestamp.zero]
    rcases hd with rfl | rfl <;> omega
  cases p with
  | hour =>
    have hlt : now - t < limits.hourly.ns := by
      simp only [Period.length, Limits.of] at hdue
      omega
    refine ⟨_, by rw [bucketOf, if_neg hold, if_pos (hage hlt)], ?_⟩
    simp only [Period.length, Timestamp.truncate, Timestamp.zero, Duration.hour]
    omega
  | day =>
    have hlt : now - t < limits.daily.ns := by
      simp only [Period.length, Limits.of] at hdue
      omega
    by_cases hhourly : Duration.sub now t < limits.hourly
    · refine ⟨_, by rw [bucketOf, if_neg hold, if_pos hhourly], ?_⟩
      exact htrunc _ (.inl rfl)
    · refine ⟨_, by rw [bucketOf, if_neg hold, if_neg hhourly, if_pos (hage hlt)], ?_⟩
      exact htrunc _ (.inr rfl)

/-- What is neither retained nor ignored has a time, and is not fresh. -/
theorem due (h : Sound limits now l s) (hmem : backup ∈ l) (hretain : backup ∉ s.retained) (hignore : backup ∉ s.ignore) :
    ∃ t offset, timeOf backup = some (t, offset) ∧ ¬ Duration.sub now t < .hour := by
  cases htime : timeOf backup with
  | none => exact absurd (h.ignore backup hmem htime) hignore
  | some x =>
    exact ⟨x.1, x.2, rfl, fun hage => hretain (mem_retained.2 (.inl (h.fresh backup hmem x.1 x.2 htime hage)))⟩

/-- The first of a period is retained, or another backup of the same time is. -/
theorem retains_earliest (h : Sound limits now l s) {p : Period} {e : Int} (hmem : backup ∈ l)
    (htime : utcTime backup = some e) (hdue : now - e / p.length * p.length < (limits.of p).ns)
    (hfirst : ∀ backup' ∈ l, ∀ t, utcTime backup' = some t → t / p.length = e / p.length → e ≤ t) :
    ∃ backup' ∈ l, utcTime backup' = some e ∧ backup' ∈ s.retained := by
  by_cases hage : Duration.sub now e < .hour
  · have hretain : backup ∈ s.retain := h.fresh backup hmem e none (timeOf_of_utcTime htime) hage
    exact ⟨backup, hmem, htime, mem_retained.2 (.inl hretain)⟩
  · obtain ⟨k, hk, hbegin⟩ := bucketOf_of_due hdue hage
    obtain ⟨v, hv, hle⟩ := h.filed backup hmem e htime k hk
    obtain ⟨k, loc⟩ := k
    have hkloc : loc = none := (bucketOf_spec hk).1
    subst hkloc
    obtain ⟨hloc, hkv, -, backup', hbackup'⟩ := h.buckets k v hv
    obtain ⟨v, vloc⟩ := v
    subst hloc
    obtain ⟨hmem', htime'⟩ := h.backups v backup' hbackup'
    have hwithin : v / p.length = e / p.length :=
      le_antisymm (Int.ediv_le_ediv p.length_pos hle) (Int.le_ediv_of_mul_le p.length_pos (hbegin.trans hkv))
    have heq : v = e := le_antisymm hle (hfirst backup' hmem' v htime' hwithin)
    subst heq
    exact ⟨backup', hmem', htime', mem_retained.2 (.inr ⟨_, _, hv, by rw [hbackup']; rfl⟩)⟩

end Sound

end Tiers

/-! ## What a run leaves -/

/-- What may happen after a listing: backups are added, and some of those that
`gone` tells are removed. -/
structure World.After (gone : String → Prop) (w w' : World) : Prop where
  clock : w'.clock = w.clock
  runs : w'.runs = w.runs
  backups : ∀ backup ∈ w.backups, backup ∈ w'.backups ∨ gone backup
  removals : ∀ x ∈ w'.removals, x ∈ w.removals ∨ (x.1 = w.clock ∧ gone x.2)

variable {limits : Limits} {w w' w'' : World} {gone : String → Prop}

namespace World.After

theorem refl : World.After gone w w := ⟨rfl, rfl, fun _ => .inl, fun _ => .inl⟩

theorem trans (h : World.After gone w w') (h' : World.After gone w' w'') : World.After gone w w'' where
  clock := h'.clock.trans h.clock
  runs := h'.runs.trans h.runs
  backups backup hmem := (h.backups backup hmem).elim (h'.backups backup) .inr
  removals x hmem := by
    rcases h'.removals x hmem with hmem | hmem
    · exact h.removals x hmem
    · rw [h.clock] at hmem
      exact .inr hmem

theorem mono {gone' : String → Prop} (hgone : ∀ backup, gone backup → gone' backup) (h : World.After gone w w') :
    World.After gone' w w' where
  clock := h.clock
  runs := h.runs
  backups backup hmem := (h.backups backup hmem).imp_right (hgone backup)
  removals x hmem := (h.removals x hmem).imp_right fun hx => ⟨hx.1, hgone x.2 hx.2⟩

theorem of_located {offset t : Int} {z : Zone} (h : Answers w (.location offset t) z w') : World.After gone w w' := by
  obtain ⟨added, hserves⟩ := h
  cases hserves with
  | located => exact ⟨rfl, rfl, fun _ hmem => .inl (Finset.mem_union_left _ hmem), fun _ => .inl⟩

theorem of_removed {backup : String} {x : Option Error} (h : Answers w (.removeBackup backup) x w') (hgone : gone backup) :
    World.After gone w w' := by
  obtain ⟨added, hserves⟩ := h
  have hremovals (x : Nat × String) (hx : x ∈ w.removals ++ [(w.clock, backup)]) :
      x ∈ w.removals ∨ (x.1 = w.clock ∧ gone x.2) := by
    rcases List.mem_append.1 hx with hx | hx
    · exact .inl hx
    · rw [List.mem_singleton.1 hx]
      exact .inr ⟨rfl, hgone⟩
  cases hserves with
  | removed =>
    refine ⟨rfl, rfl, fun backup' hmem => ?_, hremovals⟩
    by_cases heq : backup' = backup
    · exact .inr (heq ▸ hgone)
    · exact .inl (Finset.mem_erase.2 ⟨heq, Finset.mem_union_left _ hmem⟩)
  | removeFailed => exact ⟨rfl, rfl, fun _ hmem => .inl (Finset.mem_union_left _ hmem), hremovals⟩

end World.After

theorem always_ask {α : Type} {I : World → Prop} {Q : World → α → Prop} {r : CleanupReq} {f : r.Resp → CleanupM α}
    (h : ∀ x w', Answers w r x w' → I w' ∧ (f x).Always Answers I Q w') : (ask r >>= f).Always Answers I Q w := h

/-- The listing is sorted, and nothing is removed meanwhile. -/
theorem always_sortBackups {I : World → Prop} {now : Nat} (hI : ∀ w', World.After (fun _ => False) w w' → I w') :
    ∀ (names : List String) {l : List String} {s : Tiers} {w₁ : World}, s.Sound limits now l →
      World.After (fun _ => False) w w₁ → (sortBackups limits now names s).Always Answers I
        (fun w' s' => World.After (fun _ => False) w w' ∧ s'.Sound limits now (l ++ names)) w₁
  | [], l, s, w₁, hs, hafter => ⟨hafter, by simpa using hs⟩
  | backup :: rest, l, s, w₁, hs, hafter => by
    have happend : l ++ backup :: rest = l ++ [backup] ++ rest := by simp
    rw [happend]
    unfold sortBackups parseBackupNameInfo
    split
    · next htime => exact always_sortBackups hI rest (hs.ignored htime) hafter
    · next t htime => exact always_sortBackups hI rest (hs.added htime (by simp)) hafter
    · next t offset htime =>
      intro z w' hanswer
      have hafter' := hafter.trans (.of_located hanswer)
      exact ⟨hI w' hafter', always_sortBackups hI rest (hs.added htime (by simp)) hafter'⟩

/-- Only what is neither retained nor ignored is removed. -/
theorem always_removeBackups {I : World → Prop} {retain ignore : Finset String} {l : List String}
    (hI : ∀ w', World.After (fun backup => backup ∈ l ∧ backup ∉ retain ∧ backup ∉ ignore) w w' → I w') :
    ∀ (names : List String) {w₁ : World}, names ⊆ l →
      World.After (fun backup => backup ∈ l ∧ backup ∉ retain ∧ backup ∉ ignore) w w₁ →
      (removeBackups retain ignore names).Always Answers I (fun _ _ => True) w₁
  | [], _, _, _ => trivial
  | backup :: rest, w₁, hsub, hafter => by
    obtain ⟨hmem, hrest⟩ := List.cons_subset.1 hsub
    unfold removeBackups
    split
    · exact always_removeBackups hI rest hrest hafter
    split
    · exact always_removeBackups hI rest hrest hafter
    next hretain hignore =>
      refine always_ask fun x w' hanswer => ?_
      have hafter' := hafter.trans (.of_removed hanswer ⟨hmem, hretain, hignore⟩)
      exact ⟨hI w' hafter', always_removeBackups hI rest hrest hafter'⟩

/-- The first backups of all periods that the last run was to keep are there, and
nothing was removed that is fresh or has no time. -/
structure World.Sound (limits : Limits) (w : World) : Prop where
  past : ∀ run ∈ w.runs, run.now ≤ w.clock
  kept : ∀ last, w.runs.getLast? = some last → ∀ (p : Period) (k : Int), last.now - k * p.length < (limits.of p).ns →
    (∃ t, w.Listed t ∧ t / p.length = k) → ∃ e, w.Earliest p k e ∧ w.Holds e
  removals : ∀ x ∈ w.removals, ∃ t offset, timeOf x.2 = some (t, offset) ∧ Period.hour.length ≤ x.1 - t

namespace World

/-- Among the backups listed now are the first of all that are still to be kept. -/
theorem Sound.earliest_listed (h : w.Sound limits) {l : List String} (hl : ∀ backup ∈ w.backups, backup ∈ l)
    {p : Period} {k : Int} (hdue : w.clock - k * p.length < (limits.of p).ns)
    (hlisted : ∃ t, (w.listing l).Listed t ∧ t / p.length = k) :
    ∃ e, (w.listing l).Earliest p k e ∧ ∃ backup ∈ l, utcTime backup = some e := by
  have hcases {t : Int} : (w.listing l).Listed t ↔
      w.Listed t ∨ ∃ backup ∈ l, utcTime backup = some t := by
    simp [World.Listed, World.listing, or_and_right, exists_or]
  -- whatever was listed before, something as early is listed now
  have hnow (t : Int) (ht : (w.listing l).Listed t) (hk : t / p.length = k) :
      ∃ t' ≤ t, t' / p.length = k ∧ ∃ backup ∈ l, utcTime backup = some t' := by
    rcases hcases.1 ht with ht | ht
    · obtain ⟨run, hrun, -⟩ := id ht
      obtain ⟨last, hlast⟩ : ∃ last, w.runs.getLast? = some last :=
        ⟨_, List.getLast?_eq_some_getLast (List.ne_nil_of_mem hrun)⟩
      have hpast := h.past last (List.mem_of_getLast? hlast)
      obtain ⟨e, he, backup, hbackup, htime⟩ := h.kept last hlast p k (by omega) ⟨t, ht, hk⟩
      exact ⟨e, he.le t ht hk, he.within, backup, hl backup hbackup, htime⟩
    · exact ⟨t, le_rfl, hk, ht⟩
  obtain ⟨t, ht, hk⟩ := hlisted
  obtain ⟨t', -, hk', backup', hbackup', htime'⟩ := hnow t ht hk
  obtain ⟨e, he, hmin⟩ := ((l.filterMap utcTime).toFinset.filter (· / p.length = k)).exists_min_image id
    ⟨t', by simpa using ⟨⟨backup', hbackup', htime'⟩, hk'⟩⟩
  simp only [Finset.mem_filter, List.mem_toFinset, List.mem_filterMap] at he hmin
  refine ⟨e, ⟨hcases.2 (.inr he.1), he.2, fun t ht hk => ?_⟩, he.1⟩
  obtain ⟨t'', hle, hk'', hmem⟩ := hnow t ht hk
  exact (hmin t'' ⟨hmem, hk''⟩).trans hle

/-- Time goes by, and backups are added. -/
theorem Sound.waited (h : w.Sound limits) {now : Nat} (hnow : w.clock ≤ now) {backups : Finset String}
    (hsub : w.backups ⊆ backups) : World.Sound limits { w with clock := now, backups := backups } where
  past run hrun := (h.past run hrun).trans hnow
  kept last hlast p k hdue hlisted := by
    obtain ⟨e, he, backup, hbackup, htime⟩ := h.kept last hlast p k hdue hlisted
    exact ⟨e, ⟨he.listed, he.within, he.le⟩, backup, hsub hbackup, htime⟩
  removals := h.removals

/-- After a listing the store stays sound as long as the first of each period, or
one of the same time, is not among what goes. -/
theorem Sound.listing_after (h : w.Sound limits) {l : List String} (hl : ∀ backup, backup ∈ l ↔ backup ∈ w.backups)
    (hdue : ∀ backup, gone backup → ∃ t offset, timeOf backup = some (t, offset) ∧ ¬ Duration.sub w.clock t < .hour)
    (hfirst : ∀ (p : Period) (e : Int), w.clock - e / p.length * p.length < (limits.of p).ns →
      (∃ backup ∈ l, utcTime backup = some e) →
      (∀ backup ∈ l, ∀ t, utcTime backup = some t → t / p.length = e / p.length → e ≤ t) →
      ∃ backup ∈ l, utcTime backup = some e ∧ ¬ gone backup)
    (hafter : (w.listing l).After gone w') : w'.Sound limits := by
  have hlisted (t : Int) : w'.Listed t ↔ (w.listing l).Listed t := by rw [Listed, Listed, hafter.runs]
  refine ⟨?_, ?_, ?_⟩
  · intro run hrun
    rw [hafter.runs, listing, List.mem_append, List.mem_singleton] at hrun
    rw [hafter.clock]
    rcases hrun with hrun | rfl
    · exact h.past run hrun
    · exact le_rfl
  · intro last hlast p k hlast' ⟨t, ht, hk⟩
    rw [hafter.runs, listing, List.getLast?_append] at hlast
    cases hlast
    obtain ⟨e, he, hmem⟩ := h.earliest_listed (fun backup => (hl backup).2) hlast' ⟨t, (hlisted t).1 ht, hk⟩
    have hfirst' (backup : String) (hbackup : backup ∈ l) (t : Int) (htime : utcTime backup = some t)
        (hk : t / p.length = e / p.length) : e ≤ t :=
      he.le t ⟨⟨w.clock, l⟩, by simp [listing], backup, hbackup, htime⟩ (hk.trans he.within)
    obtain ⟨backup, hbackup, htime, hgone⟩ := hfirst p e (he.within ▸ hlast') hmem hfirst'
    refine ⟨e, ⟨(hlisted e).2 he.listed, he.within, fun t ht => he.le t ((hlisted t).1 ht)⟩, backup, ?_, htime⟩
    exact (hafter.backups backup ((hl backup).1 hbackup)).resolve_right hgone
  · intro x hx
    rcases hafter.removals x hx with hx | ⟨hclock, hgone⟩
    · exact h.removals x hx
    · obtain ⟨t, offset, htime, hage⟩ := hdue x.2 hgone
      refine ⟨t, offset, htime, ?_⟩
      rw [hclock]
      have hage' : 3600000000000 ≤ (Duration.sub w.clock t).ns := not_lt.1 hage
      simp only [Duration.sub] at hage'
      simp only [Period.length, World.listing]
      omega

end World

theorem always_maybeDoBackupMaintenance (m : BackupCleanup) (h : w.Sound limits) :
    (m.maybeDoBackupMaintenance limits).Always Answers (World.Sound limits) (fun _ _ => True) w := by
  refine always_ask fun now w₁ ⟨added, hnow⟩ => ?_
  cases hnow with
  | now hle =>
    have hsound := h.waited hle (@Finset.subset_union_left _ _ _ added)
    refine ⟨hsound, ?_⟩
    split
    · trivial
    refine always_ask fun x w₂ ⟨added', hlist⟩ => ?_
    have hsound' := hsound.waited le_rfl (@Finset.subset_union_left _ _ _ added')
    cases hlist with
    | listFailed => exact ⟨hsound', trivial⟩
    | @listed l hl =>
      have hkept (w' : World) (hafter : World.After (fun _ => False) _ w') : w'.Sound limits :=
        hsound'.listing_after hl nofun (fun p e _ ⟨backup, hmem, htime⟩ _ => ⟨backup, hmem, htime, id⟩) hafter
      refine ⟨hkept _ .refl, .bind (.mono ?_ (always_sortBackups hkept l .nil .refl))⟩
      intro w₃ s ⟨hafter, hs⟩
      refine .bind (.mono (fun _ _ _ => trivial) (always_removeBackups ?_ l (List.Subset.refl l) (hafter.mono nofun)))
      intro w' hafter'
      refine hsound'.listing_after hl (fun backup ⟨hmem, hretain, hignore⟩ => hs.due hmem hretain hignore) ?_ hafter'
      intro p e hdue ⟨backup, hmem, htime⟩ hfirst
      obtain ⟨backup', hmem', htime', hretained⟩ := hs.retains_earliest hmem htime hdue hfirst
      exact ⟨backup', hmem', htime', fun hgone => hgone.2.1 hretained⟩

theorem Step.sound (hstep : Step limits w w') (h : w.Sound limits) : w'.Sound limits := by
  cases hstep with
  | add => exact h.waited le_rfl (Finset.subset_insert _ _)
  | call hgoes => exact (Prog.Always.goes hgoes (always_maybeDoBackupMaintenance _ h) h).1

theorem sound_of_steps {w₀ : World} (hruns : w₀.runs = []) (hremovals : w₀.removals = [])
    (hsteps : Relation.ReflTransGen (Step limits) w₀ w) : w.Sound limits := by
  induction hsteps with
  | refl => exact ⟨by simp [hruns], by simp [hruns], by simp [hremovals]⟩
  | tail _ hstep ih => exact hstep.sound ih

/-- **Retention never loses a period.** Whatever backups are added, and whenever
maintenance runs and which removals fail: of every hour that began less than the
hourly limit before the last run, and every day that began less than the daily
limit before it, the first backup that was ever listed is there still, or
another of the same time. And no run removed a backup that was less than an hour
old then, or whose name is no time. -/
theorem retention_never_loses_a_period (limits : Limits) (w₀ w : World) (hruns : w₀.runs = []) (hremovals : w₀.removals = [])
    (hsteps : Relation.ReflTransGen (Step limits) w₀ w) :
    (∀ last, w.runs.getLast? = some last → ∀ (p : Period) (k : Int), last.now - k * p.length < (limits.of p).ns →
      (∃ t, w.Listed t ∧ t / p.length = k) → ∃ e, w.Earliest p k e ∧ w.Holds e) ∧
    ∀ now backup, (now, backup) ∈ w.removals →
      ∃ t offset, timeOf backup = some (t, offset) ∧ Period.hour.length ≤ now - t := by
  have hsound := sound_of_steps hruns hremovals hsteps
  exact ⟨hsound.kept, fun now backup hmem => hsound.removals (now, backup) hmem⟩

/-! ## Names and the store as they are -/

theorem cutAtZ_append {suffix : List Char} : ∀ {timeString : List Char}, 'Z' ∉ timeString →
    cutAtZ (timeString ++ 'Z' :: '-' :: suffix) = some (timeString ++ ['Z'], suffix)
  | [], _ => rfl
  | c :: timeString, h => by
    have hc : c ≠ 'Z' := fun hc => h (hc ▸ List.mem_cons_self)
    have hrest := @cutAtZ_append suffix timeString fun hmem => h (List.mem_cons_of_mem _ hmem)
    simp [cutAtZ, hc, hrest]

/-- A name as `AddBackup` writes it is cut behind the time, since the first `Z` is the one there. -/
theorem splitName_backupName (now : Int) (sequence : String) :
    splitName (BackupStore.backupName now sequence) = ((rfc3339 (unix now)).toList, sequence) := by
  let timeString := dateText (dateOf (unix now / 86400)) ++ 'T' :: clockText (unix now % 86400)
  have hz : 'Z' ∉ timeString := by
    simp [timeString, dateText, clockText, fields, notMem_appendInt]
  have htext : (rfc3339 (unix now)).toList = timeString ++ ['Z'] := by simp [rfc3339, timeString]
  have hname : (BackupStore.backupName now sequence).toList = timeString ++ 'Z' :: '-' :: sequence.toList := by
    simp [BackupStore.backupName, htext]
  rw [splitName, hname, cutAtZ_append hz, htext]
  simp only [String.ofList_toList]

theorem timeOf_backupName {now : Int} (h : FourDigitYear (unix now)) (sequence : String) :
    timeOf (BackupStore.backupName now sequence) = some (unix now * 1000000000, none) := by
  rw [timeOf, splitName_backupName, parseRFC3339_rfc3339 h]

/-- A name gives back the second it was made in and the suffix, and so tells it from every other name. The suffix may
have a `Z-` in it. -/
theorem backup_names_parse_back (now now' : Int) (sequence sequence' : String) (h : FourDigitYear (unix now))
    (h' : FourDigitYear (unix now')) :
    parseBackupNameInfo (BackupStore.backupName now sequence) =
        .ret (some ⟨⟨unix now * 1000000000, none⟩, sequence⟩) ∧
      (BackupStore.backupName now sequence = BackupStore.backupName now' sequence' →
        unix now = unix now' ∧ sequence = sequence') := by
  constructor
  · rw [parseBackupNameInfo, timeOf_backupName h, splitName_backupName]
    rfl
  · intro hname
    have hsplit := congrArg splitName hname
    rw [splitName_backupName, splitName_backupName, Prod.mk.injEq] at hsplit
    exact ⟨rfc3339_inj h h' (String.toList_inj.1 hsplit.1), hsplit.2⟩

theorem backup_names_parse_back_suffix :
    parseBackupNameInfo "1970-01-01T00:00:01Z-Z-000001" = .ret (some ⟨⟨1000000000, none⟩, "Z-000001"⟩) := by
  have hname : BackupStore.backupName 1500000000 "Z-000001" = "1970-01-01T00:00:01Z-Z-000001" := by decide +kernel
  have hyear : FourDigitYear (unix 1500000000) := by simp [FourDigitYear, unix]
  rw [← hname]
  exact (backup_names_parse_back 1500000000 1500000000 "Z-000001" "" hyear hyear).1

/-- Of each backup there are files in one directory only. -/
def Flat (backupsBase : VfsPath) (v : Vfs BackupFile) : Prop :=
  ∀ q ∈ v.files, Vfs.Below backupsBase q → ∃ name file, VfsPath.Plain name ∧ q = backupsBase ++ [name, file]

/-- The backups a store of files has. -/
def names (backupsBase : VfsPath) (v : Vfs BackupFile) : Finset String :=
  ((v.files.keys.filter (Vfs.Below backupsBase ·)).filterMap BackupStore.backupOf).toFinset

variable {backupsBase : VfsPath} {v v' : Vfs BackupFile}

theorem Flat.mem_names (h : Flat backupsBase v) {backup : String} : backup ∈ names backupsBase v ↔
    VfsPath.Plain backup ∧ BackupStore.metaFile backupsBase backup ∈ v.files := by
  simp only [names, List.mem_toFinset, List.mem_filterMap, List.mem_filter, decide_eq_true_iff]
  constructor
  · intro hname
    obtain ⟨q, ⟨hq, hbelow⟩, hof⟩ := hname
    obtain ⟨name, file, hplain, rfl⟩ := h q hq hbelow
    simp only [BackupStore.backupOf, VfsPath.base, List.reverse_append] at hof
    by_cases hfile : file = metaFilename
    · subst hfile
      simp at hof
      subst hof
      exact ⟨hplain, hq⟩
    · simp [hfile] at hof
  · intro hfile
    exact ⟨_, ⟨hfile.2, backup, [metaFilename], rfl⟩, BackupStore.backupOf_metaFile⟩

theorem listBackups_serves (hw : w.backups = names backupsBase v) {x : Except Error (List String)}
    (hdoes : Prog.Does Vfs.Serves v (BackupStore.listBackups backupsBase) x v') :
    v' = v ∧ ∃ w', Serves w .listBackups x w' ∧ w'.backups = names backupsBase v' := by
  obtain ⟨y, v₁, htree, hrest⟩ := Vfs.does_vfs.1 hdoes
  obtain ⟨rfl, hy⟩ := Vfs.serves_readTree htree
  have hlisted {l : List VfsPath} (hlists : v₁.Lists backupsBase l) (backup : String) :
      backup ∈ (l.filterMap BackupStore.backupOf).insertionSort (· ≤ ·) ↔ backup ∈ w.backups := by
    rw [hw, names, List.mem_toFinset, (List.perm_insertionSort _ _).mem_iff]
    exact (hlists.filterMap _).mem_iff
  rcases hy with ⟨l, rfl, hlists⟩ | ⟨rfl, hnone⟩ | ⟨err, rfl⟩
  · obtain ⟨rfl, rfl⟩ := Prog.does_ret.1 hrest
    exact ⟨rfl, _, .listed (hlisted hlists), hw⟩
  · obtain ⟨rfl, rfl⟩ := Prog.does_ret.1 hrest
    exact ⟨rfl, _, .listed (hlisted hnone), hw⟩
  · obtain ⟨rfl, rfl⟩ := Prog.does_ret.1 hrest
    exact ⟨rfl, _, .listFailed, hw⟩

theorem does_removeFiles {p : VfsPath} {x : Option Error} : ∀ {l : List VfsPath} {v : Vfs BackupFile},
    Prog.Does Vfs.Serves v (BackupStore.removeFiles p l) x v' → (∀ q ∈ v'.files, q ∈ v.files ∧ (x = none → q ∉ l)) ∧
      ∀ q ∈ v.files, q ∉ l → q ∈ v'.files
  | [], v, hdoes => by
    obtain ⟨-, rfl⟩ := Prog.does_ret.1 hdoes
    simp
  | f :: files, v, hdoes => by
    obtain ⟨y, v₁, hremove, hrest⟩ := Vfs.does_vfs.1 hdoes
    rcases Vfs.serves_remove hremove with hgone | ⟨rfl, err, rfl⟩
    · rcases y with err | _
      · obtain ⟨rfl, rfl⟩ := Prog.does_ret.1 hrest
        refine ⟨fun q hq => ⟨((Vfs.mem_removed hgone).1 hq).2, nofun⟩, fun q hq hnot => ?_⟩
        exact (Vfs.mem_removed hgone).2 ⟨fun heq => hnot (by simp [heq]), hq⟩
      · obtain ⟨hleft, hkept⟩ := does_removeFiles hrest
        refine ⟨fun q hq => ?_, fun q hq hnot => ?_⟩
        · obtain ⟨hne, hmem⟩ := (Vfs.mem_removed hgone).1 (hleft q hq).1
          exact ⟨hmem, fun hx => by simpa [hne] using (hleft q hq).2 hx⟩
        · rw [List.mem_cons, not_or] at hnot
          exact hkept q ((Vfs.mem_removed hgone).2 ⟨hnot.1, hq⟩) hnot.2
    · obtain ⟨rfl, rfl⟩ := Prog.does_ret.1 hrest
      exact ⟨fun q hq => ⟨hq, nofun⟩, fun q hq _ => hq⟩

/-- The files of one backup go, and those of no other. -/
theorem removeBackup_serves (hflat : Flat backupsBase v) (hw : w.backups = names backupsBase v) {backup : String}
    (hmem : backup ∈ w.backups) {x : Option Error}
    (hdoes : Prog.Does Vfs.Serves v (BackupStore.removeBackup backupsBase backup) x v') :
    ∃ w', Serves w (.removeBackup backup) x w' ∧ w'.backups = names backupsBase v' ∧ Flat backupsBase v' := by
  obtain ⟨hplain, hmeta⟩ := hflat.mem_names.1 (hw ▸ hmem)
  obtain ⟨y, v₁, htree, hrest⟩ := Vfs.does_vfs.1 hdoes
  obtain ⟨rfl, hy⟩ := Vfs.serves_readTree htree
  rcases hy with ⟨l, rfl, hlists⟩ | ⟨rfl, -⟩ | ⟨err, rfl⟩
  · obtain ⟨hleft, hkept⟩ := does_removeFiles hrest
    have hl (q : VfsPath) (hq : q ∈ l) : ∃ e rest, q = backupsBase ++ backup :: e :: rest := by
      obtain ⟨e, rest, rfl⟩ := (hlists.mem.1 hq).2
      exact ⟨e, rest, by simp [VfsPath.join_plain hplain]⟩
    have hflat' : Flat backupsBase v' := fun q hq => hflat q (hleft q hq).1
    have hother (name : String) (hne : name ≠ backup) : name ∈ names backupsBase v' ↔ name ∈ w.backups := by
      rw [hw, hflat'.mem_names, hflat.mem_names]
      refine and_congr_right fun _ => ⟨fun hq => (hleft _ hq).1, fun hq => hkept _ hq fun hq' => hne ?_⟩
      obtain ⟨e, rest, heq⟩ := hl _ hq'
      exact (List.cons.inj (List.append_cancel_left heq)).1
    by_cases hstill : backup ∈ names backupsBase v'
    · have hx : x ≠ none := by
        intro hx
        have hlisted : BackupStore.metaFile backupsBase backup ∈ l := by
          refine hlists.mem.2 ⟨hmeta, metaFilename, [], ?_⟩
          simp [BackupStore.metaFile, VfsPath.join_plain hplain]
        exact (hleft _ (hflat'.mem_names.1 hstill).2).2 hx hlisted
      obtain ⟨err, rfl⟩ := Option.ne_none_iff_exists'.1 hx
      refine ⟨_, .removeFailed, Finset.ext fun name => ?_, hflat'⟩
      by_cases hne : name = backup
      · simp [hne, hmem, hstill]
      · exact (hother name hne).symm
    · refine ⟨_, .removed, Finset.ext fun name => ?_, hflat'⟩
      by_cases hne : name = backup
      · simp [hne, hstill]
      · simp [hne, hother name hne]
  · obtain ⟨rfl, rfl⟩ := Prog.does_ret.1 hrest
    exact ⟨_, .removeFailed, hw, hflat⟩
  · obtain ⟨rfl, rfl⟩ := Prog.does_ret.1 hrest
    exact ⟨_, .removeFailed, hw, hflat⟩

/-! ## A run -/

/-- Nothing fails, the clock shows this time, and the listing is in this order. -/
def serve (now : Nat) (l : List String) (w : World) : (r : CleanupReq) → Option (r.Resp × World)
  | .now => if w.clock ≤ now then some (now, { w with clock := now }) else none
  | .location _ _ => some (.local, w)
  | .listBackups => if l.toFinset = w.backups then some (.ok l, w.listing l) else none
  | .removeBackup backup =>
    some (none, { w with backups := w.backups.erase backup, removals := w.removals ++ [(w.clock, backup)] })

theorem serve_answers {now : Nat} {l : List String} (w : World) (r : CleanupReq) (x : r.Resp) (w' : World)
    (h : serve now l w r = some (x, w')) : Answers w r x w' := by
  refine ⟨∅, ?_⟩
  rw [Finset.union_empty]
  cases r with
  | now =>
    simp only [serve, Option.ite_none_right_eq_some] at h
    obtain ⟨hle, hx⟩ := h
    cases hx
    exact .now hle
  | location =>
    cases h
    exact .located
  | listBackups =>
    simp only [serve, Option.ite_none_right_eq_some] at h
    obtain ⟨hl, hx⟩ := h
    cases hx
    exact .listed fun backup => by rw [← hl, List.mem_toFinset]
  | removeBackup =>
    cases h
    exact .removed

/-- A week, and two years. -/
def Limits.default : Limits := ⟨⟨604800000000000, by omega⟩, ⟨63072000000000000, by omega⟩⟩

/-- Two backups of one hour. -/
def pair : World := ⟨0, {"2018-02-20T04:17:55Z-000001", "2018-02-20T04:47:55Z-000002"}, [], []⟩

/-- Three hours later the second is removed, and the first is kept for its hour. -/
theorem retention_never_loses_a_period_pair : ∃ w, Relation.ReflTransGen (Step .default) pair w ∧
    w.removals = [(1519113600000000000, "2018-02-20T04:47:55Z-000002")] ∧
    ∃ e, w.Earliest .hour 421972 e ∧ w.Holds e := by
  let now : Nat := 1519113600000000000
  let l := ["2018-02-20T04:47:55Z-000002", "2018-02-20T04:17:55Z-000001"]
  let w : World := ⟨now, {"2018-02-20T04:17:55Z-000001"}, [⟨now, l⟩], [(now, "2018-02-20T04:47:55Z-000002")]⟩
  have hrun : (BackupCleanup.new.maybeDoBackupMaintenance .default).perform? (serve now l) pair =
      some ((⟨now, .hour⟩, none), w) := by decide +kernel
  have hsteps : Relation.ReflTransGen (Step .default) pair w := .single (.call (Prog.perform?_does serve_answers hrun).goes)
  have hkept := (retention_never_loses_a_period .default pair w rfl rfl hsteps).1
  refine ⟨w, hsteps, rfl, hkept ⟨now, l⟩ rfl .hour 421972 (by decide) ⟨1519100275000000000, ?_, by decide⟩⟩
  exact ⟨⟨now, l⟩, by simp [w], "2018-02-20T04:17:55Z-000001", by simp [l], by decide +kernel⟩

end Retention

end Etcdadm
