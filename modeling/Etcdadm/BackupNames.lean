/-
The names of backups (`uploadBackup` of `pkg/etcd/backup.go`).

A backup is named after the second it was taken in and a counter that tells
apart the backups of one second. The counter is a variable of the process: it
starts at nought in every process and starts over when it has no room left, and
the leader picks a member for each backup at random. So two managers that take a
backup in the same second give it the same name, and one replaces the other; and
a backup after a restart sorts before those of the same second before it.

Names are given when the clock is read. As long as no reading finds an earlier
one in its second whose counter is not smaller (`Event.Careful`), the names come
in the order in which the backups are taken.
-/
import Etcdadm.BackupStore

namespace Etcdadm

namespace BackupNames

/-! ## Uploads -/

/-- `sequence++`, starting over after six digits -/
def nextSequence (sequence : Nat) : Nat := if sequence + 1 > 999999 then 0 else sequence + 1

/-- `fmt.Sprintf("%.6d", sequence)` -/
def sequenceText (sequence : Nat) : String := String.ofList (padded 6 sequence)

/-- What `uploadBackup` makes of the store's answer. -/
def respond : Except Error String → Except Error DoBackupResponse
  | .error err => .error s!"error copying backup to storage: {err}"
  | .ok backupName => .ok ⟨backupName⟩

/-- `uploadBackup`, once it has counted. -/
def uploadBackup (backupsBase : VfsPath) (sequence : Nat) (srcFile : String) (info : BackupInfo) :
    VfsM BackupFile (Except Error DoBackupResponse) := do
  return respond (← BackupStore.addBackup backupsBase srcFile (sequenceText sequence) info)

/-- What names a backup: a reading of the clock, and the counter. -/
structure Stamp where
  now : Int
  sequence : Nat
  deriving DecidableEq

def Stamp.name (e : Stamp) : String := BackupStore.backupName e.now (sequenceText e.sequence)

/-- A call of `uploadBackup` under way: what is left of it, and its stamp if it
has read the clock. -/
structure Upload where
  program : VfsM BackupFile (Except Error DoBackupResponse)
  stamp : Option Stamp

/-- The store, each process with its counter and the call it is in, the stamps
in the order in which backups were taken, and the names that were returned. -/
structure World (ι : Type) where
  store : Vfs BackupFile
  sequence : ι → Nat
  upload : ι → Option Upload
  taken : List Stamp
  returned : List String

inductive Event (ι : Type) where
  | call (i : ι)
  | clock (i : ι) (now : Int)
  | storage (i : ι)
  | done (i : ι)
  | restart (i : ι)
  | remove (p : VfsPath)

variable {ι : Type} (backupsBase : VfsPath)

section Steps

variable [DecidableEq ι]

inductive Step : World ι → Event ι → World ι → Prop
  | call {w : World ι} {i srcFile info} : w.upload i = none →
      Step w (.call i) { w with
        sequence := Function.update w.sequence i (nextSequence (w.sequence i))
        upload := Function.update w.upload i
          (some ⟨uploadBackup backupsBase (nextSequence (w.sequence i)) srcFile info, none⟩) }
  | clock {w : World ι} {i k s now v} : w.upload i = some ⟨.call .now k, s⟩ → w.store.Serves .now now v →
      Step w (.clock i now) { w with
        store := v
        upload := Function.update w.upload i (some ⟨k now, some ⟨now, w.sequence i⟩⟩)
        taken := w.taken ++ [⟨now, w.sequence i⟩] }
  | storage {w : World ι} {i r k s x v} : w.upload i = some ⟨.call r k, s⟩ → r ≠ .now → w.store.Serves r x v →
      Step w (.storage i) { w with store := v, upload := Function.update w.upload i (some ⟨k x, s⟩) }
  | returned {w : World ι} {i response s} : w.upload i = some ⟨.ret (.ok response), s⟩ →
      Step w (.done i) { w with
        upload := Function.update w.upload i none
        returned := w.returned ++ [response.name] }
  | failed {w : World ι} {i err s} : w.upload i = some ⟨.ret (.error err), s⟩ →
      Step w (.done i) { w with upload := Function.update w.upload i none }
  /-- The process starts, or dies and starts again. -/
  | restart {w : World ι} {i} :
      Step w (.restart i) { w with
        sequence := Function.update w.sequence i 0
        upload := Function.update w.upload i none }
  /-- A file of some backup is removed. -/
  | remove {w : World ι} {p} : Step w (.remove p) { w with store := { w.store with files := w.store.files.erase p } }

/-- A run, with the world before each event. -/
inductive Path : World ι → List (World ι × Event ι) → World ι → Prop
  | nil {w} : Path w [] w
  | snoc {w₀ path w e w'} : Path w₀ path w → Step backupsBase w e w' → Path w₀ (path ++ [(w, e)]) w'

end Steps

/-- The second is of a year with four digits, and the backups taken in it before
have smaller counters. -/
def Event.Careful (w : World ι) : Event ι → Prop
  | .clock i now => FourDigitYear (unix now) ∧ ∀ e ∈ w.taken, unix e.now = unix now → e.sequence < w.sequence i
  | _ => True

/-- No process has done anything yet, and there are no backups. -/
structure World.Fresh (w : World ι) : Prop where
  store : ∀ q ∈ w.store.files, ¬ Vfs.Below backupsBase q
  sequence : ∀ i, w.sequence i = 0
  upload : ∀ i, w.upload i = none
  taken : w.taken = []
  returned : w.returned = []

/-- `ListBackups` gives the backups present in the order in which they were
taken. -/
def World.Chronological (w : World ι) : Prop :=
  ∀ names v, Prog.Does Vfs.Serves w.store (BackupStore.listBackups backupsBase) (.ok names) v →
    names = (w.taken.map Stamp.name).filter fun name => BackupStore.metaFile backupsBase name ∈ w.store.files

/-! ## What an upload does -/

variable {backupsBase}

/-- A request of an upload that has its stamp. -/
def Owns (backupsBase : VfsPath) (e : Stamp) : VfsReq BackupFile → Prop
  | .openFile _ => True
  | .writeFile p _ => p = BackupStore.dataFile backupsBase e.name ∨ p = BackupStore.metaFile backupsBase e.name
  | _ => False

/-- What is left of an upload with this stamp. -/
structure Upload.Of (backupsBase : VfsPath) (e : Stamp) (p : VfsM BackupFile (Except Error DoBackupResponse)) : Prop where
  uses : p.Uses (Owns backupsBase e) True
  returns : p.Returns fun r => ∀ response, r = .ok response → response.name = e.name

theorem Stamp.plain (e : Stamp) : VfsPath.Plain e.name := by
  refine BackupStore.plain_backupName ?_
  rw [sequenceText, String.toList_ofList]
  exact notMem_padded (by decide) _ _

theorem uses_copyData (e : Stamp) (srcFile : String) :
    (BackupStore.copyData backupsBase e.name srcFile).Uses (Owns backupsBase e) True := by
  unfold BackupStore.copyData
  split
  · trivial
  refine ⟨trivial, fun x => ?_⟩
  rcases x with err | bytes
  · trivial
  refine ⟨.inl (BackupStore.join_dataFile e.plain), fun x => ?_⟩
  rcases x with err | _
  · trivial
  · trivial

theorem uses_saveMeta (e : Stamp) (info : BackupInfo) :
    (BackupStore.saveMeta backupsBase e.name info).Uses (Owns backupsBase e) True := by
  refine ⟨.inr (BackupStore.join_metaFile e.plain), fun x => ?_⟩
  rcases x with err | _
  · trivial
  · trivial

theorem returns_saveMeta (name : String) (info : BackupInfo) :
    (BackupStore.saveMeta backupsBase name info).Returns fun r => ∀ name', r = .ok name' → name' = name := by
  intro x
  rcases x with err | _
  · exact nofun
  · intro name' hr
    cases hr
    rfl

/-- An upload that has read the clock, as it goes on from there. -/
def stamped (backupsBase : VfsPath) (e : Stamp) (srcFile : String) (info : BackupInfo) :
    VfsM BackupFile (Except Error DoBackupResponse) := do
  return respond (← BackupStore.storeBackup backupsBase e.name srcFile
    (if info.timestamp = 0 then { info with timestamp := unix e.now } else info))

theorem uploadBackup_eq (sequence : Nat) (srcFile : String) (info : BackupInfo) :
    uploadBackup backupsBase sequence srcFile info =
      .call .now fun now => stamped backupsBase ⟨now, sequence⟩ srcFile info := rfl

theorem of_stamped (e : Stamp) (srcFile : String) (info : BackupInfo) :
    Upload.Of backupsBase e (stamped backupsBase e srcFile info) where
  uses := by
    refine .bind (.bind (uses_copyData e srcFile) fun err => ?_) fun _ => trivial
    cases err with
    | some err => trivial
    | none => exact uses_saveMeta e _
  returns := by
    refine .bind (R := fun r => ∀ name, r = .ok name → name = e.name) (.bind (.trivially _) fun err _ => ?_) fun r hr => ?_
    · cases err with
      | some err => exact nofun
      | none => exact returns_saveMeta _ _
    · cases r with
      | error err => exact nofun
      | ok name =>
        intro response hresponse
        cases hresponse
        exact hr name rfl

/-! ## Names in order -/

/-- Taken before, by the second and the counter. -/
def Stamp.Before (e e' : Stamp) : Prop :=
  unix e.now < unix e'.now ∨ unix e.now = unix e'.now ∧ e.sequence < e'.sequence

/-- A stamp whose name is of the usual length. -/
def Stamp.Fits (e : Stamp) : Prop := FourDigitYear (unix e.now) ∧ e.sequence ≤ 999999

theorem Stamp.name_lt {e e' : Stamp} (h : e.Before e') (he : e.Fits) (he' : e'.Fits) : e.name < e'.name := by
  rw [String.lt_iff_toList_lt]
  simp only [name, BackupStore.backupName, sequenceText, String.toList_append, String.toList_ofList, List.append_assoc]
  rcases h with hlt | ⟨heq, hlt⟩
  · exact rfc3339_append_lt he.1 he'.1 hlt _ _
  · rw [heq]
    exact append_lt_append rfl (.inr ⟨rfl, List.cons_lt_cons_iff.2 (.inr ⟨rfl, padded_lt hlt (by have := he'.2; omega)⟩)⟩)

/-! ## What holds in every run -/

/-- Stamps come in order, files are of backups that were taken, and no two calls
have one stamp. -/
structure World.Sound (backupsBase : VfsPath) (w : World ι) : Prop where
  sequence : ∀ i, w.sequence i ≤ 999999
  fits : ∀ e ∈ w.taken, e.Fits ∧ e.now ≤ w.store.clock
  sorted : w.taken.Pairwise Stamp.Before
  files : ∀ q ∈ w.store.files, Vfs.Below backupsBase q →
    ∃ e ∈ w.taken, q = BackupStore.dataFile backupsBase e.name ∨ q = BackupStore.metaFile backupsBase e.name
  unstamped : ∀ i u, w.upload i = some u → u.stamp = none →
    ∃ srcFile info, u.program = uploadBackup backupsBase (w.sequence i) srcFile info
  stamped : ∀ i u e, w.upload i = some u → u.stamp = some e →
    e ∈ w.taken ∧ Upload.Of backupsBase e u.program ∧ e.name ∉ w.returned
  apart : ∀ i j u u' e, w.upload i = some u → w.upload j = some u' → u.stamp = some e → u'.stamp = some e → i = j
  nodup : w.returned.Nodup
  returned : ∀ name ∈ w.returned, ∃ e ∈ w.taken, name = e.name

variable {w w' : World ι} {i : ι}

namespace World.Sound

theorem of_fresh (h : w.Fresh backupsBase) : w.Sound backupsBase where
  sequence i := by simp [h.sequence i]
  fits := by simp [h.taken]
  sorted := by simp [h.taken]
  files q hq hbelow := absurd hbelow (h.store q hq)
  unstamped i u hu := by simp [h.upload i] at hu
  stamped i u e hu := by simp [h.upload i] at hu
  apart i j u u' e hu := by simp [h.upload i] at hu
  nodup := by simp [h.returned]
  returned := by simp [h.returned]

theorem names_sorted (h : w.Sound backupsBase) : (w.taken.map Stamp.name).Pairwise (· < ·) := by
  rw [List.pairwise_map]
  exact h.sorted.imp_of_mem fun he he' hbefore => Stamp.name_lt hbefore (h.fits _ he).1 (h.fits _ he').1

theorem name_inj (h : w.Sound backupsBase) {e e' : Stamp} (he : e ∈ w.taken) (he' : e' ∈ w.taken)
    (hname : e.name = e'.name) : e = e' := by
  have hnodup : (w.taken.map Stamp.name).Nodup := h.names_sorted.imp fun hlt => ne_of_lt hlt
  exact List.inj_on_of_nodup_map hnodup he he' hname

/-- A call that reads the clock has no stamp yet. -/
theorem reads_clock (h : w.Sound backupsBase) {k : Int → VfsM BackupFile (Except Error DoBackupResponse)}
    {s : Option Stamp} (hu : w.upload i = some ⟨.call .now k, s⟩) : s = none ∧ ∃ srcFile info, k =
      fun now => BackupNames.stamped backupsBase ⟨now, w.sequence i⟩ srcFile info := by
  cases s with
  | some e => exact (h.stamped i _ e hu rfl).2.1.uses.1.elim
  | none =>
    obtain ⟨srcFile, info, hprogram⟩ := h.unstamped i _ hu rfl
    rw [uploadBackup_eq] at hprogram
    cases hprogram
    exact ⟨rfl, srcFile, info, rfl⟩

/-- A call that does anything else has one. -/
theorem has_stamp (h : w.Sound backupsBase) {p : VfsM BackupFile (Except Error DoBackupResponse)} {s : Option Stamp}
    (hu : w.upload i = some ⟨p, s⟩) (hp : ∀ k, p ≠ .call .now k) :
    ∃ e, s = some e ∧ e ∈ w.taken ∧ Upload.Of backupsBase e p ∧ e.name ∉ w.returned := by
  cases s with
  | some e => exact ⟨e, rfl, h.stamped i _ e hu rfl⟩
  | none =>
    obtain ⟨srcFile, info, hprogram⟩ := h.unstamped i _ hu rfl
    exact (hp _ hprogram).elim

/-- Files come and go, of backups that were taken. -/
theorem stored (h : w.Sound backupsBase) {v : Vfs BackupFile} (hclock : v.clock = w.store.clock)
    (hfiles : ∀ q ∈ v.files, q ∈ w.store.files ∨
      ∃ e ∈ w.taken, q = BackupStore.dataFile backupsBase e.name ∨ q = BackupStore.metaFile backupsBase e.name) :
    World.Sound backupsBase { w with store := v } := by
  refine { h with fits := fun e he => ?_, files := fun q hq hbelow => ?_ }
  · rw [hclock]
    exact h.fits e he
  · rcases hfiles q hq with hq | hq
    · exact h.files q hq hbelow
    · exact hq

/-- An upload that has its stamp writes its own files only. -/
theorem serves_owned {v v' : Vfs BackupFile} {e : Stamp} {r : VfsReq BackupFile} {x : r.Resp}
    (howns : Owns backupsBase e r) (hserves : v.Serves r x v') : v'.clock = v.clock ∧ ∀ q ∈ v'.files, q ∈ v.files ∨
      q = BackupStore.dataFile backupsBase e.name ∨ q = BackupStore.metaFile backupsBase e.name := by
  cases r with
  | openFile file =>
    rw [Vfs.serves_openFile hserves]
    exact ⟨rfl, fun q hq => .inl hq⟩
  | writeFile p data =>
    rcases Vfs.serves_writeFile hserves with rfl | ⟨rfl, -⟩
    · refine ⟨rfl, fun q hq => ?_⟩
      rcases (AList.mem_insert _).1 hq with hq | hq
      · exact .inr (hq ▸ howns)
      · exact .inl hq
    · exact ⟨rfl, fun q hq => .inl hq⟩
  | now | readFile | readTree | remove => exact howns.elim

/-- A file below the base is the data or the metadata of a backup, so the listing
has each backup once. -/
theorem chronological (h : w.Sound backupsBase) : w.Chronological backupsBase := by
  intro names v hdoes
  obtain ⟨l, hlists, rfl⟩ := BackupStore.does_listBackups hdoes
  have hfiles {q : VfsPath} {name : String} (hq : q ∈ l) (hof : BackupStore.backupOf q = some name) :
      name ∈ w.taken.map Stamp.name ∧ q = BackupStore.metaFile backupsBase name := by
    obtain ⟨hmem, hbelow⟩ := hlists.mem.1 hq
    obtain ⟨e, he, rfl | rfl⟩ := h.files q hmem hbelow
    · simp at hof
    · rw [BackupStore.backupOf_metaFile] at hof
      cases hof
      exact ⟨List.mem_map_of_mem he, rfl⟩
  have hnodup : (l.filterMap BackupStore.backupOf).Nodup := by
    rw [List.Nodup, List.pairwise_filterMap]
    refine hlists.nodup.imp_of_mem fun hq hq' hne name hname name' hname' heq => hne ?_
    rw [(hfiles hq hname).2, (hfiles hq' hname').2, heq]
  have hsorted := h.names_sorted.sublist (List.filter_sublist (l := w.taken.map Stamp.name)
    (p := fun name => BackupStore.metaFile backupsBase name ∈ w.store.files))
  refine List.Perm.eq_of_pairwise' (List.pairwise_insertionSort (· ≤ ·) _) (hsorted.imp le_of_lt) ?_
  refine (List.perm_insertionSort _ _).trans ((List.perm_ext_iff_of_nodup hnodup (hsorted.imp ne_of_lt)).2 fun name => ?_)
  rw [List.mem_filterMap, List.mem_filter, decide_eq_true_iff]
  constructor
  · rintro ⟨q, hq, hof⟩
    obtain ⟨hname, rfl⟩ := hfiles hq hof
    exact ⟨hname, (hlists.mem.1 hq).1⟩
  · rintro ⟨-, hmem⟩
    exact ⟨_, hlists.mem.2 ⟨hmem, name, [metaFilename], rfl⟩, BackupStore.backupOf_metaFile⟩

variable [DecidableEq ι]

theorem update_eq_some {f : ι → Option Upload} {o : Option Upload} {j : ι} {u : Upload}
    (h : Function.update f i o j = some u) : (j = i ∧ o = some u) ∨ (j ≠ i ∧ f j = some u) := by
  by_cases hj : j = i
  · subst hj
    exact .inl ⟨rfl, by simpa using h⟩
  · exact .inr ⟨hj, by simpa [hj] using h⟩

/-- A call ends without a name, or its process does. -/
theorem dropped (h : w.Sound backupsBase) :
    World.Sound backupsBase { w with upload := Function.update w.upload i none } := by
  have hkeep {j : ι} {u : Upload} (hu : Function.update w.upload i none j = some u) : w.upload j = some u := by
    rcases update_eq_some hu with ⟨_, hnone⟩ | ⟨_, hu⟩
    · cases hnone
    · exact hu
  exact { h with
    unstamped := fun j u hu => h.unstamped j u (hkeep hu)
    stamped := fun j u e hu => h.stamped j u e (hkeep hu)
    apart := fun j k u u' e hu hu' => h.apart j k u u' e (hkeep hu) (hkeep hu') }

/-- Only a call that has not read the clock depends on its counter. -/
theorem counted (h : w.Sound backupsBase) (hidle : w.upload i = none) {n : Nat} (hn : n ≤ 999999) :
    World.Sound backupsBase { w with sequence := Function.update w.sequence i n } := by
  refine { h with sequence := fun j => ?_, unstamped := fun j u hu hstamp => ?_ }
  · by_cases hj : j = i
    · simp [hj, hn]
    · simp [hj, h.sequence j]
  · have hj : j ≠ i := by
      intro hj
      subst hj
      rw [hidle] at hu
      cases hu
    simpa [hj] using h.unstamped j u hu hstamp

theorem called (h : w.Sound backupsBase) (i : ι) (srcFile : String) (info : BackupInfo) : World.Sound backupsBase { w with
    upload := Function.update w.upload i (some ⟨uploadBackup backupsBase (w.sequence i) srcFile info, none⟩) } := by
  refine { h with unstamped := ?_, stamped := ?_, apart := ?_ }
  · intro j u hu hstamp
    rcases update_eq_some hu with ⟨rfl, hnew⟩ | ⟨_, hu⟩
    · cases hnew
      exact ⟨srcFile, info, rfl⟩
    · exact h.unstamped j u hu hstamp
  · intro j u e hu hstamp
    rcases update_eq_some hu with ⟨_, hnew⟩ | ⟨_, hu⟩
    · cases hnew
      cases hstamp
    · exact h.stamped j u e hu hstamp
  · intro j k u u' e hu hu' hstamp hstamp'
    rcases update_eq_some hu with ⟨_, hnew⟩ | ⟨_, hu⟩
    · cases hnew
      cases hstamp
    rcases update_eq_some hu' with ⟨_, hnew⟩ | ⟨_, hu'⟩
    · cases hnew
      cases hstamp'
    · exact h.apart j k u u' e hu hu' hstamp hstamp'

/-- The new stamp comes after all others, and so does its name. -/
theorem clocked (h : w.Sound backupsBase) {k : Int → VfsM BackupFile (Except Error DoBackupResponse)} {s : Option Stamp}
    {now : Int} (hu : w.upload i = some ⟨.call .now k, s⟩) (hnow : w.store.clock ≤ now)
    (hcareful : (Event.clock i now).Careful w) : World.Sound backupsBase { w with
      store := { w.store with clock := now }
      upload := Function.update w.upload i (some ⟨k now, some ⟨now, w.sequence i⟩⟩)
      taken := w.taken ++ [⟨now, w.sequence i⟩] } := by
  obtain ⟨-, srcFile, info, rfl⟩ := h.reads_clock hu
  have hfits : Stamp.Fits ⟨now, w.sequence i⟩ := ⟨hcareful.1, h.sequence i⟩
  have hbefore (e : Stamp) (he : e ∈ w.taken) : e.Before ⟨now, w.sequence i⟩ := by
    have hle : unix e.now ≤ unix now := Int.ediv_le_ediv (by omega) ((h.fits e he).2.trans hnow)
    rcases hle.lt_or_eq with hlt | heq
    · exact .inl hlt
    · exact .inr ⟨heq, hcareful.2 e he heq⟩
  have hlt (e : Stamp) (he : e ∈ w.taken) : e.name < Stamp.name ⟨now, w.sequence i⟩ :=
    Stamp.name_lt (hbefore e he) (h.fits e he).1 hfits
  have hnew : Stamp.name ⟨now, w.sequence i⟩ ∉ w.returned := by
    intro hmem
    obtain ⟨e, he, hname⟩ := h.returned _ hmem
    exact (hlt e he).ne hname.symm
  refine ⟨h.sequence, ?_, ?_, ?_, ?_, ?_, ?_, h.nodup, ?_⟩
  · intro e he
    rcases List.mem_append.1 he with he | he
    · exact ⟨(h.fits e he).1, (h.fits e he).2.trans hnow⟩
    · rw [List.mem_singleton.1 he]
      exact ⟨hfits, le_rfl⟩
  · rw [List.pairwise_append]
    exact ⟨h.sorted, List.pairwise_singleton .., by simpa using hbefore⟩
  · intro q hq hbelow
    obtain ⟨e, he, hfile⟩ := h.files q hq hbelow
    exact ⟨e, List.mem_append_left _ he, hfile⟩
  · intro j u hu' hstamp
    rcases update_eq_some hu' with ⟨_, hu'⟩ | ⟨_, hu'⟩
    · cases hu'
      cases hstamp
    · exact h.unstamped j u hu' hstamp
  · intro j u e hu' hstamp
    rcases update_eq_some hu' with ⟨_, hu'⟩ | ⟨_, hu'⟩
    · cases hu'
      cases hstamp
      exact ⟨by simp, of_stamped _ srcFile info, hnew⟩
    · obtain ⟨he, hof, hname⟩ := h.stamped j u e hu' hstamp
      exact ⟨List.mem_append_left _ he, hof, hname⟩
  · -- the stamp is not that of another call, since theirs were taken before
    have hother {j : ι} {u : Upload} (hu' : w.upload j = some u) : u.stamp ≠ some ⟨now, w.sequence i⟩ := by
      intro hstamp
      exact (hlt _ (h.stamped j u _ hu' hstamp).1).ne rfl
    intro j l u u' e hj hl hstamp hstamp'
    rcases update_eq_some hj with ⟨rfl, hj⟩ | ⟨_, hj⟩
    · cases hj
      cases hstamp
      rcases update_eq_some hl with ⟨rfl, _⟩ | ⟨_, hl⟩
      · rfl
      · exact (hother hl hstamp').elim
    · rcases update_eq_some hl with ⟨_, hl⟩ | ⟨_, hl⟩
      · cases hl
        cases hstamp'
        exact (hother hj hstamp).elim
      · exact h.apart j l u u' e hj hl hstamp hstamp'
  · intro name hname
    obtain ⟨e, he, rfl⟩ := h.returned name hname
    exact ⟨e, List.mem_append_left _ he, rfl⟩

/-- The call goes on with its stamp. -/
theorem continued (h : w.Sound backupsBase) {p p' : VfsM BackupFile (Except Error DoBackupResponse)} {e : Stamp}
    (hu : w.upload i = some ⟨p, some e⟩) (hof : Upload.Of backupsBase e p') :
    World.Sound backupsBase { w with upload := Function.update w.upload i (some ⟨p', some e⟩) } := by
  obtain ⟨he, -, hname⟩ := h.stamped i _ e hu rfl
  have hstill {j : ι} {u : Upload} {e' : Stamp} (hj : Function.update w.upload i (some ⟨p', some e⟩) j = some u)
      (hstamp : u.stamp = some e') : ∃ u', w.upload j = some u' ∧ u'.stamp = some e' := by
    rcases update_eq_some hj with ⟨rfl, hnew⟩ | ⟨_, hj⟩
    · cases hnew
      exact ⟨_, hu, hstamp⟩
    · exact ⟨u, hj, hstamp⟩
  refine { h with unstamped := ?_, stamped := ?_, apart := ?_ }
  · intro j u hj hstamp
    rcases update_eq_some hj with ⟨_, hj⟩ | ⟨_, hj⟩
    · cases hj
      cases hstamp
    · exact h.unstamped j u hj hstamp
  · intro j u e' hj hstamp
    rcases update_eq_some hj with ⟨_, hj⟩ | ⟨_, hj⟩
    · cases hj
      cases hstamp
      exact ⟨he, hof, hname⟩
    · exact h.stamped j u e' hj hstamp
  · intro j l u u' e' hj hl hstamp hstamp'
    obtain ⟨_, hj, hstamp⟩ := hstill hj hstamp
    obtain ⟨_, hl, hstamp'⟩ := hstill hl hstamp'
    exact h.apart j l _ _ e' hj hl hstamp hstamp'

/-- The name that is returned is that of no other call, now or before. -/
theorem returning (h : w.Sound backupsBase) {response : DoBackupResponse} {s : Option Stamp}
    (hu : w.upload i = some ⟨.ret (.ok response), s⟩) : World.Sound backupsBase { w with
      upload := Function.update w.upload i none
      returned := w.returned ++ [response.name] } := by
  obtain ⟨e, rfl, he, hof, hnew⟩ := h.has_stamp hu nofun
  have hname : response.name = e.name := hof.returns response rfl
  rw [hname]
  have hdropped := h.dropped (i := i)
  refine { hdropped with stamped := ?_, nodup := ?_, returned := ?_ }
  · intro j u e' hj hstamp
    obtain ⟨he', hof', hnew'⟩ := hdropped.stamped j u e' hj hstamp
    refine ⟨he', hof', ?_⟩
    rw [List.mem_append, List.mem_singleton]
    rintro (hmem | heq)
    · exact hnew' hmem
    · rcases update_eq_some hj with ⟨_, hnone⟩ | ⟨hne, hj⟩
      · cases hnone
      · rw [h.name_inj he' he heq] at hstamp
        exact hne (h.apart j i u _ e hj hu hstamp rfl)
  · simpa [List.nodup_append] using ⟨h.nodup, fun name hmem heq => hnew (heq ▸ hmem)⟩
  · intro name hmem
    rcases List.mem_append.1 hmem with hmem | hmem
    · exact h.returned name hmem
    · exact ⟨e, he, List.mem_singleton.1 hmem⟩

theorem step (h : w.Sound backupsBase) {e : Event ι} (hcareful : e.Careful w) (hstep : Step backupsBase w e w') :
    w'.Sound backupsBase := by
  cases hstep with
  | @call i srcFile info hidle =>
    have hnext : nextSequence (w.sequence i) ≤ 999999 := by
      unfold nextSequence
      split <;> omega
    simpa using (h.counted hidle hnext).called i srcFile info
  | clock hu hserves =>
    cases hserves with
    | done hanswers =>
      obtain ⟨hle, rfl⟩ := Vfs.answers_now.1 hanswers
      exact h.clocked hu hle hcareful
  | storage hu hr hserves =>
    obtain ⟨e, rfl, he, hof, -⟩ := h.has_stamp hu (by
      intro k hk
      cases hk
      exact hr rfl)
    obtain ⟨hclock, hfiles⟩ := serves_owned hof.uses.1 hserves
    exact (h.continued hu ⟨hof.uses.2 _, hof.returns _⟩).stored hclock
      fun q hq => (hfiles q hq).imp_right fun hfile => ⟨e, he, hfile⟩
  | returned hu => exact h.returning hu
  | failed => exact h.dropped
  | restart => exact h.dropped.counted (by simp) (by omega)
  | remove => exact h.stored rfl fun q hq => .inl (AList.mem_erase.1 hq).2

theorem run (h : w.Sound backupsBase) {path : List (World ι × Event ι)} (hpath : Path backupsBase w path w')
    (hcareful : ∀ x ∈ path, x.2.Careful x.1) : w'.Sound backupsBase := by
  induction hpath with
  | nil => exact h
  | snoc hpath hstep ih =>
    exact (ih fun x hx => hcareful x (by simp [hx])).step (hcareful (_, _) (by simp)) hstep

end World.Sound

/-! ## An upload that goes through -/

variable [DecidableEq ι]

theorem Path.trans {w₀ w w' : World ι} {path path' : List (World ι × Event ι)} (h : Path backupsBase w₀ path w)
    (h' : Path backupsBase w path' w') : Path backupsBase w₀ (path ++ path') w' := by
  induction h' with
  | nil => simpa using h
  | snoc _ hstep ih =>
    rw [← List.append_assoc]
    exact ih.snoc hstep

/-- The call goes on to its end, one request after the other. -/
theorem path_of_does {e : Stamp} {p : VfsM BackupFile (Except Error DoBackupResponse)} {v v' : Vfs BackupFile}
    {r : Except Error DoBackupResponse} (hdoes : Prog.Does Vfs.Serves v p r v') :
    ∀ {w : World ι}, w.store = v → w.upload i = some ⟨p, some e⟩ → p.Uses (Owns backupsBase e) True →
      ∃ path, Path backupsBase w path { w with
        store := v', upload := Function.update w.upload i (some ⟨.ret r, some e⟩) } ∧ ∀ x ∈ path, x.2.Careful x.1 := by
  induction hdoes with
  | ret =>
    intro w hstore hu _
    rw [← hstore, ← hu, Function.update_eq_self]
    exact ⟨[], .nil, by simp⟩
  | @call _ v₁ _ r k x _ hserves _ ih =>
    intro w hstore hu huses
    have hstep : Step backupsBase w (.storage i) _ :=
      .storage hu (by rintro rfl; exact huses.1) (hstore ▸ hserves)
    obtain ⟨path, hpath, hcareful⟩ := ih (w := { w with
      store := v₁, upload := Function.update w.upload i (some ⟨k x, some e⟩) }) rfl (by simp) (huses.2 x)
    rw [Function.update_idem] at hpath
    exact ⟨_, (Path.snoc .nil hstep).trans hpath, by simpa [Event.Careful] using hcareful⟩

theorem path_of_ok {e : Stamp} {p : VfsM BackupFile (Except Error DoBackupResponse)} {v' : Vfs BackupFile}
    {response : DoBackupResponse} (hu : w.upload i = some ⟨p, some e⟩)
    (hdoes : Prog.Does Vfs.Serves w.store p (.ok response) v') (huses : p.Uses (Owns backupsBase e) True) :
    ∃ path, Path backupsBase w path { w with
        store := v'
        upload := Function.update w.upload i none
        returned := w.returned ++ [response.name] } ∧ ∀ x ∈ path, x.2.Careful x.1 := by
  obtain ⟨path, hpath, hcareful⟩ := path_of_does hdoes rfl hu huses
  have hend : Path backupsBase w _ _ := hpath.snoc (.returned (Function.update_self ..))
  rw [Function.update_idem] at hend
  refine ⟨_, hend, fun x hx => ?_⟩
  rcases List.mem_append.1 hx with hx | hx
  · exact hcareful x hx
  · rw [List.mem_singleton.1 hx]
    trivial

/-- The world after process `i` has taken a backup at the given time. -/
def World.uploaded (backupsBase : VfsPath) (w : World ι) (i : ι) (now : Int) : World ι :=
  let e : Stamp := ⟨now, nextSequence (w.sequence i)⟩
  { store := ⟨now, (w.store.files.insert ((backupsBase.join e.name).join dataFilename)
      (.data "snapshot")).insert ((backupsBase.join e.name).join metaFilename) (.info ⟨"3.4.13", 1, none⟩)⟩
    sequence := Function.update w.sequence i e.sequence
    upload := w.upload
    taken := w.taken ++ [e]
    returned := w.returned ++ [e.name] }

theorem path_uploaded (backupsBase : VfsPath) (hidle : w.upload i = none) {now : Int} (hnow : w.store.clock ≤ now) :
    ∃ path, Path backupsBase w path (w.uploaded backupsBase i now) ∧
      (FourDigitYear (unix now) → (∀ e ∈ w.taken, unix e.now = unix now → e.sequence < nextSequence (w.sequence i)) →
        ∀ x ∈ path, x.2.Careful x.1) := by
  let e : Stamp := ⟨now, nextSequence (w.sequence i)⟩
  let called : World ι := { w with
    sequence := Function.update w.sequence i e.sequence
    upload := Function.update w.upload i
      (some ⟨uploadBackup backupsBase e.sequence "/tmp/snapshot.db.gz" ⟨"3.4.13", 1, none⟩, none⟩) }
  let clocked : World ι := { called with
    store := { w.store with clock := now }
    upload := Function.update w.upload i
      (some ⟨stamped backupsBase e "/tmp/snapshot.db.gz" ⟨"3.4.13", 1, none⟩, some e⟩)
    taken := w.taken ++ [e] }
  have hcall : Step backupsBase w (.call i) called := .call hidle
  have hclock : Step backupsBase called (.clock i now) clocked := by
    have hu : called.upload i = some ⟨.call .now fun now =>
        stamped backupsBase ⟨now, e.sequence⟩ "/tmp/snapshot.db.gz" ⟨"3.4.13", 1, none⟩, none⟩ := by
      simp [called, uploadBackup_eq]
    have hstep : Step backupsBase called (.clock i now) _ := .clock hu (.done (.now hnow))
    simpa [called, clocked, e] using hstep
  have hstored : Prog.Does Vfs.Serves clocked.store (stamped backupsBase e "/tmp/snapshot.db.gz" ⟨"3.4.13", 1, none⟩)
      (.ok ⟨e.name⟩) (w.uploaded backupsBase i now).store :=
    Prog.does_bind.2 ⟨_, _, (BackupStore.storeBackup_does (by decide)).mono fun _ _ _ _ => And.left, .ret⟩
  obtain ⟨path, hpath, hcareful⟩ := path_of_ok (i := i) (w := clocked) (by simp [clocked]) hstored (of_stamped e _ _).uses
  refine ⟨[(w, .call i), (called, .clock i now)] ++ path, ?_, ?_⟩
  · have hend := ((Path.nil.snoc hcall).snoc hclock).trans hpath
    have hupload : Function.update clocked.upload i none = w.upload := by
      simp [clocked, ← hidle]
    rw [hupload] at hend
    exact hend
  · intro hyear hsecond x hx
    simp only [List.cons_append, List.nil_append, List.mem_cons] at hx
    rcases hx with rfl | rfl | hx
    · trivial
    · exact ⟨hyear, by simpa [called, e] using hsecond⟩
    · exact hcareful x hx

/-- **While no backup is taken in a second in which one with a counter as high was
taken, names are unique and in order.** However many processes take backups,
and however they fail or are restarted, the names returned are pairwise
distinct, and `ListBackups` gives the backups there are in the order in which
they were taken. -/
theorem backup_names_ordered_while_careful {ι : Type} [DecidableEq ι] (backupsBase : VfsPath) (w₀ w : World ι)
    (hfresh : w₀.Fresh backupsBase) (path : List (World ι × Event ι)) (hpath : Path backupsBase w₀ path w)
    (hcareful : ∀ x ∈ path, x.2.Careful x.1) : w.returned.Nodup ∧ w.Chronological backupsBase := by
  have hsound := (World.Sound.of_fresh hfresh).run hpath hcareful
  exact ⟨hsound.nodup, hsound.chronological⟩

/-- A store without backups, and two processes. -/
def fresh : World Bool := ⟨BackupStore.blank, fun _ => 0, fun _ => none, [], []⟩

theorem fresh_fresh : fresh.Fresh ["backups"] where
  store := by simp [fresh, BackupStore.blank]
  sequence _ := rfl
  upload _ := rfl
  taken := rfl
  returned := rfl

/-- Each of the two takes its first backup, the one at the beginning of 1970, the
other at the given time. -/
def both (now : Int) : World Bool := (fresh.uploaded ["backups"] false 0).uploaded ["backups"] true now

/-- In one second: the names are the same. -/
theorem backup_replaced_within_a_second : ∃ path, Path ["backups"] fresh path (both 1000) ∧ fresh.Fresh ["backups"] ∧
    (both 1000).returned = ["1970-01-01T00:00:00Z-000001", "1970-01-01T00:00:00Z-000001"] ∧
    ¬ (both 1000).returned.Nodup := by
  obtain ⟨path, hpath, -⟩ := path_uploaded (w := fresh) (i := false) ["backups"] rfl (Int.le_refl 0)
  obtain ⟨path', hpath', -⟩ := path_uploaded (w := fresh.uploaded ["backups"] false 0) (i := true)
    ["backups"] rfl (by decide : (0 : Int) ≤ 1000)
  have hreturned : (both 1000).returned = ["1970-01-01T00:00:00Z-000001", "1970-01-01T00:00:00Z-000001"] := by
    decide +kernel
  exact ⟨_, hpath.trans hpath', fresh_fresh, hreturned, by rw [hreturned]; decide⟩

/-- A second apart: they are told apart, and listed in order. -/
theorem backup_names_ordered_a_second_apart :
    (both 1000000000).returned = ["1970-01-01T00:00:00Z-000001", "1970-01-01T00:00:01Z-000001"] ∧
    (both 1000000000).returned.Nodup ∧ (both 1000000000).Chronological ["backups"] := by
  obtain ⟨path, hpath, hcareful⟩ := path_uploaded (w := fresh) (i := false) ["backups"] rfl
    (Int.le_refl 0)
  obtain ⟨path', hpath', hcareful'⟩ := path_uploaded (w := fresh.uploaded ["backups"] false 0)
    (i := true) ["backups"] rfl (by decide : (0 : Int) ≤ 1000000000)
  refine ⟨by decide +kernel, backup_names_ordered_while_careful ["backups"] fresh _ fresh_fresh _ (hpath.trans hpath') ?_⟩
  intro x hx
  rcases List.mem_append.1 hx with hx | hx
  · exact hcareful ⟨by decide, by decide⟩ (by simp [fresh]) x hx
  · exact hcareful' ⟨by decide, by decide⟩ (by simp [fresh, World.uploaded, unix]) x hx

end BackupNames

end Etcdadm
