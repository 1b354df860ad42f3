/-
The store of backups (`pkg/backup/vfs.go`).

A backup is a directory with two files, its data and its metadata. Neither adding
nor removing one is a single operation of the storage, and either may be cut
short. What makes a backup count is its metadata: it is written last, and since
a tree is listed in order and `_` sorts before `e`, it is removed first. So what
a listing names has its data, wherever a call was cut.

A suffix with a slash in it would break this: the store then names a backup by
the last part of it, which is not where its files are.
-/
import Etcdadm.Calendar
import Etcdadm.Vfs

namespace Etcdadm

/-! ## The store -/

/-- `DataFilename` -/
def dataFilename : String := "etcd.backup.gz"

/-- `MetaFilename` -/
def metaFilename : String := "_etcd_backup.meta"

/-- What a file of a backup holds. -/
inductive BackupFile where
  | data (bytes : String)
  | info (info : BackupInfo)

namespace BackupStore

variable (backupsBase : VfsPath)

/-- The first part of `AddBackup`: copy the backup file, if there is one. -/
def copyData (name srcFile : String) : VfsM BackupFile (Option Error) := do
  if srcFile = "" then
    return none
  match ← vfs (.openFile srcFile) with
  | .error err => return some s!"error opening {srcFile.quote}: {err}"
  | .ok bytes =>
    let destPath := (backupsBase.join name).join dataFilename
    match ← vfs (.writeFile destPath (.data bytes)) with
    | .error err =>
      return some s!"error copying {srcFile.quote} to {destPath.text.quote}: {err.text}"
    | .ok () => return none

/-- The second part: save the meta file. -/
def saveMeta (name : String) (info : BackupInfo) : VfsM BackupFile (Except Error String) := do
  let p := (backupsBase.join name).join metaFilename
  match ← vfs (.writeFile p (.info info)) with
  | .error err => return .error s!"error writing file {p.text.quote}: {err.text}"
  | .ok () => return .ok name

/-- `AddBackup` once it has read the clock. -/
def storeBackup (name srcFile : String) (info : BackupInfo) : VfsM BackupFile (Except Error String) := do
  match ← copyData backupsBase name srcFile with
  | some err => return .error err
  | none => saveMeta backupsBase name info

/-- The name of a backup. -/
def backupName (now : Int) (sequence : String) : String := rfc3339 (unix now) ++ "-" ++ sequence

def addBackup (srcFile sequence : String) (info : BackupInfo) : VfsM BackupFile (Except Error String) := do
  let now ← vfs .now
  let info := if info.timestamp = 0 then { info with timestamp := unix now } else info
  storeBackup backupsBase (backupName now sequence) srcFile info

/-- The backup a file is of, if it is the meta file of one: the element of its
path before the last. -/
def backupOf (f : VfsPath) : Option String :=
  if f.base ≠ metaFilename then none
  else
    match f.reverse with
    | _ :: name :: _ => some name
    | _ => none

def listBackups : VfsM BackupFile (Except Error (List String)) := do
  match ← vfs (.readTree backupsBase) with
  | .error .notExist => return .ok []
  | .error (.failed err) => return .error s!"error reading {backupsBase.text}: {err}"
  | .ok files => return .ok ((files.filterMap backupOf).insertionSort (· ≤ ·))

/-- The loop of `RemoveBackup`: the first error ends it. -/
def removeFiles (p : VfsPath) : List VfsPath → VfsM BackupFile (Option Error)
  | [] => return none
  | f :: files => do
    match ← vfs (.remove f) with
    | .error err => return some s!"error deleting backups in {p.text.quote}: {err.text}"
    | .ok () => removeFiles p files

def removeBackup (backup : String) : VfsM BackupFile (Option Error) := do
  let p := backupsBase.join backup
  match ← vfs (.readTree p) with
  | .error err => return some s!"error deleting - cannot read {p.text}: {err.text}"
  | .ok files => removeFiles p files

/-! ## Calls that are cut short -/

/-- Files of one directory are listed in the order of their names, as they are
in any lexicographic order of paths. -/
def InOrder (l : List VfsPath) : Prop := l.Pairwise fun p q => p.dropLast = q.dropLast → p.base < q.base

/-- A tree is listed in order. -/
def Sorted : (r : VfsReq BackupFile) → r.Resp → Prop
  | .readTree _, .ok l => InOrder l
  | _, _ => True

/-- A storage in which writes are atomic and trees are listed in order. -/
def Serves (v : Vfs BackupFile) (r : VfsReq BackupFile) (x : r.Resp) (v' : Vfs BackupFile) : Prop :=
  v.Serves r x v' ∧ Sorted r x

/-- A call that comes to its end, with an error or without, or is cut by a crash
before that. The source file is given, and the sequence is no path. -/
inductive Step : Vfs BackupFile → Vfs BackupFile → Prop
  | add {v v' srcFile sequence info p} : srcFile ≠ "" → '/' ∉ sequence.toList →
      Prog.Goes Serves v (addBackup backupsBase srcFile sequence info) p v' → Step v v'
  | remove {v v' backup p} : Prog.Goes Serves v (removeBackup backupsBase backup) p v' → Step v v'

/-! ## Data before metadata -/

def dataFile (name : String) : VfsPath := backupsBase ++ [name, dataFilename]

def metaFile (name : String) : VfsPath := backupsBase ++ [name, metaFilename]

/-- Below the base there are files of backups only, and no metadata without
data. -/
def Restorable (v : Vfs BackupFile) : Prop :=
  ∀ q ∈ v.files, Vfs.Below backupsBase q → ∃ name, VfsPath.Plain name ∧
    (q = dataFile backupsBase name ∨ q = metaFile backupsBase name ∧ dataFile backupsBase name ∈ v.files)

variable {backupsBase} {v v' : Vfs BackupFile} {name : String}

theorem plain_dataFilename : VfsPath.Plain dataFilename := ⟨by decide, by decide, by decide, by decide⟩

theorem plain_metaFilename : VfsPath.Plain metaFilename := ⟨by decide, by decide, by decide, by decide⟩

theorem join_dataFile (h : VfsPath.Plain name) :
    (backupsBase.join name).join dataFilename = dataFile backupsBase name := by
  rw [VfsPath.join_plain h, VfsPath.join_plain plain_dataFilename]
  simp [dataFile]

theorem join_metaFile (h : VfsPath.Plain name) :
    (backupsBase.join name).join metaFilename = metaFile backupsBase name := by
  rw [VfsPath.join_plain h, VfsPath.join_plain plain_metaFilename]
  simp [metaFile]

@[simp] theorem base_dataFile : (dataFile backupsBase name).base = dataFilename := by simp [dataFile, VfsPath.base]

@[simp] theorem base_metaFile : (metaFile backupsBase name).base = metaFilename := by simp [metaFile, VfsPath.base]

theorem dataFile_ne_metaFile {name' : String} : dataFile backupsBase name ≠ metaFile backupsBase name' := by
  intro heq
  have hbase := congrArg VfsPath.base heq
  simp only [base_dataFile, base_metaFile] at hbase
  exact absurd hbase (by decide)

theorem plain_backupName {now : Int} {sequence : String} (h : '/' ∉ sequence.toList) :
    VfsPath.Plain (backupName now sequence) :=
  VfsPath.plain_dash (notMem_rfc3339 (by decide) (by decide) _) h

namespace Restorable

theorem written_data (h : Restorable backupsBase v) (hname : VfsPath.Plain name) (file : BackupFile) :
    Restorable backupsBase { v with files := v.files.insert (dataFile backupsBase name) file } := by
  intro q hq hbelow
  rcases (AList.mem_insert v.files).1 hq with rfl | hq
  · exact ⟨name, hname, .inl rfl⟩
  · obtain ⟨name', hname', hfile⟩ := h q hq hbelow
    refine ⟨name', hname', hfile.imp_right fun ⟨hmeta, hdata⟩ => ⟨hmeta, ?_⟩⟩
    exact (AList.mem_insert v.files).2 (.inr hdata)

theorem written_meta (h : Restorable backupsBase v) (hname : VfsPath.Plain name)
    (hdata : dataFile backupsBase name ∈ v.files) {file : BackupFile} :
    Restorable backupsBase { v with files := v.files.insert (metaFile backupsBase name) file } := by
  intro q hq hbelow
  rcases (AList.mem_insert v.files).1 hq with rfl | hq
  · exact ⟨name, hname, .inr ⟨rfl, (AList.mem_insert v.files).2 (.inr hdata)⟩⟩
  · obtain ⟨name', hname', hfile⟩ := h q hq hbelow
    refine ⟨name', hname', hfile.imp_right fun ⟨hmeta, hdata⟩ => ⟨hmeta, ?_⟩⟩
    exact (AList.mem_insert v.files).2 (.inr hdata)

/-- A file may go, unless it is data whose metadata is still there. -/
theorem removed (h : Restorable backupsBase v) {p : VfsPath} (hp : ∀ name, p = dataFile backupsBase name →
      metaFile backupsBase name ∉ v.files)
    (hfiles : ∀ q, v'.files.lookup q = if q = p then none else v.files.lookup q) : Restorable backupsBase v' := by
  have hmem {q : VfsPath} : q ∈ v'.files ↔ q ≠ p ∧ q ∈ v.files := by
    rw [← AList.lookup_isSome, ← AList.lookup_isSome, hfiles q]
    by_cases hq : q = p
    · simp [hq]
    · simp [hq]
  intro q hq hbelow
  obtain ⟨hne, hq⟩ := hmem.1 hq
  obtain ⟨name, hname, hfile⟩ := h q hq hbelow
  refine ⟨name, hname, hfile.imp_right fun ⟨hmeta, hdata⟩ => ⟨hmeta, hmem.2 ⟨fun heq => ?_, hdata⟩⟩⟩
  exact hp name heq.symm (hmeta ▸ hq)

end Restorable

/-! ## Every point of a call -/

theorem always_copyData {srcFile : String} (hsrc : srcFile ≠ "") (hname : VfsPath.Plain name)
    (h : Restorable backupsBase v) : (copyData backupsBase name srcFile).Always Serves (Restorable backupsBase)
      (fun v err => Restorable backupsBase v ∧ (err = none → dataFile backupsBase name ∈ v.files)) v := by
  unfold copyData
  rw [if_neg hsrc, join_dataFile hname]
  refine Vfs.always_vfs fun x v₁ hopen => ?_
  cases Vfs.serves_openFile hopen.1
  refine ⟨h, ?_⟩
  rcases x with err | bytes
  · exact ⟨h, nofun⟩
  refine Vfs.always_vfs fun x v₂ hwrite => ?_
  rcases Vfs.serves_writeFile hwrite.1 with rfl | ⟨rfl, err, rfl⟩
  · have hwritten := h.written_data hname (.data bytes)
    refine ⟨hwritten, ?_⟩
    rcases x with err | _
    · exact ⟨hwritten, nofun⟩
    · exact ⟨hwritten, fun _ => (AList.mem_insert _).2 (.inl rfl)⟩
  · exact ⟨h, h, nofun⟩

theorem always_saveMeta {info : BackupInfo} (hname : VfsPath.Plain name) (h : Restorable backupsBase v)
    (hdata : dataFile backupsBase name ∈ v.files) : (saveMeta backupsBase name info).Always Serves
      (Restorable backupsBase) (fun _ _ => True) v := by
  unfold saveMeta
  rw [join_metaFile hname]
  refine Vfs.always_vfs fun x v₁ hwrite => ?_
  have hafter : Restorable backupsBase v₁ := by
    rcases Vfs.serves_writeFile hwrite.1 with rfl | ⟨rfl, -⟩
    · exact h.written_meta hname hdata
    · exact h
  refine ⟨hafter, ?_⟩
  rcases x with err | _
  · trivial
  · trivial

theorem always_addBackup {srcFile sequence : String} {info : BackupInfo} (hsrc : srcFile ≠ "")
    (hsequence : '/' ∉ sequence.toList) (h : Restorable backupsBase v) :
    (addBackup backupsBase srcFile sequence info).Always Serves (Restorable backupsBase) (fun _ _ => True) v := by
  refine Vfs.always_vfs fun now v₁ hnow => ?_
  have hv₁ : Restorable backupsBase v₁ := by
    rcases hnow with ⟨⟨hanswer⟩, -⟩
    obtain ⟨-, rfl⟩ := Vfs.answers_now.1 hanswer
    exact h
  have hname : VfsPath.Plain (backupName now sequence) := plain_backupName hsequence
  refine ⟨hv₁, Prog.Always.bind ((always_copyData hsrc hname hv₁).mono fun v₂ err ⟨hv₂, hdata⟩ => ?_)⟩
  cases err with
  | some err => trivial
  | none => exact always_saveMeta hname hv₂ (hdata rfl)

/-- Of the files that are still to be removed, no data comes before its
metadata. -/
def MetaFirst (backupsBase : VfsPath) (v : Vfs BackupFile) (l : List VfsPath) : Prop :=
  ∀ pre name post, l = pre ++ dataFile backupsBase name :: post → metaFile backupsBase name ∈ v.files →
    metaFile backupsBase name ∈ pre

/-- A tree with the data of a backup has its metadata, and first. -/
theorem metaFirst_of_inOrder {p : VfsPath} {l : List VfsPath} (hlists : v.Lists p l) (horder : InOrder l) :
    MetaFirst backupsBase v l := by
  intro pre name post hl hmeta
  have hbelow : Vfs.Below p (metaFile backupsBase name) := by
    obtain ⟨e, rest, heq⟩ := (hlists.mem.1 (hl ▸ List.mem_append_right _ List.mem_cons_self)).2
    rcases List.eq_nil_or_concat rest with rfl | ⟨rest, last, rfl⟩
    · have hsplit : backupsBase ++ [name] ++ [dataFilename] = p ++ [e] := by simpa [dataFile] using heq
      obtain ⟨hp, -⟩ := List.append_inj' hsplit rfl
      exact ⟨metaFilename, [], by simp [metaFile, ← hp]⟩
    · have hsplit : backupsBase ++ [name] ++ [dataFilename] = p ++ e :: rest ++ [last] := by
        simpa [dataFile] using heq
      obtain ⟨hp, -⟩ := List.append_inj' hsplit rfl
      refine ⟨e, rest ++ [metaFilename], ?_⟩
      have hjoin : metaFile backupsBase name = backupsBase ++ [name] ++ [metaFilename] := by simp [metaFile]
      rw [hjoin, hp]
      simp
  have hmem : metaFile backupsBase name ∈ l := hlists.mem.2 ⟨hmeta, hbelow⟩
  rw [hl, List.mem_append, List.mem_cons] at hmem
  rcases hmem with hpre | hdata | hpost
  · exact hpre
  · exact absurd hdata.symm dataFile_ne_metaFile
  · -- in order, the data would have to sort before the metadata
    rw [hl, InOrder, List.pairwise_append] at horder
    have hlt := (List.pairwise_cons.1 horder.2.1).1 _ hpost (by simp [dataFile, metaFile])
    simp only [base_dataFile, base_metaFile] at hlt
    exact absurd hlt (by decide)

theorem always_removeFiles {p : VfsPath} : ∀ {l : List VfsPath} {v : Vfs BackupFile}, Restorable backupsBase v →
    MetaFirst backupsBase v l → (removeFiles p l).Always Serves (Restorable backupsBase) (fun _ _ => True) v
  | [], _, _, _ => trivial
  | f :: files, v, h, hfirst => by
    refine Vfs.always_vfs fun x v₁ hremove => ?_
    have hkeep (name : String) (hf : f = dataFile backupsBase name) : metaFile backupsBase name ∉ v.files := by
      intro hmeta
      have hnil := hfirst [] name files (by rw [hf]; rfl) hmeta
      cases hnil
    rcases Vfs.serves_remove hremove.1 with hgone | ⟨rfl, err, rfl⟩
    · have hv₁ := h.removed hkeep hgone
      refine ⟨hv₁, ?_⟩
      rcases x with err | _
      · trivial
      refine always_removeFiles hv₁ fun pre name post hl hmeta => ?_
      have hleft := (Vfs.mem_removed hgone).1 hmeta
      have hpre := hfirst (f :: pre) name post (by rw [hl]; rfl) hleft.2
      exact (List.mem_cons.1 hpre).resolve_left hleft.1
    · exact ⟨h, trivial⟩

theorem always_removeBackup {backup : String} (h : Restorable backupsBase v) :
    (removeBackup backupsBase backup).Always Serves (Restorable backupsBase) (fun _ _ => True) v := by
  refine Vfs.always_vfs fun x v₁ htree => ?_
  obtain ⟨rfl, ⟨l, rfl, hlists⟩ | ⟨rfl, -⟩ | ⟨err, rfl⟩⟩ := Vfs.serves_readTree htree.1
  · exact ⟨h, always_removeFiles h (metaFirst_of_inOrder hlists htree.2)⟩
  · exact ⟨h, trivial⟩
  · exact ⟨h, trivial⟩

/-- **One call, whole or cut.** -/
theorem Step.restorable (hstep : Step backupsBase v v') (h : Restorable backupsBase v) : Restorable backupsBase v' := by
  cases hstep with
  | add hsrc hsequence hgoes => exact (Prog.Always.goes hgoes (always_addBackup hsrc hsequence h) h).1
  | remove hgoes => exact (Prog.Always.goes hgoes (always_removeBackup h) h).1

theorem restorable_of_steps {v₀ : Vfs BackupFile} (hempty : ∀ q ∈ v₀.files, ¬ Vfs.Below backupsBase q)
    (hsteps : Relation.ReflTransGen (Step backupsBase) v₀ v) : Restorable backupsBase v := by
  induction hsteps with
  | refl => exact fun q hq hbelow => absurd hbelow (hempty q hq)
  | tail _ hstep ih => exact hstep.restorable ih

/-! ## Listings -/

/-- What a listing gives: the backup of each file that is the metadata of one. -/
theorem does_listBackups {names : List String}
    (hdoes : Prog.Does Vfs.Serves v (listBackups backupsBase) (.ok names) v') :
    ∃ l, v.Lists backupsBase l ∧ names = (l.filterMap backupOf).insertionSort (· ≤ ·) := by
  obtain ⟨x, v₁, htree, hrest⟩ := Vfs.does_vfs.1 hdoes
  obtain ⟨rfl, ⟨l, rfl, hlists⟩ | ⟨rfl, hnone⟩ | ⟨err, rfl⟩⟩ := Vfs.serves_readTree htree
  · obtain ⟨hnames, -⟩ := Prog.does_ret.1 hrest
    cases hnames
    exact ⟨l, hlists, rfl⟩
  · obtain ⟨hnames, -⟩ := Prog.does_ret.1 hrest
    cases hnames
    exact ⟨[], hnone, rfl⟩
  · obtain ⟨hnames, -⟩ := Prog.does_ret.1 hrest
    cases hnames

@[simp] theorem backupOf_dataFile : backupOf (dataFile backupsBase name) = none := by
  simp [backupOf, show dataFilename ≠ metaFilename by decide]

@[simp] theorem backupOf_metaFile : backupOf (metaFile backupsBase name) = some name := by
  simp [backupOf, metaFile, VfsPath.base]

/-! ## A backup that goes through -/

theorem storeBackup_does {name srcFile bytes : String} {info : BackupInfo} (hsrc : srcFile ≠ "") :
    Prog.Does Serves v (storeBackup backupsBase name srcFile info) (.ok name)
      ⟨v.clock, (v.files.insert ((backupsBase.join name).join dataFilename) (.data bytes)).insert
        ((backupsBase.join name).join metaFilename) (.info info)⟩ := by
  have hcopy : Prog.Does Serves v (copyData backupsBase name srcFile) none
      ⟨v.clock, v.files.insert ((backupsBase.join name).join dataFilename) (.data bytes)⟩ := by
    unfold copyData
    rw [if_neg hsrc]
    refine Vfs.does_vfs.2 ⟨.ok bytes, _, ⟨.done .opened, trivial⟩, ?_⟩
    exact Vfs.does_vfs.2 ⟨.ok (), _, ⟨.done .written, trivial⟩, .ret⟩
  refine Prog.does_bind.2 ⟨_, _, hcopy, ?_⟩
  exact Vfs.does_vfs.2 ⟨.ok (), _, ⟨.done .written, trivial⟩, .ret⟩

theorem addBackup_does {srcFile sequence bytes : String} {info : BackupInfo} {now : Int} (hsrc : srcFile ≠ "")
    (hnow : v.clock ≤ now) : Prog.Does Serves v (addBackup backupsBase srcFile sequence info)
      (.ok (backupName now sequence))
      ⟨now, (v.files.insert ((backupsBase.join (backupName now sequence)).join dataFilename) (.data bytes)).insert
        ((backupsBase.join (backupName now sequence)).join metaFilename)
        (.info (if info.timestamp = 0 then { info with timestamp := unix now } else info))⟩ :=
  Vfs.does_vfs.2 ⟨now, _, ⟨.done (.now hnow), trivial⟩, storeBackup_does hsrc⟩

theorem listBackups_does {l : List VfsPath} (hlists : v.Lists backupsBase l) (horder : InOrder l) :
    Prog.Does Serves v (listBackups backupsBase) (.ok ((l.filterMap backupOf).insertionSort (· ≤ ·))) v :=
  Vfs.does_vfs.2 ⟨.ok l, v, ⟨.done (.tree hlists), horder⟩, .ret⟩

/-- An empty store. -/
def blank : Vfs BackupFile := ⟨0, ∅⟩

/-- The store after one backup in the first second of 1970. -/
def single (sequence : String) : Vfs BackupFile :=
  ⟨0, AList.insert ((VfsPath.join ["backups"] (backupName 0 sequence)).join metaFilename) (.info ⟨"3.4.13", 1, none⟩)
    (AList.insert ((VfsPath.join ["backups"] (backupName 0 sequence)).join dataFilename) (.data "snapshot") ∅)⟩

theorem single_does (sequence : String) : Prog.Does Serves blank
    (addBackup ["backups"] "/tmp/snapshot.db.gz" sequence ⟨"3.4.13", 1, none⟩) (.ok (backupName 0 sequence))
    (single sequence) :=
  addBackup_does (by decide) (Int.le_refl 0)

/-- **Every listed backup is restorable.** After any number of calls of
`AddBackup`, each with a source file and a sequence that has no slash, and of
`RemoveBackup`, each of which may fail or be cut by a crash at any point, every
name that `ListBackups` returns has its data file and its metadata file. -/
theorem listed_backups_are_restorable (backupsBase : VfsPath) (v₀ : Vfs BackupFile)
    (hempty : ∀ q ∈ v₀.files, ¬ Vfs.Below backupsBase q) (v : Vfs BackupFile)
    (hsteps : Relation.ReflTransGen (Step backupsBase) v₀ v) (names : List String) (v' : Vfs BackupFile)
    (hlist : Prog.Does BackupStore.Serves v (listBackups backupsBase) (.ok names) v') (name : String) (hname : name ∈ names) :
    (backupsBase.join name).join dataFilename ∈ v.files ∧ (backupsBase.join name).join metaFilename ∈ v.files := by
  have hrestorable := restorable_of_steps hempty hsteps
  obtain ⟨l, hl, rfl⟩ := does_listBackups (hlist.mono fun _ _ _ _ => And.left)
  obtain ⟨q, hq, hof⟩ := List.mem_filterMap.1 ((List.perm_insertionSort (· ≤ ·) _).mem_iff.1 hname)
  obtain ⟨hmem, hbelow⟩ := hl.mem.1 hq
  obtain ⟨name', hplain, rfl | ⟨rfl, hdata⟩⟩ := hrestorable q hmem hbelow
  · rw [backupOf_dataFile] at hof
    cases hof
  · rw [backupOf_metaFile] at hof
    cases hof
    rw [join_dataFile hplain, join_metaFile hplain]
    exact ⟨hdata, hmem⟩

/-- A sequence with a slash: the backup is listed by a name under which there is
nothing. -/
theorem listed_backup_without_files :
    Prog.Does BackupStore.Serves blank (addBackup ["backups"] "/tmp/snapshot.db.gz" "a/b" ⟨"3.4.13", 1, none⟩)
      (.ok (backupName 0 "a/b")) (single "a/b") ∧
    Prog.Does BackupStore.Serves (single "a/b") (listBackups ["backups"]) (.ok ["b"]) (single "a/b") ∧
    (VfsPath.join ["backups"] "b").join dataFilename ∉ (single "a/b").files := by
  have hkeys : (single "a/b").files.keys = [["backups", "1970-01-01T00:00:00Z-a", "b", "_etcd_backup.meta"],
      ["backups", "1970-01-01T00:00:00Z-a", "b", "etcd.backup.gz"]] := by decide +kernel
  refine ⟨single_does "a/b", ?_, ?_⟩
  · have hlists : (single "a/b").Lists ["backups"] [["backups", "1970-01-01T00:00:00Z-a", "b", "_etcd_backup.meta"],
        ["backups", "1970-01-01T00:00:00Z-a", "b", "etcd.backup.gz"]] := by
      rw [Vfs.Lists, hkeys]
      decide +kernel
    exact listBackups_does hlists (by unfold InOrder; decide +kernel)
  · rw [AList.mem_keys, hkeys]
    decide +kernel

/-- A backup with a sequence as the servers give it. -/
theorem listed_backups_are_restorable_single :
    (VfsPath.join ["backups"] "1970-01-01T00:00:00Z-000001").join dataFilename ∈ (single "000001").files ∧
    (VfsPath.join ["backups"] "1970-01-01T00:00:00Z-000001").join metaFilename ∈ (single "000001").files := by
  have hkeys : (single "000001").files.keys = [["backups", "1970-01-01T00:00:00Z-000001", "_etcd_backup.meta"],
      ["backups", "1970-01-01T00:00:00Z-000001", "etcd.backup.gz"]] := by decide +kernel
  have hlists : (single "000001").Lists ["backups"] (single "000001").files.keys := by
    rw [Vfs.Lists, hkeys]
    decide +kernel
  have hlist := listBackups_does hlists (by rw [hkeys]; unfold InOrder; decide +kernel)
  have hstep : Step ["backups"] blank (single "000001") := .add (by decide) (by decide) (single_does "000001").goes
  refine listed_backups_are_restorable ["backups"] blank (by simp [blank]) (single "000001") (.single hstep) _ _ hlist _ ?_
  rw [hkeys]
  decide +kernel

end BackupStore

end Etcdadm
