/-
A machine's own files and directories, as `os` shows them to one process.

A disk says of each path whether there is a directory, a file with some
contents, or nothing. The relation `Answers` follows the calls: what succeeds
and what it leaves is settled by the disk, only the order of a listing, the
pieces a file is read in and the texts of errors are open. A file is written
piece by piece, each piece being one request, so a run that is cut in between
leaves part of a file.
-/
import Etcdadm.Vfs

namespace Etcdadm

inductive Inode where
  | file (data : String)
  | dir
  deriving DecidableEq, Repr

def Inode.isDir : Inode → Bool
  | .file _ => false
  | .dir => true

abbrev Disk := VfsPath → Option Inode

/-! ## Requests -/

inductive DiskReq where
  /-- `os.ReadFile` -/
  | readFile (p : VfsPath)
  /-- `os.MkdirAll` -/
  | mkdirAll (p : VfsPath)
  /-- `os.ReadDir`: the names, and whether each is a directory -/
  | readDir (p : VfsPath)
  /-- `os.Open`, with the pieces that reading to the end gives -/
  | openFile (p : VfsPath)
  /-- `os.Create` -/
  | create (p : VfsPath)
  /-- One `Write` to the open file. -/
  | write (p : VfsPath) (data : String)
  /-- `os.Rename` -/
  | rename (oldpath newpath : VfsPath)

@[reducible] def DiskReq.Resp : DiskReq → Type
  | .readFile _ => Except VfsError String
  | .readDir _ => Except Error (List (String × Bool))
  | .openFile _ => Except Error (List String)
  | .mkdirAll _ | .create _ | .write _ _ | .rename _ _ => Except Error Unit

@[reducible] def diskSig : Sig := ⟨DiskReq, DiskReq.Resp⟩

abbrev DiskM := Prog diskSig

def disk (r : DiskReq) : DiskM r.Resp := .call (S := diskSig) r .ret

namespace Disk

/-! ## What the calls do -/

def set (d : Disk) (p : VfsPath) (n : Inode) : Disk := Function.update d p (some n)

/-- The directory and all above it. -/
def mkdirs (p : VfsPath) (d : Disk) : Disk := fun q => if q <+: p then some .dir else d q

/-- What was at and below `p` is at and below `q`. -/
def move (p q : VfsPath) (d : Disk) : Disk := fun x =>
  if q <+: x then d (p ++ x.drop q.length) else if p <+: x then none else d x

/-- No element of the path is a file. -/
def Clear (d : Disk) (p : VfsPath) : Prop := ∀ q, q <+: p → ∀ data, d q ≠ some (.file data)

def Lists (d : Disk) (p : VfsPath) (l : List (String × Bool)) : Prop :=
  ∀ name isDir, (name, isDir) ∈ l ↔ (d (p ++ [name])).map Inode.isDir = some isDir

/-- `os.Rename` does not replace a directory, and replaces a file by a file only. -/
def CanRename (d : Disk) (p q : VfsPath) : Prop :=
  d p ≠ none ∧ d q.dropLast = some .dir ∧ ¬ p <+: q ∧
    (d q = none ∨ ∃ data data', d p = some (.file data) ∧ d q = some (.file data'))

/-- A file can be made, or made empty. -/
def CanCreate (d : Disk) (p : VfsPath) : Prop := d p ≠ some .dir ∧ d p.dropLast = some .dir

/-- What there is lies in a directory. -/
def Closed (d : Disk) : Prop := ∀ p name, d (p ++ [name]) ≠ none → d p = some .dir

/-- A name below a file does not count as one that does not exist
(`os.IsNotExist` is false of `ENOTDIR`). -/
inductive Answers (d : Disk) : (r : DiskReq) → r.Resp → Disk → Prop
  | read {p data} : d p = some (.file data) → Answers d (.readFile p) (.ok data) d
  | readMissing {p} : d p = none → d.Clear p → Answers d (.readFile p) (.error .notExist) d
  | readFailed {p err} : (∀ data, d p ≠ some (.file data)) → ¬ (d p = none ∧ d.Clear p) →
      Answers d (.readFile p) (.error (.failed err)) d
  | made {p} : d.Clear p → Answers d (.mkdirAll p) (.ok ()) (d.mkdirs p)
  | makeFailed {p err} : ¬ d.Clear p → Answers d (.mkdirAll p) (.error err) d
  | listed {p l} : d p = some .dir → d.Lists p l → Answers d (.readDir p) (.ok l) d
  | listFailed {p err} : d p ≠ some .dir → Answers d (.readDir p) (.error err) d
  | opened {p chunks} : d p = some (.file (String.join chunks)) → Answers d (.openFile p) (.ok chunks) d
  | openFailed {p err} : (∀ data, d p ≠ some (.file data)) → Answers d (.openFile p) (.error err) d
  | created {p} : d.CanCreate p → Answers d (.create p) (.ok ()) (d.set p (.file ""))
  | createFailed {p err} : ¬ d.CanCreate p → Answers d (.create p) (.error err) d
  | written {p data more} : d p = some (.file data) → Answers d (.write p more) (.ok ()) (d.set p (.file (data ++ more)))
  | writeFailed {p err more} : (∀ data, d p ≠ some (.file data)) → Answers d (.write p more) (.error err) d
  | renamed {p q} : d.CanRename p q → Answers d (.rename p q) (.ok ()) (d.move p q)
  | renameFailed {p q err} : ¬ d.CanRename p q → Answers d (.rename p q) (.error err) d

/-- The request is answered in one way. -/
def Only (d : Disk) (r : DiskReq) (x : r.Resp) (d' : Disk) : Prop :=
  d.Answers r x d' ∧ ∀ y e, d.Answers r y e → y = x ∧ e = d'

section Calls

variable {d d' : Disk} {p q : VfsPath}

theorem only_readFile {data : String} (h : d p = some (.file data)) : d.Only (.readFile p) (.ok data) d := by
  refine ⟨.read h, fun y e hanswer => ?_⟩
  cases hanswer with
  | read h' =>
    cases h.symm.trans h'
    exact ⟨rfl, rfl⟩
  | readMissing h' => simp [h] at h'
  | readFailed h' => exact absurd h (h' data)

theorem only_readMissing (h : d p = none) (hclear : d.Clear p) : d.Only (.readFile p) (.error .notExist) d := by
  refine ⟨.readMissing h hclear, fun y e hanswer => ?_⟩
  cases hanswer with
  | read h' => simp [h] at h'
  | readMissing => exact ⟨rfl, rfl⟩
  | readFailed _ h' => exact absurd ⟨h, hclear⟩ h'

theorem only_mkdirAll (h : d.Clear p) : d.Only (.mkdirAll p) (.ok ()) (d.mkdirs p) := by
  refine ⟨.made h, fun y e hanswer => ?_⟩
  cases hanswer with
  | made => exact ⟨rfl, rfl⟩
  | makeFailed h' => exact absurd h h'

theorem only_create (h : d.CanCreate p) : d.Only (.create p) (.ok ()) (d.set p (.file "")) := by
  refine ⟨.created h, fun y e hanswer => ?_⟩
  cases hanswer with
  | created => exact ⟨rfl, rfl⟩
  | createFailed h' => exact absurd h h'

theorem only_write {data more : String} (h : d p = some (.file data)) :
    d.Only (.write p more) (.ok ()) (d.set p (.file (data ++ more))) := by
  refine ⟨.written h, fun y e hanswer => ?_⟩
  cases hanswer with
  | written h' =>
    cases h.symm.trans h'
    exact ⟨rfl, rfl⟩
  | writeFailed h' => exact absurd h (h' data)

theorem only_rename (h : d.CanRename p q) : d.Only (.rename p q) (.ok ()) (d.move p q) := by
  refine ⟨.renamed h, fun y e hanswer => ?_⟩
  cases hanswer with
  | renamed => exact ⟨rfl, rfl⟩
  | renameFailed h' => exact absurd h h'

theorem does_disk {α : Type} {r : DiskReq} {f : r.Resp → DiskM α} {a : α} : Prog.Does Answers d (disk r >>= f) a d' ↔
    ∃ x d₁, d.Answers r x d₁ ∧ Prog.Does Answers d₁ (f x) a d' := Prog.does_call

section Surely

variable {α : Type} {I : Disk → Prop} {Q : Disk → α → Prop}

theorem surely_disk {r : DiskReq} {f : r.Resp → DiskM α} (hsome : ∃ x d', d.Answers r x d')
    (h : ∀ x d', d.Answers r x d' → I d' ∧ (f x).Surely Answers I Q d') : (disk r >>= f).Surely Answers I Q d := ⟨hsome, h⟩

theorem surely_only {r : DiskReq} {x : r.Resp} {f : r.Resp → DiskM α} (h : d.Only r x d') (hI : I d')
    (hf : (f x).Surely Answers I Q d') : (disk r >>= f).Surely Answers I Q d := by
  refine surely_disk ⟨x, d', h.1⟩ fun y e hanswer => ?_
  obtain ⟨rfl, rfl⟩ := h.2 y e hanswer
  exact ⟨hI, hf⟩

theorem surely_readDir {f : Except Error (List (String × Bool)) → DiskM α} (hdir : d p = some .dir)
    (hsome : ∃ l, d.Lists p l) (hI : I d) (hf : ∀ l, d.Lists p l → (f (.ok l)).Surely Answers I Q d) :
    (disk (.readDir p) >>= f).Surely Answers I Q d := by
  obtain ⟨l, hl⟩ := hsome
  refine surely_disk ⟨_, _, .listed hdir hl⟩ fun y e hanswer => ?_
  cases hanswer with
  | listed _ hlists => exact ⟨hI, hf _ hlists⟩
  | listFailed hnot => exact absurd hdir hnot

theorem surely_readDir_missing {f : Except Error (List (String × Bool)) → DiskM α} (hnot : d p ≠ some .dir) (hI : I d)
    (hf : ∀ err, (f (.error err)).Surely Answers I Q d) : (disk (.readDir p) >>= f).Surely Answers I Q d := by
  refine surely_disk ⟨.error "", _, .listFailed hnot⟩ fun y e hanswer => ?_
  cases hanswer with
  | listed hdir => exact absurd hdir hnot
  | listFailed => exact ⟨hI, hf _⟩

theorem surely_openFile {data : String} {f : Except Error (List String) → DiskM α} (hfile : d p = some (.file data))
    (hI : I d) (hf : ∀ chunks, String.join chunks = data → (f (.ok chunks)).Surely Answers I Q d) :
    (disk (.openFile p) >>= f).Surely Answers I Q d := by
  have hone : d p = some (.file (String.join [data])) := by simp [hfile]
  refine surely_disk ⟨_, _, .opened hone⟩ fun y e hanswer => ?_
  cases hanswer with
  | opened h =>
    cases hfile.symm.trans h
    exact ⟨hI, hf _ rfl⟩
  | openFailed hnot => exact absurd hfile (hnot data)

end Surely

end Calls

/-! ## Disks, path by path -/

section Paths

variable {d : Disk} {p q : VfsPath}

@[simp] theorem set_self {n : Inode} : d.set p n p = some n := by simp [set]

@[simp] theorem set_set {m n : Inode} : (d.set p m).set p n = d.set p n := by simp [set]

theorem set_ne {n : Inode} (h : q ≠ p) : d.set p n q = d q := by simp [set, h]

theorem mkdirs_above (h : q <+: p) : d.mkdirs p q = some .dir := by simp [mkdirs, h]

theorem mkdirs_elsewhere (h : ¬ q <+: p) : d.mkdirs p q = d q := by simp [mkdirs, h]

theorem move_of_not {x : VfsPath} (hq : ¬ q <+: x) (hp : ¬ p <+: x) : d.move p q x = d x := by simp [move, hq, hp]

theorem move_self (h : ¬ q <+: p) : d.move p q p = none := by simp [move, h]

/-- Nothing changes where the directories are there. -/
theorem mkdirs_eq (h : ∀ q, q <+: p → d q = some .dir) : d.mkdirs p = d := by
  funext q
  by_cases hq : q <+: p
  · rw [mkdirs_above hq, h q hq]
  · rw [mkdirs_elsewhere hq]

theorem Closed.above (hd : d.Closed) : ∀ {t p : VfsPath}, t ≠ [] → d (p ++ t) ≠ none → d p = some .dir
  | [], _, ht, _ => absurd rfl ht
  | [name], p, _, h => hd p name h
  | name :: e :: t, p, _, h => by
    have hbelow : d (p ++ [name]) = some .dir := Closed.above hd (List.cons_ne_nil e t) (by simpa using h)
    exact hd p name (by simp [hbelow])

/-- Below a directory there is nothing but under an entry of it. -/
theorem Closed.entry (hd : d.Closed) {r t : VfsPath} {name : String} (h : d (p ++ (r ++ name :: t)) ≠ none) :
    d (p ++ r ++ [name]) ≠ none := by
  by_cases ht : t = []
  · simpa [ht] using h
  · have hdir := hd.above (p := p ++ r ++ [name]) ht (by simpa using h)
    exact hdir ▸ Option.some_ne_none _

end Paths

/-! ## Trees of a disk -/

section Trees

variable {root p : VfsPath} {d d' d'' : Disk}

/-- The disks differ at or below the path only. -/
def Within (root : VfsPath) (d d' : Disk) : Prop := ∀ p, ¬ root <+: p → d' p = d p

/-- Nothing is left at or below the path. -/
def cleared (p : VfsPath) (d : Disk) : Disk := fun q => if p <+: q then none else d q

theorem Within.refl : Within root d d := fun _ _ => rfl

theorem Within.trans (h : Within root d d') (h' : Within root d' d'') : Within root d d'' :=
  fun p hp => (h' p hp).trans (h p hp)

theorem cleared_below (h : root <+: p) : cleared root d p = none := if_pos h

theorem cleared_elsewhere (h : ¬ root <+: p) : cleared root d p = d p := if_neg h

theorem within_set {n : Inode} : Within root d (d.set root n) :=
  fun _ hp => set_ne fun heq => hp (heq ▸ List.prefix_refl _)

end Trees

end Disk

/-! ## Disks of finitely many files -/

/-- What there is; of two entries for a path the first counts. -/
abbrev Files := List (VfsPath × Inode)

namespace Files

def disk : Files → Disk
  | [], _ => none
  | e :: l, p => if p = e.1 then some e.2 else disk l p

def set (l : Files) (p : VfsPath) (n : Inode) : Files := (p, n) :: l

def mkdirs (p : VfsPath) (l : Files) : Files := p.inits.map (·, .dir) ++ l

def cleared (p : VfsPath) (l : Files) : Files := l.filter fun e => ¬ p <+: e.1

def move (p q : VfsPath) (l : Files) : Files :=
  (l.filter (p <+: ·.1)).map (fun e => (q ++ e.1.drop p.length, e.2)) ++ l.filter fun e => ¬ (p <+: e.1 ∨ q <+: e.1)

/-- What is at the path is not a file. -/
def noFile (l : Files) (p : VfsPath) : Bool :=
  match disk l p with
  | some (.file _) => false
  | _ => true

variable {l : Files} {p q : VfsPath}

theorem disk_set {n : Inode} : disk (set l p n) = (disk l).set p n := by
  funext q
  by_cases hq : q = p
  · simp [set, disk, hq]
  · simp [set, disk, hq, Disk.set_ne]

theorem disk_mkdirs : disk (mkdirs p l) = (disk l).mkdirs p := by
  have hdisk (q : VfsPath) : ∀ ps : List VfsPath, disk (ps.map (·, Inode.dir) ++ l) q =
      if q ∈ ps then some .dir else disk l q := by
    intro ps
    induction ps with
    | nil => simp
    | cons p ps ih => by_cases hq : q = p <;> simp [disk, hq, ih]
  funext q
  simp [mkdirs, Disk.mkdirs, hdisk]

theorem disk_filter (keep : VfsPath → Bool) : ∀ l : Files, disk (l.filter fun e => keep e.1) q = if keep q then disk l q else none
  | [] => by simp [disk]
  | e :: l => by
    have ih := disk_filter keep l
    by_cases hq : q = e.1
    · by_cases he : keep e.1 <;> simp_all [disk]
    · by_cases he : keep e.1 <;> simp [disk, hq, he, ih]

theorem disk_cleared : disk (cleared p l) = Disk.cleared p (disk l) := by
  funext q
  rw [cleared, disk_filter fun q => decide ¬ p <+: q]
  by_cases hq : p <+: q <;> simp [Disk.cleared, hq]

theorem disk_append : ∀ l l' : Files, disk (l ++ l') q = (disk l q).or (disk l' q)
  | [], _ => rfl
  | e :: l, l' => by
    have ih := disk_append l l'
    by_cases hq : q = e.1 <;> simp [disk, hq, ih]

/-- What was below `p` is found below `q`. -/
theorem disk_moved (x : VfsPath) : ∀ l : Files, disk ((l.filter (p <+: ·.1)).map fun e => (q ++ e.1.drop p.length, e.2)) x =
    if q <+: x then disk l (p ++ x.drop q.length) else none
  | [] => by simp [disk]
  | e :: l => by
    have ih := disk_moved x l
    by_cases he : p <+: e.1
    · obtain ⟨t, ht⟩ := he
      by_cases hx : q <+: x
      · obtain ⟨y, rfl⟩ := hx
        simp [← ht, disk, ih]
      · have hne : x ≠ q ++ t := fun heq => hx ⟨t, heq.symm⟩
        simp [← ht, disk, hne, ih, hx]
    · have hne : p ++ x.drop q.length ≠ e.1 := fun heq => he ⟨_, heq⟩
      simp [he, disk, hne, ih]

theorem disk_move : disk (move p q l) = (disk l).move p q := by
  funext x
  rw [move, disk_append, disk_moved, disk_filter fun x => decide ¬ (p <+: x ∨ q <+: x)]
  by_cases hq : q <+: x
  · simp [Disk.move, hq]
  · by_cases hp : p <+: x <;> simp [Disk.move, hq, hp]

theorem noFile_clear (h : p.inits.all (noFile l) = true) : (disk l).Clear p := by
  intro q hq data hfile
  have hno := List.all_eq_true.1 h q ((List.mem_inits q p).2 hq)
  simp [noFile, hfile] at hno

theorem disk_eq_none (hq : p <+: q) : ∀ {l : Files}, l.all (fun e => ¬ p <+: e.1) = true → disk l q = none
  | [], _ => rfl
  | e :: l, hall => by
    simp only [List.all_cons, Bool.and_eq_true, decide_eq_true_eq] at hall
    have hne : q ≠ e.1 := fun heq => hall.1 (heq ▸ hq)
    simpa [disk, hne] using disk_eq_none hq hall.2

end Files

end Etcdadm
