/-
A store of files as its users see it (`vfs.Path`), and the clock next to it.

Files have no directories of their own: a path is the list of its elements, and
a tree is whatever lies below a path. What a store answers is a relation. In
`Answers` nothing fails; in `Serves` every operation may, and a write or a
removal that failed may have been carried out all the same, but not in part.
-/
import Etcdadm.Api
import Etcdadm.Prog

namespace Etcdadm

/-! ## Paths -/

/-- A path, split at its slashes. -/
abbrev VfsPath := List String

namespace VfsPath

/-- One element more, cleaned as `path.Join` does. -/
def push (p : VfsPath) (e : String) : VfsPath :=
  if e = "" ∨ e = "." then p else if e = ".." then p.dropLast else p ++ [e]

/-- `Join` of one name, which may itself have slashes. -/
def join (p : VfsPath) (name : String) : VfsPath := ((name.toList.splitOn '/').map String.ofList).foldl push p

/-- `Path()` -/
def text (p : VfsPath) : String := "/".intercalate p

/-- `Base()` -/
def base (p : VfsPath) : String := p.getLastD ""

/-- A name that is one element of a path. -/
def Plain (name : String) : Prop := '/' ∉ name.toList ∧ name ≠ "" ∧ name ≠ "." ∧ name ≠ ".."

theorem splitOn_of_notMem {c : Char} {l : List Char} (h : c ∉ l) : l.splitOn c = [l] := by
  have hjoin : [c].intercalate [l] = l := by simp
  rw [← hjoin, List.splitOn_intercalate c (by simpa using h) (by simp), hjoin]

theorem join_plain {p : VfsPath} {name : String} (h : Plain name) : p.join name = p ++ [name] := by
  obtain ⟨hslash, hempty, hdot, hdots⟩ := h
  simp [join, splitOn_of_notMem hslash, push, hempty, hdot, hdots]

/-- A name with a dash in it is none of the special ones. -/
theorem plain_dash {a b : String} (ha : '/' ∉ a.toList) (hb : '/' ∉ b.toList) : Plain (a ++ "-" ++ b) := by
  have hdash : '-' ∈ (a ++ "-" ++ b).toList := by simp
  have hne {name : String} (h : '-' ∉ name.toList) : a ++ "-" ++ b ≠ name := fun heq => h (heq ▸ hdash)
  exact ⟨by simp [ha, hb], hne (by decide), hne (by decide), hne (by decide)⟩

end VfsPath

/-! ## Requests -/

inductive VfsError where
  /-- `os.IsNotExist` -/
  | notExist
  | failed (err : Error)

def VfsError.text : VfsError → Error
  | .notExist => "file does not exist"
  | .failed err => err

inductive VfsReq (C : Type) where
  /-- `time.Now()` -/
  | now
  /-- `os.Open` of a local file, for its bytes -/
  | openFile (file : String)
  | writeFile (p : VfsPath) (data : C)
  | readFile (p : VfsPath)
  | readTree (p : VfsPath)
  /-- `Remove`, `RemoveAllVersions` -/
  | remove (p : VfsPath)

@[reducible] def VfsReq.Resp {C : Type} : VfsReq C → Type
  | .now => Int
  | .openFile _ => Except Error String
  | .writeFile _ _ => Except VfsError Unit
  | .readFile _ => Except VfsError C
  | .readTree _ => Except VfsError (List VfsPath)
  | .remove _ => Except VfsError Unit

@[reducible] def vfsSig (C : Type) : Sig := ⟨VfsReq C, VfsReq.Resp⟩

/-- A program over a store with files of type `C`. -/
abbrev VfsM (C : Type) := Prog (vfsSig C)

def vfs {C : Type} (r : VfsReq C) : VfsM C r.Resp := .call (S := vfsSig C) r .ret

/-! ## Stores -/

/-- The clock, in nanoseconds since 1970, and the files. -/
structure Vfs (C : Type) where
  clock : Int
  files : AList fun _ : VfsPath => C

namespace Vfs

variable {C : Type} {v : Vfs C}

/-- The file is below the path. -/
def Below (p q : VfsPath) : Prop := ∃ e rest, q = p ++ e :: rest

instance (p q : VfsPath) : Decidable (Below p q) :=
  decidable_of_iff (p <+: q ∧ p ≠ q) <| by
    constructor
    · rintro ⟨⟨_ | ⟨e, rest⟩, rfl⟩, hne⟩
      · simp at hne
      · exact ⟨e, rest, rfl⟩
    · rintro ⟨e, rest, rfl⟩
      exact ⟨List.prefix_append _ _, by simp⟩

/-- The paths of a tree, in some order. -/
def Lists (v : Vfs C) (p : VfsPath) (l : List VfsPath) : Prop := l.Perm (v.files.keys.filter (Below p ·))

theorem Lists.mem {p : VfsPath} {l : List VfsPath} (h : v.Lists p l) {q : VfsPath} : q ∈ l ↔ q ∈ v.files ∧ Below p q := by
  rw [h.mem_iff, List.mem_filter, decide_eq_true_iff]
  rfl

theorem Lists.nodup {p : VfsPath} {l : List VfsPath} (h : v.Lists p l) : l.Nodup :=
  h.nodup_iff.2 (v.files.nodupKeys.filter _)

/-- What a store answers when nothing fails. There may be no such thing as an
empty tree, and then it does not exist; and to remove what is not there may or
may not be an error. -/
inductive Answers (v : Vfs C) : (r : VfsReq C) → r.Resp → Vfs C → Prop
  | now {t} : v.clock ≤ t → Answers v .now t { v with clock := t }
  | opened {file data} : Answers v (.openFile file) (.ok data) v
  | written {p data} : Answers v (.writeFile p data) (.ok ()) { v with files := v.files.insert p data }
  | read {p data} : v.files.lookup p = some data → Answers v (.readFile p) (.ok data) v
  | readMissing {p} : v.files.lookup p = none → Answers v (.readFile p) (.error .notExist) v
  | tree {p l} : v.Lists p l → Answers v (.readTree p) (.ok l) v
  | noTree {p} : v.Lists p [] → Answers v (.readTree p) (.error .notExist) v
  | removed {p} : Answers v (.remove p) (.ok ()) { v with files := v.files.erase p }
  | removeMissing {p} : v.files.lookup p = none → Answers v (.remove p) (.error .notExist) v

section Inversion

variable {v' : Vfs C} {p : VfsPath}

theorem answers_now {t : Int} : v.Answers .now t v' ↔ v.clock ≤ t ∧ v' = { v with clock := t } := by
  constructor
  · intro h
    cases h with
    | now hle => exact ⟨hle, rfl⟩
  · rintro ⟨hle, rfl⟩
    exact .now hle

theorem answers_writeFile {data : C} {x : Except VfsError Unit} : v.Answers (.writeFile p data) x v' ↔
    x = .ok () ∧ v' = { v with files := v.files.insert p data } := by
  constructor
  · intro h
    cases h with
    | written => exact ⟨rfl, rfl⟩
  · rintro ⟨rfl, rfl⟩
    exact .written

theorem answers_readFile {x : Except VfsError C} : v.Answers (.readFile p) x v' ↔
    v' = v ∧ x = (v.files.lookup p).elim (.error .notExist) .ok := by
  constructor
  · intro h
    cases h with
    | read hdata => simp [hdata]
    | readMissing hnone => simp [hnone]
  · rintro ⟨rfl, rfl⟩
    cases h : v'.files.lookup p with
    | none => exact .readMissing h
    | some data => exact .read h

theorem answers_readTree {x : Except VfsError (List VfsPath)} : v.Answers (.readTree p) x v' ↔
    v' = v ∧ ((∃ l, x = .ok l ∧ v.Lists p l) ∨ (x = .error .notExist ∧ v.Lists p [])) := by
  constructor
  · intro h
    cases h with
    | tree hlists => exact ⟨rfl, .inl ⟨_, rfl, hlists⟩⟩
    | noTree hnone => exact ⟨rfl, .inr ⟨rfl, hnone⟩⟩
  · rintro ⟨rfl, ⟨l, rfl, hlists⟩ | ⟨rfl, hnone⟩⟩
    · exact .tree hlists
    · exact .noTree hnone

/-- Whether or not it was there, it is gone. -/
theorem answers_remove {x : Except VfsError Unit} (h : v.Answers (.remove p) x v') : v'.clock = v.clock ∧
    ∀ q, v'.files.lookup q = if q = p then none else v.files.lookup q := by
  cases h with
  | removed =>
    refine ⟨rfl, fun q => ?_⟩
    by_cases hq : q = p
    · subst hq
      simp [AList.lookup_erase]
    · simp [hq, AList.lookup_erase_ne hq]
  | removeMissing hnone =>
    refine ⟨rfl, fun q => ?_⟩
    by_cases hq : q = p
    · subst hq
      simp [hnone]
    · simp [hq]

/-- A file that is replaced is one file still. -/
theorem keys_replaced (data : C) (h : p ∈ v.files) : (v.files.insert p data).keys.Perm v.files.keys := by
  refine (List.perm_ext_iff_of_nodup (v.files.insert p data).nodupKeys v.files.nodupKeys).2 fun q => ?_
  have hmem : q ∈ v.files.insert p data ↔ q ∈ v.files := by
    rw [AList.mem_insert]
    exact ⟨fun hq => hq.elim (fun heq => heq ▸ h) id, .inr⟩
  exact hmem

theorem mem_removed (h : ∀ q, v'.files.lookup q = if q = p then none else v.files.lookup q) {q : VfsPath} :
    q ∈ v'.files ↔ q ≠ p ∧ q ∈ v.files := by
  rw [← AList.lookup_isSome, ← AList.lookup_isSome, h q]
  by_cases hq : q = p
  · simp [hq]
  · simp [hq]

theorem keys_removed (h : ∀ q, v'.files.lookup q = if q = p then none else v.files.lookup q) :
    v'.files.keys.Perm (v.files.keys.erase p) := by
  refine (List.perm_ext_iff_of_nodup v'.files.nodupKeys (List.Nodup.erase p v.files.nodupKeys)).2 fun q => ?_
  rw [List.Nodup.mem_erase_iff v.files.nodupKeys]
  exact mem_removed h

end Inversion

/-- Any operation may fail. Then nothing was done, or all of it. -/
inductive Serves (v : Vfs C) : (r : VfsReq C) → r.Resp → Vfs C → Prop
  | done {r x v'} : Answers v r x v' → Serves v r x v'
  | openFailed {file err} : Serves v (.openFile file) (.error err) v
  | writeFailed {p data err} : Serves v (.writeFile p data) (.error err) v
  | writtenFailed {p data err} :
      Serves v (.writeFile p data) (.error err) { v with files := v.files.insert p data }
  | readFailed {p err} : Serves v (.readFile p) (.error (.failed err)) v
  | treeFailed {p err} : Serves v (.readTree p) (.error (.failed err)) v
  | removeFailed {p err} : Serves v (.remove p) (.error err) v
  | removedFailed {p err} : Serves v (.remove p) (.error err) { v with files := v.files.erase p }

theorem serves_openFile {v' : Vfs C} {file : String} {x : Except Error String} (h : v.Serves (.openFile file) x v') :
    v' = v := by
  cases h with
  | done h =>
    cases h
    rfl
  | openFailed => rfl

/-- A write leaves the file, unless it failed and was not carried out. -/
theorem serves_writeFile {v' : Vfs C} {p : VfsPath} {data : C} {x : Except VfsError Unit}
    (h : v.Serves (.writeFile p data) x v') :
    v' = { v with files := v.files.insert p data } ∨ (v' = v ∧ ∃ err, x = .error err) := by
  cases h with
  | done h => exact .inl (answers_writeFile.1 h).2
  | writeFailed => exact .inr ⟨rfl, _, rfl⟩
  | writtenFailed => exact .inl rfl

/-- A removal leaves everything else, and the file only if it failed. -/
theorem serves_remove {v' : Vfs C} {p : VfsPath} {x : Except VfsError Unit} (h : v.Serves (.remove p) x v') :
    (∀ q, v'.files.lookup q = if q = p then none else v.files.lookup q) ∨ (v' = v ∧ ∃ err, x = .error err) := by
  cases h with
  | done h => exact .inl (answers_remove h).2
  | removeFailed => exact .inr ⟨rfl, _, rfl⟩
  | removedFailed => exact .inl (answers_remove .removed).2

/-- A tree is listed, or not there, or cannot be read. -/
theorem serves_readTree {v' : Vfs C} {p : VfsPath} {x : Except VfsError (List VfsPath)}
    (h : v.Serves (.readTree p) x v') : v' = v ∧ ((∃ l, x = .ok l ∧ v.Lists p l) ∨
      (x = .error .notExist ∧ v.Lists p []) ∨ ∃ err, x = .error (.failed err)) := by
  cases h with
  | done h =>
    obtain ⟨hv, htree⟩ := answers_readTree.1 h
    exact ⟨hv, htree.imp_right .inl⟩
  | treeFailed => exact ⟨rfl, .inr (.inr ⟨_, rfl⟩)⟩

theorem does_vfs {α : Type} {answers : Vfs C → (r : VfsReq C) → r.Resp → Vfs C → Prop} {r : VfsReq C}
    {f : r.Resp → VfsM C α} {a : α} {v' : Vfs C} : Prog.Does answers v (vfs r >>= f) a v' ↔
      ∃ x v₁, answers v r x v₁ ∧ Prog.Does answers v₁ (f x) a v' := Prog.does_call

theorem always_vfs {α : Type} {answers : Vfs C → (r : VfsReq C) → r.Resp → Vfs C → Prop} {r : VfsReq C}
    {f : r.Resp → VfsM C α} {I : Vfs C → Prop} {Q : Vfs C → α → Prop}
    (h : ∀ x v', answers v r x v' → I v' ∧ (f x).Always answers I Q v') : (vfs r >>= f).Always answers I Q v := h

end Vfs

end Etcdadm
