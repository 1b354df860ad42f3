/-
The identity of a peer (`PersistentPeerId` of `pkg/privateapi/id.go`, with `CreateFile` of
`pkg/ioutils/create.go`).

A peer draws a token when it first starts and keeps it in a file, which it reads after that. The file
is only made where there is none, so whatever is cut and whatever fails, the calls that succeed all
give one identity. But when the file is made the token is not in it yet. A call that is cut then, or
whose write falls short, leaves a part of the token, and that is the identity from then on.
-/
import Etcdadm.Vfs

namespace Etcdadm.PeerIdentity

open Prog (Does Goes does_bind)

/-! ## The code -/

/-- What a file holds. A Go string is its bytes. -/
abbrev Contents := List UInt8

inductive Req where
  /-- `os.ReadFile` -/
  | readFile (p : VfsPath)
  /-- `io.ReadFull` of the random source -/
  | readFull
  /-- `os.MkdirAll` -/
  | mkdirAll (p : VfsPath)
  /-- `os.OpenFile` with `O_CREATE` and `O_EXCL` -/
  | openFile (p : VfsPath)
  /-- `f.Write`: how much was written, and the error -/
  | write (p : VfsPath) (data : Contents)
  | close (p : VfsPath)

@[reducible] def Req.Resp : Req → Type
  | .readFile _ => Except VfsError Contents
  | .readFull => Except Error Contents
  | .mkdirAll _ | .openFile _ => Except Error Unit
  | .write _ _ => Nat × Option Error
  | .close _ => Option Error

@[reducible] def sig : Sig := ⟨Req, Req.Resp⟩

abbrev M := Prog sig

def ask (r : Req) : M r.Resp := .call (S := sig) r .ret

/-- `ioutils.CreateFile` -/
def createFile (p : VfsPath) (data : Contents) : M (Option Error) := do
  match ← ask (.openFile p) with
  | .error err => return some err
  | .ok () =>
    let (n, err) ← ask (.write p data)
    let err := if err = none ∧ n < data.length then some "short write" else err
    let err1 ← ask (.close p)
    return err.or err1

variable (encode : Contents → Contents)

/-- `randomToken`, with `base64.RawURLEncoding` as a parameter. `klog.Fatalf` ends the process. -/
def randomToken : M Contents := do
  match ← ask .readFull with
  | .error err => .crash s!"error generating random token: {err}"
  | .ok b => return encode b

def idFile (basedir : VfsPath) : VfsPath := basedir ++ ["myid"]

/-- `PersistentPeerId` -/
def persistentPeerId (basedir : VfsPath) : M (Except Error Contents) := do
  match ← ask (.readFile (idFile basedir)) with
  | .ok b => return .ok b
  | .error .notExist =>
    let token ← randomToken encode
    match ← ask (.mkdirAll basedir) with
    | .error err => return .error s!"error creating directories {basedir.text.quote}: {err}"
    | .ok () =>
      match ← createFile (idFile basedir) token with
      | some err => return .error s!"error creating id file {(idFile basedir).text.quote}: {err}"
      | none => return .ok token
  | .error (.failed err) => return .error s!"error reading id file {(idFile basedir).text.quote}: {err}"

/-! ## The file -/

/-- The id file, if there is one -/
abbrev File := Option Contents

/-- Every call may fail, and a write that fails or falls short has written a part. -/
inductive Answers (basedir : VfsPath) (file : File) : (r : Req) → r.Resp → File → Prop
  | read {b} : file = some b → Answers basedir file (.readFile (idFile basedir)) (.ok b) file
  | readMissing : file = none → Answers basedir file (.readFile (idFile basedir)) (.error .notExist) file
  | readFailed {err} : Answers basedir file (.readFile (idFile basedir)) (.error (.failed err)) file
  | random {b} : b.length = 16 → Answers basedir file .readFull (.ok b) file
  | randomFailed {err} : Answers basedir file .readFull (.error err) file
  | mkdirAll {x} : Answers basedir file (.mkdirAll basedir) x file
  | opened : file = none → Answers basedir file (.openFile (idFile basedir)) (.ok ()) (some [])
  | openFailed {err} : Answers basedir file (.openFile (idFile basedir)) (.error err) file
  | written {b data n err} : file = some b → n ≤ data.length →
      Answers basedir file (.write (idFile basedir) data) (n, err) (some (b ++ data.take n))
  | close {x} : Answers basedir file (.close (idFile basedir)) x file

/-- One call after another, with what those that succeed return. The others have failed, or were cut. -/
inductive History (basedir : VfsPath) (file₀ : File) : List Contents → File → Prop
  | nil : History basedir file₀ [] file₀
  | returned {file file' : File} {ids : List Contents} {id : Contents} : History basedir file₀ ids file →
      Does (Answers basedir) file (persistentPeerId encode basedir) (.ok id) file' →
      History basedir file₀ (ids ++ [id]) file'
  | left {file file' : File} {ids : List Contents} {rest : M (Except Error Contents)} :
      History basedir file₀ ids file → Goes (Answers basedir) file (persistentPeerId encode basedir) rest file' →
      History basedir file₀ ids file'

/-! ## What a call leaves -/

/-- What was in the file is in it. -/
def Keeps (file file' : File) : Prop := ∀ b, file = some b → file' = some b

variable {encode} {basedir : VfsPath} {file file' : File}

theorem keeps_none : Keeps none file := by simp [Keeps]

theorem always_ask {α : Type} {r : Req} {f : r.Resp → M α} {I : File → Prop} {Q : File → α → Prop}
    (h : ∀ x file', Answers basedir file r x file' → I file' ∧ (f x).Always (Answers basedir) I Q file') :
    (ask r >>= f).Always (Answers basedir) I Q file := h

/-- Without an error, all of it was written. -/
theorem always_createFile {data : Contents} : (createFile (idFile basedir) data).Always (Answers basedir) (Keeps none)
    (fun file' err => err = none → file' = some data) none := by
  refine always_ask fun x file₁ hopen => ⟨keeps_none, ?_⟩
  cases hopen with
  | openFailed => simp [Prog.Always]
  | opened =>
    refine always_ask fun x file₂ hwrite => ⟨keeps_none, ?_⟩
    cases hwrite with
    | @written b _ n err hempty hn =>
      cases hempty
      refine always_ask fun err1 file₃ hclose => ⟨keeps_none, ?_⟩
      cases hclose
      intro hok
      have hall : data.length ≤ n := by
        by_contra hshort
        rw [not_le] at hshort
        cases err <;> simp [hshort] at hok
      simp [List.take_of_length_le hall]

theorem always_persistentPeerId : (persistentPeerId encode basedir).Always (Answers basedir) (Keeps file)
    (fun file' x => ∀ id, x = .ok id → file' = some id) file := by
  refine always_ask fun x file₁ hread => ?_
  cases hread with
  | read hb =>
    refine ⟨fun _ h => h, fun id hid => ?_⟩
    cases hid
    exact hb
  | readFailed => exact ⟨fun _ h => h, by simp [Prog.Always]⟩
  | readMissing hnone =>
    subst hnone
    refine ⟨keeps_none, .bind (always_ask fun x file₂ hrandom => ⟨keeps_none, ?_⟩)⟩
    cases hrandom with
    | randomFailed => trivial
    | random =>
      refine always_ask fun x file₃ hmkdir => ⟨keeps_none, ?_⟩
      cases hmkdir
      cases x with
      | error err => simp [Prog.Always]
      | ok u =>
        refine .bind (always_createFile.mono fun file₄ err hcreate => ?_)
        cases err with
        | some err => simp [Prog.Always]
        | none =>
          intro id hid
          cases hid
          exact hcreate rfl

theorem does_read {b : Contents} :
    Does (Answers basedir) (some b) (persistentPeerId encode basedir) (.ok b) (some b) := .call (.read rfl) .ret

theorem does_ask {α : Type} {r : Req} {x : r.Resp} {f : r.Resp → M α} {a : α} {file₁ : File}
    (hanswer : Answers basedir file r x file₁) (hrest : Does (Answers basedir) file₁ (f x) a file') :
    Does (Answers basedir) file (ask r >>= f) a file' := .call hanswer hrest

/-- The disk is full when a part of the token is written. -/
theorem does_short {random part : Contents} (hrandom : random.length = 16) (hpart : part <+: encode random)
    (hshort : part.length < (encode random).length) :
    ∃ err, Does (Answers basedir) none (persistentPeerId encode basedir) (.error err) (some part) := by
  have hmkdir : Answers basedir none (.mkdirAll basedir) (.ok ()) none := .mkdirAll
  have htoken : Does (Answers basedir) none (randomToken encode) (encode random) none :=
    does_ask (.random hrandom) .ret
  have hwrite : Answers basedir (some []) (.write (idFile basedir) (encode random))
      (part.length, some "no space left on device") (some ((encode random).take part.length)) := .written rfl hshort.le
  rw [← List.prefix_iff_eq_take.1 hpart] at hwrite
  have hcreate : Does (Answers basedir) none (createFile (idFile basedir) (encode random))
      (some "no space left on device") (some part) :=
    does_ask (.opened rfl) (does_ask hwrite (does_ask (x := none) .close .ret))
  exact ⟨_, does_ask (.readMissing rfl) (does_bind.2 ⟨_, _, htoken,
    does_ask hmkdir (does_bind.2 ⟨_, _, hcreate, .ret⟩)⟩)⟩

/-! ## Histories -/

theorem goes_keeps {rest : M (Except Error Contents)}
    (h : Goes (Answers basedir) file (persistentPeerId encode basedir) rest file') : Keeps file file' :=
  (always_persistentPeerId.goes h fun _ h => h).1

theorem does_holds {id : Contents}
    (h : Does (Answers basedir) file (persistentPeerId encode basedir) (.ok id) file') : file' = some id :=
  (always_persistentPeerId.goes h.goes fun _ h => h).2 id rfl

/-- What was there stays, and whoever was given an identity finds it in the file. -/
theorem History.holds {file₀ : File} {ids : List Contents} (h : History encode basedir file₀ ids file) :
    Keeps file₀ file ∧ ∀ id ∈ ids, file = some id := by
  induction h with
  | nil => exact ⟨fun _ hb => hb, by simp⟩
  | returned _ hdoes ih =>
    have hkeeps := goes_keeps hdoes.goes
    refine ⟨fun b hb => hkeeps b (ih.1 b hb), fun id hid => ?_⟩
    rcases List.mem_append.1 hid with hid | hid
    · exact hkeeps id (ih.2 id hid)
    · rw [List.mem_singleton.1 hid]
      exact does_holds hdoes
  | left _ hgoes ih =>
    have hkeeps := goes_keeps hgoes
    exact ⟨fun b hb => hkeeps b (ih.1 b hb), fun id hid => hkeeps id (ih.2 id hid)⟩

/-- **A peer has one identity.** Whatever calls were cut and whatever failed, those that succeeded all
returned the same, and what was in the file before them if there was one. -/
theorem peer_has_one_identity (encode : Contents → Contents) (basedir : VfsPath) (file₀ file : File)
    (ids : List Contents) (h : History encode basedir file₀ ids file) (id : Contents) (hid : id ∈ ids) :
    (∀ b, file₀ = some b → id = b) ∧ ∀ id' ∈ ids, id' = id := by
  have hfile := h.holds.2 id hid
  refine ⟨fun b hb => ?_, fun id' hid' => ?_⟩
  · exact Option.some.inj (hfile.symm.trans (h.holds.1 b hb))
  · exact Option.some.inj ((h.holds.2 id' hid').symm.trans hfile)

/-- A first call that fails, and two that read what it left. -/
theorem identity_read_twice : ∃ file, History (fun b => b) ["data"] none [[7, 7], [7, 7]] file ∧
    ∀ id' ∈ [[7, 7], [7, 7]], id' = ([7, 7] : Contents) := by
  obtain ⟨err, hshort⟩ := @does_short (fun b => b) ["data"] (List.replicate 16 7) [7, 7] rfl (by decide) (by decide)
  have h : History (fun b => b) ["data"] none [[7, 7], [7, 7]] (some [7, 7]) :=
    .returned (.returned (.left .nil hshort.goes) does_read) does_read
  exact ⟨_, h, (peer_has_one_identity _ _ _ _ _ h [7, 7] (by simp)).2⟩

/-- **A part of a token is an identity.** If the write falls short the call reports it, but it leaves what
was written. The next call may return that part, and no later one returns anything else. -/
theorem part_of_token_stays (encode : Contents → Contents) (basedir : VfsPath) (random part : Contents)
    (hrandom : random.length = 16) (hpart : part <+: encode random) (hshort : part.length < (encode random).length) :
    (∃ err, Does (Answers basedir) none (persistentPeerId encode basedir) (.error err) (some part)) ∧
    History encode basedir (some part) [part] (some part) ∧
    ∀ ids file, History encode basedir (some part) ids file → ∀ id ∈ ids, id = part := by
  refine ⟨does_short hrandom hpart hshort, .returned .nil does_read, fun ids file h id hid => ?_⟩
  exact Option.some.inj ((h.holds.2 id hid).symm.trans (h.holds.1 part rfl))

/-- Nothing was written: a peer without a name, for good. -/
theorem peer_without_name : (∃ err, Does (Answers ["data"]) none (persistentPeerId (fun b => b) ["data"]) (.error err)
      (some [])) ∧ History (fun b => b) ["data"] (some []) [[]] (some []) ∧
    ∀ ids file, History (fun b => b) ["data"] (some []) ids file → ∀ id ∈ ids, id = [] :=
  part_of_token_stays (fun b => b) ["data"] (List.replicate 16 7) [] rfl (by decide) (by decide)

end Etcdadm.PeerIdentity
