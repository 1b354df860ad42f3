/-
The lock that is the content of a file (`FSContentLock` of `pkg/locking/fs.go`).

The file holds a hash and, behind a line feed, the JSON of the holder the hash is
of. `Acquire` reads it and, unless it finds such a text, writes its own; `Release`
empties the file if it still holds what was written. Reading and writing are
operations of their own, so holders interleave between them, and two that both
read an empty file both come away with a guard. What is missing is `quiet`:
nothing else may have changed the file since it was read.
-/
import Etcdadm.Api
import Etcdadm.Monitor
import Etcdadm.Serial

namespace Etcdadm.ContentLock

open Relation

abbrev Bytes := List UInt8

structure LockInfo where
  holder : String
  timestamp : Int

/-- What the lock is written with. The hash may be any function; of the JSON all
that is asked is that what was written can be read. -/
structure Codec where
  sha256 : Bytes → Bytes
  toJSON : LockInfo → Except Error Bytes
  unmarshal : Bytes → Except Error LockInfo
  reads : ∀ info b, toJSON info = .ok b → (unmarshal b).toOption.isSome

def lf : UInt8 := 10

def hexDigits : Bytes := [48, 49, 50, 51, 52, 53, 54, 55, 56, 57, 97, 98, 99, 100, 101, 102]

def hexDigit (n : Nat) : UInt8 := hexDigits.getD n 48

def hexEncodeToString (b : Bytes) : Bytes := b.flatMap fun c => [hexDigit (c.toNat / 16), hexDigit (c.toNat % 16)]

namespace Codec

variable (codec : Codec)

def lockBytes (b : Bytes) : Bytes := hexEncodeToString (codec.sha256 b) ++ lf :: b

/-- The holder the content of the file names, if it is the text of a lock. -/
def existing (fileBytes : Bytes) : Option LockInfo :=
  match fileBytes.findIdx? (· == lf) with
  | none => none
  | some firstLF =>
    let rest := fileBytes.drop (firstLF + 1)
    if fileBytes.take firstLF = hexEncodeToString (codec.sha256 rest) then (codec.unmarshal rest).toOption else none

end Codec

/-! ## Acquire and Release -/

inductive LockReq where
  /-- `ctx.Err()` -/
  | ctxErr
  | now
  /-- `os.OpenFile`, with `O_CREATE` or without -/
  | openFile (create : Bool)
  | readAll
  /-- `Truncate(0)` -/
  | truncate
  /-- `WriteAt`, at 0 -/
  | writeAt (data : Bytes)
  | sync
  | close

/-- The answer of `writeAt` is how much was written if not all of it was, and why. -/
@[reducible] def LockReq.Resp : LockReq → Type
  | .now => Int
  | .readAll => Except Error Bytes
  | .writeAt _ => Option (Nat × Error)
  | .ctxErr | .openFile _ | .truncate | .sync | .close => Option Error

@[reducible] def lockSig : Sig := ⟨LockReq, LockReq.Resp⟩

abbrev LockM := Prog lockSig

def ask (r : LockReq) : LockM r.Resp := .call (S := lockSig) r .ret

structure FSContentLockGuard where
  p : String
  data : Bytes
  id : String

section Programs

variable (codec : Codec) (p : String)

/-- `f.Close()`, after which nothing goes on if it fails. -/
def close : LockM Unit := do
  match ← ask .close with
  | some errC => .crash s!"error closing lock file {p.quote}: {errC}"
  | none => return

/-- `Acquire`, from where the file is known to hold no lock and is empty. -/
def writeLock (id : String) (lockBytes : Bytes) : LockM (Option FSContentLockGuard × Option Error) := do
  let err ← match ← ask (.writeAt lockBytes) with
    | some (_, err) => pure (some err)
    | none => ask .sync
  match err with
  | some err =>
    -- whether this worked is only logged
    let _ ← ask .truncate
    close p
    return (none, some s!"error creating lock file {p.quote}: {err}")
  | none =>
    close p
    return (some ⟨p, lockBytes, id⟩, none)

/-- `Acquire`, from where it opens the file. -/
def lockFile (id : String) (lockBytes : Bytes) : LockM (Option FSContentLockGuard × Option Error) := do
  match ← ask (.openFile true) with
  | some err => return (none, some s!"error creating lock file {p.quote}: {err}")
  | none =>
    match ← ask .readAll with
    | .error err =>
      close p
      return (none, some s!"error reading lock file: {err}")
    | .ok fileBytes =>
      if fileBytes = [] then writeLock p id lockBytes
      else if (codec.existing fileBytes).isSome then
        -- the lock is already held
        close p
        return (none, none)
      else
        match ← ask .truncate with
        | some errT =>
          close p
          return (none, some s!"failed to truncate file after failed read {p.quote}: {errT}")
        | none => writeLock p id lockBytes

def acquire (id : String) : LockM (Option FSContentLockGuard × Option Error) := do
  match ← ask .ctxErr with
  | some err => return (none, some err)
  | none =>
    let timestamp ← ask .now
    match codec.toJSON ⟨id, timestamp⟩ with
    | .error err => return (none, some s!"error serializing lock info: {err}")
    | .ok b => lockFile codec p id (codec.lockBytes b)

def release (g : FSContentLockGuard) : LockM (Option Error) := do
  match ← ask (.openFile false) with
  | some errO => return some s!"error opening file {g.p.quote}: {errO}"
  | none =>
    match ← ask .readAll with
    | .error errR =>
      close g.p
      return some s!"error reading lock file: {errR}"
    | .ok fileBytes =>
      if fileBytes ≠ g.data then
        close g.p
        return some s!"lock file {g.p.quote} changed"
      match ← ask .truncate with
      | some errT =>
        close g.p
        return some s!"failed to truncate file after failed write {g.p.quote}: {errT}"
      | none =>
        match ← ask .close with
        | some errC => return some s!"error closing file as part of unlock {g.p.quote}: {errC}"
        | none => return none

end Programs

/-! ## Holders of one file -/

/-- What `WriteAt` at 0 makes of the content. -/
def overwrite (data file : Bytes) : Bytes := data ++ file.drop data.length

/-- How an operation may be answered, and what the file holds afterwards. -/
inductive Answers (file : Bytes) : (r : LockReq) → r.Resp → Bytes → Prop
  | ctxErr {x} : Answers file .ctxErr x file
  | now {x} : Answers file .now x file
  | openFile {create x} : Answers file (.openFile create) x file
  | readAll : Answers file .readAll (.ok file) file
  | readFailed {err} : Answers file .readAll (.error err) file
  | truncate : Answers file .truncate none []
  | truncateFailed {err} : Answers file .truncate (some err) file
  | writeAt {data} : Answers file (.writeAt data) none (overwrite data file)
  | writeFailed {data n err} : Answers file (.writeAt data) (some (n, err)) (overwrite (data.take n) file)
  | sync {x} : Answers file .sync x file
  | close {x} : Answers file .close x file

/-- A holder: what it is in, with what it has done there. -/
inductive Holder where
  | idle
  | acquiring (program : LockM (Option FSContentLockGuard × Option Error)) (done : Trace lockSig)
  | holding (g : FSContentLockGuard)
  | releasing (g : FSContentLockGuard) (program : LockM (Option Error)) (done : Trace lockSig)

/-- The file was emptied. -/
def Emptied (e : Event lockSig) : Prop := e = ⟨.truncate, none⟩

/-- `Acquire` returned a guard, and no `Release` has emptied the file. -/
def Holder.GuardOut : Holder → Prop
  | .holding _ => True
  | .releasing _ _ done => ∀ e ∈ done, ¬ Emptied e
  | .idle | .acquiring _ _ => False

structure World (ι : Type) where
  file : Bytes
  holders : ι → Holder

variable {ι : Type} [DecidableEq ι]

def World.set (w : World ι) (i : ι) (h : Holder) : World ι := ⟨w.file, Function.update w.holders i h⟩

/-- One operation, call or return of a holder, or its end. The operations of an
`Acquire` are those `may` allows, by what it has done and what the file holds. -/
inductive Step (codec : Codec) (p : String) (may : Trace lockSig → Bytes → LockReq → Prop) :
    World ι → World ι → Prop
  | acquire {w i} (id : String) : w.holders i = .idle → Step codec p may w (w.set i (.acquiring (acquire codec p id) []))
  | acquireOp {w i r k done x file} : w.holders i = .acquiring (.call r k) done → may done w.file r →
      Answers w.file r x file →
      Step codec p may w ⟨file, Function.update w.holders i (.acquiring (k x) (done ++ [⟨r, x⟩]))⟩
  | acquired {w i g err done} : w.holders i = .acquiring (.ret (some g, err)) done →
      Step codec p may w (w.set i (.holding g))
  | notAcquired {w i err done} : w.holders i = .acquiring (.ret (none, err)) done →
      Step codec p may w (w.set i .idle)
  | release {w i g} : w.holders i = .holding g → Step codec p may w (w.set i (.releasing g (release g) []))
  | releaseOp {w i g r k done x file} : w.holders i = .releasing g (.call r k) done →
      Answers w.file r x file →
      Step codec p may w ⟨file, Function.update w.holders i (.releasing g (k x) (done ++ [⟨r, x⟩]))⟩
  | released {w i g err done} : w.holders i = .releasing g (.ret err) done → (∃ e ∈ done, Emptied e) →
      Step codec p may w (w.set i .idle)
  /-- it still has its guard, and may call `Release` again -/
  | notReleased {w i g err done} : w.holders i = .releasing g (.ret err) done → (∀ e ∈ done, ¬ Emptied e) →
      Step codec p may w (w.set i (.holding g))
  /-- its process ends, and with it what it was in -/
  | killed {w i} : Step codec p may w (w.set i .idle)

/-- Any operation at any time. -/
def anyTime : Trace lockSig → Bytes → LockReq → Prop := fun _ _ _ => True

def LockReq.changes : LockReq → Prop
  | .truncate | .writeAt _ => True
  | _ => False

/-- What the file holds, as far as one that has done this knows. -/
def known : Option Bytes → Event lockSig → Option Bytes
  | _, ⟨.readAll, .ok file⟩ => some file
  | some _, ⟨.truncate, none⟩ => some []
  | some file, ⟨.writeAt data, none⟩ => some (overwrite data file)
  | some file, ⟨.writeAt data, some short⟩ => some (overwrite (data.take short.1) file)
  | file, _ => file

/-- A change finds the file as the one that makes it read or left it. -/
def quiet (done : Trace lockSig) (file : Bytes) (r : LockReq) : Prop :=
  r.changes → done.foldl known none = some file

/-! ## The text of a lock -/

theorem lf_notMem_hexEncodeToString (b : Bytes) : lf ∉ hexEncodeToString b := by
  have hdigit : ∀ n, hexDigit n ≠ lf := by
    intro n
    by_cases hn : n < hexDigits.length
    · have hmem : hexDigit n ∈ hexDigits := by
        rw [hexDigit, List.getD_eq_getElem _ _ hn]
        exact List.getElem_mem hn
      have hall : ∀ d ∈ hexDigits, d ≠ lf := by simp [hexDigits, lf]
      exact hall _ hmem
    · rw [hexDigit, List.getD_eq_default _ _ (by omega)]
      decide
  simp only [hexEncodeToString, List.mem_flatMap, List.mem_cons, List.not_mem_nil, or_false, not_exists, not_and, not_or]
  exact fun c _ => ⟨(hdigit _).symm, (hdigit _).symm⟩

namespace Codec

variable (codec : Codec)

@[simp] theorem existing_nil : codec.existing [] = none := rfl

/-- What an `Acquire` writes is read as the text of a lock. -/
theorem existing_lockBytes {info : LockInfo} {b : Bytes} (h : codec.toJSON info = .ok b) :
    (codec.existing (codec.lockBytes b)).isSome := by
  have hfind : (codec.lockBytes b).findIdx? (· == lf) = some (hexEncodeToString (codec.sha256 b)).length := by
    have hnone : (hexEncodeToString (codec.sha256 b)).findIdx? (· == lf) = none := by
      rw [List.findIdx?_eq_none_iff]
      intro c hc
      have hne : c ≠ lf := fun he => lf_notMem_hexEncodeToString _ (he ▸ hc)
      simpa using hne
    simp [lockBytes, List.findIdx?_append, hnone, List.findIdx?_cons]
  have htake : (codec.lockBytes b).take (hexEncodeToString (codec.sha256 b)).length =
      hexEncodeToString (codec.sha256 b) := by simp [lockBytes]
  have hdrop : (codec.lockBytes b).drop ((hexEncodeToString (codec.sha256 b)).length + 1) = b := by
    simp [lockBytes]
  unfold existing
  simp only [hfind, htake, hdrop, if_true]
  exact codec.reads info b h

end Codec

/-! ## How far a holder is -/

/-- Where a holder is with its lock: what it found in the file, or what it left there. -/
inductive Phase where
  | calm
  | opened
  | saw (file : Bytes)
  | wrote (data : Bytes)
  | failed (left : Bytes)
  | holds (data : Bytes)
  | released

namespace Phase

variable (codec : Codec)

def next : Phase → (r : LockReq) → r.Resp → Phase
  | .calm, .openFile true, none => .opened
  | .opened, .readAll, .ok file => if (codec.existing file).isSome then .calm else .saw file
  | .saw _, .truncate, none => .saw []
  | .saw _, .writeAt data, none => .wrote data
  | .saw _, .writeAt data, some short => .failed (data.take short.1)
  | .wrote data, .sync, none => .holds data
  | .wrote data, .sync, some _ => .failed data
  | .failed _, .truncate, none => .calm
  | .holds _, .truncate, none => .released
  | s, _, _ => s

/-- The file is changed only after it was read, and a lock written only over nothing. -/
def must (s : Phase) : LockReq → Prop
  | .readAll => s = .opened ∨ ∃ data, s = .holds data
  | .truncate => (∃ file, s = .saw file) ∨ (∃ left, s = .failed left) ∨ ∃ data, s = .holds data
  | .writeAt data => s = .saw [] ∧ (codec.existing data).isSome
  | _ => True

/-- What it left in the file. -/
def left : Phase → Option Bytes
  | .wrote data | .failed data | .holds data => some data
  | .calm | .opened | .saw _ | .released => none

/-- It goes on only where there was no lock, and has its lock written before it holds it. -/
def Sensible : Phase → Prop
  | .saw file => ¬ (codec.existing file).isSome
  | .wrote data | .holds data => (codec.existing data).isSome
  | .calm | .opened | .failed _ | .released => True

/-- What it knows of the file is what it found or left. -/
def Knows : Phase → Trace lockSig → Prop
  | .saw file, done | .wrote file, done | .failed file, done => done.foldl known none = some file
  | .calm, _ | .opened, _ | .holds _, _ | .released, _ => True

end Phase

/-- The monitor of a holder. -/
def locking (codec : Codec) : Monitor lockSig Phase := { next := Phase.next codec, must := Phase.must codec }

section Phases

variable {codec : Codec} {s : Phase} {r : LockReq} {x : r.Resp}

theorem Phase.Sensible.next (h : s.Sensible codec) (hmust : s.must codec r) : (s.next codec r x).Sensible codec := by
  fun_cases Phase.next codec s r x with
  | case1 => trivial
  | case2 => trivial
  | case3 file hfile => exact hfile
  | case4 => simp [Sensible]
  | case5 => exact hmust.2
  | case6 => trivial
  | case7 => exact h
  | case8 => trivial
  | case9 => trivial
  | case10 => trivial
  | case11 => exact h

theorem Phase.Knows.next {done : Trace lockSig} (h : s.Knows done) (hmust : s.must codec r) :
    (s.next codec r x).Knows (done ++ [⟨r, x⟩]) := by
  fun_cases Phase.next codec s r x with
  | case1 => trivial
  | case2 => trivial
  | case3 file hfile => simp [Knows, known]
  | case4 =>
    have hknown : done.foldl known none = some _ := h
    simp [Knows, hknown, known]
  | case5 =>
    have hknown : done.foldl known none = some _ := h
    obtain ⟨hnil, -⟩ := hmust
    cases hnil
    simp [Knows, hknown, known, overwrite]
  | case6 =>
    have hknown : done.foldl known none = some _ := h
    obtain ⟨hnil, -⟩ := hmust
    cases hnil
    simp [Knows, hknown, known, overwrite]
  | case7 => trivial
  | case8 =>
    have hknown : done.foldl known none = some _ := h
    simp [Knows, hknown, known]
  | case9 => trivial
  | case10 => trivial
  | case11 =>
    -- nothing it knows has changed
    cases s with
    | calm | opened | holds | released => trivial
    | saw file | wrote file | failed file =>
      have hknown : done.foldl known none = some file := h
      simp only [Knows, List.foldl_append, List.foldl_cons, List.foldl_nil, hknown]
      cases r with
      | ctxErr | now | openFile | sync | close => rfl
      | readAll => simp [must] at hmust
      | truncate | writeAt => cases x <;> simp_all [known, must]

/-- What it leaves in the file, it leaves there by changing it. -/
theorem Phase.left_next (h : ¬ r.changes ∨ ∃ err, (⟨r, x⟩ : Event lockSig) = ⟨.truncate, some err⟩) :
    (s.next codec r x).left = none ∨ (s.next codec r x).left = s.left := by
  rcases h with h | ⟨err, he⟩
  · cases r with
    | truncate | writeAt => exact absurd trivial h
    | ctxErr | now | close => cases s <;> simp [next]
    | openFile create => cases s <;> cases create <;> cases x <;> simp [next, left]
    | readAll =>
      cases s <;> cases x <;> simp only [next, or_true]
      split <;> simp [left]
    | sync => cases s <;> cases x <;> simp [next, left]
  · cases he
    cases s <;> simp [next]

@[simp] theorem Phase.next_close {x : LockReq.Resp .close} : s.next codec .close x = s := by cases s <;> rfl

section Programs

variable {α : Type} {Q : Phase → α → Prop} {p : String}

theorem wp_ask {f : r.Resp → LockM α} (hmust : s.must codec r) (hf : ∀ x, (locking codec).wp (f x) (s.next codec r x) Q) :
    (locking codec).wp (ask r >>= f) s Q := ⟨hmust, fun x _ => hf x⟩

theorem wp_close {f : Unit → LockM α} (hf : (locking codec).wp (f ()) s Q) :
    (locking codec).wp (close p >>= f) s Q := by
  refine ⟨trivial, fun x _ => ?_⟩
  cases x with
  | some errC => trivial
  | none =>
    show (locking codec).wp (f ()) (s.next codec .close none) Q
    rwa [Phase.next_close]

theorem wp_writeLock {id : String} {lockBytes : Bytes} (h : (codec.existing lockBytes).isSome) :
    (locking codec).wp (writeLock p id lockBytes) (.saw []) fun s r => ∀ g, r.1 = some g → s = .holds g.data := by
  refine wp_ask ⟨rfl, h⟩ fun x => ?_
  cases x with
  | some short =>
    refine wp_ask (.inr (.inl ⟨_, rfl⟩)) fun _ => wp_close ?_
    simp
  | none =>
    refine wp_ask trivial fun x => ?_
    cases x with
    | some err =>
      refine wp_ask (.inr (.inl ⟨_, rfl⟩)) fun _ => wp_close ?_
      simp
    | none =>
      refine wp_close ?_
      simp [Phase.next]

theorem wp_lockFile {id : String} {lockBytes : Bytes} (h : (codec.existing lockBytes).isSome) :
    (locking codec).wp (lockFile codec p id lockBytes) .calm fun s r => ∀ g, r.1 = some g → s = .holds g.data := by
  refine wp_ask trivial fun x => ?_
  cases x with
  | some err => simp
  | none =>
    refine wp_ask (.inl rfl) fun x => ?_
    cases x with
    | error err => exact wp_close (by simp)
    | ok fileBytes =>
      by_cases hnil : fileBytes = []
      · subst hnil
        exact wp_writeLock h
      · simp only [if_neg hnil]
        by_cases hheld : (codec.existing fileBytes).isSome
        · rw [if_pos hheld]
          exact wp_close (by simp)
        · rw [if_neg hheld]
          have hsaw : Phase.next codec .opened .readAll (.ok fileBytes) = .saw fileBytes := if_neg hheld
          refine wp_ask (.inl ⟨fileBytes, hsaw⟩) fun x => ?_
          cases x with
          | some errT => exact wp_close (by simp)
          | none =>
            have hempty : (Phase.next codec .opened .readAll (.ok fileBytes)).next codec .truncate none = .saw [] := by
              rw [hsaw]
              rfl
            show (locking codec).wp _ ((Phase.next codec .opened .readAll (.ok fileBytes)).next codec .truncate none) _
            rw [hempty]
            exact wp_writeLock h

/-- An `Acquire` that returns a guard has written what the guard holds. -/
theorem wp_acquire (id : String) :
    (locking codec).wp (acquire codec p id) .calm fun s r => ∀ g, r.1 = some g → s = .holds g.data := by
  refine wp_ask trivial fun x => ?_
  cases x with
  | some err => simp
  | none =>
    refine wp_ask trivial fun timestamp => ?_
    cases hjson : codec.toJSON ⟨id, timestamp⟩ with
    | error err => simp
    | ok b => exact wp_lockFile (codec.existing_lockBytes hjson)

/-- A `Release` changes nothing but what is its own. -/
theorem wp_release (g : FSContentLockGuard) :
    (locking codec).wp (release g) (.holds g.data) fun _ _ => True := by
  refine wp_ask trivial fun x => ?_
  cases x with
  | some errO => trivial
  | none =>
    refine wp_ask (.inr ⟨_, rfl⟩) fun x => ?_
    cases x with
    | error errR => exact wp_close trivial
    | ok fileBytes =>
      by_cases hsame : fileBytes ≠ g.data
      · simp only [if_pos hsame]
        exact wp_close trivial
      · simp only [if_neg hsame]
        refine wp_ask (.inr (.inr ⟨_, rfl⟩)) fun x => ?_
        cases x with
        | some errT => exact wp_close trivial
        | none =>
          refine wp_ask trivial fun x => ?_
          cases x <;> trivial

end Programs

end Phases

/-! ## What holds of them together -/

/-- A lock that is left in the file is what the file holds, and only one holder left it. -/
structure Kept (codec : Codec) (file : Bytes) (ph : ι → Phase) : Prop where
  file_eq : ∀ i data, (ph i).left = some data → (codec.existing data).isSome → file = data
  unique : ∀ i j data data', (ph i).left = some data → (codec.existing data).isSome →
    (ph j).left = some data' → (codec.existing data').isSome → i = j

namespace Kept

variable {codec : Codec} {file : Bytes} {ph : ι → Phase} {i : ι} {s : Phase}

/-- One that leaves there what it left before. -/
theorem update_of_left (h : Kept codec file ph) (hs : s.left = none ∨ s.left = (ph i).left) :
    Kept codec file (Function.update ph i s) := by
  have hleft : ∀ j data, (Function.update ph i s j).left = some data → (ph j).left = some data := by
    intro j data hj
    by_cases hji : j = i
    · subst hji
      rw [Function.update_self] at hj
      rcases hs with hs | hs
      · rw [hs] at hj
        cases hj
      · rwa [hs] at hj
    · rwa [Function.update_of_ne hji] at hj
  exact ⟨fun j data hj => h.file_eq j data (hleft j data hj),
    fun j k data data' hj hd hk hd' => h.unique j k data data' (hleft j data hj) hd (hleft k data' hk) hd'⟩

/-- One that changes the file where no other has left a lock. -/
theorem update_of_alone {file' : Bytes} (halone : ∀ j, j ≠ i → ∀ data, (ph j).left = some data →
      ¬ (codec.existing data).isSome) (hs : ∀ data, s.left = some data → file' = data) :
    Kept codec file' (Function.update ph i s) := by
  have hself : ∀ j data, (Function.update ph i s j).left = some data → (codec.existing data).isSome →
      j = i ∧ s.left = some data := by
    intro j data hj hdata
    by_cases hji : j = i
    · subst hji
      rw [Function.update_self] at hj
      exact ⟨rfl, hj⟩
    · rw [Function.update_of_ne hji] at hj
      exact absurd hdata (halone j hji data hj)
  refine ⟨fun j data hj hdata => hs data (hself j data hj hdata).2, fun j k data data' hj hdata hk hdata' => ?_⟩
  rw [(hself j data hj hdata).1, (hself k data' hk hdata').1]

omit [DecidableEq ι] in
theorem alone_of_file (h : Kept codec file ph) (hfile : ¬ (codec.existing file).isSome) (j : ι) (data : Bytes)
    (hj : (ph j).left = some data) : ¬ (codec.existing data).isSome := by
  intro hdata
  rw [h.file_eq j data hj hdata] at hfile
  exact hfile hdata

omit [DecidableEq ι] in
/-- The one whose own text the file holds is alone, whatever the text is. -/
theorem alone_of_left (h : Kept codec file ph) (hi : (ph i).left = some file) (j : ι) (hj : j ≠ i) (data : Bytes)
    (hleft : (ph j).left = some data) : ¬ (codec.existing data).isSome := by
  by_cases hfile : (codec.existing file).isSome
  · intro hdata
    exact hj (h.unique j i data file hleft hdata hi hfile)
  · exact h.alone_of_file hfile j data hleft

/-- **One operation.** A holder changes the file only as it found or left it. -/
theorem answer {r : LockReq} {x : r.Resp} {file' : Bytes} (h : Kept codec file ph) (hi : (ph i).Sensible codec)
    (hmust : (ph i).must codec r) (hanswer : Answers file r x file')
    (hfound : ∀ found, ph i = .saw found ∨ ph i = .failed found → r.changes → found = file) :
    Kept codec file' (Function.update ph i ((ph i).next codec r x)) := by
  cases hanswer with
  | ctxErr | now | openFile | readAll | readFailed | sync | close =>
    exact h.update_of_left (Phase.left_next (.inl id))
  | @truncateFailed err => exact h.update_of_left (Phase.left_next (.inr ⟨err, rfl⟩))
  | truncate =>
    rcases hmust with ⟨found, hs⟩ | ⟨found, hs⟩ | ⟨data, hs⟩
    · rw [hs] at hi ⊢
      rw [hfound found (.inl hs) trivial] at hi
      refine update_of_alone (fun j _ => h.alone_of_file hi j) ?_
      simp [Phase.next, Phase.left]
    · have hleft : (ph i).left = some file := by rw [hs, ← hfound found (.inr hs) trivial, Phase.left]
      rw [hs]
      refine update_of_alone (h.alone_of_left hleft) ?_
      simp [Phase.next, Phase.left]
    · have hleft : (ph i).left = some data := by rw [hs, Phase.left]
      rw [hs] at hi ⊢
      obtain rfl : file = data := h.file_eq i data hleft hi
      refine update_of_alone (h.alone_of_left hleft) ?_
      simp [Phase.next, Phase.left]
  | writeAt | writeFailed =>
    obtain ⟨hs, -⟩ := hmust
    obtain rfl : [] = file := hfound [] (.inl hs) trivial
    rw [hs] at hi ⊢
    refine update_of_alone (fun j _ => h.alone_of_file hi j) ?_
    simp [Phase.next, Phase.left, overwrite]

end Kept

/-! ## Every run -/

/-- A `Release` has its lock in the file until it empties it. -/
def Phase.Releases (g : FSContentLockGuard) (done : Trace lockSig) : Phase → Prop
  | .holds data => data = g.data ∧ ∀ e ∈ done, ¬ Emptied e
  | .released => ∃ e ∈ done, Emptied e
  | _ => False

/-- What a holder is in, by how far it is. -/
def Fits (codec : Codec) (s : Phase) : Holder → Prop
  | .idle => s = .calm
  | .acquiring program done => s.Knows done ∧
      (locking codec).wp program s fun s r => ∀ g, r.1 = some g → s = .holds g.data
  | .holding g => s = .holds g.data
  | .releasing g program done => s.Releases g done ∧ (locking codec).wp program s fun _ _ => True

/-- The invariant of the holders and their file. -/
def Orderly (codec : Codec) (w : World ι) : Prop :=
  ∃ ph : ι → Phase, Kept codec w.file ph ∧ (∀ i, (ph i).Sensible codec) ∧ ∀ i, Fits codec (ph i) (w.holders i)

section Run

variable {codec : Codec} {p : String} {w w' : World ι} {ph : ι → Phase} {i : ι} {s : Phase} {h : Holder}

/-- One holder moves, and the others are where they were. -/
theorem orderly_update {file : Bytes} (hkept : Kept codec file (Function.update ph i s))
    (hsensible : ∀ j, (ph j).Sensible codec) (hfits : ∀ j, Fits codec (ph j) (w.holders j)) (hs : s.Sensible codec)
    (hi : Fits codec s h) : Orderly codec ⟨file, Function.update w.holders i h⟩ := by
  refine ⟨Function.update ph i s, hkept, ?_, fun j => ?_⟩
  · exact (Function.forall_update_iff ph fun _ t => t.Sensible codec).2 ⟨hs, fun j _ => hsensible j⟩
  · by_cases hj : j = i
    · subst hj
      simpa using hi
    · simpa [hj] using hfits j

theorem Phase.Releases.next {g : FSContentLockGuard} {done : Trace lockSig} {r : LockReq} {x : r.Resp}
    (h : s.Releases g done) : (s.next codec r x).Releases g (done ++ [⟨r, x⟩]) := by
  cases s with
  | calm | opened | saw | wrote | failed => exact h.elim
  | released =>
    obtain ⟨e, he, hemptied⟩ := h
    exact ⟨e, by simp [he], hemptied⟩
  | holds data =>
    have hkeep : ¬ Emptied ⟨r, x⟩ → (Phase.holds data).Releases g (done ++ [⟨r, x⟩]) :=
      fun he => ⟨h.1, List.forall_mem_append.2 ⟨h.2, by simpa using he⟩⟩
    cases r with
    | truncate =>
      cases x with
      | none => exact ⟨_, by simp, rfl⟩
      | some err => exact hkeep (by simp [Emptied])
    | ctxErr | now | openFile | readAll | writeAt | sync | close => exact hkeep (by simp [Emptied])

/-- As long as the file was not emptied, the lock is there. -/
theorem Phase.Releases.holds {g : FSContentLockGuard} {done : Trace lockSig} (h : s.Releases g done)
    (hdone : ∀ e ∈ done, ¬ Emptied e) : s = .holds g.data := by
  cases s with
  | calm | opened | saw | wrote | failed => exact h.elim
  | released =>
    obtain ⟨e, he, hemptied⟩ := h
    exact absurd hemptied (hdone e he)
  | holds data => rw [h.1]

theorem Orderly.idle (hw : Orderly codec w) : Orderly codec (w.set i .idle) := by
  obtain ⟨ph, hkept, hsensible, hfits⟩ := hw
  exact orderly_update (s := .calm) (hkept.update_of_left (.inl rfl)) hsensible hfits trivial rfl

/-- A call that ends with the lock in the file leaves the holder with its guard. -/
theorem orderly_holding {g : FSContentLockGuard} (hkept : Kept codec w.file ph) (hsensible : ∀ j, (ph j).Sensible codec)
    (hfits : ∀ j, Fits codec (ph j) (w.holders j)) (hholds : ph i = .holds g.data) :
    Orderly codec (w.set i (.holding g)) := by
  have hdata := hsensible i
  rw [hholds] at hdata
  exact orderly_update (hkept.update_of_left (.inr (by rw [hholds]))) hsensible hfits hdata rfl

theorem Orderly.step (h : Step codec p quiet w w') (hw : Orderly codec w) : Orderly codec w' := by
  obtain ⟨ph, hkept, hsensible, hfits⟩ := id hw
  cases h with
  | @acquire i id =>
    refine orderly_update (s := .calm) (hkept.update_of_left (.inl rfl)) hsensible hfits trivial ?_
    exact ⟨trivial, wp_acquire id⟩
  | @acquireOp i r k done x file hi hquiet hanswer =>
    have hacquiring := hfits i
    rw [hi] at hacquiring
    obtain ⟨hknows, hwp⟩ := hacquiring
    have hfound : ∀ found, ph i = .saw found ∨ ph i = .failed found → r.changes → found = w.file := by
      intro found hs hr
      have hknown := hquiet hr
      rcases hs with hs | hs
      all_goals
        rw [hs] at hknows
        rw [show done.foldl known none = some found from hknows] at hknown
        exact Option.some.inj hknown
    exact orderly_update (hkept.answer (hsensible i) hwp.1 hanswer hfound) hsensible hfits
      ((hsensible i).next hwp.1) ⟨hknows.next hwp.1, hwp.2 x trivial⟩
  | @acquired i g err done hi =>
    have hacquiring := hfits i
    rw [hi] at hacquiring
    have hholds : ph i = .holds g.data := hacquiring.2 g rfl
    exact orderly_holding hkept hsensible hfits hholds
  | notAcquired => exact hw.idle
  | @release i g hi =>
    have hholding := hfits i
    rw [hi] at hholding
    have hdata := hsensible i
    rw [show ph i = .holds g.data from hholding] at hdata
    refine orderly_update (s := .holds g.data) (hkept.update_of_left (.inr ?_)) hsensible hfits hdata ?_
    · rw [show ph i = .holds g.data from hholding]
    · exact ⟨⟨rfl, by simp⟩, wp_release g⟩
  | @releaseOp i g r k done x file hi hanswer =>
    have hreleasing := hfits i
    rw [hi] at hreleasing
    obtain ⟨hafter, hwp⟩ := hreleasing
    have hfound : ∀ found, ph i = .saw found ∨ ph i = .failed found → r.changes → found = w.file := by
      intro found hs _
      rcases hs with hs | hs
      all_goals
        rw [hs] at hafter
        exact hafter.elim
    exact orderly_update (hkept.answer (hsensible i) hwp.1 hanswer hfound) hsensible hfits
      ((hsensible i).next hwp.1) ⟨hafter.next, hwp.2 x trivial⟩
  | released => exact hw.idle
  | @notReleased i g err done hi hkeeps =>
    have hreleasing := hfits i
    rw [hi] at hreleasing
    have hholds : ph i = .holds g.data := hreleasing.1.holds hkeeps
    exact orderly_holding hkept hsensible hfits hholds
  | killed => exact hw.idle

theorem orderly_run {w₀ : World ι} (hidle : ∀ i, w₀.holders i = .idle)
    (hrun : ReflTransGen (Step codec p quiet) w₀ w) : Orderly codec w := by
  induction hrun with
  | refl =>
    refine ⟨fun _ => .calm, ⟨by simp [Phase.left], by simp [Phase.left]⟩, fun _ => trivial, fun i => ?_⟩
    rw [hidle i]
    rfl
  | tail _ hstep ih => exact ih.step hstep

/-- One whose guard is out has its lock in the file. -/
theorem Fits.holds (hs : Fits codec s h) (hout : h.GuardOut) : ∃ g : FSContentLockGuard, s = .holds g.data := by
  cases h with
  | idle | acquiring => exact hout.elim
  | holding g => exact ⟨g, hs⟩
  | releasing g program done => exact ⟨g, hs.1.holds hout⟩

/-- **Without interference the lock excludes.** Where every change an `Acquire`
makes finds the file as that `Acquire` read or left it, there are never two
guards out. -/
theorem quiet_holders_exclude (codec : Codec) (p : String) (w₀ w : World ι) (hidle : ∀ i, w₀.holders i = .idle)
    (hrun : ReflTransGen (Step codec p quiet) w₀ w) (i j : ι) (hi : (w.holders i).GuardOut)
    (hj : (w.holders j).GuardOut) : i = j := by
  obtain ⟨ph, hkept, hsensible, hfits⟩ := orderly_run hidle hrun
  have hholds : ∀ k, (w.holders k).GuardOut → ∃ data, (ph k).left = some data ∧ (codec.existing data).isSome := by
    intro k hk
    obtain ⟨g, hg⟩ := (hfits k).holds hk
    have hdata := hsensible k
    rw [hg] at hdata ⊢
    exact ⟨g.data, rfl, hdata⟩
  obtain ⟨data, hleft, hdata⟩ := hholds i hi
  obtain ⟨data', hleft', hdata'⟩ := hholds j hj
  exact hkept.unique i j data data' hleft hdata hleft' hdata'

end Run

/-! ## Two holders at once -/

section Schedules

/-- Every operation works. -/
def works (file : Bytes) : (r : LockReq) → r.Resp × Bytes
  | .ctxErr => (none, file)
  | .now => (0, file)
  | .openFile _ => (none, file)
  | .readAll => (.ok file, file)
  | .truncate => (none, [])
  | .writeAt data => (none, overwrite data file)
  | .sync => (none, file)
  | .close => (none, file)

theorem works_answers (file : Bytes) (r : LockReq) : Answers file r (works file r).1 (works file r).2 := by
  cases r with
  | ctxErr => exact .ctxErr
  | now => exact .now
  | openFile => exact .openFile
  | readAll => exact .readAll
  | truncate => exact .truncate
  | writeAt => exact .writeAt
  | sync => exact .sync
  | close => exact .close

variable (codec : Codec) (p : String) (ok : Trace lockSig → Bytes → LockReq → Bool)

/-- A holder calls `Acquire`, or goes on with it where `ok` says so. -/
def World.advance (w : World ι) (move : ι × Option String) : Option (World ι) :=
  match w.holders move.1, move.2 with
  | .idle, some id => some (w.set move.1 (.acquiring (acquire codec p id) []))
  | .acquiring (.call r k) done, none =>
    if ok done w.file r then
      some ⟨(works w.file r).2,
        Function.update w.holders move.1 (.acquiring (k (works w.file r).1) (done ++ [⟨r, (works w.file r).1⟩]))⟩
    else none
  | .acquiring (.ret (some g, _)) _, none => some (w.set move.1 (.holding g))
  | _, _ => none

variable {codec p ok} {may : Trace lockSig → Bytes → LockReq → Prop}

theorem World.advance_step (hok : ∀ done file r, ok done file r = true → may done file r) {w w' : World ι}
    {move : ι × Option String} (h : w.advance codec p ok move = some w') : Step codec p may w w' := by
  unfold World.advance at h
  split at h
  next id hidle _ =>
    cases h
    exact .acquire id hidle
  next r k done hcall _ =>
    split at h
    next hmay =>
      cases h
      exact .acquireOp hcall (hok _ _ _ hmay) (works_answers w.file r)
    next => cases h
  next g err done hret _ =>
    cases h
    exact .acquired hret
  next => cases h

theorem World.advance_run (hok : ∀ done file r, ok done file r = true → may done file r) {w : World ι} :
    ∀ (moves : List (ι × Option String)) {w₀ : World ι},
      moves.foldlM (World.advance codec p ok) w₀ = some w → ReflTransGen (Step codec p may) w₀ w
  | [], w₀, h => by
    cases h
    exact .refl
  | move :: moves, w₀, h => by
    rw [List.foldlM_cons] at h
    obtain ⟨w₁, hmove, hrest⟩ := Option.bind_eq_some_iff.1 h
    exact .head (advance_step hok hmove) (advance_run hok moves hrest)

end Schedules

instance : DecidablePred LockReq.changes
  | .truncate | .writeAt _ => .isTrue trivial
  | .ctxErr | .now | .openFile _ | .readAll | .sync | .close => .isFalse id

instance {done : Trace lockSig} {file : Bytes} {r : LockReq} : Decidable (quiet done file r) :=
  inferInstanceAs (Decidable (r.changes → done.foldl known none = some file))

def lockInfo : Serial LockInfo :=
  (Serial.string.pair Serial.int).via (fun r => ⟨r.1, r.2⟩) (fun info => (info.holder, info.timestamp)) fun _ => rfl

/-- With the content itself for its hash. -/
def plainCodec : Codec where
  sha256 := id
  toJSON info := .ok ((lockInfo.write info).map fun c : Fin 11 => UInt8.ofNat (48 + c))
  unmarshal b := (lockInfo.read (b.map fun c => Serial.digit c.toNat)).elim (.error "not a lock") fun r => .ok r.1
  reads info b h := by
    cases h
    rw [lockInfo.read_encoded (by decide)]
    rfl

/-- The operations of an `Acquire` up to its read, and those behind it with its return. -/
def half {ι : Type} (i : ι) : List (ι × Option String) := List.replicate 4 (i, none)

theorem lone_guard_out : ∃ w : World Bool, (w.holders true).GuardOut ∧ ∀ j, (w.holders j).GuardOut → true = j := by
  have hrun := @World.advance_run Bool _ plainCodec "/lock" (fun done file r => decide (quiet done file r)) quiet
    (fun _ _ _ h => of_decide_eq_true h) _ ((true, some "1") :: half true ++ half true) ⟨[], fun _ => .idle⟩ rfl
  refine ⟨_, ?_, fun j => quiet_holders_exclude plainCodec "/lock" _ _ (fun _ => rfl) hrun true j ?_⟩
  · exact trivial
  · exact trivial

/-- Both read the empty file, and then both write it. -/
theorem two_guards_out : ∃ (w : World Bool) (g g' : FSContentLockGuard),
    ReflTransGen (Step plainCodec "/lock" anyTime) ⟨[], fun _ => .idle⟩ w ∧
    w.holders true = .holding g ∧ g.id = "1" ∧ w.holders false = .holding g' ∧ g'.id = "2" := by
  have hrun := @World.advance_run Bool _ plainCodec "/lock" (fun _ _ _ => true) anyTime (fun _ _ _ _ => trivial) _
    ([(true, some "1"), (false, some "2")] ++ half true ++ half false ++ half true ++ half false)
    ⟨[], fun _ => .idle⟩ rfl
  exact ⟨_, _, _, hrun, rfl, rfl, rfl, rfl⟩

end Etcdadm.ContentLock
