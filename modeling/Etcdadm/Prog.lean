/-
Programs that talk to an environment they do not control.

A program is a tree: it returns, it stops for good (a nil dereference, a
fatal log line, a killed process), or it makes a request and continues with
whatever the environment answers. Everything a run can do is in the tree, so
one definition of a procedure serves every reading of it: a single execution,
a prefix cut by a crash at any request, or one party among many whose
requests interleave.
-/
import Mathlib

namespace Etcdadm

/-- An interface: the requests a program may make and, for each, the type of
its answers. -/
structure Sig where
  Req : Type
  Resp : Req → Type

/-- A program over an interface. `crash` is the end of the process that runs
it: nothing after it happens. -/
inductive Prog (S : Sig) (α : Type) where
  | ret (a : α)
  | call (r : S.Req) (k : S.Resp r → Prog S α)
  | crash (why : String)

namespace Prog

variable {S : Sig} {α β γ : Type}

protected def bind : Prog S α → (α → Prog S β) → Prog S β
  | .ret a, f => f a
  | .call r k, f => .call r fun x => (k x).bind f
  | .crash e, _ => .crash e

instance : Monad (Prog S) where
  pure := .ret
  bind := Prog.bind

@[simp] theorem pure_eq (a : α) : (pure a : Prog S α) = .ret a := rfl

@[simp] theorem ret_bind (a : α) (f : α → Prog S β) : (Prog.ret a >>= f) = f a := rfl

@[simp] theorem call_bind (r : S.Req) (k : S.Resp r → Prog S α) (f : α → Prog S β) :
    (Prog.call r k >>= f) = .call r fun x => k x >>= f := rfl

@[simp] theorem crash_bind (e : String) (f : α → Prog S β) :
    (Prog.crash e >>= f : Prog S β) = .crash e := rfl

theorem bind_ret : ∀ p : Prog S α, (p >>= Prog.ret) = p
  | .ret _ => rfl
  | .crash _ => rfl
  | .call r k => by
    rw [call_bind]
    congr 1
    funext x
    exact bind_ret (k x)

theorem bind_assoc : ∀ (p : Prog S α) (f : α → Prog S β) (g : β → Prog S γ),
    (p >>= f >>= g) = p >>= fun a => f a >>= g
  | .ret _, _, _ => rfl
  | .crash _, _, _ => rfl
  | .call r k, f, g => by
    simp only [call_bind]
    congr 1
    funext x
    exact bind_assoc (k x) f g

instance : LawfulMonad (Prog S) :=
  LawfulMonad.mk' (Prog S) (fun p => bind_ret p) (fun _ _ => rfl) bind_assoc

/-- Why the process that runs it is dead. -/
def died : Prog S α → Option String
  | .crash e => some e
  | _ => none

/-- Every request `p` can come to is one of those allowed, and it crashes only
if it may. -/
def Uses (allowed : S.Req → Prop) (dies : Prop) : Prog S α → Prop
  | .ret _ => True
  | .call r k => allowed r ∧ ∀ x, (k x).Uses allowed dies
  | .crash _ => dies

namespace Uses

variable {allowed allowed' : S.Req → Prop} {dies : Prop}

theorem bind {f : α → Prog S β} : ∀ {p : Prog S α}, p.Uses allowed dies → (∀ a, (f a).Uses allowed dies) →
    (p >>= f).Uses allowed dies
  | .ret a, _, hf => hf a
  | .crash _, hp, _ => hp
  | .call _ _, hp, hf => ⟨hp.1, fun x => bind (hp.2 x) hf⟩

theorem mono (h : ∀ r, allowed r → allowed' r) : ∀ {p : Prog S α}, p.Uses allowed dies → p.Uses allowed' dies
  | .ret _, _ => trivial
  | .crash _, hp => hp
  | .call r _, hp => ⟨h r hp.1, fun x => mono h (hp.2 x)⟩

theorem trivially (h : ∀ r, allowed r) : ∀ p : Prog S α, p.Uses allowed True
  | .ret _ => trivial
  | .crash _ => trivial
  | .call r k => ⟨h r, fun x => trivially h (k x)⟩

end Uses

/-- Whatever it is answered, `p` returns only what satisfies `R`. -/
def Returns (R : α → Prop) : Prog S α → Prop
  | .ret a => R a
  | .call _ k => ∀ x, (k x).Returns R
  | .crash _ => True

namespace Returns

variable {R : α → Prop} {R' : β → Prop}

theorem bind {f : α → Prog S β} : ∀ {p : Prog S α}, p.Returns R → (∀ a, R a → (f a).Returns R') →
    (p >>= f).Returns R'
  | .ret a, hp, hf => hf a hp
  | .crash _, _, _ => trivial
  | .call _ _, hp, hf => fun x => bind (hp x) hf

theorem mono {R' : α → Prop} (h : ∀ a, R a → R' a) : ∀ {p : Prog S α}, p.Returns R → p.Returns R'
  | .ret _, hp => h _ hp
  | .crash _, _ => trivial
  | .call _ _, hp => fun x => mono h (hp x)

theorem trivially : ∀ p : Prog S α, p.Returns fun _ => True
  | .ret _ => trivial
  | .crash _ => trivial
  | .call _ k => fun x => trivially (k x)

end Returns

/-- What a program goes on with uses what it uses for the results there are. -/
theorem Uses.bind_of_returns {allowed : S.Req → Prop} {dies : Prop} {R : α → Prop} {f : α → Prog S β} :
    ∀ {p : Prog S α}, p.Uses allowed dies → p.Returns R → (∀ a, R a → (f a).Uses allowed dies) →
      (p >>= f).Uses allowed dies
  | .ret a, _, hr, hf => hf a hr
  | .crash _, hp, _, _ => hp
  | .call _ _, hp, hr, hf => ⟨hp.1, fun x => bind_of_returns (hp.2 x) (hr x) hf⟩

end Prog

/-! ## Traces -/

/-- A request together with its answer. -/
structure Event (S : Sig) where
  req : S.Req
  resp : S.Resp req

/-- What a program did, oldest event first. -/
abbrev Trace (S : Sig) := List (Event S)

/-- `p` makes exactly the exchanges of the trace and is then at `p'`. A run
that ended has `p' = ret a`; any other `p'` is a prefix of a run, which is
also what is left of a run cut at that point. -/
inductive Runs {S : Sig} {α : Type} : Prog S α → Trace S → Prog S α → Prop
  | refl : Runs p [] p
  | step {r : S.Req} {k : S.Resp r → Prog S α} {x : S.Resp r} :
      Runs (k x) tr p' → Runs (.call r k) (⟨r, x⟩ :: tr) p'

namespace Runs

variable {S : Sig} {α β : Type}

theorem trans {p p' p'' : Prog S α} {tr tr' : Trace S} (h : Runs p tr p') (h' : Runs p' tr' p'') :
    Runs p (tr ++ tr') p'' := by
  induction h with
  | refl => exact h'
  | step _ ih => exact .step (ih h')

theorem bind {p p' : Prog S α} {tr : Trace S} (h : Runs p tr p') (f : α → Prog S β) :
    Runs (p >>= f) tr (p' >>= f) := by
  induction h with
  | refl => exact .refl
  | step _ ih => exact .step ih

/-- A run to the end, and the rest from there. -/
theorem andThen {p : Prog S α} {f : α → Prog S β} {p' : Prog S β} {tr tr' : Trace S} {a : α} (h : Runs p tr (.ret a))
    (h' : Runs (f a) tr' p') : Runs (p >>= f) (tr ++ tr') p' := (h.bind f).trans h'

/-- A run to the end of two programs is one of the first and one of the second. -/
theorem of_bind {f : α → Prog S β} {b : β} : ∀ {p : Prog S α} {tr : Trace S}, Runs (p >>= f) tr (.ret b) →
    ∃ tr₁ tr₂ a, tr = tr₁ ++ tr₂ ∧ Runs p tr₁ (.ret a) ∧ Runs (f a) tr₂ (.ret b)
  | .ret a, tr, h => ⟨[], tr, a, rfl, .refl, h⟩
  | .crash _, _, h => by cases h
  | .call r k, tr, h => by
    cases h with
    | step h =>
      obtain ⟨tr₁, tr₂, a, rfl, hfirst, hrest⟩ := of_bind h
      exact ⟨_ :: tr₁, tr₂, a, rfl, .step hfirst, hrest⟩

theorem call_iff {r : S.Req} {k : S.Resp r → Prog S α} {x : S.Resp r} {tr : Trace S} {p' : Prog S α} :
    Runs (.call r k) (⟨r, x⟩ :: tr) p' ↔ Runs (k x) tr p' := by
  constructor
  · intro h
    cases h with
    | step h => exact h
  · exact .step

/-- The requests of a run are those its program can come to. -/
theorem uses {allowed : S.Req → Prop} {dies : Prop} {p p' : Prog S α} {tr : Trace S} (h : Runs p tr p') :
    p.Uses allowed dies → (∀ e ∈ tr, allowed e.req) ∧ p'.Uses allowed dies := by
  induction h with
  | refl => exact fun hp => ⟨by simp, hp⟩
  | step _ ih =>
    intro hp
    obtain ⟨htr, hp'⟩ := ih (hp.2 _)
    exact ⟨List.forall_mem_cons.2 ⟨hp.1, htr⟩, hp'⟩

theorem returns {R : α → Prop} {p : Prog S α} {a : α} {tr : Trace S} (h : Runs p tr (.ret a)) (hp : p.Returns R) :
    R a := by
  generalize hp' : Prog.ret a = p' at h
  induction h with
  | refl =>
    subst hp'
    exact hp
  | step _ ih => exact ih (hp _) hp'

end Runs

/-- The run in which each request is answered as `o` says, up to the first
that it leaves open. -/
def Prog.follow {S : Sig} {α : Type} (o : (r : S.Req) → Option (S.Resp r)) : Prog S α → Trace S × Prog S α
  | .ret a => ([], .ret a)
  | .crash e => ([], .crash e)
  | .call r k =>
    match o r with
    | none => ([], .call r k)
    | some x => (⟨r, x⟩ :: ((k x).follow o).1, ((k x).follow o).2)

theorem Prog.follow_runs {S : Sig} {α : Type} {o : (r : S.Req) → Option (S.Resp r)} : ∀ {p : Prog S α},
    Runs p (p.follow o).1 (p.follow o).2
  | .ret _ => .refl
  | .crash _ => .refl
  | .call r k => by
    unfold Prog.follow
    split
    · exact .refl
    · exact .step follow_runs

/-- The program with each request carried out by a program of its own. -/
def Prog.handle {S T : Sig} {α : Type} (h : (r : S.Req) → Prog T (S.Resp r)) : Prog S α → Prog T α
  | .ret a => .ret a
  | .call r k => h r >>= fun x => (k x).handle h
  | .crash e => .crash e

/-! ## Runs over something that answers -/

/-- A run to the end over something that answers and may change by it: what is
returned, and what that has become. -/
inductive Prog.Does {S : Sig} {α G : Type} (answers : G → (r : S.Req) → S.Resp r → G → Prop) :
    G → Prog S α → α → G → Prop
  | ret {g : G} {a : α} : Does answers g (.ret a) a g
  | call {g g' g'' : G} {r : S.Req} {k : S.Resp r → Prog S α} {x : S.Resp r} {a : α} :
      answers g r x g' → Does answers g' (k x) a g'' → Does answers g (.call r k) a g''

namespace Prog

variable {S : Sig} {α β G : Type} {answers : G → (r : S.Req) → S.Resp r → G → Prop} {g g' : G} {b : β}

@[simp] theorem does_ret {a : β} : Does answers g (.ret a) b g' ↔ b = a ∧ g' = g := by
  constructor
  · intro h
    cases h
    exact ⟨rfl, rfl⟩
  · rintro ⟨rfl, rfl⟩
    exact .ret

theorem does_call {r : S.Req} {k : S.Resp r → Prog S β} :
    Does answers g (.call r k) b g' ↔ ∃ x g₁, answers g r x g₁ ∧ Does answers g₁ (k x) b g' := by
  constructor
  · intro h
    cases h with
    | call hanswer hrest => exact ⟨_, _, hanswer, hrest⟩
  · intro ⟨x, g₁, hanswer, hrest⟩
    exact .call hanswer hrest

@[simp] theorem does_crash {e : String} : Does answers g (.crash e) b g' ↔ False := by
  constructor
  · intro h
    cases h
  · exact False.elim

theorem does_bind {f : α → Prog S β} : ∀ {p : Prog S α} {g : G},
    Does answers g (p >>= f) b g' ↔ ∃ a g₁, Does answers g p a g₁ ∧ Does answers g₁ (f a) b g'
  | .ret a, g => by simp
  | .crash e, g => by simp
  | .call r k, g => by
    simp only [call_bind, does_call, does_bind]
    constructor
    · intro ⟨x, g₁, hanswer, a, g₂, hp, hf⟩
      exact ⟨a, g₂, ⟨x, g₁, hanswer, hp⟩, hf⟩
    · intro ⟨a, g₂, ⟨x, g₁, hanswer, hp⟩, hf⟩
      exact ⟨x, g₁, hanswer, a, g₂, hp, hf⟩

/-- As far as a run has come, which may be as far as it ever comes. -/
inductive Goes (answers : G → (r : S.Req) → S.Resp r → G → Prop) : G → Prog S α → Prog S α → G → Prop
  | refl {g : G} {p : Prog S α} : Goes answers g p p g
  | call {g g' g'' : G} {r : S.Req} {k : S.Resp r → Prog S α} {x : S.Resp r} {p : Prog S α} :
      answers g r x g' → Goes answers g' (k x) p g'' → Goes answers g (.call r k) p g''

theorem Goes.trans {p p' p'' : Prog S α} {g'' : G} (h : Goes answers g p p' g') (h' : Goes answers g' p' p'' g'') :
    Goes answers g p p'' g'' := by
  induction h with
  | refl => exact h'
  | call hanswer _ ih => exact .call hanswer (ih h')

theorem Goes.bind (f : α → Prog S β) {p p' : Prog S α} (h : Goes answers g p p' g') :
    Goes answers g (p >>= f) (p' >>= f) g' := by
  induction h with
  | refl => exact .refl
  | call hanswer _ ih => exact .call hanswer ih

/-- A run of a sequence is cut in its first part, or goes on with what that returned. -/
theorem Goes.of_bind {f : α → Prog S β} {p : Prog S α} {r : S.Req} {k : S.Resp r → Prog S β}
    (h : Goes answers g (p >>= f) (.call r k) g') : (∃ k', Goes answers g p (.call r k') g') ∨
      ∃ a g₁, Goes answers g p (.ret a) g₁ ∧ Goes answers g₁ (f a) (.call r k) g' := by
  induction p generalizing g with
  | ret a => exact .inr ⟨a, g, .refl, h⟩
  | crash e => cases h
  | call r' k' ih =>
    cases h with
    | refl => exact .inl ⟨k', .refl⟩
    | call hanswer hrest =>
      rcases ih _ hrest with ⟨k'', hgoes⟩ | ⟨a, g₁, hgoes, hrest⟩
      · exact .inl ⟨k'', .call hanswer hgoes⟩
      · exact .inr ⟨a, g₁, .call hanswer hgoes, hrest⟩

theorem Goes.mono {answers' : G → (r : S.Req) → S.Resp r → G → Prop} (h : ∀ g r x g', answers g r x g' → answers' g r x g')
    {p p' : Prog S α} (hp : Goes answers g p p' g') : Goes answers' g p p' g' := by
  induction hp with
  | refl => exact .refl
  | call hanswer _ ih => exact .call (h _ _ _ _ hanswer) ih

/-- Whatever the answers are, `I` holds after each of them, and `Q` in the end. -/
def Always (answers : G → (r : S.Req) → S.Resp r → G → Prop) (I : G → Prop) (Q : G → α → Prop) : Prog S α → G → Prop
  | .ret a, g => Q g a
  | .crash _, _ => True
  | .call r k, g => ∀ x g', answers g r x g' → I g' ∧ (k x).Always answers I Q g'

theorem Does.mono {answers' : G → (r : S.Req) → S.Resp r → G → Prop} (h : ∀ g r x g', answers g r x g' → answers' g r x g')
    {p : Prog S β} (hp : Does answers g p b g') : Does answers' g p b g' := by
  induction hp with
  | ret => exact .ret
  | call hanswer _ ih => exact .call (h _ _ _ _ hanswer) ih

/-- What the requests it makes keep, it keeps. -/
theorem Does.keeps {allowed : S.Req → Prop} {dies : Prop} {I : G → Prop} {p : Prog S β} (h : Does answers g p b g')
    (hp : p.Uses allowed dies) (hkeep : ∀ g r x g', allowed r → answers g r x g' → I g → I g') (hI : I g) : I g' := by
  induction h with
  | ret => exact hI
  | call hanswer _ ih => exact ih (hp.2 _) (hkeep _ _ _ _ hp.1 hanswer hI)

theorem Does.goes {p : Prog S β} (h : Does answers g p b g') : Goes answers g p (.ret b) g' := by
  induction h with
  | ret => exact .refl
  | call hanswer _ ih => exact .call hanswer ih

namespace Always

variable {I : G → Prop} {Q : G → β → Prop}

theorem bind {f : α → Prog S β} : ∀ {p : Prog S α} {g : G},
    p.Always answers I (fun g a => (f a).Always answers I Q g) g → (p >>= f).Always answers I Q g
  | .ret _, _, h => h
  | .crash _, _, _ => trivial
  | .call _ _, _, h => fun x g' hanswer => ⟨(h x g' hanswer).1, bind (h x g' hanswer).2⟩

theorem mono {Q' : G → β → Prop} (hQ : ∀ g b, Q g b → Q' g b) : ∀ {p : Prog S β} {g : G},
    p.Always answers I Q g → p.Always answers I Q' g
  | .ret _, _, h => hQ _ _ h
  | .crash _, _, _ => trivial
  | .call _ _, _, h => fun x g' hanswer => ⟨(h x g' hanswer).1, mono hQ (h x g' hanswer).2⟩

theorem weaken {I' : G → Prop} (hI : ∀ g, I g → I' g) : ∀ {p : Prog S β} {g : G},
    p.Always answers I Q g → p.Always answers I' Q g
  | .ret _, _, h => h
  | .crash _, _, _ => trivial
  | .call _ _, _, h => fun x g' hanswer => ⟨hI _ (h x g' hanswer).1, weaken hI (h x g' hanswer).2⟩

theorem and {I' : G → Prop} {Q' : G → β → Prop} : ∀ {p : Prog S β} {g : G}, p.Always answers I Q g → p.Always answers I' Q' g →
    p.Always answers (fun g => I g ∧ I' g) (fun g b => Q g b ∧ Q' g b) g
  | .ret _, _, h, h' => ⟨h, h'⟩
  | .crash _, _, _, _ => trivial
  | .call _ _, _, h, h' => fun x g' hanswer =>
    ⟨⟨(h x g' hanswer).1, (h' x g' hanswer).1⟩, and (h x g' hanswer).2 (h' x g' hanswer).2⟩

theorem and_returns {R : β → Prop} : ∀ {p : Prog S β} {g : G}, p.Always answers I Q g → p.Returns R →
    p.Always answers I (fun g b => Q g b ∧ R b) g
  | .ret _, _, h, hR => ⟨h, hR⟩
  | .crash _, _, _, _ => trivial
  | .call _ _, _, h, hR => fun x g' hanswer => ⟨(h x g' hanswer).1, and_returns (h x g' hanswer).2 (hR x)⟩

/-- Over something that answers the requests it makes in no other way. -/
theorem restrict {answers' : G → (r : S.Req) → S.Resp r → G → Prop} {allowed : S.Req → Prop} {dies : Prop}
    (h : ∀ g r x g', allowed r → answers' g r x g' → answers g r x g') : ∀ {p : Prog S β} {g : G},
    p.Uses allowed dies → p.Always answers I Q g → p.Always answers' I Q g
  | .ret _, _, _, hp => hp
  | .crash _, _, _, _ => trivial
  | .call _ _, _, huses, hp => fun x g' hanswer =>
    have hx := hp x g' (h _ _ _ _ huses.1 hanswer)
    ⟨hx.1, restrict h (huses.2 x) hx.2⟩

/-- Over something that answers nothing in another way. -/
theorem of_le {answers' : G → (r : S.Req) → S.Resp r → G → Prop} (h : ∀ g r x g', answers' g r x g' → answers g r x g')
    {p : Prog S β} (hp : p.Always answers I Q g) : p.Always answers' I Q g := by
  have huses : p.Uses (fun _ => True) True := .trivially (fun _ => trivial) p
  exact restrict (fun _ _ _ _ _ => h _ _ _ _) huses hp

/-- What the requests it makes keep holds all along. -/
theorem of_uses {allowed : S.Req → Prop} {dies : Prop} (hkeep : ∀ g r x g', allowed r → answers g r x g' → I g → I g') :
    ∀ {p : Prog S β} {g : G}, p.Uses allowed dies → I g → p.Always answers I (fun g _ => I g) g
  | .ret _, _, _, hI => hI
  | .crash _, _, _, _ => trivial
  | .call _ _, _, hp, hI => fun x _ hanswer =>
    ⟨hkeep _ _ _ _ hp.1 hanswer hI, of_uses hkeep (hp.2 x) (hkeep _ _ _ _ hp.1 hanswer hI)⟩

/-- **Wherever a run is cut, the invariant holds.** -/
theorem goes {p p' : Prog S β} (h : Goes answers g p p' g') (hp : p.Always answers I Q g) (hI : I g) :
    I g' ∧ p'.Always answers I Q g' := by
  induction h with
  | refl => exact ⟨hI, hp⟩
  | call hanswer _ ih => exact ih (hp _ _ hanswer).2 (hp _ _ hanswer).1

end Always

/-- As `Always`, and the run comes to its end: every request is answered and
nothing crashes. -/
def Surely (answers : G → (r : S.Req) → S.Resp r → G → Prop) (I : G → Prop) (Q : G → α → Prop) : Prog S α → G → Prop
  | .ret a, g => Q g a
  | .crash _, _ => False
  | .call r k, g => (∃ x g', answers g r x g') ∧ ∀ x g', answers g r x g' → I g' ∧ (k x).Surely answers I Q g'

namespace Surely

variable {I : G → Prop} {Q : G → β → Prop}

theorem bind {f : α → Prog S β} : ∀ {p : Prog S α} {g : G},
    p.Surely answers I (fun g a => (f a).Surely answers I Q g) g → (p >>= f).Surely answers I Q g
  | .ret _, _, h => h
  | .crash _, _, h => h
  | .call _ _, _, h => ⟨h.1, fun x g' hanswer => ⟨(h.2 x g' hanswer).1, bind (h.2 x g' hanswer).2⟩⟩

theorem mono {I' : G → Prop} {Q' : G → β → Prop} (hI : ∀ g, I g → I' g) (hQ : ∀ g b, Q g b → Q' g b) :
    ∀ {p : Prog S β} {g : G}, p.Surely answers I Q g → p.Surely answers I' Q' g
  | .ret _, _, h => hQ _ _ h
  | .crash _, _, h => h
  | .call _ _, _, h =>
    ⟨h.1, fun x g' hanswer => ⟨hI _ (h.2 x g' hanswer).1, mono hI hQ (h.2 x g' hanswer).2⟩⟩

theorem always : ∀ {p : Prog S β} {g : G}, p.Surely answers I Q g → p.Always answers I Q g
  | .ret _, _, h => h
  | .crash _, _, h => h.elim
  | .call _ _, _, h => fun x g' hanswer => ⟨(h.2 x g' hanswer).1, always (h.2 x g' hanswer).2⟩

theorem does {p : Prog S β} (h : Does answers g p b g') (hp : p.Surely answers I Q g) : Q g' b := by
  induction h with
  | ret => exact hp
  | call hanswer _ ih => exact ih (hp.2 _ _ hanswer).2

theorem exists_does : ∀ {p : Prog S β} {g : G}, p.Surely answers I Q g → ∃ b g', Does answers g p b g'
  | .ret b, g, _ => ⟨b, g, .ret⟩
  | .crash _, _, h => h.elim
  | .call _ _, _, h => by
    obtain ⟨x, g₁, hanswer⟩ := h.1
    obtain ⟨b, g', hrest⟩ := exists_does (h.2 x g₁ hanswer).2
    exact ⟨b, g', .call hanswer hrest⟩

end Surely

/-- Anything may be answered, and what was is recorded. -/
def Records (tr : Trace S) (r : S.Req) (x : S.Resp r) (tr' : Trace S) : Prop := tr' = tr ++ [⟨r, x⟩]

theorem Always.runs {I : Trace S → Prop} {Q : Trace S → β → Prop} {p p' : Prog S β} {tr₀ tr : Trace S}
    (hp : p.Always Records I Q tr₀) (hI : I tr₀) (h : Runs p tr p') :
    I (tr₀ ++ tr) ∧ p'.Always Records I Q (tr₀ ++ tr) := by
  induction h generalizing tr₀ with
  | refl => simpa using ⟨hI, hp⟩
  | @step tr p' r k x _ ih =>
    have hrecord : Records tr₀ r x (tr₀ ++ [⟨r, x⟩]) := rfl
    obtain ⟨hnext, hrest⟩ := hp x _ hrecord
    simpa using ih hrest hnext

/-- The run over something that answers in one way, if it answers at all. -/
def perform? (o : G → (r : S.Req) → Option (S.Resp r × G)) : Prog S α → G → Option (α × G)
  | .ret a, g => some (a, g)
  | .crash _, _ => none
  | .call r k, g =>
    match o g r with
    | none => none
    | some (x, g) => (k x).perform? o g

theorem perform?_does {o : G → (r : S.Req) → Option (S.Resp r × G)}
    (ho : ∀ g r x g', o g r = some (x, g') → answers g r x g') : ∀ {p : Prog S β} {g : G},
    p.perform? o g = some (b, g') → Does answers g p b g'
  | .ret a, g, h => by
    cases h
    exact .ret
  | .crash e, g, h => by cases h
  | .call r k, g, h => by
    simp only [perform?] at h
    split at h
    · cases h
    next x g₁ hx => exact .call (ho g r x g₁ hx) (perform?_does ho h)

end Prog

/-! ## Programs whose requests are carried out by programs -/

namespace Prog

variable {S T : Sig} {α G H : Type} {on : (r : S.Req) → Prog T (S.Resp r)}

theorem Uses.handle {allowed : T.Req → Prop} {dies : Prop} (h : ∀ r, (on r).Uses allowed dies) (hdies : dies) :
    ∀ p : Prog S α, (p.handle on).Uses allowed dies
  | .ret _ => trivial
  | .crash _ => hdies
  | .call r k => .bind (h r) fun x => Uses.handle h hdies (k x)

/-- What always holds of the upper program over something that answers holds below, where the answers of the
programs are answers of that. The states below have the states above in them, and may have more. -/
theorem Always.handle {above : G → (r : S.Req) → S.Resp r → G → Prop} {below : H → (r : T.Req) → T.Resp r → H → Prop}
    {abs : H → G} {I J : H → Prop} {Q : G → α → Prop}
    (hon : ∀ r h, J h → (on r).Always below I (fun h' x => J h' ∧ above (abs h) r x (abs h')) h) :
    ∀ {p : Prog S α} {h : H}, J h → p.Always above (fun _ => True) Q (abs h) →
      (p.handle on).Always below I (fun h' a => J h' ∧ Q (abs h') a) h
  | .ret _, _, hJ, hp => ⟨hJ, hp⟩
  | .crash _, _, _, _ => trivial
  | .call r _, h, hJ, hp => .bind ((hon r h hJ).mono fun _ x hx => Always.handle hon hx.1 (hp x _ hx.2).2)

end Prog

/-! ## What a program can come to -/

/-- Some run makes a `bad` request, and none that are to be avoided. -/
def Prog.Reaches {S : Sig} {α : Type} (avoid bad : S.Req → Prop) (p : Prog S α) : Prop :=
  ∃ tr p', Runs p tr p' ∧ (∃ e ∈ tr, bad e.req) ∧ ∀ e ∈ tr, ¬ avoid e.req

namespace Prog.Reaches

variable {S : Sig} {α β : Type} {avoid bad : S.Req → Prop} {r : S.Req} {k : S.Resp r → Prog S α}

theorem now (hr : bad r) (ha : ¬ avoid r) (x : S.Resp r) : (Prog.call r k).Reaches avoid bad := by
  refine ⟨[⟨r, x⟩], k x, .step .refl, ⟨_, List.mem_singleton.2 rfl, hr⟩, ?_⟩
  simpa using ha

theorem later (x : S.Resp r) (ha : ¬ avoid r) (h : (k x).Reaches avoid bad) : (Prog.call r k).Reaches avoid bad := by
  obtain ⟨tr, p', hrun, ⟨e, he, hbad⟩, hno⟩ := h
  exact ⟨⟨r, x⟩ :: tr, p', .step hrun, ⟨e, by simp [he], hbad⟩, List.forall_mem_cons.2 ⟨ha, hno⟩⟩

theorem bind {p : Prog S α} {f : α → Prog S β} (h : p.Reaches avoid bad) : (p >>= f).Reaches avoid bad := by
  obtain ⟨tr, p', hrun, hbad, hno⟩ := h
  exact ⟨tr, p' >>= f, hrun.bind f, hbad, hno⟩

theorem after {p : Prog S α} {f : α → Prog S β} {tr : Trace S} {a : α} {dies : Prop} (hp : Runs p tr (.ret a))
    (hu : p.Uses (fun r => ¬ avoid r) dies) (h : (f a).Reaches avoid bad) : (p >>= f).Reaches avoid bad := by
  obtain ⟨tr', p', hrun, ⟨e, he, hbad⟩, hno⟩ := h
  refine ⟨tr ++ tr', p', (hp.bind f).trans hrun, ⟨e, by simp [he], hbad⟩, ?_⟩
  exact List.forall_mem_append.2 ⟨(hp.uses hu).1, hno⟩

end Prog.Reaches

/-! ## What is heard of a program -/

section Emits

variable {S : Sig} {α β : Type} (loud : S.Req → Bool)

/-- The sequences of loud requests that runs of `p` can make, ended or not. -/
def Prog.emits (p : Prog S α) : Set (List S.Req) :=
  { rs | ∃ tr p', Runs p tr p' ∧ (tr.map Event.req).filter loud = rs }

namespace Prog

variable {loud} {rs : List S.Req} {r : S.Req} {k : S.Resp r → Prog S α}

theorem nil_mem_emits {p : Prog S α} : [] ∈ p.emits loud := ⟨[], p, .refl, rfl⟩

@[simp] theorem mem_emits_ret {a : α} : rs ∈ (Prog.ret a : Prog S α).emits loud ↔ rs = [] := by
  constructor
  · rintro ⟨tr, p', h, rfl⟩
    cases h
    rfl
  · rintro rfl
    exact nil_mem_emits

theorem mem_emits_call : rs ∈ (Prog.call r k).emits loud ↔ rs = [] ∨
    ∃ x rs', rs' ∈ (k x).emits loud ∧ rs = if loud r then r :: rs' else rs' := by
  constructor
  · rintro ⟨tr, p', h, rfl⟩
    cases h with
    | refl => exact .inl rfl
    | step h =>
      refine .inr ⟨_, _, ⟨_, _, h, rfl⟩, ?_⟩
      simp only [List.map_cons, List.filter_cons]
  · rintro (rfl | ⟨x, rs', ⟨tr, p', h, rfl⟩, rfl⟩)
    · exact nil_mem_emits
    · refine ⟨_, p', .step h, ?_⟩
      simp only [List.map_cons, List.filter_cons]

@[simp] theorem mem_emits_crash {e : String} : rs ∈ (Prog.crash e : Prog S α).emits loud ↔ rs = [] := by
  constructor
  · rintro ⟨tr, p', h, rfl⟩
    cases h
    rfl
  · rintro rfl
    exact nil_mem_emits

/-- Behind a quiet program the rest is heard, for each of its results. -/
theorem mem_emits_bind {f : α → Prog S β} {dies : Prop} : ∀ {p : Prog S α}, p.Uses (fun r => loud r = false) dies →
    (rs ∈ (p >>= f).emits loud ↔ rs = [] ∨ ∃ a, (∃ tr, Runs p tr (.ret a)) ∧ rs ∈ (f a).emits loud)
  | .ret a, _ => by
    constructor
    · exact fun h => .inr ⟨a, ⟨[], .refl⟩, h⟩
    · rintro (rfl | ⟨a', ⟨tr, hr⟩, h⟩)
      · exact nil_mem_emits
      · cases hr
        exact h
  | .crash e, _ => by
    rw [crash_bind, mem_emits_crash]
    refine (or_iff_left ?_).symm
    rintro ⟨a, ⟨tr, hr⟩, -⟩
    cases hr
  | .call r k, hp => by
    rw [call_bind, mem_emits_call]
    constructor
    · rintro (hnil | ⟨x, rs', h, hrs⟩)
      · exact .inl hnil
      simp only [hp.1, Bool.false_eq_true, if_false] at hrs
      rw [← hrs] at h
      refine ((mem_emits_bind (hp.2 x)).1 h).imp_right ?_
      rintro ⟨a, ⟨tr, hr⟩, h⟩
      exact ⟨a, ⟨_, .step hr⟩, h⟩
    · rintro (hnil | ⟨a, ⟨tr, hr⟩, h⟩)
      · exact .inl hnil
      cases hr with
      | step hr =>
        refine .inr ⟨_, rs, (mem_emits_bind (hp.2 _)).2 (.inr ⟨a, ⟨_, hr⟩, h⟩), ?_⟩
        simp only [hp.1, Bool.false_eq_true, if_false]

/-- What is done with the result is not heard. -/
theorem emits_map {g : α → β} : ∀ {p : Prog S α}, (p >>= fun a => Prog.ret (g a)).emits loud = p.emits loud
  | .ret a => by
    ext rs
    simp
  | .crash e => by
    ext rs
    constructor <;>
    · rintro ⟨tr, p', h, rfl⟩
      cases h
      exact nil_mem_emits
  | .call r k => by
    ext rs
    rw [call_bind, mem_emits_call, mem_emits_call]
    simp only [emits_map]

end Prog

end Emits

end Etcdadm
