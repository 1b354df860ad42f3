/-
Programs that are entitled to what they ask for, over something that answers.

`Always` says what holds after each answer. `Guarded` says what holds when a request
is made: that what answers is in a state in which it may be made. `Guarded.goes` reads
this off a run that was cut at a request. `upTo?` computes such runs, where what answers
is computed; its states may stand for others (`Goes.map`).
-/
import Etcdadm.Prog

namespace Etcdadm.Prog

variable {S : Sig} {α β G : Type} {answers : G → (r : S.Req) → S.Resp r → G → Prop}

/-- Whatever the answers are, each request is made where it must be, and `Q` holds in the end. -/
def Guarded (answers : G → (r : S.Req) → S.Resp r → G → Prop) (must : G → S.Req → Prop) (Q : G → α → Prop) :
    Prog S α → G → Prop
  | .ret a, g => Q g a
  | .crash _, _ => True
  | .call r k, g => must g r ∧ ∀ x g', answers g r x g' → (k x).Guarded answers must Q g'

namespace Guarded

variable {must : G → S.Req → Prop} {Q : G → β → Prop} {g g' : G}

theorem bind {f : α → Prog S β} : ∀ {p : Prog S α} {g : G},
    p.Guarded answers must (fun g a => (f a).Guarded answers must Q g) g → (p >>= f).Guarded answers must Q g
  | .ret _, _, h => h
  | .crash _, _, _ => trivial
  | .call _ _, _, h => ⟨h.1, fun x g' hanswer => bind (h.2 x g' hanswer)⟩

theorem mono {Q' : G → β → Prop} (hQ : ∀ g b, Q g b → Q' g b) : ∀ {p : Prog S β} {g : G},
    p.Guarded answers must Q g → p.Guarded answers must Q' g
  | .ret _, _, h => hQ _ _ h
  | .crash _, _, _ => trivial
  | .call _ _, _, h => ⟨h.1, fun x g' hanswer => mono hQ (h.2 x g' hanswer)⟩

theorem and_returns {R : β → Prop} : ∀ {p : Prog S β} {g : G}, p.Guarded answers must Q g → p.Returns R →
    p.Guarded answers must (fun g b => Q g b ∧ R b) g
  | .ret _, _, h, hR => ⟨h, hR⟩
  | .crash _, _, _, _ => trivial
  | .call _ _, _, h, hR => ⟨h.1, fun x g' hanswer => and_returns (h.2 x g' hanswer) (hR x)⟩

/-- What the requests keep entitles to them. -/
theorem of_uses {allowed : S.Req → Prop} {dies : Prop} {I : G → Prop} (hmust : ∀ g r, allowed r → I g → must g r)
    (hkeep : ∀ g r x g', allowed r → answers g r x g' → I g → I g') : ∀ {p : Prog S β} {g : G},
    p.Uses allowed dies → I g → p.Guarded answers must (fun g _ => I g) g
  | .ret _, _, _, hI => hI
  | .crash _, _, _, _ => trivial
  | .call _ _, _, hp, hI =>
    ⟨hmust _ _ hp.1 hI, fun x _ hanswer => of_uses hmust hkeep (hp.2 x) (hkeep _ _ _ _ hp.1 hanswer hI)⟩

/-- **Where a run has come to a request, it may make it.** -/
theorem goes {p : Prog S β} {r : S.Req} {k : S.Resp r → Prog S β} (h : Goes answers g p (.call r k) g')
    (hp : p.Guarded answers must Q g) : must g' r := by
  generalize hq : Prog.call r k = q at h
  induction h with
  | refl =>
    subst hq
    exact hp.1
  | call hanswer _ ih => exact ih (hp.2 _ _ hanswer) hq

end Guarded

/-! ## Runs that are computed -/

section Compute

variable {A : Type} {answers' : A → (r : S.Req) → S.Resp r → A → Prop} {g g' : A}

theorem Goes.map (abs : A → G) (h : ∀ g r x g', answers' g r x g' → answers (abs g) r x (abs g')) {p p' : Prog S α}
    (hp : Goes answers' g p p' g') : Goes answers (abs g) p p' (abs g') := by
  induction hp with
  | refl => exact .refl
  | call hanswer _ ih => exact .call (h _ _ _ _ hanswer) ih

theorem Does.map (abs : A → G) (h : ∀ g r x g', answers' g r x g' → answers (abs g) r x (abs g')) {p : Prog S α} {a : α}
    (hp : Does answers' g p a g') : Does answers (abs g) p a (abs g') := by
  induction hp with
  | ret => exact .ret
  | call hanswer _ ih => exact .call (h _ _ _ _ hanswer) ih

theorem perform?_does_map {o : A → (r : S.Req) → Option (S.Resp r × A)} (abs : A → G)
    (ho : ∀ g r x g', o g r = some (x, g') → answers (abs g) r x (abs g')) {p : Prog S α} {a : α}
    (h : p.perform? o g = some (a, g')) : Does answers (abs g) p a (abs g') := by
  have hdoes : Does (fun g r x g' => answers (abs g) r x (abs g')) g p a g' := perform?_does ho h
  exact hdoes.map abs fun _ _ _ _ => id

end Compute

end Etcdadm.Prog
