/-
Many programs over something they share.

Each party runs a program of one interface. What it asks for is answered from
what they share, which may change by it; what they share may also change of
itself, and a party may leave its program for another. Steps of the parties
come in any order.

An invariant of such an interplay ties what is shared to what each party has
done. `Sound` asks for it step by step, with a monitor for the parties: a
program that is right for the monitor (`wp`) makes only requests it is
entitled to, and those keep the invariant. `Sound.reaches` gives it in every
scene that can be reached.
-/
import Etcdadm.Monitor

namespace Etcdadm

open Relation

/-- The program a party is in, and what it has done in it. -/
structure Party (S : Sig) (α : Type) where
  program : Prog S α
  past : Trace S

structure Scene (S : Sig) (α G ι : Type) where
  shared : G
  parties : ι → Party S α

structure Interplay (S : Sig) (α G : Type) where
  /-- How a request is answered, and what is shared afterwards. -/
  answers : G → (r : S.Req) → S.Resp r → G → Prop
  /-- How what is shared changes of itself. -/
  drifts : G → G → Prop
  /-- Which program a party may go on with. -/
  resumes : Prog S α → Prog S α → Prop

namespace Interplay

variable {S : Sig} {α G ι σ : Type} [DecidableEq ι]

inductive Step (P : Interplay S α G) : Scene S α G ι → Scene S α G ι → Prop
  | answer {c : Scene S α G ι} {i : ι} {r : S.Req} {k : S.Resp r → Prog S α} {x : S.Resp r} {g : G} :
      (c.parties i).program = .call r k → P.answers c.shared r x g →
      Step P c ⟨g, Function.update c.parties i ⟨k x, (c.parties i).past ++ [⟨r, x⟩]⟩⟩
  | drift {c : Scene S α G ι} {g : G} : P.drifts c.shared g → Step P c ⟨g, c.parties⟩
  | resume {c : Scene S α G ι} {i : ι} {p : Prog S α} : P.resumes (c.parties i).program p →
      Step P c ⟨c.shared, Function.update c.parties i ⟨p, []⟩⟩

abbrev Reaches (P : Interplay S α G) (c c' : Scene S α G ι) : Prop := ReflTransGen P.Step c c'

/-- The parties are in good order: each has come to a state of the monitor from
one it may start in, the invariant holds of those states, and what is left of
its program is right. -/
def Orderly (M : Monitor S σ) (Q : σ → α → Prop) (Start : σ → Prop) (Inv : G → (ι → σ) → Prop)
    (c : Scene S α G ι) : Prop :=
  ∃ start : ι → σ, (∀ i, Start (start i)) ∧ Inv c.shared (fun i => M.after (start i) (c.parties i).past) ∧
    ∀ i, M.wp (c.parties i).program (M.after (start i) (c.parties i).past) Q

/-- Every step keeps the invariant, if the requests are entitled. -/
structure Sound (P : Interplay S α G) (M : Monitor S σ) (Q : σ → α → Prop) (Start : σ → Prop)
    (Inv : G → (ι → σ) → Prop) : Prop where
  answer : ∀ {g g' : G} {s : ι → σ} {i : ι} {r : S.Req} {x : S.Resp r}, Inv g s → M.must (s i) r →
    P.answers g r x g' → M.may (s i) r x ∧ Inv g' (Function.update s i (M.next (s i) r x))
  drift : ∀ {g g' : G} {s : ι → σ}, Inv g s → P.drifts g g' → Inv g' s
  resume : ∀ {g : G} {s : ι → σ} {i : ι} {p p' : Prog S α}, Inv g s → M.wp p (s i) Q → P.resumes p p' →
    ∃ t, Start t ∧ M.wp p' t Q ∧ Inv g (Function.update s i t)

variable {P : Interplay S α G} {M : Monitor S σ} {Q : σ → α → Prop} {Start : σ → Prop} {Inv : G → (ι → σ) → Prop}
  {c c' : Scene S α G ι}

theorem Sound.step (hsound : P.Sound M Q Start Inv) (h : P.Step c c') (hc : Orderly M Q Start Inv c) :
    Orderly M Q Start Inv c' := by
  obtain ⟨start, hstart, hinv, hwp⟩ := hc
  cases h with
  | @answer i r k x g hnext hans =>
    have hi := hwp i
    rw [hnext] at hi
    obtain ⟨hmay, hinv'⟩ := hsound.answer hinv hi.1 hans
    have hstate : (fun j => M.after (start j)
        (Function.update c.parties i ⟨k x, (c.parties i).past ++ [⟨r, x⟩]⟩ j).past) =
        Function.update (fun j => M.after (start j) (c.parties j).past) i
          (M.next (M.after (start i) (c.parties i).past) r x) :=
      Function.eq_update_iff.2 ⟨by simp [Monitor.after_append], fun j hj => by simp [hj]⟩
    refine ⟨start, hstart, hstate ▸ hinv', ?_⟩
    refine (Function.forall_update_iff c.parties fun j p => M.wp p.program (M.after (start j) p.past) Q).2
      ⟨?_, fun j _ => hwp j⟩
    simpa [Monitor.after_append] using hi.2 x hmay
  | drift hdrift => exact ⟨start, hstart, hsound.drift hinv hdrift, hwp⟩
  | @resume i p hres =>
    obtain ⟨t, ht, hp, hinv'⟩ := hsound.resume hinv (hwp i) hres
    have hstate : (fun j => M.after (Function.update start i t j) (Function.update c.parties i ⟨p, []⟩ j).past) =
        Function.update (fun j => M.after (start j) (c.parties j).past) i t :=
      Function.eq_update_iff.2 ⟨by simp, fun j hj => by simp [hj]⟩
    refine ⟨Function.update start i t, ?_, hstate ▸ hinv', fun j => ?_⟩
    · exact (Function.forall_update_iff start fun _ t' => Start t').2 ⟨ht, fun j _ => hstart j⟩
    · by_cases hj : j = i
      · subst hj
        simpa using hp
      · simpa [hj] using hwp j

/-- **Soundness.** Parties in good order stay so. -/
theorem Sound.reaches (hsound : P.Sound M Q Start Inv) (h : P.Reaches c c') (hc : Orderly M Q Start Inv c) :
    Orderly M Q Start Inv c' := by
  induction h with
  | refl => exact hc
  | tail _ hstep ih => exact hsound.step hstep ih

end Interplay

end Etcdadm
