/-
Assume and guarantee over programs.

A monitor watches the requests of a program and keeps a state of its own: it
says which answers the environment may give (`may`), which requests the
program must be entitled to when it makes them (`must`), and how the state
moves. `wp` is what holds of every run the environment allows, `can` what
some run reaches. Both are computed along the tree, so a fact about a
procedure is proved once and used wherever it is called, and both carry over
to traces (`Runs.wp`, `can_runs`).
-/
import Etcdadm.Prog

namespace Etcdadm

structure Monitor (S : Sig) (σ : Type) where
  next : σ → (r : S.Req) → S.Resp r → σ
  /-- What the environment promises of its answers. -/
  may : σ → (r : S.Req) → S.Resp r → Prop := fun _ _ _ => True
  /-- What the program must have earned to make the request. -/
  must : σ → S.Req → Prop := fun _ _ => True
  /-- Where the process may end abruptly. -/
  crash : σ → String → Prop := fun _ _ => True

namespace Monitor

variable {S : Sig} {σ α β : Type} (M : Monitor S σ)

/-- Every run from `s` the environment allows makes only requests it is
entitled to, and ends where `Q` holds. -/
def wp : Prog S α → σ → (σ → α → Prop) → Prop
  | .ret a, s, Q => Q s a
  | .call r k, s, Q => M.must s r ∧ ∀ x, M.may s r x → wp (k x) (M.next s r x) Q
  | .crash e, s, _ => M.crash s e

/-- Some run from `s` the environment allows ends where `Q` holds. -/
def can : Prog S α → σ → (σ → α → Prop) → Prop
  | .ret a, s, Q => Q s a
  | .call r k, s, Q => ∃ x, M.may s r x ∧ can (k x) (M.next s r x) Q
  | .crash _, _, _ => False

/-- The monitor's state after a trace. -/
def after (s : σ) (tr : Trace S) : σ := tr.foldl (fun s e => M.next s e.req e.resp) s

/-- The environment kept its promises along the trace. -/
def Admits : σ → Trace S → Prop
  | _, [] => True
  | s, e :: tr => M.may s e.req e.resp ∧ Admits (M.next s e.req e.resp) tr

/-- The program was entitled to each request of the trace. -/
def Obeys : σ → Trace S → Prop
  | _, [] => True
  | s, e :: tr => M.must s e.req ∧ Obeys (M.next s e.req e.resp) tr

/-! ## Every run -/

variable {M} {s : σ} {Q Q' : σ → α → Prop}

@[simp] theorem wp_ret {a : α} : M.wp (.ret a) s Q ↔ Q s a := Iff.rfl

@[simp] theorem wp_call {r : S.Req} {k : S.Resp r → Prog S α} :
    M.wp (.call r k) s Q ↔ M.must s r ∧ ∀ x, M.may s r x → M.wp (k x) (M.next s r x) Q := Iff.rfl

@[simp] theorem wp_crash {e : String} : M.wp (.crash e : Prog S α) s Q ↔ M.crash s e := Iff.rfl

theorem wp_bind {f : α → Prog S β} {Q : σ → β → Prop} : ∀ {p : Prog S α} {s : σ},
    M.wp (p >>= f) s Q ↔ M.wp p s fun s' a => M.wp (f a) s' Q
  | .ret _, _ => Iff.rfl
  | .crash _, _ => Iff.rfl
  | .call r k, s => by
    simp only [Prog.call_bind, wp_call]
    exact and_congr_right fun _ => forall_congr' fun x => imp_congr_right fun _ => wp_bind

theorem wp_mono : ∀ {p : Prog S α} {s : σ}, (∀ s a, Q s a → Q' s a) → M.wp p s Q → M.wp p s Q'
  | .ret _, _, h, hp => h _ _ hp
  | .crash _, _, _, hp => hp
  | .call _ _, _, h, hp => ⟨hp.1, fun x hx => wp_mono h (hp.2 x hx)⟩

/-- Two facts about the same runs hold together. -/
theorem wp_and : ∀ {p : Prog S α} {s : σ}, M.wp p s Q → M.wp p s Q' →
    M.wp p s fun s a => Q s a ∧ Q' s a
  | .ret _, _, h, h' => ⟨h, h'⟩
  | .crash _, _, h, _ => h
  | .call _ _, _, h, h' => ⟨h.1, fun x hx => wp_and (h.2 x hx) (h'.2 x hx)⟩

/-- What a program returns in any case may be used in its rest. -/
theorem wp_and_returns {R : α → Prop} : ∀ {p : Prog S α} {s : σ}, M.wp p s Q → p.Returns R →
    M.wp p s fun s a => Q s a ∧ R a
  | .ret _, _, h, h' => ⟨h, h'⟩
  | .crash _, _, h, _ => h
  | .call _ _, _, h, h' => ⟨h.1, fun x hx => wp_and_returns (h.2 x hx) (h' x)⟩

/-- A program keeps what every request it uses keeps. -/
theorem wp_of_uses {allowed : S.Req → Prop} {dies : Prop} {I : σ → Prop}
    (hstep : ∀ s r, I s → allowed r → M.must s r ∧ ∀ x, M.may s r x → I (M.next s r x))
    (hdies : ∀ s e, I s → dies → M.crash s e) :
    ∀ {p : Prog S α} {s : σ}, p.Uses allowed dies → I s → M.wp p s fun s' _ => I s'
  | .ret _, _, _, hi => hi
  | .crash e, s, hp, hi => hdies s e hi hp
  | .call r _, s, hp, hi =>
    ⟨(hstep s r hi hp.1).1, fun x hx => wp_of_uses hstep hdies (hp.2 x) ((hstep s r hi hp.1).2 x hx)⟩

/-- Any program is right where every request is, and stays so. -/
theorem wp_of_invariant {I : σ → Prop} (hstep : ∀ s r, I s → M.must s r ∧ ∀ x, M.may s r x → I (M.next s r x))
    (hcrash : ∀ s e, I s → M.crash s e) : ∀ (p : Prog S α) {s : σ}, I s → M.wp p s fun s' _ => I s'
  | .ret _, _, hi => hi
  | .crash e, s, hi => hcrash s e hi
  | .call r k, s, hi =>
    ⟨(hstep s r hi).1, fun x hx => wp_of_invariant hstep hcrash (k x) ((hstep s r hi).2 x hx)⟩

/-- Where nothing has to be earned, what is returned is all there is to know. -/
theorem wp_of_returns {R : α → Prop} (hmust : ∀ s r, M.must s r) (hcrash : ∀ s e, M.crash s e) :
    ∀ {p : Prog S α} {s : σ}, p.Returns R → M.wp p s fun _ a => R a
  | .ret _, _, h => h
  | .crash e, s, _ => hcrash s e
  | .call r _, s, h => ⟨hmust s r, fun x _ => wp_of_returns hmust hcrash (h x)⟩

/-! ## Some run -/

@[simp] theorem can_ret {a : α} : M.can (.ret a) s Q ↔ Q s a := Iff.rfl

@[simp] theorem can_call {r : S.Req} {k : S.Resp r → Prog S α} :
    M.can (.call r k) s Q ↔ ∃ x, M.may s r x ∧ M.can (k x) (M.next s r x) Q := Iff.rfl

@[simp] theorem can_crash {e : String} : M.can (.crash e : Prog S α) s Q ↔ False := Iff.rfl

theorem can_bind {f : α → Prog S β} {Q : σ → β → Prop} : ∀ {p : Prog S α} {s : σ},
    M.can (p >>= f) s Q ↔ M.can p s fun s' a => M.can (f a) s' Q
  | .ret _, _ => Iff.rfl
  | .crash _, _ => Iff.rfl
  | .call r k, s => by
    simp only [Prog.call_bind, can_call]
    exact exists_congr fun x => and_congr_right fun _ => can_bind

theorem can_mono : ∀ {p : Prog S α} {s : σ}, (∀ s a, Q s a → Q' s a) → M.can p s Q → M.can p s Q'
  | .ret _, _, h, hp => h _ _ hp
  | .crash _, _, _, hp => hp
  | .call _ _, _, h, ⟨x, hx, hp⟩ => ⟨x, hx, can_mono h hp⟩

/-! ## Traces -/

@[simp] theorem after_nil : M.after s [] = s := rfl

@[simp] theorem after_cons {e : Event S} {tr : Trace S} :
    M.after s (e :: tr) = M.after (M.next s e.req e.resp) tr := rfl

theorem after_append {tr tr' : Trace S} : M.after s (tr ++ tr') = M.after (M.after s tr) tr' :=
  List.foldl_append

theorem Obeys.append {tr tr' : Trace S} :
    M.Obeys s (tr ++ tr') ↔ M.Obeys s tr ∧ M.Obeys (M.after s tr) tr' := by
  induction tr generalizing s with
  | nil => simp [Obeys]
  | cons e tr ih => simp only [List.cons_append, Obeys, after_cons, ih, and_assoc]

/-- Promises kept at every point of the trace are kept along it. -/
theorem Admits.of_forall {tr : Trace S} (h : ∀ pre e post, tr = pre ++ e :: post →
    M.may (M.after s pre) e.req e.resp) : M.Admits s tr := by
  induction tr generalizing s with
  | nil => trivial
  | cons e tr ih =>
    refine ⟨h [] e tr rfl, ih fun pre e' post htr => ?_⟩
    exact h (e :: pre) e' post (by rw [htr, List.cons_append])

/-- Two monitors of the same environment admit the same traces. -/
theorem Admits.congr {M' : Monitor S σ} (hn : M.next = M'.next) (hm : M.may = M'.may) :
    ∀ {s : σ} {tr : Trace S}, M.Admits s tr → M'.Admits s tr
  | _, [], _ => trivial
  | _, _ :: _, h => ⟨hm ▸ h.1, Admits.congr hn hm (hn ▸ h.2)⟩

/-- A monitor that promises nothing of the environment admits every trace. -/
theorem Admits.of_may (h : ∀ s r x, M.may s r x) : ∀ {s : σ} (tr : Trace S), M.Admits s tr
  | _, [] => trivial
  | _, _ :: tr => ⟨h _ _ _, Admits.of_may h tr⟩

/-- The run in which the environment answers as `o` says: its trace, and where
it ends. -/
def play (M : Monitor S σ) (o : σ → (r : S.Req) → S.Resp r) : Prog S α → σ → Trace S × Prog S α
  | .ret a, _ => ([], .ret a)
  | .crash e, _ => ([], .crash e)
  | .call r k, s =>
    let rest := play M o (k (o s r)) (M.next s r (o s r))
    (⟨r, o s r⟩ :: rest.1, rest.2)

theorem play_runs {o : σ → (r : S.Req) → S.Resp r} : ∀ {p : Prog S α} {s : σ},
    Runs p (M.play o p s).1 (M.play o p s).2
  | .ret _, _ => .refl
  | .crash _, _ => .refl
  | .call _ _, _ => .step play_runs

theorem play_admits {o : σ → (r : S.Req) → S.Resp r} (h : ∀ s r, M.may s r (o s r)) :
    ∀ {p : Prog S α} {s : σ}, M.Admits s (M.play o p s).1
  | .ret _, _ => trivial
  | .crash _, _ => trivial
  | .call _ _, _ => ⟨h _ _, play_admits h⟩

end Monitor

namespace Runs

variable {S : Sig} {σ α : Type} {M : Monitor S σ} {Q : σ → α → Prop}

/-- **Soundness.** Along every trace the environment allows, the requests are
those the program is entitled to, and what is left of the program is still
right. -/
theorem wp {p p' : Prog S α} {tr : Trace S} (h : Runs p tr p') : ∀ {s : σ}, M.wp p s Q →
    M.Admits s tr → M.Obeys s tr ∧ M.wp p' (M.after s tr) Q := by
  induction h with
  | refl => exact fun hp _ => ⟨trivial, hp⟩
  | step _ ih =>
    intro s hp hm
    obtain ⟨ho, hr⟩ := ih (hp.2 _ hm.1) hm.2
    exact ⟨⟨hp.1, ho⟩, hr⟩

/-- A request made in the middle of a run was earned by what came before. -/
theorem must {p p' : Prog S α} {pre post : Trace S} {e : Event S} {s : σ}
    (h : Runs p (pre ++ e :: post) p') (hp : M.wp p s Q) (hm : M.Admits s (pre ++ e :: post)) :
    M.must (M.after s pre) e.req := by
  have ho := (h.wp hp hm).1
  rw [Monitor.Obeys.append] at ho
  exact ho.2.1

end Runs

/-! ## The whole history -/

/-- The monitor that remembers everything: what a request needs is a property
of the trace before it. -/
def Monitor.history {S : Sig} (must : Trace S → S.Req → Prop) : Monitor S (Trace S) :=
  { next := fun tr r x => tr ++ [⟨r, x⟩], must := must }

namespace Monitor

variable {S : Sig} {α : Type} {must : Trace S → S.Req → Prop} {s : Trace S} {Q : Trace S → α → Prop}

theorem history_after {tr : Trace S} : (history must).after s tr = s ++ tr := by
  induction tr generalizing s with
  | nil => exact (List.append_nil s).symm
  | cons e tr ih =>
    rw [after_cons, ih]
    exact List.append_assoc s [e] tr

/-- The history only grows. -/
theorem wp_history_grows : ∀ {p : Prog S α} {s : Trace S}, (history must).wp p s Q →
    (history must).wp p s fun s' a => s <+: s' ∧ Q s' a
  | .ret _, _, h => ⟨List.prefix_rfl, h⟩
  | .crash _, _, h => h
  | .call r k, s, h => by
    refine ⟨h.1, fun x hx => wp_mono ?_ (wp_history_grows (h.2 x hx))⟩
    intro s' a ha
    exact ⟨(List.prefix_append s [⟨r, x⟩]).trans ha.1, ha.2⟩

/-- A step that needs nothing adds to the history what it uses. -/
theorem wp_history_of_uses {allowed : S.Req → Prop} {dies : Prop} {R : α → Prop}
    (hmust : ∀ s r, allowed r → must s r) : ∀ {p : Prog S α} {s : Trace S}, p.Uses allowed dies → p.Returns R →
      (history must).wp p s fun s' a => (∃ tr, s' = s ++ tr ∧ ∀ e ∈ tr, allowed e.req) ∧ R a
  | .ret _, s, _, hr => ⟨⟨[], (List.append_nil s).symm, by simp⟩, hr⟩
  | .crash _, _, _, _ => trivial
  | .call r k, s, hp, hr => by
    refine ⟨hmust s r hp.1, fun x _ => wp_mono ?_ (wp_history_of_uses hmust (hp.2 x) (hr x))⟩
    intro s' a ⟨⟨tr, hs', htr⟩, ha⟩
    refine ⟨⟨⟨r, x⟩ :: tr, ?_, List.forall_mem_cons.2 ⟨hp.1, htr⟩⟩, ha⟩
    rw [hs']
    exact List.append_assoc s [⟨r, x⟩] tr

/-- What a request needs may be said differently of the histories that can
come up. -/
theorem wp_history_imp {must' : Trace S → S.Req → Prop} {allowed : S.Req → Prop} {dies : Prop} :
    ∀ {p : Prog S α} {s : Trace S}, p.Uses allowed dies →
      (∀ tr r, (∀ e ∈ tr, allowed e.req) → must (s ++ tr) r → must' (s ++ tr) r) →
      (history must).wp p s Q → (history must').wp p s Q
  | .ret _, _, _, _, hp => hp
  | .crash _, _, _, _, _ => trivial
  | .call r _, s, hu, h, hp => by
    have hnow := h [] r (List.forall_mem_nil _)
    rw [List.append_nil] at hnow
    refine ⟨hnow hp.1, fun x hx => wp_history_imp (hu.2 x) ?_ (hp.2 x hx)⟩
    intro tr r' htr hmust
    have hlater := h (⟨r, x⟩ :: tr) r' (List.forall_mem_cons.2 ⟨hu.1, htr⟩)
    rw [List.append_cons] at hlater
    exact hlater hmust

end Monitor

namespace Runs

variable {S : Sig} {α : Type} {must : Trace S → S.Req → Prop} {Q : Trace S → α → Prop} {p p' : Prog S α}

/-- What holds at the end of every history holds of the trace. -/
theorem of_history {tr : Trace S} {a : α} (h : Runs p tr (.ret a)) (hp : (Monitor.history must).wp p [] Q) : Q tr a := by
  have hwp := (h.wp hp (.of_may (fun _ _ _ => trivial) tr)).2
  rw [Monitor.history_after, List.nil_append] at hwp
  exact hwp

/-- Each request has behind it what it needs. -/
theorem must_history {pre post : Trace S} {e : Event S} (h : Runs p (pre ++ e :: post) p')
    (hp : (Monitor.history must).wp p [] Q) : must pre e.req := by
  have hmust := h.must hp (.of_may (fun _ _ _ => trivial) _)
  rw [Monitor.history_after, List.nil_append] at hmust
  exact hmust

end Runs

/-- **Completeness of `can`.** What can be reached is reached by a run. -/
theorem Monitor.can_runs {S : Sig} {σ α : Type} {M : Monitor S σ} {Q : σ → α → Prop} :
    ∀ {p : Prog S α} {s : σ}, M.can p s Q →
      ∃ tr a, Runs p tr (.ret a) ∧ M.Admits s tr ∧ Q (M.after s tr) a
  | .ret a, s, h => ⟨[], a, .refl, trivial, h⟩
  | .crash _, _, h => h.elim
  | .call r k, s, ⟨x, hx, h⟩ => by
    obtain ⟨tr, a, hr, hm, hq⟩ := can_runs h
    exact ⟨⟨r, x⟩ :: tr, a, .step hr, ⟨hx, hm⟩, hq⟩

end Etcdadm
