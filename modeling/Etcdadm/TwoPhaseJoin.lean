/-
The two phases of joining a cluster, at one node.

A node promises its next cluster to one token at a time: `PREPARE` grants the
promise for a minute, `CANCEL_PREPARE` and the joining phases use it up.
`joinCluster_outcome` lists what a `JoinCluster` can come to and what each
result says about the promise before and after. The history of a node then
tells what it holds: the promise in memory is that of the last accepted
`PREPARE` (`LastPrepare`), and as long as its time has not run out on the
node's clock, it is still in memory.
-/
import Etcdadm.NodeMoves

namespace Etcdadm

open EtcdServer Monitor

/-! ## One call -/

/-- The preparation in memory is past its time. -/
def EtcdServer.Expired (s : EtcdServer) (t : Time) : Prop := ∃ p, s.prepared = some p ∧ p.validUntil < t

/-- What a `JoinCluster` comes to. -/
inductive JoinOutcome (request : JoinClusterRequest) (s : EtcdServer) (w : World) :
    World → EtcdServer × Except Error Unit → Prop
  /-- Refused or failed: at most an expired preparation is gone, and that is
  all a `PREPARE` can change then. -/
  | failed {w' s' err} : s'.prepared = s.prepared ∨ s'.prepared = none ∧ s.Expired w'.clock →
      (request.phase = .prepare → s' = { s with prepared := s'.prepared } ∧ w' = { w with clock := w'.clock }) →
      JoinOutcome request s w w' (s', .error err)
  | accepted {w' s'} : request.phase = .prepare → s.prepared = none ∨ s.Expired w'.clock →
      s'.prepared = some ⟨w'.clock + preparedValidity, request.clusterToken⟩ →
      JoinOutcome request s w w' (s', .ok ())
  | cancelled {w' s'} : request.phase = .cancelPrepare → s'.prepared = none →
      JoinOutcome request s w w' (s', .ok ())
  | joined {w' s' p} : request.phase = .initialCluster ∨ request.phase = .joinExisting →
      s.Authorizes request.header → s.process = none → s.prepared = some p →
      p.clusterToken = request.clusterToken → w'.clock ≤ p.validUntil → s'.prepared = none →
      JoinOutcome request s w w' (s', .ok ())

/-- The server `expirePrepared` goes on with, at time `t`. -/
structure Refreshed (s : EtcdServer) (t : Time) (s' : EtcdServer) : Prop where
  rest : s' = { s with prepared := s'.prepared }
  prepared : s'.prepared = s.prepared ∧ (∀ p, s.prepared = some p → t ≤ p.validUntil) ∨
    s'.prepared = none ∧ s.Expired t

variable {α : Type} {s s' : EtcdServer} {w : World} {request : JoinClusterRequest}

theorem EtcdServer.Expired.mono {t t' : Time} (h : s.Expired t) (ht : t ≤ t') : s.Expired t' := by
  obtain ⟨p, hp, hlt⟩ := h
  exact ⟨p, hp, Int.lt_of_lt_of_le hlt ht⟩

theorem wp_expirePrepared {f : EtcdServer → SysM α} {Q : World → α → Prop}
    (h : ∀ s' t, w.clock ≤ t → Refreshed s t s' → machine.wp (f s') { w with clock := t } Q) :
    machine.wp (s.expirePrepared >>= f) w Q := by
  unfold expirePrepared
  split
  next hp => exact h s w.clock (Int.le_refl _) ⟨rfl, .inl ⟨rfl, by simp [hp]⟩⟩
  next p hp =>
  rw [Prog.bind_assoc]
  refine machine.wp_sys fun t ht => ?_
  split
  next hlt => exact h _ t ht ⟨rfl, .inr ⟨rfl, p, hp, hlt⟩⟩
  next hle =>
    refine h s t ht ⟨rfl, .inl ⟨rfl, fun p' hp' => ?_⟩⟩
    cases hp.symm.trans hp'
    exact Int.not_lt.1 hle

/-- Starting etcd changes the server by the process only, and takes no time. -/
theorem wp_startEtcdProcess {st : EtcdState} {f : EtcdServer × Option Error → SysM α} {Q : World → α → Prop}
    (hfail : ∀ err, machine.wp (f (s, some err)) w Q)
    (hok : ∀ p w', w'.clock = w.clock → machine.wp (f ({ s with process := some p }, none)) w' Q) :
    machine.wp (s.startEtcdProcess st >>= f) w Q := by
  unfold startEtcdProcess
  split
  · exact hfail _
  next cluster hcl =>
  split
  · exact hfail _
  simp only [findSelfNode, hcl, Prog.pure_eq, Prog.ret_bind]
  split
  · exact hfail _
  · exact hfail _
  rw [Prog.bind_assoc]
  refine machine.wp_sys ?_
  rintro (err | ⟨⟩) -
  · exact hfail _
  rw [Prog.bind_assoc]
  refine machine.wp_sys ?_
  rintro (err | binDir) -
  · exact hfail _
  rw [Prog.bind_assoc]
  refine machine.wp_sys ?_
  rintro (err | ⟨⟩) -
  · exact hfail _
  · exact hok _ _ rfl

namespace Refreshed

variable {t : Time} {s₁ : EtcdServer} {w' : World}

/-- What fails from here on leaves the preparation as it is. -/
theorem failed (hs : Refreshed s t s₁) (hp : s'.prepared = s₁.prepared) (ht : t ≤ w'.clock) :
    s'.prepared = s.prepared ∨ s'.prepared = none ∧ s.Expired w'.clock := by
  rw [hp]
  exact hs.prepared.imp And.left fun h => ⟨h.1, h.2.mono ht⟩

/-- A preparation still in memory is that of before, and in time. -/
theorem held {p : PreparedState} (hs : Refreshed s t s₁) (hp : s₁.prepared = some p) :
    s.prepared = some p ∧ t ≤ p.validUntil := by
  rcases hs.prepared with ⟨h, hv⟩ | ⟨h, -⟩
  · exact ⟨h ▸ hp, hv p (h ▸ hp)⟩
  · simp [hp] at h

theorem process (hs : Refreshed s t s₁) : s₁.process = s.process := by rw [hs.rest]

end Refreshed

section Phases

variable {t : Time} {s₁ : EtcdServer}

theorem prepare_outcome (hs : Refreshed s t s₁) (hph : request.phase = .prepare) :
    machine.wp (s₁.prepare request) { w with clock := t } (JoinOutcome request s w) := by
  unfold prepare
  split
  · exact .failed (hs.failed rfl (Int.le_refl t)) fun _ => ⟨hs.rest, rfl⟩
  split
  · exact .failed (hs.failed rfl (Int.le_refl t)) fun _ => ⟨hs.rest, rfl⟩
  next hp =>
  refine machine.wp_sys fun t' ht => ?_
  refine .accepted hph ?_ rfl
  rcases hs.prepared with ⟨h, -⟩ | ⟨-, he⟩
  · exact .inl (h ▸ hp)
  · exact .inr (he.mono ht)

/-- Both joining phases: check, write, start, settle. -/
theorem initialCluster_outcome (hs : Refreshed s t s₁) (ha : s.Authorizes request.header)
    (hph : request.phase = .initialCluster) :
    machine.wp (s₁.initialCluster request) { w with clock := t } (JoinOutcome request s w) := by
  have failed {w' : World} {s' : EtcdServer} {err : Error} (hp : s'.prepared = s₁.prepared)
      (ht : w'.clock = t) : JoinOutcome request s w w' (s', .error err) :=
    .failed (hs.failed hp (Int.le_of_eq ht.symm)) fun h => by simp [hph] at h
  unfold initialCluster
  cases hck : s₁.checkPrepared request with
  | some err => exact failed rfl rfl
  | none =>
  obtain ⟨hproc, p, hp, htok⟩ := checkPrepared_eq_none hck
  refine machine.wp_sys ?_
  rintro (⟨err, f⟩ | ⟨⟩) -
  · exact failed rfl rfl
  refine wp_startEtcdProcess (fun err => failed rfl rfl) fun proc w' hw => ?_
  refine machine.wp_sys ?_
  rintro (⟨err, f⟩ | ⟨⟩) -
  · exact failed rfl hw
  · exact .joined (.inl hph) ha (hs.process ▸ hproc) (hs.held hp).1 htok
      (hw ▸ (hs.held hp).2) rfl

theorem joinExisting_outcome (hs : Refreshed s t s₁) (ha : s.Authorizes request.header)
    (hph : request.phase = .joinExisting) :
    machine.wp (s₁.joinExisting request) { w with clock := t } (JoinOutcome request s w) := by
  have failed {w' : World} {s' : EtcdServer} {err : Error} (hp : s'.prepared = s₁.prepared)
      (ht : w'.clock = t) : JoinOutcome request s w w' (s', .error err) :=
    .failed (hs.failed hp (Int.le_of_eq ht.symm)) fun h => by simp [hph] at h
  unfold joinExisting
  cases hck : s₁.checkPrepared request with
  | some err => exact failed rfl rfl
  | none =>
  obtain ⟨hproc, p, hp, htok⟩ := checkPrepared_eq_none hck
  refine machine.wp_sys ?_
  rintro (⟨err, f⟩ | ⟨⟩) -
  · exact failed rfl rfl
  refine wp_startEtcdProcess (fun err => failed rfl rfl) fun proc w' hw => ?_
  exact .joined (.inr hph) ha (hs.process ▸ hproc) (hs.held hp).1 htok (hw ▸ (hs.held hp).2) rfl

end Phases

/-- **What a `JoinCluster` comes to**, whatever the machine answers. -/
theorem joinCluster_outcome (s : EtcdServer) (w : World) (request : JoinClusterRequest) :
    machine.wp (s.joinCluster request) w (JoinOutcome request s w) := by
  unfold joinCluster
  rcases s.validateHeader_cases request.header with ⟨-, h⟩ | ⟨-, err, h⟩ | ⟨ha, h⟩ <;> rw [h]
  · trivial
  · exact .failed (.inl rfl) fun _ => ⟨rfl, rfl⟩
  simp only [Prog.ret_bind]
  split
  next hph =>
    unfold cancelPrepare
    split
    next hp => exact .cancelled hph hp
    split
    · exact .cancelled hph rfl
    · exact .failed (.inl rfl) fun _ => ⟨rfl, rfl⟩
  refine wp_expirePrepared fun s₁ t ht hs => ?_
  refine machine.wp_sys ?_
  rintro (err | _) -
  · exact .failed (hs.failed rfl (Int.le_refl t)) fun _ => ⟨hs.rest, rfl⟩
  dsimp only
  split
  next hph => exact prepare_outcome hs hph
  next hph => exact initialCluster_outcome hs ha hph
  next hph => exact joinExisting_outcome hs ha hph
  · exact .failed (hs.failed rfl (Int.le_refl t)) fun _ => ⟨hs.rest, rfl⟩

/-! ## The history of a node -/

/-- An event after which an earlier `PREPARE` no longer stands: a `JoinCluster`
that went through, of any phase, or a restart. -/
def NodeEvent.Supersedes : NodeEvent → Prop
  | .call (.joinCluster _) _ .ok => True
  | .restart _ _ _ => True
  | _ => False

/-- In the run `es` from `n₀`, the last accepted `PREPARE` was for this token,
at this time on the node's clock, and it has been neither cancelled nor
consumed by a join since, nor forgotten in a restart. -/
inductive Node.LastPrepare (n₀ : Node) : List NodeEvent → Node → String → Time → Prop
  | accepted {es n n' request tr} : n₀.Run es n → n.Step (.call (.joinCluster request) tr .ok) n' →
      request.phase = .prepare →
      LastPrepare n₀ (es ++ [.call (.joinCluster request) tr .ok]) n' request.clusterToken n'.world.clock
  | since {es n n' e token t} : LastPrepare n₀ es n token t → n.Step e n' → ¬ e.Supersedes →
      LastPrepare n₀ (es ++ [e]) n' token t

variable {n₀ n n' : Node} {es : List NodeEvent} {e : NodeEvent} {tr : Trace sysSig} {reply : Reply}

/-- A served `JoinCluster` and its outcome. -/
theorem Node.Step.joinCluster (h : n.Step (.call (.joinCluster request) tr reply) n') :
    ∃ r, reply = .ofUnit r ∧ JoinOutcome request n.server n.world n'.world (n'.server, r) := by
  cases h with
  | call hr ha =>
    have hwp : machine.wp (n.server.serve (.joinCluster request)) n.world fun w' x =>
        ∃ r, x.2 = .ofUnit r ∧ JoinOutcome request n.server n.world w' (x.1, r) :=
      wp_bind.2 (wp_mono (fun _ x hx => ⟨x.2, rfl, hx⟩) (joinCluster_outcome n.server n.world request))
    exact (hr.wp hwp ha).2

theorem Node.Step.clock_le (h : n.Step e n') : n.world.clock ≤ n'.world.clock := by
  refine Node.Run.invariant (I := fun m => n.world.clock ≤ m.world.clock) ?_ ?_ ?_ (.snoc .nil h) (Int.le_refl _)
  · exact fun hm hi => Int.le_trans hi hm.clock_le
  · exact fun _ hi => hi
  · exact fun hb hi => hb.invariant (I := fun m => n.world.clock ≤ m.world.clock)
      (fun hm hi => Int.le_trans hi hm.clock_le) id hi

theorem Boots.prepared (h : Boots s w tr n) : n.server.prepared = none :=
  h.invariant (I := fun n => n.server.prepared = none) (fun hm hi => (hm.prepared_eq (by simp)).trans hi)
    (fun _ => rfl) rfl

/-- What happens to the preparation in one step: an accepted `PREPARE` sets
it, and apart from that it stays, runs out, or is superseded. -/
theorem Node.Step.prepared_cases (h : n.Step e n') :
    (∃ request tr, e = .call (.joinCluster request) tr .ok ∧ request.phase = .prepare ∧
      n'.server.prepared = some ⟨n'.world.clock + preparedValidity, request.clusterToken⟩) ∨
    (¬ e.Supersedes ∧ n'.server.prepared = n.server.prepared) ∨
    (¬ e.Supersedes ∧ n'.server.prepared = none ∧ n.server.Expired n'.world.clock) ∨
    (e.Supersedes ∧ n'.server.prepared = none) := by
  cases e with
  | gossip =>
    cases h
    exact .inr (.inl ⟨id, rfl⟩)
  | restart c died tr =>
    cases h with
    | restart _ _ hb => exact .inr (.inr (.inr ⟨trivial, hb.prepared⟩))
  | call c tr reply =>
  by_cases hj : ∃ request, c = .joinCluster request
  · obtain ⟨request, rfl⟩ := hj
    obtain ⟨r, rfl, ho⟩ := h.joinCluster
    cases ho with
    | failed hp _ =>
      rcases hp with hp | ⟨hp, he⟩
      · exact .inr (.inl ⟨id, hp⟩)
      · exact .inr (.inr (.inl ⟨id, hp, he⟩))
    | accepted hph _ hp => exact .inl ⟨request, tr, rfl, hph, hp⟩
    | cancelled _ hp => exact .inr (.inr (.inr ⟨trivial, hp⟩))
    | joined _ _ _ _ _ _ hp => exact .inr (.inr (.inr ⟨trivial, hp⟩))
  · refine .inr (.inl ⟨fun hs => ?_, ?_⟩)
    · cases c with
      | joinCluster request => exact hj ⟨request, rfl⟩
      | _ => exact hs
    · cases h with
      | call hr ha =>
        refine Chain.invariant (I := fun n' => n'.server.prepared = n.server.prepared) ?_ (serve_chain hr ha) rfl
        refine fun hm hi => (hm.prepared_eq ?_).trans hi
        rintro request ⟨⟩
        exact hj ⟨request, rfl⟩

/-- The preparation in memory is that of the last accepted `PREPARE`. -/
theorem Node.Run.lastPrepare (hf : n₀.Fresh) (hr : n₀.Run es n) {p : PreparedState}
    (hp : n.server.prepared = some p) :
    ∃ t, n₀.LastPrepare es n p.clusterToken t ∧ p.validUntil = t + preparedValidity := by
  induction hr with
  | nil =>
    obtain ⟨s, w, tr, hb⟩ := hf
    simp [hb.prepared] at hp
  | snoc hr hs ih =>
    rcases hs.prepared_cases with ⟨request, tr, rfl, hph, h⟩ | ⟨he, h⟩ | ⟨-, h, -⟩ | ⟨-, h⟩
    · cases h.symm.trans hp
      exact ⟨_, .accepted hr hs hph, rfl⟩
    · obtain ⟨t, hl, ht⟩ := ih (h ▸ hp)
      exact ⟨t, .since hl hs he, ht⟩
    · simp [h] at hp
    · simp [h] at hp

/-- Until its time is up, the last accepted `PREPARE` is in memory. -/
theorem Node.LastPrepare.held {token : String} {t : Time} (h : n₀.LastPrepare es n token t) :
    n.server.prepared = some ⟨t + preparedValidity, token⟩ ∨ t + preparedValidity < n.world.clock := by
  induction h with
  | accepted hr hs hph =>
    obtain ⟨r, hok, ho⟩ := hs.joinCluster
    cases ho with
    | failed => cases hok
    | accepted _ _ hp => exact .inl hp
    | cancelled hph' => simp [hph] at hph'
    | joined hph' => simp [hph] at hph'
  | @since es n n' e token t _ hs he ih =>
    rcases ih with ih | ih
    · rcases hs.prepared_cases with ⟨request, tr, rfl, -⟩ | ⟨-, h⟩ | ⟨-, -, p, hp, hlt⟩ | ⟨he', -⟩
      · exact (he trivial).elim
      · exact .inl (h ▸ ih)
      · cases ih.symm.trans hp
        exact .inr hlt
      · exact (he he').elim
    · exact .inr (Int.lt_of_lt_of_le ih hs.clock_le)

/-- **Two-phase join.** A join for a token goes through only for the current
leader, with no etcd running, on the last accepted `PREPARE`, which was for
that token, at most `preparedValidity` ago, and neither cancelled nor consumed
since. And while an accepted `PREPARE` stands and is in time, every other one
is refused and leaves the node as it was, but for the reading of the clock. -/
theorem joinCluster_two_phase (hf : n₀.Fresh) (hr : n₀.Run es n)
    (hs : n.Step (.call (.joinCluster request) tr reply) n') :
    (request.phase = .initialCluster ∨ request.phase = .joinExisting → reply = .ok →
      n.server.Authorizes request.header ∧ n.server.process = none ∧
      ∃ t, n₀.LastPrepare es n request.clusterToken t ∧ n'.world.clock ≤ t + preparedValidity) ∧
    ∀ token t, n₀.LastPrepare es n token t → n'.world.clock ≤ t + preparedValidity → request.phase = .prepare →
      (∃ err, reply = .error err) ∧ n'.server = n.server ∧
      n'.world = { n.world with clock := n'.world.clock } := by
  obtain ⟨r, rfl, ho⟩ := hs.joinCluster
  constructor
  · intro hph hok
    cases ho with
    | failed => cases hok
    | accepted hph' => simp [hph'] at hph
    | cancelled hph' => simp [hph'] at hph
    | joined _ ha hproc hp htok hle _ =>
      obtain ⟨t, hl, ht⟩ := hr.lastPrepare hf hp
      exact ⟨ha, hproc, t, htok ▸ hl, ht ▸ hle⟩
  · intro token t hl hle hph
    have hheld : n.server.prepared = some ⟨t + preparedValidity, token⟩ :=
      hl.held.resolve_right (Int.not_lt.2 (Int.le_trans hs.clock_le hle))
    have hvalid : ¬ n.server.Expired n'.world.clock := by
      rintro ⟨p, hp, hlt⟩
      cases hheld.symm.trans hp
      exact Int.not_le.2 hlt hle
    cases ho with
    | failed hp hrest =>
      obtain ⟨hserver, hworld⟩ := hrest hph
      have hp : n'.server.prepared = n.server.prepared := hp.resolve_right fun h => hvalid h.2
      exact ⟨⟨_, rfl⟩, by rw [hserver, hp], hworld⟩
    | accepted _ hnone _ =>
      rcases hnone with h | h
      · simp [hheld] at h
      · exact (hvalid h).elim
    | cancelled hph' => simp [hph] at hph'
    | joined hph' => simp [hph] at hph'

theorem joinCluster_two_phase_formed : ∃ (n₀ n n' : Node) (es : List NodeEvent) (tr : Trace sysSig),
    n₀.Fresh ∧ n₀.Run es n ∧ n.Step (.call (Scenario.join .initialCluster) tr .ok) n' ∧
    ∃ t, n₀.LastPrepare es n "cluster" t ∧ n'.world.clock ≤ t + preparedValidity := by
  have hplayed : ∃ es n tr n',
      Scenario.booted.play [Scenario.elect "token", .call (Scenario.join .prepare)] = some (es, n) ∧
      n.feed (.call (Scenario.join .initialCluster)) =
        some (.call (Scenario.join .initialCluster) tr .ok, n') := ⟨_, _, _, _, rfl, rfl⟩
  obtain ⟨es, n, tr, n', hplay, hfeed⟩ := hplayed
  have hf := Scenario.booted_fresh
  have hr := Node.play_run hplay
  have hs := Node.feed_step hfeed
  exact ⟨_, n, n', es, tr, hf, hr, hs, ((joinCluster_two_phase hf hr hs).1 (.inl rfl) rfl).2.2⟩

end Etcdadm
