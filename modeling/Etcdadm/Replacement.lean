/-
A dead member is replaced, if there is one too many.

A member that was lost is to be replaced in two steps: an iteration removes it,
and a later one adds an idle peer in its place. But `replaceUnhealthy` takes
the first step only if the cluster has more members than it should have. In a
cluster of the size it should have, a dead member stays.

All this is about whole iterations in which nothing goes wrong: `spoils` says
what could.
-/
import Etcdadm.LastHealthy

namespace Etcdadm

open EtcdController ClusterState

variable {m : EtcdController} {l : LeadershipState} {cs : ClusterState} {spec : ClusterSpec} {acked : Nat}
  {t : Time} {s : Trace ctlSig}

/-! ## An iteration in which nothing goes wrong -/

/-- The version of the spec turns out to be unknown, the backup or the removal
fails, or the clock goes back. -/
def spoils (t : Time) : (r : CtlReq) → r.Resp → Bool
  | .bindirForEtcdVersion _ _, .error _ => true
  | .doBackup _ _, .error _ => true
  | .removeMember _ _, .error _ => true
  | .now, now => decide (now < t)
  | _, _ => false

def Spoiled (t : Time) (tr : Trace ctlSig) : Prop := ∃ e ∈ tr, spoils t e.req e.resp = true

theorem Spoiled.snoc {r : CtlReq} {x : r.Resp} (h : spoils t r x = true) : Spoiled t (s ++ [⟨r, x⟩]) :=
  ⟨⟨r, x⟩, by simp, h⟩

/-- A member is removed, and it is the only one. -/
def RemovesOne (cs : ClusterState) (tr : Trace ctlSig) : Prop :=
  ∃ pre urls victim post id, tr = pre ++ ⟨.removeMember urls victim, .ok ()⟩ :: post ∧ cs.Down id victim ∧
    ∀ e ∈ pre ++ post, e.req.kind ≠ .removeMember

def Unremoved (tr : Trace ctlSig) : Prop := ∀ e ∈ tr, e.req.kind ≠ .removeMember

theorem Unremoved.not_removesOne (h : Unremoved s) : ¬ RemovesOne cs s := by
  intro ⟨pre, urls, victim, post, id, heq, _⟩
  rw [heq] at h
  exact h _ (List.mem_append_right _ List.mem_cons_self) rfl

/-- The cluster has all its members, one of which was last seen healthy a
deadline before; there is a peer to take its place and one to make a backup,
and nothing else is to be done first. -/
structure EtcdController.NeedsRepair (m : EtcdController) (cs : ClusterState) (spec : ClusterSpec) (t : Time) : Prop where
  unquarantined : cs.quarantinedMembers = 0
  atLeastThree : 3 ≤ spec.memberCount
  full : spec.memberCount ≤ cs.members.size
  configured : (cs.configuredMembers : Int) ≤ spec.memberCount
  idle : cs.HasIdle
  canBackup : cs.CanBackup
  dead : ∃ id member h, cs.Down id member ∧ m.peerState.lookup id = some h ∧ h + removeUnhealthyDeadline ≤ t

/-- The books are not changed for a member that is down. -/
theorem EtcdController.NeedsRepair.noting (h : m.NeedsRepair cs spec t) : (m.noting t cs).NeedsRepair cs spec t := by
  obtain ⟨id, member, t', hdown, hbook, hdue⟩ := h.dead
  refine { h with dead := ⟨id, member, t', hdown, ?_, hdue⟩ }
  show (trackHealth t cs m.peerState).lookup id = some t'
  rw [lookup_trackHealth, hdown.2, hbook]
  simp

theorem EtcdController.NeedsRepair.stays {m' : EtcdController} (h : m.NeedsRepair cs spec t) (hm : m.Stays m') :
    m'.NeedsRepair cs spec t := by
  obtain ⟨id, member, t', hdown, hbook, hdue⟩ := h.dead
  rw [← hm.peerState] at hbook
  exact { h with dead := ⟨id, member, t', hdown, hbook, hdue⟩ }

theorem ClusterState.verdict_of_unquarantined (h : cs.quarantinedMembers = 0) : cs.verdict acked spec = .pass := by
  rw [verdict, if_neg (by omega)]

/-! ## Step by step -/

/-- Nothing is asked of the requests here. -/
abbrev recording : Monitor ctlSig (Trace ctlSig) := Monitor.history fun _ _ => True

theorem wp_recording {α : Type} {p : CtlM α} {Q : Trace ctlSig → α → Prop} (h : ∀ s' a, s <+: s' → Q s' a) :
    recording.wp p s Q := by
  refine Monitor.wp_mono ?_ (Monitor.wp_history_grows
    (Monitor.wp_of_returns (fun _ _ => trivial) (fun _ _ => trivial) (.trivially p)))
  intro s' a ⟨hgrows, _⟩
  exact h s' a hgrows

theorem Spoiled.mono {s' : Trace ctlSig} (h : Spoiled t s) (hgrows : s <+: s') : Spoiled t s' := by
  obtain ⟨e, he, hspoils⟩ := h
  exact ⟨e, hgrows.subset he, hspoils⟩

theorem wp_spoiled {α : Type} {p : CtlM α} {Q : Trace ctlSig → α → Prop} (hs : Spoiled t s) :
    recording.wp p s fun s' a => Spoiled t s' ∨ Q s' a :=
  wp_recording fun _ _ hgrows => .inl (hs.mono hgrows)

theorem wp_unremoved {α : Type} {kinds : List Kind} {p : CtlM α} {R : α → Prop} (hs : Unremoved s)
    (hp : p.Uses (Sends l kinds) True) (hk : .removeMember ∉ kinds) (hr : p.Returns R) :
    recording.wp p s fun s' a => Unremoved s' ∧ R a := by
  refine Monitor.wp_mono ?_ (Monitor.wp_history_of_uses (fun _ _ _ => trivial) hp hr)
  intro s' a ⟨⟨tr, hs', htr⟩, ha⟩
  rw [hs']
  exact ⟨List.forall_mem_append.2 ⟨hs, fun e he h => hk (h ▸ (htr e he).1)⟩, ha⟩

theorem wp_verify : recording.wp (verifyEtcdVersion spec) s fun s' err => s <+: s' ∧ (err = none ∨ Spoiled t s') := by
  refine Monitor.wp_ctl.2 ⟨trivial, fun answer _ => ?_⟩
  cases answer with
  | error err => exact ⟨List.prefix_append _ _, .inr (.snoc rfl)⟩
  | ok _ => exact ⟨List.prefix_append _ _, .inl rfl⟩

/-- A backup that can be made is made, if nothing goes wrong. -/
theorem wp_backupVia_ok : ∀ (members : List (EtcdMemberId × EtcdProcessMember)) {s : Trace ctlSig},
    (∃ e ∈ members, (cs.findPeer e.2).isSome = true) →
      recording.wp (m.backupVia l spec cs members) s fun s' r => Spoiled t s' ∨ ∃ response, r = .ok response
  | [], _, h => by simp at h
  | (id, member) :: rest, s, h => by
    unfold backupVia
    split
    next hnone =>
      obtain ⟨e, he, hpeer⟩ := h
      refine wp_backupVia_ok rest ⟨e, (List.mem_cons.1 he).resolve_left ?_, hpeer⟩
      rintro rfl
      rw [hnone] at hpeer
      cases hpeer
    · refine Monitor.wp_ctl.2 ⟨trivial, fun answer _ => ?_⟩
      cases answer with
      | error err => exact wp_spoiled (.snoc rfl)
      | ok response => exact .inr ⟨response, rfl⟩

theorem wp_doClusterBackup_ok (h : cs.CanBackup) :
    recording.wp (m.doClusterBackup l spec cs) s fun s' r => Spoiled t s' ∨ ∃ response, r = .ok response := by
  obtain ⟨id, member, hm, hpeer⟩ := h
  refine Monitor.wp_range.2 ⟨trivial, fun ks _ => wp_backupVia_ok _ ⟨(id, member), ?_, hpeer⟩⟩
  exact (GoMap.mem_inOrder ks.2).2 hm

theorem wp_etcdRemoveMember_ok {victim : EtcdProcessMember} (hmembers : cs.members.size ≠ 0) (hs : Unremoved s) :
    recording.wp (cs.etcdRemoveMember victim) s fun s' _ => Spoiled t s' ∨
      ∃ pre urls, s' = pre ++ [⟨.removeMember urls victim, .ok ()⟩] ∧ Unremoved pre := by
  refine Monitor.wp_range.2 ⟨trivial, fun ks _ => ?_⟩
  have hs' : Unremoved (s ++ [⟨.rangeOver cs.members.keys, ks⟩]) := forall_mem_snoc hs (by simp [CtlReq.kind])
  obtain ⟨e, rest, hfirst⟩ : ∃ e rest, cs.members.inOrder ks.1 = e :: rest := by
    refine List.exists_cons_of_length_pos ?_
    rw [GoMap.length_inOrder ks.2]
    omega
  rw [hfirst]
  refine Monitor.wp_bind.2 (Monitor.wp_mono ?_ (wp_unremoved hs' (@uses_clientURLs ⟨"", []⟩ cs e.2 _) (by simp) (.trivially _)))
  intro s₁ urls h₁
  refine Monitor.wp_ctl.2 ⟨trivial, fun answer _ => ?_⟩
  cases answer with
  | error err => exact wp_spoiled (.snoc rfl)
  | ok _ => exact .inr ⟨s₁, urls, rfl, h₁.1⟩

theorem wp_removeNodeFromCluster_one (hc : cs.Consistent) (hbooked : m.Booked cs) (h : m.NeedsRepair cs spec t)
    (hs : Unremoved s) :
    recording.wp (m.removeNodeFromCluster l spec cs false) s fun s' _ => Spoiled t s' ∨ RemovesOne cs s' := by
  refine Monitor.wp_bind.2 (Monitor.wp_mono ?_ (wp_pickVictim_repair (fun _ _ _ => trivial) hc hbooked))
  intro s₁ r hpicked
  obtain ⟨now, tr, hs₁, htr, hsome, hnone⟩ := hpicked
  by_cases hback : now < t
  · have hspoiled : Spoiled t s₁ := by
      refine ⟨⟨.now, now⟩, ?_, decide_eq_true hback⟩
      rw [hs₁]
      simp
    exact wp_spoiled hspoiled
  have hquiet : Unremoved s₁ := by
    rw [hs₁]
    refine List.forall_mem_append.2 ⟨hs, List.forall_mem_cons.2 ⟨by simp [CtlReq.kind], fun e he => ?_⟩⟩
    simp [htr e he]
  cases r with
  | none =>
    -- the dead member would have been picked
    obtain ⟨id, member, t', hdown, hbook, hdue⟩ := h.dead
    have hlate : m.overdue cs now id = true :=
      overdue_iff.2 ⟨hdown.2, t', hbook, Int.le_trans hdue (Int.not_lt.1 hback)⟩
    rw [hnone rfl id member hdown] at hlate
    cases hlate
  | some victim =>
  obtain ⟨id, hdown, -⟩ := hsome victim rfl
  refine Monitor.wp_bind.2 (Monitor.wp_mono ?_ (Monitor.wp_and (wp_doClusterBackup_ok (t := t) h.canBackup)
    (wp_unremoved hquiet uses_doClusterBackup (by simp) (.trivially _))))
  intro s₂ r hbackup
  obtain ⟨hok, hs₂, -⟩ := hbackup
  rcases hok with hspoiled | ⟨response, rfl⟩
  · exact wp_spoiled hspoiled
  have hmembers : cs.members.size ≠ 0 := by
    have := hdown.size_lt hc
    omega
  refine Monitor.wp_bind.2 (Monitor.wp_mono ?_ (wp_etcdRemoveMember_ok (t := t) hmembers hs₂))
  intro s₃ err hremoved
  have hend : Spoiled t s₃ ∨ RemovesOne cs s₃ := by
    refine hremoved.imp_right fun hone => ?_
    obtain ⟨pre, urls, hs₃, hpre⟩ := hone
    exact ⟨pre, urls, victim, [], id, hs₃, hdown, by rwa [List.append_nil]⟩
  cases err <;> exact hend

/-- The upkeep looks at the cluster and comes to the repair, which there is only
with a member too many. -/
theorem wp_maintain_one (hc : cs.Consistent) (hbooked : m.Booked cs) (h : m.NeedsRepair cs spec t)
    (hacked : AckedQuorum acked spec) (hs : Unremoved s) : recording.wp (m.maintain l acked cs spec) s fun s' _ =>
      Spoiled t s' ∨ (RemovesOne cs s' ↔ spec.memberCount < cs.members.size) := by
  refine Monitor.wp_bind.2 (Monitor.wp_mono ?_ (wp_unremoved hs uses_backupMembers (by simp) returns_backupMembers))
  intro s₁ c ⟨hs₁, hm⟩
  refine Monitor.wp_bind.2 (Monitor.wp_mono ?_ (Monitor.wp_and (wp_verify (t := t))
    (wp_unremoved hs₁ (@uses_verifyEtcdVersion l spec _) (by simp) (.trivially _))))
  intro s₂ err ⟨⟨_, hknown⟩, hs₂, _⟩
  rcases hknown with rfl | hspoiled
  · dsimp only
    rw [checkQuarantine_eq, verdict_of_unquarantined h.unquarantined]
    change recording.wp (c.resize l acked cs spec >>= _) s₂ _
    obtain ⟨id, member, -, hdown, -⟩ := h.dead
    have hlt := hdown.size_lt hc
    have hfull := h.full
    have hconf := h.configured
    have hthree := h.atLeastThree
    -- the repair, if it is one
    have hreplace : recording.wp (c.replaceUnhealthy l acked cs spec) s₂ fun s' r => Spoiled t s' ∨
        (spec.memberCount < cs.members.size ∧ r.isSome = true ∧ RemovesOne cs s') ∨
        ((cs.members.size : Int) ≤ spec.memberCount ∧ r = none ∧ Unremoved s') := by
      unfold replaceUnhealthy
      rw [if_pos hlt]
      refine Monitor.wp_bind.2 (Monitor.wp_mono ?_ (wp_unremoved hs₂ (@uses_idlePeers l cs _) (by simp) returns_idlePeers))
      intro s₃ idle ⟨hs₃, hidle⟩
      have hne : idle ≠ [] := by
        obtain ⟨id, p, hp⟩ := h.idle
        exact List.ne_nil_of_mem ((hidle (id, p)).2 hp)
      rw [if_neg hne, if_neg (by omega)]
      split
      next hfew => exact .inr (.inr ⟨hfew, rfl, hs₃⟩)
      next hmany =>
      rw [if_neg (Int.not_lt.2 hacked)]
      refine Monitor.wp_bind.2 (Monitor.wp_mono ?_ (wp_removeNodeFromCluster_one hc (hbooked.stays hm) (h.stays hm) hs₃))
      intro s₄ r hr
      exact hr.imp_right fun hone => .inl ⟨Int.not_le.1 hmany, rfl, hone⟩
    unfold resize
    rw [if_neg (by omega), if_neg (by omega), if_neg (by omega)]
    refine Monitor.wp_bind.2 (Monitor.wp_bind.2 (Monitor.wp_mono ?_ hreplace))
    intro s₃ r hr
    rcases hr with hspoiled | ⟨hmany, hsome, hone⟩ | ⟨hfew, rfl, hs₃⟩
    · exact wp_spoiled hspoiled
    · obtain ⟨p, rfl⟩ := Option.isSome_iff_exists.1 hsome
      exact .inr (iff_of_true hone hmany)
    · change recording.wp (c.settle l acked cs spec) s₃ _
      refine Monitor.wp_mono ?_ (wp_unremoved hs₃ uses_settle (by simp) (.trivially _))
      intro s₄ _ ⟨hs₄, _⟩
      exact .inr (iff_of_false hs₄.not_removesOne (Int.not_lt.2 hfew))
  · exact wp_spoiled hspoiled

/-! ## Whole iterations -/

/-- An iteration that goes right comes to a created cluster of this spec with no
restore pending, and finds it in need of a repair. -/
structure Healing (m : EtcdController) (tr : Trace ctlSig) (cs : ClusterState) (spec : ClusterSpec) (t : Time) : Prop where
  acked : ∃ infos, [⟨.peers, infos⟩] <+: tr ∧ AckedQuorum infos.length spec
  observed : observed tr = some (cs, t)
  created : ⟨.isNewCluster, .ok false⟩ ∈ tr
  clusterSpec : ⟨.logSpec spec, ()⟩ ∈ tr
  unpending : Unpending tr
  smooth : ∀ e ∈ tr, spoils t e.req e.resp = false
  needs : m.NeedsRepair cs spec t

theorem Healing.not_spoiled {tr : Trace ctlSig} (h : Healing m tr cs spec t) : ¬ Spoiled t tr := by
  intro ⟨e, he, hspoils⟩
  rw [h.smooth e he] at hspoils
  cases hspoils

/-- A pending restore is noted, if the version is known. -/
theorem wp_restore_pending {cmd : StoredCommand} : recording.wp (m.restore l acked cs spec cmd) s fun s' _ =>
    s <+: s' ∧ (Spoiled t s' ∨ ∃ data, ⟨.logRestoreCommand data, ()⟩ ∈ s') := by
  refine Monitor.wp_bind.2 (Monitor.wp_mono ?_ (wp_verify (t := t)))
  intro s₁ err ⟨hgrows, hknown⟩
  rcases hknown with rfl | hspoiled
  · refine Monitor.wp_ctl.2 ⟨trivial, fun _ _ => wp_recording fun s' _ hgrows' => ?_⟩
    refine ⟨hgrows.trans ((List.prefix_append _ _).trans hgrows'), .inr ⟨cmd.data, hgrows'.subset ?_⟩⟩
    exact List.mem_append_right _ (List.mem_singleton.2 rfl)
  · exact wp_recording fun s' _ hgrows' => ⟨hgrows.trans hgrows', .inl (hspoiled.mono hgrows')⟩

/-- What an iteration finds is what it was ready for. -/
theorem Ready.healing {m' : EtcdController} {cs' : ClusterState} {spec' : ClusterSpec} {t' : Time} {tr : Trace ctlSig}
    (hready : Ready m s m' acked cs t) (htr : ∀ e ∈ tr, e.req.kind ∈ maintainKinds)
    (h : Healing m (s ++ [⟨.isNewCluster, .ok false⟩] ++ [⟨.logSpec spec, ()⟩] ++ tr) cs' spec' t') :
    cs' = cs ∧ spec' = spec ∧ t' = t ∧ AckedQuorum acked spec := by
  have hobs := (observed_append (observed_append (observed_append hready.observed _) _) tr).symm.trans h.observed
  cases hobs
  have hspec : spec' = spec := by
    rcases List.mem_append.1 h.clusterSpec with hmem | hmem
    · rcases List.mem_append.1 hmem with hmem | hmem
      · rcases List.mem_append.1 hmem with hmem | hmem
        · cases hready.notes _ hmem rfl
        · cases List.mem_singleton.1 hmem
      · cases List.mem_singleton.1 hmem
        rfl
    · have hkind := htr _ hmem
      simp [CtlReq.kind, maintainKinds] at hkind
  obtain ⟨infos, hpeers, hquorum⟩ := h.acked
  obtain ⟨infos', hpeers', hlen⟩ := hready.acked
  have hsame : infos = infos' := by
    rw [List.append_assoc, List.append_assoc] at hpeers
    obtain ⟨more, heq⟩ := hpeers
    obtain ⟨more', heq'⟩ := hpeers'.trans (List.prefix_append s _)
    cases (List.cons.inj (heq.trans heq'.symm)).1
    rfl
  subst hsame hspec
  exact ⟨rfl, rfl, rfl, hlen ▸ hquorum⟩

theorem wp_run_one : recording.wp m.run [] fun tr _ => ∀ cs spec t, Healing m tr cs spec t →
    (RemovesOne cs tr ↔ spec.memberCount < cs.members.size) := by
  refine wp_run_history (fun _ _ _ _ => trivial) ?_ ?_ ?_ ?_
  · intro s m' r hobs _ cs spec t h
    cases hobs.symm.trans h.observed
  · intro s cs now m' r _ _ hunread _ cs' spec t h
    exact (hunread false h.created).elim
  · intro s m' l acked cs now hready
    refine Monitor.wp_mono ?_ (Monitor.wp_history_of_uses (fun _ _ _ => trivial) uses_newCluster (.trivially _))
    intro s' a htrace cs' spec t h
    obtain ⟨⟨tr, hs', htr⟩, -⟩ := htrace
    have hread := h.created
    rw [hs'] at hread
    rcases List.mem_append.1 hread with hmem | hmem
    · rcases List.mem_append.1 hmem with hmem | hmem
      · exact (hready.unread _ hmem rfl).elim
      · cases List.mem_singleton.1 hmem
    · have hkind := (htr _ hmem).1
      simp [CtlReq.kind, newClusterKinds] at hkind
  · intro s m' l acked cs now hready
    unfold reconcile
    split
    · intro cs' spec t h
      rcases List.mem_append.1 h.clusterSpec with hmem | hmem
      · cases hready.notes _ hmem rfl
      · cases List.mem_singleton.1 hmem
    next spec _ =>
    refine Monitor.wp_ctl.2 ⟨trivial, fun _ _ => ?_⟩
    split
    · refine Monitor.wp_mono ?_ (wp_restore_pending (t := now))
      intro s' a hrestore cs' spec' t h
      obtain ⟨⟨more, rfl⟩, hpending⟩ := hrestore
      cases (observed_append (observed_append (observed_append hready.observed _) _) more).symm.trans h.observed
      rcases hpending with hspoiled | ⟨data, hmem⟩
      · exact (h.not_spoiled hspoiled).elim
      · exact (h.unpending data hmem).elim
    have hquiet : Unremoved (s ++ [⟨.isNewCluster, .ok false⟩] ++ [⟨.logSpec spec, ()⟩]) := by
      refine forall_mem_snoc (forall_mem_snoc (fun e he hk => ?_) (by simp [CtlReq.kind])) (by simp [CtlReq.kind])
      have hkind := hready.scouted e he
      simp [hk, scoutKinds] at hkind
    have htrace {Q : Trace ctlSig → EtcdController × Progress → Prop} (hQ : recording.wp (m'.maintain l acked cs spec)
        (s ++ [⟨.isNewCluster, .ok false⟩] ++ [⟨.logSpec spec, ()⟩]) Q) := Monitor.wp_and hQ
      (Monitor.wp_history_of_uses (fun _ _ _ => trivial) uses_maintain (.trivially _))
    by_cases hneeds : m.NeedsRepair cs spec now ∧ AckedQuorum acked spec
    · have hbooked : m'.Booked cs := (@booked_noting m cs now).stays hready.stays
      refine Monitor.wp_mono ?_ (htrace (wp_maintain_one hready.consistent hbooked (hneeds.1.noting.stays hready.stays)
        hneeds.2 hquiet))
      intro s' a hend cs' spec' t h
      obtain ⟨hone, ⟨tr, rfl, htr⟩, -⟩ := hend
      obtain ⟨rfl, rfl, rfl, -⟩ := hready.healing (fun e he => (htr e he).1) h
      exact hone.resolve_left h.not_spoiled
    · refine Monitor.wp_mono ?_ (htrace (Monitor.wp_of_returns (fun _ _ => trivial) (fun _ _ => trivial) (.trivially _)))
      intro s' a hend cs' spec' t h
      obtain ⟨-, ⟨tr, rfl, htr⟩, -⟩ := hend
      obtain ⟨rfl, rfl, rfl, hacked⟩ := hready.healing (fun e he => (htr e he).1) h
      exact (hneeds ⟨h.needs, hacked⟩).elim

/-! ## No panic on the way -/

theorem safe_pickVictim_repair (hbooked : m.Booked cs) : (m.pickVictim cs false).Uses (Sends l [.look]) False := by
  refine Uses.ctl ⟨List.mem_singleton.2 rfl, trivial⟩ fun now => .bind ?_ fun victim => ?_
  · unfold unhealthyVictim
    split
    · refine Uses.range_mem ⟨List.mem_singleton.2 rfl, trivial⟩ fun members hmembers => ?_
      rw [pickUnhealthy_eq _ fun e he => hbooked e.1 e.2 (hmembers e he)]
      trivial
    · trivial
  · rw [if_pos (.inr rfl)]
    trivial

theorem safe_removeNodeFromCluster (hbooked : m.Booked cs) :
    (m.removeNodeFromCluster l spec cs false).Uses (Sends l [.look, .backup, .removeMember]) False := by
  refine .bind ((safe_pickVictim_repair hbooked).widen (by simp)) fun victim => ?_
  cases victim with
  | none => trivial
  | some victim =>
  refine .bind (uses_doClusterBackup.widen (by simp)) fun r => ?_
  cases r with
  | error err => trivial
  | ok _ =>
  refine .bind (Uses.range ⟨by simp [CtlReq.kind], trivial⟩ fun members =>
    (uses_removeMemberVia members).widen (by simp)) fun err => ?_
  cases err <;> trivial

theorem safe_maintain_repair (hbooked : m.Booked cs) (hc : cs.Consistent) (h : m.NeedsRepair cs spec t)
    (hacked : AckedQuorum acked spec) (hmany : spec.memberCount < cs.members.size) :
    (m.maintain l acked cs spec).Uses (Sends l [.look, .backup, .removeMember]) False := by
  refine .bind_of_returns (uses_backupMembers.widen (by simp)) returns_backupMembers fun c hm => ?_
  refine .bind (uses_verifyEtcdVersion.widen (by simp)) fun err => ?_
  cases err with
  | some err => trivial
  | none =>
  dsimp only
  rw [checkQuarantine_eq, verdict_of_unquarantined h.unquarantined]
  change Prog.Uses _ _ (c.resize l acked cs spec >>= _)
  obtain ⟨id, member, -, hdown, -⟩ := h.dead
  have hlt := hdown.size_lt hc
  have hconf := h.configured
  have hthree := h.atLeastThree
  have hreplace : (c.replaceUnhealthy l acked cs spec).Uses (Sends l [.look, .backup, .removeMember]) False := by
    unfold replaceUnhealthy
    rw [if_pos hlt]
    refine .bind (uses_idlePeers.widen (by simp)) fun idle => ?_
    split
    · trivial
    rw [if_neg (by omega), if_neg (by omega), if_neg (Int.not_lt.2 hacked)]
    exact .bind (safe_removeNodeFromCluster (hbooked.stays hm)) fun _ => trivial
  have hresize : (c.resize l acked cs spec).Uses (Sends l [.look, .backup, .removeMember]) False := by
    unfold resize
    rw [if_neg (by omega), if_neg (by omega), if_neg (by omega)]
    exact .bind hreplace fun _ => trivial
  refine .bind_of_returns hresize returns_resize_none fun ⟨c', r⟩ hkept => ?_
  cases r with
  | some r => trivial
  | none =>
    -- the membership is not left as it is
    rcases (hkept rfl).unreplaced hlt with hno | hsmall | hfew | hunacked
    · exact (hno h.idle).elim
    · omega
    · omega
    · exact (hunacked hacked).elim

/-! ## When a dead member is replaced -/

/-- The event notes a pending restore. -/
def isRestore (e : Event ctlSig) : Bool :=
  match e.req with
  | .logRestoreCommand _ => true
  | _ => false

theorem Healing.of_checks {infos : List PeerInfo} {tr : Trace ctlSig} {i j : Nat}
    (hpeers : tr = ⟨.peers, infos⟩ :: tr.tail) (hacked : AckedQuorum infos.length spec) (hobs : Etcdadm.observed tr = some (cs, t))
    (hread : tr[i]? = some ⟨.isNewCluster, .ok false⟩) (hspec : tr[j]? = some ⟨.logSpec spec, ()⟩)
    (hall : (tr.all fun e => !isRestore e && !spoils t e.req e.resp) = true) (h : m.NeedsRepair cs spec t) :
    Healing m tr cs spec t := by
  have hgood (e) (he : e ∈ tr) : isRestore e = false ∧ spoils t e.req e.resp = false := by
    simpa using List.all_eq_true.1 hall e he
  refine ⟨⟨infos, ⟨tr.tail, hpeers.symm⟩, hacked⟩, hobs, List.mem_of_getElem? hread, List.mem_of_getElem? hspec, ?_,
    fun e he => (hgood e he).2, h⟩
  intro data hmem
  have := (hgood _ hmem).1
  cases this

/-- A controller finds `d` down two minutes after it found it healthy. -/
theorem Site.repairing_runs {names : List PeerId} {its : List (Trace ctlSig)} {tr : Trace ctlSig}
    {m m' : EtcdController} {r : Progress} (hpast : (Site.controller "a").play (Site.past names) = some (its, m))
    (hrun : m.run.follow (Site.repairing names (2 * minute) true).answer = (tr, .ret (m', r))) :
    (Site.controller "a").Loop its m ∧ Runs m.run tr (.ret (m', r)) := by
  refine ⟨play_loop hpast, ?_⟩
  have := Prog.follow_runs (o := (Site.repairing names (2 * minute) true).answer) (p := m.run)
  rwa [hrun] at this

/-- **When a dead member is replaced.** An iteration that finds the cluster in
need of a repair, and in which nothing goes wrong, removes exactly one member,
which is down, if and only if the cluster has more members than it should have.
In that case it does not panic either. -/
theorem replaces_dead_member_iff (m : EtcdController) :
    (∀ tr r cs spec t, Runs m.run tr (.ret r) → Healing m tr cs spec t →
      (RemovesOne cs tr ↔ spec.memberCount < cs.members.size)) ∧
    ∀ l acked cs spec t, cs.Consistent → m.NeedsRepair cs spec t → AckedQuorum acked spec →
      spec.memberCount < cs.members.size → ∀ tr e, ¬ Runs ((m.noting t cs).maintain l acked cs spec) tr (.crash e) := by
  refine ⟨fun tr r cs spec t hrun h => hrun.of_history wp_run_one cs spec t h, ?_⟩
  intro l acked cs spec t hc h hacked hmany tr e hrun
  exact (hrun.uses (safe_maintain_repair booked_noting hc h.noting hacked hmany)).2

/-- With `d` the fourth member of three, it is removed. -/
theorem replaces_dead_member_iff_surplus : ∃ (its : List (Trace ctlSig)) (tr : Trace ctlSig) (m m' : EtcdController)
    (r : Progress) (cs : ClusterState), (Site.controller "a").Loop its m ∧ Runs m.run tr (.ret (m', r)) ∧
      Healing m tr cs ⟨3, "3.4.13"⟩ (2 * minute) ∧ cs.members.size = 4 ∧ RemovesOne cs tr := by
  have hplay : ∃ its tr m m' r infos cs, (Site.controller "a").play (Site.past ["a", "b", "c"]) = some (its, m) ∧
      m.run.follow (Site.repairing ["a", "b", "c"] (2 * minute) true).answer = (tr, .ret (m', r)) ∧
      tr = ⟨.peers, infos⟩ :: tr.tail ∧ infos.length = 4 ∧ observed tr = some (cs, 2 * minute) ∧
      tr[32]? = some ⟨.isNewCluster, .ok false⟩ ∧ tr[33]? = some ⟨.logSpec ⟨3, "3.4.13"⟩, ()⟩ ∧
      (tr.all fun e => !isRestore e && !spoils (2 * minute) e.req e.resp) = true ∧
      cs.quarantinedMembers = 0 ∧ cs.members.size = 4 ∧ cs.configuredMembers = 3 ∧ cs.HasIdle ∧ cs.CanBackup ∧
      cs.Down "id-d" (Site.member "d") ∧ m.peerState.lookup "id-d" = some 0 :=
    ⟨_, _, _, _, _, _, _, rfl, rfl, rfl, rfl, rfl, rfl, rfl, rfl, rfl, rfl, rfl, ⟨"e", _, rfl, rfl⟩,
      ⟨"id-a", Site.member "a", rfl, rfl⟩, ⟨rfl, rfl⟩, rfl⟩
  obtain ⟨its, tr, m, m', r, infos, cs, hpast, hfollow, hpeers, hlen, hobs, hread, hspec, hall, hq, hsize, hconf, hidle,
    hbackup, hdown, hbook⟩ := hplay
  obtain ⟨hloop, hrun⟩ := Site.repairing_runs hpast hfollow
  have hneeds : m.NeedsRepair cs ⟨3, "3.4.13"⟩ (2 * minute) :=
    ⟨hq, by decide, by rw [hsize]; decide, by rw [hconf]; decide, hidle, hbackup, "id-d", _, 0, hdown, hbook, by decide⟩
  have hheal := Healing.of_checks hpeers (by rw [hlen]; decide) hobs hread hspec hall hneeds
  refine ⟨its, tr, m, m', r, cs, hloop, hrun, hheal, hsize, ?_⟩
  exact ((replaces_dead_member_iff m).1 tr _ cs _ _ hrun hheal).2 (by rw [hsize]; decide)

/-- With `d` the third member of three, nothing is removed. -/
theorem full_cluster_keeps_dead_member : ∃ (its : List (Trace ctlSig)) (tr : Trace ctlSig) (m m' : EtcdController)
    (r : Progress) (cs : ClusterState), (Site.controller "a").Loop its m ∧ Runs m.run tr (.ret (m', r)) ∧
      Healing m tr cs ⟨3, "3.4.13"⟩ (2 * minute) ∧ cs.members.size = 3 ∧ Unremoved tr := by
  have hplay : ∃ its tr m m' r infos cs, (Site.controller "a").play (Site.past ["a", "b"]) = some (its, m) ∧
      m.run.follow (Site.repairing ["a", "b"] (2 * minute) true).answer = (tr, .ret (m', r)) ∧
      tr = ⟨.peers, infos⟩ :: tr.tail ∧ infos.length = 3 ∧ observed tr = some (cs, 2 * minute) ∧
      tr[27]? = some ⟨.isNewCluster, .ok false⟩ ∧ tr[28]? = some ⟨.logSpec ⟨3, "3.4.13"⟩, ()⟩ ∧
      (tr.all fun e => !isRestore e && !spoils (2 * minute) e.req e.resp) = true ∧
      cs.quarantinedMembers = 0 ∧ cs.members.size = 3 ∧ cs.configuredMembers = 2 ∧ cs.HasIdle ∧ cs.CanBackup ∧
      cs.Down "id-d" (Site.member "d") ∧ m.peerState.lookup "id-d" = some 0 ∧
      (tr.all fun e => e.req.kind != .removeMember) = true :=
    ⟨_, _, _, _, _, _, _, rfl, rfl, rfl, rfl, rfl, rfl, rfl, rfl, rfl, rfl, rfl, ⟨"e", _, rfl, rfl⟩,
      ⟨"id-a", Site.member "a", rfl, rfl⟩, ⟨rfl, rfl⟩, rfl, rfl⟩
  obtain ⟨its, tr, m, m', r, infos, cs, hpast, hfollow, hpeers, hlen, hobs, hread, hspec, hall, hq, hsize, hconf, hidle,
    hbackup, hdown, hbook, hnone⟩ := hplay
  obtain ⟨hloop, hrun⟩ := Site.repairing_runs hpast hfollow
  have hneeds : m.NeedsRepair cs ⟨3, "3.4.13"⟩ (2 * minute) :=
    ⟨hq, by decide, by rw [hsize]; decide, by rw [hconf]; decide, hidle, hbackup, "id-d", _, 0, hdown, hbook, by decide⟩
  have hheal := Healing.of_checks hpeers (by rw [hlen]; decide) hobs hread hspec hall hneeds
  refine ⟨its, tr, m, m', r, cs, hloop, hrun, hheal, hsize, fun e he => ?_⟩
  simpa using List.all_eq_true.1 hnone e he

end Etcdadm
