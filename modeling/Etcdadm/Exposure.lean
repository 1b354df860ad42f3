/-
A node that joins is not in quarantine.

While a member is quarantined, clients are to be kept out until the cluster is
fit for them: the quarantine is lifted for all members at once, when enough of
them are healthy, enough peers acknowledge the leader and the versions agree.
Every `Reconfigure` respects that, for the quarantine, TLS and an upgrade in
place alike. But the controller goes on to the membership, and a node that is
added to a cluster that is too small is told to `JOIN_EXISTING`, on which it
starts un-quarantined: it serves clients while all others keep them out.

`Bypasses` says exactly when.
-/
import Etcdadm.Expand
import Etcdadm.Rolling
import Etcdadm.EtcdServer

namespace Etcdadm

open EtcdController ClusterState

variable {m : EtcdController} {l : LeadershipState} {cs : ClusterState} {spec : ClusterSpec} {acked : Nat}

/-- The request has a node serve on its normal client URLs. -/
def CtlReq.Exposes : CtlReq → Prop
  | .reconfigure _ request => request.quarantined = false
  | .joinCluster _ request => request.phase = .joinExisting
  | _ => False

theorem CtlReq.Exposes.kind {r : CtlReq} (h : r.Exposes) : r.kind = .reconfigure ∨ r.kind = .joinExisting := by
  cases r with
  | reconfigure => exact .inl rfl
  | joinCluster peer request =>
    have hph : request.phase = .joinExisting := h
    exact .inr (by simp [CtlReq.kind, hph])
  | _ => exact h.elim

namespace ClusterState

/-- What has to hold for the quarantine to be lifted. -/
structure Liftable (acked : Nat) (cs : ClusterState) (spec : ClusterSpec) : Prop where
  sameVersion : cs.versionMismatch spec = []
  healthy : cs.HealthyQuorum spec
  acked : AckedQuorum acked spec

/-- The peers report a state only with a cluster, as `GetInfo` does. -/
def Reported (cs : ClusterState) : Prop :=
  ∀ id p st, cs.peers.lookup id = some p → p.info.etcdState = some st → st.cluster.isSome = true

/-- Of what etcd-managers answer it holds. -/
theorem reported_of_getInfo {cs : ClusterState} (h : ∀ id p, cs.peers.lookup id = some p → ∃ s : EtcdServer, p.info = s.getInfo) :
    cs.Reported := by
  intro id p st hp hst
  obtain ⟨s, hinfo⟩ := h id p hp
  rw [hinfo] at hst
  exact (Option.filter_eq_some_iff.1 hst).2

/-- There is a quarantine that is neither lifted nor extended, the cluster is
too small, and nothing keeps an idle peer from being added to it. -/
structure Bypasses (acked : Nat) (cs : ClusterState) (spec : ClusterSpec) : Prop where
  quarantined : 0 < cs.quarantinedMembers
  settled : cs.verdict acked spec = .pass
  few : (cs.members.size : Int) < spec.memberCount
  ackedQuorum : quorumSize cs.members.size ≤ acked
  expands : cs.CanExpand
  idle : ∃ id p node, cs.peers.lookup id = some p ∧ p.configured = false ∧ p.info.nodeConfiguration = some node

/-- Where the quarantine is left alone, it could not be lifted. -/
theorem not_liftable (hq : 0 < cs.quarantinedMembers) (hpass : cs.verdict acked spec = .pass) :
    ¬ cs.Liftable acked spec := by
  intro h
  unfold verdict at hpass
  rw [if_pos hq, if_pos ⟨h.healthy, h.sameVersion⟩, if_pos h.acked] at hpass
  cases hpass

/-- And every peer with a cluster is in it. -/
theorem all_quarantined (hq : 0 < cs.quarantinedMembers) (hpass : cs.verdict acked spec = .pass) {id : PeerId}
    {p : ClusterPeerInfo} {st : EtcdState} (hp : cs.peers.lookup id = some p) (hst : p.info.etcdState = some st)
    (hcluster : st.cluster.isSome = true) : st.quarantined = true := by
  have hnone : ¬ 0 < cs.nonQuarantinedMembers := by
    intro hn
    unfold verdict at hpass
    rw [if_pos hq, if_pos hn] at hpass
    split at hpass
    · split at hpass <;> cases hpass
    · cases hpass
  by_contra hfree
  refine hnone (List.countP_pos_iff.2 ⟨(id, p), GoMap.mem_pairs.2 hp, ?_⟩)
  simp [ClusterPeerInfo.configured, hst, hcluster, Bool.eq_false_of_not_eq_true hfree]

end ClusterState

/-! ## Which steps expose a node -/

/-- A request exposes nothing unless it is allowed to. -/
def ExposesOnly (allowed : Prop) (r : CtlReq) : Prop := r.Exposes → allowed

section

variable {allowed : Prop}

theorem ExposesOnly.of_kind {kinds : List Kind} {r : CtlReq} (hr : r.kind ∈ kinds) (hrec : .reconfigure ∉ kinds)
    (hjoin : .joinExisting ∉ kinds) : ExposesOnly allowed r := by
  intro h
  rcases h.kind with hk | hk
  · exact (hrec (hk ▸ hr)).elim
  · exact (hjoin (hk ▸ hr)).elim

/-- Nor does a `Reconfigure` that keeps the peer in quarantine. -/
theorem ExposesOnly.of_telling {kinds : List Kind} {what : PeerId → ReconfigureRequest → Prop} {r : CtlReq}
    (hr : Says l kinds what r) (hjoin : .joinExisting ∉ kinds)
    (hwhat : ∀ peer request, what peer request → request.quarantined = true) : ExposesOnly allowed r := by
  intro h
  cases r with
  | reconfigure peer request =>
    have hfree : request.quarantined = false := h
    rw [hwhat peer request hr.2] at hfree
    cases hfree
  | joinCluster peer request =>
    have hphase : request.phase = .joinExisting := h
    have hkind := hr.1.1
    simp only [CtlReq.kind, hphase] at hkind
    exact (hjoin hkind).elim
  | _ => exact h.elim

/-- A part that neither reconfigures nor joins. -/
theorem exposes_of_kinds {α : Type} {kinds : List Kind} {p : CtlM α} (hp : p.Uses (Sends l kinds) True)
    (hrec : .reconfigure ∉ kinds) (hjoin : .joinExisting ∉ kinds) : p.Uses (ExposesOnly allowed) True :=
  hp.mono fun _ hr => .of_kind hr.1 hrec hjoin

theorem exposes_addPeer {peer : ClusterPeerInfo}
    (h : cs.HasCluster → ∀ node, peer.info.nodeConfiguration = some node → allowed) :
    (m.addPeer l cs peer).Uses (ExposesOnly allowed) True := by
  refine Uses.range_mem nofun fun peers hpeers => ?_
  split
  · trivial
  next hcurrent =>
  refine Uses.range nofun fun members => ?_
  split
  · trivial
  next node hnode =>
  have hallowed : allowed := h (currentCluster_hasCluster hpeers hcurrent) node hnode
  exact .trivially (fun _ _ => hallowed) _

theorem exposes_addNodeToCluster (hmembers : cs.members.size ≠ 0)
    (h : cs.CanExpand → ∀ id p node, cs.peers.lookup id = some p → p.configured = false →
      p.info.nodeConfiguration = some node → allowed) :
    (m.addNodeToCluster l spec cs).Uses (ExposesOnly allowed) True := by
  unfold addNodeToCluster
  split
  · trivial
  next hquorum =>
  split
  · trivial
  next hconfigured =>
  refine .bind_of_returns (exposes_of_kinds (@uses_idlePeers l cs _) (by simp) (by simp)) returns_idlePeers fun idle hidle => ?_
  split
  · trivial
  refine .bind_of_returns (exposes_of_kinds uses_doClusterBackup (by simp) (by simp)) returns_doClusterBackup fun r hr => ?_
  cases r with
  | error err => trivial
  | ok response =>
  refine Uses.ctl nofun fun i => exposes_addPeer fun hcluster node hnode => ?_
  obtain ⟨hp, hfree⟩ := (hidle _).1 (List.get_mem idle i)
  refine h ⟨hmembers, by omega, ?_, hr response rfl, hcluster⟩ _ _ node hp hfree hnode
  simpa using hconfigured

end

/-! ## The upkeep under quarantine -/

theorem verdict_lifts {q : Bool} (h : cs.verdict acked spec = .set q) : q = false → cs.Liftable acked spec := by
  intro hfalse
  subst hfalse
  unfold verdict at h
  split at h
  · split at h
    next hready =>
      split at h
      next hacked => exact ⟨hready.2, hready.1, hacked⟩
      · cases h
    · split at h <;> cases h
  · cases h

theorem exposes_checkQuarantine :
    (m.checkQuarantine l acked cs spec).Uses (ExposesOnly (cs.Liftable acked spec)) True := by
  rw [checkQuarantine_eq]
  split
  · trivial
  · trivial
  next q hset =>
  refine .bind (tells_updateQuarantine.mono fun r hr => ?_) fun _ => trivial
  cases q with
  | false => exact fun _ => verdict_lifts hset rfl
  | true => exact .of_telling hr (by simp) fun _ _ h => h.2.1

section

variable (hq : 0 < cs.quarantinedMembers) (hpass : cs.verdict acked spec = .pass)
include hq hpass

theorem exposes_resize : (m.resize l acked cs spec).Uses (ExposesOnly (cs.Bypasses acked spec)) True := by
  unfold resize
  split
  next hfew =>
    split
    · exact .bind (exposes_of_kinds (@uses_refreshControlStore l m 0) (by simp) (by simp)) fun _ => trivial
    next hmembers =>
    split
    next hacked =>
      refine .bind (exposes_addNodeToCluster hmembers fun hexpand id p node hp hfree hnode => ?_) fun _ => trivial
      exact ⟨hq, hpass, hfew, hacked, hexpand, id, p, node, hp, hfree, hnode⟩
    · trivial
  split
  · trivial
  split
  · split
    · exact .bind (exposes_of_kinds uses_removeNodeFromCluster (by simp) (by simp)) fun _ => trivial
    · trivial
  · exact .bind (exposes_of_kinds uses_replaceUnhealthy (by simp) (by simp)) fun _ => trivial

/-- TLS and upgrades leave every peer in the quarantine it is in. -/
theorem exposes_settle (hrep : cs.Reported) : (m.settle l acked cs spec).Uses (ExposesOnly False) True := by
  have htls : (m.reconcileTLS l cs).Uses (ExposesOnly False) True := by
    refine tells_reconcileTLS.mono fun r hr => .of_telling hr (by simp) ?_
    intro peer request ⟨id, p, hp, htls⟩
    obtain ⟨-, -, -, st, hst, hcluster, hcopies⟩ := htls
    rw [hcopies]
    exact all_quarantined hq hpass hp hst hcluster
  have hupgrade : (m.upgradeInPlace l spec cs).Uses (ExposesOnly False) True := by
    refine (tells_upgradeInPlace returns_prepareForUpgrade_ok).mono fun r hr => .of_telling hr (by simp) ?_
    intro peer request ⟨memberToPeer, ⟨_, _, hhosting⟩, hsets⟩
    obtain ⟨memberId, p, st, hlookup, -, hst, -, -, hcopies, -⟩ := hsets
    obtain ⟨⟨id, hid⟩, -⟩ := hhosting memberId p hlookup
    rw [hcopies]
    exact all_quarantined hq hpass hid hst (hrep id p st hid hst)
  refine .bind htls fun ⟨changed, err⟩ => ?_
  dsimp only
  split
  · trivial
  split
  · split
    · split
      · exact .bind hupgrade fun _ => trivial
      · exact tells_stopForUpgrade.mono fun r hr => .of_telling hr (by simp) fun _ _ h => h.2.1
    · trivial
  · trivial

end

theorem exposes_maintain (hq : 0 < cs.quarantinedMembers) (hrep : cs.Reported) : (m.maintain l acked cs spec).Uses
    (ExposesOnly (cs.Liftable acked spec ∨ cs.Bypasses acked spec)) True := by
  refine .bind (exposes_of_kinds uses_backupMembers (by simp) (by simp)) fun c => ?_
  refine .bind (exposes_of_kinds (@uses_verifyEtcdVersion l spec _) (by simp) (by simp)) fun err => ?_
  cases err with
  | some err => trivial
  | none =>
  refine .bind_of_returns (exposes_checkQuarantine.mono fun r hr h => .inl (hr h)) returns_checkQuarantine fun r hr => ?_
  cases r with
  | some r => trivial
  | none =>
  refine .bind ((exposes_resize hq (hr rfl)).mono fun r hr h => .inr (hr h)) fun ⟨c, r⟩ => ?_
  cases r with
  | some r => trivial
  | none => exact (exposes_settle hq (hr rfl) hrep).mono fun r hr h => (hr h).elim

/-- Nothing keeps the idle peer out. -/
theorem maintain_exposes (h : cs.Bypasses acked spec) :
    (m.maintain l acked cs spec).Reaches (fun _ => False) CtlReq.Exposes := by
  obtain ⟨id, p, node, hp, hfree, hnode⟩ := h.idle
  have hfew := h.few
  obtain ⟨tr, via, request, hrun, hphase, -⟩ := @addNodeToCluster_joins m l cs spec h.expands id p node hp hfree hnode
  refine maintain_reaches h.settled (.inl ?_)
  unfold resize
  rw [if_pos h.few, if_neg h.expands.members, if_pos h.ackedQuorum]
  refine .bind ⟨_, _, hrun, ⟨⟨.joinCluster p.peer.id request, .ok ()⟩, by simp, hphase⟩, fun _ _ h => h⟩

/-- What an exposing request needs if there is a quarantine. -/
def exposeNeed (acked : Nat) (cs : ClusterState) (spec : ClusterSpec) (_ : Trace ctlSig) (r : CtlReq) : Prop :=
  0 < cs.quarantinedMembers → cs.Reported → ExposesOnly (cs.Liftable acked spec ∨ cs.Bypasses acked spec) r

theorem wp_maintain_expose {s : Trace ctlSig} :
    (Monitor.history (exposeNeed acked cs spec)).wp (m.maintain l acked cs spec) s fun _ _ => True := by
  by_cases hcase : 0 < cs.quarantinedMembers ∧ cs.Reported
  · refine Monitor.wp_of_uses (I := fun _ => True) ?_ (fun _ _ _ _ => trivial) (exposes_maintain hcase.1 hcase.2) trivial
    exact fun _ _ _ hr => ⟨fun _ _ => hr, fun _ _ => trivial⟩
  · refine Monitor.wp_of_uses (I := fun _ => True) ?_ (fun _ _ _ _ => trivial) uses_maintain trivial
    exact fun _ _ _ _ => ⟨fun hq hrep => (hcase ⟨hq, hrep⟩).elim, fun _ _ => trivial⟩

/-- **When the quarantine is not bypassed.** The upkeep of a cluster in
quarantine exposes a node only if the quarantine can be lifted, if and only if
no idle peer is let in beside it. The same is behind each exposing request of
an iteration, with the cluster created and no restore pending. The peers have to
report as `GetInfo` does. -/
theorem quarantine_not_bypassed_iff (m : EtcdController) :
    (∀ cs : ClusterState, (∀ id p, cs.peers.lookup id = some p → ∃ s : EtcdServer, p.info = s.getInfo) → cs.Reported) ∧
    (∀ l acked cs spec, 0 < cs.quarantinedMembers → cs.Reported →
      ((∀ tr p, Runs (m.maintain l acked cs spec) tr p → ∀ e ∈ tr, e.req.Exposes → cs.Liftable acked spec) ↔
        ¬ cs.Bypasses acked spec)) ∧
    ∀ pre e post p, Runs m.run (pre ++ e :: post) p → CtlReq.Exposes e.req →
      ∃ acked cs spec, Standing pre acked cs spec ∧ Unpending pre ∧
        (0 < cs.quarantinedMembers → cs.Reported → cs.Liftable acked spec ∨ cs.Bypasses acked spec) := by
  refine ⟨fun _ => reported_of_getInfo, fun l acked cs spec hq hrep => ⟨?_, ?_⟩, ?_⟩
  · intro h hbypass
    obtain ⟨tr, p, hrun, ⟨e, he, hexposes⟩, -⟩ := @maintain_exposes m l cs spec acked hbypass
    exact not_liftable hq hbypass.settled (h tr p hrun e he hexposes)
  · intro hno tr p hrun e he hexposes
    exact ((hrun.uses (exposes_maintain hq hrep)).1 e he hexposes).resolve_right hno
  · intro pre e post p hrun hexposes
    have hkind : e.req.kind ∉ quietKinds := by
      rcases hexposes.kind with hk | hk <;> simp [hk, quietKinds, scoutKinds, newClusterKinds, restoreKinds]
    obtain ⟨acked, cs, spec, hstanding, hunpending, -, hneed⟩ :=
      hrun.standing (fun m l acked cs spec s _ _ => wp_maintain_expose) hkind
    exact ⟨acked, cs, spec, hstanding, hunpending, fun hq hrep => hneed hq hrep hexposes⟩

/-- Two members of five, in quarantine, and the peer `c` to be the third. -/
def Site.quarantined : Site :=
  { peers := [⟨"a", []⟩, ⟨"b", []⟩, ⟨"c", []⟩]
    info := fun peer => if peer = "c" then ⟨"name", some (node true "c"), none⟩ else Site.running ["a", "b"] true peer
    members := [Site.member "a", Site.member "b"], commands := [], spec := some ⟨5, "3.4.13"⟩, created := true }

/-- Elected in its first iteration, the controller has `c` join in the second,
with two healthy members where the quarantine is lifted for three. -/
theorem joins_beside_quarantine : ∃ (tr₁ pre post : Trace ctlSig) (m : EtcdController) (request : JoinClusterRequest)
    (cs : ClusterState) (spec : ClusterSpec),
    (Site.controller "a").Loop [tr₁, pre ++ ⟨.joinCluster "c" request, .ok ()⟩ :: post] m ∧ request.phase = .joinExisting ∧
    Standing pre 3 cs spec ∧ cs.quarantinedMembers = 2 ∧ cs.healthyMembers.size = 2 ∧ quorumSize spec.memberCount = 3 := by
  have hplay : ∃ (tr₁ tr₂ : Trace ctlSig) (m : EtcdController),
      (Site.controller "a").play [.quarantined, .quarantined] = some ([tr₁, tr₂], m) ∧
      ∃ (request : JoinClusterRequest) (cs : ClusterState) (now : Time),
        tr₂ = tr₂.take 39 ++ ⟨.joinCluster "c" request, .ok ()⟩ :: tr₂.drop 40 ∧ request.phase = .joinExisting ∧
        (tr₂.take 39)[0]? = some ⟨.peers, Site.quarantined.peers⟩ ∧ observed (tr₂.take 39) = some (cs, now) ∧
        (tr₂.take 39)[25]? = some ⟨.isNewCluster, .ok false⟩ ∧
        (tr₂.take 39)[26]? = some ⟨.logSpec ⟨5, "3.4.13"⟩, ()⟩ ∧
        cs.quarantinedMembers = 2 ∧ cs.healthyMembers.size = 2 :=
    ⟨_, _, _, rfl, _, _, _, rfl, rfl, rfl, rfl, rfl, rfl, rfl, rfl⟩
  obtain ⟨tr₁, tr₂, m, hplay, request, cs, now, htr, hphase, hpeers, hobs, hread, hspec, hcounts⟩ := hplay
  have hloop := play_loop hplay
  rw [htr] at hloop
  have hstanding : Standing (tr₂.take 39) 3 cs ⟨5, "3.4.13"⟩ :=
    ⟨⟨_, List.mem_of_getElem? hpeers, rfl⟩, ⟨now, hobs⟩, List.mem_of_getElem? hread, List.mem_of_getElem? hspec⟩
  exact ⟨tr₁, _, _, m, request, cs, _, hloop, hphase, hstanding, hcounts.1, hcounts.2, rfl⟩

end Etcdadm
