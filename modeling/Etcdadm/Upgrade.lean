/-
An upgrade that stops the whole cluster first makes it safe to stop.

`stopForUpgrade` quarantines the members, so that clients write no more, makes
a backup of what they wrote, and leaves the command to restore it in the
control store; only then is etcd stopped, which moves the data away. Every
step can fail and the controller can die at any of them, so what is shown is
about every prefix of a run: whoever looks at a `StopEtcd` finds all of that
before it, and whichever controller leads next finds the command.

Peers and members are matched in three ways: `prepareForUpgrade` by the name
of the node, `updateQuarantine` and the backup by the id of the peer. The ways
agree where the ids and the names do (`NamesCoincide`).
-/
import Etcdadm.Lookback

namespace Etcdadm

open EtcdController ClusterState

variable {m : EtcdController} {l : LeadershipState} {cs : ClusterState} {spec : ClusterSpec}

/-- The member is the one of the peer's node. -/
def ClusterPeerInfo.hosts (p : ClusterPeerInfo) (member : EtcdProcessMember) : Bool :=
  p.info.nodeConfiguration.any (·.name == member.name)

namespace ClusterState

/-- The id of a peer is also the name of its node, and so of the member there. -/
def NamesCoincide (cs : ClusterState) : Prop :=
  ∀ id p, cs.peers.lookup id = some p → p.peer.id = id ∧ ∀ node ∈ p.info.nodeConfiguration, node.name = id

/-- Every member is on a peer. -/
def AllHosted (cs : ClusterState) : Prop :=
  ∀ id member, cs.members.lookup id = some member → ∃ peerId p, cs.peers.lookup peerId = some p ∧ p.hosts member = true

/-- Every peer that hosts a member has acknowledged its quarantine. -/
def QuarantineAcked (cs : ClusterState) (tr : Trace ctlSig) : Prop :=
  ∀ id p memberId member, cs.peers.lookup id = some p → cs.members.lookup memberId = some member →
    p.hosts member = true → ∃ request, request.quarantined = true ∧ ⟨.reconfigure id request, .ok ()⟩ ∈ tr

/-- The members were quarantined, after that a backup was made, and after that
the command was stored that restores this backup to the spec. -/
def SafeToStop (cs : ClusterState) (spec : ClusterSpec) (tr : Trace ctlSig) : Prop :=
  ∃ quarantine peer request response rest, tr = quarantine ++ ⟨.doBackup peer request, .ok response⟩ :: rest ∧
    cs.QuarantineAcked quarantine ∧ ⟨.addCommand ⟨0, some ⟨some spec, response.name⟩⟩, .ok ()⟩ ∈ rest

theorem SafeToStop.mono {tr tr' : Trace ctlSig} (h : cs.SafeToStop spec tr) (hgrows : tr <+: tr') :
    cs.SafeToStop spec tr' := by
  obtain ⟨more, rfl⟩ := hgrows
  obtain ⟨quarantine, peer, request, response, rest, rfl, hacked, hcommand⟩ := h
  refine ⟨quarantine, peer, request, response, rest ++ more, by simp, hacked, ?_⟩
  exact List.mem_append_left _ hcommand

end ClusterState

/-! ## The members have peers -/

theorem returns_mapMembers : ∀ (members : List (EtcdMemberId × EtcdProcessMember)) (memberToPeer : GoMap ClusterPeerInfo),
    (mapMembers cs members memberToPeer).Returns fun r => ∀ result, r = .ok result → ∀ e ∈ members,
      ∃ peerId p, cs.peers.lookup peerId = some p ∧ p.hosts e.2 = true
  | [], _ => by
    intro result _ e he
    cases he
  | (memberId, member) :: rest, memberToPeer => by
    refine Returns.range fun peers hperm => ?_
    split
    · exact nofun
    next peerId p hfind =>
    have hmem : (peerId, p) ∈ peers := List.mem_reverse.1 (List.mem_of_find?_eq_some hfind)
    have hpeer : cs.peers.lookup peerId = some p := GoMap.mem_pairs.1 (hperm.mem_iff.1 hmem)
    have hfound := List.find?_some hfind
    have hhosts : p.hosts member = true := hfound
    refine (returns_mapMembers rest _).mono fun r hr result hok => ?_
    exact List.forall_mem_cons.2 ⟨⟨peerId, p, hpeer, hhosts⟩, hr result hok⟩

theorem returns_prepareForUpgrade :
    (prepareForUpgrade spec cs).Returns fun r => ∀ result, r = .ok result → cs.AllHosted := by
  refine Returns.range fun members hperm => .bind (returns_mapMembers members ∅) fun r hr => ?_
  cases r with
  | error err => exact nofun
  | ok memberToPeer =>
    have hhosted : cs.AllHosted := by
      intro id member hm
      exact hr memberToPeer rfl (id, member) (hperm.mem_iff.2 (GoMap.mem_pairs.2 hm))
    dsimp only
    split
    · exact nofun
    split
    · exact nofun
    · exact fun _ _ => hhosted

/-! ## What each step adds to the history -/

/-- What must come before a `StopEtcd`. -/
def stopMust (cs : ClusterState) (spec : ClusterSpec) (tr : Trace ctlSig) (r : CtlReq) : Prop :=
  r.kind = .stop → cs.AllHosted ∧ cs.SafeToStop spec tr

theorem stopMust_of_kind {kinds : List Kind} (hk : .stop ∉ kinds) (tr : Trace ctlSig) (r : CtlReq)
    (hr : r.kind ∈ kinds) : stopMust cs spec tr r := by
  intro hstop
  rw [hstop] at hr
  exact (hk hr).elim

section

variable {s : Trace ctlSig}

/-- A step that stops nothing. -/
theorem wp_stop_of_uses {α : Type} {kinds : List Kind} {p : CtlM α} {R : α → Prop} (hp : p.Uses (OfKind kinds) True)
    (hk : .stop ∉ kinds) (hr : p.Returns R) :
    (Monitor.history (stopMust cs spec)).wp p s fun s' a => s <+: s' ∧ R a := by
  refine Monitor.wp_mono ?_ (Monitor.wp_history_of_uses (stopMust_of_kind hk) hp hr)
  intro s' a ⟨⟨tr, hs', _⟩, ha⟩
  exact ⟨⟨tr, hs'.symm⟩, ha⟩

/-- A loop that ends without an error has an answer from every peer with a
member of its id. -/
theorem wp_quarantinePeers : ∀ (peers : List (PeerId × ClusterPeerInfo)) (changed : Bool) {s : Trace ctlSig},
    (Monitor.history (stopMust cs spec)).wp (m.quarantinePeers l cs true peers changed) s fun s' r => r.2 = none →
      ∀ e ∈ peers, hasName cs.members e.1 = true →
        ∃ request, request.quarantined = true ∧ ⟨.reconfigure e.2.peer.id request, .ok ()⟩ ∈ s'
  | [], _, _ => by
    intro _ e he
    cases he
  | (peerId, p) :: rest, changed, s => by
    refine Monitor.wp_bind.2 (Monitor.wp_mono ?_
      (wp_stop_of_uses ((@uses_findByName l cs.members peerId).kinds (List.Subset.refl _)) (by simp) returns_findByName))
    intro s₁ member ⟨_, hmember⟩
    cases member with
    | none =>
      refine Monitor.wp_mono ?_ (wp_quarantinePeers rest changed)
      intro s' r hr hnone
      refine List.forall_mem_cons.2 ⟨fun hname => ?_, hr hnone⟩
      rw [hname] at hmember
      cases hmember
    | some member =>
      refine Monitor.wp_ctl.2 ⟨nofun, fun answer _ => ?_⟩
      cases answer with
      | error err => exact nofun
      | ok _ =>
        refine Monitor.wp_mono ?_ (Monitor.wp_history_grows (wp_quarantinePeers rest true))
        intro s' r ⟨hgrows, hr⟩ hnone
        refine List.forall_mem_cons.2 ⟨fun _ => ?_, hr hnone⟩
        exact ⟨_, rfl, hgrows.subset (List.mem_append_right _ (List.mem_singleton.2 rfl))⟩

theorem wp_updateQuarantine (hnames : cs.NamesCoincide) :
    (Monitor.history (stopMust cs spec)).wp (m.updateQuarantine l cs true) s fun s' r =>
      r.2 = none → cs.QuarantineAcked s' := by
  refine Monitor.wp_range.2 ⟨nofun, fun order _ => Monitor.wp_mono ?_ (wp_quarantinePeers _ false)⟩
  intro s' r hr hnone id p memberId member hp hm hhosts
  obtain ⟨hid, hnode⟩ := hnames id p hp
  -- the node has the name of the member and of the peer
  have hname : member.name = id := by
    obtain ⟨node, hsome, heq⟩ := (Option.any_eq_true _ _).1 hhosts
    rw [← hnode node hsome]
    exact (beq_iff_eq.1 heq).symm
  have hhas : hasName cs.members id = true := by
    refine List.any_eq_true.2 ⟨(memberId, member), GoMap.mem_pairs.2 hm, ?_⟩
    exact beq_iff_eq.2 hname
  obtain ⟨request, hq, hsent⟩ := hr hnone (id, p) ((GoMap.mem_inOrder order.2).2 hp) hhas
  rw [hid] at hsent
  exact ⟨request, hq, hsent⟩

theorem wp_stopMembers {memberToPeer : GoMap ClusterPeerInfo} (hhosted : cs.AllHosted) :
    ∀ (members : List (EtcdMemberId × EtcdProcessMember)) {s : Trace ctlSig}, cs.SafeToStop spec s →
      (Monitor.history (stopMust cs spec)).wp (m.stopMembers l memberToPeer members) s fun _ _ => True
  | [], _, _ => trivial
  | (memberId, _) :: rest, s, hs => by
    unfold stopMembers
    split
    · trivial
    refine Monitor.wp_ctl.2 ⟨fun _ => ⟨hhosted, hs⟩, fun answer _ => ?_⟩
    cases answer with
    | error err => trivial
    | ok _ => exact wp_stopMembers hhosted rest (hs.mono (List.prefix_append _ _))

theorem wp_stopForUpgrade (hnames : cs.NamesCoincide) :
    (Monitor.history (stopMust cs spec)).wp (m.stopForUpgrade l spec cs) s fun _ _ => True := by
  refine Monitor.wp_bind.2 (Monitor.wp_mono ?_
    (wp_stop_of_uses ((@uses_prepareForUpgrade l cs spec).kinds (List.Subset.refl _)) (by simp) returns_prepareForUpgrade))
  intro s₁ r ⟨_, hr⟩
  cases r with
  | error err => trivial
  | ok memberToPeer =>
  have hhosted := hr memberToPeer rfl
  refine Monitor.wp_bind.2 (Monitor.wp_mono ?_ (wp_doClusterBackup (stopMust_of_kind (by simp))))
  intro s₂ r _
  cases r with
  | error err => trivial
  | ok _ =>
  refine Monitor.wp_bind.2 (Monitor.wp_mono ?_ (wp_updateQuarantine hnames))
  intro s₃ ⟨changed, err⟩ hacked
  cases err with
  | some err => trivial
  | none =>
  refine Monitor.wp_bind.2 (Monitor.wp_mono ?_ (wp_doClusterBackup (stopMust_of_kind (by simp))))
  intro s₄ r hbackup
  cases r with
  | error err => trivial
  | ok response =>
  obtain ⟨before, peer, request, hgrows, -, rfl⟩ := hbackup response rfl
  refine Monitor.wp_ctl.2 ⟨nofun, fun answer _ => ?_⟩
  cases answer with
  | error err => trivial
  | ok _ =>
  let s₅ : Trace ctlSig := before ++ [⟨.doBackup peer request, .ok response⟩] ++
    [⟨.addCommand ⟨0, some ⟨some spec, response.name⟩⟩, .ok ()⟩]
  have hsafe : cs.SafeToStop spec s₅ := by
    refine ⟨before, peer, request, response, [⟨.addCommand ⟨0, some ⟨some spec, response.name⟩⟩, .ok ()⟩],
      by simp [s₅], ?_, List.mem_singleton.2 rfl⟩
    intro id p memberId member hp hm hhosts
    obtain ⟨request, hq, hsent⟩ := hacked rfl id p memberId member hp hm hhosts
    exact ⟨request, hq, hgrows.subset hsent⟩
  refine Monitor.wp_bind.2 (Monitor.wp_mono ?_
    (wp_stop_of_uses ((@uses_waitForCommand l m.maxPolls m).kinds (List.Subset.refl _)) (by simp) (.trivially _)))
  intro s₆ ⟨c, err⟩ ⟨hwaited, _⟩
  cases err with
  | some err => trivial
  | none =>
  refine Monitor.wp_range.2 ⟨nofun, fun order _ => Monitor.wp_bind.2 (Monitor.wp_mono ?_
    (wp_stopMembers hhosted _ ((hsafe.mono hwaited).mono (List.prefix_append _ _))))⟩
  intro s₇ err _
  cases err <;> trivial

end

/-- **A stop-the-world upgrade is safe to cut anywhere.** In every prefix of a
run, whatever failed, a `StopEtcd` has before it the acknowledged quarantine of
every peer with a member, then a backup, then the stored command that restores
this backup to the target spec; and every member is on one of those peers. -/
theorem stop_follows_quarantine_backup_and_command {m : EtcdController} {l : LeadershipState} {cs : ClusterState}
    {spec : ClusterSpec} {pre post : Trace ctlSig} {e : Event ctlSig} {p : CtlM (EtcdController × Progress)}
    (hnames : cs.NamesCoincide) (hrun : Runs (m.stopForUpgrade l spec cs) (pre ++ e :: post) p)
    (hstop : e.req.kind = .stop) : cs.AllHosted ∧ cs.SafeToStop spec pre :=
  hrun.must_history (wp_stopForUpgrade hnames) hstop

/-- A cluster of three, all healthy, on the peers `a`, `b` and `c`. -/
def Site.upgrading : ClusterState :=
  let members : GoMap EtcdProcessMember := AList.insert "id-a" (Site.member "a") (AList.insert "id-b" (Site.member "b")
    (AList.insert "id-c" (Site.member "c") ∅))
  let peer (name : PeerId) : ClusterPeerInfo := ⟨⟨name, []⟩, Site.running ["a", "b", "c"] false name⟩
  { members, healthyMembers := members
    peers := AList.insert "a" (peer "a") (AList.insert "b" (peer "b") (AList.insert "c" (peer "c") ∅)) }

/-- Where all goes well, the cluster is stopped, and was safe to stop. -/
theorem stop_follows_quarantine_backup_and_command_upgrading :
    ∃ (pre post : Trace ctlSig) (e : Event ctlSig) (p : CtlM (EtcdController × Progress)),
      Runs ((Site.controller "a").stopForUpgrade ⟨"token", ["a"]⟩ ⟨3, "3.5.1"⟩ Site.upgrading) (pre ++ e :: post) p ∧
      e.req.kind = .stop ∧ Site.upgrading.AllHosted ∧ Site.upgrading.SafeToStop ⟨3, "3.5.1"⟩ pre := by
  let site : Site :=
    { peers := [⟨"a", []⟩, ⟨"b", []⟩, ⟨"c", []⟩], info := Site.running ["a", "b", "c"] false
      members := ["a", "b", "c"].map Site.member
      commands := [⟨"command", ⟨0, some ⟨some ⟨3, "3.5.1"⟩, "backup"⟩⟩⟩], spec := some ⟨3, "3.5.1"⟩, created := true }
  let run := ((Site.controller "a").stopForUpgrade ⟨"token", ["a"]⟩ ⟨3, "3.5.1"⟩ Site.upgrading).follow site.answer
  have hnames : Site.upgrading.NamesCoincide := by
    intro id p hp
    have hpeer : p = ⟨⟨id, []⟩, Site.running ["a", "b", "c"] false id⟩ := by
      obtain ⟨rfl, rfl⟩ | ⟨-, hp⟩ := GoMap.lookup_insert_eq_some.1 hp
      · rfl
      obtain ⟨rfl, rfl⟩ | ⟨-, hp⟩ := GoMap.lookup_insert_eq_some.1 hp
      · rfl
      obtain ⟨rfl, rfl⟩ | ⟨-, hp⟩ := GoMap.lookup_insert_eq_some.1 hp
      · rfl
      · cases hp
    subst hpeer
    refine ⟨rfl, fun node hnode => ?_⟩
    cases hnode
    rfl
  obtain ⟨e, htr, hstop⟩ : ∃ e, run.1 = run.1.take 20 ++ e :: run.1.drop 21 ∧ e.req.kind = .stop := ⟨_, rfl, rfl⟩
  have hrun : Runs ((Site.controller "a").stopForUpgrade ⟨"token", ["a"]⟩ ⟨3, "3.5.1"⟩ Site.upgrading)
      (run.1.take 20 ++ e :: run.1.drop 21) run.2 := htr ▸ Prog.follow_runs
  obtain ⟨hhosted, hsafe⟩ := stop_follows_quarantine_backup_and_command hnames hrun hstop
  exact ⟨_, _, e, _, hrun, hstop, hhosted, hsafe⟩

end Etcdadm
