/-
The switch to TLS comes to an end.

A call of `reconcileTLS` repairs one thing: it registers the https peer URLs of
a member, or has one manager restart its etcd with TLS. What it repairs is found
in a view of the managers and of etcd's members, and is changed by others: the
URLs in etcd, the node in the state of the manager that was told to. Here the
calls are answered by those, and none of them fails.

`Acts` says everything a call that returns true can have done, and `Quiet` what
is so of every peer after one that returns false. The number of things to repair
goes down with the first and the second leaves nothing for any later call to do.
-/
import Etcdadm.Node
import Etcdadm.Rolling

namespace Etcdadm

open EtcdController EtcdServer

/-! ## What `Reconfigure` changes -/

namespace EtcdServer

variable {s : EtcdServer} {state : EtcdState}

/-- Starting and stopping etcd touches neither the state nor the configuration. -/
def SameState (s s' : EtcdServer) : Prop :=
  s'.state = s.state ∧ s'.etcdNodeConfiguration = s.etcdNodeConfiguration

theorem returns_sys {α : Type} {R : α → Prop} {r : SysReq} {f : r.Resp → SysM α} (hf : ∀ x, (f x).Returns R) :
    Prog.Returns R (sys r >>= f) := hf

theorem returns_startEtcdProcess : (s.startEtcdProcess state).Returns fun r => s.SameState r.1 := by
  unfold startEtcdProcess
  split
  · exact ⟨rfl, rfl⟩
  next cluster hcluster =>
  dsimp only
  split
  · exact ⟨rfl, rfl⟩
  simp only [findSelfNode, hcluster, Prog.pure_eq, Prog.ret_bind]
  split
  · exact ⟨rfl, rfl⟩
  · exact ⟨rfl, rfl⟩
  · refine returns_sys fun keypairs => ?_
    rcases keypairs with err | _
    · exact ⟨rfl, rfl⟩
    refine returns_sys fun binDir => ?_
    rcases binDir with err | binDir
    · exact ⟨rfl, rfl⟩
    refine returns_sys fun started => ?_
    rcases started with err | _
    · exact ⟨rfl, rfl⟩
    · exact ⟨rfl, rfl⟩

theorem returns_stopEtcdProcess : s.stopEtcdProcess.Returns fun r => s.SameState r.1 := by
  unfold stopEtcdProcess
  split
  · exact ⟨rfl, rfl⟩
  · refine returns_sys fun stopped => ?_
    rcases stopped with err | _
    · exact ⟨rfl, rfl⟩
    · exact ⟨rfl, rfl⟩

/-- A `Reconfigure` that worked has moved the server to the state it asks for. -/
theorem returns_reconfigure {request : ReconfigureRequest} : (s.reconfigure request).Returns fun r =>
    r.2 = .ok () → ∃ st, s.state = some st ∧ r.1.state = some (s.reconfiguredState st request) ∧
      r.1.etcdNodeConfiguration = s.etcdNodeConfiguration := by
  unfold reconfigure
  refine .bind (.trivially _) fun err _ => ?_
  cases err with
  | some err => exact nofun
  | none =>
  dsimp only
  split
  · exact nofun
  next st hst =>
  refine .bind (.trivially _) fun self _ => ?_
  rcases self with err | _ | meNode
  · exact nofun
  · exact nofun
  refine .bind (.trivially _) fun err _ => ?_
  cases err with
  | some err => exact nofun
  | none =>
  refine .bind returns_stopEtcdProcess fun ⟨s₁, err⟩ hs₁ => ?_
  cases err with
  | some err => exact nofun
  | none =>
  refine returns_sys fun written => ?_
  rcases written with ⟨err, _⟩ | _
  · exact nofun
  refine .bind returns_startEtcdProcess fun ⟨s₂, err⟩ hs₂ => ?_
  cases err with
  | some err => exact nofun
  | none => exact fun _ => ⟨st, hst, hs₂.1, hs₂.2.trans hs₁.2⟩

end EtcdServer

theorem Node.Step.reconfigured {n n' : Node} {request : ReconfigureRequest} {tr : Trace sysSig}
    (h : n.Step (.call (.reconfigure request) tr .ok) n') : ∃ st, n.server.state = some st ∧
      n'.server.state = some (n.server.reconfiguredState st request) ∧
      n'.server.etcdNodeConfiguration = n.server.etcdNodeConfiguration := by
  have hserve : (n.server.serve (.reconfigure request)).Returns fun r => r.2 = .ok → ∃ st, n.server.state = some st ∧
      r.1.state = some (n.server.reconfiguredState st request) ∧
      r.1.etcdNodeConfiguration = n.server.etcdNodeConfiguration := by
    refine .bind returns_reconfigure fun ⟨s, r⟩ hs => ?_
    rcases r with err | _
    · exact nofun
    · exact fun _ => hs rfl
  cases h with
  | call hruns _ => exact hruns.returns hserve rfl

namespace EtcdServer

variable {s : EtcdServer} {state : EtcdState}

/-- The node of the server's own name in the state it tells others of. -/
def ownNode (s : EtcdServer) : Option EtcdNode :=
  s.getInfo.etcdState.bind fun st => st.cluster.bind fun c =>
    c.nodes.reverse.find? (·.name == s.etcdNodeConfiguration.name)

def tlsOff (s : EtcdServer) : Bool := s.ownNode.any (!·.tlsEnabled)

theorem ownNode_eq (h : s.state = some state) : s.ownNode = state.cluster.bind fun c =>
    c.nodes.reverse.find? (·.name == s.etcdNodeConfiguration.name) := by
  cases hc : state.cluster with
  | none => simp [ownNode, getInfo, h, hc]
  | some c => simp [ownNode, getInfo, h, hc, Option.filter_some_pos]

/-- `EnableTls` enables it. -/
theorem tlsOff_reconfigured {s' : EtcdServer} {request : ReconfigureRequest} (htls : request.enableTls = true)
    (hstate : s'.state = some (s.reconfiguredState state request))
    (hconf : s'.etcdNodeConfiguration = s.etcdNodeConfiguration) : s'.tlsOff = false := by
  have hname (node : EtcdNode) : ((if node.name = s.etcdNodeConfiguration.name then enableTls node else node).name ==
      s.etcdNodeConfiguration.name) = (node.name == s.etcdNodeConfiguration.name) := by
    split <;> rfl
  rw [tlsOff, ownNode_eq hstate, hconf]
  cases hc : state.cluster with
  | none => simp [reconfiguredState, hc]
  | some c =>
    simp only [reconfiguredState, hc, htls, if_true, Option.map_some, Option.bind_some, updateSelf, ← List.map_reverse,
      List.find?_map, Function.comp_def, hname]
    cases hfind : c.nodes.reverse.find? (·.name == s.etcdNodeConfiguration.name) with
    | none => rfl
    | some node =>
      have hown : node.name = s.etcdNodeConfiguration.name := by simpa using List.find?_some hfind
      simp [hown, enableTls]

end EtcdServer

/-! ## Managers and members -/

/-- The managers by peer id, and the members etcd has. -/
structure Deployment where
  node : PeerId → Node
  members : List EtcdProcessMember
  nodup : (members.map (·.id)).Nodup

namespace Deployment

variable {d d' : Deployment} {id : PeerId}

def set (d : Deployment) (id : PeerId) (n : Node) : Deployment := { d with node := Function.update d.node id n }

/-- etcd stores the peer URLs it is given. -/
def setPeerURLs (d : Deployment) (memberId : EtcdMemberId) (peerURLs : List String) : Deployment where
  node := d.node
  members := d.members.map fun member => if member.id = memberId then { member with peerURLs := peerURLs } else member
  nodup := by
    have hids : (d.members.map fun member =>
        if member.id = memberId then { member with peerURLs := peerURLs } else member).map (·.id) = d.members.map (·.id) := by
      rw [List.map_map]
      refine List.map_congr_left fun member _ => ?_
      simp only [Function.comp_apply]
      split <;> rfl
    exact hids ▸ d.nodup

/-- How the requests of a call are answered when none fails. -/
inductive Answers (d : Deployment) : (r : CtlReq) → r.Resp → Deployment → Prop
  | ranged {keys order} : Answers d (.rangeOver keys) order d
  | listed {clientURLs members} : members.Perm d.members → Answers d (.listMembers clientURLs) (.ok members) d
  | stored {clientURLs member peerURLs} :
      Answers d (.setPeerURLs clientURLs member peerURLs) (.ok ()) (d.setPeerURLs member.id peerURLs)
  | served {peer request tr n} : (d.node peer).Step (.call (.reconfigure request) tr .ok) n →
      Answers d (.reconfigure peer request) (.ok ()) (d.set peer n)

/-- The view shows the managers of these peers and the members as they are. -/
structure Shows (ids : Finset PeerId) (d : Deployment) (cs : ClusterState) : Prop where
  peers : ∀ id p, cs.peers.lookup id = some p →
    id ∈ ids ∧ p.peer.id = id ∧ p.info = (d.node id).server.getInfo
  all : ∀ id ∈ ids, ∃ p, cs.peers.lookup id = some p
  members : ∀ memberId member, cs.members.lookup memberId = some member ↔ member ∈ d.members ∧ member.id = memberId

/-- No two members have the name of one of the peers. -/
def Named (ids : Finset PeerId) (d : Deployment) : Prop :=
  ∀ a ∈ d.members, ∀ b ∈ d.members, a.name = b.name → a.name ∈ ids → a = b

/-- What there is of a peer: its manager, and what etcd has registered for it. -/
def peer (d : Deployment) (id : PeerId) : Node × List EtcdProcessMember :=
  (d.node id, d.members.filter (·.name == id))

/-- The https peer URLs of the node as it is configured. -/
def expectedPeerURLs (d : Deployment) (id : PeerId) : List String :=
  (d.node id).server.etcdNodeConfiguration.tlsPeerUrls

/-- The registered URLs differ from the configured ones, which are known. -/
def urlsOff (d : Deployment) (id : PeerId) : Bool :=
  !(d.expectedPeerURLs id).isEmpty && (d.peer id).2.any (normalize ·.peerURLs != d.expectedPeerURLs id)

def tlsOff (d : Deployment) (id : PeerId) : Bool := (d.node id).server.tlsOff

def quarantined (d : Deployment) (id : PeerId) : Option Bool := (d.node id).server.state.map (·.quarantined)

/-- What is left to be repaired. -/
def off (ids : Finset PeerId) (d : Deployment) : Nat :=
  (ids.filter (d.urlsOff ·)).card + (ids.filter (d.tlsOff ·)).card

/-- There is nothing to be done for the peer, or nothing that can be. -/
def Quiet (d : Deployment) (id : PeerId) : Prop :=
  (d.node id).server.ownNode = none ∨ (∀ member ∈ d.members, member.name ≠ id) ∨
    d.urlsOff id = false ∧ d.tlsOff id = false

/-- All a call can do to a peer. -/
inductive Acts (d : Deployment) (id : PeerId) : Deployment → Prop
  | urls {member} : member ∈ d.members → member.name = id → d.expectedPeerURLs id ≠ [] →
      normalize member.peerURLs ≠ d.expectedPeerURLs id →
      (d.node id).server.ownNode ≠ none → Acts d id (d.setPeerURLs member.id (d.expectedPeerURLs id))
  | tls {member request tr n} : member ∈ d.members → member.name = id → d.urlsOff id = false → d.tlsOff id = true →
      request.enableTls = true → d.quarantined id = some request.quarantined →
      (d.node id).Step (.call (.reconfigure request) tr .ok) n → Acts d id (d.set id n)

/-! ## What a call does -/

section Call

variable {m : EtcdController} {l : LeadershipState} {cs : ClusterState} {ids : Finset PeerId}

theorem does_ctl {α : Type} {r : CtlReq} {f : r.Resp → CtlM α} {a : α} (h : Prog.Does Answers d (ctl r >>= f) a d') :
    ∃ x d₁, Answers d r x d₁ ∧ Prog.Does Answers d₁ (f x) a d' := Prog.does_call.1 h

theorem does_range {α V : Type} {map : GoMap V} {f : List (String × V) → CtlM α} {a : α}
    (h : Prog.Does Answers d (range map >>= f) a d') :
    ∃ order : List (String × V), order.Perm map.pairs ∧ Prog.Does Answers d (f order) a d' := by
  obtain ⟨order, d₁, hanswer, hrest⟩ := Prog.does_call.1 h
  cases hanswer with
  | ranged => exact ⟨_, GoMap.inOrder_perm order.2, hrest⟩

theorem does_findMember {found : Option EtcdProcessMember} (hview : d.Shows ids cs)
    (h : Prog.Does Answers d (cs.findMember id) found d') : d' = d ∧
      (∀ member, found = some member → member ∈ d.members ∧ member.name = id) ∧
      (found = none → ∀ member ∈ d.members, member.name ≠ id) := by
  obtain ⟨order, hperm, hret⟩ := does_range h
  obtain ⟨rfl, rfl⟩ := Prog.does_ret.1 hret
  have hmem (e : String × EtcdProcessMember) (he : e ∈ order) : e.2 ∈ d'.members :=
    ((hview.members e.1 e.2).1 (GoMap.mem_pairs.1 (hperm.mem_iff.1 he))).1
  refine ⟨rfl, fun member hfound => ?_, fun hnone member hmember hname => ?_⟩
  · obtain ⟨e, he, rfl⟩ := Option.map_eq_some_iff.1 hfound
    exact ⟨hmem e (List.mem_of_find?_eq_some he), by simpa using List.find?_some he⟩
  · have hlisted : (member.id, member) ∈ order :=
      hperm.mem_iff.2 (GoMap.mem_pairs.2 ((hview.members member.id member).2 ⟨hmember, rfl⟩))
    have hnot := List.find?_eq_none.1 (Option.map_eq_none_iff.1 hnone) _ hlisted
    exact hnot (beq_iff_eq.2 hname)

/-- Of a peer, all members of its name are the one that was found. -/
theorem Named.eq (hnamed : d.Named ids) (hid : id ∈ ids) {a b : EtcdProcessMember} (ha : a ∈ d.members)
    (hb : b ∈ d.members) (han : a.name = id) (hbn : b.name = id) : a = b :=
  hnamed a ha b hb (han.trans hbn.symm) (han ▸ hid)

theorem urlsOff_iff (hnamed : d.Named ids) (hid : id ∈ ids) {member : EtcdProcessMember} (hmember : member ∈ d.members)
    (hname : member.name = id) : d.urlsOff id = true ↔
      d.expectedPeerURLs id ≠ [] ∧ normalize member.peerURLs ≠ d.expectedPeerURLs id := by
  simp only [urlsOff, peer, Bool.and_eq_true, Bool.not_eq_true', List.isEmpty_eq_false_iff, List.any_eq_true,
    List.mem_filter, beq_iff_eq, bne_iff_ne]
  constructor
  · intro ⟨hne, member', ⟨hmember', hname'⟩, hdiffer⟩
    rw [hnamed.eq hid hmember hmember' hname hname']
    exact ⟨hne, hdiffer⟩
  · intro ⟨hne, hdiffer⟩
    exact ⟨hne, member, ⟨hmember, hname⟩, hdiffer⟩

/-- The URLs of a peer: nothing to do, or the member's are set. -/
theorem does_reconcilePeerURLs (hnamed : d.Named ids) (hid : id ∈ ids) {st : EtcdState} {member : EtcdProcessMember}
    (hmember : member ∈ d.members) (hname : member.name = id) {r : Progress}
    (h : Prog.Does Answers d (reconcilePeerURLs id (d.node id).server.etcdNodeConfiguration st member) r d') :
    (r = (false, none) ∧ d' = d ∧ d.urlsOff id = false) ∨
    (r = (true, none) ∧ d.expectedPeerURLs id ≠ [] ∧ normalize member.peerURLs ≠ d.expectedPeerURLs id ∧
      d' = d.setPeerURLs member.id (d.expectedPeerURLs id)) := by
  have hoff := urlsOff_iff hnamed hid hmember hname
  by_cases hright : normalize member.peerURLs = d.expectedPeerURLs id ∨ d.expectedPeerURLs id = []
  · rw [reconcilePeerURLs_eq hright] at h
    obtain ⟨rfl, rfl⟩ := Prog.does_ret.1 h
    refine .inl ⟨rfl, rfl, Bool.eq_false_iff.2 fun hurls => ?_⟩
    obtain ⟨hne, hdiffer⟩ := hoff.1 hurls
    exact hright.elim hdiffer hne
  · rw [not_or] at hright
    unfold reconcilePeerURLs updatePeerURLs at h
    have hexpected : normalize (rewriteScheme (d.node id).server.etcdNodeConfiguration.peerUrls "http://" "https://") =
        d.expectedPeerURLs id := rfl
    dsimp only at h
    rw [hexpected, if_neg hright.1, if_neg hright.2] at h
    obtain ⟨answer, d₁, hanswer, hrest⟩ := does_ctl h
    cases hanswer with
    | @listed _ members hperm =>
    dsimp only at hrest
    -- the listing has the member of the view, and no other of its name
    have hfound : members.reverse.find? (·.name == id) = some member := by
      cases hf : members.reverse.find? (·.name == id) with
      | none =>
        have hnot := List.find?_eq_none.1 hf member (List.mem_reverse.2 (hperm.mem_iff.2 hmember))
        simp [hname] at hnot
      | some member' =>
        have hmember' := hperm.mem_iff.1 (List.mem_reverse.1 (List.mem_of_find?_eq_some hf))
        have hname' : member'.name = id := by simpa using List.find?_some hf
        rw [hnamed.eq hid hmember' hmember hname' hname]
    rw [hfound] at hrest
    obtain ⟨answer, d₂, hanswer, hrest⟩ := does_ctl hrest
    cases hanswer with
    | stored =>
    obtain ⟨rfl, rfl⟩ := Prog.does_ret.1 hrest
    exact .inr ⟨rfl, hright.2, hright.1, rfl⟩

/-- **One peer of the loop.** It is left alone, or the loop ends with it. -/
theorem does_reconcilePeerTLS (hview : d.Shows ids cs) (hnamed : d.Named ids) {p : ClusterPeerInfo}
    (hp : cs.peers.lookup id = some p) {r : Option Progress}
    (h : Prog.Does Answers d (m.reconcilePeerTLS l cs id p) r d') :
    (r = none ∧ d' = d ∧ d.Quiet id) ∨ (r = some (true, none) ∧ d.Acts id d') := by
  obtain ⟨hid, hpeer, hinfo⟩ := hview.peers id p hp
  unfold reconcilePeerTLS at h
  rw [hinfo] at h
  cases hst : (d.node id).server.getInfo.etcdState with
  | none =>
    rw [hst] at h
    obtain ⟨rfl, rfl⟩ := Prog.does_ret.1 h
    exact .inl ⟨rfl, rfl, .inl (by simp [ownNode, hst])⟩
  | some st =>
  rw [hst] at h
  have hown : (st.cluster.bind fun c => c.nodes.reverse.find?
      (·.name == (d.node id).server.etcdNodeConfiguration.name)) = (d.node id).server.ownNode := by
    simp [ownNode, hst]
  simp only [getInfo] at h
  rw [hown] at h
  cases hnode : (d.node id).server.ownNode with
  | none =>
    rw [hnode] at h
    obtain ⟨rfl, rfl⟩ := Prog.does_ret.1 h
    exact .inl ⟨rfl, rfl, .inl hnode⟩
  | some node =>
  rw [hnode] at h
  obtain ⟨found, d₁, hfind, hrest⟩ := Prog.does_bind.1 h
  obtain ⟨rfl, hsome, hnone⟩ := does_findMember hview hfind
  cases found with
  | none =>
    obtain ⟨rfl, rfl⟩ := Prog.does_ret.1 hrest
    exact .inl ⟨rfl, rfl, .inr (.inl (hnone rfl))⟩
  | some member =>
  obtain ⟨hmember, hname⟩ := hsome member rfl
  obtain ⟨r₁, d₂, hurls, hthen⟩ := Prog.does_bind.1 hrest
  rcases does_reconcilePeerURLs hnamed hid hmember hname hurls with ⟨rfl, rfl, hmatch⟩ | ⟨rfl, hne, hdiffer, rfl⟩
  · by_cases htls : node.tlsEnabled = true
    · simp only [Bool.false_eq_true, Option.isSome_none, or_self, if_false, htls, if_true] at hthen
      obtain ⟨rfl, rfl⟩ := Prog.does_ret.1 hthen
      exact .inl ⟨rfl, rfl, .inr (.inr ⟨hmatch, by simp [Deployment.tlsOff, EtcdServer.tlsOff, hnode, htls]⟩)⟩
    · simp only [Bool.false_eq_true, Option.isSome_none, or_self, if_false, htls] at hthen
      obtain ⟨answer, d₃, hanswer, hthen⟩ := does_ctl hthen
      rw [hpeer] at hanswer
      have hquarantined : d₂.quarantined id = some st.quarantined := by
        have hstate := (Option.filter_eq_some_iff.1 hst).1
        simp [quarantined, hstate]
      cases hanswer with
      | served hstep =>
      obtain ⟨rfl, rfl⟩ := Prog.does_ret.1 hthen
      refine .inr ⟨rfl, .tls hmember hname hmatch ?_ rfl hquarantined hstep⟩
      simp [Deployment.tlsOff, EtcdServer.tlsOff, hnode, htls]
  · simp only [true_or, if_true] at hthen
    obtain ⟨rfl, rfl⟩ := Prog.does_ret.1 hthen
    exact .inr ⟨rfl, .urls hmember hname hne hdiffer (by simp [hnode])⟩

theorem does_reconcilePeersTLS (hview : d.Shows ids cs) (hnamed : d.Named ids) {r : Progress} :
    ∀ {peers : List (PeerId × ClusterPeerInfo)}, (∀ e ∈ peers, cs.peers.lookup e.1 = some e.2) →
      Prog.Does Answers d (m.reconcilePeersTLS l cs peers) r d' →
      (r = (false, none) ∧ d' = d ∧ ∀ e ∈ peers, d.Quiet e.1) ∨ (r = (true, none) ∧ ∃ e ∈ peers, d.Acts e.1 d')
  | [], _, h => by
    obtain ⟨rfl, rfl⟩ := Prog.does_ret.1 h
    exact .inl ⟨rfl, rfl, by simp⟩
  | (id, p) :: rest, hpeers, h => by
    obtain ⟨hp, hpeers⟩ := List.forall_mem_cons.1 hpeers
    obtain ⟨r₁, d₁, hpeer, hrest⟩ := Prog.does_bind.1 h
    rcases does_reconcilePeerTLS hview hnamed hp hpeer with ⟨rfl, hd₁, hquiet⟩ | ⟨rfl, hacts⟩
    · rw [hd₁] at hrest
      rcases does_reconcilePeersTLS hview hnamed hpeers hrest with ⟨hr, hd, hall⟩ | ⟨hr, e, he, hacts⟩
      · exact .inl ⟨hr, hd, List.forall_mem_cons.2 ⟨hquiet, hall⟩⟩
      · exact .inr ⟨hr, e, List.mem_cons_of_mem _ he, hacts⟩
    · obtain ⟨rfl, rfl⟩ := Prog.does_ret.1 hrest
      exact .inr ⟨rfl, (id, p), List.mem_cons_self, hacts⟩

/-- **A whole call.** Nothing was left to do, or one thing was done. -/
theorem does_reconcileTLS (hm : m.disableEtcdTLS = false) (hview : d.Shows ids cs) (hnamed : d.Named ids) {r : Progress}
    (h : Prog.Does Answers d (m.reconcileTLS l cs) r d') :
    (r = (false, none) ∧ d' = d ∧ ∀ id ∈ ids, d.Quiet id) ∨ (r = (true, none) ∧ ∃ id ∈ ids, d.Acts id d') := by
  unfold reconcileTLS at h
  simp only [hm, Bool.false_eq_true, if_false] at h
  obtain ⟨order, hperm, hrest⟩ := does_range h
  have hpeers (e : PeerId × ClusterPeerInfo) (he : e ∈ order) : cs.peers.lookup e.1 = some e.2 :=
    GoMap.mem_pairs.1 (hperm.mem_iff.1 he)
  rcases does_reconcilePeersTLS hview hnamed hpeers hrest with ⟨hr, hd, hall⟩ | ⟨hr, e, he, hacts⟩
  · refine .inl ⟨hr, hd, fun id hid => ?_⟩
    obtain ⟨p, hp⟩ := hview.all id hid
    exact hall (id, p) (hperm.mem_iff.2 (GoMap.mem_pairs.2 hp))
  · exact .inr ⟨hr, e.1, (hview.peers _ _ (hpeers e he)).1, hacts⟩

end Call

/-! ## What it comes to -/

theorem setPeerURLs_members {memberId : EtcdMemberId} {urls : List String} {member' : EtcdProcessMember}
    (h : member' ∈ (d.setPeerURLs memberId urls).members) : ∃ member ∈ d.members, member'.name = member.name ∧
      (member.id = memberId → member' = { member with peerURLs := urls }) ∧ (member.id ≠ memberId → member' = member) := by
  obtain ⟨member, hmember, rfl⟩ := List.mem_map.1 h
  refine ⟨member, hmember, ?_, fun hid => if_pos hid, fun hid => if_neg hid⟩
  split <;> rfl

theorem eq_of_id {a b : EtcdProcessMember} (ha : a ∈ d.members) (hb : b ∈ d.members) (h : a.id = b.id) : a = b :=
  List.inj_on_of_nodup_map d.nodup ha hb h

section Acts

variable {ids : Finset PeerId}

theorem Acts.named (h : d.Acts id d') (hnamed : d.Named ids) : d'.Named ids := by
  cases h with
  | tls => exact hnamed
  | @urls member hmember _ _ _ _ =>
    intro a ha b hb hname hid
    obtain ⟨a₀, ha₀, han, haset, hakeep⟩ := setPeerURLs_members ha
    obtain ⟨b₀, hb₀, hbn, hbset, hbkeep⟩ := setPeerURLs_members hb
    have hsame : a₀ = b₀ := hnamed a₀ ha₀ b₀ hb₀ (han.symm.trans (hname.trans hbn)) (han ▸ hid)
    subst hsame
    by_cases hset : a₀.id = member.id
    · rw [haset hset, hbset hset]
    · rw [hakeep hset, hbkeep hset]

/-- The other peers are as they were. -/
theorem Acts.peer_eq (h : d.Acts id d') {id' : PeerId} (hne : id' ≠ id) : d'.peer id' = d.peer id' := by
  cases h with
  | tls => simp [peer, set, hne]
  | @urls member hmember hname _ _ _ =>
    have hother (member' : EtcdProcessMember) (hmember' : member' ∈ d.members) (hname' : member'.name = id') :
        member'.id ≠ member.id := by
      intro hid
      rw [eq_of_id hmember' hmember hid, hname] at hname'
      exact hne hname'.symm
    simp only [peer, setPeerURLs, List.filter_map, Prod.mk.injEq, true_and]
    have hfilter : (d.members.filter ((fun m => m.name == id') ∘ fun m =>
        if m.id = member.id then { m with peerURLs := d.expectedPeerURLs id } else m)) =
        d.members.filter (·.name == id') := by
      refine List.filter_congr fun m _ => ?_
      simp only [Function.comp_apply]
      split <;> rfl
    rw [hfilter]
    refine (List.map_congr_left fun m hm => ?_).trans (List.map_id _)
    obtain ⟨hm, hname'⟩ := List.mem_filter.1 hm
    exact if_neg (hother m hm (beq_iff_eq.1 hname'))

theorem Acts.off_eq (h : d.Acts id d') {id' : PeerId} (hne : id' ≠ id) :
    d'.urlsOff id' = d.urlsOff id' ∧ d'.tlsOff id' = d.tlsOff id' ∧ d'.quarantined id' = d.quarantined id' := by
  have hpeer := h.peer_eq hne
  have hnode : d'.node id' = d.node id' := congrArg Prod.fst hpeer
  simp [urlsOff, expectedPeerURLs, Deployment.tlsOff, quarantined, hpeer, hnode]

theorem normalize_normalize (urls : List String) : normalize (normalize urls) = normalize urls :=
  (List.pairwise_insertionSort _ urls).insertionSort_eq

/-- **What is repaired of the peer.** Its URLs are right then, or they were and
it has TLS. -/
theorem Acts.repairs (h : d.Acts id d') (hnamed : d.Named ids) (hid : id ∈ ids) :
    d'.quarantined id = d.quarantined id ∧
    ((d.urlsOff id = true ∧ d'.urlsOff id = false ∧ d'.tlsOff id = d.tlsOff id) ∨
      (d.urlsOff id = false ∧ d'.urlsOff id = false ∧ d.tlsOff id = true ∧ d'.tlsOff id = false)) := by
  have hnamed' := h.named hnamed
  cases h with
  | @urls member hmember hname hne hdiffer _ =>
    have hset : { member with peerURLs := d.expectedPeerURLs id } ∈
        (d.setPeerURLs member.id (d.expectedPeerURLs id)).members :=
      List.mem_map.2 ⟨member, hmember, if_pos rfl⟩
    refine ⟨rfl, .inl ⟨(urlsOff_iff hnamed hid hmember hname).2 ⟨hne, hdiffer⟩, ?_, rfl⟩⟩
    refine Bool.eq_false_iff.2 fun hoff => ?_
    refine ((urlsOff_iff hnamed' hid hset hname).1 hoff).2 ?_
    exact normalize_normalize _
  | @tls member request tr n hmember hname hurls htls henable hquarantined hstep =>
    obtain ⟨st, hst, hst', hconf⟩ := hstep.reconfigured
    have hnode : (d.set id n).node id = n := by simp [set]
    have hexpected : (d.set id n).expectedPeerURLs id = d.expectedPeerURLs id := by
      simp [expectedPeerURLs, hnode, hconf]
    have htls' : (d.set id n).tlsOff id = false := by
      rw [Deployment.tlsOff, hnode]
      exact tlsOff_reconfigured henable hst' hconf
    have hurls' : (d.set id n).urlsOff id = d.urlsOff id := by
      rw [urlsOff, hexpected]
      rfl
    refine ⟨?_, .inr ⟨hurls, hurls'.trans hurls, htls, htls'⟩⟩
    rw [hquarantined, quarantined, hnode, hst']
    rfl

theorem Acts.not_quiet (h : d.Acts id d') (hnamed : d.Named ids) (hid : id ∈ ids) : ¬ d.Quiet id := by
  intro hquiet
  have hrepairs := (h.repairs hnamed hid).2
  cases h with
  | urls hmember hname _ _ hown =>
    rcases hquiet with hnone | hnone | ⟨hurls, htls⟩
    · exact hown hnone
    · exact hnone _ hmember hname
    · simp [hurls, htls] at hrepairs
  | tls hmember hname _ htls _ _ _ =>
    rcases hquiet with hnone | hnone | ⟨_, htls'⟩
    · simp [Deployment.tlsOff, EtcdServer.tlsOff, hnone] at htls
    · exact hnone _ hmember hname
    · simp [htls'] at htls

/-- One of the peers that were counted no longer is. -/
theorem card_filter_lt {p p' : PeerId → Bool} (hid : id ∈ ids) (hbefore : p id = true) (hafter : p' id = false)
    (hrest : ∀ id', id' ≠ id → p' id' = p id') : (ids.filter (p' ·)).card < (ids.filter (p ·)).card := by
  refine Finset.card_lt_card ⟨fun id' h => ?_, fun hsub => ?_⟩
  · rw [Finset.mem_filter] at h ⊢
    by_cases hne : id' = id
    · subst hne
      exact ⟨h.1, hbefore⟩
    · exact ⟨h.1, hrest id' hne ▸ h.2⟩
  · have hmem := hsub (Finset.mem_filter.2 ⟨hid, hbefore⟩)
    rw [Finset.mem_filter, hafter] at hmem
    exact Bool.false_ne_true hmem.2

theorem card_filter_eq {p p' : PeerId → Bool} (h : ∀ id', p' id' = p id') :
    (ids.filter (p' ·)).card = (ids.filter (p ·)).card := by
  rw [funext h]

theorem Acts.off_lt (h : d.Acts id d') (hnamed : d.Named ids) (hid : id ∈ ids) : d'.off ids < d.off ids := by
  have hrest (id' : PeerId) (hne : id' ≠ id) := h.off_eq hne
  rcases (h.repairs hnamed hid).2 with ⟨hurls, hurls', htls⟩ | ⟨hurls, hurls', htls, htls'⟩
  · have hlt := card_filter_lt hid hurls hurls' fun id' hne => (hrest id' hne).1
    have heq : (ids.filter (d'.tlsOff ·)).card = (ids.filter (d.tlsOff ·)).card := by
      refine card_filter_eq fun id' => ?_
      by_cases hne : id' = id
      · rw [hne, htls]
      · exact (hrest id' hne).2.1
    unfold off
    omega
  · have hlt := card_filter_lt hid htls htls' fun id' hne => (hrest id' hne).2.1
    have heq : (ids.filter (d'.urlsOff ·)).card = (ids.filter (d.urlsOff ·)).card := by
      refine card_filter_eq fun id' => ?_
      by_cases hne : id' = id
      · rw [hne, hurls, hurls']
      · exact (hrest id' hne).1
    unfold off
    omega

theorem Acts.peer_ne (h : d.Acts id d') (hnamed : d.Named ids) (hid : id ∈ ids) : d'.peer id ≠ d.peer id := by
  intro hpeer
  have hnode : d'.node id = d.node id := congrArg Prod.fst hpeer
  have hurls : d'.urlsOff id = d.urlsOff id := by simp [urlsOff, expectedPeerURLs, hpeer, hnode]
  have htls : d'.tlsOff id = d.tlsOff id := by simp [Deployment.tlsOff, hnode]
  rcases (h.repairs hnamed hid).2 with ⟨hbefore, hafter, _⟩ | ⟨_, _, hbefore, hafter⟩
  · simp [hbefore, hafter] at hurls
  · simp [hbefore, hafter] at htls

end Acts

theorem off_le (ids : Finset PeerId) (d : Deployment) : d.off ids ≤ 2 * ids.card := by
  have hurls : (ids.filter (d.urlsOff ·)).card ≤ ids.card := Finset.card_filter_le _ _
  have htls : (ids.filter (d.tlsOff ·)).card ≤ ids.card := Finset.card_filter_le _ _
  unfold off
  omega

end Deployment

/-! ## Call after call -/

/-- Calls one after the other, each on a view of what the one before has left,
and whether each of them changed something. -/
inductive Deployment.Calls (m : EtcdController) (l : LeadershipState) (ids : Finset PeerId) :
    Deployment → List Bool → Deployment → Prop
  | nil {d} : Calls m l ids d [] d
  | cons {d d' d'' cs r rs} : d.Shows ids cs → Prog.Does Answers d (m.reconcileTLS l cs) r d' →
      Calls m l ids d' rs d'' → Calls m l ids d (r.1 :: rs) d''

namespace Deployment.Calls

variable {m : EtcdController} {l : LeadershipState} {ids : Finset PeerId} {d d' : Deployment} {rs : List Bool}

theorem named (hm : m.disableEtcdTLS = false) (h : Calls m l ids d rs d') (hnamed : d.Named ids) : d'.Named ids := by
  induction h with
  | nil => exact hnamed
  | cons hview hdoes _ ih =>
    rcases does_reconcileTLS hm hview hnamed hdoes with ⟨_, rfl, _⟩ | ⟨_, id, _, hacts⟩
    · exact ih hnamed
    · exact ih (hacts.named hnamed)

/-- Where there is nothing to do, no call does anything. -/
theorem all_false (hm : m.disableEtcdTLS = false) (h : Calls m l ids d rs d') (hnamed : d.Named ids)
    (hquiet : ∀ id ∈ ids, d.Quiet id) : rs = List.replicate rs.length false := by
  induction h with
  | nil => rfl
  | cons hview hdoes _ ih =>
    rcases does_reconcileTLS hm hview hnamed hdoes with ⟨rfl, rfl, _⟩ | ⟨_, id, hid, hacts⟩
    · simpa [List.replicate_succ] using ih hnamed hquiet
    · exact absurd (hquiet id hid) (hacts.not_quiet hnamed hid)

/-- Calls change something until there is nothing left to repair, and never
after that. -/
theorem trues_then_falses (hm : m.disableEtcdTLS = false) (h : Calls m l ids d rs d') (hnamed : d.Named ids) :
    ∃ k ≤ d.off ids, ∃ j, rs = List.replicate k true ++ List.replicate j false := by
  induction h with
  | nil => exact ⟨0, Nat.zero_le _, 0, rfl⟩
  | cons hview hdoes hrest ih =>
    rcases does_reconcileTLS hm hview hnamed hdoes with ⟨rfl, rfl, hquiet⟩ | ⟨rfl, id, hid, hacts⟩
    · rw [hrest.all_false hm hnamed hquiet]
      exact ⟨0, Nat.zero_le _, _ + 1, rfl⟩
    · obtain ⟨k, hk, j, hrs⟩ := ih (hacts.named hnamed)
      have hlt := hacts.off_lt hnamed hid
      exact ⟨k + 1, by omega, j, by simp [hrs, List.replicate_succ]⟩

end Deployment.Calls

namespace Deployment

/-- **The switch to TLS converges.** Let no two members have the name of one
peer, let nothing else change what etcd and the managers have, and let every
request be answered well. Then of the calls of `reconcileTLS`, one after the
other, at most the first `2 * ids.card` return true and all later ones false. A
call that returns true changes one peer, and there is less to repair after it;
one that returns false changes nothing. No call gives TLS to a peer whose
registered URLs are still to be changed, and none touches a quarantine. -/
theorem tls_migration_converges (m : EtcdController) (hm : m.disableEtcdTLS = false) (l : LeadershipState)
    (ids : Finset PeerId) (d₀ : Deployment) (hnamed : d₀.Named ids) (rs : List Bool) (d : Deployment)
    (hcalls : Calls m l ids d₀ rs d) :
    (∃ k ≤ 2 * ids.card, ∃ j, rs = List.replicate k true ++ List.replicate j false) ∧
    ∀ cs r d', d.Shows ids cs → Prog.Does Answers d (m.reconcileTLS l cs) r d' →
      r.2 = none ∧ (r.1 = false → d' = d) ∧
      (r.1 = true → d'.off ids < d.off ids ∧
        ∃ id ∈ ids, d'.peer id ≠ d.peer id ∧ ∀ id', id' ≠ id → d'.peer id' = d.peer id') ∧
      (∀ id, d.tlsOff id = true → d'.tlsOff id = false → d.urlsOff id = false) ∧
      ∀ id, d'.quarantined id = d.quarantined id := by
  constructor
  · obtain ⟨k, hk, hrs⟩ := hcalls.trues_then_falses hm hnamed
    exact ⟨k, hk.trans (off_le ids d₀), hrs⟩
  intro cs r d' hview hdoes
  have hnamed := hcalls.named hm hnamed
  rcases does_reconcileTLS hm hview hnamed hdoes with ⟨rfl, rfl, _⟩ | ⟨rfl, id, hid, hacts⟩
  · refine ⟨rfl, fun _ => rfl, nofun, fun id hoff hon => ?_, fun _ => rfl⟩
    simp [hoff] at hon
  · have hrepairs := hacts.repairs hnamed hid
    refine ⟨rfl, nofun, fun _ => ⟨hacts.off_lt hnamed hid, id, hid, hacts.peer_ne hnamed hid, fun _ => hacts.peer_eq⟩, ?_, ?_⟩
    · intro id' hoff hon
      by_cases hne : id' = id
      · subst hne
        rcases hrepairs.2 with ⟨_, _, htls⟩ | ⟨hurls, _⟩
        · simp [htls, hoff] at hon
        · exact hurls
      · simp [(hacts.off_eq hne).2.1, hoff] at hon
    · intro id'
      by_cases hne : id' = id
      · rw [hne, hrepairs.1]
      · exact (hacts.off_eq hne).2.2

/-! ## A migration -/

/-- Answers in which nothing fails, and nothing is out of order. -/
def attend (d : Deployment) : (r : CtlReq) → Option (r.Resp × Deployment)
  | .rangeOver keys => some (⟨keys, .refl _⟩, d)
  | .listMembers _ => some (.ok d.members, d)
  | .setPeerURLs _ member peerURLs => some (.ok (), d.setPeerURLs member.id peerURLs)
  | .reconfigure peer request =>
    match (d.node peer).feed (.call (.reconfigure request)) with
    | some (.call (.reconfigure _) _ .ok, n) => some (.ok (), d.set peer n)
    | _ => none
  | _ => none

theorem attend_answers (d : Deployment) (r : CtlReq) (x : r.Resp) (d' : Deployment) (h : d.attend r = some (x, d')) :
    d.Answers r x d' := by
  cases r with
  | rangeOver keys =>
    cases h
    exact .ranged
  | listMembers clientURLs =>
    cases h
    exact .listed (.refl _)
  | setPeerURLs clientURLs member peerURLs =>
    cases h
    exact .stored
  | reconfigure peer request =>
    simp only [attend] at h
    split at h
    next request' tr n hfeed =>
      cases h
      have hmade : request' = request := by
        simp only [Node.feed] at hfeed
        split at hfeed
        · cases hfeed
          rfl
        · cases hfeed
      subst hmade
      exact .served (Node.feed_step hfeed)
    next => cases h
  | _ => cases h

/-- A view of these peers. -/
def view (d : Deployment) (ids : List PeerId) : ClusterState where
  members := d.members.foldl (fun map member => map.insert member.id member) ∅
  peers := ids.foldr (fun id map => map.insert id ⟨⟨id, []⟩, (d.node id).server.getInfo⟩) ∅
  healthyMembers := ∅

theorem lookup_members {members : List EtcdProcessMember} (hnodup : (members.map (·.id)).Nodup) {memberId : EtcdMemberId}
    {member : EtcdProcessMember} : (members.foldl (fun (map : GoMap EtcdProcessMember) member =>
      map.insert member.id member) ∅).lookup memberId = some member ↔ member ∈ members ∧ member.id = memberId := by
  induction members using List.reverseRecOn with
  | nil => simp
  | append_singleton members last ih =>
    simp only [List.map_append, List.map_cons, List.map_nil] at hnodup
    obtain ⟨hinit, _, hdisjoint⟩ := List.nodup_append.1 hnodup
    have hother (hmem : member ∈ members) : member.id ≠ last.id :=
      hdisjoint _ (List.mem_map.2 ⟨member, hmem, rfl⟩) _ List.mem_cons_self
    rw [List.foldl_append, List.foldl_cons, List.foldl_nil, GoMap.lookup_insert_eq_some, ih hinit]
    simp only [List.mem_append, List.mem_singleton]
    constructor
    · rintro (⟨rfl, rfl⟩ | ⟨_, hmem, hid⟩)
      · exact ⟨.inr rfl, rfl⟩
      · exact ⟨.inl hmem, hid⟩
    · rintro ⟨hmem | rfl, rfl⟩
      · exact .inr ⟨hother hmem, hmem, rfl⟩
      · exact .inl ⟨rfl, rfl⟩

theorem lookup_peers {α : Type} {f : PeerId → α} {id : PeerId} {a : α} : ∀ {ids : List PeerId},
    (ids.foldr (fun id (map : GoMap α) => map.insert id (f id)) ∅).lookup id = some a ↔ id ∈ ids ∧ a = f id
  | [] => by simp
  | id' :: ids => by
    rw [List.foldr_cons, GoMap.lookup_insert_eq_some, lookup_peers, List.mem_cons]
    constructor
    · rintro (⟨rfl, rfl⟩ | ⟨_, hmem, ha⟩)
      · exact ⟨.inl rfl, rfl⟩
      · exact ⟨.inr hmem, ha⟩
    · rintro ⟨hmem, rfl⟩
      by_cases hid : id = id'
      · exact .inl ⟨hid, hid ▸ rfl⟩
      · exact .inr ⟨hid, hmem.resolve_left hid, rfl⟩

theorem view_shows (d : Deployment) (ids : List PeerId) : d.Shows ids.toFinset (d.view ids) where
  peers id p hp := by
    obtain ⟨hmem, rfl⟩ := lookup_peers.1 hp
    exact ⟨List.mem_toFinset.2 hmem, rfl, rfl⟩
  all id hid := ⟨_, lookup_peers.2 ⟨List.mem_toFinset.1 hid, rfl⟩⟩
  members _ _ := lookup_members d.nodup

def names : List PeerId := ["a", "b", "c"]

def insecure (name : PeerId) : EtcdNode :=
  let url (port : String) := "http://" ++ name ++ ":" ++ port
  ⟨name, [url "2380"], [url "4001"], [url "3994"], false⟩

/-- A cluster of three, formed before there was TLS. -/
def plain : Deployment where
  node id :=
    { server := { Scenario.server with
        etcdNodeConfiguration := insecure id
        peerServer := ((Server.new ⟨id, []⟩).leaderNotification 0 0 ⟨some ⟨some ⟨"a", []⟩, "token", [⟨id, []⟩]⟩⟩).1
        state := some ⟨false, some ⟨3, "cluster", names.map insecure⟩, "3.4.13", false⟩ }
      world := ⟨.missing, none, 0, [], false⟩ }
  members := names.map fun name => ⟨"id-" ++ name, name, (insecure name).peerUrls, (insecure name).clientUrls⟩
  nodup := by decide

def leader : EtcdController :=
  { clusterName := "main", dnsSuffix := "", myInfo := ⟨"a", []⟩, controlRefreshInterval := 0, backupInterval := 0
    backupStore := "", disableEtcdTLS := false, leaderLock := false, maxPolls := 0, leaderLockGuard := false
    leadership := none, peerState := ∅, lastBackup := 0, controlCommands := [], controlLastRead := 0
    controlClusterSpec := none }

/-- So many calls, one after the other. -/
def call : Nat → Deployment → Option (List Bool × Deployment)
  | 0, d => some ([], d)
  | n + 1, d => ((leader.reconcileTLS ⟨"token", []⟩ (d.view names)).perform? attend d).bind fun first =>
    (call n first.2).map fun rest => (first.1.1 :: rest.1, rest.2)

theorem call_calls : ∀ {n : Nat} {d d' : Deployment} {rs : List Bool}, call n d = some (rs, d') →
    Calls leader ⟨"token", []⟩ names.toFinset d rs d'
  | 0, d, d', rs, h => by
    cases h
    exact .nil
  | n + 1, d, d', rs, h => by
    obtain ⟨first, hfirst, h⟩ := Option.bind_eq_some_iff.1 h
    obtain ⟨rest, hrest, heq⟩ := Option.map_eq_some_iff.1 h
    cases heq
    exact .cons (d.view_shows names) (Prog.perform?_does attend_answers hfirst) (call_calls hrest)

/-- One after the other, the URLs of a member are changed and then it gets TLS. -/
theorem tls_migration_converges_plain : ∃ d rs, Calls leader ⟨"token", []⟩ names.toFinset plain rs d ∧
    rs = List.replicate 6 true ++ [false] ∧ plain.off names.toFinset = 6 ∧ d.off names.toFinset = 0 ∧
    ∃ k ≤ 2 * names.toFinset.card, ∃ j, rs = List.replicate k true ++ List.replicate j false := by
  obtain ⟨d, hcall, hoff⟩ : ∃ d, call 7 plain = some (List.replicate 6 true ++ [false], d) ∧ d.off names.toFinset = 0 :=
    ⟨_, rfl, rfl⟩
  have hcalls := call_calls hcall
  have hnamed : plain.Named names.toFinset := by simp [Named, plain, names]
  exact ⟨d, _, hcalls, rfl, rfl, hoff, (tls_migration_converges leader rfl _ _ _ hnamed _ _ hcalls).1⟩

end Deployment

end Etcdadm
