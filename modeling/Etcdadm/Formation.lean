/-
Several would-be leaders form a cluster at once.

`createNewCluster` goes on only with a proposal whose quorum is that of the
desired member count: as many peers as desired, or one short of an odd number
of them. So all proposals made for one member count have the same quorum, and
where the peers are fewer than two such quorums, two clusters cannot both have
one: a node has one cluster at a time, however the runs interleave and whatever
fails in between.
-/
import Etcdadm.Fleet

namespace Etcdadm

open EtcdController EtcdServer Monitor

variable {m : EtcdController} {l : LeadershipState} {cs : ClusterState} {spec : ClusterSpec} {N : Int}
  {peers : Finset PeerId}

/-! ## The proposal -/

/-- The loop takes peers up to the desired number. -/
theorem pickProposal_eq : ∀ rest proposal : List (PeerId × ClusterPeerInfo), (proposal.length : Int) < N →
    pickProposal N proposal rest = proposal ++ rest.take (N.toNat - proposal.length)
  | [], proposal, _ => by simp [pickProposal]
  | p :: rest, proposal, hlt => by
    have hlength : (proposal ++ [p]).length = proposal.length + 1 := by simp
    unfold pickProposal
    dsimp only
    rw [hlength]
    split
    next hfull =>
      have hone : N.toNat - proposal.length = 1 := by omega
      rw [hone]
      rfl
    next hmore =>
      have hroom : N.toNat - proposal.length = (N.toNat - (proposal ++ [p]).length) + 1 := by omega
      rw [pickProposal_eq rest (proposal ++ [p]) (by omega), hroom, List.take_succ_cons, List.append_assoc]
      rfl

/-- These peers may be proposed for a cluster of `N`. -/
structure Proposal (peers : Finset PeerId) (N : Int) (ids : List PeerId) : Prop where
  distinct : ids.Nodup
  within : ∀ id ∈ ids, id ∈ peers
  length_le : (ids.length : Int) ≤ N
  quorum : quorumSize ids.length = quorumSize N

/-- Nothing is asked of a peer without a proposal, and a request to join is for
one its receiver is in. -/
def CtlReq.Proposes (peers : Finset PeerId) (N : Int) : CtlReq → Prop
  | .joinCluster peer request => ∃ ids, Proposal peers N ids ∧ peer ∈ ids ∧ request.nodes.length = ids.length
  | .stopEtcd _ _ | .updateEndpoints _ _ => ∃ ids, Proposal peers N ids
  | r => r.call = none

/-- The peers are filed under their ids, and among these. -/
def ClusterState.Within (cs : ClusterState) (peers : Finset PeerId) : Prop :=
  ∀ id p, cs.peers.lookup id = some p → p.peer.id = id ∧ id ∈ peers

/-- Where `createNewCluster` goes on, what it picks is a proposal. -/
theorem proposal_of_proceeds (hN : 1 ≤ N) (hcs : cs.Within peers) {ks : List String} (hks : ks.Perm cs.peers.keys)
    (hshort : (cs.peers.size : Int) < N → quorumSize cs.peers.size = quorumSize N) :
    Proposal peers N ((pickProposal N [] (cs.peers.inOrder ks)).map (·.2.peer.id)) := by
  have hpick : pickProposal N [] (cs.peers.inOrder ks) = (cs.peers.inOrder ks).take N.toNat := by
    have := pickProposal_eq (N := N) (cs.peers.inOrder ks) [] hN
    simpa using this
  have hlength : (cs.peers.inOrder ks).length = cs.peers.size := GoMap.length_inOrder hks
  have hfiled : ∀ e ∈ (cs.peers.inOrder ks).take N.toNat, e.2.peer.id = e.1 ∧ e.1 ∈ peers := fun e he =>
    hcs e.1 e.2 ((GoMap.mem_inOrder hks).1 (List.mem_of_mem_take he))
  have hids : ((cs.peers.inOrder ks).take N.toNat).map (·.2.peer.id) = ((cs.peers.inOrder ks).take N.toNat).map Prod.fst :=
    List.map_congr_left fun e he => (hfiled e he).1
  rw [hpick, hids]
  refine ⟨?_, ?_, ?_, ?_⟩
  · rw [List.map_take]
    exact (GoMap.nodup_inOrder hks).sublist (List.take_sublist _ _)
  · intro id hid
    obtain ⟨e, he, rfl⟩ := List.mem_map.1 hid
    exact (hfiled e he).2
  · simp only [List.length_map, List.length_take, hlength]
    omega
  · simp only [List.length_map, List.length_take, hlength]
    by_cases hless : (cs.peers.size : Int) < N
    · rw [Nat.min_eq_right (by omega)]
      exact hshort hless
    · rw [Nat.min_eq_left (by omega), Int.toNat_of_nonneg (by omega)]

/-! ## What a run sends -/

/-- The fatal line of `createNewCluster`. -/
def dummyPeers : String := "Need to add dummy peers to force quorum size :-("

/-- Every request to join is for a proposal, and the fatal line is not reached. -/
def forming (peers : Finset PeerId) (N : Int) : Monitor ctlSig (Trace ctlSig) where
  next s r x := s ++ [⟨r, x⟩]
  must _ r := r.Proposes peers N
  crash _ why := why ≠ dummyPeers

theorem joinPeers_proposes {phase : Phase} {token version what : String} {nodes : List EtcdNode} {ids : List PeerId}
    (hids : Proposal peers N ids) (hnodes : nodes.length = ids.length) :
    ∀ ps : List (PeerId × ClusterPeerInfo), (∀ e ∈ ps, e.2.peer.id ∈ ids) →
      (m.joinPeers l phase token version nodes what ps).Uses (CtlReq.Proposes peers N) False
  | [], _ => trivial
  | (_, p) :: rest, hps => by
    obtain ⟨hp, hrest⟩ := List.forall_mem_cons.1 hps
    refine Uses.ctl ⟨ids, hids, hp, hnodes⟩ fun answer => ?_
    cases answer with
    | error err => trivial
    | ok _ => exact joinPeers_proposes hids hnodes rest hrest

theorem stopPeers_proposes {ids : List PeerId} (hids : Proposal peers N ids) :
    ∀ ps : List (PeerId × ClusterPeerInfo), (m.stopPeers l ps).Uses (CtlReq.Proposes peers N) False
  | [] => trivial
  | (_, p) :: rest => by
    unfold stopPeers
    split
    · refine Uses.ctl ⟨ids, hids⟩ fun answer => ?_
      cases answer with
      | error err => trivial
      | ok _ => exact stopPeers_proposes hids rest
    · exact stopPeers_proposes hids rest

theorem broadcastTo_proposes {memberMap : MemberMap} {ids : List PeerId} (hids : Proposal peers N ids) :
    ∀ ps : List (PeerId × ClusterPeerInfo), (broadcastTo memberMap ps).Uses (CtlReq.Proposes peers N) False
  | [] => trivial
  | (_, p) :: rest => by
    refine Uses.ctl ⟨ids, hids⟩ fun answer => ?_
    cases answer with
    | error err => exact .bind (broadcastTo_proposes hids rest) fun _ => trivial
    | ok _ => exact broadcastTo_proposes hids rest

/-- As many nodes as peers are proposed. -/
theorem wp_proposeNodes {s : Trace ctlSig} : ∀ ps : List (PeerId × ClusterPeerInfo),
    (forming peers N).wp (m.proposeNodes ps) s fun _ r => r.1.length = ps.length
  | [] => rfl
  | (_, p) :: rest => by
    unfold proposeNodes
    split
    · exact show _ ≠ _ by decide
    · refine Monitor.wp_bind.2 (Monitor.wp_mono ?_ (wp_proposeNodes rest))
      intro _ r hr
      exact congrArg (· + 1) hr

theorem wp_joinProposal {token : String} {proposal : List (PeerId × ClusterPeerInfo)} {s : Trace ctlSig}
    (hids : Proposal peers N (proposal.map (·.2.peer.id))) :
    (forming peers N).wp (m.joinProposal l cs spec token proposal) s fun _ _ => True := by
  refine Monitor.wp_bind.2 (Monitor.wp_mono ?_ (wp_proposeNodes proposal))
  intro s' ⟨nodes, members⟩ hlength
  have hnodes : nodes.length = (proposal.map (·.2.peer.id)).length := hlength.trans (by simp)
  have hmem : ∀ e ∈ proposal, e.2.peer.id ∈ proposal.map (·.2.peer.id) := fun e he => List.mem_map.2 ⟨e, he, rfl⟩
  have hstep : ∀ (s : Trace ctlSig) (r : CtlReq), True → r.Proposes peers N → (forming peers N).must s r ∧
      ∀ x, (forming peers N).may s r x → True := fun _ _ _ hr => ⟨hr, fun _ _ => trivial⟩
  refine Monitor.wp_of_uses (I := fun _ => True) hstep (fun _ _ _ (h : False) => h.elim) ?_ trivial
  dsimp only
  refine Uses.range rfl fun ps => ?_
  refine .bind (stopPeers_proposes hids ps) fun err => ?_
  split
  · trivial
  refine .bind (Uses.range rfl fun ps => broadcastTo_proposes hids ps) fun errors => ?_
  split
  · trivial
  refine .bind (joinPeers_proposes hids hnodes proposal hmem) fun err => ?_
  split
  · trivial
  refine .bind (joinPeers_proposes hids hnodes proposal hmem) fun err => ?_
  split
  · trivial
  refine .bind (Uses.ctl rfl fun answer => ?_) fun err => ?_
  · cases answer <;> trivial
  · split <;> trivial

theorem wp_createNewCluster (hN : 1 ≤ N) (hspec : spec.memberCount = N) (hcs : cs.Within peers) {s : Trace ctlSig} :
    (forming peers N).wp (m.createNewCluster l cs spec) s fun _ _ => True := by
  unfold createNewCluster
  rw [hspec]
  dsimp only
  split
  · trivial
  split
  · trivial
  next hgo =>
  have hshort (hless : (cs.peers.size : Int) < N) : quorumSize cs.peers.size = quorumSize N := by
    by_contra hne
    exact hgo ⟨hless, hne⟩
  unfold formCluster
  rw [hspec]
  refine Monitor.wp_ctl.2 ⟨rfl, fun token _ => Monitor.wp_range.2 ⟨rfl, fun ks _ => ?_⟩⟩
  have hids := proposal_of_proceeds hN hcs ks.2 hshort
  dsimp only
  split
  next hfatal =>
    -- the proposal has the quorum of the desired count
    have hq := hids.quorum
    rw [List.length_map] at hq
    exact absurd hfatal.2 (by rw [hq]; exact Int.lt_irrefl _)
  · exact wp_joinProposal hids

/-! ## Runs side by side -/

/-- Any number of runs of `createNewCluster`. Leaders come and go: notifications
may reach a node at any time. -/
def formation : Interplay ctlSig Progress Realm where
  answers := Realm.Answers
  drifts g g' := g.Drifts g' ∨ ∃ peer request x, g.Answers (.leaderNotification peer request) x g'
  resumes _ _ := False

/-- A run has asked some peer to join this cluster. -/
def Offered {ι : Type} (s : ι → Trace ctlSig) (cluster : EtcdCluster) : Prop :=
  ∃ i peer request x, ⟨.joinCluster peer request, x⟩ ∈ s i ∧ cluster = ⟨0, request.clusterToken, request.nodes⟩

/-- The cluster of the state, if it has one, was offered. -/
def EtcdState.FromOffer {ι : Type} (s : ι → Trace ctlSig) (st : EtcdState) : Prop :=
  ∀ cluster, st.cluster = some cluster → Offered s cluster

section Interplay

variable {ι : Type} {s s' : ι → Trace ctlSig} {g g' : Realm}

theorem lasting_fromOffer : Lasting (EtcdState.FromOffer s) fun _ => True :=
  ⟨nofun, fun _ h => h, fun _ _ _ _ _ _ _ => trivial⟩

theorem EtcdState.FromOffer.mono (h : ∀ i, s i ⊆ s' i) {st : EtcdState} (hst : st.FromOffer s) : st.FromOffer s' := by
  intro cluster hcluster
  obtain ⟨i, peer, request, x, hmem, rfl⟩ := hst cluster hcluster
  exact ⟨i, peer, request, x, h i hmem, rfl⟩

/-- What is so of the runs and the nodes: every request to join was for a
proposal, and if the nodes started without etcd, each has what it was offered. -/
structure Formed (peers : Finset PeerId) (N : Int) (blank : Prop) (g : Realm) (s : ι → Trace ctlSig) : Prop where
  proposed : ∀ i, ∀ e ∈ s i, e.req.Proposes peers N
  offered : blank → ∀ peer, (g.node peer).Holds (EtcdState.FromOffer s) fun _ => True

theorem installs_fromOffer {r : CtlReq} {peer : PeerId} {c : Call} {n : Node} {st : EtcdState} {x : r.Resp} {i : ι}
    (hr : r.Proposes peers N) (hc : r.call = some (peer, c)) (hx : ⟨r, x⟩ ∈ s i) (hi : (Cause.call c).Installs n st) :
    st.FromOffer s := by
  cases r with
  | joinCluster peer' request =>
    cases hc
    intro cluster hcluster
    refine ⟨i, _, _, x, hx, ?_⟩
    rcases hi.2 with ⟨-, rfl⟩ | ⟨-, rfl⟩ <;> exact (Option.some.inj hcluster).symm
  | stopEtcd peer' request =>
    cases hc
    rw [hi.2]
    exact nofun
  | getInfo | doBackup | doRestore | reconfigure => cases hr
  | _ => cases hc

theorem formation_sound [DecidableEq ι] (blank : Prop) :
    formation.Sound (forming peers N) (fun _ _ => True) (fun s => s = []) (@Formed ι peers N blank) where
  answer := by
    intro g g' s i r x hinv hmust hans
    refine ⟨trivial, ?_⟩
    have hgrows : ∀ j, s j ⊆ Function.update s i ((forming peers N).next (s i) r x) j :=
      (Function.forall_update_iff s fun j tr => s j ⊆ tr).2 ⟨List.subset_append_left _ _, fun _ _ => List.Subset.refl _⟩
    have hnew : ⟨r, x⟩ ∈ Function.update s i ((forming peers N).next (s i) r x) i := by
      rw [Function.update_self]
      exact List.mem_append_right _ (List.mem_singleton.2 rfl)
    constructor
    · refine (Function.forall_update_iff s fun _ tr => ∀ e ∈ tr, e.req.Proposes peers N).2 ⟨?_, fun j _ => hinv.proposed j⟩
      exact List.forall_mem_append.2 ⟨hinv.proposed i, List.forall_mem_singleton.2 hmust⟩
    · intro hblank peer
      have hold := (hinv.offered hblank peer).mono fun st hst => hst.mono hgrows
      exact hold.met lasting_fromOffer (fun c _ st hc _ _ hi => installs_fromOffer hmust hc hnew hi) (hans.met peer)
  drift := by
    intro g g' s hinv hdrift
    refine ⟨hinv.proposed, fun hblank peer => ?_⟩
    rcases hdrift with hdrift | ⟨peer', request, x, hans⟩
    · refine (hinv.offered hblank peer).met lasting_fromOffer ?_ (hdrift.met peer)
      intro c _ st hc _ _ hi
      subst hc
      exact hi.elim
    · exact (hinv.offered hblank peer).met lasting_fromOffer (fun c _ st hc => nomatch hc) (hans.met peer)
  resume hinv _ h := h.elim

end Interplay

/-! ## Quorums -/

/-- The cluster a node goes by. -/
def Node.configured (n : Node) : Option EtcdCluster := n.server.state.bind (·.cluster)

/-- The cluster in a node's state file. -/
def Node.stored (n : Node) : Option EtcdCluster :=
  match n.world.file with
  | .holds st => st.cluster
  | _ => none

/-- The peers that have a cluster of this token. -/
def Realm.having (g : Realm) (view : Node → Option EtcdCluster) (peers : Finset PeerId) (token : String) : Finset PeerId :=
  peers.filter fun peer => (view (g.node peer)).any (·.clusterToken == token)

/-- A quorum of its own node list has the cluster's token. -/
def Realm.Quorate (g : Realm) (view : Node → Option EtcdCluster) (peers : Finset PeerId) (cluster : EtcdCluster) : Prop :=
  quorumSize cluster.nodes.length ≤ (g.having view peers cluster.clusterToken).card

theorem Realm.card_having_add {g : Realm} {view : Node → Option EtcdCluster} {token₁ token₂ : String} (hne : token₁ ≠ token₂) :
    (g.having view peers token₁).card + (g.having view peers token₂).card ≤ peers.card := by
  have hdisjoint : Disjoint (g.having view peers token₁) (g.having view peers token₂) := by
    rw [Finset.disjoint_left]
    intro peer h₁ h₂
    have hview₁ := (Finset.mem_filter.1 h₁).2
    have hview₂ := (Finset.mem_filter.1 h₂).2
    cases hview : view (g.node peer) with
    | none => simp [hview] at hview₁
    | some cluster =>
      simp only [hview, Option.any_some, beq_iff_eq] at hview₁ hview₂
      exact hne (hview₁.symm.trans hview₂)
  rw [← Finset.card_union_of_disjoint hdisjoint]
  exact Finset.card_le_card (Finset.union_subset (Finset.filter_subset _ _) (Finset.filter_subset _ _))

section Offers

variable {ι : Type} {s : ι → Trace ctlSig} {g : Realm} {blank : Prop} {cluster : EtcdCluster}

/-- A cluster that was offered has the quorum of the member count. -/
theorem Formed.quorumSize_eq (h : Formed peers N blank g s) (hoffer : Offered s cluster) :
    quorumSize cluster.nodes.length = quorumSize N := by
  obtain ⟨i, peer, request, x, hmem, rfl⟩ := hoffer
  obtain ⟨ids, hids, -, hlength⟩ := h.proposed i _ hmem
  exact hlength ▸ hids.quorum

theorem Formed.offered_view (h : Formed peers N blank g s) (hblank : blank) {view : Node → Option EtcdCluster}
    (hview : view ∈ [Node.configured, Node.stored]) {peer : PeerId} (hcluster : view (g.node peer) = some cluster) :
    Offered s cluster := by
  have hholds := h.offered hblank peer
  rcases List.mem_pair.1 hview with rfl | rfl
  · obtain ⟨st, hst, hcl⟩ := Option.bind_eq_some_iff.1 hcluster
    exact hholds.state st hst cluster hcl
  · cases hfile : (g.node peer).world.file with
    | holds st =>
      rw [Node.stored, hfile] at hcluster
      exact hholds.file st hfile cluster hcluster
    | missing | garbage =>
      rw [Node.stored, hfile] at hcluster
      cases hcluster

end Offers

/-- **One cluster at a time.** Runs of `createNewCluster` for the same member
count, on fewer than twice its quorum of peers, never leave two tokens each on a
quorum of its own node list, in memory or on disk; what a node has, if it
started without etcd, is what a run offered; and each run asks peers for
something only with a proposal of the right quorum. -/
theorem single_cluster_formation {ι : Type} [DecidableEq ι] {c₀ c : Scene ctlSig Progress Realm ι} (hN : 1 ≤ N)
    (hfew : (peers.card : Int) < 2 * quorumSize N)
    (hruns : ∀ i, ∃ m l cs spec, ClusterState.Within cs peers ∧ spec.memberCount = N ∧
      c₀.parties i = ⟨createNewCluster m l cs spec, []⟩)
    (hreach : formation.Reaches c₀ c) :
    (∀ view ∈ [Node.configured, Node.stored], ∀ cluster₁ cluster₂, Offered (fun i => (c.parties i).past) cluster₁ →
      Offered (fun i => (c.parties i).past) cluster₂ → cluster₁.clusterToken ≠ cluster₂.clusterToken →
      ¬ (c.shared.Quorate view peers cluster₁ ∧ c.shared.Quorate view peers cluster₂)) ∧
    ((∀ peer, (c₀.shared.node peer).Blank) → ∀ view ∈ [Node.configured, Node.stored], ∀ peer cluster,
      view (c.shared.node peer) = some cluster → Offered (fun i => (c.parties i).past) cluster) ∧
    (∀ i r k, (c.parties i).program = .call r k → r.Proposes peers N) ∧
    ∀ i, (c.parties i).program ≠ .crash dummyPeers := by
  let blank : Prop := ∀ peer, (c₀.shared.node peer).Blank
  have hstart : Interplay.Orderly (forming peers N) (fun _ _ => True) (fun s => s = []) (Formed peers N blank) c₀ := by
    have hpast (i : ι) : (c₀.parties i).past = [] := by
      obtain ⟨m, l, cs, spec, -, -, hi⟩ := hruns i
      rw [hi]
    refine ⟨fun _ => [], fun _ => rfl, ⟨fun i e he => ?_, fun hblank peer => .of_blank (hblank peer)⟩, fun i => ?_⟩
    · dsimp only at he
      rw [hpast i] at he
      cases he
    · obtain ⟨m, l, cs, spec, hcs, hspec, hi⟩ := hruns i
      rw [hi]
      exact wp_createNewCluster hN hspec hcs
  obtain ⟨start, hnil, hinv, hwp⟩ := (formation_sound blank).reaches hreach hstart
  have hafter (i : ι) : (forming peers N).after (start i) (c.parties i).past = (c.parties i).past := by
    have hhistory := @Monitor.history_after ctlSig (fun _ r => r.Proposes peers N) [] (c.parties i).past
    rw [hnil i]
    exact hhistory
  simp only [hafter] at hinv hwp
  refine ⟨?_, ?_, ?_, ?_⟩
  · intro view _ cluster₁ cluster₂ hoffer₁ hoffer₂ hne ⟨hq₁, hq₂⟩
    have hsum : (c.shared.having view peers cluster₁.clusterToken).card +
        (c.shared.having view peers cluster₂.clusterToken).card ≤ peers.card := Realm.card_having_add hne
    rw [Realm.Quorate, hinv.quorumSize_eq hoffer₁] at hq₁
    rw [Realm.Quorate, hinv.quorumSize_eq hoffer₂] at hq₂
    omega
  · intro hblank view hview peer cluster hcluster
    exact hinv.offered_view hblank hview hcluster
  · intro i r k hcall
    have hi := hwp i
    rw [hcall] at hi
    exact hi.1
  · intro i hcrash
    have hi := hwp i
    rw [hcrash] at hi
    exact hi rfl

/-! ## Two runs -/

namespace Rivals

/-- A manager that follows the leader of this token. -/
def follower (id : PeerId) (token : String) : Node :=
  (Realm.manager id).gossiping { Server.new ⟨id, []⟩ with leadership := some ⟨some ⟨some ⟨none, token, []⟩⟩, 0⟩ }

/-- These peers, none of which has etcd. -/
def seen : List PeerId → GoMap ClusterPeerInfo
  | [] => ∅
  | id :: ids => (seen ids).insert id ⟨⟨id, []⟩, (Realm.manager id).server.getInfo⟩

theorem lookup_seen : ∀ (ids : List PeerId) {id : PeerId} {p : ClusterPeerInfo}, (seen ids).lookup id = some p →
    p.peer.id = id ∧ id ∈ ids
  | [], id, p, h => by cases h
  | id' :: ids, id, p, h => by
    obtain ⟨rfl, rfl⟩ | ⟨-, h⟩ := GoMap.lookup_insert_eq_some.1 h
    · exact ⟨rfl, List.mem_cons_self⟩
    · exact ⟨(lookup_seen ids h).1, List.mem_cons_of_mem _ (lookup_seen ids h).2⟩

def run (token : String) (ids : List PeerId) : Party ctlSig Progress :=
  ⟨(Site.controller "a").createNewCluster ⟨token, []⟩ ⟨∅, seen ids, ∅⟩ ⟨3, "3.4.13"⟩, []⟩

/-- One leader has `a` and `b`, the other `c`, but sees `b` too. -/
def start : Scene ctlSig Progress Realm Bool :=
  ⟨⟨fun id => follower id (if id = "c" then "two" else "one"), false, []⟩, fun i =>
    if i then run "one" ["b", "a"] else run "two" ["c", "b"]⟩

def site : Site :=
  { peers := [], info := Site.running [] true, members := [], commands := [], spec := none, created := false }

/-- The first prepares its two nodes; the second prepares `c` and is refused by
`b`; the first has its nodes join. -/
def turns : List (Turn Bool) := [.go true site 8, .go false site 8, .go true site 2]

end Rivals

/-- One of two rivals comes to a quorum, so the other has none. -/
theorem single_cluster_formation_rivals : ∃ (c : Scene ctlSig Progress Realm Bool) (cluster₁ cluster₂ : EtcdCluster),
    formation.Reaches Rivals.start c ∧ Offered (fun i => (c.parties i).past) cluster₁ ∧
    Offered (fun i => (c.parties i).past) cluster₂ ∧ c.shared.Quorate Node.configured {"a", "b", "c"} cluster₁ ∧
    ¬ c.shared.Quorate Node.configured {"a", "b", "c"} cluster₂ := by
  have hplay : ∃ c peer₁ request₁ x₁ peer₂ request₂ x₂, Rivals.start.play (fun _ => none) Rivals.turns = some c ∧
      (c.parties true).past[9]? = some ⟨.joinCluster peer₁ request₁, x₁⟩ ∧
      (c.parties false).past[6]? = some ⟨.joinCluster peer₂ request₂, x₂⟩ ∧
      request₁.clusterToken = "token 0" ∧ request₂.clusterToken = "token 1" ∧ request₁.nodes.length = 2 ∧
      (c.shared.node "a").configured.any (·.clusterToken == "token 0") = true ∧
      (c.shared.node "b").configured.any (·.clusterToken == "token 0") = true :=
    ⟨_, _, _, _, _, _, _, rfl, rfl, rfl, rfl, rfl, rfl, rfl, rfl⟩
  obtain ⟨c, peer₁, request₁, x₁, peer₂, request₂, x₂, hplay, h₁, h₂, htoken₁, htoken₂, hlength, ha, hb⟩ := hplay
  have hreach : formation.Reaches Rivals.start c := Scene.play_reaches rfl (by simp) _ hplay
  have hruns (i : Bool) : ∃ m l cs spec, ClusterState.Within cs {"a", "b", "c"} ∧ spec.memberCount = 3 ∧
      Rivals.start.parties i = ⟨createNewCluster m l cs spec, []⟩ := by
    have hwithin {ids : List PeerId} (hids : ids ⊆ ["a", "b", "c"]) :
        ClusterState.Within ⟨∅, Rivals.seen ids, ∅⟩ {"a", "b", "c"} := by
      intro id p hp
      obtain ⟨hid, hmem⟩ := Rivals.lookup_seen ids hp
      exact ⟨hid, by simpa using hids hmem⟩
    cases i with
    | true => exact ⟨_, _, _, _, hwithin (by simp), rfl, rfl⟩
    | false => exact ⟨_, _, _, _, hwithin (by simp), rfl, rfl⟩
  have hoffer₁ : Offered (fun i => (c.parties i).past) ⟨0, request₁.clusterToken, request₁.nodes⟩ :=
    ⟨true, peer₁, request₁, x₁, List.mem_of_getElem? h₁, rfl⟩
  have hoffer₂ : Offered (fun i => (c.parties i).past) ⟨0, request₂.clusterToken, request₂.nodes⟩ :=
    ⟨false, peer₂, request₂, x₂, List.mem_of_getElem? h₂, rfl⟩
  have hquorate : c.shared.Quorate Node.configured {"a", "b", "c"} ⟨0, request₁.clusterToken, request₁.nodes⟩ := by
    have hpair : {"a", "b"} ⊆ c.shared.having Node.configured {"a", "b", "c"} "token 0" := by
      intro id hid
      rcases Finset.mem_insert.1 hid with rfl | hid
      · exact Finset.mem_filter.2 ⟨by simp, ha⟩
      · cases Finset.mem_singleton.1 hid
        exact Finset.mem_filter.2 ⟨by simp, hb⟩
    have htwo : 2 ≤ (c.shared.having Node.configured {"a", "b", "c"} "token 0").card := Finset.card_le_card hpair
    simp only [Realm.Quorate, htoken₁, hlength]
    exact Int.ofNat_le.2 htwo
  refine ⟨c, _, _, hreach, hoffer₁, hoffer₂, hquorate, fun hquorate' => ?_⟩
  have htheorem := (single_cluster_formation (N := 3) (by decide) (by decide) hruns hreach).1
  exact htheorem _ (by simp) _ _ hoffer₁ hoffer₂ (by simp [htoken₁, htoken₂]) ⟨hquorate, hquorate'⟩

end Etcdadm
