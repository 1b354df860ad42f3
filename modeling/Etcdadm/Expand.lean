/-
A node joins a cluster that has room for it.

`addNodeToCluster` registers the new member with etcd under the peer URLs its
node is configured with, and tells the node itself to join under those URLs with
the scheme rewritten. The two are the same only if there was nothing to rewrite
(`tlsConfigured_perm_iff`).

`CanExpand` says when the controller gets as far as that. If it does, each idle
peer there is may be told to join, and otherwise none is.
-/
import Etcdadm.Resize

namespace Etcdadm

open EtcdController ClusterState

variable {m : EtcdController} {l : LeadershipState} {cs : ClusterState} {spec : ClusterSpec}

/-! ## Rewriting a scheme -/

/-- URLs are the same before and after, in whatever order, only if none had
the scheme. -/
theorem rewriteScheme_perm_iff {urls : List String} {old new : String} (h : ∀ s, hasPrefix (new ++ s) old = false) :
    (rewriteScheme urls old new).Perm urls ↔ ∀ url ∈ urls, hasPrefix url old = false := by
  constructor
  · intro hperm url hurl
    obtain ⟨url', -, heq⟩ := List.mem_map.1 (hperm.symm.subset hurl)
    split at heq
    · rw [← heq]
      exact h _
    next hno =>
      rw [← heq]
      exact Bool.not_eq_true _ ▸ hno
  · intro hno
    have hsame : rewriteScheme urls old new = urls := by
      refine (List.map_congr_left fun url hurl => ?_).trans (List.map_id urls)
      rw [if_neg (by simp [hno url hurl])]
      rfl
    rw [hsame]

/-- The scheme that the URLs of etcd should not have. -/
def EtcdController.wrongScheme (m : EtcdController) : String := if m.disableEtcdTLS then "https://" else "http://"

theorem tlsConfigured_perm_iff {node : EtcdNode} : (m.tlsConfigured node).peerUrls.Perm node.peerUrls ↔
    ∀ url ∈ node.peerUrls, hasPrefix url m.wrongScheme = false := by
  have hhttp (s : String) : hasPrefix ("http://" ++ s) "https://" = false := by
    simp [hasPrefix, String.toList_append, List.isPrefixOf]
  have hhttps (s : String) : hasPrefix ("https://" ++ s) "http://" = false := by
    simp [hasPrefix, String.toList_append, List.isPrefixOf]
  unfold tlsConfigured wrongScheme
  split
  · exact rewriteScheme_perm_iff hhttp
  · exact rewriteScheme_perm_iff hhttps

/-! ## What is registered, and what is joined -/

/-- A node that is told to join was registered under the peer URLs of its own
entry, which is the last of the request. -/
def JoinsAsRegistered (tr : Trace ctlSig) : Prop :=
  ∀ pre peer request x post, tr = pre ++ ⟨.joinCluster peer request, x⟩ :: post → request.phase = .joinExisting →
    ∀ via peerUrls y, ⟨.addMember via peerUrls, y⟩ ∈ pre →
      ∃ own, request.nodes.getLast? = some own ∧ own.peerUrls.Perm peerUrls

/-- Members were registered under these URLs only. -/
def Registers (urls : List String) (tr : Trace ctlSig) : Prop :=
  ∀ via peerUrls y, ⟨.addMember via peerUrls, y⟩ ∈ tr → peerUrls = urls

theorem Registers.append {urls : List String} {tr tr' : Trace ctlSig} (h : Registers urls tr)
    (h' : ∀ e ∈ tr', e.req.kind ≠ .addMember) : Registers urls (tr ++ tr') := by
  intro via peerUrls y hmem
  rcases List.mem_append.1 hmem with hmem | hmem
  · exact h via peerUrls y hmem
  · exact (h' _ hmem rfl).elim

/-- What a join has to be entitled by. -/
def joinMust (tr : Trace ctlSig) (r : CtlReq) : Prop :=
  ∀ peer request, r = .joinCluster peer request → request.phase = .joinExisting →
    ∀ via peerUrls y, ⟨.addMember via peerUrls, y⟩ ∈ tr →
      ∃ own, request.nodes.getLast? = some own ∧ own.peerUrls.Perm peerUrls

theorem joinMust_of_kind {s : Trace ctlSig} {r : CtlReq} (hr : r.kind ≠ .joinExisting) : joinMust s r := by
  intro peer request heq hph
  rw [heq] at hr
  simp [CtlReq.kind, hph] at hr

namespace ClusterState

/-- Some peer knows the token of a cluster. -/
def HasCluster (cs : ClusterState) : Prop :=
  ∃ id p st cluster, cs.peers.lookup id = some p ∧ p.info.etcdState = some st ∧ st.cluster = some cluster ∧
    cluster.clusterToken ≠ ""

/-- Nothing keeps `addNodeToCluster` from adding an idle peer, if there is one. -/
structure CanExpand (cs : ClusterState) : Prop where
  members : cs.members.size ≠ 0
  quorum : quorumSize cs.members.size ≤ cs.healthyMembers.size
  configured : missingNodeConfiguration cs = false
  canBackup : cs.CanBackup
  hasCluster : cs.HasCluster

end ClusterState

theorem currentCluster_hasCluster {peers : List (PeerId × ClusterPeerInfo)}
    (hpeers : ∀ e ∈ peers, cs.peers.lookup e.1 = some e.2) {result : String × String}
    (h : currentCluster peers = some result) : cs.HasCluster := by
  obtain ⟨e, he, hsome⟩ := List.exists_of_findSome?_eq_some h
  obtain ⟨st, hst, hsome⟩ := Option.bind_eq_some_iff.1 hsome
  obtain ⟨cluster, hcluster, hsome⟩ := Option.bind_eq_some_iff.1 hsome
  have htoken : cluster.clusterToken ≠ "" := by
    intro hnil
    rw [if_pos hnil] at hsome
    cases hsome
  exact ⟨e.1, e.2, st, cluster, hpeers e (List.mem_reverse.1 he), hst, hcluster, htoken⟩

section

variable {s : Trace ctlSig} {node : EtcdNode}

/-- A step that neither registers nor joins. -/
theorem wp_join_of_uses {α : Type} {kinds : List Kind} {p : CtlM α} {R : α → Prop}
    (hp : p.Uses (OfKind kinds) True) (hj : .joinExisting ∉ kinds) (ha : .addMember ∉ kinds) (hr : p.Returns R) :
    (Monitor.history joinMust).wp p s fun s' a => (∀ urls, Registers urls s → Registers urls s') ∧ R a := by
  refine Monitor.wp_mono ?_ (Monitor.wp_history_of_uses (fun s r hr => joinMust_of_kind fun hk => ?_) hp hr)
  · rintro s' a ⟨⟨tr, rfl, htr⟩, ha'⟩
    refine ⟨fun urls hs => hs.append fun e he hk => ha ?_, ha'⟩
    rw [← hk]
    exact htr e he
  · rw [OfKind, hk] at hr
    exact hj hr

/-- Without members there is none to register with. -/
theorem wp_addMemberVia : ∀ (members : List (EtcdMemberId × EtcdProcessMember)) {s : Trace ctlSig},
    Registers node.peerUrls s →
    (Monitor.history joinMust).wp (cs.addMemberVia node members) s fun s' r =>
      Registers node.peerUrls s' ∧ ∀ member, r = .ok member → members ≠ []
  | [], _, hs => ⟨hs, by simp⟩
  | (_, member) :: rest, s, hs => by
    refine Monitor.wp_bind.2 (Monitor.wp_mono ?_ (wp_join_of_uses ((@uses_clientURLs ⟨"", []⟩ cs member _).kinds
      (List.Subset.refl _)) (by simp) (by simp) (.trivially _)))
    intro s₁ urls ⟨hkeep, _⟩
    have hs₁ := hkeep _ hs
    refine Monitor.wp_ctl.2 ⟨joinMust_of_kind (by simp [CtlReq.kind]), fun answer _ => ?_⟩
    have hs₂ : Registers node.peerUrls (s₁ ++ [⟨.addMember urls node.peerUrls, answer⟩]) := by
      intro via peerUrls y hmem
      rcases List.mem_append.1 hmem with hmem | hmem
      · exact hs₁ via peerUrls y hmem
      · cases List.mem_singleton.1 hmem
        rfl
    cases answer with
    | error err => exact Monitor.wp_mono (fun _ _ h => ⟨h.1, by simp⟩) (wp_addMemberVia rest hs₂)
    | ok _ => exact ⟨hs₂, by simp⟩

theorem wp_addPeer {peer : ClusterPeerInfo} (hs : ∀ urls, Registers urls s)
    (hurls : cs.HasCluster → cs.members.size ≠ 0 → ∀ node, peer.info.nodeConfiguration = some node →
      (m.tlsConfigured node).peerUrls.Perm node.peerUrls) :
    (Monitor.history joinMust).wp (m.addPeer l cs peer) s fun _ _ => True := by
  have quiet {s : Trace ctlSig} {e : Event ctlSig} {urls : List String} (he : e.req.kind ≠ .addMember)
      (hs : Registers urls s) : Registers urls (s ++ [e]) :=
    hs.append fun e' he' => List.mem_singleton.1 he' ▸ he
  refine Monitor.wp_range.2 ⟨joinMust_of_kind (by simp [CtlReq.kind]), fun ks _ => ?_⟩
  split
  · trivial
  next hcurrent =>
  have hcluster : cs.HasCluster := currentCluster_hasCluster (fun e he => (GoMap.mem_inOrder ks.2).1 he) hcurrent
  refine Monitor.wp_range.2 ⟨joinMust_of_kind (by simp [CtlReq.kind]), fun ks' _ => ?_⟩
  split
  · trivial
  next node hnode =>
  refine Monitor.wp_ctl.2 ⟨joinMust_of_kind (by simp [CtlReq.kind]), fun answer _ => ?_⟩
  cases answer with
  | error err => trivial
  | ok _ =>
  refine Monitor.wp_bind.2 (Monitor.wp_range.2 ⟨joinMust_of_kind (by simp [CtlReq.kind]), fun ks'' _ => ?_⟩)
  refine Monitor.wp_mono ?_ (wp_addMemberVia _ ?_)
  · intro s' r hs'
    cases r with
    | error err => exact Monitor.wp_ctl.2 ⟨joinMust_of_kind (by simp [CtlReq.kind]), fun _ _ => trivial⟩
    | ok member =>
      refine Monitor.wp_ctl.2 ⟨?_, fun answer _ => ?_⟩
      · intro peer request heq _ via peerUrls y hmem
        cases heq
        refine ⟨_, List.getLast?_concat, ?_⟩
        rw [hs'.1 via peerUrls y hmem]
        refine hurls hcluster (fun hzero => hs'.2 member rfl ?_) node hnode
        exact List.length_eq_zero_iff.1 ((GoMap.length_inOrder ks''.2).trans hzero)
      · cases answer <;> trivial
  · exact quiet (by simp [CtlReq.kind]) (quiet (by simp [CtlReq.kind]) (quiet (by simp [CtlReq.kind])
      (quiet (by simp [CtlReq.kind]) (hs node.peerUrls))))

end

/-- The idle peers have nothing to rewrite. -/
def WellConfigured (m : EtcdController) (cs : ClusterState) : Prop :=
  ∀ id p node, cs.peers.lookup id = some p → p.configured = false → p.info.nodeConfiguration = some node →
    ∀ url ∈ node.peerUrls, hasPrefix url m.wrongScheme = false

theorem wp_addNodeToCluster_join (h : cs.CanExpand → WellConfigured m cs) :
    (Monitor.history joinMust).wp (m.addNodeToCluster l spec cs) [] fun _ _ => True := by
  have hnone (urls : List String) : Registers urls [] := fun _ _ _ hmem => (List.not_mem_nil hmem).elim
  unfold addNodeToCluster
  split
  · trivial
  next hquorum =>
  split
  · trivial
  next hconfigured =>
  -- whichever idle peer is picked
  have pick {idle : List (PeerId × ClusterPeerInfo)} {s : Trace ctlSig} (hs : ∀ urls, Registers urls s)
      (hidle : ∀ e, e ∈ idle ↔ cs.peers.lookup e.1 = some e.2 ∧ e.2.configured = false)
      (hbackup : cs.members.size ≠ 0 → cs.CanBackup) :
      (Monitor.history joinMust).wp (do m.addPeer l cs (idle.get (← ctl (.randIntn idle.length))).2) s
        fun _ _ => True := by
    refine Monitor.wp_ctl.2 ⟨joinMust_of_kind (by simp [CtlReq.kind]), fun i _ => wp_addPeer ?_ ?_⟩
    · intro urls
      exact (hs urls).append fun e he => by simp [List.mem_singleton.1 he, CtlReq.kind]
    · intro hcluster hmembers node hnode
      obtain ⟨hpeer, hfree⟩ := (hidle _).1 (List.get_mem idle i)
      have hexpand : cs.CanExpand := ⟨hmembers, by omega, by simpa using hconfigured, hbackup hmembers, hcluster⟩
      exact tlsConfigured_perm_iff.2 (h hexpand _ _ node hpeer hfree hnode)
  refine Monitor.wp_bind.2 (Monitor.wp_mono ?_ (wp_join_of_uses ((@uses_idlePeers l cs _).kinds (List.Subset.refl _))
    (by simp) (by simp) returns_idlePeers))
  intro s₁ idle h₁
  obtain ⟨hkeep₁, hidle⟩ := h₁
  have hs₁ (urls : List String) := hkeep₁ urls (hnone urls)
  split
  · trivial
  split
  next hzero => exact pick hs₁ hidle fun hne => (hne hzero).elim
  refine Monitor.wp_bind.2 (Monitor.wp_mono ?_ (wp_join_of_uses (uses_doClusterBackup.kinds (List.Subset.refl _))
    (by simp) (by simp) returns_doClusterBackup))
  intro s₂ r h₂
  have hs₂ (urls : List String) := h₂.1 urls (hs₁ urls)
  cases r with
  | error err => trivial
  | ok response => exact pick hs₂ hidle fun _ => h₂.2 response rfl

/-! ## Getting as far as the join -/

theorem HasCluster.currentCluster (h : cs.HasCluster) :
    ∃ token version, currentCluster (cs.peers.inOrder cs.peers.keys) = some (token, version) := by
  obtain ⟨id, p, st, cluster, hp, hst, hcl, htok⟩ := h
  have hmem : (id, p) ∈ (cs.peers.inOrder cs.peers.keys).reverse :=
    List.mem_reverse.2 ((GoMap.mem_inOrder (.refl _)).2 hp)
  cases hcur : EtcdController.currentCluster (cs.peers.inOrder cs.peers.keys) with
  | some r => exact ⟨r.1, r.2, rfl⟩
  | none =>
    have hnone := List.findSome?_eq_none_iff.1 hcur (id, p) hmem
    simp [hst, hcl, htok] at hnone

/-- An idle peer is registered with etcd and told to join. -/
theorem addPeer_joins {peer : ClusterPeerInfo} {node : EtcdNode} (hmembers : cs.members.size ≠ 0) (hcluster : cs.HasCluster)
    (hnode : peer.info.nodeConfiguration = some node) : ∃ tr via request,
      Runs (m.addPeer l cs peer) (tr ++ [⟨.addMember via node.peerUrls, .ok ()⟩,
        ⟨.joinCluster peer.peer.id request, .ok ()⟩]) (.ret (true, none)) ∧
      request.phase = .joinExisting ∧ request.nodes.getLast? = some (m.tlsConfigured node) := by
  obtain ⟨token, version, hcurrent⟩ := HasCluster.currentCluster hcluster
  obtain ⟨e, rest, hfirst⟩ : ∃ e rest, cs.members.inOrder cs.members.keys = e :: rest := by
    refine List.exists_cons_of_length_pos ?_
    rw [GoMap.length_inOrder (.refl _)]
    omega
  obtain ⟨trurls, via, hurls⟩ := @clientURLs_runs cs e.2
  -- the first member takes the new one
  have hadd : Runs (cs.etcdAddMember node) (⟨.rangeOver cs.members.keys, ⟨_, .refl _⟩⟩ ::
      (trurls ++ [⟨.addMember via node.peerUrls, .ok ()⟩])) (.ret (.ok e.2)) := by
    refine .range (.refl _) ?_
    rw [hfirst]
    exact (hurls.bind _).trans (.step .refl)
  let nodes := (cs.members.inOrder cs.members.keys).map (fun e => memberNode e.2) ++ [m.tlsConfigured node]
  let request (phase : Phase) : JoinClusterRequest := ⟨some (m.buildHeader l), phase, token, nodes, version⟩
  have hrun : Runs (m.addPeer l cs peer) (⟨.rangeOver cs.peers.keys, ⟨_, .refl _⟩⟩ ::
      ⟨.rangeOver cs.members.keys, ⟨_, .refl _⟩⟩ :: ⟨.joinCluster peer.peer.id (request .prepare), .ok ()⟩ ::
      (⟨.rangeOver cs.members.keys, ⟨_, .refl _⟩⟩ :: (trurls ++ [⟨.addMember via node.peerUrls, .ok ()⟩]) ++
        [⟨.joinCluster peer.peer.id (request .joinExisting), .ok ()⟩])) (.ret (true, none)) := by
    refine .range (.refl _) ?_
    rw [hcurrent]
    refine .range (.refl _) ?_
    rw [hnode]
    exact .ctl (hadd.andThen (.ctl .refl))
  refine ⟨⟨.rangeOver cs.peers.keys, ⟨_, .refl _⟩⟩ :: ⟨.rangeOver cs.members.keys, ⟨_, .refl _⟩⟩ ::
    ⟨.joinCluster peer.peer.id (request .prepare), .ok ()⟩ :: ⟨.rangeOver cs.members.keys, ⟨_, .refl _⟩⟩ :: trurls,
    via, request .joinExisting, ?_, rfl, List.getLast?_concat⟩
  simpa using hrun

theorem addNodeToCluster_joins (h : cs.CanExpand) {id : PeerId} {p : ClusterPeerInfo} {node : EtcdNode}
    (hp : cs.peers.lookup id = some p) (hidle : p.configured = false) (hnode : p.info.nodeConfiguration = some node) :
    ∃ tr via request, Runs (m.addNodeToCluster l spec cs) (tr ++ [⟨.addMember via node.peerUrls, .ok ()⟩,
        ⟨.joinCluster p.peer.id request, .ok ()⟩]) (.ret (true, none)) ∧
      request.phase = .joinExisting ∧ request.nodes.getLast? = some (m.tlsConfigured node) := by
  let idle := (cs.peers.inOrder cs.peers.keys).filter fun e => !e.2.configured
  have hmem : (id, p) ∈ idle := List.mem_filter.2 ⟨(GoMap.mem_inOrder (.refl _)).2 hp, by simp [hidle]⟩
  obtain ⟨i, hi⟩ := List.get_of_mem hmem
  have hne : idle.length ≠ 0 := (List.length_pos_of_mem hmem).ne'
  obtain ⟨trb, response, hbackup⟩ := @doClusterBackup_runs m l cs spec h.canBackup
  obtain ⟨tr, via, request, hadd, hrest⟩ := @addPeer_joins m l cs p node h.members h.hasCluster hnode
  have hrun : Runs (m.addNodeToCluster l spec cs) (⟨.rangeOver cs.peers.keys, ⟨_, .refl _⟩⟩ :: (trb ++
      ⟨.randIntn idle.length, i⟩ :: (tr ++ [⟨.addMember via node.peerUrls, .ok ()⟩,
        ⟨.joinCluster p.peer.id request, .ok ()⟩]))) (.ret (true, none)) := by
    have hquorum := h.quorum
    have hconfigured : ¬ missingNodeConfiguration cs = true := by simp [h.configured]
    have hfree : Runs cs.idlePeers [⟨.rangeOver cs.peers.keys, ⟨_, .refl _⟩⟩] (.ret idle) := .range (.refl _) .refl
    unfold addNodeToCluster
    rw [if_neg (by omega), if_neg hconfigured]
    refine hfree.andThen ?_
    rw [if_neg hne, if_neg h.members]
    refine hbackup.andThen (.ctl ?_)
    rw [hi]
    exact hadd
  refine ⟨⟨.rangeOver cs.peers.keys, ⟨_, .refl _⟩⟩ :: (trb ++ ⟨.randIntn idle.length, i⟩ :: tr), via, request, ?_, hrest⟩
  simpa using hrun

/-- **When a node joins under the URLs it is registered under.** It does in every run if and only if no idle peer has
peer URLs of the scheme that is rewritten, or nothing can be added to the cluster as it is. -/
theorem joins_as_registered_iff (m : EtcdController) (l : LeadershipState) (spec : ClusterSpec) (cs : ClusterState) :
    (∀ tr p, Runs (m.addNodeToCluster l spec cs) tr p → JoinsAsRegistered tr) ↔ (cs.CanExpand → WellConfigured m cs) := by
  constructor
  · intro h hexpand id p node hp hidle hnode
    obtain ⟨tr, via, request, hr, hph, hlast⟩ := @addNodeToCluster_joins m l cs spec hexpand id p node hp hidle hnode
    have htr : tr ++ [⟨.addMember via node.peerUrls, .ok ()⟩, ⟨.joinCluster p.peer.id request, .ok ()⟩] =
        (tr ++ [⟨.addMember via node.peerUrls, .ok ()⟩]) ++ ⟨.joinCluster p.peer.id request, .ok ()⟩ :: [] := by simp
    obtain ⟨own, hown, hperm⟩ := h _ _ hr _ _ request _ [] htr hph via node.peerUrls (.ok ()) (by simp)
    rw [hlast] at hown
    cases hown
    exact tlsConfigured_perm_iff.1 hperm
  · intro h tr p hr pre peer request x post htr hph via peerUrls y hmem
    subst htr
    exact hr.must_history (wp_addNodeToCluster_join h) peer request rfl hph via peerUrls y hmem

/-- A cluster of one on the peer `a` that should have three members, and the
peer `b`, configured without TLS. -/
def Site.expanding : Site :=
  { peers := [⟨"a", []⟩, ⟨"b", []⟩]
    info := fun peer => if peer = "a" then Site.running ["a"] false "a"
      else ⟨"name", some ⟨"b", ["http://b:2380"], ["http://b:4001"], ["http://b:3994"], false⟩, none⟩
    members := [Site.member "a"], commands := [], spec := some ⟨3, "3.4.13"⟩, created := true }

/-- Elected in its first iteration, the controller adds `b` in the second: it is
registered as `http://b:2380` and told to be `https://b:2380`. -/
theorem joins_under_other_urls : ∃ (tr₁ pre mid post : Trace ctlSig) (m : EtcdController) (via : List String)
    (request : JoinClusterRequest) (own : EtcdNode),
    (Site.controller "a").Loop [tr₁, pre ++ ⟨.addMember via ["http://b:2380"], .ok ()⟩ :: (mid ++
      ⟨.joinCluster "b" request, .ok ()⟩ :: post)] m ∧
    request.phase = .joinExisting ∧ request.nodes.getLast? = some own ∧ own.name = "b" ∧ own.peerUrls = ["https://b:2380"] := by
  have hplay : ∃ (tr₁ tr₂ : Trace ctlSig) (m : EtcdController),
      (Site.controller "a").play [.expanding, .expanding] = some ([tr₁, tr₂], m) ∧
      ∃ (i : Nat) (via : List String) (request : JoinClusterRequest) (own : EtcdNode),
        tr₂ = tr₂.take i ++ ⟨.addMember via ["http://b:2380"], .ok ()⟩ :: ([] ++
          ⟨.joinCluster "b" request, .ok ()⟩ :: tr₂.drop (i + 2)) ∧
        request.phase = .joinExisting ∧ request.nodes.getLast? = some own ∧ own.name = "b" ∧
        own.peerUrls = ["https://b:2380"] := ⟨_, _, _, rfl, 33, _, _, _, rfl, rfl, rfl, rfl, rfl⟩
  obtain ⟨tr₁, tr₂, m, hplay, i, via, request, own, htr, hph, hown, hname, hurls⟩ := hplay
  have hloop := play_loop hplay
  rw [htr] at hloop
  exact ⟨tr₁, _, [], _, m, via, request, own, hloop, hph, hown, hname, hurls⟩

end Etcdadm
