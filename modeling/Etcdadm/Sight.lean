/-
What an iteration had in sight when it acted, read off its trace: how many
peers had acknowledged it, the cluster state and the cluster spec it logged,
what `createNewCluster` returned, and which member it asked to be removed.

A result that ties the requests of an iteration to what it saw is a `sight`
monitor, and `wp_run_sight` leaves only its two branches to look at.
-/
import Etcdadm.Iteration

namespace Etcdadm

open EtcdController ClusterState

structure Sight where
  ackedPeerCount : Nat
  clusterState : ClusterState
  clusterSpec : ClusterSpec
  /-- the spec has been logged -/
  reconciling : Bool
  /-- `createNewCluster` returned `created` -/
  created : Bool
  victim : Option EtcdProcessMember

namespace Sight

/-- Before the iteration looks. -/
def dark : Sight := ⟨0, ⟨∅, ∅, ∅⟩, default, false, false, none⟩

def next (s : Sight) : (r : CtlReq) → r.Resp → Sight
  | .peers, peers => { s with ackedPeerCount := peers.length }
  | .logClusterState cs, _ => { s with clusterState := cs }
  | .logSpec spec, _ => { s with clusterSpec := spec, reconciling := true }
  | .createNewClusterReturned created, _ => { s with created := s.created || created }
  | .removeMember _ victim, _ => { s with victim := some victim }
  | _, _ => s

/-- The requests that are seen. -/
def kinds : List Kind := [.roster, .note, .removeMember]

theorem next_eq {s : Sight} {r : CtlReq} (h : r.kind ∉ kinds) (x : r.Resp) : s.next r x = s := by
  cases r <;> first | rfl | simp [CtlReq.kind, kinds] at h

theorem next_eq_of_disjoint {s : Sight} {r : CtlReq} {ks : List Kind} (hr : r.kind ∈ ks) (hk : ks.Disjoint kinds)
    (x : r.Resp) : s.next r x = s := next_eq (hk hr) x

end Sight

/-- The sight at the end of a trace. -/
def seen (tr : Trace ctlSig) : Sight := tr.foldl (fun s e => s.next e.req e.resp) .dark

theorem created_seen {tr : Trace ctlSig} :
    (seen tr).created = true ↔ ⟨.createNewClusterReturned true, ()⟩ ∈ tr := by
  have key : ∀ (tr : Trace ctlSig) (s : Sight), (tr.foldl (fun s e => s.next e.req e.resp) s).created = true ↔
      s.created = true ∨ ⟨.createNewClusterReturned true, ()⟩ ∈ tr := by
    intro tr
    induction tr with
    | nil => simp
    | cons e tr ih =>
      intro s
      obtain ⟨r, x⟩ := e
      rw [List.foldl_cons, ih, List.mem_cons]
      cases r with
      | createNewClusterReturned created => cases created <;> simp [Sight.next]
      | _ => simp [Sight.next]
  exact (key tr .dark).trans (or_iff_right nofun)

theorem seen_snoc {tr : Trace ctlSig} {e : Event ctlSig} : seen (tr ++ [e]) = (seen tr).next e.req e.resp := by
  simp [seen]

/-- What is seen of the cluster was logged. -/
theorem clusterState_seen (tr : Trace ctlSig) :
    (seen tr).clusterState = Sight.dark.clusterState ∨ ⟨.logClusterState (seen tr).clusterState, ()⟩ ∈ tr := by
  induction tr using List.reverseRecOn with
  | nil => exact .inl rfl
  | append_singleton tr e ih =>
    obtain ⟨r, x⟩ := e
    rw [seen_snoc]
    cases r with
    | logClusterState cs => exact .inr (by simp [Sight.next])
    | _ => exact ih.imp_right fun h => List.mem_append_left _ h

theorem clusterSpec_seen (tr : Trace ctlSig) (h : (seen tr).reconciling = true) :
    ⟨.logSpec (seen tr).clusterSpec, ()⟩ ∈ tr := by
  induction tr using List.reverseRecOn with
  | nil => cases h
  | append_singleton tr e ih =>
    obtain ⟨r, x⟩ := e
    rw [seen_snoc] at h ⊢
    cases r with
    | logSpec spec => simp [Sight.next]
    | _ => exact List.mem_append_left _ (ih h)

/-- The monitor that keeps the sight. -/
def sight (may : Sight → (r : CtlReq) → r.Resp → Prop) (must : Sight → CtlReq → Prop) : Monitor ctlSig Sight :=
  { next := Sight.next, may := may, must := must }

section

variable {may : Sight → (r : CtlReq) → r.Resp → Prop} {must : Sight → CtlReq → Prop}

/-- A step of harmless kinds leaves the sight alone. -/
theorem wp_sight_of_uses {α : Type} {kinds : List Kind} {p : CtlM α} {s : Sight} {Q : Sight → α → Prop}
    {R : α → Prop} (hp : p.Uses (OfKind kinds) True) (hk : kinds.Disjoint Sight.kinds)
    (hmust : ∀ s r, r.kind ∈ kinds → must s r) (hr : p.Returns R) (hQ : ∀ a, R a → Q s a) :
    (sight may must).wp p s Q := by
  have hkeep : (sight may must).wp p s fun s' _ => s' = s := by
    refine Monitor.wp_of_uses (I := fun s' => s' = s) ?_ (fun _ _ _ _ => trivial) hp rfl
    intro s' r hs hr
    refine ⟨hmust s' r hr, fun x _ => ?_⟩
    exact (Sight.next_eq_of_disjoint hr hk x).trans hs
  refine Monitor.wp_mono ?_ (Monitor.wp_and_returns hkeep hr)
  intro s' a ⟨hs, ha⟩
  subst hs
  exact hQ a ha

/-- What comes before the branches, and may be asked for without having seen
anything. -/
def scoutKinds : List Kind := [.roster, .look, .lock, .bid, .notify, .endpoints, .note, .readMarker]

/-- An iteration is right if both its branches are, from whatever it sees. -/
theorem wp_run_sight {m : EtcdController} (hmust : ∀ s r, s.victim = none → r.kind ∈ scoutKinds → must s r)
    (creates : ∀ (m : EtcdController) l (s : Sight), s.clusterState.Consistent → s.victim = none →
      (sight may must).wp (m.newCluster l s.ackedPeerCount s.clusterState) s fun _ _ => True)
    (reconciles : ∀ (m : EtcdController) l (s : Sight), s.clusterState.Consistent → s.victim = none →
      (sight may must).wp (m.reconcile l s.ackedPeerCount s.clusterState) s fun _ _ => True) :
    (sight may must).wp m.run .dark fun _ _ => True := by
  have pass {s : Sight} {r : CtlReq} {kinds : List Kind} (K : Sight → Prop) (hr : r.kind ∈ kinds)
      (hsub : kinds ⊆ scoutKinds) (hk : kinds.Disjoint Sight.kinds) (hv : s.victim = none) (hs : K s) :
      must s r ∧ ∀ x, may s r x → K (s.next r x) :=
    ⟨hmust s r hv (hsub hr), fun x _ => by rwa [Sight.next_eq_of_disjoint hr hk x]⟩
  have quiet {α : Type} {p : CtlM α} {s : Sight} {kinds : List Kind} {Q : Sight → α → Prop} (hv : s.victim = none)
      (hp : p.Uses (OfKind kinds) True) (hk : kinds.Disjoint Sight.kinds) (hsub : kinds ⊆ scoutKinds)
      (hQ : ∀ a, Q s a) : (sight may must).wp p s Q := by
    have hkeep : (sight may must).wp p s fun s' _ => s' = s := by
      refine Monitor.wp_of_uses (I := fun s' => s' = s) ?_ (fun _ _ _ _ => trivial) hp rfl
      intro s' r hs hr
      exact pass (fun s' => s' = s) hr hsub hk (hs ▸ hv) hs
    refine Monitor.wp_mono ?_ hkeep
    intro s' a hs
    subst hs
    exact hQ a
  refine Monitor.wp_ctl.2 ⟨hmust _ _ rfl (by simp [CtlReq.kind, scoutKinds]), fun infos _ => ?_⟩
  dsimp only
  split
  · trivial
  split
  · refine Monitor.wp_bind.2 (quiet rfl uses_releaseLeaderLock (by simp [Sight.kinds]) (by simp [scoutKinds]) fun _ => trivial)
  refine Monitor.wp_bind.2 (quiet rfl uses_acquireLeaderLock (by simp [Sight.kinds]) (by simp [scoutKinds]) fun a => ?_)
  obtain ⟨c, r⟩ := a
  cases r with
  | some r => trivial
  | none =>
  dsimp only
  split
  · exact quiet rfl uses_elect (by simp [Sight.kinds]) (by simp [scoutKinds]) fun _ => trivial
  next l _ =>
  have hlen : (sortPeers infos).length = infos.length := List.length_insertionSort _ _
  let I (s : Sight) : Prop := s.ackedPeerCount = infos.length ∧ s.victim = none
  let J (cs : ClusterState) (_ : Time) (s : Sight) : Prop := I s ∧ s.clusterState = cs ∧ cs.Consistent
  refine wp_lead (I := I) (J := J) ⟨rfl, rfl⟩ (fun _ _ => trivial)
    ?_ (fun _ _ _ => trivial) (fun _ _ => trivial) ?_ ?_ (fun _ _ _ _ _ _ _ => trivial) ?_
  · intro s r hs hr
    exact pass I hr.1 (by simp [scoutKinds]) (by simp [Sight.kinds]) hs.2 hs
  · intro s cs hs hc
    refine ⟨hmust _ _ hs.2 (by simp [CtlReq.kind, scoutKinds]), fun _ => ?_⟩
    exact ⟨hmust _ _ hs.2 (by simp [CtlReq.kind, scoutKinds]), fun _ _ => ⟨hs, rfl, hc⟩⟩
  · intro cs now s r hs hr
    exact pass (J cs now) hr.1 (by simp [scoutKinds]) (by simp [Sight.kinds]) hs.1.2 hs
  · intro cs now s m' hs _
    obtain ⟨⟨hacked, hv⟩, rfl, hc⟩ := hs
    rw [hlen, ← hacked]
    refine ⟨hmust _ _ hv (by simp [CtlReq.kind, scoutKinds]), fun _ _ _ => trivial, fun _ => ?_, fun _ => ?_⟩
    · exact creates m' l s hc hv
    · exact reconciles m' l s hc hv

end

/-! ## An environment to try things in -/

/-- What the controller finds: the peers and what they report, the members of
the etcd they run, and what is in the control store. -/
structure Site where
  peers : List PeerInfo
  info : PeerId → GetInfoResponse
  members : List EtcdProcessMember
  commands : List StoredCommand
  spec : Option ClusterSpec
  created : Bool
  clock : Time := 0
  /-- no etcd answers under these URLs -/
  down : List String → Bool := fun _ => false

/-- Every other call succeeds, every map is visited in the order it is stored in. -/
def Site.answer (site : Site) : (r : CtlReq) → Option r.Resp
  | .peers => some site.peers
  | .acquireLock _ => some (.ok true)
  | .isNewCluster => some (.ok !site.created)
  | .snapshotHealthy => some (site.peers.foldl (fun m p => m.insert p.id p) ∅)
  | .leadershipToken | .clusterToken => some "token"
  | .leaderNotification _ _ => some (.ok ⟨true, none⟩)
  | .now => some site.clock
  | .rangeOver keys => some ⟨keys, .refl keys⟩
  | .getInfo peer => some (.ok (site.info peer))
  | .doBackup _ _ => some (.ok ⟨"backup"⟩)
  | .listMembers urls => some (if site.down urls then .error "connection refused" else .ok site.members)
  | .listCommands => some (.ok site.commands)
  | .getExpectedClusterSpec => some (.ok site.spec)
  | .bindirForEtcdVersion _ _ => some (.ok "")
  | .loadInfo _ => some (.ok (some ⟨"3.4.13", 0, none⟩))
  | .randIntn n => if h : 0 < n then some ⟨0, h⟩ else none
  | .addPeersFromView _ | .sleep _ | .logClusterState _ | .logSpec _ | .logRestoreCommand _
  | .createNewClusterReturned _ => some ()
  | .releaseLock | .updateEndpoints _ _ | .stopEtcd _ _ | .joinCluster _ _ | .reconfigure _ _ | .doRestore _ _
  | .addMember _ _ | .removeMember _ _ | .setPeerURLs _ _ _ | .setExpectedClusterSpec _ | .markClusterCreated
  | .addCommand _ | .removeCommand _ | .backupMaintenance => some (.ok ())

/-- Iterations at one site after the other. -/
def EtcdController.play : EtcdController → List Site → Option (List (Trace ctlSig) × EtcdController)
  | m, [] => some ([], m)
  | m, site :: sites =>
    match m.run.follow site.answer with
    | (tr, .ret (m', _)) => (m'.play sites).map fun (its, m'') => (tr :: its, m'')
    | _ => none

theorem EtcdController.play_loop : ∀ {m m' : EtcdController} {sites : List Site} {its : List (Trace ctlSig)},
    m.play sites = some (its, m') → m.Loop its m'
  | m, m', [], its, h => by
    cases h
    exact .nil
  | m, m', site :: sites, its, h => by
    unfold play at h
    split at h
    next tr m₁ r hfollow =>
      obtain ⟨⟨its', m₂⟩, hplay, heq⟩ := Option.map_eq_some_iff.1 h
      cases heq
      have hrun : Runs m.run tr (.ret (m₁, r)) := by
        have := Prog.follow_runs (o := site.answer) (p := m.run)
        rwa [hfollow] at this
      exact .cons hrun (play_loop hplay)
    · cases h

/-- A controller as it starts. -/
def Site.controller (id : PeerId) : EtcdController :=
  { clusterName := "name", dnsSuffix := "", myInfo := ⟨id, []⟩, controlRefreshInterval := 1000 * minute
    backupInterval := 15 * minute, backupStore := "store", disableEtcdTLS := false, leaderLock := false, maxPolls := 1
    leaderLockGuard := false, leadership := none, peerState := ∅, lastBackup := 0, controlCommands := []
    controlLastRead := 0, controlClusterSpec := none }

/-- The same once it was elected at the site. -/
def Site.leader (site : Site) (id : PeerId) : EtcdController :=
  { Site.controller id with
    leadership := some ⟨"token", site.peers.map (·.id)⟩
    controlCommands := site.commands
    controlClusterSpec := site.spec }

def Site.node (tlsEnabled : Bool) (name : String) : EtcdNode :=
  let url (port : String) := "https://" ++ name ++ ":" ++ port
  ⟨name, [url "2380"], [url "4001"], [url "3994"], tlsEnabled⟩

/-- A peer that runs etcd 3.4.13 in a cluster of these nodes. -/
def Site.running (nodes : List String) (quarantined : Bool) (peer : PeerId) : GetInfoResponse :=
  ⟨"name", some (node true peer), some ⟨false, some ⟨nodes.length, "token", nodes.map (node true)⟩, "3.4.13", quarantined⟩⟩

/-- The member on a peer. -/
def Site.member (peer : PeerId) : EtcdProcessMember :=
  ⟨"id-" ++ peer, peer, (node true peer).peerUrls, (node true peer).clientUrls⟩

end Etcdadm
