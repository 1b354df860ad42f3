/-
Which requests each step of the controller makes.

The results about iterations look at a few kinds of requests each, and most
steps make none of them. So what a step can ask for is proved once, as a set
of kinds (`Sends`), together with the fact that whatever carries a leadership
token carries the current one. A monitor that is indifferent to the kinds of a
step passes over it (`wp_of_uses`).
-/
import Etcdadm.ControllerRun
import Etcdadm.Monitor

namespace Etcdadm

open EtcdController ClusterState

/-- What a request is about. -/
inductive Kind where
  /-- nothing changes by it -/
  | look
  | roster
  | lock | bid | notify | backup | endpoints | stop | prepare | initial | joinExisting | cancel | joinOther
  | reconfigure | restore | addMember | removeMember | setPeerURLs | readMarker | mark | setSpec | addCommand
  | removeCommand
  | note
  deriving DecidableEq

def CtlReq.kind : CtlReq → Kind
  | .snapshotHealthy | .addPeersFromView _ | .now | .rangeOver _ | .getInfo _ | .listMembers _ | .listCommands
  | .getExpectedClusterSpec | .bindirForEtcdVersion _ _ | .clusterToken | .backupMaintenance | .loadInfo _
  | .randIntn _ | .sleep _ => .look
  | .peers => .roster
  | .acquireLock _ | .releaseLock => .lock
  | .leadershipToken => .bid
  | .leaderNotification _ _ => .notify
  | .updateEndpoints _ _ => .endpoints
  | .stopEtcd _ _ => .stop
  | .joinCluster _ request =>
    match request.phase with
    | .prepare => .prepare
    | .initialCluster => .initial
    | .joinExisting => .joinExisting
    | .cancelPrepare => .cancel
    | _ => .joinOther
  | .reconfigure _ _ => .reconfigure
  | .doBackup _ _ => .backup
  | .doRestore _ _ => .restore
  | .addMember _ _ => .addMember
  | .removeMember _ _ => .removeMember
  | .setPeerURLs _ _ _ => .setPeerURLs
  | .isNewCluster => .readMarker
  | .markClusterCreated => .mark
  | .setExpectedClusterSpec _ => .setSpec
  | .addCommand _ => .addCommand
  | .removeCommand _ => .removeCommand
  | .logClusterState _ | .logSpec _ | .logRestoreCommand _ | .createNewClusterReturned _ => .note

/-- A request that carries a leadership token carries this one. -/
def CtlReq.TokenIs (token : String) : CtlReq → Prop
  | .leaderNotification _ request => request.view.map (·.leadershipToken) = some token
  | .stopEtcd _ request => request.header.map (·.leadershipToken) = some token
  | .joinCluster _ request => request.header.map (·.leadershipToken) = some token
  | .reconfigure _ request => request.header.map (·.leadershipToken) = some token
  | .doBackup _ request => request.header.map (·.leadershipToken) = some token
  | .doRestore _ request => request.header.map (·.leadershipToken) = some token
  | _ => True

/-- The requests of some kinds, under the token of a leadership. -/
def Sends (l : LeadershipState) (kinds : List Kind) (r : CtlReq) : Prop := r.kind ∈ kinds ∧ r.TokenIs l.token

theorem Sends.widen {l : LeadershipState} {kinds kinds' : List Kind} {r : CtlReq} (hr : Sends l kinds r)
    (h : kinds ⊆ kinds') : Sends l kinds' r := ⟨h hr.1, hr.2⟩

theorem Prog.Uses.widen {α : Type} {l : LeadershipState} {kinds kinds' : List Kind} {dies : Prop} {p : CtlM α}
    (hp : p.Uses (Sends l kinds) dies) (h : kinds ⊆ kinds') : p.Uses (Sends l kinds') dies :=
  hp.mono fun _ hr => hr.widen h

/-- The requests of some kinds, under any token. -/
def OfKind (kinds : List Kind) (r : CtlReq) : Prop := r.kind ∈ kinds

theorem Prog.Uses.kinds {α : Type} {l : LeadershipState} {kinds kinds' : List Kind} {dies : Prop} {p : CtlM α}
    (hp : p.Uses (Sends l kinds) dies) (h : kinds ⊆ kinds') : p.Uses (OfKind kinds') dies :=
  hp.mono fun _ hr => h hr.1

/-- What the request says if it is a `Reconfigure`. -/
def CtlReq.Tells (what : PeerId → ReconfigureRequest → Prop) : CtlReq → Prop
  | .reconfigure peer request => what peer request
  | _ => True

theorem CtlReq.Tells.of_kind {what : PeerId → ReconfigureRequest → Prop} {kinds : List Kind} {r : CtlReq}
    (hr : r.kind ∈ kinds) (hk : .reconfigure ∉ kinds) : r.Tells what := by
  cases r with
  | reconfigure peer request => exact (hk hr).elim
  | _ => trivial

theorem CtlReq.Tells.imp {what what' : PeerId → ReconfigureRequest → Prop} {r : CtlReq} (hr : r.Tells what)
    (h : ∀ peer request, what peer request → what' peer request) : r.Tells what' := by
  cases r with
  | reconfigure peer request => exact h peer request hr
  | _ => trivial

/-- The requests of some kinds, under the token of a leadership, with what a
`Reconfigure` among them says. -/
def Says (l : LeadershipState) (kinds : List Kind) (what : PeerId → ReconfigureRequest → Prop) (r : CtlReq) : Prop :=
  Sends l kinds r ∧ r.Tells what

theorem Says.mono {l : LeadershipState} {kinds kinds' : List Kind} {what what' : PeerId → ReconfigureRequest → Prop}
    {r : CtlReq} (hr : Says l kinds what r) (hk : kinds ⊆ kinds')
    (h : ∀ peer request, what peer request → what' peer request) : Says l kinds' what' r :=
  ⟨⟨hk hr.1.1, hr.1.2⟩, hr.2.imp h⟩

/-- The quarantine is changed and nothing else. -/
def SetsQuarantine (q : Bool) (_ : PeerId) (request : ReconfigureRequest) : Prop :=
  request.setEtcdVersion = "" ∧ request.quarantined = q ∧ request.enableTls = false

/-- TLS is enabled on the peer, which stays in the quarantine it is in. -/
def EnablesTls (p : ClusterPeerInfo) (peer : PeerId) (request : ReconfigureRequest) : Prop :=
  request.setEtcdVersion = "" ∧ request.enableTls = true ∧ p.peer.id = peer ∧
    ∃ st, p.info.etcdState = some st ∧ st.cluster.isSome = true ∧ request.quarantined = st.quarantined

/-- The peer of a member is set to the version of the spec, which it does not
have, and stays in the quarantine it is in. -/
def SetsVersion (spec : ClusterSpec) (memberToPeer : GoMap ClusterPeerInfo) (peer : PeerId)
    (request : ReconfigureRequest) : Prop :=
  ∃ memberId p st, memberToPeer.lookup memberId = some p ∧ p.peer.id = peer ∧ p.info.etcdState = some st ∧
    st.etcdVersion ≠ spec.etcdVersion ∧ request.setEtcdVersion = spec.etcdVersion ∧
    request.quarantined = st.quarantined ∧ request.enableTls = false

namespace Uses

variable {α : Type} {allowed : CtlReq → Prop} {dies : Prop}

theorem ctl {r : CtlReq} {f : r.Resp → CtlM α} (hr : allowed r) (hf : ∀ x, (f x).Uses allowed dies) :
    Prog.Uses allowed dies (ctl r >>= f) := ⟨hr, hf⟩

theorem range {V : Type} {m : GoMap V} {f : List (String × V) → CtlM α} (hr : allowed (.rangeOver m.keys))
    (hf : ∀ l, (f l).Uses allowed dies) : Prog.Uses allowed dies (range m >>= f) := ⟨hr, fun _ => hf _⟩

/-- What is visited is in the map. -/
theorem range_mem {V : Type} {m : GoMap V} {f : List (String × V) → CtlM α} (hr : allowed (.rangeOver m.keys))
    (hf : ∀ l : List (String × V), (∀ e ∈ l, m.lookup e.1 = some e.2) → (f l).Uses allowed dies) :
    Prog.Uses allowed dies (Etcdadm.range m >>= f) :=
  ⟨hr, fun ks => hf _ fun _ he => (GoMap.mem_inOrder ks.2).1 he⟩

end Uses

namespace Monitor

variable {σ α V : Type} {M : Monitor ctlSig σ} {s : σ} {Q : σ → α → Prop}

theorem wp_ctl {r : CtlReq} {f : r.Resp → CtlM α} :
    M.wp (ctl r >>= f) s Q ↔ M.must s r ∧ ∀ x, M.may s r x → M.wp (f x) (M.next s r x) Q := Iff.rfl

theorem wp_range {m : GoMap V} {f : List (String × V) → CtlM α} :
    M.wp (range m >>= f) s Q ↔ M.must s (.rangeOver m.keys) ∧ ∀ ks, M.may s (.rangeOver m.keys) ks →
      M.wp (f (m.inOrder ks.1)) (M.next s (.rangeOver m.keys) ks) Q := Iff.rfl

end Monitor

namespace Runs

variable {α V : Type} {tr : Trace ctlSig} {p : CtlM α}

theorem ctl {r : CtlReq} {f : r.Resp → CtlM α} {x : r.Resp} (h : Runs (f x) tr p) :
    Runs (ctl r >>= f) (⟨r, x⟩ :: tr) p := .step h

/-- A run that has started has an answer to its first request. -/
theorem of_ctl {r : CtlReq} {f : r.Resp → CtlM α} (h : Runs (Etcdadm.ctl r >>= f) tr p) :
    tr = [] ∨ ∃ x rest, tr = ⟨r, x⟩ :: rest ∧ Runs (f x) rest p := by
  cases h with
  | refl => exact .inl rfl
  | step h => exact .inr ⟨_, _, rfl, h⟩

theorem range {m : GoMap V} {f : List (String × V) → CtlM α} {ks : List String} (hks : ks.Perm m.keys)
    (h : Runs (f (m.inOrder ks)) tr p) : Runs (range m >>= f) (⟨.rangeOver m.keys, ⟨ks, hks⟩⟩ :: tr) p := .step h

end Runs

theorem Prog.Reaches.range {α V : Type} {avoid bad : CtlReq → Prop} {m : GoMap V} {f : List (String × V) → CtlM α}
    {ks : List String} (hks : ks.Perm m.keys) (ha : ¬ avoid (.rangeOver m.keys))
    (h : (f (m.inOrder ks)).Reaches avoid bad) : Prog.Reaches (S := ctlSig) avoid bad (range m >>= f) :=
  .later ⟨ks, hks⟩ ha h

variable {m : EtcdController} {l : LeadershipState} {cs : ClusterState} {spec : ClusterSpec}

/-! ## Steps that only look -/

theorem uses_findByName {members : GoMap EtcdProcessMember} {name : String} :
    (findByName members name).Uses (Sends l [.look]) True :=
  ⟨⟨List.mem_singleton.2 rfl, trivial⟩, fun _ => trivial⟩

theorem uses_clientURLs {member : EtcdProcessMember} {dies : Prop} :
    (cs.clientURLs member).Uses (Sends l [.look]) dies := by
  refine Uses.range ⟨List.mem_singleton.2 rfl, trivial⟩ fun peers => ?_
  split
  · trivial
  · split
    · trivial
    · split <;> trivial

theorem uses_idlePeers {dies : Prop} : cs.idlePeers.Uses (Sends l [.look]) dies :=
  ⟨⟨List.mem_singleton.2 rfl, trivial⟩, fun _ => trivial⟩

theorem uses_refreshControlStore {c : EtcdController} {ttl : Time} :
    (c.refreshControlStore ttl).Uses (Sends l [.look]) True := by
  refine Uses.ctl ⟨List.mem_singleton.2 rfl, trivial⟩ fun now => ?_
  split
  · trivial
  refine Uses.ctl ⟨List.mem_singleton.2 rfl, trivial⟩ ?_
  rintro (err | commands)
  · trivial
  refine Uses.ctl ⟨List.mem_singleton.2 rfl, trivial⟩ ?_
  rintro (err | clusterSpec) <;> trivial

theorem uses_verifyEtcdVersion {dies : Prop} : (verifyEtcdVersion spec).Uses (Sends l [.look]) dies := by
  refine Uses.ctl ⟨List.mem_singleton.2 rfl, trivial⟩ ?_
  rintro (err | _) <;> trivial

theorem uses_buildMemberMap {c : EtcdController} : (c.buildMemberMap cs).Uses (Sends l [.look]) True :=
  ⟨⟨List.mem_singleton.2 rfl, trivial⟩, fun _ => trivial⟩

theorem uses_pickUnhealthy {removeHealthy : Bool} {now : Time} : ∀ members : List (EtcdMemberId × EtcdProcessMember),
    (m.pickUnhealthy cs removeHealthy now members).Uses (Sends l [.look]) True
  | [] => trivial
  | (id, member) :: rest => by
    unfold pickUnhealthy
    split
    · exact uses_pickUnhealthy rest
    split
    · trivial
    split
    · trivial
    split
    · exact uses_pickUnhealthy rest
    · trivial

theorem uses_pickVictim {removeHealthy : Bool} : (m.pickVictim cs removeHealthy).Uses (Sends l [.look]) True := by
  refine Uses.ctl ⟨List.mem_singleton.2 rfl, trivial⟩ fun now => .bind ?_ fun victim => ?_
  · unfold unhealthyVictim
    split
    · exact Uses.range ⟨List.mem_singleton.2 rfl, trivial⟩ fun members => uses_pickUnhealthy members
    · trivial
  · split
    · trivial
    · exact Uses.range ⟨List.mem_singleton.2 rfl, trivial⟩ fun members => trivial

theorem uses_restoreTarget : ∀ (peers : List (PeerId × ClusterPeerInfo)) (peer : Option ClusterPeerInfo),
    (restoreTarget cs peers peer).Uses (Sends l [.look]) True
  | [], _ => trivial
  | (peerId, p) :: rest, peer => by
    refine .bind uses_findByName fun member => ?_
    split <;> exact uses_restoreTarget rest _

theorem uses_mapMembers : ∀ (members : List (EtcdMemberId × EtcdProcessMember)) (memberToPeer : GoMap ClusterPeerInfo),
    (mapMembers cs members memberToPeer).Uses (Sends l [.look]) True
  | [], _ => trivial
  | (memberId, member) :: rest, memberToPeer => by
    refine Uses.range ⟨List.mem_singleton.2 rfl, trivial⟩ fun peers => ?_
    split
    · trivial
    · exact uses_mapMembers rest _

theorem uses_prepareForUpgrade : (prepareForUpgrade spec cs).Uses (Sends l [.look]) True := by
  refine Uses.range ⟨List.mem_singleton.2 rfl, trivial⟩ fun members => .bind (uses_mapMembers members ∅) fun r => ?_
  split
  · trivial
  split
  · trivial
  split <;> trivial

theorem uses_waitForCommand : ∀ (n : Nat) (c : EtcdController), (waitForCommand n c).Uses (Sends l [.look]) True
  | 0, _ => trivial
  | n + 1, c => by
    refine .bind uses_refreshControlStore fun ⟨c, err⟩ => ?_
    cases err with
    | some err => trivial
    | none =>
    dsimp only
    split
    · trivial
    · exact Uses.ctl ⟨List.mem_singleton.2 rfl, trivial⟩ fun _ => uses_waitForCommand n _

theorem uses_checkUpgradable {memberToPeer : GoMap ClusterPeerInfo} :
    ∀ members : List (EtcdMemberId × EtcdProcessMember),
      (checkUpgradable memberToPeer members).Uses (Sends l [.look]) True
  | [] => trivial
  | (memberId, _) :: rest => by
    unfold checkUpgradable
    split
    · trivial
    · split
      · trivial
      · exact uses_checkUpgradable rest

theorem uses_proposeNodes {c : EtcdController} : ∀ peers : List (PeerId × ClusterPeerInfo),
    (c.proposeNodes peers).Uses (Sends l [.look]) True
  | [] => trivial
  | (_, p) :: rest => by
    unfold proposeNodes
    split
    · trivial
    · exact .bind (uses_proposeNodes rest) fun _ => trivial

/-- What only looks may stand among other requests. -/
theorem Uses.of_look {α : Type} {kinds : List Kind} {p : CtlM α} (hk : Kind.look ∈ kinds)
    (h : p.Uses (Sends l [.look]) True) : p.Uses (Sends l kinds) True :=
  h.widen (by simpa using hk)

/-- A step without a `Reconfigure` among others. -/
theorem Uses.telling {α : Type} {kinds kinds' : List Kind} {what : PeerId → ReconfigureRequest → Prop} {p : CtlM α}
    (h : p.Uses (Sends l kinds) True) (hk : kinds ⊆ kinds') (hno : .reconfigure ∉ kinds) : p.Uses (Says l kinds' what) True :=
  h.mono fun _ hr => ⟨⟨hk hr.1, hr.2⟩, .of_kind hr.1 hno⟩

/-! ## Steps that act -/

theorem uses_broadcastTo {memberMap : MemberMap} {dies : Prop} : ∀ peers : List (PeerId × ClusterPeerInfo),
    (broadcastTo memberMap peers).Uses (Sends l [.look, .endpoints]) dies
  | [] => trivial
  | (_, p) :: rest => by
    refine Uses.ctl ⟨by simp [CtlReq.kind], trivial⟩ ?_
    rintro (err | ⟨⟩)
    · exact .bind (uses_broadcastTo rest) fun _ => trivial
    · exact uses_broadcastTo rest

theorem uses_broadcastMemberMap {memberMap : MemberMap} {dies : Prop} :
    (broadcastMemberMap cs memberMap).Uses (Sends l [.look, .endpoints]) dies :=
  Uses.range ⟨by simp [CtlReq.kind], trivial⟩ fun peers => uses_broadcastTo peers

theorem uses_writeClusterSpec {dies : Prop} : (writeClusterSpec spec).Uses (Sends l [.setSpec]) dies := by
  refine Uses.ctl ⟨by simp [CtlReq.kind], trivial⟩ ?_
  rintro (err | ⟨⟩) <;> trivial

theorem uses_backupVia {dies : Prop} : ∀ members : List (EtcdMemberId × EtcdProcessMember),
    (m.backupVia l spec cs members).Uses (Sends l [.look, .backup]) dies
  | [] => trivial
  | (_, member) :: rest => by
    unfold backupVia
    split
    · exact uses_backupVia rest
    refine Uses.ctl ⟨by simp [CtlReq.kind], rfl⟩ ?_
    rintro (err | response)
    · exact uses_backupVia rest
    · trivial

theorem uses_doClusterBackup {dies : Prop} : (m.doClusterBackup l spec cs).Uses (Sends l [.look, .backup]) dies :=
  Uses.range ⟨by simp [CtlReq.kind], trivial⟩ fun members => uses_backupVia members

theorem tells_quarantinePeers {q : Bool} : ∀ (peers : List (PeerId × ClusterPeerInfo)) (changed : Bool),
    (m.quarantinePeers l cs q peers changed).Uses
      (Says l [.look, .reconfigure] (SetsQuarantine q)) True
  | [], _ => trivial
  | (peerId, p) :: rest, changed => by
    refine .bind (Uses.telling uses_findByName (by simp) (by simp)) fun member => ?_
    split
    · exact tells_quarantinePeers rest changed
    refine Uses.ctl ⟨⟨by simp [CtlReq.kind], rfl⟩, rfl, rfl, rfl⟩ ?_
    rintro (err | ⟨⟩)
    · trivial
    · exact tells_quarantinePeers rest true

theorem tells_updateQuarantine {q : Bool} : (m.updateQuarantine l cs q).Uses
    (Says l [.look, .reconfigure] (SetsQuarantine q)) True :=
  Uses.range ⟨⟨by simp [CtlReq.kind], trivial⟩, trivial⟩ fun peers => tells_quarantinePeers peers false

theorem uses_updateQuarantine {q : Bool} :
    (m.updateQuarantine l cs q).Uses (Sends l [.look, .reconfigure]) True :=
  tells_updateQuarantine.mono fun _ hr => hr.1

theorem uses_stopPeers {dies : Prop} : ∀ peers : List (PeerId × ClusterPeerInfo),
    (m.stopPeers l peers).Uses (Sends l [.stop]) dies
  | [] => trivial
  | (_, p) :: rest => by
    unfold stopPeers
    split
    · refine Uses.ctl ⟨by simp [CtlReq.kind], rfl⟩ ?_
      rintro (err | ⟨⟩)
      · trivial
      · exact uses_stopPeers rest
    · exact uses_stopPeers rest

theorem uses_joinPeers {phase : Phase} {k : Kind} {token version what : String} {nodes : List EtcdNode}
    (hk : ∀ peer header, (CtlReq.joinCluster peer ⟨header, phase, token, nodes, version⟩).kind = k) :
    ∀ peers : List (PeerId × ClusterPeerInfo),
      (m.joinPeers l phase token version nodes what peers).Uses (Sends l [k]) True
  | [] => trivial
  | (_, p) :: rest => by
    refine Uses.ctl ⟨by simp [hk], rfl⟩ ?_
    rintro (err | ⟨⟩)
    · trivial
    · exact uses_joinPeers hk rest

theorem uses_formCluster :
    (m.formCluster l cs spec).Uses (Sends l [.look, .endpoints, .stop, .prepare, .initial, .setSpec]) True := by
  refine Uses.ctl ⟨by simp [CtlReq.kind], trivial⟩ fun token => ?_
  refine Uses.range ⟨by simp [CtlReq.kind], trivial⟩ fun peers => ?_
  dsimp only
  split
  · trivial
  refine .bind (Uses.of_look (by simp) (uses_proposeNodes _)) fun _ => ?_
  refine Uses.range ⟨by simp [CtlReq.kind], trivial⟩ fun peers => ?_
  refine .bind ((uses_stopPeers peers).widen (by simp)) fun err => ?_
  split
  · trivial
  refine .bind (uses_broadcastMemberMap.widen (by simp)) fun errors => ?_
  split
  · trivial
  refine .bind ((uses_joinPeers (fun _ _ => rfl) _).widen (by simp)) fun err => ?_
  split
  · trivial
  refine .bind ((uses_joinPeers (fun _ _ => rfl) _).widen (by simp)) fun err => ?_
  split
  · trivial
  refine .bind (uses_writeClusterSpec.widen (by simp)) fun err => ?_
  split <;> trivial

theorem uses_createNewCluster : (m.createNewCluster l cs spec).Uses
    (Sends l [.look, .endpoints, .stop, .prepare, .initial, .setSpec]) True := by
  unfold createNewCluster
  dsimp only
  split
  · trivial
  split
  · trivial
  · exact uses_formCluster

theorem uses_restoreBackupAndLiftQuarantine {cmd : StoredCommand} :
    (m.restoreBackupAndLiftQuarantine l spec cs cmd).Uses
      (Sends l [.look, .restore, .setSpec, .removeCommand]) True := by
  unfold restoreBackupAndLiftQuarantine
  split
  · trivial
  split
  · trivial
  refine Uses.ctl ⟨by simp [CtlReq.kind], trivial⟩ ?_
  rintro (err | info)
  · trivial
  dsimp only
  split
  · trivial
  refine Uses.range ⟨by simp [CtlReq.kind], trivial⟩ fun peers => ?_
  refine .bind (Uses.of_look (by simp) (uses_restoreTarget peers none)) fun target => ?_
  split
  · trivial
  refine Uses.ctl ⟨by simp [CtlReq.kind], rfl⟩ ?_
  rintro (err | ⟨⟩)
  · trivial
  refine .bind (uses_writeClusterSpec.widen (by simp)) fun err => ?_
  split
  · trivial
  refine .bind (Uses.ctl ⟨by simp [CtlReq.kind], trivial⟩ ?_) fun r => ?_
  · rintro (err | ⟨⟩) <;> trivial
  · split <;> trivial

theorem uses_addMemberVia {node : EtcdNode} : ∀ members : List (EtcdMemberId × EtcdProcessMember),
    (cs.addMemberVia node members).Uses (Sends l [.look, .addMember]) True
  | [] => trivial
  | (_, member) :: rest => by
    refine .bind (Uses.of_look (by simp) uses_clientURLs) fun urls => ?_
    refine Uses.ctl ⟨by simp [CtlReq.kind], trivial⟩ ?_
    rintro (err | ⟨⟩)
    · exact uses_addMemberVia rest
    · trivial

theorem uses_addPeer {peer : ClusterPeerInfo} : (m.addPeer l cs peer).Uses
    (Sends l [.look, .prepare, .addMember, .cancel, .joinExisting]) True := by
  refine Uses.range ⟨by simp [CtlReq.kind], trivial⟩ fun peers => ?_
  split
  · trivial
  refine Uses.range ⟨by simp [CtlReq.kind], trivial⟩ fun members => ?_
  split
  · trivial
  refine Uses.ctl ⟨by simp [CtlReq.kind], rfl⟩ ?_
  rintro (err | ⟨⟩)
  · trivial
  refine .bind (Uses.range ⟨by simp [CtlReq.kind], trivial⟩ fun members =>
    (uses_addMemberVia members).widen (by simp)) fun r => ?_
  split
  · exact Uses.ctl ⟨by simp [CtlReq.kind], rfl⟩ fun _ => trivial
  refine Uses.ctl ⟨by simp [CtlReq.kind], rfl⟩ ?_
  rintro (err | ⟨⟩) <;> trivial

theorem uses_addNodeToCluster : (m.addNodeToCluster l spec cs).Uses
    (Sends l [.look, .backup, .prepare, .addMember, .cancel, .joinExisting]) True := by
  have pick {idle : List (PeerId × ClusterPeerInfo)} : Prog.Uses
      (Sends l [.look, .backup, .prepare, .addMember, .cancel, .joinExisting]) True
      (do m.addPeer l cs (idle.get (← ctl (.randIntn idle.length))).2) :=
    Uses.ctl ⟨by simp [CtlReq.kind], trivial⟩ fun _ => uses_addPeer.widen (by simp)
  unfold addNodeToCluster
  split
  · trivial
  split
  · trivial
  refine .bind (Uses.of_look (by simp) uses_idlePeers) fun idle => ?_
  split
  · trivial
  split
  · exact pick
  refine .bind (uses_doClusterBackup.widen (by simp)) fun r => ?_
  split
  · trivial
  · exact pick

theorem uses_removeMemberVia {victim : EtcdProcessMember} {dies : Prop} :
    ∀ members : List (EtcdMemberId × EtcdProcessMember),
    (cs.removeMemberVia victim members).Uses (Sends l [.look, .removeMember]) dies
  | [] => trivial
  | (_, member) :: rest => by
    refine .bind (uses_clientURLs.widen (by simp)) fun urls => ?_
    refine Uses.ctl ⟨by simp [CtlReq.kind], trivial⟩ ?_
    rintro (err | ⟨⟩)
    · exact uses_removeMemberVia rest
    · trivial

theorem uses_removeNodeFromCluster {removeHealthy : Bool} : (m.removeNodeFromCluster l spec cs removeHealthy).Uses
    (Sends l [.look, .backup, .removeMember]) True := by
  refine .bind (Uses.of_look (by simp) uses_pickVictim) fun victim => ?_
  split
  · split <;> trivial
  refine .bind (uses_doClusterBackup.widen (by simp)) fun r => ?_
  split
  · trivial
  refine .bind (Uses.range ⟨by simp [CtlReq.kind], trivial⟩ fun members =>
    (uses_removeMemberVia members).widen (by simp)) fun r => ?_
  split <;> trivial

theorem uses_reconcilePeerURLs {peerID : PeerId} {node : EtcdNode} {etcdState : EtcdState} {member : EtcdProcessMember} :
    (reconcilePeerURLs peerID node etcdState member).Uses (Sends l [.look, .setPeerURLs]) True := by
  unfold reconcilePeerURLs
  dsimp only
  split
  · trivial
  unfold updatePeerURLs
  dsimp only
  split
  · trivial
  refine Uses.ctl ⟨by simp [CtlReq.kind], trivial⟩ ?_
  rintro (err | members)
  · trivial
  dsimp only
  split
  · trivial
  refine Uses.ctl ⟨by simp [CtlReq.kind], trivial⟩ ?_
  rintro (err | ⟨⟩) <;> trivial

theorem tells_reconcilePeerTLS {peerID : PeerId} {p : ClusterPeerInfo} : (m.reconcilePeerTLS l cs peerID p).Uses
    (Says l [.look, .setPeerURLs, .reconfigure] (EnablesTls p)) True := by
  unfold reconcilePeerTLS
  split
  next nodeConfiguration etcdState _ hstate =>
    split
    · trivial
    next node hnode =>
    obtain ⟨cluster, hcluster, _⟩ := Option.bind_eq_some_iff.1 hnode
    refine .bind (Uses.telling uses_findByName (by simp) (by simp)) fun member => ?_
    split
    · trivial
    refine .bind ?_ fun r => ?_
    · exact Uses.telling uses_reconcilePeerURLs (by simp) (by simp)
    · split
      split
      · trivial
      split
      · trivial
      refine Uses.ctl ⟨⟨by simp [CtlReq.kind], rfl⟩, rfl, rfl, rfl, etcdState, hstate, ?_, rfl⟩ ?_
      · rw [hcluster]
        rfl
      · rintro (err | ⟨⟩) <;> trivial
  · trivial

theorem tells_reconcilePeersTLS : ∀ peers : List (PeerId × ClusterPeerInfo),
    (∀ e ∈ peers, cs.peers.lookup e.1 = some e.2) → (m.reconcilePeersTLS l cs peers).Uses
      (Says l [.look, .setPeerURLs, .reconfigure] fun peer request =>
        ∃ id p, cs.peers.lookup id = some p ∧ EnablesTls p peer request) True
  | [], _ => trivial
  | (peerID, p) :: rest, h => by
    obtain ⟨hp, hrest⟩ := List.forall_mem_cons.1 h
    refine .bind (tells_reconcilePeerTLS.mono fun r hr => hr.mono (by simp) fun _ _ h => ⟨peerID, p, hp, h⟩) fun r => ?_
    split
    · trivial
    · exact tells_reconcilePeersTLS rest hrest

theorem tells_reconcileTLS : (m.reconcileTLS l cs).Uses (Says l [.look, .setPeerURLs, .reconfigure] fun peer request =>
    ∃ id p, cs.peers.lookup id = some p ∧ EnablesTls p peer request) True := by
  unfold reconcileTLS
  split
  · trivial
  · exact Uses.range_mem ⟨⟨by simp [CtlReq.kind], trivial⟩, trivial⟩ fun peers hpeers => tells_reconcilePeersTLS peers hpeers

theorem uses_reconcileTLS : (m.reconcileTLS l cs).Uses (Sends l [.look, .setPeerURLs, .reconfigure]) True :=
  tells_reconcileTLS.mono fun _ hr => hr.1

theorem tells_upgradeOne {memberToPeer : GoMap ClusterPeerInfo} : ∀ members : List (EtcdMemberId × EtcdProcessMember),
    (m.upgradeOne l spec memberToPeer members).Uses
      (Says l [.reconfigure] (SetsVersion spec memberToPeer)) True
  | [] => trivial
  | (memberId, _) :: rest => by
    unfold upgradeOne
    split
    · trivial
    next peer hpeer =>
    split
    · trivial
    next etcdState hstate =>
    split
    · exact tells_upgradeOne rest
    next hversion =>
    refine Uses.ctl ⟨⟨by simp [CtlReq.kind], rfl⟩, memberId, peer, etcdState, hpeer, rfl, hstate, hversion, rfl, rfl, rfl⟩ ?_
    rintro (err | ⟨⟩) <;> trivial

theorem tells_upgradeInPlace {R : GoMap ClusterPeerInfo → Prop}
    (hr : (prepareForUpgrade spec cs).Returns fun r => ∀ memberToPeer, r = .ok memberToPeer → R memberToPeer) :
    (m.upgradeInPlace l spec cs).Uses (Says l [.look, .backup, .reconfigure]
      fun peer request => ∃ memberToPeer, R memberToPeer ∧ SetsVersion spec memberToPeer peer request) True := by
  refine .bind_of_returns (Uses.telling uses_prepareForUpgrade (by simp) (by simp)) hr fun r hpeers => ?_
  split
  · trivial
  next memberToPeer =>
  refine Uses.range ⟨⟨by simp [CtlReq.kind], trivial⟩, trivial⟩ fun members => ?_
  refine .bind (Uses.telling (uses_checkUpgradable members) (by simp) (by simp)) fun err => ?_
  split
  · trivial
  refine .bind (Uses.telling uses_doClusterBackup (by simp) (by simp)) fun r => ?_
  split
  · trivial
  refine Uses.range ⟨⟨by simp [CtlReq.kind], trivial⟩, trivial⟩ fun members => (tells_upgradeOne members).mono fun r hr => ?_
  exact hr.mono (by simp) fun _ _ h => ⟨memberToPeer, hpeers memberToPeer rfl, h⟩

theorem uses_upgradeInPlace : (m.upgradeInPlace l spec cs).Uses (Sends l [.look, .backup, .reconfigure]) True :=
  (tells_upgradeInPlace ((Prog.Returns.trivially _).mono fun _ _ _ _ => trivial)).mono fun _ hr => hr.1

theorem uses_stopMembers {memberToPeer : GoMap ClusterPeerInfo} : ∀ members : List (EtcdMemberId × EtcdProcessMember),
    (m.stopMembers l memberToPeer members).Uses (Sends l [.stop]) True
  | [] => trivial
  | (memberId, _) :: rest => by
    unfold stopMembers
    split
    · trivial
    refine Uses.ctl ⟨by simp [CtlReq.kind], rfl⟩ ?_
    rintro (err | ⟨⟩)
    · trivial
    · exact uses_stopMembers rest

theorem tells_stopForUpgrade : (m.stopForUpgrade l spec cs).Uses
    (Says l [.look, .backup, .reconfigure, .addCommand, .stop] (SetsQuarantine true)) True := by
  refine .bind (Uses.telling uses_prepareForUpgrade (by simp) (by simp)) fun r => ?_
  split
  · trivial
  refine .bind (Uses.telling uses_doClusterBackup (by simp) (by simp)) fun r => ?_
  split
  · trivial
  refine .bind (tells_updateQuarantine.mono fun r hr => hr.mono (by simp) fun _ _ h => h) fun ⟨_, err⟩ => ?_
  dsimp only
  split
  · trivial
  refine .bind (Uses.telling uses_doClusterBackup (by simp) (by simp)) fun r => ?_
  split
  · trivial
  refine Uses.ctl ⟨⟨by simp [CtlReq.kind], trivial⟩, trivial⟩ ?_
  rintro (err | ⟨⟩)
  · trivial
  refine .bind (Uses.telling (uses_waitForCommand _ _) (by simp) (by simp)) fun ⟨c, err⟩ => ?_
  dsimp only
  split
  · trivial
  refine Uses.range ⟨⟨by simp [CtlReq.kind], trivial⟩, trivial⟩ fun members => ?_
  refine .bind (Uses.telling (uses_stopMembers members) (by simp) (by simp)) fun err => ?_
  split <;> trivial

theorem uses_stopForUpgrade : (m.stopForUpgrade l spec cs).Uses
    (Sends l [.look, .backup, .reconfigure, .addCommand, .stop]) True :=
  tells_stopForUpgrade.mono fun _ hr => hr.1

/-! ## The parts of an iteration -/

theorem uses_notifyPeers {request : LeaderNotificationRequest} {failed : PeerId → Error → Error}
    {refused : PeerId → Error} (hr : request.view.map (·.leadershipToken) = some l.token) :
    ∀ peers : List (PeerId × PeerInfo),
      (notifyPeers request failed refused peers).Uses (Sends l [.look, .notify]) True
  | [] => trivial
  | (peerId, _) :: rest => by
    refine Uses.ctl ⟨by simp [CtlReq.kind], hr⟩ ?_
    rintro (err | response)
    · trivial
    refine .bind ?_ fun _ => ?_
    · cases response.view with
      | none => trivial
      | some view => exact ⟨⟨by simp [CtlReq.kind], trivial⟩, fun _ => trivial⟩
    · split
      · trivial
      · exact uses_notifyPeers hr rest

theorem uses_assertLeadership : (m.assertLeadership l.token).Uses (Sends l [.look, .notify]) True :=
  Uses.ctl ⟨by simp [CtlReq.kind], trivial⟩ fun snapshot =>
    Uses.range ⟨by simp [CtlReq.kind], trivial⟩ fun healthy =>
      Uses.range ⟨by simp [CtlReq.kind], trivial⟩ fun peers => uses_notifyPeers rfl peers

/-- A bid has a token of its own. -/
theorem uses_becomeLeader : m.becomeLeader.Uses (OfKind [.look, .bid, .notify]) True := by
  refine Uses.ctl (by simp [OfKind, CtlReq.kind]) fun snapshot => Uses.range (by simp [OfKind, CtlReq.kind]) fun healthy => ?_
  refine Uses.ctl (by simp [OfKind, CtlReq.kind]) fun token => Uses.range (by simp [OfKind, CtlReq.kind]) fun peers => ?_
  refine .bind ((@uses_notifyPeers ⟨token, []⟩ _ _ _ rfl peers).kinds (by simp)) fun err => ?_
  split <;> trivial

theorem uses_elect : m.elect.Uses (OfKind [.look, .bid, .notify]) True := by
  refine .bind uses_becomeLeader fun r => ?_
  split
  · trivial
  refine .bind ((@uses_refreshControlStore ⟨"", []⟩ _ _).kinds (by simp)) fun ⟨c, err⟩ => ?_
  cases err <;> trivial

theorem uses_releaseLeaderLock : m.releaseLeaderLock.Uses (OfKind [.lock]) True := by
  unfold releaseLeaderLock
  split
  · refine Uses.ctl (by simp [OfKind, CtlReq.kind]) ?_
    rintro (err | ⟨⟩) <;> trivial
  · trivial

theorem uses_acquireLeaderLock : m.acquireLeaderLock.Uses (OfKind [.lock]) True := by
  unfold acquireLeaderLock
  split
  · refine Uses.ctl (by simp [OfKind, CtlReq.kind]) ?_
    rintro (err | _ | _) <;> trivial
  · trivial

theorem uses_collectInfo : ∀ (infos : List PeerInfo) (peers : GoMap ClusterPeerInfo),
    (collectInfo infos peers).Uses (Sends l [.look]) True
  | [], _ => trivial
  | p :: rest, peers => by
    refine Uses.ctl ⟨List.mem_singleton.2 rfl, trivial⟩ ?_
    rintro (err | info)
    · trivial
    · exact uses_collectInfo rest _

theorem uses_listMembersVia : ∀ peers : List (PeerId × ClusterPeerInfo),
    (listMembersVia peers).Uses (Sends l [.look]) True
  | [] => trivial
  | (_, p) :: rest => by
    unfold listMembersVia
    split
    · exact uses_listMembersVia rest
    refine Uses.ctl ⟨List.mem_singleton.2 rfl, trivial⟩ ?_
    rintro (err | members)
    · exact uses_listMembersVia rest
    · dsimp only
      split <;> trivial

theorem uses_checkHealth : ∀ (members : List (EtcdMemberId × EtcdProcessMember)) (healthy : GoMap EtcdProcessMember),
    (checkHealth cs members healthy).Uses (Sends l [.look]) True
  | [], _ => trivial
  | (id, member) :: rest, healthy => by
    refine .bind uses_clientURLs fun urls => Uses.ctl ⟨List.mem_singleton.2 rfl, trivial⟩ ?_
    rintro (err | _)
    · exact uses_checkHealth rest _
    · exact uses_checkHealth rest _

theorem uses_updateClusterState {infos : List PeerInfo} :
    (updateClusterState infos).Uses (Sends l [.look]) True := by
  refine .bind (uses_collectInfo infos ∅) fun r => ?_
  split
  · trivial
  refine Uses.range ⟨List.mem_singleton.2 rfl, trivial⟩ fun peers => .bind (uses_listMembersVia peers) fun members => ?_
  exact Uses.range ⟨List.mem_singleton.2 rfl, trivial⟩ fun l' => .bind (uses_checkHealth l' ∅) fun _ => trivial

theorem uses_backupMembers {dies : Prop} : (m.backupMembers l spec cs).Uses (Sends l [.look, .backup]) dies := by
  unfold backupMembers
  split
  · refine Uses.ctl ⟨by simp [CtlReq.kind], trivial⟩ fun now => ?_
    split
    · refine .bind uses_doClusterBackup fun r => ?_
      split
      · trivial
      · exact Uses.ctl ⟨by simp [CtlReq.kind], trivial⟩ fun _ => trivial
    · trivial
  · trivial

theorem uses_checkQuarantine {acked : Nat} :
    (m.checkQuarantine l acked cs spec).Uses (Sends l [.look, .reconfigure]) True := by
  unfold checkQuarantine
  split
  · split
    · split
      · exact .bind uses_updateQuarantine fun _ => trivial
      · trivial
    · split
      · exact .bind uses_updateQuarantine fun _ => trivial
      · trivial
  · trivial

theorem uses_replaceUnhealthy {acked : Nat} :
    (m.replaceUnhealthy l acked cs spec).Uses (Sends l [.look, .backup, .removeMember]) True := by
  unfold replaceUnhealthy
  split
  · refine .bind (Uses.of_look (by simp) uses_idlePeers) fun idle => ?_
    repeat' split
    all_goals first | trivial | exact .bind uses_removeNodeFromCluster fun _ => trivial
  · trivial

theorem uses_resize {acked : Nat} : (m.resize l acked cs spec).Uses
    (Sends l [.look, .backup, .prepare, .addMember, .cancel, .joinExisting, .removeMember]) True := by
  unfold resize
  split
  · split
    · exact .bind (Uses.of_look (by simp) uses_refreshControlStore) fun _ => trivial
    · split
      · exact .bind (uses_addNodeToCluster.widen (by simp)) fun _ => trivial
      · trivial
  · split
    · trivial
    split
    · split
      · exact .bind (uses_removeNodeFromCluster.widen (by simp)) fun _ => trivial
      · trivial
    · exact .bind (uses_replaceUnhealthy.widen (by simp)) fun _ => trivial

theorem uses_settle {acked : Nat} : (m.settle l acked cs spec).Uses
    (Sends l [.look, .setPeerURLs, .reconfigure, .backup, .addCommand, .stop]) True := by
  refine .bind (uses_reconcileTLS.widen (by simp)) fun ⟨changed, err⟩ => ?_
  dsimp only
  split
  · trivial
  split
  · split
    · split
      · exact .bind (uses_upgradeInPlace.widen (by simp)) fun _ => trivial
      · exact uses_stopForUpgrade.widen (by simp)
    · trivial
  · trivial

end Etcdadm
