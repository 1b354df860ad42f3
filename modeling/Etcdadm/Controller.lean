/-
`EtcdController`: what it holds, what it asks of the world, and the parts of
an iteration that several of its steps share (`controller.go`,
`etcdclusterstate.go`, `commands.go`).

A request is one call out of the process: to the gossip server, a peer, an
etcd member, the control store, the backup store, the clock. Every call can
fail. A `range` over a Go map is a request too, `rangeOver`, answered by some
order of the keys. Four requests leave only a mark in the trace:
`logClusterState`, `logSpec` and `logRestoreCommand` are log lines of the
source, and `createNewClusterReturned` notes what a call returned.

`m.leadership` is not nil where a step that talks to peers is called, so
such a step is given the leadership itself.
-/
import Etcdadm.Api
import Etcdadm.GoMap
import Etcdadm.Prog

namespace Etcdadm

/-- `etcdclient.EtcdProcessMember` -/
structure EtcdProcessMember where
  id : EtcdMemberId
  name : String
  peerURLs : List String
  clientURLs : List String
  deriving DecidableEq, Repr

/-- `peer.String()` -/
def PeerInfo.peerString (p : PeerInfo) : String :=
  "peer\x7b" ++ " ".intercalate (s!"id:{p.id.quote}" :: p.endpoints.map fun e => s!"endpoints:{e.quote}") ++ "\x7d"

/-- `etcdClusterPeerInfo`. Both pointers are set where the map of peers is
filled. -/
structure ClusterPeerInfo where
  peer : PeerInfo
  info : GetInfoResponse
  deriving DecidableEq, Repr

/-- `etcdClusterState`: the members by id, and the peers by id. -/
structure ClusterState where
  members : GoMap EtcdProcessMember
  peers : GoMap ClusterPeerInfo
  healthyMembers : GoMap EtcdProcessMember

/-- `commands.Command`: where the store keeps it, and its data. -/
structure StoredCommand where
  path : String
  data : Command
  deriving DecidableEq, Repr

/-- `leadershipState` -/
structure LeadershipState where
  token : String
  ackedPeers : List PeerId
  deriving DecidableEq, Repr

/-- `maxPolls` is not in the source: it bounds how long a wait without an end
is followed, and nothing depends on its value. -/
structure EtcdController where
  clusterName : String
  dnsSuffix : String
  myInfo : PeerInfo
  controlRefreshInterval : Time
  backupInterval : Time
  backupStore : String
  disableEtcdTLS : Bool
  leaderLock : Bool
  maxPolls : Nat
  leaderLockGuard : Bool
  leadership : Option LeadershipState
  peerState : GoMap Time
  lastBackup : Time
  controlCommands : List StoredCommand
  controlLastRead : Time
  controlClusterSpec : Option ClusterSpec

/-! ## Requests -/

inductive CtlReq where
  /-- `Peers()` of the gossip server: the healthy ones -/
  | peers
  | acquireLock (holder : PeerId)
  | releaseLock
  | snapshotHealthy
  /-- `randomToken` of a leadership bid -/
  | leadershipToken
  | leaderNotification (peer : PeerId) (request : LeaderNotificationRequest)
  | addPeersFromView (view : View)
  | now
  | rangeOver (keys : List String)
  | getInfo (peer : PeerId)
  | updateEndpoints (peer : PeerId) (memberMap : MemberMap)
  | stopEtcd (peer : PeerId) (request : StopEtcdRequest)
  | joinCluster (peer : PeerId) (request : JoinClusterRequest)
  | reconfigure (peer : PeerId) (request : ReconfigureRequest)
  | doBackup (peer : PeerId) (request : DoBackupRequest)
  | doRestore (peer : PeerId) (request : DoRestoreRequest)
  /-- `NewClient` on some URLs, and `ListMembers` there -/
  | listMembers (clientURLs : List String)
  | addMember (clientURLs peerURLs : List String)
  | removeMember (clientURLs : List String) (member : EtcdProcessMember)
  | setPeerURLs (clientURLs : List String) (member : EtcdProcessMember) (peerURLs : List String)
  | listCommands
  | getExpectedClusterSpec
  | setExpectedClusterSpec (spec : ClusterSpec)
  | isNewCluster
  | markClusterCreated
  | addCommand (cmd : Command)
  | removeCommand (cmd : StoredCommand)
  | bindirForEtcdVersion (etcdVersion cmd : String)
  /-- `randomToken` of a new cluster -/
  | clusterToken
  | backupMaintenance
  | loadInfo (backup : String)
  | randIntn (n : Nat)
  | sleep (d : Time)
  | logClusterState (clusterState : ClusterState)
  | logSpec (spec : ClusterSpec)
  | logRestoreCommand (data : Command)
  | createNewClusterReturned (created : Bool)

@[reducible] def CtlReq.Resp : CtlReq → Type
  | .peers => List PeerInfo
  | .acquireLock _ | .isNewCluster => Except Error Bool
  | .snapshotHealthy => GoMap PeerInfo
  | .leadershipToken | .clusterToken => String
  | .leaderNotification _ _ => Except Error LeaderNotificationResponse
  | .now => Time
  | .rangeOver keys => { l : List String // l.Perm keys }
  | .getInfo _ => Except Error GetInfoResponse
  | .doBackup _ _ => Except Error DoBackupResponse
  | .listMembers _ => Except Error (List EtcdProcessMember)
  | .listCommands => Except Error (List StoredCommand)
  | .getExpectedClusterSpec => Except Error (Option ClusterSpec)
  | .bindirForEtcdVersion _ _ => Except Error String
  | .loadInfo _ => Except Error (Option BackupInfo)
  | .randIntn n => Fin n
  | .addPeersFromView _ | .sleep _ | .logClusterState _ | .logSpec _ | .logRestoreCommand _
  | .createNewClusterReturned _ => Unit
  | .releaseLock | .updateEndpoints _ _ | .stopEtcd _ _ | .joinCluster _ _ | .reconfigure _ _ | .doRestore _ _
  | .addMember _ _ | .removeMember _ _ | .setPeerURLs _ _ _ | .setExpectedClusterSpec _ | .markClusterCreated
  | .addCommand _ | .removeCommand _ | .backupMaintenance => Except Error Unit

@[reducible] def ctlSig : Sig := ⟨CtlReq, CtlReq.Resp⟩

/-- A program of the controller. -/
abbrev CtlM := Prog ctlSig

def ctl (r : CtlReq) : CtlM r.Resp := .call (S := ctlSig) r .ret

/-- What a step of the iteration returns: `(bool, error)`. -/
abbrev Progress := Bool × Option Error

/-- `range m`: the entries, in some order. -/
def range {V : Type} (m : GoMap V) : CtlM (List (String × V)) := do
  let ks ← ctl (.rangeOver m.keys)
  return m.inOrder ks.1

/-- `quorumSize`, with Go's division -/
def quorumSize (desiredMemberCount : Int) : Int := desiredMemberCount.tdiv 2 + 1

/-! ## Looking into the cluster state -/

namespace ClusterState

/-- The loop of `FindMember` and `FindHealthyMember`: some member of the name. -/
def findByName (members : GoMap EtcdProcessMember) (name : String) : CtlM (Option EtcdProcessMember) := do
  let l ← range members
  return (l.find? (·.2.name == name)).map Prod.snd

def findMember (s : ClusterState) (peerId : PeerId) : CtlM (Option EtcdProcessMember) :=
  findByName s.members peerId

def findHealthyMember (s : ClusterState) (peerId : PeerId) : CtlM (Option EtcdProcessMember) :=
  findByName s.healthyMembers peerId

/-- `FindPeer`: peers are found by their key, of which there is at most one. -/
def findPeer (s : ClusterState) (member : EtcdProcessMember) : Option ClusterPeerInfo :=
  s.peers.lookup member.name

/-- The URLs `newEtcdClient` uses for a member: those of the last peer whose
node has its name, else its own. -/
def clientURLs (s : ClusterState) (member : EtcdProcessMember) : CtlM (List String) := do
  let l ← range s.peers
  match l.reverse.find? fun (_, p) => p.info.nodeConfiguration.any (·.name == member.name) with
  | none => return member.clientURLs
  | some (_, p) =>
    match p.info.nodeConfiguration with
    | none => return member.clientURLs
    | some node =>
      if p.info.etcdState.any (·.quarantined) then return node.quarantinedClientUrls
      else return node.clientUrls

/-- The loop of `etcdAddMember`: the first member that takes the request. -/
def addMemberVia (s : ClusterState) (nodeInfo : EtcdNode) : List (String × EtcdProcessMember) →
    CtlM (Except Error EtcdProcessMember)
  | [] => return .error s!"unable to reach any cluster member, when trying to add new member {nodeInfo.peerUrls}"
  | (_, member) :: rest => do
    match ← ctl (.addMember (← s.clientURLs member) nodeInfo.peerUrls) with
    | .error _ => s.addMemberVia nodeInfo rest
    | .ok () => return .ok member

def etcdAddMember (s : ClusterState) (nodeInfo : EtcdNode) : CtlM (Except Error EtcdProcessMember) := do
  s.addMemberVia nodeInfo (← range s.members)

/-- The loop of `etcdRemoveMember`. -/
def removeMemberVia (s : ClusterState) (victim : EtcdProcessMember) : List (String × EtcdProcessMember) →
    CtlM (Option Error)
  | [] => return some s!"unable to reach any cluster member, when trying to remove member {victim.id}"
  | (_, member) :: rest => do
    match ← ctl (.removeMember (← s.clientURLs member) victim) with
    | .error _ => s.removeMemberVia victim rest
    | .ok () => return none

def etcdRemoveMember (s : ClusterState) (victim : EtcdProcessMember) : CtlM (Option Error) := do
  s.removeMemberVia victim (← range s.members)

end ClusterState

/-- The peer's etcd has a cluster. -/
def ClusterPeerInfo.configured (p : ClusterPeerInfo) : Bool := p.info.etcdState.any (·.cluster.isSome)

namespace ClusterState

/-- `configuredMembers` -/
def configuredMembers (s : ClusterState) : Nat := s.peers.pairs.countP (·.2.configured)

def quarantinedMembers (s : ClusterState) : Nat :=
  s.peers.pairs.countP fun (_, p) => p.configured && p.info.etcdState.any (·.quarantined)

def nonQuarantinedMembers (s : ClusterState) : Nat :=
  s.peers.pairs.countP fun (_, p) => p.configured && !p.info.etcdState.any (·.quarantined)

/-- `versionMismatch`: the peers with a state of another version -/
def versionMismatch (s : ClusterState) (clusterSpec : ClusterSpec) : List (PeerId × ClusterPeerInfo) :=
  s.peers.pairs.filter fun (_, p) => p.info.etcdState.any (·.etcdVersion != clusterSpec.etcdVersion)

/-- `idlePeers`, in some order -/
def idlePeers (s : ClusterState) : CtlM (List (PeerId × ClusterPeerInfo)) := do
  return (← range s.peers).filter fun (_, p) => !p.configured

end ClusterState

namespace EtcdController

/-! ## The control store -/

def refreshControlStore (m : EtcdController) (ttl : Time) : CtlM (EtcdController × Option Error) := do
  let now ← ctl .now
  if ttl ≠ 0 ∧ now < m.controlLastRead + ttl then
    return (m, none)
  match ← ctl .listCommands with
  | .error err => return (m, some err)
  | .ok controlCommands =>
    match ← ctl .getExpectedClusterSpec with
    | .error err => return (m, some err)
    | .ok controlClusterSpec =>
      return ({ m with
        controlCommands := controlCommands
        controlLastRead := now
        controlClusterSpec := controlClusterSpec }, none)

def getRestoreBackupCommand (m : EtcdController) : Option StoredCommand :=
  m.controlCommands.find? (·.data.restoreBackup.isSome)

/-- `removeCommand`: the cached list is dropped whether or not it worked. -/
def removeCommand (m : EtcdController) (cmd : StoredCommand) : CtlM (EtcdController × Option Error) := do
  let m' := { m with controlCommands := [], controlLastRead := 0 }
  match ← ctl (.removeCommand cmd) with
  | .error err => return (m', some err)
  | .ok () => return (m', none)

/-- `writeClusterSpec` -/
def writeClusterSpec (spec : ClusterSpec) : CtlM (Option Error) := do
  match ← ctl (.setExpectedClusterSpec spec) with
  | .error err => return some err
  | .ok () => return none

def verifyEtcdVersion (clusterSpec : ClusterSpec) : CtlM (Option Error) := do
  match ← ctl (.bindirForEtcdVersion clusterSpec.etcdVersion "etcd") with
  | .ok _ => return none
  | .error _ => return some s!"can't act as leader for unknown etcd version {clusterSpec.etcdVersion.quote}"

/-! ## Talking to the peers -/

def buildHeader (m : EtcdController) (l : LeadershipState) : CommonRequestHeader := ⟨l.token, m.clusterName⟩

/-- The loop of `broadcastMemberMap`: everyone is told, the errors are kept. -/
def broadcastTo (memberMap : MemberMap) : List (PeerId × ClusterPeerInfo) → CtlM (List Error)
  | [] => return []
  | (_, p) :: rest => do
    match ← ctl (.updateEndpoints p.peer.id memberMap) with
    | .error err => return err :: (← broadcastTo memberMap rest)
    | .ok () => broadcastTo memberMap rest

def broadcastMemberMap (clusterState : ClusterState) (memberMap : MemberMap) : CtlM (List Error) := do
  broadcastTo memberMap (← range clusterState.peers)

/-- The entry of a node in a member map. -/
def memberMapInfo (m : EtcdController) (name : String) (addresses : List String) : MemberMapInfo :=
  { name := name
    dns :=
      if m.dnsSuffix = "" then ""
      else name ++ (if hasPrefix m.dnsSuffix "." then m.dnsSuffix else "." ++ m.dnsSuffix)
    addresses := addresses }

def buildMemberMap (m : EtcdController) (clusterState : ClusterState) : CtlM MemberMap := do
  let l ← range clusterState.peers
  return ⟨l.filterMap fun (_, p) =>
    match p.info.etcdState, p.info.nodeConfiguration with
    | some _, some node => some (m.memberMapInfo node.name p.peer.endpoints)
    | _, _ => none⟩

/-- The node with the URLs and the TLS flag it should have. -/
def tlsConfigured (m : EtcdController) (node : EtcdNode) : EtcdNode :=
  if m.disableEtcdTLS then
    { node with
      peerUrls := rewriteScheme node.peerUrls "https://" "http://"
      clientUrls := rewriteScheme node.clientUrls "https://" "http://"
      tlsEnabled := false }
  else
    { node with
      peerUrls := rewriteScheme node.peerUrls "http://" "https://"
      clientUrls := rewriteScheme node.clientUrls "http://" "https://"
      tlsEnabled := true }

/-- The loop of `doClusterBackup`: the first healthy member that can. -/
def backupVia (m : EtcdController) (l : LeadershipState) (clusterSpec : ClusterSpec) (clusterState : ClusterState) :
    List (EtcdMemberId × EtcdProcessMember) → CtlM (Except Error DoBackupResponse)
  | [] => return .error "no peer was able to perform a backup"
  | (_, member) :: rest =>
    match clusterState.findPeer member with
    | none => m.backupVia l clusterSpec clusterState rest
    | some peer => do
      match ← ctl (.doBackup peer.peer.id
        ⟨some (m.buildHeader l), m.backupStore, some ⟨"", 0, some clusterSpec⟩⟩) with
      | .error _ => m.backupVia l clusterSpec clusterState rest
      | .ok response => return .ok response

def doClusterBackup (m : EtcdController) (l : LeadershipState) (clusterSpec : ClusterSpec)
    (clusterState : ClusterState) : CtlM (Except Error DoBackupResponse) := do
  m.backupVia l clusterSpec clusterState (← range clusterState.healthyMembers)

/-- The loop of `updateQuarantine`, `changed` being what it has done so far. -/
def quarantinePeers (m : EtcdController) (l : LeadershipState) (clusterState : ClusterState) (quarantined : Bool) :
    List (PeerId × ClusterPeerInfo) → Bool → CtlM Progress
  | [], changed => return (changed, none)
  | (peerId, p) :: rest, changed => do
    match ← clusterState.findMember peerId with
    | none => m.quarantinePeers l clusterState quarantined rest changed
    | some _ =>
      match ← ctl (.reconfigure p.peer.id ⟨some (m.buildHeader l), "", quarantined, false⟩) with
      | .error err => return (changed, some s!"error reconfiguring peer {p.peer.peerString} to not be quarantined: {err}")
      | .ok () => m.quarantinePeers l clusterState quarantined rest true

def updateQuarantine (m : EtcdController) (l : LeadershipState) (clusterState : ClusterState) (quarantined : Bool) :
    CtlM Progress := do
  m.quarantinePeers l clusterState quarantined (← range clusterState.peers) false

end EtcdController

end Etcdadm
