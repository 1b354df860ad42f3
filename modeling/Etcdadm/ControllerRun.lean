/-
`EtcdController.run`: one iteration of the control loop, from the peers the
gossip server knows to at most one change of the cluster.

The iteration is cut where the source changes subject: finding out whether we
lead (`run`, `elect`), finding out what is there (`lead`), a new cluster
(`newCluster`), a restore (`restore`), and the upkeep of a running cluster
(`maintain`), whose quarantine block is `checkQuarantine` and whose membership
decisions are `resize`.
-/
import Etcdadm.ControllerSteps
import Etcdadm.EtcdVersions

namespace Etcdadm

namespace EtcdController

variable (m : EtcdController)

/-! ## Leadership -/

/-- Peers we hear of in an answer are taken over. -/
def mergeView : Option View → CtlM Unit
  | none => return ()
  | some view => ctl (.addPeersFromView view)

/-- The loop of `BecomeLeader` and `AssertLeadership`; each has its own words
for a failed call and for a refusal. -/
def notifyPeers (request : LeaderNotificationRequest) (failed : PeerId → Error → Error) (refused : PeerId → Error) :
    List (PeerId × PeerInfo) → CtlM (Option Error)
  | [] => return none
  | (peerId, _) :: rest => do
    match ← ctl (.leaderNotification peerId request) with
    | .error err => return some (failed peerId err)
    | .ok response =>
      mergeView response.view
      if !response.accepted then
        return some (refused peerId)
      notifyPeers request failed refused rest

/-- `BecomeLeader`: the peers that acknowledged, and the new token. -/
def becomeLeader : CtlM (Except Error (List PeerId × String)) := do
  let snapshot ← ctl .snapshotHealthy
  let healthy ← range snapshot
  let token ← ctl .leadershipToken
  let request : LeaderNotificationRequest := ⟨some ⟨some m.myInfo, token, healthy.map Prod.snd⟩⟩
  let peers ← range snapshot
  match ← notifyPeers request (fun peerId err => s!"error sending leader notification to {peerId}: {err}")
    (fun peerId => s!"our leadership bid was not accepted by peer {peerId.quote}") peers with
  | some err => return .error err
  | none => return .ok (peers.map Prod.fst, token)

def assertLeadership (leadershipToken : String) : CtlM (Option Error) := do
  let snapshot ← ctl .snapshotHealthy
  let healthy ← range snapshot
  let request : LeaderNotificationRequest := ⟨some ⟨some m.myInfo, leadershipToken, healthy.map Prod.snd⟩⟩
  notifyPeers request (fun peerId err => s!"error sending leader assertion to {peerId.quote}: {err}")
    (fun peerId => s!"our leadership assertion was not accepted by peer {peerId.quote}") (← range snapshot)

def releaseLeaderLock : CtlM (EtcdController × Option Error) := do
  if m.leaderLockGuard then
    match ← ctl .releaseLock with
    | .error err => return (m, some s!"failed to release leader lock guard: {err}")
    | .ok () => return ({ m with leaderLockGuard := false }, none)
  return (m, none)

/-- The leader lock, if there is one and we do not hold it; and the end of the
iteration, if we do not get it. -/
def acquireLeaderLock : CtlM (EtcdController × Option Progress) := do
  if m.leaderLock ∧ m.leaderLockGuard = false then
    match ← ctl (.acquireLock m.myInfo.id) with
    | .error err => return (m, some (false, some s!"error acquiring leader lock: {err}"))
    | .ok false => return (m, some (false, none))
    | .ok true => return ({ m with leaderLockGuard := true }, none)
  return (m, none)

/-- We want to lead and do not yet: bid, and start afresh if everyone agrees. -/
def elect : CtlM (EtcdController × Progress) := do
  match ← m.becomeLeader with
  | .error err => return (m, false, some s!"error during LeaderNotification: {err}")
  | .ok (acked, leadershipToken) =>
    let (m, err) ← m.refreshControlStore 0
    if let some err := err then
      return (m, false, some s!"error refreshing control store after leadership change: {err}")
    return ({ m with leadership := some ⟨leadershipToken, acked⟩, peerState := ∅ }, false, none)

/-! ## The state of the cluster -/

/-- Ask every peer; the first that fails ends it. -/
def collectInfo : List PeerInfo → GoMap ClusterPeerInfo → CtlM (Except Error (GoMap ClusterPeerInfo))
  | [], peers => return .ok peers
  | p :: rest, peers => do
    match ← ctl (.getInfo p.id) with
    | .error err => return .error s!"error from GetInfo from peer {p.id.quote}: {err}"
    | .ok info => collectInfo rest (peers.insert p.id ⟨p, info⟩)

/-- The URLs under which a peer's own etcd answers, if it has one. -/
def ownClientURLs (p : ClusterPeerInfo) : List String :=
  match p.info.nodeConfiguration, p.info.etcdState with
  | some node, some etcdState => if etcdState.quarantined then node.quarantinedClientUrls else node.clientUrls
  | _, _ => []

/-- The members, as the first peer that answers lists them. -/
def listMembersVia : List (PeerId × ClusterPeerInfo) → CtlM (GoMap EtcdProcessMember)
  | [] => return ∅
  | (_, p) :: rest => do
    if ownClientURLs p = [] then
      listMembersVia rest
    else
      match ← ctl (.listMembers (ownClientURLs p)) with
      | .error _ => listMembersVia rest
      | .ok members =>
        if members.any (·.id == "") then
          .crash "etcd member did not have ID"
        else return members.foldl (fun ms member => ms.insert member.id member) ∅

/-- The members that answer themselves. -/
def checkHealth (clusterState : ClusterState) : List (EtcdMemberId × EtcdProcessMember) → GoMap EtcdProcessMember →
    CtlM (GoMap EtcdProcessMember)
  | [], healthyMembers => return healthyMembers
  | (id, member) :: rest, healthyMembers => do
    match ← ctl (.listMembers (← clusterState.clientURLs member)) with
    | .error _ => checkHealth clusterState rest healthyMembers
    | .ok _ => checkHealth clusterState rest (healthyMembers.insert id member)

def updateClusterState (peers : List PeerInfo) : CtlM (Except Error ClusterState) := do
  match ← collectInfo peers ∅ with
  | .error err => return .error err
  | .ok peers =>
    let members ← listMembersVia (← range peers)
    let clusterState : ClusterState := ⟨members, peers, ∅⟩
    let healthyMembers ← checkHealth clusterState (← range members) ∅
    return .ok { clusterState with healthyMembers := healthyMembers }

/-- When each member was last seen healthy: a new one counts as healthy now. -/
def trackHealth (now : Time) (clusterState : ClusterState) (peerState : GoMap Time) : GoMap Time :=
  clusterState.members.keys.foldl (fun ps id =>
    if (clusterState.healthyMembers.lookup id).isSome ∨ ps.lookup id = none then ps.insert id now else ps) peerState

/-! ## Upkeep of a running cluster -/

variable (l : LeadershipState)

/-- `maybeBackup`: a failure is only logged. -/
def maybeBackup (clusterSpec : ClusterSpec) (clusterState : ClusterState) : CtlM EtcdController := do
  let now ← ctl .now
  if now - m.lastBackup > m.backupInterval then
    match ← m.doClusterBackup l clusterSpec clusterState with
    | .error _ => return m
    | .ok _ =>
      let _ ← ctl .backupMaintenance
      return { m with lastBackup := now }
  return m

/-- The backup is only tried when something is running. -/
def backupMembers (clusterSpec : ClusterSpec) (clusterState : ClusterState) : CtlM EtcdController :=
  if clusterState.members.size ≠ 0 then m.maybeBackup l clusterSpec clusterState else return m

/-- The quarantine block: what it returns, if it ends the iteration. -/
def checkQuarantine (ackedPeerCount : Nat) (clusterState : ClusterState) (clusterSpec : ClusterSpec) :
    CtlM (Option Progress) := do
  if clusterState.quarantinedMembers > 0 then
    if (clusterState.healthyMembers.size : Int) ≥ quorumSize clusterSpec.memberCount ∧
        clusterState.versionMismatch clusterSpec = [] then
      if (ackedPeerCount : Int) ≥ quorumSize clusterSpec.memberCount then
        return some (← m.updateQuarantine l clusterState false)
      else return some (false, none)
    if clusterState.nonQuarantinedMembers > 0 then
      return some (← m.updateQuarantine l clusterState true)
  return none

/-- Remove an unhealthy member if an idle peer could take its place. -/
def replaceUnhealthy (ackedPeerCount : Nat) (clusterState : ClusterState) (clusterSpec : ClusterSpec) :
    CtlM (Option Progress) := do
  if clusterState.healthyMembers.size < clusterState.members.size then
    let idlePeers ← clusterState.idlePeers
    if idlePeers = [] then return none
    else if clusterState.members.size ≤ 2 then return none
    else if (clusterState.members.size : Int) ≤ clusterSpec.memberCount then return none
    else if (ackedPeerCount : Int) < quorumSize clusterSpec.memberCount then return none
    else return some (← m.removeNodeFromCluster l clusterSpec clusterState false)
  return none

/-- The membership decisions: what they return, if they end the iteration. -/
def resize (ackedPeerCount : Nat) (clusterState : ClusterState) (clusterSpec : ClusterSpec) :
    CtlM (EtcdController × Option Progress) := do
  if (clusterState.members.size : Int) < clusterSpec.memberCount then
    if clusterState.members.size = 0 then
      let (m, _) ← m.refreshControlStore 0
      return (m, some (false, some "etcd has 0 members registered; must issue restore-backup command to proceed"))
    if (ackedPeerCount : Int) ≥ quorumSize clusterState.members.size then
      return (m, some (← m.addNodeToCluster l clusterSpec clusterState))
    else return (m, some (false, none))
  if clusterState.members.size = 0 then
    return (m, some (false, none))
  if (clusterState.configuredMembers : Int) > clusterSpec.memberCount then
    if (ackedPeerCount : Int) ≥ quorumSize clusterState.configuredMembers then
      return (m, some (← m.removeNodeFromCluster l clusterSpec clusterState true))
    else return (m, some (false, none))
  return (m, ← m.replaceUnhealthy l ackedPeerCount clusterState clusterSpec)

/-- The last part: TLS, then the version. -/
def settle (ackedPeerCount : Nat) (clusterState : ClusterState) (clusterSpec : ClusterSpec) :
    CtlM (EtcdController × Progress) := do
  let (changed, err) ← m.reconcileTLS l clusterState
  if changed ∨ err.isSome then
    return (m, changed, err)
  let versionMismatch := clusterState.versionMismatch clusterSpec
  if versionMismatch ≠ [] then
    if (ackedPeerCount : Int) ≥ quorumSize clusterSpec.memberCount then
      if versionMismatch.all fun (_, p) =>
          p.info.etcdState.all (upgradeInPlaceSupported ·.etcdVersion clusterSpec.etcdVersion) then
        return (m, ← m.upgradeInPlace l clusterSpec clusterState)
      else m.stopForUpgrade l clusterSpec clusterState
    else return (m, false, none)
  else return (m, false, none)

def maintain (ackedPeerCount : Nat) (clusterState : ClusterState) (clusterSpec : ClusterSpec) :
    CtlM (EtcdController × Progress) := do
  let m ← m.backupMembers l clusterSpec clusterState
  if let some err ← verifyEtcdVersion clusterSpec then
    return (m, false, some err)
  if let some r ← m.checkQuarantine l ackedPeerCount clusterState clusterSpec then
    return (m, r)
  match ← m.resize l ackedPeerCount clusterState clusterSpec with
  | (m, some r) => return (m, r)
  | (m, none) => m.settle l ackedPeerCount clusterState clusterSpec

/-! ## The iteration -/

/-- A restore-backup command is pending. -/
def restore (ackedPeerCount : Nat) (clusterState : ClusterState) (clusterSpec : ClusterSpec) (cmd : StoredCommand) :
    CtlM (EtcdController × Progress) := do
  if let some err ← verifyEtcdVersion clusterSpec then
    return (m, false, some err)
  ctl (.logRestoreCommand cmd.data)
  match cmd.data.restoreBackup.bind (·.clusterSpec) with
  | none => return (m, false, some s!"RestoreBackup was not set: {cmd.path}")
  | some restoreSpec =>
    if (ackedPeerCount : Int) < quorumSize clusterSpec.memberCount then
      return (m, false, none)
    let (created, err) ← m.createNewCluster l clusterState restoreSpec
    ctl (.createNewClusterReturned created)
    if err.isSome then
      return (m, false, err)
    m.restoreBackupAndLiftQuarantine l restoreSpec clusterState cmd

/-- The cluster is there. -/
def reconcile (ackedPeerCount : Nat) (clusterState : ClusterState) : CtlM (EtcdController × Progress) :=
  match m.controlClusterSpec with
  | none => return (m, false, none)
  | some clusterSpec => do
    ctl (.logSpec clusterSpec)
    match m.getRestoreBackupCommand with
    | some cmd => m.restore l ackedPeerCount clusterState clusterSpec cmd
    | none => m.maintain l ackedPeerCount clusterState clusterSpec

/-- Mark the cluster as created, so that we won't create it again. -/
def markCreated (created : Bool) : CtlM (Option Error) := do
  if created then
    match ← ctl .markClusterCreated with
    | .error err => return some err
    | .ok () => return none
  return none

/-- The store has no marker of a created cluster. -/
def newCluster (ackedPeerCount : Nat) (clusterState : ClusterState) : CtlM (EtcdController × Progress) := do
  let (m, err) ← m.refreshControlStore 0
  if let some err := err then
    return (m, false, some s!"error refreshing control store: {err}")
  match m.controlClusterSpec with
  | none => m.reconcile l ackedPeerCount clusterState
  | some clusterSpec =>
    if let some err ← verifyEtcdVersion clusterSpec then
      return (m, false, some err)
    if (ackedPeerCount : Int) < quorumSize clusterSpec.memberCount then
      return (m, false, none)
    let (created, err) ← m.createNewCluster l clusterState clusterSpec
    ctl (.createNewClusterReturned created)
    if err.isSome then
      return (m, created, err)
    if let some err ← markCreated created then
      return (m, false, some err)
    return (m, true, none)

/-- We lead: look at the cluster, then act. -/
def lead (peers : List PeerInfo) : CtlM (EtcdController × Progress) := do
  if let some err ← m.assertLeadership l.token then
    return (m, false, some s!"error during AssertLeadership: {err}")
  if peers.any (·.id ∉ l.ackedPeers) then
    return ({ m with leadership := none }, false, none)
  let ackedPeerCount := peers.length
  match ← updateClusterState peers with
  | .error err => return (m, false, some s!"error building cluster state: {err}")
  | .ok clusterState =>
    ctl (.logClusterState clusterState)
    let now ← ctl .now
    let m := { m with peerState := trackHealth now clusterState m.peerState }
    let _ ← broadcastMemberMap clusterState (← m.buildMemberMap clusterState)
    let (m, err) ← m.refreshControlStore m.controlRefreshInterval
    if let some err := err then
      return (m, false, some s!"error refreshing commands: {err}")
    match ← ctl .isNewCluster with
    | .error err => return (m, false, some s!"error checking control store: {err}")
    | .ok true => m.newCluster l ackedPeerCount clusterState
    | .ok false => m.reconcile l ackedPeerCount clusterState

/-- The healthy peers in the order of their ids. -/
def sortPeers (peers : List PeerInfo) : List PeerInfo := peers.insertionSort fun p q => p.id ≤ q.id

def run : CtlM (EtcdController × Progress) := do
  let peers := sortPeers (← ctl .peers)
  if peers.all (·.id ≠ m.myInfo.id) then
    return (m, false, some s!"cannot find self {m.myInfo.id.quote} in list of peers {peers.map PeerInfo.peerString}")
  if peers.head?.map (·.id) ≠ some m.myInfo.id then
    let (m, err) ← m.releaseLeaderLock
    return (m, false, err)
  match ← m.acquireLeaderLock with
  | (m, some r) => return (m, r)
  | (m, none) =>
    match m.leadership with
    | none => m.elect
    | some l => m.lead l peers

end EtcdController

end Etcdadm
