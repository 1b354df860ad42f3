/-
What an iteration can decide to do: form a new cluster, restore a backup,
grow, shrink, enable TLS, upgrade (`newcluster.go`, `restore.go`,
`reconcile_configuration.go`, `upgrade.go`, and `addNodeToCluster`,
`removeNodeFromCluster` of `controller.go`).

Each step is the source's function; a loop with an early return is a function
of its own, over the list it runs through.
-/
import Etcdadm.Controller

namespace Etcdadm

namespace EtcdController

variable (m : EtcdController) (l : LeadershipState)

/-! ## createNewCluster -/

/-- The nodes and the member map proposed, or the panic of a peer without a
node configuration. -/
def proposeNodes : List (PeerId × ClusterPeerInfo) → CtlM (List EtcdNode × List MemberMapInfo)
  | [] => return ([], [])
  | (_, p) :: rest => do
    match p.info.nodeConfiguration with
    | none => .crash "invalid memory address or nil pointer dereference"
    | some nodeConfiguration =>
      let node := m.tlsConfigured nodeConfiguration
      let (nodes, members) ← proposeNodes rest
      return (node :: nodes, m.memberMapInfo node.name p.peer.endpoints :: members)

/-- Stop any running etcd: every peer that has a state. -/
def stopPeers : List (PeerId × ClusterPeerInfo) → CtlM (Option Error)
  | [] => return none
  | (_, p) :: rest => do
    if p.info.etcdState.isSome then
      match ← ctl (.stopEtcd p.peer.id ⟨some (m.buildHeader l)⟩) with
      | .error err => return some s!"error stopping etcd peer {p.peer.id.quote}: {err}"
      | .ok () => stopPeers rest
    else stopPeers rest

/-- One phase of joining, sent to the whole proposal. -/
def joinPeers (phase : Phase) (clusterToken etcdVersion : String) (nodes : List EtcdNode) (what : String) :
    List (PeerId × ClusterPeerInfo) → CtlM (Option Error)
  | [] => return none
  | (_, p) :: rest => do
    match ← ctl (.joinCluster p.peer.id ⟨some (m.buildHeader l), phase, clusterToken, nodes, etcdVersion⟩) with
    | .error err => return some s!"error from JoinClusterRequest{what} from peer {p.peer.peerString.quote}: {err}"
    | .ok () => joinPeers phase clusterToken etcdVersion nodes what rest

/-- The loop that picks the proposal: peers are added until there are enough,
which is looked at after the first one. -/
def pickProposal (desiredMemberCount : Int) : List (PeerId × ClusterPeerInfo) → List (PeerId × ClusterPeerInfo) →
    List (PeerId × ClusterPeerInfo)
  | proposal, [] => proposal
  | proposal, p :: rest =>
    let proposal := proposal ++ [p]
    if (proposal.length : Int) = desiredMemberCount then proposal
    else pickProposal desiredMemberCount proposal rest

/-- Have the proposal stop what it runs and join the new cluster. -/
def joinProposal (clusterState : ClusterState) (clusterSpec : ClusterSpec) (clusterToken : String)
    (proposal : List (PeerId × ClusterPeerInfo)) : CtlM Progress := do
  let (proposedNodes, members) ← m.proposeNodes proposal
  if let some err ← m.stopPeers l (← range clusterState.peers) then
    return (false, some err)
  let errors ← broadcastMemberMap clusterState ⟨members⟩
  if errors ≠ [] then
    return (false, some s!"unable to broadcast member map: {errors}")
  if let some err ← m.joinPeers l .prepare clusterToken clusterSpec.etcdVersion proposedNodes " (prepare)" proposal then
    return (false, some err)
  if let some err ← m.joinPeers l .initialCluster clusterToken clusterSpec.etcdVersion proposedNodes "" proposal then
    return (false, some err)
  if let some err ← writeClusterSpec clusterSpec then
    return (false, some err)
  return (true, none)

/-- `createNewCluster` once it has decided to go on. -/
def formCluster (clusterState : ClusterState) (clusterSpec : ClusterSpec) : CtlM Progress := do
  let desiredMemberCount := clusterSpec.memberCount
  let clusterToken ← ctl .clusterToken
  let proposal := pickProposal desiredMemberCount [] (← range clusterState.peers)
  if (proposal.length : Int) < desiredMemberCount ∧ quorumSize proposal.length < quorumSize desiredMemberCount then
    .crash "Need to add dummy peers to force quorum size :-("
  else m.joinProposal l clusterState clusterSpec clusterToken proposal

def createNewCluster (clusterState : ClusterState) (clusterSpec : ClusterSpec) : CtlM Progress := do
  let desiredMemberCount := clusterSpec.memberCount
  let desiredQuorumSize := quorumSize desiredMemberCount
  if (clusterState.peers.size : Int) < desiredQuorumSize then
    return (false, none)
  -- one peer short is allowed through if the quorum size is the same
  if (clusterState.peers.size : Int) < desiredMemberCount ∧ quorumSize clusterState.peers.size ≠ desiredQuorumSize then
    return (false, none)
  m.formCluster l clusterState clusterSpec

/-! ## restoreBackupAndLiftQuarantine -/

/-- The last peer of the loop that hosts a healthy member. -/
def restoreTarget (clusterState : ClusterState) : List (PeerId × ClusterPeerInfo) → Option ClusterPeerInfo →
    CtlM (Option ClusterPeerInfo)
  | [], peer => return peer
  | (peerId, p) :: rest, peer => do
    match ← clusterState.findHealthyMember peerId with
    | none => restoreTarget clusterState rest peer
    | some _ => restoreTarget clusterState rest (some p)

def restoreBackupAndLiftQuarantine (clusterSpec : ClusterSpec) (clusterState : ClusterState) (cmd : StoredCommand) :
    CtlM (EtcdController × Progress) := do
  match cmd.data.restoreBackup with
  | none => return (m, false, some s!"RestoreBackup not set in {cmd.path}")
  | some restoreBackup =>
    if restoreBackup.backup = "" then
      return (m, false, some s!"RestoreBackup not set in {cmd.path}")
    let backup := restoreBackup.backup
    match ← ctl (.loadInfo backup) with
    | .error err => return (m, false, some s!"error reading backup info in {backup.quote}: {err}")
    | .ok info =>
      if (info.map (·.etcdVersion)).getD "" = "" then
        return (m, false, some s!"etcd version not found in {backup.quote}")
      match ← restoreTarget clusterState (← range clusterState.peers) none with
      | none => return (m, false, some "unable to find peer on which to run restore operation")
      | some peer =>
        match ← ctl (.doRestore peer.peer.id ⟨some (m.buildHeader l), m.backupStore, backup⟩) with
        | .error err => return (m, false, some s!"error restoring backup on peer {peer.peer.peerString}: {err}")
        | .ok () =>
          if let some err ← writeClusterSpec clusterSpec then
            return (m, false, some err)
          let (m, err) ← m.removeCommand cmd
          if err.isSome then
            return (m, false, err)
          return (m, true, none)

/-! ## addNodeToCluster -/

/-- `isTLSEnabled` -/
def isTLSEnabled (member : EtcdProcessMember) : Bool :=
  (member.clientURLs ++ member.peerURLs).any (hasPrefix · "https://")

/-- A member as a node of a join request. -/
def memberNode (member : EtcdProcessMember) : EtcdNode :=
  { name := member.name
    peerUrls := member.peerURLs
    clientUrls := member.clientURLs
    quarantinedClientUrls := []
    tlsEnabled := isTLSEnabled member }

/-- The token and version of the last peer that has them. -/
def currentCluster (peers : List (PeerId × ClusterPeerInfo)) : Option (String × String) :=
  peers.reverse.findSome? fun (_, p) => do
    let st ← p.info.etcdState
    let cluster ← st.cluster
    if cluster.clusterToken = "" then none else some (cluster.clusterToken, st.etcdVersion)

/-- Start etcd on an idle peer: prepare it, add it to etcd, have it join. -/
def addPeer (clusterState : ClusterState) (peer : ClusterPeerInfo) : CtlM Progress := do
  match currentCluster (← range clusterState.peers) with
  | none => return (false, some "unable to determine cluster token")
  | some (clusterToken, etcdVersion) =>
    let members ← range clusterState.members
    match peer.info.nodeConfiguration with
    | none => .crash "invalid memory address or nil pointer dereference"
    | some nodeConfiguration =>
      let nodes := members.map (fun e => memberNode e.2) ++ [m.tlsConfigured nodeConfiguration]
      match ← ctl (.joinCluster peer.peer.id
        ⟨some (m.buildHeader l), .prepare, clusterToken, nodes, etcdVersion⟩) with
      | .error err =>
        return (false, some s!"error from JoinClusterRequest (prepare) from peer {peer.peer.id.quote}: {err}")
      | .ok () =>
        match ← clusterState.etcdAddMember nodeConfiguration with
        | .error err =>
          let _ ← ctl (.joinCluster peer.peer.id ⟨some (m.buildHeader l), .cancelPrepare, clusterToken, [], ""⟩)
          return (false, some s!"error adding peer {peer.peer.peerString.quote} to cluster: {err}")
        | .ok _ =>
          match ← ctl (.joinCluster peer.peer.id
            ⟨some (m.buildHeader l), .joinExisting, clusterToken, nodes, etcdVersion⟩) with
          | .error err => return (false, some s!"error from JoinClusterRequest from peer {peer.peer.id.quote}: {err}")
          | .ok () => return (true, none)

/-- Some configured peer has no node configuration to compare names with. -/
def missingNodeConfiguration (clusterState : ClusterState) : Bool :=
  clusterState.members.size ≠ 0 &&
    clusterState.peers.pairs.any fun (_, p) => p.configured && p.info.nodeConfiguration.isNone

/-- Start etcd on one of the idle peers, after a backup. -/
def addIdlePeer (clusterSpec : ClusterSpec) (clusterState : ClusterState) : CtlM Progress := do
  let idlePeers ← clusterState.idlePeers
  if idlePeers.length = 0 then
    return (false, none)
  if clusterState.members.size = 0 then
    m.addPeer l clusterState (idlePeers.get (← ctl (.randIntn idlePeers.length))).2
  else
    match ← m.doClusterBackup l clusterSpec clusterState with
    | .error err => return (false, some s!"failed to backup (before adding peer): {err}")
    | .ok _ => m.addPeer l clusterState (idlePeers.get (← ctl (.randIntn idlePeers.length))).2

def addNodeToCluster (clusterSpec : ClusterSpec) (clusterState : ClusterState) : CtlM Progress :=
  if (clusterState.healthyMembers.size : Int) < quorumSize clusterState.members.size then
    return (false, some "can't expand cluster - don't have quorum")
  else if missingNodeConfiguration clusterState then
    .crash "invalid memory address or nil pointer dereference"
  else m.addIdlePeer l clusterSpec clusterState

/-! ## removeNodeFromCluster -/

/-- `removeUnhealthyDeadline` -/
def removeUnhealthyDeadline : Time := minute

/-- The first unhealthy member, and for a repair one that has been unhealthy
for long enough. -/
def pickUnhealthy (clusterState : ClusterState) (removeHealthy : Bool) (now : Time) :
    List (EtcdMemberId × EtcdProcessMember) → CtlM (Option EtcdProcessMember)
  | [] => return none
  | (id, member) :: rest =>
    if (clusterState.healthyMembers.lookup id).isSome then pickUnhealthy clusterState removeHealthy now rest
    else if removeHealthy then return some member
    else
      match m.peerState.lookup id with
      | none => .crash "peerState unexpectedly nil"
      | some lastEtcdHealthy =>
        if now - lastEtcdHealthy < removeUnhealthyDeadline then
          pickUnhealthy clusterState removeHealthy now rest
        else return some member

/-- Favor an unhealthy member, if there is one. -/
def unhealthyVictim (clusterState : ClusterState) (removeHealthy : Bool) (now : Time) :
    CtlM (Option EtcdProcessMember) := do
  if clusterState.healthyMembers.size < clusterState.members.size then
    m.pickUnhealthy clusterState removeHealthy now (← range clusterState.members)
  else return none

/-- The member to remove; if a healthy one may go, any in the end. -/
def pickVictim (clusterState : ClusterState) (removeHealthy : Bool) : CtlM (Option EtcdProcessMember) := do
  let now ← ctl .now
  let victim ← m.unhealthyVictim clusterState removeHealthy now
  if victim.isSome ∨ removeHealthy = false then
    return victim
  return (← range clusterState.members).head?.map Prod.snd

def removeNodeFromCluster (clusterSpec : ClusterSpec) (clusterState : ClusterState) (removeHealthy : Bool) :
    CtlM Progress := do
  match ← m.pickVictim clusterState removeHealthy with
  | none =>
    if removeHealthy then return (false, some "unable to pick a member to remove")
    else return (false, none)
  | some victim =>
    match ← m.doClusterBackup l clusterSpec clusterState with
    | .error err => return (false, some s!"failed to backup (before adding peer): {err}")
    | .ok _ =>
      match ← clusterState.etcdRemoveMember victim with
      | some err => return (false, some s!"failed to remove member {victim.id.quote}: {err}")
      | none => return (true, none)

/-! ## reconcileTLS -/


/-- `normalize` -/
def normalize (urls : List String) : List String := urls.insertionSort (· ≤ ·)

def updatePeerURLs (peerID : PeerId) (node : EtcdNode) (etcdState : EtcdState) (setPeerURLs : List String) :
    CtlM Progress := do
  let clientURLs := if etcdState.quarantined then node.quarantinedClientUrls else node.clientUrls
  if setPeerURLs = [] then
    return (false, none)
  match ← ctl (.listMembers clientURLs) with
  | .error err => return (false, some s!"error listing members on peer {peerID.quote}: {err}")
  | .ok members =>
    match members.reverse.find? (·.name == peerID) with
    | none => return (false, some s!"peer {peerID.quote} had no member in cluster, can't reconfigure peerUrls")
    | some member =>
      match ← ctl (.setPeerURLs clientURLs member setPeerURLs) with
      | .error err => return (false, some s!"error reconfiguring peer {peerID} with peerUrls={setPeerURLs}: {err}")
      | .ok () => return (true, none)

/-- The peer URLs come first. -/
def reconcilePeerURLs (peerID : PeerId) (node : EtcdNode) (etcdState : EtcdState) (member : EtcdProcessMember) :
    CtlM Progress := do
  let expectedPeerURLs := normalize (rewriteScheme node.peerUrls "http://" "https://")
  if normalize member.peerURLs = expectedPeerURLs then return (false, none)
  else updatePeerURLs peerID node etcdState expectedPeerURLs

/-- One peer of the loop: what it comes to, if that ends the loop. -/
def reconcilePeerTLS (clusterState : ClusterState) (peerID : PeerId) (p : ClusterPeerInfo) :
    CtlM (Option Progress) := do
  match p.info.nodeConfiguration, p.info.etcdState with
  | some nodeConfiguration, some etcdState =>
    match etcdState.cluster.bind fun c => c.nodes.reverse.find? (·.name == nodeConfiguration.name) with
    | none => return none
    | some node =>
      match ← clusterState.findMember peerID with
      | none => return none
      | some member =>
        let (c, err) ← reconcilePeerURLs peerID nodeConfiguration etcdState member
        if c ∨ err.isSome then
          return some (c, err)
        if node.tlsEnabled then
          return none
        let request : ReconfigureRequest := ⟨some (m.buildHeader l), "", etcdState.quarantined, true⟩
        match ← ctl (.reconfigure p.peer.id request) with
        | .error err =>
          return some (false, some s!"error reconfiguring peer {peerID} with {request.text}: {err}")
        | .ok () => return some (true, none)
  | _, _ => return none

def reconcilePeersTLS (clusterState : ClusterState) : List (PeerId × ClusterPeerInfo) → CtlM Progress
  | [] => return (false, none)
  | (peerID, p) :: rest => do
    match ← m.reconcilePeerTLS l clusterState peerID p with
    | some r => return r
    | none => reconcilePeersTLS clusterState rest

def reconcileTLS (clusterState : ClusterState) : CtlM Progress := do
  if m.disableEtcdTLS then
    return (false, none)
  m.reconcilePeersTLS l clusterState (← range clusterState.peers)

/-! ## Upgrades -/

/-- The peer of each member: the last whose node has its name. -/
def mapMembers (clusterState : ClusterState) : List (EtcdMemberId × EtcdProcessMember) → GoMap ClusterPeerInfo →
    CtlM (Except Error (GoMap ClusterPeerInfo))
  | [], memberToPeer => return .ok memberToPeer
  | (memberId, member) :: rest, memberToPeer => do
    let peers ← range clusterState.peers
    match peers.reverse.find? fun (_, p) => p.info.nodeConfiguration.any (·.name == member.name) with
    | none => return .error s!"unable to find peer for {member.name.quote}"
    | some (_, p) => mapMembers clusterState rest (memberToPeer.insert memberId p)

def prepareForUpgrade (clusterSpec : ClusterSpec) (clusterState : ClusterState) :
    CtlM (Except Error (GoMap ClusterPeerInfo)) := do
  match ← mapMembers clusterState (← range clusterState.members) ∅ with
  | .error err => return .error err
  | .ok memberToPeer =>
    if clusterState.healthyMembers.size ≠ clusterState.members.size then
      return .error "cannot upgrade/downgrade cluster when not all members are healthy"
    if (clusterState.members.size : Int) ≠ clusterSpec.memberCount then
      return .error "cannot upgrade/downgrade cluster when cluster is not at full member count"
    return .ok memberToPeer

/-- The wait for the restore command to be visible. -/
def waitForCommand : Nat → EtcdController → CtlM (EtcdController × Option Error)
  | 0, _ => .crash "waiting for restore-backup command to be visible"
  | n + 1, m => do
    let (m, err) ← m.refreshControlStore 0
    if let some err := err then
      return (m, some s!"error refreshing commands: {err}")
    if m.getRestoreBackupCommand.isSome then
      return (m, none)
    ctl (.sleep (5 * second))
    waitForCommand n m

/-- Stop the whole cluster. -/
def stopMembers (memberToPeer : GoMap ClusterPeerInfo) : List (EtcdMemberId × EtcdProcessMember) →
    CtlM (Option Error)
  | [] => return none
  | (memberId, _) :: rest => do
    match memberToPeer.lookup memberId with
    | none => .crash "peer unexpectedly not found - logic error"
    | some peer =>
      match ← ctl (.stopEtcd peer.peer.id ⟨some (m.buildHeader l)⟩) with
      | .error err => return some s!"error stopping etcd peer {peer.peer.id.quote}: {err}"
      | .ok () => stopMembers memberToPeer rest

def stopForUpgrade (clusterSpec : ClusterSpec) (clusterState : ClusterState) : CtlM (EtcdController × Progress) := do
  match ← prepareForUpgrade clusterSpec clusterState with
  | .error err => return (m, false, some err)
  | .ok memberToPeer =>
    match ← m.doClusterBackup l clusterSpec clusterState with
    | .error err => return (m, false, some s!"error doing backup before upgrade/downgrade: {err}")
    | .ok _ =>
      let (_, err) ← m.updateQuarantine l clusterState true
      if err.isSome then
        return (m, false, err)
      match ← m.doClusterBackup l clusterSpec clusterState with
      | .error err => return (m, false, some err)
      | .ok backupResponse =>
        match ← ctl (.addCommand ⟨0, some ⟨some clusterSpec, backupResponse.name⟩⟩) with
        | .error err => return (m, false, some s!"error adding restore command: {err}")
        | .ok () =>
          let (m, err) ← waitForCommand m.maxPolls m
          if err.isSome then
            return (m, false, err)
          if let some err ← m.stopMembers l memberToPeer (← range clusterState.members) then
            return (m, false, some err)
          return (m, true, none)

/-- What `upgradeInPlace` checks of every member first. -/
def checkUpgradable (memberToPeer : GoMap ClusterPeerInfo) : List (EtcdMemberId × EtcdProcessMember) →
    CtlM (Option Error)
  | [] => return none
  | (memberId, _) :: rest => do
    match memberToPeer.lookup memberId with
    | none => .crash "peer unexpectedly not found - logic error"
    | some p =>
      if p.info.etcdState.isNone then
        return some s!"cannot upgrade; insufficient info for peer {p.peer.id.quote}"
      checkUpgradable memberToPeer rest

/-- The first member of another version is upgraded; one a cycle. -/
def upgradeOne (clusterSpec : ClusterSpec) (memberToPeer : GoMap ClusterPeerInfo) :
    List (EtcdMemberId × EtcdProcessMember) → CtlM Progress
  | [] => return (false, none)
  | (memberId, _) :: rest => do
    match memberToPeer.lookup memberId with
    | none => .crash "peer unexpectedly not found - logic error"
    | some peer =>
      match peer.info.etcdState with
      | none => .crash "invalid memory address or nil pointer dereference"
      | some etcdState =>
        if etcdState.etcdVersion = clusterSpec.etcdVersion then
          upgradeOne clusterSpec memberToPeer rest
        else
          match ← ctl (.reconfigure peer.peer.id
            ⟨some (m.buildHeader l), clusterSpec.etcdVersion, etcdState.quarantined, false⟩) with
          | .error err => return (false, some s!"error reconfiguring etcd peer {peer.peer.id.quote}: {err}")
          | .ok () => return (true, none)

def upgradeInPlace (clusterSpec : ClusterSpec) (clusterState : ClusterState) : CtlM Progress := do
  match ← prepareForUpgrade clusterSpec clusterState with
  | .error err => return (false, some err)
  | .ok memberToPeer =>
    if let some err ← checkUpgradable memberToPeer (← range clusterState.members) then
      return (false, some err)
    match ← m.doClusterBackup l clusterSpec clusterState with
    | .error err => return (false, some err)
    | .ok _ => m.upgradeOne l clusterSpec memberToPeer (← range clusterState.members)

end EtcdController

end Etcdadm
