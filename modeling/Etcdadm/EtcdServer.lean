/-
`EtcdServer`: the service each manager offers to the leader, and the loop
that keeps etcd running (`etcdserver.go`, `DoRestore` of `restore.go`).

A handler runs under the server's mutex, so it is one program from the
server's fields to their new values and a reply. Its requests are what it
asks of the machine: the clock, the state file, certificates, the etcd
binary. Any of them can fail, and the manager can be killed at any of them.
Go's in-place updates of `s.state` become a new record, so what a handler has
changed before it fails is in the record it returns. A nil dereference is
`crash nilDeref`; the gRPC server does not recover from it.
-/
import Etcdadm.Gossip
import Etcdadm.Prog

namespace Etcdadm

/-- `etcdProcess`: a started etcd, by what it was started with. -/
structure EtcdProcess where
  binDir : String
  dataDir : String
  etcdVersion : String
  createNewCluster : Bool
  cluster : EtcdCluster
  myNodeName : String
  quarantined : Bool
  disableTLS : Bool
  listenAddress : String
  listenMetricsURLs : List String
  deriving DecidableEq, Repr

/-- The last node of the process's own name. -/
def EtcdProcess.findMyNode (p : EtcdProcess) : Option EtcdNode :=
  p.cluster.nodes.reverse.find? (·.name == p.myNodeName)

/-- `preparedState` -/
structure PreparedState where
  validUntil : Time
  clusterToken : String
  deriving DecidableEq, Repr

/-- `PreparedValidity` -/
def preparedValidity : Time := minute

/-- The file `state` in the base directory. Proto encoding loses nothing of
an `EtcdState`, so the file holds the message itself; `garbage` is what a
failed write can leave behind. -/
inductive StateFile where
  | missing
  | holds (state : EtcdState)
  | garbage
  deriving DecidableEq, Repr

structure EtcdServer where
  baseDir : String
  clusterName : String
  etcdNodeConfiguration : EtcdNode
  peerServer : Server
  state : Option EtcdState
  prepared : Option PreparedState
  process : Option EtcdProcess
  listenAddress : String
  listenMetricsURLs : List String

/-! ## What a handler asks of the machine -/

inductive SysReq where
  /-- `time.Now()` -/
  | now
  /-- `BindirForEtcdVersion`: is there a binary for the version? -/
  | bindirForEtcdVersion (etcdVersion cmd : String)
  /-- `readState` -/
  | readState
  /-- `writeState` -/
  | writeState (state : EtcdState)
  /-- `legacy.ImportExistingEtcd` -/
  | importExistingEtcd
  /-- `etcdProcess.createKeypairs` -/
  | createKeypairs (pkiDir : String) (me : EtcdNode)
  /-- `etcdProcess.Start` -/
  | start (p : EtcdProcess)
  /-- `etcdProcess.ExitState`: has it exited? -/
  | exitState (p : EtcdProcess)
  /-- `etcdProcess.Stop` -/
  | stop (p : EtcdProcess)
  | mkdirAll (dir : String)
  | rename (oldpath newpath : String)
  /-- `backup.NewStore` -/
  | newStore (storage : String)
  | doBackupV3 (storage : String) (info : BackupInfo) (clientUrls : List String)
  | runEtcdFromBackup (storage backupName basedir : String)
  /-- `etcdProcess.NewClient` -/
  | newClient (p : EtcdProcess)
  | copyEtcd

/-- A failed `writeState` answers with the error and what it left on disk. -/
@[reducible] def SysReq.Resp : SysReq → Type
  | .now => Time
  | .bindirForEtcdVersion _ _ => Except Error String
  | .readState => Except Error (Option EtcdState)
  | .writeState _ => Except (Error × StateFile) Unit
  | .importExistingEtcd => Except Error (Option EtcdState)
  | .exitState _ => Bool
  | .doBackupV3 _ _ _ => Except Error DoBackupResponse
  | .createKeypairs _ _ | .start _ | .stop _ | .mkdirAll _ | .rename _ _ | .newStore _
  | .runEtcdFromBackup _ _ _ | .newClient _ | .copyEtcd => Except Error Unit

@[reducible] def sysSig : Sig := ⟨SysReq, SysReq.Resp⟩

/-- A program of the server. -/
abbrev SysM := Prog sysSig

def sys (r : SysReq) : SysM r.Resp := .call (S := sysSig) r .ret

/-- What the runtime says of a nil dereference. -/
def nilDeref : String := "invalid memory address or nil pointer dereference"

namespace EtcdServer

/-! ## The etcd process -/

/-- `validateHeader`: `none` when the request is from the current leader. -/
def validateHeader (s : EtcdServer) : Option CommonRequestHeader → SysM (Option Error)
  | none => .crash nilDeref
  | some header => do
    if header.clusterName ≠ s.clusterName then
      return some "ClusterName mismatch"
    if !s.peerServer.isLeader header.leadershipToken then
      return some s!"LeadershipToken in request {header.leadershipToken.quote} is not current leader"
    return none

/-- The loop of `findSelfNode`, `meNode` being what it has found so far. -/
def selfNode (name : String) : List EtcdNode → Option EtcdNode → Except Error (Option EtcdNode)
  | [], meNode => .ok meNode
  | node :: nodes, meNode =>
    if node.name = name then
      if meNode.isSome then .error s!"multiple nodes matching local name {name} included in cluster"
      else selfNode name nodes (some node)
    else selfNode name nodes meNode

def findSelfNode (s : EtcdServer) (state : EtcdState) : SysM (Except Error (Option EtcdNode)) :=
  match state.cluster with
  | none => .crash nilDeref
  | some cluster => return selfNode s.etcdNodeConfiguration.name cluster.nodes none

/-- An update through the pointer `findSelfNode` returns. -/
def updateSelf (s : EtcdServer) (f : EtcdNode → EtcdNode) (nodes : List EtcdNode) : List EtcdNode :=
  nodes.map fun node => if node.name = s.etcdNodeConfiguration.name then f node else node

/-- The node as configured locally: its own URLs override those in the state. -/
def overrideUrls (s : EtcdServer) (meNode : EtcdNode) : EtcdNode :=
  { meNode with
    clientUrls := s.etcdNodeConfiguration.clientUrls
    quarantinedClientUrls := s.etcdNodeConfiguration.quarantinedClientUrls }

/-- `filepath.Join` of clean elements -/
def joinPath (elems : List String) : String := "/".intercalate (elems.filter (· ≠ ""))

/-- The process `startEtcdProcess` builds from a state and the cluster in it. -/
def processFor (s : EtcdServer) (state : EtcdState) (cluster : EtcdCluster) (meNode : EtcdNode)
    (binDir : String) : EtcdProcess :=
  { binDir := binDir
    dataDir := joinPath [s.baseDir, "data", cluster.clusterToken]
    etcdVersion := state.etcdVersion
    createNewCluster := state.newCluster
    cluster := ⟨0, cluster.clusterToken, s.updateSelf s.overrideUrls cluster.nodes⟩
    myNodeName := s.etcdNodeConfiguration.name
    quarantined := state.quarantined
    disableTLS := !meNode.tlsEnabled
    listenAddress := s.listenAddress
    listenMetricsURLs := s.listenMetricsURLs }

def startEtcdProcess (s : EtcdServer) (state : EtcdState) : SysM (EtcdServer × Option Error) :=
  match state.cluster with
  | none => return (s, some "cluster not configured, cannot start etcd")
  | some cluster => do
    if cluster.clusterToken = "" then
      return (s, some "ClusterToken not configured, cannot start etcd")
    match ← s.findSelfNode state with
    | .error err => return (s, some err)
    | .ok none => return (s, some "self node was not included in cluster")
    | .ok (some meNode) =>
      match ← sys (.createKeypairs (joinPath [s.baseDir, "pki", cluster.clusterToken]) (s.overrideUrls meNode)) with
      | .error err => return (s, some err)
      | .ok () =>
        match ← sys (.bindirForEtcdVersion state.etcdVersion "etcd") with
        | .error err => return (s, some err)
        | .ok binDir =>
          let p := s.processFor state cluster meNode binDir
          match ← sys (.start p) with
          | .error err => return (s, some s!"error starting etcd: {err}")
          | .ok () => return ({ s with process := some p }, none)

def stopEtcdProcess (s : EtcdServer) : SysM (EtcdServer × Option Error) :=
  match s.process with
  | none => return (s, none)
  | some p => do
    match ← sys (.stop p) with
    | .error err => return (s, some s!"error killing etcd: {err}")
    | .ok () => return ({ s with process := none }, none)

/-! ## Start-up and the background loop -/

def initState (s : EtcdServer) : SysM (EtcdServer × Option Error) :=
  match s.state with
  | some _ => return (s, none)
  | none => do
    match ← sys .readState with
    | .error err => return (s, some err)
    | .ok state => return ({ s with state := state }, none)

/-- `NewEtcdServer`, on fields that hold the configuration only. -/
def newEtcdServer (s : EtcdServer) : SysM (Except Error EtcdServer) := do
  let (s, err) ← s.initState
  if let some err := err then
    return .error err
  if s.state.isSome then
    return .ok s
  match ← sys .importExistingEtcd with
  | .error err => return .error err
  | .ok none => return .ok s
  | .ok (some state) =>
    match ← sys (.writeState state) with
    | .error (err, _) => return .error err
    | .ok () => return .ok { s with state := some state }

/-- The first half of `runOnce`: forget a process that has exited. -/
def checkProcess (s : EtcdServer) : SysM EtcdServer :=
  match s.process with
  | none => return s
  | some p => do
    if ← sys (.exitState p) then
      return { s with process := none }
    return s

def runOnce (s : EtcdServer) : SysM (EtcdServer × Option Error) := do
  let (s, err) ← s.initState
  if err.isSome then
    return (s, err)
  let s ← s.checkProcess
  match s.state, s.process with
  | some state, none => if state.cluster.isSome then s.startEtcdProcess state else return (s, none)
  | _, _ => return (s, none)

/-! ## Handlers -/

def getInfo (s : EtcdServer) : GetInfoResponse :=
  { clusterName := s.clusterName
    nodeConfiguration := some s.etcdNodeConfiguration
    etcdState := s.state.filter (·.cluster.isSome) }

/-- `PHASE_CANCEL_PREPARE` -/
def cancelPrepare (s : EtcdServer) (request : JoinClusterRequest) : EtcdServer × Except Error Unit :=
  match s.prepared with
  | none => (s, .ok ())
  | some p =>
    if p.clusterToken = request.clusterToken then ({ s with prepared := none }, .ok ())
    else (s, .error s!"concurrent prepare in progress {p.clusterToken.quote}")

/-- A preparation past its time is dropped before anything else is looked at. -/
def expirePrepared (s : EtcdServer) : SysM EtcdServer :=
  match s.prepared with
  | none => return s
  | some p => do
    if (← sys .now) > p.validUntil then
      return { s with prepared := none }
    return s

/-- `PHASE_PREPARE` -/
def prepare (s : EtcdServer) (request : JoinClusterRequest) : SysM (EtcdServer × Except Error Unit) :=
  if s.process.isSome then return (s, .error "etcd process already running")
  else
    match s.prepared with
    | some p => return (s, .error s!"concurrent prepare in progress {p.clusterToken.quote}")
    | none => do
      let now ← sys .now
      return ({ s with prepared := some ⟨now + preparedValidity, request.clusterToken⟩ }, .ok ())

/-- What both joining phases check first. -/
def checkPrepared (s : EtcdServer) (request : JoinClusterRequest) : Option Error :=
  if s.process.isSome then some "etcd process already running"
  else
    match s.prepared with
    | none => some "not prepared"
    | some p =>
      if p.clusterToken ≠ request.clusterToken then
        some s!"clusterToken {request.clusterToken.quote} does not match prepared {p.clusterToken.quote}"
      else none

/-- The state a joining phase writes, over whatever was there. -/
def joinedState (request : JoinClusterRequest) (newCluster quarantined : Bool) : EtcdState :=
  ⟨newCluster, some ⟨0, request.clusterToken, request.nodes⟩, request.etcdVersion, quarantined⟩

/-- `PHASE_INITIAL_CLUSTER` -/
def initialCluster (s : EtcdServer) (request : JoinClusterRequest) : SysM (EtcdServer × Except Error Unit) := do
  if let some err := s.checkPrepared request then
    return (s, .error err)
  let s := { s with state := some (joinedState request true true) }
  match ← sys (.writeState (joinedState request true true)) with
  | .error (err, _) => return (s, .error err)
  | .ok () =>
    let (s, err) ← s.startEtcdProcess (joinedState request true true)
    if let some err := err then
      return (s, .error err)
    let s := { s with state := some (joinedState request false true) }
    match ← sys (.writeState (joinedState request false true)) with
    | .error (err, _) => return (s, .error err)
    | .ok () => return ({ s with prepared := none }, .ok ())

/-- `PHASE_JOIN_EXISTING` -/
def joinExisting (s : EtcdServer) (request : JoinClusterRequest) : SysM (EtcdServer × Except Error Unit) := do
  if let some err := s.checkPrepared request then
    return (s, .error err)
  let s := { s with state := some (joinedState request false false) }
  match ← sys (.writeState (joinedState request false false)) with
  | .error (err, _) => return (s, .error err)
  | .ok () =>
    let (s, err) ← s.startEtcdProcess (joinedState request false false)
    if let some err := err then
      return (s, .error err)
    return ({ s with prepared := none }, .ok ())

def joinCluster (s : EtcdServer) (request : JoinClusterRequest) : SysM (EtcdServer × Except Error Unit) := do
  if let some err ← s.validateHeader request.header then
    return (s, .error err)
  if request.phase = .cancelPrepare then
    return s.cancelPrepare request
  let s ← s.expirePrepared
  match ← sys (.bindirForEtcdVersion request.etcdVersion "etcd") with
  | .error _ => return (s, .error s!"etcd version {request.etcdVersion.quote} not supported")
  | .ok _ =>
    match request.phase with
    | .prepare => s.prepare request
    | .initialCluster => s.initialCluster request
    | .joinExisting => s.joinExisting request
    | phase => return (s, .error s!"unknown status {phase.toString}")

/-- What `EnableTls` does to the node's own entry. -/
def enableTls (node : EtcdNode) : EtcdNode :=
  { node with
    tlsEnabled := true
    peerUrls := rewriteScheme node.peerUrls "http://" "https://"
    clientUrls := rewriteScheme node.clientUrls "http://" "https://" }

/-- The state `Reconfigure` moves to; `meNode` is changed in place in it. -/
def reconfiguredState (s : EtcdServer) (state : EtcdState) (request : ReconfigureRequest) : EtcdState :=
  { state with
    etcdVersion := if request.setEtcdVersion ≠ "" then request.setEtcdVersion else state.etcdVersion
    quarantined := request.quarantined
    cluster := state.cluster.map fun cluster =>
      if request.enableTls then { cluster with nodes := s.updateSelf enableTls cluster.nodes } else cluster }

/-- `SetEtcdVersion` is checked only when it is given. -/
def checkSetEtcdVersion (request : ReconfigureRequest) : SysM (Option Error) := do
  if request.setEtcdVersion = "" then
    return none
  match ← sys (.bindirForEtcdVersion request.setEtcdVersion "etcd") with
  | .error _ => return some s!"etcd version {request.setEtcdVersion.quote} not supported"
  | .ok _ => return none

def reconfigure (s : EtcdServer) (request : ReconfigureRequest) : SysM (EtcdServer × Except Error Unit) := do
  if let some err ← s.validateHeader request.header then
    return (s, .error err)
  match s.state with
  | none => return (s, .error "cluster not running")
  | some state =>
    match ← s.findSelfNode state with
    | .error err => return (s, .error err)
    | .ok none => return (s, .error "could not find self node in cluster: <nil>")
    | .ok (some _) =>
      if let some err ← checkSetEtcdVersion request then
        return (s, .error err)
      let state := s.reconfiguredState state request
      let (s, err) ← s.stopEtcdProcess
      if let some err := err then
        return (s, .error s!"error stoppping etcd process: {err}")
      let s := { s with state := some state }
      match ← sys (.writeState state) with
      | .error (err, _) => return (s, .error err)
      | .ok () =>
        let (s, err) ← s.startEtcdProcess state
        if let some err := err then
          return (s, .error err)
        return (s, .ok ())

/-- The data directory goes to the trashcan; failures are only logged. -/
def archiveDataDir (s : EtcdServer) (clusterToken : String) : SysM Unit := do
  let trashcanDir := joinPath [s.baseDir, "data-trashcan"]
  let _ ← sys (.mkdirAll trashcanDir)
  let _ ← sys (.rename (joinPath [s.baseDir, "data", clusterToken]) (joinPath [trashcanDir, clusterToken]))
  return ()

def stopEtcd (s : EtcdServer) (request : StopEtcdRequest) : SysM (EtcdServer × Except Error Unit) := do
  if let some err ← s.validateHeader request.header then
    return (s, .error err)
  match s.state with
  | none => return (s, .error "cluster not running")
  | some state =>
    match state.cluster with
    | none => .crash nilDeref
    | some cluster =>
      let (s, err) ← s.stopEtcdProcess
      if let some err := err then
        return (s, .error s!"error stoppping etcd process: {err}")
      let s := { s with state := some .empty }
      match ← sys (.writeState .empty) with
      | .error (err, _) => return (s, .error err)
      | .ok () =>
        s.archiveDataDir cluster.clusterToken
        return (s, .ok ())

def doBackup (s : EtcdServer) (request : DoBackupRequest) : SysM (Except Error DoBackupResponse) := do
  if let some err ← s.validateHeader request.header then
    return .error err
  match s.process with
  | none => return .error "etcd not running"
  | some p =>
    if request.storage = "" then
      return .error "request Storage is required"
    match request.info with
    | none => return .error "request Info is required"
    | some info =>
      match ← sys (.newStore request.storage) with
      | .error err => return .error err
      | .ok () =>
        match p.findMyNode with
        | none => return .error s!"unable to find self node {p.myNodeName.quote}"
        | some me =>
          if p.etcdVersion = "" then
            return .error "EtcdVersion not set"
          sys (.doBackupV3 request.storage { info with etcdVersion := p.etcdVersion }
            (if p.quarantined then me.quarantinedClientUrls else me.clientUrls))

def doRestore (s : EtcdServer) (request : DoRestoreRequest) : SysM (Except Error Unit) := do
  if let some err ← s.validateHeader request.header then
    return .error err
  match s.process with
  | none => return .error "etcd not running"
  | some p =>
    if request.storage = "" then
      return .error "request Storage is required"
    if request.backupName = "" then
      return .error "request BackupName is required"
    match ← sys (.newStore request.storage) with
    | .error err => return .error err
    | .ok () =>
      let now ← sys .now
      let tempDir := joinPath ["/tmp", "restore-etcd-" ++ now.repr]
      match ← sys (.mkdirAll tempDir) with
      | .error err => return .error s!"error creating tempdir {tempDir.quote}: {err}"
      | .ok () =>
        match ← sys (.runEtcdFromBackup request.storage request.backupName tempDir) with
        | .error err => return .error err
        | .ok () =>
          match ← sys (.newClient p) with
          | .error err => return .error s!"error building etcd client for target: {err}"
          | .ok () => sys .copyEtcd

end EtcdServer

end Etcdadm
