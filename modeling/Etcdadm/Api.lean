/-
The messages of `etcdapi.proto` and `cluster.proto`, as the handlers and the
controller see them after decoding. A sub-message is an `Option`: `none` is
an absent field, a nil pointer on the Go side. Scalars and repeated fields
have no presence in proto3, so an absent one is its zero value.

Left out: fields no modelled function reads (`JoinClusterRequest.add_node`,
`DoBackupRequest.allow_offline_backup`).
-/
import Mathlib

namespace Etcdadm

/-- An error value: its text. -/
abbrev Error := String

/-- Nanoseconds; `0` is Go's zero time, before every reading of a clock. -/
abbrev Time := Int

abbrev PeerId := String
abbrev EtcdMemberId := String

def second : Time := 1000000000
def minute : Time := 60 * second

/-! ## Strings -/

/-- `strings.HasPrefix` -/
def hasPrefix (s p : String) : Bool := p.toList.isPrefixOf s.toList

/-- `strings.TrimPrefix` -/
def trimPrefix (s p : String) : String :=
  if hasPrefix s p then String.ofList (s.toList.drop p.length) else s

/-- `urls.RewriteScheme` -/
def rewriteScheme (urls : List String) (findPrefix newPrefix : String) : List String :=
  urls.map fun s => if hasPrefix s findPrefix then newPrefix ++ trimPrefix s findPrefix else s

/-! ## etcdapi.proto -/

structure ClusterSpec where
  memberCount : Int
  etcdVersion : String
  deriving DecidableEq, Repr, Inhabited

structure RestoreBackupCommand where
  clusterSpec : Option ClusterSpec
  backup : String
  deriving DecidableEq, Repr

structure Command where
  timestamp : Int
  restoreBackup : Option RestoreBackupCommand
  deriving DecidableEq, Repr

/-- Proto3 enums are open: a value without a name is kept as its number. -/
inductive Phase where
  | unknown
  | prepare
  | initialCluster
  | joinExisting
  | cancelPrepare
  | unrecognized (n : Int)
  deriving DecidableEq, Repr

/-- `Phase.String()` -/
def Phase.toString : Phase → String
  | .unknown => "PHASE_UNKNOWN"
  | .prepare => "PHASE_PREPARE"
  | .initialCluster => "PHASE_INITIAL_CLUSTER"
  | .joinExisting => "PHASE_JOIN_EXISTING"
  | .cancelPrepare => "PHASE_CANCEL_PREPARE"
  | .unrecognized n => n.repr

structure EtcdNode where
  name : String
  peerUrls : List String
  clientUrls : List String
  quarantinedClientUrls : List String
  tlsEnabled : Bool
  deriving DecidableEq, Repr, Inhabited

structure EtcdCluster where
  desiredClusterSize : Int
  clusterToken : String
  nodes : List EtcdNode
  deriving DecidableEq, Repr

structure EtcdState where
  newCluster : Bool
  cluster : Option EtcdCluster
  etcdVersion : String
  quarantined : Bool
  deriving DecidableEq, Repr

/-- `&EtcdState{}` -/
def EtcdState.empty : EtcdState := ⟨false, none, "", false⟩

structure CommonRequestHeader where
  leadershipToken : String
  clusterName : String
  deriving DecidableEq, Repr

structure GetInfoResponse where
  clusterName : String
  nodeConfiguration : Option EtcdNode
  etcdState : Option EtcdState
  deriving DecidableEq, Repr

structure MemberMapInfo where
  name : String
  dns : String
  addresses : List String
  deriving DecidableEq, Repr

structure MemberMap where
  members : List MemberMapInfo
  deriving DecidableEq, Repr

structure BackupInfo where
  etcdVersion : String
  timestamp : Int
  clusterSpec : Option ClusterSpec
  deriving DecidableEq, Repr

structure DoBackupRequest where
  header : Option CommonRequestHeader
  storage : String
  info : Option BackupInfo
  deriving DecidableEq, Repr

structure DoBackupResponse where
  name : String
  deriving DecidableEq, Repr

structure DoRestoreRequest where
  header : Option CommonRequestHeader
  storage : String
  backupName : String
  deriving DecidableEq, Repr

structure StopEtcdRequest where
  header : Option CommonRequestHeader
  deriving DecidableEq, Repr

structure JoinClusterRequest where
  header : Option CommonRequestHeader
  phase : Phase
  clusterToken : String
  nodes : List EtcdNode
  etcdVersion : String
  deriving DecidableEq, Repr

structure ReconfigureRequest where
  header : Option CommonRequestHeader
  setEtcdVersion : String
  quarantined : Bool
  enableTls : Bool
  deriving DecidableEq, Repr

/-- `String()` of a request -/
def ReconfigureRequest.text (r : ReconfigureRequest) : String :=
  " ".intercalate <| (r.header.toList.map fun h =>
      s!"header:<leadership_token:{h.leadershipToken.quote} cluster_name:{h.clusterName.quote} >") ++
    (if r.setEtcdVersion = "" then [] else [s!"set_etcd_version:{r.setEtcdVersion.quote}"]) ++
    (if r.quarantined then ["quarantined:true"] else []) ++ if r.enableTls then ["enable_tls:true"] else []

/-! ## cluster.proto -/

structure PeerInfo where
  id : String
  endpoints : List String
  deriving DecidableEq, Repr

structure View where
  leader : Option PeerInfo
  leadershipToken : String
  healthy : List PeerInfo
  deriving DecidableEq, Repr

structure LeaderNotificationRequest where
  view : Option View
  deriving DecidableEq, Repr

structure LeaderNotificationResponse where
  accepted : Bool
  view : Option View
  deriving DecidableEq, Repr

end Etcdadm
