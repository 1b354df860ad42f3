/-
The configuration of `etcdadm` and its defaults (`apis/config.go`).

The flags give a name, directories and a bind address. The rest is derived from them
before anything is done: the URLs of the member, the paths of its files, and the names
its certificates are made for. Directories are taken as absolute and cleaned paths.
-/
import Etcdadm.Host
import Etcdadm.EnvironmentFile

namespace Etcdadm.Adm

/-! ## URLs -/

/-- `url.URL`, as far as `etcdadm` fills it -/
structure URL where
  scheme : String
  host : String
deriving DecidableEq

/-- `URL.String` -/
def URL.text (u : URL) : String := s!"{u.scheme}://{u.host}"

/-- The host without its port, if what comes after the last colon can be one. -/
def withoutPort (host : List Char) : List Char :=
  let port := host.reverse.takeWhile (· ≠ ':')
  if ':' ∈ host ∧ port.all Char.isDigit then (host.reverse.drop (port.length + 1)).reverse else host

def withoutBrackets (host : List Char) : List Char :=
  if host.head? = some '[' ∧ host.getLast? = some ']' then host.tail.dropLast else host

def URL.hostname (u : URL) : String := String.ofList (withoutBrackets (withoutPort u.host.toList))

/-! ## The configuration -/

/-- `filepath.Join` of an absolute directory and a name, as text -/
def filePath (p : VfsPath) : String := "/" ++ p.text

/-- `EtcdAdmConfig`, without what only `etcdadm download` and the pod of the kubelet read -/
structure EtcdAdmConfig where
  version : String
  releaseURL : String
  certificatesDir : VfsPath
  peerCertFile : VfsPath
  peerKeyFile : VfsPath
  peerTrustedCAFile : VfsPath
  certFile : VfsPath
  keyFile : VfsPath
  trustedCAFile : VfsPath
  etcdctlCertFile : VfsPath
  etcdctlKeyFile : VfsPath
  dataDir : VfsPath
  installDir : VfsPath
  cacheDir : VfsPath
  podSpecDir : VfsPath
  bindAddr : String
  unitFile : VfsPath
  environmentFile : VfsPath
  etcdExecutable : VfsPath
  etcdctlExecutable : VfsPath
  etcdctlEnvFile : VfsPath
  etcdctlShellWrapper : VfsPath
  etcdDiskPriorities : List String
  initialAdvertisePeerURLs : List URL
  listenPeerURLs : List URL
  advertiseClientURLs : List URL
  listenClientURLs : List URL
  listenMetricsURLs : List URL
  loopbackClientURL : URL
  serverCertSANs : List String
  peerCertSANs : List String
  name : String
  initialCluster : String
  initialClusterToken : String
  initialClusterState : String
  gomaxprocs : Int
  snapshot : String
  retry : Bool
  initSystem : String
  logger : String
  logOutputs : String
  enableV2 : String
  endpoint : String

/-- What the template of the environment file reads. -/
def EtcdAdmConfig.environment (cfg : EtcdAdmConfig) : Environment.EtcdAdmConfig where
  peerCertFile := filePath cfg.peerCertFile
  peerKeyFile := filePath cfg.peerKeyFile
  peerTrustedCAFile := filePath cfg.peerTrustedCAFile
  certFile := filePath cfg.certFile
  keyFile := filePath cfg.keyFile
  trustedCAFile := filePath cfg.trustedCAFile
  dataDir := filePath cfg.dataDir
  initialAdvertisePeerURLs := cfg.initialAdvertisePeerURLs.map URL.text
  listenPeerURLs := cfg.listenPeerURLs.map URL.text
  advertiseClientURLs := cfg.advertiseClientURLs.map URL.text
  listenClientURLs := cfg.listenClientURLs.map URL.text
  listenMetricsURLs := cfg.listenMetricsURLs.map URL.text
  name := cfg.name
  initialCluster := cfg.initialCluster
  initialClusterToken := cfg.initialClusterToken
  initialClusterState := cfg.initialClusterState
  gomaxprocs := cfg.gomaxprocs
  logger := cfg.logger
  logOutputs := cfg.logOutputs
  enableV2 := cfg.enableV2

/-! ## Defaults -/

def defaultPeerPort : Nat := 2380
def defaultClientPort : Nat := 2379

variable {Key Pub : Type}

/-- `parseIP` gives the text of the address. -/
def ensureValidExternalAddress (parseIP : String → Option String) (userAddr : String) : HostM Key Pub (Except Error String) := do
  if userAddr = "" ∨ userAddr = "0.0.0.0" then
    match ← host .resolveBindAddress with
    | .error err => return .error s!"failed to find a default external address: {err}"
    | .ok ip => return .ok ip
  else
    match parseIP userAddr with
    | none => return .error s!"invalid bind address \"{userAddr}\": invalid ip format"
    | some ip =>
      match ← host .interfaceAddrs with
      | .error err => return .error s!"unable to list system unicast addresses to validate bind address: {err}"
      | .ok systemAddrs =>
        if ip ∈ systemAddrs then return .ok ip
        return .error s!"invalid bind address {userAddr}: not found in system interfaces"

def httpsURL (externalAddress : String) (port : Nat) : URL := ⟨"https", s!"{externalAddress}:{port}"⟩

def defaultPeerURLs (parseIP : String → Option String) (cfg : EtcdAdmConfig) : HostM Key Pub (Except Error EtcdAdmConfig) := do
  match ← ensureValidExternalAddress parseIP cfg.bindAddr with
  | .error err => return .error s!"failed to set default InitialAdvertisePeerURLs: {err}"
  | .ok externalAddress =>
    let urls := cfg.initialAdvertisePeerURLs ++ [httpsURL externalAddress defaultPeerPort]
    return .ok { cfg with initialAdvertisePeerURLs := urls, listenPeerURLs := urls }

/-- The error of `DefaultAdvertiseClientURLs` is dropped. -/
def defaultClientURLs (parseIP : String → Option String) (cfg : EtcdAdmConfig) : HostM Key Pub EtcdAdmConfig := do
  let loopback := httpsURL "127.0.0.1" defaultClientPort
  let urls ← match ← ensureValidExternalAddress parseIP cfg.bindAddr with
    | .error _ => pure cfg.advertiseClientURLs
    | .ok externalAddress => pure (cfg.advertiseClientURLs ++ [httpsURL externalAddress defaultClientPort])
  return { cfg with loopbackClientURL := loopback, advertiseClientURLs := urls, listenClientURLs := urls ++ [loopback] }

/-- `DefaultServerCertSANs` and `DefaultPeerCertSANs`: the names that were there, the name
of the member, and each host of the URLs once. -/
def defaultCertSANs (sans : List String) (name : String) (urls : List URL) : HostM Key Pub (List String) := do
  let uniqueSANs ← host (.rangeOver (urls.map URL.hostname).dedup)
  return sans ++ name :: uniqueSANs.1

def setDefaults (cfg : EtcdAdmConfig) : EtcdAdmConfig :=
  { cfg with
    unitFile := ["etc", "systemd", "system", "etcd.service"]
    environmentFile := ["etc", "etcd", "etcd.env"]
    etcdctlEnvFile := ["etc", "etcd", "etcdctl.env"] }

def setDynamicDefaults (parseIP : String → Option String) (cfg : EtcdAdmConfig) : HostM Key Pub (Except Error EtcdAdmConfig) := do
  let named ← (if cfg.name = "" then do
      match ← host .hostname with
      | .error err => return .error s!"unable to use hostname as default name: {err}"
      | .ok name => return .ok name
    else return .ok cfg.name : HostM Key Pub (Except Error String))
  match named with
  | .error err => return .error err
  | .ok name =>
    let numCPU ← host .numCPU
    let cfg := { cfg with
      name
      cacheDir := ["var", "cache", "etcdadm", "etcd", s!"v{cfg.version}"]
      etcdExecutable := cfg.installDir ++ ["etcd"]
      etcdctlExecutable := cfg.installDir ++ ["etcdctl"]
      etcdctlShellWrapper := cfg.installDir ++ ["etcdctl.sh"]
      peerCertFile := cfg.certificatesDir ++ ["peer.crt"]
      peerKeyFile := cfg.certificatesDir ++ ["peer.key"]
      peerTrustedCAFile := cfg.certificatesDir ++ ["ca.crt"]
      certFile := cfg.certificatesDir ++ ["server.crt"]
      keyFile := cfg.certificatesDir ++ ["server.key"]
      trustedCAFile := cfg.certificatesDir ++ ["ca.crt"]
      etcdctlCertFile := cfg.certificatesDir ++ ["etcdctl-etcd-client.crt"]
      etcdctlKeyFile := cfg.certificatesDir ++ ["etcdctl-etcd-client.key"]
      gomaxprocs := numCPU }
    match ← defaultPeerURLs parseIP cfg with
    | .error err => return .error err
    | .ok cfg =>
      let cfg ← defaultClientURLs parseIP cfg
      let peerCertSANs ← defaultCertSANs cfg.peerCertSANs cfg.name (cfg.initialAdvertisePeerURLs ++ cfg.listenPeerURLs)
      let serverCertSANs ← defaultCertSANs cfg.serverCertSANs cfg.name (cfg.advertiseClientURLs ++ cfg.listenClientURLs)
      return .ok { cfg with peerCertSANs, serverCertSANs }

/-- `SetInitDynamicDefaults` -/
def setInitDynamicDefaults (parseIP : String → Option String) (cfg : EtcdAdmConfig) :
    HostM Key Pub (Except Error EtcdAdmConfig) := do
  match ← setDynamicDefaults parseIP { cfg with initialClusterState := "new" } with
  | .error err => return .error err
  | .ok cfg =>
    let token ← host .uuid
    let urls := ",".intercalate (cfg.initialAdvertisePeerURLs.map URL.text)
    return .ok { cfg with
      initialClusterToken := String.ofList (token.toList.take 8)
      initialCluster := s!"{cfg.name}={urls}" }

/-- `SetJoinDynamicDefaults` -/
def setJoinDynamicDefaults (parseIP : String → Option String) (cfg : EtcdAdmConfig) :
    HostM Key Pub (Except Error EtcdAdmConfig) :=
  setDynamicDefaults parseIP { cfg with initialClusterState := "existing" }

/-- `SetResetDynamicDefaults` -/
def setResetDynamicDefaults (parseIP : String → Option String) (cfg : EtcdAdmConfig) :
    HostM Key Pub (Except Error EtcdAdmConfig) := setDynamicDefaults parseIP cfg

end Etcdadm.Adm
