/-
The commands `etcdadm init`, `join` and `reset`, from their flags to their end
(`cmd/init.go`, `cmd/join.go`, `cmd/reset.go`, `cmd/phases.go`), over the two init
systems (`initsystem/systemd.go`, `initsystem/kubelet/initsystem.go`) and what these
install and write (`binary/etcd.go`, `service/unit.go`, `service/etcdctl.go`).

`init` and `join` are lists of phases that stop at the first error. The phases share
the configuration, which the membership phase of `join` completes.
-/
import Etcdadm.PkiAssets
import Etcdadm.JoinMembership

namespace Etcdadm.Adm

variable {Key Pub : Type}

/-! ## Files and commands -/

/-- `util.Exists` -/
def pathExists (p : VfsPath) : HostM Key Pub (Except Error Bool) := do
  match ← host (.stat p) with
  | .ok () => return .ok true
  | .error .notExist => return .ok false
  | .error (.failed err) => return .error err

/-- `strings.Contains` -/
def contains (s sub : String) : Bool := s.toList.tails.any fun t => sub.toList.isPrefixOf t

def cmdOutputContains (executable : VfsPath) (arg expected : String) : HostM Key Pub (Except Error Bool) := do
  match ← host (.output executable arg) with
  | .error (.notRun name err) => return .error s!"failed to run command {name.quote}: {err}"
  | .error (.exit _ stderr) => return .error s!"command {(filePath executable).quote} failed: {stderr.quote}"
  | .error (.other err) => return .error err
  | .ok out => return .ok (contains out expected)

/-- What the command wrote, without the blanks around it. -/
def ExecError.stderr : ExecError → String
  | .exit _ stderr => String.ofList (Semver.trimSpace stderr.toList)
  | _ => ""

/-- `util.CopyFile` -/
def copyFile (srcFile destFile : VfsPath) : HostM Key Pub (Option Error) := do
  match ← host (.cp srcFile destFile) with
  | .error err =>
    return some s!"unable to copy file from {filePath srcFile} -> {filePath destFile} ({err.stderr}): {err.text}"
  | .ok () => return none

/-- A file that is opened with `O_TRUNC` and written. -/
def writeTruncated (p : VfsPath) (data : String) (opening writing : Error → Error) : HostM Key Pub (Option Error) := do
  match ← host (.create p) with
  | .error err => return some (opening err)
  | .ok () =>
    match ← host (.write p data) with
    | .error err => return some (writing err)
    | .ok () => return none

/-! ## Binaries -/

/-- `releaseFile`, on this architecture -/
def releaseFile (version : String) : String := s!"etcd-v{version}-linux-amd64.tar.gz"

def downloadURL (releaseURL version : String) : String := s!"{releaseURL}/v{version}/{releaseFile version}"

/-- `isEtcdInstalled` and `isEtcdctlInstalled` -/
def isToolInstalled (path : VfsPath) (arg expected : String) : HostM Key Pub (Except Error Bool) := do
  match ← pathExists path with
  | .error err => return .error err
  | .ok false => return .ok false
  | .ok true => cmdOutputContains path arg expected

def isEtcdInstalled (version : String) (inputDir : VfsPath) : HostM Key Pub (Except Error Bool) :=
  isToolInstalled (inputDir ++ ["etcd"]) "--version" s!"etcd Version: {version}"

def isEtcdctlInstalled (version : String) (inputDir : VfsPath) : HostM Key Pub (Except Error Bool) :=
  isToolInstalled (inputDir ++ ["etcdctl"]) "version" s!"etcdctl version: {version}"

def isInstalled (version : String) (installDir : VfsPath) : HostM Key Pub (Except Error Bool) := do
  match ← isEtcdInstalled version installDir with
  | .error err => return .error err
  | .ok false => return .ok false
  | .ok true => isEtcdctlInstalled version installDir

/-- `Download` -/
def download (releaseURL version : String) (locationDir : VfsPath) : HostM Key Pub (Option Error) := do
  let archive := locationDir ++ [releaseFile version]
  match ← pathExists archive with
  | .ok true => return none
  | _ =>
    match ← host (.mkdirAll locationDir) with
    | .error err => return some s!"unable to create install directory: {err}"
    | .ok () =>
      match ← host (.curl (downloadURL releaseURL version) archive) with
      | .error err => return some s!"unable to download etcd: {err.text}"
      | .ok () => return none

/-- `Install` of `binary/etcd.go` -/
def installBinaries (srcDir installDir : VfsPath) : HostM Key Pub (Option Error) := do
  match ← copyFile (srcDir ++ ["etcd"]) (installDir ++ ["etcd"]) with
  | some err => return some err
  | none => copyFile (srcDir ++ ["etcdctl"]) (installDir ++ ["etcdctl"])

/-- `InstallFromCache`, from the temporary directory on -/
def installFromArchive (archive installDir tmpDir : VfsPath) : HostM Key Pub (Except Error Bool) := do
  match ← host (.tar archive tmpDir) with
  | .error err => return .error s!"unable to extract etcd archive: {err.text}"
  | .ok () =>
    -- the error of `os.MkdirAll` is dropped
    let _ ← host (.mkdirAll installDir)
    match ← installBinaries tmpDir installDir with
    | some err => return .error s!"unable to copy binaries: {err}"
    | none => return .ok true

/-- `InstallFromCache`. Only an archive that does not exist counts as none. -/
def installFromCache (version : String) (installDir cacheDir : VfsPath) : HostM Key Pub (Except Error Bool) := do
  let archive := cacheDir ++ [releaseFile version]
  match ← host (.stat archive) with
  | .error .notExist => return .ok false
  | _ =>
    match ← host .tempDir with
    | .error err => return .error s!"unable to create tmp dir {err} to extract etcd archive"
    | .ok tmpDir =>
      let installed ← installFromArchive archive installDir tmpDir
      let _ ← host (.removeAll tmpDir)
      return installed

/-- `Uninstall` -/
def uninstall (installDir : VfsPath) : HostM Key Pub (Option Error) := do
  match ← host (.remove (installDir ++ ["etcd"])) with
  | .error err => return some err.text
  | .ok () =>
    match ← host (.remove (installDir ++ ["etcdctl"])) with
    | .error err => return some err.text
    | .ok () => return none

/-! ## What is written for the unit and for `etcdctl` -/

/-- A value, as `html/template` writes it. -/
def escaped (text : String) : String := String.ofList (Environment.htmlEscape text.toList)

/-- `UnitFileTemplate` -/
def unitFileText (cfg : EtcdAdmConfig) : String :=
  let diskPriorities := String.join (cfg.etcdDiskPriorities.map fun p => "\n" ++ escaped p)
  "[Unit]\nDescription=etcd\nDocumentation=https://github.com/coreos/etcd\nConflicts=etcd-member.service\n" ++
  "Conflicts=etcd2.service\n\n[Service]\nEnvironmentFile=" ++ escaped (filePath cfg.environmentFile) ++
  "\nExecStart=" ++ escaped (filePath cfg.etcdExecutable) ++
  "\n\nType=notify\nTimeoutStartSec=0\nRestart=on-failure\nRestartSec=5s\n\nLimitNOFILE=65536" ++ diskPriorities ++
  "\nMemoryLow=200M\n\n[Install]\nWantedBy=multi-user.target\n"

/-- `EtcdctlEnvFileTemplate` -/
def etcdctlEnvFileText (cfg : EtcdAdmConfig) : String :=
  "export ETCDCTL_API=3\n\nexport ETCDCTL_CACERT=" ++ escaped (filePath cfg.trustedCAFile) ++
  "\nexport ETCDCTL_CERT=" ++ escaped (filePath cfg.etcdctlCertFile) ++
  "\nexport ETCDCTL_KEY=" ++ escaped (filePath cfg.etcdctlKeyFile) ++ "\n\nexport ETCDCTL_DIAL_TIMEOUT=3s\n"

/-- `EtcdctlShellWrapperTemplate` -/
def etcdctlShellWrapperText (cfg : EtcdAdmConfig) : String :=
  let envFile := escaped (filePath cfg.etcdctlEnvFile)
  "#!/usr/bin/env sh\nif ! [ -r \"" ++ envFile ++ "\" ]; then\n\techo \"Unable to read the etcdctl environment file '" ++
  envFile ++ "'. The file must exist, and this wrapper must be run as root.\"\n\texit 1\nfi\n. \"" ++ envFile ++
  "\"\n\"" ++ escaped (filePath cfg.etcdctlExecutable) ++ "\" \"$@\"\n"

/-- `WriteEnvironmentFile` -/
def writeEnvironmentFile (cfg : EtcdAdmConfig) : HostM Key Pub (Option Error) := do
  let environmentFileDir := cfg.environmentFile.dropLast
  match ← host (.mkdirAll environmentFileDir) with
  | .error err => return some s!"unable to create environment file directory {(filePath environmentFileDir).quote}: {err}"
  | .ok () =>
    writeTruncated cfg.environmentFile (Environment.buildEnvironment cfg.environment)
      (fun err => s!"unable to open the etcd environment file {filePath cfg.environmentFile}: {err}")
      (fun err => s!"error writing etcd environment file {filePath cfg.environmentFile}: {err}")

/-- `writeUnitFile` -/
def writeUnitFile (cfg : EtcdAdmConfig) : HostM Key Pub (Option Error) := do
  let unitFileDir := cfg.unitFile.dropLast
  match ← host (.mkdirAll unitFileDir) with
  | .error err => return some s!"unable to create unit file directory {(filePath unitFileDir).quote}: {err}"
  | .ok () =>
    writeTruncated cfg.unitFile (unitFileText cfg)
      (fun err => s!"unable to open the etcd service unit file {filePath cfg.unitFile}: {err}")
      (fun err => s!"unable to apply etcd environment: {err}")

/-- `WriteEtcdctlEnvFile` -/
def writeEtcdctlEnvFile (cfg : EtcdAdmConfig) : HostM Key Pub (Option Error) := do
  let environmentFileDir := cfg.etcdctlEnvFile.dropLast
  match ← host (.mkdirAll environmentFileDir) with
  | .error err => return some s!"unable to create environment file directory {(filePath environmentFileDir).quote}: {err}"
  | .ok () =>
    writeTruncated cfg.etcdctlEnvFile (etcdctlEnvFileText cfg)
      (fun err => s!"unable to open the etcd environment file {filePath cfg.etcdctlEnvFile}: {err}")
      (fun err => s!"unable to apply the etcd environment: {err}")

/-- `WriteEtcdctlShellWrapper` -/
def writeEtcdctlShellWrapper (cfg : EtcdAdmConfig) : HostM Key Pub (Option Error) :=
  writeTruncated cfg.etcdctlShellWrapper (etcdctlShellWrapperText cfg)
    (fun err => s!"unable to create the etcd shell wrapper {(filePath cfg.etcdctlShellWrapper).quote}: {err}")
    (fun err => s!"unable to apply the etcd environment: {err}")

/-! ## systemd -/

section Systemd

variable (cfg : EtcdAdmConfig)

def unitName : String := cfg.unitFile.base

def reloadSystemd : HostM Key Pub (Option Error) := do
  match ← host (.systemctl .daemonReload "") with
  | .error err => return some s!"failed to reload systemd: {err.text}"
  | .ok () => return none

/-- `start`, `stop`, `enable` and `disable` -/
def changeUnit (verb : Verb) (word : String) : HostM Key Pub (Option Error) := do
  match ← reloadSystemd with
  | some err => return some err
  | none =>
    match ← host (.systemctl verb (unitName cfg)) with
    | .error err => return some s!"failed to {word} service: {err.text}"
    | .ok () => return none

/-- `IsActive` and `isEnabled`. A command that exits with another status than zero says no. -/
def askUnit (verb : Verb) : HostM Key Pub (Except Error Bool) := do
  match ← host (.systemctl verb (unitName cfg)) with
  | .ok () => return .ok true
  | .error (.notRun name err) => return .error s!"failed to run command {name.quote}: {err}"
  | .error (.exit _ _) => return .ok false
  | .error (.other err) => return .error err

/-- The two halves of `DisableAndStopService`. -/
def stopIfActive : HostM Key Pub (Option Error) := do
  match ← askUnit cfg .isActive with
  | .error err => return some s!"error checking if etcd service is active: {err}"
  | .ok true => changeUnit cfg .stop "stop"
  | .ok false => return none

def disableAndStopService : HostM Key Pub (Option Error) := do
  match ← askUnit cfg .isEnabled with
  | .error err => return some s!"error checking if etcd service is enabled: {err}"
  | .ok true =>
    match ← changeUnit cfg .disable "disable" with
    | some err => return some err
    | none => stopIfActive cfg
  | .ok false => stopIfActive cfg

def enableAndStartService : HostM Key Pub (Option Error) := do
  match ← changeUnit cfg .enable "enable" with
  | some err => return some err
  | none => changeUnit cfg .start "start"

/-- The check at the end of `Install` -/
def verifyInstalled : HostM Key Pub (Option Error) := do
  match ← isInstalled cfg.version cfg.installDir with
  | .error err => return some s!"failed checking if binary is installed: {err}"
  | .ok false => return some "binaries not found in install dir"
  | .ok true => return none

/-- `Install` of the init system -/
def installUnit : HostM Key Pub (Option Error) := do
  match ← installFromCache cfg.version cfg.installDir cfg.cacheDir with
  | .error err => return some s!"artifact could not be installed from cache: {err}"
  | .ok true => verifyInstalled cfg
  | .ok false =>
    match ← download cfg.releaseURL cfg.version cfg.cacheDir with
    | some err => return some s!"unable to fetch artifact from upstream: {err}"
    | none =>
      match ← installFromCache cfg.version cfg.installDir cfg.cacheDir with
      | .error err => return some s!"artifact could not be installed from cache: {err}"
      | .ok false => return some "artifact not found in cache after download"
      | .ok true => verifyInstalled cfg

def configureUnit : HostM Key Pub (Option Error) := do
  match ← writeEnvironmentFile cfg with
  | some err => return some s!"failed writing environment file for etcd service: {err}"
  | none => writeUnitFile cfg

end Systemd

/-! ## Init systems -/

/-- `InitSystem`. The operations read the configuration when they are called. -/
structure InitSystem (Key Pub : Type) where
  install : EtcdAdmConfig → HostM Key Pub (Option Error)
  configure : EtcdAdmConfig → HostM Key Pub (Option Error)
  isActive : EtcdAdmConfig → HostM Key Pub (Except Error Bool)
  enableAndStartService : EtcdAdmConfig → HostM Key Pub (Option Error)
  disableAndStopService : EtcdAdmConfig → HostM Key Pub (Option Error)

def systemd : InitSystem Key Pub where
  install := installUnit
  configure := configureUnit
  isActive cfg := askUnit cfg .isActive
  enableAndStartService := enableAndStartService
  disableAndStopService := disableAndStopService

def podFile (cfg : EtcdAdmConfig) : VfsPath := cfg.podSpecDir ++ ["etcd.manifest"]

/-- `yaml.Marshal` of the pod for an environment -/
abbrev MarshalPod := EtcdAdmConfig → GoMap String → Except Error String

/-- The manifest is written with `ioutil.WriteFile`. -/
def writeManifest (marshalPod : MarshalPod) (cfg : EtcdAdmConfig) : HostM Key Pub (Option Error) := do
  match ← host (.mkdirAll cfg.dataDir) with
  | .error err => return some s!"failed to create {filePath cfg.dataDir}: {err}"
  | .ok () =>
    match Environment.podEnv cfg.environment with
    | .error err => return some err
    | .ok env =>
      match marshalPod cfg env with
      | .error err => return some s!"failed to build pod yaml: {err}"
      | .ok podBytes =>
        let failure := fun err => s!"unable to write {(filePath (podFile cfg)).quote}: {err}"
        writeTruncated (podFile cfg) podBytes failure failure

def removeManifest (cfg : EtcdAdmConfig) : HostM Key Pub (Option Error) := do
  match ← host (.remove (podFile cfg)) with
  | .ok () => return none
  | .error .notExist => return none
  | .error (.failed err) => return some s!"error stopping etcd: {err}"

def manifestExists (cfg : EtcdAdmConfig) : HostM Key Pub (Except Error Bool) := do
  match ← host (.stat (podFile cfg)) with
  | .ok () => return .ok true
  | .error .notExist => return .ok false
  | .error (.failed err) => return .error s!"error checking for etcd manifest: {err}"

def kubelet (marshalPod : MarshalPod) : InitSystem Key Pub where
  install _ := return none
  configure _ := return none
  isActive := manifestExists
  enableAndStartService := writeManifest marshalPod
  disableAndStopService := removeManifest

def getInitSystem (marshalPod : MarshalPod) (cfg : EtcdAdmConfig) : HostM Key Pub (Except Error (InitSystem Key Pub)) := do
  if cfg.initSystem = "systemd" then
    match ← host .lookPath with
    | .ok () => return .ok systemd
    | .error _ => return .error "systemd not detected; ensure that `systemctl` is in the PATH"
  else if cfg.initSystem = "kubelet" then return .ok (kubelet marshalPod)
  else return .error s!"invalid init system {cfg.initSystem}"

/-! ## Phases -/

/-- A phase gets the configuration, and may change it. -/
structure Phase (Key Pub : Type) where
  name : String
  run : EtcdAdmConfig → HostM Key Pub (Except Error EtcdAdmConfig)

/-- The loop of `runPhases`. -/
def runPhases : List (Phase Key Pub) → EtcdAdmConfig → HostM Key Pub (Except Error EtcdAdmConfig)
  | [], cfg => return .ok cfg
  | phase :: phases, cfg => do
    match ← phase.run cfg with
    | .error err => return .error s!"[{phase.name}] {err}"
    | .ok cfg => runPhases phases cfg

/-- A phase that leaves the configuration, with the text its error is wrapped in. -/
def simplePhase (name failure : String) (run : EtcdAdmConfig → HostM Key Pub (Option Error)) : Phase Key Pub where
  name
  run cfg := do
    match ← run cfg with
    | some err => return .error s!"{failure}: {err}"
    | none => return .ok cfg

section PhaseList

variable (initSystem : InitSystem Key Pub)

def stopPhase : Phase Key Pub :=
  simplePhase "stop" "error disabling and stopping etcd service" initSystem.disableAndStopService

def removeExistingDataDir (cfg : EtcdAdmConfig) : HostM Key Pub (Option Error) := do
  match ← pathExists cfg.dataDir with
  | .error err => return some s!"unable to verify whether data dir exists: {err}"
  | .ok false => return none
  | .ok true =>
    -- the error of `os.RemoveAll` is dropped
    let _ ← host (.removeAll cfg.dataDir)
    return none

def initInstallPhase : Phase Key Pub where
  name := "install"
  run cfg := do
    match ← initSystem.disableAndStopService cfg with
    | some err => return .error s!"error disabling and stopping etcd service: {err}"
    | none =>
      match ← removeExistingDataDir cfg with
      | some err => return .error err
      | none =>
        match ← initSystem.install cfg with
        | some err => return .error s!"failed installing init system components: {err}"
        | none => return .ok cfg

def certificatesPhase [DecidableEq Pub] (pem : Pem Key Pub) (publicOf : Key → Pub) (names : Names) : Phase Key Pub :=
  simplePhase "certificates" "failed creating PKI assets" (createPKIAssets pem publicOf names)

def snapshotPhase : Phase Key Pub :=
  simplePhase "snapshot" "error restoring snapshot" fun cfg => do
    if cfg.snapshot = "" then return none
    match ← host (.restoreSnapshot cfg.snapshot cfg.dataDir) with
    | .error err => return some err
    | .ok () => return none

def joinInstallPhase : Phase Key Pub :=
  simplePhase "install" "failed installing init system components" initSystem.install

/-- `initConfigure` and `joinConfigure` -/
def configurePhase : Phase Key Pub := simplePhase "configure" "error configuring init system" initSystem.configure

/-- `initStart` and `joinStart` -/
def startPhase : Phase Key Pub := simplePhase "start" "error starting etcd" initSystem.enableAndStartService

/-- Both errors are only logged. -/
def etcdctlPhase : Phase Key Pub where
  name := "etcdctl"
  run cfg := do
    let _ ← writeEtcdctlEnvFile cfg
    let _ ← writeEtcdctlShellWrapper cfg
    return .ok cfg

def healthcheckPhase : Phase Key Pub where
  name := "health"
  run cfg := do
    match ← host (.clientForEndpoint cfg.loopbackClientURL.text) with
    | .error err => return .error s!"error creating health endpoint client: {err}"
    | .ok () =>
      match ← host (.get "health") with
      | none => return .ok cfg
      | some (err, permissionDenied) =>
        if permissionDenied then return .ok cfg
        return .error s!"local etcd endpoint is unhealthy: {err}"

def postInitInstructionsPhase : Phase Key Pub where
  name := "post-init-instructions"
  run cfg :=
    match cfg.advertiseClientURLs with
    | [] => .crash "index out of range [0] with length 0"
    | _ :: _ => return .ok cfg

/-- The requests of the membership phase, on the machine. -/
def handleJoin (cfg : EtcdAdmConfig) : (r : Join.JoinReq) → HostM Key Pub r.Resp
  | .clientForEndpoint endpoint => host (.clientForEndpoint endpoint)
  | .memberList => host .memberList
  | .removeAll _ => do
    let _ ← host (.removeAll cfg.dataDir)
    return ()
  | .memberAdd peerURLs => host (.memberAdd peerURLs)
  | .sleep => host .sleep

def joinConfig (cfg : EtcdAdmConfig) : Join.JoinConfig where
  name := cfg.name
  endpoint := cfg.endpoint
  dataDir := filePath cfg.dataDir
  initialAdvertisePeerURLs := cfg.initialAdvertisePeerURLs.map URL.text
  retry := cfg.retry
  initialCluster := cfg.initialCluster

def membershipPhase : Phase Key Pub where
  name := "membership"
  run cfg := do
    match ← (Join.membership (joinConfig cfg)).handle (handleJoin cfg) with
    | .error err => return .error err
    | .ok joined => return .ok { cfg with initialCluster := joined.initialCluster }

variable [DecidableEq Pub] (pem : Pem Key Pub) (publicOf : Key → Pub) (names : Names)

def initPhases : List (Phase Key Pub) :=
  [initInstallPhase initSystem, certificatesPhase pem publicOf names, snapshotPhase, configurePhase initSystem,
    startPhase initSystem, etcdctlPhase, healthcheckPhase, postInitInstructionsPhase]

def joinPhases : List (Phase Key Pub) :=
  [stopPhase initSystem, certificatesPhase pem publicOf names, membershipPhase, joinInstallPhase initSystem,
    configurePhase initSystem, startPhase initSystem, etcdctlPhase, healthcheckPhase]

end PhaseList

/-! ## Commands -/

section Commands

variable [DecidableEq Pub] (pem : Pem Key Pub) (publicOf : Key → Pub) (names : Names) (marshalPod : MarshalPod)

/-- `etcdadm init`, up to the `log.Fatal` of its error -/
def initCommand (flags : EtcdAdmConfig) : HostM Key Pub (Except Error EtcdAdmConfig) := do
  match ← setInitDynamicDefaults names.parseIP (setDefaults flags) with
  | .error err => return .error s!"[defaults] error setting init dynamic defaults: {err}"
  | .ok cfg =>
    match ← getInitSystem marshalPod cfg with
    | .error err => return .error s!"[initsystem] error detecting the init system: {err}"
    | .ok initSystem => runPhases (initPhases initSystem pem publicOf names) cfg

/-- `etcdadm join`. `parseURL` gives the error of `url.Parse`. -/
def joinCommand (parseURL : String → Option Error) (flags : EtcdAdmConfig) (endpoint : String) :
    HostM Key Pub (Except Error EtcdAdmConfig) := do
  match parseURL endpoint with
  | some err => return .error s!"endpoint {endpoint.quote} must be a valid URL: {err}"
  | none =>
    match ← setJoinDynamicDefaults names.parseIP (setDefaults { flags with endpoint }) with
    | .error err => return .error s!"[defaults] error setting join dynamic defaults: {err}"
    | .ok cfg =>
      match ← getInitSystem marshalPod cfg with
      | .error err => return .error s!"[initsystem] error detecting the init system: {err}"
      | .ok initSystem => runPhases (joinPhases initSystem pem publicOf names) cfg

end Commands

section Reset

/-- The member is removed from the cluster, unless it is the last. -/
def removeSelf (cfg : EtcdAdmConfig) : HostM Key Pub Unit := do
  match ← host (.clientForEndpoint cfg.loopbackClientURL.text) with
  | .error err => .crash s!"[membership] Error checking membership: {err}"
  | .ok () =>
    match ← host .memberList with
    | .error err => .crash s!"[membership] Error listing members: {err}"
    | .ok members =>
      match Join.memberForPeerURLs members (cfg.initialAdvertisePeerURLs.map URL.text) with
      | none => return ()
      | some localMember =>
        if members.length > 1 then
          match ← host (.memberRemove localMember.id) with
          | .error err => .crash s!"[membership] Error removing member: {err}"
          | .ok () => return ()
        else return ()

/-- The errors of all of these are only logged. -/
def removeInstallation (cfg : EtcdAdmConfig) : HostM Key Pub Unit := do
  let _ ← host (.removeAll cfg.dataDir)
  let _ ← host (.removeAll cfg.certificatesDir)
  let _ ← host (.remove cfg.unitFile)
  let _ ← host (.remove cfg.environmentFile)
  let _ ← host (.remove cfg.etcdctlEnvFile)
  let _ ← uninstall cfg.installDir
  let _ ← host (.remove cfg.etcdctlShellWrapper)
  return ()

/-- What `reset` does about the machine, once it is done with the cluster. -/
def stopAndRemove (initSystem : InitSystem Key Pub) (cfg : EtcdAdmConfig) : HostM Key Pub Unit := do
  match ← initSystem.disableAndStopService cfg with
  | some err => .crash s!"[reset] Error stopping etcd: {err}"
  | none => removeInstallation cfg

/-- `etcdadm reset`, with what `log.Fatalf` ends -/
def resetCommand (parseIP : String → Option String) (marshalPod : MarshalPod) (flags : EtcdAdmConfig)
    (skipRemoveMember : Bool) : HostM Key Pub Unit := do
  match ← setResetDynamicDefaults parseIP (setDefaults flags) with
  | .error err => .crash s!"[defaults] Error: {err}"
  | .ok cfg =>
    match ← getInitSystem marshalPod cfg with
    | .error err => .crash s!"[initsystem] Error detecting the init system: {err}"
    | .ok initSystem =>
      match ← initSystem.isActive cfg with
      | .error err => .crash s!"[reset] Error checking if etcd service is active: {err}"
      | .ok active => do
        (if active ∧ !skipRemoveMember then removeSelf cfg else return ())
        stopAndRemove initSystem cfg

end Reset

/-- The commands that change a machine. -/
inductive AdmCommand where
  | init
  | join (endpoint : String)
  | reset (skipRemoveMember : Bool)

/-- `log.Fatal` of an error -/
def orFatal {α : Type} (p : HostM Key Pub (Except Error α)) : HostM Key Pub Unit := do
  match ← p with
  | .error err => .crash err
  | .ok _ => return ()

def AdmCommand.run [DecidableEq Pub] (pem : Pem Key Pub) (publicOf : Key → Pub) (names : Names) (marshalPod : MarshalPod)
    (parseURL : String → Option Error) (flags : EtcdAdmConfig) : AdmCommand → HostM Key Pub Unit
  | .init => orFatal (initCommand pem publicOf names marshalPod flags)
  | .join endpoint => orFatal (joinCommand pem publicOf names marshalPod parseURL flags endpoint)
  | .reset skipRemoveMember => resetCommand names.parseIP marshalPod flags skipRemoveMember

end Etcdadm.Adm
