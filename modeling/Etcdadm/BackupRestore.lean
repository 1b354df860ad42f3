/-
A backup of etcd and its restore, as programs (`pkg/etcd/backup.go`, `pkg/etcd/restore.go`,
`pkg/etcd/tar.go`, `SnapshotSave` of `pkg/etcdclient/client.go`, `LoadInfo` and
`DownloadBackup` of `pkg/backup/vfs.go`), and the machine they run on.

A backup goes from etcd through a gzip writer into a temporary file, and from there to the
store. A restore downloads it to a temporary file that is renamed, expands it, has `etcdctl`
make a data directory of it, runs an etcd over that, and copies from there key by key. Any
of this may fail, and what fails may have done a part of its work.

What gzip, etcd and `etcdctl` make of bytes are the functions of a `Codec`.
-/
import Etcdadm.BackupNames
import Etcdadm.CopyTo
import Etcdadm.Disk
import Etcdadm.EtcdVersions
import Etcdadm.InitialCluster

namespace Etcdadm.Backup

open CopyTo (Keyspace Puts)

/-! ## Requests -/

structure Codec where
  /-- What a `gzip.Writer` writes while these are copied to it. -/
  deflate : List String → List String
  /-- What it writes when it is closed. -/
  finish : List String → List String
  /-- The error of `gzip.NewReader`. -/
  header : String → Option Error
  /-- What a `gzip.Reader` gives, and the error it ends with. -/
  inflate : String → List String × Option Error
  /-- The error of closing it. -/
  trailer : String → Option Error
  /-- `FromJson` of a text that is not the metadata of a backup. -/
  parseInfo : String → Except Error BackupInfo
  /-- The snapshot of an etcd. -/
  snapshot : Keyspace → String
  /-- What etcd serves over the data that `etcdctl` makes of a snapshot. -/
  restored : String → Option Keyspace

/-- How a command ends. -/
inductive Exit where
  | notStarted (err : Error)
  | waitFailed (err : Error)
  | exited (success : Bool)

inductive Req where
  /-- The store, its clock, and the local file it copies. -/
  | store (r : VfsReq BackupFile)
  | mkdirAll (p : VfsPath)
  /-- `os.MkdirTemp("", "")` -/
  | mkdirTemp
  /-- `os.CreateTemp(dir, "tmp")` -/
  | createTemp (dir : VfsPath)
  | create (p : VfsPath)
  /-- One `Write` to the open file. -/
  | write (p : VfsPath) (data : String)
  /-- `os.Open`, with what reading it to the end gives and the error that ends with -/
  | openFile (p : VfsPath)
  | closeFile (p : VfsPath)
  | rename (oldpath newpath : VfsPath)
  | remove (p : VfsPath)
  | removeAll (p : VfsPath)
  /-- `WriteTo` of a file of the store, to an open local one -/
  | writeTo (src dest : VfsPath)
  /-- `etcdclient.NewClient` -/
  | newClient
  /-- `Snapshot`, with what reading it gives and the error that ends with -/
  | snapshot
  | bindirForEtcdVersion (etcdVersion cmd : String)
  /-- `pki.NewCA`, in memory -/
  | newCA
  | createKeypairs (pkiDir : VfsPath)
  | etcdctl (binDir : String) (args : List String) (snapshotFile dataDir : VfsPath)
  /-- `Start` of the process that reads the backup -/
  | start (p : EtcdProcess) (currentDir dataDir : VfsPath)
  /-- `Stop` of it -/
  | stop
  /-- `NewClient` of the process that is restored to -/
  | destClient
  | copy (r : CopyTo.CopyReq)

@[reducible] def Req.Resp : Req → Type
  | .store r => r.Resp
  | .mkdirAll _ | .create _ | .write _ _ | .closeFile _ | .rename _ _ | .remove _ | .removeAll _ | .writeTo _ _ | .newClient
  | .newCA | .createKeypairs _ | .start _ _ _ | .stop | .destClient => Except Error Unit
  | .mkdirTemp | .createTemp _ => Except Error VfsPath
  | .openFile _ => Except Error (String × Option Error)
  | .snapshot => Except Error (List String × Option Error)
  | .bindirForEtcdVersion _ _ => Except Error String
  | .etcdctl _ _ _ _ => Exit
  | .copy r => r.Resp

@[reducible] def sig : Sig := ⟨Req, Req.Resp⟩

abbrev M := Prog sig

def ask (r : Req) : M r.Resp := .call (S := sig) r .ret

/-- An absolute path, as text -/
def localPath (p : VfsPath) : String := "/" ++ p.text

/-! ## Backup -/

section Source

variable (codec : Codec) (backupsBase : VfsPath)

/-- What is written by `io.Copy`, piece by piece. -/
def writePieces (p : VfsPath) : List String → M (Option Error)
  | [] => return none
  | piece :: pieces => do
    match ← ask (.write p piece) with
    | .error err => return some err
    | .ok () => writePieces p pieces

/-- `SnapshotSave` -/
def snapshotSave (path : VfsPath) : M (Option Error) := do
  match ← ask (.create path) with
  | .error err => return some s!"error creating snapshot file: {err}"
  | .ok () =>
    match ← ask .snapshot with
    | .error err => return some s!"error making snapshot: {err}"
    | .ok (chunks, readErr) =>
      match ← writePieces path (codec.deflate chunks) with
      | some err => return some s!"error copying snapshot: {err}"
      | none =>
        match readErr with
        | some err => return some s!"error copying snapshot: {err}"
        | none =>
          match ← writePieces path (codec.finish chunks) with
          | some err => return some s!"error copying snapshot: {err}"
          | none => return none

/-- `DoBackupV3`, between the making and the removal of its directory -/
def backupFrom (sequence : Nat) (info : BackupInfo) (tempDir : VfsPath) : M (Except Error DoBackupResponse) := do
  match ← ask .newClient with
  | .error err => return .error s!"error building etcd client to etcd: {err}"
  | .ok () =>
    let snapshotFile := tempDir ++ ["snapshot.db.gz"]
    match ← snapshotSave codec snapshotFile with
    | some err => return .error s!"error performing snapshot save: {err}"
    | none => (BackupNames.uploadBackup backupsBase sequence (localPath snapshotFile) info).handle fun r => ask (.store r)

/-- `DoBackupV3` -/
def doBackupV3 (sequence : Nat) (info : BackupInfo) : M (Except Error DoBackupResponse) := do
  match ← ask .mkdirTemp with
  | .error err => return .error s!"error creating etcd backup temp directory: {err}"
  | .ok tempDir =>
    let response ← backupFrom codec backupsBase sequence info tempDir
    -- the error of `os.RemoveAll` is logged
    let _ ← ask (.removeAll tempDir)
    return response

/-- `DoBackup` -/
def doBackup (sequence : Nat) (info : BackupInfo) : M (Except Error DoBackupResponse) := do
  if info.etcdVersion = "" then return .error "EtcdVersion not set"
  doBackupV3 codec backupsBase sequence info

/-! ## Restore -/

/-- `LoadInfo` -/
def loadInfo (name : String) : M (Except Error BackupInfo) := do
  let p := (backupsBase.join name).join metaFilename
  match ← ask (.store (.readFile p)) with
  | .error err => return .error s!"error reading file {p.text.quote}: {err.text}"
  | .ok (.info info) => return .ok info
  | .ok (.data text) =>
    match codec.parseInfo text with
    | .error err => return .error s!"error parsing file {p.text.quote}: {err}"
    | .ok info => return .ok info

/-- The file that is written is closed and renamed, or else removed. -/
def writeAndRename (srcPath tempfile destFile : VfsPath) : M (Option Error) := do
  match ← ask (.writeTo srcPath tempfile) with
  | .error err =>
    let _ ← ask (.closeFile tempfile)
    let _ ← ask (.remove tempfile)
    return some err
  | .ok () =>
    match ← ask (.closeFile tempfile) with
    | .error err =>
      let _ ← ask (.remove tempfile)
      return some err
    | .ok () =>
      match ← ask (.rename tempfile destFile) with
      | .error err =>
        let _ ← ask (.remove tempfile)
        return some s!"error during file write of {(localPath destFile).quote}: rename failed: {err}"
      | .ok () => return none

/-- `DownloadBackup` -/
def downloadBackup (name : String) (destFile : VfsPath) : M (Option Error) := do
  let dir := destFile.dropLast
  match ← ask (.mkdirAll dir) with
  | .error err => return some s!"error creating directories {(localPath dir).quote}: {err}"
  | .ok () =>
    match ← ask (.createTemp dir) with
    | .error err => return some s!"error creating temp file in {(localPath dir).quote}: {err}"
    | .ok tempfile => writeAndRename ((backupsBase.join name).join dataFilename) tempfile destFile

/-- `expand` of a `gzFile` -/
def expand (file destFile : VfsPath) : M (Option Error) := do
  match ← ask (.openFile file) with
  | .error err => return some s!"error opening {(localPath file).quote}: {err}"
  | .ok (bytes, readErr) =>
    match ← ask (.create destFile) with
    | .error err => return some s!"error opening {(localPath file).quote}: {err}"
    | .ok () =>
      match codec.header bytes with
      | some err => return some s!"error reading gzip {(localPath file).quote} (source corrupted?): {err}"
      | none =>
        match ← writePieces destFile (codec.inflate bytes).1 with
        | some err => return some s!"error expanding file: {err}"
        | none =>
          match (codec.inflate bytes).2.or readErr with
          | some err => return some s!"error expanding file: {err}"
          | none =>
            match codec.trailer bytes with
            | some err => return some s!"error completing file expansion: {err}"
            | none => return none

/-- `EtcdVersionForRestore`, which is `EtcdVersionForAdoption` once more -/
def etcdVersionForRestore (fromVersion : String) : String := etcdVersionForAdoption fromVersion

/-- The version a backup is restored with. -/
def restoreVersion (etcdVersion : String) : String :=
  let restoreWith := etcdVersionForRestore etcdVersion
  if restoreWith ≠ "" ∧ restoreWith ≠ etcdVersion then restoreWith else etcdVersion

/-- `RestoreV3Snapshot` -/
def restoreV3Snapshot (p : EtcdProcess) (snapshotFile dataDir : VfsPath) : M (Option Error) := do
  match p.findMyNode with
  | none => return some s!"unable to find self node {p.myNodeName.quote}"
  | some me =>
    match ← ask (.etcdctl p.binDir (InitialCluster.restoreArgs p me (localPath snapshotFile)) snapshotFile dataDir) with
    | .notStarted err => return some s!"error running etcdctl snapshot restore: {err}"
    | .waitFailed err => return some s!"etcdctl snapshot restore returned an error: {err}"
    | .exited false => return some "etcdctl snapshot restore returned a non-zero exit code"
    | .exited true => return none

/-- The process that reads the backup. -/
def restoreProcess (binDir etcdVersion : String) (dataDir : VfsPath) : EtcdProcess where
  binDir
  dataDir := localPath dataDir
  etcdVersion
  createNewCluster := true
  cluster := {
    desiredClusterSize := 0
    clusterToken := dataDir.base
    nodes := [{
      name := "restore"
      peerUrls := ["unixs://127.0.0.1:8003"]
      clientUrls := ["unixs://127.0.0.1:8002"]
      quarantinedClientUrls := []
      tlsEnabled := false }] }
  myNodeName := "restore"
  quarantined := false
  disableTLS := false
  listenAddress := "127.0.0.1"
  listenMetricsURLs := []

/-- The certificates of the process, from two authorities of its own. -/
def createRestoreKeypairs (pkiDir : VfsPath) : M (Option Error) := do
  match ← ask .newCA with
  | .error err => return some s!"error building CA: {err}"
  | .ok () =>
    match ← ask .newCA with
    | .error err => return some s!"error building CA: {err}"
    | .ok () =>
      match ← ask (.createKeypairs pkiDir) with
      | .error err => return some err
      | .ok () => return none

/-- `RunEtcdFromBackup`, from the download on -/
def startFromDownload (p : EtcdProcess) (basedir : VfsPath) : M (Option Error) := do
  let dataDir := basedir ++ ["data"]
  let snapshotFile := basedir ++ ["download", "snapshot.db"]
  match ← createRestoreKeypairs (basedir ++ ["pki"]) with
  | some err => return some err
  | none =>
    match ← expand codec (basedir ++ ["download", "snapshot.db.gz"]) snapshotFile with
    | some err => return some s!"error expanding snapshot: {err}"
    | none =>
      match ← restoreV3Snapshot p snapshotFile dataDir with
      | some err => return some err
      | none =>
        match ← ask (.start p basedir dataDir) with
        | .error err => return some s!"error starting etcd: {err}"
        | .ok () => return none

/-- `RunEtcdFromBackup` -/
def runEtcdFromBackup (backupName : String) (basedir : VfsPath) : M (Option Error) := do
  match ← loadInfo codec backupsBase backupName with
  | .error err => return some err
  | .ok info =>
    if "2.".toList.isPrefixOf info.etcdVersion.toList then
      return some "this version of etcd-manager does not support etcd v2"
    match ← downloadBackup backupsBase backupName (basedir ++ ["download", "snapshot.db.gz"]) with
    | some err => return some s!"error restoring backup: {err}"
    | none =>
      let etcdVersion := restoreVersion info.etcdVersion
      match ← ask (.bindirForEtcdVersion etcdVersion "etcd") with
      | .error err => return some err
      | .ok binDir => startFromDownload codec (restoreProcess binDir etcdVersion (basedir ++ ["data"])) basedir

variable (quote : CopyTo.Key → String) (fuel : Nat)

/-- `DoRestore`, once the process runs -/
def copyToTarget : M (Except Error Unit) := do
  match ← ask .destClient with
  | .error err => return .error s!"error building etcd client for target: {err}"
  | .ok () =>
    match ← (CopyTo.copyEtcd quote fuel).handle fun r => ask (.copy r) with
    | some err => return .error err
    | none => return .ok ()

/-- `DoRestore`, between the making and the removal of its directory -/
def restoreFrom (backupName : String) (tempDir : VfsPath) : M (Except Error Unit) := do
  match ← runEtcdFromBackup codec backupsBase backupName tempDir with
  | some err => return .error err
  | none =>
    let response ← copyToTarget quote fuel
    -- the error of `Stop` is logged
    let _ ← ask .stop
    return response

/-- Where a restore that began at this time keeps its files. -/
def restoreDir (now : Int) : VfsPath := ["tmp", "restore-etcd-" ++ now.repr]

/-- `DoRestore`, after its checks -/
def doRestore (backupName : String) : M (Except Error Unit) := do
  let now ← ask (.store .now)
  let tempDir := restoreDir now
  match ← ask (.mkdirAll tempDir) with
  | .error err => return .error s!"error creating tempdir {(localPath tempDir).quote}: {err}"
  | .ok () =>
    let response ← restoreFrom codec backupsBase quote fuel backupName tempDir
    let _ ← ask (.removeAll tempDir)
    return response

end Source

/-! ## The machine -/

structure World where
  store : Vfs BackupFile
  disk : Disk
  /-- What etcd serves over a data directory. -/
  data : VfsPath → Option Keyspace
  /-- The process that reads a backup, by its data directory, and what it serves. -/
  running : Option (VfsPath × Keyspace)
  /-- The keyspaces of which snapshots were taken. -/
  taken : List Keyspace
  /-- What was written to the etcd that is restored to. -/
  puts : Puts

def noKeys : Keyspace := ⟨[], .nil, by simp⟩

/-- A source that may stop to answer. -/
inductive CopyServes (source : Keyspace) (puts : Puts) : (r : CopyTo.CopyReq) → r.Resp → Puts → Prop
  | answers {r x puts'} : CopyTo.Answers source puts r x puts' → CopyServes source puts r x puts'
  | getFailed {fromKey limit err} : CopyServes source puts (.get fromKey limit) (.error err) puts

/-- A path as the kernel sees it, and not the root. -/
def Names (p : VfsPath) : Prop := p ≠ [] ∧ ∀ e ∈ p, '/' ∉ e.toList

/-- The effect of a request. -/
inductive Effect (codec : Codec) (w : World) : (r : Req) → r.Resp → World → Prop
  | store {r x v'} : (∀ file, r ≠ .openFile file) → w.store.Serves r x v' → Effect codec w (.store r) x { w with store := v' }
  | copied {p bytes} : Names p → w.disk p = some (.file bytes) → Effect codec w (.store (.openFile (localPath p))) (.ok bytes) w
  | copyFailed {file err} : Effect codec w (.store (.openFile file)) (.error err) w
  | made {p} : w.disk.Clear p → Effect codec w (.mkdirAll p) (.ok ()) { w with disk := w.disk.mkdirs p }
  | makeFailed {p err} : Effect codec w (.mkdirAll p) (.error err) w
  | makeStopped {p q err} : q <+: p → q ≠ p → w.disk.Clear q →
      Effect codec w (.mkdirAll p) (.error err) { w with disk := w.disk.mkdirs q }
  | mkdirTemp {p} : Names p → (∀ q, p <+: q → w.disk q = none) →
      Effect codec w .mkdirTemp (.ok p) { w with disk := w.disk.set p .dir }
  | mkdirTempFailed {err} : Effect codec w .mkdirTemp (.error err) w
  | createTemp {dir name} : w.disk (dir ++ [name]) = none →
      Effect codec w (.createTemp dir) (.ok (dir ++ [name])) { w with disk := w.disk.set (dir ++ [name]) (.file "") }
  | createTempFailed {dir err} : Effect codec w (.createTemp dir) (.error err) w
  | created {p} : w.disk.CanCreate p → Effect codec w (.create p) (.ok ()) { w with disk := w.disk.set p (.file "") }
  | createFailed {p err} : Effect codec w (.create p) (.error err) w
  | written {p data more} : w.disk p = some (.file data) →
      Effect codec w (.write p more) (.ok ()) { w with disk := w.disk.set p (.file (data ++ more)) }
  | writeFailed {p more err} : Effect codec w (.write p more) (.error err) w
  | writeStopped {p data part rest err} : w.disk p = some (.file data) →
      Effect codec w (.write p (part ++ rest)) (.error err) { w with disk := w.disk.set p (.file (data ++ part)) }
  | read {p bytes} : w.disk p = some (.file bytes) → Effect codec w (.openFile p) (.ok (bytes, none)) w
  | readStopped {p part rest err} : w.disk p = some (.file (part ++ rest)) →
      Effect codec w (.openFile p) (.ok (part, some err)) w
  | openFailed {p err} : Effect codec w (.openFile p) (.error err) w
  | closeFile {p x} : Effect codec w (.closeFile p) x w
  | renamed {p q} : w.disk.CanRename p q → Effect codec w (.rename p q) (.ok ()) { w with disk := w.disk.move p q }
  | renameFailed {p q err} : Effect codec w (.rename p q) (.error err) w
  | removed {p} : Effect codec w (.remove p) (.ok ()) { w with disk := Function.update w.disk p none }
  | removeFailed {p err} : Effect codec w (.remove p) (.error err) w
  | removedAll {p} : Effect codec w (.removeAll p) (.ok ()) { w with disk := Disk.cleared p w.disk }
  | removeAllStopped {p d' err} : (∀ q, d' q = w.disk q ∨ p <+: q ∧ d' q = none) →
      Effect codec w (.removeAll p) (.error err) { w with disk := d' }
  | downloaded {src dest data bytes} : w.store.files.lookup src = some (.data bytes) → w.disk dest = some (.file data) →
      Effect codec w (.writeTo src dest) (.ok ()) { w with disk := w.disk.set dest (.file (data ++ bytes)) }
  | downloadedInfo {src dest data info text} : w.store.files.lookup src = some (.info info) → w.disk dest = some (.file data) →
      Effect codec w (.writeTo src dest) (.ok ()) { w with disk := w.disk.set dest (.file (data ++ text)) }
  | downloadFailed {src dest err} : Effect codec w (.writeTo src dest) (.error err) w
  | downloadStopped {src dest data part err} : w.disk dest = some (.file data) →
      Effect codec w (.writeTo src dest) (.error err) { w with disk := w.disk.set dest (.file (data ++ part)) }
  | newClient {x} : Effect codec w .newClient x w
  | snapshot {keys chunks} : String.join chunks = codec.snapshot keys →
      Effect codec w .snapshot (.ok (chunks, none)) { w with taken := w.taken ++ [keys] }
  | snapshotStopped {chunks err} : Effect codec w .snapshot (.ok (chunks, some err)) w
  | snapshotFailed {err} : Effect codec w .snapshot (.error err) w
  | bindir {etcdVersion cmd x} : Effect codec w (.bindirForEtcdVersion etcdVersion cmd) x w
  | newCA {x} : Effect codec w .newCA x w
  | createKeypairs {pkiDir x d'} : Disk.Within pkiDir w.disk d' →
      Effect codec w (.createKeypairs pkiDir) x { w with disk := d' }
  /-- `etcdctl` makes a data directory where there is none. -/
  | restored {binDir args snapshotFile dataDir bytes keys d'} : w.disk snapshotFile = some (.file bytes) →
      codec.restored bytes = some keys → Disk.Within dataDir w.disk d' →
      Effect codec w (.etcdctl binDir args snapshotFile dataDir) (.exited true)
        { w with disk := d', data := Function.update w.data dataDir (some keys) }
  | restoreFailed {binDir args snapshotFile dataDir x d' keys} : x ≠ .exited true → Disk.Within dataDir w.disk d' →
      Effect codec w (.etcdctl binDir args snapshotFile dataDir) x
        { w with disk := d', data := Function.update w.data dataDir keys }
  | started {p currentDir dataDir} : Effect codec w (.start p currentDir dataDir) (.ok ())
      { w with running := some (dataDir, (w.data dataDir).getD noKeys) }
  | startFailed {p currentDir dataDir err} : Effect codec w (.start p currentDir dataDir) (.error err) w
  | stopped : Effect codec w .stop (.ok ()) { w with running := none }
  | stopFailed {err} : Effect codec w .stop (.error err) w
  | destClient {x} : Effect codec w .destClient x w
  | copy {dataDir keys r x puts'} : w.running = some (dataDir, keys) → CopyServes keys w.puts r x puts' →
      Effect codec w (.copy r) x { w with puts := puts' }

/-- A process that runs writes to its data directory. -/
def Writes (w : World) (d' : Disk) : Prop :=
  (w.running = none → d' = w.disk) ∧ ∀ dataDir keys, w.running = some (dataDir, keys) → Disk.Within dataDir w.disk d'

/-- What the machine answers. -/
def Serves (codec : Codec) (w : World) (r : Req) (x : r.Resp) (w' : World) : Prop :=
  ∃ d', Writes w d' ∧ Effect codec { w with disk := d' } r x w'

end Etcdadm.Backup
