/-
Taking over the data of an etcd from before etcd-manager (`legacy/adopt.go`),
within the start of a server (`NewEtcdServer`, with its `readState` and
`writeState`), over the machine's own files.

The start asks for three things, `readState`, `ImportExistingEtcd` and
`writeState`; here each is a program over the disk, so a process can be killed
between any two calls to the system: half-way through a file, between the copy
and the move to the trashcan, between the move and the state file. What reads
and writes the formats (YAML and protobuf) is a parameter.
-/
import Etcdadm.Disk
import Etcdadm.EtcdVersions
import Etcdadm.Node

namespace Etcdadm.LegacyImport

open Semver (trimSpace)
open Disk

/-! ## Strings -/

/-- `strings.HasSuffix` -/
def hasSuffix (s p : String) : Bool := p.toList.isSuffixOf s.toList

/-- `strings.Split`, at a character -/
def split (sep : Char) (s : String) : List String := (s.toList.splitOn sep).map String.ofList

/-- `strings.TrimSpace` -/
def trim (s : String) : String := String.ofList (trimSpace s.toList)

/-! ## The manifest -/

structure LegacyManifestEnv where
  name : String
  value : String

structure LegacyManifestContainer where
  name : String
  env : List LegacyManifestEnv
  image : String

/-- `legacyManifest`, whose one field is `spec.containers`. -/
structure LegacyManifest where
  containers : List LegacyManifestContainer

/-- `FindEnv` -/
def LegacyManifestContainer.findEnv (c : LegacyManifestContainer) (k : String) : String :=
  ((c.env.find? (·.name == k)).map (·.value)).getD ""

/-- What the YAML and protobuf packages make of bytes, and of a state. -/
structure Formats where
  manifest : String → Except Error LegacyManifest
  marshal : EtcdState → Except Error String
  unmarshal : String → Except Error EtcdState

/-- An element of `etcdKeys`. -/
inductive Key where
  | etcd
  | etcdEvents
  deriving DecidableEq, Repr

namespace Key

def name : Key → String
  | .etcd => "etcd"
  | .etcdEvents => "etcd-events"

def peerSuffix : Key → String
  | .etcd => ":2380"
  | .etcdEvents => ":2381"

def clientSuffix : Key → String
  | .etcd => ":4001"
  | .etcdEvents => ":4002"

def quarantineSuffix : Key → String
  | .etcd => ":3994"
  | .etcdEvents => ":3995"

def manifest (baseDir : VfsPath) (k : Key) : VfsPath := baseDir ++ ["k8s.io", "manifests", k.name ++ ".manifest"]

def legacyDir (baseDir : VfsPath) : Key → VfsPath
  | .etcd => baseDir ++ ["var", "etcd", "data"]
  | .etcdEvents => baseDir ++ ["var", "etcd", "data-events"]

end Key

def etcdKeys : List Key := [.etcd, .etcdEvents]

/-- The version is behind the last colon; a registry may have a port. -/
def imageVersion (image : String) : Except Error String :=
  match split ':' image with
  | [_, version] | [_, _, version] => .ok version
  | _ => .error s!"unexpected etcd image {image.quote}"

/-- The client URL and the quarantined one, for a peer URL. -/
def clientUrl (k : Key) (peerURL : String) : Except Error (String × String) :=
  if !hasSuffix peerURL k.peerSuffix then
    .error s!"unexpected peer url for {k.name}: {peerURL.quote}"
  else if hasPrefix peerURL "http://" then
    .ok ("http://0.0.0.0" ++ k.clientSuffix, "http://0.0.0.0" ++ k.quarantineSuffix)
  else if hasPrefix peerURL "https://" then
    .ok ("https://0.0.0.0" ++ k.clientSuffix, "https://0.0.0.0" ++ k.quarantineSuffix)
  else
    .error s!"scheme not yet implemented: {peerURL.quote}"

/-- One node of `ETCD_INITIAL_CLUSTER`. -/
def initialNode (k : Key) (etcdInitialCluster v : String) : Except Error EtcdNode :=
  match split '=' v with
  | [name, urls] => do
    let peerUrls := split ',' urls
    let clients ← peerUrls.mapM (clientUrl k)
    return ⟨name, peerUrls, clients.map (·.1), clients.map (·.2), false⟩
  | _ => .error s!"cannot parse ETCD_INITIAL_CLUSTER {etcdInitialCluster.quote}"

/-- The version and the cluster that the manifest `b`, read from `p`, tells of. -/
def parseManifest (formats : Formats) (k : Key) (p : VfsPath) (b : String) : Except Error (String × EtcdCluster) := do
  let m ← (formats.manifest b).mapError fun err => s!"error parsing manifest {p.text}: {err}"
  -- the last one of that name
  let some etcdContainer := m.containers.reverse.find? (·.name == "etcd-container")
    | throw s!"etcd-container not found in manifest {p.text}"
  let etcdVersion ← imageVersion etcdContainer.image
  let etcdName := trim (etcdContainer.findEnv "ETCD_NAME")
  if etcdName = "" then
    throw s!"expected ETCD_NAME, was {etcdName.quote}"
  let etcdInitialCluster := trim (etcdContainer.findEnv "ETCD_INITIAL_CLUSTER")
  let nodes ← (split ',' etcdInitialCluster).mapM (initialNode k etcdInitialCluster)
  let clusterToken := trim (etcdContainer.findEnv "ETCD_INITIAL_CLUSTER_TOKEN")
  if clusterToken = "" then
    throw s!"expected ETCD_INITIAL_CLUSTER_TOKEN, was {etcdName.quote}"
  return (etcdVersion, ⟨nodes.length, clusterToken, nodes⟩)

/-- The state, with the version it is adopted with. -/
def adoptedState (etcdVersion : String) (cluster : EtcdCluster) : EtcdState :=
  let adoptAs := etcdVersionForAdoption etcdVersion
  ⟨false, some cluster, if adoptAs ≠ "" ∧ adoptAs ≠ etcdVersion then adoptAs else etcdVersion, false⟩

/-! ## Copying -/

/-- The writes of `io.Copy`. -/
def writeChunks (p : VfsPath) : List String → DiskM (Except Error Unit)
  | [] => return .ok ()
  | chunk :: chunks => do
    match ← disk (.write p chunk) with
    | .error err => return .error err
    | .ok () => writeChunks p chunks

def copyFile (srcfile destfile : VfsPath) : DiskM (Except Error Unit) := do
  match ← disk (.openFile srcfile) with
  | .error err => return .error err
  | .ok chunks =>
    match ← disk (.create destfile) with
    | .error err => return .error err
    | .ok () => writeChunks destfile chunks

/-- The loop of `copyDir`, `copyDir` being the function itself. -/
def copyEntries (copyDir : VfsPath → VfsPath → DiskM (Except Error Unit)) (src dest : VfsPath) :
    List (String × Bool) → DiskM (Except Error Unit)
  | [] => return .ok ()
  | (name, isDir) :: paths => do
    let srcFile := src ++ [name]
    let destFile := dest ++ [name]
    if isDir then
      match ← copyDir srcFile destFile with
      | .error err => return .error err
      | .ok () => copyEntries copyDir src dest paths
    else
      match ← copyFile srcFile destFile with
      | .error err => return .error s!"error copying {srcFile.text} -> {destFile.text}: {err}"
      | .ok () => copyEntries copyDir src dest paths

/-- `copyDir`, for directories less than `fuel` deep. -/
def copyDir : Nat → VfsPath → VfsPath → DiskM (Except Error Unit)
  | 0, _, _ => .crash "stack overflow"
  | fuel + 1, src, dest => do
    match ← disk (.mkdirAll dest) with
    | .error err => return .error s!"error creating directories {dest.text}: {err}"
    | .ok () =>
      match ← disk (.readDir src) with
      | .error err => return .error s!"error reading source directory {src.text}: {err}"
      | .ok paths => copyEntries (copyDir fuel) src dest paths

/-! ## The import -/

def dataDir (baseDir : VfsPath) (clusterToken : String) : VfsPath := (baseDir ++ ["data"]).join clusterToken

def trashcanDir (baseDir : VfsPath) : VfsPath := baseDir ++ ["data-trashcan"]

/-- `newDataDir` -/
def trashDir (baseDir : VfsPath) (clusterToken : String) : VfsPath := (trashcanDir baseDir).join clusterToken

/-- The second half of `ImportExistingEtcd`, which moves the data. -/
def adopt (fuel : Nat) (baseDir : VfsPath) (k : Key) (etcdVersion : String) (cluster : EtcdCluster) :
    DiskM (Except Error (Option EtcdState)) := do
  let legacyDir := k.legacyDir baseDir
  let newDataDir := trashDir baseDir cluster.clusterToken
  match ← copyDir fuel legacyDir (dataDir baseDir cluster.clusterToken) with
  | .error err => return .error err
  | .ok () =>
    match ← disk (.mkdirAll (trashcanDir baseDir)) with
    | .error err =>
      let dir := (trashcanDir baseDir).text
      return .error s!"error creating trashcan directory {dir}: {err}"
    | .ok () =>
      match ← disk (.rename legacyDir newDataDir) with
      | .error err => return .error s!"error renaming directory {legacyDir.text} -> {newDataDir.text}: {err}"
      | .ok () => return .ok (some (adoptedState etcdVersion cluster))

/-- The loop of `ImportExistingEtcd`. -/
def importKeys (formats : Formats) (fuel : Nat) (baseDir : VfsPath) : List Key → DiskM (Except Error (Option EtcdState))
  | [] => return .ok none
  | k :: ks => do
    let p := k.manifest baseDir
    match ← disk (.readFile p) with
    | .error .notExist => importKeys formats fuel baseDir ks
    | .error (.failed err) => return .error s!"error reading file {p.text}: {err}"
    | .ok b =>
      if trimSpace b.toList = [] then importKeys formats fuel baseDir ks
      else
        match parseManifest formats k p b with
        | .error err => return .error err
        | .ok (etcdVersion, cluster) => adopt fuel baseDir k etcdVersion cluster

def importExistingEtcd (formats : Formats) (fuel : Nat) (baseDir : VfsPath) : DiskM (Except Error (Option EtcdState)) :=
  importKeys formats fuel baseDir etcdKeys

/-! ## The start of a server -/

def statePath (baseDir : VfsPath) : VfsPath := baseDir ++ ["state"]

def readState (formats : Formats) (baseDir : VfsPath) : DiskM (Except Error (Option EtcdState)) := do
  let p := statePath baseDir
  match ← disk (.readFile p) with
  | .error .notExist => return .ok none
  | .error (.failed err) => return .error s!"error reading state file {p.text.quote}: {err}"
  | .ok b =>
    match formats.unmarshal b with
    | .error err => return .error s!"error parsing state file: {err}"
    | .ok state => return .ok (some state)

/-- `writeState`; an error comes with what is left of the file, where there
was none before. -/
def writeState (formats : Formats) (baseDir : VfsPath) (state : EtcdState) : DiskM (Except (Error × StateFile) Unit) := do
  let p := statePath baseDir
  match formats.marshal state with
  | .error err => return .error (s!"error marshaling state data: {err}", .missing)
  | .ok b =>
    match ← disk (.create p) with
    | .error err => return .error (s!"error writing state file {p.text.quote}: {err}", .missing)
    | .ok () =>
      match ← disk (.write p b) with
      | .error err => return .error (s!"error writing state file {p.text.quote}: {err}", .holds .empty)
      | .ok () => return .ok ()

/-- How the start of a server is carried out. -/
def onDisk (formats : Formats) (fuel : Nat) (baseDir : VfsPath) : (r : SysReq) → DiskM r.Resp
  | .readState => readState formats baseDir
  | .importExistingEtcd => importExistingEtcd formats fuel baseDir
  | .writeState state => writeState formats baseDir state
  | _ => .crash "not a request of NewEtcdServer"

/-- `NewEtcdServer` over the disk. -/
def newEtcdServer (formats : Formats) (fuel : Nat) (baseDir : VfsPath) (s : EtcdServer) : DiskM (Except Error EtcdServer) :=
  s.config.newEtcdServer.handle (onDisk formats fuel baseDir)

/-! ## Copying a tree -/

/-- A path into a longer one ends in its first part or goes on in the second. -/
theorem prefix_append_cases {q p t : VfsPath} (h : q <+: p ++ t) : q <+: p ∨ ∃ t', t' <+: t ∧ q = p ++ t' := by
  rcases List.prefix_or_prefix_of_prefix h (List.prefix_append p t) with hq | hp
  · exact .inl hq
  · obtain ⟨t', rfl⟩ := hp
    exact .inr ⟨t', (List.prefix_append_right_inj p).1 h, rfl⟩

theorem not_prefix_append {p t : VfsPath} (ht : t ≠ []) : ¬ p ++ t <+: p := by
  intro h
  have hlen := h.length_le
  rw [List.length_append] at hlen
  exact ht (List.length_eq_zero_iff.1 (by omega))

/-- What lies below `src` is a tree, less than `n` deep. -/
def Tree (d : Disk) : Nat → VfsPath → Prop
  | 0, _ => False
  | n + 1, src => d src = some .dir ∧ (∃ l, d.Lists src l) ∧
      ∀ name, d (src ++ [name]) = some .dir → Tree d n (src ++ [name])

theorem Tree.dir {d : Disk} : ∀ {n : Nat} {src : VfsPath}, Tree d n src → d src = some .dir
  | _ + 1, _, h => h.1

/-- The place to copy to is apart from the source; `extra` is a directory elsewhere. -/
structure Apart (d : Disk) (src dest extra : VfsPath) : Prop where
  closed : d.Closed
  source : ∀ t, ¬ dest <+: src ++ t ∧ ¬ src ++ t <+: dest ∧ src ++ t ≠ extra
  aside : ¬ dest <+: extra

/-- There is no file in the place of a directory, and no directory in that of a file. -/
def Alike (d : Disk) (src dest t : VfsPath) : Prop :=
  ∀ m n, d (src ++ t) = some m → d (dest ++ t) = some n → m.isDir = n.isDir

/-- There is room to copy what lies below `src` to below `dest`. -/
structure Room (d : Disk) (src dest extra : VfsPath) : Prop extends Apart d src dest extra where
  clear : d.Clear dest
  alike : ∀ t, Alike d src dest t

/-- Part of `src` has been copied, or all of it: the disk is what it was, but
for directories above `dest` and `extra`, and for files and directories below
`dest` that have their like below `src`. -/
structure Copying (d₀ : Disk) (src dest extra : VfsPath) (d : Disk) : Prop where
  outside : ∀ q, ¬ dest <+: q → ¬ q <+: dest → q ≠ extra → d q = d₀ q
  above : ∀ q, q <+: dest ∨ q = extra → d q = d₀ q ∨ (d q = some .dir ∧ ∀ data, d₀ q ≠ some (.file data))
  below : ∀ t, t ≠ [] → d (dest ++ t) = d₀ (dest ++ t) ∨
    (Alike d₀ src dest t ∧ ∃ m n, d₀ (src ++ t) = some m ∧ d (dest ++ t) = some n ∧ m.isDir = n.isDir)

/-- What has been copied of the paths in `P` is there, and nothing else has changed. -/
structure Lands (d₀ : Disk) (src dest : VfsPath) (P : VfsPath → Prop) (d d' : Disk) : Prop where
  there : ∀ t, P t → d₀ (src ++ t) ≠ none → d' (dest ++ t) = d₀ (src ++ t)
  else_same : ∀ q, (∀ t, P t → d₀ (src ++ t) ≠ none → q ≠ dest ++ t) → d' q = d q

section Copying

variable {d₀ d d' d'' : Disk} {src dest extra r t : VfsPath} {P P' : VfsPath → Prop}

theorem Copying.refl : Copying d₀ src dest extra d₀ := ⟨fun _ _ _ _ => rfl, fun _ _ => .inl rfl, fun _ _ => .inl rfl⟩

/-- The source stays as it was. -/
theorem Copying.source (h : Copying d₀ src dest extra d) (apart : Apart d₀ src dest extra) (t : VfsPath) :
    d (src ++ t) = d₀ (src ++ t) :=
  h.outside _ (apart.source t).1 (apart.source t).2.1 (apart.source t).2.2

/-- On the way to a directory of the source there are directories. -/
theorem Apart.dirs (apart : Apart d₀ src dest extra) (hdir : d₀ (src ++ r) = some .dir) (ht : t <+: r) :
    d₀ (src ++ t) = some .dir := by
  obtain ⟨u, rfl⟩ := ht
  by_cases hu : u = []
  · simpa [hu] using hdir
  · exact apart.closed.above hu (by simp [hdir])

/-- What was above is a file only if it was one. -/
theorem Copying.above_clear (h : Copying d₀ src dest extra d) {q : VfsPath} (hq : q <+: dest ∨ q = extra) :
    (∀ data, d q ≠ some (.file data)) ↔ ∀ data, d₀ q ≠ some (.file data) := by
  rcases h.above q hq with hsame | ⟨hmade, hnot⟩
  · rw [hsame]
  · simp [hmade, hnot]

/-- In the place of something in the source there is its like, as far as there was before. -/
theorem Copying.alike_iff {m : Inode} (h : Copying d₀ src dest extra d) (ht : t ≠ []) (hsrc : d₀ (src ++ t) = some m) :
    (∀ n, d (dest ++ t) = some n → m.isDir = n.isDir) ↔ Alike d₀ src dest t := by
  rcases h.below t ht with hsame | ⟨halike, m', n', hm', hn', heq⟩
  · rw [hsame, Alike]
    constructor
    · intro hall m' n hm' hn
      cases hsrc.symm.trans hm'
      exact hall n hn
    · exact fun hall n => hall m n hsrc
  · simp only [halike, iff_true]
    intro n hn
    cases hsrc.symm.trans hm'
    cases hn'.symm.trans hn
    exact heq

theorem Copying.clear_iff (h : Copying d₀ src dest extra d) (apart : Apart d₀ src dest extra)
    (hdir : d₀ (src ++ r) = some .dir) : d.Clear (dest ++ r) ↔
      d₀.Clear dest ∧ ∀ t, t <+: r → t ≠ [] → Alike d₀ src dest t := by
  have hfile (n : Inode) : Inode.dir.isDir = n.isDir ↔ ∀ data, n ≠ .file data := by
    cases n <;> simp [Inode.isDir]
  have hbelow {t : VfsPath} (ht : t <+: r) (hne : t ≠ []) :
      (∀ data, d (dest ++ t) ≠ some (.file data)) ↔ Alike d₀ src dest t := by
    rw [← h.alike_iff hne (apart.dirs hdir ht)]
    constructor
    · exact fun hall n hn => (hfile n).2 fun data heq => hall data (heq ▸ hn)
    · exact fun hall data hd => (hfile _).1 (hall _ hd) data rfl
  constructor
  · intro hclear
    refine ⟨fun q hq => ?_, fun t ht hne => ?_⟩
    · exact (h.above_clear (.inl hq)).1 (hclear q (hq.trans (List.prefix_append _ _)))
    · exact (hbelow ht hne).1 (hclear _ ((List.prefix_append_right_inj dest).2 ht))
  · intro ⟨hclear, halike⟩ q hq
    rcases prefix_append_cases hq with hq | ⟨t, ht, rfl⟩
    · exact (h.above_clear (.inl hq)).2 (hclear q hq)
    · by_cases hne : t = []
      · subst hne
        simpa using (h.above_clear (.inl (List.prefix_refl dest))).2 (hclear dest (List.prefix_refl _))
      · exact (hbelow ht hne).2 (halike t ht hne)

theorem Copying.mkdirs (h : Copying d₀ src dest extra d) (apart : Apart d₀ src dest extra)
    (hdir : d₀ (src ++ r) = some .dir) (hclear : d.Clear (dest ++ r)) :
    Copying d₀ src dest extra (d.mkdirs (dest ++ r)) := by
  have hroom := (h.clear_iff apart hdir).1 hclear
  constructor
  · intro q hbelow habove hextra
    have hq : ¬ q <+: dest ++ r := by
      intro hq
      rcases prefix_append_cases hq with hq | ⟨t, -, rfl⟩
      · exact habove hq
      · exact hbelow (List.prefix_append _ _)
    rw [mkdirs_elsewhere hq, h.outside q hbelow habove hextra]
  · intro q hq
    by_cases hpre : q <+: dest ++ r
    · exact .inr ⟨mkdirs_above hpre, (h.above_clear hq).1 (hclear q hpre)⟩
    · rw [mkdirs_elsewhere hpre]
      exact h.above q hq
  · intro t ht
    by_cases hpre : dest ++ t <+: dest ++ r
    · have htr := (List.prefix_append_right_inj dest).1 hpre
      exact .inr ⟨hroom.2 t htr ht, .dir, .dir, apart.dirs hdir htr, mkdirs_above hpre, rfl⟩
    · rw [mkdirs_elsewhere hpre]
      exact h.below t ht

theorem Copying.set {m n : Inode} (h : Copying d₀ src dest extra d) (apart : Apart d₀ src dest extra) (ht : t ≠ [])
    (hsrc : d₀ (src ++ t) = some m) (halike : Alike d₀ src dest t) (hkind : m.isDir = n.isDir) :
    Copying d₀ src dest extra (d.set (dest ++ t) n) := by
  constructor
  · intro q hbelow habove hextra
    have hne : q ≠ dest ++ t := fun heq => hbelow (heq ▸ List.prefix_append _ _)
    rw [set_ne hne, h.outside q hbelow habove hextra]
  · intro q hq
    have hne : q ≠ dest ++ t := by
      rintro rfl
      rcases hq with hq | hq
      · exact not_prefix_append ht hq
      · exact apart.aside (hq ▸ List.prefix_append _ _)
    rw [set_ne hne]
    exact h.above q hq
  · intro t' ht'
    by_cases heq : t' = t
    · subst heq
      exact .inr ⟨halike, m, n, hsrc, set_self, hkind⟩
    · rw [set_ne (by simpa using heq)]
      exact h.below t' ht'

theorem Lands.congr (h : Lands d₀ src dest P d d') (hP : ∀ t, d₀ (src ++ t) ≠ none → (P t ↔ P' t)) :
    Lands d₀ src dest P' d d' := by
  constructor
  · exact fun t ht hsrc => h.there t ((hP t hsrc).2 ht) hsrc
  · exact fun q hq => h.else_same q fun t ht hsrc => hq t ((hP t hsrc).1 ht) hsrc

theorem Lands.trans (h : Lands d₀ src dest P d d') (h' : Lands d₀ src dest P' d' d'') :
    Lands d₀ src dest (fun t => P t ∨ P' t) d d'' := by
  constructor
  · intro t ht hsrc
    by_cases ht' : P' t
    · exact h'.there t ht' hsrc
    · have hsame : d'' (dest ++ t) = d' (dest ++ t) :=
        h'.else_same _ fun u hu _ heq => ht' ((List.append_cancel_left heq) ▸ hu)
      rw [hsame]
      exact h.there t (ht.resolve_right ht') hsrc
  · intro q hq
    rw [h'.else_same q fun t ht => hq t (.inr ht), h.else_same q fun t ht => hq t (.inl ht)]

/-! ### Files -/

theorem surely_writeChunks {I : Disk → Prop} {p : VfsPath} (hI : ∀ data, I (d.set p (.file data))) :
    ∀ (chunks : List String) (data : String), (writeChunks p chunks).Surely Answers I
      (fun d' x => x = .ok () ∧ d' = d.set p (.file (data ++ String.join chunks))) (d.set p (.file data))
  | [], data => ⟨rfl, by simp⟩
  | chunk :: chunks, data => by
    refine surely_only (only_write set_self) (by simpa using hI _) ?_
    rw [set_set]
    refine (surely_writeChunks hI chunks (data ++ chunk)).mono (fun _ h => h) fun d' x h => ⟨h.1, ?_⟩
    rw [h.2, String.join_cons, String.append_assoc]

theorem surely_copyFile {name data : String} (room : Room d₀ src dest extra) (h : Copying d₀ src dest extra d)
    (hfile : d₀ (src ++ (r ++ [name])) = some (.file data)) (hdir : d (dest ++ r) = some .dir) :
    (copyFile (src ++ r ++ [name]) (dest ++ r ++ [name])).Surely Answers (Copying d₀ src dest extra)
      (fun d' x => x = .ok () ∧ d' = d.set (dest ++ (r ++ [name])) (.file data)) d := by
  have hset (more : String) : Copying d₀ src dest extra (d.set (dest ++ (r ++ [name])) (.file more)) :=
    h.set room.toApart (by simp) hfile (room.alike _) rfl
  have hnot : d (dest ++ (r ++ [name])) ≠ some .dir := by
    intro hd
    have hkind := (h.alike_iff (by simp) hfile).2 (room.alike _) _ hd
    simp [Inode.isDir] at hkind
  rw [List.append_assoc, List.append_assoc]
  refine surely_openFile ((h.source room.toApart _).trans hfile) h fun chunks hchunks => ?_
  have hcreate : d.CanCreate (dest ++ (r ++ [name])) := by
    refine ⟨hnot, ?_⟩
    rw [← List.append_assoc, List.dropLast_concat]
    exact hdir
  refine surely_only (only_create hcreate) (hset "") ?_
  refine (surely_writeChunks hset chunks "").mono (fun _ h => h) fun d' x h => ⟨h.1, ?_⟩
  rw [h.2, hchunks, String.empty_append]

theorem Lands.file {name data : String} (room : Room d₀ src dest extra)
    (hfile : d₀ (src ++ (r ++ [name])) = some (.file data)) :
    Lands d₀ src dest (r ++ [name] <+: ·) d (d.set (dest ++ (r ++ [name])) (.file data)) := by
  constructor
  · intro t ht hsrc
    obtain ⟨u, rfl⟩ := ht
    have hu : u = [] := by
      by_contra hu
      rw [← List.append_assoc] at hsrc
      simp [room.closed.above hu hsrc] at hfile
    simp [hu, hfile, set_self]
  · intro q hq
    exact set_ne (hq _ (List.prefix_refl _) (by simp [hfile]))

/-! ### Directories -/

theorem surely_copyEntries (room : Room d₀ src dest extra) {copyDir : VfsPath → VfsPath → DiskM (Except Error Unit)}
    (hcopy : ∀ name d, d₀ (src ++ (r ++ [name])) = some .dir → Copying d₀ src dest extra d →
      (copyDir (src ++ r ++ [name]) (dest ++ r ++ [name])).Surely Answers (Copying d₀ src dest extra)
        (fun d' x => x = .ok () ∧ Copying d₀ src dest extra d' ∧
          Lands d₀ src dest (r ++ [name] <+: ·) (d.mkdirs (dest ++ (r ++ [name]))) d') d) :
    ∀ (l : List (String × Bool)) (d : Disk),
      (∀ name isDir, (name, isDir) ∈ l → (d₀ (src ++ (r ++ [name]))).map Inode.isDir = some isDir) →
      Copying d₀ src dest extra d → (∀ q, q <+: dest ++ r → d q = some .dir) →
      (copyEntries copyDir (src ++ r) (dest ++ r) l).Surely Answers (Copying d₀ src dest extra)
        (fun d' x => x = .ok () ∧ Copying d₀ src dest extra d' ∧
          Lands d₀ src dest (fun t => ∃ e ∈ l, r ++ [e.1] <+: t) d d') d
  | [], d, _, h, _ => ⟨rfl, h, by simp, by simp⟩
  | (name, isDir) :: l, d, hl, h, hdirs => by
    have hhead := hl name isDir (by simp)
    -- one entry has landed; the directories above are still there, and the rest follows
    have hrest {d₁ : Disk} (h₁ : Copying d₀ src dest extra d₁)
        (hlands : Lands d₀ src dest (r ++ [name] <+: ·) d d₁) :
        (copyEntries copyDir (src ++ r) (dest ++ r) l).Surely Answers (Copying d₀ src dest extra)
          (fun d' x => x = .ok () ∧ Copying d₀ src dest extra d' ∧
            Lands d₀ src dest (fun t => ∃ e ∈ (name, isDir) :: l, r ++ [e.1] <+: t) d d') d₁ := by
      have hdirs₁ (q : VfsPath) (hq : q <+: dest ++ r) : d₁ q = some .dir := by
        rw [hlands.else_same q, hdirs q hq]
        rintro t ⟨u, rfl⟩ - rfl
        have hlen := hq.length_le
        simp only [List.length_append, List.length_cons] at hlen
        omega
      refine (surely_copyEntries room hcopy l d₁ (fun n b hmem => hl n b (by simp [hmem])) h₁ hdirs₁).mono
        (fun _ h => h) fun d' x hd' => ⟨hd'.1, hd'.2.1, ?_⟩
      refine (hlands.trans hd'.2.2).congr fun t _ => ?_
      simp
    cases hnode : d₀ (src ++ (r ++ [name])) with
    | none => simp [hnode] at hhead
    | some node =>
      cases node with
      | file data =>
        have hfalse : isDir = false := by simpa [hnode, Inode.isDir, eq_comm] using hhead
        subst hfalse
        refine Prog.Surely.bind ((surely_copyFile room h hnode (hdirs _ (List.prefix_refl _))).mono (fun _ h => h) ?_)
        rintro d₁ x ⟨rfl, rfl⟩
        exact hrest (h.set room.toApart (by simp) hnode (room.alike _) rfl) (.file room hnode)
      | dir =>
        have htrue : isDir = true := by simpa [hnode, Inode.isDir, eq_comm] using hhead
        subst htrue
        refine Prog.Surely.bind ((hcopy name d hnode h).mono (fun _ h => h) ?_)
        rintro d₁ x ⟨rfl, h₁, hlands⟩
        refine hrest h₁ ⟨hlands.there, fun q hq => ?_⟩
        rw [hlands.else_same q hq]
        by_cases hpre : q <+: dest ++ (r ++ [name])
        · rw [mkdirs_above hpre]
          rw [← List.append_assoc, List.prefix_concat_iff] at hpre
          rcases hpre with heq | hpre
          · exact absurd (heq.trans (List.append_assoc ..)) (hq _ (List.prefix_refl _) (by simp [hnode]))
          · exact (hdirs q hpre).symm
        · exact mkdirs_elsewhere hpre

theorem surely_copyDir (room : Room d₀ src dest extra) : ∀ (n : Nat) (r : VfsPath) (d : Disk), Tree d₀ n (src ++ r) →
    Copying d₀ src dest extra d →
    (copyDir n (src ++ r) (dest ++ r)).Surely Answers (Copying d₀ src dest extra)
      (fun d' x => x = .ok () ∧ Copying d₀ src dest extra d' ∧
        Lands d₀ src dest (r <+: ·) (d.mkdirs (dest ++ r)) d') d
  | n + 1, r, d, ⟨hdir, ⟨l₀, hl₀⟩, hbelow⟩, h => by
    have hclear := (h.clear_iff room.toApart hdir).2 ⟨room.clear, fun t _ _ => room.alike t⟩
    have h₁ := h.mkdirs room.toApart hdir hclear
    have hlists {l : List (String × Bool)} : (d.mkdirs (dest ++ r)).Lists (src ++ r) l ↔ d₀.Lists (src ++ r) l := by
      simp only [Disk.Lists, List.append_assoc, h₁.source room.toApart]
    refine surely_only (only_mkdirAll hclear) h₁ ?_
    refine surely_readDir ((h₁.source room.toApart r).trans hdir) ⟨l₀, hlists.2 hl₀⟩ h₁ fun l hl => ?_
    rw [hlists] at hl
    have hentries (name : String) (isDir : Bool) (hmem : (name, isDir) ∈ l) :
        (d₀ (src ++ (r ++ [name]))).map Inode.isDir = some isDir := by
      simpa using (hl name isDir).1 hmem
    have hcopy (name : String) (e : Disk) (hname : d₀ (src ++ (r ++ [name])) = some .dir)
        (he : Copying d₀ src dest extra e) := surely_copyDir room n (r ++ [name]) e
      (by simpa using hbelow name (by simpa using hname)) he
    simp only [← List.append_assoc] at hcopy
    refine (surely_copyEntries room (by simpa using hcopy) l _ hentries h₁ fun q hq => mkdirs_above hq).mono
      (fun _ h => h) fun d' x hd' => ⟨hd'.1, hd'.2.1, ?_, fun q hq => ?_⟩
    · rintro t ⟨u, rfl⟩ hsrc
      match u with
      | [] =>
        rw [List.append_nil] at hsrc ⊢
        rw [hd'.2.2.else_same, mkdirs_above (List.prefix_refl _), hdir]
        rintro t ⟨e, -, ht⟩ - heq
        have hlen := ht.length_le
        rw [← List.append_cancel_left heq, List.length_append, List.length_singleton] at hlen
        omega
      | name :: u =>
        obtain ⟨node, hnode⟩ := Option.ne_none_iff_exists'.1 (room.closed.entry hsrc)
        have hmem : (name, node.isDir) ∈ l := (hl _ _).2 (by rw [hnode, Option.map_some])
        exact hd'.2.2.there _ ⟨_, hmem, ⟨u, by simp⟩⟩ hsrc
    · exact hd'.2.2.else_same q fun t ⟨e, _, ht⟩ hsrc => hq t (.trans (List.prefix_append _ _) ht) hsrc

/-! ### What a copy that went through tells -/

theorem does_copyFile (apart : Apart d₀ src dest extra) (h : Copying d₀ src dest extra d) (ht : t ≠ [])
    (hdoes : Prog.Does Answers d (copyFile (src ++ t) (dest ++ t)) (.ok ()) d') :
    Copying d₀ src dest extra d' ∧ Alike d₀ src dest t ∧ ∃ data, d₀ (src ++ t) = some (.file data) := by
  obtain ⟨x, d₁, hopen, hdoes⟩ := does_disk.1 hdoes
  cases hopen with
  | openFailed => simp at hdoes
  | opened hfile =>
    rw [h.source apart] at hfile
    obtain ⟨x, d₁, hcreate, hdoes⟩ := does_disk.1 hdoes
    cases hcreate with
    | createFailed => simp at hdoes
    | created hcan =>
      have halike : Alike d₀ src dest t := by
        refine (h.alike_iff ht hfile).1 fun n hn => ?_
        cases n with
        | file => rfl
        | dir => exact absurd hn hcan.1
      have hend := (surely_writeChunks (I := fun _ => True) (fun _ => trivial) _ "").does hdoes
      rw [hend.2]
      exact ⟨h.set apart ht hfile halike rfl, halike, _, hfile⟩

theorem does_copyEntries {n : Nat} (apart : Apart d₀ src dest extra)
    {copyDir : VfsPath → VfsPath → DiskM (Except Error Unit)}
    (hcopy : ∀ name d d', Copying d₀ src dest extra d →
      Prog.Does Answers d (copyDir (src ++ r ++ [name]) (dest ++ r ++ [name])) (.ok ()) d' →
      Copying d₀ src dest extra d' ∧ Tree d₀ n (src ++ r ++ [name]) ∧
        ∀ t, r ++ [name] <+: t → d₀ (src ++ t) ≠ none → Alike d₀ src dest t) :
    ∀ (l : List (String × Bool)) (d : Disk), Copying d₀ src dest extra d →
      Prog.Does Answers d (copyEntries copyDir (src ++ r) (dest ++ r) l) (.ok ()) d' →
      Copying d₀ src dest extra d' ∧ ∀ name isDir, (name, isDir) ∈ l → (isDir = true → Tree d₀ n (src ++ r ++ [name])) ∧
        ∀ t, r ++ [name] <+: t → d₀ (src ++ t) ≠ none → Alike d₀ src dest t
  | [], d, h, hdoes => by
    obtain ⟨-, rfl⟩ := Prog.does_ret.1 hdoes
    exact ⟨h, by simp⟩
  | (name, true) :: l, d, h, hdoes => by
    obtain ⟨x, d₁, hdir, hdoes⟩ := Prog.does_bind.1 hdoes
    cases x with
    | error => simp at hdoes
    | ok =>
      obtain ⟨h₁, htree, halike⟩ := hcopy name d d₁ h hdir
      obtain ⟨h', hl⟩ := does_copyEntries apart hcopy l d₁ h₁ hdoes
      refine ⟨h', fun name' isDir hmem => ?_⟩
      rcases List.mem_cons.1 hmem with heq | hmem
      · cases heq
        exact ⟨fun _ => htree, halike⟩
      · exact hl name' isDir hmem
  | (name, false) :: l, d, h, hdoes => by
    obtain ⟨x, d₁, hfile, hdoes⟩ := Prog.does_bind.1 hdoes
    cases x with
    | error => simp at hdoes
    | ok =>
      rw [List.append_assoc, List.append_assoc] at hfile
      obtain ⟨h₁, halike, data, hdata⟩ := does_copyFile apart h (by simp) hfile
      obtain ⟨h', hl⟩ := does_copyEntries apart hcopy l d₁ h₁ hdoes
      refine ⟨h', fun name' isDir hmem => ?_⟩
      rcases List.mem_cons.1 hmem with heq | hmem
      · cases heq
        refine ⟨by simp, fun t ⟨u, hu⟩ hsrc => ?_⟩
        by_cases hnil : u = []
        · rwa [← hu, hnil, List.append_nil]
        · -- nothing lies below a file
          rw [← hu, ← List.append_assoc] at hsrc
          simp [apart.closed.above hnil hsrc] at hdata
      · exact hl name' isDir hmem

theorem does_copyDir (apart : Apart d₀ src dest extra) : ∀ (n : Nat) (r : VfsPath) (d d' : Disk),
    Copying d₀ src dest extra d → Prog.Does Answers d (copyDir n (src ++ r) (dest ++ r)) (.ok ()) d' →
    Copying d₀ src dest extra d' ∧ Tree d₀ n (src ++ r) ∧ d₀.Clear dest ∧
      ∀ t, r <+: t → d₀ (src ++ t) ≠ none → Alike d₀ src dest t
  | 0, _, _, _, _, hdoes => by simp [copyDir] at hdoes
  | n + 1, r, d, d', h, hdoes => by
    obtain ⟨x, d₁, hmake, hdoes⟩ := does_disk.1 hdoes
    cases hmake with
    | makeFailed => simp at hdoes
    | made hclear =>
      have hsrc (t : VfsPath) : d.mkdirs (dest ++ r) (src ++ t) = d₀ (src ++ t) := by
        rw [mkdirs_elsewhere, h.source apart]
        intro hpre
        rcases prefix_append_cases hpre with hpre | ⟨u, -, heq⟩
        · exact (apart.source t).2.1 hpre
        · exact (apart.source t).1 (heq ▸ List.prefix_append _ _)
      obtain ⟨x, d₂, hread, hdoes⟩ := does_disk.1 hdoes
      cases hread with
      | listFailed => simp at hdoes
      | @listed _ l hdir hl =>
        rw [hsrc] at hdir
        have hroom := (h.clear_iff apart hdir).1 hclear
        obtain ⟨h', hentries⟩ := does_copyEntries (n := n) apart (fun name e e' he hcopy => by
          simp only [List.append_assoc] at hcopy ⊢
          obtain ⟨he', htree, -, halike⟩ := does_copyDir apart n (r ++ [name]) e e' he hcopy
          exact ⟨he', htree, halike⟩) l _ (h.mkdirs apart hdir hclear) hdoes
        have hl₀ (name : String) (isDir : Bool) :
            (name, isDir) ∈ l ↔ (d₀ (src ++ r ++ [name])).map Inode.isDir = some isDir := by
          rw [hl name isDir, List.append_assoc, hsrc]
        refine ⟨h', ⟨hdir, ⟨l, hl₀⟩, fun name hname => ?_⟩, hroom.1, fun t ⟨u, hu⟩ ht => ?_⟩
        · exact (hentries name true ((hl₀ name true).2 (by rw [hname]; rfl))).1 rfl
        · subst hu
          match u with
          | [] =>
            rw [List.append_nil]
            by_cases hr : r = []
            · subst hr
              intro m k hm hk
              rw [hdir] at hm
              cases hm
              cases k with
              | dir => rfl
              | file data => exact absurd (by simpa using hk) (hroom.1 dest (List.prefix_refl _) data)
            · exact hroom.2 r (List.prefix_refl _) hr
          | name :: u =>
            obtain ⟨node, hnode⟩ := Option.ne_none_iff_exists'.1 (apart.closed.entry ht)
            have hmem := (hl₀ name node.isDir).2 (by rw [hnode, Option.map_some])
            exact (hentries name _ hmem).2 _ ⟨u, by simp⟩ ht

end Copying

/-! ## The whole of it, once copied -/

/-- The disk with `src` copied to `dest`, and with the directory `extra`. -/
def merged (d : Disk) (src dest extra : VfsPath) : Disk := fun q =>
  if dest <+: q then (d (src ++ q.drop dest.length)).or (d q)
  else if q <+: dest ∨ q = extra then some .dir else d q

section Merged

variable {d₀ d d' : Disk} {src dest extra : VfsPath}

theorem merged_below (d₀ : Disk) (src dest extra t : VfsPath) :
    merged d₀ src dest extra (dest ++ t) = (d₀ (src ++ t)).or (d₀ (dest ++ t)) := by
  simp [merged]

theorem merged_above {q : VfsPath} (hq : ¬ dest <+: q) (h : q <+: dest ∨ q = extra) :
    merged d₀ src dest extra q = some .dir := by
  simp [merged, hq, h]

theorem merged_outside {q : VfsPath} (hq : ¬ dest <+: q) (h : ¬ q <+: dest) (hextra : q ≠ extra) :
    merged d₀ src dest extra q = d₀ q := by
  simp [merged, hq, h, hextra]

/-- However much had been copied before, a full copy leaves the same. -/
theorem Copying.merged (h : Copying d₀ src dest extra d) (apart : Apart d₀ src dest extra)
    (hextra : ∀ q, q <+: extra → q <+: dest ∨ q = extra) (hdir : d₀ src = some .dir)
    (hlands : Lands d₀ src dest ([] <+: ·) (d.mkdirs dest) d') :
    d'.mkdirs extra = LegacyImport.merged d₀ src dest extra := by
  have hother {q : VfsPath} (hq : ¬ dest <+: q) : d' q = d.mkdirs dest q :=
    hlands.else_same q fun t _ _ heq => hq (heq ▸ List.prefix_append _ _)
  funext q
  by_cases hq : dest <+: q
  · obtain ⟨t, rfl⟩ := hq
    rw [merged_below, mkdirs_elsewhere fun hpre => apart.aside ((List.prefix_append _ _).trans hpre)]
    cases hsrc : d₀ (src ++ t) with
    | some node => rw [hlands.there t (List.nil_prefix) (by simp [hsrc]), hsrc, Option.some_or]
    | none =>
      have ht : t ≠ [] := by
        rintro rfl
        simp [hdir] at hsrc
      rw [hlands.else_same _ fun u _ hu heq => hu (List.append_cancel_left heq ▸ hsrc),
        mkdirs_elsewhere (not_prefix_append ht), Option.none_or]
      rcases h.below t ht with hsame | ⟨-, m, n, hm, -, -⟩
      · exact hsame
      · simp [hsrc] at hm
  · by_cases habove : q <+: dest ∨ q = extra
    · rw [merged_above hq habove]
      by_cases hpre : q <+: extra
      · exact mkdirs_above hpre
      · have hdest : q <+: dest := habove.resolve_right fun heq => hpre (heq ▸ List.prefix_refl _)
        rw [mkdirs_elsewhere hpre, hother hq, mkdirs_above hdest]
    · have hdest := mt Or.inl habove
      have hne : q ≠ extra := mt Or.inr habove
      rw [merged_outside hq hdest hne, mkdirs_elsewhere (mt (hextra q) habove), hother hq,
        mkdirs_elsewhere hdest, h.outside q hq hdest hne]

/-- The other directory may be made before the copy is complete. -/
theorem Copying.mkdirs_extra (h : Copying d₀ src dest extra d) (apart : Apart d₀ src dest extra)
    (hextra : ∀ q, q <+: extra → q <+: dest ∨ q = extra) (hclear : d.Clear extra) :
    Copying d₀ src dest extra (d.mkdirs extra) := by
  constructor
  · intro q hq habove hne
    have hpre : ¬ q <+: extra := fun hpre => (hextra q hpre).elim habove hne
    rw [mkdirs_elsewhere hpre, h.outside q hq habove hne]
  · intro q hq
    by_cases hpre : q <+: extra
    · exact .inr ⟨mkdirs_above hpre, (h.above_clear hq).1 (hclear q hpre)⟩
    · rw [mkdirs_elsewhere hpre]
      exact h.above q hq
  · intro t ht
    rw [mkdirs_elsewhere fun hpre => apart.aside ((List.prefix_append _ _).trans hpre)]
    exact h.below t ht

end Merged

end Etcdadm.LegacyImport
