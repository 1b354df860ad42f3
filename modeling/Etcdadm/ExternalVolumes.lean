/-
The provider for machines whose disks are mounted by someone else
(`pkg/volumes/external/volumes.go`): a volume is a directory of the base directory
with a directory `mnt` in it.

The one tag such a provider takes is, by the comment on its field, the prefix the
names must have. The loop drops the names that have it. So what is found are the
directories that were not meant, and it is what was asked for only where there is
no volume of either kind (`findVolumes_eq`).
-/
import Etcdadm.VolumeAttach

namespace Etcdadm.VolumeProviders

open VolumeMounter

/-! ## The address of the machine -/

/-- `net.IP`, by its bytes -/
abbrev IPBytes := List UInt8

/-- `net.Addr`; an address without an IP has a nil one. -/
inductive NetAddr where
  | ipNet (ip : Option IPBytes)
  | ipAddr (ip : Option IPBytes)
  | other

def NetAddr.ip : NetAddr → Option IPBytes
  | .ipNet ip => ip
  | .ipAddr ip => ip
  | .other => none

/-- The network of the machine, with what `net` says of an address. -/
structure Network where
  interfaces : Except Error (List (Except Error (List NetAddr)))
  isLoopback : IPBytes → Bool
  isLinkLocalUnicast : IPBytes → Bool

/-- Shorter addresses first, then by their bytes. -/
def ipLess (ipI ipJ : IPBytes) : Bool :=
  if ipI.length ≠ ipJ.length then ipI.length < ipJ.length
  else decide (ipI < ipJ)

namespace Network

/-- The loop of `findLocalIP` over the interfaces. -/
def collect (net : Network) : List (Except Error (List NetAddr)) → List IPBytes → Outcome (List IPBytes)
  | [], ips => .ok ips
  | .error err :: _, _ => .error s!"error getting addresses for interface: {err}"
  | .ok addrs :: ifaces, ips =>
    collect net ifaces (ips ++ (addrs.filterMap NetAddr.ip).filter fun ip => !(net.isLoopback ip || net.isLinkLocalUnicast ip))

def findLocalIP (net : Network) : Outcome IPBytes := do
  let ifaces ← Outcome.ofAnswer (fun err => s!"error getting network interfaces: {err}") net.interfaces
  let ips ← net.collect ifaces []
  let ips := if ips.length > 1 then ips.mergeSort (fun ipI ipJ => !ipLess ipJ ipI) else ips
  match ips with
  | ip :: _ => .ok ip
  | [] => .died "index out of range [0] with length 0"

end Network

/-! ## The provider -/

structure DirEntry where
  name : String
  isDir : Bool

/-- Why `os.Stat` has nothing to say of a path. -/
inductive StatError where
  | notExist
  | other (err : Error)

/-- What is in the base directory; `stat` tells whether there is a directory. -/
structure BaseDir where
  readDir : String → Except Error (List DirEntry)
  stat : String → Except StatError Bool

structure ExternalVolumes where
  basedir : String
  clusterName : String
  localIP : IPBytes
  volumeTags : List String

namespace ExternalVolumes

def newExternalVolumes (net : Network) (clusterName basedir : String) (volumeTags : List String) :
    Outcome ExternalVolumes := do
  let localIP ← net.findLocalIP
  if volumeTags.length ≠ 1 then
    .error "baremetal expected a single volume tag (the prefix to use)"
  else
    return ⟨basedir, clusterName, localIP, volumeTags⟩

section Find

-- `filepath.Join`, and `String` of an address
variable (join : String → String → String) (ipText : IPBytes → String) (dir : BaseDir) (a : ExternalVolumes)

def mntPath (f : DirEntry) : String := join (join a.basedir f.name) "mnt"

/-- The volume of a directory, reported as mounted already. -/
def volume (f : DirEntry) : Volume :=
  let mntPath := a.mntPath join f
  { mountName := "master-" ++ mntPath
    providerID := mntPath
    etcdName := f.name
    localDevice := mntPath
    attachedTo := ipText a.localIP
    mountpoint := mntPath
    status := ""
    info := ⟨mntPath⟩ }

/-- The loop over the tags. -/
def matchesTags (name : String) : Bool :=
  a.volumeTags.foldl (fun found tag => if hasPrefix name tag then false else found) true

/-- The loop over the entries of the base directory. -/
def findLoop : List DirEntry → List Volume → Except Error (List Volume)
  | [], allVolumes => .ok allVolumes
  | f :: files, allVolumes =>
    if !f.isDir then
      findLoop files allVolumes
    else if !a.matchesTags f.name then
      findLoop files allVolumes
    else
      match dir.stat (a.mntPath join f) with
      | .error .notExist => findLoop files allVolumes
      | .error (.other err) => .error s!"error doing stat on {a.mntPath join f}: {err}"
      | .ok isDir =>
        if !isDir then findLoop files allVolumes
        else findLoop files (allVolumes ++ [a.volume join ipText f])

def findVolumes : Except Error (List Volume) :=
  match dir.readDir a.basedir with
  | .error err => .error s!"error reading {a.basedir}: {err}"
  | .ok files => a.findLoop join ipText dir files []

/-! ## What is found and what is asked for -/

/-- Whether there is a directory `mnt` in a sub-directory. -/
def hasMnt (f : DirEntry) : Bool :=
  f.isDir && match dir.stat (a.mntPath join f) with
    | .ok isDir => isDir
    | .error _ => false

/-- The volumes whose names have the prefix. -/
def required (tag : String) (files : List DirEntry) : List Volume :=
  (files.filter fun f => a.hasMnt join dir f && hasPrefix f.name tag).map (a.volume join ipText)

end Find

section Found

variable {join : String → String → String} {ipText : IPBytes → String} {dir : BaseDir} {a : ExternalVolumes}

theorem findLoop_eq : ∀ {files : List DirEntry} {allVolumes found : List Volume},
    a.findLoop join ipText dir files allVolumes = .ok found →
    found = allVolumes ++ (files.filter fun f => a.hasMnt join dir f && a.matchesTags f.name).map (a.volume join ipText)
  | [], allVolumes, found, h => by
    cases h
    simp
  | f :: files, allVolumes, found, h => by
    simp only [findLoop] at h
    by_cases hdir : f.isDir = true
    · by_cases htags : a.matchesTags f.name = true
      · simp only [hdir, htags] at h
        cases hstat : dir.stat (a.mntPath join f) with
        | error err =>
          cases err with
          | notExist =>
            simp only [hstat] at h
            simpa [hasMnt, hstat] using findLoop_eq h
          | other err =>
            simp [hstat] at h
        | ok isDir =>
          cases isDir with
          | false =>
            simp only [hstat] at h
            simpa [hasMnt, hstat] using findLoop_eq h
          | true =>
            simp only [hstat] at h
            simpa [hasMnt, hstat, hdir, htags] using findLoop_eq h
      · simp only [hdir, htags] at h
        simpa [htags] using findLoop_eq h
    · simp only [hdir] at h
      simpa [hasMnt, hdir] using findLoop_eq h

/-- What is found are the volumes whose names do not have the prefix. -/
theorem findVolumes_eq {tag : String} (htags : a.volumeTags = [tag]) {files : List DirEntry}
    (hread : dir.readDir a.basedir = .ok files) {found : List Volume} (h : a.findVolumes join ipText dir = .ok found) :
    found = (files.filter fun f => a.hasMnt join dir f && !hasPrefix f.name tag).map (a.volume join ipText) := by
  have hmatches : ∀ name, a.matchesTags name = !hasPrefix name tag := by
    intro name
    rw [matchesTags, htags]
    cases hp : hasPrefix name tag <;> simp [hp]
  simp only [findVolumes, hread] at h
  simpa [hmatches] using findLoop_eq h

/-- A volume tells the name of its directory, so that of a chosen directory is listed only with it. -/
theorem volume_mem_iff (p : String → Bool) {files : List DirEntry} {f : DirEntry} (hf : f ∈ files)
    (hmnt : a.hasMnt join dir f = true) :
    a.volume join ipText f ∈ (files.filter fun f => a.hasMnt join dir f && p f.name).map (a.volume join ipText) ↔
      p f.name = true := by
  constructor
  · intro hmem
    obtain ⟨g, hg, hvolume⟩ := List.mem_map.1 hmem
    have hname : g.name = f.name := congrArg Volume.etcdName hvolume
    rw [← hname]
    exact (Bool.and_eq_true_iff.1 (List.mem_filter.1 hg).2).2
  · intro hp
    exact List.mem_map_of_mem (List.mem_filter.2 ⟨hf, Bool.and_eq_true_iff.2 ⟨hmnt, hp⟩⟩)

end Found

/-- A provider that was given its one tag finds the volumes with that prefix exactly if there is no volume at all. -/
theorem findVolumes_required_iff (join : String → String → String) (ipText : IPBytes → String) (net : Network)
    (clusterName basedir tag : String) (a : ExternalVolumes)
    (hnew : newExternalVolumes net clusterName basedir [tag] = .ok a) (dir : BaseDir) (files : List DirEntry)
    (hread : dir.readDir basedir = .ok files) (found : List Volume) (h : a.findVolumes join ipText dir = .ok found) :
    found = a.required join ipText dir tag files ↔ ∀ f ∈ files, a.hasMnt join dir f = false := by
  simp only [newExternalVolumes, Outcome.bind_eq_ok] at hnew
  obtain ⟨localIP, -, hnew⟩ := hnew
  simp only [List.length_singleton, ne_eq, not_true_eq_false, if_false, Outcome.pure_eq_ok] at hnew
  have hbase : a.basedir = basedir := by rw [← hnew]
  have htags : a.volumeTags = [tag] := by rw [← hnew]
  rw [← hbase] at hread
  rw [findVolumes_eq htags hread h, required]
  constructor
  · intro heq f hf
    by_contra hmnt
    rw [Bool.not_eq_false] at hmnt
    -- the volume of `f` is in exactly one of the two lists
    have hfound := @volume_mem_iff join ipText dir a (fun name => !hasPrefix name tag) files f hf hmnt
    have hrequired := @volume_mem_iff join ipText dir a (fun name => hasPrefix name tag) files f hf hmnt
    rw [heq, hrequired] at hfound
    cases hp : hasPrefix f.name tag <;> simp [hp] at hfound
  · intro hnone
    have hempty : ∀ q : DirEntry → Bool, (files.filter fun f => a.hasMnt join dir f && q f) = [] := by
      intro q
      rw [List.filter_eq_nil_iff]
      intro f hf
      simp [hnone f hf]
    rw [hempty, hempty]

def oneAddress : Network := ⟨.ok [.ok [.ipNet (some [10, 0, 0, 1])]], fun _ => false, fun _ => false⟩

def single : ExternalVolumes := ⟨"/mnt", "cluster", [10, 0, 0, 1], ["master-"]⟩

/-- Two directories, with or without a directory `mnt` in each. -/
def twoDirectories (mnt : Bool) : BaseDir :=
  ⟨fun _ => .ok [⟨"lost+found", true⟩, ⟨"master-0", true⟩], fun _ => if mnt then .ok true else .error .notExist⟩

theorem findVolumes_required_unmounted :
    [] = single.required (fun p q => p ++ "/" ++ q) (fun _ => "10.0.0.1") (twoDirectories false) "master-"
      [⟨"lost+found", true⟩, ⟨"master-0", true⟩] :=
  (findVolumes_required_iff _ _ oneAddress "cluster" "/mnt" "master-" single rfl (twoDirectories false) _ rfl [] rfl).2
    (by decide)

/-- The directory with the prefix is left out and the other one is found. -/
theorem findVolumes_lost_and_found : newExternalVolumes oneAddress "cluster" "/mnt" ["master-"] = .ok single ∧
    ∃ found, single.findVolumes (fun p q => p ++ "/" ++ q) (fun _ => "10.0.0.1") (twoDirectories true) = .ok found ∧
      found.map (·.etcdName) = ["lost+found"] ∧
      (single.required (fun p q => p ++ "/" ++ q) (fun _ => "10.0.0.1") (twoDirectories true) "master-"
        [⟨"lost+found", true⟩, ⟨"master-0", true⟩]).map (·.etcdName) = ["master-0"] :=
  ⟨rfl, _, rfl, by decide, by decide⟩

end ExternalVolumes

end Etcdadm.VolumeProviders
