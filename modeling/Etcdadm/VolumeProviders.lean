/-
`FindVolumes` of the cloud providers: what each makes of the volumes its cloud
lists, and in particular when it says that a volume is attached to this machine
(`LocalDevice`), which is all the mount controller goes by.

What a cloud answers to a request is a function, so nothing is assumed of a
listing. `strings.ToUpper`, `url.QueryUnescape` and the number in the URL of a
page are parameters: they decide which volumes are returned and how they are
named, not what is said of their attachment.
-/
import Etcdadm.VolumeMounter

namespace Etcdadm.VolumeProviders

open VolumeMounter

/-! ## Strings and tags -/

/-- `strings.SplitN(s, sep, 2)[0]` -/
def firstPart (sep : Char) (s : String) : String := String.ofList (s.toList.takeWhile (· ≠ sep))

/-- `strings.SplitN(tag, ":", 2)`, if that has two parts -/
def keyValue (tag : String) : Option (String × String) :=
  match tag.toList.span (· ≠ ':') with
  | (_, []) => none
  | (key, _ :: value) => some (String.ofList key, String.ofList value)

/-- `strings.Contains` -/
def contains (s substr : String) : Bool := s.toList.tails.any substr.toList.isPrefixOf

/-- `strings.Split(s, "/")` -/
def split (s : String) : List String := (s.toList.splitOn '/').map String.ofList

def lastComponent (s : String) : String := (split s).getLastD ""

/-- The tags a volume is to have: keys, and keys with their values. -/
structure MatchTags where
  matchTagKeys : List String
  matchTags : GoMap String

/-- `matchesTags`, as GCE and OpenStack have it -/
def MatchTags.found (m : MatchTags) (labels : GoMap String) : Bool :=
  m.matchTagKeys.all (fun k => (labels.lookup k).isSome) &&
    m.matchTags.pairs.all fun (k, v) => labels.lookup k = some v

/-- A volume before its attachments are looked at. -/
def unattached (mountName providerID etcdName status description : String) : Volume :=
  ⟨mountName, providerID, etcdName, "", "", "", status, ⟨description⟩⟩

/-- One turn of a loop over attachments: the machine the volume is attached to,
and the device if that machine is this one. -/
def attached (vol : Volume) (attachedTo : String) (here : Bool) (device : String) : Volume :=
  { vol with attachedTo := attachedTo, localDevice := if here then device else vol.localDevice }

/-! ## AWS -/

structure Ec2Tag where
  key : Option String
  value : Option String

structure Ec2Attachment where
  instanceId : Option String
  device : Option String

structure Ec2Volume where
  volumeId : Option String
  state : Option String
  tags : List Ec2Tag
  attachments : List Ec2Attachment

structure Ec2Filter where
  name : String
  values : List String

structure AWSVolumes extends MatchTags where
  nameTag : String
  clusterName : String
  instanceID : String
  zone : String

/-- `aws.StringValue` -/
def stringValue (v : Option String) : String := v.getD ""

namespace AWSVolumes

def etcdName (a : AWSVolumes) (v : Ec2Volume) : String :=
  if a.nameTag ≠ "" then
    v.tags.foldl (fun name t =>
      if a.nameTag = stringValue t.key ∧ stringValue t.value ≠ "" then
        a.clusterName ++ "-" ++ firstPart '/' (stringValue t.value)
      else name) (stringValue v.volumeId)
  else stringValue v.volumeId

/-- The body of the loop of `describeVolumes`; a root volume is skipped. -/
def describeVolume (a : AWSVolumes) (v : Ec2Volume) : Option Volume :=
  let id := stringValue v.volumeId
  let vol := v.attachments.foldl (fun vol attachment =>
    attached vol (stringValue attachment.instanceId) (stringValue attachment.instanceId = a.instanceID)
      (stringValue attachment.device)) (unattached ("master-" ++ id) id (a.etcdName v) (stringValue v.state) id)
  if vol.localDevice = "/dev/sda1" ∨ vol.localDevice = "/dev/xvda" then none else some vol

def describeVolumes (a : AWSVolumes) (describe : List Ec2Filter → Except Error (List Ec2Volume))
    (filters : List Ec2Filter) : Except Error (List Volume) :=
  match describe filters with
  | .error err => .error s!"error querying for EC2 volumes: {err}"
  | .ok volumes => .ok (volumes.filterMap a.describeVolume)

/-- The filters of `findVolumes`. -/
def filters (a : AWSVolumes) (filterByAZ : Bool) : List Ec2Filter :=
  (if filterByAZ then [⟨"availability-zone", [a.zone]⟩] else []) ++
    a.matchTags.pairs.map (fun (k, v) => ⟨"tag:" ++ k, [v]⟩) ++ a.matchTagKeys.map fun k => ⟨"tag-key", [k]⟩

def findVolumes (a : AWSVolumes) (describe : List Ec2Filter → Except Error (List Ec2Volume)) :
    Except Error (List Volume) :=
  a.describeVolumes describe (a.filters true)

end AWSVolumes

/-! ## GCE -/

structure GoogleCloudURL where
  version : String
  project : String
  type : String
  name : String
  global : Bool
  region : String
  zone : String

/-- The loop of `ParseGoogleCloudURL` over the tokens that are left. -/
def parseTokens (u : String) (parsed : GoogleCloudURL) : List String → Except Error GoogleCloudURL
  | [] => .error s!"invalid google cloud URL (unexpected end): {u.quote}"
  | t :: tokens =>
    if t = "projects" then
      match tokens with
      | [] => .error s!"invalid google cloud URL (unexpected projects): {u.quote}"
      | project :: tokens => parseTokens u { parsed with project := project } tokens
    else if t = "zones" then
      match tokens with
      | [] => .error s!"invalid google cloud URL (unexpected zones): {u.quote}"
      | zone :: tokens => parseTokens u { parsed with zone := zone } tokens
    else if t = "regions" ∧ 2 ≤ tokens.length then
      match tokens with
      | [] => .error s!"invalid google cloud URL (unexpected regions): {u.quote}"
      | region :: tokens => parseTokens u { parsed with region := region } tokens
    else if t = "global" then
      parseTokens u { parsed with global := true } tokens
    else
      match tokens with
      | [] => .error s!"invalid google cloud URL (no name): {u.quote}"
      | [name] => .ok { parsed with type := t, name := name }
      | _ => .error s!"invalid google cloud URL (content after name): {u.quote}"

def parseGoogleCloudURL (u : String) : Except Error GoogleCloudURL :=
  match split u with
  | scheme :: empty :: host :: rest =>
    if scheme ≠ "https:" ∨ empty ≠ "" ∨ host ≠ "www.googleapis.com" then
      .error s!"invalid google cloud URL (schema / host): {u.quote}"
    else
      match rest with
      | compute :: version :: tokens =>
        if compute ≠ "compute" then
          .error s!"invalid google cloud URL (not compute): {u.quote}"
        else if version ≠ "v1" ∧ version ≠ "beta" then
          .error s!"invalid google cloud URL (not compute/v1 or compute/beta): {u.quote}"
        else
          parseTokens u ⟨version, "", "", "", false, "", ""⟩ tokens
      | _ => .error s!"invalid google cloud URL (not compute): {u.quote}"
  | _ => .error s!"invalid google cloud URL (token count): {u.quote}"

/-- `compute.Disk` -/
structure GceDisk where
  name : String
  selfLink : String
  zone : String
  status : String
  labels : GoMap String
  /-- the URLs of the instances it is attached to -/
  users : List String

structure GCEVolumes extends MatchTags where
  nameTag : String
  clusterName : String
  project : String
  zone : String
  instanceName : String

namespace GCEVolumes

/-- `DecodeGCELabel`, with `unescape` for `url.QueryUnescape` -/
def decodeGCELabel (unescape : String → Except Error String) (s : String) : Except Error String :=
  match unescape (s.map fun c => if c = '-' then '%' else c) with
  | .error _ => .error s!"cannot decode GCE label: {s.quote}"
  | .ok v => .ok v

def etcdName (g : GCEVolumes) (unescape : String → Except Error String) (d : GceDisk) : Except Error String :=
  let v := (d.labels.lookup g.nameTag).getD ""
  if g.nameTag ≠ "" ∧ v ≠ "" then
    match decodeGCELabel unescape v with
    | .error _ => .error s!"error decoding GCE label: {g.nameTag}={v.quote}"
    | .ok plaintext => .ok (g.clusterName ++ "-" ++ firstPart '/' plaintext)
  else .ok d.name

/-- The loop of `buildGCEVolume` over the users of the disk. -/
def attachUsers (g : GCEVolumes) (d : GceDisk) : List String → Volume → Except Error Volume
  | [], vol => .ok vol
  | attachedTo :: users, vol =>
    match parseGoogleCloudURL attachedTo with
    | .error err => .error s!"error parsing disk attachmnet url {attachedTo.quote}: {err}"
    | .ok u =>
      attachUsers g d users (attached vol attachedTo
        (u.project = g.project ∧ u.zone = g.zone ∧ u.name = g.instanceName) ("/dev/disk/by-id/google-" ++ d.name))

def buildGCEVolume (g : GCEVolumes) (unescape : String → Except Error String) (d : GceDisk) : Except Error Volume :=
  match g.etcdName unescape d with
  | .error err => .error err
  | .ok etcdName =>
    g.attachUsers d d.users
      (unattached ("master-" ++ lastComponent d.zone ++ "-" ++ d.name) d.selfLink etcdName d.status d.selfLink)

/-- `findVolumes`, in the zone of the instance; what cannot be built is skipped. -/
def findVolumes (g : GCEVolumes) (unescape : String → Except Error String)
    (list : String → String → Except Error (List GceDisk)) : Except Error (List Volume) :=
  match list g.project g.zone with
  | .error err => .error s!"error querying GCE disks: {err}"
  | .ok disks => .ok ((disks.filter (g.found ·.labels)).filterMap fun d => (g.buildGCEVolume unescape d).toOption)

end GCEVolumes

/-! ## OpenStack -/

structure CinderAttachment where
  serverID : String
  device : String

structure CinderVolume where
  id : String
  name : String
  description : String
  status : String
  availabilityZone : String
  metadata : GoMap String
  attachments : List CinderAttachment

structure OpenstackVolumes extends MatchTags where
  nameTag : String
  clusterName : String
  project : String
  /-- `meta.ServerID` -/
  serverID : String
  zone : String
  ignoreAZ : Bool

namespace OpenstackVolumes

def buildOpenstackVolume (stack : OpenstackVolumes) (d : CinderVolume) : Volume :=
  let etcdName :=
    match d.metadata.lookup stack.nameTag with
    | some plainText => stack.clusterName ++ "-" ++ firstPart '/' plainText
    | none => d.name
  d.attachments.foldl (fun vol attachedTo =>
    attached vol attachedTo.serverID (attachedTo.serverID = stack.serverID) attachedTo.device)
      (unattached ("master-" ++ d.name) d.id etcdName d.status d.description)

def matchesTags (stack : OpenstackVolumes) (d : CinderVolume) (filterByAZ : Bool) : Bool :=
  stack.found d.metadata && !(filterByAZ && !stack.ignoreAZ && d.availabilityZone ≠ stack.zone)

/-- `findVolumes`; the pages that are listed may still fail to be read. -/
def findVolumes (stack : OpenstackVolumes) (list : String → Except Error (Except Error (List CinderVolume))) :
    Except Error (List Volume) :=
  match list stack.project with
  | .error err => .error s!"FindVolumes: Failed to list volumes: {err}"
  | .ok (.error err) => .error s!"FindVolumes: Failed to extract volumes: {err}"
  | .ok (.ok vols) => .ok ((vols.filter (stack.matchesTags · true)).map stack.buildOpenstackVolume)

end OpenstackVolumes

/-! ## Hetzner -/

/-- `hcloud.Volume`: the server is known by its ID, the location by its name. -/
structure HcloudVolume where
  id : Int
  server : Option Int
  location : Option String

structure HetznerVolumes where
  clusterName : String
  matchNameTags : GoMap String
  serverID : Int
  serverLocation : Option String

namespace HetznerVolumes

/-- The label selector of `getMatchingVolumes`. -/
def labelSelector (matchLabels : GoMap String) : String :=
  ",".intercalate (matchLabels.pairs.map fun (k, v) => if v = "" then k else k ++ "=" ++ v)

/-- The body of the loop of `FindVolumes`, for a volume of the same location. -/
def localEtcdVolume (a : HetznerVolumes) (volume : HcloudVolume) : Volume :=
  let volumeID := toString volume.id
  let vol := unattached ("hcloud-" ++ volumeID) volumeID ("vol-" ++ volumeID) "" (a.clusterName ++ "-" ++ volumeID)
  match volume.server with
  | none => vol
  | some server => attached vol (toString server) (server = a.serverID) ("/dev/disk/by-id/scsi-0HC_Volume_" ++ volumeID)

def findVolumes (a : HetznerVolumes) (list : String → Except Error (List HcloudVolume)) : Except Error (List Volume) :=
  match a.serverLocation with
  | none => .error "failed to find server location for the running server"
  | some serverLocation =>
    let selector := labelSelector a.matchNameTags
    match list selector with
    | .error err =>
      .error s!"failed to get matching volumes: failed to get volumes matching label selector {selector.quote}: {err}"
    | .ok volumes => .ok ((volumes.filter (·.location = some serverLocation)).map a.localEtcdVolume)

end HetznerVolumes

/-! ## DigitalOcean -/

/-- `godo.Volume` -/
structure DoVolume where
  id : String
  name : String
  dropletIDs : List Int
  tags : List String

/-- `godo.Pages` -/
structure DoPages where
  prev : String
  next : String

/-- What the API lists for a region and a page, with the links to other pages,
and `pageForURL`. -/
structure DoApi where
  listVolumes : Option String → Int → Except Error (List DoVolume × Option DoPages)
  pageForURL : String → Except Error Int

structure DOVolumes extends MatchTags where
  clusterName : String
  region : String
  dropletID : Int
  nameTag : String
  dropletTags : List String

/-- `current` -/
def DoPages.current (p : DoPages) (pageForURL : String → Except Error Int) : Except Error Int :=
  if p.prev = "" ∧ p.next ≠ "" then .ok 1
  else if p.prev ≠ "" then
    match pageForURL p.prev with
    | .error err => .error err
    | .ok prevPage => .ok (prevPage + 1)
  else .ok 0

/-- The loop of `getAllVolumesByRegion`, over at most `fuel` pages; `none` is a
listing that has not come to its end. -/
def getAllVolumes (api : DoApi) (region : Option String) : Nat → Int → List DoVolume → Option (Except Error (List DoVolume))
  | 0, _, _ => none
  | fuel + 1, page, allVolumes =>
    match api.listVolumes region page with
    | .error err => some (.error err)
    | .ok (volumes, pages) =>
      match pages with
      | none => some (.ok (allVolumes ++ volumes))
      | some p =>
        if p.next = "" then some (.ok (allVolumes ++ volumes))
        else
          match p.current api.pageForURL with
          | .error err => some (.error err)
          | .ok page => getAllVolumes api region fuel (page + 1) (allVolumes ++ volumes)

namespace DOVolumes

variable (a : DOVolumes) (toUpper : String → String)

/-- `Contains` -/
def containsTag (dotags : List String) (x : String) : Bool := dotags.any fun n => toUpper x = toUpper n

def matchesDropletTags (volume : DoVolume) : Bool :=
  a.matchTags.pairs.all fun (k, v) =>
    containsTag toUpper volume.tags (k ++ ":" ++ v) && containsTag toUpper a.dropletTags (k ++ ":" ++ v)

/-- The pairs of a volume's tag and a droplet's tag that agree, for a key. -/
def matchingTagCount (volume : DoVolume) (matchTag : String) : Nat :=
  ((volume.tags.filterMap keyValue).filter fun vt => toUpper matchTag = toUpper vt.1).foldl (fun n vt =>
    n + ((a.dropletTags.filterMap keyValue).filter fun dt =>
      toUpper matchTag = toUpper dt.1 ∧ toUpper dt.2 = toUpper vt.2).length) 0

def matchesTags (volume : DoVolume) : Bool :=
  a.matchesDropletTags toUpper volume &&
    a.matchTagKeys.length = (a.matchTagKeys.map (a.matchingTagCount toUpper volume)).sum

/-- `getLocalDeviceName` -/
def getLocalDeviceName (vol : DoVolume) : String := "/dev/disk/by-id/scsi-0DO_Volume_" ++ vol.name

/-- The volume is one of the etcd cluster's, by its name. -/
def nameMatches (doVolume : DoVolume) : Bool :=
  let clusterKey :=
    if contains doVolume.name "etcd-main" then "main"
    else if contains doVolume.name "etcd-events" then "events"
    else ""
  contains a.nameTag clusterKey

/-- `appendMatchedVolume`; whichever droplet a volume is attached to, it has a local device. -/
def appendMatchedVolume (doVolume : DoVolume) : Option Volume :=
  if a.nameMatches doVolume then
    let vol := unattached ("master-" ++ doVolume.id) doVolume.id doVolume.name "" (a.clusterName ++ "-" ++ a.nameTag)
    match doVolume.dropletIDs with
    | [] => some vol
    | dropletID :: _ => some (attached vol (toString dropletID) true (getLocalDeviceName doVolume))
  else none

/-- What `findVolumes` goes through. -/
def listing (api : DoApi) (fuel : Nat) : Option (Except Error (List DoVolume)) :=
  getAllVolumes api (some a.region) fuel 0 []

def findVolumes (api : DoApi) (fuel : Nat) : Option (Except Error (List Volume)) :=
  match a.listing api fuel with
  | none => none
  | some (.error err) => some (.error s!"failed to list volumes: {err}")
  | some (.ok doVolumes) => some (.ok ((doVolumes.filter (a.matchesTags toUpper)).filterMap a.appendMatchedVolume))

end DOVolumes

/-! ## What a listing says, and what is made of it -/

/-- An instance as GCE names it. No part of its URL has a slash in it. -/
structure GceInstance where
  scheme : String
  host : String
  service : String
  version : String
  project : String
  zone : String
  name : String
  whole : ∀ part ∈ [scheme, host, service, version, project, zone, name], '/' ∉ part.toList

def GceInstance.parts (i : GceInstance) : List String :=
  [i.scheme, "", i.host, i.service, i.version, "projects", i.project, "zones", i.zone, "instances", i.name]

def GceInstance.url (i : GceInstance) : String := String.ofList (['/'].intercalate (i.parts.map String.toList))

/-- The disks of a project and a zone, each attached to instances. -/
structure GceListing where
  list : String → String → Except Error (List GceDisk)
  instances : ∀ {project zone disks}, list project zone = .ok disks → ∀ d ∈ disks, ∀ u ∈ d.users,
    ∃ i : GceInstance, u = i.url

/-- A provider, and the cloud it is in. -/
inductive Cloud where
  | aws (a : AWSVolumes) (describe : List Ec2Filter → Except Error (List Ec2Volume))
  | gce (g : GCEVolumes) (unescape : String → Except Error String) (disks : GceListing)
  | openstack (stack : OpenstackVolumes) (list : String → Except Error (Except Error (List CinderVolume)))
  | hetzner (a : HetznerVolumes) (list : String → Except Error (List HcloudVolume))
  | digitalOcean (a : DOVolumes) (toUpper : String → String) (api : DoApi)

namespace Cloud

/-- `FindVolumes` returns this. -/
def Finds : Cloud → Except Error (List Volume) → Prop
  | aws a describe, r => a.findVolumes describe = r
  | gce g unescape disks, r => g.findVolumes unescape disks.list = r
  | openstack stack list, r => stack.findVolumes list = r
  | hetzner a list, r => a.findVolumes list = r
  | digitalOcean a toUpper api, r => ∃ fuel, a.findVolumes toUpper api fuel = some r

/-- The listing has a volume of this ID that is attached to this instance. -/
def AttachedHere : Cloud → String → Prop
  | aws a describe, id => ∃ volumes, describe (a.filters true) = .ok volumes ∧ ∃ v ∈ volumes,
      stringValue v.volumeId = id ∧ ∃ attachment ∈ v.attachments, stringValue attachment.instanceId = a.instanceID
  | gce g _ disks, id => ∃ listed, disks.list g.project g.zone = .ok listed ∧ ∃ d ∈ listed, d.selfLink = id ∧
      ∃ i : GceInstance, i.url ∈ d.users ∧ i.project = g.project ∧ i.zone = g.zone ∧ i.name = g.instanceName
  | openstack stack list, id => ∃ vols, list stack.project = .ok (.ok vols) ∧ ∃ d ∈ vols, d.id = id ∧
      ∃ attachment ∈ d.attachments, attachment.serverID = stack.serverID
  | hetzner a list, id => ∃ volumes, list (HetznerVolumes.labelSelector a.matchNameTags) = .ok volumes ∧
      ∃ v ∈ volumes, toString v.id = id ∧ v.server = some a.serverID
  | digitalOcean a _ api, id => ∃ fuel volumes, a.listing api fuel = some (.ok volumes) ∧
      ∃ v ∈ volumes, v.id = id ∧ a.dropletID ∈ v.dropletIDs

/-- A volume that is returned with a local device is attached to this instance. -/
def Honest (c : Cloud) : Prop :=
  ∀ volumes, c.Finds (.ok volumes) → ∀ v ∈ volumes, v.localDevice ≠ "" → c.AttachedHere v.providerID

/-- The mount controller looks for the device of a volume, and has it mounted in
the end, only if the volume is attached to this instance or attached by the call. -/
def Minded (c : Cloud) : Prop :=
  ∀ containerized fuel mounted tr p, Runs (mountMasterVolumes containerized fuel mounted) tr p →
    (∀ r, ⟨.findVolumes, r⟩ ∈ tr → c.Finds r) →
    (∀ e ∈ tr, ∀ v, e.req = .findMountedVolume v →
      c.AttachedHere v.providerID ∨ ∃ w, ⟨.attachVolume w, .ok v⟩ ∈ tr) ∧
    ∀ mounted' x, p = .ret (mounted', x) → ∀ k w, mounted'.lookup k = some w → mounted.lookup k = some w ∨
      c.AttachedHere w.providerID ∨ ∃ u v, ⟨.attachVolume u, .ok v⟩ ∈ tr ∧ w.providerID = v.providerID

/-- Every DigitalOcean volume that is returned and attached to some droplet is
attached to this one; nothing is asked of the other clouds. -/
def OwnDroplet : Cloud → Prop
  | digitalOcean a toUpper api => ∀ fuel volumes, a.listing api fuel = some (.ok volumes) → ∀ v ∈ volumes,
      a.matchesTags toUpper v = true → a.nameMatches v = true → v.dropletIDs ≠ [] →
        (digitalOcean a toUpper api).AttachedHere v.id
  | _ => True

end Cloud

/-! ## The loops over attachments -/

section Loop

variable {α : Type} (machine : α → String) (here : α → Bool) (device : α → String)

theorem foldl_attached_providerID (l : List α) (vol : Volume) :
    (l.foldl (fun vol x => attached vol (machine x) (here x) (device x)) vol).providerID = vol.providerID := by
  induction l generalizing vol with
  | nil => rfl
  | cons x l ih => exact ih _

/-- A local device comes from an attachment to this instance. -/
theorem here_of_foldl_attached {l : List α} {vol : Volume} (hvol : vol.localDevice = "")
    (h : (l.foldl (fun vol x => attached vol (machine x) (here x) (device x)) vol).localDevice ≠ "") :
    ∃ x ∈ l, here x = true := by
  induction l generalizing vol with
  | nil => exact absurd hvol h
  | cons x l ih =>
    by_cases hx : here x = true
    · exact ⟨x, List.mem_cons_self, hx⟩
    · have hnext : (attached vol (machine x) (here x) (device x)).localDevice = "" := by simp [attached, hx, hvol]
      obtain ⟨y, hy, hhere⟩ := ih hnext h
      exact ⟨y, List.mem_cons_of_mem _ hy, hhere⟩

end Loop

namespace GceInstance

theorem split_url (i : GceInstance) : split i.url = i.parts := by
  have hparts : ∀ part ∈ i.parts.map String.toList, '/' ∉ part := by
    have hwhole := i.whole
    simp only [List.mem_cons, List.not_mem_nil, or_false, forall_eq_or_imp, forall_eq] at hwhole
    simp [parts, hwhole]
  rw [split, url, String.toList_ofList, List.splitOn_intercalate _ hparts (by simp [parts])]
  simp [Function.comp_def]

/-- A URL of an instance is read as that instance, if it is read at all. -/
theorem parse_url {i : GceInstance} {u : GoogleCloudURL} (h : parseGoogleCloudURL i.url = .ok u) :
    u.project = i.project ∧ u.zone = i.zone ∧ u.name = i.name := by
  simp only [parseGoogleCloudURL, split_url, parts] at h
  split at h
  · cases h
  split at h
  · cases h
  split at h
  · cases h
  simp [parseTokens] at h
  subst h
  exact ⟨rfl, rfl, rfl⟩

end GceInstance

/-! ## Each provider -/

theorem AWSVolumes.describeVolume_here {a : AWSVolumes} {v : Ec2Volume} {vol : Volume} (h : a.describeVolume v = some vol)
    (hlocal : vol.localDevice ≠ "") : stringValue v.volumeId = vol.providerID ∧
      ∃ attachment ∈ v.attachments, stringValue attachment.instanceId = a.instanceID := by
  simp only [describeVolume] at h
  split at h
  · cases h
  cases h
  refine ⟨by simp only [foldl_attached_providerID]; rfl, ?_⟩
  obtain ⟨attachment, hmem, hhere⟩ := here_of_foldl_attached _ _ _ rfl hlocal
  exact ⟨attachment, hmem, of_decide_eq_true hhere⟩

theorem GCEVolumes.attachUsers_here {g : GCEVolumes} {d : GceDisk} : ∀ {users : List String} {vol vol' : Volume},
    (∀ u ∈ users, ∃ i : GceInstance, u = i.url) → g.attachUsers d users vol = .ok vol' →
    vol'.providerID = vol.providerID ∧ (vol.localDevice = "" → vol'.localDevice ≠ "" → ∃ i : GceInstance,
      i.url ∈ users ∧ i.project = g.project ∧ i.zone = g.zone ∧ i.name = g.instanceName)
  | [], _, _, _, h => by
    cases h
    exact ⟨rfl, fun hnone hlocal => absurd hnone hlocal⟩
  | attachedTo :: users, vol, vol', husers, h => by
    obtain ⟨⟨i, rfl⟩, hrest⟩ := List.forall_mem_cons.1 husers
    simp only [attachUsers] at h
    split at h
    · cases h
    next u hparse =>
      obtain ⟨hproject, hzone, hname⟩ := GceInstance.parse_url hparse
      obtain ⟨hid, hhere⟩ := attachUsers_here hrest h
      refine ⟨hid, fun hnone hlocal => ?_⟩
      by_cases hthis : u.project = g.project ∧ u.zone = g.zone ∧ u.name = g.instanceName
      · exact ⟨i, List.mem_cons_self, hproject ▸ hthis.1, hzone ▸ hthis.2.1, hname ▸ hthis.2.2⟩
      · obtain ⟨j, hj, hthat⟩ := hhere (by simp [attached, hthis, hnone]) hlocal
        exact ⟨j, List.mem_cons_of_mem _ hj, hthat⟩

theorem GCEVolumes.buildGCEVolume_here {g : GCEVolumes} {unescape : String → Except Error String} {d : GceDisk}
    {vol : Volume} (husers : ∀ u ∈ d.users, ∃ i : GceInstance, u = i.url) (h : g.buildGCEVolume unescape d = .ok vol)
    (hlocal : vol.localDevice ≠ "") : d.selfLink = vol.providerID ∧ ∃ i : GceInstance, i.url ∈ d.users ∧
      i.project = g.project ∧ i.zone = g.zone ∧ i.name = g.instanceName := by
  simp only [buildGCEVolume] at h
  split at h
  · cases h
  · obtain ⟨hid, hhere⟩ := attachUsers_here husers h
    exact ⟨hid.symm, hhere rfl hlocal⟩

theorem OpenstackVolumes.buildOpenstackVolume_here {stack : OpenstackVolumes} {d : CinderVolume}
    (hlocal : (stack.buildOpenstackVolume d).localDevice ≠ "") : d.id = (stack.buildOpenstackVolume d).providerID ∧
      ∃ attachment ∈ d.attachments, attachment.serverID = stack.serverID := by
  refine ⟨by simp only [buildOpenstackVolume, foldl_attached_providerID]; rfl, ?_⟩
  obtain ⟨attachment, hmem, hhere⟩ := here_of_foldl_attached _ _ _ rfl hlocal
  exact ⟨attachment, hmem, of_decide_eq_true hhere⟩

theorem HetznerVolumes.localEtcdVolume_here {a : HetznerVolumes} {v : HcloudVolume}
    (hlocal : (a.localEtcdVolume v).localDevice ≠ "") :
    toString v.id = (a.localEtcdVolume v).providerID ∧ v.server = some a.serverID := by
  obtain ⟨id, server, location⟩ := v
  cases server with
  | none => exact absurd rfl hlocal
  | some server =>
    by_cases hthis : server = a.serverID
    · exact ⟨rfl, congrArg some hthis⟩
    · exact absurd (by simp [localEtcdVolume, attached, hthis, unattached]) hlocal

theorem DOVolumes.getLocalDeviceName_ne_empty (v : DoVolume) : getLocalDeviceName v ≠ "" := by
  intro h
  have hempty := (String.append_eq_empty_iff.1 h).1
  exact absurd hempty (by decide +kernel)

/-- A volume that is appended has a local device exactly if it is attached to a droplet. -/
theorem DOVolumes.appendMatchedVolume_eq_some {a : DOVolumes} {v : DoVolume} {vol : Volume}
    (h : a.appendMatchedVolume v = some vol) :
    a.nameMatches v = true ∧ vol.providerID = v.id ∧ (vol.localDevice ≠ "" ↔ v.dropletIDs ≠ []) := by
  simp only [appendMatchedVolume] at h
  split at h
  next hname =>
    refine ⟨hname, ?_⟩
    split at h
    next hnone =>
      cases h
      simp [unattached, hnone]
    next hsome =>
      cases h
      refine ⟨rfl, iff_of_true (getLocalDeviceName_ne_empty v) ?_⟩
      rw [hsome]
      exact List.cons_ne_nil _ _
  · cases h

theorem DOVolumes.exists_appendMatchedVolume {a : DOVolumes} {v : DoVolume} (h : a.nameMatches v = true) :
    ∃ vol, a.appendMatchedVolume v = some vol := by
  simp only [appendMatchedVolume, h, if_true]
  split <;> exact ⟨_, rfl⟩

theorem DOVolumes.mem_findVolumes {a : DOVolumes} {toUpper : String → String} {api : DoApi} {fuel : Nat}
    {vols : List Volume} (h : a.findVolumes toUpper api fuel = some (.ok vols)) :
    ∃ volumes, a.listing api fuel = some (.ok volumes) ∧ ∀ vol, vol ∈ vols ↔
      ∃ v ∈ volumes, a.matchesTags toUpper v = true ∧ a.appendMatchedVolume v = some vol := by
  simp only [findVolumes] at h
  split at h
  · cases h
  · cases h
  next volumes hlisting =>
    cases h
    refine ⟨volumes, hlisting, fun vol => ?_⟩
    simp [List.mem_filterMap, List.mem_filter, and_assoc]

/-! ## The providers together -/

namespace Cloud

theorem honest_of_ownDroplet {c : Cloud} (h : c.OwnDroplet) : c.Honest := by
  intro vols hfinds vol hvol hlocal
  cases c with
  | aws a describe =>
    simp only [Finds, AWSVolumes.findVolumes, AWSVolumes.describeVolumes] at hfinds
    split at hfinds
    · cases hfinds
    next volumes hlist =>
      cases hfinds
      obtain ⟨v, hv, hdescribe⟩ := List.mem_filterMap.1 hvol
      exact ⟨volumes, hlist, v, hv, AWSVolumes.describeVolume_here hdescribe hlocal⟩
  | gce g unescape disks =>
    simp only [Finds, GCEVolumes.findVolumes] at hfinds
    split at hfinds
    · cases hfinds
    next listed hlist =>
      cases hfinds
      obtain ⟨d, hd, hbuild⟩ := List.mem_filterMap.1 hvol
      have hd := (List.mem_filter.1 hd).1
      have hbuild : g.buildGCEVolume unescape d = .ok vol := by
        cases hbuilt : g.buildGCEVolume unescape d with
        | error => simp [hbuilt, Except.toOption] at hbuild
        | ok built =>
          have : built = vol := by simpa [hbuilt, Except.toOption] using hbuild
          rw [this]
      exact ⟨listed, hlist, d, hd, GCEVolumes.buildGCEVolume_here (disks.instances hlist d hd) hbuild hlocal⟩
  | openstack stack list =>
    simp only [Finds, OpenstackVolumes.findVolumes] at hfinds
    split at hfinds
    · cases hfinds
    · cases hfinds
    next listed hlist =>
      cases hfinds
      obtain ⟨d, hd, rfl⟩ := List.mem_map.1 hvol
      exact ⟨listed, hlist, d, (List.mem_filter.1 hd).1, OpenstackVolumes.buildOpenstackVolume_here hlocal⟩
  | hetzner a list =>
    simp only [Finds, HetznerVolumes.findVolumes] at hfinds
    split at hfinds
    · cases hfinds
    split at hfinds
    · cases hfinds
    next volumes hlist =>
      cases hfinds
      obtain ⟨v, hv, rfl⟩ := List.mem_map.1 hvol
      exact ⟨volumes, hlist, v, (List.mem_filter.1 hv).1, HetznerVolumes.localEtcdVolume_here hlocal⟩
  | digitalOcean a toUpper api =>
    obtain ⟨fuel, hfinds⟩ := hfinds
    obtain ⟨volumes, hlisting, hmem⟩ := DOVolumes.mem_findVolumes hfinds
    obtain ⟨v, hv, htags, happend⟩ := (hmem vol).1 hvol
    obtain ⟨hname, hid, hdroplets⟩ := DOVolumes.appendMatchedVolume_eq_some happend
    exact hid ▸ h fuel volumes hlisting v hv htags hname (hdroplets.1 hlocal)

theorem ownDroplet_of_honest {c : Cloud} (h : c.Honest) : c.OwnDroplet := by
  cases c with
  | digitalOcean a toUpper api =>
    intro fuel volumes hlisting v hv htags hname hdroplets
    obtain ⟨vol, happend⟩ := DOVolumes.exists_appendMatchedVolume hname
    obtain ⟨-, hid, hlocal⟩ := DOVolumes.appendMatchedVolume_eq_some happend
    have hfinds : a.findVolumes toUpper api fuel =
        some (.ok ((volumes.filter (a.matchesTags toUpper)).filterMap a.appendMatchedVolume)) := by
      simp only [DOVolumes.findVolumes, hlisting]
    have hvol := List.mem_filterMap.2 ⟨v, List.mem_filter.2 ⟨hv, htags⟩, happend⟩
    exact hid ▸ h _ ⟨fuel, hfinds⟩ vol hvol (hlocal.2 hdroplets)
  | _ => trivial

/-- The controller goes by what it is told. -/
theorem minded_of_honest {c : Cloud} (h : c.Honest) : c.Minded := by
  intro containerized fuel mounted tr p hrun hanswers
  have hown (v : Volume) (hv : Own tr v) : c.AttachedHere v.providerID ∨ ∃ w, ⟨.attachVolume w, .ok v⟩ ∈ tr := by
    refine hv.imp_left ?_
    rintro ⟨volumes, hreport, hmem, hlocal⟩
    exact h volumes (hanswers _ hreport) v hmem hlocal
  obtain ⟨hminds, hend⟩ := takes_own hrun
  refine ⟨fun e he v hv => hown v (hminds e he v hv), fun mounted' x hp k w hw => ?_⟩
  refine (hend mounted' x hp k w hw).imp_right ?_
  rintro ⟨v, hv, hid⟩
  rcases hown v hv with hhere | ⟨u, hu⟩
  · exact .inl (hid ▸ hhere)
  · exact .inr ⟨u, v, hu, hid⟩

/-- **A local device means attached here**, and the mount controller takes no
other machine's volume for its own, exactly if no DigitalOcean volume that is
returned is attached to other droplets only. -/
theorem local_device_means_attached_here (c : Cloud) : c.Honest ∧ c.Minded ↔ c.OwnDroplet :=
  ⟨fun h => ownDroplet_of_honest h.1, fun h => ⟨honest_of_ownDroplet h, minded_of_honest (honest_of_ownDroplet h)⟩⟩

end Cloud

/-! ### A droplet that replaces another -/

namespace Example

def tags : List String := ["k8s-index:1", "kubernetescluster:c"]

/-- Droplet 2, with the tags of droplet 1 that it replaces. -/
def replacement : DOVolumes where
  matchTagKeys := ["k8s-index"]
  matchTags := (∅ : GoMap String).insert "kubernetescluster" "c"
  clusterName := "c"
  region := "nyc1"
  dropletID := 2
  nameTag := "etcdcluster-main"
  dropletTags := tags

/-- The volume, which is still attached to droplet 1. -/
def listed : DoVolume := ⟨"v1", "etcd-main-1", [1], tags⟩

def api : DoApi := ⟨fun _ _ => .ok ([listed], none), fun _ => .ok 1⟩

def toUpper (s : String) : String := String.ofList (s.toList.map Char.toUpper)

def cloud : Cloud := .digitalOcean replacement toUpper api

def found : Volume :=
  ⟨"master-v1", "v1", "etcd-main-1", "/dev/disk/by-id/scsi-0DO_Volume_etcd-main-1", "1", "", "", ⟨"c-etcdcluster-main"⟩⟩

theorem cloud_finds : cloud.Finds (.ok [found]) := ⟨1, by decide +kernel⟩

theorem not_attachedHere : ¬ cloud.AttachedHere "v1" := by
  rintro ⟨fuel, volumes, hlisting, v, hv, -, hdroplet⟩
  cases fuel with
  | zero => cases hlisting
  | succ fuel =>
    cases hlisting
    rw [List.mem_singleton.1 hv] at hdroplet
    revert hdroplet
    decide

/-- The machine, on which the device of the volume does not appear. -/
def machine : (r : MountReq) → Option r.Resp
  | .findVolumes => some (.ok [found])
  | .stat _ => some (.error .notExist)
  | .findMountedVolume _ => some (.ok "")
  | _ => none

/-- What a call comes to there. -/
def waits : Trace mountSig :=
  [⟨.findVolumes, .ok [found]⟩, ⟨.stat "/mnt/disks", .error .notExist⟩, ⟨.findMountedVolume found, .ok ""⟩]

theorem runs_waits : ∃ p, Runs (mountMasterVolumes false 1 ∅) waits p := by
  have hwaits : ((mountMasterVolumes false 1 ∅).follow machine).1 = waits := by rfl
  exact ⟨_, hwaits ▸ Prog.follow_runs⟩

def master : GceInstance := ⟨"https:", "www.googleapis.com", "compute", "v1", "p", "us-east1-b", "master-1", by decide⟩

/-- One disk, attached to the instance. -/
def gceDisks : GceListing where
  list _ _ := .ok [⟨"d1", "d1", "us-east1-b", "READY", ∅, [master.url]⟩]
  instances h d hd u hu := by
    cases h
    rw [List.mem_singleton.1 hd] at hu
    exact ⟨master, List.mem_singleton.1 hu⟩

-- it is local to that instance and to no other
example : (Cloud.gce ⟨⟨[], ∅⟩, "", "c", "p", "us-east1-b", "master-1"⟩ .ok gceDisks).Finds
      (.ok [⟨"master-us-east1-b-d1", "d1", "d1", "/dev/disk/by-id/google-d1", master.url, "", "READY", ⟨"d1"⟩⟩]) ∧
    (Cloud.gce ⟨⟨[], ∅⟩, "", "c", "p", "us-east1-b", "master-2"⟩ .ok gceDisks).Finds
      (.ok [⟨"master-us-east1-b-d1", "d1", "d1", "", master.url, "", "READY", ⟨"d1"⟩⟩]) := by
  simp only [Cloud.Finds]
  decide +kernel

end Example

/-- Droplet 2 is told that the volume of droplet 1 has a local device. The mount
controller waits for that device, without having attached anything. -/
theorem another_droplets_volume_taken :
    Example.cloud.Finds (.ok [Example.found]) ∧ Example.found.localDevice ≠ "" ∧
    ¬ Example.cloud.AttachedHere Example.found.providerID ∧
    ∃ tr p, Runs (mountMasterVolumes false 1 ∅) tr p ∧ (∀ r, ⟨.findVolumes, r⟩ ∈ tr → Example.cloud.Finds r) ∧
      ⟨.findMountedVolume Example.found, .ok ""⟩ ∈ tr ∧ ∀ e ∈ tr, tries e = false := by
  obtain ⟨p, hrun⟩ := Example.runs_waits
  refine ⟨Example.cloud_finds, by decide +kernel, Example.not_attachedHere, Example.waits, p, hrun, fun r hr => ?_, ?_, ?_⟩
  · have hr : r = .ok [Example.found] := by simpa [Example.waits] using hr
    exact hr ▸ Example.cloud_finds
  · simp [Example.waits]
  · simp [Example.waits, tries]

end Etcdadm.VolumeProviders
