/-
Finding, attaching and mounting the volume of a master (`volumes/mounter.go`,
`boot.go`).

A call to `mountMasterVolumes` is a program from the volumes that are mounted
to those mounted after it. Its requests are what it asks of the cloud provider
and of the machine, and any of them may be answered in any way, differently in
each call. `AttachVolume` writes to the volume it is given, so its answer is
the volume as it left it.
-/
import Etcdadm.GoMap
import Etcdadm.Vfs

namespace Etcdadm

structure VolumeInfo where
  description : String
  deriving DecidableEq, Repr

structure Volume where
  mountName : String
  providerID : String
  etcdName : String
  /-- set if the volume is attached to the local machine -/
  localDevice : String
  /-- the machine the volume is attached to, or empty -/
  attachedTo : String
  mountpoint : String
  status : String
  info : VolumeInfo
  deriving DecidableEq, Repr

namespace VolumeMounter

/-! ## What is asked of the provider and the machine -/

/-- `mount.MountPoint` -/
structure MountPoint where
  device : String
  path : String

inductive MountReq where
  | findVolumes
  | attachVolume (v : Volume)
  | findMountedVolume (v : Volume)
  /-- `time.Sleep`, of a second -/
  | sleep
  /-- `os.Stat` -/
  | stat (path : String)
  /-- `nsenter.NewNsenter` -/
  | newNsenter (root : String)
  /-- `List` of the mounts of the host -/
  | listMounts
  | mkdirAll (path : String)
  | formatAndMount (device mountpoint fstype : String)
  | resize (device mountpoint : String)
  | getDeviceNameFromMount (target : String)
  /-- `filepath.EvalSymlinks` -/
  | evalSymlinks (dev : String)
  /-- `filepath.Abs` -/
  | abs (path : String)
  /-- `Mount`, inside the container -/
  | mount (source target fstype : String)

@[reducible] def MountReq.Resp : MountReq → Type
  | .findVolumes => Except Error (List Volume)
  | .attachVolume _ => Except Error Volume
  | .sleep => Unit
  | .stat _ => Except VfsError Unit
  | .listMounts => Except Error (List MountPoint)
  | .findMountedVolume _ | .getDeviceNameFromMount _ | .evalSymlinks _ | .abs _ => Except Error String
  | .newNsenter _ | .mkdirAll _ | .formatAndMount _ _ _ | .resize _ _ | .mount _ _ _ => Except Error Unit

@[reducible] def mountSig : Sig := ⟨MountReq, MountReq.Resp⟩

abbrev MountM := Prog mountSig

def ask (r : MountReq) : MountM r.Resp := .call (S := mountSig) r .ret

/-! ## Attaching -/

/-- The loop of `attachMasterVolumes` over the volumes that are free. -/
def attachLoop : List Volume → List Volume → MountM (List Volume)
  | [], attached => return attached
  | v :: tryAttach, attached => do
    if attached.length > 0 then
      return attached
    match ← ask (.attachVolume v) with
    | .error _ => attachLoop tryAttach attached
    | .ok v =>
      if v.localDevice = "" ∧ v.mountpoint = "" then
        .crash "AttachVolume did not set LocalDevice or Mountpoint"
      else attachLoop tryAttach (attached ++ [v])

def attachMasterVolumes : MountM (Except Error (List Volume)) := do
  match ← ask .findVolumes with
  | .error err => return .error err
  | .ok volumes =>
    let tryAttach := volumes.filter (·.attachedTo = "")
    let attached := volumes.filter (·.localDevice ≠ "")
    if tryAttach.length = 0 then
      return .ok attached
    return .ok (← attachLoop tryAttach attached)

/-! ## Mounting -/

/-- `PathFor`; the empty path is a panic, a relative one a fatal error. -/
def pathFor (containerized : Bool) (hostPath : String) : MountM String :=
  match hostPath.toList with
  | '/' :: rest => return (if containerized then "/rootfs/" else "/") ++ String.ofList rest
  | [] => .crash "index out of range [0] with length 0"
  | _ => .crash s!"path was not absolute: {hostPath.quote}"

/-- The loop that waits for the device, for at most `fuel` rounds; a longer
wait is a call that has not returned. -/
def waitForDevice (v : Volume) : Nat → MountM (Except Error String)
  | 0 => .crash "still waiting"
  | fuel + 1 => do
    match ← ask (.findMountedVolume v) with
    | .error err => return .error err
    | .ok found =>
      if found ≠ "" then
        return .ok found
      ask .sleep
      waitForDevice v fuel

def namesFor (containerized : Bool) (dev : String) : MountM (List String) := do
  let names := [dev, ← pathFor containerized dev]
  match ← ask (.evalSymlinks dev) with
  | .error _ => return names
  | .ok s =>
    match ← ask (.abs s) with
    | .error _ => return names ++ [s]
    | .ok a => return names ++ [a]

/-- `isSameDevice`; the loops compare the positions of the names. -/
def isSameDevice (containerized : Bool) (dev1 dev2 : String) : MountM Bool := do
  let aliases1 ← namesFor containerized dev1
  let aliases2 ← namesFor containerized dev2
  return (List.range aliases1.length).any fun k1 => (List.range aliases2.length).any fun k2 => k1 == k2

/-- The last part of `safeFormatAndMount`, which mounts the device inside the container too. -/
def mountInContainer (containerized : Bool) (device mountpoint fstype : String) : MountM (Option Error) := do
  if !containerized then
    return none
  let source ← pathFor containerized device
  let target ← pathFor containerized mountpoint
  match ← ask (.getDeviceNameFromMount target) with
  | .error err => return some s!"error checking for mounts of {target} inside container: {err}"
  | .ok mountedDevice =>
    if mountedDevice ≠ "" then
      if !(← isSameDevice containerized device mountedDevice) then
        return some s!"device already mounted at {target}, but is {mountedDevice} and we want {source} or {device}"
      return none
    match ← ask (.mount source target fstype) with
    | .error err => return some s!"error mounting {source} inside container at {target}: {err}"
    | .ok () => return none

/-- The middle part of `safeFormatAndMount`, on the host. -/
def mountOnHost (containerized : Bool) (device mountpoint fstype : String) : MountM (Option Error) := do
  match ← ask .listMounts with
  | .error err => return some s!"error listing existing mounts: {err}"
  | .ok mounts =>
    let existing := mounts.filter (·.path = mountpoint)
    if existing.length = 0 then
      let dir ← pathFor containerized mountpoint
      match ← ask (.mkdirAll dir) with
      | .error err => return some err
      | .ok () =>
        match ← ask (.formatAndMount device mountpoint fstype) with
        | .error err =>
          return some s!"error formatting and mounting disk {device.quote} on {mountpoint.quote}: {err}"
        | .ok () => return none
    if existing.length ≠ 1 then
      return some s!"found multiple existing mounts of {device.quote} at {mountpoint.quote}"
    return none

def safeFormatAndMount (containerized : Bool) (fuel : Nat) (volume : Volume) (mountpoint fstype : String) :
    MountM (Option Error) := do
  match ← waitForDevice volume fuel with
  | .error err => return some err
  | .ok device =>
    if containerized then
      let root ← pathFor containerized "/"
      if let .error err ← ask (.newNsenter root) then
        return some s!"error building ns-enter helper: {err}"
    if let some err ← mountOnHost containerized device mountpoint fstype then
      return some err
    match ← ask (.resize device mountpoint) with
    | .error err => return some s!"error resizing disk {device.quote} on {mountpoint.quote}: {err}"
    | .ok () => mountInContainer containerized device mountpoint fstype

/-- The loop of `mountMasterVolumes`: `k.mounted` after it, and an error that ends the call. -/
def mountLoop (containerized : Bool) (fuel : Nat) : List Volume → GoMap Volume → MountM (GoMap Volume × Option Error)
  | [], mounted => return (mounted, none)
  | v :: attached, mounted => do
    if mounted.size > 0 then
      return (mounted, none)
    if (mounted.lookup v.providerID).isSome then
      return ← mountLoop containerized fuel attached mounted
    if v.mountpoint ≠ "" then
      return ← mountLoop containerized fuel attached (mounted.insert v.providerID v)
    let disks ← pathFor containerized "/mnt/disks"
    match ← ask (.stat disks) with
    | .error (.failed err) => return (mounted, some s!"error checking for /mnt/disks: {err}")
    | r =>
      let mountpoint := (if r matches .ok () then "/mnt/disks/" else "/mnt/") ++ v.mountName
      match ← safeFormatAndMount containerized fuel v mountpoint "" with
      | some _ => mountLoop containerized fuel attached mounted
      | none =>
        let path ← pathFor containerized mountpoint
        mountLoop containerized fuel attached (mounted.insert v.providerID { v with mountpoint := path })

/-- `mountMasterVolumes`, on `k.mounted`. -/
def mountMasterVolumes (containerized : Bool) (fuel : Nat) (mounted : GoMap Volume) :
    MountM (GoMap Volume × Except Error (List Volume)) := do
  match ← attachMasterVolumes with
  | .error err => return (mounted, .error s!"unable to attach master volumes: {err}")
  | .ok attached =>
    let (mounted, err) ← mountLoop containerized fuel attached mounted
    match err with
    | some err => return (mounted, .error err)
    | none => return (mounted, .ok (mounted.pairs.map Prod.snd))

/-! ## What a call asks for, and what it returns -/

/-- Nothing is found or attached, and only the devices of these volumes are looked for. -/
def About (volumes : List Volume) : MountReq → Prop
  | .findVolumes | .attachVolume _ => False
  | .findMountedVolume v => v ∈ volumes
  | _ => True

section Uses

variable {volumes : List Volume}

theorem uses_ask {α : Type} {r : MountReq} {f : r.Resp → MountM α} (hr : About volumes r)
    (hf : ∀ x, (f x).Uses (About volumes) True) : (ask r >>= f).Uses (About volumes) True := ⟨hr, hf⟩

theorem pathFor_uses (containerized : Bool) (hostPath : String) : (pathFor containerized hostPath).Uses (About volumes) True := by
  unfold pathFor
  split <;> trivial

theorem waitForDevice_uses {v : Volume} (hv : v ∈ volumes) : ∀ fuel, (waitForDevice v fuel).Uses (About volumes) True
  | 0 => trivial
  | fuel + 1 => uses_ask hv fun x => by
    cases x with
    | error => trivial
    | ok found =>
      show (if found ≠ "" then _ else _ : MountM (Except Error String)).Uses (About volumes) True
      split
      · trivial
      · exact uses_ask trivial fun _ => waitForDevice_uses hv fuel

theorem namesFor_uses (containerized : Bool) (dev : String) : (namesFor containerized dev).Uses (About volumes) True :=
  (pathFor_uses containerized dev).bind fun _ => uses_ask trivial fun x => by
    cases x with
    | error => trivial
    | ok s => exact uses_ask trivial fun y => by cases y <;> trivial

theorem isSameDevice_uses (containerized : Bool) (dev1 dev2 : String) :
    (isSameDevice containerized dev1 dev2).Uses (About volumes) True :=
  (namesFor_uses containerized dev1).bind fun _ => (namesFor_uses containerized dev2).bind fun _ => trivial

theorem mountInContainer_uses (containerized : Bool) (device mountpoint fstype : String) :
    (mountInContainer containerized device mountpoint fstype).Uses (About volumes) True := by
  unfold mountInContainer
  split
  · trivial
  · refine (pathFor_uses _ _).bind fun source => (pathFor_uses _ _).bind fun target => uses_ask trivial fun x => ?_
    cases x with
    | error => trivial
    | ok mountedDevice =>
      dsimp only
      split
      · refine (isSameDevice_uses _ _ _).bind fun same => ?_
        split <;> trivial
      · exact uses_ask trivial fun y => by cases y <;> trivial

theorem mountOnHost_uses (containerized : Bool) (device mountpoint fstype : String) :
    (mountOnHost containerized device mountpoint fstype).Uses (About volumes) True := by
  refine uses_ask trivial fun x => ?_
  cases x with
  | error => trivial
  | ok mounts =>
    dsimp only
    split
    · refine (pathFor_uses _ _).bind fun dir => uses_ask trivial fun y => ?_
      cases y with
      | error => trivial
      | ok => exact uses_ask trivial fun z => by cases z <;> trivial
    · split <;> trivial

theorem safeFormatAndMount_uses {v : Volume} (hv : v ∈ volumes) (containerized : Bool) (fuel : Nat)
    (mountpoint fstype : String) :
    (safeFormatAndMount containerized fuel v mountpoint fstype).Uses (About volumes) True := by
  have hrest (device : String) : (do
      if let some err ← mountOnHost containerized device mountpoint fstype then
        return some err
      match ← ask (.resize device mountpoint) with
      | .error err => return some s!"error resizing disk {device.quote} on {mountpoint.quote}: {err}"
      | .ok () => mountInContainer containerized device mountpoint fstype : MountM (Option Error)).Uses (About volumes) True := by
    refine (mountOnHost_uses _ _ _ _).bind fun err => ?_
    cases err with
    | some err => trivial
    | none =>
      refine uses_ask trivial fun x => ?_
      cases x with
      | error => trivial
      | ok => exact mountInContainer_uses _ _ _ _
  refine (waitForDevice_uses hv fuel).bind fun x => ?_
  cases x with
  | error => trivial
  | ok device =>
    dsimp only
    split
    · refine (pathFor_uses _ _).bind fun root => uses_ask trivial fun y => ?_
      cases y with
      | error => trivial
      | ok => exact hrest device
    · exact hrest device

theorem mountLoop_uses (containerized : Bool) (fuel : Nat) : ∀ attached mounted, attached ⊆ volumes →
    (mountLoop containerized fuel attached mounted).Uses (About volumes) True
  | [], _, _ => trivial
  | v :: attached, mounted, hsub => by
    obtain ⟨hv, hrest⟩ := List.cons_subset.1 hsub
    unfold mountLoop
    split
    · trivial
    split
    · exact mountLoop_uses containerized fuel attached mounted hrest
    split
    · exact mountLoop_uses containerized fuel attached _ hrest
    refine (pathFor_uses _ _).bind fun disks => uses_ask trivial fun x => ?_
    dsimp only
    split
    · trivial
    · refine (safeFormatAndMount_uses hv _ _ _ _).bind fun err => ?_
      cases err with
      | some => exact mountLoop_uses containerized fuel attached mounted hrest
      | none => exact (pathFor_uses _ _).bind fun path => mountLoop_uses containerized fuel attached _ hrest

end Uses

theorem returns_ask {α : Type} {r : MountReq} {f : r.Resp → MountM α} {Q : α → Prop} (h : ∀ x, (f x).Returns Q) :
    (ask r >>= f).Returns Q := h

theorem namesFor_returns (containerized : Bool) (dev : String) :
    (namesFor containerized dev).Returns fun names => 0 < names.length := by
  refine (Prog.Returns.trivially _).bind fun path _ => fun x => ?_
  cases x with
  | error => exact Nat.succ_pos 1
  | ok s =>
    intro y
    cases y <;> exact Nat.succ_pos 2

/-- Any two devices are the same: both have a name in the first position. -/
theorem isSameDevice_returns (containerized : Bool) (dev1 dev2 : String) :
    (isSameDevice containerized dev1 dev2).Returns (· = true) := by
  refine (namesFor_returns containerized dev1).bind fun aliases1 h1 => ?_
  refine (namesFor_returns containerized dev2).bind fun aliases2 h2 => ?_
  show (List.range aliases1.length).any _ = true
  simp only [List.any_eq_true, List.mem_range, beq_iff_eq]
  exact ⟨0, h1, 0, h2, rfl⟩

/-- What a call may do to `k.mounted`: put one volume into it, if it is empty. -/
def Fills (mounted mounted' : GoMap Volume) : Prop :=
  mounted' = mounted ∨ (GoMap.size mounted = 0 ∧ GoMap.size mounted' ≤ 1)

theorem Fills.of_insert {mounted mounted' : GoMap Volume} {k : String} {v : Volume} (hempty : GoMap.size mounted = 0)
    (h : Fills (mounted.insert k v) mounted') : Fills mounted mounted' := by
  have hsize : GoMap.size (mounted.insert k v) ≤ 1 := by
    have hle := GoMap.size_insert_le mounted k v
    omega
  rcases h with rfl | ⟨-, hsmall⟩
  · exact .inr ⟨hempty, hsize⟩
  · exact .inr ⟨hempty, hsmall⟩

theorem mountLoop_returns (containerized : Bool) (fuel : Nat) : ∀ attached mounted,
    (mountLoop containerized fuel attached mounted).Returns fun r => Fills mounted r.1
  | [], _ => .inl rfl
  | v :: attached, mounted => by
    unfold mountLoop
    split
    · exact .inl rfl
    next hsize =>
      have hempty : GoMap.size mounted = 0 := by omega
      split
      · exact mountLoop_returns containerized fuel attached mounted
      split
      · exact (mountLoop_returns containerized fuel attached _).mono fun _ => .of_insert hempty
      refine (Prog.Returns.trivially _).bind fun disks _ => returns_ask fun x => ?_
      dsimp only
      split
      · exact .inl rfl
      · refine (Prog.Returns.trivially _).bind fun err _ => ?_
        cases err with
        | some => exact mountLoop_returns containerized fuel attached mounted
        | none =>
          refine (Prog.Returns.trivially _).bind fun path _ => ?_
          exact (mountLoop_returns containerized fuel attached _).mono fun _ => .of_insert hempty

theorem mountMasterVolumes_returns (containerized : Bool) (fuel : Nat) (mounted : GoMap Volume) :
    (mountMasterVolumes containerized fuel mounted).Returns fun r => Fills mounted r.1 := by
  refine (Prog.Returns.trivially _).bind fun x _ => ?_
  cases x with
  | error => exact .inl rfl
  | ok attached =>
    refine (mountLoop_returns containerized fuel attached mounted).bind fun r hr => ?_
    obtain ⟨mounted', err⟩ := r
    cases err <;> exact hr

/-! ## What a call attaches -/

/-- `AttachVolume` was called. -/
def tries (e : Event mountSig) : Bool := e.req matches .attachVolume _

/-- `AttachVolume` was called, and succeeded. -/
def attaches (e : Event mountSig) : Bool :=
  match e.req, e.resp with
  | .attachVolume _, .ok _ => true
  | _, _ => false

theorem tries_of_attaches {e : Event mountSig} (h : attaches e = true) : tries e = true := by
  obtain ⟨r, x⟩ := e
  cases r with
  | attachVolume => rfl
  | _ => cases h

/-- `FindVolumes` reported these volumes. -/
def Reports (tr : Trace mountSig) (volumes : List Volume) : Prop := ⟨.findVolumes, .ok volumes⟩ ∈ tr

/-- No volume with a local device was reported. -/
def NoneLocal (tr : Trace mountSig) : Prop := ∀ volumes, Reports tr volumes → ∀ v ∈ volumes, v.localDevice = ""

/-- What a call keeps to while it runs. -/
structure Sparing (tr : Trace mountSig) : Prop where
  once : tr.countP attaches ≤ 1
  /-- it attaches after a report, and only if nothing reported is local -/
  free : ∀ e ∈ tr, tries e = true → (∃ volumes, Reports tr volumes) ∧ NoneLocal tr

theorem reports_append {tr : Trace mountSig} {e : Event mountSig} {volumes : List Volume} (he : e.req ≠ .findVolumes) :
    Reports (tr ++ [e]) volumes ↔ Reports tr volumes := by
  simp only [Reports, List.mem_append, List.mem_singleton, or_iff_left_iff_imp]
  rintro rfl
  exact absurd rfl he

theorem noneLocal_append {tr : Trace mountSig} {e : Event mountSig} (he : e.req ≠ .findVolumes) :
    NoneLocal (tr ++ [e]) ↔ NoneLocal tr := by
  simp only [NoneLocal, reports_append he]

theorem Sparing.about {tr : Trace mountSig} (h : Sparing tr) {volumes : List Volume} {r : MountReq}
    (hr : About volumes r) (x : r.Resp) :
    Sparing (tr ++ [⟨r, x⟩]) := by
  have hfind : r ≠ .findVolumes := by
    rintro rfl
    exact hr
  have htries : tries ⟨r, x⟩ = false := by
    cases r <;> first | rfl | exact hr.elim
  have hattaches : attaches ⟨r, x⟩ = false := by
    cases r <;> first | rfl | exact hr.elim
  refine ⟨by simpa [hattaches] using h.once, fun e he htry => ?_⟩
  simp only [reports_append (e := ⟨r, x⟩) hfind, noneLocal_append (e := ⟨r, x⟩) hfind]
  rcases List.mem_append.1 he with he | he
  · exact h.free e he htry
  · rw [List.mem_singleton.1 he, htries] at htry
    cases htry

theorem always_ask {α : Type} {r : MountReq} {f : r.Resp → MountM α} {I : Trace mountSig → Prop}
    {Q : Trace mountSig → α → Prop} {tr : Trace mountSig}
    (h : ∀ x, I (tr ++ [⟨r, x⟩]) ∧ (f x).Always Prog.Records I Q (tr ++ [⟨r, x⟩])) :
    (ask r >>= f).Always Prog.Records I Q tr := by
  rintro x tr' rfl
  exact h x

/-- While nothing is attached, nothing has been: so the one success ends the loop. -/
theorem attachLoop_always : ∀ (tryAttach attached : List Volume) (tr : Trace mountSig), Sparing tr →
    (attached = [] → tr.countP attaches = 0 ∧ (∃ volumes, Reports tr volumes) ∧ NoneLocal tr) →
    (attachLoop tryAttach attached).Always Prog.Records Sparing (fun tr _ => Sparing tr) tr
  | [], _, _, h, _ => h
  | v :: tryAttach, w :: attached, _, h, _ => h
  | v :: tryAttach, [], tr, h, hfree => by
    obtain ⟨hzero, hreport, hlocal⟩ := hfree rfl
    refine always_ask fun x => ?_
    have hnext : Sparing (tr ++ [⟨.attachVolume v, x⟩]) := by
      refine ⟨?_, fun e _ _ => ?_⟩
      · rw [List.countP_append, hzero, Nat.zero_add]
        exact List.countP_le_length
      · simpa only [reports_append (e := ⟨.attachVolume v, x⟩) MountReq.noConfusion,
          noneLocal_append (e := ⟨.attachVolume v, x⟩) MountReq.noConfusion] using ⟨hreport, hlocal⟩
    refine ⟨hnext, ?_⟩
    cases x with
    | error err =>
      refine attachLoop_always tryAttach [] _ hnext fun _ => ⟨by simpa [attaches] using hzero, ?_⟩
      simpa only [reports_append (e := ⟨.attachVolume v, .error err⟩) MountReq.noConfusion,
        noneLocal_append (e := ⟨.attachVolume v, .error err⟩) MountReq.noConfusion] using ⟨hreport, hlocal⟩
    | ok v' =>
      show (if _ then _ else _ : MountM (List Volume)).Always _ _ _ _
      split
      · trivial
      · exact attachLoop_always tryAttach [v'] _ hnext (by simp)

theorem attachMasterVolumes_always :
    attachMasterVolumes.Always Prog.Records Sparing (fun tr _ => Sparing tr) [] := by
  refine always_ask fun x => ?_
  have hfirst : Sparing [⟨.findVolumes, x⟩] := by
    refine ⟨List.countP_le_length, fun e he htry => ?_⟩
    rw [List.mem_singleton.1 he] at htry
    cases htry
  refine ⟨hfirst, ?_⟩
  cases x with
  | error => exact hfirst
  | ok volumes =>
    dsimp only
    split
    · exact hfirst
    · refine Prog.Always.bind (attachLoop_always _ _ _ hfirst fun hnone => ?_)
      refine ⟨rfl, ⟨volumes, List.mem_singleton_self _⟩, fun volumes' hreport v hv => ?_⟩
      cases List.mem_singleton.1 hreport
      by_contra hlocal
      have hmem : v ∈ volumes.filter (·.localDevice ≠ "") := by simpa using ⟨hv, hlocal⟩
      rw [hnone] at hmem
      cases hmem

theorem mountMasterVolumes_always (containerized : Bool) (fuel : Nat) (mounted : GoMap Volume) :
    (mountMasterVolumes containerized fuel mounted).Always Prog.Records Sparing (fun tr _ => Sparing tr) [] := by
  refine Prog.Always.bind (attachMasterVolumes_always.mono fun tr x h => ?_)
  cases x with
  | error => exact h
  | ok attached =>
    have huses := mountLoop_uses containerized fuel attached mounted (List.Subset.refl _)
    refine Prog.Always.bind ((Prog.Always.of_uses ?_ huses h).mono ?_)
    · rintro tr r x _ hr rfl h
      exact h.about hr x
    · rintro tr ⟨mounted', err⟩ h
      cases err <;> exact h

/-- **One call.** However far it has come and whatever it is answered, it
attaches at most one volume, and tries to only after a report without a local
device. -/
theorem sparing_of_runs {containerized : Bool} {fuel : Nat} {mounted : GoMap Volume} {tr : Trace mountSig}
    {p : MountM (GoMap Volume × Except Error (List Volume))}
    (h : Runs (mountMasterVolumes containerized fuel mounted) tr p) : Sparing tr :=
  ((mountMasterVolumes_always containerized fuel mounted).runs ⟨Nat.zero_le _, by simp⟩ h).1

/-! ## What a call takes for its own -/

/-- The volume was reported with a local device, or attached. -/
def Own (tr : Trace mountSig) (v : Volume) : Prop :=
  (∃ volumes, Reports tr volumes ∧ v ∈ volumes ∧ v.localDevice ≠ "") ∨ ∃ w, ⟨.attachVolume w, .ok v⟩ ∈ tr

theorem Own.append {tr : Trace mountSig} {v : Volume} (h : Own tr v) (e : Event mountSig) : Own (tr ++ [e]) v := by
  rcases h with ⟨volumes, hreport, hv⟩ | ⟨w, hw⟩
  · exact .inl ⟨volumes, List.mem_append_left _ hreport, hv⟩
  · exact .inr ⟨w, List.mem_append_left _ hw⟩

/-- Only devices of its own have been looked for. -/
def Minds (tr : Trace mountSig) : Prop := ∀ e ∈ tr, ∀ v, e.req = .findMountedVolume v → Own tr v

theorem Minds.append {tr : Trace mountSig} (h : Minds tr) {r : MountReq} (hr : ∀ v, r = .findMountedVolume v → Own tr v)
    (x : r.Resp) : Minds (tr ++ [⟨r, x⟩]) := by
  intro e he v hv
  rcases List.mem_append.1 he with he | he
  · exact (h e he v hv).append _
  · rw [List.mem_singleton.1 he] at hv
    exact (hr v hv).append _

theorem attachLoop_own : ∀ (tryAttach attached : List Volume) (tr : Trace mountSig), Minds tr →
    (∀ v ∈ attached, Own tr v) →
    (attachLoop tryAttach attached).Always Prog.Records Minds (fun tr l => Minds tr ∧ ∀ v ∈ l, Own tr v) tr
  | [], _, _, h, hown => ⟨h, hown⟩
  | v :: tryAttach, attached, tr, h, hown => by
    unfold attachLoop
    split
    · exact ⟨h, hown⟩
    refine always_ask fun x => ?_
    have hnext := h.append (r := .attachVolume v) (fun _ hr => by cases hr) x
    refine ⟨hnext, ?_⟩
    cases x with
    | error err => exact attachLoop_own tryAttach attached _ hnext fun w hw => (hown w hw).append _
    | ok v' =>
      dsimp only
      split
      · trivial
      · refine attachLoop_own tryAttach _ _ hnext fun w hw => ?_
        rcases List.mem_append.1 hw with hw | hw
        · exact (hown w hw).append _
        · rw [List.mem_singleton.1 hw]
          exact .inr ⟨v, List.mem_append_right _ (List.mem_singleton_self _)⟩

theorem attachMasterVolumes_own : attachMasterVolumes.Always Prog.Records Minds
    (fun tr x => Minds tr ∧ ∀ l, x = .ok l → ∀ v ∈ l, Own tr v) [] := by
  refine always_ask fun x => ?_
  have hnil : Minds [] := by simp [Minds]
  have hfirst : Minds [⟨.findVolumes, x⟩] := hnil.append (fun _ hr => by cases hr) x
  refine ⟨hfirst, ?_⟩
  cases x with
  | error err => exact ⟨hfirst, by simp⟩
  | ok volumes =>
    have hown (v : Volume) (hv : v ∈ volumes.filter (·.localDevice ≠ "")) : Own [⟨.findVolumes, .ok volumes⟩] v := by
      have hv : v ∈ volumes ∧ v.localDevice ≠ "" := by simpa using hv
      exact .inl ⟨volumes, List.mem_singleton_self _, hv⟩
    dsimp only
    split
    · refine ⟨hfirst, fun l hl => ?_⟩
      cases hl
      exact hown
    · refine Prog.Always.bind ((attachLoop_own _ _ _ hfirst hown).mono fun tr l h => ⟨h.1, fun l' hl => ?_⟩)
      cases hl
      exact h.2

/-- The new entries of a map are volumes of the list. -/
def Takes (attached : List Volume) (mounted mounted' : GoMap Volume) : Prop :=
  ∀ k w, mounted'.lookup k = some w → mounted.lookup k = some w ∨ ∃ v ∈ attached, w.providerID = v.providerID

theorem Takes.cons {attached : List Volume} {mounted mounted' : GoMap Volume} {v : Volume}
    (h : Takes attached mounted mounted') : Takes (v :: attached) mounted mounted' := fun k w hw =>
  (h k w hw).imp_right fun ⟨u, hu, hid⟩ => ⟨u, List.mem_cons_of_mem _ hu, hid⟩

theorem Takes.of_insert {attached : List Volume} {mounted mounted' : GoMap Volume} {k : String} {v v' : Volume}
    (hid : v'.providerID = v.providerID) (h : Takes attached (mounted.insert k v') mounted') :
    Takes (v :: attached) mounted mounted' := by
  intro k' w hw
  rcases h k' w hw with hold | ⟨u, hu, hu'⟩
  · rcases GoMap.lookup_insert_eq_some.1 hold with ⟨-, rfl⟩ | ⟨-, hold⟩
    · exact .inr ⟨v, List.mem_cons_self, hid⟩
    · exact .inl hold
  · exact .inr ⟨u, List.mem_cons_of_mem _ hu, hu'⟩

theorem mountLoop_takes (containerized : Bool) (fuel : Nat) : ∀ attached mounted,
    (mountLoop containerized fuel attached mounted).Returns fun r => Takes attached mounted r.1
  | [], _ => fun _ _ hw => .inl hw
  | v :: attached, mounted => by
    unfold mountLoop
    split
    · exact fun _ _ hw => .inl hw
    split
    · exact (mountLoop_takes containerized fuel attached mounted).mono fun _ => .cons
    split
    · exact (mountLoop_takes containerized fuel attached _).mono fun _ => .of_insert rfl
    refine (Prog.Returns.trivially _).bind fun disks _ => returns_ask fun x => ?_
    dsimp only
    split
    · exact fun _ _ hw => .inl hw
    · refine (Prog.Returns.trivially _).bind fun err _ => ?_
      cases err with
      | some => exact (mountLoop_takes containerized fuel attached mounted).mono fun _ => .cons
      | none =>
        refine (Prog.Returns.trivially _).bind fun path _ => ?_
        have hid : ({ v with mountpoint := path } : Volume).providerID = v.providerID := rfl
        exact (mountLoop_takes containerized fuel attached _).mono fun _ => .of_insert hid

theorem mountMasterVolumes_own (containerized : Bool) (fuel : Nat) (mounted : GoMap Volume) :
    (mountMasterVolumes containerized fuel mounted).Always Prog.Records Minds
      (fun tr r => ∀ k w, r.1.lookup k = some w →
        mounted.lookup k = some w ∨ ∃ v, Own tr v ∧ w.providerID = v.providerID) [] := by
  refine Prog.Always.bind (attachMasterVolumes_own.mono fun tr x h => ?_)
  cases x with
  | error => exact fun k w hw => .inl hw
  | ok attached =>
    have huses := mountLoop_uses containerized fuel attached mounted (List.Subset.refl _)
    have hkeep (tr : Trace mountSig) (r : MountReq) (x : r.Resp) (tr' : Trace mountSig) (hr : About attached r)
        (hrecord : Prog.Records tr r x tr') (h : Minds tr ∧ ∀ v ∈ attached, Own tr v) :
        Minds tr' ∧ ∀ v ∈ attached, Own tr' v := by
      obtain rfl := hrecord
      refine ⟨h.1.append (fun v hv => ?_) x, fun v hv => (h.2 v hv).append _⟩
      subst hv
      exact h.2 v hr
    have hloop := (Prog.Always.of_uses hkeep huses ⟨h.1, h.2 attached rfl⟩).and_returns
      (mountLoop_takes containerized fuel attached mounted)
    refine Prog.Always.bind ((hloop.weaken fun _ h => h.1).mono ?_)
    rintro tr ⟨mounted', err⟩ ⟨⟨-, hown⟩, htakes⟩
    have hend (k : String) (w : Volume) (hw : mounted'.lookup k = some w) :
        mounted.lookup k = some w ∨ ∃ v, Own tr v ∧ w.providerID = v.providerID :=
      (htakes k w hw).imp_right fun ⟨v, hv, hid⟩ => ⟨v, hown v hv, hid⟩
    cases err <;> exact hend

/-- **A call takes for its own** only volumes that were reported with a local
device or that it has attached: it looks for no other device, and has nothing
else mounted in the end that was not mounted before. -/
theorem takes_own {containerized : Bool} {fuel : Nat} {mounted : GoMap Volume} {tr : Trace mountSig}
    {p : MountM (GoMap Volume × Except Error (List Volume))}
    (h : Runs (mountMasterVolumes containerized fuel mounted) tr p) :
    (∀ e ∈ tr, ∀ v, e.req = .findMountedVolume v → Own tr v) ∧
      ∀ mounted' x, p = .ret (mounted', x) → ∀ k w, mounted'.lookup k = some w →
        mounted.lookup k = some w ∨ ∃ v, Own tr v ∧ w.providerID = v.providerID := by
  obtain ⟨hminds, hend⟩ := (mountMasterVolumes_own containerized fuel mounted).runs (by simp [Minds]) h
  refine ⟨hminds, ?_⟩
  rintro mounted' x rfl
  exact hend

/-! ## Polling -/

/-- Calls that have returned, one after the other, with what each of them did. -/
inductive Polls (containerized : Bool) : GoMap Volume → List (Trace mountSig) → GoMap Volume → Prop
  | none {mounted} : Polls containerized mounted [] mounted
  | call {mounted mounted' mounted'' fuel tr trs x} : Polls containerized mounted trs mounted' →
      Runs (mountMasterVolumes containerized fuel mounted') tr (.ret (mounted'', x)) →
      Polls containerized mounted (trs ++ [tr]) mounted''

namespace Polls

variable {containerized : Bool} {mounted mounted' : GoMap Volume} {trs : List (Trace mountSig)}

theorem fills (h : Polls containerized mounted trs mounted') : Fills mounted mounted' := by
  induction h with
  | none => exact .inl rfl
  | @call mounted' mounted'' _ _ _ _ _ hcall ih =>
    have hstep : Fills mounted' mounted'' := hcall.returns (mountMasterVolumes_returns _ _ _)
    rcases hstep with rfl | ⟨hempty, hsmall⟩
    · exact ih
    · rcases ih with rfl | ⟨hempty', -⟩
      · exact .inr ⟨hempty, hsmall⟩
      · exact .inr ⟨hempty', hsmall⟩

theorem sparing (h : Polls containerized mounted trs mounted') : ∀ tr ∈ trs, Sparing tr := by
  induction h with
  | none => simp
  | call _ hcall ih =>
    intro tr htr
    rcases List.mem_append.1 htr with htr | htr
    · exact ih tr htr
    · exact List.mem_singleton.1 htr ▸ sparing_of_runs hcall

end Polls

/-- **At most one volume is ever taken.** After any number of calls on a new
controller, whatever the provider and the machine have answered: `k.mounted`
has at most one entry, and once it has one no further calls change it. The
call under way, however far it has come, has attached at most one volume, and
has not tried to if a volume with a local device was reported to it. And of
the calls made, each that attached a volume had been told of no volume with a
local device. -/
theorem at_most_one_volume_taken (containerized : Bool) :
    ∀ trs mounted, Polls containerized ∅ trs mounted →
      mounted.size ≤ 1 ∧
      (mounted.size ≠ 0 → ∀ more mounted', Polls containerized mounted more mounted' → mounted' = mounted) ∧
      (∀ fuel tr p, Runs (mountMasterVolumes containerized fuel mounted) tr p →
        tr.countP attaches ≤ 1 ∧
        ∀ volumes, Reports tr volumes → (∃ v ∈ volumes, v.localDevice ≠ "") → ∀ e ∈ tr, tries e = false) ∧
      ∀ tr ∈ trs, ∀ e ∈ tr, attaches e = true →
        ∃ volumes, Reports tr volumes ∧ ∀ v ∈ volumes, v.localDevice = "" := by
  intro trs mounted h
  refine ⟨?_, fun hset more mounted' hmore => ?_, fun fuel tr p hrun => ?_, fun tr htr e he hattached => ?_⟩
  · rcases h.fills with rfl | ⟨-, hsmall⟩
    · exact Nat.zero_le 1
    · exact hsmall
  · exact hmore.fills.resolve_right fun hempty => hset hempty.1
  · have hsparing := sparing_of_runs hrun
    refine ⟨hsparing.once, fun volumes hreport ⟨v, hv, hlocal⟩ e he => ?_⟩
    by_contra htry
    exact hlocal ((hsparing.free e he (by simpa using htry)).2 volumes hreport v hv)
  · obtain ⟨⟨volumes, hreport⟩, hlocal⟩ := (h.sparing tr htr).free e he (tries_of_attaches hattached)
    exact ⟨volumes, hreport, hlocal volumes hreport⟩

/-! ### A scenario -/

namespace Example

def free : Volume := ⟨"master-a", "vol-a", "main", "", "", "", "available", ⟨"a"⟩⟩

/-- A provider with one volume that is free, and mounted by attaching it. -/
def provider : (r : MountReq) → Option r.Resp
  | .findVolumes => some (.ok [free])
  | .attachVolume v => some (.ok { v with mountpoint := "/mnt/a" })
  | _ => none

def taken : GoMap Volume := (∅ : GoMap Volume).insert "vol-a" { free with mountpoint := "/mnt/a" }

theorem polls : ∃ tr, Polls false ∅ [tr] taken ∧ tr.countP attaches = 1 :=
  ⟨_, .call .none (Prog.follow_runs (o := provider) (p := mountMasterVolumes false 0 ∅)), rfl⟩

end Example

/-- The one free volume is taken, and it stays so. -/
theorem at_most_one_volume_taken_once : ∃ tr, Polls false ∅ [tr] Example.taken ∧ tr.countP attaches = 1 ∧
    ∀ more mounted', Polls false Example.taken more mounted' → mounted' = Example.taken := by
  obtain ⟨tr, hpolls, hone⟩ := Example.polls
  exact ⟨tr, hpolls, hone, (at_most_one_volume_taken false [tr] Example.taken hpolls).2.1 (by decide)⟩

end VolumeMounter

end Etcdadm
