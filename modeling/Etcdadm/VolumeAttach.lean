/-
`AttachVolume` of the AWS, Azure, GCE and Hetzner providers, and what the mount
controller relies on after it: a volume that was attached has a device or a
mountpoint, or `attachMasterVolumes` ends the process.

What the clouds answer is data again, one answer for each request a call makes,
so the instance may be in any state. Where a call polls, the answers are a list
and a call that comes to its end is still waiting.

Two exits do not name a device. Azure knows the devices of LUN 0 and 1 only, and
Hetzner sets the device of a volume it finds attached but not of one it attaches.
-/
import Etcdadm.VolumeProviders

namespace Etcdadm.VolumeProviders

open VolumeMounter

/-! ## How a call ends -/

/-- A call returns a value and no error, or an error, or the process ends in it
(a fatal log line, a panic, the wait for an answer). -/
inductive Outcome (α : Type) where
  | ok (a : α)
  | error (err : Error)
  | died (why : String)
  deriving DecidableEq, Repr

namespace Outcome

variable {α β : Type}

instance : Monad Outcome where
  pure := ok
  bind
    | ok a, f => f a
    | error err, _ => error err
    | died why, _ => died why

@[simp] theorem pure_eq_ok {a b : α} : (pure a : Outcome α) = ok b ↔ a = b := by
  show ok a = ok b ↔ a = b
  simp

@[simp] theorem bind_eq_ok {x : Outcome α} {f : α → Outcome β} {b : β} :
    (x >>= f) = ok b ↔ ∃ a, x = ok a ∧ f a = ok b := by
  cases x <;> simp [Bind.bind]

/-- What the caller is told, if the call returned. -/
def returned : Outcome α → Option (Except Error α)
  | ok a => some (.ok a)
  | error err => some (.error err)
  | died _ => none

theorem returned_eq_ok {x : Outcome α} {a : α} : x.returned = some (.ok a) ↔ x = ok a := by
  cases x <;> simp [returned]

/-- An answer of a cloud, where its error is returned as `wrap` says. -/
def ofAnswer (wrap : Error → Error) : Except Error α → Outcome α
  | .ok a => ok a
  | .error err => error (wrap err)

@[simp] theorem ofAnswer_eq_ok {wrap : Error → Error} {x : Except Error α} {a : α} :
    ofAnswer wrap x = ok a ↔ x = .ok a := by
  cases x <;> simp [ofAnswer]

/-- `err` of a function of the provider, returned as `wrap` says. -/
def wrapError (wrap : Error → Error) : Outcome α → Outcome α
  | error err => error (wrap err)
  | x => x

@[simp] theorem wrapError_eq_ok {wrap : Error → Error} {x : Outcome α} {a : α} :
    x.wrapError wrap = ok a ↔ x = ok a := by
  cases x <;> simp [wrapError]

/-- `*p` -/
def deref : Option α → Outcome α
  | some a => ok a
  | none => died "invalid memory address or nil pointer dereference"

@[simp] theorem deref_eq_ok {p : Option α} {a : α} : deref p = ok a ↔ p = some a := by
  cases p <;> simp [deref]

end Outcome

/-- The test of `attachMasterVolumes` on a volume that was attached. -/
def Usable (v : Volume) : Prop := v.localDevice ≠ "" ∨ v.mountpoint ≠ ""

/-! ## AWS -/

/-- An error of `ec2.AttachVolume`, by its code. -/
inductive Ec2Error where
  | invalidParameterValue (message : String)
  | other (err : Error)

/-- What EC2 answers in a call, in order. -/
structure Ec2Answers where
  attachVolume : List (Except Ec2Error Unit)
  describeVolumes : List (Except Error (List Ec2Volume))

namespace AWSVolumes

def devices : List String := ["/dev/xvdu", "/dev/xvdv", "/dev/xvdx", "/dev/xvdx", "/dev/xvdy", "/dev/xvdz"]

/-- `assignDevice`, with `a.deviceMap` after it -/
def assignDevice (deviceMap : GoMap String) (volumeID : String) : Outcome (String × GoMap String) :=
  match devices.find? fun d => (deviceMap.lookup d).getD "" = "" with
  | some d => .ok (d, deviceMap.insert d volumeID)
  | none => .error "all devices in use"

/-- `releaseDevice`, with `a.deviceMap` after it -/
def releaseDevice (deviceMap : GoMap String) (d volumeID : String) : Outcome (GoMap String) :=
  let held := (deviceMap.lookup d).getD ""
  if held ≠ volumeID then
    .died s!"deviceMap logic error: {d.quote} -> {held.quote}, not {volumeID.quote}"
  else .ok (deviceMap.insert d "")

/-- The first loop of `AttachVolume`: a device that EC2 takes. -/
def tryDevices (volumeID : String) (deviceMap : GoMap String) (answers : List (Except Ec2Error Unit)) :
    Outcome (String × GoMap String) := do
  let (device, deviceMap) ← assignDevice deviceMap volumeID
  match answers with
  | [] => .died "still waiting"
  | .ok () :: _ => return (device, deviceMap)
  | .error (.invalidParameterValue _) :: answers => tryDevices volumeID deviceMap answers
  | .error (.other err) :: _ => .error s!"error attaching EBS volume {volumeID.quote}: {err}"

/-- The second loop of `AttachVolume`: until the volume is attached or cannot be. -/
def waitAttached (a : AWSVolumes) (volumeID device : String) (deviceMap : GoMap String) :
    List (Except Error (List Ec2Volume)) → Outcome Unit
  | [] => .died "still waiting"
  | answer :: answers =>
    match a.describeVolumes (fun _ => answer) [] with
    | .error err => .error s!"error describing EBS volume {volumeID.quote}: {err}"
    | .ok [] => .error s!"EBS volume {volumeID.quote} disappeared during attach"
    | .ok (_ :: _ :: _) => .error s!"multiple volumes found with id {volumeID.quote}"
    | .ok [v] =>
      if v.attachedTo ≠ "" then
        if v.attachedTo = a.instanceID then
          .ok ()
        else do
          let _ ← releaseDevice deviceMap device volumeID
          .error s!"unable to attach volume {volumeID.quote}, was attached to {v.attachedTo.quote}"
      else if v.status = "attaching" then
        a.waitAttached volumeID device deviceMap answers
      else .error s!"observed unexpected volume state {v.status.quote}"

/-- The device of the volume, which is attached first if it has none. -/
def deviceFor (deviceMap : GoMap String) (ec2 : Ec2Answers) (volume : Volume) : Outcome (String × GoMap String) :=
  if volume.localDevice = "" then tryDevices volume.providerID deviceMap ec2.attachVolume
  else .ok (volume.localDevice, deviceMap)

def attachVolume (a : AWSVolumes) (deviceMap : GoMap String) (ec2 : Ec2Answers) (volume : Volume) : Outcome Volume := do
  let (device, deviceMap) ← deviceFor deviceMap ec2 volume
  a.waitAttached volume.providerID device deviceMap ec2.describeVolumes
  return { volume with localDevice := device }

theorem assignDevice_ne {deviceMap : GoMap String} {volumeID : String} {r : String × GoMap String}
    (h : assignDevice deviceMap volumeID = .ok r) : r.1 ≠ "" := by
  unfold assignDevice at h
  split at h
  · next d hd =>
    cases h
    have hmem : d ∈ devices := List.mem_of_find?_eq_some hd
    have hall : ∀ d ∈ devices, d ≠ "" := by decide
    exact hall d hmem
  · cases h

theorem tryDevices_ne {volumeID : String} {r : String × GoMap String} :
    ∀ {answers : List (Except Ec2Error Unit)} {deviceMap : GoMap String},
      tryDevices volumeID deviceMap answers = .ok r → r.1 ≠ ""
  | [], deviceMap, h => by
    unfold tryDevices at h
    obtain ⟨_, _, h⟩ := Outcome.bind_eq_ok.1 h
    cases h
  | answer :: answers, deviceMap, h => by
    unfold tryDevices at h
    obtain ⟨assigned, hassigned, h⟩ := Outcome.bind_eq_ok.1 h
    cases answer with
    | ok _ =>
      have heq : (assigned.1, assigned.2) = r := Outcome.pure_eq_ok.1 h
      rw [← heq]
      exact assignDevice_ne hassigned
    | error err =>
      cases err with
      | invalidParameterValue _ => exact tryDevices_ne h
      | other _ => cases h

theorem attachVolume_device {a : AWSVolumes} {deviceMap : GoMap String} {ec2 : Ec2Answers} {v v' : Volume}
    (h : a.attachVolume deviceMap ec2 v = .ok v') : v'.localDevice ≠ "" := by
  unfold attachVolume at h
  obtain ⟨taken, htaken, h⟩ := Outcome.bind_eq_ok.1 h
  obtain ⟨_, -, h⟩ := Outcome.bind_eq_ok.1 h
  cases Outcome.pure_eq_ok.1 h
  show taken.1 ≠ ""
  unfold deviceFor at htaken
  by_cases hv : v.localDevice = ""
  · rw [if_pos hv] at htaken
    exact tryDevices_ne htaken
  · rw [if_neg hv] at htaken
    cases htaken
    exact hv

end AWSVolumes

/-! ## Azure -/

/-- `compute.DataDisk` -/
structure DataDisk where
  lun : Option Int32
  name : Option String
  managedDiskID : Option String

/-- `compute.VirtualMachineScaleSetVM`, by the disks of its storage profile -/
structure ScaleSetVM where
  dataDisks : Option (List DataDisk)

/-- The LUNs that are taken. -/
def ScaleSetVM.luns (vm : ScaleSetVM) : List Int32 := (vm.dataDisks.getD []).filterMap (·.lun)

/-- What Azure answers in a call: the VM is read twice. -/
structure AzureAnswers where
  getVMScaleSetVM : Except Error ScaleSetVM
  /-- the answer to `findAvailableLun` -/
  getVMForLun : Except Error ScaleSetVM
  updateVMScaleSetVM : ScaleSetVM → Except Error Unit

namespace AzureVolumes

/-- The loop of `findAvailableLun`. -/
def maxLun : List DataDisk → Int32 → Outcome Int32
  | [], acc => .ok acc
  | dd :: disks, acc => do
    let lun ← Outcome.deref dd.lun
    maxLun disks (if lun > acc then lun else acc)

def findAvailableLun (getVMScaleSetVM : Except Error ScaleSetVM) : Outcome Int32 := do
  let vm ← Outcome.ofAnswer (fun err => s!"error getting VM: {err}") getVMScaleSetVM
  let disks ← Outcome.deref vm.dataDisks
  if disks.length = 0 then
    return 0
  return (← maxLun disks 0) + 1

def lunToDev : String → String
  | "0" => "/dev/sdc"
  | "1" => "/dev/sdd"
  | _ => ""

def attachVolume (azure : AzureAnswers) (volume : Volume) : Outcome Volume := do
  if volume.localDevice = "" then
    let vm ← Outcome.ofAnswer (fun err => s!"error getting VM: {err}") azure.getVMScaleSetVM
    let lun ← (findAvailableLun azure.getVMForLun).wrapError (fun err => s!"error finding available Lun: {err}")
    let d : DataDisk := ⟨some lun, some volume.info.description, some volume.providerID⟩
    let dds := (← Outcome.deref vm.dataDisks) ++ [d]
    Outcome.ofAnswer (fun err => s!"error updating VM: {err}") (azure.updateVMScaleSetVM ⟨some dds⟩)
    return { volume with localDevice := lunToDev (toString lun.toInt) }
  return volume

theorem maxLun_eq : ∀ {disks : List DataDisk} {acc lun : Int32}, maxLun disks acc = .ok lun → 0 ≤ acc →
    0 ≤ lun ∧ (lun = 0 ↔ acc = 0 ∧ ∀ l ∈ disks.filterMap (·.lun), l ≤ 0)
  | [], acc, lun, h, hacc => by
    cases h
    simpa using hacc
  | dd :: disks, acc, lun, h, hacc => by
    unfold maxLun at h
    obtain ⟨l, hl, h⟩ := Outcome.bind_eq_ok.1 h
    have hl : dd.lun = some l := Outcome.deref_eq_ok.1 hl
    simp only [List.filterMap_cons, hl, List.forall_mem_cons]
    by_cases hgt : l > acc
    · rw [if_pos hgt] at h
      obtain ⟨hnonneg, hzero⟩ := maxLun_eq h (by grind)
      refine ⟨hnonneg, hzero.trans ?_⟩
      grind
    · rw [if_neg hgt] at h
      obtain ⟨hnonneg, hzero⟩ := maxLun_eq h hacc
      refine ⟨hnonneg, hzero.trans ?_⟩
      grind

theorem lunToDev_ne {n : Int} : lunToDev (toString n) ≠ "" ↔ n = 0 ∨ n = 1 := by
  have hinj {m : Int} (h : toString n = toString m) : n = m := Int.repr_injective h
  unfold lunToDev
  split
  · next h => simp [show n = 0 from hinj h]
  · next h => simp [show n = 1 from hinj h]
  · next h₀ h₁ =>
    have hn₀ : n ≠ 0 := fun h => h₀ (by rw [h]; rfl)
    have hn₁ : n ≠ 1 := fun h => h₁ (by rw [h]; rfl)
    simp [hn₀, hn₁]

theorem toInt_succ {lun : Int32} (h : 0 ≤ lun) : ((lun + 1).toInt = 0 ∨ (lun + 1).toInt = 1) ↔ lun = 0 := by
  have hlow : (0 : Int) ≤ lun.toInt := Int32.le_iff_toInt_le.1 h
  have hhigh : lun.toInt < 2 ^ 31 := lun.toInt_lt
  have hzero : lun = 0 ↔ lun.toInt = 0 := by
    rw [← Int32.toInt_inj]
    rfl
  have hadd : (lun + 1).toInt = (lun.toInt + 1).bmod (2 ^ 32) := Int32.toInt_add lun 1
  rw [hzero, hadd, Int.bmod_def]
  omega

/-- The LUN that is taken next is 0 or 1 if no LUN above 0 is taken yet. -/
theorem findAvailableLun_le {vm : ScaleSetVM} {lun : Int32} (h : findAvailableLun (.ok vm) = .ok lun) :
    (lun.toInt = 0 ∨ lun.toInt = 1) ↔ ∀ l ∈ vm.luns, l ≤ 0 := by
  unfold findAvailableLun at h
  obtain ⟨vm', hvm, h⟩ := Outcome.bind_eq_ok.1 h
  cases Outcome.ofAnswer_eq_ok.1 hvm
  obtain ⟨disks, hdisks, h⟩ := Outcome.bind_eq_ok.1 h
  have hluns : vm.luns = disks.filterMap (·.lun) := by
    simp [ScaleSetVM.luns, Outcome.deref_eq_ok.1 hdisks]
  rw [hluns]
  by_cases hnone : disks.length = 0
  · rw [if_pos hnone] at h
    cases Outcome.pure_eq_ok.1 h
    simp [List.length_eq_zero_iff.1 hnone]
  · rw [if_neg hnone] at h
    obtain ⟨most, hmost, h⟩ := Outcome.bind_eq_ok.1 h
    obtain ⟨hnonneg, hzero⟩ := maxLun_eq hmost (by decide)
    have heq : most + 1 = lun := Outcome.pure_eq_ok.1 h
    rw [← heq, toInt_succ hnonneg, hzero]
    simp

theorem attachVolume_usable_iff {azure : AzureAnswers} {v v' : Volume} (h : attachVolume azure v = .ok v') :
    Usable v' ↔ Usable v ∨ ∀ vm, azure.getVMForLun = .ok vm → ∀ l ∈ vm.luns, l ≤ 0 := by
  unfold attachVolume at h
  by_cases hv : v.localDevice = ""
  · rw [if_pos hv] at h
    obtain ⟨vm, -, h⟩ := Outcome.bind_eq_ok.1 h
    obtain ⟨lun, hlun, h⟩ := Outcome.bind_eq_ok.1 h
    obtain ⟨disks, -, h⟩ := Outcome.bind_eq_ok.1 h
    obtain ⟨_, -, h⟩ := Outcome.bind_eq_ok.1 h
    cases Outcome.pure_eq_ok.1 h
    have hlun := Outcome.wrapError_eq_ok.1 hlun
    cases hvm : azure.getVMForLun with
    | error err =>
      rw [hvm] at hlun
      cases hlun
    | ok vm' =>
      rw [hvm] at hlun
      simp only [Usable, hv, lunToDev_ne, findAvailableLun_le hlun, Except.ok.injEq, forall_eq']
      tauto
  · rw [if_neg hv] at h
    cases Outcome.pure_eq_ok.1 h
    simp [Usable, hv]

end AzureVolumes

/-! ## GCE -/

/-- What GCE answers in a call. -/
structure GceAnswers where
  attachDisk : Except Error Unit
  waitForOp : Except Error Unit

def GCEVolumes.attachVolume (gce : GceAnswers) (volume : Volume) : Outcome Volume := do
  let volumeName := lastComponent volume.providerID
  Outcome.ofAnswer (fun err => s!"error attaching disk {volumeName.quote}: {err}") gce.attachDisk
  Outcome.ofAnswer (fun err => s!"error waiting for disk attach to complete {volumeName.quote}: {err}") gce.waitForOp
  return { volume with localDevice := "/dev/disk/by-id/google-" ++ volumeName }

theorem GCEVolumes.attachVolume_device {gce : GceAnswers} {v v' : Volume} (h : attachVolume gce v = .ok v') :
    v'.localDevice ≠ "" := by
  unfold attachVolume at h
  obtain ⟨_, -, h⟩ := Outcome.bind_eq_ok.1 h
  obtain ⟨_, -, h⟩ := Outcome.bind_eq_ok.1 h
  cases Outcome.pure_eq_ok.1 h
  simp

/-! ## Hetzner -/

/-- `strconv.Atoi` -/
def atoi (s : String) : Except Error Int :=
  let (negative, digits) :=
    match s.toList with
    | '-' :: digits => (true, digits)
    | '+' :: digits => (false, digits)
    | digits => (false, digits)
  let n : Int := digits.foldl (fun n c => 10 * n + (c.toNat - 48)) 0
  let n := if negative then -n else n
  if digits.length = 0 ∨ ¬ digits.all Char.isDigit then
    .error s!"strconv.Atoi: parsing {s.quote}: invalid syntax"
  else if n < -2 ^ 63 ∨ 2 ^ 63 ≤ n then
    .error s!"strconv.Atoi: parsing {s.quote}: value out of range"
  else .ok n

/-- `hcloud.Volume` with the name that the messages give. -/
structure HcloudRecord extends HcloudVolume where
  name : String

/-- What the Hetzner cloud answers in a call; `watchProgress` is what comes out
of the channel of errors. -/
structure HcloudAnswers where
  getByID : Int → Except Error (Option HcloudRecord)
  attach : Except Error Unit
  watchProgress : Option Error

namespace HetznerVolumes

def attachVolume (a : HetznerVolumes) (hcloud : HcloudAnswers) (volume : Volume) : Outcome Volume := do
  let volumeID ← Outcome.ofAnswer (fun err => s!"failed to convert volume id {volume.providerID.quote} to int: {err}")
    (atoi volume.providerID)
  match hcloud.getByID volumeID with
  | .error err => .error s!"failed to get info for volume id {volume.providerID.quote}: {err}"
  | .ok none => .error s!"failed to get info for volume id {volume.providerID.quote}: %!w(<nil>)"
  | .ok (some hetznerVolume) =>
    let named := s!"{hetznerVolume.name}({hetznerVolume.id})"
    match hetznerVolume.server with
    | some server =>
      if server ≠ a.serverID then
        .error s!"found volume {named} attached to a different server: {server}"
      else
        return { volume with localDevice := "/dev/disk/by-id/scsi-0HC_Volume_" ++ toString hetznerVolume.id }
    | none =>
      Outcome.ofAnswer (fun err => s!"failed to attach volume {named}: {err}") hcloud.attach
      match hcloud.watchProgress with
      | some err => .error s!"failed to wait for volume to {named} be ready: {err}"
      | none => return volume

/-- The volume is attached to this server already, as the cloud has it. -/
def AttachedHere (a : HetznerVolumes) (hcloud : HcloudAnswers) (v : Volume) : Prop :=
  ∃ volumeID record, atoi v.providerID = .ok volumeID ∧ hcloud.getByID volumeID = .ok (some record) ∧
    record.server = some a.serverID

theorem attachVolume_usable_iff {a : HetznerVolumes} {hcloud : HcloudAnswers} {v v' : Volume}
    (h : a.attachVolume hcloud v = .ok v') : Usable v' ↔ Usable v ∨ a.AttachedHere hcloud v := by
  unfold attachVolume at h
  obtain ⟨volumeID, hid, h⟩ := Outcome.bind_eq_ok.1 h
  have hid := Outcome.ofAnswer_eq_ok.1 hid
  cases hget : hcloud.getByID volumeID with
  | error err => simp [hget] at h
  | ok found =>
    cases found with
    | none => simp [hget] at h
    | some record =>
      have hhere : a.AttachedHere hcloud v ↔ record.server = some a.serverID := by
        simp [AttachedHere, hid, hget]
      rw [hhere]
      cases hserver : record.server with
      | none =>
        -- the exit that leaves the volume as it was
        simp only [hget, hserver] at h
        obtain ⟨_, -, h⟩ := Outcome.bind_eq_ok.1 h
        cases hwatch : hcloud.watchProgress with
        | some err => simp [hwatch] at h
        | none =>
          simp only [hwatch] at h
          cases Outcome.pure_eq_ok.1 h
          simp
      | some server =>
        simp only [hget, hserver] at h
        by_cases hother : server ≠ a.serverID
        · simp [hother] at h
        · rw [if_neg hother] at h
          cases Outcome.pure_eq_ok.1 h
          simp [Usable, not_not.1 hother]

end HetznerVolumes

/-! ## Any of the four -/

/-- A call of `AttachVolume`, by the provider and what its cloud answers. -/
inductive AttachCall where
  | aws (a : AWSVolumes) (deviceMap : GoMap String) (ec2 : Ec2Answers)
  | azure (answers : AzureAnswers)
  | gce (answers : GceAnswers)
  | hetzner (a : HetznerVolumes) (hcloud : HcloudAnswers)

namespace AttachCall

def attachVolume : AttachCall → Volume → Outcome Volume
  | aws a deviceMap ec2 => a.attachVolume deviceMap ec2
  | azure answers => AzureVolumes.attachVolume answers
  | gce answers => GCEVolumes.attachVolume answers
  | hetzner a hcloud => a.attachVolume hcloud

/-- When the call is to name a device: Azure has one for the next LUN, and the
Hetzner cloud has the volume attached to this server before the call. -/
def Names : AttachCall → Volume → Prop
  | aws _ _ _, _ | gce _, _ => True
  | azure answers, v => Usable v ∨ ∀ vm, answers.getVMForLun = .ok vm → ∀ lun ∈ vm.luns, lun ≤ 0
  | hetzner a hcloud, v => Usable v ∨ a.AttachedHere hcloud v

theorem usable_iff_names {c : AttachCall} {v v' : Volume} (h : c.attachVolume v = .ok v') : Usable v' ↔ c.Names v := by
  cases c with
  | aws a deviceMap ec2 => exact iff_of_true (.inl (AWSVolumes.attachVolume_device h)) trivial
  | azure answers => exact AzureVolumes.attachVolume_usable_iff h
  | gce answers => exact iff_of_true (.inl (GCEVolumes.attachVolume_device h)) trivial
  | hetzner a hcloud => exact HetznerVolumes.attachVolume_usable_iff h

end AttachCall

/-! ## The mount controller -/

/-- A volume was attached, and has no device and no mountpoint. -/
def AttachedUnusable (tr : Trace mountSig) : Prop :=
  ∃ v v', (⟨.attachVolume v, .ok v'⟩ : Event mountSig) ∈ tr ∧ ¬ Usable v'

theorem attachedUnusable_ok {v v' : Volume} {tr : Trace mountSig} :
    AttachedUnusable (⟨.attachVolume v, .ok v'⟩ :: tr) ↔ ¬ Usable v' ∨ AttachedUnusable tr := by
  simp only [AttachedUnusable, List.mem_cons, or_and_right, exists_or]
  refine or_congr_left ?_
  simp

/-- A call that asked for nothing yet, and goes on. -/
theorem died_iff_nil {β : Type} {p : MountM β} (h : p.died = none) : p.died.isSome ↔ AttachedUnusable [] := by
  simp [h, AttachedUnusable]

theorem attachLoop_died_iff {β : Type} (g : List Volume → β) : ∀ {tryAttach attached : List Volume} {tr : Trace mountSig}
    {p : MountM β}, Runs (attachLoop tryAttach attached >>= fun l => .ret (g l)) tr p →
      (p.died.isSome ↔ AttachedUnusable tr)
  | [], attached, tr, p, h => by
    cases h
    exact died_iff_nil rfl
  | v :: tryAttach, attached, tr, p, h => by
    unfold attachLoop at h
    by_cases hlen : attached.length > 0
    · rw [if_pos hlen] at h
      cases h
      exact died_iff_nil rfl
    · rw [if_neg hlen] at h
      cases h with
      | refl => exact died_iff_nil rfl
      | step h =>
        rename_i answer
        cases answer with
        | error err =>
          have hrest := attachLoop_died_iff g h
          simpa [AttachedUnusable] using hrest
        | ok v' =>
          have hdec : v'.localDevice = "" ∧ v'.mountpoint = "" ↔ ¬ Usable v' := by simp [Usable]
          rw [attachedUnusable_ok, ← hdec]
          change Runs ((if v'.localDevice = "" ∧ v'.mountpoint = "" then _ else _) >>= _) _ _ at h
          by_cases hbare : v'.localDevice = "" ∧ v'.mountpoint = ""
          · rw [if_pos hbare] at h
            cases h
            exact iff_of_true rfl (.inl hbare)
          · rw [if_neg hbare] at h
            have hrest := attachLoop_died_iff g h
            simpa [hbare] using hrest

/-- The controller dies in a call if and only if a volume was attached and
cannot be used. -/
theorem attachMasterVolumes_died_iff {tr : Trace mountSig} {p : MountM (Except Error (List Volume))}
    (h : Runs attachMasterVolumes tr p) : p.died.isSome ↔ AttachedUnusable tr := by
  cases h with
  | refl => exact died_iff_nil rfl
  | step h =>
    rename_i tr found
    have hfind : AttachedUnusable (⟨.findVolumes, found⟩ :: tr) ↔ AttachedUnusable tr := by simp [AttachedUnusable]
    rw [hfind]
    cases found with
    | error err =>
      cases h
      exact died_iff_nil rfl
    | ok volumes =>
      change Runs (if (volumes.filter (·.attachedTo = "")).length = 0 then _ else _) _ _ at h
      split at h
      · cases h
        exact died_iff_nil rfl
      · exact attachLoop_died_iff Except.ok h

/-! ## Attached volumes are usable -/

/-- The attachments of a run are calls of the providers. -/
def ByProviders (tr : Trace mountSig) : Prop :=
  ∀ v r, (⟨.attachVolume v, r⟩ : Event mountSig) ∈ tr → ∃ c : AttachCall, (c.attachVolume v).returned = some r

/-- The controller dies just in the calls where some attachment was not to name a device. -/
theorem ByProviders.died_iff {tr : Trace mountSig} {p : MountM (Except Error (List Volume))}
    (hby : ByProviders tr) (hruns : Runs attachMasterVolumes tr p) :
    p.died.isSome ↔ ∃ c v v', (⟨.attachVolume v, .ok v'⟩ : Event mountSig) ∈ tr ∧
      AttachCall.attachVolume c v = .ok v' ∧ ¬ c.Names v := by
  rw [attachMasterVolumes_died_iff hruns]
  constructor
  · intro hbad
    obtain ⟨v, v', hmem, hbare⟩ := hbad
    obtain ⟨c, hc⟩ := hby v _ hmem
    have hc := Outcome.returned_eq_ok.1 hc
    exact ⟨c, v, v', hmem, hc, fun hnames => hbare ((AttachCall.usable_iff_names hc).2 hnames)⟩
  · intro hbad
    obtain ⟨c, v, v', hmem, hc, hnot⟩ := hbad
    exact ⟨v, v', hmem, fun husable => hnot ((AttachCall.usable_iff_names hc).1 husable)⟩

/-- A volume that was attached has a device or a mountpoint if and only if the
call was to name one, and the mount controller dies only by calls that were not. -/
theorem attached_volume_usable_iff (c : AttachCall) :
    (∀ v v', c.attachVolume v = .ok v' → (Usable v' ↔ c.Names v)) ∧
    ∀ (tr : Trace mountSig) (p : MountM (Except Error (List Volume))), Runs attachMasterVolumes tr p → ByProviders tr →
      (p.died.isSome ↔ ∃ c v v', (⟨.attachVolume v, .ok v'⟩ : Event mountSig) ∈ tr ∧
        AttachCall.attachVolume c v = .ok v' ∧ ¬ c.Names v) :=
  ⟨fun _ _ => AttachCall.usable_iff_names, fun _ _ hruns hby => hby.died_iff hruns⟩

namespace AttachExample

/-- A volume that is attached nowhere. -/
def idle : Volume := unattached "hcloud-7" "7" "vol-7" "" "k8s-7"

/-- The Hetzner cloud, which attaches it. -/
def hetzner : AttachCall :=
  .hetzner ⟨"k8s", ∅, 1, some "fsn1"⟩ ⟨fun _ => .ok (some ⟨⟨7, none, some "fsn1"⟩, "vol"⟩), .ok (), none⟩

/-- A machine whose disks have LUN 0 and LUN 1. -/
def twoDisks : ScaleSetVM := ⟨some [⟨some 0, some "a", some "id-a"⟩, ⟨some 1, some "b", some "id-b"⟩]⟩

def azure : AttachCall := .azure ⟨.ok twoDisks, .ok twoDisks, fun _ => .ok ()⟩

def gce : AttachCall := .gce ⟨.ok (), .ok ()⟩

/-- The volume as GCE leaves it. -/
def onGce : Volume := { idle with localDevice := "/dev/disk/by-id/google-7" }

/-- The volume is found and attached. -/
def attaching (v : Volume) : Trace mountSig := [⟨.findVolumes, .ok [idle]⟩, ⟨.attachVolume idle, .ok v⟩]

theorem mem_attaching {v u : Volume} {r : Except Error Volume}
    (h : (⟨.attachVolume u, r⟩ : Event mountSig) ∈ attaching v) : u = idle ∧ r = .ok v := by
  simp only [attaching, List.mem_cons, Event.mk.injEq, List.not_mem_nil, or_false, reduceCtorEq, false_and, false_or,
    MountReq.attachVolume.injEq] at h
  obtain ⟨rfl, hr⟩ := h
  exact ⟨rfl, eq_of_heq hr⟩

end AttachExample

theorem gce_volume_usable : AttachExample.gce.attachVolume AttachExample.idle = .ok AttachExample.onGce ∧
    Usable AttachExample.onGce ∧ ∀ p, Runs attachMasterVolumes (AttachExample.attaching AttachExample.onGce) p →
      p.died.isSome = false := by
  have hattach : AttachExample.gce.attachVolume AttachExample.idle = .ok AttachExample.onGce := by decide +kernel
  have husable := ((attached_volume_usable_iff AttachExample.gce).1 _ _ hattach).2 trivial
  refine ⟨hattach, husable, fun p hruns => ?_⟩
  have hdied := (attached_volume_usable_iff AttachExample.gce).2 _ p hruns fun v r hmem => by
    obtain ⟨rfl, rfl⟩ := AttachExample.mem_attaching hmem
    exact ⟨AttachExample.gce, Outcome.returned_eq_ok.2 hattach⟩
  rw [← Bool.not_eq_true, hdied]
  intro hbad
  obtain ⟨c, v, v', hmem, hc, hnot⟩ := hbad
  obtain ⟨rfl, hv'⟩ := AttachExample.mem_attaching hmem
  cases hv'
  exact hnot (((attached_volume_usable_iff c).1 _ _ hc).1 husable)

/-- The Hetzner cloud attaches a volume that was free, and Azure a third disk:
the volume has no device after it, and the controller dies. -/
theorem attached_without_device :
    AttachExample.hetzner.attachVolume AttachExample.idle = .ok AttachExample.idle ∧
    AttachExample.azure.attachVolume AttachExample.idle = .ok AttachExample.idle ∧ ¬ Usable AttachExample.idle ∧
    Runs attachMasterVolumes (AttachExample.attaching AttachExample.idle)
      (.crash "AttachVolume did not set LocalDevice or Mountpoint") :=
  ⟨by decide +kernel, by decide +kernel, by simp [Usable, AttachExample.idle, unattached], .step (.step .refl)⟩

end Etcdadm.VolumeProviders
