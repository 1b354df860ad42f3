/-
The devices that an AWS machine has for volumes, over any number of calls of
`AttachVolume` (`pkg/volumes/aws/volumes.go`): here the calls come with `a.deviceMap`
as each of their exits leaves it.

A device is reserved for each attach request. By its comment `releaseDevice` is for an
attach that is known to fail, and the exit for a volume that went to another machine
calls it. The exit for a request that EC2 refuses does not. So each refused call costs
a device, and losing the race for a volume a few times over leaves none.
-/
import Etcdadm.VolumeAttach

namespace Etcdadm.VolumeProviders

open VolumeMounter

namespace AWSVolumes

/-! ## Calls with the map they leave -/

/-- The first loop of `AttachVolume`. -/
def tryDevicesMap (volumeID : String) (deviceMap : GoMap String) (answers : List (Except Ec2Error Unit)) :
    Outcome String × GoMap String :=
  match assignDevice deviceMap volumeID with
  | .error err => (.error err, deviceMap)
  | .died why => (.died why, deviceMap)
  | .ok (device, deviceMap) =>
    match answers with
    | [] => (.died "still waiting", deviceMap)
    | .ok () :: _ => (.ok device, deviceMap)
    | .error (.invalidParameterValue _) :: answers => tryDevicesMap volumeID deviceMap answers
    | .error (.other err) :: _ => (.error s!"error attaching EBS volume {volumeID.quote}: {err}", deviceMap)

/-- The second loop. -/
def waitAttachedMap (a : AWSVolumes) (volumeID device : String) (deviceMap : GoMap String) :
    List (Except Error (List Ec2Volume)) → Outcome Unit × GoMap String
  | [] => (.died "still waiting", deviceMap)
  | answer :: answers =>
    match a.describeVolumes (fun _ => answer) [] with
    | .error err => (.error s!"error describing EBS volume {volumeID.quote}: {err}", deviceMap)
    | .ok [] => (.error s!"EBS volume {volumeID.quote} disappeared during attach", deviceMap)
    | .ok (_ :: _ :: _) => (.error s!"multiple volumes found with id {volumeID.quote}", deviceMap)
    | .ok [v] =>
      if v.attachedTo ≠ "" then
        if v.attachedTo = a.instanceID then
          (.ok (), deviceMap)
        else
          match releaseDevice deviceMap device volumeID with
          | .error err => (.error err, deviceMap)
          | .died why => (.died why, deviceMap)
          | .ok deviceMap =>
            (.error s!"unable to attach volume {volumeID.quote}, was attached to {v.attachedTo.quote}", deviceMap)
      else if v.status = "attaching" then
        a.waitAttachedMap volumeID device deviceMap answers
      else (.error s!"observed unexpected volume state {v.status.quote}", deviceMap)

def deviceForMap (deviceMap : GoMap String) (ec2 : Ec2Answers) (volume : Volume) : Outcome String × GoMap String :=
  if volume.localDevice = "" then tryDevicesMap volume.providerID deviceMap ec2.attachVolume
  else (.ok volume.localDevice, deviceMap)

/-- `AttachVolume`, with `a.deviceMap` after it -/
def attachVolumeMap (a : AWSVolumes) (deviceMap : GoMap String) (ec2 : Ec2Answers) (volume : Volume) :
    Outcome Volume × GoMap String :=
  match deviceForMap deviceMap ec2 volume with
  | (.error err, deviceMap) => (.error err, deviceMap)
  | (.died why, deviceMap) => (.died why, deviceMap)
  | (.ok device, deviceMap) =>
    let waited := a.waitAttachedMap volume.providerID device deviceMap ec2.describeVolumes
    (waited.1 >>= fun _ => .ok { volume with localDevice := device }, waited.2)

/-! ## They are the calls -/

theorem tryDevicesMap_eq (volumeID : String) : ∀ (answers : List (Except Ec2Error Unit)) (deviceMap : GoMap String),
    tryDevices volumeID deviceMap answers =
      (tryDevicesMap volumeID deviceMap answers).1 >>= fun device =>
        .ok (device, (tryDevicesMap volumeID deviceMap answers).2)
  | [], deviceMap => by
    unfold tryDevices tryDevicesMap
    cases assignDevice deviceMap volumeID <;> rfl
  | answer :: answers, deviceMap => by
    unfold tryDevices tryDevicesMap
    cases assignDevice deviceMap volumeID with
    | error err => rfl
    | died why => rfl
    | ok assigned =>
      cases answer with
      | ok _ => rfl
      | error err =>
        cases err with
        | invalidParameterValue message => exact tryDevicesMap_eq volumeID answers assigned.2
        | other err => rfl

theorem waitAttachedMap_eq (a : AWSVolumes) (volumeID device : String) (deviceMap : GoMap String) :
    ∀ answers, (a.waitAttachedMap volumeID device deviceMap answers).1 =
      a.waitAttached volumeID device deviceMap answers
  | [] => rfl
  | answer :: answers => by
    unfold waitAttachedMap waitAttached
    cases a.describeVolumes (fun _ => answer) [] with
    | error err => rfl
    | ok volumes =>
    cases volumes with
    | nil => rfl
    | cons v volumes =>
    cases volumes with
    | cons w volumes => rfl
    | nil =>
      dsimp only
      split
      · split
        · rfl
        · cases releaseDevice deviceMap device volumeID <;> rfl
      · split
        · exact waitAttachedMap_eq a volumeID device deviceMap answers
        · rfl

theorem attachVolumeMap_eq (a : AWSVolumes) (deviceMap : GoMap String) (ec2 : Ec2Answers) (volume : Volume) :
    (a.attachVolumeMap deviceMap ec2 volume).1 = a.attachVolume deviceMap ec2 volume := by
  have hdevice : deviceFor deviceMap ec2 volume = (deviceForMap deviceMap ec2 volume).1 >>= fun device =>
      .ok (device, (deviceForMap deviceMap ec2 volume).2) := by
    unfold deviceFor deviceForMap
    split
    · exact tryDevicesMap_eq _ _ _
    · rfl
  rw [attachVolume, hdevice, attachVolumeMap]
  cases hmap : deviceForMap deviceMap ec2 volume with
  | mk result after =>
    cases result with
    | error err => rfl
    | died why => rfl
    | ok device =>
      show (_ >>= _) = (a.waitAttached volume.providerID device after ec2.describeVolumes >>= _)
      rw [← waitAttachedMap_eq]
      rfl

/-! ## The devices that are free -/

def IsFree (deviceMap : GoMap String) (device : String) : Prop := (deviceMap.lookup device).getD "" = ""

instance (deviceMap : GoMap String) (device : String) : Decidable (IsFree deviceMap device) :=
  inferInstanceAs (Decidable (_ = _))

/-- The free devices in the order in which they are tried. -/
def free (deviceMap : GoMap String) : List String := devices.dedup.filter (IsFree deviceMap ·)

theorem find?_devices (p : String → Bool) : devices.find? p = (devices.dedup.filter p).head? := by
  have hdevices : devices.dedup = ["/dev/xvdu", "/dev/xvdv", "/dev/xvdx", "/dev/xvdy", "/dev/xvdz"] := by decide
  rw [hdevices, List.head?_filter, devices]
  simp only [List.find?_cons]
  cases p "/dev/xvdx" <;> rfl

section Free

variable {deviceMap : GoMap String} {volumeID d : String} {rest : List String}

theorem assignDevice_of_free (h : free deviceMap = d :: rest) :
    assignDevice deviceMap volumeID = .ok (d, deviceMap.insert d volumeID) := by
  have hfind : (devices.find? fun d => (deviceMap.lookup d).getD "" = "") = some d := by
    rw [find?_devices]
    exact congrArg List.head? h
  rw [assignDevice, hfind]

theorem assignDevice_of_none (h : free deviceMap = []) : assignDevice deviceMap volumeID = .error "all devices in use" := by
  have hfind : (devices.find? fun d => (deviceMap.lookup d).getD "" = "") = none := by
    rw [find?_devices]
    exact congrArg List.head? h
  rw [assignDevice, hfind]

theorem assignDevice_eq_ok {after : GoMap String} (h : assignDevice deviceMap volumeID = .ok (d, after)) :
    ∃ rest, free deviceMap = d :: rest ∧ after = deviceMap.insert d volumeID := by
  cases hfree : free deviceMap with
  | nil =>
    rw [assignDevice_of_none hfree] at h
    cases h
  | cons d rest =>
    rw [assignDevice_of_free hfree] at h
    cases h
    exact ⟨rest, rfl, rfl⟩

/-- A device that is reserved for a volume is free no more. -/
theorem free_insert (h : free deviceMap = d :: rest) :
    free (deviceMap.insert d volumeID) = if volumeID = "" then free deviceMap else rest := by
  have hself : IsFree (deviceMap.insert d volumeID) d ↔ volumeID = "" := by
    simp [IsFree, AList.lookup_insert]
  have hother : ∀ d', d' ≠ d → (IsFree (deviceMap.insert d volumeID) d' ↔ IsFree deviceMap d') := by
    intro d' hne
    simp [IsFree, AList.lookup_insert_ne hne]
  split
  next hempty =>
    have hd : IsFree deviceMap d := by
      have hmem : d ∈ free deviceMap := by simp [h]
      exact of_decide_eq_true (List.mem_filter.1 hmem).2
    refine List.filter_congr fun d' _ => decide_eq_decide.2 ?_
    by_cases hd' : d' = d
    · subst hd'
      exact iff_of_true (hself.2 hempty) hd
    · exact hother d' hd'
  next hid =>
    have hnodup : (d :: rest).Nodup := h ▸ (List.nodup_dedup devices).filter _
    have hfilter : free (deviceMap.insert d volumeID) = (free deviceMap).filter (· ≠ d) := by
      rw [free, free, List.filter_filter]
      refine List.filter_congr fun d' _ => ?_
      by_cases hd' : d' = d
      · subst hd'
        simp [hself, hid]
      · simp [hother d' hd', hd']
    rw [hfilter, h, List.filter_cons_of_neg (by simp), List.filter_eq_self]
    intro d' hd'
    simpa using ne_of_mem_of_not_mem hd' (List.nodup_cons.1 hnodup).1

end Free

/-! ## Requests that are refused -/

/-- The answers of a call in which a request for `device` is refused, after some whose parameters were wrong. -/
inductive Refused (volumeID : String) : GoMap String → List (Except Ec2Error Unit) → String → Error → Prop
  | here {deviceMap deviceMap' : GoMap String} {device : String} {err : Error} {answers : List (Except Ec2Error Unit)} :
      assignDevice deviceMap volumeID = .ok (device, deviceMap') →
      Refused volumeID deviceMap (.error (.other err) :: answers) device err
  | next {deviceMap deviceMap' : GoMap String} {device device' message : String} {err : Error}
      {answers : List (Except Ec2Error Unit)} :
      assignDevice deviceMap volumeID = .ok (device', deviceMap') → Refused volumeID deviceMap' answers device err →
      Refused volumeID deviceMap (.error (.invalidParameterValue message) :: answers) device err

/-- How many requests a call makes, up to the one that is not for its parameters. -/
def requests : List (Except Ec2Error Unit) → Nat
  | .error (.invalidParameterValue _) :: answers => requests answers + 1
  | _ => 1

/-- What a call for a volume takes of the devices. -/
def taken (volumeID : String) (answers : List (Except Ec2Error Unit)) : Nat :=
  if volumeID = "" then 0 else requests answers

theorem tryDevicesMap_refused {volumeID device : String} {deviceMap : GoMap String}
    {answers : List (Except Ec2Error Unit)} {err : Error} (h : Refused volumeID deviceMap answers device err) :
    ∃ after, tryDevicesMap volumeID deviceMap answers =
        (.error s!"error attaching EBS volume {volumeID.quote}: {err}", after) ∧
      (IsFree after device ↔ volumeID = "") ∧ free after = (free deviceMap).drop (taken volumeID answers) := by
  induction h with
  | here hassign =>
    obtain ⟨rest, hfree, rfl⟩ := assignDevice_eq_ok hassign
    refine ⟨_, by rw [tryDevicesMap, hassign], by simp [IsFree, AList.lookup_insert], ?_⟩
    rw [free_insert hfree, taken]
    split
    · rfl
    · rw [hfree]
      rfl
  | next hassign _ ih =>
    obtain ⟨rest, hfree, rfl⟩ := assignDevice_eq_ok hassign
    obtain ⟨after, htry, hdevice, hafter⟩ := ih
    refine ⟨after, by rw [tryDevicesMap, hassign]; exact htry, hdevice, ?_⟩
    rw [hafter, free_insert hfree, taken, taken]
    split
    · rfl
    · rw [hfree]
      rfl

theorem attachVolumeMap_refused {a : AWSVolumes} {deviceMap : GoMap String} {ec2 : Ec2Answers} {volume : Volume}
    (hlocal : volume.localDevice = "") {device : String} {err : Error}
    (h : Refused volume.providerID deviceMap ec2.attachVolume device err) :
    (a.attachVolumeMap deviceMap ec2 volume).1 =
        .error s!"error attaching EBS volume {volume.providerID.quote}: {err}" ∧
      (IsFree (a.attachVolumeMap deviceMap ec2 volume).2 device ↔ volume.providerID = "") ∧
      free (a.attachVolumeMap deviceMap ec2 volume).2 =
        (free deviceMap).drop (taken volume.providerID ec2.attachVolume) := by
  obtain ⟨after, htry, hdevice, hafter⟩ := tryDevicesMap_refused h
  have hcall : a.attachVolumeMap deviceMap ec2 volume =
      (.error s!"error attaching EBS volume {volume.providerID.quote}: {err}", after) := by
    rw [attachVolumeMap, deviceForMap, if_pos hlocal, htry]
  rw [hcall]
  exact ⟨rfl, hdevice, hafter⟩

/-! ## Calls that fail, one after the other -/

/-- A run of calls, each for a volume without a device and each with a request that is refused. -/
inductive FailedCalls (a : AWSVolumes) : GoMap String → List (Volume × Ec2Answers) → GoMap String → Prop
  | nil {deviceMap : GoMap String} : FailedCalls a deviceMap [] deviceMap
  | cons {deviceMap after : GoMap String} {volume : Volume} {ec2 : Ec2Answers} {device : String} {err : Error}
      {calls : List (Volume × Ec2Answers)} :
      volume.localDevice = "" → Refused volume.providerID deviceMap ec2.attachVolume device err →
      FailedCalls a (a.attachVolumeMap deviceMap ec2 volume).2 calls after →
      FailedCalls a deviceMap ((volume, ec2) :: calls) after

/-- What a run takes of the devices. -/
def takenBy (calls : List (Volume × Ec2Answers)) : Nat :=
  (calls.map fun call => taken call.1.providerID call.2.attachVolume).sum

theorem FailedCalls.free_eq {a : AWSVolumes} {deviceMap after : GoMap String} {calls : List (Volume × Ec2Answers)}
    (h : FailedCalls a deviceMap calls after) : free after = (free deviceMap).drop (takenBy calls) := by
  induction h with
  | nil => rfl
  | cons hlocal hrefused _ ih =>
    rw [ih, (attachVolumeMap_refused hlocal hrefused).2.2, List.drop_drop]
    simp [takenBy]

/-- A device can be reserved as long as one is free. -/
theorem assignable_iff {deviceMap : GoMap String} {volumeID : String} :
    (∃ r, assignDevice deviceMap volumeID = .ok r) ↔ 0 < (free deviceMap).length := by
  cases hfree : free deviceMap with
  | nil => simp [assignDevice_of_none hfree]
  | cons d rest => simp [assignDevice_of_free hfree]

/-- A refused request gives its device back only for a volume without an id. So every request for a volume takes a
device for good, and after a run of refused calls one can be reserved, where one was free before, only if there were
more. -/
theorem refused_devices_free_iff (a : AWSVolumes) (deviceMap : GoMap String) :
    (∀ ec2 volume device err, volume.localDevice = "" →
      Refused volume.providerID deviceMap ec2.attachVolume device err →
      a.attachVolume deviceMap ec2 volume =
          .error s!"error attaching EBS volume {volume.providerID.quote}: {err}" ∧
        (IsFree (a.attachVolumeMap deviceMap ec2 volume).2 device ↔ volume.providerID = "")) ∧
    ∀ calls after volumeID, FailedCalls a deviceMap calls after →
      ((∃ r, assignDevice after volumeID = .ok r) ↔ takenBy calls < (free deviceMap).length) ∧
      ((free deviceMap ≠ [] → ∃ r, assignDevice after volumeID = .ok r) ↔
        free deviceMap = [] ∨ takenBy calls < (free deviceMap).length) := by
  constructor
  · intro ec2 volume device err hlocal h
    obtain ⟨herr, hdevice, -⟩ := @attachVolumeMap_refused a _ _ _ hlocal _ _ h
    exact ⟨(attachVolumeMap_eq a deviceMap ec2 volume).symm.trans herr, hdevice⟩
  · intro calls after volumeID h
    have hassign : (∃ r, assignDevice after volumeID = .ok r) ↔ takenBy calls < (free deviceMap).length := by
      rw [assignable_iff, h.free_eq, List.length_drop]
      omega
    exact ⟨hassign, by rw [hassign, or_iff_not_imp_left]⟩

namespace LostRace

def machine : AWSVolumes := ⟨⟨[], ∅⟩, "", "cluster", "i-1", "us-east-1a"⟩

/-- A volume that is another machine's by the time it is asked for. -/
def volume : Volume := ⟨"master-vol-1", "vol-1", "main", "", "", "", "available", ⟨"vol-1"⟩⟩

def ec2 : Ec2Answers := ⟨[.error (.other "IncorrectState: vol-1 is already attached to an instance")], []⟩

/-- The devices after a number of such calls. -/
def after : Nat → GoMap String
  | 0 => ∅
  | n + 1 => (machine.attachVolumeMap (after n) ec2 volume).2

theorem refused_of_free {deviceMap : GoMap String} (d : String) (h : (free deviceMap).head? = some d) :
    Refused "vol-1" deviceMap ec2.attachVolume d "IncorrectState: vol-1 is already attached to an instance" := by
  obtain ⟨rest, hfree⟩ := List.head?_eq_some_iff.1 h
  exact .here (assignDevice_of_free hfree)

theorem refused_devices_free_first : ¬ IsFree (machine.attachVolumeMap ∅ ec2 volume).2 "/dev/xvdu" := by
  have hcall := (refused_devices_free_iff machine ∅).1 ec2 volume "/dev/xvdu" _ rfl
    (refused_of_free _ (by decide +kernel))
  rw [hcall.2]
  decide

/-- Five calls that are refused, and there is no device for the next. -/
theorem refused_devices_used_up : IsFree ∅ "/dev/xvdu" ∧ ¬ IsFree (after 1) "/dev/xvdu" ∧
    FailedCalls machine ∅ (List.replicate 5 (volume, ec2)) (after 5) ∧
    machine.attachVolume (after 5) ec2 volume = .error "all devices in use" := by
  refine ⟨by decide, by decide +kernel, ?_, by decide +kernel⟩
  exact .cons rfl (refused_of_free "/dev/xvdu" (by decide +kernel))
    (.cons rfl (refused_of_free "/dev/xvdv" (by decide +kernel))
      (.cons rfl (refused_of_free "/dev/xvdx" (by decide +kernel))
        (.cons rfl (refused_of_free "/dev/xvdy" (by decide +kernel))
          (.cons rfl (refused_of_free "/dev/xvdz" (by decide +kernel)) .nil))))

end LostRace

end AWSVolumes

end Etcdadm.VolumeProviders
