/-
Whether two paths are the same device (`isSameDevice` and `namesFor` of
`pkg/volumes/mounter.go`), and the one place that asks: `safeFormatAndMount` finds a
device mounted where it is about to mount another.

The names of a device are its path, its path under `/rootfs` and what the path is a
link to. The two loops of `isSameDevice` range over the positions of the names and
compare those, so every pair of devices has the first position in common. The mount
of another device is therefore taken for the one that was wanted.
-/
import Etcdadm.VolumeMounter

namespace Etcdadm.VolumeMounter

/-! ## The names of a device -/

/-- What the paths of a machine are links to. -/
structure Symlinks where
  evalSymlinks : String → Except Error String
  abs : String → Except Error String

namespace Symlinks

variable (links : Symlinks) (containerized : Bool)

/-- An answer that is given by the links. -/
def Answered (e : Event mountSig) : Prop :=
  (∀ dev x, e = ⟨.evalSymlinks dev, x⟩ → x = links.evalSymlinks dev) ∧
    ∀ path x, e = ⟨.abs path, x⟩ → x = links.abs path

/-- The end of a link, made absolute if that can be done. -/
def resolved (dev : String) : List String :=
  match links.evalSymlinks dev with
  | .error _ => []
  | .ok s =>
    match links.abs s with
    | .error _ => [s]
    | .ok a => [a]

def aliases (dev : String) : List String :=
  [dev, (if containerized then "/rootfs" else "") ++ dev] ++ links.resolved dev

/-- Two devices have a name in common. -/
def Same (dev1 dev2 : String) : Prop := ∃ name ∈ links.aliases containerized dev1, name ∈ links.aliases containerized dev2

end Symlinks

section Names

variable {links : Symlinks} {containerized : Bool} {tr : Trace mountSig}

theorem pathFor_runs {hostPath path : String} (h : Runs (pathFor containerized hostPath) tr (.ret path)) :
    tr = [] ∧ path = (if containerized then "/rootfs" else "") ++ hostPath := by
  unfold pathFor at h
  split at h
  next rest hrest =>
    cases h
    refine ⟨rfl, String.toList_inj.1 ?_⟩
    cases containerized <;> simp [hrest]
  all_goals cases h

theorem namesFor_runs {dev : String} {names : List String} (h : Runs (namesFor containerized dev) tr (.ret names))
    (hlinks : ∀ e ∈ tr, links.Answered e) : names = links.aliases containerized dev := by
  obtain ⟨tr₁, tr₂, path, rfl, hpath, hask⟩ := Runs.of_bind h
  obtain ⟨rfl, rfl⟩ := pathFor_runs hpath
  clear h hpath
  cases hask with
  | step h =>
    rename_i tr x
    obtain ⟨hhead, htail⟩ := List.forall_mem_cons.1 hlinks
    have hx := hhead.1 dev x rfl
    cases x with
    | error err =>
      cases h
      simp [Symlinks.aliases, Symlinks.resolved, ← hx]
    | ok s =>
      cases h with
      | step h =>
        rename_i tr y
        have hy := (htail _ List.mem_cons_self).2 s y rfl
        cases y with
        | error err =>
          cases h
          simp [Symlinks.aliases, Symlinks.resolved, ← hx, ← hy]
        | ok a =>
          cases h
          simp [Symlinks.aliases, Symlinks.resolved, ← hx, ← hy]

end Names

/-! ## What is mounted in the container -/

section Mounted

variable {α β : Type} {containerized : Bool} {tr : Trace mountSig}

/-- A request other than for what is mounted. -/
def Unasked (r : MountReq) : Prop := ∀ target, r ≠ .getDeviceNameFromMount target

/-- A run in which that was asked for asked for it after whatever does not. -/
theorem asked_after {p : MountM α} {f : α → MountM β} {b : β} {target : String} {x : Except Error String}
    (hp : p.Uses Unasked True) (h : Runs (p >>= f) tr (.ret b))
    (hasked : (⟨.getDeviceNameFromMount target, x⟩ : Event mountSig) ∈ tr) :
    ∃ a tr', Runs (f a) tr' (.ret b) ∧ (⟨.getDeviceNameFromMount target, x⟩ : Event mountSig) ∈ tr' := by
  obtain ⟨tr₁, tr₂, a, rfl, hfirst, hrest⟩ := Runs.of_bind h
  obtain hmem | hmem := List.mem_append.1 hasked
  · exact absurd rfl ((hfirst.uses hp).1 _ hmem target)
  · exact ⟨a, tr₂, hrest, hmem⟩

theorem unasked_ask {r : MountReq} {f : r.Resp → MountM α} (hr : Unasked r) (hf : ∀ x, (f x).Uses Unasked True) :
    (ask r >>= f).Uses Unasked True := ⟨hr, hf⟩

theorem unasked_perform {r : MountReq} (hr : Unasked r) : (ask r).Uses Unasked True := ⟨hr, fun _ => trivial⟩

theorem unasked_pathFor (hostPath : String) : (pathFor containerized hostPath).Uses Unasked True := by
  unfold pathFor
  split <;> trivial

theorem unasked_waitForDevice (v : Volume) : ∀ fuel, (waitForDevice v fuel).Uses Unasked True
  | 0 => trivial
  | fuel + 1 => unasked_ask (by simp [Unasked]) fun x => by
    cases x with
    | error => trivial
    | ok found =>
      show (if found ≠ "" then _ else _ : MountM (Except Error String)).Uses Unasked True
      split
      · trivial
      · exact unasked_ask (by simp [Unasked]) fun _ => unasked_waitForDevice v fuel

theorem unasked_mountOnHost (device mountpoint fstype : String) :
    (mountOnHost containerized device mountpoint fstype).Uses Unasked True := by
  apply unasked_ask (by simp [Unasked])
  intro x
  cases x with
  | error => trivial
  | ok mounts =>
    dsimp only
    split
    · refine (unasked_pathFor _).bind fun dir => unasked_ask (by simp [Unasked]) fun y => ?_
      cases y with
      | error => trivial
      | ok => exact unasked_ask (by simp [Unasked]) fun z => by cases z <;> trivial
    · split <;> trivial

theorem unasked_namesFor (dev : String) : (namesFor containerized dev).Uses Unasked True :=
  (unasked_pathFor dev).bind fun _ => unasked_ask (by simp [Unasked]) fun x => by
    cases x with
    | error => trivial
    | ok s => exact unasked_ask (by simp [Unasked]) fun y => by cases y <;> trivial

theorem unasked_isSameDevice (dev1 dev2 : String) : (isSameDevice containerized dev1 dev2).Uses Unasked True :=
  (unasked_namesFor dev1).bind fun _ => (unasked_namesFor dev2).bind fun _ => trivial

/-- Whatever is found mounted is the device that was wanted. -/
theorem mountInContainer_mounted {device mountpoint fstype target mounted : String} {err : Option Error}
    (h : Runs (mountInContainer containerized device mountpoint fstype) tr (.ret err))
    (hasked : (⟨.getDeviceNameFromMount target, .ok mounted⟩ : Event mountSig) ∈ tr) (hmounted : mounted ≠ "") :
    err = none := by
  unfold mountInContainer at h
  split at h
  · cases h
    cases hasked
  obtain ⟨source, tr₁, h, hasked⟩ := asked_after (unasked_pathFor _) h hasked
  obtain ⟨path, tr₂, h, hasked⟩ := asked_after (unasked_pathFor _) h hasked
  obtain ⟨tr₃, tr₄, x, rfl, hfirst, hrest⟩ := Runs.of_bind h
  cases hfirst with
  | step hend =>
    cases hend
    obtain hhead | htail := List.mem_cons.1 hasked
    · cases hhead
      simp only [if_pos hmounted] at hrest
      obtain ⟨tr₅, tr₆, same, rfl, hsame, hrest⟩ := Runs.of_bind hrest
      have hsame : same = true := hsame.returns (isSameDevice_returns _ _ _)
      subst hsame
      cases hrest
      rfl
    · -- it is asked for once
      exfalso
      cases x with
      | error err =>
        cases hrest
        cases htail
      | ok mountedDevice =>
        dsimp only at hrest
        split at hrest
        · obtain ⟨same, tr₅, hrest, htail⟩ := asked_after (unasked_isSameDevice _ _) hrest htail
          cases same <;> cases hrest <;> cases htail
        · obtain ⟨y, tr₅, hrest, htail⟩ := asked_after (unasked_perform (by simp [Unasked])) hrest htail
          cases y <;> cases hrest <;> cases htail

/-- The same from the host on; `f` and `g` are what `safeFormatAndMount` goes on with. -/
theorem mountOnHost_mounted {device mountpoint fstype target mounted : String} {err : Option Error}
    {f : Option Error → MountM (Option Error)} {g : Except Error Unit → MountM (Option Error)}
    (h : Runs (mountOnHost containerized device mountpoint fstype >>= f) tr (.ret err))
    (hfailed : ∀ e, f (some e) = .ret (some e)) (hmounts : f none = ask (.resize device mountpoint) >>= g)
    (hresize : ∀ e, ∃ e', g (.error e) = .ret e') (hok : g (.ok ()) = mountInContainer containerized device mountpoint fstype)
    (hasked : (⟨.getDeviceNameFromMount target, .ok mounted⟩ : Event mountSig) ∈ tr) (hmounted : mounted ≠ "") :
    err = none := by
  obtain ⟨failed, tr₁, h, hasked⟩ := asked_after (unasked_mountOnHost _ _ _) h hasked
  cases failed with
  | some e =>
    rw [hfailed] at h
    cases h
    cases hasked
  | none =>
    rw [hmounts] at h
    obtain ⟨x, tr₂, h, hasked⟩ := asked_after (unasked_perform (by simp [Unasked])) h hasked
    cases x with
    | error e =>
      obtain ⟨e', he⟩ := hresize e
      rw [he] at h
      cases h
      cases hasked
    | ok u =>
      rw [hok] at h
      exact mountInContainer_mounted h hasked hmounted

/-- `safeFormatAndMount` succeeds over whatever it finds mounted in the container. -/
theorem safeFormatAndMount_mounted {fuel : Nat} {v : Volume} {mountpoint fstype target mounted : String}
    {err : Option Error} (h : Runs (safeFormatAndMount containerized fuel v mountpoint fstype) tr (.ret err))
    (hasked : (⟨.getDeviceNameFromMount target, .ok mounted⟩ : Event mountSig) ∈ tr) (hmounted : mounted ≠ "") :
    err = none := by
  obtain ⟨x, tr₁, h, hasked⟩ := asked_after (unasked_waitForDevice v fuel) h hasked
  cases x with
  | error e =>
    cases h
    cases hasked
  | ok device =>
    dsimp only at h
    split at h
    · obtain ⟨root, tr₂, h, hasked⟩ := asked_after (unasked_pathFor _) h hasked
      obtain ⟨y, tr₃, h, hasked⟩ := asked_after (unasked_perform (by simp [Unasked])) h hasked
      cases y with
      | error e =>
        cases h
        cases hasked
      | ok u =>
        dsimp only at h
        exact mountOnHost_mounted h (fun _ => rfl) rfl (fun _ => ⟨_, rfl⟩) rfl hasked hmounted
    · exact mountOnHost_mounted h (fun _ => rfl) rfl (fun _ => ⟨_, rfl⟩) rfl hasked hmounted

end Mounted

/-! ## The comparison -/

/-- The comparison is exact, and keeps another device's mount from being taken for the wanted one, only where the two
devices have a name in common anyway. -/
theorem isSameDevice_exact_iff (links : Symlinks) (containerized : Bool) :
    (∀ dev tr names, Runs (namesFor containerized dev) tr (.ret names) → (∀ e ∈ tr, links.Answered e) →
      names = links.aliases containerized dev) ∧
    (∀ dev1 dev2 tr same, Runs (isSameDevice containerized dev1 dev2) tr (.ret same) → (∀ e ∈ tr, links.Answered e) →
      ((same = true ↔ links.Same containerized dev1 dev2) ↔ links.Same containerized dev1 dev2)) ∧
    ∀ fuel v mountpoint fstype tr err, Runs (safeFormatAndMount containerized fuel v mountpoint fstype) tr (.ret err) →
      (∀ e ∈ tr, links.Answered e) → ∀ device target mounted,
      (⟨.findMountedVolume v, .ok device⟩ : Event mountSig) ∈ tr → device ≠ "" →
      (⟨.getDeviceNameFromMount target, .ok mounted⟩ : Event mountSig) ∈ tr → mounted ≠ "" →
      ((¬ links.Same containerized device mounted → err ≠ none) ↔ links.Same containerized device mounted) := by
  refine ⟨fun dev tr names => namesFor_runs, ?_, ?_⟩
  · intro dev1 dev2 tr same h _
    have hsame : same = true := h.returns (isSameDevice_returns _ _ _)
    simp [hsame]
  · intro fuel v mountpoint fstype tr err h _ device target mounted _ _ hasked hmounted
    have herr := safeFormatAndMount_mounted h hasked hmounted
    simp [herr]

namespace OtherDevice

/-- Paths that are no links. -/
def noLinks : Symlinks := ⟨.ok, .ok⟩

def wanted : Volume := ⟨"master-vol-1", "vol-1", "main", "/dev/xvdb", "i-1", "", "", ⟨"vol-1"⟩⟩

/-- The volume is at `/dev/xvdb` and mounted on the host, and in the container there is `/dev/xvdc` at its place. -/
def exchanges : Trace mountSig :=
  [⟨.findMountedVolume wanted, .ok "/dev/xvdb"⟩, ⟨.newNsenter "/rootfs/", .ok ()⟩,
    ⟨.listMounts, .ok [⟨"/dev/xvdb", "/mnt/master-vol-1"⟩]⟩, ⟨.resize "/dev/xvdb" "/mnt/master-vol-1", .ok ()⟩,
    ⟨.getDeviceNameFromMount "/rootfs/mnt/master-vol-1", .ok "/dev/xvdc"⟩,
    ⟨.evalSymlinks "/dev/xvdb", .ok "/dev/xvdb"⟩, ⟨.abs "/dev/xvdb", .ok "/dev/xvdb"⟩,
    ⟨.evalSymlinks "/dev/xvdc", .ok "/dev/xvdc"⟩, ⟨.abs "/dev/xvdc", .ok "/dev/xvdc"⟩]

theorem answered : ∀ e ∈ exchanges, noLinks.Answered e := by
  intro e he
  simp only [exchanges, List.mem_cons, List.not_mem_nil, or_false] at he
  obtain rfl | rfl | rfl | rfl | rfl | rfl | rfl | rfl | rfl := he <;> constructor <;> intro path x h <;> cases h <;> rfl

theorem isSameDevice_exact_rootfs : ∃ tr same, Runs (isSameDevice true "/dev/xvdb" "/rootfs/dev/xvdb") tr (.ret same) ∧
    (∀ e ∈ tr, noLinks.Answered e) ∧ (same = true ↔ noLinks.Same true "/dev/xvdb" "/rootfs/dev/xvdb") := by
  have hrun : Runs (isSameDevice true "/dev/xvdb" "/rootfs/dev/xvdb")
      [⟨.evalSymlinks "/dev/xvdb", .ok "/dev/xvdb"⟩, ⟨.abs "/dev/xvdb", .ok "/dev/xvdb"⟩,
        ⟨.evalSymlinks "/rootfs/dev/xvdb", .ok "/rootfs/dev/xvdb"⟩, ⟨.abs "/rootfs/dev/xvdb", .ok "/rootfs/dev/xvdb"⟩] (.ret true) :=
    .step (.step (.step (.step .refl)))
  have hsame : noLinks.Same true "/dev/xvdb" "/rootfs/dev/xvdb" := by
    unfold Symlinks.Same
    decide +kernel
  refine ⟨_, true, hrun, ?_, ((isSameDevice_exact_iff noLinks true).2.1 _ _ _ _ hrun ?_).2 hsame⟩
  all_goals
    intro e he
    simp only [List.mem_cons, List.not_mem_nil, or_false] at he
    obtain rfl | rfl | rfl | rfl := he <;> constructor <;> intro path x h <;> cases h <;> rfl

/-- Another device is mounted where the volume belongs, and the call succeeds. -/
theorem safeFormatAndMount_other_device :
    Runs (safeFormatAndMount true 1 wanted "/mnt/master-vol-1" "") exchanges (.ret none) ∧
      (∀ e ∈ exchanges, noLinks.Answered e) ∧
      (⟨.findMountedVolume wanted, .ok "/dev/xvdb"⟩ : Event mountSig) ∈ exchanges ∧
      (⟨.getDeviceNameFromMount "/rootfs/mnt/master-vol-1", .ok "/dev/xvdc"⟩ : Event mountSig) ∈ exchanges ∧
      ¬ noLinks.Same true "/dev/xvdb" "/dev/xvdc" := by
  refine ⟨.step (.step (.step (.step (.step (.step (.step (.step (.step .refl)))))))), answered, by simp [exchanges],
    by simp [exchanges], ?_⟩
  unfold Symlinks.Same
  decide +kernel

end OtherDevice

end Etcdadm.VolumeMounter
