/-
What `etcdadm` does to a machine on which etcd may be running.

`init`, `join` and `reset` all stop the unit before they do anything else. So, whatever
fails and wherever a command ends: no file of the installation is changed but while the
unit is inactive. What is written after the start is only for `etcdctl`.

This needs that the unit is not on its way up when systemd is asked whether it is active
(`Steady`). The answer is no then, the unit is not stopped, and it comes up.
-/
import Etcdadm.Guarded
import Etcdadm.Phases

namespace Etcdadm.Adm

/-! ## Requests -/

section Requests

variable {Key Pub : Type}

/-- Requests that change files. -/
def Touches : HostReq Key Pub → Prop
  | .mkdirAll _ | .create _ | .write _ _ | .remove _ | .removeAll _ | .tempDir | .curl _ _ | .tar _ _ | .cp _ _
  | .restoreSnapshot _ _ => True
  | _ => False

/-- Requests that start the unit. -/
def Starts : HostReq Key Pub → Prop
  | .systemctl verb _ => verb = .start
  | _ => False

/-- No file is changed, and the unit is not started. -/
def Asks (r : HostReq Key Pub) : Prop := ¬ Touches r ∧ ¬ Starts r

variable {s : Site Key Pub} {h h' : Host} {r : HostReq Key Pub} {x : r.Resp}

/-- A stopped unit stays stopped, and then nothing changes on disk but by requests. -/
theorem Effect.inactive (hr : ¬ Starts r) (heffect : Effect s h r x h') (hunit : h.unit = .inactive) :
    h'.unit = .inactive := by
  cases heffect with
  | start => exact absurd rfl hr
  | startFailed => exact absurd rfl hr
  | stop => rfl
  | stopFailed hstopped => exact hstopped hunit
  | _ => exact hunit

theorem Serves.inactive (hr : ¬ Starts r) (hserves : Serves s h r x h') (hunit : h.unit = .inactive) :
    h'.unit = .inactive := by
  obtain ⟨h₁, hdrift, heffect⟩ := hserves
  exact heffect.inactive hr (hdrift.inactive hunit).1

end Requests

/-! ## What the parts of the commands ask for -/

section Uses

variable {Key Pub : Type} {dies : Prop}

/-- Files are written where `W` says and removed where `R` says, and the unit is not started. -/
def Confined (W R : VfsPath → Prop) : HostReq Key Pub → Prop
  | .create p | .write p _ | .curl _ p | .cp _ p | .restoreSnapshot _ p => W p
  | .remove p | .removeAll p | .tar _ p => R p
  | .systemctl verb _ => verb ≠ .start
  | _ => True

theorem Confined.not_starts {W R : VfsPath → Prop} {r : HostReq Key Pub} (h : Confined W R r) : ¬ Starts r := by
  intro hstarts
  cases r with
  | systemctl verb unitName => exact h hstarts
  | _ => exact hstarts

theorem Asks.confined {W R : VfsPath → Prop} {r : HostReq Key Pub} (h : Asks r) : Confined W R r := by
  cases r with
  | systemctl verb unitName => exact h.2
  | _ => first | trivial | exact absurd trivial h.1

section Questions

variable {parseIP : String → Option String} {cfg : EtcdAdmConfig}

end Questions

section Changes

variable {cfg : EtcdAdmConfig} {W R : VfsPath → Prop}

end Changes

section Certificates

variable {pem : Pem Key Pub} {publicOf : Key → Pub} {names : Names} {cfg : EtcdAdmConfig} {dir : VfsPath} {b : BaseName}
  {W R : VfsPath → Prop}

variable (hW : ∀ f, W (dir ++ [f]))

include hW

omit hW

end Certificates

end Uses

/-! ## The configuration -/

/-- Where `Download` puts the release. -/
def archiveFile (flags : EtcdAdmConfig) : VfsPath :=
  ["var", "cache", "etcdadm", "etcd", s!"v{flags.version}", releaseFile flags.version]

/-- What the configuration has from the flags, and what is derived from them. -/
structure Located (flags cfg : EtcdAdmConfig) : Prop where
  initSystem : cfg.initSystem = flags.initSystem
  certificatesDir : cfg.certificatesDir = flags.certificatesDir
  dataDir : cfg.dataDir = flags.dataDir
  installDir : cfg.installDir = flags.installDir
  podSpecDir : cfg.podSpecDir = flags.podSpecDir
  unitFile : cfg.unitFile = flags.unitFile
  environmentFile : cfg.environmentFile = flags.environmentFile
  etcdctlEnvFile : cfg.etcdctlEnvFile = flags.etcdctlEnvFile
  etcdctlShellWrapper : cfg.etcdctlShellWrapper = flags.installDir ++ ["etcdctl.sh"]
  archive : cfg.cacheDir ++ [releaseFile cfg.version] = archiveFile flags
  etcdExecutable : cfg.etcdExecutable = flags.installDir ++ ["etcd"]
  certFile : cfg.certFile = pathForCert flags.certificatesDir (.leaf .server)
  keyFile : cfg.keyFile = pathForKey flags.certificatesDir (.leaf .server)
  trustedCAFile : cfg.trustedCAFile = pathForCert flags.certificatesDir .ca
  peerCertFile : cfg.peerCertFile = pathForCert flags.certificatesDir (.leaf .peer)
  peerKeyFile : cfg.peerKeyFile = pathForKey flags.certificatesDir (.leaf .peer)
  peerTrustedCAFile : cfg.peerTrustedCAFile = pathForCert flags.certificatesDir .ca

section Configuration

variable {Key Pub : Type} {parseIP : String → Option String} {flags : EtcdAdmConfig}

end Configuration

/-! ## The unit is stopped first -/

section Stopped

variable {Key Pub : Type} {s : Site Key Pub} {cfg : EtcdAdmConfig} {h : Host}

end Stopped

/-! ## Phases, one after the other -/

section Guards

variable {Key Pub : Type} {s : Site Key Pub} {must : Host → HostReq Key Pub → Prop} {cfg : EtcdAdmConfig} {h : Host}
  {J : Host → EtcdAdmConfig → Prop}

end Guards

/-! ## Files are changed while the unit is stopped -/

section Changes

variable {Key Pub : Type} {s : Site Key Pub} {flags cfg : EtcdAdmConfig} {h : Host}

/-- The unit is stopped, and the configuration is as the flags have it. -/
structure Ready (flags : EtcdAdmConfig) (h : Host) (cfg : EtcdAdmConfig) : Prop where
  unit : h.unit = .inactive
  located : Located flags cfg

variable [DecidableEq Pub] {pem : Pem Key Pub} {publicOf : Key → Pub} {names : Names}

end Changes

/-! ## The commands -/

/-- The configuration a command starts from. -/
def AdmCommand.config {Key Pub : Type} (parseIP : String → Option String) (flags : EtcdAdmConfig) :
    AdmCommand → HostM Key Pub (Except Error EtcdAdmConfig)
  | .init => setInitDynamicDefaults parseIP (setDefaults flags)
  | .join endpoint => setJoinDynamicDefaults parseIP (setDefaults { flags with endpoint })
  | .reset _ => setResetDynamicDefaults parseIP (setDefaults flags)

section Commands

variable {Key Pub : Type} {s : Site Key Pub} {names : Names} {flags cfg : EtcdAdmConfig} {h : Host} {cmd : AdmCommand}
  {must : Host → HostReq Key Pub → Prop} {I : Host → Prop}

section Asking

variable (hmust : ∀ h r, Asks r → must h r) (hI : ∀ h r x h', Asks r → Steady s h r x h' → I h → I h')

include hmust hI

end Asking

variable {musts : EtcdAdmConfig → Host → HostReq Key Pub → Prop} (hmust : ∀ cfg h r, Asks r → musts cfg h r)
  (hI : ∀ h r x h', Asks r → Steady s h r x h' → I h → I h') {h' : Host} {r : HostReq Key Pub} {k : r.Resp → HostM Key Pub Unit}
  (hr : ¬ Asks r)

variable [DecidableEq Pub] {pem : Pem Key Pub} {marshalPod : MarshalPod} {parseURL : String → Option Error}

end Commands

namespace Example

/-- The members, the data and the certificates of a cluster of one. -/
def running : Machine := ⟨[(["var", "lib", "etcd"], .dir), ([], .dir)], 0, true, .active⟩

def removes : HostReq Unit Unit → Bool
  | .removeAll _ => true
  | _ => false

def marshalPod : MarshalPod := fun _ _ => .error "no pod"

/-- A command, with the flags of the example. -/
def command (cmd : AdmCommand) : HostM Unit Unit Unit := cmd.run pem site.publicOf names marshalPod (fun _ => none) config

end Example

section Restart

variable {Key Pub : Type} {s : Site Key Pub} {flags cfg : EtcdAdmConfig} {h : Host} {parseIP : String → Option String}

theorem goes_setDynamicDefaults (hbind : flags.bindAddr = "") :
    ∃ cfg, Located flags cfg ∧ Prog.Goes (Serves s) h (setDynamicDefaults parseIP flags) (.ret (.ok cfg)) h := by
  have hthen {p : HostM Key Pub (Except Error String)} {f : Except Error String → HostM Key Pub (Except Error EtcdAdmConfig)}
      {x : Except Error String} (hp : Prog.Goes (Serves s) h p (.ret x) h)
      (hf : ∃ cfg, Located flags cfg ∧ Prog.Goes (Serves s) h (f x) (.ret (.ok cfg)) h) :
      ∃ cfg, Located flags cfg ∧ Prog.Goes (Serves s) h (p >>= f) (.ret (.ok cfg)) h := by
    obtain ⟨cfg, hlocated, hrest⟩ := hf
    exact ⟨cfg, hlocated, (hp.bind f).trans hrest⟩
  refine hthen (x := .ok (if flags.name = "" then "node" else flags.name)) ?_ ?_
  · split
    · exact .call (Effect.hostname (x := .ok "node")).serves .refl
    · exact .refl
  · simp only [defaultPeerURLs, defaultClientURLs, ensureValidExternalAddress, hbind, true_or, if_true, defaultCertSANs, host]
    refine ⟨_, ?_, .call (Effect.numCPU (x := 1)).serves (.call (Effect.resolveBindAddress (x := .ok "")).serves
      (.call (Effect.resolveBindAddress (x := .ok "")).serves (.call (Effect.rangeOver (x := ⟨_, .refl _⟩)).serves
        (.call (Effect.rangeOver (x := ⟨_, .refl _⟩)).serves .refl))))⟩
    constructor <;> rfl

theorem goes_askActive_activating (hunit : h.unit = .activating) :
    Prog.Goes (Serves s) h (askUnit cfg .isActive) (.ret (.ok false)) h := by
  have heffect : Effect s h (.systemctl .isActive (unitName cfg)) (.error (.exit "" "")) h := .notActive (by simp [hunit])
  exact .call heffect.serves .refl

theorem goes_stop_activating (cfg : EtcdAdmConfig) (hunit : h.unit = .activating) :
    ∃ h', h'.unit = .activating ∧ h'.disk = h.disk ∧ Prog.Goes (Serves s) h (disableAndStopService cfg) (.ret none) h' := by
  have hstop {h : Host} (hunit : h.unit = .activating) : Prog.Goes (Serves s) h (stopIfActive cfg) (.ret none) h :=
    (goes_askActive_activating hunit).bind _
  cases henabled : h.enabled with
  | false =>
    have heffect : Effect s h (.systemctl .isEnabled (unitName cfg)) (.error (.exit "" "")) h := .notEnabled henabled
    exact ⟨h, hunit, rfl, .call heffect.serves (hstop hunit)⟩
  | true =>
    have heffect : Effect s h (.systemctl .isEnabled (unitName cfg)) (.ok ()) h := .enabled henabled
    have hreload : Effect s h (.systemctl .daemonReload "") (.ok ()) h := .reload
    have hdisable : Effect s h (.systemctl .disable (unitName cfg)) (.ok ()) { h with enabled := false } := .disable
    exact ⟨{ h with enabled := false }, hunit, rfl,
      .call heffect.serves (.call hreload.serves (.call hdisable.serves (hstop hunit)))⟩

end Restart

/-- **A unit that is on its way up is not stopped.** `reset` can come to remove the data of an etcd that has come up by
then and runs on. -/
theorem restart_escapes {Key Pub : Type} [DecidableEq Pub] (s : Site Key Pub) (pem : Pem Key Pub) (names : Names)
    (marshalPod : MarshalPod) (parseURL : String → Option Error) (flags : EtcdAdmConfig) (hsystemd : flags.initSystem = "systemd")
    (hbind : flags.bindAddr = "") (h : Host) (hunit : h.unit = .activating) (skipRemoveMember : Bool) :
    ∃ k h₁ h', Prog.Goes (Serves s) h (AdmCommand.run pem s.publicOf names marshalPod parseURL flags (.reset skipRemoveMember))
        (.call (.removeAll flags.dataDir) k) h₁ ∧ h₁.disk = h.disk ∧
      Serves s h₁ (.removeAll flags.dataDir) (.ok ()) h' ∧ h'.unit = .active ∧ h'.disk = Disk.cleared flags.dataDir h.disk := by
  have hsome : ∃ cfg, Located (setDefaults flags) cfg ∧
      Prog.Goes (Serves s) h (setDynamicDefaults names.parseIP (setDefaults flags)) (.ret (.ok cfg)) h :=
    goes_setDynamicDefaults hbind
  obtain ⟨cfg, hlocated, hdefaults⟩ := hsome
  obtain ⟨h₁, hunit₁, hdisk, hstop⟩ := goes_stop_activating cfg hunit
  have hinit : Prog.Goes (Serves s) h (getInitSystem marshalPod cfg) (.ret (.ok systemd)) h := by
    unfold getInitSystem
    rw [if_pos (hlocated.initSystem.trans hsystemd)]
    exact .call (Effect.lookPath (x := .ok ())).serves .refl
  have hremove : Prog.Goes (Serves s) h (stopAndRemove systemd cfg) (removeInstallation cfg) h₁ := hstop.bind _
  have hrun : Prog.Goes (Serves s) h (AdmCommand.run pem s.publicOf names marshalPod parseURL flags (.reset skipRemoveMember))
      (removeInstallation cfg) h₁ := by
    refine (hdefaults.bind _).trans ((hinit.bind _).trans (((goes_askActive_activating hunit).bind _).trans ?_))
    simpa using hremove
  have hdir : cfg.dataDir = flags.dataDir := hlocated.dataDir
  -- the unit has come up when the data is removed
  have hdrift : Drifts s.etcdDir h₁ { h₁ with unit := .active } := ⟨le_rfl, rfl, by simp [hunit₁], .refl⟩
  rw [← hdir, ← hdisk]
  exact ⟨_, h₁, _, hrun, rfl, ⟨_, hdrift, .removedAll⟩, rfl, rfl⟩

theorem data_removed_under_etcd : ∃ (s : Site Unit Unit) (h h₁ h' : Host) (k : Except Error Unit → HostM Unit Unit Unit),
    Prog.Goes (Serves s) h (Example.command (.reset false)) (.call (.removeAll ["var", "lib", "etcd"]) k) h₁ ∧
      h₁.disk ["var", "lib", "etcd", "member"] = some .dir ∧ Serves s h₁ (.removeAll ["var", "lib", "etcd"]) (.ok ()) h' ∧
      h'.unit = .active ∧ h'.disk ["var", "lib", "etcd", "member"] = none := by
  let h : Host := ⟨fun p => if p = ["var", "lib", "etcd", "member"] then some .dir else none, 0, true, .activating⟩
  obtain ⟨k, h₁, h', hgoes, hdisk, hserves, hunit, hcleared⟩ := restart_escapes Example.site Example.pem Example.names
    Example.marshalPod (fun _ => none) Example.config rfl rfl h rfl false
  refine ⟨Example.site, h, h₁, h', k, hgoes, by rw [hdisk]; rfl, hserves, hunit, ?_⟩
  rw [hcleared]
  exact Disk.cleared_below (by decide)

end Etcdadm.Adm
