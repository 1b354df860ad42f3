/-
The machine that `etcdadm` sets up: its files, its clock, and the unit that
systemd runs etcd in.

One run of `etcdadm` is a program over `HostReq`. What the machine answers is the
relation `Serves`. Every request may fail, and one that fails may have done a part
of its work: some directories are made, the first bytes of a file are written, some
of a tree is removed. Between two requests the machine goes on by itself: the clock
advances, and as long as the unit is not inactive, systemd moves it on and etcd
writes below its own data directory (`Drifts`).

`systemctl is-active` fails for a unit that is starting or about to be restarted, as it
does for one that is stopped. `Steady` are the runs in which it is not asked then.
-/
import Etcdadm.Disk
import Etcdadm.Guarded
import Etcdadm.Keypair
import Etcdadm.InitialCluster

namespace Etcdadm.Adm

open Disk (Within cleared)
open Pki (Template)
open InitialCluster (Member)

/-! ## Requests -/

/-- `x509.Certificate`. `certSign` tells that the key usage is empty or has `KeyUsageCertSign`. -/
structure Certificate (Pub : Type) extends Pki.Certificate Pub where
  isCA : Bool
  certSign : Bool
deriving DecidableEq

/-- The errors of `exec.Cmd`, by their types. -/
inductive ExecError where
  /-- `*exec.Error`: the command was not run -/
  | notRun (name : String) (err : Error)
  /-- `*exec.ExitError`, with what the command wrote to its standard error -/
  | exit (status : Error) (stderr : String)
  | other (err : Error)

def ExecError.text : ExecError → Error
  | .notRun name err => s!"exec: {name.quote}: {err}"
  | .exit status _ => status
  | .other err => err

inductive Verb where
  | daemonReload | start | stop | enable | disable | isActive | isEnabled
deriving DecidableEq

inductive HostReq (Key Pub : Type) where
  /-- `os.Stat` -/
  | stat (p : VfsPath)
  /-- `ioutil.ReadFile` -/
  | readFile (p : VfsPath)
  /-- `os.MkdirAll` -/
  | mkdirAll (p : VfsPath)
  /-- `os.OpenFile` with `O_CREATE|O_TRUNC` -/
  | create (p : VfsPath)
  /-- One `Write` to the open file. -/
  | write (p : VfsPath) (data : String)
  /-- `os.Remove` -/
  | remove (p : VfsPath)
  /-- `os.RemoveAll` -/
  | removeAll (p : VfsPath)
  /-- `ioutil.TempDir("", "etcd")` -/
  | tempDir
  /-- `exec.LookPath("systemctl")` -/
  | lookPath
  /-- `systemctl`, with the unit for all verbs but `daemon-reload` -/
  | systemctl (verb : Verb) (unitName : String)
  | curl (url : String) (archive : VfsPath)
  /-- `tar xzf` -/
  | tar (archive extractDir : VfsPath)
  /-- `cp -f` -/
  | cp (src dest : VfsPath)
  /-- The output of a command. -/
  | output (executable : VfsPath) (arg : String)
  | now
  /-- `rsa.GenerateKey` -/
  | generateKey
  /-- `cryptorand.Int` -/
  | serial
  /-- `certutil.NewSelfSignedCACert` -/
  | newSelfSignedCACert (commonName : String) (key : Key)
  | createCertificate (tmpl : Template) (parent : Certificate Pub) (publicKey : Pub) (caKey : Key)
  | hostname
  | numCPU
  /-- `netutil.ResolveBindAddress` -/
  | resolveBindAddress
  /-- `net.InterfaceAddrs`, those that are an `*net.IPNet` -/
  | interfaceAddrs
  /-- `uuid.NewV4().String()` -/
  | uuid
  /-- The order in which `range` goes over a map. -/
  | rangeOver (keys : List String)
  /-- `etcd.ClientForEndpoint` -/
  | clientForEndpoint (endpoint : String)
  | memberList
  | memberAdd (peerURLs : List String)
  | memberRemove (id : Nat)
  /-- `client.Get`; `none` is success, and the flag tells `rpctypes.ErrPermissionDenied` -/
  | get (key : String)
  /-- `Restore` of `clientv3/snapshot` -/
  | restoreSnapshot (snapshot : String) (outputDataDir : VfsPath)
  | sleep

@[reducible] def HostReq.Resp {Key Pub : Type} : HostReq Key Pub → Type
  | .stat _ | .remove _ => Except VfsError Unit
  | .readFile _ => Except VfsError String
  | .mkdirAll _ | .create _ | .write _ _ | .removeAll _ => Except Error Unit
  | .tempDir => Except Error VfsPath
  | .lookPath => Except Error Unit
  | .systemctl _ _ | .curl _ _ | .tar _ _ | .cp _ _ => Except ExecError Unit
  | .output _ _ => Except ExecError String
  | .now => Int
  | .generateKey => Except Error Key
  | .serial => Except Error Nat
  | .newSelfSignedCACert _ _ | .createCertificate _ _ _ _ => Except Error (Certificate Pub)
  | .hostname | .resolveBindAddress => Except Error String
  | .numCPU => Int
  | .interfaceAddrs => Except Error (List String)
  | .uuid => String
  | .rangeOver keys => { ks : List String // ks.Perm keys }
  | .clientForEndpoint _ | .memberRemove _ => Except Error Unit
  | .memberList => Except Error (List Member)
  | .memberAdd _ => Except Error (Member × List Member)
  | .get _ => Option (Error × Bool)
  | .restoreSnapshot _ _ => Except Error Unit
  | .sleep => Unit

@[reducible] def hostSig (Key Pub : Type) : Sig := ⟨HostReq Key Pub, HostReq.Resp⟩

abbrev HostM (Key Pub : Type) := Prog (hostSig Key Pub)

def host {Key Pub : Type} (r : HostReq Key Pub) : HostM Key Pub r.Resp := .call (S := hostSig Key Pub) r .ret

/-! ## The machine -/

/-- `activating` is also the time until an automatic restart. -/
inductive UnitState where
  | inactive | activating | active
deriving DecidableEq

structure Host where
  disk : Disk
  clock : Int
  enabled : Bool
  unit : UnitState

/-- What does not change from machine to machine run. -/
structure Site (Key Pub : Type) where
  publicOf : Key → Pub
  /-- Where the etcd of the unit has its data. -/
  etcdDir : VfsPath

/-- What the machine does by itself. -/
structure Drifts (etcdDir : VfsPath) (h h' : Host) : Prop where
  clock : h.clock ≤ h'.clock
  enabled : h'.enabled = h.enabled
  inactive : h.unit = .inactive → h'.unit = .inactive ∧ h'.disk = h.disk
  disk : Within etcdDir h.disk h'.disk

/-- The effect of a request. -/
inductive Effect {Key Pub : Type} (s : Site Key Pub) (h : Host) : (r : HostReq Key Pub) → r.Resp → Host → Prop
  | found {p n} : h.disk p = some n → Effect s h (.stat p) (.ok ()) h
  | missing {p} : h.disk p = none → Effect s h (.stat p) (.error .notExist) h
  | statFailed {p err} : Effect s h (.stat p) (.error (.failed err)) h
  | read {p data} : h.disk p = some (.file data) → Effect s h (.readFile p) (.ok data) h
  | readMissing {p} : h.disk p = none → Effect s h (.readFile p) (.error .notExist) h
  | readFailed {p err} : Effect s h (.readFile p) (.error (.failed err)) h
  | made {p} : h.disk.Clear p → Effect s h (.mkdirAll p) (.ok ()) { h with disk := h.disk.mkdirs p }
  | makeFailed {p err} : Effect s h (.mkdirAll p) (.error err) h
  | makeStopped {p q err} : q <+: p → h.disk.Clear q →
      Effect s h (.mkdirAll p) (.error err) { h with disk := h.disk.mkdirs q }
  | created {p} : h.disk.CanCreate p → Effect s h (.create p) (.ok ()) { h with disk := h.disk.set p (.file "") }
  | createFailed {p err} : Effect s h (.create p) (.error err) h
  | written {p data more} : h.disk p = some (.file data) →
      Effect s h (.write p more) (.ok ()) { h with disk := h.disk.set p (.file (data ++ more)) }
  | writeFailed {p more err} : Effect s h (.write p more) (.error err) h
  | writeStopped {p data part rest err} : h.disk p = some (.file data) →
      Effect s h (.write p (part ++ rest)) (.error err) { h with disk := h.disk.set p (.file (data ++ part)) }
  | removed {p} : (∀ name, h.disk (p ++ [name]) = none) →
      Effect s h (.remove p) (.ok ()) { h with disk := Function.update h.disk p none }
  | removeMissing {p} : h.disk p = none → Effect s h (.remove p) (.error .notExist) h
  | removeFailed {p err} : Effect s h (.remove p) (.error (.failed err)) h
  | removedAll {p} : Effect s h (.removeAll p) (.ok ()) { h with disk := cleared p h.disk }
  | removeAllStopped {p d' err} : (∀ q, d' q = h.disk q ∨ p <+: q ∧ d' q = none) →
      Effect s h (.removeAll p) (.error err) { h with disk := d' }
  | tempDir {p} : (∀ q, p <+: q → h.disk q = none) →
      Effect s h .tempDir (.ok p) { h with disk := h.disk.set p .dir }
  | tempDirFailed {err} : Effect s h .tempDir (.error err) h
  | lookPath {x} : Effect s h .lookPath x h
  | notRun {verb unitName err} : (∀ status stderr, err ≠ .exit status stderr) →
      Effect s h (.systemctl verb unitName) (.error err) h
  | active {unitName} : h.unit = .active → Effect s h (.systemctl .isActive unitName) (.ok ()) h
  | notActive {unitName status stderr} : h.unit ≠ .active →
      Effect s h (.systemctl .isActive unitName) (.error (.exit status stderr)) h
  | enabled {unitName} : h.enabled = true → Effect s h (.systemctl .isEnabled unitName) (.ok ()) h
  | notEnabled {unitName status stderr} : h.enabled = false →
      Effect s h (.systemctl .isEnabled unitName) (.error (.exit status stderr)) h
  | reload {unitName x} : Effect s h (.systemctl .daemonReload unitName) x h
  | start {unitName} : Effect s h (.systemctl .start unitName) (.ok ()) { h with unit := .active }
  | startFailed {unitName status stderr unit} :
      Effect s h (.systemctl .start unitName) (.error (.exit status stderr)) { h with unit := unit }
  | stop {unitName} : Effect s h (.systemctl .stop unitName) (.ok ()) { h with unit := .inactive }
  | stopFailed {unitName status stderr unit} : (h.unit = .inactive → unit = .inactive) →
      Effect s h (.systemctl .stop unitName) (.error (.exit status stderr)) { h with unit := unit }
  | enable {unitName} : Effect s h (.systemctl .enable unitName) (.ok ()) { h with enabled := true }
  | enableFailed {unitName status stderr e} :
      Effect s h (.systemctl .enable unitName) (.error (.exit status stderr)) { h with enabled := e }
  | disable {unitName} : Effect s h (.systemctl .disable unitName) (.ok ()) { h with enabled := false }
  | disableFailed {unitName status stderr e} : (h.enabled = false → e = false) →
      Effect s h (.systemctl .disable unitName) (.error (.exit status stderr)) { h with enabled := e }
  | curl {url archive x d'} : Within archive h.disk d' → Effect s h (.curl url archive) x { h with disk := d' }
  | tar {archive extractDir x d'} : Within extractDir h.disk d' →
      Effect s h (.tar archive extractDir) x { h with disk := d' }
  | copied {src dest data} : h.disk src = some (.file data) → h.disk dest ≠ some .dir →
      Effect s h (.cp src dest) (.ok ()) { h with disk := h.disk.set dest (.file data) }
  | copyFailed {src dest err d'} : Within dest h.disk d' → Effect s h (.cp src dest) (.error err) { h with disk := d' }
  | output {executable arg x} : Effect s h (.output executable arg) x h
  | now {t} : h.clock ≤ t → Effect s h .now t { h with clock := t }
  | generateKey {x} : Effect s h .generateKey x h
  | serial {x} : Effect s h .serial x h
  | selfSigned {commonName key cert} : cert.isCA = true → cert.certSign = true → cert.publicKey = s.publicOf key →
      cert.signedBy = s.publicOf key → cert.commonName = commonName →
      Effect s h (.newSelfSignedCACert commonName key) (.ok cert) h
  | selfSignFailed {commonName key err} : Effect s h (.newSelfSignedCACert commonName key) (.error err) h
  /-- The private key has to be that of the parent. -/
  | createdCertificate {tmpl parent publicKey caKey} : s.publicOf caKey = parent.publicKey →
      Effect s h (.createCertificate tmpl parent publicKey caKey)
        (.ok { tmpl.issue publicKey parent.publicKey with isCA := false, certSign := false }) h
  | createCertificateFailed {tmpl parent publicKey caKey err} :
      Effect s h (.createCertificate tmpl parent publicKey caKey) (.error err) h
  | hostname {x} : Effect s h .hostname x h
  | numCPU {x} : Effect s h .numCPU x h
  | resolveBindAddress {x} : Effect s h .resolveBindAddress x h
  | interfaceAddrs {x} : Effect s h .interfaceAddrs x h
  | uuid {x} : Effect s h .uuid x h
  | rangeOver {keys x} : Effect s h (.rangeOver keys) x h
  | clientForEndpoint {endpoint x} : Effect s h (.clientForEndpoint endpoint) x h
  | memberList {x} : Effect s h .memberList x h
  | memberAdd {peerURLs x} : Effect s h (.memberAdd peerURLs) x h
  | memberRemove {id x} : Effect s h (.memberRemove id) x h
  | get {key x} : Effect s h (.get key) x h
  | restoreSnapshot {snapshot outputDataDir x d'} : Within outputDataDir h.disk d' →
      Effect s h (.restoreSnapshot snapshot outputDataDir) x { h with disk := d' }
  | sleep : Effect s h .sleep () h

/-- What the machine answers. -/
def Serves {Key Pub : Type} (s : Site Key Pub) (h : Host) (r : HostReq Key Pub) (x : r.Resp) (h' : Host) : Prop :=
  ∃ h₁, Drifts s.etcdDir h h₁ ∧ Effect s h₁ r x h'

def AsksActive {Key Pub : Type} : HostReq Key Pub → Prop
  | .systemctl verb _ => verb = .isActive
  | _ => False

/-- As `Serves`, where the unit is not on its way up when systemd is asked whether it is active. -/
def Steady {Key Pub : Type} (s : Site Key Pub) (h : Host) (r : HostReq Key Pub) (x : r.Resp) (h' : Host) : Prop :=
  Serves s h r x h' ∧ (AsksActive r → h'.unit ≠ .activating)

theorem Drifts.refl {etcdDir : VfsPath} {h : Host} : Drifts etcdDir h h :=
  ⟨le_rfl, rfl, fun hunit => ⟨hunit, rfl⟩, .refl⟩

theorem Effect.serves {Key Pub : Type} {s : Site Key Pub} {h h' : Host} {r : HostReq Key Pub} {x : r.Resp}
    (heffect : Effect s h r x h') : Serves s h r x h' := ⟨h, .refl, heffect⟩

theorem Effect.clock {Key Pub : Type} {s : Site Key Pub} {h h' : Host} {r : HostReq Key Pub} {x : r.Resp}
    (heffect : Effect s h r x h') : h.clock ≤ h'.clock := by
  cases heffect with
  | now hle => exact hle
  | _ => exact le_rfl

/-- The clock does not go back. -/
theorem always_clock {Key Pub α : Type} {s : Site Key Pub} {h : Host} {t : Int} (ht : t ≤ h.clock) (p : HostM Key Pub α) :
    p.Always (Serves s) (fun h => t ≤ h.clock) (fun h _ => t ≤ h.clock) h := by
  have huses : p.Uses (fun _ => True) True := .trivially (fun _ => trivial) p
  refine .of_uses (fun g r x g' _ hserves hclock => ?_) huses ht
  obtain ⟨h₁, hdrift, heffect⟩ := hserves
  exact hclock.trans (hdrift.clock.trans heffect.clock)

/-! ## A machine on which nothing fails

Its files are a list, so that runs on it can be computed. -/

namespace Example

structure Machine where
  files : Files
  clock : Int
  enabled : Bool
  unit : UnitState

namespace Machine

def disk (m : Machine) : Disk := Files.disk m.files

def host (m : Machine) : Host := ⟨m.disk, m.clock, m.enabled, m.unit⟩

def set (m : Machine) (p : VfsPath) (n : Inode) : Machine := { m with files := Files.set m.files p n }

end Machine

/-- One key. -/
def site : Site Unit Unit := ⟨id, ["var", "lib", "etcd"]⟩

def authority (commonName : String) : Certificate Unit :=
  ⟨⟨⟨commonName, [], [], [], 1, 0, 1000, []⟩, (), ()⟩, true, true⟩

def calmUnit (m : Machine) : Verb → Option (Except ExecError Unit × Machine)
  | .daemonReload => some (.ok (), m)
  | .start => some (.ok (), { m with unit := .active })
  | .stop => some (.ok (), { m with unit := .inactive })
  | .enable => some (.ok (), { m with enabled := true })
  | .disable => some (.ok (), { m with enabled := false })
  | .isActive =>
    match m.unit with
    | .active => some (.ok (), m)
    | .activating => none
    | .inactive => some (.error (.exit "exit status 3" ""), m)
  | .isEnabled => some (if m.enabled then .ok () else .error (.exit "exit status 1" ""), m)

/-- What the machine answers, for most requests. -/
def calm (m : Machine) : (r : HostReq Unit Unit) → Option (r.Resp × Machine)
  | .stat p =>
    match m.disk p with
    | none => some (.error .notExist, m)
    | some _ => some (.ok (), m)
  | .readFile p =>
    match m.disk p with
    | none => some (.error .notExist, m)
    | some (.file data) => some (.ok data, m)
    | some .dir => none
  | .mkdirAll p => if p.inits.all (Files.noFile m.files) then some (.ok (), { m with files := Files.mkdirs p m.files }) else none
  | .create p =>
    if m.disk p ≠ some .dir ∧ m.disk p.dropLast = some .dir then some (.ok (), m.set p (.file "")) else none
  | .write p more =>
    match m.disk p with
    | some (.file data) => some (.ok (), m.set p (.file (data ++ more)))
    | _ => none
  | .removeAll p => some (.ok (), { m with files := Files.cleared p m.files })
  | .tempDir =>
    if m.files.all fun e => ¬ ["tmp", "etcd"] <+: e.1 then some (.ok ["tmp", "etcd"], m.set ["tmp", "etcd"] .dir) else none
  | .lookPath => some (.ok (), m)
  | .systemctl verb _ => calmUnit m verb
  | .curl _ archive => some (.ok (), m.set archive (.file "archive"))
  | .tar _ extractDir =>
    some (.ok (), (m.set (extractDir ++ ["etcd"]) (.file "etcd")).set (extractDir ++ ["etcdctl"]) (.file "etcdctl"))
  | .cp src dest =>
    match m.disk src with
    | some (.file data) => if m.disk dest ≠ some .dir then some (.ok (), m.set dest (.file data)) else none
    | _ => none
  | .output _ arg => some (.ok (if arg = "version" then "etcdctl version: 3.5.7" else "etcd Version: 3.5.7"), m)
  | .now => some (m.clock, m)
  | .generateKey => some (.ok (), m)
  | .serial => some (.ok 1, m)
  | .newSelfSignedCACert commonName _ => some (.ok (authority commonName), m)
  | .createCertificate tmpl _ _ _ => some (.ok { tmpl.issue () () with isCA := false, certSign := false }, m)
  | .hostname => some (.ok "node", m)
  | .numCPU => some (1, m)
  | .resolveBindAddress => some (.ok "10.0.0.1", m)
  | .uuid => some ("00000000-0000-4000-8000-000000000000", m)
  | .rangeOver keys => some (⟨keys, .refl keys⟩, m)
  | .clientForEndpoint _ => some (.ok (), m)
  | .get _ => some (none, m)
  | _ => none

section Calm

variable {m m' : Machine} {p : VfsPath}

theorem host_set {n : Inode} : (m.set p n).host = { m.host with disk := m.host.disk.set p n } := by
  simp only [Machine.host, Machine.disk, Machine.set, Files.disk_set]

theorem calmUnit_effect {verb : Verb} {unitName : String} {x : Except ExecError Unit} (h : calmUnit m verb = some (x, m')) :
    Effect site m.host (.systemctl verb unitName) x m'.host := by
  cases verb with
  | daemonReload =>
    cases h
    exact .reload
  | start =>
    cases h
    exact .start
  | stop =>
    cases h
    exact .stop
  | enable =>
    cases h
    exact .enable
  | disable =>
    cases h
    exact .disable
  | isActive =>
    simp only [calmUnit] at h
    split at h
    next hunit =>
      cases h
      exact .active hunit
    · cases h
    next hunit =>
      cases h
      have hinactive : m.host.unit = .inactive := hunit
      exact .notActive (by simp [hinactive])
  | isEnabled =>
    cases h
    cases henabled : m.enabled with
    | true => exact .enabled henabled
    | false => exact .notEnabled henabled

/-- **The machine answers as machines do.** -/
theorem calm_serves {r : HostReq Unit Unit} {x : r.Resp} (h : calm m r = some (x, m')) : Serves site m.host r x m'.host := by
  refine Effect.serves ?_
  cases r with
  | stat p =>
    simp only [calm] at h
    split at h
    next hnone =>
      cases h
      exact .missing hnone
    next n hsome =>
      cases h
      exact .found hsome
  | readFile p =>
    simp only [calm] at h
    split at h
    next hnone =>
      cases h
      exact .readMissing hnone
    next data hfile =>
      cases h
      exact .read hfile
    · cases h
  | mkdirAll p =>
    simp only [calm] at h
    split at h
    next hp =>
      cases h
      have hmade : Effect site m.host (.mkdirAll p) (.ok ()) _ := .made (Files.noFile_clear hp)
      simpa only [Machine.host, Machine.disk, Files.disk_mkdirs] using hmade
    · cases h
  | create p =>
    simp only [calm] at h
    split at h
    next hp =>
      cases h
      rw [host_set]
      exact .created hp
    · cases h
  | write p more =>
    simp only [calm] at h
    split at h
    next data hfile =>
      cases h
      rw [host_set]
      exact .written hfile
    · cases h
  | removeAll p =>
    cases h
    have hremoved : Effect site m.host (.removeAll p) (.ok ()) _ := .removedAll
    simpa only [Machine.host, Machine.disk, Files.disk_cleared] using hremoved
  | tempDir =>
    simp only [calm] at h
    split at h
    next hfresh =>
      cases h
      rw [host_set]
      exact .tempDir fun q hq => Files.disk_eq_none hq hfresh
    · cases h
  | lookPath =>
    cases h
    exact .lookPath
  | systemctl verb unitName => exact calmUnit_effect h
  | curl url archive =>
    cases h
    rw [host_set]
    exact .curl Disk.within_set
  | tar archive extractDir =>
    cases h
    rw [host_set, host_set]
    have hbelow {d : Disk} {name : String} {n : Inode} : Within extractDir d (d.set (extractDir ++ [name]) n) :=
      fun q hq => Disk.set_ne fun heq => hq (heq ▸ List.prefix_append extractDir [name])
    exact .tar (hbelow.trans hbelow)
  | cp src dest =>
    simp only [calm] at h
    split at h
    next data hfile =>
      split at h
      next hdest =>
        cases h
        rw [host_set]
        exact .copied hfile hdest
      · cases h
    · cases h
  | output executable arg =>
    cases h
    exact .output
  | now =>
    cases h
    exact .now le_rfl
  | generateKey =>
    cases h
    exact .generateKey
  | serial =>
    cases h
    exact .serial
  | newSelfSignedCACert commonName key =>
    cases h
    exact .selfSigned rfl rfl rfl rfl rfl
  | createCertificate tmpl parent publicKey caKey =>
    cases h
    exact .createdCertificate rfl
  | hostname =>
    cases h
    exact .hostname
  | numCPU =>
    cases h
    exact .numCPU
  | resolveBindAddress =>
    cases h
    exact .resolveBindAddress
  | uuid =>
    cases h
    exact .uuid
  | rangeOver keys =>
    cases h
    exact .rangeOver
  | clientForEndpoint endpoint =>
    cases h
    exact .clientForEndpoint
  | get key =>
    cases h
    exact .get
  | _ => cases h

/-- A run that ends. -/
theorem does_calm {α : Type} {p : HostM Unit Unit α} {a : α} (h : (p.perform? calm m).map (·.1) = some a) :
    ∃ h', Prog.Does (Serves site) m.host p a h' := by
  obtain ⟨x, hx, rfl⟩ := Option.map_eq_some_iff.1 h
  exact ⟨_, Prog.perform?_does_map Machine.host (fun _ _ _ _ => calm_serves) hx⟩

end Calm

end Example

end Etcdadm.Adm
