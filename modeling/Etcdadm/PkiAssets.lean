/-
The certificates of an etcd member, as `etcdadm` makes them (`certs/certs.go`,
`certs/pkiutil/pki_helpers.go`).

There are five pairs of a key and a certificate in one directory: the authority, and
four that it signs. A pair of which nothing is there is made, first the key and then
the certificate. A pair of which anything is there is loaded and tested, and nothing
is written.

So no run changes what an earlier one left, whatever it was configured with and
wherever the earlier one was cut (`Grows`). Two things follow. Every pair the runs
make belongs together: the certificate is for the key next to it, and the authority
next to both signed it. And a run that was cut between a key and its certificate has
ended the use of the directory: half a pair is never completed, and every run after it
fails.
-/
import Etcdadm.AdmConfig
import Etcdadm.AltNames
import Etcdadm.Serial

namespace Etcdadm.Adm

open Pki (Config Template extKeyUsageServerAuth extKeyUsageClientAuth)

/-! ## Files -/

/-- The pairs that the authority signs. -/
inductive Leaf where
  | server | peer | etcdctlClient | apiServerEtcdClient
deriving DecidableEq

inductive BaseName where
  | ca
  | leaf (l : Leaf)
deriving DecidableEq

def BaseName.text : BaseName → String
  | .ca => "ca"
  | .leaf .server => "server"
  | .leaf .peer => "peer"
  | .leaf .etcdctlClient => "etcdctl-etcd-client"
  | .leaf .apiServerEtcdClient => "apiserver-etcd-client"

def BaseName.certName (name : BaseName) : String := name.text ++ ".crt"

def BaseName.keyName (name : BaseName) : String := name.text ++ ".key"

def pathForCert (pkiPath : VfsPath) (name : BaseName) : VfsPath := pkiPath ++ [name.certName]

def pathForKey (pkiPath : VfsPath) (name : BaseName) : VfsPath := pkiPath ++ [name.keyName]

/-- What `PrivateKeyFromFile` can give. -/
inductive PrivateKey (Key : Type) where
  | rsa (key : Key)
  | other

/-- `EncodeCertPEM` and so on. A file of certificates has at least one. -/
structure Pem (Key Pub : Type) where
  encodeCertPEM : Certificate Pub → String
  encodePrivateKeyPEM : Key → String
  /-- The first certificate that `ParseCertsPEM` finds -/
  parseCertsPEM : String → Except Error (Certificate Pub)
  parsePrivateKeyPEM : String → Except Error (PrivateKey Key)

/-- What is encoded parses. -/
structure Pem.Lawful {Key Pub : Type} (pem : Pem Key Pub) : Prop where
  cert : ∀ cert, pem.parseCertsPEM (pem.encodeCertPEM cert) = .ok cert
  key : ∀ key, pem.parsePrivateKeyPEM (pem.encodePrivateKeyPEM key) = .ok (.rsa key)

/-- `net.ParseIP`, with the text of the address, and `IsDNS1123Subdomain` -/
structure Names where
  parseIP : String → Option String
  isDNS1123Subdomain : String → Bool

section Source

variable {Key Pub : Type}

/-- `ioutil.WriteFile` below a directory that is made first (`certutil.WriteCert`, `keyutil.WriteKey`) -/
def writeBelow (dir p : VfsPath) (data : String) : HostM Key Pub (Option Error) := do
  match ← host (.mkdirAll dir) with
  | .error err => return some err
  | .ok () =>
    match ← host (.create p) with
    | .error err => return some err
    | .ok () =>
      match ← host (.write p data) with
      | .error err => return some err
      | .ok () => return none

def certOrKeyExist (pkiPath : VfsPath) (name : BaseName) : HostM Key Pub Bool := do
  let certErr ← host (.stat (pathForCert pkiPath name))
  let keyErr ← host (.stat (pathForKey pkiPath name))
  match certErr, keyErr with
  | .error .notExist, .error .notExist => return false
  | _, _ => return true

variable (pem : Pem Key Pub)

def writeKey (pkiPath : VfsPath) (name : BaseName) (key : Key) : HostM Key Pub (Option Error) := do
  let privateKeyPath := pathForKey pkiPath name
  match ← writeBelow pkiPath privateKeyPath (pem.encodePrivateKeyPEM key) with
  | some err => return some s!"unable to write private key to file {(filePath privateKeyPath).quote}: [{err}]"
  | none => return none

def writeCert (pkiPath : VfsPath) (name : BaseName) (cert : Certificate Pub) : HostM Key Pub (Option Error) := do
  let certificatePath := pathForCert pkiPath name
  match ← writeBelow pkiPath certificatePath (pem.encodeCertPEM cert) with
  | some err => return some s!"unable to write certificate to file {(filePath certificatePath).quote}: [{err}]"
  | none => return none

def writeCertAndKey (pkiPath : VfsPath) (name : BaseName) (cert : Certificate Pub) (key : Key) :
    HostM Key Pub (Option Error) := do
  match ← writeKey pem pkiPath name key with
  | some err => return some err
  | none => writeCert pem pkiPath name cert

def tryLoadCertFromDisk (pkiPath : VfsPath) (name : BaseName) : HostM Key Pub (Except Error (Certificate Pub)) := do
  let certificatePath := pathForCert pkiPath name
  match ← host (.readFile certificatePath) with
  | .error err => return .error s!"couldn't load the certificate file {filePath certificatePath}: {err.text}"
  | .ok data =>
    match pem.parseCertsPEM data with
    | .error err =>
      let err := s!"error reading {filePath certificatePath}: {err}"
      return .error s!"couldn't load the certificate file {filePath certificatePath}: {err}"
    | .ok cert =>
      let now ← host .now
      if now < cert.notBefore then return .error "the certificate is not valid yet"
      if cert.notAfter < now then return .error "the certificate has expired"
      return .ok cert

def tryLoadKeyFromDisk (pkiPath : VfsPath) (name : BaseName) : HostM Key Pub (Except Error Key) := do
  let privateKeyPath := pathForKey pkiPath name
  match ← host (.readFile privateKeyPath) with
  | .error err => return .error s!"couldn't load the private key file {filePath privateKeyPath}: {err.text}"
  | .ok data =>
    match pem.parsePrivateKeyPEM data with
    | .error err =>
      let err := s!"error reading private key file {filePath privateKeyPath}: {err}"
      return .error s!"couldn't load the private key file {filePath privateKeyPath}: {err}"
    | .ok .other => return .error s!"the private key file {filePath privateKeyPath} isn't in RSA format"
    | .ok (.rsa key) => return .ok key

def tryLoadCertAndKeyFromDisk (pkiPath : VfsPath) (name : BaseName) :
    HostM Key Pub (Except Error (Certificate Pub × Key)) := do
  match ← tryLoadCertFromDisk pem pkiPath name with
  | .error err => return .error err
  | .ok cert =>
    match ← tryLoadKeyFromDisk pem pkiPath name with
    | .error err => return .error err
    | .ok key => return .ok (cert, key)

/-! ## Certificates -/

/-- `CheckSignatureFrom`, for a parent with basic constraints -/
def Certificate.checkSignatureFrom [DecidableEq Pub] (cert parent : Certificate Pub) : Bool :=
  parent.isCA && parent.certSign && cert.signedBy = parent.publicKey

/-- `certificateValidity`, in nanoseconds -/
def certificateValidity : Int := 365 * 24 * 3600 * 1000000000

def newCertificateAuthority : HostM Key Pub (Except Error (Certificate Pub × Key)) := do
  match ← host .generateKey with
  | .error err => return .error s!"unable to create private key [{err}]"
  | .ok key =>
    match ← host (.newSelfSignedCACert "etcd" key) with
    | .error err => return .error s!"unable to create self-signed certificate [{err}]"
    | .ok cert => return .ok (cert, key)

variable (publicOf : Key → Pub)

def newSignedCert (cfg : Config) (key : Key) (caCert : Certificate Pub) (caKey : Key) :
    HostM Key Pub (Except Error (Certificate Pub)) := do
  match ← host .serial with
  | .error err => return .error err
  | .ok serialNumber =>
    if cfg.commonName = "" then return .error "must specify a CommonName"
    if cfg.usages = [] then return .error "must specify at least one ExtKeyUsage"
    let now ← host .now
    let certTmpl : Template := {
      commonName := cfg.commonName
      organization := cfg.organization
      dnsNames := cfg.dnsNames
      ipAddresses := cfg.ips
      serialNumber
      notBefore := caCert.notBefore
      notAfter := now + certificateValidity
      extKeyUsage := cfg.usages }
    host (.createCertificate certTmpl caCert (publicOf key) caKey)

def newCertAndKey (caCert : Certificate Pub) (caKey : Key) (config : Config) :
    HostM Key Pub (Except Error (Certificate Pub × Key)) := do
  match ← host .generateKey with
  | .error err => return .error s!"unable to create private key [{err}]"
  | .ok key =>
    match ← newSignedCert publicOf config key caCert caKey with
    | .error err => return .error s!"unable to sign certificate [{err}]"
    | .ok cert => return .ok (cert, key)

/-- `appendSANsToAltNames`; what is neither an address nor a DNS name is left out -/
def appendSANsToAltNames (names : Names) (config : Config) : List String → Config
  | [] => config
  | altname :: sans =>
    match names.parseIP altname with
    | some ip => appendSANsToAltNames names { config with ips := config.ips ++ [ip] } sans
    | none =>
      if names.isDNS1123Subdomain altname then
        appendSANsToAltNames names { config with dnsNames := config.dnsNames ++ [altname] } sans
      else appendSANsToAltNames names config sans

/-- `constants.MastersGroup` -/
def mastersGroup : String := "system:masters"

/-- The configuration that a certificate is made from. The text comes with the error. -/
def certConfig (names : Names) (cfg : EtcdAdmConfig) : Leaf → Config × String
  | .server =>
    (appendSANsToAltNames names ⟨cfg.name, [], [], [], [extKeyUsageServerAuth, extKeyUsageClientAuth]⟩ cfg.serverCertSANs,
      "etcd key and certificate")
  | .peer =>
    (appendSANsToAltNames names ⟨cfg.name, [], [], [], [extKeyUsageServerAuth, extKeyUsageClientAuth]⟩ cfg.peerCertSANs,
      "etcd peer key and certificate")
  | .etcdctlClient => clientConfig s!"{cfg.name}-etcdctl"
  | .apiServerEtcdClient => clientConfig s!"{cfg.name}-kube-apiserver-etcd-client"
where
  /-- `NewEtcdClientCertAndKey` -/
  clientConfig (commonName : String) : Config × String :=
    (⟨commonName, [mastersGroup], [], [], [extKeyUsageClientAuth]⟩, s!"{commonName.quote} etcd client key and certificate")

/-! ## Pairs -/

def loadCertificateAuthority (pkiDir : VfsPath) (baseName : BaseName) :
    HostM Key Pub (Except Error (Certificate Pub × Key)) := do
  if !(← certOrKeyExist pkiDir baseName) then
    return .error s!"couldn't load {baseName.text} certificate authority from {filePath pkiDir}"
  match ← tryLoadCertAndKeyFromDisk pem pkiDir baseName with
  | .error err => return .error s!"failure loading {baseName.text} certificate authority: {err}"
  | .ok (caCert, caKey) =>
    if !caCert.isCA then return .error s!"{baseName.text} certificate is not a certificate authority"
    return .ok (caCert, caKey)

/-- What `writeCertificateAuthorithyFilesIfNotExist` and `writeCertificateFilesIfNotExist` have in common.
`test` gives the error for a certificate that was loaded. -/
def writeFilesIfNotExist (pkiDir : VfsPath) (baseName : BaseName) (test : Certificate Pub → Option Error)
    (cert : Certificate Pub) (key : Key) : HostM Key Pub (Option Error) := do
  if ← certOrKeyExist pkiDir baseName then
    match ← tryLoadCertAndKeyFromDisk pem pkiDir baseName with
    | .error err => return some s!"failure loading {baseName.text} certificate: {err}"
    | .ok (cert, _) => return test cert
  else
    match ← writeCertAndKey pem pkiDir baseName cert key with
    | some err => return some s!"failure while saving {baseName.text} certificate and key: {err}"
    | none => return none

/-- `writeCertificateAuthorithyFilesIfNotExist` -/
def writeCertificateAuthorityFilesIfNotExist (pkiDir : VfsPath) (baseName : BaseName) (caCert : Certificate Pub)
    (caKey : Key) : HostM Key Pub (Option Error) :=
  writeFilesIfNotExist pem pkiDir baseName
    (fun caCert => if !caCert.isCA then some s!"certificate {baseName.text} is not a CA" else none) caCert caKey

def writeCertificateFilesIfNotExist [DecidableEq Pub] (pkiDir : VfsPath) (baseName : BaseName)
    (signingCert cert : Certificate Pub) (key : Key) : HostM Key Pub (Option Error) :=
  writeFilesIfNotExist pem pkiDir baseName
    (fun signedCert =>
      if !signedCert.checkSignatureFrom signingCert then
        some s!"certificate {baseName.text} is not signed by corresponding CA"
      else none) cert key

def createEtcdCACertAndKeyFiles (cfg : EtcdAdmConfig) : HostM Key Pub (Option Error) := do
  match ← newCertificateAuthority with
  | .error err => return some s!"failure while generating etcd CA certificate and key: {err}"
  | .ok (etcdCACert, etcdCAKey) =>
    writeCertificateAuthorityFilesIfNotExist pem cfg.certificatesDir .ca etcdCACert etcdCAKey

/-- `CreateEtcdServerCertAndKeyFiles` and the three like it -/
def createCertAndKeyFiles [DecidableEq Pub] (names : Names) (cfg : EtcdAdmConfig) (l : Leaf) :
    HostM Key Pub (Option Error) := do
  match ← loadCertificateAuthority pem cfg.certificatesDir .ca with
  | .error err => return some err
  | .ok (etcdCACert, etcdCAKey) =>
    match ← newCertAndKey publicOf etcdCACert etcdCAKey (certConfig names cfg l).1 with
    | .error err => return some s!"failure while creating {(certConfig names cfg l).2}: {err}"
    | .ok (cert, key) => writeCertificateFilesIfNotExist pem cfg.certificatesDir (.leaf l) etcdCACert cert key

def createEtcdServerCertAndKeyFiles [DecidableEq Pub] (names : Names) (cfg : EtcdAdmConfig) : HostM Key Pub (Option Error) :=
  createCertAndKeyFiles pem publicOf names cfg .server

def createEtcdPeerCertAndKeyFiles [DecidableEq Pub] (names : Names) (cfg : EtcdAdmConfig) : HostM Key Pub (Option Error) :=
  createCertAndKeyFiles pem publicOf names cfg .peer

def createEtcdctlClientCertAndKeyFiles [DecidableEq Pub] (names : Names) (cfg : EtcdAdmConfig) :
    HostM Key Pub (Option Error) :=
  createCertAndKeyFiles pem publicOf names cfg .etcdctlClient

def createAPIServerEtcdClientCertAndKeyFiles [DecidableEq Pub] (names : Names) (cfg : EtcdAdmConfig) :
    HostM Key Pub (Option Error) :=
  createCertAndKeyFiles pem publicOf names cfg .apiServerEtcdClient

/-- The loop over the actions, up to the first error. -/
def runActions : List (HostM Key Pub (Option Error)) → HostM Key Pub (Option Error)
  | [] => return none
  | action :: actions => do
    match ← action with
    | some err => return some err
    | none => runActions actions

/-- The actions of `CreatePKIAssets`, by the pair each is for. -/
def createFiles [DecidableEq Pub] (names : Names) (cfg : EtcdAdmConfig) : BaseName → HostM Key Pub (Option Error)
  | .ca => createEtcdCACertAndKeyFiles pem cfg
  | .leaf .server => createEtcdServerCertAndKeyFiles pem publicOf names cfg
  | .leaf .peer => createEtcdPeerCertAndKeyFiles pem publicOf names cfg
  | .leaf .etcdctlClient => createEtcdctlClientCertAndKeyFiles pem publicOf names cfg
  | .leaf .apiServerEtcdClient => createAPIServerEtcdClientCertAndKeyFiles pem publicOf names cfg

def certActions : List BaseName :=
  [.ca, .leaf .server, .leaf .peer, .leaf .etcdctlClient, .leaf .apiServerEtcdClient]

def createPKIAssets [DecidableEq Pub] (names : Names) (cfg : EtcdAdmConfig) : HostM Key Pub (Option Error) :=
  runActions (certActions.map (createFiles pem publicOf names cfg))

end Source

/-! ## The directory -/

section Names

variable {b b' : BaseName}

theorem text_inj (h : b.text = b'.text) : b = b' := by
  revert h
  rcases b with _ | _ | _ | _ | _ <;> rcases b' with _ | _ | _ | _ | _ <;>
    first | exact fun _ => rfl | exact fun h => absurd h (by decide)

theorem keyName_inj (h : b.keyName = b'.keyName) : b = b' := text_inj ((String.append_left_inj _).1 h)

theorem certName_inj (h : b.certName = b'.certName) : b = b' := text_inj ((String.append_left_inj _).1 h)

theorem keyName_ne_certName : b.keyName ≠ b'.certName := by
  intro h
  have hlast := congrArg (fun f : String => f.toList.getLast?) h
  simp [BaseName.keyName, BaseName.certName] at hlast

end Names

section Directory

variable {Key Pub : Type} {s : Site Key Pub} {dir : VfsPath} {d d' d'' : Disk} {h h' : Host}

/-- The files of the directory are the same. -/
def SameDir (dir : VfsPath) (d d' : Disk) : Prop := ∀ f, d' (dir ++ [f]) = d (dir ++ [f])

/-- The directory is none that etcd writes to. -/
def Apart (s : Site Key Pub) (dir : VfsPath) : Prop := ∀ f, ¬ s.etcdDir <+: dir ++ [f]

/-- Requests that change no file of the directory. -/
def Quiet (dir : VfsPath) : HostReq Key Pub → Prop
  | .stat _ | .readFile _ | .now | .generateKey | .serial | .newSelfSignedCACert _ _ | .createCertificate _ _ _ _ => True
  | .mkdirAll p => p = dir
  | _ => False

theorem SameDir.refl : SameDir dir d d := fun _ => rfl

theorem SameDir.trans (h : SameDir dir d d') (h' : SameDir dir d' d'') : SameDir dir d d'' :=
  fun f => (h' f).trans (h f)

theorem sameDir_mkdirs {q : VfsPath} (hq : q <+: dir) : SameDir dir d (d.mkdirs q) := by
  intro f
  refine Disk.mkdirs_elsewhere fun hbelow => ?_
  have hlength := (hbelow.trans hq).length_le
  rw [List.length_append, List.length_singleton] at hlength
  omega

theorem Drifts.sameDir (hapart : Apart s dir) (hdrift : Drifts s.etcdDir h h') : SameDir dir h.disk h'.disk :=
  fun f => hdrift.disk _ (hapart f)

theorem Effect.sameDir {r : HostReq Key Pub} {x : r.Resp} (hquiet : Quiet dir r) (heffect : Effect s h r x h') :
    SameDir dir h.disk h'.disk := by
  cases heffect with
  | made =>
    cases hquiet
    exact sameDir_mkdirs (List.prefix_refl _)
  | makeStopped hq =>
    cases hquiet
    exact sameDir_mkdirs hq
  | _ => first | exact .refl | exact hquiet.elim

/-- The files of the directory are as in `d`, and it is not before `t`. -/
structure At (dir : VfsPath) (d : Disk) (t : Int) (h : Host) : Prop where
  same : SameDir dir d h.disk
  clock : t ≤ h.clock

variable {t : Int}

theorem At.drift (hapart : Apart s dir) (hat : At dir d t h) (hdrift : Drifts s.etcdDir h h') : At dir d t h' :=
  ⟨hat.same.trans (hdrift.sameDir hapart), hat.clock.trans hdrift.clock⟩

/-- The program leaves the files of the directory as they are in `d`, and what it returns is
as they and the answers to its requests have it. -/
def Reads (s : Site Key Pub) (dir : VfsPath) (d : Disk) (t : Int) {α : Type} (p : HostM Key Pub α) (P : α → Prop) : Prop :=
  ∀ h, At dir d t h → p.Always (Serves s) (At dir d t) (fun h a => At dir d t h ∧ P a) h

namespace Reads

variable {α β : Type} {p : HostM Key Pub α} {P : α → Prop} {Q : β → Prop}

theorem ret {a : α} (h : P a) : Reads s dir d t (.ret a) P := fun _ hat => ⟨hat, h⟩

theorem always_bind {f : α → HostM Key Pub β} {I : Host → Prop} {R : Host → β → Prop} (hp : Reads s dir d t p P)
    (hI : ∀ h, At dir d t h → I h) (hf : ∀ a h, At dir d t h → P a → (f a).Always (Serves s) I R h) (hat : At dir d t h) :
    (p >>= f).Always (Serves s) I R h :=
  .bind (((hp h hat).weaken hI).mono fun h a ha => hf a h ha.1 ha.2)

theorem bind {f : α → HostM Key Pub β} (hp : Reads s dir d t p P) (hf : ∀ a, P a → Reads s dir d t (f a) Q) :
    Reads s dir d t (p >>= f) Q :=
  fun _ hat => hp.always_bind (fun _ => id) (fun a h hat ha => hf a ha h hat) hat

theorem request {r : HostReq Key Pub} {P : r.Resp → Prop} (hapart : Apart s dir) (hquiet : Quiet dir r)
    (hfact : ∀ h x h', At dir d t h → Effect s h r x h' → P x) : Reads s dir d t (host r) P := by
  intro h hat x h' hserves
  obtain ⟨h₁, hdrift, heffect⟩ := hserves
  have hat₁ := hat.drift hapart hdrift
  have hat' : At dir d t h' := ⟨hat₁.same.trans (heffect.sameDir hquiet), hat₁.clock.trans heffect.clock⟩
  exact ⟨hat', hat', hfact h₁ x h' hat₁ heffect⟩

theorem trivially (r : HostReq Key Pub) (hapart : Apart s dir) (hquiet : Quiet dir r) :
    Reads s dir d t (host r) fun _ => True := request hapart hquiet fun _ _ _ _ _ => trivial

end Reads

theorem reads_stat (hapart : Apart s dir) {f : String} : Reads s dir d t (host (.stat (dir ++ [f])) : HostM Key Pub _)
    fun x => x = .error .notExist → d (dir ++ [f]) = none := by
  refine .request hapart trivial fun h x h' hat heffect hx => ?_
  cases heffect with
  | found => cases hx
  | missing hnone => rw [← hat.same f, hnone]
  | statFailed => cases hx

theorem reads_now (hapart : Apart s dir) : Reads s dir d t (host .now : HostM Key Pub _) fun now => t ≤ now := by
  refine .request hapart trivial fun h x h' hat heffect => ?_
  cases heffect with
  | now hle => exact hat.clock.trans hle

theorem reads_readFile (hapart : Apart s dir) {f : String} :
    Reads s dir d t (host (.readFile (dir ++ [f])) : HostM Key Pub _)
      fun x => ∀ data, x = .ok data → d (dir ++ [f]) = some (.file data) := by
  refine .request hapart trivial fun h x h' hat heffect data hx => ?_
  cases heffect with
  | read hfile =>
    cases hx
    rw [← hat.same f, hfile]
  | readMissing => cases hx
  | readFailed => cases hx

end Directory

/-! ## Pairs on disk -/

section Pairs

variable {Key Pub : Type}

/-- Nothing of the pair is there. -/
def Absent (dir : VfsPath) (b : BaseName) (d : Disk) : Prop := d (pathForCert dir b) = none ∧ d (pathForKey dir b) = none

/-- The pair did not change. -/
def Same (dir : VfsPath) (b : BaseName) (d d' : Disk) : Prop :=
  d' (pathForCert dir b) = d (pathForCert dir b) ∧ d' (pathForKey dir b) = d (pathForKey dir b)

/-- What is in the two files. -/
structure Loaded (pem : Pem Key Pub) (dir : VfsPath) (b : BaseName) (d : Disk) (cert : Certificate Pub) (key : Key) : Prop where
  cert : ∃ data, d (pathForCert dir b) = some (.file data) ∧ pem.parseCertsPEM data = .ok cert
  key : ∃ data, d (pathForKey dir b) = some (.file data) ∧ pem.parsePrivateKeyPEM data = .ok (.rsa key)

/-- A certificate for the key; the authority's own, or one that the authority on disk signed. -/
def Fresh (s : Site Key Pub) (pem : Pem Key Pub) (dir : VfsPath) (d : Disk) (cert : Certificate Pub) (key : Key) :
    BaseName → Prop
  | .ca => cert.publicKey = s.publicOf key ∧ cert.isCA = true
  | .leaf _ => cert.publicKey = s.publicOf key ∧
      ∃ ca caKey, Loaded pem dir .ca d ca caKey ∧ ca.isCA = true ∧ cert.signedBy = ca.publicKey

/-- How far the writing of a pair has come: to a part of the key, or to a part of the
certificate. -/
inductive Made (pem : Pem Key Pub) (dir : VfsPath) (b : BaseName) (d : Disk) (cert : Certificate Pub) (key : Key) : Prop
  | key {part rest : String} : pem.encodePrivateKeyPEM key = part ++ rest → d (pathForKey dir b) = some (.file part) →
      d (pathForCert dir b) = none → Made pem dir b d cert key
  | cert {part rest : String} : pem.encodeCertPEM cert = part ++ rest →
      d (pathForKey dir b) = some (.file (pem.encodePrivateKeyPEM key)) → d (pathForCert dir b) = some (.file part) →
      Made pem dir b d cert key

structure Complete (pem : Pem Key Pub) (dir : VfsPath) (b : BaseName) (d : Disk) (cert : Certificate Pub) (key : Key) : Prop where
  key : d (pathForKey dir b) = some (.file (pem.encodePrivateKeyPEM key))
  cert : d (pathForCert dir b) = some (.file (pem.encodeCertPEM cert))

/-- What runs do to the directory: a pair stays as it is, or there was nothing of it. -/
def Grows (s : Site Key Pub) (pem : Pem Key Pub) (dir : VfsPath) (d d' : Disk) : Prop :=
  ∀ b, Same dir b d d' ∨ Absent dir b d ∧ ∃ cert key, Fresh s pem dir d' cert key b ∧ Made pem dir b d' cert key

variable {s : Site Key Pub} {pem : Pem Key Pub} {dir : VfsPath} {d d' d'' : Disk} {b : BaseName} {cert : Certificate Pub}
  {key : Key}

theorem Same.of_sameDir (h : SameDir dir d d') : Same dir b d d' := ⟨h _, h _⟩

theorem Same.trans (h : Same dir b d d') (h' : Same dir b d' d'') : Same dir b d d'' :=
  ⟨h'.1.trans h.1, h'.2.trans h.2⟩

theorem Same.absent (h : Same dir b d d') (h' : Absent dir b d') : Absent dir b d := ⟨h.1 ▸ h'.1, h.2 ▸ h'.2⟩

theorem Same.loaded (h : Same dir b d d') (hloaded : Loaded pem dir b d cert key) : Loaded pem dir b d' cert key := by
  obtain ⟨cdata, hcert⟩ := hloaded.cert
  obtain ⟨kdata, hkey⟩ := hloaded.key
  exact ⟨⟨cdata, h.1.trans hcert.1, hcert.2⟩, ⟨kdata, h.2.trans hkey.1, hkey.2⟩⟩

theorem Same.made (h : Same dir b d d') (hmade : Made pem dir b d cert key) : Made pem dir b d' cert key := by
  cases hmade with
  | key hpart hkey hcert => exact .key hpart (h.2.trans hkey) (h.1.trans hcert)
  | cert hpart hkey hcert => exact .cert hpart (h.2.trans hkey) (h.1.trans hcert)

theorem Same.complete (h : Same dir b d d') (hcomplete : Complete pem dir b d cert key) : Complete pem dir b d' cert key :=
  ⟨h.2.trans hcomplete.key, h.1.trans hcomplete.cert⟩

theorem Complete.loaded (h : Complete pem dir b d cert key) (hpem : pem.Lawful) : Loaded pem dir b d cert key :=
  ⟨⟨_, h.cert, hpem.cert cert⟩, ⟨_, h.key, hpem.key key⟩⟩

theorem Loaded.not_absent (h : Loaded pem dir b d cert key) : ¬ Absent dir b d := by
  intro habsent
  obtain ⟨data, hdata, _⟩ := h.cert
  simp [habsent.1] at hdata

theorem Fresh.same (hfresh : Fresh s pem dir d cert key b) (h : Same dir .ca d d') : Fresh s pem dir d' cert key b := by
  cases b with
  | ca => exact hfresh
  | leaf l =>
    obtain ⟨hkey, ca, caKey, hloaded, hsigned⟩ := hfresh
    exact ⟨hkey, ca, caKey, h.loaded hloaded, hsigned⟩

namespace Grows

theorem of_sameDir (h : SameDir dir d d') : Grows s pem dir d d' := fun _ => .inl (.of_sameDir h)

/-- What was there of a pair is there still. -/
theorem same (h : Grows s pem dir d d') (hb : ¬ Absent dir b d) : Same dir b d d' := (h b).resolve_right fun h => hb h.1

theorem fresh (h : Grows s pem dir d d') (hfresh : Fresh s pem dir d cert key b) : Fresh s pem dir d' cert key b := by
  cases b with
  | ca => exact hfresh
  | leaf l =>
    -- the authority is there, so it stays
    obtain ⟨hkey, ca, caKey, hloaded, hsigned⟩ := hfresh
    exact ⟨hkey, ca, caKey, (h.same hloaded.not_absent).loaded hloaded, hsigned⟩

theorem trans (h : Grows s pem dir d d') (h' : Grows s pem dir d' d'') : Grows s pem dir d d'' := by
  intro b
  rcases h' b with hsame' | ⟨habsent', hfresh'⟩
  · rcases h b with hsame | ⟨habsent, cert, key, hfresh, hmade⟩
    · exact .inl (hsame.trans hsame')
    · exact .inr ⟨habsent, cert, key, h'.fresh hfresh, hsame'.made hmade⟩
  · rcases h b with hsame | ⟨habsent, _⟩
    · exact .inr ⟨hsame.absent habsent', hfresh'⟩
    · exact .inr ⟨habsent, hfresh'⟩

end Grows

/-- The certificate is as configured. -/
def Carries (names : Names) (cfg : EtcdAdmConfig) (cert : Certificate Pub) : BaseName → Prop
  | .ca => cert.commonName = "etcd"
  | .leaf l => cert.commonName = (certConfig names cfg l).1.commonName ∧
      cert.organization = (certConfig names cfg l).1.organization ∧ cert.dnsNames = (certConfig names cfg l).1.dnsNames ∧
      cert.ipAddresses = (certConfig names cfg l).1.ips ∧ cert.extKeyUsage = (certConfig names cfg l).1.usages

/-- What a run that goes through leaves of a pair: one that was loaded, had not expired at the time `t` and
passed the tests, or a new one. -/
def Settled [DecidableEq Pub] (s : Site Key Pub) (pem : Pem Key Pub) (names : Names) (cfg : EtcdAdmConfig) (t : Int)
    (d : Disk) (b : BaseName) : Prop :=
  (∃ cert key, Loaded pem cfg.certificatesDir b d cert key ∧ t ≤ cert.notAfter ∧ Accepted cert b) ∨
    ∃ cert key, Fresh s pem cfg.certificatesDir d cert key b ∧ Carries names cfg cert b ∧
      Complete pem cfg.certificatesDir b d cert key
where
  Accepted (cert : Certificate Pub) : BaseName → Prop
    | .ca => cert.isCA = true
    | .leaf _ => ∃ ca caKey, Loaded pem cfg.certificatesDir .ca d ca caKey ∧ ca.isCA = true ∧
        cert.checkSignatureFrom ca = true

section Settled

variable [DecidableEq Pub] {names : Names} {cfg : EtcdAdmConfig} {t : Int}

theorem Settled.both_files (h : Settled s pem names cfg t d b) :
    d (pathForCert cfg.certificatesDir b) ≠ none ∧ d (pathForKey cfg.certificatesDir b) ≠ none := by
  rcases h with ⟨cert, key, hloaded, _⟩ | ⟨cert, key, _, _, hcomplete⟩
  · obtain ⟨cdata, hcert, _⟩ := hloaded.cert
    obtain ⟨kdata, hkey, _⟩ := hloaded.key
    simp [hcert, hkey]
  · simp [hcomplete.cert, hcomplete.key]

theorem Settled.grows (h : Settled s pem names cfg t d b) (hgrows : Grows s pem cfg.certificatesDir d d') :
    Settled s pem names cfg t d' b := by
  have hsame := hgrows.same fun habsent => h.both_files.1 habsent.1
  rcases h with ⟨cert, key, hloaded, hvalid, haccepted⟩ | ⟨cert, key, hfresh, hcarries, hcomplete⟩
  · refine .inl ⟨cert, key, hsame.loaded hloaded, hvalid, ?_⟩
    cases b with
    | ca => exact haccepted
    | leaf l =>
      obtain ⟨ca, caKey, hca, hrest⟩ := haccepted
      exact ⟨ca, caKey, (hgrows.same hca.not_absent).loaded hca, hrest⟩
  · exact .inr ⟨cert, key, hgrows.fresh hfresh, hcarries, hsame.complete hcomplete⟩

end Settled

end Pairs

/-! ## Loading and making pairs -/

section Reading

variable {Key Pub : Type} {s : Site Key Pub} {pem : Pem Key Pub} {dir : VfsPath} {d : Disk} {t : Int}
  {b : BaseName} (hapart : Apart s dir)

include hapart

theorem reads_certOrKeyExist : Reads s dir d t (certOrKeyExist dir b : HostM Key Pub _) fun e => e = false → Absent dir b d := by
  refine (reads_stat hapart).bind fun certErr hcert => (reads_stat hapart).bind fun keyErr hkey => ?_
  split
  · exact .ret fun _ => ⟨hcert rfl, hkey rfl⟩
  · exact .ret (by simp)

theorem reads_tryLoadCertFromDisk : Reads s dir d t (tryLoadCertFromDisk pem dir b) fun r => ∀ cert, r = .ok cert →
    (∃ data, d (pathForCert dir b) = some (.file data) ∧ pem.parseCertsPEM data = .ok cert) ∧ t ≤ cert.notAfter := by
  refine (reads_readFile hapart).bind fun x hx => ?_
  cases x with
  | error err => exact .ret (by simp)
  | ok data =>
    simp only
    split
    · exact .ret (by simp)
    next cert hparse =>
      refine (reads_now hapart).bind fun now hnow => ?_
      split
      · exact .ret (by simp)
      · split
        · exact .ret (by simp)
        next hafter =>
          refine .ret fun cert' h => ?_
          cases h
          exact ⟨⟨data, hx data rfl, hparse⟩, hnow.trans (not_lt.1 hafter)⟩

theorem reads_tryLoadKeyFromDisk : Reads s dir d t (tryLoadKeyFromDisk pem dir b) fun r => ∀ key, r = .ok key →
    ∃ data, d (pathForKey dir b) = some (.file data) ∧ pem.parsePrivateKeyPEM data = .ok (.rsa key) := by
  refine (reads_readFile hapart).bind fun x hx => ?_
  cases x with
  | error err => exact .ret (by simp)
  | ok data =>
    simp only
    split
    · exact .ret (by simp)
    · exact .ret (by simp)
    next key hparse =>
      refine .ret fun key' h => ?_
      cases h
      exact ⟨data, hx data rfl, hparse⟩

theorem reads_tryLoadCertAndKeyFromDisk : Reads s dir d t (tryLoadCertAndKeyFromDisk pem dir b)
    fun r => ∀ cert key, r = .ok (cert, key) → Loaded pem dir b d cert key ∧ t ≤ cert.notAfter := by
  refine (reads_tryLoadCertFromDisk hapart).bind fun x hcert => ?_
  cases x with
  | error err => exact .ret (by simp)
  | ok cert =>
    refine (reads_tryLoadKeyFromDisk hapart).bind fun x hkey => ?_
    cases x with
    | error err => exact .ret (by simp)
    | ok key =>
      refine .ret fun cert' key' h => ?_
      cases h
      exact ⟨⟨(hcert cert rfl).1, hkey key rfl⟩, (hcert cert rfl).2⟩

theorem reads_loadCertificateAuthority : Reads s dir d t (loadCertificateAuthority pem dir b)
    fun r => ∀ cert key, r = .ok (cert, key) → Loaded pem dir b d cert key ∧ cert.isCA = true := by
  refine (reads_certOrKeyExist hapart).bind fun e _ => ?_
  split
  · exact .ret (by simp)
  · refine (reads_tryLoadCertAndKeyFromDisk hapart).bind fun x hx => ?_
    cases x with
    | error err => exact .ret (by simp)
    | ok pair =>
      simp only
      split
      · exact .ret (by simp)
      next hca =>
        refine .ret fun cert key h => ?_
        cases h
        exact ⟨(hx _ _ rfl).1, by simpa using hca⟩

theorem reads_newCertificateAuthority : Reads s dir d t (newCertificateAuthority : HostM Key Pub _)
    fun r => ∀ cert key, r = .ok (cert, key) →
      (cert.publicKey = s.publicOf key ∧ cert.isCA = true) ∧ cert.commonName = "etcd" := by
  refine (Reads.trivially .generateKey hapart trivial).bind fun x _ => ?_
  cases x with
  | error err => exact .ret (by simp)
  | ok key =>
    refine Reads.bind (P := fun x => ∀ cert, x = .ok cert →
      (cert.publicKey = s.publicOf key ∧ cert.isCA = true) ∧ cert.commonName = "etcd")
      (.request hapart trivial fun h x h' _ heffect cert hx => ?_) fun x hx => ?_
    · cases heffect with
      | selfSigned hca _ hkey _ hname =>
        cases hx
        exact ⟨⟨hkey, hca⟩, hname⟩
      | selfSignFailed => cases hx
    · cases x with
      | error err => exact .ret (by simp)
      | ok cert =>
        refine .ret fun cert' key' h => ?_
        cases h
        exact hx cert rfl

/-- A certificate for the key, signed by the authority, with the names of the configuration. -/
structure Issued (s : Site Key Pub) (config : Config) (ca cert : Certificate Pub) (key : Key) : Prop where
  key : cert.publicKey = s.publicOf key
  signed : cert.signedBy = ca.publicKey
  config : cert.commonName = config.commonName ∧ cert.organization = config.organization ∧
    cert.dnsNames = config.dnsNames ∧ cert.ipAddresses = config.ips ∧ cert.extKeyUsage = config.usages

theorem reads_newSignedCert {config : Config} {key caKey : Key} {ca : Certificate Pub} :
    Reads s dir d t (newSignedCert s.publicOf config key ca caKey)
      fun r => ∀ cert, r = .ok cert → Issued s config ca cert key := by
  refine (Reads.trivially .serial hapart trivial).bind fun x _ => ?_
  cases x with
  | error err => exact .ret (by simp)
  | ok serialNumber =>
    simp only
    split
    · exact .ret (by simp)
    · split
      · exact .ret (by simp)
      · refine (Reads.trivially .now hapart trivial).bind fun now _ => ?_
        refine .request hapart trivial fun h x h' _ heffect cert hx => ?_
        cases heffect with
        | createdCertificate =>
          cases hx
          exact ⟨rfl, rfl, rfl, rfl, rfl, rfl, rfl⟩
        | createCertificateFailed => cases hx

theorem reads_newCertAndKey {config : Config} {ca : Certificate Pub} {caKey : Key} :
    Reads s dir d t (newCertAndKey s.publicOf ca caKey config)
      fun r => ∀ cert key, r = .ok (cert, key) → Issued s config ca cert key := by
  refine (Reads.trivially .generateKey hapart trivial).bind fun x _ => ?_
  cases x with
  | error err => exact .ret (by simp)
  | ok key =>
    refine (reads_newSignedCert hapart).bind fun x hx => ?_
    cases x with
    | error err => exact .ret (by simp)
    | ok cert =>
      refine .ret fun cert' key' h => ?_
      cases h
      exact hx cert rfl

end Reading

section Writing

variable {Key Pub : Type} {s : Site Key Pub} {pem : Pem Key Pub} {dir : VfsPath} {d : Disk} {b : BaseName} {h : Host}

/-- A file of the directory is being written: it is as it was, or has a part of the data. -/
structure Writing (dir : VfsPath) (f data : String) (d d' : Disk) : Prop where
  others : ∀ f', f' ≠ f → d' (dir ++ [f']) = d (dir ++ [f'])
  file : d' (dir ++ [f]) = d (dir ++ [f]) ∨ ∃ part rest, data = part ++ rest ∧ d' (dir ++ [f]) = some (.file part)

theorem Writing.of_sameDir {f data : String} {d' : Disk} (h : SameDir dir d d') : Writing dir f data d d' :=
  ⟨fun f' _ => h f', .inl (h f)⟩

theorem Writing.set {f data part : String} (rest : String) {d' : Disk} (h : ∀ f', f' ≠ f → d' (dir ++ [f']) = d (dir ++ [f']))
    (hdata : data = part ++ rest) : Writing dir f data d (d'.set (dir ++ [f]) (.file part)) := by
  refine ⟨fun f' hne => ?_, .inr ⟨part, rest, hdata, Disk.set_self⟩⟩
  rw [Disk.set_ne (by simpa using hne), h f' hne]

theorem always_writeBelow (hapart : Apart s dir) {f data : String} {t : Int} (hat : At dir d t h) :
    (writeBelow dir (dir ++ [f]) data : HostM Key Pub _).Always (Serves s) (fun h => Writing dir f data d h.disk)
      (fun h r => Writing dir f data d h.disk ∧ (r = none → h.disk (dir ++ [f]) = some (.file data))) h := by
  refine (Reads.trivially (.mkdirAll dir) hapart rfl).always_bind (fun h hat => .of_sameDir hat.same)
    (fun x h hat _ => ?_) hat
  cases x with
  | error err => exact ⟨.of_sameDir hat.same, by simp⟩
  | ok _ =>
    intro x h₂ hserves
    obtain ⟨h₁, hdrift, heffect⟩ := hserves
    have hsame₁ := (hat.drift hapart hdrift).same
    cases heffect with
    | createFailed => exact ⟨.of_sameDir hsame₁, .of_sameDir hsame₁, by simp⟩
    | created =>
      have hempty : Writing dir f data d (h₁.disk.set (dir ++ [f]) (.file "")) :=
        .set data (fun f' _ => hsame₁ f') (by simp)
      refine ⟨hempty, fun x h₄ hserves => ?_⟩
      obtain ⟨h₃, hdrift, heffect⟩ := hserves
      have hsame₃ := hdrift.sameDir hapart
      have hothers : ∀ f', f' ≠ f → h₃.disk (dir ++ [f']) = d (dir ++ [f']) :=
        fun f' hne => (hsame₃ f').trans (hempty.others f' hne)
      have hfile : h₃.disk (dir ++ [f]) = some (.file "") := (hsame₃ f).trans Disk.set_self
      cases heffect with
      | written hfile' =>
        cases hfile.symm.trans hfile'
        have hwriting : Writing dir f data d (h₃.disk.set (dir ++ [f]) (.file ("" ++ data))) :=
          .set "" hothers (by simp)
        exact ⟨hwriting, hwriting, fun _ => by simp⟩
      | writeFailed =>
        have hwriting : Writing dir f data d h₄.disk := ⟨hothers, .inr ⟨"", data, by simp, hfile⟩⟩
        exact ⟨hwriting, hwriting, by simp⟩
      | @writeStopped p data' part rest _ hfile' =>
        cases hfile.symm.trans hfile'
        have hwriting : Writing dir f (part ++ rest) d (h₃.disk.set (dir ++ [f]) (.file ("" ++ part))) :=
          .set rest hothers (by simp)
        exact ⟨hwriting, hwriting, by simp⟩

theorem Writing.pair_same {f data : String} {d' : Disk} {b' : BaseName} (h : Writing dir f data d d')
    (hcert : b'.certName ≠ f) (hkey : b'.keyName ≠ f) : Same dir b' d d' := ⟨h.others _ hcert, h.others _ hkey⟩

theorem Writing.grows_key {d' : Disk} {cert : Certificate Pub} {key : Key} (habsent : Absent dir b d)
    (hfresh : Fresh s pem dir d cert key b) (h : Writing dir b.keyName (pem.encodePrivateKeyPEM key) d d') :
    Grows s pem dir d d' := by
  have hothers {b' : BaseName} (hne : b' ≠ b) : Same dir b' d d' :=
    h.pair_same keyName_ne_certName.symm fun heq => hne (keyName_inj heq)
  have hcert := h.others b.certName keyName_ne_certName.symm
  intro b'
  by_cases hb : b' = b
  · subst hb
    rcases h.file with hkey | ⟨part, rest, hdata, hkey⟩
    · exact .inl ⟨hcert, hkey⟩
    · refine .inr ⟨habsent, cert, key, ?_, .key hdata hkey (hcert.trans habsent.1)⟩
      cases b' with
      | ca => exact hfresh
      | leaf l => exact hfresh.same (hothers (by simp))
  · exact .inl (hothers hb)

theorem Writing.grows_cert {d₁ d' : Disk} {cert : Certificate Pub} {key : Key} (habsent : Absent dir b d)
    (hfresh : Fresh s pem dir d cert key b) (hkey : Writing dir b.keyName (pem.encodePrivateKeyPEM key) d d₁)
    (hwritten : d₁ (pathForKey dir b) = some (.file (pem.encodePrivateKeyPEM key)))
    (h : Writing dir b.certName (pem.encodeCertPEM cert) d₁ d') : Grows s pem dir d d' := by
  have hothers {b' : BaseName} (hne : b' ≠ b) : Same dir b' d d' :=
    Same.trans (hkey.pair_same keyName_ne_certName.symm fun heq => hne (keyName_inj heq))
      (h.pair_same (fun heq => hne (certName_inj heq)) keyName_ne_certName)
  have hkey' := (h.others b.keyName keyName_ne_certName).trans hwritten
  intro b'
  by_cases hb : b' = b
  · subst hb
    have hfresh' : Fresh s pem dir d' cert key b' := by
      cases b' with
      | ca => exact hfresh
      | leaf l => exact hfresh.same (hothers (by simp))
    refine .inr ⟨habsent, cert, key, hfresh', ?_⟩
    rcases h.file with hcert | ⟨part, rest, hdata, hcert⟩
    · have hnone := (hkey.others b'.certName keyName_ne_certName.symm).trans habsent.1
      have hwhole : pem.encodePrivateKeyPEM key = pem.encodePrivateKeyPEM key ++ "" := by simp
      exact .key hwhole hkey' (hcert.trans hnone)
    · exact .cert hdata hkey' hcert
  · exact .inl (hothers hb)

/-- A pair that is absent is written, first the key. -/
theorem always_writeCertAndKey (hapart : Apart s dir) {cert : Certificate Pub} {key : Key} (habsent : Absent dir b d)
    (hfresh : Fresh s pem dir d cert key b) {t : Int} (hat : At dir d t h) :
    (writeCertAndKey pem dir b cert key).Always (Serves s) (fun h => Grows s pem dir d h.disk)
      (fun h r => Grows s pem dir d h.disk ∧ (r = none → Complete pem dir b h.disk cert key)) h := by
  refine .bind (.bind (((always_writeBelow hapart hat).weaken fun h hw => hw.grows_key habsent hfresh).mono ?_))
  intro h₁ x hx
  cases x with
  | some err => exact ⟨hx.1.grows_key habsent hfresh, by simp⟩
  | none =>
    have hgrows {h' : Host} (hw : Writing dir b.certName (pem.encodeCertPEM cert) h₁.disk h'.disk) :
        Grows s pem dir d h'.disk := Writing.grows_cert habsent hfresh hx.1 (hx.2 rfl) hw
    refine .bind (((always_writeBelow hapart ⟨.refl, le_rfl⟩).weaken fun h hw => hgrows hw).mono ?_)
    intro h₂ y hy
    cases y with
    | some err => exact ⟨hgrows hy.1, by simp⟩
    | none =>
      refine ⟨hgrows hy.1, fun _ => ⟨?_, hy.2 rfl⟩⟩
      exact (hy.1.others b.keyName keyName_ne_certName).trans (hx.2 rfl)

end Writing

/-! ## Runs -/

section Runs

variable {Key Pub : Type} [DecidableEq Pub] {s : Site Key Pub} {pem : Pem Key Pub} {names : Names} {cfg : EtcdAdmConfig}
  {dir : VfsPath} {d : Disk} {t : Int} {b : BaseName} {h h' : Host}

/-- What an action does, on the way and at its end. -/
def Provides (s : Site Key Pub) (pem : Pem Key Pub) (names : Names) (cfg : EtcdAdmConfig) (b : BaseName)
    (t : Int) (action : HostM Key Pub (Option Error)) : Prop :=
  ∀ d h, At cfg.certificatesDir d t h → action.Always (Serves s) (fun h => Grows s pem cfg.certificatesDir d h.disk)
    (fun h r => Grows s pem cfg.certificatesDir d h.disk ∧ (r = none → Settled s pem names cfg t h.disk b)) h

section Actions

variable (hapart : Apart s cfg.certificatesDir)

include hapart

theorem always_writeFilesIfNotExist {cert : Certificate Pub} {key : Key} {test : Certificate Pub → Option Error}
    (hfresh : Fresh s pem cfg.certificatesDir d cert key b) (hcarries : Carries names cfg cert b)
    (htest : ∀ cert, test cert = none → Settled.Accepted pem cfg d cert b) (hat : At cfg.certificatesDir d t h) :
    (writeFilesIfNotExist pem cfg.certificatesDir b test cert key).Always (Serves s)
      (fun h => Grows s pem cfg.certificatesDir d h.disk)
      (fun h r => Grows s pem cfg.certificatesDir d h.disk ∧ (r = none → Settled s pem names cfg t h.disk b)) h := by
  refine (reads_certOrKeyExist hapart).always_bind (fun h hat => .of_sameDir hat.same) (fun exist h hat hexist => ?_) hat
  cases exist with
  | true =>
    refine (reads_tryLoadCertAndKeyFromDisk hapart).always_bind (fun h hat => .of_sameDir hat.same) (fun x h hat hx => ?_) hat
    cases x with
    | error err => exact ⟨.of_sameDir hat.same, by simp⟩
    | ok pair =>
      refine ⟨.of_sameDir hat.same, fun hnone => ?_⟩
      have hsettled : Settled s pem names cfg t d b := .inl ⟨pair.1, pair.2, (hx _ _ rfl).1, (hx _ _ rfl).2, htest _ hnone⟩
      exact hsettled.grows (.of_sameDir hat.same)
  | false =>
    refine .bind ((always_writeCertAndKey hapart (hexist rfl) hfresh hat).mono fun h r hr => ?_)
    cases r with
    | some err => exact ⟨hr.1, by simp⟩
    | none => exact ⟨hr.1, fun _ => .inr ⟨cert, key, hr.1.fresh hfresh, hcarries, hr.2 rfl⟩⟩

theorem provides_createEtcdCACertAndKeyFiles : Provides s pem names cfg .ca t (createEtcdCACertAndKeyFiles pem cfg) := by
  intro d h hat
  refine (reads_newCertificateAuthority hapart).always_bind (fun h hat => .of_sameDir hat.same) (fun x h hat hx => ?_) hat
  cases x with
  | error err => exact ⟨.of_sameDir hat.same, by simp⟩
  | ok pair =>
    obtain ⟨hfresh, hname⟩ := hx _ _ rfl
    refine always_writeFilesIfNotExist hapart hfresh hname (fun cert hcert => ?_) hat
    cases hca : cert.isCA with
    | true => exact hca
    | false => simp [hca] at hcert

theorem provides_createCertAndKeyFiles (l : Leaf) :
    Provides s pem names cfg (.leaf l) t (createCertAndKeyFiles pem s.publicOf names cfg l) := by
  intro d h hat
  refine (reads_loadCertificateAuthority hapart).always_bind (fun h hat => .of_sameDir hat.same) (fun x h hat hx => ?_) hat
  cases x with
  | error err => exact ⟨.of_sameDir hat.same, by simp⟩
  | ok authority =>
    obtain ⟨hloaded, hca⟩ := hx _ _ rfl
    refine (reads_newCertAndKey hapart).always_bind (fun h hat => .of_sameDir hat.same) (fun x h hat hx => ?_) hat
    cases x with
    | error err => exact ⟨.of_sameDir hat.same, by simp⟩
    | ok pair =>
      have hissued := hx _ _ rfl
      have hfresh : Fresh s pem cfg.certificatesDir d pair.1 pair.2 (.leaf l) :=
        ⟨hissued.key, authority.1, authority.2, hloaded, hca, hissued.signed⟩
      refine always_writeFilesIfNotExist hapart hfresh hissued.config (fun cert hcert => ?_) hat
      refine ⟨authority.1, authority.2, hloaded, hca, ?_⟩
      cases hcheck : cert.checkSignatureFrom authority.1 with
      | true => rfl
      | false => simp [hcheck] at hcert

theorem provides_createFiles : Provides s pem names cfg b t (createFiles pem s.publicOf names cfg b) := by
  cases b with
  | ca => exact provides_createEtcdCACertAndKeyFiles hapart
  | leaf l => cases l <;> exact provides_createCertAndKeyFiles hapart _

/-- Each action starts from what the ones before it left. -/
theorem always_runActions : ∀ (bs : List BaseName) (h : Host), t ≤ h.clock →
    (runActions (bs.map (createFiles pem s.publicOf names cfg))).Always (Serves s)
      (fun h' => Grows s pem cfg.certificatesDir h.disk h'.disk)
      (fun h' r => Grows s pem cfg.certificatesDir h.disk h'.disk ∧
        (r = none → ∀ b ∈ bs, Settled s pem names cfg t h'.disk b)) h
  | [], h, _ => ⟨.of_sameDir .refl, by simp⟩
  | b :: bs, h, ht => by
    have hprovides : Provides s pem names cfg b t (createFiles pem s.publicOf names cfg b) := provides_createFiles hapart
    have haction := (hprovides h.disk h ⟨.refl, ht⟩).and (always_clock ht _)
    refine .bind ((haction.weaken fun h' hgrows => hgrows.1).mono fun h₁ r hr => ?_)
    obtain ⟨⟨hgrows₁, hsettled⟩, ht₁⟩ := hr
    cases r with
    | some err => exact ⟨hgrows₁, by simp⟩
    | none =>
      have hrest := always_runActions bs h₁ ht₁
      refine (hrest.weaken fun h' hgrows => hgrows₁.trans hgrows).mono fun h' r hr => ⟨hgrows₁.trans hr.1, fun hnone => ?_⟩
      exact List.forall_mem_cons.2 ⟨(hsettled rfl).grows hr.1, hr.2 hnone⟩

theorem always_createPKIAssets (h : Host) (ht : t ≤ h.clock) : (createPKIAssets pem s.publicOf names cfg).Always (Serves s)
    (fun h' => Grows s pem cfg.certificatesDir h.disk h'.disk)
    (fun h' r => Grows s pem cfg.certificatesDir h.disk h'.disk ∧
      (r = none → ∀ b, Settled s pem names cfg t h'.disk b)) h := by
  refine (always_runActions hapart certActions h ht).mono fun h' r hr => ⟨hr.1, ?_⟩
  intro hnone b
  have hb : b ∈ certActions := by
    rcases b with _ | _ | _ | _ | _ <;> decide
  exact hr.2 hnone b hb

end Actions

/-- What happens to the directory: runs of `CreatePKIAssets` for any configuration, each as far as it
comes, and anything that leaves its files alone. -/
inductive PkiStep (s : Site Key Pub) (pem : Pem Key Pub) (names : Names) (dir : VfsPath) (h h' : Host) : Prop
  | run {cfg : EtcdAdmConfig} {p : HostM Key Pub (Option Error)} : cfg.certificatesDir = dir →
      Prog.Goes (Serves s) h (createPKIAssets pem s.publicOf names cfg) p h' → PkiStep s pem names dir h h'
  | elsewhere : SameDir dir h.disk h'.disk → PkiStep s pem names dir h h'

abbrev PkiHistory (s : Site Key Pub) (pem : Pem Key Pub) (names : Names) (dir : VfsPath) : Host → Host → Prop :=
  Relation.ReflTransGen (PkiStep s pem names dir)

theorem PkiStep.grows (hapart : Apart s dir) (hstep : PkiStep s pem names dir h h') : Grows s pem dir h.disk h'.disk := by
  cases hstep with
  | run hdir hgoes =>
    subst hdir
    exact ((always_createPKIAssets hapart h le_rfl).goes hgoes (.of_sameDir .refl)).1
  | elsewhere hsame => exact .of_sameDir hsame

theorem PkiHistory.grows (hapart : Apart s dir) (hhistory : PkiHistory s pem names dir h h') :
    Grows s pem dir h.disk h'.disk := by
  induction hhistory with
  | refl => exact .of_sameDir .refl
  | tail _ hstep ih => exact ih.trans (hstep.grows hapart)

end Runs

/-! ## An empty machine -/

namespace Example

open Serial in
/-- The fields of a certificate, one after the other. -/
def certificate : Serial (Certificate Unit) :=
  (string.pair <| string.list.pair <| string.list.pair <| string.list.pair <| nat.pair <| int.pair <| int.pair <| nat.list.pair <|
    bool.pair bool).via
    (fun r => ⟨⟨⟨r.1, r.2.1, r.2.2.1, r.2.2.2.1, r.2.2.2.2.1, r.2.2.2.2.2.1, r.2.2.2.2.2.2.1, r.2.2.2.2.2.2.2.1⟩, (), ()⟩,
      r.2.2.2.2.2.2.2.2.1, r.2.2.2.2.2.2.2.2.2⟩)
    (fun c => (c.commonName, c.organization, c.dnsNames, c.ipAddresses, c.serialNumber, c.notBefore, c.notAfter, c.extKeyUsage,
      c.isCA, c.certSign)) fun _ => rfl

def pem : Pem Unit Unit where
  encodeCertPEM := certificate.text
  encodePrivateKeyPEM _ := "key"
  parseCertsPEM data := (certificate.ofText data).elim (.error "no certificate") .ok
  parsePrivateKeyPEM data := if data = "key" then .ok (.rsa ()) else .error "no key"

def names : Names := ⟨fun _ => none, fun _ => true⟩

def url : URL := ⟨"https", "10.0.0.1:2379"⟩

def config : EtcdAdmConfig where
  version := "3.5.7"
  releaseURL := ""
  certificatesDir := ["pki"]
  peerCertFile := ["pki", "peer.crt"]
  peerKeyFile := ["pki", "peer.key"]
  peerTrustedCAFile := ["pki", "ca.crt"]
  certFile := ["pki", "server.crt"]
  keyFile := ["pki", "server.key"]
  trustedCAFile := ["pki", "ca.crt"]
  etcdctlCertFile := ["pki", "etcdctl-etcd-client.crt"]
  etcdctlKeyFile := ["pki", "etcdctl-etcd-client.key"]
  dataDir := ["var", "lib", "etcd"]
  installDir := ["opt", "bin"]
  cacheDir := ["var", "cache"]
  podSpecDir := ["manifests"]
  bindAddr := ""
  unitFile := ["etc", "systemd", "system", "etcd.service"]
  environmentFile := ["etc", "etcd", "etcd.env"]
  etcdExecutable := ["opt", "bin", "etcd"]
  etcdctlExecutable := ["opt", "bin", "etcdctl"]
  etcdctlEnvFile := ["etc", "etcd", "etcdctl.env"]
  etcdctlShellWrapper := ["opt", "bin", "etcdctl.sh"]
  etcdDiskPriorities := []
  initialAdvertisePeerURLs := [url]
  listenPeerURLs := [url]
  advertiseClientURLs := [url]
  listenClientURLs := [url]
  listenMetricsURLs := []
  loopbackClientURL := url
  serverCertSANs := ["node"]
  peerCertSANs := ["node"]
  name := "node"
  initialCluster := ""
  initialClusterToken := ""
  initialClusterState := "new"
  gomaxprocs := 1
  snapshot := ""
  retry := true
  initSystem := "systemd"
  logger := ""
  logOutputs := ""
  enableV2 := ""
  endpoint := ""

def machine : Machine := ⟨[], 0, false, .inactive⟩

theorem apart : Apart site ["pki"] := by
  intro f hprefix
  simp [site] at hprefix

theorem exists_run : ∃ h', Prog.Does (Serves site) machine.host (createPKIAssets pem site.publicOf names config) none h' :=
  does_calm (by decide +kernel)

end Example

/-- **Whatever the runs are configured with and wherever they are cut, none changes what another left.**
A pair of which something is there stays as it is. One of which nothing was there comes to be written key
first, and the certificate is for that key and of the authority that is in the directory. -/
theorem pki_assets_only_added {Key Pub : Type} [DecidableEq Pub] (s : Site Key Pub) (pem : Pem Key Pub) (names : Names)
    (dir : VfsPath) (hapart : Apart s dir) (h h' : Host) (hhistory : PkiHistory s pem names dir h h') (b : BaseName) :
    (¬ Absent dir b h.disk → Same dir b h.disk h'.disk) ∧
      (Absent dir b h.disk → Absent dir b h'.disk ∨
        ∃ cert key, Fresh s pem dir h'.disk cert key b ∧ Made pem dir b h'.disk cert key) := by
  have hgrows := PkiHistory.grows hapart hhistory
  refine ⟨hgrows.same, fun habsent => ?_⟩
  rcases hgrows b with hsame | ⟨_, hfresh⟩
  · exact .inl ⟨hsame.1.trans habsent.1, hsame.2.trans habsent.2⟩
  · exact .inr hfresh

theorem pki_assets_added : ∃ h', PkiHistory Example.site Example.pem Example.names ["pki"] Example.machine.host h' ∧
    (Absent ["pki"] .ca h'.disk ∨ ∃ cert key, Fresh Example.site Example.pem ["pki"] h'.disk cert key .ca ∧
      Made Example.pem ["pki"] .ca h'.disk cert key) := by
  obtain ⟨h', hdoes⟩ := Example.exists_run
  have hhistory : PkiHistory Example.site Example.pem Example.names ["pki"] Example.machine.host h' :=
    .single (.run rfl hdoes.goes)
  exact ⟨h', hhistory,
    (pki_assets_only_added Example.site Example.pem Example.names ["pki"] Example.apart _ _ hhistory .ca).2 ⟨rfl, rfl⟩⟩

/-- Half a pair is there. -/
def HalfPair (dir : VfsPath) (b : BaseName) (d : Disk) : Prop :=
  ¬ Absent dir b d ∧ (d (pathForCert dir b) = none ∨ d (pathForKey dir b) = none)

/-- **Half a pair is never completed, and no run goes through again.** -/
theorem half_pair_blocks {Key Pub : Type} [DecidableEq Pub] (s : Site Key Pub) (pem : Pem Key Pub) (names : Names)
    (dir : VfsPath) (hapart : Apart s dir) (b : BaseName) (h h' : Host) (hhalf : HalfPair dir b h.disk)
    (hhistory : PkiHistory s pem names dir h h') :
    HalfPair dir b h'.disk ∧ ∀ (cfg : EtcdAdmConfig) (h'' : Host), cfg.certificatesDir = dir →
      ¬ Prog.Does (Serves s) h' (createPKIAssets pem s.publicOf names cfg) none h'' := by
  have hkeeps {e e' : Host} (hgrows : Grows s pem dir e.disk e'.disk) (hhalf : HalfPair dir b e.disk) :
      HalfPair dir b e'.disk := by
    have hsame := hgrows.same hhalf.1
    refine ⟨fun habsent => hhalf.1 (hsame.absent habsent), ?_⟩
    rw [hsame.1, hsame.2]
    exact hhalf.2
  have hhalf' := hkeeps (PkiHistory.grows hapart hhistory) hhalf
  refine ⟨hhalf', fun cfg h'' hdir hdoes => ?_⟩
  subst hdir
  obtain ⟨hgrows, hdone⟩ := (always_createPKIAssets hapart h' le_rfl).goes hdoes.goes (.of_sameDir .refl)
  -- the run that goes through has both files of every pair
  obtain ⟨hcert, hkey⟩ := (hdone.2 rfl b).both_files
  rcases (hkeeps hgrows hhalf').2 with hnone | hnone
  · exact hcert hnone
  · exact hkey hnone

/-- A run over a key that was left alone fails, and so does every run after it. -/
theorem lone_key_blocks : ∃ (m : Example.Machine) (err : Error) (h : Host),
    Prog.Does (Serves Example.site) m.host (createPKIAssets Example.pem Example.site.publicOf Example.names Example.config) (some err) h ∧
    HalfPair ["pki"] .ca h.disk ∧ ∀ (cfg : EtcdAdmConfig) (h' : Host), cfg.certificatesDir = ["pki"] →
      ¬ Prog.Does (Serves Example.site) h (createPKIAssets Example.pem Example.site.publicOf Example.names cfg) none h' := by
  let m : Example.Machine := ⟨[(["pki", "ca.key"], .file "key")], 0, false, .inactive⟩
  have hrun : ∃ err, ((createPKIAssets Example.pem Example.site.publicOf Example.names Example.config).perform?
      Example.calm m).map (·.1) = some (some err) := ⟨_, by rfl⟩
  obtain ⟨err, hrun⟩ := hrun
  obtain ⟨h, hdoes⟩ := Example.does_calm hrun
  have hhalf : HalfPair ["pki"] .ca m.host.disk := ⟨fun habsent => Option.some_ne_none _ habsent.2, .inl rfl⟩
  exact ⟨m, err, h, hdoes, half_pair_blocks Example.site Example.pem Example.names ["pki"] Example.apart .ca _ h hhalf
    (.single (.run rfl hdoes.goes))⟩

theorem Loaded.unique {Key Pub : Type} {pem : Pem Key Pub} {dir : VfsPath} {b : BaseName} {d : Disk}
    {cert cert' : Certificate Pub} {key key' : Key} (h : Loaded pem dir b d cert key) (h' : Loaded pem dir b d cert' key') :
    cert = cert' := by
  obtain ⟨data, hfile, hparse⟩ := h.cert
  obtain ⟨data', hfile', hparse'⟩ := h'.cert
  cases hfile.symm.trans hfile'
  cases hparse.symm.trans hparse'
  rfl

end Etcdadm.Adm
