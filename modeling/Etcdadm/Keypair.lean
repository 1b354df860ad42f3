/-
Key pairs on disk (`ensureKeypair` of `pkg/pki/certs.go`, `MutateKeypair` of
`pkg/pki/fs.go`, `newSignedCert` of `pkg/pki/certutils.go`).

The key and the certificate are two files. Each is loaded if it is there, and made
if it is not; a certificate that is there is kept if it has the names of the
configuration and enough time left. That test does not look at the key of the
certificate, or at who signed it: when the key file was lost, or the certificate
authority changed, a certificate is kept that fits neither the key it is returned
with nor the authority.
-/
import Etcdadm.Retention

namespace Etcdadm

namespace Pki

/-! ## Certificates -/

/-- What a certificate says, but for the keys. -/
structure Template where
  commonName : String
  organization : List String
  dnsNames : List String
  /-- By the texts that `String` gives. -/
  ipAddresses : List String
  serialNumber : Nat
  notBefore : Int
  notAfter : Int
  extKeyUsage : List Nat
deriving DecidableEq

/-- A certificate for a public key, with the public key of who signed it. -/
structure Certificate (Pub : Type) extends Template where
  publicKey : Pub
  signedBy : Pub
deriving DecidableEq

/-- The encoding has whole seconds. -/
def wholeSeconds (t : Int) : Int := t / 1000000000 * 1000000000

/-- `x509.CreateCertificate`, when it goes through -/
def Template.issue {Pub : Type} (tmpl : Template) (publicKey signedBy : Pub) : Certificate Pub :=
  { tmpl with notBefore := wholeSeconds tmpl.notBefore, notAfter := wholeSeconds tmpl.notAfter, publicKey, signedBy }

/-- `certutil.Config` -/
structure Config where
  commonName : String
  organization : List String
  dnsNames : List String
  ips : List String
  usages : List Nat

structure CA (Key Pub : Type) where
  primaryCertificate : Certificate Pub
  privateKey : Key

/-! ## Files -/

inductive KeyFile (Key : Type) where
  | missing
  | unreadable (err : Error)
  | unparsable (err : Error)
  | otherType (type : String)
  | key (k : Key)

inductive CertificateFile (Pub : Type) where
  | missing
  | unreadable (err : Error)
  | unparsable (err : Error)
  | certificate (cert : Certificate Pub)

/-- Where the writing of a file failed. -/
inductive WriteFault where
  | creatingDirectories (err : Error)
  | opening (err : Error)
  | writing (err : Error)
  | closing (err : Error)

/-- The errors of `writePrivateKey` and `writeCertificates` -/
def WriteFault.text (kind path : String) : WriteFault → Error
  | creatingDirectories err => s!"creating directories for {kind} file {path.quote}: {err}"
  | opening err => s!"opening {kind} file {path.quote}: {err}"
  | writing err => s!"writing {kind} file {path.quote}: {err}"
  | closing err => s!"closing {kind} file {path.quote}: {err}"

inductive PkiReq (Key Pub : Type) where
  | readKey (path : String)
  | readCertificate (path : String)
  /-- `rsa.GenerateKey` -/
  | generateKey
  | now
  /-- `cryptorand.Int` -/
  | serial
  | createCertificate (tmpl : Template) (parent : Certificate Pub) (publicKey : Pub) (caKey : Key)
  | writeKey (path : String) (key : Key)
  | writeCertificate (path : String) (cert : Certificate Pub)

@[reducible] def PkiReq.Resp {Key Pub : Type} : PkiReq Key Pub → Type
  | .readKey _ => KeyFile Key
  | .readCertificate _ => CertificateFile Pub
  | .generateKey => Except Error Key
  | .now => Int
  | .serial => Except Error Nat
  | .createCertificate _ _ _ _ => Except Error (Certificate Pub)
  | .writeKey _ _ => Option WriteFault
  | .writeCertificate _ _ => Option WriteFault

@[reducible] def pkiSig (Key Pub : Type) : Sig := ⟨PkiReq Key Pub, PkiReq.Resp⟩

abbrev PkiM (Key Pub : Type) := Prog (pkiSig Key Pub)

def pki {Key Pub : Type} (r : PkiReq Key Pub) : PkiM Key Pub r.Resp := .call (S := pkiSig Key Pub) r .ret

/-! ## Keypairs -/

section

variable {Key Pub : Type}

/-- `loadPrivateKey`; the caller tolerates a missing key -/
def loadPrivateKey (path : String) : PkiM Key Pub (Except Error (Option Key)) := do
  match ← pki (.readKey path) with
  | .missing => return .ok none
  | .unreadable err => return .error s!"unable to read key {path}: {err}"
  | .unparsable err => return .error s!"unable to parse private key {path.quote}: {err}"
  | .otherType type => return .error s!"unexpected private key type in {path.quote}: {type}"
  | .key k => return .ok (some k)

def loadCertificate (path : String) : PkiM Key Pub (Except Error (Option (Certificate Pub))) := do
  match ← pki (.readCertificate path) with
  | .missing => return .ok none
  | .unreadable err => return .error s!"unable to read certificate {path}: {err}"
  | .unparsable err => return .error s!"error parsing certificate data in {path.quote}: {err}"
  | .certificate cert => return .ok (some cert)

def writePrivateKey (path : String) (key : Key) : PkiM Key Pub (Option Error) := do
  match ← pki (.writeKey path key) with
  | some fault => return some (fault.text "private key" path)
  | none => return none

def writeCertificates (path : String) (cert : Certificate Pub) : PkiM Key Pub (Option Error) := do
  match ← pki (.writeCertificate path cert) with
  | some fault => return some (fault.text "certificate" path)
  | none => return none

/-- `MutateKeypair` of a pair of files. A mutator that goes through has set both. -/
def mutateKeypair [DecidableEq Key] [DecidableEq Pub] (privateKeyPath certificatePath : String)
    (mutator : Option Key → Option (Certificate Pub) → PkiM Key Pub (Except Error (Key × Certificate Pub))) :
    PkiM Key Pub (Except Error (Key × Certificate Pub)) := do
  match ← loadPrivateKey privateKeyPath with
  | .error err => return .error err
  | .ok originalKey =>
    match ← loadCertificate certificatePath with
    | .error err => return .error err
    | .ok originalCertificate =>
      match ← mutator originalKey originalCertificate with
      | .error err => return .error err
      | .ok (key, cert) =>
        match ← (if originalKey = some key then return none else writePrivateKey privateKeyPath key) with
        | some err => return .error err
        | none =>
          match ← (if originalCertificate = some cert then return none else writeCertificates certificatePath cert) with
          | some err => return .error err
          | none => return .ok (key, cert)

-- `publicOf` gives the public key of a private key
variable (publicOf : Key → Pub) (certDuration certMinTimeLeft : Duration)

def newSignedCert (cfg : Config) (key : Key) (ca : CA Key Pub) : PkiM Key Pub (Except Error (Certificate Pub)) := do
  match ← pki .serial with
  | .error err => return .error err
  | .ok serialNumber =>
    if cfg.commonName = "" then return .error "must specify a CommonName"
    if cfg.usages = [] then return .error "must specify at least one ExtKeyUsage"
    let now ← pki .now
    let certTmpl : Template := {
      commonName := cfg.commonName
      organization := cfg.organization
      dnsNames := cfg.dnsNames
      ipAddresses := cfg.ips
      serialNumber
      notBefore := ca.primaryCertificate.notBefore
      notAfter := now + certDuration.ns
      extKeyUsage := cfg.usages }
    pki (.createCertificate certTmpl ca.primaryCertificate (publicOf key) ca.privateKey)

/-- The test for a certificate that is there. -/
def Matches (config : Config) (now : Int) (cert : Certificate Pub) : Prop :=
  certMinTimeLeft < Duration.sub cert.notAfter now ∧ cert.commonName = config.commonName ∧
    config.dnsNames.insertionSort (· ≤ ·) = cert.dnsNames.insertionSort (· ≤ ·) ∧
    config.ips.insertionSort (· ≤ ·) = cert.ipAddresses.insertionSort (· ≤ ·)

instance (config : Config) (now : Int) (cert : Certificate Pub) : Decidable (Matches certMinTimeLeft config now cert) :=
  inferInstanceAs (Decidable (_ ∧ _))

/-- The certificate that is kept. -/
def keptCertificate (config : Config) : Option (Certificate Pub) → PkiM Key Pub (Option (Certificate Pub))
  | none => return none
  | some cert => do
    let now ← pki .now
    return if Matches certMinTimeLeft config now cert then some cert else none

def ensureKey (p : String) : Option Key → PkiM Key Pub (Except Error Key)
  | some key => return .ok key
  | none => do
    match ← pki .generateKey with
    | .error err => return .error s!"unable to create private key {p.quote}: {err}"
    | .ok key => return .ok key

/-- The mutator of `ensureKeypair` -/
def ensureMutator (config : Config) (signer : CA Key Pub) (privateKey : Option Key) (certificate : Option (Certificate Pub)) :
    PkiM Key Pub (Except Error (Key × Certificate Pub)) := do
  match ← ensureKey config.commonName privateKey with
  | .error err => return .error err
  | .ok key =>
    match ← keptCertificate certMinTimeLeft config certificate with
    | some cert => return .ok (key, cert)
    | none =>
      match ← newSignedCert publicOf certDuration config key signer with
      | .error err => return .error s!"error signing certificate for {config.commonName.quote}: {err}"
      | .ok cert => return .ok (key, cert)

def ensureKeypair [DecidableEq Key] [DecidableEq Pub] (privateKeyPath certificatePath : String) (config : Config)
    (signer : CA Key Pub) : PkiM Key Pub (Except Error (Key × Certificate Pub)) :=
  mutateKeypair privateKeyPath certificatePath (ensureMutator publicOf certDuration certMinTimeLeft config signer)

/-! ## The disk and the clock -/

/-- The two files, and the latest time that was read. -/
structure Disk (Key Pub : Type) where
  key : KeyFile Key
  certificate : CertificateFile Pub
  clock : Int

/-- A write that fails may leave anything. -/
inductive Answers (d : Disk Key Pub) : (r : PkiReq Key Pub) → r.Resp → Disk Key Pub → Prop
  | readKey {path} : Answers d (.readKey path) d.key d
  | readCertificate {path} : Answers d (.readCertificate path) d.certificate d
  | generateKey {x} : Answers d .generateKey x d
  | now {t} : d.clock ≤ t → Answers d .now t { d with clock := t }
  | serial {x} : Answers d .serial x d
  | created {tmpl parent publicKey caKey} :
      Answers d (.createCertificate tmpl parent publicKey caKey) (.ok (tmpl.issue publicKey (publicOf caKey))) d
  | createFailed {tmpl parent publicKey caKey err} :
      Answers d (.createCertificate tmpl parent publicKey caKey) (.error err) d
  | keyWritten {path key} : Answers d (.writeKey path key) none { d with key := .key key }
  | keyFailed {path key fault file} : Answers d (.writeKey path key) (some fault) { d with key := file }
  | certificateWritten {path cert} :
      Answers d (.writeCertificate path cert) none { d with certificate := .certificate cert }
  | certificateFailed {path cert fault file} :
      Answers d (.writeCertificate path cert) (some fault) { d with certificate := file }

variable {publicOf certDuration certMinTimeLeft}

theorem does_pki {α : Type} {r : PkiReq Key Pub} {f : r.Resp → PkiM Key Pub α} {a : α} {d d' : Disk Key Pub} :
    Prog.Does (Answers publicOf) d (pki r >>= f) a d' ↔
      ∃ x d₁, Answers publicOf d r x d₁ ∧ Prog.Does (Answers publicOf) d₁ (f x) a d' :=
  Prog.does_call

variable {d d' : Disk Key Pub} {config : Config} {signer : CA Key Pub} {key : Key} {cert : Certificate Pub}

/-- A certificate of the signer for the key, with the names of the configuration, as of
the time `now`. -/
def Issued (publicOf : Key → Pub) (certDuration : Duration) (config : Config) (signer : CA Key Pub) (key : Key) (now : Int)
    (cert : Certificate Pub) : Prop :=
  cert.publicKey = publicOf key ∧ cert.signedBy = publicOf signer.privateKey ∧ cert.commonName = config.commonName ∧
    cert.dnsNames = config.dnsNames ∧ cert.ipAddresses = config.ips ∧ cert.notAfter = wholeSeconds (now + certDuration.ns)

theorem does_newSignedCert
    (h : Prog.Does (Answers publicOf) d (newSignedCert publicOf certDuration config key signer) (.ok cert) d') :
    d.clock ≤ d'.clock ∧ d' = { d with clock := d'.clock } ∧
      Issued publicOf certDuration config signer key d'.clock cert := by
  obtain ⟨serial, _, hserial, h⟩ := does_pki.1 h
  cases hserial
  cases serial with
  | error err => simp at h
  | ok serial =>
    simp only at h
    split at h
    · simp at h
    · split at h
      · simp at h
      · obtain ⟨now, _, hnow, h⟩ := does_pki.1 h
        cases hnow with
        | now hle =>
          obtain ⟨_, _, hcreate, hret⟩ := Prog.does_call.1 h
          obtain ⟨rfl, rfl⟩ := Prog.does_ret.1 hret
          cases hcreate
          exact ⟨hle, rfl, rfl, rfl, rfl, rfl, rfl, rfl⟩

/-- A certificate is kept if it matches when the clock is read. -/
theorem does_keptCertificate {stored kept : Option (Certificate Pub)}
    (h : Prog.Does (Answers publicOf) d (keptCertificate certMinTimeLeft config stored : PkiM Key Pub _) kept d') :
    d.clock ≤ d'.clock ∧ d' = { d with clock := d'.clock } ∧
      ∀ cert, kept = some cert ↔ stored = some cert ∧ Matches certMinTimeLeft config d'.clock cert := by
  cases stored with
  | none =>
    obtain ⟨rfl, rfl⟩ := Prog.does_ret.1 h
    simp
  | some cert =>
    obtain ⟨now, _, hnow, h⟩ := does_pki.1 h
    cases hnow with
    | now hle =>
      obtain ⟨rfl, rfl⟩ := Prog.does_ret.1 h
      refine ⟨hle, rfl, fun cert' => ?_⟩
      split
      · next hmatches =>
        simp only [Option.some.injEq]
        exact ⟨fun heq => ⟨heq, heq ▸ hmatches⟩, fun heq => heq.1⟩
      · next hmatches =>
        simp only [reduceCtorEq, Option.some.injEq, false_iff, not_and]
        exact fun heq => heq ▸ hmatches

theorem does_ensureKey {p : String} {stored : Option Key}
    (h : Prog.Does (Answers publicOf) d (ensureKey p stored) (.ok key) d') :
    d' = d ∧ ∀ k, stored = some k → k = key := by
  cases stored with
  | some k =>
    obtain ⟨heq, rfl⟩ := Prog.does_ret.1 h
    cases heq
    simp
  | none =>
    obtain ⟨x, _, hgenerate, h⟩ := does_pki.1 h
    cases hgenerate
    cases x with
    | error err => simp at h
    | ok k =>
      obtain ⟨heq, rfl⟩ := Prog.does_ret.1 h
      exact ⟨rfl, by simp⟩

/-- Time only takes a match away. -/
theorem Matches.earlier {now now' : Int} (h : Matches certMinTimeLeft config now' cert) (hle : now ≤ now') :
    Matches certMinTimeLeft config now cert := by
  obtain ⟨hleft, hnames⟩ := h
  refine ⟨?_, hnames⟩
  show certMinTimeLeft.ns < (Duration.sub cert.notAfter now).ns
  have hleft : certMinTimeLeft.ns < (Duration.sub cert.notAfter now').ns := hleft
  simp only [Duration.sub] at hleft ⊢
  omega

/-- **The mutator** keeps the certificate that is there exactly if it matches at the
latest time that was read, and else has one issued for the key. -/
theorem does_ensureMutator {storedKey : Option Key} {stored : Option (Certificate Pub)}
    (h : Prog.Does (Answers publicOf) d (ensureMutator publicOf certDuration certMinTimeLeft config signer storedKey stored)
      (.ok (key, cert)) d') :
    d' = { d with clock := d'.clock } ∧ (∀ k, storedKey = some k → k = key) ∧
      ((stored = some cert ∧ Matches certMinTimeLeft config d'.clock cert) ∨
        (∀ c, stored = some c → ¬ Matches certMinTimeLeft config d'.clock c) ∧
          Issued publicOf certDuration config signer key d'.clock cert) := by
  obtain ⟨x, d₁, hkey, hrest⟩ := Prog.does_bind.1 h
  cases x with
  | error err => simp at hrest
  | ok k =>
    obtain ⟨rfl, hstored⟩ := does_ensureKey hkey
    obtain ⟨kept, d₂, hkept, hsign⟩ := Prog.does_bind.1 hrest
    obtain ⟨hclock, hdisk, hiff⟩ := does_keptCertificate hkept
    cases kept with
    | some c =>
      obtain ⟨heq, rfl⟩ := Prog.does_ret.1 hsign
      cases heq
      exact ⟨hdisk, hstored, .inl ((hiff cert).1 rfl)⟩
    | none =>
      obtain ⟨y, d₃, hsign, hret⟩ := Prog.does_bind.1 hsign
      cases y with
      | error err => simp at hret
      | ok c =>
        obtain ⟨heq, rfl⟩ := Prog.does_ret.1 hret
        cases heq
        obtain ⟨hclock', hdisk', hissued⟩ := does_newSignedCert hsign
        refine ⟨by rw [hdisk', hdisk], hstored, .inr ⟨fun c hc hmatches => ?_, hissued⟩⟩
        have hnone := (hiff c).2 ⟨hc, hmatches.earlier hclock'⟩
        cases hnone

/-! ## Usable pairs -/

/-- The certificate is for the key, by the signer and with the names of the
configuration, and at the time `now` it has more than the least time left. -/
structure Usable (publicOf : Key → Pub) (certMinTimeLeft : Duration) (config : Config) (signer : CA Key Pub) (key : Key)
    (cert : Certificate Pub) (now : Int) : Prop where
  key : cert.publicKey = publicOf key
  signer : cert.signedBy = publicOf signer.privateKey
  commonName : cert.commonName = config.commonName
  dnsNames : cert.dnsNames.Perm config.dnsNames
  ips : cert.ipAddresses.Perm config.ips
  timeLeft : certMinTimeLeft.ns < cert.notAfter - now

theorem Issued.usable (hduration : certMinTimeLeft.ns + 1000000000 < certDuration.ns) {now : Int}
    (h : Issued publicOf certDuration config signer key now cert) :
    Usable publicOf certMinTimeLeft config signer key cert now := by
  obtain ⟨hkey, hsigner, hname, hdns, hips, hafter⟩ := h
  refine ⟨hkey, hsigner, hname, by rw [hdns], by rw [hips], ?_⟩
  rw [hafter, wholeSeconds]
  omega

theorem perm_of_sort_eq {l l' : List String} (h : l.insertionSort (· ≤ ·) = l'.insertionSort (· ≤ ·)) : l'.Perm l :=
  (List.perm_insertionSort _ l').symm.trans (h ▸ List.perm_insertionSort _ l)

/-- A certificate that matches lacks nothing but the keys. -/
theorem Matches.usable_iff {now : Int} (h : Matches certMinTimeLeft config now cert) :
    Usable publicOf certMinTimeLeft config signer key cert now ↔
      cert.publicKey = publicOf key ∧ cert.signedBy = publicOf signer.privateKey := by
  obtain ⟨hleft, hname, hdns, hips⟩ := h
  refine ⟨fun h => ⟨h.key, h.signer⟩, fun h => ⟨h.1, h.2, hname, perm_of_sort_eq hdns, perm_of_sort_eq hips, ?_⟩⟩
  have hleft : certMinTimeLeft.ns < (Duration.sub cert.notAfter now).ns := hleft
  have hfits := certMinTimeLeft.fits
  simp only [Duration.sub] at hleft
  omega

/-! ## The files after it -/

theorem does_loadPrivateKey {path : String} {stored : Option Key}
    (h : Prog.Does (Answers publicOf) d (loadPrivateKey path) (.ok stored) d') :
    d' = d ∧ ∀ k, stored = some k ↔ d.key = .key k := by
  obtain ⟨file, _, hread, hret⟩ := does_pki.1 h
  cases hread
  cases hfile : d.key with
  | missing =>
    simp only [hfile] at hret
    obtain ⟨heq, rfl⟩ := Prog.does_ret.1 hret
    cases heq
    simp
  | key k =>
    simp only [hfile] at hret
    obtain ⟨heq, rfl⟩ := Prog.does_ret.1 hret
    cases heq
    simp
  | unreadable err => simp [hfile] at hret
  | unparsable err => simp [hfile] at hret
  | otherType type => simp [hfile] at hret

theorem does_loadCertificate {path : String} {stored : Option (Certificate Pub)}
    (h : Prog.Does (Answers publicOf) d (loadCertificate path) (.ok stored) d') :
    d' = d ∧ ∀ c, stored = some c ↔ d.certificate = .certificate c := by
  obtain ⟨file, _, hread, hret⟩ := does_pki.1 h
  cases hread
  cases hfile : d.certificate with
  | missing =>
    simp only [hfile] at hret
    obtain ⟨heq, rfl⟩ := Prog.does_ret.1 hret
    cases heq
    simp
  | certificate c =>
    simp only [hfile] at hret
    obtain ⟨heq, rfl⟩ := Prog.does_ret.1 hret
    cases heq
    simp
  | unreadable err => simp [hfile] at hret
  | unparsable err => simp [hfile] at hret

theorem does_writePrivateKey {path : String}
    (h : Prog.Does (Answers publicOf) d (writePrivateKey path key) none d') : d' = { d with key := .key key } := by
  obtain ⟨fault, _, hwrite, hret⟩ := does_pki.1 h
  cases hwrite with
  | keyWritten => exact (Prog.does_ret.1 hret).2
  | keyFailed => simp at hret

theorem does_writeCertificates {path : String}
    (h : Prog.Does (Answers publicOf) d (writeCertificates path cert) none d') :
    d' = { d with certificate := .certificate cert } := by
  obtain ⟨fault, _, hwrite, hret⟩ := does_pki.1 h
  cases hwrite with
  | certificateWritten => exact (Prog.does_ret.1 hret).2
  | certificateFailed => simp at hret

/-- The key is on disk, whether it had to be written or not. -/
theorem does_writeKeyUnless [DecidableEq Key] {path : String} {storedKey : Option Key}
    (hstored : ∀ k, storedKey = some k → d.key = .key k)
    (h : Prog.Does (Answers publicOf) d (if storedKey = some key then return none else writePrivateKey path key) none d') :
    d' = { d with key := .key key } := by
  split at h
  · next heq =>
    rw [(Prog.does_ret.1 h).2, ← hstored key heq]
  · exact does_writePrivateKey h

theorem does_writeCertificateUnless [DecidableEq Pub] {path : String} {stored : Option (Certificate Pub)}
    (hstored : ∀ c, stored = some c → d.certificate = .certificate c)
    (h : Prog.Does (Answers publicOf) d (if stored = some cert then return none else writeCertificates path cert) none d') :
    d' = { d with certificate := .certificate cert } := by
  split at h
  · next heq =>
    rw [(Prog.does_ret.1 h).2, ← hstored cert heq]
  · exact does_writeCertificates h

/-- **The pair that is returned is on disk.** What the mutator was given is what the
files had. -/
theorem does_mutateKeypair [DecidableEq Key] [DecidableEq Pub] {privateKeyPath certificatePath : String}
    {mutator : Option Key → Option (Certificate Pub) → PkiM Key Pub (Except Error (Key × Certificate Pub))}
    (hframe : ∀ {storedKey stored k c e e'}, Prog.Does (Answers publicOf) e (mutator storedKey stored) (.ok (k, c)) e' →
      e' = { e with clock := e'.clock })
    (h : Prog.Does (Answers publicOf) d (mutateKeypair privateKeyPath certificatePath mutator) (.ok (key, cert)) d') :
    d'.key = .key key ∧ d'.certificate = .certificate cert ∧
      ∃ storedKey stored d₁, (∀ k, storedKey = some k ↔ d.key = .key k) ∧
        (∀ c, stored = some c ↔ d.certificate = .certificate c) ∧ d₁.clock = d'.clock ∧
        Prog.Does (Answers publicOf) d (mutator storedKey stored) (.ok (key, cert)) d₁ := by
  obtain ⟨x, d₁, hloadKey, h₁⟩ := Prog.does_bind.1 h
  cases x with
  | error err => simp at h₁
  | ok storedKey =>
    obtain ⟨heq, hstoredKey⟩ := does_loadPrivateKey hloadKey
    obtain ⟨x, d₂, hload, h₂⟩ := Prog.does_bind.1 h₁
    cases x with
    | error err => simp at h₂
    | ok stored =>
      obtain ⟨heq', hstored⟩ := does_loadCertificate hload
      rw [heq] at heq' hstored
      rw [heq'] at h₂
      obtain ⟨x, d₃, hmutator, h₃⟩ := Prog.does_bind.1 h₂
      cases x with
      | error err => simp at h₃
      | ok pair =>
        obtain ⟨k, c⟩ := pair
        have hsame := hframe hmutator
        obtain ⟨x, d₄, hwriteKey, h₄⟩ := Prog.does_bind.1 h₃
        cases x with
        | some err => simp at h₄
        | none =>
          obtain ⟨x, d₅, hwrite, h₅⟩ := Prog.does_bind.1 h₄
          cases x with
          | some err => simp at h₅
          | none =>
            obtain ⟨hret, rfl⟩ := Prog.does_ret.1 h₅
            cases hret
            have hkey (k : Key) (hk : storedKey = some k) : d₃.key = .key k := by
              rw [hsame]
              exact (hstoredKey k).1 hk
            have hcert (c : Certificate Pub) (hc : stored = some c) : d₃.certificate = .certificate c := by
              rw [hsame]
              exact (hstored c).1 hc
            obtain rfl := does_writeKeyUnless hkey hwriteKey
            obtain rfl := does_writeCertificateUnless (d := { d₃ with key := .key key }) hcert hwrite
            exact ⟨rfl, rfl, storedKey, stored, d₃, hstoredKey, hstored, rfl, hmutator⟩

/-- **A pair is usable exactly if the certificate that is kept is for the key and by
the signer.** For every content of the two files and every configuration and signer:
`ensureKeypair`, when it goes through, leaves the pair it returns on disk, with the
stored key if there is one. The pair is usable at the latest time the call has read
if and only if a stored certificate that matches then is for that key, and signed by
the signer. -/
theorem keypair_usable_iff [DecidableEq Key] [DecidableEq Pub] (publicOf : Key → Pub) (certDuration certMinTimeLeft : Duration)
    (hduration : certMinTimeLeft.ns + 1000000000 < certDuration.ns) (privateKeyPath certificatePath : String) (config : Config)
    (signer : CA Key Pub) (d d' : Disk Key Pub) (key : Key) (cert : Certificate Pub)
    (hdoes : Prog.Does (Answers publicOf) d
      (ensureKeypair publicOf certDuration certMinTimeLeft privateKeyPath certificatePath config signer) (.ok (key, cert)) d') :
    d'.key = .key key ∧ d'.certificate = .certificate cert ∧ (∀ k, d.key = .key k → key = k) ∧
      (Usable publicOf certMinTimeLeft config signer key cert d'.clock ↔
        ∀ c, d.certificate = .certificate c → Matches certMinTimeLeft config d'.clock c →
          c.publicKey = publicOf key ∧ c.signedBy = publicOf signer.privateKey) := by
  obtain ⟨hkey, hcert, storedKey, stored, d₁, hstoredKey, hstored, hclock, hmutator⟩ :=
    does_mutateKeypair (fun h => (does_ensureMutator h).1) hdoes
  obtain ⟨-, hsame, hcases⟩ := does_ensureMutator hmutator
  rw [hclock] at hcases
  refine ⟨hkey, hcert, fun k hk => (hsame k ((hstoredKey k).2 hk)).symm, ?_⟩
  rcases hcases with ⟨hkept, hmatches⟩ | ⟨hnone, hissued⟩
  · rw [hmatches.usable_iff]
    refine ⟨fun h c hc _ => ?_, fun h => h cert ((hstored cert).1 hkept) hmatches⟩
    obtain rfl := Option.some.inj (((hstored c).2 hc).symm.trans hkept)
    exact h
  · refine iff_of_true (hissued.usable hduration) fun c hc hmatches => ?_
    exact absurd hmatches (hnone c ((hstored c).2 hc))

end

/-! ## A lost key -/

/-- Keys that are their own public keys; that of the authority is `0`. -/
def clusterCA : CA Nat Nat := ⟨⟨⟨"ca", [], [], [], 1, 0, 0, []⟩, 0, 0⟩, 0⟩

def memberConfig : Config := ⟨"etcd-1", [], ["etcd-1"], ["10.0.0.1"], [1]⟩

/-- The certificate of key `1`, for ten hours. -/
def oldCertificate : Certificate Nat :=
  ⟨⟨"etcd-1", [], ["etcd-1"], ["10.0.0.1"], 2, 0, 36000000000000, [1]⟩, 1, 0⟩

def bothFiles : Disk Nat Nat := ⟨.key 1, .certificate oldCertificate, 0⟩

def lostKey : Disk Nat Nat := ⟨.missing, .certificate oldCertificate, 0⟩

/-- The old certificate is kept with any key. -/
theorem keeps_oldCertificate {d : Disk Nat Nat} (hclock : d.clock = 0) :
    Prog.Does (Answers id) d (keptCertificate Duration.hour memberConfig (some oldCertificate)) (some oldCertificate) d := by
  have hmatches : Matches Duration.hour memberConfig 0 oldCertificate := by decide +kernel
  refine does_pki.2 ⟨0, { d with clock := 0 }, .now (by rw [hclock]), ?_⟩
  rw [if_pos hmatches, ← hclock]
  exact .ret

theorem stored_pair_kept :
    Prog.Does (Answers id) bothFiles (ensureKeypair id Duration.day Duration.hour "me.key" "me.crt" memberConfig clusterCA)
      (.ok (1, oldCertificate)) bothFiles ∧
    Usable id Duration.hour memberConfig clusterCA 1 oldCertificate 0 := by
  have hdoes : Prog.Does (Answers id) bothFiles
      (ensureKeypair id Duration.day Duration.hour "me.key" "me.crt" memberConfig clusterCA) (.ok (1, oldCertificate))
      bothFiles := by
    refine Prog.does_bind.2 ⟨.ok (some 1), bothFiles, does_pki.2 ⟨_, _, .readKey, .ret⟩, ?_⟩
    refine Prog.does_bind.2 ⟨.ok (some oldCertificate), bothFiles, does_pki.2 ⟨_, _, .readCertificate, .ret⟩, ?_⟩
    refine Prog.does_bind.2 ⟨.ok (1, oldCertificate), bothFiles, ?_, ?_⟩
    · refine Prog.does_bind.2 ⟨.ok 1, bothFiles, .ret, ?_⟩
      exact Prog.does_bind.2 ⟨some oldCertificate, bothFiles, keeps_oldCertificate rfl, .ret⟩
    · refine Prog.does_bind.2 ⟨none, bothFiles, ?_, Prog.does_bind.2 ⟨none, bothFiles, ?_, .ret⟩⟩
      · rw [if_pos rfl]
        exact .ret
      · rw [if_pos rfl]
        exact .ret
  refine ⟨hdoes, ((keypair_usable_iff id Duration.day Duration.hour (by decide) "me.key" "me.crt" memberConfig clusterCA
    bothFiles bothFiles 1 oldCertificate hdoes).2.2.2).2 fun c hc _ => ?_⟩
  cases hc
  exact ⟨rfl, rfl⟩

/-- The key file was lost. A new key is made and written, and the certificate of the
old one is returned with it. -/
theorem lost_key_keeps_certificate :
    Prog.Does (Answers id) lostKey (ensureKeypair id Duration.day Duration.hour "me.key" "me.crt" memberConfig clusterCA)
      (.ok (2, oldCertificate)) { lostKey with key := .key 2 } ∧
    ¬ Usable id Duration.hour memberConfig clusterCA 2 oldCertificate 0 := by
  refine ⟨?_, fun h => absurd h.key (by decide)⟩
  refine Prog.does_bind.2 ⟨.ok none, lostKey, does_pki.2 ⟨_, _, .readKey, .ret⟩, ?_⟩
  refine Prog.does_bind.2 ⟨.ok (some oldCertificate), lostKey, does_pki.2 ⟨_, _, .readCertificate, .ret⟩, ?_⟩
  refine Prog.does_bind.2 ⟨.ok (2, oldCertificate), lostKey, ?_, ?_⟩
  · refine Prog.does_bind.2 ⟨.ok 2, lostKey, does_pki.2 ⟨.ok 2, lostKey, .generateKey, .ret⟩, ?_⟩
    exact Prog.does_bind.2 ⟨some oldCertificate, lostKey, keeps_oldCertificate rfl, .ret⟩
  · refine Prog.does_bind.2 ⟨none, { lostKey with key := .key 2 }, ?_, Prog.does_bind.2 ⟨none, _, ?_, .ret⟩⟩
    · rw [if_neg (by simp)]
      exact does_pki.2 ⟨none, _, .keyWritten, .ret⟩
    · rw [if_pos rfl]
      exact .ret

end Pki

end Etcdadm
