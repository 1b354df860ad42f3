/-
The certificate authority that a node loads and hands on (`LoadCA` and `WriteCABundle`
of `pkg/pki/fs.go`). The file may have several certificates in any order, old and new
ones during a rotation, and the private key may fit more than one of them.

A certificate is known by its bytes. They are sorted by their bytes before one is
chosen, so the order of the file is gone and the choice is the least that fits. The
sort is not stable; that makes no difference, since what compares equal is equal.
-/
import Etcdadm.Keypair

namespace Etcdadm.Pki

/-! ## Loading -/

/-- `Raw` of a certificate, compared as `bytes.Compare` does -/
abbrev Raw := List (Fin 256)

/-- `sort.Slice` by the bytes: some arrangement in which none is before a lesser one. -/
structure SliceSort where
  sort : List Raw → List Raw
  perm : ∀ certs, (sort certs).Perm certs
  sorted : ∀ certs, (sort certs).Pairwise fun a b => ¬ b < a

/-- The file of a bundle. -/
inductive BundleFile where
  | missing
  | unreadable (err : Error)
  | unparsable (err : Error)
  | certificates (certs : List Raw)

/-- `CA`, with all its certificates -/
structure BundleCA (Key : Type) where
  primaryCertificate : Raw
  privateKey : Key
  certificates : List Raw
  deriving DecidableEq

/-- `loadPrivateKey`, where a missing key is an error -/
def KeyFile.load {Key : Type} (path : String) : KeyFile Key → Except Error Key
  | .missing => .error s!"open {path}: no such file or directory"
  | .unreadable err => .error s!"unable to read key {path}: {err}"
  | .unparsable err => .error s!"unable to parse private key {path.quote}: {err}"
  | .otherType type => .error s!"unexpected private key type in {path.quote}: {type}"
  | .key k => .ok k

/-- `loadCertificateBundle` -/
def BundleFile.load (path : String) : BundleFile → Except Error (List Raw)
  | .missing => .ok []
  | .unreadable err => .error s!"unable to read certificate {path}: {err}"
  | .unparsable err => .error s!"error parsing certificate data in {path.quote}: {err}"
  | .certificates certs => .ok certs

section Load

-- `publicOf` is the public key of a private key, `publicKey` that of a certificate
variable {Key Pub : Type} [DecidableEq Pub] (publicOf : Key → Pub) (publicKey : Raw → Pub)

def loadCA (slice : SliceSort) (basedir name : String) (keyFile : KeyFile Key) (bundle : BundleFile) :
    Except Error (BundleCA Key) :=
  match keyFile.load (basedir ++ "/" ++ name ++ ".key") with
  | .error err => .error err
  | .ok privateKey =>
    match bundle.load (basedir ++ "/" ++ name ++ ".crt") with
    | .error err => .error err
    | .ok certs =>
      let certificates := slice.sort certs
      match certificates.find? fun cert => publicOf privateKey = publicKey cert with
      | some cert => .ok ⟨cert, privateKey, certificates⟩
      | none => .error s!"did not find certificate for private key {name}"

end Load

/-! ## Writing -/

inductive BundleReq where
  /-- `os.MkdirAll`, of the directory of the file -/
  | mkdirAll (path : String)
  | openFile (path : String)
  /-- `pem.Encode` -/
  | encode (cert : Raw)
  | close

@[reducible] def bundleSig : Sig := ⟨BundleReq, fun _ => Option Error⟩

abbrev BundleM := Prog bundleSig

def bundle (r : BundleReq) : BundleM (Option Error) := .call (S := bundleSig) r .ret

/-- The loop of `writeCertificates`, and the end of it. -/
def encodeAll (path : String) : List Raw → BundleM (Option Error)
  | [] => do
    match ← bundle .close with
    | some err => return some ((WriteFault.closing err).text "certificate" path)
    | none => return none
  | cert :: certs => do
    match ← bundle (.encode cert) with
    | some err =>
      let _ ← bundle .close
      return some ((WriteFault.writing err).text "certificate" path)
    | none => encodeAll path certs

/-- `writeCertificates`, of any number of them -/
def writeBundle (path : String) (certs : List Raw) : BundleM (Option Error) := do
  match ← bundle (.mkdirAll path) with
  | some err => return some ((WriteFault.creatingDirectories err).text "certificate" path)
  | none =>
    match ← bundle (.openFile path) with
    | some err => return some ((WriteFault.opening err).text "certificate" path)
    | none => encodeAll path certs

def writeCABundle {Key : Type} (basedir : String) (ca : BundleCA Key) : BundleM (Option Error) :=
  writeBundle (basedir ++ "/ca.crt") ca.certificates

/-- The block a request adds to the file. -/
def block : BundleReq → Option Raw
  | .encode cert => some cert
  | _ => none

/-- What a run has put into the file. -/
def written (tr : Trace bundleSig) : List Raw := tr.filterMap fun e => block e.req

theorem written_encodeAll {path : String} : ∀ {certs : List Raw} {tr : Trace bundleSig},
    Runs (encodeAll path certs) tr (.ret none) → written tr = certs
  | [], tr, h => by
    cases h with
    | step h =>
      rename_i tr x
      cases x with
      | some err => cases h
      | none =>
        cases h
        rfl
  | cert :: certs, tr, h => by
    cases h with
    | step h =>
      rename_i tr x
      cases x with
      | some err =>
        cases h with
        | step h => cases h
      | none => exact congrArg (cert :: ·) (written_encodeAll h)

/-- A call that succeeds has written the certificates in their order. -/
theorem written_writeCABundle {Key : Type} {basedir : String} {ca : BundleCA Key} {tr : Trace bundleSig}
    (h : Runs (writeCABundle basedir ca) tr (.ret none)) : written tr = ca.certificates := by
  cases h with
  | step h =>
    rename_i tr x
    cases x with
    | some err => cases h
    | none =>
      cases h with
      | step h =>
        rename_i tr y
        cases y with
        | some err => cases h
        | none =>
          show written tr = ca.certificates
          exact written_encodeAll h

/-! ## What is loaded -/

section Order

variable {Key Pub : Type} [DecidableEq Pub] {publicOf : Key → Pub} {publicKey : Raw → Pub} {slice slice' : SliceSort}
  {basedir name : String} {key : Key} {certs certs' : List Raw}

theorem SliceSort.sorted_le (slice : SliceSort) (certs : List Raw) : (slice.sort certs).Pairwise (· ≤ ·) :=
  (slice.sorted certs).imp fun h => not_lt.1 h

/-- Whatever sorts, and whatever the order before, the order after is the same. -/
theorem SliceSort.sort_eq (hperm : certs.Perm certs') : slice.sort certs = slice'.sort certs' :=
  List.Perm.eq_of_pairwise' (slice.sorted_le certs) (slice'.sorted_le certs')
    ((slice.perm certs).trans (hperm.trans (slice'.perm certs').symm))

/-- The first that fits in a sorted list is the least that fits. -/
theorem find?_least {l : List Raw} (hsorted : l.Pairwise (· ≤ ·)) {p : Raw → Bool} {cert : Raw} (h : l.find? p = some cert) :
    ∀ other ∈ l, p other = true → cert ≤ other := by
  obtain ⟨-, before, after, rfl, hbefore⟩ := List.find?_eq_some_iff_append.1 h
  intro other hother hp
  obtain hmem | hmem := List.mem_append.1 hother
  · have hnot := hbefore other hmem
    simp [hp] at hnot
  · obtain rfl | hmem := List.mem_cons.1 hmem
    · exact le_refl _
    · exact List.rel_of_pairwise_cons (List.pairwise_append.1 hsorted).2.1 hmem

theorem loadCA_eq_ok_iff {ca : BundleCA Key} :
    loadCA publicOf publicKey slice basedir name (.key key) (.certificates certs) = .ok ca ↔
      ((slice.sort certs).find? fun cert => publicOf key = publicKey cert) = some ca.primaryCertificate ∧
        ca.privateKey = key ∧ ca.certificates = slice.sort certs := by
  simp only [loadCA, KeyFile.load, BundleFile.load]
  cases ca with
  | mk primaryCertificate privateKey certificates =>
    split
    next cert hcert =>
      rw [hcert]
      simp only [Except.ok.injEq, BundleCA.mk.injEq, Option.some.injEq, eq_comm]
    next hnone => simp [hnone]

/-- The certificate that is chosen is the least of those that fit the key. -/
theorem primaryCertificate_least {ca : BundleCA Key}
    (h : loadCA publicOf publicKey slice basedir name (.key key) (.certificates certs) = .ok ca) :
    ca.primaryCertificate ∈ certs ∧ publicKey ca.primaryCertificate = publicOf key ∧
      ∀ cert ∈ certs, publicKey cert = publicOf key → ca.primaryCertificate ≤ cert := by
  obtain ⟨hfind, -, -⟩ := loadCA_eq_ok_iff.1 h
  have hfits := List.find?_some hfind
  refine ⟨(slice.perm certs).mem_iff.1 (List.mem_of_find?_eq_some hfind), (of_decide_eq_true hfits).symm, ?_⟩
  intro cert hcert hkey
  exact find?_least (slice.sorted_le certs) hfind cert ((slice.perm certs).mem_iff.2 hcert) (decide_eq_true hkey.symm)

theorem loadCA_succeeds_iff :
    (∃ ca, loadCA publicOf publicKey slice basedir name (.key key) (.certificates certs) = .ok ca) ↔
      ∃ cert ∈ certs, publicKey cert = publicOf key := by
  constructor
  · intro h
    obtain ⟨ca, hca⟩ := h
    obtain ⟨hmem, hkey, -⟩ := primaryCertificate_least hca
    exact ⟨ca.primaryCertificate, hmem, hkey⟩
  · intro h
    obtain ⟨cert, hmem, hkey⟩ := h
    have hsome : ((slice.sort certs).find? fun cert => publicOf key = publicKey cert).isSome = true := by
      rw [List.find?_isSome]
      exact ⟨cert, (slice.perm certs).mem_iff.2 hmem, decide_eq_true hkey.symm⟩
    obtain ⟨primary, hprimary⟩ := Option.isSome_iff_exists.1 hsome
    exact ⟨⟨primary, key, slice.sort certs⟩, loadCA_eq_ok_iff.2 ⟨hprimary, rfl, rfl⟩⟩

end Order

/-- Two nodes with the same certificates in any order and the same key load the same authority, or neither does, and
write the same bundle. There is one if a certificate fits the key, and the least that does is the one it signs with. -/
theorem loadCA_order_independent {Key Pub : Type} [DecidableEq Pub] (publicOf : Key → Pub) (publicKey : Raw → Pub)
    (slice slice' : SliceSort) (basedir name : String) (key : Key) (certs certs' : List Raw) (hperm : certs.Perm certs') :
    ((∃ ca, loadCA publicOf publicKey slice basedir name (.key key) (.certificates certs) = .ok ca) ↔
      ∃ cert ∈ certs, publicKey cert = publicOf key) ∧
    (∀ ca, loadCA publicOf publicKey slice basedir name (.key key) (.certificates certs) = .ok ca →
      (ca.primaryCertificate ∈ certs ∧ publicKey ca.primaryCertificate = publicOf key ∧
        ∀ cert ∈ certs, publicKey cert = publicOf key → ca.primaryCertificate ≤ cert) ∧
      ca.certificates.Perm certs ∧ ca.certificates.Pairwise (· ≤ ·)) ∧
    loadCA publicOf publicKey slice basedir name (.key key) (.certificates certs) =
      loadCA publicOf publicKey slice' basedir name (.key key) (.certificates certs') ∧
    ∀ ca ca' dir dir' tr tr', loadCA publicOf publicKey slice basedir name (.key key) (.certificates certs) = .ok ca →
      loadCA publicOf publicKey slice' basedir name (.key key) (.certificates certs') = .ok ca' →
      Runs (writeCABundle dir ca) tr (.ret none) → Runs (writeCABundle dir' ca') tr' (.ret none) →
      written tr = written tr' := by
  refine ⟨loadCA_succeeds_iff, ?_, ?_, ?_⟩
  · intro ca hca
    refine ⟨primaryCertificate_least hca, ?_⟩
    rw [(loadCA_eq_ok_iff.1 hca).2.2]
    exact ⟨slice.perm certs, slice.sorted_le certs⟩
  · simp only [loadCA, KeyFile.load, BundleFile.load, @SliceSort.sort_eq slice slice' certs certs' hperm]
  · intro ca ca' dir dir' tr tr' hca hca' hrun hrun'
    rw [written_writeCABundle hrun, written_writeCABundle hrun', (loadCA_eq_ok_iff.1 hca).2.2,
      (loadCA_eq_ok_iff.1 hca').2.2]
    exact SliceSort.sort_eq hperm

/-- A sort to try it with. -/
def insertionSlice : SliceSort where
  sort := fun certs => certs.insertionSort (· ≤ ·)
  perm := fun certs => List.perm_insertionSort _ certs
  sorted := fun certs => (List.pairwise_insertionSort (· ≤ ·) certs).imp fun h => not_lt.2 h

/-- Two certificates for the key and one for another, in two orders. -/
theorem loadCA_rotation :
    loadCA (fun _ : Unit => true) (fun raw => raw.length = 2) insertionSlice "/pki" "ca" (.key ())
        (.certificates [[7, 1], [3, 0], [5]]) =
      loadCA (fun _ : Unit => true) (fun raw => raw.length = 2) insertionSlice "/pki" "ca" (.key ())
        (.certificates [[5], [3, 0], [7, 1]]) :=
  (loadCA_order_independent _ _ insertionSlice insertionSlice "/pki" "ca" () _ _ (by decide)).2.2.1

end Etcdadm.Pki
