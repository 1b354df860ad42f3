/-
What is in place when `etcdadm` starts etcd.

`init` and `join` come to the start in different orders of their phases, and a phase may
undo what another did: the data directory is removed, an archive is unpacked, files are
written over. As long as no place of the installation lies inside of another, none of them
does. So the start finds the binaries, the unit and its environment as they were rendered
from the configuration, and the certificates this environment names.

A phase says which places it writes to, and keeps everything else that is there (`Keeps`).
Only what `InstallFromCache` unpacks it to is a place nobody named: it is new, so it is at
or above nothing that is there.
-/
import Etcdadm.SafeSetup

namespace Etcdadm.Adm

/-! ## What a request leaves alone -/

section Keeps

variable {Key Pub : Type} {s : Site Key Pub} {root root' : VfsPath → Prop} {h h' h'' : Host} {r : HostReq Key Pub} {x : r.Resp}

/-- The unit stays inactive, and what is not at or below one of the places stays there. -/
structure Keeps (root : VfsPath → Prop) (h h' : Host) : Prop where
  unit : h'.unit = .inactive
  clock : h.clock ≤ h'.clock
  disk : ∀ p, (∀ w, root w → ¬ w <+: p) → h.disk p ≠ none → h'.disk p = h.disk p

namespace Keeps

theorem refl (hunit : h.unit = .inactive) : Keeps root h h := ⟨hunit, le_rfl, fun _ _ _ => rfl⟩

theorem trans (hkeeps : Keeps root h h') (hkeeps' : Keeps root h' h'') : Keeps root h h'' := by
  refine ⟨hkeeps'.unit, hkeeps.clock.trans hkeeps'.clock, fun p hp hsome => ?_⟩
  have hdisk := hkeeps.disk p hp hsome
  rw [hkeeps'.disk p hp (hdisk ▸ hsome), hdisk]

theorem mono (hkeeps : Keeps root h h') (hroot : ∀ w, root w → root' w) : Keeps root' h h' :=
  ⟨hkeeps.unit, hkeeps.clock, fun p hp => hkeeps.disk p fun w hw => hp w (hroot w hw)⟩

end Keeps

theorem Effect.keeps_path {p : VfsPath} (hr : Confined root root r) (heffect : Effect s h r x h')
    (hp : ∀ w, root w → ¬ w <+: p) (hsome : h.disk p ≠ none) : h'.disk p = h.disk p := by
  have hset {d : Disk} {w : VfsPath} {n : Inode} (hw : root w) : d.set w n p = d p :=
    Disk.set_ne fun heq => hp w hw (heq ▸ List.prefix_refl _)
  -- a directory that is made above a file is none
  have hmkdirs {q : VfsPath} (hclear : h.disk.Clear q) : h.disk.mkdirs q p = h.disk p := by
    by_cases hq : p <+: q
    · rw [Disk.mkdirs_above hq]
      cases hdisk : h.disk p with
      | none => exact absurd hdisk hsome
      | some n =>
        cases n with
        | file data => exact absurd hdisk (hclear p hq data)
        | dir => rfl
    · exact Disk.mkdirs_elsewhere hq
  cases heffect with
  | made hclear => exact hmkdirs hclear
  | makeStopped _ hclear => exact hmkdirs hclear
  | created => exact hset hr
  | written => exact hset hr
  | writeStopped => exact hset hr
  | removed =>
    have hne : p ≠ _ := fun heq => hp _ hr (heq ▸ List.prefix_refl _)
    exact Function.update_of_ne hne _ _
  | removedAll => exact Disk.cleared_elsewhere (hp _ hr)
  | removeAllStopped hd' => exact (hd' p).resolve_right fun hbelow => hp _ hr hbelow.1
  | @tempDir q hfresh =>
    have hne : p ≠ q := fun heq => hsome (hfresh p (heq ▸ List.prefix_refl _))
    exact Disk.set_ne hne
  | curl hwithin => exact hwithin p (hp _ hr)
  | tar hwithin => exact hwithin p (hp _ hr)
  | copied => exact hset hr
  | copyFailed hwithin => exact hwithin p (hp _ hr)
  | restoreSnapshot hwithin => exact hwithin p (hp _ hr)
  | _ => rfl

theorem Steady.keeps (hsteady : Steady s h r x h') (hr : Confined root root r) (hunit : h.unit = .inactive) :
    Keeps root h h' := by
  have hunit' := hsteady.1.inactive hr.not_starts hunit
  obtain ⟨h₁, hdrift, heffect⟩ := hsteady.1
  have hdisk := (hdrift.inactive hunit).2
  refine ⟨hunit', hdrift.clock.trans heffect.clock, fun p hp hsome => ?_⟩
  rw [heffect.keeps_path hr hp (hdisk ▸ hsome), hdisk]

end Keeps

/-! ## What the parts of the commands leave -/

section Parts

variable {Key Pub : Type} {s : Site Key Pub} {must : Host → HostReq Key Pub → Prop} {root : VfsPath → Prop}
  {cfg : EtcdAdmConfig} {h : Host}

def nowhere : VfsPath → Prop := fun _ => False

/-- What is kept everywhere is kept there. -/
theorem Keeps.there {h' : Host} {p : VfsPath} (hkeeps : Keeps nowhere h h') (hp : h.disk p ≠ none) : h'.disk p ≠ none := by
  rw [hkeeps.disk p (fun _ hw => absurd hw id) hp]
  exact hp

/-- Both tools are in the directory. -/
structure Installed (installDir : VfsPath) (d : Disk) : Prop where
  etcd : d (installDir ++ ["etcd"]) ≠ none
  etcdctl : d (installDir ++ ["etcdctl"]) ≠ none

/-- Where the tools are put. -/
def Tools (installDir w : VfsPath) : Prop := w = installDir ++ ["etcd"] ∨ w = installDir ++ ["etcdctl"]

/-- The files of the unit. -/
structure Configured (cfg : EtcdAdmConfig) (d : Disk) : Prop where
  environmentFile : d cfg.environmentFile = some (.file (Environment.buildEnvironment cfg.environment))
  unitFile : d cfg.unitFile = some (.file (unitFileText cfg))

variable (hmust : ∀ h r, ¬ Starts r → must h r) (hunit : h.unit = .inactive)

include hmust hunit

variable [DecidableEq Pub] {pem : Pem Key Pub} {names : Names} {t : Int}

end Parts

/-! ## The installation -/

/-- The places that `init` and `join` write to before the start. -/
def places (flags : EtcdAdmConfig) : List VfsPath :=
  [flags.certificatesDir, flags.dataDir, flags.environmentFile, flags.unitFile, flags.installDir ++ ["etcd"],
    flags.installDir ++ ["etcdctl"], archiveFile flags]

/-- None is inside of another. -/
def Layout (flags : EtcdAdmConfig) : Prop := (places flags).Pairwise fun p q => ¬ p <+: q ∧ ¬ q <+: p

instance {flags : EtcdAdmConfig} : Decidable (Layout flags) := inferInstanceAs (Decidable (List.Pairwise _ _))

/-- What etcd is started over. -/
structure InPlace {Key Pub : Type} [DecidableEq Pub] (s : Site Key Pub) (pem : Pem Key Pub) (names : Names) (flags : EtcdAdmConfig)
    (t : Int) (h : Host) (cfg : EtcdAdmConfig) : Prop where
  located : Located flags cfg
  unit : h.unit = .inactive
  installed : Installed cfg.installDir h.disk
  pairs : ∀ b, Settled s pem names cfg t h.disk b
  configured : Configured cfg h.disk

section Installation

variable {Key Pub : Type} {s : Site Key Pub} {flags cfg : EtcdAdmConfig} {root : VfsPath → Prop} {h h' : Host} {p w : VfsPath}
  {f : String}

namespace Layout

theorem outside (hlayout : Layout flags) (hw : w ∈ (places flags).tail) :
    ¬ w <+: flags.certificatesDir ++ [f] ∧ ¬ flags.certificatesDir ++ [f] <+: w := by
  have happart := (List.pairwise_cons.1 hlayout).1 w hw
  refine ⟨fun hprefix => ?_, fun hprefix => happart.1 ((List.prefix_append _ _).trans hprefix)⟩
  rcases List.prefix_concat_iff.1 hprefix with heq | hprefix
  · exact happart.1 (heq ▸ List.prefix_append _ _)
  · exact happart.2 hprefix

end Layout

theorem Keeps.installed {installDir : VfsPath} (hkeeps : Keeps root h h') (hroot : ∀ w, root w → ∀ p, Tools installDir p → ¬ w <+: p)
    (hinstalled : Installed installDir h.disk) : Installed installDir h'.disk := by
  have hkept {p : VfsPath} (hp : Tools installDir p) (hsome : h.disk p ≠ none) : h'.disk p ≠ none := by
    rw [hkeeps.disk p (fun w hw => hroot w hw p hp) hsome]
    exact hsome
  exact ⟨hkept (.inl rfl) hinstalled.etcd, hkept (.inr rfl) hinstalled.etcdctl⟩

variable [DecidableEq Pub] {pem : Pem Key Pub} {names : Names} {t : Int}

theorem Keeps.pairs (hkeeps : Keeps root h h') (hroot : ∀ w, root w → ∀ f, ¬ w <+: cfg.certificatesDir ++ [f])
    (hpairs : ∀ b, Settled s pem names cfg t h.disk b) : ∀ b, Settled s pem names cfg t h'.disk b := by
  have hsame : Grows s pem cfg.certificatesDir h.disk h'.disk := fun b =>
    .inl ⟨hkeeps.disk _ (fun w hw => hroot w hw _) (hpairs b).both_files.1,
      hkeeps.disk _ (fun w hw => hroot w hw _) (hpairs b).both_files.2⟩
  exact fun b => (hpairs b).grows hsame

theorem Configured.keeps {cfg : EtcdAdmConfig} (hconfigured : Configured cfg h.disk) (hkeeps : Keeps nowhere h h') :
    Configured cfg h'.disk := by
  have hkept {p : VfsPath} {n : Inode} (hp : h.disk p = some n) : h'.disk p = some n := by
    rw [hkeeps.disk p (fun _ hw => absurd hw id) (by simp [hp]), hp]
  exact ⟨hkept hconfigured.environmentFile, hkept hconfigured.unitFile⟩

theorem InPlace.keeps (hinPlace : InPlace s pem names flags t h cfg) (hkeeps : Keeps nowhere h h') :
    InPlace s pem names flags t h' cfg :=
  ⟨hinPlace.located, hkeeps.unit, hkeeps.installed (fun _ hw => absurd hw id) hinPlace.installed,
    hkeeps.pairs (fun _ hw => absurd hw id) hinPlace.pairs, hinPlace.configured.keeps hkeeps⟩

end Installation

/-! ## Up to the start -/

section Start

variable {Key Pub : Type} [DecidableEq Pub] {s : Site Key Pub} {pem : Pem Key Pub} {names : Names} {flags cfg : EtcdAdmConfig}
  {C : EtcdAdmConfig → Prop} {t : Int} {h : Host}

/-- A stage on the way to the start. -/
structure Stage (flags : EtcdAdmConfig) (C : EtcdAdmConfig → Prop) (t : Int) (P : EtcdAdmConfig → Disk → Prop) (h : Host)
    (cfg : EtcdAdmConfig) : Prop where
  chosen : C cfg
  located : Located flags cfg
  unit : h.unit = .inactive
  clock : t ≤ h.clock
  fact : P cfg h.disk

theorem Stage.next {P P' : EtcdAdmConfig → Disk → Prop} {root : VfsPath → Prop} {h' : Host} (hstage : Stage flags C t P h cfg)
    (hkeeps : Keeps root h h') (hfact : P' cfg h'.disk) : Stage flags C t P' h' cfg :=
  ⟨hstage.chosen, hstage.located, hkeeps.unit, hstage.clock.trans hkeeps.clock, hfact⟩

section Commands

variable (hlayout : Layout flags) (hapart : Apart s flags.certificatesDir)

omit [DecidableEq Pub] in
/-- The clock does not go back. -/
theorem Steady.clock (h h' : Host) (r : HostReq Key Pub) (x : r.Resp) (hsteady : Steady s h r x h') (ht : t ≤ h.clock) :
    t ≤ h'.clock := by
  obtain ⟨h₁, hdrift, heffect⟩ := hsteady.1
  exact ht.trans (hdrift.clock.trans heffect.clock)

include hlayout

omit [DecidableEq Pub] in
theorem Located.outside (hlocated : Located flags cfg) {w : VfsPath} (hw : w ∈ (places flags).tail) (f : String) :
    ¬ w <+: cfg.certificatesDir ++ [f] := by
  rw [hlocated.certificatesDir]
  exact (hlayout.outside hw).1

include hapart

end Commands

end Start

namespace Example

end Example

end Etcdadm.Adm
