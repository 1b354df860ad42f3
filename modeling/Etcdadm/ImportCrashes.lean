/-
What a crash may cost while legacy data is imported.

An uninterrupted start that imports has found what `Found` says. From there a
start goes through four kinds of disk: part of the data is copied (`Copying`),
then the legacy directory is in the trashcan and there is no state file, then
an empty one, then a whole one. A start on a disk of the first kind or the last
ends well. On the two in between it does not, and leaves them as they are.
-/
import Etcdadm.LegacyImport
import Etcdadm.Serial

namespace Etcdadm.LegacyImport

open Semver (trimSpace)
open Disk

/-! ## Finding the manifest -/

/-- The manifest is not there, or blank. -/
def Skips (d : Disk) (p : VfsPath) : Prop :=
  (d p = none ∧ d.Clear p) ∨ ∃ b, d p = some (.file b) ∧ trimSpace b.toList = []

/-- Of the keys, `k` is the first with a manifest that is not blank. -/
inductive Picks (d : Disk) (baseDir : VfsPath) : List Key → Key → String → Prop
  | here {k ks b} : d (k.manifest baseDir) = some (.file b) → trimSpace b.toList ≠ [] → Picks d baseDir (k :: ks) k b
  | later {k k' ks b} : Skips d (k'.manifest baseDir) → Picks d baseDir ks k b → Picks d baseDir (k' :: ks) k b

section Picks

variable {formats : Formats} {fuel : Nat} {baseDir : VfsPath} {d d' : Disk} {k : Key} {b etcdVersion : String}
  {cluster : EtcdCluster}

theorem does_importKeys {state : EtcdState} : ∀ {ks : List Key},
    Prog.Does Answers d (importKeys formats fuel baseDir ks) (.ok (some state)) d' →
    ∃ k b etcdVersion cluster, Picks d baseDir ks k b ∧
      parseManifest formats k (k.manifest baseDir) b = .ok (etcdVersion, cluster) ∧
      Prog.Does Answers d (adopt fuel baseDir k etcdVersion cluster) (.ok (some state)) d'
  | [], h => by simp [importKeys] at h
  | k :: ks, h => by
    have hlater (hskip : Skips d (k.manifest baseDir))
        (h : Prog.Does Answers d (importKeys formats fuel baseDir ks) (.ok (some state)) d') :
        ∃ k' b etcdVersion cluster, Picks d baseDir (k :: ks) k' b ∧
          parseManifest formats k' (k'.manifest baseDir) b = .ok (etcdVersion, cluster) ∧
          Prog.Does Answers d (adopt fuel baseDir k' etcdVersion cluster) (.ok (some state)) d' := by
      obtain ⟨k', b, etcdVersion, cluster, hpick, hrest⟩ := does_importKeys h
      exact ⟨k', b, etcdVersion, cluster, .later hskip hpick, hrest⟩
    obtain ⟨x, d₁, hread, h⟩ := does_disk.1 h
    cases hread with
    | readMissing hnone hclear => exact hlater (.inl ⟨hnone, hclear⟩) h
    | readFailed => simp at h
    | @read _ b hb =>
      by_cases hblank : trimSpace b.toList = []
      · simp only [hblank, if_true] at h
        exact hlater (.inr ⟨b, hb, hblank⟩) h
      · simp only [hblank, if_false] at h
        cases hparse : parseManifest formats k (k.manifest baseDir) b with
        | error err => simp [hparse] at h
        | ok r =>
          simp only [hparse] at h
          exact ⟨k, b, r.1, r.2, .here hb hblank, hparse, h⟩

theorem surely_importKeys {I : Disk → Prop} {Q : Disk → Except Error (Option EtcdState) → Prop} {ks : List Key}
    (hpick : Picks d baseDir ks k b) (hparse : parseManifest formats k (k.manifest baseDir) b = .ok (etcdVersion, cluster))
    (hI : I d) (h : (adopt fuel baseDir k etcdVersion cluster).Surely Answers I Q d) :
    (importKeys formats fuel baseDir ks).Surely Answers I Q d := by
  induction hpick with
  | here hb hblank =>
    refine surely_only (only_readFile hb) hI ?_
    simpa only [hblank, if_false, hparse] using h
  | later hskip _ ih =>
    rcases hskip with ⟨hnone, hclear⟩ | ⟨b', hb, hblank⟩
    · exact surely_only (only_readMissing hnone hclear) hI (ih hparse h)
    · refine surely_only (only_readFile hb) hI ?_
      simpa only [hblank, if_true] using ih hparse h

/-- The manifests are found where the directory they are in is as it was. -/
theorem Picks.congr {ks : List Key} (hpick : Picks d baseDir ks k b)
    (hsame : ∀ t, d' (baseDir ++ "k8s.io" :: t) = d (baseDir ++ "k8s.io" :: t)) (hclear : d'.Clear baseDir) :
    Picks d' baseDir ks k b := by
  induction hpick with
  | here hb hblank => exact .here ((hsame _).trans hb) hblank
  | @later k _ _ _ hskip _ ih =>
    refine .later ?_ ih
    rcases hskip with ⟨hnone, habove⟩ | ⟨b', hb, hblank⟩
    · refine .inl ⟨(hsame _).trans hnone, fun q hq data => ?_⟩
      rcases prefix_append_cases hq with hq | ⟨t, ht, rfl⟩
      · exact hclear q hq data
      · match t with
        | [] => simpa using hclear baseDir (List.prefix_refl _) data
        | e :: t =>
          obtain ⟨rfl, -⟩ := List.cons_prefix_cons.1 ht
          rw [hsame]
          exact habove _ ((List.prefix_append_right_inj baseDir).2 ht) data
    · exact .inr ⟨b', (hsame _).trans hb, hblank⟩

end Picks

/-! ## The token -/

/-- A token leads to one place below each of the two directories, or out of both. -/
theorem join_cases (baseDir : VfsPath) (token : String) :
    (∃ t, dataDir baseDir token = baseDir ++ "data" :: t ∧ trashDir baseDir token = baseDir ++ "data-trashcan" :: t) ∨
      dataDir baseDir token = trashDir baseDir token := by
  have hpush (es : List String) : ∀ p q : VfsPath,
      ((∃ t, p = baseDir ++ "data" :: t ∧ q = baseDir ++ "data-trashcan" :: t) ∨ p = q) →
      (∃ t, es.foldl VfsPath.push p = baseDir ++ "data" :: t ∧
        es.foldl VfsPath.push q = baseDir ++ "data-trashcan" :: t) ∨ es.foldl VfsPath.push p = es.foldl VfsPath.push q := by
    induction es with
    | nil => exact fun p q h => h
    | cons e es ih =>
      intro p q h
      refine ih _ _ ?_
      rcases h with ⟨t, rfl, rfl⟩ | rfl
      · simp only [VfsPath.push]
        by_cases hstay : e = "" ∨ e = "."
        · simp only [if_pos hstay]
          exact .inl ⟨t, rfl, rfl⟩
        · by_cases hup : e = ".."
          · simp only [if_neg hstay, if_pos hup]
            by_cases ht : t = []
            · subst ht
              simp
            · refine .inl ⟨t.dropLast, ?_, ?_⟩ <;> rw [List.dropLast_append_cons, List.dropLast_cons_of_ne_nil ht]
          · simp only [if_neg hstay, if_neg hup]
            exact .inl ⟨t ++ [e], by simp, by simp⟩
      · exact .inr rfl
  exact hpush _ _ _ (.inl ⟨[], rfl, rfl⟩)

/-! ## The start -/

theorem newEtcdServer_eq (formats : Formats) (fuel : Nat) (baseDir : VfsPath) (s : EtcdServer) :
    newEtcdServer formats fuel baseDir s = (do
      match ← readState formats baseDir with
      | .error err => return .error err
      | .ok (some state) => return .ok { s.config with state := some state }
      | .ok none =>
        match ← importExistingEtcd formats fuel baseDir with
        | .error err => return .error err
        | .ok none => return .ok s.config
        | .ok (some state) =>
          match ← writeState formats baseDir state with
          | .error (err, _) => return .error err
          | .ok () => return .ok { s.config with state := some state }) := by
  unfold newEtcdServer EtcdServer.newEtcdServer EtcdServer.initState
  simp only [EtcdServer.config]
  show (readState formats baseDir >>= _) = _
  congr 1
  funext x
  match x with
  | .error err => rfl
  | .ok (some state) => rfl
  | .ok none =>
    show (importExistingEtcd formats fuel baseDir >>= _) = _
    congr 1
    funext y
    match y with
    | .error err => rfl
    | .ok none => rfl
    | .ok (some state) =>
      show (writeState formats baseDir state >>= _) = _
      congr 1
      funext z
      match z with
      | .error (err, _) => rfl
      | .ok () => rfl

/-! ## What a start that imports has found -/

/-- What is known of the protobuf package: no bytes are the empty message, and
what is marshalled is read back. -/
structure Formats.Lawful (formats : Formats) : Prop where
  empty : formats.unmarshal "" = .ok .empty
  back : ∀ state bytes, formats.marshal state = .ok bytes → formats.unmarshal bytes = .ok state

/-- What there is to import: with the key `k`, the version and the cluster of
its manifest, and `t` for the token. -/
structure Found (formats : Formats) (fuel : Nat) (baseDir : VfsPath) (d₀ : Disk) (k : Key) (etcdVersion : String)
    (cluster : EtcdCluster) (t : VfsPath) (bytes : String) : Prop where
  noState : d₀ (statePath baseDir) = none
  manifest : ∃ b, Picks d₀ baseDir etcdKeys k b ∧
    parseManifest formats k (k.manifest baseDir) b = .ok (etcdVersion, cluster)
  data : dataDir baseDir cluster.clusterToken = baseDir ++ "data" :: t
  trash : trashDir baseDir cluster.clusterToken = baseDir ++ "data-trashcan" :: t
  token : t ≠ []
  room : Room d₀ (k.legacyDir baseDir) (baseDir ++ "data" :: t) (trashcanDir baseDir)
  tree : Tree d₀ fuel (k.legacyDir baseDir)
  trashcan : ∀ data, d₀ (trashcanDir baseDir) ≠ some (.file data)
  parent : t.dropLast = [] ∨ d₀ (baseDir ++ "data-trashcan" :: t.dropLast) = some .dir
  unused : d₀ (baseDir ++ "data-trashcan" :: t) = none
  marshal : formats.marshal (adoptedState etcdVersion cluster) = .ok bytes

section Found

variable {formats : Formats} {fuel : Nat} {baseDir t : VfsPath} {d₀ d d' : Disk} {k : Key} {etcdVersion bytes : String}
  {cluster : EtcdCluster}

theorem legacyDir_eq (baseDir : VfsPath) (k : Key) : ∃ u, k.legacyDir baseDir = baseDir ++ "var" :: u := by
  cases k
  · exact ⟨_, rfl⟩
  · exact ⟨_, rfl⟩

/-- Two ways from the base directory that part at once. -/
theorem parted {e e' : String} (h : e ≠ e') {u u' : VfsPath} : ¬ baseDir ++ e :: u <+: baseDir ++ e' :: u' := by
  rw [List.prefix_append_right_inj, List.cons_prefix_cons]
  exact fun heq => h heq.1

theorem apart_of_closed (hclosed : d₀.Closed) :
    Apart d₀ (k.legacyDir baseDir) (baseDir ++ "data" :: t) (trashcanDir baseDir) := by
  obtain ⟨u, hu⟩ := legacyDir_eq baseDir k
  refine ⟨hclosed, fun r => ?_, parted (by decide)⟩
  rw [hu, List.append_assoc, List.cons_append]
  exact ⟨parted (by decide), parted (by decide), by simp [trashcanDir]⟩

/-- The ways to the two directories part at the base directory. -/
theorem above_trashcan {q : VfsPath} (h : q <+: trashcanDir baseDir) :
    q <+: baseDir ++ "data" :: t ∨ q = trashcanDir baseDir := by
  rcases List.prefix_concat_iff.1 h with rfl | h
  · exact .inr rfl
  · exact .inl (h.trans (List.prefix_append _ _))

/-- A request that moves nothing. -/
def Stays (r : DiskReq) : Prop := ∀ oldpath newpath, r ≠ .rename oldpath newpath

/-- Only a move turns a directory into something else. -/
theorem keeps_dir {r : DiskReq} {x : r.Resp} {q : VfsPath} (hr : Stays r) (h : d.Answers r x d')
    (hq : d q = some .dir) : d' q = some .dir := by
  cases h with
  | @made p =>
    by_cases hpre : q <+: p
    · exact mkdirs_above hpre
    · rw [mkdirs_elsewhere hpre, hq]
  | @created p hcan =>
    have hne : q ≠ p := fun heq => hcan.1 (heq ▸ hq)
    rw [set_ne hne, hq]
  | @written p data more hfile =>
    have hne : q ≠ p := by
      rintro rfl
      simp [hq] at hfile
    rw [set_ne hne, hq]
  | renamed => exact absurd rfl (hr _ _)
  | _ => exact hq

theorem writeChunks_uses (p : VfsPath) : ∀ chunks, (writeChunks p chunks).Uses Stays True
  | [] => trivial
  | chunk :: chunks => by
    refine ⟨by simp [Stays], fun x => ?_⟩
    cases x with
    | error => trivial
    | ok => exact writeChunks_uses p chunks

theorem copyFile_uses (srcfile destfile : VfsPath) :
    (copyFile srcfile destfile).Uses Stays True := by
  refine ⟨by simp [Stays], fun x => ?_⟩
  cases x with
  | error => trivial
  | ok chunks =>
    refine ⟨by simp [Stays], fun x => ?_⟩
    cases x with
    | error => trivial
    | ok => exact writeChunks_uses destfile chunks

theorem copyEntries_uses {copyDir : VfsPath → VfsPath → DiskM (Except Error Unit)} (src dest : VfsPath)
    (hcopy : ∀ src dest, (copyDir src dest).Uses Stays True) :
    ∀ l, (copyEntries copyDir src dest l).Uses Stays True
  | [] => trivial
  | (name, true) :: l => (hcopy _ _).bind fun x => by
    cases x with
    | error => trivial
    | ok => exact copyEntries_uses src dest hcopy l
  | (name, false) :: l => (copyFile_uses _ _).bind fun x => by
    cases x with
    | error => trivial
    | ok => exact copyEntries_uses src dest hcopy l

theorem copyDir_uses : ∀ n src dest, (copyDir n src dest).Uses Stays True
  | 0, _, _ => trivial
  | n + 1, src, dest => by
    refine ⟨by simp [Stays], fun x => ?_⟩
    cases x with
    | error => trivial
    | ok =>
      refine ⟨by simp [Stays], fun x => ?_⟩
      cases x with
      | error => trivial
      | ok l => exact copyEntries_uses src dest (copyDir_uses n) l

/-- Whatever is copied where, the place it was copied to is a directory. -/
theorem does_copyDir_dest {src dest : VfsPath} :
    ∀ {n : Nat}, Prog.Does Answers d (copyDir n src dest) (.ok ()) d' → d' dest = some .dir
  | 0, h => by simp [copyDir] at h
  | n + 1, h => by
    obtain ⟨x, d₁, hmake, h⟩ := does_disk.1 h
    cases hmake with
    | makeFailed => simp at h
    | made =>
      obtain ⟨x, d₂, hread, h⟩ := does_disk.1 h
      cases hread with
      | listFailed => simp at h
      | listed =>
        exact h.keeps (copyEntries_uses src dest (copyDir_uses n) _) (fun _ _ _ _ hr hanswer => keeps_dir hr hanswer)
          (mkdirs_above (List.prefix_refl _))

/-- An import that went through had found something. -/
theorem does_adopt {state : EtcdState} (hclosed : d₀.Closed) (hnone : d₀ (statePath baseDir) = none) {b : String}
    (hpick : Picks d₀ baseDir etcdKeys k b)
    (hparse : parseManifest formats k (k.manifest baseDir) b = .ok (etcdVersion, cluster))
    (h : Prog.Does Answers d₀ (adopt fuel baseDir k etcdVersion cluster) (.ok (some state)) d')
    (hmarshal : formats.marshal state = .ok bytes) :
    ∃ t, Found formats fuel baseDir d₀ k etcdVersion cluster t bytes := by
  obtain ⟨x, d₁, hcopy, h⟩ := Prog.does_bind.1 h
  cases x with
  | error => simp at h
  | ok =>
    obtain ⟨x, d₂, hmake, h⟩ := does_disk.1 h
    cases hmake with
    | makeFailed => simp at h
    | made hclear =>
      obtain ⟨x, d₃, hrename, h⟩ := does_disk.1 h
      cases hrename with
      | renameFailed => simp at h
      | renamed hcan =>
        obtain ⟨rfl⟩ : state = adoptedState etcdVersion cluster := by simpa using (Prog.does_ret.1 h).1
        obtain ⟨hsrc, hparent, -, hfree⟩ := hcan
        rcases join_cases baseDir cluster.clusterToken with ⟨t, hdata, htrash⟩ | heq
        · rw [hdata] at hcopy
          rw [htrash] at hparent hfree
          have apart : Apart d₀ (k.legacyDir baseDir) (baseDir ++ "data" :: t) (trashcanDir baseDir) :=
            apart_of_closed hclosed
          obtain ⟨h₁, htree, hclear₀, halike⟩ := does_copyDir apart fuel [] d₀ d₁ .refl (by simpa using hcopy)
          have h₂ := h₁.mkdirs_extra apart (fun _ => above_trashcan) hclear
          rw [List.append_nil] at htree
          have ht : t ≠ [] := by
            rintro rfl
            have hdir : d₁.mkdirs (trashcanDir baseDir) (baseDir ++ ["data-trashcan"]) = some .dir :=
              mkdirs_above (List.prefix_refl _)
            simp [hdir] at hfree
          have hsame {u : VfsPath} (hu : u ≠ []) : d₁.mkdirs (trashcanDir baseDir) (baseDir ++ "data-trashcan" :: u) =
              d₀ (baseDir ++ "data-trashcan" :: u) :=
            h₂.outside _ (parted (by decide)) (parted (by decide)) (by simpa [trashcanDir] using hu)
          refine ⟨t, hnone, ⟨b, hpick, hparse⟩, hdata, htrash, ht, ⟨apart, hclear₀, fun u m n hm => ?_⟩, htree,
            ?_, ?_, ?_, hmarshal⟩
          · exact halike u List.nil_prefix (by simp [hm]) m n hm
          · exact (h₁.above_clear (.inr rfl)).1 (hclear _ (List.prefix_refl _))
          · by_cases hone : t.dropLast = []
            · exact .inl hone
            · rw [List.dropLast_append_cons, List.dropLast_cons_of_ne_nil ht, hsame hone] at hparent
              exact .inr hparent
          · rcases hfree with hfree | ⟨data, -, hfile, -⟩
            · rwa [hsame ht] at hfree
            · have hdir := h₂.source apart []
              rw [List.append_nil, hfile, htree.dir] at hdir
              cases hdir
        · -- the token leads out of both directories, to one place: it is a directory by now
          have hdir : d₁.mkdirs (trashcanDir baseDir) (trashDir baseDir cluster.clusterToken) = some .dir := by
            rw [← heq]
            exact keeps_dir (r := .mkdirAll (trashcanDir baseDir)) (by simp [Stays]) (.made hclear) (does_copyDir_dest hcopy)
          simp [hdir] at hfree

/-! ## The start, stage by stage -/

/-- The disk when the copy is complete and the legacy directory is in the trashcan. -/
def moved (baseDir : VfsPath) (d₀ : Disk) (k : Key) (t : VfsPath) : Disk :=
  (merged d₀ (k.legacyDir baseDir) (baseDir ++ "data" :: t) (trashcanDir baseDir)).move (k.legacyDir baseDir)
    (baseDir ++ "data-trashcan" :: t)

/-- The legacy directory is in the trashcan, and there is no state file or an empty one. -/
def Stuck (baseDir : VfsPath) (d₀ : Disk) (k : Key) (t : VfsPath) (d : Disk) : Prop :=
  d = moved baseDir d₀ k t ∨ d = (moved baseDir d₀ k t).set (statePath baseDir) (.file "")

/-- The state file is whole. -/
def done (baseDir : VfsPath) (d₀ : Disk) (k : Key) (t : VfsPath) (bytes : String) : Disk :=
  (moved baseDir d₀ k t).set (statePath baseDir) (.file bytes)

theorem moved_elsewhere {e : String} {u : VfsPath} (hdata : e ≠ "data") (htrash : e ≠ "data-trashcan") (hvar : e ≠ "var") :
    moved baseDir d₀ k t (baseDir ++ e :: u) = d₀ (baseDir ++ e :: u) := by
  obtain ⟨v, hv⟩ := legacyDir_eq baseDir k
  have hlegacy : ¬ k.legacyDir baseDir <+: baseDir ++ e :: u := by
    rw [hv]
    exact parted hvar.symm
  rw [moved, move_of_not (parted htrash.symm) hlegacy,
    merged_outside (parted hdata.symm) (parted hdata) (by simp [trashcanDir, htrash])]

theorem moved_above (hdir : d₀ (k.legacyDir baseDir) = some .dir) {q : VfsPath} (hq : q <+: baseDir ++ "data" :: t) :
    moved baseDir d₀ k t q = some .dir := by
  obtain ⟨v, hv⟩ := legacyDir_eq baseDir k
  have htrash : ¬ baseDir ++ "data-trashcan" :: t <+: q := fun h => parted (by decide) (h.trans hq)
  have hlegacy : ¬ k.legacyDir baseDir <+: q := by
    rw [hv]
    exact fun h => parted (by decide) (h.trans hq)
  rw [moved, move_of_not htrash hlegacy]
  by_cases hbelow : baseDir ++ "data" :: t <+: q
  · obtain rfl := hbelow.eq_of_length_le hq.length_le
    have hself := merged_below d₀ (k.legacyDir baseDir) (baseDir ++ "data" :: t) (trashcanDir baseDir) []
    simpa [hdir] using hself
  · exact merged_above hbelow (.inl hq)

theorem moved_base (hdir : d₀ (k.legacyDir baseDir) = some .dir) {q : VfsPath} (hq : q <+: baseDir) :
    moved baseDir d₀ k t q = some .dir :=
  moved_above hdir (hq.trans (List.prefix_append _ _))

theorem moved_legacy : moved baseDir d₀ k t (k.legacyDir baseDir) = none := by
  obtain ⟨v, hv⟩ := legacyDir_eq baseDir k
  refine move_self ?_
  rw [hv]
  exact parted (by decide)

theorem clear_statePath (hnone : d (statePath baseDir) = none) (hclear : d.Clear baseDir) : d.Clear (statePath baseDir) := by
  intro q hq data
  rcases List.prefix_concat_iff.1 hq with rfl | hq
  · exact hnone ▸ (Option.some_ne_none _).symm
  · exact hclear q hq data

/-- Without a source, a copy to a directory that is there does nothing. -/
theorem surely_copyDir_missing {src dest : VfsPath} (n : Nat) (hsrc : d src ≠ some .dir)
    (hdirs : ∀ q, q <+: dest → d q = some .dir) :
    (copyDir (n + 1) src dest).Surely Answers (· = d) (fun _ x => ∃ err, x = .error err) d := by
  have hmade := mkdirs_eq hdirs
  refine surely_only (only_mkdirAll fun q hq data => by simp [hdirs q hq]) hmade ?_
  rw [hmade]
  exact surely_readDir_missing hsrc rfl fun err => ⟨_, rfl⟩

namespace Found

variable (f : Found formats fuel baseDir d₀ k etcdVersion cluster t bytes)

include f

theorem surely_adopt (h : Copying d₀ (k.legacyDir baseDir) (baseDir ++ "data" :: t) (trashcanDir baseDir) d) :
    (adopt fuel baseDir k etcdVersion cluster).Surely Answers
      (fun e => Copying d₀ (k.legacyDir baseDir) (baseDir ++ "data" :: t) (trashcanDir baseDir) e ∨
        e = moved baseDir d₀ k t)
      (fun e x => x = .ok (some (adoptedState etcdVersion cluster)) ∧ e = moved baseDir d₀ k t) d := by
  have hcopy := surely_copyDir f.room fuel [] d (by simpa using f.tree) h
  rw [List.append_nil, List.append_nil] at hcopy
  simp only [adopt, f.data]
  refine Prog.Surely.bind (hcopy.mono (fun _ => .inl) ?_)
  rintro d₁ x ⟨rfl, h₁, hlands⟩
  have hclear : d₁.Clear (trashcanDir baseDir) := by
    intro q hq
    rcases above_trashcan (t := t) hq with hq | rfl
    · exact (h₁.above_clear (.inl hq)).2 (f.room.clear q hq)
    · exact (h₁.above_clear (.inr rfl)).2 f.trashcan
  have h₂ := h₁.mkdirs_extra f.room.toApart (fun _ => above_trashcan) hclear
  have hmerged := h.merged f.room.toApart (fun _ => above_trashcan) f.tree.dir hlands
  refine surely_only (only_mkdirAll hclear) (.inl h₂) ?_
  rw [hmerged] at h₂ ⊢
  have hcan : (merged d₀ (k.legacyDir baseDir) (baseDir ++ "data" :: t) (trashcanDir baseDir)).CanRename
      (k.legacyDir baseDir) (baseDir ++ "data-trashcan" :: t) := by
    obtain ⟨v, hv⟩ := legacyDir_eq baseDir k
    have hsame {u : VfsPath} (hu : u ≠ []) :
        merged d₀ (k.legacyDir baseDir) (baseDir ++ "data" :: t) (trashcanDir baseDir) (baseDir ++ "data-trashcan" :: u) =
          d₀ (baseDir ++ "data-trashcan" :: u) :=
      merged_outside (parted (by decide)) (parted (by decide)) (by simpa [trashcanDir] using hu)
    refine ⟨?_, ?_, ?_, .inl ((hsame f.token).trans f.unused)⟩
    · have hsrc := h₂.source f.room.toApart []
      rw [List.append_nil, f.tree.dir] at hsrc
      exact hsrc ▸ Option.some_ne_none _
    · rw [List.dropLast_append_cons, List.dropLast_cons_of_ne_nil f.token]
      by_cases hone : t.dropLast = []
      · rw [hone]
        exact merged_above (parted (by decide)) (.inr rfl)
      · rw [hsame hone]
        exact f.parent.resolve_left hone
    · rw [hv]
      exact parted (by decide)
  rw [← f.trash] at hcan
  refine surely_only (only_rename hcan) (.inr ?_) ⟨rfl, ?_⟩ <;> rw [f.trash, moved]

/-- From before the move, the start ends with the import done, and wherever it
is cut it has left one of four kinds of disk. -/
theorem surely_newEtcdServer (s : EtcdServer)
    (h : Copying d₀ (k.legacyDir baseDir) (baseDir ++ "data" :: t) (trashcanDir baseDir) d) :
    (newEtcdServer formats fuel baseDir s).Surely Answers
      (fun e => Copying d₀ (k.legacyDir baseDir) (baseDir ++ "data" :: t) (trashcanDir baseDir) e ∨
        Stuck baseDir d₀ k t e ∨ e = done baseDir d₀ k t bytes)
      (fun e x => x = .ok { s.config with state := some (adoptedState etcdVersion cluster) } ∧
        e = done baseDir d₀ k t bytes) d := by
  have hclear : d.Clear baseDir := fun q hq =>
    (h.above_clear (.inl (hq.trans (List.prefix_append _ _)))).2 (f.room.clear q (hq.trans (List.prefix_append _ _)))
  have hsame {e : String} {u : VfsPath} (he : e ≠ "data") (he' : e ≠ "data-trashcan") :
      d (baseDir ++ e :: u) = d₀ (baseDir ++ e :: u) :=
    h.outside _ (parted he.symm) (parted he) (by simp [trashcanDir, he'])
  have hnone : d (statePath baseDir) = none := (hsame (by decide) (by decide)).trans f.noState
  obtain ⟨b, hpick, hparse⟩ := f.manifest
  rw [newEtcdServer_eq]
  refine Prog.Surely.bind ?_
  refine surely_only (only_readMissing hnone (clear_statePath hnone hclear)) (.inl h) ?_
  refine Prog.Surely.bind ?_
  refine surely_importKeys (hpick.congr (fun _ => hsame (by decide) (by decide)) hclear) hparse (.inl h) ?_
  refine (f.surely_adopt h).mono (fun _ he => he.imp_right fun heq => .inl (.inl heq)) ?_
  rintro d₁ x ⟨rfl, rfl⟩
  -- the move is done: from here on the disk is known
  have hcan : (moved baseDir d₀ k t).CanCreate (statePath baseDir) := by
    refine ⟨?_, ?_⟩
    · rw [statePath, moved_elsewhere (by decide) (by decide) (by decide), ← statePath, f.noState]
      simp
    · rw [statePath, List.dropLast_concat]
      exact moved_base f.tree.dir (List.prefix_refl _)
  refine Prog.Surely.bind ?_
  simp only [writeState, f.marshal]
  refine surely_only (only_create hcan) (.inr (.inl (.inr rfl))) ?_
  refine surely_only (only_write set_self) (.inr (.inr ?_)) ⟨rfl, ?_⟩ <;> rw [set_set, String.empty_append, done]

/-- With the legacy directory in the trashcan and no whole state file, the
start changes nothing and does not return the imported state. -/
theorem surely_stuck (s : EtcdServer) (hformats : formats.Lawful) (hd : Stuck baseDir d₀ k t d) :
    (newEtcdServer formats fuel baseDir s).Surely Answers (· = d)
      (fun _ x => ∀ s', x = .ok s' → s'.state ≠ some (adoptedState etcdVersion cluster)) d := by
  rw [newEtcdServer_eq]
  refine Prog.Surely.bind ?_
  rcases hd with rfl | rfl
  · have hnone : moved baseDir d₀ k t (statePath baseDir) = none :=
      (moved_elsewhere (by decide) (by decide) (by decide)).trans f.noState
    have hclear : (moved baseDir d₀ k t).Clear baseDir := by
      intro q hq data
      simp [moved_base f.tree.dir hq]
    obtain ⟨b, hpick, hparse⟩ := f.manifest
    obtain ⟨n, rfl⟩ : ∃ n, fuel = n + 1 := by
      cases fuel with
      | zero => exact f.tree.elim
      | succ n => exact ⟨n, rfl⟩
    refine surely_only (only_readMissing hnone (clear_statePath hnone hclear)) rfl ?_
    refine Prog.Surely.bind ?_
    refine surely_importKeys (hpick.congr (fun _ => moved_elsewhere (by decide) (by decide) (by decide)) hclear)
      hparse rfl ?_
    simp only [adopt, f.data]
    refine Prog.Surely.bind ((surely_copyDir_missing n (by simp [moved_legacy]) fun _ => moved_above f.tree.dir).mono
      (fun _ h => h) ?_)
    rintro e x ⟨err, rfl⟩
    exact fun s' heq => by cases heq
  · refine surely_only (only_readFile set_self) rfl ?_
    simp only [hformats.empty]
    rintro s' heq
    cases heq
    simp [adoptedState, EtcdState.empty]

theorem surely_done (s : EtcdServer) (hformats : formats.Lawful) :
    (newEtcdServer formats fuel baseDir s).Surely Answers
      (· = done baseDir d₀ k t bytes)
      (fun e x => x = .ok { s.config with state := some (adoptedState etcdVersion cluster) } ∧
        e = done baseDir d₀ k t bytes) (done baseDir d₀ k t bytes) := by
  rw [newEtcdServer_eq]
  refine Prog.Surely.bind ?_
  refine surely_only (only_readFile set_self) rfl ?_
  simp only [hformats.back _ _ f.marshal]
  exact ⟨rfl, rfl⟩

end Found

/-- A start that imports had found something. -/
theorem exists_found {s s₁ : EtcdServer} {d₁ : Disk} (hclosed : d₀.Closed) (hnone : d₀ (statePath baseDir) = none)
    (hrun : Prog.Does Answers d₀ (newEtcdServer formats fuel baseDir s) (.ok s₁) d₁) (himported : s₁.state ≠ none) :
    ∃ k etcdVersion cluster t bytes, Found formats fuel baseDir d₀ k etcdVersion cluster t bytes := by
  rw [newEtcdServer_eq] at hrun
  obtain ⟨x, d, hread, hstart⟩ := Prog.does_bind.1 hrun
  obtain ⟨y, e, hanswer, hread⟩ := does_disk.1 hread
  cases hanswer with
  | read hfile => simp [hnone] at hfile
  | readFailed =>
    obtain ⟨rfl, -⟩ := Prog.does_ret.1 hread
    simp at hstart
  | readMissing =>
    obtain ⟨rfl, rfl⟩ := Prog.does_ret.1 hread
    obtain ⟨x, e, himport, hend⟩ := Prog.does_bind.1 hstart
    match x with
    | .error err => simp at hend
    | .ok none =>
      obtain ⟨heq, -⟩ := Prog.does_ret.1 hend
      cases heq
      exact absurd rfl himported
    | .ok (some state) =>
      obtain ⟨k, b, etcdVersion, cluster, hpick, hparse, hadopt⟩ := does_importKeys himport
      obtain ⟨x, e', hwrite, hreturn⟩ := Prog.does_bind.1 hend
      cases hmarshal : formats.marshal state with
      | error err =>
        simp only [writeState, hmarshal] at hwrite
        obtain ⟨rfl, -⟩ := Prog.does_ret.1 hwrite
        simp at hreturn
      | ok bytes =>
        obtain ⟨t, f⟩ := does_adopt hclosed hnone hpick hparse hadopt hmarshal
        exact ⟨k, etcdVersion, cluster, t, bytes, f⟩

end Found

/-! ## Crashes -/

/-- Starts cut short, one after the other, and the disk each of them left. -/
inductive Crashes {α : Type} (p : DiskM α) : Disk → List Disk → Disk → Prop
  | none {d : Disk} : Crashes p d [] d
  | crash {d d₁ d₂ : Disk} {p' : DiskM α} {left : List Disk} :
      Prog.Goes Answers d p p' d₁ → Crashes p d₁ left d₂ → Crashes p d (d₁ :: left) d₂

section Crashes

variable {α : Type} {p : DiskM α} {good bad : Disk → Prop} {d d' : Disk} {left : List Disk}

theorem Crashes.stays_bad (hbad : ∀ d p' d', bad d → Prog.Goes Answers d p p' d' → bad d') (h : Crashes p d left d')
    (hd : bad d) : bad d' := by
  induction h with
  | none => exact hd
  | crash hgoes _ ih => exact ih (hbad _ _ _ hd hgoes)

/-- All has been good so far, or something bad has happened and has not gone away. -/
theorem Crashes.good_or_bad (hgood : ∀ d p' d', good d → Prog.Goes Answers d p p' d' → good d' ∨ bad d')
    (hbad : ∀ d p' d', bad d → Prog.Goes Answers d p p' d' → bad d') (h : Crashes p d left d') (hd : good d) :
    (good d' ∧ ∀ e ∈ left, good e) ∨ (bad d' ∧ ∃ e ∈ left, bad e) := by
  induction h with
  | none => exact .inl ⟨hd, by simp⟩
  | crash hgoes hrest ih =>
    rcases hgood _ _ _ hd hgoes with hnext | hnext
    · rcases ih hnext with ⟨hend, hall⟩ | ⟨hend, e, he, hlate⟩
      · exact .inl ⟨hend, List.forall_mem_cons.2 ⟨hnext, hall⟩⟩
      · exact .inr ⟨hend, e, List.mem_cons_of_mem _ he, hlate⟩
    · exact .inr ⟨hrest.stays_bad hbad hnext, _, List.mem_cons_self, hnext⟩

end Crashes

/-! ## What a crash may cost -/

/-- The server starts, and however it does, it has the state of `s₁` and the
data directories are those of `d₁`. -/
def Recovers (baseDir : VfsPath) (p : DiskM (Except Error EtcdServer)) (d : Disk) (s₁ : EtcdServer) (d₁ : Disk) : Prop :=
  (∃ x e, Prog.Does Answers d p x e) ∧ ∀ x e, Prog.Does Answers d p x e →
    ∃ s, x = .ok s ∧ s.state = s₁.state ∧ ∀ t, e (baseDir ++ "data" :: t) = d₁ (baseDir ++ "data" :: t)

/-- The legacy directory of `d₀` is no longer in its place, and the state file
not yet the one of `d₁`. -/
def Late (baseDir : VfsPath) (d₀ d₁ d : Disk) : Prop :=
  (∃ k : Key, d₀ (k.legacyDir baseDir) ≠ none ∧ d (k.legacyDir baseDir) = none) ∧
    d (statePath baseDir) ≠ d₁ (statePath baseDir)

section Late

variable {formats : Formats} {fuel : Nat} {baseDir t : VfsPath} {d₀ d : Disk} {k : Key} {etcdVersion bytes : String}
  {cluster : EtcdCluster}

theorem legacyDir_ne_statePath : k.legacyDir baseDir ≠ statePath baseDir := by
  obtain ⟨u, hu⟩ := legacyDir_eq baseDir k
  simp [hu, statePath]

theorem not_late_copying
    (h : Copying d₀ (k.legacyDir baseDir) (baseDir ++ "data" :: t) (trashcanDir baseDir) d) (d₁ : Disk) :
    ¬ Late baseDir d₀ d₁ d := by
  rintro ⟨⟨k', hthere, hgone⟩, -⟩
  obtain ⟨u, hu⟩ := legacyDir_eq baseDir k'
  rw [hu] at hthere hgone
  rw [h.outside _ (parted (by decide)) (parted (by decide)) (by simp [trashcanDir])] at hgone
  exact hthere hgone

theorem Found.late (f : Found formats fuel baseDir d₀ k etcdVersion cluster t bytes) (hformats : formats.Lawful)
    (h : Stuck baseDir d₀ k t d) : Late baseDir d₀ (done baseDir d₀ k t bytes) d := by
  have hbytes : bytes ≠ "" := by
    rintro rfl
    have hback := hformats.back _ _ f.marshal
    simp [hformats.empty, EtcdState.empty, adoptedState] at hback
  refine ⟨⟨k, by simp [f.tree.dir], ?_⟩, ?_⟩
  · rcases h with rfl | rfl
    · exact moved_legacy
    · rw [set_ne legacyDir_ne_statePath, moved_legacy]
  · rw [done, set_self]
    rcases h with rfl | rfl
    · rw [statePath, moved_elsewhere (by decide) (by decide) (by decide), ← statePath, f.noState]
      exact (Option.some_ne_none _).symm
    · simpa [set_self] using hbytes.symm

/-- Stuck once, stuck for ever. -/
theorem Found.stuck_goes (f : Found formats fuel baseDir d₀ k etcdVersion cluster t bytes) (hformats : formats.Lawful)
    {s : EtcdServer} {p' : DiskM (Except Error EtcdServer)} {d' : Disk} (h : Stuck baseDir d₀ k t d)
    (hgoes : Prog.Goes Answers d (newEtcdServer formats fuel baseDir s) p' d') : Stuck baseDir d₀ k t d' :=
  ((f.surely_stuck s hformats h).always.goes hgoes rfl).1 ▸ h

end Late

/-- **A legacy import survives crashes exactly if none of them falls between
the move to the trashcan and the end of the write of the state file.** Where
an uninterrupted start imports, take any number of starts that are cut short
anywhere. A start after them returns the same state over the same data, unless
one of the disks they left was `Late`; then no start ever does. -/
theorem legacy_import_survives_iff {formats : Formats} (hformats : formats.Lawful) {fuel : Nat} {baseDir : VfsPath}
    {s s₁ : EtcdServer} {d₀ d₁ : Disk} (hclosed : d₀.Closed) (hnone : d₀ (statePath baseDir) = none)
    (hrun : Prog.Does Answers d₀ (newEtcdServer formats fuel baseDir s) (.ok s₁) d₁) (himported : s₁.state ≠ none)
    {left : List Disk} {d : Disk} (hcrashes : Crashes (newEtcdServer formats fuel baseDir s) d₀ left d) :
    Recovers baseDir (newEtcdServer formats fuel baseDir s) d s₁ d₁ ↔ ∀ e ∈ left, ¬ Late baseDir d₀ d₁ e := by
  obtain ⟨k, etcdVersion, cluster, t, bytes, f⟩ := exists_found hclosed hnone hrun himported
  obtain ⟨hs₁, rfl⟩ := (f.surely_newEtcdServer s .refl).does hrun
  cases hs₁
  have hdone := f.surely_done s hformats
  let good (e : Disk) : Prop :=
    Copying d₀ (k.legacyDir baseDir) (baseDir ++ "data" :: t) (trashcanDir baseDir) e ∨ e = done baseDir d₀ k t bytes
  have hgood (e : Disk) (he : good e) : ¬ Late baseDir d₀ (done baseDir d₀ k t bytes) e := by
    rcases he with he | rfl
    · exact not_late_copying he _
    · exact fun hlate => hlate.2 rfl
  have hstep (e : Disk) (p' : DiskM (Except Error EtcdServer)) (e' : Disk) (he : good e)
      (hgoes : Prog.Goes Answers e (newEtcdServer formats fuel baseDir s) p' e') : good e' ∨ Stuck baseDir d₀ k t e' := by
    rcases he with he | rfl
    · rcases ((f.surely_newEtcdServer s he).always.goes hgoes (.inl he)).1 with h | h | h
      · exact .inl (.inl h)
      · exact .inr h
      · exact .inl (.inr h)
    · exact .inl (.inr (hdone.always.goes hgoes rfl).1)
  rcases hcrashes.good_or_bad hstep (fun _ _ _ => f.stuck_goes hformats) (.inl .refl) with
    ⟨hend, hall⟩ | ⟨hend, e, he, hlate⟩
  · refine iff_of_true ?_ fun e he => hgood e (hall e he)
    have hsurely : (newEtcdServer formats fuel baseDir s).Surely Answers (fun _ => True)
        (fun e x => x = .ok { s.config with state := some (adoptedState etcdVersion cluster) } ∧
          e = done baseDir d₀ k t bytes) d := by
      rcases hend with h | rfl
      · exact (f.surely_newEtcdServer s h).mono (fun _ _ => trivial) fun _ _ h => h
      · exact hdone.mono (fun _ _ => trivial) fun _ _ h => h
    refine ⟨hsurely.exists_does, fun x e hdoes => ?_⟩
    obtain ⟨rfl, rfl⟩ := hsurely.does hdoes
    exact ⟨_, rfl, rfl, fun _ => rfl⟩
  · refine iff_of_false ?_ fun hnever => hnever e he (f.late hformats hlate)
    rintro ⟨⟨x, e', hdoes⟩, hsame⟩
    obtain ⟨s', rfl, hstate, -⟩ := hsame x e' hdoes
    exact (f.surely_stuck s hformats hend).does hdoes s' rfl hstate

/-- Every import can be lost: the start can be cut right after the move. -/
theorem Found.exists_stuck {formats : Formats} {fuel : Nat} {baseDir t : VfsPath} {d₀ : Disk} {k : Key}
    {etcdVersion bytes : String} {cluster : EtcdCluster}
    (f : Found formats fuel baseDir d₀ k etcdVersion cluster t bytes) (s : EtcdServer) :
    ∃ p', Prog.Goes Answers d₀ (newEtcdServer formats fuel baseDir s) p' (moved baseDir d₀ k t) := by
  have hclear : d₀.Clear baseDir := fun q hq => f.room.clear q (hq.trans (List.prefix_append _ _))
  have hread : Prog.Does Answers d₀ (readState formats baseDir) (.ok none) d₀ :=
    does_disk.2 ⟨_, _, .readMissing f.noState (clear_statePath f.noState hclear), .ret⟩
  obtain ⟨b, hpick, hparse⟩ := f.manifest
  have hsurely := surely_importKeys hpick hparse (.inl .refl) (f.surely_adopt .refl)
  obtain ⟨x, d, himport⟩ := hsurely.exists_does
  obtain ⟨rfl, rfl⟩ := hsurely.does himport
  rw [newEtcdServer_eq]
  exact ⟨_, (hread.goes.bind _).trans (himport.goes.bind _)⟩


namespace Example

/-- A volume with the data of one etcd, to be mounted at `mnt`. -/
def inodes : List (VfsPath × Inode) :=
  [([], .dir), (["mnt"], .dir), (["mnt", "k8s.io"], .dir), (["mnt", "k8s.io", "manifests"], .dir),
    (["mnt", "k8s.io", "manifests", "etcd.manifest"], .file "kind: Pod"), (["mnt", "var"], .dir),
    (["mnt", "var", "etcd"], .dir), (["mnt", "var", "etcd", "data"], .dir),
    (["mnt", "var", "etcd", "data", "db"], .file "x")]

def volume : Disk := fun p => (inodes.find? (·.1 = p)).map (·.2)

def cluster : EtcdCluster :=
  ⟨1, "main", [⟨"etcd-a", ["http://a:2380"], ["http://0.0.0.0:4001"], ["http://0.0.0.0:3994"], false⟩]⟩

def manifest : LegacyManifest :=
  ⟨[⟨"etcd-container", [⟨"ETCD_NAME", "etcd-a"⟩, ⟨"ETCD_INITIAL_CLUSTER", "etcd-a=http://a:2380"⟩,
    ⟨"ETCD_INITIAL_CLUSTER_TOKEN", "main"⟩], "etcd:3.2.1"⟩]⟩

open Serial in
def nodeForm : Serial EtcdNode :=
  (string.pair <| string.list.pair <| string.list.pair <| string.list.pair bool).via
    (fun r => ⟨r.1, r.2.1, r.2.2.1, r.2.2.2.1, r.2.2.2.2⟩)
    (fun n => (n.name, n.peerUrls, n.clientUrls, n.quarantinedClientUrls, n.tlsEnabled)) fun _ => rfl

open Serial in
def stateForm : Serial EtcdState :=
  (bool.pair <| ((int.pair <| string.pair nodeForm.list).via (fun r => ⟨r.1, r.2.1, r.2.2⟩)
    (fun c => (c.desiredClusterSize, c.clusterToken, c.nodes)) fun _ => rfl).option.pair <| string.pair bool).via
    (fun r => ⟨r.1, r.2.1, r.2.2.1, r.2.2.2⟩) (fun st => (st.newCluster, st.cluster, st.etcdVersion, st.quarantined)) fun _ => rfl

/-- No text is the empty state, as for a protobuf message. -/
def formats : Formats where
  manifest b := if b = "kind: Pod" then .ok manifest else .error "not a manifest"
  marshal state := .ok (stateForm.text state)
  unmarshal b := (stateForm.ofText b).elim (.error "not a state") .ok

theorem formats_lawful : formats.Lawful := by
  refine ⟨by rfl, fun state bytes h => ?_⟩
  cases h
  simp [formats]

theorem mem_inodes {p : VfsPath} {node : Inode} (h : volume p = some node) : (p, node) ∈ inodes := by
  obtain ⟨e, he, rfl⟩ := Option.map_eq_some_iff.1 h
  have hp : e.1 = p := by simpa using List.find?_some he
  exact hp ▸ List.mem_of_find?_eq_some he

theorem volume_closed : volume.Closed := by
  intro p name h
  have hall : ∀ e ∈ inodes, e.1 ≠ [] → volume e.1.dropLast = some .dir := by decide
  obtain ⟨node, hnode⟩ := Option.ne_none_iff_exists'.1 h
  simpa using hall _ (mem_inodes hnode) (by simp)

theorem volume_lists : volume.Lists (Key.etcd.legacyDir ["mnt"]) [("db", false)] ∧
    ∀ name, volume (Key.etcd.legacyDir ["mnt"] ++ [name]) ≠ some .dir := by
  have hall : ∀ e ∈ inodes, e.1.dropLast = Key.etcd.legacyDir ["mnt"] → e = (Key.etcd.legacyDir ["mnt"] ++ ["db"], .file "x") := by
    decide
  have hentry {name : String} {node : Inode} (h : volume (Key.etcd.legacyDir ["mnt"] ++ [name]) = some node) :
      name = "db" ∧ node = .file "x" := by
    simpa using hall _ (mem_inodes h) (by simp)
  constructor
  · intro name isDir
    simp only [List.mem_singleton, Prod.mk.injEq, Option.map_eq_some_iff]
    constructor
    · rintro ⟨rfl, rfl⟩
      exact ⟨_, rfl, rfl⟩
    · rintro ⟨node, hnode, rfl⟩
      obtain ⟨rfl, rfl⟩ := hentry hnode
      exact ⟨rfl, rfl⟩
  · intro name h
    cases (hentry h).2

theorem volume_tree : Tree volume 1 (Key.etcd.legacyDir ["mnt"]) :=
  ⟨rfl, ⟨_, volume_lists.1⟩, fun name h => absurd h (volume_lists.2 name)⟩

theorem found : Found formats 1 ["mnt"] volume .etcd "3.2.1" cluster ["main"] (stateForm.text (adoptedState "3.2.1" cluster)) where
  noState := rfl
  manifest := ⟨"kind: Pod", .here rfl (by decide), rfl⟩
  data := rfl
  trash := rfl
  token := by decide
  room :=
    { apart_of_closed volume_closed with
      clear := by
        have hall : ∀ e ∈ inodes, e.1 <+: ["mnt", "data", "main"] → e.2 = .dir := by decide
        intro q hq data h
        cases hall _ (mem_inodes h) hq
      alike := by
        have hall : ∀ e ∈ inodes, ¬ ["mnt", "data", "main"] <+: e.1 := by decide
        intro t m n _ hn
        exact absurd (List.prefix_append _ _) (hall _ (mem_inodes hn)) }
  tree := volume_tree
  trashcan := fun data h => by cases h
  parent := .inl rfl
  unused := rfl
  marshal := rfl
end Example

/-- The volume of the example can be imported. One crash, between the move to
the trashcan and the state file, and no start returns its state any more. -/
theorem import_lost_in_a_crash : ∃ s₁ d₁ p' d,
    Prog.Does Answers Example.volume (newEtcdServer Example.formats 1 ["mnt"] Scenario.server) (.ok s₁) d₁ ∧
    s₁.state = some (adoptedState "3.2.1" Example.cluster) ∧
    Prog.Goes Answers Example.volume (newEtcdServer Example.formats 1 ["mnt"] Scenario.server) p' d ∧
    ∀ left d', Crashes (newEtcdServer Example.formats 1 ["mnt"] Scenario.server) d left d' →
      ∀ s e, Prog.Does Answers d' (newEtcdServer Example.formats 1 ["mnt"] Scenario.server) (.ok s) e →
        s.state ≠ s₁.state := by
  have hstart := Example.found.surely_newEtcdServer Scenario.server .refl
  obtain ⟨x, d₁, hrun⟩ := hstart.exists_does
  obtain ⟨rfl, -⟩ := hstart.does hrun
  obtain ⟨p', hcut⟩ := Example.found.exists_stuck Scenario.server
  refine ⟨_, d₁, p', _, hrun, rfl, hcut, fun left d' hcrashes s e hdoes => ?_⟩
  have hstuck := hcrashes.stays_bad (fun _ _ _ => Example.found.stuck_goes Example.formats_lawful) (.inl rfl)
  exact (Example.found.surely_stuck Scenario.server Example.formats_lawful hstuck).does hdoes s rfl

/-- The same volume, with a crash when the copy of a file has been created and nothing written to it. -/
theorem legacy_import_survives_early_crash : ∃ s₁ d₁ p' d,
    Prog.Goes Answers Example.volume (newEtcdServer Example.formats 1 ["mnt"] Scenario.server) p' d ∧
    d ["mnt", "data", "main", "db"] = some (.file "") ∧
    Recovers ["mnt"] (newEtcdServer Example.formats 1 ["mnt"] Scenario.server) d s₁ d₁ := by
  have hstart := Example.found.surely_newEtcdServer Scenario.server .refl
  obtain ⟨x, d₁, hrun⟩ := hstart.exists_does
  obtain ⟨rfl, -⟩ := hstart.does hrun
  have hclear : Example.volume.Clear ["mnt", "data", "main"] := Example.found.room.clear
  have hstate : Example.volume.Clear ["mnt", "state"] :=
    clear_statePath rfl fun q hq => hclear q (hq.trans (List.prefix_append ["mnt"] _))
  let made := Example.volume.mkdirs ["mnt", "data", "main"]
  have hlists : made.Lists (Key.etcd.legacyDir ["mnt"]) [("db", false)] := by
    intro name isDir
    have hsame : made (Key.etcd.legacyDir ["mnt"] ++ [name]) = Example.volume (Key.etcd.legacyDir ["mnt"] ++ [name]) :=
      mkdirs_elsewhere fun hprefix => absurd (show 5 ≤ 3 from hprefix.length_le) (by decide)
    rw [hsame]
    exact Example.volume_lists.1 name isDir
  have hlist : made.Answers (.readDir (Key.etcd.legacyDir ["mnt"])) (.ok [("db", false)]) made := .listed rfl hlists
  have hopen : made.Answers (.openFile ["mnt", "var", "etcd", "data", "db"]) (.ok ["x"]) made := .opened rfl
  have hcreate : made.Answers (.create ["mnt", "data", "main", "db"]) (.ok ()) (made.set ["mnt", "data", "main", "db"] (.file "")) :=
    .created ⟨by decide, rfl⟩
  have hcut : ∃ p', Prog.Goes Answers Example.volume (newEtcdServer Example.formats 1 ["mnt"] Scenario.server) p'
      (made.set ["mnt", "data", "main", "db"] (.file "")) :=
    ⟨_, .call (.readMissing rfl hstate) (.call (.read rfl) (.call (.made hclear) (.call hlist (.call hopen (.call hcreate .refl)))))⟩
  obtain ⟨p', hcut⟩ := hcut
  have hlate : ¬ Late ["mnt"] Example.volume d₁ (made.set ["mnt", "data", "main", "db"] (.file "")) := by
    rintro ⟨⟨k, hthere, hgone⟩, -⟩
    cases k with
    | etcd => cases hgone
    | etcdEvents => exact hthere rfl
  exact ⟨_, d₁, p', _, hcut, set_self, (legacy_import_survives_iff Example.formats_lawful Example.volume_closed rfl hrun
    (Option.some_ne_none _) (.crash hcut .none)).2 (by simpa using hlate)⟩

end Etcdadm.LegacyImport
