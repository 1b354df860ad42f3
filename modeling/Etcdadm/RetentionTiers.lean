/-
What exactly one maintenance run keeps (`MaybeDoBackupMaintenance`).

The tiers are meant to be separate: the first backup of each hour of the last
days, and the first of each day before. But an hour and a day that begin at the
same time have the same key in the one map of buckets. So when the boundary of
the tiers lies within the first hour of a day, with backups on both sides of it,
that hour has no backup of its own. There is no other case (`retained_iff_keep`).
-/
import Etcdadm.Retention

namespace Etcdadm.Retention

/-! ## What is to be kept -/

/-- Backups by their age. -/
inductive Tier where
  | fresh
  | hourly
  | daily
  | expired
  deriving DecidableEq

def tierOf (limits : Limits) (now : Nat) (t : Int) : Tier :=
  if now - t < Duration.hour.ns then .fresh
  else if now - t < limits.hourly.ns then .hourly
  else if now - t < limits.daily.ns then .daily
  else .expired

/-- A backup of this time is to be kept, of those of the times `times`. -/
def Keep (limits : Limits) (now : Nat) (times : List Int) (t : Int) : Prop :=
  match tierOf limits now t with
  | .fresh => True
  | .hourly => ∀ t' ∈ times, tierOf limits now t' = .hourly → t' / Period.hour.length = t / Period.hour.length → t ≤ t'
  | .daily => ∀ t' ∈ times, tierOf limits now t' = .daily → t' / Period.day.length = t / Period.day.length → t ≤ t'
  | .expired => False

/-- A daily backup, and an hourly one from the first hour of the same day. -/
def Clash (limits : Limits) (now : Nat) (times : List Int) : Prop :=
  ∃ t ∈ times, ∃ t' ∈ times, tierOf limits now t = .daily ∧ tierOf limits now t' = .hourly ∧
    t' / Period.hour.length * Period.hour.length = t / Period.day.length * Period.day.length

/-- Names that give their times in UTC, each another one. -/
structure Named (l : List (String × Int)) : Prop where
  utc : ∀ e ∈ l, utcTime e.1 = some e.2
  distinct : (l.map (·.2)).Nodup

variable {limits : Limits} {now : Nat}

/-- The limits are no shorter than an hour, so that no age is too low for them. -/
theorem sub_lt_iff {d : Duration} (hd : Duration.hour.ns ≤ d.ns) (t : Int) : Duration.sub now t < d ↔ now - t < d.ns := by
  have hfits := d.fits
  show (Duration.sub now t).ns < d.ns ↔ _
  simp only [Duration.sub, Duration.hour] at hd ⊢
  omega

/-- The key of a time's bucket: when its hour begins, or its day. -/
def keyOf (limits : Limits) (now : Nat) (t : Int) : Option Timestamp :=
  match tierOf limits now t with
  | .hourly => some ⟨t / Period.hour.length * Period.hour.length, none⟩
  | .daily => some ⟨t / Period.day.length * Period.day.length, none⟩
  | .fresh | .expired => none

theorem truncate_eq (p : Period) {d : Duration} (hd : d.ns = p.length) (t : Int) :
    Timestamp.truncate ⟨t, none⟩ d = ⟨t / p.length * p.length, none⟩ := by
  simp only [Timestamp.truncate, hd, Timestamp.zero, Timestamp.mk.injEq, and_true]
  cases p
  · simp only [Period.length]
    omega
  · simp only [Period.length]
    omega

theorem bucketOf_eq (hhourly : Duration.hour.ns ≤ limits.hourly.ns) (hdaily : Duration.hour.ns ≤ limits.daily.ns) (t : Int) :
    Tiers.bucketOf limits now ⟨t, none⟩ = keyOf limits now t := by
  simp only [Tiers.bucketOf, keyOf, tierOf, sub_lt_iff le_rfl, sub_lt_iff hhourly, sub_lt_iff hdaily,
    truncate_eq .hour (d := .hour) rfl, truncate_eq .day (d := .day) rfl]
  by_cases hfresh : now - t < Duration.hour.ns
  · simp [hfresh]
  by_cases hin : now - t < limits.hourly.ns
  · simp [hfresh, hin]
  by_cases hin' : now - t < limits.daily.ns
  · simp [hfresh, hin, hin']
  · simp [hfresh, hin, hin']

/-! ## What the loop makes of them -/

namespace Tiers

/-- The loop, where every name gives a time in UTC. -/
def sorted (limits : Limits) (now : Nat) (l : List (String × Int)) (s : Tiers) : Tiers :=
  l.foldl (fun s e => s.add limits now e.1 ⟨e.2, none⟩) s

/-- The first of the times that go to a bucket. -/
def First (limits : Limits) (now : Nat) (times : List Int) (k : Timestamp) (t : Int) : Prop :=
  t ∈ times ∧ bucketOf limits now ⟨t, none⟩ = some k ∧
    ∀ t' ∈ times, bucketOf limits now ⟨t', none⟩ = some k → t ≤ t'

/-- What the maps hold, in full. -/
structure Exact (limits : Limits) (now : Nat) (l : List (String × Int)) (s : Tiers) : Prop where
  retain : ∀ backup, backup ∈ s.retain ↔ ∃ t, (backup, t) ∈ l ∧ Duration.sub now t < .hour
  ignore : s.ignore = ∅
  backups : ∀ v backup, s.backups.lookup v = some backup ↔ v.loc = none ∧ (backup, v.instant) ∈ l
  buckets : ∀ k v, s.buckets.lookup k = some v ↔ v.loc = none ∧ First limits now (l.map (·.2)) k v.instant

variable {l : List (String × Int)} {s : Tiers} {times : List Int} {k : Timestamp} {t t' : Int}

theorem First.unique (h : First limits now times k t) (h' : First limits now times k t') : t = t' :=
  le_antisymm (h.2.2 t' h'.1 h'.2.1) (h'.2.2 t h.1 h.2.1)

theorem exists_first (ht : t ∈ times) (hk : bucketOf limits now ⟨t, none⟩ = some k) : ∃ e, First limits now times k e := by
  obtain ⟨e, he, hmin⟩ := (times.toFinset.filter fun t => bucketOf limits now ⟨t, none⟩ = some k).exists_min_image id
    ⟨t, by simp [ht, hk]⟩
  simp only [Finset.mem_filter, List.mem_toFinset] at he hmin
  exact ⟨e, he.1, he.2, fun t' ht' hk' => hmin t' ⟨ht', hk'⟩⟩

/-- A time that goes elsewhere, or nowhere. -/
theorem first_append_of_ne (h : bucketOf limits now ⟨t, none⟩ ≠ some k) :
    First limits now (times ++ [t]) k t' ↔ First limits now times k t' := by
  simp only [First, List.mem_append, List.mem_singleton]
  constructor
  · intro hfirst
    have hne : t' ≠ t := fun he => h (he ▸ hfirst.2.1)
    exact ⟨hfirst.1.resolve_right hne, hfirst.2.1, fun e he => hfirst.2.2 e (.inl he)⟩
  · intro hfirst
    refine ⟨.inl hfirst.1, hfirst.2.1, fun e he hk => ?_⟩
    rcases he with he | rfl
    · exact hfirst.2.2 e he hk
    · exact absurd hk h

theorem Exact.nil : Exact limits now [] .empty := by
  refine ⟨?_, rfl, ?_, ?_⟩
  · simp [empty]
  · simp [empty]
  · simp [empty, First]

/-- The bucket of a time has the first of those that were there and this one. -/
theorem Exact.lookup_bucket (h : Exact limits now l s) (hk : bucketOf limits now ⟨t, none⟩ = some k) (v : Timestamp) :
    (bucket s.buckets k ⟨t, none⟩).lookup k = some v ↔ v.loc = none ∧ First limits now (l.map (·.2) ++ [t]) k v.instant := by
  have hnonzero : ∀ v, s.buckets.lookup k = some v → ¬ v.isZero := by
    intro v hv
    obtain ⟨hloc, -, hkey, -⟩ := (h.buckets k v).1 hv
    exact (bucketOf_spec hkey).2.2
  obtain ⟨first, hlookup, hwhich, hle, hmin⟩ := Tiers.lookup_bucket (t := ⟨t, none⟩) hnonzero
  have hfirst : first.loc = none ∧ First limits now (l.map (·.2) ++ [t]) k first.instant := by
    have hmem : first.loc = none ∧ (first.instant ∈ l.map (·.2) ∨ first.instant = t) ∧
        bucketOf limits now ⟨first.instant, none⟩ = some k := by
      rcases hwhich with rfl | hwas
      · exact ⟨rfl, .inr rfl, hk⟩
      · obtain ⟨hloc, hin, hkey, -⟩ := (h.buckets k first).1 hwas
        exact ⟨hloc, .inl hin, hkey⟩
    refine ⟨hmem.1, by simpa using hmem.2.1, hmem.2.2, fun t' ht' hk' => ?_⟩
    rcases List.mem_append.1 ht' with ht' | ht'
    · obtain ⟨e, he⟩ := exists_first ht' hk'
      exact (hmin ⟨e, none⟩ ((h.buckets k ⟨e, none⟩).2 ⟨rfl, he⟩)).trans (he.2.2 t' ht' hk')
    · rw [List.mem_singleton.1 ht']
      exact hle
  rw [hlookup, Option.some.injEq]
  constructor
  · rintro rfl
    exact hfirst
  · intro hv
    have hinstant := hfirst.2.unique hv.2
    cases first
    cases v
    simp_all

theorem Exact.added (h : Exact limits now l s) {backup : String} (ht : t ∉ l.map (·.2)) :
    Exact limits now (l ++ [(backup, t)]) (s.add limits now backup ⟨t, none⟩) := by
  have hold : ∀ b, (b, t) ∉ l := fun b hb => ht (List.mem_map_of_mem hb)
  rw [add_eq]
  refine ⟨fun b => ?_, h.ignore, fun v b => ?_, fun k v => ?_⟩
  · by_cases hage : Duration.sub now t < .hour
    · simp only [hage, if_true, Finset.mem_insert, h.retain, List.mem_append, List.mem_singleton, Prod.mk.injEq]
      constructor
      · rintro (rfl | ⟨t', hmem, hage'⟩)
        · exact ⟨t, .inr ⟨rfl, rfl⟩, hage⟩
        · exact ⟨t', .inl hmem, hage'⟩
      · rintro ⟨t', hmem | ⟨rfl, rfl⟩, hage'⟩
        · exact .inr ⟨t', hmem, hage'⟩
        · exact .inl rfl
    · simp only [hage, if_false, h.retain, List.mem_append, List.mem_singleton, Prod.mk.injEq]
      constructor
      · rintro ⟨t', hmem, hage'⟩
        exact ⟨t', .inl hmem, hage'⟩
      · rintro ⟨t', hmem | ⟨-, rfl⟩, hage'⟩
        · exact ⟨t', hmem, hage'⟩
        · exact absurd hage' hage
  · by_cases hv : v = ⟨t, none⟩
    · subst hv
      simp [AList.lookup_insert, hold, eq_comm]
    · have hne : v.loc = none → v.instant ≠ t := by
        intro hloc hinstant
        exact hv (by cases v; simp_all)
      rw [AList.lookup_insert_ne hv, h.backups]
      refine and_congr_right fun hloc => ?_
      simp [hne hloc]
  · rw [List.map_append, List.map_singleton]
    cases hbucket : bucketOf limits now ⟨t, none⟩ with
    | none =>
      rw [Option.elim_none, h.buckets, first_append_of_ne (by simp [hbucket])]
    | some bucketed =>
      rw [Option.elim_some]
      by_cases hk : k = bucketed
      · subst hk
        exact h.lookup_bucket hbucket v
      · rw [lookup_bucket_ne hk, h.buckets, first_append_of_ne (by simp [hbucket, Ne.symm hk])]

/-- What the loop makes of a listing. -/
theorem exact_sorted (l : List (String × Int)) (h : (l.map (·.2)).Nodup) : Exact limits now l (sorted limits now l .empty) := by
  induction l using List.reverseRecOn with
  | nil => exact .nil
  | append_singleton l e ih =>
    rw [List.map_append, List.map_singleton, List.nodup_append] at h
    rw [sorted, List.foldl_append, List.foldl_cons, List.foldl_nil]
    exact (ih h.1).added fun ht => h.2.2 e.2 ht e.2 (by simp) rfl

/-- Retained is what is fresh, or the first of its bucket. -/
theorem Exact.mem_retained (h : Exact limits now l s) (hl : Named l) {backup : String} (hmem : (backup, t) ∈ l) :
    backup ∈ s.retained ↔ Duration.sub now t < .hour ∨ ∃ k, First limits now (l.map (·.2)) k t := by
  have htime : ∀ t', (backup, t') ∈ l → t' = t := by
    intro t' hmem'
    have hutc := hl.utc _ hmem'
    rw [hl.utc _ hmem] at hutc
    exact (Option.some.inj hutc).symm
  rw [Tiers.mem_retained, h.retain]
  refine or_congr ⟨fun hfresh => ?_, fun hage => ⟨t, hmem, hage⟩⟩ ⟨fun hbucket => ?_, fun hfirst => ?_⟩
  · obtain ⟨t', hmem', hage⟩ := hfresh
    rwa [← htime t' hmem']
  · obtain ⟨k, v, hv, hbackup⟩ := hbucket
    obtain ⟨hloc, hfirst⟩ := (h.buckets k v).1 hv
    obtain ⟨e, he, hinstant⟩ := List.mem_map.1 hfirst.1
    have hlookup := (h.backups v e.1).2 ⟨hloc, hinstant ▸ he⟩
    rw [hlookup, Option.getD_some] at hbackup
    rw [← htime v.instant (hbackup ▸ hinstant ▸ he)]
    exact ⟨k, hfirst⟩
  · obtain ⟨k, hfirst⟩ := hfirst
    refine ⟨k, ⟨t, none⟩, (h.buckets k ⟨t, none⟩).2 ⟨rfl, hfirst⟩, ?_⟩
    rw [(h.backups ⟨t, none⟩ backup).2 ⟨rfl, hmem⟩, Option.getD_some]

end Tiers

/-! ## Hours and days apart -/

section Clash

variable {times : List Int} {t t' : Int} (hhourly : Duration.hour.ns ≤ limits.hourly.ns)
  (hdaily : Duration.hour.ns ≤ limits.daily.ns)

/-- A daily backup is older than an hourly one. -/
theorem lt_of_tiers (ht : tierOf limits now t = .daily) (ht' : tierOf limits now t' = .hourly) : t < t' := by
  unfold tierOf at ht ht'
  split_ifs at ht ht'
  omega

/-- Times of one tier have one bucket if they are of one period. -/
theorem keyOf_eq_iff {p : Period} {tier : Tier} (hp : tier = .hourly ∧ p = .hour ∨ tier = .daily ∧ p = .day)
    (ht : tierOf limits now t = tier) (ht' : tierOf limits now t' = tier) :
    keyOf limits now t' = keyOf limits now t ↔ t' / p.length = t / p.length := by
  have hpos := p.length_pos
  have hcancel : t' / p.length * p.length = t / p.length * p.length ↔ t' / p.length = t / p.length :=
    Int.mul_eq_mul_right_iff hpos.ne'
  rcases hp with ⟨rfl, rfl⟩ | ⟨rfl, rfl⟩
  all_goals
    rw [keyOf, keyOf, ht, ht']
    simpa using hcancel

/-- A time that is in a bucket is hourly or daily. -/
theorem tierOf_of_keyOf {k : Timestamp} (h : keyOf limits now t = some k) :
    tierOf limits now t = .hourly ∨ tierOf limits now t = .daily := by
  cases htier : tierOf limits now t with
  | hourly => exact .inl rfl
  | daily => exact .inr rfl
  | fresh | expired =>
    rw [keyOf, htier] at h
    cases h

/-- One bucket for a daily time and an hourly one is a clash. -/
theorem keyOf_eq_iff_clash (ht : tierOf limits now t = .daily) (ht' : tierOf limits now t' = .hourly) :
    keyOf limits now t' = keyOf limits now t ↔
      t' / Period.hour.length * Period.hour.length = t / Period.day.length * Period.day.length := by
  rw [keyOf, keyOf, ht, ht']
  simp

include hhourly hdaily in
theorem first_iff (hkey : keyOf limits now t ≠ none) (ht : t ∈ times) : (∃ k, Tiers.First limits now times k t) ↔
    ∀ t' ∈ times, keyOf limits now t' = keyOf limits now t → t ≤ t' := by
  simp only [Tiers.First, bucketOf_eq hhourly hdaily]
  constructor
  · intro hfirst t' ht' hsame
    obtain ⟨k, -, hk, hmin⟩ := hfirst
    exact hmin t' ht' (hsame.trans hk)
  · intro hmin
    obtain ⟨k, hk⟩ := Option.ne_none_iff_exists'.1 hkey
    exact ⟨k, ht, hk, fun t' ht' hk' => hmin t' ht' (hk'.trans hk.symm)⟩

/-- Where no hour clashes with a day, times of one bucket are of one tier. -/
theorem tierOf_eq_of_keyOf (hclash : ¬ Clash limits now times) (ht : t ∈ times) (ht' : t' ∈ times)
    (hkey : keyOf limits now t ≠ none) (hsame : keyOf limits now t' = keyOf limits now t) :
    tierOf limits now t' = tierOf limits now t := by
  obtain ⟨k, hk⟩ := Option.ne_none_iff_exists'.1 hkey
  rcases tierOf_of_keyOf hk with htier | htier
  all_goals rcases tierOf_of_keyOf (hsame.trans hk) with htier' | htier'
  · rw [htier, htier']
  · exact absurd ⟨t', ht', t, ht, htier', htier, (keyOf_eq_iff_clash htier' htier).1 hsame.symm⟩ hclash
  · exact absurd ⟨t, ht, t', ht', htier, htier', (keyOf_eq_iff_clash htier htier').1 hsame⟩ hclash
  · rw [htier, htier']

include hhourly hdaily in
theorem first_iff_period (hclash : ¬ Clash limits now times) (ht : t ∈ times) {p : Period} {tier : Tier}
    (hp : tier = .hourly ∧ p = .hour ∨ tier = .daily ∧ p = .day) (htier : tierOf limits now t = tier) :
    (∃ k, Tiers.First limits now times k t) ↔
      ∀ t' ∈ times, tierOf limits now t' = tier → t' / p.length = t / p.length → t ≤ t' := by
  have hkey : keyOf limits now t ≠ none := by
    rcases hp with ⟨rfl, -⟩ | ⟨rfl, -⟩ <;> simp [keyOf, htier]
  rw [first_iff hhourly hdaily hkey ht]
  refine forall₂_congr fun t' ht' => ⟨fun hmin htier' hsame => ?_, fun hmin hsame => ?_⟩
  · exact hmin ((keyOf_eq_iff hp htier htier').2 hsame)
  · have htier' := (tierOf_eq_of_keyOf hclash ht ht' hkey hsame).trans htier
    exact hmin htier' ((keyOf_eq_iff hp htier htier').1 hsame)

include hhourly hdaily in
/-- Where no hour clashes with a day, the first of a bucket is the first of its period. -/
theorem retained_iff_keep (hclash : ¬ Clash limits now times) (ht : t ∈ times) :
    (Duration.sub now t < .hour ∨ ∃ k, Tiers.First limits now times k t) ↔ Keep limits now times t := by
  have hfresh : Duration.sub now t < .hour ↔ tierOf limits now t = .fresh := by
    rw [sub_lt_iff le_rfl]
    unfold tierOf
    split_ifs <;> simp_all
  rw [hfresh]
  cases htier : tierOf limits now t with
  | fresh => simp [Keep, htier]
  | expired =>
    have hnone : ∀ k, ¬ Tiers.First limits now times k t := by
      intro k hk
      have hkey := hk.2.1
      rw [bucketOf_eq hhourly hdaily, keyOf, htier] at hkey
      cases hkey
    simp [Keep, htier, hnone]
  | hourly =>
    rw [first_iff_period hhourly hdaily hclash ht (.inl ⟨rfl, rfl⟩) htier]
    simp [Keep, htier]
  | daily =>
    rw [first_iff_period hhourly hdaily hclash ht (.inr ⟨rfl, rfl⟩) htier]
    simp [Keep, htier]

include hhourly hdaily in
/-- Where one does, the first hourly backup of that hour is lost. -/
theorem clash_loses (hclash : Clash limits now times) : ∃ t ∈ times, Keep limits now times t ∧
    ¬ (Duration.sub now t < .hour ∨ ∃ k, Tiers.First limits now times k t) := by
  obtain ⟨d, hd, t, ht, hdtier, htier, hsame⟩ := hclash
  -- the first hourly backup of the hour of `t`
  obtain ⟨e, he, hmin⟩ := (times.toFinset.filter fun t' => tierOf limits now t' = .hourly ∧
    t' / Period.hour.length = t / Period.hour.length).exists_min_image id ⟨t, by simp [ht, htier]⟩
  simp only [Finset.mem_filter, List.mem_toFinset, and_imp] at he hmin
  obtain ⟨he, hetier, hehour⟩ := he
  refine ⟨e, he, ?_, ?_⟩
  · simp only [Keep, hetier]
    intro t' ht' htier' hhour
    exact hmin t' ht' htier' (hhour.trans hehour)
  · rw [not_or]
    constructor
    · intro hfresh
      rw [sub_lt_iff le_rfl] at hfresh
      simp [tierOf, hfresh] at hetier
    · rw [first_iff hhourly hdaily (by simp [keyOf, hetier]) he, not_forall]
      refine ⟨d, fun hle => ?_⟩
      have hkey : keyOf limits now d = keyOf limits now e := by
        refine ((keyOf_eq_iff_clash hdtier hetier).2 ?_).symm
        rw [hehour, hsame]
      exact absurd (hle hd hkey) (not_le.2 (lt_of_tiers hdtier hetier))

end Clash

/-! ## A run -/

/-- The run asks for the removal of this backup. -/
def Removes (tr : Trace cleanupSig) (backup : String) : Prop := ∃ e ∈ tr, e.req = .removeBackup backup

theorem sortBackups_eq {l : List (String × Int)} (h : ∀ e ∈ l, utcTime e.1 = some e.2) (s : Tiers) :
    sortBackups limits now (l.map (·.1)) s = .ret (Tiers.sorted limits now l s) := by
  induction l generalizing s with
  | nil => rfl
  | cons e l ih =>
    obtain ⟨he, hl⟩ := List.forall_mem_cons.1 h
    have hparse : parseBackupNameInfo e.1 = .ret (some ⟨⟨e.2, none⟩, (splitName e.1).2⟩) := by
      simp [parseBackupNameInfo, timeOf_of_utcTime he]
    rw [List.map_cons, sortBackups, hparse, Prog.ret_bind]
    exact ih hl _

/-- What the second loop asks for. -/
theorem removes_removeBackups {retain ignore : Finset String} {backup : String} :
    ∀ {names : List String} {tr : Trace cleanupSig}, Runs (removeBackups retain ignore names) tr (.ret ()) →
      (Removes tr backup ↔ backup ∈ names ∧ backup ∉ retain ∧ backup ∉ ignore)
  | [], tr, h => by
    cases h
    simp [Removes]
  | name :: names, tr, h => by
    unfold removeBackups at h
    by_cases hretain : name ∈ retain
    · rw [if_pos hretain] at h
      rw [removes_removeBackups h, List.mem_cons, or_and_right]
      exact (or_iff_right fun hname => hname.2.1 (hname.1 ▸ hretain)).symm
    rw [if_neg hretain] at h
    by_cases hignore : name ∈ ignore
    · rw [if_pos hignore] at h
      rw [removes_removeBackups h, List.mem_cons, or_and_right]
      exact (or_iff_right fun hname => hname.2.2 (hname.1 ▸ hignore)).symm
    rw [if_neg hignore] at h
    cases h with
    | @step tr _ r k x h =>
      have hcons : Removes (⟨.removeBackup name, x⟩ :: tr) backup ↔ backup = name ∨ Removes tr backup := by
        simp [Removes, eq_comm]
      rw [hcons, removes_removeBackups h, List.mem_cons, or_and_right]
      refine or_congr_left ⟨fun hname => ⟨hname, hname ▸ hretain, hname ▸ hignore⟩, And.left⟩

/-- A run to the end, that gets this listing at this time. -/
def Listing (m : BackupCleanup) (limits : Limits) (now : Nat) (names : List String) (tr : Trace cleanupSig) : Prop :=
  ∃ r, Runs (m.maybeDoBackupMaintenance limits) (⟨.now, now⟩ :: ⟨.listBackups, .ok names⟩ :: tr) (.ret r)

variable {m : BackupCleanup} {l : List (String × Int)} {tr : Trace cleanupSig}

theorem runs_ask {α : Type} {r : CleanupReq} {f : r.Resp → CleanupM α} {x : r.Resp} {p : CleanupM α} :
    Runs (ask r >>= f) (⟨r, x⟩ :: tr) p ↔ Runs (f x) tr p := Runs.call_iff

theorem listing_iff (hdue : ¬ Duration.sub now m.lastBackupCleanup < m.backupCleanupInterval) (hl : Named l) :
    Listing m limits now (l.map (·.1)) tr ↔ Runs (removeBackups (Tiers.sorted limits now l .empty).retained
      (Tiers.sorted limits now l .empty).ignore (l.map (·.1))) tr (.ret ()) := by
  have hrest : ∀ r, Runs (m.maybeDoBackupMaintenance limits)
      (⟨.now, now⟩ :: ⟨.listBackups, .ok (l.map (·.1))⟩ :: tr) (.ret r) ↔
      Runs (removeBackups (Tiers.sorted limits now l .empty).retained (Tiers.sorted limits now l .empty).ignore
        (l.map (·.1)) >>= fun _ => .ret ({ m with lastBackupCleanup := now }, none)) tr (.ret r) := by
    intro r
    refine runs_ask.trans ?_
    rw [if_neg hdue]
    refine runs_ask.trans ?_
    simp only [sortBackups_eq hl.utc, Prog.ret_bind, Prog.pure_eq]
  constructor
  · intro h
    obtain ⟨r, h⟩ := h
    obtain ⟨tr₁, tr₂, u, rfl, hfirst, hret⟩ := ((hrest r).1 h).of_bind
    cases hret
    rw [List.append_nil]
    exact hfirst
  · intro h
    exact ⟨_, (hrest _).2 (h.bind _)⟩

theorem exists_removeBackups (retain ignore : Finset String) : ∀ names : List String,
    ∃ tr, Runs (removeBackups retain ignore names) tr (.ret ())
  | [] => ⟨[], .refl⟩
  | name :: names => by
    obtain ⟨tr, h⟩ := exists_removeBackups retain ignore names
    unfold removeBackups
    split
    · exact ⟨tr, h⟩
    split
    · exact ⟨tr, h⟩
    · exact ⟨⟨.removeBackup name, none⟩ :: tr, .step h⟩

section Run

variable (hl : Named l) (hdue : ¬ Duration.sub now m.lastBackupCleanup < m.backupCleanupInterval)

include hl hdue in
/-- A run removes what is neither fresh nor the first of its bucket. -/
theorem removes_iff (htr : Listing m limits now (l.map (·.1)) tr) {e : String × Int} (he : e ∈ l) :
    Removes tr e.1 ↔ ¬ (Duration.sub now e.2 < .hour ∨ ∃ k, Tiers.First limits now (l.map (·.2)) k e.2) := by
  have hexact := @Tiers.exact_sorted limits now l hl.distinct
  have hname : e.1 ∈ l.map (·.1) := List.mem_map_of_mem he
  rw [removes_removeBackups ((listing_iff hdue hl).1 htr), hexact.ignore, hexact.mem_retained hl he]
  simp [hname]

include hl hdue in
/-- A clash costs a backup that was to be kept. -/
theorem clash_removes (hhour : Duration.hour.ns ≤ limits.hourly.ns) (hday : limits.hourly.ns ≤ limits.daily.ns)
    (hclash : Clash limits now (l.map (·.2))) :
    ∃ tr, Listing m limits now (l.map (·.1)) tr ∧ ∃ e ∈ l, Keep limits now (l.map (·.2)) e.2 ∧ Removes tr e.1 := by
  obtain ⟨t, ht, hkeep, hlost⟩ := clash_loses hhour (hhour.trans hday) hclash
  obtain ⟨e, he, rfl⟩ := List.mem_map.1 ht
  obtain ⟨tr, hrun⟩ := exists_removeBackups (Tiers.sorted limits now l .empty).retained
    (Tiers.sorted limits now l .empty).ignore (l.map (·.1))
  have htr := (listing_iff hdue hl).2 hrun
  exact ⟨tr, htr, e, he, hkeep, (removes_iff hl hdue htr he).2 hlost⟩

end Run

/-- **One run keeps exactly what the tiers say, if and only if no hour clashes with
a day.** -/
theorem keeps_exactly_iff (m : BackupCleanup) (limits : Limits) (now : Nat) (l : List (String × Int)) (hl : Named l)
    (hhour : Duration.hour.ns ≤ limits.hourly.ns) (hday : limits.hourly.ns ≤ limits.daily.ns)
    (hdue : ¬ Duration.sub now m.lastBackupCleanup < m.backupCleanupInterval) :
    (∀ tr, Listing m limits now (l.map (·.1)) tr →
      ∀ e ∈ l, Removes tr e.1 ↔ ¬ Keep limits now (l.map (·.2)) e.2) ↔
    ¬ Clash limits now (l.map (·.2)) := by
  constructor
  · intro hkeeps hclash
    obtain ⟨tr, htr, e, he, hkeep, hremoved⟩ := clash_removes hl hdue hhour hday hclash
    exact (hkeeps tr htr e he).1 hremoved hkeep
  · intro hclash tr htr e he
    rw [removes_iff hl hdue htr he, retained_iff_keep hhour (hhour.trans hday) hclash (List.mem_map_of_mem he)]

/-- Two backups of one hour, half an hour apart. -/
def twoBackups : List (String × Int) :=
  [("2018-02-20T00:15:00Z-000001", 1519085700000000000), ("2018-02-20T00:45:00Z-000002", 1519087500000000000)]

theorem twoBackups_named : Named twoBackups := ⟨by decide +kernel, by decide⟩

/-- An hour later nothing clashes: the second is removed, and the first kept. -/
theorem hour_later_kept : ¬ Clash .default 1519092000000000000 (twoBackups.map (·.2)) ∧
    ∀ tr, Listing .new .default 1519092000000000000 (twoBackups.map (·.1)) tr →
      ∀ e ∈ twoBackups, Removes tr e.1 ↔ ¬ Keep .default 1519092000000000000 (twoBackups.map (·.2)) e.2 := by
  have hclash : ¬ Clash .default 1519092000000000000 (twoBackups.map (·.2)) := by
    simp only [Clash, twoBackups]
    decide
  exact ⟨hclash, (keeps_exactly_iff .new .default 1519092000000000000 twoBackups twoBackups_named (by decide) (by decide)
    (by decide)).2 hclash⟩

/-- A week later, to the half of the hour, the first is daily and the second hourly:
it was to be kept for its hour, and is removed. -/
theorem week_later_removed : ∃ tr, Listing .new .default 1519691400000000000 (twoBackups.map (·.1)) tr ∧
    ∃ e ∈ twoBackups, Keep .default 1519691400000000000 (twoBackups.map (·.2)) e.2 ∧ Removes tr e.1 := by
  refine clash_removes twoBackups_named (by decide) (by decide) (by decide) ?_
  simp only [Clash, twoBackups]
  decide

end Etcdadm.Retention
