/-
Durations as they are configured (`ParseHumanDuration`, which stands word for word
in `backupcontroller/cleanup.go` and `pki/certs.go`), and the settings that `init`
of the two packages reads with it.

A `time.Duration` is an `int64` of nanoseconds and the product of a count of years
or days is taken in it. It is the duration that was written down for up to 292
years or 106751 days. One more of either is negative, so "keep for ever" can mean
"keep for no time at all".
-/
import Etcdadm.Retention
import Etcdadm.LegacyImport
import Etcdadm.VolumeAttach

namespace Etcdadm

/-! ## Products in `int64` -/

namespace Duration

/-- What is left of a number in an `int64`. -/
def wrap (x : Int) : Duration :=
  ⟨x.bmod 18446744073709551616, by
    have hle := @Int.le_bmod x 18446744073709551616 (by decide)
    have hlt := @Int.bmod_lt x 18446744073709551616 (by decide)
    omega⟩

instance : Mul Duration := ⟨fun d d' => wrap (d.ns * d'.ns)⟩

theorem wrap_mul_wrap (x y : Int) : wrap x * wrap y = wrap (x * y) := by
  show wrap (x.bmod 18446744073709551616 * y.bmod 18446744073709551616) = wrap (x * y)
  simp only [wrap, Int.bmod_mul_bmod, Int.mul_bmod_bmod]

theorem wrap_ns (d : Duration) : wrap d.ns = d := by
  obtain ⟨ns, hfits⟩ := d
  have hsame : ns.bmod 18446744073709551616 = ns := Int.bmod_eq_of_le (by omega) (by omega)
  simp only [wrap, hsame]

/-- A number is left as it is exactly if it fits. -/
theorem wrap_eq_iff {x : Int} : (wrap x).ns = x ↔ -9223372036854775808 ≤ x ∧ x ≤ 9223372036854775807 := by
  constructor
  · intro h
    have hfits := (wrap x).fits
    rwa [h] at hfits
  · intro h
    exact congrArg ns (wrap_ns ⟨x, h⟩)

end Duration

namespace HumanDuration

open LegacyImport (hasSuffix)
open VolumeProviders (Outcome atoi)

/-! ## Parsing -/

/-- `strings.TrimSuffix` -/
def trimSuffix (s p : String) : String :=
  if hasSuffix s p then String.ofList (s.toList.take (s.length - p.length)) else s

section Parse

-- `time.ParseDuration`
variable (parseDuration : String → Except Error Duration)

def parseHumanDuration (s : String) : Except Error Duration :=
  if hasSuffix s "y" then do
    let n ← atoi (trimSuffix s "y")
    return .wrap n * .wrap 365 * .wrap 24 * .hour
  else if hasSuffix s "d" then do
    let n ← atoi (trimSuffix s "d")
    return .wrap n * .wrap 24 * .hour
  else
    parseDuration s

/-- A variable of the environment, as `init` reads it over a default. -/
def setting (getenv : String → String) (name : String) (unset : Duration) : Outcome Duration :=
  let s := getenv name
  if s ≠ "" then
    match parseHumanDuration parseDuration s with
    | .error _ => .died s!"failed to parse {name}={s.quote}"
    | .ok v => .ok v
  else .ok unset

/-- `init` of `backupcontroller` -/
def backupcontrollerInit (getenv : String → String) : Outcome Retention.Limits := do
  let hourly ← setting parseDuration getenv "ETCD_MANAGER_HOURLY_BACKUPS_RETENTION" (.wrap 24 * .wrap 7 * .hour)
  let daily ← setting parseDuration getenv "ETCD_MANAGER_DAILY_BACKUPS_RETENTION"
    (.wrap 24 * .wrap 2 * .wrap 365 * .hour)
  return ⟨hourly, daily⟩

structure CertLimits where
  certDuration : Duration
  certMinTimeLeft : Duration

/-- `init` of `pki` -/
def pkiInit (getenv : String → String) : Outcome CertLimits := do
  let certDuration ← setting parseDuration getenv "ETCD_MANAGER_CERT_DURATION"
    (.wrap 2 * .wrap 365 * .wrap 24 * .hour)
  let certMinTimeLeft ← setting parseDuration getenv "ETCD_MANAGER_CERT_MIN_TIME_LEFT"
    (.wrap 20 * .wrap 365 * .wrap 24 * .hour)
  return ⟨certDuration, certMinTimeLeft⟩

end Parse

/-! ## Years and days -/

/-- What may stand behind a count. -/
inductive Suffix where
  | y
  | d

namespace Suffix

def text : Suffix → String
  | y => "y"
  | d => "d"

/-- The hours the comment on `ParseHumanDuration` gives it. -/
def hours : Suffix → Int
  | y => 365 * 24
  | d => 24

/-- The largest count whose duration fits an `int64`. -/
def most : Suffix → Int
  | y => 292
  | d => 106751

/-- A count of these, in nanoseconds. -/
def meant (u : Suffix) (n : Int) : Int := n * u.hours * Duration.hour.ns

theorem fits_meant_iff (u : Suffix) {n : Int} :
    (-9223372036854775808 ≤ u.meant n ∧ u.meant n ≤ 9223372036854775807) ↔ -u.most ≤ n ∧ n ≤ u.most := by
  cases u <;> simp only [meant, hours, most, Duration.hour] <;> omega

theorem meant_mono (u : Suffix) {n n' : Int} (h : n ≤ n') : u.meant n ≤ u.meant n' := by
  cases u <;> simp only [meant, hours, Duration.hour] <;> omega

end Suffix

theorem hasSuffix_append (s p : String) : hasSuffix (s ++ p) p = true := by
  simp [hasSuffix]

theorem trimSuffix_append (s p : String) : trimSuffix (s ++ p) p = s := by
  have hlen : (s ++ p).length - p.length = s.toList.length := by simp [String.length_toList]
  rw [trimSuffix, if_pos (hasSuffix_append s p), hlen, String.toList_append, List.take_left, String.ofList_toList]

/-- The product that is returned is the one that is meant, in `int64`. -/
theorem parseHumanDuration_append (parseDuration : String → Except Error Duration) (u : Suffix) {s : String} {n : Int}
    (h : atoi s = .ok n) : parseHumanDuration parseDuration (s ++ u.text) = .ok (.wrap (u.meant n)) := by
  cases u with
  | y =>
    have hprod : Duration.wrap n * .wrap 365 * .wrap 24 * .hour = .wrap (Suffix.y.meant n) := by
      rw [← Duration.wrap_ns .hour, Duration.wrap_mul_wrap, Duration.wrap_mul_wrap, Duration.wrap_mul_wrap, Suffix.meant,
        Suffix.hours, Int.mul_assoc n]
    simp only [parseHumanDuration, Suffix.text, hasSuffix_append, if_true, trimSuffix_append, h, ← hprod]
    rfl
  | d =>
    have hprod : Duration.wrap n * .wrap 24 * .hour = .wrap (Suffix.d.meant n) := by
      rw [← Duration.wrap_ns .hour, Duration.wrap_mul_wrap, Duration.wrap_mul_wrap, Suffix.meant, Suffix.hours]
    have hyears : hasSuffix (s ++ "d") "y" = false := by
      simp [hasSuffix, List.isSuffixOf, List.isPrefixOf]
    simp only [parseHumanDuration, Suffix.text, hyears, hasSuffix_append, if_true, trimSuffix_append, h, ← hprod]
    rfl

/-- Up to a count no count stands for a longer time than a larger one does. -/
def MonotoneTo (parseDuration : String → Except Error Duration) (u : Suffix) (count : Int) : Prop :=
  ∀ s s' n n' d d', atoi s = .ok n → atoi s' = .ok n' → 0 ≤ n → n ≤ n' → n' ≤ count →
    parseHumanDuration parseDuration (s ++ u.text) = .ok d →
    parseHumanDuration parseDuration (s' ++ u.text) = .ok d' → d.ns ≤ d'.ns

theorem monotoneTo_iff (parseDuration : String → Except Error Duration) (u : Suffix) (count : Int) :
    MonotoneTo parseDuration u count ↔ count ≤ u.most := by
  constructor
  · intro hmono
    by_contra hlarge
    -- one more than fits is a negative duration, and none at all is not
    have hnone : atoi "0" = .ok 0 := by rfl
    obtain ⟨s, hs⟩ : ∃ s, atoi s = .ok (u.most + 1) := by
      cases u with
      | y => exact ⟨"293", by decide⟩
      | d => exact ⟨"106752", by decide⟩
    have hle := hmono "0" s 0 (u.most + 1) _ _ hnone hs (by omega) (by cases u <;> decide) (by omega)
      (parseHumanDuration_append parseDuration u hnone) (parseHumanDuration_append parseDuration u hs)
    revert hle
    cases u <;> decide
  · intro hcount s s' n n' d d' hs hs' hn hle hn' hd hd'
    rw [parseHumanDuration_append parseDuration u hs] at hd
    rw [parseHumanDuration_append parseDuration u hs'] at hd'
    cases hd
    cases hd'
    have hexact := Duration.wrap_eq_iff.2 (u.fits_meant_iff.2 ⟨show -u.most ≤ n by omega, show n ≤ u.most by omega⟩)
    have hexact' := Duration.wrap_eq_iff.2 (u.fits_meant_iff.2 ⟨show -u.most ≤ n' by omega, show n' ≤ u.most by omega⟩)
    rw [hexact, hexact']
    exact u.meant_mono hle

/-! ## The settings -/

section Settings

variable {parseDuration : String → Except Error Duration} {getenv : String → String} {u : Suffix} {s : String} {n : Int}

theorem setting_append (hs : atoi s = .ok n) {name : String} {unset v : Duration}
    (h : setting parseDuration getenv name unset = .ok v) (henv : getenv name = s ++ u.text) : v = .wrap (u.meant n) := by
  have hset : s ++ u.text ≠ "" := by
    cases u <;> simp [Suffix.text]
  simp only [setting, henv, if_pos hset, parseHumanDuration_append parseDuration u hs] at h
  exact (Outcome.ok.inj h).symm

/-- How long backups are kept, as it was configured. -/
theorem backupcontrollerInit_append (hs : atoi s = .ok n) {limits : Retention.Limits}
    (h : backupcontrollerInit parseDuration getenv = .ok limits) :
    (getenv "ETCD_MANAGER_HOURLY_BACKUPS_RETENTION" = s ++ u.text → limits.hourly = .wrap (u.meant n)) ∧
      (getenv "ETCD_MANAGER_DAILY_BACKUPS_RETENTION" = s ++ u.text → limits.daily = .wrap (u.meant n)) := by
  simp only [backupcontrollerInit, Outcome.bind_eq_ok, Outcome.pure_eq_ok] at h
  obtain ⟨hourly, hhourly, daily, hdaily, rfl⟩ := h
  exact ⟨setting_append hs hhourly, setting_append hs hdaily⟩

/-- How long certificates are good for, as it was configured. -/
theorem pkiInit_append (hs : atoi s = .ok n) {limits : CertLimits} (h : pkiInit parseDuration getenv = .ok limits) :
    (getenv "ETCD_MANAGER_CERT_DURATION" = s ++ u.text → limits.certDuration = .wrap (u.meant n)) ∧
      (getenv "ETCD_MANAGER_CERT_MIN_TIME_LEFT" = s ++ u.text → limits.certMinTimeLeft = .wrap (u.meant n)) := by
  simp only [pkiInit, Outcome.bind_eq_ok, Outcome.pure_eq_ok] at h
  obtain ⟨certDuration, hduration, certMinTimeLeft, hleft, rfl⟩ := h
  exact ⟨setting_append hs hduration, setting_append hs hleft⟩

end Settings

/-- A count that is read is never refused. The duration is the one that was written down exactly if that fits, so up to
292 years or 106751 days, and no further are longer times longer. -/
theorem parseHumanDuration_exact_iff (parseDuration : String → Except Error Duration) (u : Suffix) :
    (∀ s n, atoi s = .ok n → ∃ d, parseHumanDuration parseDuration (s ++ u.text) = .ok d ∧
      (d.ns = n * u.hours * Duration.hour.ns ↔ -u.most ≤ n ∧ n ≤ u.most)) ∧
    ∀ count, MonotoneTo parseDuration u count ↔ count ≤ u.most := by
  constructor
  · intro s n hs
    exact ⟨_, parseHumanDuration_append parseDuration u hs, Duration.wrap_eq_iff.trans u.fits_meant_iff⟩
  · exact monotoneTo_iff parseDuration u

theorem parseHumanDuration_centuries : ∃ d : Duration, d.ns = -8985944073709551616 ∧
    ∀ parseDuration, parseHumanDuration parseDuration "300y" = .ok d := by
  refine ⟨.wrap (Suffix.y.meant 300), by decide, ?_⟩
  intro parseDuration
  exact parseHumanDuration_append parseDuration .y (show atoi "300" = .ok 300 by decide)

end HumanDuration

end Etcdadm
