/-
`etcdversions.UpgradeInPlaceSupported` and `EtcdVersionForAdoption`, with what
they use of the semver package (`ParseTolerant`, `Parse`). A version that does
not parse supports no upgrade in place, and is adopted as it is.
-/
import Etcdadm.Api

namespace Etcdadm

namespace Semver

/-- `unicode.IsSpace` -/
def isSpace (c : Char) : Bool :=
  c.toNat ∈ [0x09, 0x0a, 0x0b, 0x0c, 0x0d, 0x20, 0x85, 0xa0, 0x1680, 0x2028, 0x2029, 0x202f, 0x205f, 0x3000] ||
    (0x2000 ≤ c.toNat && c.toNat ≤ 0x200a)

/-- `strings.TrimSpace` -/
def trimSpace (s : List Char) : List Char := ((s.dropWhile isSpace).reverse.dropWhile isSpace).reverse

/-- `strings.SplitN(s, ".", n)`; the last part keeps its dots. -/
def splitN : Nat → List Char → List (List Char)
  | 0, s => [s]
  | n + 1, s =>
    match s.span (· ≠ '.') with
    | (a, []) => [a]
    | (a, _ :: rest) => if n = 0 then [s] else a :: splitN n rest

/-- `strings.Split(s, ".")` -/
def split (s : List Char) : List (List Char) := splitN (s.length + 1) s

/-- `strconv.ParseUint` in base 10, on what has no leading zeros. -/
def parseNumber (s : List Char) : Option Nat :=
  if s = [] ∨ !s.all Char.isDigit ∨ (1 < s.length ∧ s.head? = some '0') then none
  else
    let n := s.foldl (fun n c => 10 * n + (c.toNat - '0'.toNat)) 0
    if n < 2 ^ 64 then some n else none

def isAlphanum (c : Char) : Bool := c.isAlphanum || c == '-'

/-- `NewPRVersion` accepts it. -/
def validPRVersion (s : List Char) : Bool :=
  s ≠ [] && if s.all Char.isDigit then (parseNumber s).isSome else s.all isAlphanum

def validBuild (s : List Char) : Bool := s ≠ [] && s.all isAlphanum

structure Version where
  major : Nat
  minor : Nat
  patch : Nat
  deriving DecidableEq, Repr

/-- `Parse`, for the numbers: build and pre-release parts are checked only. -/
def parse (s : List Char) : Option Version :=
  match splitN 3 s with
  | [majorStr, minorStr, patchStr] => do
    let major ← parseNumber majorStr
    let minor ← parseNumber minorStr
    let (patchStr, build) := patchStr.span (· ≠ '+')
    let (patchStr, prerelease) := patchStr.span (· ≠ '-')
    let patch ← parseNumber patchStr
    guard (prerelease = [] ∨ (split prerelease.tail).all validPRVersion)
    guard (build = [] ∨ (split build.tail).all validBuild)
    return ⟨major, minor, patch⟩
  | _ => none

/-- Leading zeros of a part are dropped. -/
def tolerate (p : List Char) : List Char :=
  if p.length ≤ 1 then p
  else
    match p.dropWhile (· == '0') with
    | [] => ['0']
    | c :: cs => if c.isDigit then c :: cs else '0' :: c :: cs

def parseTolerant (s : String) : Option Version :=
  let s := trimSpace s.toList
  let s := if s.head? = some 'v' then s.tail else s
  let parts := (splitN 3 s).map tolerate
  if parts.length < 3 then
    if (parts.getLastD []).any fun c => c == '+' || c == '-' then none
    else parse (['.'].intercalate (parts ++ List.replicate (3 - parts.length) ['0']))
  else parse (['.'].intercalate parts)

/-! ### The numbers fit -/

theorem parseNumber_lt {s : List Char} {n : Nat} (h : parseNumber s = some n) : n < 2 ^ 64 := by
  unfold parseNumber at h
  split at h
  · cases h
  · dsimp only at h
    split at h
    next hlt =>
      cases h
      exact hlt
    · cases h

theorem parse_minor_lt {s : List Char} {v : Version} (h : parse s = some v) : v.minor < 2 ^ 64 := by
  unfold parse at h
  split at h
  · obtain ⟨major, -, h⟩ := Option.bind_eq_some_iff.1 h
    obtain ⟨minor, hminor, h⟩ := Option.bind_eq_some_iff.1 h
    obtain ⟨patch, -, h⟩ := Option.bind_eq_some_iff.1 h
    obtain ⟨-, -, h⟩ := Option.bind_eq_some_iff.1 h
    obtain ⟨-, -, h⟩ := Option.bind_eq_some_iff.1 h
    cases h
    exact parseNumber_lt hminor
  · cases h

theorem parseTolerant_minor_lt {s : String} {v : Version} (h : parseTolerant s = some v) : v.minor < 2 ^ 64 := by
  -- whatever the parts are
  have key (parts : List (List Char)) (h : (if parts.length < 3 then
      if (parts.getLastD []).any fun c => c == '+' || c == '-' then none
      else parse (['.'].intercalate (parts ++ List.replicate (3 - parts.length) ['0']))
      else parse (['.'].intercalate parts)) = some v) : v.minor < 2 ^ 64 := by
    split at h
    · split at h
      · cases h
      · exact parse_minor_lt h
    · exact parse_minor_lt h
  exact key _ h

/-- A move within the major version 3, to the same minor version or the next. -/
def OneMinor (old new : Version) : Prop :=
  old.major = 3 ∧ new.major = 3 ∧ (new.minor = old.minor ∨ new.minor = old.minor + 1)

end Semver

/-- `UpgradeInPlaceSupported`; the difference of the minors is one of `uint64`. -/
def upgradeInPlaceSupported (fromVersion toVersion : String) : Bool :=
  match Semver.parseTolerant fromVersion, Semver.parseTolerant toVersion with
  | some old, some new =>
    old.major == 3 && new.major == 3 && (new.minor + 2 ^ 64 - old.minor) % 2 ^ 64 ≤ 1 && new.minor ≥ old.minor
  | _, _ => false

/-- The subtraction does not wrap where it matters. -/
theorem upgradeInPlaceSupported_iff {fromVersion toVersion : String} :
    upgradeInPlaceSupported fromVersion toVersion = true ↔
      ∃ old new, Semver.parseTolerant fromVersion = some old ∧ Semver.parseTolerant toVersion = some new ∧
        Semver.OneMinor old new := by
  unfold upgradeInPlaceSupported
  split
  next old new hold hnew =>
    have hlt := Semver.parseTolerant_minor_lt hnew
    have hmod : old.minor ≤ new.minor → (new.minor + 2 ^ 64 - old.minor) % 2 ^ 64 = new.minor - old.minor := by
      intro hle
      have hsub : new.minor + 2 ^ 64 - old.minor = new.minor - old.minor + 2 ^ 64 := by omega
      rw [hsub, Nat.add_mod_right, Nat.mod_eq_of_lt (by omega)]
    simp only [Bool.and_eq_true, beq_iff_eq, decide_eq_true_eq, ge_iff_le]
    constructor
    · rintro ⟨⟨⟨hmajor, hmajor'⟩, hdiff⟩, hle⟩
      rw [hmod hle] at hdiff
      exact ⟨old, new, hold, hnew, hmajor, hmajor', by omega⟩
    · rintro ⟨old', new', hold', hnew', hmajor, hmajor', hminor⟩
      rw [hold] at hold'
      rw [hnew] at hnew'
      cases hold'
      cases hnew'
      have hle : old.minor ≤ new.minor := by omega
      refine ⟨⟨⟨hmajor, hmajor'⟩, ?_⟩, hle⟩
      rw [hmod hle]
      omega
  next hno =>
    simp only [Bool.false_eq_true, false_iff, not_exists, not_and]
    intro old new hold hnew
    exact (hno old new hold hnew).elim

/-- `EtcdVersionForAdoption`; empty when there is nothing to say. -/
def etcdVersionForAdoption (fromVersion : String) : String :=
  match Semver.parseTolerant fromVersion with
  | some ⟨3, 0, _⟩ | some ⟨3, 1, _⟩ => "3.1.12"
  | some ⟨3, 2, patch⟩ => if patch ≤ 18 then "3.2.18" else "3.2.24"
  | some ⟨3, 3, patch⟩ => if patch ≤ 10 then "3.3.10" else if patch ≤ 13 then "3.3.13" else "3.3.17"
  | some ⟨3, 4, patch⟩ => if patch ≤ 3 then "3.4.3" else "3.4.13"
  | some ⟨3, 5, _⟩ => "3.5.7"
  | _ => ""

end Etcdadm
