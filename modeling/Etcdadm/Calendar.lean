/-
Dates of the Gregorian calendar, and how a time is written down (RFC 3339).

Years are counted from March here, so that the leap day is the last of its
year, and months are numbered through from March of year 0: then the first of
every month is a closed formula (`monthStart`), and a date is found by dividing
(`yearOf`). Days and seconds are counted from the start of 1970, in UTC.

Two results are what others need: a time, written down, sorts where the time
does (`rfc3339_append_lt`), so that two times that read the same are of the same
second; and it is read back as it was (`parseRFC3339_rfc3339`).
-/
import Mathlib

namespace Etcdadm

/-! ## Years and months -/

/-- The day a year begins, counted from 1 March of year 0. -/
def yearStart (year : Int) : Int := 365 * year + year / 4 - year / 100 + year / 400

/-- Whole cycles of 400, 100 and 4 years, and the years left. -/
theorem yearStart_parts {q c f y : Int} (hc : 0 ≤ c ∧ c ≤ 3) (hf : 0 ≤ f ∧ f ≤ 24) (hy : 0 ≤ y ∧ y ≤ 3) :
    yearStart (400 * q + 100 * c + 4 * f + y) = 146097 * q + 36524 * c + 1461 * f + 365 * y := by
  have h4 : (400 * q + 100 * c + 4 * f + y) / 4 = 100 * q + 25 * c + f := by omega
  have h100 : (400 * q + 100 * c + 4 * f + y) / 100 = 4 * q + c := by omega
  have h400 : (400 * q + 100 * c + 4 * f + y) / 400 = q := by omega
  rw [yearStart, h4, h100, h400]
  omega

/-- A year of four has 365 days but for the last, unless that ends a century. -/
theorem yearStart_next {q c f y : Int} (hc : 0 ≤ c ∧ c ≤ 3) (hf : 0 ≤ f ∧ f ≤ 24) (hy : 0 ≤ y ∧ y ≤ 3) :
    yearStart (400 * q + 100 * c + 4 * f + y + 1) = 146097 * q + 36524 * c + 1461 * f + 365 * y +
      if y < 3 ∨ (f = 24 ∧ c < 3) then 365 else 366 := by
  have h4 : (400 * q + 100 * c + 4 * f + y + 1) / 4 = 100 * q + 25 * c + f + if y < 3 then 0 else 1 := by
    split <;> omega
  have h100 : (400 * q + 100 * c + 4 * f + y + 1) / 100 = 4 * q + c + if y < 3 ∨ f < 24 then 0 else 1 := by
    split <;> omega
  have h400 : (400 * q + 100 * c + 4 * f + y + 1) / 400 = q + if y < 3 ∨ f < 24 ∨ c < 3 then 0 else 1 := by
    split <;> omega
  rw [yearStart, h4, h100, h400]
  by_cases hlast : y < 3
  · simp only [hlast, true_or, if_true]
    omega
  by_cases hcentury : f = 24
  · by_cases hcycle : c < 3
    · simp only [hlast, hcentury, hcycle, false_or, or_true, and_self, if_true, if_false]
      omega
    · have hnot : ¬ f < 24 := by omega
      simp only [hlast, hnot, hcycle, and_false, or_false, if_false]
      omega
  · have hlt : f < 24 := by omega
    simp only [hlast, hlt, hcentury, false_or, true_or, false_and, if_true, if_false]
    omega

theorem yearStart_succ (year : Int) :
    yearStart (year + 1) = yearStart year + 365 ∨ yearStart (year + 1) = yearStart year + 366 := by
  have h100 : year / 100 = year / 4 / 25 := by omega
  have h100' : (year + 1) / 100 = (year + 1) / 4 / 25 := by omega
  have h400 : year / 400 = year / 4 / 25 / 4 := by omega
  have h400' : (year + 1) / 400 = (year + 1) / 4 / 25 / 4 := by omega
  unfold yearStart
  omega

/-- The year a day is in. The last century of a cycle and the last year of four
are a day longer than the others. -/
def yearOf (day : Int) : Int :=
  let century := min 3 (day % 146097 / 36524)
  let four := (day % 146097 - 36524 * century) / 1461
  let one := min 3 ((day % 146097 - 36524 * century - 1461 * four) / 365)
  400 * (day / 146097) + 100 * century + 4 * four + one

theorem yearOf_spec (day : Int) : yearStart (yearOf day) ≤ day ∧ day < yearStart (yearOf day + 1) := by
  obtain ⟨q, hq⟩ : ∃ q, day / 146097 = q := ⟨_, rfl⟩
  obtain ⟨r, hr⟩ : ∃ r, day % 146097 = r := ⟨_, rfl⟩
  obtain ⟨c, hc⟩ : ∃ c, min 3 (r / 36524) = c := ⟨_, rfl⟩
  obtain ⟨f, hf⟩ : ∃ f, (r - 36524 * c) / 1461 = f := ⟨_, rfl⟩
  obtain ⟨y, hy⟩ : ∃ y, min 3 ((r - 36524 * c - 1461 * f) / 365) = y := ⟨_, rfl⟩
  have hyear : yearOf day = 400 * q + 100 * c + 4 * f + y := by simp only [yearOf, hq, hr, hc, hf, hy]
  have hday : day = 146097 * q + r ∧ 0 ≤ r ∧ r < 146097 := by omega
  have hc' : 0 ≤ c ∧ c ≤ 3 ∧ 36524 * c ≤ r ∧ (r < 36524 * (c + 1) ∨ c = 3) := by omega
  have hf' : 0 ≤ f ∧ f ≤ 24 ∧ 36524 * c + 1461 * f ≤ r ∧ r < 36524 * c + 1461 * (f + 1) := by omega
  have hy' : 0 ≤ y ∧ y ≤ 3 ∧ 36524 * c + 1461 * f + 365 * y ≤ r ∧
      (r < 36524 * c + 1461 * f + 365 * (y + 1) ∨ y = 3) := by omega
  clear hq hr hc hf hy
  rw [hyear, yearStart_parts ⟨hc'.1, hc'.2.1⟩ ⟨hf'.1, hf'.2.1⟩ ⟨hy'.1, hy'.2.1⟩,
    yearStart_next ⟨hc'.1, hc'.2.1⟩ ⟨hf'.1, hf'.2.1⟩ ⟨hy'.1, hy'.2.1⟩]
  split <;> omega

/-- The day a month begins; months are numbered from March of year 0. -/
def monthStart (month : Int) : Int := yearStart (month / 12) + (153 * (month % 12) + 2) / 5

theorem monthStart_succ (month : Int) :
    monthStart month + 28 ≤ monthStart (month + 1) ∧ monthStart (month + 1) ≤ monthStart month + 31 := by
  unfold monthStart
  by_cases hlast : month % 12 = 11
  · have hyear : (month + 1) / 12 = month / 12 + 1 := by omega
    have := yearStart_succ (month / 12)
    rw [hyear]
    omega
  · have hyear : (month + 1) / 12 = month / 12 := by omega
    rw [hyear]
    omega

theorem monthStart_mono {month month' : Int} (h : month ≤ month') : monthStart month ≤ monthStart month' := by
  obtain ⟨n, rfl⟩ := Int.le.dest h
  induction n with
  | zero => simp
  | succ n ih =>
    have hsucc := (monthStart_succ (month + n)).1
    have hle := ih (by omega)
    rw [Int.natCast_succ, ← Int.add_assoc]
    omega

/-- The month a day is in. -/
def monthOf (day : Int) : Int := 12 * yearOf day + (5 * (day - yearStart (yearOf day)) + 2) / 153

theorem monthOf_spec (day : Int) : monthStart (monthOf day) ≤ day ∧ day < monthStart (monthOf day + 1) := by
  obtain ⟨hlower, hupper⟩ := yearOf_spec day
  have hsucc := yearStart_succ (yearOf day)
  obtain ⟨year, hyear⟩ : ∃ year, yearOf day = year := ⟨_, rfl⟩
  obtain ⟨left, hleft⟩ : ∃ left, day - yearStart year = left := ⟨_, rfl⟩
  obtain ⟨month, hmonth⟩ : ∃ month, (5 * left + 2) / 153 = month := ⟨_, rfl⟩
  rw [hyear] at hlower hupper hsucc
  have hdiv : (12 * year + month) / 12 = year := by omega
  have hmod : (12 * year + month) % 12 = month := by omega
  simp only [monthOf, monthStart, hyear, hleft, hmonth, hdiv, hmod]
  by_cases hlast : month = 11
  · have hdiv' : (12 * year + month + 1) / 12 = year + 1 := by omega
    rw [hdiv']
    omega
  · have hdiv' : (12 * year + month + 1) / 12 = year := by omega
    rw [hdiv']
    omega

/-! ## Dates -/

structure Date where
  year : Int
  month : Int
  day : Int
  deriving DecidableEq, Repr

/-- From 1 March of year 0 to 1 January 1970. -/
def epochDay : Int := 719468

/-- Days since 1 January 1970. A day past the end of its month runs on into the
next one, as the clock of a `time.Date` does. -/
def Date.toDay (d : Date) : Int := monthStart (12 * d.year + d.month - 3) + d.day - 1 - epochDay

/-- The date of a day since 1 January 1970. -/
def dateOf (day : Int) : Date :=
  let month := monthOf (day + epochDay)
  ⟨(month + 2) / 12, (month + 2) % 12 + 1, day + epochDay - monthStart month + 1⟩

theorem dateOf_toDay (day : Int) : (dateOf day).toDay = day := by
  have hmonth (month : Int) : 12 * ((month + 2) / 12) + ((month + 2) % 12 + 1) - 3 = month := by omega
  simp only [Date.toDay, dateOf, hmonth]
  omega

/-- Earlier in the calendar. -/
def Date.Before (d d' : Date) : Prop :=
  d.year < d'.year ∨ d.year = d'.year ∧ (d.month < d'.month ∨ d.month = d'.month ∧ d.day < d'.day)

theorem dateOf_before {day day' : Int} (h : day < day') : (dateOf day).Before (dateOf day') := by
  have hspec := monthOf_spec (day + epochDay)
  have hspec' := monthOf_spec (day' + epochDay)
  obtain ⟨month, hm⟩ : ∃ month, monthOf (day + epochDay) = month := ⟨_, rfl⟩
  obtain ⟨month', hm'⟩ : ∃ month', monthOf (day' + epochDay) = month' := ⟨_, rfl⟩
  simp only [Date.Before, dateOf, hm, hm'] at hspec hspec' ⊢
  have hle : month ≤ month' := by
    by_contra hlt
    have := @monthStart_mono (month' + 1) month (by omega)
    omega
  by_cases heq : month = month'
  · subst heq
    omega
  · omega

theorem dateOf_range (day : Int) : 1 ≤ (dateOf day).month ∧ (dateOf day).month ≤ 12 ∧ 1 ≤ (dateOf day).day ∧
    (dateOf day).day ≤ 31 := by
  have hspec := monthOf_spec (day + epochDay)
  have hsucc := (monthStart_succ (monthOf (day + epochDay))).2
  simp only [dateOf]
  omega

/-! ## Numbers of a fixed width -/

/-- The number in decimal, with zeros in front up to a width. -/
def padded (width n : Nat) : List Char := List.leftpad width '0' (Nat.toDigits 10 n)

theorem padded_succ (width n : Nat) :
    padded (width + 2) n = padded (width + 1) (n / 10) ++ [(n % 10).digitChar] := by
  by_cases hn : n < 10
  · have hdiv : n / 10 = 0 := by omega
    have hmod : n % 10 = n := by omega
    simp [padded, List.leftpad, hdiv, hmod, Nat.toDigits_of_lt_base hn, Nat.toDigits_of_lt_base (Nat.succ_pos 9),
      List.replicate_succ', Nat.digitChar]
  · rw [padded, Nat.toDigits_of_base_le (by omega) (by omega)]
    simp [padded, List.leftpad]

theorem length_padded {width n : Nat} (h : n < 10 ^ (width + 1)) : (padded (width + 1) n).length = width + 1 := by
  induction width generalizing n with
  | zero =>
    have hn : n < 10 := by simpa using h
    simp [padded, List.leftpad, Nat.toDigits_of_lt_base hn]
  | succ width ih =>
    have hdiv : n / 10 < 10 ^ (width + 1) := by
      rw [Nat.div_lt_iff_lt_mul (by omega)]
      rwa [Nat.pow_succ] at h
    rw [padded_succ, List.length_append, ih hdiv]
    rfl

/-! ## Order of texts -/

theorem digitChar_lt {m n : Nat} (h : m < n) (hn : n < 10) : m.digitChar < n.digitChar := by
  rw [Char.lt_def, UInt32.lt_iff_toNat_lt]
  have hm := Nat.toNat_digitChar_of_lt_ten (Nat.lt_trans h hn)
  have hn' := Nat.toNat_digitChar_of_lt_ten hn
  simp only [Char.toNat] at hm hn'
  omega

/-- Of texts whose first parts are equally long, the first difference decides. -/
theorem append_lt_append {a a' b b' : List Char} (hlen : a.length = a'.length) (h : a < a' ∨ a = a' ∧ b < b') :
    a ++ b < a' ++ b' := by
  induction a generalizing a' with
  | nil =>
    cases a' with
    | nil => simpa using h
    | cons => simp at hlen
  | cons c a ih =>
    cases a' with
    | nil => simp at hlen
    | cons c' a' =>
      simp only [List.cons_append, List.cons_lt_cons_iff, List.cons.injEq] at h ⊢
      simp only [List.length_cons, Nat.add_right_cancel_iff] at hlen
      rcases h with (hc | ⟨hc, ha⟩) | ⟨⟨hc, ha⟩, hb⟩
      · exact .inl hc
      · exact .inr ⟨hc, ih hlen (.inl ha)⟩
      · exact .inr ⟨hc, ih hlen (.inr ⟨ha, hb⟩)⟩

theorem padded_lt {width m n : Nat} (h : m < n) (hn : n < 10 ^ (width + 1)) :
    padded (width + 1) m < padded (width + 1) n := by
  induction width generalizing m n with
  | zero =>
    have hn' : n < 10 := by simpa using hn
    simp only [padded, List.leftpad, Nat.toDigits_of_lt_base hn', Nat.toDigits_of_lt_base (Nat.lt_trans h hn')]
    exact List.cons_lt_cons_iff.2 (.inl (digitChar_lt h hn'))
  | succ width ih =>
    have hdiv {k : Nat} (hk : k < 10 ^ (width + 2)) : k / 10 < 10 ^ (width + 1) := by
      rw [Nat.div_lt_iff_lt_mul (by omega)]
      rwa [Nat.pow_succ] at hk
    have hm := Nat.lt_trans h hn
    rw [padded_succ, padded_succ]
    refine append_lt_append (by rw [length_padded (hdiv hm), length_padded (hdiv hn)]) ?_
    by_cases htens : m / 10 < n / 10
    · exact .inl (ih htens (hdiv hn))
    · have heq : m / 10 = n / 10 := by omega
      have hdigit : m % 10 < n % 10 := by omega
      exact .inr ⟨by rw [heq], List.cons_lt_cons_iff.2 (.inl (digitChar_lt hdigit (Nat.mod_lt n (by omega))))⟩

/-! ## RFC 3339 -/

/-- `appendInt`: a sign if there is one to write, and zeros up to the width. -/
def appendInt (x : Int) (width : Nat) : List Char :=
  if x < 0 then '-' :: padded width x.natAbs else padded width x.natAbs

theorem natAbs_lt_pow {x : Int} {width : Nat} (hx : 0 ≤ x) (h : x < 10 ^ width) : x.natAbs < 10 ^ width := by
  rw [← Int.ofNat_lt, Int.natAbs_of_nonneg hx, Int.natCast_pow]
  exact h

theorem appendInt_lt {x y : Int} {width : Nat} (hx : 0 ≤ x) (h : x < y) (hy : y < 10 ^ (width + 1)) :
    appendInt x (width + 1) < appendInt y (width + 1) := by
  rw [appendInt, appendInt, if_neg (by omega), if_neg (by omega)]
  exact padded_lt (by omega) (natAbs_lt_pow (by omega) hy)

theorem length_appendInt {x : Int} {width : Nat} (hx : 0 ≤ x) (h : x < 10 ^ (width + 1)) :
    (appendInt x (width + 1)).length = width + 1 := by
  rw [appendInt, if_neg (by omega)]
  exact length_padded (natAbs_lt_pow hx h)

/-- `Unix()` of a time in nanoseconds: the second it is in. -/
def unix (now : Int) : Int := now / 1000000000

/-- A time of day, or a date: fields of a fixed width, one after the other. -/
def fields (sep : Char) (x y z : Int) (width : Nat) : List Char :=
  appendInt x width ++ sep :: (appendInt y 2 ++ sep :: appendInt z 2)

/-- Fields in their range, so that each takes up its width. -/
structure Fits (width : Nat) (x y z : Int) : Prop where
  first : 0 ≤ x ∧ x < 10 ^ width
  second : 0 ≤ y ∧ y < 100
  third : 0 ≤ z ∧ z < 100

theorem length_fields {sep : Char} {x y z : Int} {width : Nat} (h : Fits (width + 1) x y z) :
    (fields sep x y z (width + 1)).length = width + 7 := by
  have hy := @length_appendInt y 1 h.second.1 (by simpa using h.second.2)
  have hz := @length_appendInt z 1 h.third.1 (by simpa using h.third.2)
  simp only [fields, List.length_append, List.length_cons, length_appendInt h.first.1 h.first.2, hy, hz]

theorem fields_lt {sep : Char} {x y z x' y' z' : Int} {width : Nat} (h : Fits (width + 1) x y z)
    (h' : Fits (width + 1) x' y' z') (hlt : x < x' ∨ x = x' ∧ (y < y' ∨ y = y' ∧ z < z')) :
    fields sep x y z (width + 1) < fields sep x' y' z' (width + 1) := by
  have hy : y' < 10 ^ (1 + 1) := by simpa using h'.second.2
  have hz : z' < 10 ^ (1 + 1) := by simpa using h'.third.2
  have hsecond := (@length_appendInt y 1 h.second.1 (by simpa using h.second.2)).trans
    (@length_appendInt y' 1 h'.second.1 hy).symm
  refine append_lt_append ((length_appendInt h.first.1 h.first.2).trans (length_appendInt h'.first.1 h'.first.2).symm) ?_
  rcases hlt with hlt | ⟨rfl, hlt⟩
  · exact .inl (appendInt_lt h.first.1 hlt h'.first.2)
  refine .inr ⟨rfl, List.cons_lt_cons_iff.2 (.inr ⟨rfl, append_lt_append hsecond ?_⟩)⟩
  rcases hlt with hlt | ⟨rfl, hlt⟩
  · exact .inl (appendInt_lt h.second.1 hlt hy)
  · exact .inr ⟨rfl, List.cons_lt_cons_iff.2 (.inr ⟨rfl, appendInt_lt h.third.1 hlt hz⟩)⟩

def dateText (d : Date) : List Char := fields '-' d.year d.month d.day 4

/-- The time of day of a second of the day. -/
def clockText (s : Int) : List Char := fields ':' (s / 3600) (s / 60 % 60) (s % 60) 2

/-- `Format(time.RFC3339)` of a time in UTC, given in seconds since 1970. -/
def rfc3339 (s : Int) : String :=
  String.ofList (dateText (dateOf (s / 86400)) ++ 'T' :: (clockText (s % 86400) ++ ['Z']))

theorem notMem_padded {c : Char} (hdigit : c.isDigit = false) (width n : Nat) : c ∉ padded width n := by
  intro hmem
  simp only [padded, List.leftpad, List.mem_append, List.mem_replicate] at hmem
  rcases hmem with ⟨_, rfl⟩ | hmem
  · simp at hdigit
  · rw [Nat.isDigit_of_mem_toDigits (by omega) (by omega) hmem] at hdigit
    cases hdigit

theorem notMem_appendInt {c : Char} (hdigit : c.isDigit = false) (hsign : c ≠ '-') (x : Int) (width : Nat) :
    c ∉ appendInt x width := by
  unfold appendInt
  split
  · simp [hsign, notMem_padded hdigit]
  · exact notMem_padded hdigit _ _

theorem notMem_rfc3339 {c : Char} (hdigit : c.isDigit = false) (h : c ∉ ['-', 'T', ':', 'Z']) (s : Int) :
    c ∉ (rfc3339 s).toList := by
  simp only [List.mem_cons, List.not_mem_nil, or_false, not_or] at h
  obtain ⟨hsign, ht, hcolon, hz⟩ := h
  simp [rfc3339, dateText, clockText, fields, notMem_appendInt hdigit hsign, hsign, ht, hcolon, hz]

/-- A second of the years that take four digits. -/
def FourDigitYear (s : Int) : Prop := -62167219200 ≤ s ∧ s < 253402300800

theorem dateOf_fits {s : Int} (h : FourDigitYear s) :
    Fits 4 (dateOf (s / 86400)).year (dateOf (s / 86400)).month (dateOf (s / 86400)).day := by
  obtain ⟨day, hday⟩ : ∃ day, s / 86400 = day := ⟨_, rfl⟩
  have hrange := dateOf_range day
  have hspec := monthOf_spec (day + epochDay)
  have hfirst : monthStart (-2) = -60 := by decide
  have hlast : monthStart (12 * 10000 - 2) = 3652365 := by decide
  rw [hday]
  obtain ⟨hlower, hupper⟩ := h
  refine ⟨⟨?_, ?_⟩, by omega, by omega⟩
  · by_contra hneg
    simp only [dateOf, epochDay] at hneg hspec
    have := @monthStart_mono (monthOf (day + 719468) + 1) (-2) (by omega)
    omega
  · by_contra hbig
    simp only [dateOf, epochDay] at hbig hspec
    have := @monthStart_mono (12 * 10000 - 2) (monthOf (day + 719468)) (by omega)
    omega

theorem clock_fits (s : Int) : Fits 2 (s % 86400 / 3600) (s % 86400 / 60 % 60) (s % 86400 % 60) :=
  ⟨by omega, by omega, by omega⟩

/-- **Times sort as they are written.** What comes after them plays no part. -/
theorem rfc3339_append_lt {s s' : Int} (hs : FourDigitYear s) (hs' : FourDigitYear s') (h : s < s')
    (suffix suffix' : List Char) : (rfc3339 s).toList ++ suffix < (rfc3339 s').toList ++ suffix' := by
  have hdate := dateOf_fits hs
  have hdate' := dateOf_fits hs'
  have hlen := (@length_fields '-' _ _ _ 3 hdate).trans (@length_fields '-' _ _ _ 3 hdate').symm
  have hclock := (@length_fields ':' _ _ _ 1 (clock_fits s)).trans (@length_fields ':' _ _ _ 1 (clock_fits s')).symm
  simp only [rfc3339, String.toList_ofList, List.append_assoc, List.cons_append]
  by_cases hday : s / 86400 < s' / 86400
  · exact append_lt_append hlen (.inl (fields_lt hdate hdate' (dateOf_before hday)))
  · have heq : s / 86400 = s' / 86400 := by omega
    refine append_lt_append hlen (.inr ⟨by rw [heq], List.cons_lt_cons_iff.2 (.inr ⟨rfl, ?_⟩)⟩)
    exact append_lt_append hclock (.inl (fields_lt (clock_fits s) (clock_fits s') (by omega)))

theorem length_rfc3339 {s : Int} (hs : FourDigitYear s) : (rfc3339 s).toList.length = 20 := by
  have hdate := @length_fields '-' _ _ _ 3 (dateOf_fits hs)
  have hclock := @length_fields ':' _ _ _ 1 (clock_fits s)
  simp only [rfc3339, dateText, clockText, String.toList_ofList, List.length_append, List.length_cons, List.length_nil,
    hdate, hclock]

theorem rfc3339_inj {s s' : Int} (hs : FourDigitYear s) (hs' : FourDigitYear s') (h : rfc3339 s = rfc3339 s') : s = s' := by
  rcases Int.lt_trichotomy s s' with hlt | heq | hlt
  · have := rfc3339_append_lt hs hs' hlt [] []
    simp [h] at this
  · exact heq
  · have := rfc3339_append_lt hs' hs hlt [] []
    simp [h] at this

example : rfc3339 1517274123 = "2018-01-30T01:02:03Z" := by decide +kernel

/-! ## Reading a time -/

/-- The number that digits stand for. -/
def digitsVal (s : List Char) : Nat := s.foldl (fun n c => 10 * n + (c.toNat - 48)) 0

/-- A number of so many digits. -/
def digits (width : Nat) (s : List Char) : Option (Nat × List Char) :=
  if width ≤ s.length ∧ (s.take width).all Char.isDigit then some (digitsVal (s.take width), s.drop width) else none

/-- One given character. -/
def expect (c : Char) : List Char → Option (List Char)
  | [] => none
  | d :: s => if d = c then some s else none

/-- An hour may be of one digit. -/
def hourDigits (s : List Char) : Option (Nat × List Char) := (digits 2 s).or (digits 1 s)

/-- Three numbers with a separator, the second and third of two digits. -/
def readFields (first : List Char → Option (Nat × List Char)) (sep : Char) (s : List Char) :
    Option ((Nat × Nat × Nat) × List Char) := do
  let (x, s) ← first s
  let s ← expect sep s
  let (y, s) ← digits 2 s
  let s ← expect sep s
  let (z, s) ← digits 2 s
  return ((x, y, z), s)

/-- A fraction of a second, in nanoseconds, if there is one: a point or a comma
and digits, of which those after the ninth are left out. -/
def fraction : List Char → Nat × List Char
  | [] => (0, [])
  | c :: s =>
    let frac := s.takeWhile Char.isDigit
    if (c = '.' ∨ c = ',') ∧ frac ≠ [] then
      (digitsVal (frac.take 9) * 10 ^ (9 - frac.length), s.dropWhile Char.isDigit)
    else (0, c :: s)

/-- `Z`, or the offset of a zone in seconds. -/
def zone : List Char → Option (Option Int × List Char)
  | [] => none
  | 'Z' :: s => some (none, s)
  | sign :: s => do
    let (hr, s) ← digits 2 s
    let s ← expect ':' s
    let (mm, s) ← digits 2 s
    guard (hr ≤ 24 ∧ mm ≤ 60)
    let offset : Int := (hr * 60 + mm) * 60
    if sign = '+' then some (some offset, s) else if sign = '-' then some (some (-offset), s) else none

/-- `daysIn` -/
def daysIn (year month : Int) : Int := Date.toDay ⟨year, month + 1, 1⟩ - Date.toDay ⟨year, month, 1⟩

/-- `time.Parse(time.RFC3339, …)`: nanoseconds since 1970, and the offset of the
zone unless it is UTC. -/
def parseRFC3339 (s : List Char) : Option (Int × Option Int) := do
  let ((year, month, day), s) ← readFields (digits 4) '-' s
  let s ← expect 'T' s
  let ((hour, min, sec), s) ← readFields hourDigits ':' s
  let (nsec, s) := fraction s
  let (offset, s) ← zone s
  guard (s = [] ∧ 1 ≤ month ∧ month ≤ 12 ∧ 1 ≤ day ∧ day ≤ daysIn year month ∧ hour < 24 ∧ min < 60 ∧ sec < 60)
  let unix := Date.toDay ⟨year, month, day⟩ * 86400 + hour * 3600 + min * 60 + sec - offset.getD 0
  return (unix * 1000000000 + nsec, offset)

theorem isDigit_of_mem_padded {c : Char} {width n : Nat} (h : c ∈ padded width n) : c.isDigit := by
  by_contra hdigit
  exact notMem_padded (by simpa using hdigit) width n h

theorem digitsVal_padded {width n : Nat} (h : n < 10 ^ (width + 1)) : digitsVal (padded (width + 1) n) = n := by
  have hdigit {d : Nat} (hd : d < 10) : d.digitChar.toNat - 48 = d := by
    rw [Nat.toNat_digitChar_of_lt_ten hd]
    omega
  induction width generalizing n with
  | zero =>
    have hn : n < 10 := by simpa using h
    simp [padded, List.leftpad, Nat.toDigits_of_lt_base hn, digitsVal, hdigit hn]
  | succ width ih =>
    have hdiv : n / 10 < 10 ^ (width + 1) := by
      rw [Nat.div_lt_iff_lt_mul (by omega)]
      rwa [Nat.pow_succ] at h
    have htens := ih hdiv
    rw [padded_succ]
    simp only [digitsVal, List.foldl_append, List.foldl_cons, List.foldl_nil] at htens ⊢
    rw [htens, hdigit (Nat.mod_lt n (by omega))]
    omega

/-- What was written with a width is read with it. -/
theorem digits_appendInt {x : Int} {width : Nat} (hx : 0 ≤ x) (h : x < 10 ^ (width + 1)) (s : List Char) :
    digits (width + 1) (appendInt x (width + 1) ++ s) = some (x.toNat, s) := by
  have hlen := length_appendInt hx h
  have hpadded : appendInt x (width + 1) = padded (width + 1) x.natAbs := by
    rw [appendInt, if_neg (by omega)]
  rw [hpadded] at hlen ⊢
  have hall : (padded (width + 1) x.natAbs).all Char.isDigit := List.all_eq_true.2 fun c => isDigit_of_mem_padded
  rw [digits, List.take_left' hlen, List.drop_left' hlen, if_pos ⟨by simp [hlen], hall⟩,
    digitsVal_padded (natAbs_lt_pow hx h)]
  congr 2
  omega

theorem readFields_fields {first : List Char → Option (Nat × List Char)} {sep : Char} {x y z : Int} {width : Nat}
    (h : Fits (width + 1) x y z)
    (hfirst : ∀ s, first (appendInt x (width + 1) ++ s) = digits (width + 1) (appendInt x (width + 1) ++ s)) (s : List Char) :
    readFields first sep (fields sep x y z (width + 1) ++ s) = some ((x.toNat, y.toNat, z.toNat), s) := by
  have hy (s : List Char) := @digits_appendInt y 1 h.second.1 (by simpa using h.second.2) s
  have hz (s : List Char) := @digits_appendInt z 1 h.third.1 (by simpa using h.third.2) s
  simp only [readFields, fields, List.append_assoc, List.cons_append, hfirst, digits_appendInt h.first.1 h.first.2,
    Option.bind_eq_bind, Option.bind_some, expect, if_true]
  rw [hy]
  simp only [Option.bind_some, if_true]
  rw [hz]
  rfl

theorem dateOf_le_daysIn (day : Int) : (dateOf day).day ≤ daysIn (dateOf day).year (dateOf day).month := by
  have hspec := monthOf_spec (day + epochDay)
  have hmonth (month : Int) : 12 * ((month + 2) / 12) + ((month + 2) % 12 + 1) - 3 = month := by omega
  have hmonth' (month : Int) : 12 * ((month + 2) / 12) + ((month + 2) % 12 + 1 + 1) - 3 = month + 1 := by omega
  simp only [daysIn, Date.toDay, dateOf, hmonth, hmonth']
  omega

/-- **A time that is written down is read back.** -/
theorem parseRFC3339_rfc3339 {s : Int} (hs : FourDigitYear s) :
    parseRFC3339 (rfc3339 s).toList = some (s * 1000000000, none) := by
  have hdate := dateOf_fits hs
  have hclock := clock_fits s
  have hhour (rest : List Char) : hourDigits (appendInt (s % 86400 / 3600) 2 ++ rest) =
      digits 2 (appendInt (s % 86400 / 3600) 2 ++ rest) := by
    have hread := @digits_appendInt (s % 86400 / 3600) 1 hclock.first.1 (by simpa using hclock.first.2) rest
    rw [hourDigits, hread, Option.some_or]
  have hreadDate := @readFields_fields (digits 4) '-' _ _ _ 3 hdate (fun _ => rfl)
  have hreadClock := @readFields_fields hourDigits ':' _ _ _ 1 hclock hhour ['Z']
  simp only [rfc3339, dateText, clockText, String.toList_ofList, parseRFC3339, hreadDate, hreadClock, expect,
    show fraction ['Z'] = (0, ['Z']) from rfl, show zone ['Z'] = some (none, []) from rfl, Option.bind_eq_bind,
    Option.bind_some, if_true]
  -- what is left is that the fields are in range, and make up the second
  have hrange := dateOf_range (s / 86400)
  have hdays := dateOf_le_daysIn (s / 86400)
  have htoDay := dateOf_toDay (s / 86400)
  obtain ⟨d, hd⟩ : ∃ d, dateOf (s / 86400) = d := ⟨_, rfl⟩
  rw [hd] at hrange hdays htoDay hdate ⊢
  have hyear : (d.year.toNat : Int) = d.year := Int.toNat_of_nonneg hdate.first.1
  have hmonth : (d.month.toNat : Int) = d.month := Int.toNat_of_nonneg hdate.second.1
  have hday : (d.day.toNat : Int) = d.day := Int.toNat_of_nonneg hdate.third.1
  have hunix : s / 86400 * 86400 + ((s % 86400 / 3600).toNat : Int) * 3600 + ((s % 86400 / 60 % 60).toNat : Int) * 60 +
      ((s % 86400 % 60).toNat : Int) = s := by omega
  have hguard : 1 ≤ d.month.toNat ∧ d.month.toNat ≤ 12 ∧ 1 ≤ d.day.toNat ∧
      (d.day.toNat : Int) ≤ daysIn d.year.toNat d.month.toNat ∧ (s % 86400 / 3600).toNat < 24 ∧
      (s % 86400 / 60 % 60).toNat < 60 ∧ (s % 86400 % 60).toNat < 60 := by
    rw [hyear, hmonth]
    omega
  rw [hyear, hmonth, hday] at hguard ⊢
  rw [guard, if_pos ⟨trivial, hguard⟩]
  simp only [pure, Option.bind_some, htoDay, Option.getD_none, Int.sub_zero, Int.natCast_zero, Int.add_zero, hunix]

example : parseRFC3339 "2018-01-30T1:02:03.5+01:00".toList = some (1517270523500000000, some 3600) := by decide +kernel

end Etcdadm
