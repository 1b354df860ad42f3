/-
Values written in signs and read back.

A reader takes from what is written as much as it needs, so the forms of pairs and lists are made from those of their
parts. There are eleven signs, for the digits of numbers and a stop behind them.
-/
import Mathlib

namespace Etcdadm

/-- How the values of a type are written, and read back whatever follows. -/
structure Serial (α : Type) where
  write : α → List (Fin 11)
  read : List (Fin 11) → Option (α × List (Fin 11))
  read_write : ∀ a rest, read (write a ++ rest) = some (a, rest)

namespace Serial

variable {α β : Type}

/-- The last digit first. -/
def nat : Serial Nat where
  write n := (Nat.digits 10 n).map (Fin.ofNat 11) ++ [10]
  read l := some (Nat.ofDigits 10 ((l.takeWhile (· ≠ 10)).map Fin.val), (l.dropWhile (· ≠ 10)).tail)
  read_write n rest := by
    have hval (d : Nat) (hd : d ∈ Nat.digits 10 n) : (Fin.ofNat 11 d).val = d :=
      Nat.mod_eq_of_lt ((Nat.digits_lt_base (by decide) hd).trans (by decide))
    have hdigits (c : Fin 11) (hc : c ∈ (Nat.digits 10 n).map (Fin.ofNat 11)) : decide (c ≠ 10) = true := by
      obtain ⟨d, hd, rfl⟩ := List.mem_map.1 hc
      have hlt := Nat.digits_lt_base (by decide) hd
      refine decide_eq_true fun heq => ?_
      have hten : d = 10 := (hval d hd).symm.trans (congrArg Fin.val heq)
      omega
    have hdecimal : ((Nat.digits 10 n).map (Fin.ofNat 11)).map Fin.val = Nat.digits 10 n := by
      rw [List.map_map]
      exact (List.map_congr_left hval).trans (List.map_id _)
    rw [List.append_assoc, List.takeWhile_append_of_pos hdigits, List.dropWhile_append_of_pos hdigits]
    simp [hdecimal, Nat.ofDigits_digits]

/-- By way of another type. -/
def via (s : Serial α) (f : α → β) (g : β → α) (h : ∀ b, f (g b) = b) : Serial β where
  write b := s.write (g b)
  read l := (s.read l).map fun r => (f r.1, r.2)
  read_write b rest := by simp [s.read_write, h]

def pair (s : Serial α) (t : Serial β) : Serial (α × β) where
  write ab := s.write ab.1 ++ t.write ab.2
  read l := (s.read l).bind fun r => (t.read r.2).map fun r' => ((r.1, r'.1), r'.2)
  read_write ab rest := by simp [s.read_write, t.read_write]

def readMany (s : Serial α) : Nat → List (Fin 11) → Option (List α × List (Fin 11))
  | 0, l => some ([], l)
  | n + 1, l => (s.read l).bind fun r => (s.readMany n r.2).map fun r' => (r.1 :: r'.1, r'.2)

theorem readMany_flatMap (s : Serial α) (rest : List (Fin 11)) : ∀ l : List α,
    s.readMany l.length (l.flatMap s.write ++ rest) = some (l, rest)
  | [] => rfl
  | a :: l => by simp [readMany, s.read_write, readMany_flatMap s rest l]

/-- With the length first. -/
def list (s : Serial α) : Serial (List α) where
  write l := nat.write l.length ++ l.flatMap s.write
  read l := (nat.read l).bind fun r => s.readMany r.1 r.2
  read_write l rest := by simp [nat.read_write, readMany_flatMap]

def option (s : Serial α) : Serial (Option α) := s.list.via List.head? Option.toList fun o => by cases o <;> rfl

def bool : Serial Bool := nat.via (· == 1) Bool.toNat (by decide)

def int : Serial Int := nat.via Equiv.intEquivNat.symm Equiv.intEquivNat Equiv.intEquivNat.symm_apply_apply

def string : Serial String :=
  nat.list.via (fun l => String.ofList (l.map Char.ofNat)) (fun s => s.toList.map Char.toNat) fun s => by
    simp [Function.comp_def, Char.ofNat_toNat]

theorem read_encoded {γ : Type} (s : Serial α) {sign : Fin 11 → γ} {value : γ → Fin 11} (h : ∀ c, value (sign c) = c) (a : α) :
    s.read (((s.write a).map sign).map value) = some (a, []) := by
  have hmap : ((s.write a).map sign).map value = s.write a := by simp [Function.comp_def, h]
  simpa [hmap] using s.read_write a []

/-- What a character stands for. -/
def digit (code : Nat) : Fin 11 := Fin.ofNat 11 (code - 48)

/-- The text of a value: in decimal, with colons. -/
def text (s : Serial α) (a : α) : String := String.ofList ((s.write a).map fun c : Fin 11 => Char.ofNat (48 + c))

def ofText (s : Serial α) (text : String) : Option α :=
  (s.read (text.toList.map fun c => digit c.toNat)).map Prod.fst

@[simp] theorem ofText_text (s : Serial α) (a : α) : s.ofText (s.text a) = some a := by
  rw [ofText, text, String.toList_ofList, s.read_encoded (by decide)]
  rfl

end Serial

end Etcdadm
