import Mathlib.Data.Int.Basic
import Mathlib.Data.List.TakeWhile
import Mathlib.Tactic.Common

/-! # Decimal numbers in a text

A number is read off the front of a text: white space is skipped, then comes a sign or none, and
then the digits up to the first character that is none. What cannot be read so is 0. Every integer
is read back from the text that spells it. -/

namespace NcsExamples.DecimalText

/-- White space: a blank, or a control character from the tab to the carriage return. -/
def isSpace (c : Char) : Bool := c = ' ' ∨ 9 ≤ c.toNat ∧ c.toNat ≤ 13

/-- The value of the digits that a text starts with. -/
def readNat (s : List Char) : ℕ := Nat.ofDigitChars 10 (s.takeWhile Char.isDigit) 0

/-- The value of the digits that follow a sign or none. -/
def readSigned : List Char → ℤ
  | '-' :: s => -(readNat s : ℤ)
  | '+' :: s => readNat s
  | s => readNat s

/-- The number that a text starts with. -/
def readInt (s : List Char) : ℤ := readSigned (s.dropWhile isSpace)

/-- The text of a number. -/
def showInt (v : ℤ) : List Char := (if v < 0 then ['-'] else []) ++ Nat.toDigits 10 v.natAbs

theorem isDigit_of_mem_toDigits (n : ℕ) : ∀ c ∈ Nat.toDigits 10 n, c.isDigit = true := by
  intro c hc
  exact Nat.isDigit_of_mem_toDigits (by decide) (by decide) hc

/-- The digits of a number are read to their end. -/
theorem readNat_toDigits (n : ℕ) : readNat (Nat.toDigits 10 n) = n := by
  have hdigits : (Nat.toDigits 10 n).takeWhile Char.isDigit = Nat.toDigits 10 n := by
    rw [List.takeWhile_eq_self_iff]
    exact isDigit_of_mem_toDigits n
  rw [readNat, hdigits, Nat.ofDigitChars_ten_toDigits]

/-- A digit is neither white space nor a sign. -/
theorem not_space_and_ne_sign_of_isDigit {c : Char} (h : c.isDigit = true) :
    isSpace c = false ∧ c ≠ '-' ∧ c ≠ '+' := by
  obtain ⟨hlow, -⟩ : 48 ≤ c.toNat ∧ c.toNat ≤ 57 := Char.isDigit_iff_toNat.mp h
  refine ⟨?_, ?_, ?_⟩
  · have hblank : c ≠ ' ' := by rintro rfl; contradiction
    have hcontrol : ¬ c.toNat ≤ 13 := by omega
    simp [isSpace, hblank, hcontrol]
  · rintro rfl
    contradiction
  · rintro rfl
    contradiction

/-- Digits alone are read as their value. -/
theorem readInt_of_digits {s : List Char} (hs : ∀ c ∈ s, c.isDigit = true) :
    readInt s = readNat s := by
  cases s with
  | nil => rfl
  | cons c s =>
    obtain ⟨hspace, hminus, hplus⟩ := not_space_and_ne_sign_of_isDigit (hs c List.mem_cons_self)
    rw [readInt, List.dropWhile_cons_of_neg (by simp [hspace]), readSigned]
    · rintro s' heq
      exact hminus (List.cons.inj heq).1
    · rintro s' heq
      exact hplus (List.cons.inj heq).1

/-- **Every number can be written.** -/
theorem readInt_showInt (v : ℤ) : readInt (showInt v) = v := by
  rw [showInt]
  split
  · have hminus : readInt (['-'] ++ Nat.toDigits 10 v.natAbs) =
      -(readNat (Nat.toDigits 10 v.natAbs) : ℤ) := rfl
    rw [hminus, readNat_toDigits]
    omega
  · rw [List.nil_append, readInt_of_digits (isDigit_of_mem_toDigits _), readNat_toDigits]
    omega

end NcsExamples.DecimalText
