import Mathlib.Tactic.Common
import Mathlib.Algebra.Order.Ring.Nat

/-! # Counters that wrap around

A duration is measured with a counter of `w` bits: its value at the end less its value at the start,
in `w` bits. It is then converted from one unit into another, the result is kept in a second width,
and a multiple of the new unit is displayed. The file gives what is measured, and when what is
displayed is the duration. -/

namespace NcsExamples

namespace WrappedCounter

/-- The difference of two values of a counter is the duration between them, in the width of the
counter. -/
theorem toNat_ofNat_sub_ofNat (w : ℕ) {start stop : ℕ} (h : start ≤ stop) :
    (BitVec.ofNat w stop - BitVec.ofNat w start).toNat = (stop - start) % 2 ^ w := by
  obtain ⟨d, rfl⟩ := Nat.exists_eq_add_of_le h
  rw [Nat.add_sub_cancel_left, BitVec.ofNat_add, BitVec.add_comm, BitVec.add_sub_cancel,
    BitVec.toNat_ofNat]

/-- The units of `u` in a number drop by at least one if `m ≥ u` is subtracted. -/
theorem div_lt_div_of_add_le {u m x y : ℕ} (hu : 0 < u) (hum : u ≤ m) (h : y + m ≤ x) :
    y / u < x / u := by
  calc y / u < y / u + 1 := Nat.lt_succ_self _
    _ = (y + u) / u := (Nat.add_div_right y hu).symm
    _ ≤ x / u := Nat.div_le_div_right (by omega)

/-- A modulus is taken off once at least from a number that reaches it. -/
theorem mod_add_le {x m : ℕ} (h : m ≤ x) : x % m + m ≤ x := by
  rw [Nat.mod_eq_sub_mod h]
  have hle := Nat.mod_le (x - m) m
  omega

/-- A conversion into a unit that is not larger takes at least `M` off where `M` was taken off
before. -/
theorem mod_mul_div_add_le {n h M d : ℕ} (hh : 0 < h) (hnh : h ≤ n) (hd : M ≤ d) :
    d % M * n / h + M ≤ d * n / h := by
  calc d % M * n / h + M = (d % M * n + M * h) / h := (Nat.add_mul_div_right _ _ hh).symm
    _ ≤ (d % M * n + M * n) / h :=
        Nat.div_le_div_right (Nat.add_le_add_left (Nat.mul_le_mul_left M hnh) _)
    _ = (d % M + M) * n / h := by rw [Nat.add_mul]
    _ ≤ d * n / h := Nat.div_le_div_right (Nat.mul_le_mul_right n (mod_add_le hd))

/-- **When a display is right.** A duration `d` is measured modulo `M`, converted by the factor
`n / h`, kept modulo `m` and displayed in units of `u`. Where the conversion is into a unit that is
not larger, and the second modulus is neither above the first nor below the unit displayed, the
display is right exactly if the converted duration is below the second modulus. -/
theorem display_eq_iff {M m u n h d : ℕ} (hmM : m ≤ M) (hu : 0 < u) (hum : u ≤ m) (hh : 0 < h)
    (hnh : h ≤ n) : d % M * n / h % m / u = d * n / h / u ↔ d * n / h < m := by
  constructor
  · intro heq
    by_contra hge
    have hle : m ≤ d * n / h := Nat.le_of_not_lt hge
    -- one of the two moduli has been taken off
    have hlow : d % M * n / h % m + m ≤ d * n / h := by
      rcases Nat.lt_or_ge d M with hd | hd
      · rw [Nat.mod_eq_of_lt hd]
        exact mod_add_le hle
      · calc d % M * n / h % m + m ≤ d % M * n / h + M := Nat.add_le_add (Nat.mod_le _ _) hmM
          _ ≤ d * n / h := mod_mul_div_add_le hh hnh hd
    exact Nat.ne_of_lt (div_lt_div_of_add_le hu hum hlow) heq
  · intro hlt
    have hle : d ≤ d * n / h := by
      rw [Nat.le_div_iff_mul_le hh]
      exact Nat.mul_le_mul_left d hnh
    rw [Nat.mod_eq_of_lt (show d < M by omega), Nat.mod_eq_of_lt hlt]

end WrappedCounter

end NcsExamples
