import Nbstftp.Numbers
import Mathlib.Algebra.Ring.Nat

/-!
# Numbers, written and read

A number printed in decimal is a literal of digits (`Literal.ofNat`), and is read back
from these.
-/

namespace Nbstftp

theorem isdigit_of_isDigit {ch : Char} (h : ch.isDigit = true) :
    ch.toNat.toUInt8.toNat = ch.toNat ∧ isdigit ch.toNat.toUInt8 = true := by
  have hch : 48 ≤ ch.toNat ∧ ch.toNat ≤ 57 := by
    simpa [Char.isDigit, UInt32.le_iff_toNat_le] using h
  have hbyte : ch.toNat.toUInt8.toNat = ch.toNat := by
    rw [Nat.toUInt8_eq, UInt8.toNat_ofNat', Nat.mod_eq_of_lt (by omega)]
  refine ⟨hbyte, ?_⟩
  simp only [isdigit, Bool.and_eq_true, decide_eq_true_eq, UInt8.le_iff_toNat_le, hbyte]
  exact hch

theorem isDigit_of_mem_toDigits {n : ℕ} {ch : Char} (h : ch ∈ Nat.toDigits 10 n) :
    ch.isDigit = true :=
  Nat.isDigit_of_mem_toDigits (by decide) (by decide) h

/-- The digits of a number, as they are printed. -/
def Literal.ofNat (n : ℕ) : Literal where
  digits := decimal n
  nonempty := by simp [decimal, Nat.toDigits_ne_nil]
  isdigit b hb := by
    obtain ⟨ch, hch, rfl⟩ := List.mem_map.1 hb
    exact (isdigit_of_isDigit (isDigit_of_mem_toDigits hch)).2

theorem foldl_digits {l : List Char} (hl : ∀ ch ∈ l, ch.isDigit = true) (init : ℕ) :
    (l.map fun ch => ch.toNat.toUInt8).foldl (fun n b => n * 10 + (b.toNat - 48)) init =
      Nat.ofDigitChars 10 l init := by
  induction l generalizing init with
  | nil => rfl
  | cons ch l ih =>
    have hch := (isdigit_of_isDigit (hl ch List.mem_cons_self)).1
    rw [List.map_cons, List.foldl_cons, ih fun ch hch => hl ch (List.mem_cons_of_mem _ hch),
      Nat.ofDigitChars_cons, hch, Nat.mul_comm init]
    rfl

theorem Literal.value_ofNat (n : ℕ) : (Literal.ofNat n).value = n :=
  (foldl_digits (fun _ hch => isDigit_of_mem_toDigits hch) 0).trans Nat.ofDigitChars_ten_toDigits

/-- A number that an `int` holds is read back. -/
theorem atoi_decimal {n : ℕ} (h : n < 2 ^ 31) : atoi (decimal n) = n := by
  have hmax : Int64.maxValue.toInt = 9223372036854775807 := by decide
  have hread : atoi (decimal n) = narrowed n :=
    (atoi_digits (.ofNat n)).trans (congrArg narrowed (Literal.value_ofNat n))
  rw [hread, narrowed, hmax, Int.bmod]
  have hsize : UInt32.size = 4294967296 := rfl
  rw [hsize]
  split <;> omega

theorem length_decimal_le {n k : ℕ} (h : n < 10 ^ k) (hk : 0 < k) : (decimal n).length ≤ k := by
  rwa [decimal, List.length_map, Nat.length_toDigits_le_iff (by decide) hk]

end Nbstftp
