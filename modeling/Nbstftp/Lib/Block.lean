import Mathlib.Data.List.Basic
import Mathlib.Tactic.Common

/-!
# Cutting a list into blocks

The blocks of size `B` of a list `F`, numbered from `0`: block `k` is
`F[k * B, min ((k + 1) * B, |F|))`. Only `|F| / B + 1` of them matter
(`blockCount`): the first `|F| / B` are full, the next one is short, possibly
empty, and marks the end (`length_block_lt_iff`), all the later ones are empty.
Put together they give the list back (`flatMap_block`).
-/

namespace Nbstftp.Lib

variable {α : Type*} {B k n : ℕ} {F : List α}

/-- Block `k` of size `B` of a list, `F[k * B, min ((k + 1) * B, |F|))`. -/
def block (B : ℕ) (F : List α) (k : ℕ) : List α := (F.take ((k + 1) * B)).drop (k * B)

/-- The number of blocks up to and including the first short one. -/
def blockCount (B : ℕ) (F : List α) : ℕ := F.length / B + 1

/-- A block is what reading `B` elements from its offset gives. -/
theorem block_eq_take_drop (B : ℕ) (F : List α) (k : ℕ) :
    block B F k = (F.drop (k * B)).take B := by
  rw [block, List.drop_take, Nat.succ_mul, Nat.add_sub_cancel_left]

theorem length_block (B : ℕ) (F : List α) (k : ℕ) :
    (block B F k).length = min B (F.length - k * B) := by
  rw [block_eq_take_drop, List.length_take, List.length_drop]

theorem length_block_le (B : ℕ) (F : List α) (k : ℕ) : (block B F k).length ≤ B :=
  length_block B F k ▸ Nat.min_le_left _ _

/-- Reading a block moves from the offset of the block to that of the next one,
    or to the end of the list. -/
theorem min_add_length_block (B : ℕ) (F : List α) (k : ℕ) :
    min (k * B) F.length + (block B F k).length = min ((k + 1) * B) F.length := by
  rw [length_block, Nat.succ_mul]
  omega

/-- A block is short exactly from the block `|F| / B` on. -/
theorem length_block_lt_iff (hB : 0 < B) :
    (block B F k).length < B ↔ F.length / B ≤ k := by
  rw [length_block, ← Nat.lt_succ_iff, Nat.div_lt_iff_lt_mul hB, Nat.succ_mul]
  omega

theorem length_block_eq_iff (hB : 0 < B) : (block B F k).length = B ↔ k < F.length / B := by
  rw [← Nat.not_le, ← length_block_lt_iff hB]
  have := length_block_le B F k
  omega

theorem block_zero (B : ℕ) (F : List α) : block B F 0 = F.take B := by
  rw [block_eq_take_drop, Nat.zero_mul, List.drop_zero]

theorem take_succ_mul (B : ℕ) (F : List α) (n : ℕ) :
    F.take ((n + 1) * B) = F.take (n * B) ++ block B F n := by
  rw [block_eq_take_drop, Nat.succ_mul, List.take_add]

/-- The first `n` blocks make up the first `n * B` elements. -/
theorem flatMap_block_range (B : ℕ) (F : List α) (n : ℕ) :
    (List.range n).flatMap (block B F) = F.take (n * B) := by
  induction n with
  | zero => simp
  | succ n ih => rw [List.range_succ, List.flatMap_append, ih, take_succ_mul]; simp

theorem lt_blockCount_mul (hB : 0 < B) (F : List α) : F.length < blockCount B F * B := by
  rw [blockCount, ← Nat.div_lt_iff_lt_mul hB]
  exact Nat.lt_succ_self _

/-- The blocks up to the first short one make up the list. -/
theorem flatMap_block (hB : 0 < B) (F : List α) :
    (List.range (blockCount B F)).flatMap (block B F) = F := by
  rw [flatMap_block_range, List.take_of_length_le (Nat.le_of_lt (lt_blockCount_mul hB F))]

theorem blockCount_pos (B : ℕ) (F : List α) : 0 < blockCount B F := Nat.succ_pos _

/-- Giving one element for each of the first `N` numbers, and none for the rest. -/
theorem flatMap_range_ite {β : Type*} (g : ℕ → β) (n N : ℕ) :
    (List.range n).flatMap (fun k => if k < N then [g k] else []) =
      (List.range (min n N)).map g := by
  induction n with
  | zero => simp
  | succ n ih =>
    rw [List.range_succ, List.flatMap_append, ih]
    by_cases h : n < N
    · rw [Nat.min_eq_left (Nat.le_of_lt h), Nat.min_eq_left h, List.range_succ]
      simp [h]
    · have h' : N ≤ n := Nat.not_lt.1 h
      rw [Nat.min_eq_right h', Nat.min_eq_right (Nat.le_succ_of_le h')]
      simp [h]

end Nbstftp.Lib
