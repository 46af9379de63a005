import Mathlib.Data.List.Basic
import Mathlib.Data.List.Infix
import Mathlib.Tactic.Common

/-!
# Cells of a block of memory

A block is a list of cells, of which those nobody has written yet are `none`. It
*holds* a list if its first cells are the items of the list (`Holds`). Writing
behind the items, moving some of them to close or to open a gap, and exchanging
two of them by way of a spare cell make it hold the list with an item appended,
with some taken out, with one inserted, and with two exchanged.
-/

namespace Nbstftp.Lib

variable {α β : Type*}

/-- `count` cells are copied from `src` on to `dst` on, as they were before. -/
def moveCells (cells : List β) (dst src count : ℕ) : List β :=
  cells.take dst ++ (cells.drop src).take count ++ cells.drop (dst + count)

/-- One cell is copied. -/
def copyCell (cells : List (Option α)) (dst src : ℕ) : List (Option α) :=
  cells.set dst (cells.getD src none)

/-- A block of another size: cells are cut off, or nobody has written them yet. -/
def resizeCells (cells : List (Option α)) (n : ℕ) : List (Option α) :=
  cells.take n ++ List.replicate (n - cells.length) none

/-- Two items of a list are exchanged. -/
def exchange (l : List α) (i j : ℕ) : List α :=
  match l[i]?, l[j]? with
  | some a, some b => (l.set i b).set j a
  | _, _ => l

/-- The first cells are the items of `l`. -/
def Holds (cells : List (Option α)) (l : List α) : Prop :=
  ∀ k < l.length, cells[k]? = some l[k]?

variable {cells : List (Option α)} {l : List α}

/-! ## What is where -/

@[simp] theorem length_moveCells {cells : List β} {dst src count : ℕ}
    (hdst : dst + count ≤ cells.length) (hsrc : src + count ≤ cells.length) :
    (moveCells cells dst src count).length = cells.length := by
  simp only [moveCells, List.length_append, List.length_take, List.length_drop]
  omega

@[simp] theorem length_copyCell (dst src : ℕ) :
    (copyCell cells dst src).length = cells.length :=
  List.length_set

@[simp] theorem length_resizeCells (n : ℕ) : (resizeCells cells n).length = n := by
  simp only [resizeCells, List.length_append, List.length_take, List.length_replicate]
  omega

@[simp] theorem length_exchange (i j : ℕ) : (exchange l i j).length = l.length := by
  rw [exchange]
  split <;> simp

theorem getElem?_moveCells {cells : List β} {dst src count : ℕ} (hdst : dst ≤ cells.length)
    (hsrc : src + count ≤ cells.length) (k : ℕ) :
    (moveCells cells dst src count)[k]? =
      if dst ≤ k ∧ k < dst + count then cells[src + (k - dst)]? else cells[k]? := by
  have htake : (cells.take dst).length = dst := by rw [List.length_take]; omega
  have hmid : ((cells.drop src).take count).length = count := by
    rw [List.length_take, List.length_drop]
    omega
  rw [moveCells, List.append_assoc]
  rcases Nat.lt_or_ge k dst with hk | hk
  · rw [List.getElem?_append_left (by omega), List.getElem?_take_of_lt hk, if_neg (by omega)]
  rw [List.getElem?_append_right (by omega), htake]
  rcases Nat.lt_or_ge k (dst + count) with hk' | hk'
  · rw [List.getElem?_append_left (by omega), List.getElem?_take_of_lt (by omega),
      List.getElem?_drop, if_pos ⟨hk, hk'⟩]
  · rw [List.getElem?_append_right (by omega), hmid, List.getElem?_drop, if_neg (by omega)]
    congr 1
    omega

theorem getElem?_copyCell {dst src : ℕ} (hdst : dst < cells.length) (hsrc : src < cells.length)
    (k : ℕ) : (copyCell cells dst src)[k]? = if k = dst then cells[src]? else cells[k]? := by
  rw [copyCell, List.getElem?_set, List.getD_eq_getElem?_getD, List.getElem?_eq_getElem hsrc]
  split_ifs <;> first | rfl | omega

theorem getElem?_resizeCells {n k : ℕ} (hk : k < cells.length) (hn : k < n) :
    (resizeCells cells n)[k]? = cells[k]? := by
  rw [resizeCells, List.getElem?_append_left (by rw [List.length_take]; omega),
    List.getElem?_take_of_lt hn]

theorem getElem?_exchange {i j : ℕ} (hi : i < l.length) (hj : j < l.length) (k : ℕ) :
    (exchange l i j)[k]? = if k = j then l[i]? else if k = i then l[j]? else l[k]? := by
  rw [exchange, List.getElem?_eq_getElem hi, List.getElem?_eq_getElem hj]
  simp only [List.getElem?_set, List.length_set]
  split_ifs <;> first | rfl | omega

/-! ## What a block holds -/

@[simp] theorem holds_nil : Holds cells [] := fun _ hk => absurd hk (Nat.not_lt_zero _)

theorem Holds.length_le (h : Holds cells l) : l.length ≤ cells.length := by
  by_contra hlt
  have hk := h cells.length (by omega)
  rw [List.getElem?_eq_none (Nat.le_refl _)] at hk
  cases hk

/-- Fewer of the items are held, too. -/
theorem Holds.take (h : Holds cells l) (n : ℕ) : Holds cells (l.take n) := by
  intro k hk
  rw [List.length_take] at hk
  rw [h k (by omega), List.getElem?_take_of_lt (by omega)]

/-- Cells behind the items do not matter. -/
theorem Holds.resize {n : ℕ} (h : Holds cells l) (hn : l.length ≤ n) :
    Holds (resizeCells cells n) l := by
  intro k hk
  rw [getElem?_resizeCells (Nat.lt_of_lt_of_le hk h.length_le) (by omega), h k hk]

/-- Writing behind the items appends one. -/
theorem Holds.push (h : Holds cells l) (hroom : l.length < cells.length) (a : α) :
    Holds (cells.set l.length (some a)) (l ++ [a]) := by
  intro k hk
  rw [List.length_append, List.length_singleton] at hk
  rw [List.getElem?_set]
  split
  · rw [← ‹l.length = k›, List.getElem?_concat_length]
  · rw [h k (by omega), List.getElem?_append_left (by omega)]

/-- Moving the last items to the place of some before them takes these out. -/
theorem Holds.splice {start count : ℕ} (h : Holds cells l) (hle : start + count ≤ l.length) :
    Holds (moveCells cells start (start + count) (l.length - start - count))
      (l.take start ++ l.drop (start + count)) := by
  have hcells := h.length_le
  intro k hk
  rw [List.length_append, List.length_take, List.length_drop] at hk
  rw [getElem?_moveCells (by omega) (by omega)]
  rcases Nat.lt_or_ge k start with hlt | hge
  · rw [if_neg (by omega), h k (by omega),
      List.getElem?_append_left (by rw [List.length_take]; omega),
      List.getElem?_take_of_lt hlt]
  · rw [if_pos (by omega), h _ (by omega),
      List.getElem?_append_right (by rw [List.length_take]; omega), List.getElem?_drop,
      List.length_take, Nat.min_eq_left (by omega)]

/-- Moving the items from a place on by one cell, and writing there, inserts one. -/
theorem Holds.insert {idx : ℕ} (h : Holds cells l) (hidx : idx ≤ l.length)
    (hroom : l.length < cells.length) (a : α) :
    Holds ((moveCells cells (idx + 1) idx (l.length - idx)).set idx (some a))
      (l.insertIdx idx a) := by
  intro k hk
  rw [List.length_insertIdx_of_le_length hidx] at hk
  rw [List.getElem?_set, length_moveCells (by omega) (by omega),
    getElem?_moveCells (by omega) (by omega)]
  -- The items before the place stay, the others are one cell further on.
  rcases Nat.lt_trichotomy k idx with hlt | rfl | hgt
  · rw [if_neg (by omega), if_neg (by omega), h k (by omega),
      List.getElem?_insertIdx_of_lt hlt]
  · rw [if_pos rfl, if_pos (by omega), List.getElem?_insertIdx_self, if_pos hidx]
  · rw [if_neg (by omega), if_pos (by omega), h _ (by omega),
      List.getElem?_insertIdx_of_gt hgt]
    congr 2
    omega

/-- Two items are exchanged by way of a cell behind them. -/
theorem Holds.exchange {i j : ℕ} (h : Holds cells l) (hi : i < l.length) (hj : j < l.length)
    (hroom : l.length < cells.length) :
    Holds (copyCell (copyCell (copyCell cells l.length i) i j) j l.length) (exchange l i j) := by
  intro k hk
  rw [length_exchange] at hk
  simp only [getElem?_copyCell, length_copyCell, hroom, Nat.lt_trans hi hroom,
    Nat.lt_trans hj hroom, getElem?_exchange hi hj]
  rw [h i hi, h j hj, h k hk]
  split_ifs <;> first | rfl | omega

/-! ## Reversing by exchanges -/

/-- The items before a place are exchanged with those that mirror them, from the middle on. -/
def mirror : ℕ → List α → List α
  | 0, l => l
  | i + 1, l => mirror i (exchange l i (l.length - (i + 1)))

theorem mirror_eq {l₀ : List α} {i : ℕ} (hi : 2 * i ≤ l₀.length) (hlength : l.length = l₀.length)
    (hl : ∀ k < l.length, l[k]? =
      if i ≤ k ∧ k < l.length - i then l₀[l.length - 1 - k]? else l₀[k]?) :
    mirror i l = l₀.reverse := by
  induction i generalizing l with
  | zero =>
    refine List.ext_getElem? fun k => ?_
    rcases Nat.lt_or_ge k l.length with hk | hk
    · rw [mirror, hl k hk, if_pos (by omega), List.getElem?_reverse (by omega), hlength]
    · rw [mirror, List.getElem?_eq_none hk, List.getElem?_eq_none (by simpa [hlength] using hk)]
  | succ i ih =>
    refine ih (by omega) (by simpa using hlength) fun k hk => ?_
    rw [length_exchange] at hk ⊢
    have hfirst : l[i]? = l₀[i]? := by rw [hl i (by omega), if_neg (by omega)]
    have hlast : l[l.length - (i + 1)]? = l₀[l.length - (i + 1)]? := by
      rw [hl _ (by omega), if_neg (by omega)]
    rw [getElem?_exchange (by omega) (by omega), hfirst, hlast]
    -- The two items exchanged mirror each other, the others are where they were.
    by_cases hmirrored : k = l.length - (i + 1)
    · rw [if_pos hmirrored, if_pos (by omega)]
      congr 1
      omega
    by_cases hplace : k = i
    · rw [if_neg hmirrored, if_pos hplace, if_pos (by omega)]
      congr 1
      omega
    · rw [if_neg hmirrored, if_neg hplace, hl k hk]
      exact if_congr (by omega) rfl rfl

/-- Exchanging the items of the first half with those that mirror them reverses a list. -/
theorem mirror_half (l : List α) : mirror (l.length / 2) l = l.reverse :=
  mirror_eq (by omega) rfl fun k hk => by
    split_ifs
    · -- Only the item in the middle, which is its own mirror image.
      congr 1
      omega
    · rfl

end Nbstftp.Lib
