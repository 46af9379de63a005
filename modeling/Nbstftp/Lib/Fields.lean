import Mathlib.Data.List.TakeWhile
import Mathlib.Tactic.Common

/-!
# Fields that end in a separator

A list is read field by field, each up to a separator `z` or the end of the list
(`nextField`, `afterField`). The fields read are those between the separators
(`field_eq_getD`), and do not change with more separators at the end
(`field_append_replicate`): a list may be read out of a larger block that is filled up
with separators.
-/

namespace Nbstftp.Lib

variable {α : Type*} [DecidableEq α] (z : α)

/-- The field at the start of a list. -/
def nextField (l : List α) : List α := l.takeWhile (· != z)

/-- What follows it, behind its separator. -/
def afterField (l : List α) : List α := (l.dropWhile (· != z)).tail

/-- The `k`-th field of a list: empty if there are not as many. -/
def field : List α → ℕ → List α
  | l, 0 => nextField z l
  | l, k + 1 => field (afterField z l) k

variable {z} {l : List α}

theorem notMem_nextField : z ∉ nextField z l := fun h => by
  simpa using List.mem_takeWhile_imp h

theorem nextField_of_notMem (h : z ∉ l) : nextField z l = l := by
  refine List.takeWhile_eq_self_iff.2 fun a ha => ?_
  simpa using fun heq : a = z => h (heq ▸ ha)

theorem afterField_of_notMem (h : z ∉ l) : afterField z l = [] := by
  have hnil : l.dropWhile (· != z) = [] :=
    List.dropWhile_eq_nil_iff.2 fun a ha => by simpa using fun heq : a = z => h (heq ▸ ha)
  rw [afterField, hnil, List.tail_nil]

/-- A list with a separator is its first field, the separator, and what follows. -/
theorem nextField_append (h : z ∈ l) : nextField z l ++ z :: afterField z l = l := by
  have hne : l.dropWhile (· != z) ≠ [] := fun hnil => by
    simpa using List.dropWhile_eq_nil_iff.1 hnil z h
  have hhead : (l.dropWhile (· != z)).head hne = z := by
    simpa using List.head_dropWhile_not (· != z) hne
  have hcons : z :: afterField z l = l.dropWhile (· != z) := by
    conv_rhs => rw [← List.cons_head_tail hne, hhead]
    rfl
  rw [hcons]
  exact List.takeWhile_append_dropWhile

/-- The first field of a list that is put together. -/
theorem nextField_append_cons {f : List α} (h : z ∉ f) (rest : List α) :
    nextField z (f ++ z :: rest) = f := by
  have hf : ∀ a ∈ f, (a != z) = true := fun a ha => by
    simpa using fun heq : a = z => h (heq ▸ ha)
  rw [nextField, List.takeWhile_append_of_pos hf, List.takeWhile_cons_of_neg (by simp),
    List.append_nil]

theorem afterField_append_cons {f : List α} (h : z ∉ f) (rest : List α) :
    afterField z (f ++ z :: rest) = rest := by
  have hf : ∀ a ∈ f, (a != z) = true := fun a ha => by
    simpa using fun heq : a = z => h (heq ▸ ha)
  rw [afterField, List.dropWhile_append_of_pos hf, List.dropWhile_cons_of_neg (by simp),
    List.tail_cons]

/-- What follows the first field starts behind its separator. -/
theorem afterField_eq_drop (l : List α) : afterField z l = l.drop ((nextField z l).length + 1) := by
  by_cases h : z ∈ l
  · conv_rhs => rw [← nextField_append h]
    rw [nextField_append_cons notMem_nextField, List.drop_append, Nat.add_sub_cancel_left,
      List.drop_eq_nil_of_le (Nat.le_succ _)]
    rfl
  · rw [afterField_of_notMem h, nextField_of_notMem h, List.drop_eq_nil_of_le (Nat.le_succ _)]

/-- The first field ends at a separator at the latest. -/
theorem length_nextField_le {j : ℕ} (h : l[j]? = some z) : (nextField z l).length ≤ j := by
  by_contra hlt
  obtain ⟨rest, hrest⟩ : nextField z l <+: l := List.takeWhile_prefix _
  rw [← hrest, List.getElem?_append_left (Nat.not_le.1 hlt)] at h
  exact notMem_nextField (List.mem_of_getElem? h)

/-! ## Fields by number -/

theorem field_nil (k : ℕ) : field z [] k = [] := by
  induction k with
  | zero => rfl
  | succ k ih => exact ih

theorem splitOn_of_notMem (h : z ∉ l) : l.splitOn z = [l] :=
  List.splitOnP_eq_singleton fun a ha => by simpa using fun heq : a = z => h (heq ▸ ha)

theorem splitOn_of_mem (h : z ∈ l) : l.splitOn z = nextField z l :: (afterField z l).splitOn z := by
  conv_lhs => rw [← nextField_append h]
  refine List.splitOnP_append_cons_of_forall_mem (fun a ha => ?_) z (by simp) _
  simpa using fun heq : a = z => notMem_nextField (heq ▸ ha)

/-- The fields of a list are what is between its separators. -/
theorem field_eq_getD (l : List α) (k : ℕ) : field z l k = (l.splitOn z).getD k [] := by
  induction k generalizing l with
  | zero =>
    by_cases h : z ∈ l
    · rw [splitOn_of_mem h]
      rfl
    · rw [splitOn_of_notMem h]
      exact nextField_of_notMem h
  | succ k ih =>
    by_cases h : z ∈ l
    · rw [splitOn_of_mem h]
      exact ih (afterField z l)
    · rw [splitOn_of_notMem h, field, afterField_of_notMem h]
      exact field_nil k

/-- A list put together of a field and further ones. -/
theorem field_append_cons_zero {f : List α} (h : z ∉ f) (rest : List α) :
    field z (f ++ z :: rest) 0 = f :=
  nextField_append_cons h rest

theorem field_append_cons_succ {f : List α} (h : z ∉ f) (rest : List α) (k : ℕ) :
    field z (f ++ z :: rest) (k + 1) = field z rest k :=
  congrArg (field z · k) (afterField_append_cons h rest)

/-- More separators at the end are more empty fields. -/
theorem field_append_replicate (l : List α) (n k : ℕ) :
    field z (l ++ List.replicate n z) k = field z l k := by
  induction k generalizing l n with
  | zero =>
    by_cases h : z ∈ l
    · conv_lhs => rw [← nextField_append h, List.append_assoc, List.cons_append]
      exact nextField_append_cons notMem_nextField _
    · cases n with
      | zero => rw [List.replicate_zero, List.append_nil]
      | succ n =>
        rw [List.replicate_succ, field_append_cons_zero h]
        exact (nextField_of_notMem h).symm
  | succ k ih =>
    by_cases h : z ∈ l
    · conv_lhs => rw [← nextField_append h, List.append_assoc, List.cons_append]
      rw [field_append_cons_succ notMem_nextField, ih]
      rfl
    · rw [field, field, afterField_of_notMem h]
      cases n with
      | zero => rw [List.replicate_zero, List.append_nil, afterField_of_notMem h]
      | succ n =>
        rw [List.replicate_succ, afterField_append_cons h]
        exact ih [] n

end Nbstftp.Lib
