import Mathlib.Data.List.Basic
import Mathlib.Data.Set.Basic
import Mathlib.Tactic.Common

/-!
# Ledgers

Tokens are issued, held and given back. The books are *balanced* (`Balanced`) if
each token issued is held or was given back, and was given back only once. Where
one holder changes what it holds and gives something back, the books remain
balanced if and only if nothing it held is lost or given back twice
(`Balanced.change_iff`): what others hold need not be looked at.
-/

namespace Nbstftp.Lib

variable {τ : Type*} [DecidableEq τ]

/-- Every token issued is held or was given back, the latter only once. -/
structure Balanced (issued : Set τ) (freed : List τ) (held : Set τ) : Prop where
  kept : ∀ tok ∈ issued, tok ∈ freed ∨ tok ∈ held
  once : ∀ tok ∈ issued, freed.count tok ≤ 1

/-- The tokens of `mine` become those of `mine'` in that those of `back` are given
    back: none is lost, and none given back twice. -/
def Settles (issued mine : Set τ) (back : List τ) (mine' : Set τ) : Prop :=
  ∀ tok ∈ issued, tok ∈ mine → (tok ∈ back ∨ tok ∈ mine') ∧ back.count tok ≤ 1

variable {issued new mine mine' others : Set τ} {freed back : List τ}

theorem settles_nil : Settles issued mine [] mine' ↔ ∀ tok ∈ issued, tok ∈ mine → tok ∈ mine' := by
  simp [Settles]

/-- A holder that keeps what it has settles it. -/
theorem settles_of_subset (h : mine ⊆ mine') : Settles issued mine [] mine' :=
  settles_nil.2 fun _ _ htok => h htok

/-- A holder that is left with nothing is to give everything back, once. -/
theorem settles_empty : Settles issued mine back ∅ ↔
    ∀ tok ∈ issued, tok ∈ mine → back.count tok = 1 := by
  refine forall₃_congr fun tok _ _ => ?_
  simp only [Set.mem_empty_iff_false, or_false]
  rw [← List.count_pos_iff]
  omega

/-- The books remain balanced if and only if the one holder that changes settles what it
    held. It holds what nobody else does and what was not given back, and gives back nothing
    else. -/
theorem Balanced.change_iff (h : Balanced issued freed (mine ∪ others))
    (hothers : ∀ tok ∈ issued, tok ∈ mine → tok ∉ others)
    (hfreed : ∀ tok ∈ issued, tok ∈ mine → tok ∉ freed)
    (hback : ∀ tok ∈ issued, tok ∈ back → tok ∈ mine)
    (hnew : ∀ tok ∈ new, tok ∈ mine' ∧ tok ∉ freed ++ back) :
    Balanced (issued ∪ new) (freed ++ back) (mine' ∪ others) ↔
      Settles issued mine back mine' := by
  constructor
  · intro hafter tok hissued hmine
    have hkept := hafter.kept tok (.inl hissued)
    have honce := hafter.once tok (.inl hissued)
    rw [List.count_append, List.count_eq_zero.2 (hfreed tok hissued hmine), Nat.zero_add] at honce
    refine ⟨?_, honce⟩
    rcases hkept with hgone | hheld
    · exact .inl ((List.mem_append.1 hgone).resolve_left (hfreed tok hissued hmine))
    · exact .inr (hheld.resolve_right (hothers tok hissued hmine))
  · intro hsettles
    refine ⟨fun tok htok => ?_, fun tok htok => ?_⟩
    · rcases htok with hissued | hissued
      · rcases h.kept tok hissued with hgone | hmine | hheld
        · exact .inl (List.mem_append_left _ hgone)
        · exact (hsettles tok hissued hmine).1.imp (List.mem_append_right _) .inl
        · exact .inr (.inr hheld)
      · exact .inr (.inl (hnew tok hissued).1)
    · rcases htok with hissued | hissued
      · rw [List.count_append]
        by_cases hmine : tok ∈ mine
        · rw [List.count_eq_zero.2 (hfreed tok hissued hmine), Nat.zero_add]
          exact (hsettles tok hissued hmine).2
        · rw [List.count_eq_zero.2 fun hgone => hmine (hback tok hissued hgone)]
          exact h.once tok hissued
      · rw [List.count_eq_zero.2 (hnew tok hissued).2]
        exact Nat.zero_le _

end Nbstftp.Lib
