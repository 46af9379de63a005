import Mathlib.Data.List.Basic
import Mathlib.Data.List.Induction
import Mathlib.Tactic.Common

/-!
# Resolving paths lexically

A path is a list of components: stay here, go one level up, or enter a name
(`Component`). Walking along it moves a *location* (`Location.walk`): the root
or the working directory, the levels climbed above the latter, and the names
entered from there.

What a path does to any location is determined by its own *normal form*
(`normal`), the levels it climbs and the names it then enters, i.e., where it
leads from an empty relative location (`walk_eq_follow`). So a path leads below
the location it starts from exactly when it does not climb out of it, or climbs
down again by the same names (`below_walk_iff`).
-/

namespace Nbstftp.Lib

variable {α : Type*}

/-- A component of a path. -/
inductive Component (α : Type*)
  | here
  | up
  | name (a : α)

/-- A resolved path: the names entered from the root, or from `ups` levels
    above the working directory. -/
@[ext] structure Location (α : Type*) where
  absolute : Bool
  ups : ℕ
  names : List α
  deriving DecidableEq

namespace Location

/-- One component of a path: nothing is above the root. -/
def enter (l : Location α) : Component α → Location α
  | .here => l
  | .name a => { l with names := l.names ++ [a] }
  | .up =>
    if l.names = [] then { l with ups := if l.absolute then l.ups else l.ups + 1 }
    else { l with names := l.names.dropLast }

/-- Walking along a path. -/
def walk (l : Location α) (cs : List (Component α)) : Location α := cs.foldl enter l

/-- The normal form of a path: the levels it climbs and the names it enters. -/
def normal (cs : List (Component α)) : Location α := walk ⟨false, 0, []⟩ cs

/-- The location `r`, relative, as seen from `l`. -/
def follow (l r : Location α) : Location α where
  absolute := l.absolute
  ups := if l.absolute then l.ups else l.ups + (r.ups - l.names.length)
  names := l.names.take (l.names.length - r.ups) ++ r.names

/-- `r` is at or below `l`. -/
def Below (l r : Location α) : Prop :=
  l.absolute = r.absolute ∧ l.ups = r.ups ∧ l.names <+: r.names

instance [DecidableEq α] (l r : Location α) : Decidable (Below l r) :=
  inferInstanceAs (Decidable (_ ∧ _))

theorem walk_append (l : Location α) (cs ds : List (Component α)) :
    l.walk (cs ++ ds) = (l.walk cs).walk ds :=
  List.foldl_append

theorem enter_absolute (l : Location α) (c : Component α) : (l.enter c).absolute = l.absolute := by
  cases c with
  | here => rfl
  | up => rw [enter]; split <;> rfl
  | name a => rfl

theorem walk_absolute (l : Location α) (cs : List (Component α)) :
    (l.walk cs).absolute = l.absolute := by
  induction cs using List.reverseRecOn with
  | nil => rfl
  | append_singleton cs c ih => rw [walk_append]; exact (enter_absolute _ c).trans ih

theorem follow_nil (l : Location α) : l.follow ⟨false, 0, []⟩ = l := by
  ext <;> simp [follow]

/-- A component does to a location seen from `l` what it does to it on its own. -/
theorem follow_enter (l : Location α) {r : Location α} (hr : r.absolute = false)
    (c : Component α) : l.follow (r.enter c) = (l.follow r).enter c := by
  cases c with
  | here => rfl
  | name a => simp [follow, enter]
  | up =>
    by_cases hn : r.names = []
    · -- Both climb: in `l` while names are left there, and above it then.
      by_cases hl : l.names.length ≤ r.ups
      · have hl' : l.names.length ≤ r.ups + 1 := Nat.le_succ_of_le hl
        cases ha : l.absolute <;> simp [follow, enter, hn, hr, ha, hl, hl']
        omega
      · have hlt : l.names.length - r.ups ≠ 0 := by omega
        have hne : l.names ≠ [] := fun h => hl (by simp [h])
        have htake : l.names.take (l.names.length - r.ups) ≠ [] := by simp [hlt, hne]
        have hlast : (l.names.take (l.names.length - r.ups)).dropLast =
            l.names.take (l.names.length - (r.ups + 1)) := by
          rw [List.dropLast_eq_take, List.take_take, List.length_take]
          congr 1
          omega
        have hups : r.ups + 1 - l.names.length = r.ups - l.names.length := by omega
        simp [follow, enter, hn, hr, htake, hlast, hups]
    · simp [follow, enter, hn, List.dropLast_append_of_ne_nil hn]

/-- Where a path leads from `l` is its normal form seen from `l`. -/
theorem walk_eq_follow (l : Location α) (cs : List (Component α)) :
    l.walk cs = l.follow (normal cs) := by
  induction cs using List.reverseRecOn with
  | nil => exact (follow_nil l).symm
  | append_singleton cs c ih =>
    rw [normal, walk_append, walk_append, ih]
    exact (follow_enter l (walk_absolute _ cs) c).symm

/-- What a path has to do to lead at or below `l`: it climbs out of `l` by no
    more than the names of `l` (or `l` is seen from the root), and it enters
    again the names it climbed. -/
def Returns (l r : Location α) : Prop :=
  (l.absolute ∨ r.ups ≤ l.names.length) ∧ l.names.drop (l.names.length - r.ups) <+: r.names

instance [DecidableEq α] (l r : Location α) : Decidable (Returns l r) :=
  inferInstanceAs (Decidable (_ ∧ _))

theorem below_follow_iff (l r : Location α) : l.Below (l.follow r) ↔ l.Returns r := by
  have hups : l.ups = (l.follow r).ups ↔ (l.absolute ∨ r.ups ≤ l.names.length) := by
    cases ha : l.absolute <;> simp [follow, ha]
    omega
  have hnames : l.names <+: (l.follow r).names ↔
      l.names.drop (l.names.length - r.ups) <+: r.names := by
    conv => lhs; lhs; rw [← List.take_append_drop (l.names.length - r.ups) l.names]
    exact List.prefix_append_right_inj _
  rw [Below, hups, hnames, Returns]
  exact and_iff_right rfl

theorem below_walk_iff (l : Location α) (cs : List (Component α)) :
    l.Below (l.walk cs) ↔ l.Returns (normal cs) := by
  rw [walk_eq_follow, below_follow_iff]

end Location

end Nbstftp.Lib
