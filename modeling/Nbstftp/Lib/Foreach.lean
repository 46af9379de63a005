import Nbstftp.Lib.Trace
import Mathlib.Data.List.Chain
import Mathlib.Tactic.Common

/-!
# Index loops over a list that shrinks

A loop walks a list kept in a state by an index, reading the list anew in each
iteration, while its body may take the current item out of the list
(`foreach`). The index moves on all the same, so that the item that moved up
into the place of one taken out is passed over.

* An invariant of the body is one of the loop (`foreach_invariant`).
* If the body leaves the list alone, the loop goes over it as it is (`foreach_eq_run`).
* What such a loop visits (`visited`), what it passes over (`passed`) and what it
  leaves (`walk`) is known from what the body makes of each item (`foreach_rule`).
* It leaves what a loop over all items would if and only if nothing was to be
  done for the items passed over, i.e., for those following one taken out
  (`walk_map_eq_iff`).
-/

namespace Nbstftp.Lib

variable {σ α β γ ε : Type*}

/-- The loop from index `i` on, of at most `n` iterations; the body may fail,
    which ends it. -/
def foreachFrom (items : σ → List α) (body : σ → α → Except ε σ) : ℕ → ℕ → σ → Except ε σ
  | 0, _, s => .ok s
  | n + 1, i, s =>
    match (items s)[i]? with
    | none => .ok s
    | some a =>
      match body s a with
      | .ok s' => foreachFrom items body n (i + 1) s'
      | .error e => .error e

/-- The loop over a list that its body does not lengthen: there are as many
    iterations as items at most. -/
def foreach (items : σ → List α) (body : σ → α → Except ε σ) (s : σ) : Except ε σ :=
  foreachFrom items body (items s).length 0 s

section

variable {items : σ → List α} {body : σ → α → Except ε σ}

/-- An index behind the items ends the loop. -/
theorem foreachFrom_stop {i : ℕ} {s : σ} (hi : (items s).length ≤ i) (n : ℕ) :
    foreachFrom items body n i s = .ok s := by
  cases n with
  | zero => rfl
  | succ n => rw [foreachFrom, List.getElem?_eq_none hi]

theorem foreachFrom_ok {n i : ℕ} {s s' : σ} {a : α} (ha : (items s)[i]? = some a)
    (hs : body s a = .ok s') :
    foreachFrom items body (n + 1) i s = foreachFrom items body n (i + 1) s' := by
  rw [foreachFrom, ha]
  simp only [hs]

theorem foreachFrom_error {n i : ℕ} {s : σ} {a : α} {e : ε} (ha : (items s)[i]? = some a)
    (hs : body s a = .error e) : foreachFrom items body (n + 1) i s = .error e := by
  rw [foreachFrom, ha]
  simp only [hs]

/-- Iterations beyond those the items need do not matter. -/
theorem foreachFrom_fuel
    (hbody : ∀ s a s', a ∈ items s → body s a = .ok s' → (items s').length ≤ (items s).length)
    {n k i : ℕ} {s : σ} (hn : (items s).length ≤ n + i) (hk : (items s).length ≤ k + i) :
    foreachFrom items body n i s = foreachFrom items body k i s := by
  induction n generalizing k i s with
  | zero => rw [foreachFrom_stop (by omega), foreachFrom_stop (by omega)]
  | succ n ih =>
    rcases Nat.lt_or_ge i (items s).length with hi | hi
    · obtain ⟨k, rfl⟩ : ∃ l, k = l + 1 := ⟨k - 1, by omega⟩
      have ha := List.getElem?_eq_getElem hi
      cases hs : body s (items s)[i] with
      | error e => rw [foreachFrom_error ha hs, foreachFrom_error ha hs]
      | ok s' =>
        have hle := hbody s _ s' (List.getElem_mem hi) hs
        rw [foreachFrom_ok ha hs, foreachFrom_ok ha hs]
        exact ih (by omega) (by omega)
    · rw [foreachFrom_stop hi, foreachFrom_stop hi]

/-- So the loop is not cut short. -/
theorem foreach_eq_foreachFrom
    (hbody : ∀ s a s', a ∈ items s → body s a = .ok s' → (items s').length ≤ (items s).length)
    {n : ℕ} {s : σ} (hn : (items s).length ≤ n) :
    foreach items body s = foreachFrom items body n 0 s :=
  foreachFrom_fuel hbody (Nat.le_refl _) hn

/-- What the body keeps, the loop keeps; and it fails as the body does. -/
theorem foreachFrom_invariant (inv : σ → Prop) (fails : ε → Prop)
    (hok : ∀ s a s', inv s → a ∈ items s → body s a = .ok s' → inv s')
    (herr : ∀ s a e, inv s → a ∈ items s → body s a = .error e → fails e)
    {n i : ℕ} {s : σ} (h₀ : inv s) :
    (∃ s', foreachFrom items body n i s = .ok s' ∧ inv s') ∨
      ∃ e, foreachFrom items body n i s = .error e ∧ fails e := by
  induction n generalizing i s with
  | zero => exact .inl ⟨s, rfl, h₀⟩
  | succ n ih =>
    cases ha : (items s)[i]? with
    | none => exact .inl ⟨s, foreachFrom_stop (List.getElem?_eq_none_iff.1 ha) _, h₀⟩
    | some a =>
      have hmem : a ∈ items s := List.mem_of_getElem? ha
      cases hs : body s a with
      | ok s' =>
        rw [foreachFrom_ok ha hs]
        exact ih (hok s a s' h₀ hmem hs)
      | error e => exact .inr ⟨e, foreachFrom_error ha hs, herr s a e h₀ hmem hs⟩

theorem foreach_invariant (items : σ → List α) (body : σ → α → Except ε σ) (inv : σ → Prop)
    (fails : ε → Prop) (hok : ∀ s a s', inv s → a ∈ items s → body s a = .ok s' → inv s')
    (herr : ∀ s a e, inv s → a ∈ items s → body s a = .error e → fails e) {s : σ} (h₀ : inv s) :
    (∃ s', foreach items body s = .ok s' ∧ inv s') ∨
      ∃ e, foreach items body s = .error e ∧ fails e :=
  foreachFrom_invariant inv fails hok herr h₀

theorem foreachFrom_eq_run (hbody : ∀ s a s', body s a = .ok s' → items s' = items s)
    {n i : ℕ} {s : σ} (hn : (items s).length ≤ n + i) :
    foreachFrom items body n i s = run body s ((items s).drop i) := by
  induction n generalizing i s with
  | zero => rw [foreachFrom_stop (by omega), List.drop_of_length_le (by omega), run]
  | succ n ih =>
    rcases Nat.lt_or_ge i (items s).length with hi | hi
    · have ha := List.getElem?_eq_getElem hi
      rw [List.drop_eq_getElem_cons hi]
      cases hs : body s (items s)[i] with
      | error e => rw [foreachFrom_error ha hs, run, hs]
      | ok s' =>
        have hitems := hbody s _ s' hs
        rw [foreachFrom_ok ha hs, run_cons_ok hs, ← hitems]
        exact ih (by rw [hitems]; omega)
    · rw [foreachFrom_stop hi, List.drop_of_length_le hi, run]

/-- A loop whose body leaves the list alone goes over it as it is. -/
theorem foreach_eq_run (hbody : ∀ s a s', body s a = .ok s' → items s' = items s) (s : σ) :
    foreach items body s = run body s (items s) :=
  foreachFrom_eq_run hbody (Nat.le_refl _)

end

section

variable {τ δ : Type*} {items : σ → List α} {body : σ → α → Except ε σ} {f : τ → σ} {g : δ → ε}
  {recorded : τ → α → Except δ τ}

theorem foreachFrom_map
    (hbody : ∀ t a, body (f t) a = ((recorded t a).map f).mapError g) {n i : ℕ} {t : τ} :
    foreachFrom items body n i (f t) =
      ((foreachFrom (fun t => items (f t)) recorded n i t).map f).mapError g := by
  induction n generalizing i t with
  | zero => rfl
  | succ n ih =>
    rw [foreachFrom, foreachFrom]
    cases (items (f t))[i]? with
    | none => rfl
    | some a =>
      simp only [hbody]
      cases recorded t a with
      | ok t' => exact ih
      | error e => rfl

/-- A loop that records more than another one, and is the same apart from that. -/
theorem foreach_map (hbody : ∀ t a, body (f t) a = ((recorded t a).map f).mapError g) (t : τ) :
    foreach items body (f t) = ((foreach (fun t => items (f t)) recorded t).map f).mapError g :=
  foreachFrom_map hbody

end

/-! ## What is visited, and what is left -/

/-- What is left of the items, where the body makes `keep a` of the item `a`:
    the first one is passed over if `skip`. -/
def walk (keep : α → Option α) : Bool → List α → List α
  | _, [] => []
  | true, a :: rest => a :: walk keep false rest
  | false, a :: rest => (keep a).toList ++ walk keep (keep a).isNone rest

/-- The items visited. -/
def visited (keep : α → Option α) : Bool → List α → List α
  | _, [] => []
  | true, _ :: rest => visited keep false rest
  | false, a :: rest => a :: visited keep (keep a).isNone rest

/-- The items passed over. -/
def passed (keep : α → Option α) : Bool → List α → List α
  | _, [] => []
  | true, a :: rest => a :: passed keep false rest
  | false, a :: rest => passed keep (keep a).isNone rest

/-- Whether the item that follows some is passed over. -/
def skips (keep : α → Option α) : Bool → List α → Bool
  | skip, [] => skip
  | true, _ :: rest => skips keep false rest
  | false, a :: rest => skips keep (keep a).isNone rest

section

variable {keep : α → Option α}

theorem walk_append (skip : Bool) (l l' : List α) :
    walk keep skip (l ++ l') = walk keep skip l ++ walk keep (skips keep skip l) l' := by
  induction l generalizing skip with
  | nil => rfl
  | cons a l ih =>
    cases skip with
    | true => rw [List.cons_append, walk, walk, skips, ih, List.cons_append]
    | false => rw [List.cons_append, walk, walk, skips, ih, List.append_assoc]

theorem visited_append (skip : Bool) (l l' : List α) :
    visited keep skip (l ++ l') = visited keep skip l ++ visited keep (skips keep skip l) l' := by
  induction l generalizing skip with
  | nil => rfl
  | cons a l ih =>
    cases skip with
    | true => rw [List.cons_append, visited, visited, skips, ih]
    | false => rw [List.cons_append, visited, visited, skips, ih, List.cons_append]

theorem passed_append (skip : Bool) (l l' : List α) :
    passed keep skip (l ++ l') = passed keep skip l ++ passed keep (skips keep skip l) l' := by
  induction l generalizing skip with
  | nil => rfl
  | cons a l ih =>
    cases skip with
    | true => rw [List.cons_append, passed, passed, skips, ih, List.cons_append]
    | false => rw [List.cons_append, passed, passed, skips, ih]

theorem skips_append (skip : Bool) (l l' : List α) :
    skips keep skip (l ++ l') = skips keep (skips keep skip l) l' := by
  induction l generalizing skip with
  | nil => rfl
  | cons a l ih =>
    cases skip with
    | true => rw [List.cons_append, skips, skips, ih]
    | false => rw [List.cons_append, skips, skips, ih]

theorem visited_sublist (skip : Bool) (l : List α) : (visited keep skip l).Sublist l := by
  induction l generalizing skip with
  | nil => exact List.Sublist.refl _
  | cons a l ih =>
    cases skip with
    | true => exact (ih false).cons a
    | false => exact (ih _).cons_cons a

theorem passed_sublist (skip : Bool) (l : List α) : (passed keep skip l).Sublist l := by
  induction l generalizing skip with
  | nil => exact List.Sublist.refl _
  | cons a l ih =>
    cases skip with
    | true => exact (ih false).cons_cons a
    | false => exact (ih _).cons a

/-- Every item is visited or passed over, and not both. -/
theorem visited_append_passed (skip : Bool) (l : List α) :
    (visited keep skip l ++ passed keep skip l).Perm l := by
  induction l generalizing skip with
  | nil => exact .nil
  | cons a l ih =>
    cases skip with
    | true => exact List.perm_middle.trans ((ih false).cons a)
    | false => exact (ih _).cons a

theorem notMem_visited {skip : Bool} {l : List α} {a : α} (hl : l.Nodup)
    (ha : a ∈ passed keep skip l) : a ∉ visited keep skip l := fun ha' =>
  (List.nodup_append.1 ((visited_append_passed skip l).nodup_iff.2 hl)).2.2 a ha' a ha rfl

/-- What is left is made of the items visited and kept, and of those passed over. -/
theorem mem_walk {skip : Bool} {l : List α} {b : α} :
    b ∈ walk keep skip l ↔
      (∃ a ∈ visited keep skip l, keep a = some b) ∨ b ∈ passed keep skip l := by
  induction l generalizing skip with
  | nil => simp [walk, visited, passed]
  | cons a l ih =>
    cases skip with
    | true => rw [walk, visited, passed, List.mem_cons, List.mem_cons, ih, or_left_comm]
    | false =>
      rw [walk, visited, passed, List.mem_append, ih, Option.mem_toList]
      simp only [List.mem_cons, exists_eq_or_imp, or_assoc]

end

/-! ## The rule -/

section

variable {items : σ → List α} {body : σ → α → Except ε σ} {keep : α → Option α} {l : List α}
  {R : List α → σ → Prop} {fails : ε → Prop}

/-- The loop from an index on: `R` relates the items before it to the state. -/
theorem foreachFrom_rule
    (hskip : ∀ pre a rest s, l = pre ++ a :: rest → skips keep false pre = true → R pre s →
      R (pre ++ [a]) s)
    (hbody : ∀ pre a rest s, l = pre ++ a :: rest → skips keep false pre = false →
      items s = walk keep false pre ++ a :: rest → R pre s →
      (∃ s', body s a = .ok s' ∧ items s' = walk keep false pre ++ ((keep a).toList ++ rest) ∧
        R (pre ++ [a]) s') ∨ ∃ e, body s a = .error e ∧ fails e)
    {n : ℕ} {pre rest : List α} {s : σ} (hl : l = pre ++ rest)
    (hs : items s = walk keep false pre ++ rest) (hR : R pre s) (hn : rest.length ≤ n) :
    (∃ s', foreachFrom items body n
        ((walk keep false pre).length + (skips keep false pre).toNat) s = .ok s' ∧
      items s' = walk keep false l ∧ R l s') ∨
    ∃ e, foreachFrom items body n
        ((walk keep false pre).length + (skips keep false pre).toNat) s = .error e ∧ fails e := by
  induction rest generalizing n pre s with
  | nil =>
    rw [List.append_nil] at hl hs
    refine .inl ⟨s, foreachFrom_stop ?_ n, hl ▸ hs, hl ▸ hR⟩
    rw [hs]
    exact Nat.le_add_right _ _
  | cons a rest ih =>
    have hl' : l = pre ++ [a] ++ rest := by rw [hl, List.append_assoc, List.singleton_append]
    cases hk : skips keep false pre with
    | true =>
      -- The item is passed over: it goes with those before the index.
      have hwalk : walk keep false (pre ++ [a]) = walk keep false pre ++ [a] := by
        rw [walk_append, hk]
        rfl
      have hk' : skips keep false (pre ++ [a]) = false := by
        rw [skips_append, hk]
        rfl
      have hrest := ih (n := n) hl' (by rw [hs, hwalk, List.append_assoc]; rfl)
        (hskip pre a rest s hl hk hR) (Nat.le_of_succ_le hn)
      rw [hwalk, hk', List.length_append] at hrest
      exact hrest
    | false =>
      obtain ⟨n, rfl⟩ : ∃ k, n = k + 1 := ⟨n - 1, by rw [List.length_cons] at hn; omega⟩
      have hget : (items s)[(walk keep false pre).length + false.toNat]? = some a := by
        rw [hs, Bool.toNat_false, Nat.add_zero, List.getElem?_append_right (Nat.le_refl _),
          Nat.sub_self]
        rfl
      rcases hbody pre a rest s hl hk hs hR with ⟨s₁, hs₁, hitems, hR₁⟩ | ⟨e, he, hfails⟩
      · -- The index moves on: behind the item, or behind the one that took its place.
        have hwalk : walk keep false (pre ++ [a]) = walk keep false pre ++ (keep a).toList := by
          rw [walk_append, hk, walk, walk, List.append_nil]
        have hk' : skips keep false (pre ++ [a]) = (keep a).isNone := by
          rw [skips_append, hk]
          rfl
        have hindex : (walk keep false pre ++ (keep a).toList).length + (keep a).isNone.toNat =
            (walk keep false pre).length + false.toNat + 1 := by
          cases keep a <;> simp
        have hrest := ih (n := n) hl' (by rw [hitems, hwalk, List.append_assoc]) hR₁
          (Nat.le_of_succ_le_succ hn)
        rw [hwalk, hk', hindex] at hrest
        rwa [foreachFrom_ok hget hs₁]
      · exact .inr ⟨e, foreachFrom_error hget he, hfails⟩

variable (items body keep R fails) in
/-- A loop whose body makes `keep a` of each item `a` it visits leaves what is to be
    left, and keeps a relation of the items so far to the state; or it fails as the
    body does. -/
theorem foreach_rule {s : σ} (h₀ : R [] s)
    (hskip : ∀ pre a rest s', items s = pre ++ a :: rest → skips keep false pre = true →
      R pre s' → R (pre ++ [a]) s')
    (hbody : ∀ pre a rest s', items s = pre ++ a :: rest → skips keep false pre = false →
      items s' = walk keep false pre ++ a :: rest → R pre s' →
      (∃ s'', body s' a = .ok s'' ∧
        items s'' = walk keep false pre ++ ((keep a).toList ++ rest) ∧ R (pre ++ [a]) s'') ∨
      ∃ e, body s' a = .error e ∧ fails e) :
    (∃ s', foreach items body s = .ok s' ∧ items s' = walk keep false (items s) ∧
      R (items s) s') ∨ ∃ e, foreach items body s = .error e ∧ fails e := by
  have hs : items s = walk keep false [] ++ items s := rfl
  exact foreachFrom_rule hskip hbody (List.nil_append _).symm hs h₀ (Nat.le_refl _)

end

section

variable {keep : α → Option α} {out : α → List β}

/-! ## When nothing is missed -/

/-- A list filtered item by item. -/
theorem filterMap_cons_toList (a : α) (l : List α) :
    (a :: l).filterMap keep = (keep a).toList ++ l.filterMap keep := by
  rw [List.filterMap_eq_flatMap_toList, List.filterMap_eq_flatMap_toList, List.flatMap_cons]

/-- As much is left as would be if no item was passed over, or more. -/
theorem length_filterMap_le_walk (skip : Bool) (l : List α) :
    (l.filterMap keep).length ≤ (walk keep skip l).length := by
  induction l generalizing skip with
  | nil => exact Nat.zero_le _
  | cons a rest ih =>
    have hle : (keep a).toList.length ≤ 1 := by cases keep a <;> simp
    rw [filterMap_cons_toList, List.length_append]
    cases skip with
    | true =>
      have := ih false
      rw [walk, List.length_cons]
      omega
    | false =>
      rw [walk, List.length_append]
      exact Nat.add_le_add_left (ih _) _

variable (keep) in
/-- A walk leaves, seen by `g`, what it would without passing over an item, if
    and only if nothing was to be done for those following one taken out. -/
theorem walk_map_eq_iff (g : α → γ) (skip : Bool) (l : List α) :
    (walk keep skip l).map g = (l.filterMap keep).map g ↔
      (skip = true → ∀ b ∈ l.head?, (keep b).map g = some (g b)) ∧
      l.IsChain fun a b => keep a = none → (keep b).map g = some (g b) := by
  induction l generalizing skip with
  | nil => simp [walk]
  | cons a rest ih =>
    rw [filterMap_cons_toList, List.isChain_cons]
    cases skip with
    | false =>
      rw [walk, List.map_append, List.map_append, List.append_cancel_left_eq, ih]
      simp only [Option.isNone_iff_eq_none]
      tauto
    | true =>
      rw [walk, List.map_cons]
      cases ha : keep a with
      | some a' =>
        have hrest := ih false
        simp only [Bool.false_eq_true, false_implies, true_and] at hrest
        rw [Option.toList_some, List.singleton_append, List.map_cons, List.cons.injEq, hrest]
        simp [ha, eq_comm (a := g a)]
      | none =>
        -- What should have gone is still there, which makes the walk too long.
        have hne : (g a :: (walk keep false rest).map g) ≠ (rest.filterMap keep).map g := by
          intro h
          have hle : (rest.filterMap keep).length ≤ (walk keep false rest).length :=
            length_filterMap_le_walk false rest
          have hlen := congrArg List.length h
          simp only [List.length_cons, List.length_map] at hlen
          omega
        simp [ha, hne]

variable (keep out) in
/-- What is logged for the items visited, and what would be for those passed over. -/
theorem length_visited_add_passed (skip : Bool) (l : List α) :
    ((visited keep skip l).flatMap out).length + ((passed keep skip l).flatMap out).length =
      (l.flatMap out).length := by
  rw [← List.length_append, ← List.flatMap_append]
  exact ((visited_append_passed skip l).flatMap_right out).length_eq

/-- All that is to be logged is if and only if nothing is to be for the items passed
    over. -/
theorem visited_flatMap_eq_iff (skip : Bool) (l : List α) :
    (visited keep skip l).flatMap out = l.flatMap out ↔ ∀ a ∈ passed keep skip l, out a = [] := by
  constructor
  · intro h a ha
    have hlen := length_visited_add_passed keep out skip l
    rw [h, Nat.add_eq_left, List.length_eq_zero_iff] at hlen
    exact List.flatMap_eq_nil_iff.1 hlen a ha
  · intro h
    induction l generalizing skip with
    | nil => rfl
    | cons a rest ih =>
      cases skip with
      | true =>
        rw [visited, ih false fun b hb => h b (List.mem_cons_of_mem a hb), List.flatMap_cons,
          h a List.mem_cons_self, List.nil_append]
      | false => rw [visited, List.flatMap_cons, List.flatMap_cons, ih _ h]

/-- An item passed over follows one taken out. -/
theorem forall_mem_passed {P : α → Prop} {skip : Bool} {l : List α}
    (hskip : skip = true → ∀ b ∈ l.head?, P b) (hl : l.IsChain fun a b => keep a = none → P b) :
    ∀ b ∈ passed keep skip l, P b := by
  induction l generalizing skip with
  | nil => exact fun b hb => absurd hb List.not_mem_nil
  | cons a rest ih =>
    rw [List.isChain_cons] at hl
    cases skip with
    | true =>
      intro b hb
      rcases List.mem_cons.1 hb with rfl | hb
      · exact hskip rfl _ rfl
      · exact ih (fun h => absurd h Bool.false_ne_true) hl.2 b hb
    | false =>
      exact ih (fun h b hb => hl.1 b hb (Option.isNone_iff_eq_none.1 h)) hl.2

end

end Nbstftp.Lib
