import Nbstftp.Lib.Trace

/-!
# Implementing operations

A step function *implements* operations on other states, `α`, if it keeps a relation
`R` between its states and those (`run_implements`): every run on inputs that are
legal for the operations (`LegalRun`) is one of them.

Steps may have to be *safe* for that. Where those that are not safe fail, a run does
not fail if and only if all of its steps are safe (`run_isOk_iff`).
-/

namespace Nbstftp.Lib

section

universe u

variable {α β : Type u} {ε : Type*}

@[simp] theorem ok_bind (a : α) (f : α → Except ε β) : (Except.ok a >>= f) = f a := rfl

@[simp] theorem error_bind (e : ε) (f : α → Except ε β) : (Except.error e >>= f) = .error e := rfl

@[simp] theorem pure_eq_ok (a : α) : (pure a : Except ε α) = .ok a := rfl

/-- What comes of one computation after another comes of both. -/
theorem bind_eq_ok {x : Except ε α} {f : α → Except ε β} {b : β} :
    x >>= f = .ok b ↔ ∃ a, x = .ok a ∧ f a = .ok b := by
  cases x with
  | ok a => exact ⟨fun h => ⟨a, rfl, h⟩, fun ⟨_, ha, h⟩ => Except.ok.inj ha ▸ h⟩
  | error e => exact ⟨(fun h => nomatch h), fun ⟨_, ha, _⟩ => nomatch ha⟩

end

variable {σ α ι ε : Type*} {step : σ → ι → Except ε σ} {op : α → ι → α}
  {legal : α → ι → Prop} {R : σ → α → Prop}

/-- The inputs are legal, one after the other. -/
def LegalRun (op : α → ι → α) (legal : α → ι → Prop) : α → List ι → Prop
  | _, [] => True
  | a, i :: is => legal a i ∧ LegalRun op legal (op a i) is

@[simp] theorem legalRun_nil (a : α) : LegalRun op legal a [] := trivial

@[simp] theorem legalRun_cons {a : α} {i : ι} {is : List ι} :
    LegalRun op legal a (i :: is) ↔ legal a i ∧ LegalRun op legal (op a i) is := Iff.rfl

variable {safe : σ → ι → Prop} {s : σ} {a : α} {is : List ι}

/-- What holds of every input and the state it comes to may be asked for, too. -/
theorem LegalRun.and {P : α → ι → Prop} (h : LegalRun op legal a is)
    (hP : ∀ past i future, is = past ++ i :: future → P (past.foldl op a) i) :
    LegalRun op (fun a i => legal a i ∧ P a i) a is := by
  induction is generalizing a with
  | nil => trivial
  | cons i is ih =>
    refine ⟨⟨h.1, hP [] i is rfl⟩, ih h.2 fun past j future his => ?_⟩
    exact hP (i :: past) j future (by rw [his, List.cons_append])

theorem LegalRun.and_forall {P : ι → Prop} (h : LegalRun op legal a is) (hP : ∀ i ∈ is, P i) :
    LegalRun op (fun a i => legal a i ∧ P i) a is :=
  h.and fun _ i _ his => hP i (his ▸ List.mem_append_right _ List.mem_cons_self)

/-- A run of steps that keep the relation is one of the operations. -/
theorem run_implements
    (hstep : ∀ s a i, R s a → legal a i → ∃ s', step s i = .ok s' ∧ R s' (op a i))
    (h : R s a) (hlegal : LegalRun op legal a is) :
    ∃ s', run step s is = .ok s' ∧ R s' (is.foldl op a) := by
  induction is generalizing s a with
  | nil => exact ⟨s, rfl, h⟩
  | cons i is ih =>
    rw [legalRun_cons] at hlegal
    obtain ⟨s', hs, h'⟩ := hstep s a i h hlegal.1
    rw [run_cons_ok hs, List.foldl_cons]
    exact ih h' hlegal.2

/-- A run of safe steps is one of the operations. -/
theorem run_implements_of_safe
    (hsafe : ∀ s a i, R s a → legal a i → safe s i → ∃ s', step s i = .ok s' ∧ R s' (op a i))
    (h : R s a) (hlegal : LegalRun op legal a is)
    (hall : ∀ t ∈ trace step s is, safe t.pre t.input) :
    ∃ s', run step s is = .ok s' ∧ R s' (is.foldl op a) := by
  induction is generalizing s a with
  | nil => exact ⟨s, rfl, h⟩
  | cons i is ih =>
    rw [legalRun_cons] at hlegal
    have hfirst : safe s i := hall _ List.mem_cons_self
    obtain ⟨s', hs, h'⟩ := hsafe s a i h hlegal.1 hfirst
    rw [trace_cons_ok hs] at hall
    rw [run_cons_ok hs, List.foldl_cons]
    exact ih h' hlegal.2 fun t ht => hall t (List.mem_cons_of_mem _ ht)

/-- A run fails if and only if one of its steps is not safe. -/
theorem run_isOk_iff
    (hsafe : ∀ s a i, R s a → legal a i → safe s i → ∃ s', step s i = .ok s' ∧ R s' (op a i))
    (hfails : ∀ s a i, R s a → legal a i → ¬safe s i → ∃ e, step s i = .error e)
    (h : R s a) (hlegal : LegalRun op legal a is) :
    (run step s is).isOk = true ↔ ∀ t ∈ trace step s is, safe t.pre t.input := by
  refine ⟨fun hok => ?_, fun hall => ?_⟩
  · induction is generalizing s a with
    | nil => exact fun t ht => absurd ht List.not_mem_nil
    | cons i is ih =>
      rw [legalRun_cons] at hlegal
      by_cases hfirst : safe s i
      · obtain ⟨s', hs, h'⟩ := hsafe s a i h hlegal.1 hfirst
        rw [run_cons_ok hs] at hok
        rw [trace_cons_ok hs]
        exact List.forall_mem_cons.2 ⟨hfirst, ih h' hlegal.2 hok⟩
      · obtain ⟨e, he⟩ := hfails s a i h hlegal.1 hfirst
        rw [run, he] at hok
        cases hok
  · obtain ⟨s', hs, -⟩ := run_implements_of_safe hsafe h hlegal hall
    rw [hs]
    rfl

end Nbstftp.Lib
