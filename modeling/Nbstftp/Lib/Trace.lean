import Mathlib.Algebra.Ring.Nat
import Mathlib.Data.List.Basic
import Mathlib.Tactic.Common

/-!
# Runs of fallible step functions

A system with states `σ` reacts to inputs `ι`, one after the other; a reaction
either gives the next state or fails with an `ε`, which ends the run. A run is
recorded as its list of *transitions* (`trace`), each with the state before it,
the input and the outcome.

A property of runs is a property of a transition given the transitions before
it (`Always`): it may look back, never ahead. Two such properties are compared
along the runs of a system by an invariant relating the past to the present
state (`always_of_always`, `always_iff_always`): this is the induction over
runs, done once. What such an invariant says of the past is often that something
happened and all has been well since (`Since`).

Where the inputs come of the state, in rounds, the run is one on the inputs that
came (`drive`), and has the invariants of the rounds (`drive_rule`).
-/

namespace Nbstftp.Lib

variable {σ ι ε : Type*}

/-- One step of a run: the state it starts from, its input and its outcome. -/
structure Transition (σ ι ε : Type*) where
  pre : σ
  input : ι
  post : Except ε σ

/-- The transitions of the run of `step` from a state on a list of inputs; the
    run ends with the first failure. -/
def trace (step : σ → ι → Except ε σ) : σ → List ι → List (Transition σ ι ε)
  | _, [] => []
  | s, i :: is => ⟨s, i, step s i⟩ :: match step s i with
    | .ok s' => trace step s' is
    | .error _ => []

theorem mem_toOption {o : Except ε σ} {s : σ} : s ∈ o.toOption ↔ o = .ok s := by
  cases o <;> simp [Except.toOption]

/-- A result that is one is the result. -/
theorem eq_ok_of_isOk {o : Except ε σ} (h : o.isOk = true) (s : σ) :
    o = .ok (o.toOption.getD s) := by
  cases o with
  | ok s' => rfl
  | error e => cases h

/-- The state a run of `step` ends in, or the failure that ends it. -/
def run (step : σ → ι → Except ε σ) : σ → List ι → Except ε σ
  | s, [] => .ok s
  | s, i :: is => match step s i with
    | .ok s' => run step s' is
    | .error e => .error e

/-- Every transition of a list satisfies `P`, given the transitions before it. -/
def Always (P : List (Transition σ ι ε) → Transition σ ι ε → Prop)
    (l : List (Transition σ ι ε)) : Prop :=
  ∀ past t future, l = past ++ t :: future → P past t

variable {step : σ → ι → Except ε σ} {s s' : σ} {i : ι} {is : List ι}

theorem trace_cons_ok (h : step s i = .ok s') :
    trace step s (i :: is) = ⟨s, i, .ok s'⟩ :: trace step s' is := by
  rw [trace, h]

theorem trace_cons_error {e : ε} (h : step s i = .error e) :
    trace step s (i :: is) = [⟨s, i, .error e⟩] := by
  rw [trace, h]

@[simp] theorem trace_singleton (s : σ) (i : ι) : trace step s [i] = [⟨s, i, step s i⟩] := by
  rw [trace]
  cases step s i <;> rfl

theorem run_cons_ok (h : step s i = .ok s') : run step s (i :: is) = run step s' is := by
  rw [run, h]

/-- What every step keeps, a run keeps; and it fails as a step does. -/
theorem run_invariant (step : σ → ι → Except ε σ) (is : List ι) (inv : σ → Prop)
    (fails : ε → Prop)
    (hok : ∀ s i s', inv s → step s i = .ok s' → inv s')
    (herr : ∀ s i e, inv s → step s i = .error e → fails e) (h₀ : inv s) :
    (∃ s', run step s is = .ok s' ∧ inv s') ∨ ∃ e, run step s is = .error e ∧ fails e := by
  induction is generalizing s with
  | nil => exact .inl ⟨s, rfl, h₀⟩
  | cons i is ih =>
    cases hs : step s i with
    | ok s' =>
      rw [run_cons_ok hs]
      exact ih (hok s i s' h₀ hs)
    | error e => exact .inr ⟨e, by rw [run, hs], herr s i e h₀ hs⟩

/-- The first step of a run, and the rest of it. -/
theorem run_cons_inv {Q : Transition σ ι ε → Prop} (hrun : run step s (i :: is) = .ok s')
    (hQ : ∀ t ∈ trace step s (i :: is), Q t) :
    ∃ s₁, step s i = .ok s₁ ∧ Q ⟨s, i, .ok s₁⟩ ∧ run step s₁ is = .ok s' ∧
      ∀ t ∈ trace step s₁ is, Q t := by
  cases hs : step s i with
  | ok s₁ =>
    rw [trace_cons_ok hs] at hQ
    exact ⟨s₁, rfl, hQ _ List.mem_cons_self, run_cons_ok hs ▸ hrun,
      fun t ht => hQ t (List.mem_cons_of_mem _ ht)⟩
  | error e =>
    rw [run, hs] at hrun
    cases hrun

/-- What is recorded is what the steps gave. -/
theorem post_eq {t : Transition σ ι ε} (ht : t ∈ trace step s is) :
    t.post = step t.pre t.input := by
  induction is generalizing s with
  | nil => cases ht
  | cons i is ih =>
    rw [trace] at ht
    rcases List.mem_cons.1 ht with rfl | ht
    · rfl
    · split at ht
      · exact ih ht
      · cases ht

/-- A run fails if and only if one of its steps does. -/
theorem run_isOk_iff_forall :
    (run step s is).isOk = true ↔ ∀ t ∈ trace step s is, t.post.isOk = true := by
  induction is generalizing s with
  | nil => exact iff_of_true rfl fun t ht => absurd ht List.not_mem_nil
  | cons i is ih =>
    cases hs : step s i with
    | ok s' =>
      rw [run_cons_ok hs, trace_cons_ok hs, List.forall_mem_cons, ih]
      exact (and_iff_right rfl).symm
    | error e =>
      rw [run, hs, trace_cons_error hs, List.forall_mem_singleton]

/-- A run that does not fail has had all of its inputs. -/
theorem map_input_trace (hrun : run step s is = .ok s') :
    (trace step s is).map Transition.input = is := by
  induction is generalizing s with
  | nil => rfl
  | cons i is ih =>
    obtain ⟨s₁, hs, -, hrun, -⟩ := run_cons_inv (Q := fun _ => True) hrun fun _ _ => trivial
    rw [trace_cons_ok hs, List.map_cons, ih hrun]

theorem input_mem {t : Transition σ ι ε} (ht : t ∈ trace step s is) : t.input ∈ is := by
  induction is generalizing s with
  | nil => cases ht
  | cons i is ih =>
    rw [trace] at ht
    rcases List.mem_cons.1 ht with rfl | ht
    · exact List.mem_cons_self
    · split at ht
      · exact List.mem_cons_of_mem _ (ih ht)
      · cases ht

/-- What every step keeps that satisfies `Q`, a run keeps whose steps do. -/
theorem run_rule {Q : Transition σ ι ε → Prop} (inv : σ → Prop)
    (hstep : ∀ s i s', inv s → Q ⟨s, i, .ok s'⟩ → step s i = .ok s' → inv s')
    (h₀ : inv s) (hQ : ∀ t ∈ trace step s is, Q t) (hrun : run step s is = .ok s') : inv s' := by
  induction is generalizing s with
  | nil =>
    cases hrun
    exact h₀
  | cons i is ih =>
    obtain ⟨s₁, hs, hq, hrun, hQ⟩ := run_cons_inv hrun hQ
    exact ih (hstep s i s₁ h₀ hq hs) hQ hrun

/-- What every step keeps that satisfies `Q` holds before every step of such a run. -/
theorem forall_pre {Q : Transition σ ι ε → Prop} (inv : σ → Prop)
    (hstep : ∀ s i s', inv s → Q ⟨s, i, .ok s'⟩ → step s i = .ok s' → inv s')
    (h₀ : inv s) (hQ : ∀ t ∈ trace step s is, Q t) : ∀ t ∈ trace step s is, inv t.pre := by
  induction is generalizing s with
  | nil => exact fun t ht => absurd ht List.not_mem_nil
  | cons i is ih =>
    cases hs : step s i with
    | ok s' =>
      rw [trace_cons_ok hs, List.forall_mem_cons] at hQ ⊢
      exact ⟨h₀, ih (hstep s i s' h₀ hQ.1 hs) hQ.2⟩
    | error e =>
      rw [trace_cons_error hs]
      exact List.forall_mem_singleton.2 h₀

/-- How a step relates the state after it to the one before, a run relates each of its states
    to the later ones. -/
theorem pairwise_trace (inv : σ → Prop) (rel : σ → σ → Prop) (hrefl : ∀ s, rel s s)
    (htrans : ∀ s₁ s₂ s₃, rel s₁ s₂ → rel s₂ s₃ → rel s₁ s₃)
    (hstep : ∀ s i s', inv s → step s i = .ok s' → inv s' ∧ rel s s') (h₀ : inv s) :
    (trace step s is).Pairwise fun t u => ∃ s', t.post = .ok s' ∧ rel s' u.pre := by
  induction is generalizing s with
  | nil => exact .nil
  | cons i is ih =>
    cases hs : step s i with
    | error e =>
      rw [trace_cons_error hs]
      exact List.pairwise_singleton _ _
    | ok s' =>
      obtain ⟨hinv, -⟩ := hstep s i s' h₀ hs
      rw [trace_cons_ok hs, List.pairwise_cons]
      refine ⟨fun u hu => ⟨s', rfl, ?_⟩, ih hinv⟩
      exact (forall_pre (Q := fun _ => True) (fun x => inv x ∧ rel s' x)
        (fun s₁ j s₂ h _ hs₂ =>
          ⟨(hstep s₁ j s₂ h.1 hs₂).1, htrans _ _ _ h.2 (hstep s₁ j s₂ h.1 hs₂).2⟩)
        ⟨hinv, hrefl s'⟩ (fun _ _ => trivial) u hu).2

/-- What grows by at most so much in every step, grows by no more in all in a run. -/
theorem run_measure (measure : σ → ℕ) (weight : Transition σ ι ε → ℕ)
    (hstep : ∀ s i s', i ∈ is → step s i = .ok s' → measure s' ≤ measure s + weight ⟨s, i, .ok s'⟩)
    (hrun : run step s is = .ok s') :
    measure s' ≤ measure s + ((trace step s is).map weight).sum := by
  induction is generalizing s with
  | nil =>
    cases hrun
    exact Nat.le_refl _
  | cons i is ih =>
    obtain ⟨s₁, hs, -, hrun, -⟩ := run_cons_inv (Q := fun _ => True) hrun fun _ _ => trivial
    have hle := hstep s i s₁ List.mem_cons_self hs
    have hrest := ih (fun s j s' hj => hstep s j s' (List.mem_cons_of_mem _ hj)) hrun
    rw [trace_cons_ok hs, List.map_cons, List.sum_cons]
    omega

/-- A run on two lists of inputs is a run on the first, then one on the second. -/
theorem run_append {js : List ι} (h : run step s is = .ok s') :
    run step s (is ++ js) = run step s' js := by
  induction is generalizing s with
  | nil =>
    rw [run, Except.ok.injEq] at h
    rw [h, List.nil_append]
  | cons i is ih =>
    rw [List.cons_append]
    cases hs : step s i with
    | ok s₁ => rw [run_cons_ok hs] at h ⊢; exact ih h
    | error e => rw [run, hs] at h; cases h

/-- What every step keeps of the inputs so far and the state, a run keeps. -/
theorem run_history (inv : List ι → σ → Prop) (h₀ : inv [] s)
    (hstep : ∀ js s i s', inv js s → step s i = .ok s' → inv (js ++ [i]) s')
    (hrun : run step s is = .ok s') : inv is s' := by
  induction is generalizing s inv with
  | nil =>
    cases hrun
    exact h₀
  | cons i is ih =>
    cases hs : step s i with
    | ok s₁ =>
      rw [run_cons_ok hs] at hrun
      exact ih (fun js => inv (i :: js)) (hstep [] s i s₁ h₀ hs)
        (fun js s j s' h => hstep (i :: js) s j s' h) hrun
    | error e =>
      rw [run, hs] at hrun
      cases hrun

/-- What a run records on two lists of inputs. -/
theorem trace_append {js : List ι} (h : run step s is = .ok s') :
    trace step s (is ++ js) = trace step s is ++ trace step s' js := by
  induction is generalizing s with
  | nil =>
    rw [run, Except.ok.injEq] at h
    rw [h, List.nil_append, trace, List.nil_append]
  | cons i is ih =>
    cases hs : step s i with
    | ok s₁ =>
      rw [run_cons_ok hs] at h
      rw [List.cons_append, trace_cons_ok hs, trace_cons_ok hs, ih h, List.cons_append]
    | error e => rw [run, hs] at h; cases h

/-- What a run on one more input records. -/
theorem trace_concat (h : run step s is = .ok s') (i : ι) :
    trace step s (is ++ [i]) = trace step s is ++ [⟨s', i, step s' i⟩] := by
  rw [trace_append h, trace]
  split <;> rfl

/-! ## What happened before -/

/-- Some transition satisfied `R`, given those before it, and all after it satisfy `K`. -/
def Since (R : List (Transition σ ι ε) → Transition σ ι ε → Prop) (K : Transition σ ι ε → Prop)
    (past : List (Transition σ ι ε)) : Prop :=
  ∃ before t after, past = before ++ t :: after ∧ R before t ∧ ∀ u ∈ after, K u

section

variable {R R' : List (Transition σ ι ε) → Transition σ ι ε → Prop}
  {K K' : Transition σ ι ε → Prop} {past : List (Transition σ ι ε)} {t : Transition σ ι ε}

/-- It was the last transition, or one before it. -/
theorem since_concat : Since R K (past ++ [t]) ↔ R past t ∨ Since R K past ∧ K t := by
  constructor
  · rintro ⟨before, u, after, hpast, hu, hafter⟩
    rcases List.eq_nil_or_concat after with rfl | ⟨after, v, rfl⟩
    · obtain ⟨rfl, htu⟩ := List.append_inj' hpast rfl
      exact .inl ((List.cons.inj htu).1 ▸ hu)
    · rw [List.concat_eq_append] at hpast hafter
      rw [← List.cons_append, ← List.append_assoc] at hpast
      obtain ⟨rfl, htv⟩ := List.append_inj' hpast rfl
      obtain ⟨rfl, -⟩ := List.cons.inj htv
      exact .inr ⟨⟨before, u, after, rfl, hu, fun w hw => hafter w (List.mem_append_left _ hw)⟩,
        hafter t (List.mem_append_right _ List.mem_cons_self)⟩
  · rintro (ht | ⟨⟨before, u, after, rfl, hu, hafter⟩, hkept⟩)
    · exact ⟨past, t, [], rfl, ht, fun u hu => absurd hu List.not_mem_nil⟩
    · refine ⟨before, u, after ++ [t], by rw [List.append_assoc, List.cons_append], hu, ?_⟩
      intro w hw
      rcases List.mem_append.1 hw with hw | hw
      · exact hafter w hw
      · exact List.mem_singleton.1 hw ▸ hkept

theorem Since.imp (h : Since R K past) (hR : ∀ before t, R before t → R' before t)
    (hK : ∀ u, K u → K' u) : Since R' K' past := by
  obtain ⟨before, t, after, hpast, ht, hafter⟩ := h
  exact ⟨before, t, after, hpast, hR before t ht, fun u hu => hK u (hafter u hu)⟩

end

/-! ## Comparing properties of runs -/

section Always

variable {P Q : List (Transition σ ι ε) → Transition σ ι ε → Prop}

@[simp] theorem always_nil : Always P [] := fun past _ _ h => by
  cases past <;> cases h

/-- A property of a run is one of its first transition and, the past being
    longer by it, of the rest. -/
theorem always_cons {t : Transition σ ι ε} {l : List (Transition σ ι ε)} :
    Always P (t :: l) ↔ P [] t ∧ Always (fun past => P (t :: past)) l := by
  constructor
  · refine fun h => ⟨h [] t l rfl, fun past u future hl => h (t :: past) u future ?_⟩
    rw [hl, List.cons_append]
  · rintro ⟨h₀, h⟩ past u future hl
    cases past with
    | nil =>
      obtain ⟨rfl, rfl⟩ := List.cons.inj hl
      exact h₀
    | cons v past =>
      obtain ⟨rfl, hl'⟩ := List.cons.inj hl
      exact h past u future hl'

/-- A property that does not look back holds of every transition. -/
theorem always_iff_forall_mem {P : Transition σ ι ε → Prop} {l : List (Transition σ ι ε)} :
    Always (fun _ => P) l ↔ ∀ t ∈ l, P t := by
  constructor
  · intro h t ht
    obtain ⟨past, future, hl⟩ := List.append_of_mem ht
    exact h past t future hl
  · intro h past t future hl
    exact h t (hl ▸ List.mem_append_right _ List.mem_cons_self)

/-- A property of a run at its `i`-th transition. -/
theorem Always.getElem {l : List (Transition σ ι ε)} (h : Always P l) {i : ℕ}
    (hi : i < l.length) : P (l.take i) l[i] :=
  h (l.take i) l[i] (l.drop (i + 1)) (by rw [List.getElem_cons_drop, List.take_append_drop])

/-- What every step that satisfies `Q` keeps of the past and the state, a run does that always
    satisfies `Q`. -/
theorem run_always (inv : List (Transition σ ι ε) → σ → Prop) (h₀ : inv [] s)
    (hstep : ∀ past s i s', inv past s → Q past ⟨s, i, .ok s'⟩ → step s i = .ok s' →
      inv (past ++ [⟨s, i, .ok s'⟩]) s')
    (hQ : Always Q (trace step s is)) (hrun : run step s is = .ok s') :
    inv (trace step s is) s' := by
  induction is generalizing s inv Q with
  | nil =>
    cases hrun
    exact h₀
  | cons i is ih =>
    cases hs : step s i with
    | error e =>
      rw [run, hs] at hrun
      cases hrun
    | ok s₁ =>
      rw [run_cons_ok hs] at hrun
      rw [trace_cons_ok hs, always_cons] at hQ
      rw [trace_cons_ok hs]
      exact ih (fun past => inv (⟨s, i, .ok s₁⟩ :: past)) (hstep [] s i s₁ h₀ hQ.1 hs)
        (fun past => hstep (_ :: past)) hQ.2 hrun

/-- If, under an invariant, `Q` of a step gives `P` of it and the invariant
    after it, then along every run that always satisfies `Q`, `P` holds. -/
theorem always_of_always (inv : List (Transition σ ι ε) → σ → Prop) (h₀ : inv [] s)
    (hP : ∀ past t, inv past t.pre → t.input ∈ is → t.post = step t.pre t.input → Q past t →
      P past t)
    (hinv : ∀ past t s', inv past t.pre → t.input ∈ is → t.post = step t.pre t.input →
      Q past t → t.post = .ok s' → inv (past ++ [t]) s')
    (hQ : Always Q (trace step s is)) : Always P (trace step s is) := by
  induction is generalizing s inv P Q with
  | nil => exact always_nil
  | cons i is ih =>
    -- The invariant of the rest of the run knows the first transition as past.
    cases hs : step s i with
    | error e =>
      rw [trace_cons_error hs, always_cons] at hQ ⊢
      exact ⟨hP [] _ h₀ List.mem_cons_self hs.symm hQ.1, always_nil⟩
    | ok s' =>
      rw [trace_cons_ok hs, always_cons] at hQ ⊢
      refine ⟨hP [] _ h₀ List.mem_cons_self hs.symm hQ.1,
        ih (fun past => inv (⟨s, i, .ok s'⟩ :: past)) ?_ ?_ ?_ hQ.2⟩
      · exact hinv [] ⟨s, i, .ok s'⟩ s' h₀ List.mem_cons_self hs.symm hQ.1 rfl
      · exact fun past t ht hi => hP (_ :: past) t ht (List.mem_cons_of_mem _ hi)
      · exact fun past t s₁ ht hi => hinv (_ :: past) t s₁ ht (List.mem_cons_of_mem _ hi)

/-- If, under an invariant kept by the steps satisfying `Q`, the properties `P`
    and `Q` of a step are equivalent, so are they along every run. -/
theorem always_iff_always (inv : List (Transition σ ι ε) → σ → Prop) (h₀ : inv [] s)
    (hPQ : ∀ past t, inv past t.pre → t.input ∈ is → t.post = step t.pre t.input →
      (P past t ↔ Q past t))
    (hinv : ∀ past t s', inv past t.pre → t.input ∈ is → t.post = step t.pre t.input →
      Q past t → t.post = .ok s' → inv (past ++ [t]) s') :
    Always P (trace step s is) ↔ Always Q (trace step s is) := by
  constructor
  · exact always_of_always inv h₀ (fun past t h hi ht hP => (hPQ past t h hi ht).1 hP)
      fun past t s' h hi ht hP => hinv past t s' h hi ht ((hPQ past t h hi ht).1 hP)
  · exact always_of_always inv h₀ (fun past t h hi ht hQ => (hPQ past t h hi ht).2 hQ) hinv

/-- The rule for properties that do not look back. -/
theorem forall_mem_trace {P Q : Transition σ ι ε → Prop} (inv : σ → Prop) (h₀ : inv s)
    (hstep : ∀ s i, inv s → i ∈ is → Q ⟨s, i, step s i⟩ →
      P ⟨s, i, step s i⟩ ∧ ∀ s', step s i = .ok s' → inv s')
    (hQ : ∀ t ∈ trace step s is, Q t) : ∀ t ∈ trace step s is, P t := by
  rw [← always_iff_forall_mem] at hQ ⊢
  refine always_of_always (fun _ => inv) h₀ ?_ ?_ hQ
  · rintro past ⟨s, i, post⟩ hs hi (hpost : post = step s i) hq
    rw [hpost] at hq ⊢
    exact (hstep s i hs hi hq).1
  · rintro past ⟨s, i, post⟩ s₁ hs hi (hpost : post = step s i) hq hok
    rw [hpost] at hq hok
    exact (hstep s i hs hi hq).2 s₁ hok

end Always

/-! ## Inputs that come of the state -/

section Drive

variable {ρ : Type*}

/-- The inputs of a run in rounds, in each of which they come of the state then. -/
def drive (step : σ → ι → Except ε σ) (inputs : σ → ρ → List ι) : σ → List ρ → List ι
  | _, [] => []
  | s, r :: rs => inputs s r ++ match run step s (inputs s r) with
    | .ok s' => drive step inputs s' rs
    | .error _ => []

variable {inputs : σ → ρ → List ι} {r : ρ} {rs : List ρ}

theorem drive_cons_ok (h : run step s (inputs s r) = .ok s') :
    drive step inputs s (r :: rs) = inputs s r ++ drive step inputs s' rs := by
  rw [drive, h]

theorem drive_cons_error {e : ε} (h : run step s (inputs s r) = .error e) :
    drive step inputs s (r :: rs) = inputs s r := by
  rw [drive, h, List.append_nil]

/-- Every input comes of some state in its round. -/
theorem mem_drive (h : i ∈ drive step inputs s rs) : ∃ s', ∃ r ∈ rs, i ∈ inputs s' r := by
  induction rs generalizing s with
  | nil => cases h
  | cons r rs ih =>
    rw [drive] at h
    rcases List.mem_append.1 h with h | h
    · exact ⟨s, r, List.mem_cons_self, h⟩
    · split at h
      · obtain ⟨s', r', hr', hi⟩ := ih h
        exact ⟨s', r', List.mem_cons_of_mem _ hr', hi⟩
      · cases h

/-- A run in rounds is a run. -/
theorem run_drive : run (fun s r => run step s (inputs s r)) s rs =
    run step s (drive step inputs s rs) := by
  induction rs generalizing s with
  | nil => rfl
  | cons r rs ih =>
    cases hs : run step s (inputs s r) with
    | ok s' => rw [drive_cons_ok hs, run_append hs, ← ih, run, hs]
    | error e => rw [drive_cons_error hs, run, hs]

/-- What every round keeps whose transitions satisfy `Q`, a run in rounds keeps if its
    transitions do. -/
theorem drive_rule {Q : Transition σ ι ε → Prop} (inv : σ → Prop)
    (hround : ∀ s r s', inv s → r ∈ rs → (∀ t ∈ trace step s (inputs s r), Q t) →
      run step s (inputs s r) = .ok s' → inv s')
    (h₀ : inv s) (hQ : ∀ t ∈ trace step s (drive step inputs s rs), Q t)
    (hrun : run step s (drive step inputs s rs) = .ok s') : inv s' := by
  induction rs generalizing s with
  | nil =>
    cases hrun
    exact h₀
  | cons r rs ih =>
    cases hs : run step s (inputs s r) with
    | ok s₁ =>
      rw [drive_cons_ok hs, trace_append hs] at hQ
      rw [drive_cons_ok hs, run_append hs] at hrun
      exact ih (fun s r s' h hr => hround s r s' h (List.mem_cons_of_mem _ hr))
        (hround s r s₁ h₀ List.mem_cons_self (fun t ht => hQ t (List.mem_append_left _ ht)) hs)
        (fun t ht => hQ t (List.mem_append_right _ ht)) hrun
    | error e =>
      rw [drive_cons_error hs, hs] at hrun
      cases hrun

end Drive

end Nbstftp.Lib
