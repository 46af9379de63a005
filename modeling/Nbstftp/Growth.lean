import Nbstftp.Server
import Nbstftp.Vector
import Mathlib.Tactic.Ring

/-!
# Runs of calls on a vector

A run of calls that are legal for the list of items is a run on the list, as long as
the calls are sound (`Vec.step_spec`):

* with memory for everything, all are (`Vec.run_list`);
* without, the calls that do not look at `errno` go wrong exactly where a `push` finds
  no cell behind the items (`Vec.defined_iff`): `errno` is set before the item is
  written, and looked at afterwards.

The block doubles as the items get more (`Vec.run_doubles`), so that what is asked of
`realloc`, all in all, is proportional to the most items there ever were.
-/

namespace Nbstftp

variable {α : Type} {memsz : ℕ}

/-- A call that the items allow. -/
def VecCall.Legal (memsz : ℕ) (l : List α) (c : VecCall α) : Prop :=
  Vec.Fits memsz l ∧
    match c.op with
    | .pop => l ≠ []
    | .splice start count => 0 < count ∧ start + count ≤ l.length
    | .insert idx _ => idx ≤ l.length
    | .swap idx1 idx2 => idx1 < l.length ∧ idx2 < l.length
    | .reserve n => n ≤ intMax
    | _ => True

/-- A call that has the memory it needs, and is not misled by `errno`. -/
def VecCall.Sound (memsz : ℕ) (v : Vec α) (c : VecCall α) : Prop :=
  match c.op with
  | .push _ => v.HasRoom memsz c.granted
  | .insert .. | .swap .. | .reverse => v.CanGrow memsz c.granted
  | _ => True

/-- There is memory for a call, and it does not set `errno` itself. -/
structure VecCall.Plenty (c : VecCall α) : Prop where
  granted : ∀ size, c.granted size = true
  op : c.op ≠ .errno true

/-- If the call is a push, it finds a cell behind the items, or memory for it. -/
def VecCall.FindsRoom (memsz : ℕ) (v : Vec α) (c : VecCall α) : Prop :=
  ∀ val, c.op = .push val → v.HasRoom memsz c.granted

/-- A call that looks at `errno` before it is done. -/
def VecOp.looksAtErrno : VecOp α → Bool
  | .insert .. | .swap .. | .reverse => true
  | _ => false

/-- A call that makes room for as many items as it is told to, or as there are. -/
def VecOp.setsCapacity : VecOp α → Bool
  | .reserve _ | .compact => true
  | _ => false

/-- Another function sets `errno`. -/
def VecOp.setsErrno : VecOp α → Bool
  | .errno _ => true
  | _ => false

namespace Vec

section

variable {v : Vec α} {granted : UInt64 → Bool}

theorem repr_init : (init : Vec α).Repr [] := ⟨Lib.holds_nil, rfl, Nat.le_refl _⟩

theorem intact_init : (init : Vec α).Intact := ⟨rfl, rfl⟩

/-- A vector that is intact has room wherever there is memory. -/
theorem Intact.canGrow (h : v.Intact) (hgranted : ∀ size, granted size = true) :
    v.CanGrow memsz granted :=
  ⟨h.errno, fun hlt => h.room ▸ hlt, fun _ => hgranted _⟩

theorem Intact.hasRoom (h : v.Intact) (hgranted : ∀ size, granted size = true) :
    v.HasRoom memsz granted :=
  (Nat.lt_or_ge v.length v.capacity).imp (fun hlt => h.room ▸ hlt) fun hfull =>
    ⟨hfull, hgranted _⟩

theorem Intact.sound {c : VecCall α} (h : v.Intact) (hplenty : c.Plenty) : c.Sound memsz v := by
  rw [VecCall.Sound]
  split
  · exact h.hasRoom hplenty.granted
  all_goals first | exact h.canGrow hplenty.granted | trivial

/-- A call that does not look at `errno` is sound if it finds room. -/
theorem sound_of_findsRoom {c : VecCall α} (hblind : c.op.looksAtErrno = false)
    (hroom : c.FindsRoom memsz v) :
    c.Sound memsz v := by
  obtain ⟨op, granted⟩ := c
  cases op with
  | push val => exact hroom val rfl
  | insert | swap | reverse => cases hblind
  | _ => trivial

/-- Where the block has the room noted, a push that returns does what it does with memory
    for everything. -/
theorem push_eq {v' : Vec α} {l : List α} {val : α} (h : v.Repr l) (hfits : Fits memsz l)
    (hroom : v.data.length = v.capacity) (hok : v.push memsz granted val = .ok v') :
    v.push memsz (fun _ => true) val = .ok v' := by
  have hhas : v.HasRoom memsz granted := by
    by_contra hfull
    rw [push_error h hfits hfull] at hok
    cases hok
  have hexpand : v.expand memsz granted = v.expand memsz fun _ => true := by
    have hmax := hfits.length_le
    have hlength := h.length
    have hle := h.le
    rw [expand, expand]
    split_ifs with hover hcell hgrown
    · rfl
    · rfl
    · rfl
    · -- There is no cell behind the items, so there was memory.
      have hgranted := (hhas.resolve_left (by omega)).2
      rw [realloc_eq (by omega) hfits.memsz_le, realloc_eq (by omega) hfits.memsz_le,
        if_pos hgranted, if_pos rfl]
  rw [push] at hok ⊢
  rw [← hexpand]
  exact hok

end

variable [DecidableEq α] {v v' : Vec α} {l : List α} {c : VecCall α}

/-- A sound call does to the items what it does to a list. -/
theorem step_leaves (h : v.Repr l) (hlegal : c.Legal memsz l) (hsound : c.Sound memsz v)
    (hop : c.op.setsErrno = false) :
    ∃ v', v.step memsz c = .ok v' ∧ Leaves c.granted v v' (c.op.onList l) := by
  obtain ⟨op, granted⟩ := c
  obtain ⟨hfits, hlegal⟩ := hlegal
  cases op with
  | push val => exact push_spec h hfits hsound val
  | pop => exact pop_spec h hlegal
  | splice start count => exact splice_spec h hfits hlegal.1 hlegal.2
  | insert idx val => exact insert_spec h hfits hsound hlegal val
  | swap idx1 idx2 =>
    obtain ⟨v', hv', hleaves, -⟩ := swap_spec h hfits hsound hlegal.1 hlegal.2
    exact ⟨v', hv', hleaves⟩
  | truncate len => exact ⟨_, rfl, truncate_spec h len⟩
  | reserve n => exact ⟨_, rfl, reserve_spec h hfits.memsz_le hlegal⟩
  | compact => exact ⟨_, rfl, compact_spec h hfits⟩
  | remove val => exact remove_spec h hfits val
  | reverse => exact reverse_spec h hfits hsound
  | errno nomem => cases hop

theorem step_spec (h : v.Repr l) (hlegal : c.Legal memsz l) (hsound : c.Sound memsz v) :
    ∃ v', v.step memsz c = .ok v' ∧ v'.Repr (c.op.onList l) ∧
      (c.Plenty → v.Intact → v'.Intact) := by
  cases hop : c.op.setsErrno with
  | false =>
    obtain ⟨v', hv', hleaves⟩ := step_leaves h hlegal hsound hop
    exact ⟨v', hv', hleaves.repr, fun hplenty => (hleaves.kept hplenty.granted).intact⟩
  | true =>
    obtain ⟨op, granted⟩ := c
    cases op with
    | errno nomem =>
      refine ⟨_, rfl, ⟨h.holds, h.length, h.le⟩, fun hplenty hintact => ⟨hintact.room, ?_⟩⟩
      cases nomem with
      | false => rfl
      | true => exact absurd rfl hplenty.op
    | _ => cases hop

/-! ## Runs -/

/-- What the calls make of a list. -/
def items (calls : List (VecCall α)) : List α := calls.foldl (fun l c => c.op.onList l) []

/-- The calls are legal, one after the other, for the items there are then. -/
def LegalCalls (memsz : ℕ) (calls : List (VecCall α)) : Prop :=
  Lib.LegalRun (fun l c => c.op.onList l) (VecCall.Legal memsz) [] calls

variable {calls : List (VecCall α)}

/-- With memory for everything, a run of calls is one on lists, and the block is intact. -/
theorem run_list (hlegal : LegalCalls memsz calls) (hplenty : ∀ c ∈ calls, c.Plenty) :
    ∃ v, Lib.run (step memsz) init calls = .ok v ∧ v.Repr (items calls) ∧ v.Intact := by
  refine Lib.run_implements (R := fun (v : Vec α) l => v.Repr l ∧ v.Intact)
    (fun v l c h hlegal => ?_)
    ⟨repr_init, intact_init⟩ (hlegal.and_forall hplenty)
  obtain ⟨v', hv', hrepr, hintact⟩ := step_spec h.1 hlegal.1 (h.2.sound hlegal.2)
  exact ⟨v', hv', hrepr, hintact hlegal.2 h.2⟩

/-- Two numbers, in reverse. -/
def Sample.vecCalls : List (VecCall ℕ) :=
  [⟨.push 5, fun _ => true⟩, ⟨.push 7, fun _ => true⟩, ⟨.reverse, fun _ => true⟩]

theorem vecCalls_legal : LegalCalls 8 Sample.vecCalls :=
  ⟨⟨⟨by decide, by decide⟩, trivial⟩, ⟨⟨by decide, by decide⟩, trivial⟩,
    ⟨⟨by decide, by decide⟩, trivial⟩, trivial⟩

theorem vecCalls_plenty : ∀ c ∈ Sample.vecCalls, c.Plenty := by
  intro c hc
  simp only [Sample.vecCalls, List.mem_cons, List.not_mem_nil, or_false] at hc
  rcases hc with rfl | rfl | rfl <;> exact ⟨fun _ => rfl, nofun⟩

theorem run_list_vecCalls : ∃ v, Lib.run (step 8) init Sample.vecCalls = .ok v ∧
    v.Repr (items Sample.vecCalls) ∧ v.Intact :=
  run_list vecCalls_legal vecCalls_plenty

theorem step_error (h : v.Repr l) (hlegal : c.Legal memsz l) (hroom : ¬c.FindsRoom memsz v) :
    v.step memsz c = .error .outOfBounds := by
  rw [VecCall.FindsRoom] at hroom
  push Not at hroom
  obtain ⟨val, hval, hfull⟩ := hroom
  rw [step, hval]
  exact push_error h hlegal.1 hfull val

/-- Calls that do not look at `errno` go wrong where a push finds no room, and only there;
    otherwise they are calls on lists. -/
theorem defined_iff (hlegal : LegalCalls memsz calls)
    (hblind : ∀ c ∈ calls, c.op.looksAtErrno = false) :
    ((Lib.run (step memsz) init calls).isOk = true ↔
      ∀ t ∈ Lib.trace (step memsz) init calls, t.input.FindsRoom memsz t.pre) ∧
      ∀ v, Lib.run (step memsz) init calls = .ok v → v.Repr (items calls) := by
  have hsafe : ∀ (v : Vec α) l c, v.Repr l →
      (c.Legal memsz l ∧ c.op.looksAtErrno = false) → c.FindsRoom memsz v →
      ∃ v', v.step memsz c = .ok v' ∧ v'.Repr (c.op.onList l) := by
    intro v l c h hlegal hroom
    obtain ⟨v', hv', hrepr, -⟩ := step_spec h hlegal.1 (sound_of_findsRoom hlegal.2 hroom)
    exact ⟨v', hv', hrepr⟩
  have hiff := Lib.run_isOk_iff hsafe
    (fun v l c h hlegal hroom => ⟨_, step_error h hlegal.1 hroom⟩) repr_init
    (hlegal.and_forall hblind)
  refine ⟨hiff, fun v hv => ?_⟩
  obtain ⟨v', hv', hrepr⟩ := Lib.run_implements_of_safe hsafe repr_init (hlegal.and_forall hblind)
    (hiff.1 (by rw [hv]; rfl))
  cases hv.symm.trans hv'
  exact hrepr

/-- A push without memory. -/
def Sample.pushed : List (VecCall ℕ) := [⟨.push 5, fun _ => false⟩]

theorem pushed_legal : LegalCalls 8 Sample.pushed := ⟨⟨⟨by decide, by decide⟩, trivial⟩, trivial⟩

theorem defined_iff_pushed : ((Lib.run (step 8) init Sample.pushed).isOk = true ↔
    ∀ t ∈ Lib.trace (step 8) init Sample.pushed, t.input.FindsRoom 8 t.pre) ∧
    ∀ v, Lib.run (step 8) init Sample.pushed = .ok v → v.Repr (items Sample.pushed) :=
  defined_iff pushed_legal (List.forall_mem_singleton.2 rfl)

/-! ## What becomes of `errno` -/

/-- A call that neither looks at `errno` nor sets the capacity leaves, if it writes in the block
    only, a block with the room noted, and `errno` as it was. -/
theorem step_kept (h : v.Repr l) (hlegal : c.Legal memsz l) (hroom : v.data.length = v.capacity)
    (hblind : c.op.looksAtErrno = false) (hsets : c.op.setsCapacity = false)
    (hok : v.step memsz c = .ok v') :
    v'.Repr (c.op.onList l) ∧ v'.data.length = v'.capacity ∧
      (c.op.setsErrno = false → v'.nomem = v.nomem) := by
  obtain ⟨op, granted⟩ := c
  cases hop : op.setsErrno with
  | true =>
    cases op with
    | errno nomem =>
      cases hok
      exact ⟨⟨h.holds, h.length, h.le⟩, hroom, fun hop => by cases hop⟩
    | _ => cases hop
  | false =>
    have hplenty : v.step memsz ⟨op, fun _ => true⟩ = .ok v' := by
      cases op with
      | push val => exact push_eq h hlegal.1 hroom hok
      | insert | swap | reverse => cases hblind
      | reserve | compact => cases hsets
      | _ => exact hok
    have hsound : VecCall.Sound memsz v ⟨op, fun _ => true⟩ :=
      sound_of_findsRoom hblind fun _ _ => (Nat.lt_or_ge v.length v.capacity).imp
        (fun hlt => hroom ▸ hlt) fun hfull => ⟨hfull, rfl⟩
    obtain ⟨v₁, hv₁, hleaves⟩ := step_leaves (c := ⟨op, fun _ => true⟩) h hlegal hsound hop
    cases hv₁.symm.trans hplenty
    have hkept := hleaves.kept fun _ => rfl
    exact ⟨hleaves.repr, hkept.room hroom, fun _ => hkept.errno⟩

/-- Whatever memory there is, in a run of calls that neither look at `errno` nor set the
    capacity, none that writes in the block only has set `errno`: it is set where an item is
    written outside of the block. -/
theorem run_errno (hlegal : LegalCalls memsz calls)
    (hblind : ∀ c ∈ calls, c.op.looksAtErrno = false)
    (hsets : ∀ c ∈ calls, c.op.setsCapacity = false) :
    ∀ t ∈ Lib.trace (step memsz) init calls, ∀ v', t.post = .ok v' →
      t.input.op.setsErrno = false → v'.nomem = t.pre.nomem := by
  suffices hrun : ∀ (v : Vec α) l, v.Repr l → v.data.length = v.capacity →
      Lib.LegalRun (fun l c => c.op.onList l) (VecCall.Legal memsz) l calls →
      ∀ t ∈ Lib.trace (step memsz) v calls, ∀ v', t.post = .ok v' →
        t.input.op.setsErrno = false → v'.nomem = t.pre.nomem from
    hrun init [] repr_init rfl hlegal
  clear hlegal
  induction calls with
  | nil => exact fun _ _ _ _ _ t ht => absurd ht List.not_mem_nil
  | cons c calls ih =>
    intro v l h hroom hlegal
    have hc := hblind c List.mem_cons_self
    have hc' := hsets c List.mem_cons_self
    cases hv : v.step memsz c with
    | error e =>
      rw [Lib.trace_cons_error hv]
      intro t ht v' hpost
      rw [List.mem_singleton.1 ht] at hpost
      cases hpost
    | ok v₁ =>
      obtain ⟨hrepr, hroom₁, herrno⟩ := step_kept h hlegal.1 hroom hc hc' hv
      rw [Lib.trace_cons_ok hv]
      refine List.forall_mem_cons.2 ⟨fun v' hpost => ?_, ?_⟩
      · cases hpost
        exact herrno
      · exact ih (fun c hc => hblind c (List.mem_cons_of_mem _ hc))
          (fun c hc => hsets c (List.mem_cons_of_mem _ hc)) v₁ _ hrepr hroom₁ hlegal.2

/-- Five pushes, where there is memory for four items. -/
def Sample.pushes : List (VecCall ℕ) :=
  (List.range 5).map fun k => ⟨.push k, fun size => size < 64⟩

theorem pushes_legal : LegalCalls 8 Sample.pushes :=
  ⟨⟨⟨by decide, by decide⟩, trivial⟩, ⟨⟨by decide, by decide⟩, trivial⟩,
    ⟨⟨by decide, by decide⟩, trivial⟩, ⟨⟨by decide, by decide⟩, trivial⟩,
    ⟨⟨by decide, by decide⟩, trivial⟩, trivial⟩

theorem run_errno_pushes :
    (Lib.trace (step 8) init Sample.pushes).map (·.post.isOk) = [true, true, true, true, false] ∧
      ∀ t ∈ Lib.trace (step 8) init Sample.pushes, ∀ v', t.post = .ok v' →
        t.input.op.setsErrno = false → v'.nomem = t.pre.nomem :=
  ⟨by decide, run_errno pushes_legal (by simp [Sample.pushes, VecOp.looksAtErrno])
    (by simp [Sample.pushes, VecOp.setsCapacity])⟩

/-! ## How the block grows -/

section

variable {α : Type} {memsz n : ℕ} {granted : UInt64 → Bool} {v v' : Vec α}

/-- The block doubled from four items on, and was at most twice as large as `n` items need. -/
structure Doubled (memsz n : ℕ) (v : Vec α) : Prop where
  capacity : v.asked = [] ∧ v.capacity = 0 ∨ v.capacity = 2 * 2 ^ v.asked.length
  sum : v.asked.sum ≤ 2 * v.capacity * memsz
  le : v.capacity ≤ 2 * max 2 n

theorem doubled_init : (init : Vec α).Doubled memsz n :=
  ⟨.inl ⟨rfl, rfl⟩, Nat.zero_le _, Nat.zero_le _⟩

/-- The block is not touched. -/
structure SameBlock (v v' : Vec α) : Prop where
  capacity : v'.capacity = v.capacity
  asked : v'.asked = v.asked

theorem Doubled.of_same (h : v.Doubled memsz n) (hsame : SameBlock v v') : v'.Doubled memsz n := by
  obtain ⟨hcapacity, hasked⟩ := hsame
  exact ⟨by rw [hcapacity, hasked]; exact h.capacity, by rw [hcapacity, hasked]; exact h.sum,
    hcapacity ▸ h.le⟩

theorem Doubled.expand (h : v.Doubled memsz n) (hmemsz : memsz ≤ intMax) (hn : v.length ≤ n)
    (hok : v.expand memsz granted = .ok v') : v'.Doubled memsz n ∧ v'.length = v.length := by
  rw [Vec.expand] at hok
  split_ifs at hok with hover hroom hgrown
  · cases hok
    exact ⟨h, rfl⟩
  · have hcapacity : (v.realloc memsz granted v.grown).capacity = v.grown ∧
        (v.realloc memsz granted v.grown).asked = v.asked ++ [v.grown * memsz] ∧
        (v.realloc memsz granted v.grown).length = v.length := by
      rw [realloc_eq (by omega) hmemsz]
      split <;> exact ⟨rfl, rfl, rfl⟩
    rw [Except.ok.injEq] at hok
    rw [hok] at hcapacity
    obtain ⟨hcapacity, hasked, hlength⟩ := hcapacity
    refine ⟨⟨.inr ?_, ?_, ?_⟩, hlength⟩
    · rw [hcapacity, hasked, List.length_append, List.length_singleton, grown]
      rcases h.capacity with ⟨hnone, hzero⟩ | hpow
      · rw [if_pos hzero, hnone]
        rfl
      · have hpos := Nat.two_pow_pos v.asked.length
        rw [if_neg (by omega), hpow, Nat.pow_succ]
        omega
    · have hsum := h.sum
      have hdouble : 2 * v.capacity ≤ v.grown := by
        rw [grown]
        split <;> omega
      have := Nat.mul_le_mul_right memsz hdouble
      rw [hcapacity, hasked, List.sum_append, List.sum_singleton]
      calc v.asked.sum + v.grown * memsz ≤ v.grown * memsz + v.grown * memsz := by omega
        _ = 2 * v.grown * memsz := by ring
    · -- The block was full: it was as large as there are items.
      have hfull : v.grown ≤ 2 * max 2 n := by
        rw [grown]
        split <;> omega
      rw [hcapacity]
      exact hfull

theorem memmove_same {dst src count : ℕ} (hok : v.memmove memsz dst src count = .ok v') :
    SameBlock v v' ∧ v'.length = v.length := by
  rw [memmove] at hok
  split_ifs at hok
  cases hok
  exact ⟨⟨rfl, rfl⟩, rfl⟩

theorem memcpy_same {dst src : ℕ} (hok : v.memcpy memsz dst src = .ok v') :
    SameBlock v v' ∧ v'.length = v.length := by
  rw [memcpy] at hok
  split_ifs at hok
  cases hok
  exact ⟨⟨rfl, rfl⟩, rfl⟩

theorem write_same {idx : ℕ} {val : α} (hok : v.write idx val = .ok v') : SameBlock v v' := by
  rw [write] at hok
  split_ifs at hok
  cases hok
  exact ⟨rfl, rfl⟩

theorem splice_same {start count : ℕ} (hok : v.splice memsz start count = .ok v') :
    SameBlock v v' := by
  rw [splice] at hok
  split_ifs at hok
  obtain ⟨v₁, hv₁, hok⟩ := Lib.bind_eq_ok.1 hok
  cases hok
  have hsame := (memmove_same hv₁).1
  exact ⟨hsame.capacity, hsame.asked⟩

theorem Doubled.push {val : α} (h : v.Doubled memsz n) (hmemsz : memsz ≤ intMax)
    (hn : v.length ≤ n) (hok : v.push memsz granted val = .ok v') : v'.Doubled memsz n := by
  obtain ⟨v₁, hv₁, hok⟩ := Lib.bind_eq_ok.1 hok
  obtain ⟨v₂, hv₂, hok⟩ := Lib.bind_eq_ok.1 hok
  cases hok
  exact ((h.expand hmemsz hn hv₁).1.of_same (write_same hv₂)).of_same ⟨rfl, rfl⟩

theorem Doubled.insert {idx : ℕ} {val : α} (h : v.Doubled memsz n) (hmemsz : memsz ≤ intMax)
    (hn : v.length ≤ n) (hok : v.insert memsz granted idx val = .ok v') : v'.Doubled memsz n := by
  obtain ⟨v₂, hv₂, hok⟩ := Lib.bind_eq_ok.1 hok
  obtain ⟨v₃, hv₃, hok⟩ := Lib.bind_eq_ok.1 hok
  cases hok
  obtain ⟨v₁, hv₁, hgap⟩ := Lib.bind_eq_ok.1 hv₂
  have h₁ := (h.expand hmemsz hn hv₁).1
  have h₂ : v₂.Doubled memsz n := by
    split_ifs at hgap
    · cases hgap
      exact h₁
    · exact h₁.of_same (memmove_same hgap).1
  exact (h₂.of_same (write_same hv₃)).of_same ⟨rfl, rfl⟩

theorem Doubled.swap {idx1 idx2 : ℕ} (h : v.Doubled memsz n) (hmemsz : memsz ≤ intMax)
    (hn : v.length ≤ n) (hok : v.swap memsz granted idx1 idx2 = .ok v') :
    v'.Doubled memsz n ∧ v'.length = v.length := by
  obtain ⟨v₁, hv₁, hok⟩ := Lib.bind_eq_ok.1 hok
  obtain ⟨h₁, hlength₁⟩ := h.expand hmemsz hn hv₁
  split_ifs at hok
  · cases hok
    exact ⟨h₁, hlength₁⟩
  · obtain ⟨v₂, hv₂, hok⟩ := Lib.bind_eq_ok.1 hok
    obtain ⟨v₃, hv₃, hok⟩ := Lib.bind_eq_ok.1 hok
    obtain ⟨hsame₂, hlength₂⟩ := memcpy_same hv₂
    obtain ⟨hsame₃, hlength₃⟩ := memcpy_same hv₃
    obtain ⟨hsame, hlength⟩ := memcpy_same hok
    exact ⟨((h₁.of_same hsame₂).of_same hsame₃).of_same hsame, by omega⟩

theorem Doubled.reverseFrom {i : ℕ} (h : v.Doubled memsz n) (hmemsz : memsz ≤ intMax)
    (hn : v.length ≤ n) (hok : v.reverseFrom memsz granted i = .ok v') : v'.Doubled memsz n := by
  induction i generalizing v with
  | zero =>
    cases hok
    exact h
  | succ i ih =>
    obtain ⟨v₁, hv₁, hok⟩ := Lib.bind_eq_ok.1 hok
    obtain ⟨h₁, hlength⟩ := h.swap hmemsz hn hv₁
    exact ih h₁ (by omega) hok

end

theorem Doubled.step {n : ℕ} (h : v.Doubled memsz n) (hmemsz : memsz ≤ intMax) (hn : v.length ≤ n)
    (hsets : c.op.setsCapacity = false) (hok : v.step memsz c = .ok v') : v'.Doubled memsz n := by
  obtain ⟨op, granted⟩ := c
  cases op with
  | push val => exact h.push hmemsz hn hok
  | pop =>
    rw [Vec.step, pop] at hok
    split_ifs at hok
    cases hok
    exact h.of_same ⟨rfl, rfl⟩
  | splice start count => exact h.of_same (splice_same hok)
  | insert idx val => exact h.insert hmemsz hn hok
  | swap idx1 idx2 => exact (h.swap hmemsz hn hok).1
  | truncate len =>
    cases hok
    exact h.of_same ⟨rfl, rfl⟩
  | reserve | compact => cases hsets
  | remove val =>
    obtain ⟨found, hfound, hok⟩ := Lib.bind_eq_ok.1 hok
    cases found with
    | none =>
      cases hok
      exact h
    | some idx => exact h.of_same (splice_same hok)
  | reverse => exact h.reverseFrom hmemsz hn hok
  | errno nomem =>
    cases hok
    exact h.of_same ⟨rfl, rfl⟩

/-- With memory for everything, where there are never more than `n` items before a call and none
    sets the capacity, the block is reallocated a logarithmic number of times, and what is asked
    for is linear. -/
theorem run_doubles {n : ℕ} (hlegal : LegalCalls memsz calls) (hplenty : ∀ c ∈ calls, c.Plenty)
    (hsets : ∀ c ∈ calls, c.op.setsCapacity = false)
    (hn : ∀ past c future, calls = past ++ c :: future → (items past).length ≤ n) :
    ∃ v, Lib.run (step memsz) init calls = .ok v ∧ 2 ^ v.asked.length ≤ max 2 n ∧
      v.capacity ≤ 2 * max 2 n ∧ v.asked.sum ≤ 4 * max 2 n * memsz := by
  have hstep : ∀ (v : Vec α) l c, (v.Repr l ∧ v.Intact ∧ v.Doubled memsz n) →
      ((c.Legal memsz l ∧ c.Plenty ∧ c.op.setsCapacity = false) ∧ l.length ≤ n) →
      ∃ v', v.step memsz c = .ok v' ∧
        v'.Repr (c.op.onList l) ∧ v'.Intact ∧ v'.Doubled memsz n := by
    intro v l c ⟨h, hintact, hdoubled⟩ ⟨⟨hlegal, hplenty, hsets⟩, hn⟩
    obtain ⟨v', hv', hrepr, hintact'⟩ := step_spec h hlegal (hintact.sound hplenty)
    exact ⟨v', hv', hrepr, hintact' hplenty hintact,
      hdoubled.step hlegal.1.memsz_le (h.length ▸ hn) hsets hv'⟩
  obtain ⟨v, hv, -, -, hdoubled⟩ := Lib.run_implements hstep
    ⟨repr_init, intact_init, doubled_init⟩
    ((hlegal.and_forall fun c hc => ⟨hplenty c hc, hsets c hc⟩).and hn)
  have hle := hdoubled.le
  refine ⟨v, hv, ?_, hle, ?_⟩
  · rcases hdoubled.capacity with ⟨hnone, -⟩ | hpow
    · rw [hnone, List.length_nil, Nat.pow_zero]
      omega
    · omega
  · calc v.asked.sum ≤ 2 * v.capacity * memsz := hdoubled.sum
      _ ≤ 4 * max 2 n * memsz := Nat.mul_le_mul_right _ (by omega)

theorem vecCalls_length {past : List (VecCall ℕ)} (h : past <+: Sample.vecCalls) :
    (items past).length ≤ 2 := by
  have hinits : ∀ past ∈ Sample.vecCalls.inits, (items past).length ≤ 2 := by
    simp [Sample.vecCalls, items, VecOp.onList]
  exact hinits past ((List.mem_inits past _).2 h)

theorem run_doubles_vecCalls : ∃ v, Lib.run (step 8) init Sample.vecCalls = .ok v ∧
    2 ^ v.asked.length ≤ max 2 2 ∧ v.capacity ≤ 2 * max 2 2 ∧ v.asked.sum ≤ 4 * max 2 2 * 8 :=
  run_doubles vecCalls_legal vecCalls_plenty (by decide) fun past c future h =>
    vecCalls_length ⟨c :: future, h.symm⟩

end Vec

/-! ## The pools

`clientpool` is a vector of addresses of clients, and `socketpool` one of sockets: what
the server does to its pools are operations on vectors. -/

theorem ClientPool.push_ptrs (pool : ClientPool) (s : Socket) :
    (pool.push s).clients.map Client.ptr =
      (VecOp.push pool.fresh).onList (pool.clients.map Client.ptr) := by
  rw [ClientPool.push, List.map_append]
  rfl

theorem ClientPool.remove_ptrs (pool : ClientPool) (ptr : ℕ) :
    (pool.remove ptr).clients.map Client.ptr =
      (VecOp.remove ptr).onList (pool.clients.map Client.ptr) := by
  have hsame : (fun c : Client => decide (c.ptr = ptr)) = (fun x => ptr == x) ∘ Client.ptr := by
    funext c
    rw [Function.comp_apply, Bool.beq_eq_decide_eq, decide_eq_decide]
    exact eq_comm
  have hremove : (pool.remove ptr).clients = pool.clients.eraseP (·.ptr = ptr) := rfl
  rw [VecOp.onList, List.erase_eq_eraseP, List.eraseP_map, hremove, hsame]

/-- The first socket like the one destroyed is spliced out, if there is one. -/
theorem Server.destroySocket_splice (srv : Server) (s : Socket) (closefd : Bool) :
    (srv.destroySocket s closefd).socketpool =
      match srv.socketpool.findIdx? fun t =>
        t.fd = s.fd ∧ t.bindaddr.bytes = s.bindaddr.bytes with
      | none => srv.socketpool
      | some idx => (VecOp.splice idx 1).onList srv.socketpool := by
  have hdestroy : (srv.destroySocket s closefd).socketpool = srv.socketpool.eraseP fun t =>
      t.fd = s.fd ∧ t.bindaddr.bytes = s.bindaddr.bytes := rfl
  rw [hdestroy, List.eraseP_eq_eraseIdx]
  cases srv.socketpool.findIdx? fun t => t.fd = s.fd ∧ t.bindaddr.bytes = s.bindaddr.bytes with
  | none => rfl
  | some idx => exact List.eraseIdx_eq_take_drop_succ _ _

end Nbstftp
