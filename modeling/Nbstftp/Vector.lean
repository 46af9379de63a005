import Nbstftp.Lib.Cells
import Nbstftp.Lib.Refinement
import Mathlib.Data.UInt

/-!
# Vectors

Whatever the server has many of, it keeps in vectors: the clients, the sockets, the
packets of a queue, the blocks of the configuration, the modules. A vector (`Vec`) is
a block of memory from `reallocarray` and what is noted of it: how many of its cells
are items, and for how many it has room.

The functions work on the block itself, as do the macros: a write that is not in it,
or an index that no `int` holds, ends in a `VecFault`. Without memory a function leaves
the block as it was, but notes the room it wanted, and sets `errno`.

What a vector is for is a list (`VecOp.onList`). Its operations implement those on
lists wherever they are *sound* (`step_spec`): `push` if there is a cell behind the
items, and those that look at `errno` if that is clear.
-/

namespace Nbstftp

/-! ## The block -/

/-- `MUL_NO_OVERFLOW`, for a `size_t` of eight bytes. -/
def mulNoOverflow : UInt64 := (1 : UInt64) <<< (8 * 4)

/-- `SIZE_MAX`. -/
def sizeMax : UInt64 := .ofNat (2 ^ 64 - 1)

/-- `reallocarray`: how many bytes `realloc` is asked for, unless it is not asked. -/
def reallocarray (nmemb size : UInt64) : Option UInt64 :=
  if (mulNoOverflow ≤ nmemb ∨ mulNoOverflow ≤ size) ∧ 0 < nmemb ∧ sizeMax / nmemb < size then none
  else some (size * nmemb)

/-- `INT_MAX`. -/
def intMax : ℕ := 2 ^ 31 - 1

/-- Why the functions on a vector have no defined behaviour from there on: the code goes on, but
    over what belongs to others. -/
inductive VecFault
  /-- An `assert` fails. -/
  | assertion
  /-- A cell that is not in the block is read or written. -/
  | outOfBounds
  /-- An `int` overflows. -/
  | overflow
  deriving DecidableEq

/-- `vec_t`, and what else its functions change. -/
structure Vec (α : Type) where
  /-- The cells of the block. -/
  data : List (Option α)
  length : ℕ
  capacity : ℕ
  /-- `errno` is `ENOMEM`. -/
  nomem : Bool
  /-- The bytes asked of `realloc`, call by call. -/
  asked : List ℕ
  deriving DecidableEq

namespace Vec

variable {α : Type}

/-- `vec_init`. -/
def init : Vec α := ⟨[], 0, 0, false, []⟩

section

/-! The size of an item, and whether `realloc` finds so many bytes. -/

variable (memsz : ℕ) (granted : UInt64 → Bool)

/-- Room is made for so many items; without memory it is only noted. -/
def realloc (v : Vec α) (capacity : ℕ) : Vec α :=
  match reallocarray (.ofNat capacity) (.ofNat memsz) with
  | none => { v with capacity := capacity, nomem := true }
  | some size =>
    if granted size then
      { v with
        data := Lib.resizeCells v.data capacity, capacity := capacity,
        asked := v.asked ++ [size.toNat] }
    else
      { v with capacity := capacity, nomem := true, asked := v.asked ++ [size.toNat] }

/-- The capacity `vec_expand_` asks for; `VEC_MIN_CAPACITY` is 4. -/
def grown (v : Vec α) : ℕ := if v.capacity = 0 then 4 else 2 * v.capacity

/-- `vec_expand_`. -/
def expand (v : Vec α) : Except VecFault (Vec α) :=
  if intMax < v.length + 1 then .error .overflow
  else if v.length + 1 ≤ v.capacity then .ok v
  else if intMax < v.grown then .error .overflow
  else .ok (v.realloc memsz granted v.grown)

/-- `vec_reserve_`. -/
def reserve (v : Vec α) (n : ℕ) : Vec α :=
  if v.capacity < n then v.realloc memsz granted n else v

/-- `vec_compact_`. -/
def compact (v : Vec α) : Vec α :=
  if v.length = 0 then { v with data := [], capacity := 0 }
  else v.realloc memsz granted v.length

/-- `memmove` on items; the offsets are computed as `int`s. -/
def memmove (v : Vec α) (dst src count : ℕ) : Except VecFault (Vec α) :=
  if intMax < max dst src * memsz ∨ intMax < count * memsz then .error .overflow
  else if dst + count ≤ v.data.length ∧ src + count ≤ v.data.length then
    .ok { v with data := Lib.moveCells v.data dst src count }
  else .error .outOfBounds

/-- `memcpy` of one item. -/
def memcpy (v : Vec α) (dst src : ℕ) : Except VecFault (Vec α) :=
  if intMax < max dst src * memsz then .error .overflow
  else if dst < v.data.length ∧ src < v.data.length then
    .ok { v with data := Lib.copyCell v.data dst src }
  else .error .outOfBounds

/-- `(v)->data[idx] = (val)`. -/
def write (v : Vec α) (idx : ℕ) (val : α) : Except VecFault (Vec α) :=
  if idx < v.data.length then .ok { v with data := v.data.set idx (some val) }
  else .error .outOfBounds

/-! ## The operations -/

/-- `vec_push`; what the allocator may have left unused behind the cells is not part of them. -/
def push (v : Vec α) (val : α) : Except VecFault (Vec α) := do
  let v ← v.expand memsz granted
  let v ← v.write v.length val
  return { v with length := v.length + 1 }

/-- `vec_pop`. -/
def pop (v : Vec α) : Except VecFault (Vec α) :=
  if 0 < v.length ∧ v.length ≤ v.data.length then .ok { v with length := v.length - 1 }
  else .error .outOfBounds

/-- `vec_splice`; the size of what is moved would be negative for more items than there are. -/
def splice (v : Vec α) (start count : ℕ) : Except VecFault (Vec α) :=
  if count = 0 then .error .assertion
  else if v.length < start + count then .error .outOfBounds
  else do
    let v ← v.memmove memsz start (start + count) (v.length - start - count)
    return { v with length := v.length - count }

/-- `vec_insert_`. -/
def insertGap (v : Vec α) (idx : ℕ) : Except VecFault (Vec α) := do
  let v ← v.expand memsz granted
  -- Nothing is moved once `errno` is set, be it from before.
  if v.nomem then return v
  else if v.length < idx then .error .outOfBounds
  else v.memmove memsz (idx + 1) idx (v.length - idx)

/-- `vec_insert`. -/
def insert (v : Vec α) (idx : ℕ) (val : α) : Except VecFault (Vec α) := do
  let v ← v.insertGap memsz granted idx
  let v ← v.write idx val
  return { v with length := v.length + 1 }

/-- `vec_swap`: by way of the cell behind the items. -/
def swap (v : Vec α) (idx1 idx2 : ℕ) : Except VecFault (Vec α) := do
  let v ← v.expand memsz granted
  if v.nomem then return v
  else
    let v ← v.memcpy memsz v.length idx1
    let v ← v.memcpy memsz idx1 idx2
    v.memcpy memsz idx2 v.length

/-- `vec_truncate`, and `vec_clear` for `0`. -/
def truncate (v : Vec α) (len : ℕ) : Vec α :=
  { v with length := if len < v.length then len else v.length }

/-- The loop of `vec_find` from an index on, with so many items to go. -/
def findFrom [DecidableEq α] (v : Vec α) (val : α) : ℕ → ℕ → Except VecFault (Option ℕ)
  | 0, _ => .ok none
  | n + 1, idx =>
    match v.data[idx]? with
    | none => .error .outOfBounds
    | some cell => if cell = some val then .ok (some idx) else v.findFrom val n (idx + 1)

/-- `vec_find`. -/
def find [DecidableEq α] (v : Vec α) (val : α) : Except VecFault (Option ℕ) :=
  v.findFrom val v.length 0

/-- `vec_remove`. -/
def remove [DecidableEq α] (v : Vec α) (val : α) : Except VecFault (Vec α) := do
  match ← v.find val with
  | none => return v
  | some idx => v.splice memsz idx 1

/-- The loop of `vec_reverse`. -/
def reverseFrom (v : Vec α) : ℕ → Except VecFault (Vec α)
  | 0 => .ok v
  | i + 1 => do
    let v ← v.swap memsz granted i (v.length - (i + 1))
    v.reverseFrom i

/-- `vec_reverse`. -/
def reverse (v : Vec α) : Except VecFault (Vec α) :=
  v.reverseFrom memsz granted (v.length / 2)

end

end Vec

/-! ## Calls -/

/-- An operation on a vector. -/
inductive VecOp (α : Type)
  | push (val : α)
  | pop
  | splice (start count : ℕ)
  | insert (idx : ℕ) (val : α)
  | swap (idx1 idx2 : ℕ)
  | truncate (len : ℕ)
  | reserve (n : ℕ)
  | compact
  | remove (val : α)
  | reverse
  /-- Other functions set `errno`, to `ENOMEM` or not. -/
  | errno (nomem : Bool)

/-- An operation, and how many bytes `realloc` finds then. -/
structure VecCall (α : Type) where
  op : VecOp α
  granted : UInt64 → Bool

variable {α : Type}

/-- A call on a vector of items of `memsz` bytes. -/
def Vec.step [DecidableEq α] (memsz : ℕ) (v : Vec α) (c : VecCall α) : Except VecFault (Vec α) :=
  match c.op with
  | .push val => v.push memsz c.granted val
  | .pop => v.pop
  | .splice start count => v.splice memsz start count
  | .insert idx val => v.insert memsz c.granted idx val
  | .swap idx1 idx2 => v.swap memsz c.granted idx1 idx2
  | .truncate len => .ok (v.truncate len)
  | .reserve n => .ok (v.reserve memsz c.granted n)
  | .compact => .ok (v.compact memsz c.granted)
  | .remove val => v.remove memsz val
  | .reverse => v.reverse memsz c.granted
  | .errno nomem => .ok { v with nomem := nomem }

/-- What an operation is to do to the list of the items. -/
def VecOp.onList [DecidableEq α] (l : List α) : VecOp α → List α
  | .push val => l ++ [val]
  | .pop => l.dropLast
  | .splice start count => l.take start ++ l.drop (start + count)
  | .insert idx val => l.insertIdx idx val
  | .swap idx1 idx2 => Lib.exchange l idx1 idx2
  | .truncate len => l.take len
  | .remove val => l.erase val
  | .reverse => l.reverse
  | .reserve _ | .compact | .errno _ => l

/-! ## The block and its size -/

/-- `realloc` is asked for the product if and only if a `size_t` holds it. -/
theorem reallocarray_toNat (nmemb size : UInt64) :
    (reallocarray nmemb size).map UInt64.toNat =
      if nmemb.toNat * size.toNat < 2 ^ 64 then some (nmemb.toNat * size.toNat) else none := by
  rw [reallocarray]
  simp only [UInt64.le_iff_toNat_le, UInt64.lt_iff_toNat_lt, UInt64.toNat_div]
  have hsqrt : mulNoOverflow.toNat = 2 ^ 32 := rfl
  have hmax : sizeMax.toNat = 2 ^ 64 - 1 := rfl
  have hzero : (0 : UInt64).toNat = 0 := rfl
  rw [hsqrt, hmax, hzero]
  by_cases hfits : nmemb.toNat * size.toNat < 2 ^ 64
  · have hguard : ¬((2 ^ 32 ≤ nmemb.toNat ∨ 2 ^ 32 ≤ size.toNat) ∧ 0 < nmemb.toNat ∧
        (2 ^ 64 - 1) / nmemb.toNat < size.toNat) := by
      rintro ⟨-, hpos, hlt⟩
      rw [Nat.div_lt_iff_lt_mul hpos, Nat.mul_comm] at hlt
      omega
    rw [if_neg hguard, if_pos hfits, Option.map_some, UInt64.toNat_mul, Nat.mul_comm,
      Nat.mod_eq_of_lt hfits]
  · have hpos : 0 < nmemb.toNat := by
      by_contra hnmemb
      rw [Nat.eq_zero_of_not_pos hnmemb, Nat.zero_mul] at hfits
      omega
    -- Two factors below the square root cannot overflow, so the guard looks at these.
    have hbig : 2 ^ 32 ≤ nmemb.toNat ∨ 2 ^ 32 ≤ size.toNat := by
      by_contra hsmall
      have := Nat.mul_lt_mul'' (a := nmemb.toNat) (b := size.toNat) (c := 2 ^ 32) (d := 2 ^ 32)
        (by omega) (by omega)
      omega
    have hguard : (2 ^ 64 - 1) / nmemb.toNat < size.toNat := by
      rw [Nat.div_lt_iff_lt_mul hpos, Nat.mul_comm]
      omega
    rw [if_pos ⟨hbig, hpos, hguard⟩, if_neg hfits, Option.map_none]

/-- Sizes that are `int`s are never refused. -/
theorem reallocarray_int {n memsz : ℕ} (hn : n ≤ intMax) (hmemsz : memsz ≤ intMax) :
    reallocarray (.ofNat n) (.ofNat memsz) = some (.ofNat (n * memsz)) := by
  have hmax : intMax < 2 ^ 32 := by decide
  have hguard : ¬(mulNoOverflow ≤ UInt64.ofNat n ∨ mulNoOverflow ≤ UInt64.ofNat memsz) := by
    simp only [UInt64.le_iff_toNat_le, UInt64.toNat_ofNat']
    have hsqrt : mulNoOverflow.toNat = 2 ^ 32 := rfl
    omega
  rw [reallocarray, if_neg fun h => hguard h.1, ← UInt64.ofNat_mul, Nat.mul_comm]

namespace Vec

variable {memsz : ℕ} {granted : UInt64 → Bool} {v : Vec α} {l : List α}

theorem realloc_eq {capacity : ℕ} (hcapacity : capacity ≤ intMax) (hmemsz : memsz ≤ intMax) :
    v.realloc memsz granted capacity =
      if granted (.ofNat (capacity * memsz)) then
        { v with
          data := Lib.resizeCells v.data capacity, capacity := capacity,
          asked := v.asked ++ [capacity * memsz] }
      else
        { v with
          capacity := capacity, nomem := true, asked := v.asked ++ [capacity * memsz] } := by
  have hmax : capacity * memsz < 2 ^ 64 := by
    have := Nat.mul_le_mul hcapacity hmemsz
    have : intMax * intMax < 2 ^ 64 := by decide
    omega
  rw [realloc, reallocarray_int hcapacity hmemsz]
  simp only [UInt64.toNat_ofNat', Nat.mod_eq_of_lt hmax]

/-! ## Vectors as lists -/

/-- A vector is a list: its first cells are the items, and it notes room for them. -/
structure Repr (v : Vec α) (l : List α) : Prop where
  holds : Lib.Holds v.data l
  length : v.length = l.length
  le : l.length ≤ v.capacity

/-- The block has the room that is noted, and `errno` is clear. -/
structure Intact (v : Vec α) : Prop where
  room : v.data.length = v.capacity
  errno : v.nomem = false

/-- What a function leaves as it was if there is memory for everything. -/
structure Kept (v v' : Vec α) : Prop where
  room : v.data.length = v.capacity → v'.data.length = v'.capacity
  errno : v'.nomem = v.nomem

theorem Kept.refl (v : Vec α) : Kept v v := ⟨id, rfl⟩

theorem Kept.trans {v₁ v₂ v₃ : Vec α} (h : Kept v₁ v₂) (h' : Kept v₂ v₃) : Kept v₁ v₃ :=
  ⟨fun hroom => h'.room (h.room hroom), h'.errno.trans h.errno⟩

theorem Kept.intact {v' : Vec α} (h : Kept v v') (hintact : v.Intact) : v'.Intact :=
  ⟨h.room hintact.room, h.errno.trans hintact.errno⟩

/-- There is a cell behind the items, or memory for it. -/
def HasRoom (memsz : ℕ) (granted : UInt64 → Bool) (v : Vec α) : Prop :=
  v.length < v.data.length ∨ v.capacity ≤ v.length ∧ granted (.ofNat (v.grown * memsz)) = true

/-- Nothing is amiss with memory: `errno` is clear, and remains so when there has to be room
    for another item. -/
structure CanGrow (memsz : ℕ) (granted : UInt64 → Bool) (v : Vec α) : Prop where
  errno : v.nomem = false
  room : v.length < v.capacity → v.length < v.data.length
  memory : v.capacity ≤ v.length → granted (.ofNat (v.grown * memsz)) = true

/-- Every offset into a block twice as large is an `int`. -/
structure Fits (memsz : ℕ) (l : List α) : Prop where
  pos : 0 < memsz
  le : 2 * (l.length + 2) * memsz ≤ intMax

theorem Fits.length_le (h : Fits memsz l) : 2 * (l.length + 2) ≤ intMax :=
  Nat.le_trans (Nat.le_mul_of_pos_right _ h.pos) h.le

theorem Fits.memsz_le (h : Fits memsz l) : memsz ≤ intMax :=
  Nat.le_trans (Nat.le_mul_of_pos_left _ (by omega)) h.le

/-- An offset in the block is an `int`. -/
theorem Fits.mul_le (h : Fits memsz l) {k : ℕ} (hk : k ≤ l.length + 1) : k * memsz ≤ intMax :=
  Nat.le_trans (Nat.mul_le_mul_right _ (by omega)) h.le

/-- What `vec_expand_` does: there is room afterwards, if there was memory for it. -/
structure Expanded (memsz : ℕ) (granted : UInt64 → Bool) (v : Vec α) (l : List α)
    (v' : Vec α) : Prop where
  repr : v'.Repr l
  lt : l.length < v'.capacity
  room : v.HasRoom memsz granted ↔ l.length < v'.data.length
  errno : v.CanGrow memsz granted → v'.nomem = false ∧ l.length < v'.data.length
  kept : (∀ size, granted size = true) → Kept v v'

theorem expand_spec (granted : UInt64 → Bool) (h : v.Repr l) (hfits : Fits memsz l) :
    ∃ v', v.expand memsz granted = .ok v' ∧ Expanded memsz granted v l v' := by
  have hlength := h.length
  have hle := h.le
  have hmax := hfits.length_le
  rw [expand, if_neg (by omega)]
  by_cases hroom : v.length + 1 ≤ v.capacity
  · rw [if_pos hroom]
    refine ⟨v, rfl, h, by omega, ?_, fun hgrow => ⟨hgrow.errno, ?_⟩, fun _ => .refl v⟩
    · rw [HasRoom, ← hlength]
      exact or_iff_left fun hfull => absurd hfull.1 (by omega)
    · exact hlength ▸ hgrow.room hroom
  · -- The capacity is the length, or both are zero.
    have hgrown : l.length < v.grown ∧ v.grown ≤ intMax := by
      rw [grown]
      split <;> omega
    rw [if_neg hroom, if_neg (by omega), realloc_eq hgrown.2 hfits.memsz_le]
    refine ⟨_, rfl, ?_⟩
    split
    · have hcells : (Lib.resizeCells v.data v.grown).length = v.grown := Lib.length_resizeCells _
      refine ⟨⟨h.holds.resize hgrown.1.le, hlength, hgrown.1.le⟩, hgrown.1, ?_, ?_, ?_⟩
      · rw [hcells]
        exact iff_of_true (.inr ⟨by omega, ‹_›⟩) hgrown.1
      · exact fun hgrow => ⟨hgrow.errno, by rw [hcells]; exact hgrown.1⟩
      · exact fun _ => ⟨fun _ => hcells, rfl⟩
    · refine ⟨⟨h.holds, hlength, hgrown.1.le⟩, hgrown.1, ?_, ?_, ?_⟩
      · rw [HasRoom, ← hlength]
        exact or_iff_left fun hfull => ‹¬_› hfull.2
      · exact fun hgrow => absurd (hgrow.memory (by omega)) ‹_›
      · exact fun hplenty => absurd (hplenty _) ‹_›

/-! ### The operations -/

/-- What an operation leaves: a list. -/
structure Leaves (granted : UInt64 → Bool) (v v' : Vec α) (l : List α) : Prop where
  repr : v'.Repr l
  kept : (∀ size, granted size = true) → Kept v v'

theorem write_ok {idx : ℕ} {val : α} (h : idx < v.data.length) :
    v.write idx val = .ok { v with data := v.data.set idx (some val) } := if_pos h

theorem push_spec (h : v.Repr l) (hfits : Fits memsz l) (hroom : v.HasRoom memsz granted)
    (val : α) : ∃ v', v.push memsz granted val = .ok v' ∧ Leaves granted v v' (l ++ [val]) := by
  obtain ⟨v', hv', hexpanded⟩ := expand_spec granted h hfits
  have hlt := hexpanded.room.1 hroom
  have hlength := hexpanded.repr.length
  rw [push, hv', Lib.ok_bind, write_ok (hlength ▸ hlt), Lib.ok_bind]
  refine ⟨_, rfl, ⟨?_, ?_, ?_⟩, fun hplenty => ?_⟩
  · exact hlength ▸ hexpanded.repr.holds.push hlt val
  · simp [hlength]
  · rw [List.length_append, List.length_singleton]
    exact hexpanded.lt
  · have hkept := hexpanded.kept hplenty
    exact ⟨fun hroom => by simpa using hkept.room hroom, hkept.errno⟩

/-- Without room, a push writes behind the block. -/
theorem push_error (h : v.Repr l) (hfits : Fits memsz l) (hroom : ¬v.HasRoom memsz granted)
    (val : α) : v.push memsz granted val = .error .outOfBounds := by
  obtain ⟨v', hv', hexpanded⟩ := expand_spec granted h hfits
  have hfull : ¬v'.length < v'.data.length := by
    rw [hexpanded.repr.length]
    exact fun hlt => hroom (hexpanded.room.2 hlt)
  rw [push, hv', Lib.ok_bind, write, if_neg hfull, Lib.error_bind]

theorem pop_spec (h : v.Repr l) (hl : l ≠ []) :
    ∃ v', v.pop = .ok v' ∧ Leaves granted v v' l.dropLast := by
  have hpos := List.length_pos_iff.2 hl
  have hlength := h.length
  have hcells := h.holds.length_le
  rw [pop, if_pos ⟨by omega, by omega⟩]
  refine ⟨_, rfl, ⟨?_, ?_, ?_⟩, fun _ => ⟨id, rfl⟩⟩
  · rw [List.dropLast_eq_take]
    exact h.holds.take _
  · simp [hlength]
  · have := h.le
    simp only [List.length_dropLast]
    omega

theorem memmove_ok {dst src count : ℕ} (hfits : Fits memsz l)
    (hdst : dst + count ≤ v.data.length) (hsrc : src + count ≤ v.data.length)
    (hle : max dst src ≤ l.length + 1) (hcount : count ≤ l.length) :
    v.memmove memsz dst src count = .ok { v with data := Lib.moveCells v.data dst src count } := by
  have hoffset := hfits.mul_le hle
  have hsize := hfits.mul_le (Nat.le_succ_of_le hcount)
  rw [memmove, if_neg (by omega), if_pos ⟨hdst, hsrc⟩]

theorem splice_spec {start count : ℕ} (h : v.Repr l) (hfits : Fits memsz l) (hcount : 0 < count)
    (hle : start + count ≤ l.length) :
    ∃ v', v.splice memsz start count = .ok v' ∧
      Leaves granted v v' (l.take start ++ l.drop (start + count)) := by
  have hlength := h.length
  have hcells := h.holds.length_le
  rw [splice, if_neg (by omega), if_neg (by omega),
    memmove_ok hfits (by omega) (by omega) (by omega) (by omega), Lib.ok_bind]
  refine ⟨_, rfl, ⟨?_, ?_, ?_⟩, fun _ => ⟨fun hroom => ?_, rfl⟩⟩
  · exact hlength ▸ h.holds.splice hle
  · simp only [hlength, List.length_append, List.length_take, List.length_drop]
    omega
  · have := h.le
    simp only [List.length_append, List.length_take, List.length_drop]
    omega
  · exact (Lib.length_moveCells (by omega) (by omega)).trans hroom

theorem insert_spec {idx : ℕ} (h : v.Repr l) (hfits : Fits memsz l)
    (hgrow : v.CanGrow memsz granted) (hidx : idx ≤ l.length) (val : α) :
    ∃ v', v.insert memsz granted idx val = .ok v' ∧ Leaves granted v v' (l.insertIdx idx val) := by
  obtain ⟨v', hv', hexpanded⟩ := expand_spec granted h hfits
  obtain ⟨herrno, hlt⟩ := hexpanded.errno hgrow
  have hlength := hexpanded.repr.length
  have hmoved : (Lib.moveCells v'.data (idx + 1) idx (v'.length - idx)).length = v'.data.length :=
    Lib.length_moveCells (by omega) (by omega)
  have hgap : v.insertGap memsz granted idx =
      .ok { v' with data := Lib.moveCells v'.data (idx + 1) idx (v'.length - idx) } := by
    rw [insertGap, hv', Lib.ok_bind, if_neg (by simp [herrno]), if_neg (by omega)]
    exact memmove_ok hfits (by omega) (by omega) (by omega) (by omega)
  rw [insert, hgap, Lib.ok_bind, write_ok (by simp only [hmoved]; omega), Lib.ok_bind]
  refine ⟨_, rfl, ⟨?_, ?_, ?_⟩, fun hplenty => ⟨fun hroom => ?_, (hexpanded.kept hplenty).errno⟩⟩
  · rw [hlength]
    exact hexpanded.repr.holds.insert hidx hlt val
  · rw [List.length_insertIdx_of_le_length hidx]
    exact congrArg (· + 1) hlength
  · rw [List.length_insertIdx_of_le_length hidx]
    exact hexpanded.lt
  · rw [List.length_set, hmoved]
    exact (hexpanded.kept hplenty).room hroom

theorem memcpy_ok {dst src : ℕ} (hfits : Fits memsz l) (hdst : dst < v.data.length)
    (hsrc : src < v.data.length) (hle : max dst src ≤ l.length) :
    v.memcpy memsz dst src = .ok { v with data := Lib.copyCell v.data dst src } := by
  have hoffset := hfits.mul_le (Nat.le_succ_of_le hle)
  rw [memcpy, if_neg (by omega), if_pos ⟨hdst, hsrc⟩]

theorem memcpys_ok {idx1 idx2 : ℕ} (hfits : Fits memsz l) (hlength : v.length = l.length)
    (hroom : l.length < v.data.length) (h₁ : idx1 < l.length) (h₂ : idx2 < l.length) :
    (do
      let v ← v.memcpy memsz v.length idx1
      let v ← v.memcpy memsz idx1 idx2
      v.memcpy memsz idx2 v.length) =
      .ok { v with
        data := Lib.copyCell (Lib.copyCell (Lib.copyCell v.data l.length idx1) idx1 idx2) idx2
          l.length } := by
  rw [hlength, memcpy_ok hfits hroom (by omega) (by omega), Lib.ok_bind,
    memcpy_ok hfits (by simp; omega) (by simp; omega) (by omega), Lib.ok_bind]
  simp only [hlength]
  exact memcpy_ok hfits (by simp; omega) (by simpa using hroom) (by omega)

/-- An exchange, after which another one has the room it needs, too. -/
theorem swap_spec {idx1 idx2 : ℕ} (h : v.Repr l) (hfits : Fits memsz l)
    (hgrow : v.CanGrow memsz granted) (h₁ : idx1 < l.length) (h₂ : idx2 < l.length) :
    ∃ v', v.swap memsz granted idx1 idx2 = .ok v' ∧
      Leaves granted v v' (Lib.exchange l idx1 idx2) ∧ v'.CanGrow memsz granted := by
  obtain ⟨v', hv', hexpanded⟩ := expand_spec granted h hfits
  obtain ⟨herrno, hlt⟩ := hexpanded.errno hgrow
  have hlength := hexpanded.repr.length
  have hcapacity := hexpanded.lt
  rw [swap, hv', Lib.ok_bind, if_neg (by simp [herrno]), memcpys_ok hfits hlength hlt h₁ h₂]
  refine ⟨_, rfl, ⟨⟨?_, ?_, ?_⟩, fun hplenty => ⟨fun hroom => ?_, (hexpanded.kept hplenty).errno⟩⟩,
    herrno, fun _ => ?_, ?_⟩
  · exact hexpanded.repr.holds.exchange h₁ h₂ hlt
  · simpa using hlength
  · simpa using hexpanded.repr.le
  · simpa using (hexpanded.kept hplenty).room hroom
  · simpa [hlength] using hlt
  · intro hfull
    simp only [hlength] at hfull
    omega

theorem reverseFrom_spec {i : ℕ} (h : v.Repr l) (hfits : Fits memsz l)
    (hgrow : v.CanGrow memsz granted) (hi : 2 * i ≤ l.length) :
    ∃ v', v.reverseFrom memsz granted i = .ok v' ∧ Leaves granted v v' (Lib.mirror i l) := by
  induction i generalizing v l with
  | zero => exact ⟨v, rfl, h, fun _ => .refl v⟩
  | succ i ih =>
    have hfirst : i < l.length := by omega
    have hlast : l.length - (i + 1) < l.length := by omega
    obtain ⟨v₁, hv₁, hleaves, hgrow₁⟩ := swap_spec h hfits hgrow hfirst hlast
    have hlength : (Lib.exchange l i (l.length - (i + 1))).length = l.length :=
      Lib.length_exchange i _
    obtain ⟨v', hv', hleaves'⟩ :=
      ih hleaves.repr ⟨hfits.pos, by rw [hlength]; exact hfits.le⟩ hgrow₁
      (by rw [hlength]; omega)
    rw [reverseFrom, h.length, hv₁, Lib.ok_bind]
    exact ⟨v', hv', hleaves'.repr, fun hplenty =>
      (hleaves.kept hplenty).trans (hleaves'.kept hplenty)⟩

theorem reverse_spec (h : v.Repr l) (hfits : Fits memsz l) (hgrow : v.CanGrow memsz granted) :
    ∃ v', v.reverse memsz granted = .ok v' ∧ Leaves granted v v' l.reverse := by
  rw [reverse, h.length, ← Lib.mirror_half]
  exact reverseFrom_spec h hfits hgrow (by omega)

theorem findFrom_spec [DecidableEq α] {val : α} {n idx : ℕ} (h : v.Repr l)
    (hn : n + idx = l.length) :
    v.findFrom val n idx =
      .ok (if val ∈ l.drop idx then some (idx + (l.drop idx).idxOf val) else none) := by
  induction n generalizing idx with
  | zero =>
    rw [findFrom, List.drop_eq_nil_of_le (by omega), if_neg List.not_mem_nil]
  | succ n ih =>
    have hidx : idx < l.length := by omega
    rw [findFrom, h.holds idx hidx, List.getElem?_eq_getElem hidx, List.drop_eq_getElem_cons hidx]
    simp only [Option.some.injEq]
    by_cases heq : l[idx] = val
    · rw [if_pos heq, heq, if_pos List.mem_cons_self, List.idxOf_cons_self, Nat.add_zero]
    · rw [if_neg heq, ih (by omega), List.idxOf_cons_ne _ heq]
      simp only [List.mem_cons, Ne.symm heq, false_or]
      split_ifs <;> grind

theorem remove_spec [DecidableEq α] (h : v.Repr l) (hfits : Fits memsz l) (val : α) :
    ∃ v', v.remove memsz val = .ok v' ∧ Leaves granted v v' (l.erase val) := by
  rw [remove, find, findFrom_spec h (h.length ▸ Nat.add_zero _), Lib.ok_bind, List.drop_zero,
    Nat.zero_add]
  by_cases hval : val ∈ l
  · have hlt := List.idxOf_lt_length_of_mem hval
    rw [if_pos hval, List.erase_eq_eraseIdx_of_idxOf rfl, List.eraseIdx_eq_take_drop_succ]
    exact splice_spec h hfits Nat.one_pos hlt
  · rw [if_neg hval, List.erase_of_not_mem hval]
    exact ⟨v, rfl, h, fun _ => .refl v⟩

theorem truncate_spec (h : v.Repr l) (len : ℕ) :
    Leaves granted v (v.truncate len) (l.take len) := by
  refine ⟨⟨h.holds.take len, ?_, ?_⟩, fun _ => ⟨id, rfl⟩⟩
  · rw [truncate, h.length, List.length_take]
    simp only
    split <;> omega
  · have := h.le
    rw [List.length_take]
    exact Nat.le_trans (Nat.min_le_right _ _) this

/-- Making room for no fewer items than there are changes none. -/
theorem realloc_spec {capacity : ℕ} (h : v.Repr l) (hmemsz : memsz ≤ intMax)
    (hcapacity : capacity ≤ intMax) (hle : l.length ≤ capacity) :
    Leaves granted v (v.realloc memsz granted capacity) l := by
  rw [realloc_eq hcapacity hmemsz]
  split
  · exact ⟨⟨h.holds.resize hle, h.length, hle⟩, fun _ => ⟨fun _ => Lib.length_resizeCells _, rfl⟩⟩
  · exact ⟨⟨h.holds, h.length, hle⟩, fun hplenty => absurd (hplenty _) ‹_›⟩

theorem reserve_spec {n : ℕ} (h : v.Repr l) (hmemsz : memsz ≤ intMax) (hn : n ≤ intMax) :
    Leaves granted v (v.reserve memsz granted n) l := by
  have hle := h.le
  rw [reserve]
  split
  · exact realloc_spec h hmemsz hn (by omega)
  · exact ⟨h, fun _ => .refl v⟩

theorem compact_spec (h : v.Repr l) (hfits : Fits memsz l) :
    Leaves granted v (v.compact memsz granted) l := by
  have hlength := h.length
  have hmax := hfits.length_le
  rw [compact]
  split
  · obtain rfl : l = [] := List.eq_nil_of_length_eq_zero (by omega)
    exact ⟨⟨Lib.holds_nil, hlength, Nat.le_refl _⟩, fun _ => ⟨fun _ => rfl, rfl⟩⟩
  · rw [hlength]
    exact realloc_spec h hfits.memsz_le (by omega) (Nat.le_refl _)

end Vec

end Nbstftp
