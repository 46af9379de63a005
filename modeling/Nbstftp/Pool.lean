import Nbstftp.Client
import Mathlib.Data.List.Nodup

/-!
# The client pool

The pool holds the clients in the order they were added, each at an address of
its own: that no two are at the same one is part of the type, so that writing to
a client (`update`) and taking it out (`remove`) concern exactly one place of
the pool (`update_eq`, `remove_eq`).
-/

namespace Nbstftp

/-- `clientpool`: clients at distinct addresses. -/
structure ClientPool where
  clients : List Client
  nodup : (clients.map Client.ptr).Nodup

namespace ClientPool

def empty : ClientPool := ⟨[], List.nodup_nil⟩

/-- A write to the client at the address of `c`. -/
def update (pool : ClientPool) (c : Client) : ClientPool where
  clients := pool.clients.map fun d => if d.ptr = c.ptr then c else d
  nodup := by
    have hptr : (pool.clients.map fun d => if d.ptr = c.ptr then c else d).map Client.ptr =
        pool.clients.map Client.ptr := by
      rw [List.map_map]
      refine List.map_congr_left fun d _ => ?_
      by_cases h : d.ptr = c.ptr <;> simp [h]
    rw [hptr]
    exact pool.nodup

/-- `vec_remove`. -/
def remove (pool : ClientPool) (ptr : ℕ) : ClientPool where
  clients := pool.clients.eraseP (·.ptr = ptr)
  nodup := pool.nodup.sublist (List.eraseP_sublist.map _)

/-- The address of the next client allocated: one that no client is at. -/
def fresh (pool : ClientPool) : ℕ := (pool.clients.map Client.ptr).foldr max 0 + 1

theorem fresh_notMem (pool : ClientPool) : pool.fresh ∉ pool.clients.map Client.ptr := by
  have hle : ∀ ptrs : List ℕ, ∀ ptr ∈ ptrs, ptr ≤ ptrs.foldr max 0 := by
    intro ptrs
    induction ptrs with
    | nil => exact fun ptr h => absurd h List.not_mem_nil
    | cons p ptrs ih =>
      intro ptr h
      rw [List.foldr_cons]
      rcases List.mem_cons.1 h with rfl | h
      · exact Nat.le_max_left _ _
      · exact Nat.le_trans (ih ptr h) (Nat.le_max_right _ _)
  exact fun h => Nat.not_succ_le_self _ (hle _ _ h)

/-- `vec_push`, of a client just allocated for a socket. -/
def push (pool : ClientPool) (s : Socket) : ClientPool where
  clients := pool.clients ++ [.new pool.fresh s]
  nodup := by
    rw [List.map_append, List.nodup_append]
    refine ⟨pool.nodup, List.nodup_singleton _, fun p hp q hq hpq => ?_⟩
    rw [List.map_singleton, List.mem_singleton] at hq
    rw [hpq, hq] at hp
    exact pool.fresh_notMem hp

section

variable {pool : ClientPool} {pre rest : List Client} {c c' : Client}

/-- The others are in the pool, too, and at other addresses. -/
theorem mem_of_mem_others (h : pool.clients = pre ++ c :: rest) {d : Client}
    (hd : d ∈ pre ++ rest) : d ∈ pool.clients := by
  rw [h]
  exact (List.mem_append.1 hd).elim (List.mem_append_left _) fun hd =>
    List.mem_append_right _ (List.mem_cons_of_mem c hd)

theorem ptr_ne (h : pool.clients = pre ++ c :: rest) {d : Client} (hd : d ∈ pre ++ rest) :
    d.ptr ≠ c.ptr := by
  have hnodup := pool.nodup
  rw [h, List.map_append, List.map_cons, List.nodup_append, List.nodup_cons] at hnodup
  obtain ⟨-, ⟨hrest, -⟩, hpre⟩ := hnodup
  rcases List.mem_append.1 hd with hd | hd
  · exact hpre _ (List.mem_map_of_mem hd) _ List.mem_cons_self
  · exact fun hptr => hrest (hptr ▸ List.mem_map_of_mem hd)

/-- Writing to a client changes its place of the pool. -/
theorem update_eq (h : pool.clients = pre ++ c :: rest) (hc : c'.ptr = c.ptr) :
    (pool.update c').clients = pre ++ c' :: rest := by
  have hkeep : ∀ {l : List Client}, (∀ d ∈ l, d ∈ pre ++ rest) →
      (l.map fun d => if d.ptr = c'.ptr then c' else d) = l := by
    intro l hl
    refine (List.map_congr_left fun d hd => ?_).trans (List.map_id' l)
    rw [hc, if_neg (ptr_ne h (hl d hd))]
  have hupdate : (pool.update c').clients =
      pool.clients.map fun d => if d.ptr = c'.ptr then c' else d := rfl
  rw [hupdate, h, List.map_append, List.map_cons, if_pos hc.symm, hkeep, hkeep]
  · exact fun d hd => List.mem_append_right _ hd
  · exact fun d hd => List.mem_append_left _ hd

/-- Taking a client out empties its place of the pool. -/
theorem remove_eq (h : pool.clients = pre ++ c :: rest) :
    (pool.remove c.ptr).clients = pre ++ rest := by
  have hpre : ∀ d ∈ pre, ¬decide (d.ptr = c.ptr) = true := fun d hd => by
    rw [decide_eq_true_eq]
    exact ptr_ne h (List.mem_append_left _ hd)
  have hremove : (pool.remove c.ptr).clients = pool.clients.eraseP (·.ptr = c.ptr) := rfl
  rw [hremove, h, List.eraseP_append_right _ hpre, List.eraseP_cons_of_pos (by simp)]

theorem mem_update {d : Client} (h : d ∈ (pool.update c).clients) :
    d = c ∨ d ∈ pool.clients ∧ d.ptr ≠ c.ptr := by
  obtain ⟨e, he, hd⟩ := List.mem_map.1 h
  split at hd
  · exact .inl hd.symm
  · exact .inr (hd ▸ ⟨he, ‹_›⟩)

/-- A client of the pool that is written to is there afterwards. -/
theorem mem_update_self (h : c ∈ pool.clients) (hc : c'.ptr = c.ptr) :
    c' ∈ (pool.update c').clients := by
  obtain ⟨pre, rest, hpool⟩ := List.append_of_mem h
  rw [update_eq hpool hc]
  exact List.mem_append_right _ List.mem_cons_self

/-- Writing to a client of the pool what looks the same. -/
theorem map_update {β : Type*} {g : Client → β} (h : c ∈ pool.clients) (hc : c'.ptr = c.ptr)
    (hg : g c' = g c) : (pool.update c').clients.map g = pool.clients.map g := by
  obtain ⟨pre, rest, hpool⟩ := List.append_of_mem h
  rw [update_eq hpool hc, hpool, List.map_append, List.map_append, List.map_cons, List.map_cons,
    hg]

end

end ClientPool

end Nbstftp
