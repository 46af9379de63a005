import Nbstftp.Backends

/-!
# What select is asked for

`select` is told how many descriptors to look at, from `0` on: one more than `maxfd`, which
is to bound the descriptors in its sets. But `maxfd` is the descriptor added last, whatever
was added before, and goes down by one with each that is removed, whichever it is. So it
does not bound them in general (`not_select_covers`), and does as long as none is added
below another and the largest is left in the sets only if it is not `maxfd`
(`select_covers_iff`).
-/

namespace Nbstftp

namespace Select

/-- A descriptor is in one of the sets. -/
def Has (b : Select) (fd : Int) : Prop := b.readfds fd = true ∨ b.writefds fd = true

instance (b : Select) (fd : Int) : Decidable (b.Has fd) := inferInstanceAs (Decidable (_ ∨ _))

/-- `select` looks at every descriptor in its sets. -/
def Covers (b : Select) : Prop := ∀ fd, b.Has fd → fd ≤ b.maxfd

/-- Setting a status puts the descriptor into a set. -/
def Puts (s : SocketCopy) (status : UInt32) : Prop :=
  status &&& SF_READABLE ≠ 0 ∧ s.flags &&& SF_READABLE = 0 ∨
    status &&& SF_WRITABLE ≠ 0 ∧ s.flags &&& SF_WRITABLE = 0

end Select

/-- A call to a backend never fails. -/
def Watch.call {σ : Type} (mux : Multiplexer σ) (w : Watch σ) (call : MuxCall) :
    Except Empty (Watch σ) := .ok (w.step mux call)

/-- A transition of a run of `select`. -/
abbrev WatchStep : Type := Lib.Transition (Watch Select) MuxCall Empty

namespace WatchStep

/-- `select` looks at every descriptor in its sets after the call. -/
def Covers (t : WatchStep) : Prop := ∀ w ∈ t.post.toOption, w.backend.Covers

/-- A descriptor is added that is in no set, or removed if it is in one. -/
def Registers (t : WatchStep) : Prop :=
  match t.input with
  | .socket _ _ | .copy _ _ => True
  | .add i => ¬t.pre.backend.Has (t.pre.copies i).fd
  | .set _ _ => False
  | .remove i => t.pre.backend.Has (t.pre.copies i).fd

instance : DecidablePred Registers
  | ⟨_, .socket _ _, _⟩ | ⟨_, .copy _ _, _⟩ => inferInstanceAs (Decidable True)
  | ⟨w, .add i, _⟩ => inferInstanceAs (Decidable (¬w.backend.Has (w.copies i).fd))
  | ⟨_, .set _ _, _⟩ => inferInstanceAs (Decidable False)
  | ⟨w, .remove i, _⟩ => inferInstanceAs (Decidable (w.backend.Has (w.copies i).fd))

/-- A call `maxfd` is right about: none of the descriptors in the sets is above the one
    that is added, one put into a set is not above `maxfd`, and none but the one that is
    removed is `maxfd`. -/
def InOrder (t : WatchStep) : Prop :=
  match t.input with
  | .socket _ _ | .copy _ _ => True
  | .add i => ∀ fd, t.pre.backend.Has fd → fd ≤ (t.pre.copies i).fd
  | .set i status => Select.Puts (t.pre.copies i) status →
      (t.pre.copies i).fd ≤ t.pre.backend.maxfd
  | .remove i => ∀ fd, t.pre.backend.Has fd → fd ≠ (t.pre.copies i).fd →
      fd ≠ t.pre.backend.maxfd

end WatchStep

/-! ## Call by call -/

namespace Select

variable (b : Select) (s : SocketCopy)

theorem has_add_iff (fd : Int) :
    (b.addToMultiplexer s).backend.Has fd ↔ fd = s.fd ∨ b.Has fd := by
  by_cases hfd : fd = s.fd <;> simp [Has, addToMultiplexer, hfd]

theorem has_remove_iff (fd : Int) :
    (b.removeFromMultiplexer s).backend.Has fd ↔ fd ≠ s.fd ∧ b.Has fd := by
  by_cases hfd : fd = s.fd <;> simp [Has, removeFromMultiplexer, hfd]

/-- Setting a status leaves the other descriptors. -/
theorem has_set_of_ne (status : UInt32) {fd : Int} (hfd : s.fd ≠ fd) :
    (b.setSocketStatus s status).backend.Has fd ↔ b.Has fd := by
  simp only [Has, setSocketStatus, assign_apply, hfd, false_and, if_false]

/-- A descriptor that is in a set then was in one before, or is put into one. -/
theorem has_set (status : UInt32) (h : (b.setSocketStatus s status).backend.Has s.fd) :
    b.Has s.fd ∨ Puts s status := by
  simp only [Has, setSocketStatus, assign_apply, true_and, decide_eq_true_eq, ne_eq,
    not_not] at h
  rcases h with h | h
  · split_ifs at h with hputs
    · exact .inr (.inl hputs)
    · exact .inl (.inl h)
  · split_ifs at h with hclears hputs hclears
    · exact .inr (.inr hputs)
    · exact .inl (.inr h)

theorem has_set_of_puts (status : UInt32) (h : Puts s status) :
    (b.setSocketStatus s status).backend.Has s.fd := by
  simp only [Has, setSocketStatus, assign_apply, true_and, decide_eq_true_eq, ne_eq, not_not]
  rcases h with h | h
  · exact .inl (if_pos h)
  · exact .inr ((if_neg fun hclears => h.1 hclears.1).trans (if_pos h))

theorem covers_add_iff :
    (b.addToMultiplexer s).backend.Covers ↔ ∀ fd, b.Has fd → fd ≤ s.fd := by
  have hmaxfd : (b.addToMultiplexer s).backend.maxfd = s.fd := rfl
  simp only [Covers, has_add_iff, hmaxfd]
  refine ⟨fun h fd hfd => h fd (.inr hfd), ?_⟩
  rintro h fd (rfl | hfd)
  · exact Int.le_refl _
  · exact h fd hfd

variable {b}

theorem covers_set_iff (h : b.Covers) (status : UInt32) :
    (b.setSocketStatus s status).backend.Covers ↔ (Puts s status → s.fd ≤ b.maxfd) := by
  refine ⟨fun hcovers hputs => hcovers s.fd (has_set_of_puts b s status hputs),
    fun hputs fd hfd => ?_⟩
  by_cases heq : s.fd = fd
  · subst heq
    exact (has_set b s status hfd).elim (h s.fd) hputs
  · exact h fd ((has_set_of_ne b s status heq).1 hfd)

theorem covers_remove_iff (h : b.Covers) : (b.removeFromMultiplexer s).backend.Covers ↔
    ∀ fd, b.Has fd → fd ≠ s.fd → fd ≠ b.maxfd := by
  have hmaxfd : (b.removeFromMultiplexer s).backend.maxfd = b.maxfd - 1 := rfl
  simp only [Covers, has_remove_iff, hmaxfd]
  refine ⟨fun hcovers fd hfd hne => ?_, fun hne fd hfd => ?_⟩
  · have := hcovers fd ⟨hne, hfd⟩
    omega
  · have hle := h fd hfd.2
    have := hne fd hfd.2 hfd.1
    omega

end Select

/-- Where `maxfd` bounds the descriptors before a call, it does after it exactly if it is
    right about the call. -/
theorem watch_covers_iff {w : Watch Select} (h : w.backend.Covers) (call : MuxCall) :
    WatchStep.Covers ⟨w, call, w.call select call⟩ ↔
      WatchStep.InOrder ⟨w, call, w.call select call⟩ := by
  have hcovers : WatchStep.Covers ⟨w, call, w.call select call⟩ ↔
      (w.step select call).backend.Covers := by
    refine ⟨fun hall => hall _ rfl, fun hafter w' hw' => ?_⟩
    cases hw'
    exact hafter
  rw [hcovers]
  cases call with
  | socket i fd => exact iff_of_true h trivial
  | copy i j => exact iff_of_true h trivial
  | add i => exact Select.covers_add_iff w.backend (w.copies i)
  | set i status => exact Select.covers_set_iff (w.copies i) h status
  | remove i => exact Select.covers_remove_iff (w.copies i) h

/-! ## Runs of calls -/

/-- In every run of calls, `select` always looks at every descriptor in its sets if and only
    if `maxfd` is right about all the calls. -/
theorem select_covers_iff (calls : List MuxCall) :
    (∀ t ∈ Lib.trace (Watch.call select) (.init select) calls, WatchStep.Covers t) ↔
      ∀ t ∈ Lib.trace (Watch.call select) (.init select) calls, WatchStep.InOrder t := by
  have hinit : (Watch.init select).backend.Covers := fun fd hfd => by
    rcases hfd with hfd | hfd <;> cases hfd
  rw [← Lib.always_iff_forall_mem, ← Lib.always_iff_forall_mem]
  refine Lib.always_iff_always (fun _ w => w.backend.Covers) hinit ?_ ?_
  · rintro past ⟨w, call, post⟩ hw - (hpost : post = w.call select call)
    rw [hpost]
    exact watch_covers_iff hw call
  · rintro past ⟨w, call, post⟩ w' hw - (hpost : post = w.call select call) horder hw'
    rw [hpost] at horder hw'
    cases hw'
    exact (watch_covers_iff hw call).2 horder _ rfl

/-- Two descriptors are added, the larger one first. -/
def Sample.descending : List MuxCall := [.socket 0 5, .add 0, .socket 1 3, .add 1]

/-- The descriptor added first is not looked at then. -/
theorem not_select_covers : ¬∀ calls,
    (∀ t ∈ Lib.trace (Watch.call select) (.init select) calls, WatchStep.Registers t) →
      ∀ t ∈ Lib.trace (Watch.call select) (.init select) calls, WatchStep.Covers t := by
  intro h
  have hcovers : ∀ t ∈ Lib.trace (Watch.call select) (.init select) Sample.descending,
      ∀ w ∈ t.post.toOption, w.backend.Has 5 → 5 ≤ w.backend.maxfd :=
    fun t ht w hw => h Sample.descending (by decide +kernel) t ht w hw 5
  revert hcovers
  decide +kernel

end Nbstftp
