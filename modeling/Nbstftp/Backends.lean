import Nbstftp.Client
import Nbstftp.Lib.Trace

/-!
# The backends of the multiplexer

The interest in descriptors is kept by one of several backends. The one for `poll` has an
entry for each descriptor added, which it overwrites; the one for `select` has two sets of
descriptors, which it updates by what changed, as told by the flags in the copy of the
socket it is called with (`Select`, `Poll`). Listening sockets and clients are copies of
one descriptor that know nothing of each other's flags, so that the two backends come to
different interests (`not_backends_agree`); when they do not is known step by step
(`backends_agree_iff`).
-/

namespace Nbstftp

/-- A copy of a `socket_t`, as far as the backends look at it. -/
structure SocketCopy where
  fd : Int
  flags : UInt32
  deriving DecidableEq

/-- What a call to a backend leaves and returns. -/
structure MuxReply (σ : Type) where
  backend : σ
  copy : SocketCopy
  ret : Int

/-- The interface of the backends. -/
structure Multiplexer (σ : Type) where
  initializeMultiplexer : σ
  addToMultiplexer : σ → SocketCopy → MuxReply σ
  removeFromMultiplexer : σ → SocketCopy → MuxReply σ
  setSocketStatus : σ → SocketCopy → UInt32 → MuxReply σ

/-! ## select -/

/-- The sets of descriptors of `select`. -/
structure Select where
  readfds : Int → Bool
  writefds : Int → Bool
  maxfd : Int

namespace Select

def addToMultiplexer (b : Select) (s : SocketCopy) : MuxReply Select where
  backend := { b with readfds := Function.update b.readfds s.fd true, maxfd := s.fd }
  copy := { s with flags := SF_READABLE }
  ret := 0

def removeFromMultiplexer (b : Select) (s : SocketCopy) : MuxReply Select where
  backend :=
    { readfds := Function.update b.readfds s.fd false
      writefds := Function.update b.writefds s.fd false
      maxfd := b.maxfd - 1 }
  copy := s
  ret := 0

/-- `FD_SET` or `FD_CLR` on a condition. -/
def assign (fds : Int → Bool) (fd : Int) (cond value : Bool) : Int → Bool :=
  if cond then Function.update fds fd value else fds

def setSocketStatus (b : Select) (s : SocketCopy) (status : UInt32) : MuxReply Select :=
  let readable := status &&& SF_READABLE ≠ 0
  let writable := status &&& SF_WRITABLE ≠ 0
  let wasReadable := s.flags &&& SF_READABLE ≠ 0
  let wasWritable := s.flags &&& SF_WRITABLE ≠ 0
  let readfds := assign b.readfds s.fd (readable ∧ ¬wasReadable) true
  -- What is no longer watched for reading is taken out of the set for writing.
  let writefds := assign b.writefds s.fd (¬readable ∧ wasReadable) false
  let writefds := assign writefds s.fd (writable ∧ ¬wasWritable) true
  let writefds := assign writefds s.fd (¬writable ∧ wasWritable) false
  ⟨{ b with readfds := readfds, writefds := writefds }, { s with flags := status }, 0⟩

end Select

def select : Multiplexer Select where
  initializeMultiplexer := ⟨fun _ => false, fun _ => false, 0⟩
  addToMultiplexer := Select.addToMultiplexer
  removeFromMultiplexer := Select.removeFromMultiplexer
  setSocketStatus := Select.setSocketStatus

/-! ## poll -/

def POLLIN : UInt16 := 1
def POLLOUT : UInt16 := 4

/-- `poll_t`. -/
structure PollEntry where
  fd : Int
  events : UInt16
  deriving DecidableEq

/-- The vector of entries of `poll`. -/
structure Poll where
  events : List PollEntry

namespace Poll

/-- The events of the first entry of a descriptor are overwritten. -/
def setEvents (fd : Int) (events : UInt16) : List PollEntry → List PollEntry
  | [] => []
  | ev :: evs =>
    if ev.fd = fd then { ev with events := events } :: evs else ev :: setEvents fd events evs

/-- A descriptor has an entry: it was added, and not removed since. -/
def Added (b : Poll) (fd : Int) : Prop := ∃ ev ∈ b.events, ev.fd = fd

instance (b : Poll) (fd : Int) : Decidable (b.Added fd) :=
  inferInstanceAs (Decidable (∃ ev ∈ b.events, _))

def addToMultiplexer (b : Poll) (s : SocketCopy) : MuxReply Poll where
  backend := ⟨b.events ++ [⟨s.fd, POLLIN⟩]⟩
  copy := { s with flags := SF_READABLE }
  ret := 0

def removeFromMultiplexer (b : Poll) (s : SocketCopy) : MuxReply Poll where
  backend := ⟨b.events.eraseP (·.fd = s.fd)⟩
  copy := s
  ret := if b.Added s.fd then 0 else -1

def setSocketStatus (b : Poll) (s : SocketCopy) (status : UInt32) : MuxReply Poll :=
  if b.Added s.fd then
    let events := (if status &&& SF_READABLE ≠ 0 then POLLIN else 0) |||
      (if status &&& SF_WRITABLE ≠ 0 then POLLOUT else 0)
    ⟨⟨setEvents s.fd events b.events⟩, { s with flags := status }, 0⟩
  else ⟨b, s, -1⟩

/-- The entry of a descriptor has an event, if there is an entry. -/
def watches (b : Poll) (event : UInt16) (fd : Int) : Bool :=
  (b.events.find? (·.fd = fd)).any fun ev => ev.events &&& event ≠ 0

end Poll

def poll : Multiplexer Poll where
  initializeMultiplexer := ⟨[]⟩
  addToMultiplexer := Poll.addToMultiplexer
  removeFromMultiplexer := Poll.removeFromMultiplexer
  setSocketStatus := Poll.setSocketStatus

/-! ## Calls -/

/-- What is done with copies of sockets: one is made of a descriptor, with flags `0`, or
    of another one; and the calls to the backend. -/
inductive MuxCall
  | socket (i : ℕ) (fd : Int)
  | copy (i j : ℕ)
  | add (i : ℕ)
  | set (i : ℕ) (status : UInt32)
  | remove (i : ℕ)
  deriving DecidableEq

/-- A backend, and the copies of sockets it is called with. -/
structure Watch (σ : Type) where
  backend : σ
  copies : ℕ → SocketCopy

namespace Watch

variable {σ : Type}

/-- What a call for a copy leaves. -/
def reply (w : Watch σ) (i : ℕ) (r : MuxReply σ) : Watch σ :=
  ⟨r.backend, Function.update w.copies i r.copy⟩

def step (mux : Multiplexer σ) (w : Watch σ) : MuxCall → Watch σ
  | .socket i fd => { w with copies := Function.update w.copies i ⟨fd, 0⟩ }
  | .copy i j => { w with copies := Function.update w.copies j (w.copies i) }
  | .add i => w.reply i (mux.addToMultiplexer w.backend (w.copies i))
  | .set i status => w.reply i (mux.setSocketStatus w.backend (w.copies i) status)
  -- The copy removed is one more copy, made for the call.
  | .remove i => { w with backend := (mux.removeFromMultiplexer w.backend (w.copies i)).backend }

/-- Nothing added yet, and no copies but of no descriptor. -/
def init (mux : Multiplexer σ) : Watch σ := ⟨mux.initializeMultiplexer, fun _ => ⟨-1, 0⟩⟩

end Watch

/-- The two backends, each with its copies. -/
structure Backends where
  select : Watch Select
  poll : Watch Poll

namespace Backends

def init : Backends := ⟨.init Nbstftp.select, .init Nbstftp.poll⟩

/-- The same call to both. -/
def step (b : Backends) (call : MuxCall) : Except Empty Backends :=
  .ok ⟨b.select.step Nbstftp.select call, b.poll.step Nbstftp.poll call⟩

/-- The sets of `select` contain the descriptors whose entries of `poll` have the events. -/
structure Agree (b : Backends) : Prop where
  readfds : ∀ fd, b.select.backend.readfds fd = b.poll.backend.watches POLLIN fd
  writefds : ∀ fd, b.select.backend.writefds fd = b.poll.backend.watches POLLOUT fd

end Backends

/-- A transition of a run of the two backends. -/
abbrev BackendsStep : Type := Lib.Transition Backends MuxCall Empty

/-- The two backends agree after the call. -/
def BackendsStep.Agrees (t : BackendsStep) : Prop := ∀ b ∈ t.post.toOption, b.Agree

/-- The status is set for descriptors added only. -/
def BackendsStep.SetsAdded (t : BackendsStep) : Prop :=
  match t.input with
  | .set i _ => t.pre.poll.backend.Added (t.pre.poll.copies i).fd
  | _ => True

/-! ## What the calls may find -/

/-- The sets of `select` for a status to be set as asked: reading is given up only if it is
    not watched, what the copy has flagged already is watched, and so is nothing else. What
    is taken out for reading is taken out of the set for writing first. -/
structure Select.Settable (b : Select) (s : SocketCopy) (status : UInt32) : Prop where
  readable : status &&& SF_READABLE ≠ 0 → s.flags &&& SF_READABLE ≠ 0 → b.readfds s.fd = true
  unreadable : status &&& SF_READABLE = 0 → b.readfds s.fd = false
  writable : status &&& SF_WRITABLE ≠ 0 → s.flags &&& SF_WRITABLE ≠ 0 →
    b.writefds s.fd = true ∧ ¬(status &&& SF_READABLE = 0 ∧ s.flags &&& SF_READABLE ≠ 0)
  unwritable : status &&& SF_WRITABLE = 0 → s.flags &&& SF_WRITABLE = 0 →
    b.writefds s.fd = true → status &&& SF_READABLE = 0 ∧ s.flags &&& SF_READABLE ≠ 0

instance (b : Select) (s : SocketCopy) (status : UInt32) : Decidable (b.Settable s status) :=
  decidable_of_iff (_ ∧ _ ∧ _ ∧ _) ⟨fun ⟨hr, hnr, hw, hnw⟩ => ⟨hr, hnr, hw, hnw⟩,
    fun ⟨hr, hnr, hw, hnw⟩ => ⟨hr, hnr, hw, hnw⟩⟩

/-- The entries of a descriptor, of which the first one counts. -/
def Poll.entries (b : Poll) (fd : Int) : List PollEntry := b.events.filter (·.fd = fd)

/-- A call to the two backends that keeps them together: a descriptor that is added has no
    entry, or one for reading; one that is removed has no second entry, or one for
    nothing. -/
def BackendsStep.Together (t : BackendsStep) : Prop :=
  match t.input with
  | .socket _ _ | .copy _ _ => True
  | .add i => ∀ ev ∈ (t.pre.poll.backend.entries (t.pre.poll.copies i).fd).head?,
      ev.events &&& POLLIN ≠ 0
  | .set i status => t.pre.select.backend.Settable (t.pre.select.copies i) status
  | .remove i => ∀ ev ∈ (t.pre.poll.backend.entries (t.pre.poll.copies i).fd).tail.head?,
      ev.events &&& POLLIN = 0 ∧ ev.events &&& POLLOUT = 0

instance : DecidablePred BackendsStep.Together
  | ⟨_, .socket _ _, _⟩ | ⟨_, .copy _ _, _⟩ => inferInstanceAs (Decidable True)
  | ⟨b, .add i, _⟩ => inferInstanceAs (Decidable (∀ ev ∈
      (b.poll.backend.entries (b.poll.copies i).fd).head?, ev.events &&& POLLIN ≠ 0))
  | ⟨b, .set i status, _⟩ =>
    inferInstanceAs (Decidable (b.select.backend.Settable (b.select.copies i) status))
  | ⟨b, .remove i, _⟩ => inferInstanceAs (Decidable (∀ ev ∈
      (b.poll.backend.entries (b.poll.copies i).fd).tail.head?,
        ev.events &&& POLLIN = 0 ∧ ev.events &&& POLLOUT = 0))

/-! ## The entries of poll -/

namespace Poll

variable {b : Poll} {fd : Int} {event : UInt16}

theorem watches_eq (b : Poll) (event : UInt16) (fd : Int) :
    b.watches event fd = (b.entries fd).head?.any fun ev => ev.events &&& event ≠ 0 := by
  rw [watches, entries, List.head?_filter]

theorem entries_eq_nil_iff : b.entries fd = [] ↔ ¬b.Added fd := by
  simp [entries, Added]

theorem entries_add (s : SocketCopy) (fd : Int) : (b.addToMultiplexer s).backend.entries fd =
    b.entries fd ++ if s.fd = fd then [⟨s.fd, POLLIN⟩] else [] := by
  simp [addToMultiplexer, entries, List.filter_append, List.filter_singleton]

theorem entries_remove (s : SocketCopy) (fd : Int) :
    (b.removeFromMultiplexer s).backend.entries fd =
      if s.fd = fd then (b.entries fd).tail else b.entries fd := by
  obtain ⟨events⟩ := b
  simp only [removeFromMultiplexer, entries]
  induction events with
  | nil => simp
  | cons ev evs ih =>
    by_cases hev : ev.fd = s.fd
    · by_cases hfd : s.fd = fd <;> simp [hev, hfd]
    · by_cases hfd : s.fd = fd
      · rw [List.eraseP_cons_of_neg (by simpa using hev),
          List.filter_cons_of_neg (by simpa [← hfd] using hev), ih,
          List.filter_cons_of_neg (by simpa [← hfd] using hev)]
      · rw [List.eraseP_cons_of_neg (by simpa using hev), List.filter_cons, ih,
          List.filter_cons]
        simp [hfd]

/-- The events of the first entry are those set. -/
theorem entries_set (events : UInt16) (s : SocketCopy) (fd : Int) :
    (Poll.mk (setEvents s.fd events b.events)).entries fd = if s.fd = fd then
      match b.entries fd with
      | [] => []
      | ev :: evs => { ev with events := events } :: evs
    else b.entries fd := by
  obtain ⟨evs⟩ := b
  simp only [entries]
  induction evs with
  | nil => simp [setEvents]
  | cons ev evs ih =>
    by_cases hev : ev.fd = s.fd
    · by_cases hfd : s.fd = fd <;> simp [setEvents, hev, hfd]
    · by_cases hfd : s.fd = fd
      · subst hfd
        simpa [setEvents, hev] using ih
      · simp only [if_neg hfd] at ih ⊢
        simp [setEvents, hev, List.filter_cons, ih]

theorem watches_add (s : SocketCopy) (event : UInt16) (fd : Int) :
    (b.addToMultiplexer s).backend.watches event fd =
      if s.fd = fd ∧ b.entries fd = [] then decide (POLLIN &&& event ≠ 0)
      else b.watches event fd := by
  rw [watches_eq, watches_eq, entries_add]
  cases b.entries fd with
  | nil => by_cases hfd : s.fd = fd <;> simp [hfd]
  | cons ev evs => simp

theorem watches_remove (s : SocketCopy) (event : UInt16) (fd : Int) :
    (b.removeFromMultiplexer s).backend.watches event fd = if s.fd = fd then
      (b.entries fd).tail.head?.any fun ev => ev.events &&& event ≠ 0
    else b.watches event fd := by
  rw [watches_eq, watches_eq, entries_remove]
  split <;> rfl

theorem watches_set (events : UInt16) (s : SocketCopy) (hadded : b.Added s.fd) (event : UInt16)
    (fd : Int) : (Poll.mk (setEvents s.fd events b.events)).watches event fd =
      if s.fd = fd then decide (events &&& event ≠ 0) else b.watches event fd := by
  rw [watches_eq, watches_eq, entries_set]
  by_cases hfd : s.fd = fd
  · subst hfd
    cases hentries : b.entries s.fd with
    | nil => exact absurd hadded (entries_eq_nil_iff.1 hentries)
    | cons ev evs => simp
  · simp [hfd]

/-- The events asked for are told apart. -/
theorem pollin_iff (r w : Prop) [Decidable r] [Decidable w] :
    ((if r then POLLIN else 0) ||| (if w then POLLOUT else 0)) &&& POLLIN ≠ 0 ↔ r := by
  by_cases hr : r <;> by_cases hw : w <;> simp [hr, hw] <;> decide

theorem pollout_iff (r w : Prop) [Decidable r] [Decidable w] :
    ((if r then POLLIN else 0) ||| (if w then POLLOUT else 0)) &&& POLLOUT ≠ 0 ↔ w := by
  by_cases hr : r <;> by_cases hw : w <;> simp [hr, hw] <;> decide

theorem watches_setSocketStatus (s : SocketCopy) (status : UInt32) (hadded : b.Added s.fd)
    (fd : Int) :
    (b.setSocketStatus s status).backend.watches POLLIN fd =
        (if s.fd = fd then decide (status &&& SF_READABLE ≠ 0) else b.watches POLLIN fd) ∧
      (b.setSocketStatus s status).backend.watches POLLOUT fd =
        if s.fd = fd then decide (status &&& SF_WRITABLE ≠ 0) else b.watches POLLOUT fd := by
  rw [setSocketStatus, if_pos hadded, watches_set _ s hadded, watches_set _ s hadded]
  simp only [pollin_iff, pollout_iff, and_self]

end Poll

/-! ## Agreement, call by call -/

/-- A set of `select` after an assignment. -/
theorem Select.assign_apply (fds : Int → Bool) (fd fd' : Int) (cond value : Bool) :
    assign fds fd cond value fd' = if fd = fd' ∧ cond = true then value else fds fd' := by
  cases cond
  · simp [assign]
  · by_cases h : fd = fd'
    · simp [assign, h]
    · simp [assign, h, Function.update_of_ne (Ne.symm h)]

/-- The set for reading has the descriptor as asked. -/
theorem Select.readfds_eq_iff (r fr : Prop) [Decidable r] [Decidable fr] (readable : Bool) :
    (if decide (r ∧ ¬fr) = true then true else readable) = decide r ↔
      (r → fr → readable = true) ∧ (¬r → readable = false) := by
  by_cases hr : r <;> by_cases hfr : fr <;> simp [hr, hfr]

/-- The set for writing has the descriptor as asked. -/
theorem Select.writefds_eq_iff (r fr w fw : Prop) [Decidable r] [Decidable fr] [Decidable w]
    [Decidable fw] (writable : Bool) :
    (if decide (¬w ∧ fw) = true then false else if decide (w ∧ ¬fw) = true then true
      else if decide (¬r ∧ fr) = true then false else writable) = decide w ↔
      (w → fw → writable = true ∧ ¬(¬r ∧ fr)) ∧ (¬w → ¬fw → writable = true → ¬r ∧ fr) := by
  by_cases hw : w <;> by_cases hfw : fw <;> by_cases hr : ¬r ∧ fr <;> cases writable <;>
    simp [hw, hfw, hr]

namespace Backends

/-- The two backends agree, and so do the copies they are called with. -/
structure Linked (b : Backends) : Prop where
  copies : b.select.copies = b.poll.copies
  agree : b.Agree

theorem linked_init : Linked .init where
  copies := rfl
  agree := ⟨fun _ => rfl, fun _ => rfl⟩

variable {b : Backends}

/-- The two backends agree on a descriptor. -/
def AgreeOn (b : Backends) (fd : Int) : Prop :=
  b.select.backend.readfds fd = b.poll.backend.watches POLLIN fd ∧
    b.select.backend.writefds fd = b.poll.backend.watches POLLOUT fd

/-- What changes only one descriptor is to be looked at for that one. -/
theorem agree_iff_of_frame {b' : Backends} (fd : Int) (h : b.Agree)
    (hframe : ∀ fd', fd ≠ fd' → (b'.AgreeOn fd' ↔ b.AgreeOn fd')) :
    b'.Agree ↔ b'.AgreeOn fd := by
  refine ⟨fun h' => ⟨h'.readfds fd, h'.writefds fd⟩, fun hon => ?_⟩
  have hall : ∀ fd', b'.AgreeOn fd' := by
    intro fd'
    by_cases hfd : fd = fd'
    · exact hfd ▸ hon
    · exact (hframe fd' hfd).2 ⟨h.readfds fd', h.writefds fd'⟩
  exact ⟨fun fd' => (hall fd').1, fun fd' => (hall fd').2⟩

/-- The two backends after a call. -/
def after (b : Backends) (call : MuxCall) : Backends :=
  ⟨b.select.step Nbstftp.select call, b.poll.step Nbstftp.poll call⟩

/-- Adding watches for reading, except that the first entry goes on counting in `poll`. -/
theorem agree_add_iff (h : b.Linked) (i : ℕ) : (b.after (.add i)).Agree ↔
    ∀ ev ∈ (b.poll.backend.entries (b.poll.copies i).fd).head?, ev.events &&& POLLIN ≠ 0 := by
  have hwatches := Poll.watches_add (b := b.poll.backend) (b.poll.copies i)
  have hread : ∀ fd, (b.after (.add i)).select.backend.readfds fd =
      if fd = (b.poll.copies i).fd then true else b.select.backend.readfds fd := by
    intro fd
    rw [← h.copies]
    exact Function.update_apply _ _ _ _
  have hwrite : (b.after (.add i)).select.backend.writefds = b.select.backend.writefds := rfl
  have hpoll : (b.after (.add i)).poll.backend =
    (b.poll.backend.addToMultiplexer (b.poll.copies i)).backend := rfl
  rw [agree_iff_of_frame (b.poll.copies i).fd h.agree]
  · rw [AgreeOn, hread, hwrite, hpoll, hwatches, hwatches, h.agree.writefds, Poll.watches_eq,
      Poll.watches_eq]
    cases b.poll.backend.entries (b.poll.copies i).fd with
    | nil => simp; decide
    | cons ev evs => simp
  · intro fd hfd
    rw [AgreeOn, AgreeOn, hread, hwrite, hpoll, hwatches, hwatches, if_neg (Ne.symm hfd),
      if_neg (fun hand => hfd hand.1), if_neg (fun hand => hfd hand.1)]

/-- Removing watches for nothing, but a second entry comes to count in `poll`. -/
theorem agree_remove_iff (h : b.Linked) (i : ℕ) : (b.after (.remove i)).Agree ↔
    ∀ ev ∈ (b.poll.backend.entries (b.poll.copies i).fd).tail.head?,
      ev.events &&& POLLIN = 0 ∧ ev.events &&& POLLOUT = 0 := by
  have hwatches := Poll.watches_remove (b := b.poll.backend) (b.poll.copies i)
  have hread : ∀ fd, (b.after (.remove i)).select.backend.readfds fd =
      if fd = (b.poll.copies i).fd then false else b.select.backend.readfds fd := by
    intro fd
    rw [← h.copies]
    exact Function.update_apply _ _ _ _
  have hwrite : ∀ fd, (b.after (.remove i)).select.backend.writefds fd =
      if fd = (b.poll.copies i).fd then false else b.select.backend.writefds fd := by
    intro fd
    rw [← h.copies]
    exact Function.update_apply _ _ _ _
  have hpoll : (b.after (.remove i)).poll.backend =
    (b.poll.backend.removeFromMultiplexer (b.poll.copies i)).backend := rfl
  rw [agree_iff_of_frame (b.poll.copies i).fd h.agree]
  · rw [AgreeOn, hread, hwrite, hpoll, hwatches, hwatches]
    cases (b.poll.backend.entries (b.poll.copies i).fd).tail with
    | nil => simp
    | cons ev evs => simp
  · intro fd hfd
    rw [AgreeOn, AgreeOn, hread, hwrite, hpoll, hwatches, hwatches, if_neg (Ne.symm hfd),
      if_neg hfd, if_neg hfd, if_neg (Ne.symm hfd)]

/-- Setting a status, `poll` watches for what is asked, and `select` for what it watched,
    changed by what the copy does not have flagged. -/
theorem agree_set_iff (h : b.Linked) (i : ℕ) (status : UInt32)
    (hadded : b.poll.backend.Added (b.poll.copies i).fd) :
    (b.after (.set i status)).Agree ↔
      b.select.backend.Settable (b.select.copies i) status := by
  have hwatches := Poll.watches_setSocketStatus (b.poll.copies i) status hadded
  have hpoll : (b.after (.set i status)).poll.backend =
    (b.poll.backend.setSocketStatus (b.poll.copies i) status).backend := rfl
  rw [agree_iff_of_frame (b.poll.copies i).fd h.agree]
  · rw [AgreeOn, hpoll, (hwatches _).1, (hwatches _).2, if_pos rfl, if_pos rfl, ← h.copies]
    simp only [after, Watch.step, Watch.reply, Nbstftp.select, Select.setSocketStatus,
      Select.assign_apply, true_and]
    rw [Select.readfds_eq_iff, Select.writefds_eq_iff]
    simp only [ne_eq, not_not]
    constructor
    · rintro ⟨⟨hrr, hnr⟩, hww, hnw⟩
      exact ⟨hrr, hnr, hww, hnw⟩
    · rintro ⟨hrr, hnr, hww, hnw⟩
      exact ⟨⟨hrr, hnr⟩, hww, hnw⟩
  · intro fd hfd
    rw [AgreeOn, AgreeOn, hpoll, (hwatches _).1, (hwatches _).2, if_neg hfd, if_neg hfd]
    rw [← h.copies] at hfd
    simp only [after, Watch.step, Watch.reply, Nbstftp.select, Select.setSocketStatus,
      Select.assign_apply, hfd, false_and, if_false]

/-- The copies the two backends are called with stay the same. -/
theorem copies_after (h : b.Linked) (call : MuxCall)
    (hadded : BackendsStep.SetsAdded ⟨b, call, b.step call⟩) :
    (b.after call).select.copies = (b.after call).poll.copies := by
  have hcopies := h.copies
  cases call with
  | socket i fd => exact congrArg (Function.update · i ⟨fd, 0⟩) hcopies
  | copy i j =>
    show Function.update b.select.copies j (b.select.copies i) = _
    rw [hcopies]
    rfl
  | add i =>
    show Function.update b.select.copies i { b.select.copies i with flags := _ } = _
    rw [hcopies]
    rfl
  | set i status =>
    replace hadded : b.poll.backend.Added (b.poll.copies i).fd := hadded
    have hpoll : (b.poll.backend.setSocketStatus (b.poll.copies i) status).copy =
        { b.poll.copies i with flags := status } := by
      rw [Poll.setSocketStatus, if_pos hadded]
    show Function.update b.select.copies i { b.select.copies i with flags := _ } =
      Function.update b.poll.copies i
        (b.poll.backend.setSocketStatus (b.poll.copies i) status).copy
    rw [hpoll, hcopies]
  | remove i => exact hcopies

/-- The two backends agree after a call exactly if it keeps them together. -/
theorem agrees_iff_together (h : b.Linked) (call : MuxCall)
    (hadded : BackendsStep.SetsAdded ⟨b, call, b.step call⟩) :
    BackendsStep.Agrees ⟨b, call, b.step call⟩ ↔
      BackendsStep.Together ⟨b, call, b.step call⟩ := by
  have hagrees : BackendsStep.Agrees ⟨b, call, b.step call⟩ ↔ (b.after call).Agree := by
    refine ⟨fun hall => hall _ rfl, fun hagree b' hb' => ?_⟩
    cases hb'
    exact hagree
  rw [hagrees]
  cases call with
  | socket i fd => exact iff_of_true ⟨h.agree.readfds, h.agree.writefds⟩ trivial
  | copy i j => exact iff_of_true ⟨h.agree.readfds, h.agree.writefds⟩ trivial
  | add i => exact agree_add_iff h i
  | set i status => exact agree_set_iff h i status hadded
  | remove i => exact agree_remove_iff h i

end Backends

/-! ## Runs of calls -/

/-- In every run of calls to both backends, where the status is set for descriptors added
    only, the backends always agree if and only if all the calls keep them together. -/
theorem backends_agree_iff (calls : List MuxCall)
    (hadded : ∀ t ∈ Lib.trace Backends.step .init calls, BackendsStep.SetsAdded t) :
    (∀ t ∈ Lib.trace Backends.step .init calls, BackendsStep.Agrees t) ↔
      ∀ t ∈ Lib.trace Backends.step .init calls, BackendsStep.Together t := by
  have hiff : Lib.Always (fun _ t => BackendsStep.SetsAdded t ∧ BackendsStep.Agrees t)
        (Lib.trace Backends.step .init calls) ↔
      Lib.Always (fun _ t => BackendsStep.SetsAdded t ∧ BackendsStep.Together t)
        (Lib.trace Backends.step .init calls) := by
    refine Lib.always_iff_always (fun _ => Backends.Linked) Backends.linked_init ?_ ?_
    · rintro past ⟨b, call, post⟩ hb - (hpost : post = b.step call)
      rw [hpost]
      exact and_congr_right (Backends.agrees_iff_together hb call)
    · rintro past ⟨b, call, post⟩ b' hb - (hpost : post = b.step call) ⟨hsets, htogether⟩ hb'
      rw [hpost] at hsets htogether hb'
      cases hb'
      exact ⟨Backends.copies_after hb call hsets,
        (Backends.agrees_iff_together hb call hsets).2 htogether _ rfl⟩
  simpa only [Lib.always_iff_forall_mem, forall_and, and_iff_right hadded,
    forall₂_and] using hiff

instance : DecidablePred BackendsStep.SetsAdded
  | ⟨b, .set i _, _⟩ => inferInstanceAs (Decidable (b.poll.backend.Added (b.poll.copies i).fd))
  | ⟨_, .socket _ _, _⟩ | ⟨_, .copy _ _, _⟩ | ⟨_, .add _, _⟩ | ⟨_, .remove _, _⟩ =>
    inferInstanceAs (Decidable True)

/-- A listener is added, and a client of it asks for writing and gives it up again. -/
def Sample.oneClient : List MuxCall :=
  [.socket 0 3, .add 0, .socket 1 3, .set 1 (SF_READABLE ||| SF_WRITABLE), .set 1 SF_READABLE]

/-- Another client asks for writing before that, and once more after it. -/
def Sample.twoClients : List MuxCall :=
  [.socket 0 3, .add 0, .socket 1 3, .socket 2 3, .set 1 (SF_READABLE ||| SF_WRITABLE),
    .set 2 (SF_READABLE ||| SF_WRITABLE), .set 1 SF_READABLE,
    .set 2 (SF_READABLE ||| SF_WRITABLE)]

theorem backends_agree_oneClient :
    (∀ t ∈ Lib.trace Backends.step .init Sample.oneClient, BackendsStep.SetsAdded t) ∧
      ∀ t ∈ Lib.trace Backends.step .init Sample.oneClient, BackendsStep.Agrees t :=
  ⟨by decide +kernel, (backends_agree_iff Sample.oneClient (by decide +kernel)).2
    (by decide +kernel)⟩

/-- To its copy the other client is still watched for writing, as it is in `poll` only. -/
theorem not_backends_agree : ¬∀ calls,
    (∀ t ∈ Lib.trace Backends.step .init calls, BackendsStep.SetsAdded t) →
      ∀ t ∈ Lib.trace Backends.step .init calls, BackendsStep.Agrees t := by
  intro h
  have hagree : ∀ t ∈ Lib.trace Backends.step .init Sample.twoClients,
      ∀ b ∈ t.post.toOption,
        b.select.backend.writefds 3 = b.poll.backend.watches POLLOUT 3 :=
    fun t ht b hb => (h Sample.twoClients (by decide +kernel) t ht b hb).writefds 3
  revert hagree
  decide +kernel

end Nbstftp
