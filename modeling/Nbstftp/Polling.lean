import Nbstftp.Backends
import Nbstftp.Dispatch

/-!
# The dispatch of poll

With `poll`, `ProcessSockets` goes over the vector of the entries themselves, by an index
and with a pointer to the entry at it, until it has met as many entries with `revents` as
`poll` counted. A socket that is destroyed takes its entry out of the vector meanwhile. The
next entry moves up, so that the pointer shows its `revents` for the rest of the iteration,
and the index passes over it (`not_exact`).

Each entry is handled once, and by its own `revents` (`Polling.Exact`), as long as flushing
fails for the last entry only, and no entry that is taken out is followed by one with
`revents` (`Polling.exact_iff`). The server is dealt with as by `epoll` then
(`Polling.processSockets_eq_dispatch`).
-/

namespace Nbstftp

def POLLERR : UInt16 := 8
def POLLRDHUP : UInt16 := 0x2000

/-- `struct pollfd`, but for `events`: what an entry waits for, its handling does not ask. -/
structure PollFd where
  fd : Int
  revents : UInt16
  deriving DecidableEq

/-- The entries of `poll`, one for a descriptor. -/
structure PollVector where
  entries : List PollFd
  nodup : (entries.map PollFd.fd).Nodup

theorem nodup_map_eraseP {α β : Type*} {f : α → β} {l : List α} (p : α → Bool)
    (h : (l.map f).Nodup) : ((l.eraseP p).map f).Nodup :=
  h.sublist (List.eraseP_sublist.map f)

/-- `RemoveFromMultiplexer`: the first entry of the descriptor is spliced out. -/
def PollVector.remove (v : PollVector) (fd : Int) : PollVector where
  entries := v.entries.eraseP (·.fd = fd)
  nodup := nodup_map_eraseP _ v.nodup

/-- The entries with `revents`. -/
def active (entries : List PollFd) : List PollFd := entries.filter (·.revents ≠ 0)

/-- What the calls for a socket that is ready meet. -/
structure Ready where
  sys : Sys
  received : Received

/-- How an entry is handled: the descriptor of the socket, and the entries whose `revents`
    are tested for it. -/
structure Handling where
  fd : Int
  tested : List PollFd

/-- An entry is handled by its own descriptor and its own `revents`. -/
structure Handling.Of (h : Handling) (ev : PollFd) : Prop where
  fd : h.fd = ev.fd
  tested : ∀ ev' ∈ h.tested, ev' = ev

/-- The state of the loop. -/
structure Polling where
  events : PollVector
  i : ℕ
  processed : ℕ
  server : Server

namespace Polling

variable (cfg : Config) (total : ℕ) (p : Polling) (s : Socket) (ev : PollFd) (r : Ready)

/-- `DestroySocket(s, 1)` if a call for the socket has failed. -/
def settle (result : Server × Int) : Polling :=
  { p with
    server := destroyFailed s result
    events := if result.2 = -1 then p.events.remove s.fd else p.events }

/-- Where `ev` points to: the entry at the index. One that was the last is still there when
    it is spliced out, behind the vector. -/
def pointee : PollFd := p.events.entries.getD p.i ev

/-- `if (ev->revents & POLLOUT && SendPackets(s) == -1) DestroySocket(s, 1)`. -/
def flush : Polling :=
  if ev.revents &&& POLLOUT ≠ 0 then p.settle s (p.server.sendPackets r.sys s) else p

/-- An entry whose socket was found, and the entries whose `revents` are tested. -/
def serve : Except Crash Polling × List PollFd :=
  if ev.revents &&& (POLLERR ||| POLLRDHUP) ≠ 0 then
    (.ok { p with server := p.server.destroySocket s true, events := p.events.remove s.fd }, [ev])
  else
    let q := flush p s ev r
    let ev' := q.pointee ev
    (if ev'.revents &&& POLLIN ≠ 0 then
      (q.server.receivePackets cfg r.sys s r.received).map (q.settle s)
    else .ok q, [ev, ev, ev'])

/-- The body of the loop, for an entry with `revents`. -/
def handle : Except Crash Polling × Handling :=
  match p.server.findSocket ev.fd with
  | none =>
    (.ok { p with server := p.server.closeUnknown ev.fd, events := p.events.remove ev.fd },
      ⟨ev.fd, []⟩)
  | some s =>
    let server := { p.server with machine := p.server.machine.callEvent .socketActivity }
    let served := serve cfg { p with server := server } s ev r
    (served.1, ⟨s.fd, served.2⟩)

/-- The entry an iteration handles, unless the loop has ended, or there are no `revents`. -/
def current : Option PollFd :=
  if p.processed = total then none else p.events.entries[p.i]?.filter (·.revents ≠ 0)

/-- An iteration, if the loop has not ended. -/
def next : Except Crash Polling :=
  match p.current total with
  | some ev =>
    (handle cfg { p with processed := p.processed + 1 } ev r).1.map fun q =>
      { q with i := q.i + 1 }
  | none =>
    if p.i < p.events.entries.length ∧ p.processed ≠ total then .ok { p with i := p.i + 1 }
    else .ok p

/-- How an entry is handled in an iteration, if one is. -/
def handling : Option Handling :=
  (p.current total).map fun ev => (handle cfg { p with processed := p.processed + 1 } ev r).2

end Polling

/-- An iteration, with the states of the loop it leads from and to. -/
abbrev PollStep : Type := Lib.Transition Polling Ready Crash

namespace Polling

variable (cfg : Config) (srv : Server) (v : PollVector) (ready : ℕ → Ready)

/-- The loop at its start: `poll` has counted the entries with `revents`. -/
def start : Polling := ⟨v, 0, 0, srv⟩

/-- What the iterations meet, of which there are as many as entries at most. -/
def iterations : List Ready := (List.range v.entries.length).map ready

/-- `ProcessSockets`, after `poll` has filled in the `revents`. -/
def processSockets : Except Crash Server :=
  (Lib.run (next cfg (active v.entries).length) (start srv v) (iterations v ready)).map server

/-- The iterations of `ProcessSockets`. -/
def steps : List PollStep :=
  Lib.trace (next cfg (active v.entries).length) (start srv v) (iterations v ready)

/-- How the entries are handled, one after the other. -/
def handlings : List Handling :=
  (steps cfg srv v ready).filterMap fun t => t.pre.handling cfg (active v.entries).length t.input

/-- Every entry with `revents` is handled once, by its own descriptor and its own `revents`,
    and no other is; if the process crashes, that goes for the entries handled until then. -/
structure Exact : Prop where
  own : List.Forall₂ Handling.Of (handlings cfg srv v ready)
    ((active v.entries).take (handlings cfg srv v ready).length)
  all : (processSockets cfg srv v ready).isOk = true →
    (handlings cfg srv v ready).length = (active v.entries).length

end Polling

/-! ## What keeps the place -/

namespace Polling

variable (p : Polling) (ev : PollFd) (r : Ready)

/-- Flushing fails for an entry. -/
structure FailsToSend : Prop where
  found : (p.server.findSocket ev.fd).isSome = true
  well : ev.revents &&& (POLLERR ||| POLLRDHUP) = 0
  writable : ev.revents &&& POLLOUT ≠ 0
  failing : (p.server.failing r.sys).isSome = true

/-- An entry is taken out, other than by flushing: no socket has its descriptor, there is an
    error, or receiving fails. -/
def TakesOut : Prop :=
  (p.server.findSocket ev.fd).isNone = true ∨ ev.revents &&& (POLLERR ||| POLLRDHUP) ≠ 0 ∨
    ev.revents &&& POLLIN ≠ 0 ∧ r.received.Fails

/-- The entries behind the index. -/
def following : List PollFd := p.events.entries.drop (p.i + 1)

/-- Flushing fails for the last entry only, and no entry that is taken out is followed by
    one with `revents`. -/
structure KeepsPlace : Prop where
  sends : p.FailsToSend ev r → p.following = []
  takes : p.TakesOut ev r → ∀ next ∈ p.following.head?, next.revents = 0

end Polling

/-- An iteration that keeps the place. -/
def PollStep.KeepsPlace (total : ℕ) (t : PollStep) : Prop :=
  ∀ ev ∈ t.pre.current total, t.pre.KeepsPlace ev t.input

/-! ## The vector -/

section

variable {cfg : Config} {total : ℕ} {p q : Polling} {ev : PollFd} {pre : List PollFd}
  {s : Socket} {r : Ready}

namespace Polling

/-- An entry is at the index, behind some others. -/
structure At (p : Polling) (ev : PollFd) (pre : List PollFd) : Prop where
  entries : p.events.entries = pre ++ ev :: p.following
  index : pre.length = p.i

theorem exists_at (h : p.events.entries[p.i]? = some ev) : ∃ pre, p.At ev pre := by
  obtain ⟨hi, hev⟩ := List.getElem?_eq_some_iff.1 h
  refine ⟨p.events.entries.take p.i, ?_, List.length_take_of_le (Nat.le_of_lt hi)⟩
  rw [following, ← hev, List.getElem_cons_drop, List.take_append_drop]

namespace At

/-- Every other entry has another descriptor. -/
theorem fd_ne (h : p.At ev pre) : (∀ ev' ∈ pre, ev'.fd ≠ ev.fd) ∧
    ∀ ev' ∈ p.following, ev'.fd ≠ ev.fd := by
  have hnodup := p.events.nodup
  rw [h.entries, List.map_append, List.map_cons, List.nodup_middle, List.nodup_cons,
    ← List.map_append] at hnodup
  refine ⟨fun ev' hev' hfd => hnodup.1 ?_, fun ev' hev' hfd => hnodup.1 ?_⟩
  · exact List.mem_map.2 ⟨ev', List.mem_append_left _ hev', hfd⟩
  · exact List.mem_map.2 ⟨ev', List.mem_append_right _ hev', hfd⟩

/-- Spliced out, the entry is replaced by what follows. -/
theorem remove (h : p.At ev pre) : (p.events.remove ev.fd).entries = pre ++ p.following := by
  have hpre : ∀ ev' ∈ pre, ¬decide (ev'.fd = ev.fd) = true :=
    fun ev' hev' => by simpa using h.fd_ne.1 ev' hev'
  show p.events.entries.eraseP _ = _
  rw [h.entries, List.eraseP_append_right _ hpre, List.eraseP_cons_of_pos (by simp)]

/-- It is not there to be spliced out again. -/
theorem remove_remove (h : p.At ev pre) :
    ((p.events.remove ev.fd).remove ev.fd).entries = pre ++ p.following := by
  show (p.events.remove ev.fd).entries.eraseP _ = _
  rw [h.remove]
  refine List.eraseP_of_forall_not fun ev' hev' => ?_
  rcases List.mem_append.1 hev' with hev' | hev'
  · simpa using h.fd_ne.1 ev' hev'
  · simpa using h.fd_ne.2 ev' hev'

theorem drop_remove (h : p.At ev pre) :
    (pre ++ p.following).drop (p.i + 1) = p.following.tail := by
  rw [← h.index, ← List.drop_drop, List.drop_left, List.drop_one]

theorem pointee (h : p.At ev pre) : p.pointee ev = ev := by
  rw [Polling.pointee, h.entries, ← h.index]
  simp

theorem pointee_remove (h : p.At ev pre) (hevents : q.events = p.events.remove ev.fd)
    (hi : q.i = p.i) : q.pointee ev = p.following.head?.getD ev := by
  rw [Polling.pointee, hevents, hi, h.remove, ← h.index, List.getD_eq_getElem?_getD,
    List.getElem?_append_right (Nat.le_refl _), Nat.sub_self, List.head?_eq_getElem?]

end At

/-! ## An entry -/

theorem map_eq_ok {α β ε : Type*} {o : Except ε α} {f : α → β} {b : β} (h : o.map f = .ok b) :
    ∃ a, o = .ok a ∧ f a = b := by
  cases o with
  | ok a => exact ⟨a, rfl, Except.ok.inj h⟩
  | error e => cases h

theorem map_eq_error {α β ε : Type*} {o : Except ε α} {f : α → β} {e : ε}
    (h : o.map f = .error e) : o = .error e := by
  cases o with
  | ok a => cases h
  | error e' => exact congrArg Except.error (Except.error.inj h)

/-- The socket that is found has the descriptor. -/
theorem findSocket_fd {srv : Server} {fd : Int} (h : srv.findSocket fd = some s) : s.fd = fd := by
  simpa using List.find?_some h

/-- Flushing takes the entry out if it fails. -/
theorem flush_events : (flush p s ev r).events =
    if ev.revents &&& POLLOUT ≠ 0 ∧ (p.server.failing r.sys).isSome = true
      then p.events.remove s.fd else p.events := by
  rw [flush]
  by_cases hout : ev.revents &&& POLLOUT ≠ 0
  · rw [if_pos hout, settle]
    simp only [Server.sendPackets_failed_iff, hout, ne_eq, not_false_eq_true, true_and]
  · rw [if_neg hout, if_neg fun h => hout h.1]

theorem flush_eq : (flush p s ev r).i = p.i ∧ (flush p s ev r).processed = p.processed := by
  rw [flush]
  split <;> exact ⟨rfl, rfl⟩

/-- The pointer shows another entry if flushing has failed, and the entry is not the last. -/
theorem pointee_flush_iff (h : p.At ev pre) (hfd : s.fd = ev.fd) :
    (flush p s ev r).pointee ev = ev ↔
      (ev.revents &&& POLLOUT ≠ 0 ∧ (p.server.failing r.sys).isSome = true →
        p.following = []) := by
  have hevents : (flush p s ev r).events =
      if ev.revents &&& POLLOUT ≠ 0 ∧ (p.server.failing r.sys).isSome = true
        then p.events.remove s.fd else p.events := flush_events
  by_cases hfails : ev.revents &&& POLLOUT ≠ 0 ∧ (p.server.failing r.sys).isSome = true
  · rw [if_pos hfails, hfd] at hevents
    rw [h.pointee_remove hevents flush_eq.1, imp_iff_right hfails]
    cases hfollowing : p.following with
    | nil => simp
    | cons ev' evs =>
      refine iff_of_false (fun heq => ?_) (List.cons_ne_nil _ _)
      exact h.fd_ne.2 ev' (hfollowing ▸ List.mem_cons_self) (congrArg PollFd.fd heq)
  · rw [if_neg hfails] at hevents
    rw [pointee, hevents, flush_eq.1, ← pointee, h.pointee]
    exact iff_of_true rfl fun h => absurd h hfails

/-- The entry stays or is spliced out, once. -/
theorem serve_events (h : p.At ev pre) (hfd : s.fd = ev.fd)
    (hq : (serve cfg p s ev r).1 = .ok q) : q.i = p.i ∧ q.processed = p.processed ∧
      (q.events.entries = p.events.entries ∨ q.events.entries = pre ++ p.following) := by
  rw [serve] at hq
  split at hq
  · cases hq
    exact ⟨rfl, rfl, .inr (hfd ▸ h.remove)⟩
  have hflush : (flush p s ev r).events = p.events ∨
      (flush p s ev r).events = p.events.remove ev.fd := by
    rw [flush_events, hfd]
    split
    · exact .inr rfl
    · exact .inl rfl
  dsimp only at hq
  split at hq
  · obtain ⟨x, -, rfl⟩ := map_eq_ok hq
    refine ⟨flush_eq.1, flush_eq.2, ?_⟩
    rw [settle]
    dsimp only
    rw [hfd]
    rcases hflush with hflush | hflush <;> rw [hflush] <;> split
    · exact .inr h.remove
    · exact .inl rfl
    · exact .inr h.remove_remove
    · exact .inr h.remove
  · cases hq
    refine ⟨flush_eq.1, flush_eq.2, ?_⟩
    rcases hflush with hflush | hflush <;> rw [hflush]
    · exact .inl rfl
    · exact .inr h.remove

/-- Unless flushing fails for an entry that is not the last, its own `revents` are tested,
    and it is spliced out if there is an error, or receiving fails. -/
theorem serve_tested_iff (h : p.At ev pre) (hfd : s.fd = ev.fd) :
    (∀ ev' ∈ (serve cfg p s ev r).2, ev' = ev) ↔
      (ev.revents &&& (POLLERR ||| POLLRDHUP) = 0 → ev.revents &&& POLLOUT ≠ 0 ∧
        (p.server.failing r.sys).isSome = true → p.following = []) := by
  rw [serve]
  by_cases herror : ev.revents &&& (POLLERR ||| POLLRDHUP) = 0
  · rw [if_neg (not_not.2 herror), imp_iff_right herror, ← pointee_flush_iff h hfd]
    simp
  · rw [if_pos herror]
    exact iff_of_true (by simp) fun h => absurd h herror

theorem serve_spliced (h : p.At ev pre) (hfd : s.fd = ev.fd)
    (htested : ∀ ev' ∈ (serve cfg p s ev r).2, ev' = ev) (hlast : p.following ≠ [])
    (hq : (serve cfg p s ev r).1 = .ok q) :
    (ev.revents &&& (POLLERR ||| POLLRDHUP) ≠ 0 ∨
      ev.revents &&& POLLIN ≠ 0 ∧ r.received.Fails → q.events.entries = pre ++ p.following) ∧
    (¬(ev.revents &&& (POLLERR ||| POLLRDHUP) ≠ 0 ∨
      ev.revents &&& POLLIN ≠ 0 ∧ r.received.Fails) → q.events = p.events) := by
  have hplace := (serve_tested_iff h hfd).1 htested
  rw [serve] at hq
  by_cases herror : ev.revents &&& (POLLERR ||| POLLRDHUP) = 0
  swap
  · -- An error destroys the socket, and so its own entry is taken out.
    rw [if_pos herror] at hq
    cases hq
    exact ⟨fun _ => hfd ▸ h.remove, fun hwell => absurd (.inl herror) hwell⟩
  rw [if_neg (not_not.2 herror)] at hq
  -- As it is not the last entry, flushing does not fail, and the pointer stays.
  have hsends : ¬(ev.revents &&& POLLOUT ≠ 0 ∧ (p.server.failing r.sys).isSome = true) :=
    fun hsends => hlast (hplace herror hsends)
  have hflush : (flush p s ev r).events = p.events := by rw [flush_events, if_neg hsends]
  have hpointee : (flush p s ev r).pointee ev = ev :=
    (pointee_flush_iff h hfd).2 fun hsends' => absurd hsends' hsends
  dsimp only at hq
  rw [hpointee] at hq
  have hor : ev.revents &&& (POLLERR ||| POLLRDHUP) ≠ 0 ∨
      ev.revents &&& POLLIN ≠ 0 ∧ r.received.Fails ↔
        ev.revents &&& POLLIN ≠ 0 ∧ r.received.Fails :=
    or_iff_right (not_not.2 herror)
  rw [hor]
  split at hq
  · rename_i hin
    obtain ⟨x, hx, rfl⟩ := map_eq_ok hq
    rw [settle]
    dsimp only
    rw [hflush, hfd]
    refine ⟨fun hfails => ?_, fun hfails => if_neg fun hfailed => hfails ?_⟩
    · rw [if_pos ((Server.receivePackets_fails_iff hx).2 hfails.2)]
      exact h.remove
    · exact ⟨hin, (Server.receivePackets_fails_iff hx).1 hfailed⟩
  · rename_i hin
    cases hq
    exact ⟨fun hfails => absurd hfails.1 hin, fun _ => hflush⟩

/-- Receiving crashes, or nothing does. -/
theorem serve_error {crash : Crash} (h : (serve cfg p s ev r).1 = .error crash) :
    ev.revents &&& (POLLERR ||| POLLRDHUP) = 0 ∧ ¬r.received.Fails := by
  rw [serve] at h
  split at h
  · cases h
  · rename_i herror
    dsimp only at h
    split at h
    · exact ⟨not_not.1 herror, Server.not_fails_of_error (map_eq_error h)⟩
    · cases h

theorem handle_fd : (handle cfg p ev r).2.fd = ev.fd := by
  rw [handle]
  cases hfind : p.server.findSocket ev.fd with
  | none => rfl
  | some s => exact findSocket_fd hfind

theorem handle_of_iff (h : p.At ev pre) :
    (handle cfg p ev r).2.Of ev ↔ (p.FailsToSend ev r → p.following = []) := by
  have hof : (handle cfg p ev r).2.Of ev ↔ ∀ ev' ∈ (handle cfg p ev r).2.tested, ev' = ev :=
    ⟨Handling.Of.tested, fun htested => ⟨handle_fd, htested⟩⟩
  rw [hof, handle]
  cases hfind : p.server.findSocket ev.fd with
  | none =>
    exact iff_of_true (by simp) fun hsends => by simpa [hfind] using hsends.found
  | some s =>
    have hfd : s.fd = ev.fd := findSocket_fd hfind
    -- Telling the modules changes neither the sockets nor the clients.
    refine (serve_tested_iff (p := { p with server := { p.server with
      machine := p.server.machine.callEvent .socketActivity } }) ⟨h.entries, h.index⟩ hfd).trans
      ⟨fun hplace hsends => hplace hsends.well ⟨hsends.writable, hsends.failing⟩,
        fun hplace hwell hsends => hplace ⟨?_, hwell, hsends.1, hsends.2⟩⟩
    rw [hfind]
    rfl

theorem handle_events (h : p.At ev pre) (hq : (handle cfg p ev r).1 = .ok q) :
    q.i = p.i ∧ q.processed = p.processed ∧
      (q.events.entries = p.events.entries ∨ q.events.entries = pre ++ p.following) := by
  rw [handle] at hq
  cases hfind : p.server.findSocket ev.fd with
  | none =>
    rw [hfind] at hq
    cases hq
    exact ⟨rfl, rfl, .inr h.remove⟩
  | some s =>
    have hfd : s.fd = ev.fd := findSocket_fd hfind
    rw [hfind] at hq
    exact serve_events (p := { p with server := { p.server with
      machine := p.server.machine.callEvent .socketActivity } }) ⟨h.entries, h.index⟩ hfd hq

/-- Handled by its own `revents`, an entry that is not the last is spliced out exactly if it
    is one to be taken out. -/
theorem handle_spliced (h : p.At ev pre) (hof : (handle cfg p ev r).2.Of ev)
    (hlast : p.following ≠ []) (hq : (handle cfg p ev r).1 = .ok q) :
    (p.TakesOut ev r → q.events.entries = pre ++ p.following) ∧
      (¬p.TakesOut ev r → q.events = p.events) := by
  have htested := hof.tested
  rw [handle] at hq htested
  cases hfind : p.server.findSocket ev.fd with
  | none =>
    rw [hfind] at hq
    cases hq
    exact ⟨fun _ => h.remove, fun htakes => absurd (.inl (by rw [hfind]; rfl)) htakes⟩
  | some s =>
    have hfd : s.fd = ev.fd := findSocket_fd hfind
    have htakes : p.TakesOut ev r ↔ ev.revents &&& (POLLERR ||| POLLRDHUP) ≠ 0 ∨
        ev.revents &&& POLLIN ≠ 0 ∧ r.received.Fails := by
      rw [TakesOut, hfind]
      exact or_iff_right (by simp)
    rw [hfind] at hq htested
    rw [htakes]
    exact serve_spliced (p := { p with server := { p.server with
      machine := p.server.machine.callEvent .socketActivity } }) ⟨h.entries, h.index⟩ hfd
      htested hlast hq

theorem handle_error {crash : Crash} (h : (handle cfg p ev r).1 = .error crash) :
    ¬p.TakesOut ev r := by
  rw [handle] at h
  rw [TakesOut]
  cases hfind : p.server.findSocket ev.fd with
  | none =>
    rw [hfind] at h
    cases h
  | some s =>
    rw [hfind] at h
    obtain ⟨hwell, hfails⟩ := serve_error h
    simp [hwell, hfails]

/-! ## The loop -/

/-- The entries with `revents` that are left. -/
def left (p : Polling) : List PollFd := active (p.events.entries.drop p.i)

theorem current_eq_some (h : p.current total = some ev) :
    p.processed ≠ total ∧ p.events.entries[p.i]? = some ev ∧ ev.revents ≠ 0 := by
  rw [current] at h
  split at h
  · cases h
  · obtain ⟨hev, hrevents⟩ := Option.filter_eq_some_iff.1 h
    exact ⟨‹_›, hev, by simpa using hrevents⟩

/-- Where nothing is handled, nothing is left at the index. -/
theorem left_succ (h : p.current total = none) (hlt : p.i < p.events.entries.length)
    (hprocessed : p.processed ≠ total) : ({ p with i := p.i + 1 } : Polling).left = p.left := by
  rw [current, if_neg hprocessed, List.getElem?_eq_getElem hlt] at h
  have hzero : p.events.entries[p.i].revents = 0 := by simpa using h
  rw [left, left, List.drop_eq_getElem_cons hlt, active, active,
    List.filter_cons_of_neg (by simp [hzero])]

theorem left_of_current (h : p.current total = some ev) : p.left = ev :: active p.following := by
  obtain ⟨-, hev, hrevents⟩ := current_eq_some h
  obtain ⟨hi, rfl⟩ := List.getElem?_eq_some_iff.1 hev
  rw [left, List.drop_eq_getElem_cons hi, active, List.filter_cons_of_pos (by simpa using hrevents)]
  rfl

/-- How the entries are handled from a state on. -/
def handlingsFrom (cfg : Config) (total : ℕ) (p : Polling) (rs : List Ready) : List Handling :=
  (Lib.trace (next cfg total) p rs).filterMap fun t => t.pre.handling cfg total t.input

/-- From a state on, some entries are handled, each once. -/
structure ExactFrom (cfg : Config) (total : ℕ) (p : Polling) (rs : List Ready)
    (entries : List PollFd) : Prop where
  own : List.Forall₂ Handling.Of (handlingsFrom cfg total p rs)
    (entries.take (handlingsFrom cfg total p rs).length)
  all : (Lib.run (next cfg total) p rs).isOk = true →
    (handlingsFrom cfg total p rs).length = entries.length

variable (cfg r) in
theorem next_none (h : p.current total = none) : ∃ q, next cfg total p r = .ok q ∧
    q.events = p.events ∧ q.processed = p.processed ∧ p.i ≤ q.i ∧ q.left = p.left ∧
    (p.processed = total ∨ p.events.entries.length ≤ q.i ∨ q.i = p.i + 1) := by
  rw [next, h]
  dsimp only
  by_cases hgoes : p.i < p.events.entries.length ∧ p.processed ≠ total
  · rw [if_pos hgoes]
    exact ⟨_, rfl, rfl, rfl, Nat.le_succ _, left_succ h hgoes.1 hgoes.2, .inr (.inr rfl)⟩
  · rw [if_neg hgoes]
    refine ⟨_, rfl, rfl, rfl, Nat.le_refl _, rfl, ?_⟩
    by_cases hprocessed : p.processed = total
    · exact .inl hprocessed
    · exact .inr (.inl (Nat.le_of_not_lt fun hlt => hgoes ⟨hlt, hprocessed⟩))

variable (rs : List Ready)

theorem handlingsFrom_none (h : p.current total = none) (hq : next cfg total p r = .ok q) :
    handlingsFrom cfg total p (r :: rs) = handlingsFrom cfg total q rs := by
  rw [handlingsFrom, Lib.trace_cons_ok hq, List.filterMap_cons_none]
  · rfl
  · rw [handling, h]
    rfl

/-- The state an entry is handled in. -/
def counted (p : Polling) : Polling := { p with processed := p.processed + 1 }

/-- The state of the next iteration. -/
def moved (p : Polling) : Polling := { p with i := p.i + 1 }

theorem next_ok (h : p.current total = some ev) (hq : (handle cfg p.counted ev r).1 = .ok q) :
    next cfg total p r = .ok q.moved := by
  rw [next, h]
  exact congrArg (Except.map _) hq

theorem next_error (h : p.current total = some ev) {crash : Crash}
    (hcrash : (handle cfg p.counted ev r).1 = .error crash) :
    next cfg total p r = .error crash := by
  rw [next, h]
  exact congrArg (Except.map _) hcrash

theorem handlingsFrom_ok (h : p.current total = some ev)
    (hq : (handle cfg p.counted ev r).1 = .ok q) : handlingsFrom cfg total p (r :: rs) =
      (handle cfg p.counted ev r).2 :: handlingsFrom cfg total q.moved rs := by
  rw [handlingsFrom, Lib.trace_cons_ok (next_ok h hq), List.filterMap_cons_some]
  · rfl
  · rw [handling, h]
    rfl

theorem handlingsFrom_error (h : p.current total = some ev) {crash : Crash}
    (hcrash : (handle cfg p.counted ev r).1 = .error crash) :
    handlingsFrom cfg total p (r :: rs) = [(handle cfg p.counted ev r).2] := by
  rw [handlingsFrom, Lib.trace_cons_error (next_error h hcrash), List.filterMap_cons_some]
  · rfl
  · rw [handling, h]
    rfl

variable {rs}

/-- A process that has crashed has handled something. -/
theorem isOk_of_handlingsFrom (h : handlingsFrom cfg total p rs = []) :
    (Lib.run (next cfg total) p rs).isOk = true := by
  induction rs generalizing p with
  | nil => rfl
  | cons r rs ih =>
    cases hcurrent : p.current total with
    | none =>
      obtain ⟨q, hq, -⟩ := next_none cfg r hcurrent
      rw [handlingsFrom_none rs hcurrent hq] at h
      rw [Lib.run_cons_ok hq]
      exact ih h
    | some ev =>
      cases hhandle : (handle cfg p.counted ev r).1 with
      | ok q => rw [handlingsFrom_ok rs hcurrent hhandle] at h; cases h
      | error crash => rw [handlingsFrom_error rs hcurrent hhandle] at h; cases h

/-- What is behind the index stays there, but for what is spliced out. -/
theorem drop_subset (h : p.At ev pre) (hq : (handle cfg p.counted ev r).1 = .ok q) :
    q.moved.events.entries.drop q.moved.i ⊆ p.following := by
  obtain ⟨hi, -, hentries⟩ := handle_events (p := p.counted) ⟨h.entries, h.index⟩ hq
  intro ev' hev'
  replace hev' : ev' ∈ q.events.entries.drop (q.i + 1) := hev'
  rw [hi] at hev'
  rcases hentries with hentries | hentries <;> rw [hentries] at hev'
  · exact hev'
  · exact List.mem_of_mem_tail (h.drop_remove ▸ hev')

/-- Only entries that are left are handled. -/
theorem handlingsFrom_fd : ∀ h ∈ handlingsFrom cfg total p rs,
    ∃ ev ∈ p.events.entries.drop p.i, h.fd = ev.fd := by
  induction rs generalizing p with
  | nil => exact fun h hh => absurd hh List.not_mem_nil
  | cons r rs ih =>
    intro h hh
    cases hcurrent : p.current total with
    | none =>
      obtain ⟨q, hq, hevents, -, hi, -⟩ := next_none cfg r hcurrent
      rw [handlingsFrom_none rs hcurrent hq] at hh
      obtain ⟨ev, hev, hfd⟩ := ih h hh
      rw [hevents] at hev
      exact ⟨ev, List.drop_subset_drop_left _ hi hev, hfd⟩
    | some ev =>
      have hev := (current_eq_some hcurrent).2.1
      obtain ⟨pre, hat⟩ := exists_at hev
      obtain ⟨hi, hget⟩ := List.getElem?_eq_some_iff.1 hev
      have hdrop : p.events.entries.drop p.i = ev :: p.following := by
        rw [List.drop_eq_getElem_cons hi, hget, following]
      rw [hdrop]
      cases hhandle : (handle cfg p.counted ev r).1 with
      | error crash =>
        rw [handlingsFrom_error rs hcurrent hhandle, List.mem_singleton] at hh
        rw [hh]
        exact ⟨ev, List.mem_cons_self, handle_fd⟩
      | ok q =>
        rw [handlingsFrom_ok rs hcurrent hhandle, List.mem_cons] at hh
        rcases hh with rfl | hh
        · exact ⟨ev, List.mem_cons_self, handle_fd⟩
        · obtain ⟨ev', hev', hfd⟩ := ih h hh
          exact ⟨ev', List.mem_cons_of_mem _ (drop_subset hat hhandle hev'), hfd⟩

/-- An entry that is passed over is missed. -/
theorem not_exactFrom {entries : List PollFd}
    (h : ∀ ev' ∈ p.events.entries.drop p.i, ev'.fd ≠ ev.fd) :
    ¬ExactFrom cfg total p rs (ev :: entries) := by
  intro hexact
  cases hhandled : handlingsFrom cfg total p rs with
  | nil =>
    have hall := hexact.all (isOk_of_handlingsFrom hhandled)
    rw [hhandled] at hall
    cases hall
  | cons first rest =>
    have hown := hexact.own
    rw [hhandled, List.length_cons, List.take_succ_cons, List.forall₂_cons] at hown
    obtain ⟨ev', hev', hfd⟩ := handlingsFrom_fd first (hhandled ▸ List.mem_cons_self)
    exact h ev' hev' (hfd.symm.trans hown.1.fd)

/-! ## The first entry that is handled, and the others -/

theorem exactFrom_ok_iff (h : p.current total = some ev)
    (hq : (handle cfg p.counted ev r).1 = .ok q) (entries : List PollFd) :
    ExactFrom cfg total p (r :: rs) (ev :: entries) ↔
      (handle cfg p.counted ev r).2.Of ev ∧ ExactFrom cfg total q.moved rs entries := by
  have hhandled := handlingsFrom_ok rs h hq
  have hrun : Lib.run (next cfg total) p (r :: rs) = Lib.run (next cfg total) q.moved rs :=
    Lib.run_cons_ok (next_ok h hq)
  constructor
  · rintro ⟨hown, hall⟩
    rw [hhandled, List.length_cons, List.take_succ_cons, List.forall₂_cons] at hown
    rw [hrun, hhandled] at hall
    exact ⟨hown.1, hown.2, fun hok => Nat.succ.inj (hall hok)⟩
  · rintro ⟨hof, hown, hall⟩
    refine ⟨?_, ?_⟩
    · rw [hhandled, List.length_cons, List.take_succ_cons, List.forall₂_cons]
      exact ⟨hof, hown⟩
    · rw [hrun, hhandled]
      exact fun hok => congrArg Nat.succ (hall hok)

theorem exactFrom_error_iff (h : p.current total = some ev) {crash : Crash}
    (hcrash : (handle cfg p.counted ev r).1 = .error crash) (entries : List PollFd) :
    ExactFrom cfg total p (r :: rs) (ev :: entries) ↔ (handle cfg p.counted ev r).2.Of ev := by
  have hhandled := handlingsFrom_error rs h hcrash
  have hown : List.Forall₂ Handling.Of (handlingsFrom cfg total p (r :: rs))
      ((ev :: entries).take (handlingsFrom cfg total p (r :: rs)).length) ↔
        (handle cfg p.counted ev r).2.Of ev := by
    rw [hhandled]
    simp
  refine ⟨fun hexact => hown.1 hexact.own, fun hof => ⟨hown.2 hof, fun hok => ?_⟩⟩
  rw [Lib.run, next_error h hcrash] at hok
  cases hok

/-- Where an entry was handled by its own `revents`, the next entry is met next, or passed
    over. -/
theorem left_moved (h : p.At ev pre) (hof : (handle cfg p.counted ev r).2.Of ev)
    (hq : (handle cfg p.counted ev r).1 = .ok q) :
    (p.TakesOut ev r → q.moved.events.entries.drop q.moved.i = p.following.tail) ∧
      (¬p.TakesOut ev r → q.moved.events.entries.drop q.moved.i = p.following) := by
  have h' : p.counted.At ev pre := ⟨h.entries, h.index⟩
  obtain ⟨hi, -, -⟩ := handle_events h' hq
  have hmoved : q.moved.events.entries.drop q.moved.i = q.events.entries.drop (p.i + 1) := by
    rw [show q.moved.i = p.i + 1 from congrArg (· + 1) hi]
    rfl
  by_cases hlast : p.following = []
  · have hnil := drop_subset h hq
    rw [hlast, List.subset_nil] at hnil
    rw [hnil, hlast]
    exact ⟨fun _ => rfl, fun _ => rfl⟩
  · obtain ⟨htakes, hstays⟩ := handle_spliced h' hof hlast hq
    rw [hmoved]
    refine ⟨fun ht => ?_, fun ht => ?_⟩
    · rw [htakes ht]
      exact h.drop_remove
    · rw [hstays ht]
      rfl

theorem exactFrom_none_iff (h : p.current total = none) (hq : next cfg total p r = .ok q)
    (entries : List PollFd) :
    ExactFrom cfg total p (r :: rs) entries ↔ ExactFrom cfg total q rs entries := by
  have hhandled := handlingsFrom_none rs h hq
  have hrun : Lib.run (next cfg total) p (r :: rs) = Lib.run (next cfg total) q rs :=
    Lib.run_cons_ok hq
  refine ⟨fun hexact => ⟨?_, ?_⟩, fun hexact => ⟨?_, ?_⟩⟩
  · rw [← hhandled]
    exact hexact.own
  · rw [← hhandled, ← hrun]
    exact hexact.all
  · rw [hhandled]
    exact hexact.own
  · rw [hhandled, hrun]
    exact hexact.all

/-- The entries behind the next one have other descriptors. -/
theorem At.fd_ne_head (h : p.At ev pre) {next : PollFd} {rest : List PollFd}
    (hfollowing : p.following = next :: rest) : ∀ ev' ∈ rest, ev'.fd ≠ next.fd := by
  have hnodup := p.events.nodup
  rw [h.entries, hfollowing, List.map_append, List.map_cons, List.map_cons] at hnodup
  have hrest := (List.nodup_cons.1 (List.nodup_cons.1 (List.nodup_append.1 hnodup).2.1).2).1
  exact fun ev' hev' hfd => hrest (List.mem_map.2 ⟨ev', hev', hfd⟩)

/-- The entries that are left once one was handled by its own `revents` are handled, each
    once, if and only if the iteration keeps the place, and all iterations after it do. -/
theorem exactFrom_moved_iff (h : p.At ev pre) (hof : (handle cfg p.counted ev r).2.Of ev)
    (hq : (handle cfg p.counted ev r).1 = .ok q)
    (ih : q.moved.left = active p.following → (ExactFrom cfg total q.moved rs q.moved.left ↔
      ∀ t ∈ Lib.trace (next cfg total) q.moved rs, PollStep.KeepsPlace total t)) :
    ExactFrom cfg total q.moved rs (active p.following) ↔
      (p.TakesOut ev r → ∀ next ∈ p.following.head?, next.revents = 0) ∧
        ∀ t ∈ Lib.trace (next cfg total) q.moved rs, PollStep.KeepsPlace total t := by
  obtain ⟨htaken, hstays⟩ := left_moved h hof hq
  by_cases htakes : p.TakesOut ev r
  swap
  · have hleft : q.moved.left = active p.following := congrArg active (hstays htakes)
    rw [and_iff_right fun ht => absurd ht htakes, ← ih hleft, hleft]
  rw [imp_iff_right htakes]
  replace htaken := htaken htakes
  cases hfollowing : p.following with
  | nil =>
    rw [hfollowing] at htaken ih
    have hleft : q.moved.left = active [] := congrArg active htaken
    rw [and_iff_right (by simp), ← ih hleft, hleft]
  | cons next rest =>
    rw [hfollowing] at htaken ih
    simp only [List.head?_cons, Option.mem_some_iff, forall_eq']
    by_cases hzero : next.revents = 0
    · -- The entry that is passed over has nothing to be handled.
      have hnext : active (next :: rest) = active rest :=
        List.filter_cons_of_neg (by simp [hzero])
      have hleft : q.moved.left = active (next :: rest) :=
        (congrArg active htaken).trans hnext.symm
      rw [and_iff_right hzero, ← ih hleft, hleft]
    · rw [active, List.filter_cons_of_pos (by simpa using hzero)]
      refine iff_of_false (not_exactFrom fun ev' hev' => ?_) fun hkeeps => hzero hkeeps.1
      rw [htaken] at hev'
      exact h.fd_ne_head hfollowing ev' hev'

theorem failsToSend_counted : p.counted.FailsToSend ev r ↔ p.FailsToSend ev r :=
  ⟨fun h => ⟨h.found, h.well, h.writable, h.failing⟩,
    fun h => ⟨h.found, h.well, h.writable, h.failing⟩⟩

/-- An entry is handled by its own `revents` if flushing fails for the last entry only. -/
theorem handle_counted_of_iff (h : p.At ev pre) :
    (handle cfg p.counted ev r).2.Of ev ↔ (p.FailsToSend ev r → p.following = []) := by
  rw [handle_of_iff (show p.counted.At ev pre from ⟨h.entries, h.index⟩), failsToSend_counted]
  rfl

theorem keepsPlace_iff (h : p.current total = some ev) (post : Except Crash Polling) :
    PollStep.KeepsPlace total ⟨p, r, post⟩ ↔ (p.FailsToSend ev r → p.following = []) ∧
      (p.TakesOut ev r → ∀ next ∈ p.following.head?, next.revents = 0) := by
  refine ⟨fun hkeeps => ⟨(hkeeps ev h).sends, (hkeeps ev h).takes⟩, fun hkeeps ev' hev' => ?_⟩
  cases h.symm.trans hev'
  exact ⟨hkeeps.1, hkeeps.2⟩

/-- The loop moves on by one entry, which is counted. -/
theorem moved_counts (h : p.At ev pre) (hq : (handle cfg p.counted ev r).1 = .ok q) :
    q.moved.i = p.i + 1 ∧ q.moved.processed = p.processed + 1 ∧
      q.moved.events.entries.length ≤ p.events.entries.length := by
  obtain ⟨hi, hprocessed, hentries⟩ := handle_events (p := p.counted) ⟨h.entries, h.index⟩ hq
  refine ⟨congrArg (· + 1) hi, hprocessed, ?_⟩
  rcases hentries with hentries | hentries
  · exact Nat.le_of_eq (congrArg List.length hentries)
  · calc
      q.events.entries.length = pre.length + p.following.length := by
        rw [hentries, List.length_append]
        rfl
      _ ≤ p.events.entries.length := by
        rw [h.entries, List.length_append, List.length_cons]
        omega

/-- From a state in which `processed` is right on, the entries that are left are handled,
    each once, if and only if all iterations keep the place. -/
theorem exactFrom_iff (hcount : p.processed + p.left.length = total)
    (henough : p.processed = total ∨ p.events.entries.length ≤ p.i + rs.length) :
    ExactFrom cfg total p rs p.left ↔
      ∀ t ∈ Lib.trace (next cfg total) p rs, PollStep.KeepsPlace total t := by
  induction rs generalizing p with
  | nil =>
    have hleft : p.left = [] := by
      rcases henough with hdone | hlen
      · exact List.length_eq_zero_iff.1 (by omega)
      · rw [left, List.drop_eq_nil_of_le (by simpa using hlen)]
        rfl
    rw [hleft]
    exact iff_of_true ⟨.nil, fun _ => rfl⟩ fun t ht => absurd ht List.not_mem_nil
  | cons r rs ih =>
    cases hcurrent : p.current total with
    | none =>
      -- The entry is passed, or the loop has ended.
      obtain ⟨q, hq, hevents, hprocessed, hi, hleft, henough'⟩ :=
        next_none cfg r hcurrent
      have hkeeps : PollStep.KeepsPlace total ⟨p, r, .ok q⟩ := fun ev hev => by
        cases hcurrent.symm.trans hev
      rw [exactFrom_none_iff hcurrent hq, ← hleft, Lib.trace_cons_ok hq, List.forall_mem_cons,
        and_iff_right hkeeps]
      refine ih (by rwa [hprocessed, hleft]) ?_
      rw [hprocessed, hevents]
      rw [List.length_cons] at henough
      omega
    | some ev =>
      obtain ⟨hprocessed, hev, -⟩ := current_eq_some hcurrent
      obtain ⟨pre, hat⟩ := exists_at hev
      rw [left_of_current hcurrent] at hcount ⊢
      cases hhandle : (handle cfg p.counted ev r).1 with
      | error crash =>
        have hstays : ¬p.TakesOut ev r := handle_error (p := p.counted) hhandle
        rw [exactFrom_error_iff hcurrent hhandle, handle_counted_of_iff hat,
          Lib.trace_cons_error (next_error hcurrent hhandle), List.forall_mem_singleton,
          keepsPlace_iff hcurrent]
        exact ⟨fun hsends => ⟨hsends, fun htakes => absurd htakes hstays⟩, And.left⟩
      | ok q =>
        -- The entry is handled, and the loop moves on to what is left then.
        obtain ⟨hi, hcounted, hlen⟩ := moved_counts hat hhandle
        rw [exactFrom_ok_iff hcurrent hhandle, Lib.trace_cons_ok (next_ok hcurrent hhandle),
          List.forall_mem_cons, keepsPlace_iff hcurrent, and_assoc, ← handle_counted_of_iff hat]
        refine and_congr_right fun hown =>
          exactFrom_moved_iff hat hown hhandle fun hleft => ih ?_ ?_
        · rw [hleft, hcounted]
          rw [List.length_cons] at hcount
          omega
        · rw [List.length_cons] at henough
          omega

/-! ## The same as the dispatch of epoll -/

/-- What is reported by an entry. -/
def report (ev : PollFd) (r : Ready) : Report where
  fd := ev.fd
  failed := ev.revents &&& (POLLERR ||| POLLRDHUP) ≠ 0
  writable := ev.revents &&& POLLOUT ≠ 0
  readable := ev.revents &&& POLLIN ≠ 0
  received := r.received
  sys := r.sys

/-- What is reported by the entries that are handled. -/
def reportsFrom (cfg : Config) (total : ℕ) (p : Polling) (rs : List Ready) : List Report :=
  (Lib.trace (next cfg total) p rs).filterMap fun t =>
    (t.pre.current total).map (report · t.input)

theorem flush_server (hout : ev.revents &&& POLLOUT ≠ 0) :
    (flush p s ev r).server = (writeReady r.sys p.server s).1 := by
  rw [flush, if_pos hout, writeReady_server]
  rfl

theorem serve_server (htested : ∀ ev' ∈ (serve cfg p s ev r).2, ev' = ev) :
    (serve cfg p s ev r).1.map server = (serveReady cfg p.server s (report ev r)).1 := by
  rw [serve] at htested ⊢
  rw [serveReady]
  by_cases hfailed : ev.revents &&& (POLLERR ||| POLLRDHUP) ≠ 0
  · rw [if_pos hfailed, if_pos (show (report ev r).failed = true from decide_eq_true hfailed)]
    rfl
  rw [if_neg hfailed] at htested ⊢
  rw [if_neg (show ¬(report ev r).failed = true by simpa [report] using hfailed)]
  have hflushed : (flush p s ev r).server = (if (report ev r).writable then
      writeReady (report ev r).sys p.server s else (p.server, [])).1 := by
    by_cases hout : ev.revents &&& POLLOUT ≠ 0
    · rw [if_pos (show (report ev r).writable = true from decide_eq_true hout)]
      exact flush_server hout
    · rw [flush, if_neg hout,
        if_neg (show ¬(report ev r).writable = true by simpa [report] using hout)]
  have hpointee : (flush p s ev r).pointee ev = ev := htested _ (by simp)
  dsimp only
  rw [hpointee]
  by_cases hin : ev.revents &&& POLLIN ≠ 0
  · rw [if_pos hin, if_pos (show (report ev r).readable = true from decide_eq_true hin),
      readReady_server, ← hflushed]
    show _ = Except.map _ (Server.receivePackets cfg r.sys _ s r.received)
    cases Server.receivePackets cfg r.sys (flush p s ev r).server s r.received <;> rfl
  · rw [if_neg hin, if_neg (show ¬(report ev r).readable = true by simpa [report] using hin)]
    exact congrArg Except.ok hflushed

/-- An entry handled by its own `revents` is dealt with as `epoll` deals with its report. -/
theorem handle_server (h : (handle cfg p ev r).2.Of ev) :
    (handle cfg p ev r).1.map server = dispatch cfg p.server (report ev r) := by
  have htested := h.tested
  rw [handle] at htested ⊢
  rw [dispatch, dispatchEvent]
  change _ = (match p.server.findSocket ev.fd with | none => _ | some s => _ : _ × _).1
  cases hfind : p.server.findSocket ev.fd with
  | none => rfl
  | some s =>
    rw [hfind] at htested
    exact serve_server htested

theorem next_none_server (h : p.current total = none) (hq : next cfg total p r = .ok q) :
    q.server = p.server := by
  rw [next, h] at hq
  dsimp only at hq
  split at hq <;> cases hq <;> rfl

theorem reportsFrom_ok (hq : next cfg total p r = .ok q) : reportsFrom cfg total p (r :: rs) =
    ((p.current total).map (report · r)).toList ++ reportsFrom cfg total q rs := by
  rw [reportsFrom, Lib.trace_cons_ok hq, List.filterMap_cons]
  cases p.current total <;> rfl

theorem reportsFrom_error {crash : Crash} (h : next cfg total p r = .error crash) :
    reportsFrom cfg total p (r :: rs) = ((p.current total).map (report · r)).toList := by
  rw [reportsFrom, Lib.trace_cons_error h, List.filterMap_cons]
  cases p.current total <;> rfl

/-- As long as all iterations keep the place, the server is dealt with as the dispatch of
    `epoll` deals with what is reported. -/
theorem run_server (h : ∀ t ∈ Lib.trace (next cfg total) p rs, PollStep.KeepsPlace total t) :
    (Lib.run (next cfg total) p rs).map server =
      Lib.run (dispatch cfg) p.server (reportsFrom cfg total p rs) := by
  induction rs generalizing p with
  | nil => rfl
  | cons r rs ih =>
    cases hcurrent : p.current total with
    | none =>
      obtain ⟨q, hq, -⟩ := next_none cfg r hcurrent
      rw [Lib.trace_cons_ok hq, List.forall_mem_cons] at h
      rw [Lib.run_cons_ok hq, ih h.2, reportsFrom_ok hq, hcurrent, next_none_server hcurrent hq]
      rfl
    | some ev =>
      obtain ⟨pre, hat⟩ := exists_at (current_eq_some hcurrent).2.1
      have hkeeps : PollStep.KeepsPlace total ⟨p, r, next cfg total p r⟩ :=
        h _ List.mem_cons_self
      have hserver : (handle cfg p.counted ev r).1.map server =
          dispatch cfg p.server (report ev r) :=
        handle_server ((handle_counted_of_iff hat).2 ((keepsPlace_iff hcurrent _).1 hkeeps).1)
      cases hhandle : (handle cfg p.counted ev r).1 with
      | error crash =>
        have hcrash := next_error hcurrent hhandle
        rw [hhandle] at hserver
        rw [Lib.run, hcrash, reportsFrom_error hcrash, hcurrent]
        change _ = Lib.run (dispatch cfg) p.server [report ev r]
        rw [Lib.run, ← hserver]
        rfl
      | ok q =>
        have hq := next_ok hcurrent hhandle
        rw [hhandle] at hserver
        rw [Lib.trace_cons_ok hq, List.forall_mem_cons] at h
        rw [Lib.run_cons_ok hq, ih h.2, reportsFrom_ok hq, hcurrent]
        exact (Lib.run_cons_ok hserver.symm).symm

/-- So poll and epoll do the same to the server if all iterations keep the place. -/
theorem processSockets_eq_dispatch (cfg : Config) (srv : Server) (v : PollVector)
    (ready : ℕ → Ready)
    (h : ∀ t ∈ steps cfg srv v ready, PollStep.KeepsPlace (active v.entries).length t) :
    processSockets cfg srv v ready = Lib.run (dispatch cfg) srv
      (reportsFrom cfg (active v.entries).length (start srv v) (iterations v ready)) :=
  run_server h

/-! ## All entries -/

/-- Each entry with `revents` is handled once, by its own descriptor and its own `revents`,
    if and only if all iterations keep the place. -/
theorem exact_iff (cfg : Config) (srv : Server) (v : PollVector) (ready : ℕ → Ready) :
    Exact cfg srv v ready ↔
      ∀ t ∈ steps cfg srv v ready, PollStep.KeepsPlace (active v.entries).length t := by
  have hleft : (start srv v).left = active v.entries := rfl
  have hrun : ∀ o : Except Crash Polling, (o.map server).isOk = o.isOk := fun o => by
    cases o <;> rfl
  have hexact : Exact cfg srv v ready ↔ ExactFrom cfg (active v.entries).length (start srv v)
      (iterations v ready) (start srv v).left := by
    rw [hleft]
    refine ⟨fun h => ⟨h.own, fun hok => h.all ?_⟩, fun h => ⟨h.own, fun hok => h.all ?_⟩⟩
    · rwa [processSockets, hrun]
    · rwa [processSockets, hrun] at hok
  rw [hexact]
  refine exactFrom_iff ?_ (.inr ?_)
  · rw [hleft]
    exact Nat.zero_add _
  · rw [iterations, List.length_map, List.length_range]
    exact Nat.le_add_left _ _

end Polling

end

namespace Sample

/-- Two sockets, of the descriptors 3 and 4. -/
def twoSockets : Server :=
  { boot [] with socketpool := [socket, { socket with fd := 4, bindaddr := ⟨3, []⟩, packet := 4 }] }

/-- There is an error on the first one, and a datagram for the second one. -/
def twoReady : PollVector := ⟨[⟨3, POLLERR⟩, ⟨4, POLLIN⟩], by decide⟩

end Sample

/-- The first socket is destroyed, and the second one not read. -/
theorem not_exact : ¬∀ cfg srv v ready, Polling.Exact cfg srv v ready := by
  intro h
  have hall := (h Sample.config Sample.twoSockets Sample.twoReady
    fun _ => ⟨.ideal, .failed .again⟩).all (by decide +kernel)
  revert hall
  decide +kernel

end Nbstftp
