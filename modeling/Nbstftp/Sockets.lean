import Nbstftp.Interest
import Nbstftp.Memory
import Mathlib.Data.List.Flatten

/-!
# The socket pool

The pool of sockets holds those listened on and one for each client, which carry the
same address and blocks as the copy the client has (`Server.Paired`). A socket is taken
out of it by the first match of its descriptor and the text of its address, which is made
of the start of the structure: for IPv4, the family and the port. So it is the socket of
another client that goes if that one has the same port and is in front (`not_paired`),
which is so for clients of port 32768, or a listening socket bound to an address that
reads like one.

As long as this does not happen, the pool holds the listening sockets and those of the
clients, in their order (`Server.Ordered`), and none whose blocks were released
(`paired`).
-/

namespace Nbstftp

/-! ## Starting -/

/-- A descriptor to listen on: its address, and the text of it in the configuration. -/
structure Listener where
  fd : Int
  addr : SockAddr
  bindaddr : Bytes

/-- The descriptors to listen on: `socket` gives none twice. -/
structure Listeners where
  blocks : List Listener
  nodup : (blocks.map Listener.fd).Nodup

/-- `BindToSocket`, from `AddSocket` on. -/
def Server.bindToSocket (srv : Server) (l : Listener) : Server :=
  let bindaddr := srv.machine.nmalloc l.bindaddr
  let packet := bindaddr.1.nmalloc (List.replicate pktlen 0)
  let sock : Socket := ⟨l.fd, SF_READABLE, l.addr, bindaddr.2, packet.2.tok, pktlen⟩
  { srv with
    machine := { packet.1 with
      interest := Function.update packet.1.interest l.fd (some SF_READABLE) }
    socketpool := srv.socketpool ++ [sock] }

/-- `InitializeSockets`, for those that can be bound. -/
def initializeSockets (files : Bytes → Bytes) (ls : Listeners) : Server :=
  ls.blocks.foldl Server.bindToSocket (.boot (.boot files fun _ => none) [])

/-! ## The pools -/

/-- What never changes about a socket: all but its flags. -/
def Socket.entry (s : Socket) : Socket := { s with flags := 0 }

/-- A socket that `DestroySocket` takes for another one. -/
def Socket.Alike (t s : Socket) : Prop := t.fd = s.fd ∧ t.bindaddr.bytes = s.bindaddr.bytes

instance (t s : Socket) : Decidable (t.Alike s) := inferInstanceAs (Decidable (_ ∧ _))

/-- Those of some sockets that are listened on. -/
def Server.listening (sockets : List Socket) (srv : Server) : List Socket :=
  sockets.filter fun l => (srv.machine.interest l.fd).isSome

/-- The sockets in use: those listened on, and those of the clients. -/
def Server.live (sockets : List Socket) (srv : Server) : List Socket :=
  (srv.listening sockets ++ srv.clientpool.clients.map Client.s).map Socket.entry

/-- The pool of sockets holds the sockets in use, and none whose blocks were released. -/
structure Server.Paired (sockets : List Socket) (srv : Server) : Prop where
  entries : (srv.socketpool.map Socket.entry).Perm (srv.live sockets)
  unreleased : ∀ s ∈ srv.socketpool, ∀ tok ∈ s.toks, tok ∉ srv.machine.frees

/-- The socket that is destroyed because its descriptor fails, if any. -/
def Input.destroyed (i : Input) : Option Socket :=
  match i.event with
  | .hangup s | .writable s => some s
  | .readable s (.failed e) => if e = .again ∨ e = .intr then none else some s
  | _ => none

/-- The clients that a step removes: those marked, of the ones flushed before a failure. -/
def ServerStep.removed (t : ServerStep) : List Client :=
  (t.flushed.takeWhile fun c => c.Sends t.input.sys).filter (·.destroy)

/-- A step that destroys no socket for another one: no client that stays is in front of
    one like it that is removed, no socket listened on is like that of a client removed;
    and a socket that is not listened on any more is not destroyed again, for a client. -/
structure ServerStep.DestroysOwn (sockets : List Socket) (t : ServerStep) : Prop where
  clients : t.pre.clientpool.clients.Pairwise fun d c =>
    c ∈ t.removed → d ∉ t.removed → ¬d.s.Alike c.s
  listening : ∀ c ∈ t.removed, ∀ l ∈ t.pre.listening sockets, ¬l.Alike c.s
  again : ∀ s ∈ t.input.destroyed, (t.pre.machine.interest s.fd).isSome ∨
    ∀ c ∈ t.pre.clientpool.clients, ¬c.s.Alike s

/-- The pool of sockets holds those in use, in order; all of their blocks are in use, none
    of which a client owns besides. -/
structure Server.Ordered (sockets : List Socket) (srv : Server) : Prop where
  fds : (sockets.map Socket.fd).Nodup
  pool : srv.socketpool.map Socket.entry = srv.live sockets
  keeps : srv.machine.Keeps ((srv.live sockets).flatMap Socket.toks)
  apart : ∀ c ∈ srv.clientpool.clients,
    c.Apart srv.machine ((srv.live sockets).flatMap Socket.toks)
  closed : ∀ l ∈ sockets, srv.machine.interest l.fd = none → l.toks ⊆ srv.machine.frees
  watched : ∀ fd, (srv.machine.interest fd).isSome → ∃ l ∈ sockets, l.fd = fd

/-- Handling a datagram leaves the socket of its client as it is. -/
theorem Upkeep.entry {s s' : State} (h : Upkeep s s') : s'.2.s.entry = s.2.s.entry := by
  induction h with
  | aside h => rw [h.socket]
  | release m c =>
    rw [releaseLastpacket]
    split
    · split <;> rfl
    · rfl
  | queue sys m c bytes len => rfl
  | trans h h' ih ih' => exact ih'.trans ih

namespace Server

variable {sockets : List Socket} {sys : Sys} {srv srv' : Server} {s : Socket} {c : Client}

theorem Ordered.toPaired (h : srv.Ordered sockets) : srv.Paired sockets where
  entries := .of_eq h.pool
  unreleased s hs tok htok hfreed := by
    have hmem : s.entry ∈ srv.live sockets := h.pool ▸ List.mem_map_of_mem hs
    exact (h.keeps.released tok hfreed).2 (List.mem_flatMap.2 ⟨s.entry, hmem, htok⟩)

/-! ## Taking sockets out -/

/-- The blocks of a socket taken out are not those of the others. -/
theorem notMem_of_nodup {pre rest : List Socket} {t : Socket}
    (h : ((pre ++ t :: rest).flatMap Socket.toks).Nodup) {tok : ℕ} (htok : tok ∈ t.toks) :
    tok ∉ (pre ++ rest).flatMap Socket.toks := by
  have hperm : ((pre ++ t :: rest).flatMap Socket.toks).Perm
      ((t :: (pre ++ rest)).flatMap Socket.toks) := List.perm_middle.flatMap_right _
  rw [hperm.nodup_iff, List.flatMap_cons, List.nodup_append] at h
  exact fun hmem => h.2.2 tok htok tok hmem rfl

/-- Taking out a socket, seen without flags. -/
theorem map_entry_eraseP (l : List Socket) (s : Socket) :
    (l.eraseP fun t => t.Alike s).map Socket.entry =
      (l.map Socket.entry).eraseP fun t => t.Alike s := by
  rw [List.eraseP_map]
  rfl

/-- A socket that none in front is like is taken out, and its blocks are no other's. -/
theorem Ordered.takeOut (h : srv.Ordered sockets) {pre rest : List Socket} {t : Socket}
    (hlive : srv.live sockets = pre ++ t :: rest) (ht : t.Alike s)
    (hpre : ∀ u ∈ pre, ¬u.Alike s) :
    (srv.socketpool.eraseP fun u => u.Alike s).map Socket.entry = pre ++ rest ∧
      ∀ tok ∈ t.toks, tok < srv.machine.nexttok ∧ tok ∉ (pre ++ rest).flatMap Socket.toks := by
  have hkeeps := h.keeps
  rw [hlive] at hkeeps
  refine ⟨?_, fun tok htok => ⟨hkeeps.allocated tok ?_, notMem_of_nodup hkeeps.nodup htok⟩⟩
  · rw [map_entry_eraseP, h.pool, hlive,
      List.eraseP_append_right _ fun u hu => by simpa using hpre u hu,
      List.eraseP_cons_of_pos (by simpa using ht)]
  · exact List.mem_flatMap.2 ⟨t, List.mem_append_right _ List.mem_cons_self, htok⟩

/-! ## What keeps the pools in order -/

theorem listening_congr
    (h : ∀ fd, (srv'.machine.interest fd).isSome = (srv.machine.interest fd).isSome) :
    srv'.listening sockets = srv.listening sockets :=
  List.filter_congr fun l _ => h l.fd

/-- A step that leaves some of the sockets, in order, and releases no block of them. -/
theorem Ordered.step (h : srv.Ordered sockets)
    (hwatched : ∀ fd, (srv'.machine.interest fd).isSome → (srv.machine.interest fd).isSome)
    (hclosed : ∀ l ∈ sockets, (srv.machine.interest l.fd).isSome →
      srv'.machine.interest l.fd = none → l.toks ⊆ srv'.machine.frees)
    (hpool : srv'.socketpool.map Socket.entry = srv'.live sockets)
    (hlive : (srv'.live sockets).Sublist (srv.live sockets))
    (hn : srv.machine.nexttok ≤ srv'.machine.nexttok)
    (hfrees : srv.machine.frees ⊆ srv'.machine.frees)
    (hreleased : ∀ tok ∈ srv'.machine.frees, tok ∈ srv.machine.frees ∨
      tok < srv.machine.nexttok ∧ tok ∉ (srv'.live sockets).flatMap Socket.toks)
    (hclients : ∀ d ∈ srv'.clientpool.clients, ∃ c ∈ srv.clientpool.clients, d.toks ⊆ c.toks) :
    srv'.Ordered sockets where
  fds := h.fds
  pool := hpool
  keeps := h.keeps.release (hlive.flatMap _) hn hreleased
  apart d hd := by
    obtain ⟨c, hc, htoks⟩ := hclients d hd
    exact (h.apart c hc).mono hn (hlive.flatMap _).subset htoks
  closed l hl hnone := by
    cases hi : srv.machine.interest l.fd with
    | none => exact List.Subset.trans (h.closed l hl hi) hfrees
    | some status => exact hclosed l hl (by rw [hi]; rfl) hnone
  watched fd hsome := h.watched fd (hwatched fd hsome)

/-- In particular, one in which the same descriptors are watched. -/
theorem Ordered.step_watched (h : srv.Ordered sockets)
    (hwatched : ∀ fd, (srv'.machine.interest fd).isSome = (srv.machine.interest fd).isSome)
    (hpool : srv'.socketpool.map Socket.entry = srv'.live sockets)
    (hlive : (srv'.live sockets).Sublist (srv.live sockets))
    (hn : srv.machine.nexttok ≤ srv'.machine.nexttok)
    (hfrees : srv.machine.frees ⊆ srv'.machine.frees)
    (hreleased : ∀ tok ∈ srv'.machine.frees, tok ∈ srv.machine.frees ∨
      tok < srv.machine.nexttok ∧ tok ∉ (srv'.live sockets).flatMap Socket.toks)
    (hclients : ∀ d ∈ srv'.clientpool.clients, ∃ c ∈ srv.clientpool.clients, d.toks ⊆ c.toks) :
    srv'.Ordered sockets := by
  refine h.step (fun fd hsome => ?_) (fun l _ hsome hnone => ?_) hpool hlive hn hfrees hreleased
    hclients
  · rwa [hwatched] at hsome
  · rw [← hwatched, hnone] at hsome
    cases hsome

/-! ## Destroying a socket that failed -/

theorem destroySocket_frees (srv : Server) (s : Socket) (closefd : Bool) :
    (srv.destroySocket s closefd).machine.frees = srv.machine.frees ++ s.toks := by
  have hclose : ∀ m : Machine, ((m.free s.bindaddr).emit (.free s.packet)).frees =
      m.frees ++ s.toks := fun m => by
    rw [Machine.frees_emit, Machine.free, Machine.frees_emit, List.append_assoc]
    rfl
  refine (hclose _).trans ?_
  cases closefd with
  | false => rfl
  | true =>
    rw [if_pos rfl, Machine.frees_emit]
    exact congrArg (· ++ s.toks) (List.append_nil _)

/-- The sockets that are listened on still. -/
theorem destroySocket_listening (srv : Server) (s : Socket) :
    (srv.destroySocket s true).listening sockets =
      (srv.listening sockets).filter (·.fd ≠ s.fd) := by
  have hinterest : (srv.destroySocket s true).machine.interest =
      Function.update srv.machine.interest s.fd none := rfl
  rw [listening, listening, List.filter_filter, hinterest]
  refine List.filter_congr fun l _ => ?_
  by_cases hfd : l.fd = s.fd
  · rw [hfd, Function.update_self]
    simp
  · rw [Function.update_of_ne hfd]
    simp [hfd]

theorem mem_listening {l : Socket} : l ∈ srv.listening sockets ↔ l ∈ sockets ∧
    (srv.machine.interest l.fd).isSome :=
  List.mem_filter

/-- Of sockets with different descriptors, the others than one. -/
theorem filter_fd {pre rest : List Socket} {l : Socket}
    (h : ((pre ++ l :: rest).map Socket.fd).Nodup) (hfd : s.fd = l.fd) :
    (pre ++ l :: rest).filter (·.fd ≠ s.fd) = pre ++ rest ∧ ∀ t ∈ pre, t.fd ≠ s.fd := by
  rw [List.map_append, List.map_cons, List.nodup_append, List.nodup_cons] at h
  obtain ⟨-, ⟨hrest, -⟩, hpre⟩ := h
  have hpre : ∀ t ∈ pre, t.fd ≠ s.fd := fun t ht heq =>
    hpre _ (List.mem_map_of_mem ht) _ List.mem_cons_self (heq.trans hfd)
  have hrest : ∀ t ∈ rest, t.fd ≠ s.fd := fun t ht heq =>
    hrest (List.mem_map.2 ⟨t, ht, heq.trans hfd⟩)
  refine ⟨?_, hpre⟩
  rw [List.filter_append, List.filter_cons_of_neg (by simp [hfd]),
    List.filter_eq_self.2 fun t ht => by simpa using hpre t ht,
    List.filter_eq_self.2 fun t ht => by simpa using hrest t ht]

/-- A socket that is listened on is destroyed; or none is, as it was before. -/
theorem Ordered.destroySocket_cases (h : srv.Ordered sockets) {l : Socket} (hl : l ∈ sockets)
    (hs : s.entry = l.entry) (hagain : (srv.machine.interest s.fd).isSome ∨
      ∀ c ∈ srv.clientpool.clients, ¬c.s.Alike s) :
    (∃ pre rest, srv.live sockets = pre ++ s.entry :: rest ∧
      (srv.destroySocket s true).live sockets = pre ++ rest ∧ ∀ u ∈ pre, ¬u.Alike s) ∨
    srv.machine.interest s.fd = none ∧
      (srv.destroySocket s true).live sockets = srv.live sockets ∧
      ∀ u ∈ srv.live sockets, ¬u.Alike s := by
  have hfd : s.fd = l.fd := (Socket.mk.inj hs).1
  have hclients : (srv.destroySocket s true).clientpool = srv.clientpool := rfl
  rw [live, live, destroySocket_listening, hclients]
  cases hi : srv.machine.interest s.fd with
  | some status =>
    left
    have hmem : l ∈ srv.listening sockets := mem_listening.2 ⟨hl, by rw [← hfd, hi]; rfl⟩
    have hfds : ((srv.listening sockets).map Socket.fd).Nodup :=
      h.fds.sublist (List.filter_sublist.map _)
    obtain ⟨pre, rest, hsplit⟩ := List.append_of_mem hmem
    rw [hsplit] at hfds ⊢
    obtain ⟨hfilter, hpre⟩ := filter_fd hfds hfd
    refine ⟨pre.map Socket.entry, (rest ++ srv.clientpool.clients.map Client.s).map Socket.entry,
      ?_, ?_, ?_⟩
    · rw [hs, List.append_assoc, List.map_append, List.cons_append, List.map_cons]
    · rw [hfilter, List.append_assoc, List.map_append]
    · rintro _ hu ⟨hufd, -⟩
      obtain ⟨t, ht, rfl⟩ := List.mem_map.1 hu
      exact hpre t ht hufd
  | none =>
    -- It was destroyed before: neither a listening socket nor a client is like it.
    right
    have hother : ∀ t ∈ srv.listening sockets, t.fd ≠ s.fd := fun t ht heq => by
      have hsome := (mem_listening.1 ht).2
      rw [heq, hi] at hsome
      cases hsome
    rw [hi] at hagain
    refine ⟨rfl, by rw [List.filter_eq_self.2 fun t ht => by simpa using hother t ht], ?_⟩
    intro _ hu halike
    obtain ⟨t, ht, rfl⟩ := List.mem_map.1 hu
    rcases List.mem_append.1 ht with ht | ht
    · exact hother t ht halike.1
    · obtain ⟨c, hc, rfl⟩ := List.mem_map.1 ht
      exact (hagain.resolve_left nofun) c hc halike

theorem Ordered.destroySocket (h : srv.Ordered sockets) {l : Socket} (hl : l ∈ sockets)
    (hs : s.entry = l.entry) (hagain : (srv.machine.interest s.fd).isSome ∨
      ∀ c ∈ srv.clientpool.clients, ¬c.s.Alike s) :
    (srv.destroySocket s true).Ordered sockets := by
  have hfd : s.fd = l.fd := (Socket.mk.inj hs).1
  have htoks : s.toks = l.toks := (congrArg Socket.toks hs :)
  have hinterest : ∀ fd, (srv.destroySocket s true).machine.interest fd =
      if fd = s.fd then none else srv.machine.interest fd := Function.update_apply _ _ _
  obtain ⟨hpool, hsub, hfreed⟩ : (srv.destroySocket s true).socketpool.map Socket.entry =
        (srv.destroySocket s true).live sockets ∧
      ((srv.destroySocket s true).live sockets).Sublist (srv.live sockets) ∧
      ∀ tok ∈ s.toks, tok < srv.machine.nexttok ∧
        tok ∉ ((srv.destroySocket s true).live sockets).flatMap Socket.toks := by
    rcases h.destroySocket_cases hl hs hagain with ⟨pre, rest, hlive, hlive', hpre⟩ |
      ⟨hnone, hlive', hnot⟩
    · -- The entry of the socket is the first one that is taken for it.
      obtain ⟨hpool, hfreed⟩ := h.takeOut hlive ⟨rfl, rfl⟩ hpre
      rw [hlive', hlive]
      exact ⟨hpool, (List.Sublist.refl pre).append (List.sublist_cons_self _ _), hfreed⟩
    · -- There is nothing to take out, and the blocks were released before.
      rw [hlive']
      refine ⟨?_, List.Sublist.refl _, fun tok htok => ?_⟩
      · refine (map_entry_eraseP _ _).trans ?_
        rw [h.pool, List.eraseP_of_forall_not fun u hu => by simpa using hnot u hu]
      · exact h.keeps.released tok (h.closed l hl (hfd ▸ hnone) (htoks ▸ htok))
  refine h.step (fun fd hsome => ?_) (fun l' hl' hsome hnone => ?_) hpool hsub (Nat.le_refl _) ?_
    (fun tok htok => ?_) fun d hd => ⟨d, hd, List.Subset.refl _⟩
  · rw [hinterest] at hsome
    split at hsome
    · cases hsome
    · exact hsome
  · -- The one that was closed just now.
    rw [hinterest] at hnone
    split at hnone
    · have hll' : l' = l := List.inj_on_of_nodup_map h.fds hl' hl (by rw [‹l'.fd = _›, hfd])
      rw [destroySocket_frees, htoks, hll']
      exact List.subset_append_right _ _
    · rw [hnone] at hsome
      cases hsome
  · rw [destroySocket_frees]
    exact List.subset_append_left _ _
  · rw [destroySocket_frees] at htok
    exact (List.mem_append.1 htok).imp_right (hfreed tok)

/-! ## Flushing -/

theorem afterSending_watched (srv : Server) (c : Client) (fd : Int) :
    ((srv.afterSending sys c).machine.interest fd).isSome =
      (srv.machine.interest fd).isSome := by
  rw [afterSending_interest]
  split
  · exact Option.isSome_map
  · rfl

/-- The sockets in use, around that of a client. -/
theorem live_split {pre rest : List Client} (hpool : srv.clientpool.clients = pre ++ c :: rest) :
    srv.live sockets = (srv.listening sockets ++ pre.map Client.s).map Socket.entry ++
      c.s.entry :: (rest.map Client.s).map Socket.entry := by
  simp only [live, hpool, List.map_append, List.map_cons, List.append_assoc]

theorem afterSending_listening (srv : Server) (c : Client) :
    (srv.afterSending sys c).listening sockets = srv.listening sockets :=
  listening_congr (afterSending_watched srv c)

/-- A client that is not removed leaves the entries as they were. -/
theorem Ordered.afterSending_keeps (h : srv.Ordered sockets) {pre rest : List Client}
    (hpool : srv.clientpool.clients = pre ++ c :: rest) (hd : c.destroy = false) :
    (srv.afterSending sys c).socketpool.map Socket.entry =
        (srv.afterSending sys c).live sockets ∧
      (srv.afterSending sys c).live sockets = srv.live sockets := by
  have hclients : (srv.afterSending sys c).clientpool.clients =
      pre ++ ((keep sys c).toList ++ rest) := afterSending_clients hpool
  have hlive : (srv.afterSending sys c).live sockets = srv.live sockets := by
    rw [live_split hpool]
    simp only [live, afterSending_listening, hclients, keep, hd, if_neg Bool.false_ne_true,
      Option.toList_some, List.singleton_append, List.map_append, List.map_cons,
      List.append_assoc]
    rfl
  have hsocketpool : (srv.afterSending sys c).socketpool = srv.socketpool := by
    rw [Server.afterSending, hd, if_neg Bool.false_ne_true]
    rfl
  rw [hlive, hsocketpool]
  exact ⟨h.pool, rfl⟩

/-- One that is removed takes its own entry out, if it is not taken for another one. -/
theorem Ordered.afterSending_removes (h : srv.Ordered sockets) {pre rest : List Client}
    (hpool : srv.clientpool.clients = pre ++ c :: rest) (hd : c.destroy = true)
    (hlisten : ∀ l ∈ srv.listening sockets, ¬l.Alike c.s) (hpre : ∀ d ∈ pre, ¬d.s.Alike c.s) :
    (srv.afterSending sys c).socketpool.map Socket.entry =
        (srv.afterSending sys c).live sockets ∧
      ((srv.afterSending sys c).live sockets).Sublist (srv.live sockets) ∧
      ∀ tok ∈ c.s.toks, tok < srv.machine.nexttok ∧
        tok ∉ ((srv.afterSending sys c).live sockets).flatMap Socket.toks := by
  have hclients : (srv.afterSending sys c).clientpool.clients =
      pre ++ ((keep sys c).toList ++ rest) := afterSending_clients hpool
  have hlive : srv.live sockets = _ := live_split hpool
  have hlive' : (srv.afterSending sys c).live sockets =
      (srv.listening sockets ++ pre.map Client.s).map Socket.entry ++
        (rest.map Client.s).map Socket.entry := by
    simp only [live, afterSending_listening, hclients, keep, if_pos hd, Option.toList_none,
      List.nil_append, List.map_append, List.append_assoc]
  have hsocketpool : (srv.afterSending sys c).socketpool =
      srv.socketpool.eraseP fun t => t.Alike c.s := by
    rw [Server.afterSending, if_pos hd]
    rfl
  obtain ⟨htaken, hfreed⟩ := h.takeOut (s := c.s) hlive ⟨rfl, rfl⟩ fun u hu halike => by
    obtain ⟨t, ht, rfl⟩ := List.mem_map.1 hu
    rcases List.mem_append.1 ht with ht | ht
    · exact hlisten t ht halike
    · obtain ⟨d, hd, rfl⟩ := List.mem_map.1 ht
      exact hpre d hd halike
  rw [hlive', hsocketpool, hlive]
  exact ⟨htaken, (List.Sublist.refl _).append (List.sublist_cons_self _ _), hfreed⟩

/-- Flushing a client keeps the pools in order, if it is not taken for another one. -/
theorem Ordered.afterSending (h : srv.Ordered sockets) {pre rest : List Client}
    (hpool : srv.clientpool.clients = pre ++ c :: rest)
    (hown : c.destroy = true →
      (∀ l ∈ srv.listening sockets, ¬l.Alike c.s) ∧ ∀ d ∈ pre, ¬d.s.Alike c.s) :
    (srv.afterSending sys c).Ordered sockets := by
  have hmem : c ∈ srv.clientpool.clients := hpool ▸ List.mem_append_right _ List.mem_cons_self
  obtain ⟨hpool', hsub, hfreed⟩ : (srv.afterSending sys c).socketpool.map Socket.entry =
        (srv.afterSending sys c).live sockets ∧
      ((srv.afterSending sys c).live sockets).Sublist (srv.live sockets) ∧
      (c.destroy = true → ∀ tok ∈ c.s.toks, tok < srv.machine.nexttok ∧
        tok ∉ ((srv.afterSending sys c).live sockets).flatMap Socket.toks) := by
    cases hd : c.destroy with
    | true =>
      obtain ⟨hlisten, hpre⟩ := hown hd
      obtain ⟨hpool', hsub, hfreed⟩ := h.afterSending_removes hpool hd hlisten hpre
      exact ⟨hpool', hsub, fun _ => hfreed⟩
    | false =>
      refine (h.afterSending_keeps hpool hd).imp_right fun hlive => ?_
      exact ⟨hlive ▸ List.Sublist.refl _, nofun⟩
  refine h.step_watched (afterSending_watched srv c) hpool' hsub
    (Nat.le_of_eq (afterSending_nexttok srv c).symm) (frees_subset_afterSending srv c)
    (fun tok htok => ?_) fun d hd => ?_
  · -- A block that was released is one of the client, or of its socket.
    refine (afterSending_frees htok).imp_right fun htok => ?_
    rcases htok with htok | ⟨hd, htok⟩
    · obtain ⟨hlt, hnot⟩ := h.apart c hmem tok htok
      exact ⟨hlt, fun h' => hnot ((hsub.flatMap _).subset h')⟩
    · exact hfreed hd tok htok
  · rw [afterSending_clients hpool] at hd
    rw [hpool]
    rcases List.mem_append.1 hd with hd | hd
    · exact ⟨d, List.mem_append_left _ hd, List.Subset.refl _⟩
    rcases List.mem_append.1 hd with hd | hd
    · rw [Option.mem_toList, keep] at hd
      split at hd
      · cases hd
      · cases hd
        exact ⟨c, List.mem_append_right _ List.mem_cons_self, c.flushed_toks sys⟩
    · exact ⟨d, List.mem_append_right _ (List.mem_cons_of_mem c hd), List.Subset.refl _⟩

/-- Failing to send to a client keeps them in order, too. -/
theorem Ordered.afterFailing (h : srv.Ordered sockets) {pre rest : List Client}
    (hpool : srv.clientpool.clients = pre ++ c :: rest) (idx : ℕ) (n : Int) :
    (srv.afterFailing c idx n).Ordered sockets := by
  have hclients := afterFailing_clients hpool idx n
  have hlive : (srv.afterFailing c idx n).live sockets = srv.live sockets :=
    (live_split (c := { c with bytestransferred := n }) hclients).trans (live_split hpool).symm
  have hmem : c ∈ srv.clientpool.clients := hpool ▸ List.mem_append_right _ List.mem_cons_self
  refine h.step_watched (fun fd => rfl) (h.pool.trans hlive.symm) (by rw [hlive]) (Nat.le_refl _)
    (frees_subset_afterFailing srv c idx n) (fun tok htok => ?_) fun d hd => ?_
  · rw [hlive]
    exact (afterFailing_frees htok).imp_right (h.apart c hmem tok)
  · rw [hclients] at hd
    rw [hpool]
    rcases List.mem_append.1 hd with hd | hd
    · exact ⟨d, List.mem_append_left _ hd, List.Subset.refl _⟩
    rcases List.mem_cons.1 hd with rfl | hd
    · exact ⟨c, List.mem_append_right _ List.mem_cons_self, List.Subset.refl _⟩
    · exact ⟨d, List.mem_append_right _ (List.mem_cons_of_mem c hd), List.Subset.refl _⟩

/-- A client that is flushed before any failure is removed if it is marked. -/
theorem mem_removed {post : Except Crash Server} {pre rest : List Client}
    (hpool : srv.clientpool.clients = pre ++ c :: rest)
    (hk : Lib.skips (keep sys) false pre = false)
    (hpre : ∀ d ∈ Lib.visited (keep sys) false pre, d.Sends sys) (hc : c.Sends sys)
    (hd : c.destroy = true) : c ∈ ServerStep.removed ⟨srv, ⟨sys, .writable s⟩, post⟩ := by
  have hflushed : ServerStep.flushed ⟨srv, ⟨sys, .writable s⟩, post⟩ =
      Lib.visited (keep sys) false pre ++ c :: Lib.visited (keep sys) (keep sys c).isNone rest := by
    rw [ServerStep.flushed, hpool, Lib.visited_append, hk]
    rfl
  refine List.mem_filter.2 ⟨?_, hd⟩
  rw [hflushed, List.takeWhile_append_of_pos fun d hd => decide_eq_true (hpre d hd),
    List.takeWhile_cons_of_pos (by simpa using hc)]
  exact List.mem_append_right _ List.mem_cons_self

/-- A client that stays in front of another one is there before, and is not removed. -/
theorem notMem_removed (post : Except Crash Server) {pre rest : List Client}
    (hpool : srv.clientpool.clients = pre ++ rest) {d : Client}
    (hd : d ∈ Lib.walk (keep sys) false pre) :
    ∃ e ∈ pre, e ∉ ServerStep.removed ⟨srv, ⟨sys, .writable s⟩, post⟩ ∧ e.ptr = d.ptr ∧
      e.s.entry = d.s.entry := by
  rcases Lib.mem_walk.1 hd with ⟨e, he, hkeep⟩ | hpassed
  · rw [keep] at hkeep
    split at hkeep
    · cases hkeep
    · cases hkeep
      refine ⟨e, (Lib.visited_sublist false pre).subset he, fun hmem => ?_, rfl, rfl⟩
      exact absurd (List.mem_filter.1 hmem).2 ‹_›
  · refine ⟨d, (Lib.passed_sublist false pre).subset hpassed, fun hmem => ?_, rfl, rfl⟩
    have hnodup : srv.clientpool.clients.Nodup := .of_map _ srv.clientpool.nodup
    have hpassed : d ∈ Lib.passed (keep sys) false srv.clientpool.clients := by
      rw [hpool, Lib.passed_append]
      exact List.mem_append_left _ hpassed
    exact Lib.notMem_visited hnodup hpassed
      ((List.takeWhile_sublist _).subset (List.mem_filter.1 hmem).1)

/-- Where no socket is destroyed for another one, none that is listened on and none of a client
    in front is like that of a client that is removed. -/
theorem not_alike_removed {post : Except Crash Server} {pre rest : List Client}
    (hown : ServerStep.DestroysOwn sockets ⟨srv, ⟨sys, .writable s⟩, post⟩)
    (hpool : srv.clientpool.clients = pre ++ c :: rest)
    (hmem : c ∈ ServerStep.removed ⟨srv, ⟨sys, .writable s⟩, post⟩) {srv' : Server}
    (hwatched : ∀ fd,
      (srv'.machine.interest fd).isSome = (srv.machine.interest fd).isSome) :
    (∀ l ∈ srv'.listening sockets, ¬l.Alike c.s) ∧
      ∀ d ∈ Lib.walk (keep sys) false pre, ¬d.s.Alike c.s := by
  refine ⟨fun l hl => hown.listening c hmem l ?_, fun d hd halike => ?_⟩
  · rwa [listening_congr hwatched] at hl
  · -- The client in front was there before, with the same socket.
    obtain ⟨e, he, hnot, -, hentry⟩ : ∃ e ∈ pre,
        e ∉ ServerStep.removed ⟨srv, ⟨sys, .writable s⟩, post⟩ ∧ e.ptr = d.ptr ∧
          e.s.entry = d.s.entry := notMem_removed _ hpool hd
    have hclients := hown.clients
    rw [hpool, List.pairwise_append] at hclients
    refine hclients.2.2 e he c List.mem_cons_self hmem hnot ?_
    have hfd : e.s.fd = d.s.fd := (Socket.mk.inj hentry).1
    have htext : e.s.bindaddr = d.s.bindaddr := (Socket.mk.inj hentry).2.2.2.1
    exact ⟨hfd.trans halike.1, htext ▸ halike.2⟩

/-- Flushing the queues keeps the pools in order, if it removes no client for another. -/
theorem Ordered.sendPackets (h : srv.Ordered sockets) {post : Except Crash Server}
    (hown : ServerStep.DestroysOwn sockets ⟨srv, ⟨sys, .writable s⟩, post⟩) :
    (srv.sendPackets sys s).1.Ordered sockets ∧
      ∀ fd, ((srv.sendPackets sys s).1.machine.interest fd).isSome =
        (srv.machine.interest fd).isSome := by
  have hrule := sendPackets_rule sys srv s
    (fun pre srv' => (srv'.Ordered sockets ∧
        ∀ fd, (srv'.machine.interest fd).isSome = (srv.machine.interest fd).isSome) ∧
      ∀ d ∈ Lib.visited (keep sys) false pre, d.Sends sys)
    (fun srv' => srv'.Ordered sockets ∧
      ∀ fd, (srv'.machine.interest fd).isSome = (srv.machine.interest fd).isSome)
    ⟨⟨h, fun _ => rfl⟩, fun d hd => absurd hd List.not_mem_nil⟩
    (fun pre c rest srv' _ hk hR => by
      refine ⟨hR.1, fun d hd => hR.2 d ?_⟩
      rw [Lib.visited_append, hk] at hd
      exact (List.mem_append.1 hd).resolve_right List.not_mem_nil)
    (fun pre c rest srv' hl hk hpool hR hsends => by
      obtain ⟨⟨h', hwatched⟩, hpre⟩ := hR
      refine ⟨⟨h'.afterSending hpool fun hd => ?_, fun fd => ?_⟩, fun d hd => ?_⟩
      · have hmem : c ∈ ServerStep.removed ⟨srv, ⟨sys, .writable s⟩, post⟩ :=
          mem_removed hl hk hpre hsends hd
        exact not_alike_removed hown hl hmem hwatched
      · rw [afterSending_watched, hwatched]
      · rw [Lib.visited_append, hk] at hd
        rcases List.mem_append.1 hd with hd | hd
        · exact hpre d hd
        · rw [List.mem_singleton.1 hd]
          exact hsends)
    (fun pre c rest srv' idx n _ _ hpool hR _ => ⟨hR.1.1.afterFailing hpool idx n, hR.1.2⟩)
  rcases hrule with ⟨srv', hs, -, hR, -⟩ | ⟨srv', hs, hfails⟩
  · rw [hs]
    exact hR
  · rw [hs]
    exact hfails

/-! ## Receiving -/

/-- Two blocks more are in use. -/
theorem keeps_alloc {m m' : Machine} {T : List ℕ} (h : m.Keeps T)
    (hn : m'.nexttok = m.nexttok + 2) (hf : m'.frees = m.frees) :
    m'.Keeps (T ++ [m.nexttok, m.nexttok + 1]) where
  nodup := by
    refine List.nodup_append.2 ⟨h.nodup, by simp, fun tok htok tok' htok' heq => ?_⟩
    have hlt := h.allocated tok htok
    simp only [List.mem_cons, List.not_mem_nil, or_false] at htok'
    omega
  allocated tok htok := by
    rw [hn]
    rcases List.mem_append.1 htok with htok | htok
    · exact Nat.lt_of_lt_of_le (h.allocated tok htok) (Nat.le_add_right _ _)
    · simp only [List.mem_cons, List.not_mem_nil, or_false] at htok
      omega
  released tok htok := by
    rw [hf] at htok
    obtain ⟨hlt, hnot⟩ := h.released tok htok
    refine ⟨by omega, fun hmem => ?_⟩
    rcases List.mem_append.1 hmem with hmem | hmem
    · exact hnot hmem
    · simp only [List.mem_cons, List.not_mem_nil, or_false] at hmem
      omega

/-- A client that is added has a socket of its own. -/
theorem Ordered.added (h : srv.Ordered sockets) (sys : Sys) (fd : Int) (src : SockAddr) :
    (srv.added sys fd src).Ordered sockets := by
  have hlive : (srv.added sys fd src).live sockets =
      srv.live sockets ++ [(srv.newSocket sys fd src).entry] := by
    have hclients : (srv.added sys fd src).clientpool.clients = srv.clientpool.clients ++
        [.new srv.clientpool.fresh (srv.newSocket sys fd src)] := rfl
    have hlistening : (srv.added sys fd src).listening sockets = srv.listening sockets := rfl
    simp only [live, hclients, hlistening, List.map_append, List.map_cons, List.map_nil,
      List.append_assoc]
    rfl
  have htoks : ((srv.added sys fd src).live sockets).flatMap Socket.toks =
      (srv.live sockets).flatMap Socket.toks ++
        [srv.machine.nexttok, srv.machine.nexttok + 1] := by
    rw [hlive, List.flatMap_append]
    rfl
  have hn : (srv.added sys fd src).machine.nexttok = srv.machine.nexttok + 2 := rfl
  refine ⟨h.fds, ?_, ?_, fun d hd tok htok => ?_, h.closed, h.watched⟩
  · have hpool : (srv.added sys fd src).socketpool =
        srv.socketpool ++ [srv.newSocket sys fd src] := rfl
    rw [hpool, hlive, List.map_append, h.pool]
    rfl
  · rw [htoks]
    exact keeps_alloc h.keeps hn rfl
  · rcases List.mem_append.1 hd with hd | hd
    · obtain ⟨hlt, hnot⟩ := h.apart d hd tok htok
      rw [hn, htoks, List.mem_append]
      refine ⟨by omega, fun hmem => hmem.elim hnot fun hmem => ?_⟩
      simp only [List.mem_cons, List.not_mem_nil, or_false] at hmem
      omega
    · rw [List.mem_singleton.1 hd] at htok
      exact absurd htok List.not_mem_nil

/-- Handling a datagram of a client keeps the pools in order. -/
theorem Ordered.put (h : srv.Ordered sockets) (hc : c ∈ srv.clientpool.clients) {st : State}
    (hptr : st.2.ptr = c.ptr) (hupkeep : Upkeep (srv.machine, c) st) :
    (srv.put st).Ordered sockets := by
  have hwatched : ∀ fd, ((srv.put st).machine.interest fd).isSome =
      (srv.machine.interest fd).isSome := hupkeep.watches.watched
  obtain ⟨hn, hfrees, hreserves⟩ := hupkeep.frugal
  obtain ⟨hkeeps, hapart⟩ := hreserves _ ⟨h.keeps, h.apart c hc⟩
  obtain ⟨pre, rest, hpool⟩ := List.append_of_mem hc
  have hclients : (srv.put st).clientpool.clients = pre ++ st.2 :: rest :=
    ClientPool.update_eq hpool hptr
  have hlive : (srv.put st).live sockets = srv.live sockets := by
    rw [live_split hclients, live_split hpool, listening_congr hwatched, hupkeep.entry]
  refine ⟨h.fds, h.pool.trans hlive.symm, hlive ▸ hkeeps, fun d hd => ?_, fun l hl hnone => ?_,
    fun fd hsome => h.watched fd (hwatched fd ▸ hsome)⟩
  · rw [hlive]
    rcases ClientPool.mem_update hd with rfl | ⟨hd, -⟩
    · exact hapart
    · exact (h.apart d hd).mono hn (List.Subset.refl _) (List.Subset.refl _)
  · refine List.Subset.trans (h.closed l hl ?_) hfrees
    rw [← Option.not_isSome_iff_eq_none, ← hwatched, hnone]
    exact Bool.false_ne_true

/-- Receiving a datagram keeps the pools in order. -/
theorem Ordered.receive (h : srv.Ordered sockets) {cfg : Config} {src : SockAddr} {data : Bytes}
    (hstep : Nbstftp.step cfg srv ⟨sys, .readable s (.datagram src data)⟩ = .ok srv') :
    srv'.Ordered sockets := by
  obtain ⟨srv₁, c, st, hfound, hturn, rfl⟩ := step_readable_ok hstep
  have h₁ : srv₁.Ordered sockets := by
    rcases findOrAllocateClient_eq sys srv hfound with ⟨-, rfl⟩ | ⟨-, -, rfl⟩
    · exact h
    · exact h.added sys s.fd src
  exact h₁.put (mem_of_findOrAllocateClient sys srv hfound) (turn_ptr hturn)
    (turn_upkeep sys srv₁.machine c hturn)

/-! ## Reports -/

/-- The socket of a descriptor that is watched is found, and is one to listen on. -/
theorem Ordered.findSocket (h : srv.Ordered sockets) {fd : Int}
    (hwatched : (srv.machine.interest fd).isSome) :
    ∃ s ∈ srv.findSocket fd, ∃ l ∈ sockets, s.entry = l.entry := by
  obtain ⟨l, hl, hfd⟩ := h.watched fd hwatched
  have hmem : l ∈ srv.listening sockets := mem_listening.2 ⟨hl, hfd ▸ hwatched⟩
  -- It is found among those listened on, which come first.
  have hsome : (((srv.listening sockets).map Socket.entry).find? (·.fd = fd)).isSome :=
    List.find?_isSome.2 ⟨l.entry, List.mem_map_of_mem hmem, decide_eq_true hfd⟩
  obtain ⟨e, he⟩ := Option.isSome_iff_exists.1 hsome
  obtain ⟨l', hl', rfl⟩ := List.mem_map.1 (List.mem_of_find?_eq_some he)
  have hpool : (srv.findSocket fd).map Socket.entry =
      (srv.socketpool.map Socket.entry).find? (·.fd = fd) := by
    rw [List.find?_map]
    rfl
  rw [h.pool, live, List.map_append, List.find?_append, he, Option.some_or] at hpool
  obtain ⟨s, hs, hentry⟩ := Option.map_eq_some_iff.1 hpool
  exact ⟨s, hs, l', (mem_listening.1 hl').1, hentry⟩

/-- A socket that is destroyed if flushing the queues fails. -/
theorem Ordered.writable (h : srv.Ordered sockets) {l : Socket} (hl : l ∈ sockets)
    (hs : s.entry = l.entry) {post : Except Crash Server}
    (hown : ServerStep.DestroysOwn sockets ⟨srv, ⟨sys, .writable s⟩, post⟩) :
    (destroyFailed s (srv.sendPackets sys s)).Ordered sockets := by
  obtain ⟨h', hwatched⟩ := h.sendPackets hown
  rw [destroyFailed]
  split
  · refine h'.destroySocket hl hs ?_
    rw [hwatched]
    exact (hown.again s rfl).imp_right fun hnot => sendPackets_forall (fun c n hc => hc)
      (fun c hc => hc) hnot s
  · exact h'

end Server

section

variable {cfg : Config} {sockets : List Socket} {srv srv' : Server} {r : Report}

/-- Dealing with a report keeps the pools in order, if no step of it destroys a socket for
    another one. -/
theorem report_ordered (h : srv.Ordered sockets ∧ srv.Unarmed)
    (hown : ∀ t ∈ Lib.trace (step cfg) srv (r.inputs srv), ServerStep.DestroysOwn sockets t)
    (hrun : Lib.run (step cfg) srv (r.inputs srv) = .ok srv') :
    srv'.Ordered sockets ∧ srv'.Unarmed := by
  refine report_rule (fun srv => srv.Ordered sockets ∧ srv.Unarmed)
    (fun s srv => (srv.Ordered sockets ∧ srv.Unarmed) ∧ ∃ l ∈ sockets, s.entry = l.entry)
    ?_ ?_ ?_ ?_ ?_ ?_ (fun _ _ h => h.1) h hown hrun
  · -- Every descriptor that is watched is that of a listening socket.
    intro srv ⟨h, _⟩ hwatched hnone _
    obtain ⟨s, hs, -⟩ := h.findSocket hwatched
    cases hnone.symm.trans hs
  · intro srv s ⟨h, hunarmed⟩ hwatched hsome
    obtain ⟨s', hs', hl⟩ := h.findSocket hwatched
    cases hsome.symm.trans hs'
    have hfrees : (srv.machine.callEvent .socketActivity).frees = srv.machine.frees :=
      (srv.machine.frees_emit _).trans (List.append_nil _)
    refine ⟨⟨h.step_watched (fun _ => rfl) h.pool (List.Sublist.refl _) (Nat.le_refl _)
      (fun tok htok => ?_) (fun tok htok => .inl ?_) fun d hd => ⟨d, hd, List.Subset.refl _⟩,
      hunarmed⟩, hl⟩
    · exact hfrees.symm ▸ htok
    · exact hfrees ▸ htok
  · intro srv s ⟨⟨h, hunarmed⟩, l, hl, hs⟩ hq
    exact ⟨h.destroySocket hl hs (hq.again s rfl), hunarmed⟩
  · intro srv s srv' ⟨⟨h, hunarmed⟩, l, hl, hs⟩ hstep hq
    have hunarmed' : srv'.Unarmed := step_unarmed hunarmed hstep
    cases hstep
    exact ⟨⟨h.writable hl hs hq, hunarmed'⟩, l, hl, hs⟩
  · intro srv s src data srv' ⟨⟨h, hunarmed⟩, _⟩ hstep
    exact ⟨h.receive hstep, step_unarmed hunarmed hstep⟩
  · intro srv s e ⟨⟨h, hunarmed⟩, l, hl, hs⟩ he hq
    exact ⟨h.destroySocket hl hs (hq.again s (if_neg he)), hunarmed⟩

end

/-! ## Started servers -/

/-- A server that only listens: all of its sockets, on different descriptors. -/
structure Server.Bound (srv : Server) : Prop where
  fds : (srv.socketpool.map Socket.fd).Nodup
  watched : ∀ fd, (srv.machine.interest fd).isSome ↔ fd ∈ srv.socketpool.map Socket.fd
  clients : srv.clientpool.clients = []
  keeps : srv.machine.Keeps (srv.socketpool.flatMap Socket.toks)

namespace Server

variable {srv : Server}

theorem bindToSocket_fds (srv : Server) (l : Listener) :
    (srv.bindToSocket l).socketpool.map Socket.fd = srv.socketpool.map Socket.fd ++ [l.fd] :=
  List.map_append

theorem bindToSocket_watched {fds : List Int}
    (h : ∀ fd, (srv.machine.interest fd).isSome ↔ fd ∈ fds) (l : Listener) (fd : Int) :
    ((srv.bindToSocket l).machine.interest fd).isSome ↔ fd ∈ fds ++ [l.fd] := by
  have hinterest : (srv.bindToSocket l).machine.interest fd =
      if fd = l.fd then some SF_READABLE else srv.machine.interest fd :=
    Function.update_apply _ _ _ _
  rw [hinterest, List.mem_append, List.mem_singleton, ← h]
  by_cases heq : fd = l.fd <;> simp [heq]

theorem bindToSocket_keeps (h : srv.machine.Keeps (srv.socketpool.flatMap Socket.toks))
    (l : Listener) :
    (srv.bindToSocket l).machine.Keeps ((srv.bindToSocket l).socketpool.flatMap Socket.toks) := by
  have htoks : (srv.bindToSocket l).socketpool.flatMap Socket.toks =
      srv.socketpool.flatMap Socket.toks ++ [srv.machine.nexttok, srv.machine.nexttok + 1] :=
    List.flatMap_append
  rw [htoks]
  exact keeps_alloc h rfl rfl

theorem Bound.bindToSocket (h : srv.Bound) {l : Listener}
    (hfd : l.fd ∉ srv.socketpool.map Socket.fd) : (srv.bindToSocket l).Bound where
  fds := by
    rw [bindToSocket_fds, ← List.concat_eq_append]
    exact h.fds.concat hfd
  watched fd := bindToSocket_fds srv l ▸ bindToSocket_watched h.watched l fd
  clients := h.clients
  keeps := bindToSocket_keeps h.keeps l

/-- Its pools are in order. -/
theorem Bound.ordered (h : srv.Bound) : srv.Ordered srv.socketpool := by
  have hlistening : srv.listening srv.socketpool = srv.socketpool :=
    List.filter_eq_self.2 fun l hl => (h.watched l.fd).2 (List.mem_map_of_mem hl)
  have hlive : srv.live srv.socketpool = srv.socketpool.map Socket.entry := by
    rw [live, hlistening, h.clients, List.map_nil, List.append_nil]
  have htoks : (srv.live srv.socketpool).flatMap Socket.toks =
      srv.socketpool.flatMap Socket.toks := by
    rw [hlive, List.flatMap_map]
    rfl
  refine ⟨h.fds, hlive.symm, htoks ▸ h.keeps, fun c hc => ?_, fun l hl hnone => ?_,
    fun fd hsome => List.mem_map.1 ((h.watched fd).1 hsome)⟩
  · rw [h.clients] at hc
    exact absurd hc List.not_mem_nil
  · have hsome := (h.watched l.fd).2 (List.mem_map_of_mem hl)
    rw [hnone] at hsome
    cases hsome

end Server

theorem initializeSockets_bound (files : Bytes → Bytes) (ls : Listeners) :
    (initializeSockets files ls).Bound := by
  have hfold : ∀ (blocks : List Listener) (srv : Server), srv.Bound →
      (srv.socketpool.map Socket.fd ++ blocks.map Listener.fd).Nodup →
      (blocks.foldl Server.bindToSocket srv).Bound := by
    intro blocks
    induction blocks with
    | nil => exact fun srv h _ => h
    | cons l blocks ih =>
      intro srv h hnodup
      refine ih _ (h.bindToSocket fun hmem => ?_) ?_
      · exact (List.nodup_append.1 hnodup).2.2 _ hmem _ List.mem_cons_self rfl
      · rwa [Server.bindToSocket_fds, List.append_assoc]
  refine hfold ls.blocks _ ⟨List.nodup_nil, fun fd => ?_, rfl, ?_⟩ ls.nodup
  · exact ⟨nofun, fun h => absurd h List.not_mem_nil⟩
  · exact ⟨List.nodup_nil, nofun, nofun⟩

/-- In every run of the main loop from its start, in which no socket is destroyed for
    another one, the pool of sockets holds those listened on and one for each client. -/
theorem paired {cfg : Config} {files : Bytes → Bytes} {ls : Listeners} {its : List Iteration}
    {srv : Server} (hrun : Lib.run (iterate cfg) (initializeSockets files ls) its = .ok srv)
    (hown : ∀ t ∈ loopSteps cfg (initializeSockets files ls) its,
      t.DestroysOwn (initializeSockets files ls).socketpool) :
    srv.Paired (initializeSockets files ls).socketpool := by
  have hbound := initializeSockets_bound files ls
  refine (loop_rule (fun srv => srv.Ordered (initializeSockets files ls).socketpool ∧ srv.Unarmed)
    (fun sys srv h => ?_) (fun r srv srv' => report_ordered) ⟨hbound.ordered, fun c hc => ?_⟩ hown
    hrun).1.toPaired
  · rwa [Server.checkClients_unarmed h.2]
  · rw [hbound.clients] at hc
    exact absurd hc List.not_mem_nil

instance (sockets : List Socket) (t : ServerStep) : Decidable (t.DestroysOwn sockets) :=
  decidable_of_iff
    ((t.pre.clientpool.clients.Pairwise fun d c => c ∈ t.removed → d ∉ t.removed → ¬d.s.Alike c.s) ∧
      (∀ c ∈ t.removed, ∀ l ∈ t.pre.listening sockets, ¬l.Alike c.s) ∧
      ∀ s ∈ t.input.destroyed, (t.pre.machine.interest s.fd).isSome ∨
        ∀ c ∈ t.pre.clientpool.clients, ¬c.s.Alike s)
    ⟨fun h => ⟨h.1, h.2.1, h.2.2⟩, fun h => ⟨h.clients, h.listening, h.again⟩⟩

namespace Sample

/-- The text of an IPv4 address. -/
def dotted (addr : Bytes) : Bytes :=
  (ascii ".").intercalate (addr.map fun b => decimal b.toNat)

/-- One descriptor, for all addresses. -/
def listeners : Listeners := ⟨[⟨3, .inet 69 0, ascii "0.0.0.0"⟩], List.nodup_singleton _⟩

/-- A server that listens on it, on a directory with a file. -/
def listens : Server := initializeSockets (fun p => if p = path then [1] else []) listeners

/-- A report, on the system that formats addresses. -/
def formatting (r : Report) : Report := { r with sys := { r.sys with inetNtop := dotted } }

/-- A client that reads a file, and another one whose transfer fails and which is removed. -/
def failing (port port' : UInt16) : List Iteration :=
  [iteration [formatting (arrives port (request .rrq [])),
      formatting (arrives port' (htons Opcode.error.code ++ [0, 0]))],
    iteration [formatting drains]]

/-- The server after that. -/
def failed (port port' : UInt16) : Server :=
  (Lib.run (iterate config) listens (failing port port')).toOption.getD listens

theorem run_failing {port port' : UInt16}
    (h : (Lib.run (iterate config) listens (failing port port')).isOk = true) :
    Lib.run (iterate config) listens (failing port port') = .ok (failed port port') :=
  Lib.eq_ok_of_isOk h listens

end Sample

theorem paired_sample : (Sample.failed 40000 40001).Paired Sample.listens.socketpool :=
  paired (Sample.run_failing (by decide +kernel)) (by decide +kernel)

/-- Of two clients of port 32768, the second one is removed, and the socket of the first
    one taken out. -/
theorem not_paired :
    ¬∀ cfg files ls its srv, Lib.run (iterate cfg) (initializeSockets files ls) its = .ok srv →
      srv.Paired (initializeSockets files ls).socketpool := by
  intro h
  have hpaired := h Sample.config _ Sample.listeners (Sample.failing 32768 32768) _
    (Sample.run_failing (by decide +kernel))
  exact absurd hpaired.unreleased (by decide +kernel)

end Nbstftp
