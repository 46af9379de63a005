import Nbstftp.Sockets

/-!
# Starting to listen

`InitializeSockets` tries the `listen` blocks one after the other. For each of them
`BindToSocket` makes a few system calls, any of which may fail, and the next block is tried
then. The server that `initializeSockets` starts is meant to come of those blocks for which
every call succeeds.

But `AddSocket` looks at `errno` to see whether there was memory for the pool, and calls
that succeed leave `errno` as it was. It is what the last failure left, once that was reported:
`perror` and `printf` may change it, to anything. As long as it is `ENOMEM`, sockets are taken
out of the pool again as soon as they are added, with their descriptors open, bound and watched
(`kept`). The server that is started is one that only listens (`Server.Bound`) if and only if
this happens to no block (`Startup.bound_iff_errno`).
-/

namespace Nbstftp

/-! ## The blocks -/

/-- What the system calls for a `listen` block give. -/
structure BindSys where
  inetPton : Option SockAddr
  socket : Except Errno Int
  /-- `fcntl`, for `F_GETFL` and then for `F_SETFL`. -/
  getfl : Option Errno
  setfl : Option Errno
  bind : Option Errno
  epollCtl : Option Errno

/-- A block: the text of its address, what becomes of the calls, and what `errno` is once it was
    reported that the block failed, and the first line about the next one was printed. -/
structure Attempt where
  bindaddr : Bytes
  sys : BindSys
  reported : Option Errno

/-- The server as it starts. -/
structure Startup where
  srv : Server
  errno : Option Errno
  /-- The descriptors that are open. -/
  fds : List Int
  bound : Bool

namespace Startup

/-- A call fails. -/
def fail (s : Startup) (e : Errno) : Startup := { s with errno := some e }

def close (s : Startup) (fd : Int) : Startup :=
  { s with
    srv := { s.srv with machine := s.srv.machine.emit (.close fd) }
    fds := s.fds.erase fd }

/-- `AddSocket`, for a descriptor to listen on. -/
def addSocket (s : Startup) (fd : Int) (addr : Bytes) (saddr : SockAddr)
    (epollCtl : Option Errno) : Startup × Int :=
  let bindaddr := s.srv.machine.nmalloc addr
  let packet := bindaddr.1.nmalloc (List.replicate pktlen 0)
  match epollCtl with
  | some e =>
    -- The two blocks are lost.
    let s := { s with srv := { s.srv with machine := packet.1 } }
    ((s.fail e).close fd, -1)
  | none =>
    let sock : Socket := ⟨fd, SF_READABLE, saddr, bindaddr.2, packet.2.tok, pktlen⟩
    let srv := { s.srv with
      machine := { packet.1 with
        interest := Function.update packet.1.interest fd (some SF_READABLE) }
      socketpool := s.srv.socketpool ++ [sock] }
    if s.errno = some .nomem then ({ s with srv := srv.destroySocket sock false }, -1)
    else ({ s with srv := srv }, 0)

/-- `BindToSocket`. -/
def bindToSocket (s : Startup) (addr : Bytes) (sys : BindSys) : Startup × Int :=
  match sys.inetPton with
  | none => (s, -1)
  | some saddr =>
    match sys.socket with
    | .error e => (s.fail e, -1)
    | .ok fd =>
      -- Nobody asks whether `F_GETFL` failed.
      let s := { s with fds := s.fds ++ [fd], errno := sys.getfl.or s.errno }
      match sys.setfl.or sys.bind with
      | some e => ((s.fail e).close fd, -1)
      | none => s.addSocket fd addr saddr sys.epollCtl

/-- The body of the loop over the blocks. What is printed about a block that succeeds leaves
    `errno` as it was. -/
def step (s : Startup) (a : Attempt) : Except Empty Startup :=
  let r := s.bindToSocket a.bindaddr a.sys
  .ok (if r.2 = -1 then { r.1 with errno := a.reported } else { r.1 with bound := true })

/-- `InitializeMultiplexer`, with the outcomes of `epoll_create` and of the allocation. -/
def initializeMultiplexer (errno create : Option Errno) (nomem : Bool) : Option Errno × Int :=
  match create with
  | some e => (some e, -1)
  | none =>
    let errno := if nomem then some .nomem else errno
    (errno, if errno = some .nomem then -1 else 0)

/-- Nothing is listened on yet. -/
def start (files : Bytes → Bytes) (errno : Option Errno) : Startup :=
  ⟨.boot (.boot files fun _ => none) [], errno, [], false⟩

/-- `InitializeSockets`, for some blocks. -/
def initializeSockets (files : Bytes → Bytes) (errno create : Option Errno) (nomem : Bool)
    (as : List Attempt) : Except Empty (Startup × Int) :=
  let mux := initializeMultiplexer errno create nomem
  let s := start files mux.1
  if mux.2 = -1 ∨ s.errno = some .nomem then .ok (s, -1)
  else (Lib.run step s as).map fun s => (s, if s.bound then 0 else -1)

end Startup

/-! ## What is meant -/

/-- The descriptor a block gets to listen on, if every call succeeds. -/
def Attempt.listener (a : Attempt) : Option Listener :=
  match a.sys.inetPton, a.sys.socket, a.sys.setfl.or (a.sys.bind.or a.sys.epollCtl) with
  | some saddr, .ok fd, none => some ⟨fd, saddr, a.bindaddr⟩
  | _, _, _ => none

/-- What `AddSocket` finds in `errno`, if every call succeeds but what nobody looks at. -/
def Attempt.seen (e : Option Errno) (a : Attempt) : Option Errno := a.sys.getfl.or e

/-- The socket that stays in the pool. -/
def Attempt.kept (e : Option Errno) (a : Attempt) : Option Listener :=
  if a.seen e = some .nomem then none else a.listener

/-- What `errno` is for the next block. -/
def Attempt.errno (e : Option Errno) (a : Attempt) : Option Errno :=
  if (a.kept e).isSome then a.seen e else a.reported

/-- The sockets that stay in the pool, block after block. -/
def kept : Option Errno → List Attempt → List Listener
  | _, [] => []
  | e, a :: as => (a.kept e).toList ++ kept (a.errno e) as

/-- A socket of the pool, as it was to be listened on. -/
def Socket.listener (s : Socket) : Listener := ⟨s.fd, s.addr, s.bindaddr.bytes⟩

/-- `socket` gives no descriptor that is open. -/
def Startup.GivesNew (t : Lib.Transition Startup Attempt Empty) : Prop :=
  ∀ fd ∈ t.input.sys.socket.toOption, fd ∉ t.pre.fds

instance (t : Lib.Transition Startup Attempt Empty) : Decidable (Startup.GivesNew t) :=
  inferInstanceAs (Decidable (∀ _ ∈ _, _))

section

variable {a : Attempt} {as : List Attempt} {e : Option Errno} {l : Listener}

theorem Attempt.kept_of_none (h : a.listener = none) : a.kept e = none := by
  rw [kept, h, ite_self]

theorem Attempt.errno_of_none (h : a.kept e = none) : a.errno e = a.reported := by
  rw [errno, h]
  rfl

theorem Attempt.errno_of_some (h : a.kept e = some l) : a.errno e = a.seen e := by
  rw [errno, h]
  rfl

theorem kept_sublist : (kept e as).Sublist (as.filterMap Attempt.listener) := by
  induction as generalizing e with
  | nil => exact List.Sublist.refl _
  | cons a as ih =>
    rw [kept, Attempt.kept, List.filterMap_cons]
    cases a.listener with
    | none =>
      rw [ite_self]
      exact ih
    | some l =>
      split
      · exact ih.cons l
      · exact ih.cons_cons l

/-- Everything stays if and only if `errno` is not `ENOMEM` whenever every call succeeds for a
    block. -/
theorem kept_eq_iff : kept e as = as.filterMap Attempt.listener ↔
    ∀ past a future, as = past ++ a :: future → a.listener.isSome = true →
      a.seen (past.foldl Attempt.errno e) ≠ some .nomem := by
  induction as generalizing e with
  | nil => exact iff_of_true rfl fun past a future h => absurd h (by simp)
  | cons a as ih =>
    -- The first block, and the others.
    have hsplit : (∀ past b future, a :: as = past ++ b :: future → b.listener.isSome = true →
        b.seen (past.foldl Attempt.errno e) ≠ some .nomem) ↔
        (a.listener.isSome = true → a.seen e ≠ some .nomem) ∧
          ∀ past b future, as = past ++ b :: future → b.listener.isSome = true →
            b.seen (past.foldl Attempt.errno (a.errno e)) ≠ some .nomem := by
      constructor
      · refine fun h => ⟨h [] a as rfl, fun past b future heq => ?_⟩
        exact h (a :: past) b future (congrArg (a :: ·) heq)
      · rintro ⟨hfirst, hrest⟩ past b future heq
        cases past with
        | nil =>
          cases heq
          exact hfirst
        | cons c past =>
          cases heq
          exact hrest past b future rfl
    rw [hsplit, ← ih, kept, List.filterMap_cons, Attempt.kept]
    cases a.listener with
    | none => simp
    | some l =>
      by_cases hnomem : a.seen e = some .nomem
      · refine iff_of_false (fun heq => ?_) fun h => h.1 rfl hnomem
        have hle : (kept (a.errno e) as).length ≤ (as.filterMap Attempt.listener).length :=
          kept_sublist.length_le
        have hlength := congrArg List.length heq
        rw [if_pos hnomem] at hlength
        simp only [Option.toList_none, List.nil_append, List.length_cons] at hlength
        omega
      · simp [hnomem]

end

/-! ## What a block does -/

/-- All open descriptors are watched, those of the pool among them. -/
structure Startup.Holds (s : Startup) : Prop where
  nodup : s.fds.Nodup
  watched : ∀ fd, (s.srv.machine.interest fd).isSome ↔ fd ∈ s.fds
  pool : (s.srv.socketpool.map Socket.fd).Sublist s.fds
  clients : s.srv.clientpool.clients = []
  keeps : s.srv.machine.Keeps (s.srv.socketpool.flatMap Socket.toks)

/-- A block opens a descriptor if every call succeeds, and adds a socket if that is to stay. -/
structure Startup.Takes (s : Startup) (a : Attempt) (s' : Startup) : Prop where
  holds : s'.Holds
  errno : s'.errno = a.errno s.errno
  fds : s'.fds = s.fds ++ a.listener.toList.map Listener.fd
  pool : s'.srv.socketpool.map Socket.listener =
    s.srv.socketpool.map Socket.listener ++ (a.kept s.errno).toList
  bound : s'.bound = (s.bound || (a.kept s.errno).isSome)

namespace Startup

variable {a : Attempt} {as : List Attempt} {s s' : Startup} {l : Listener} {fd : Int}

/-- A call fails, and what was opened is closed. -/
theorem Holds.failed (h : s.Holds) (hlistener : a.listener = none)
    (hinterest : s'.srv.machine.interest = s.srv.machine.interest)
    (hpool : s'.srv.socketpool = s.srv.socketpool)
    (hclients : s'.srv.clientpool = s.srv.clientpool)
    (hn : s.srv.machine.nexttok ≤ s'.srv.machine.nexttok)
    (hfrees : s'.srv.machine.frees = s.srv.machine.frees) (hfds : s'.fds = s.fds)
    (herrno : s'.errno = a.reported) (hbound : s'.bound = s.bound) : s.Takes a s' where
  holds :=
    { nodup := hfds ▸ h.nodup
      watched := fun fd => by rw [hinterest, hfds]; exact h.watched fd
      pool := by rw [hpool, hfds]; exact h.pool
      clients := by rw [hclients]; exact h.clients
      keeps := by
        rw [hpool]
        exact h.keeps.release (List.Sublist.refl _) hn fun tok htok => .inl (hfrees ▸ htok) }
  errno := herrno.trans (Attempt.errno_of_none (Attempt.kept_of_none hlistener)).symm
  fds := by rw [hfds, hlistener, Option.toList_none, List.map_nil, List.append_nil]
  pool := by
    rw [hpool, Attempt.kept_of_none hlistener, Option.toList_none, List.append_nil]
  bound := by rw [hbound, Attempt.kept_of_none hlistener, Option.isSome_none, Bool.or_false]

/-- A new descriptor is closed again. -/
theorem Holds.erase (h : fd ∉ s.fds) : (s.fds ++ [fd]).erase fd = s.fds := by
  rw [List.erase_append_right _ h, List.erase_cons_head, List.append_nil]

/-- The server listens on a new descriptor. -/
theorem Holds.listens (h : s.Holds) (hfd : l.fd ∉ s.fds) (hfds : s'.fds = s.fds ++ [l.fd])
    (hsrv : s'.srv = s.srv.bindToSocket l) : s'.Holds where
  nodup := by
    rw [hfds, ← List.concat_eq_append]
    exact h.nodup.concat hfd
  watched fd := by
    rw [hsrv, hfds]
    exact Server.bindToSocket_watched h.watched l fd
  pool := by
    rw [hsrv, hfds, Server.bindToSocket_fds]
    exact h.pool.append (List.Sublist.refl _)
  clients := by
    rw [hsrv]
    exact h.clients
  keeps := by
    rw [hsrv]
    exact Server.bindToSocket_keeps h.keeps l

/-- The socket that `AddSocket` adds. -/
def newSocket (s : Startup) (l : Listener) : Socket :=
  ⟨l.fd, SF_READABLE, l.addr, ⟨s.srv.machine.nexttok, l.bindaddr⟩, s.srv.machine.nexttok + 1,
    pktlen⟩

/-- The server after its socket is taken out of the pool again. -/
def stranded (s : Startup) (l : Listener) : Server :=
  (s.srv.bindToSocket l).destroySocket (s.newSocket l) false

theorem addSocket_none (s : Startup) (l : Listener) :
    s.addSocket l.fd l.bindaddr l.addr none =
      if s.errno = some .nomem then ({ s with srv := s.stranded l }, -1)
      else ({ s with srv := s.srv.bindToSocket l }, 0) :=
  rfl

/-- The one socket that is taken out of the pool is the new one. -/
theorem Holds.stranded_socketpool (h : s.Holds) (hfd : l.fd ∉ s.fds) :
    (s.stranded l).socketpool = s.srv.socketpool := by
  have hothers : ∀ t ∈ s.srv.socketpool, ¬decide (t.fd = (s.newSocket l).fd ∧
      t.bindaddr.bytes = (s.newSocket l).bindaddr.bytes) = true := by
    intro t ht halike
    have hmem := h.pool.subset (List.mem_map_of_mem ht)
    rw [(of_decide_eq_true halike).1] at hmem
    exact hfd hmem
  have hnew : [s.newSocket l].eraseP (fun t => decide (t.fd = (s.newSocket l).fd ∧
      t.bindaddr.bytes = (s.newSocket l).bindaddr.bytes)) = [] :=
    List.eraseP_cons_of_pos (decide_eq_true ⟨rfl, rfl⟩)
  refine (List.eraseP_append_right _ hothers).trans ?_
  exact (congrArg (s.srv.socketpool ++ ·) hnew).trans (List.append_nil _)

/-- The server gives up a new descriptor, but watches it. -/
theorem Holds.strands (h : s.Holds) (hfd : l.fd ∉ s.fds) (hfds : s'.fds = s.fds ++ [l.fd])
    (hsrv : s'.srv = s.stranded l) : s'.Holds := by
  have hlistens : Holds { s with srv := s.srv.bindToSocket l, fds := s.fds ++ [l.fd] } :=
    h.listens hfd rfl rfl
  have hpool := h.stranded_socketpool hfd
  refine ⟨hfds ▸ hlistens.nodup, fun fd => ?_, ?_, ?_, ?_⟩
  · rw [hsrv, hfds]
    exact hlistens.watched fd
  · rw [hsrv, hpool, hfds]
    exact h.pool.trans (List.sublist_append_left _ _)
  · rw [hsrv]
    exact h.clients
  · -- What is released was allocated just now.
    have halloc : (s.srv.bindToSocket l).machine.Keeps (s.srv.socketpool.flatMap Socket.toks ++
        [s.srv.machine.nexttok, s.srv.machine.nexttok + 1]) :=
      Server.keeps_alloc h.keeps rfl rfl
    rw [hsrv, hpool]
    refine halloc.release (List.sublist_append_left _ _) (Nat.le_refl _) fun tok htok => ?_
    rw [stranded, Server.destroySocket_frees] at htok
    rcases List.mem_append.1 htok with htok | htok
    · exact .inl htok
    · have hle : s.srv.machine.nexttok ≤ tok ∧ tok < s.srv.machine.nexttok + 2 := by
        simp only [Socket.toks, newSocket, List.mem_cons, List.not_mem_nil, or_false] at htok
        omega
      exact .inr ⟨hle.2, fun hmem => absurd (h.keeps.allocated tok hmem) (Nat.not_lt.2 hle.1)⟩

theorem step_failed {s₁ : Startup} (h : s.bindToSocket a.bindaddr a.sys = (s₁, -1)) :
    s.step a = .ok { s₁ with errno := a.reported } := by
  rw [step, h]
  rfl

theorem step_bound {s₁ : Startup} (h : s.bindToSocket a.bindaddr a.sys = (s₁, 0)) :
    s.step a = .ok { s₁ with bound := true } := by
  rw [step, h]
  rfl

/-- Every call succeeds: whether the socket stays is up to those before. -/
theorem Holds.succeeds (h : s.Holds) (hlistener : a.listener = some l)
    (hbind : s.bindToSocket a.bindaddr a.sys =
      addSocket ⟨s.srv, a.seen s.errno, s.fds ++ [l.fd], s.bound⟩ l.fd l.bindaddr l.addr none)
    (hfd : l.fd ∉ s.fds) : ∃ s', s.step a = .ok s' ∧ s.Takes a s' := by
  rw [addSocket_none] at hbind
  by_cases hnomem : a.seen s.errno = some .nomem
  · rw [if_pos hnomem] at hbind
    have hkept : a.kept s.errno = none := by rw [Attempt.kept, if_pos hnomem]
    refine ⟨_, step_failed hbind, h.strands hfd rfl rfl, (Attempt.errno_of_none hkept).symm,
      ?_, ?_, ?_⟩
    · rw [hlistener]
      rfl
    · rw [hkept, Option.toList_none, List.append_nil]
      exact congrArg (List.map Socket.listener) (h.stranded_socketpool hfd)
    · rw [hkept, Option.isSome_none, Bool.or_false]
  · rw [if_neg hnomem] at hbind
    have hkept : a.kept s.errno = some l := by
      rw [Attempt.kept, if_neg hnomem, hlistener]
    refine ⟨_, step_bound hbind, h.listens hfd rfl rfl, (Attempt.errno_of_some hkept).symm,
      ?_, ?_, ?_⟩
    · rw [hlistener]
      rfl
    · rw [hkept]
      exact List.map_append
    · rw [hkept, Option.isSome_some, Bool.or_true]

theorem Holds.step (h : s.Holds) (hnew : ∀ fd ∈ a.sys.socket.toOption, fd ∉ s.fds) :
    ∃ s', s.step a = .ok s' ∧ s.Takes a s' := by
  obtain ⟨bindaddr, ⟨inetPton, socket, getfl, setfl, bind, epollCtl⟩, reported⟩ := a
  cases inetPton with
  | none => exact ⟨_, step_failed rfl, h.failed rfl rfl rfl rfl (Nat.le_refl _) rfl rfl rfl rfl⟩
  | some saddr =>
    cases socket with
    | error e =>
      exact ⟨_, step_failed rfl, h.failed rfl rfl rfl rfl (Nat.le_refl _) rfl rfl rfl rfl⟩
    | ok fd =>
      have hfd := hnew fd rfl
      have hclose : ∀ m : Machine, (m.emit (.close fd)).frees = m.frees := fun m =>
        (m.frees_emit _).trans (List.append_nil _)
      cases setfl with
      | some e =>
        exact ⟨_, step_failed rfl, h.failed rfl rfl rfl rfl (Nat.le_refl _) (hclose _)
          (Holds.erase hfd) rfl rfl⟩
      | none =>
        cases bind with
        | some e =>
          exact ⟨_, step_failed rfl, h.failed rfl rfl rfl rfl (Nat.le_refl _) (hclose _)
            (Holds.erase hfd) rfl rfl⟩
        | none =>
          cases epollCtl with
          | some e =>
            exact ⟨_, step_failed rfl, h.failed rfl rfl rfl rfl (Nat.le_add_right _ 2) (hclose _)
              (Holds.erase hfd) rfl rfl⟩
          | none => exact h.succeeds (l := ⟨fd, saddr, bindaddr⟩) rfl rfl hfd

/-- What the blocks do, one after the other. -/
theorem Holds.run (h : s.Holds) (hnew : ∀ t ∈ Lib.trace Startup.step s as, GivesNew t) :
    ∃ s', Lib.run Startup.step s as = .ok s' ∧ s'.Holds ∧
      s'.fds = s.fds ++ (as.filterMap Attempt.listener).map Listener.fd ∧
      s'.srv.socketpool.map Socket.listener =
        s.srv.socketpool.map Socket.listener ++ kept s.errno as ∧
      s'.bound = (s.bound || !(kept s.errno as).isEmpty) := by
  induction as generalizing s with
  | nil => exact ⟨s, rfl, h, (List.append_nil _).symm, (List.append_nil _).symm, by simp [kept]⟩
  | cons a as ih =>
    obtain ⟨s₁, hstep, htakes⟩ := h.step (hnew ⟨s, a, s.step a⟩ List.mem_cons_self)
    rw [Lib.trace_cons_ok hstep, List.forall_mem_cons] at hnew
    obtain ⟨s', hrun, hs', hfds, hpool, hbound⟩ := ih htakes.holds hnew.2
    refine ⟨s', (Lib.run_cons_ok hstep).trans hrun, hs', ?_, ?_, ?_⟩
    · rw [hfds, htakes.fds, List.append_assoc, ← List.map_append, List.filterMap_cons]
      cases a.listener <;> rfl
    · rw [hpool, htakes.pool, htakes.errno, kept, List.append_assoc]
    · rw [hbound, htakes.bound, htakes.errno, kept]
      cases a.kept s.errno <;> simp

theorem start_holds (files : Bytes → Bytes) (errno : Option Errno) : (start files errno).Holds where
  nodup := List.nodup_nil
  watched _ := ⟨fun h => absurd h Bool.false_ne_true, fun h => absurd h List.not_mem_nil⟩
  pool := List.Sublist.refl _
  clients := rfl
  keeps := ⟨List.nodup_nil, fun _ h => absurd h List.not_mem_nil,
    fun _ h => absurd h List.not_mem_nil⟩

/-- The server only listens if and only if it listens on all descriptors that are open. -/
theorem Holds.bound_iff (h : s.Holds) :
    s.srv.Bound ↔ s.srv.socketpool.map Socket.fd = s.fds := by
  constructor
  · intro hbound
    refine h.pool.eq_of_length_le (List.Nodup.length_le_of_subset h.nodup fun fd hfd => ?_)
    exact (hbound.watched fd).1 ((h.watched fd).2 hfd)
  · intro hfds
    exact ⟨hfds ▸ h.nodup, fun fd => hfds ▸ h.watched fd, h.clients, h.keeps⟩

theorem socketpool_fds (srv : Server) :
    srv.socketpool.map Socket.fd = (srv.socketpool.map Socket.listener).map Listener.fd := by
  rw [List.map_map]
  rfl

/-- The sockets of a server that is started on some descriptors. -/
theorem initializeSockets_listeners (files : Bytes → Bytes) (ls : Listeners) :
    (Nbstftp.initializeSockets files ls).socketpool.map Socket.listener = ls.blocks := by
  have hfold : ∀ (blocks : List Listener) (srv : Server),
      (blocks.foldl Server.bindToSocket srv).socketpool.map Socket.listener =
        srv.socketpool.map Socket.listener ++ blocks := by
    intro blocks
    induction blocks with
    | nil => exact fun srv => (List.append_nil _).symm
    | cons l blocks ih =>
      intro srv
      have hpool : (srv.bindToSocket l).socketpool.map Socket.listener =
          srv.socketpool.map Socket.listener ++ [l] := List.map_append
      rw [List.foldl_cons, ih, hpool, List.append_assoc]
      rfl
  exact hfold ls.blocks _

/-- When the multiplexer is not there; an error of before is taken for one of its own. -/
theorem initializeMultiplexer_failed {errno create : Option Errno} {nomem : Bool} :
    (initializeMultiplexer errno create nomem).2 = -1 ↔
      ¬(create = none ∧ nomem = false ∧ errno ≠ some .nomem) := by
  cases create with
  | some e => simp [initializeMultiplexer]
  | none => cases nomem <;> simp [initializeMultiplexer]

/-! ## All blocks -/

section

variable {files : Bytes → Bytes} {errno create : Option Errno} {nomem : Bool} {as : List Attempt}
  {s : Startup} {r : Int}

theorem initializeSockets_ok (herrno : errno ≠ some .nomem) :
    initializeSockets files errno none false as =
      (Lib.run step (start files errno) as).map fun s => (s, if s.bound then 0 else -1) :=
  if_neg (not_or.2 ⟨fun h => initializeMultiplexer_failed.1 h ⟨rfl, rfl, herrno⟩, herrno⟩)

/-- What `InitializeSockets` returns, and what it leaves. -/
theorem initializeSockets_spec
    (hnew : ∀ t ∈ Lib.trace step (start files errno) as, GivesNew t)
    (hrun : initializeSockets files errno create nomem as = .ok (s, r)) :
    (r = 0 ↔ (create = none ∧ nomem = false ∧ errno ≠ some .nomem) ∧ kept errno as ≠ []) ∧
      (r = 0 → s.Holds ∧ s.fds = (as.filterMap Attempt.listener).map Listener.fd ∧
        s.srv.socketpool.map Socket.listener = kept errno as) := by
  by_cases hmux : create = none ∧ nomem = false ∧ errno ≠ some .nomem
  · obtain ⟨rfl, rfl, herrno⟩ := hmux
    obtain ⟨s', hblocks, hs', hfds, hpool, hbound⟩ := (start_holds files errno).run hnew
    have hbound : s'.bound = !(kept errno as).isEmpty := hbound
    rw [initializeSockets_ok herrno, hblocks] at hrun
    cases hrun
    refine ⟨?_, fun _ => ⟨hs', hfds, hpool⟩⟩
    rw [hbound]
    cases kept errno as <;> simp [herrno]
  · have hfailed : initializeSockets files errno create nomem as =
        .ok (start files (initializeMultiplexer errno create nomem).1, -1) :=
      if_pos (.inl (initializeMultiplexer_failed.2 hmux))
    rw [hfailed] at hrun
    cases hrun
    exact ⟨iff_of_false (by decide) fun h => hmux h.1, fun h => absurd h (by decide)⟩

/-- Whatever the system calls for the multiplexer and for the blocks give, and whatever reporting
    a failure leaves in `errno`: `InitializeSockets` succeeds if and only if the multiplexer is
    there, `errno` was clear of `ENOMEM`, and for some block every call succeeds while `errno` is
    clear of it. The pool holds the sockets of these blocks; all blocks for which every call
    succeeds have theirs watched. -/
theorem returns_iff (hnew : ∀ t ∈ Lib.trace step (start files errno) as, GivesNew t)
    (hrun : initializeSockets files errno create nomem as = .ok (s, r)) :
    (r = 0 ↔ (create = none ∧ nomem = false ∧ errno ≠ some .nomem) ∧ kept errno as ≠ []) ∧
      (r = 0 → s.srv.socketpool.map Socket.listener = kept errno as ∧
        ∀ fd, (s.srv.machine.interest fd).isSome ↔
          ∃ l ∈ as.filterMap Attempt.listener, l.fd = fd) := by
  obtain ⟨hr, hleaves⟩ := initializeSockets_spec hnew hrun
  refine ⟨hr, fun hzero => ?_⟩
  obtain ⟨hs, hfds, hpool⟩ := hleaves hzero
  exact ⟨hpool, fun fd => by rw [hs.watched, hfds, List.mem_map]⟩

/-- A server that started is one that only listens if and only if `errno` was clear of `ENOMEM`
    whenever every call succeeded for a block. -/
theorem bound_iff_errno (hnew : ∀ t ∈ Lib.trace step (start files errno) as, GivesNew t)
    (hrun : initializeSockets files errno create nomem as = .ok (s, 0)) :
    s.srv.Bound ↔ ∀ past a future, as = past ++ a :: future → a.listener.isSome = true →
      a.seen (past.foldl Attempt.errno errno) ≠ some .nomem := by
  obtain ⟨hs, hfds, hpool⟩ := (initializeSockets_spec hnew hrun).2 rfl
  rw [hs.bound_iff, socketpool_fds, hpool, hfds, ← kept_eq_iff]
  constructor
  · intro hmap
    have hlength := congrArg List.length hmap
    rw [List.length_map, List.length_map] at hlength
    exact kept_sublist.eq_of_length hlength
  · exact fun hkept => congrArg (List.map Listener.fd) hkept

/-- And then it listens as if there had been no other blocks. -/
theorem listens_as (hnew : ∀ t ∈ Lib.trace step (start files errno) as, GivesNew t)
    (hrun : initializeSockets files errno create nomem as = .ok (s, 0)) (hbound : s.srv.Bound) :
    ∃ ls : Listeners, ls.blocks = as.filterMap Attempt.listener ∧
      s.srv.socketpool.map Socket.listener =
        (Nbstftp.initializeSockets files ls).socketpool.map Socket.listener ∧
      ∀ fd, (s.srv.machine.interest fd).isSome ↔
        ((Nbstftp.initializeSockets files ls).machine.interest fd).isSome := by
  obtain ⟨hs, hfds, hpool⟩ := (initializeSockets_spec hnew hrun).2 rfl
  let ls : Listeners := ⟨as.filterMap Attempt.listener, hfds ▸ hs.nodup⟩
  have hkept := kept_eq_iff.2 ((bound_iff_errno hnew hrun).1 hbound)
  have hlisteners := hpool.trans (hkept.trans (initializeSockets_listeners files ls).symm)
  refine ⟨ls, rfl, hlisteners, fun fd => ?_⟩
  rw [hbound.watched, (initializeSockets_bound files ls).watched]
  rw [socketpool_fds, socketpool_fds, hlisteners]

end

end Startup

namespace Sample

/-- A block for which every call succeeds. -/
def succeeding (fd : Int) : Attempt :=
  ⟨ascii "0.0.0.0", ⟨some (.inet 69 0), .ok fd, none, none, none, none⟩, some .nomem⟩

/-- There is no memory for a first descriptor, and the address of the third is in use; reports
    leave `errno` alone. -/
def lacking : List Attempt :=
  [⟨ascii "::", ⟨some (.inet 69 0), .error .nomem, none, none, none, none⟩, some .nomem⟩,
    succeeding 3,
    ⟨ascii "::", ⟨some (.inet 69 0), .ok 4, none, none, some (.other 98), none⟩, some (.other 98)⟩,
    succeeding 4]

end Sample

theorem lacking_new : ∀ t ∈ Lib.trace Startup.step (.start (fun _ => []) none) Sample.lacking,
    Startup.GivesNew t := by
  decide

theorem starts_lacking : ∃ s, Startup.initializeSockets (fun _ => []) none none false
    Sample.lacking = .ok (s, 0) :=
  ⟨_, rfl⟩

theorem returns_iff_lacking : ∃ s, Startup.initializeSockets (fun _ => []) none none false
    Sample.lacking = .ok (s, 0) ∧
    s.srv.socketpool.map Socket.listener = [⟨4, .inet 69 0, ascii "0.0.0.0"⟩] := by
  obtain ⟨s, hrun⟩ := starts_lacking
  exact ⟨s, hrun, ((Startup.returns_iff lacking_new hrun).2 rfl).1⟩

theorem bound_iff_errno_lacking : ∃ s, Startup.initializeSockets (fun _ => []) none none false
    Sample.lacking = .ok (s, 0) ∧ ¬s.srv.Bound := by
  obtain ⟨s, hrun⟩ := starts_lacking
  refine ⟨s, hrun, fun hbound => ?_⟩
  exact (Startup.bound_iff_errno lacking_new hrun).1 hbound [_] (Sample.succeeding 3) [_, _] rfl rfl
    rfl

end Nbstftp
