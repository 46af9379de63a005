import Nbstftp.Sockets

/-!
# Shutting down

After the main loop, `ShutdownSockets` goes over the pool of sockets: it closes the descriptor
of each and releases the text of its address. But the sockets of the clients are in that
pool, with the descriptor they were received on. So a descriptor is closed once if it is
listened on, and once more for every client of it that is left; of the texts, none is released
twice, and the buffers of all sockets are not released at all (`shuts_down`).
-/

namespace Nbstftp

/-! ## The end of the process -/

/-- What `ShutdownSockets` does for a socket. -/
def Socket.shutdown (s : Socket) : List Effect := [.close s.fd, .free s.bindaddr.tok]

/-- `ShutdownSockets`, for a socket. -/
def Machine.shutdownSocket (m : Machine) (s : Socket) : Machine :=
  (m.emit (.close s.fd)).free s.bindaddr

/-- `ShutdownSockets`, and `ShutdownMultiplexer` in it. -/
def Server.shutdownSockets (srv : Server) : Server :=
  { srv with
    machine := { srv.socketpool.foldl Machine.shutdownSocket srv.machine with
      interest := fun _ => none }
    socketpool := [] }

/-- `DeallocateClients`, which leaves alone what the clients refer to. -/
def Server.deallocateClients (srv : Server) : Server := { srv with clientpool := .empty }

/-- What `main` does after its loop. -/
def Server.cleanup (srv : Server) : Server := srv.shutdownSockets.deallocateClients

/-- How often a descriptor was closed. -/
def Machine.closed (m : Machine) (fd : Int) : ℕ := m.effects.count (.close fd)

/-- Every socket in use has its descriptor closed, and its text released, which no one did before;
    its buffer remains allocated. -/
structure Server.ShutDown (sockets : List Socket) (srv srv' : Server) : Prop where
  closed : ∀ fd, srv'.machine.closed fd = srv.machine.closed fd +
    (srv.listening sockets).countP (fun l => l.fd = fd) +
    srv.clientpool.clients.countP fun c => c.s.fd = fd
  texts : srv'.machine.frees =
    srv.machine.frees ++ srv.socketpool.map fun s => s.bindaddr.tok
  nodup : (srv.socketpool.map fun s => s.bindaddr.tok).Nodup
  unreleased : ∀ s ∈ srv.socketpool, s.bindaddr.tok ∉ srv.machine.frees
  leaked : ∀ s ∈ srv.socketpool, s.packet ∉ srv'.machine.frees

/-! ## The sockets -/

section

variable {sockets : List Socket} {srv : Server}

theorem shutdownSocket_foldl (l : List Socket) (m : Machine) :
    l.foldl Machine.shutdownSocket m = m.emits (l.flatMap Socket.shutdown) := by
  induction l generalizing m with
  | nil => exact (Machine.emits_nil m).symm
  | cons s l ih =>
    rw [List.foldl_cons, ih, List.flatMap_cons, Machine.shutdownSocket, Machine.free,
      Machine.emits_cons, Machine.emits_cons]
    rfl

theorem count_shutdown (l : List Socket) (fd : Int) :
    (l.flatMap Socket.shutdown).count (.close fd) = l.countP fun s => s.fd = fd := by
  induction l with
  | nil => rfl
  | cons s l ih =>
    have hfirst : s.shutdown.count (.close fd) = if s.fd = fd then 1 else 0 := by
      by_cases hfd : s.fd = fd <;> simp [Socket.shutdown, hfd]
    rw [List.flatMap_cons, List.count_append, ih, hfirst, List.countP_cons, Nat.add_comm]
    simp only [decide_eq_true_eq]

theorem filterMap_shutdown (l : List Socket) :
    (l.flatMap Socket.shutdown).filterMap Effect.freed = l.map fun s => s.bindaddr.tok := by
  induction l with
  | nil => rfl
  | cons s l ih =>
    rw [List.flatMap_cons, List.filterMap_append, ih]
    rfl

/-- The blocks of some sockets, sorted. -/
theorem toks_perm (l : List Socket) :
    (l.flatMap Socket.toks).Perm ((l.map fun s => s.bindaddr.tok) ++ l.map Socket.packet) := by
  induction l with
  | nil => exact List.Perm.refl _
  | cons s l ih =>
    rw [List.flatMap_cons, List.map_cons, List.map_cons, List.cons_append]
    exact (List.Perm.cons _ ((ih.cons s.packet).trans List.perm_middle.symm))

/-- While the pools are in order. -/
theorem Server.Ordered.cleanup (h : srv.Ordered sockets) : srv.ShutDown sockets srv.cleanup := by
  have heffects : srv.cleanup.machine.effects =
      (srv.machine.emits (srv.socketpool.flatMap Socket.shutdown)).effects := by
    rw [← shutdownSocket_foldl]
    rfl
  have hfrees : srv.cleanup.machine.frees =
      srv.machine.frees ++ srv.socketpool.map fun s => s.bindaddr.tok := by
    rw [Machine.frees, heffects]
    exact (srv.machine.frees_emits _).trans (congrArg (_ ++ ·) (filterMap_shutdown _))
  -- The sockets in use have the blocks of those of the pool.
  have htoks : (srv.live sockets).flatMap Socket.toks = srv.socketpool.flatMap Socket.toks := by
    rw [← h.pool, List.flatMap_map]
    rfl
  have hkeeps := htoks ▸ h.keeps
  have hnodup := (toks_perm srv.socketpool).nodup_iff.1 hkeeps.nodup
  obtain ⟨htexts, -, hapart⟩ := List.nodup_append.1 hnodup
  refine ⟨fun fd => ?_, hfrees, htexts, fun s hs hfreed => ?_, fun s hs hfreed => ?_⟩
  · have hcount : srv.socketpool.countP (fun s => s.fd = fd) =
        (srv.live sockets).countP fun s => s.fd = fd := by
      rw [← h.pool, List.countP_map]
      rfl
    rw [Machine.closed, heffects, Machine.emits, List.count_append, count_shutdown, hcount,
      Server.live, List.countP_map, List.countP_append, List.countP_map, ← Nat.add_assoc]
    rfl
  · exact (hkeeps.released _ hfreed).2 (List.mem_flatMap.2 ⟨s, hs, List.mem_cons_self⟩)
  · rw [hfrees] at hfreed
    rcases List.mem_append.1 hfreed with hfreed | hfreed
    · exact (hkeeps.released _ hfreed).2
        (List.mem_flatMap.2 ⟨s, hs, List.mem_cons_of_mem _ List.mem_cons_self⟩)
    · exact hapart _ hfreed _ (List.mem_map_of_mem hs) rfl

end

/-! ## Runs -/

/-- In every run of the main loop from a server that only listens, in which no socket is destroyed
    for another one: shutting down closes a descriptor that is listened on once, and any once more
    for each client it has left; it releases the text of each socket, which nobody did before, and
    none of the buffers. -/
theorem shuts_down {cfg : Config} {srv₀ srv : Server} {its : List Iteration} (hbound : srv₀.Bound)
    (hrun : Lib.run (iterate cfg) srv₀ its = .ok srv)
    (hown : ∀ t ∈ loopSteps cfg srv₀ its, t.DestroysOwn srv₀.socketpool) :
    srv.ShutDown srv₀.socketpool srv.cleanup := by
  refine (loop_rule (fun srv => srv.Ordered srv₀.socketpool ∧ srv.Unarmed) (fun sys srv h => ?_)
    (fun r srv srv' => report_ordered) ⟨hbound.ordered, fun c hc => ?_⟩ hown hrun).1.cleanup
  · rwa [Server.checkClients_unarmed h.2]
  · rw [hbound.clients] at hc
    exact absurd hc List.not_mem_nil

theorem shuts_down_failed :
    (Sample.failed 40000 40001).ShutDown Sample.listens.socketpool
      (Sample.failed 40000 40001).cleanup :=
  shuts_down (initializeSockets_bound _ _) (Sample.run_failing (by decide +kernel))
    (by decide +kernel)

end Nbstftp
