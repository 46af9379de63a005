import Nbstftp.Dispatch
import Nbstftp.Endpoint
import Nbstftp.Startup

/-!
# Who is served

However the server was started, nobody comes into its pools but on a descriptor that a socket
of the pool had already. So the main loop serves the blocks whose sockets stayed in the pool when
it was started: a block that was given up with its descriptor open and watched has no client, in
any run, and its descriptor is closed when something is reported of it (`serves_pool`).
-/

namespace Nbstftp

/-- All sockets and clients are on some descriptors. -/
structure Server.Within (fds : List Int) (srv : Server) : Prop where
  sockets : ∀ t ∈ srv.socketpool, t.fd ∈ fds
  clients : ∀ i ∈ srv.identities, i.fd ∈ fds

namespace Server

variable {fds : List Int} {srv srv' : Server} {sys : Sys} {s : Socket}

/-- Sockets are only taken out. -/
theorem Within.sublist (h : srv.Within fds) (hpool : srv'.socketpool.Sublist srv.socketpool)
    (hids : srv'.identities.Sublist srv.identities) : srv'.Within fds where
  sockets t ht := h.sockets t (hpool.subset ht)
  clients i hi := h.clients i (hids.subset hi)

theorem Within.destroySocket (h : srv.Within fds) (s : Socket) :
    (srv.destroySocket s true).Within fds :=
  h.sublist (srv.destroySocket_sublist s true) (List.Sublist.refl _)

theorem Within.writable (h : srv.Within fds) (sys : Sys) (s : Socket) :
    (destroyFailed s (srv.sendPackets sys s)).Within fds := by
  have hsent : (srv.sendPackets sys s).1.Within fds := by
    refine h.sublist (srv.sendPackets_sublist sys s).1 ?_
    rw [identities_eq, identities_eq]
    exact (sendPackets_views sys srv s).map _
  rw [destroyFailed]
  split
  · exact hsent.destroySocket s
  · exact hsent

/-- A client that is added has the descriptor of the socket it was received on. -/
theorem Within.added (h : srv.Within fds) (hs : s.fd ∈ fds) (src : SockAddr) :
    (srv.added sys s.fd src).Within fds where
  sockets t ht := by
    rcases List.mem_append.1 ht with ht | ht
    · exact h.sockets t ht
    · rw [List.mem_singleton.1 ht]
      exact hs
  clients i hi := by
    obtain ⟨c, hc, rfl⟩ := List.mem_map.1 hi
    rcases List.mem_append.1 hc with hc | hc
    · exact h.clients _ (List.mem_map_of_mem hc)
    · rw [List.mem_singleton.1 hc]
      exact hs

theorem Within.receive (h : srv.Within fds) (hs : s.fd ∈ fds) {cfg : Config} {src : SockAddr}
    {data : Bytes} (hstep : step cfg srv ⟨sys, .readable s (.datagram src data)⟩ = .ok srv') :
    srv'.Within fds := by
  obtain ⟨srv₁, c, st, hfound, hturn, rfl⟩ := step_readable_ok hstep
  have h₁ : srv₁.Within fds := by
    rcases findOrAllocateClient_eq sys srv hfound with ⟨-, rfl⟩ | ⟨-, -, rfl⟩
    · exact h
    · exact h.added hs src
  have hids : (srv₁.put st).identities = srv₁.identities :=
    ClientPool.map_update (mem_of_findOrAllocateClient sys srv hfound) (turn_ptr hturn)
      (turn_identity hturn)
  exact ⟨h₁.sockets, hids ▸ h₁.clients⟩

end Server

/-- Dealing with a report serves a socket of the pool. -/
theorem report_within {cfg : Config} {fds : List Int} {srv srv' : Server} {r : Report}
    (h : srv.Within fds ∧ srv.Unarmed)
    (hrun : Lib.run (step cfg) srv (r.inputs srv) = .ok srv') : srv'.Within fds ∧ srv'.Unarmed := by
  refine report_rule (Q := fun _ => True) (fun srv => srv.Within fds ∧ srv.Unarmed)
    (fun s srv => (srv.Within fds ∧ srv.Unarmed) ∧ s.fd ∈ fds) ?_ ?_ ?_ ?_ ?_ ?_
    (fun _ _ h => h.1) h (fun _ _ => trivial) hrun
  · exact fun srv ⟨h, hunarmed⟩ _ _ _ => ⟨⟨h.sockets, h.clients⟩, hunarmed⟩
  · intro srv s ⟨h, hunarmed⟩ _ hfind
    exact ⟨⟨⟨h.sockets, h.clients⟩, hunarmed⟩, h.sockets s (List.mem_of_find?_eq_some hfind)⟩
  · exact fun srv s ⟨⟨h, hunarmed⟩, _⟩ _ => ⟨h.destroySocket s, hunarmed⟩
  · intro srv s srv' ⟨⟨h, hunarmed⟩, hs⟩ hstep _
    have hunarmed' : srv'.Unarmed := step_unarmed hunarmed hstep
    cases hstep
    exact ⟨⟨h.writable _ s, hunarmed'⟩, hs⟩
  · intro srv s src data srv' ⟨⟨h, hunarmed⟩, hs⟩ hstep
    exact ⟨h.receive hs hstep, step_unarmed hunarmed hstep⟩
  · exact fun srv s e ⟨⟨h, hunarmed⟩, _⟩ _ _ => ⟨h.destroySocket s, hunarmed⟩

/-- All that is done about a descriptor no socket has is closing it. -/
theorem Server.Within.unknown {fds : List Int} {srv : Server} (h : srv.Within fds) {r : Report}
    (hfd : r.fd ∉ fds) : ∀ i ∈ r.inputs srv, i.event = .unknown r.fd := by
  have hfind : srv.findSocket r.fd = none :=
    List.find?_eq_none.2 fun t ht hfound => hfd (of_decide_eq_true hfound ▸ h.sockets t ht)
  intro i hi
  rw [Report.inputs, hfind] at hi
  split at hi
  · exact absurd hi List.not_mem_nil
  · rw [List.mem_singleton.1 hi]

/-- `AddSocket` adds no client. -/
theorem Startup.addSocket_clientpool (s : Startup) (fd : Int) (addr : Bytes) (saddr : SockAddr)
    (epollCtl : Option Errno) :
    (s.addSocket fd addr saddr epollCtl).1.srv.clientpool = s.srv.clientpool := by
  cases epollCtl with
  | some e => rfl
  | none =>
    rw [s.addSocket_none ⟨fd, saddr, addr⟩]
    split <;> rfl

/-- Nor does any block. -/
theorem Startup.step_clientpool {s s' : Startup} {a : Attempt} (hstep : s.step a = .ok s') :
    s'.srv.clientpool = s.srv.clientpool := by
  have hbind : (s.bindToSocket a.bindaddr a.sys).1.srv.clientpool = s.srv.clientpool := by
    rw [bindToSocket]
    cases a.sys.inetPton with
    | none => rfl
    | some saddr =>
      cases a.sys.socket with
      | error e => rfl
      | ok fd =>
        cases a.sys.setfl.or a.sys.bind with
        | some e => rfl
        | none => exact addSocket_clientpool _ _ _ _ _
  rw [step] at hstep
  split at hstep <;> cases hstep <;> exact hbind

/-- Whatever becomes of the blocks, there is no client yet. -/
theorem Startup.initializeSockets_clients {files : Bytes → Bytes} {errno create : Option Errno}
    {nomem : Bool} {as : List Attempt} {s : Startup} {r : Int}
    (hrun : initializeSockets files errno create nomem as = .ok (s, r)) :
    s.srv.clientpool.clients = [] := by
  rw [initializeSockets] at hrun
  split at hrun
  · cases hrun
    rfl
  · cases hblocks : Lib.run step (start files (initializeMultiplexer errno create nomem).1) as with
    | error e => exact e.elim
    | ok s' =>
      rw [hblocks] at hrun
      cases hrun
      exact Lib.run_rule (Q := fun _ => True) (fun s => s.srv.clientpool.clients = [])
        (fun s₁ a s₂ h _ hstep => (congrArg ClientPool.clients (step_clientpool hstep)).trans h)
        rfl (fun _ _ => trivial) hblocks

/-- In every run of the main loop, from whatever `InitializeSockets` started: each client was
    received on the descriptor of a socket that was in the pool then, and any other descriptor
    that something is reported of is closed. -/
theorem serves_pool {cfg : Config} {files : Bytes → Bytes} {errno create : Option Errno}
    {nomem : Bool} {as : List Attempt} {s : Startup} {its : List Iteration} {srv : Server}
    (hstart : Startup.initializeSockets files errno create nomem as = .ok (s, 0))
    (hrun : Lib.run (iterate cfg) s.srv its = .ok srv) :
    (∀ c ∈ srv.clientpool.clients, ∃ t ∈ s.srv.socketpool, t.fd = c.s.fd) ∧
      ∀ r : Report, (∀ t ∈ s.srv.socketpool, t.fd ≠ r.fd) →
        ∀ i ∈ r.inputs srv, i.event = .unknown r.fd := by
  have hclients := Startup.initializeSockets_clients hstart
  have hwithin : s.srv.Within (s.srv.socketpool.map Socket.fd) := by
    refine ⟨fun t ht => List.mem_map_of_mem ht, fun i hi => ?_⟩
    rw [Server.identities, hclients] at hi
    exact absurd hi List.not_mem_nil
  have hunarmed : s.srv.Unarmed := by
    intro c hc
    rw [hclients] at hc
    exact absurd hc List.not_mem_nil
  have hend := (loop_rule (Q := fun _ => True)
    (fun srv => srv.Within (s.srv.socketpool.map Socket.fd) ∧ srv.Unarmed)
    (fun sys srv h => by rwa [Server.checkClients_unarmed h.2])
    (fun r srv srv' h _ => report_within h) ⟨hwithin, hunarmed⟩ (fun _ _ => trivial) hrun).1
  constructor
  · exact fun c hc => List.mem_map.1 (hend.clients c.identity (List.mem_map_of_mem hc))
  · intro r hr
    refine hend.unknown fun hmem => ?_
    obtain ⟨t, ht, hfd⟩ := List.mem_map.1 hmem
    exact hr t ht hfd

namespace Sample

/-- The server that starts although memory was lacking. -/
def started : Startup :=
  (Startup.initializeSockets (fun _ => []) none none false lacking).toOption.elim
    (.start (fun _ => []) none) Prod.fst

/-- A datagram on each of the two descriptors. -/
def bothArrive : List Iteration :=
  [iteration [arrives 40000 (request .rrq []), { arrives 40000 (request .rrq []) with fd := 4 }]]

/-- The server after that. -/
def bothArrived : Server :=
  (Lib.run (iterate config) started.srv bothArrive).toOption.getD started.srv

end Sample

theorem started_lacking : Startup.initializeSockets (fun _ => []) none none false
    Sample.lacking = .ok (Sample.started, 0) :=
  rfl

theorem run_bothArrive :
    Lib.run (iterate Sample.config) Sample.started.srv Sample.bothArrive =
      .ok Sample.bothArrived :=
  Lib.eq_ok_of_isOk (by decide +kernel) _

theorem serves_pool_lacking : Sample.bothArrived.clientpool.clients.length = 1 ∧
    (∀ c ∈ Sample.bothArrived.clientpool.clients,
      ∃ t ∈ Sample.started.srv.socketpool, t.fd = c.s.fd) ∧
    ∀ r : Report, (∀ t ∈ Sample.started.srv.socketpool, t.fd ≠ r.fd) →
      ∀ i ∈ r.inputs Sample.bothArrived, i.event = .unknown r.fd :=
  ⟨by decide +kernel, serves_pool started_lacking run_bothArrive⟩

end Nbstftp
