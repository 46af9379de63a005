import Nbstftp.Sockets

/-!
# Allocating a client

A client needs an entry in each of the two pools. Where a pool cannot grow, all is to be as
before, and whoever asked for the client is to notice (`Server.AllOrNothing`).

Neither is so. Without memory `vec_push` stores the item all the same, through a null pointer or
over other blocks (`Push.astray`); where it lands in unused memory behind its own block
(`Push.nomem`), the failure is seen afterwards. Then `FindOrAllocateClient` gives a null pointer
for want of a socket, which `ReceivePackets` uses at once; for want of a client `AddClient`
releases it, which its caller is not told of. So what is required holds as long as no pool has to
grow, or both can (`allOrNothing_iff`): the pools are in order before if no socket was ever
destroyed for another one (`paired`).
-/

namespace Nbstftp

namespace Server

/-- A client that is given is in its pool, with its socket in the other one, and not released;
    where there is none, the pools are as before, and it is not used. Nothing is stored outside
    the pools. -/
structure AllOrNothing (sys : Sys) (srv : Server) (fd : Int) (addr : SockAddr) : Prop where
  client : ∀ srv' c, srv.findOrAllocateClient sys fd addr = (srv', .client c) →
    c ∈ srv'.clientpool.clients ∧ ∃ s ∈ srv'.socketpool, s.entry = c.s.entry
  null : ∀ srv', srv.findOrAllocateClient sys fd addr = (srv', .null) →
    srv'.clientpool = srv.clientpool ∧ srv'.socketpool = srv.socketpool
  released : ∀ srv', srv.findOrAllocateClient sys fd addr ≠ (srv', .released)
  unused : ∀ srv', srv.findOrAllocateClient sys fd addr = (srv', .null) →
    ∀ cfg s data crash, s.fd = fd →
      srv.receivePackets cfg sys s (.datagram addr data) = .error crash →
        crash.fault ≠ .nullClient
  inside : ∀ srv', srv.findOrAllocateClient sys fd addr ≠ (srv', .astray)

section

variable {sys : Sys} {srv : Server} {fd : Int} {addr : SockAddr}

/-- A client that is found is given. -/
theorem findOrAllocateClient_some {c : Client} (h : srv.findClient fd addr = some c) :
    srv.findOrAllocateClient sys fd addr = (srv, .client c) := by
  simp only [findOrAllocateClient, h]

/-- The pool of sockets cannot grow, which is noticed. -/
theorem findOrAllocateClient_null (h : srv.findClient fd addr = none)
    (hs : sys.pushSocket = .nomem) :
    ∃ srv', srv.findOrAllocateClient sys fd addr = (srv', .null) := by
  simp [findOrAllocateClient, h, addSocket, hs]

/-- The pool of clients cannot grow, which is noticed. -/
theorem findOrAllocateClient_released (h : srv.findClient fd addr = none)
    (hs : sys.pushSocket = .stored) (hc : sys.pushClient = .nomem) :
    ∃ srv', srv.findOrAllocateClient sys fd addr = (srv', .released) := by
  simp [findOrAllocateClient, h, addSocket, hs, addClient, hc]

/-- One of the pools cannot grow, and is written past. -/
theorem findOrAllocateClient_astray (h : srv.findClient fd addr = none)
    (hpush : sys.pushSocket = .astray ∨
      sys.pushSocket = .stored ∧ sys.pushClient = .astray) :
    ∃ srv', srv.findOrAllocateClient sys fd addr = (srv', .astray) := by
  rcases hpush with hs | ⟨hs, hc⟩
  · simp [findOrAllocateClient, h, addSocket, hs]
  · simp [findOrAllocateClient, h, addSocket, hs, addClient, hc]

/-- Both pools grow. -/
theorem findOrAllocateClient_added (h : srv.findClient fd addr = none)
    (hs : sys.pushSocket = .stored) (hc : sys.pushClient = .stored) :
    srv.findOrAllocateClient sys fd addr = (srv.added sys fd addr,
      .client (.new srv.clientpool.fresh (srv.newSocket sys fd addr))) := by
  simp only [findOrAllocateClient, h, addSocket, hs, addClient, hc]
  rfl

/-- A null client is used as soon as a datagram has arrived. -/
theorem receivePackets_null {srv' : Server}
    (h : srv.findOrAllocateClient sys fd addr = (srv', .null)) (cfg : Config) {s : Socket}
    (hfd : s.fd = fd) (data : Bytes) :
    srv.receivePackets cfg sys s (.datagram addr data) = .error ⟨.nullClient, srv'.machine⟩ := by
  subst hfd
  simp only [receivePackets, h]

/-- Where a client has to be allocated, both pools have to be able to grow. -/
theorem AllOrNothing.grows (h : srv.AllOrNothing sys fd addr)
    (hnone : srv.findClient fd addr = none) :
    sys.pushSocket = .stored ∧ sys.pushClient = .stored := by
  have hsocket : sys.pushSocket = .stored := by
    cases hs : sys.pushSocket with
    | stored => rfl
    | nomem =>
      obtain ⟨srv', hnull⟩ := findOrAllocateClient_null hnone hs
      -- Any datagram that is received there will do.
      let s : Socket := ⟨fd, 0, addr, ⟨0, []⟩, 0, 0⟩
      have hcrash := receivePackets_null hnull ⟨[], false⟩ (show s.fd = fd from rfl) []
      exact absurd rfl (h.unused srv' hnull _ s [] _ rfl hcrash)
    | astray =>
      obtain ⟨srv', hastray⟩ := findOrAllocateClient_astray hnone (.inl hs)
      exact absurd hastray (h.inside srv')
  refine ⟨hsocket, ?_⟩
  cases hc : sys.pushClient with
  | stored => rfl
  | nomem =>
    obtain ⟨srv', hreleased⟩ := findOrAllocateClient_released hnone hsocket hc
    exact absurd hreleased (h.released srv')
  | astray =>
    obtain ⟨srv', hastray⟩ := findOrAllocateClient_astray hnone (.inr ⟨hsocket, hc⟩)
    exact absurd hastray (h.inside srv')

/-- With the pools in order, it is enough that both can grow where a client has to be
    allocated. -/
theorem allOrNothing_of_grows (hpaired : ∀ c ∈ srv.clientpool.clients,
      ∃ s ∈ srv.socketpool, s.entry = c.s.entry)
    (hgrows : srv.findClient fd addr = none →
      sys.pushSocket = .stored ∧ sys.pushClient = .stored) : srv.AllOrNothing sys fd addr := by
  cases hfind : srv.findClient fd addr with
  | some c =>
    -- The client is there already, and so is its socket.
    have hfound : srv.findOrAllocateClient sys fd addr = (srv, .client c) :=
      findOrAllocateClient_some hfind
    have hc : c ∈ srv.clientpool.clients := List.mem_of_find?_eq_some hfind
    constructor
    · intro srv' c' h
      cases hfound.symm.trans h
      exact ⟨hc, hpaired c hc⟩
    · exact fun srv' h => by cases hfound.symm.trans h
    · exact fun srv' h => by cases hfound.symm.trans h
    · exact fun srv' h => by cases hfound.symm.trans h
    · exact fun srv' h => by cases hfound.symm.trans h
  | none =>
    obtain ⟨hs, hc⟩ := hgrows hfind
    -- The new socket and the new client come last in their pools.
    have hadded := findOrAllocateClient_added hfind hs hc
    constructor
    · intro srv' c' h
      cases hadded.symm.trans h
      exact ⟨List.mem_append_right _ (List.mem_singleton.2 rfl), srv.newSocket sys fd addr,
        List.mem_append_right _ (List.mem_singleton.2 rfl), rfl⟩
    · exact fun srv' h => by cases hadded.symm.trans h
    · exact fun srv' h => by cases hadded.symm.trans h
    · exact fun srv' h => by cases hadded.symm.trans h
    · exact fun srv' h => by cases hadded.symm.trans h

end

/-- The socket of every client is in the pool. -/
theorem Paired.socket {srv : Server} {sockets : List Socket} (h : srv.Paired sockets) {c : Client}
    (hc : c ∈ srv.clientpool.clients) : ∃ s ∈ srv.socketpool, s.entry = c.s.entry := by
  have hlive : c.s.entry ∈ srv.live sockets :=
    List.mem_map_of_mem (List.mem_append_right _ (List.mem_map_of_mem hc))
  exact List.mem_map.1 (h.entries.mem_iff.2 hlive)

end Server

/-- In every run of the main loop in which no socket is destroyed for another one, a client is
    allocated whole or not at all exactly if both pools can grow where it has to be. -/
theorem allOrNothing_iff {cfg : Config} {files : Bytes → Bytes} {ls : Listeners}
    {its : List Iteration} {srv : Server}
    (hrun : Lib.run (iterate cfg) (initializeSockets files ls) its = .ok srv)
    (hown : ∀ t ∈ loopSteps cfg (initializeSockets files ls) its,
      t.DestroysOwn (initializeSockets files ls).socketpool)
    (sys : Sys) (fd : Int) (addr : SockAddr) :
    srv.AllOrNothing sys fd addr ↔
      (srv.findClient fd addr = none →
        sys.pushSocket = .stored ∧ sys.pushClient = .stored) :=
  ⟨fun h => h.grows, Server.allOrNothing_of_grows fun _ => (paired hrun hown).socket⟩

/-- A client that is there already, without any memory left. -/
theorem allOrNothing_sample :
    (Sample.failed 40000 40001).AllOrNothing
      { Sys.ideal with pushSocket := .nomem, pushClient := .astray } 3 (.inet 40000 1) :=
  (allOrNothing_iff (Sample.run_failing (by decide +kernel)) (by decide +kernel) _ 3 _).2
    (fun h => absurd h (by decide +kernel))

namespace Sample

/-- Four clients, for which the block of the pool is just large enough. -/
def filling : List Iteration :=
  [iteration ([40000, 40001, 40002, 40003].map fun port =>
    formatting (arrives port (htons Opcode.ack.code ++ [0, 0])))]

/-- The server after that. -/
def filled : Server := (Lib.run (iterate config) listens filling).toOption.getD listens

theorem run_filling : Lib.run (iterate config) listens filling = .ok filled :=
  Lib.eq_ok_of_isOk (by decide +kernel) listens

end Sample

/-- The fifth client, which lies behind the block of a pool that cannot grow. -/
theorem not_allOrNothing :
    ¬∀ cfg files ls its srv, Lib.run (iterate cfg) (initializeSockets files ls) its = .ok srv →
      ∀ sys fd addr, srv.AllOrNothing sys fd addr := by
  intro h
  have hwhole := h Sample.config _ Sample.listeners Sample.filling _ Sample.run_filling
    { Sys.ideal with pushClient := .nomem } 3 (.inet 40004 1)
  exact absurd (hwhole.grows (by decide +kernel)).2 (by decide)

end Nbstftp
