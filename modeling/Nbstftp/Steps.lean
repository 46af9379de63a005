import Nbstftp.Progress
import Nbstftp.Server

/-!
# What the steps of the server do to its clients

Flushing the queues and checking the clients leave some of the clients in the
pool, who they are and their transfers as they were (`sendPackets_views`,
`checkClients_views`). Receiving a datagram may add a client, and is a turn of the
client the datagram is handed to, for which nothing happens meanwhile
(`receivePackets_turn`): what holds of runs of turns holds of each client of the
server.

These are all the ways there are for a step (`step_cases`).
-/

namespace Nbstftp

/-- What of a client only the processing of its datagrams changes. -/
def Client.view (c : Client) : Identity × Transfer := (c.identity, c.transfer)

namespace Server

def views (srv : Server) : List (Identity × Transfer) := srv.clientpool.clients.map Client.view

section

variable (sys : Sys) (srv : Server) (s : Socket) {c : Client}

@[simp] theorem destroyFailed_clientpool (r : Server × Int) :
    (destroyFailed s r).clientpool = r.1.clientpool := by
  rw [destroyFailed]
  split <;> rfl

theorem put_views {st : State} (hc : c ∈ srv.clientpool.clients) (h : st.2.view = c.view) :
    (srv.put st).views = srv.views :=
  ClientPool.map_update hc (congrArg (·.1.ptr) h) h

theorem removeClient_views : ((srv.removeClient c).views).Sublist srv.views :=
  List.eraseP_sublist.map _

theorem sendPacket_view (st : State) (pq : Packetqueue × ℕ) :
    (∃ st', sendPacket sys st pq = .ok st' ∧ st'.2.view = st.2.view) ∨
      ∃ st', sendPacket sys st pq = .error st' ∧ st'.2.view = st.2.view := by
  rw [sendPacket]
  cases sys.sendto st.2.ptr pq.2 with
  | none => exact .inr ⟨_, rfl, rfl⟩
  | some sendlen => exact .inl ⟨_, rfl, rfl⟩

theorem finishClient_views {st : State} (hc : c ∈ srv.clientpool.clients)
    (h : st.2.view = c.view) : (srv.finishClient st).views.Sublist srv.views := by
  have hput : ∀ m, (srv.put (m, (clearQueue st).2)).views = srv.views :=
    fun m => srv.put_views hc h
  rw [finishClient]
  split
  · exact hput (closeFile _ _) ▸ removeClient_views _
  · rw [← hput (clearQueue st).1]

/-- Sending the queue of a client, it stays as it was or leaves the pool. -/
theorem sendClient_views (hc : c ∈ srv.clientpool.clients) :
    (∃ srv', sendClient sys srv c = .ok srv' ∧ srv'.views.Sublist srv.views) ∨
      ∃ srv', sendClient sys srv c = .error srv' ∧ srv'.views = srv.views := by
  have hrun := Lib.run_invariant (sendPacket sys) c.packetqueue.zipIdx
    (fun st => st.2.view = c.view) (fun st => st.2.view = c.view)
    (fun st pq st' h hst => by
      rcases sendPacket_view sys st pq with ⟨_, hst', hv⟩ | ⟨_, hst', -⟩
      · cases hst.symm.trans hst'; exact hv.trans h
      · cases hst.symm.trans hst')
    (fun st pq st' h hst => by
      rcases sendPacket_view sys st pq with ⟨_, hst', -⟩ | ⟨_, hst', hv⟩
      · cases hst.symm.trans hst'
      · cases hst.symm.trans hst'; exact hv.trans h)
    (s := (srv.machine, c)) rfl
  rw [sendClient]
  rcases hrun with ⟨st, hst, hview⟩ | ⟨st, hst, hview⟩
  · simp only [hst]
    exact .inl ⟨_, rfl, finishClient_views srv hc hview⟩
  · simp only [hst]
    exact .inr ⟨_, rfl, srv.put_views hc hview⟩

/-- The loop of `sendPackets` ends at the end of the pool: more fuel changes nothing. -/
theorem foreach_sendClient {n : ℕ} (hn : srv.clientpool.clients.length ≤ n) :
    Lib.foreach (·.clientpool.clients) (sendClient sys) srv =
      Lib.foreachFrom (·.clientpool.clients) (sendClient sys) n 0 srv := by
  refine Lib.foreach_eq_foreachFrom (fun srv₁ c srv₂ hc hs => ?_) hn
  rcases sendClient_views sys srv₁ hc with ⟨_, hs', hsub⟩ | ⟨_, hs', -⟩
  · cases hs.symm.trans hs'
    simpa [views] using hsub.length_le
  · cases hs.symm.trans hs'

/-- Flushing the queues leaves some of the clients, as they were. -/
theorem sendPackets_views : ((srv.sendPackets sys s).1.views).Sublist srv.views := by
  rw [sendPackets]
  rcases Lib.foreach_invariant (·.clientpool.clients) (sendClient sys)
    (fun srv' => srv'.views.Sublist srv.views) (fun srv' => srv'.views.Sublist srv.views)
    (fun srv₁ c srv₂ h hc hs => by
      rcases sendClient_views sys srv₁ hc with ⟨_, hs', hv⟩ | ⟨_, hs', -⟩
      · cases hs.symm.trans hs'; exact hv.trans h
      · cases hs.symm.trans hs')
    (fun srv₁ c srv₂ h hc hs => by
      rcases sendClient_views sys srv₁ hc with ⟨_, hs', -⟩ | ⟨_, hs', hv⟩
      · cases hs.symm.trans hs'
      · cases hs.symm.trans hs'; exact hv ▸ h)
    (s := srv) (List.Sublist.refl _) with ⟨srv', hs, h⟩ | ⟨srv', hs, h⟩
  · simp only [hs]
    exact h
  · simp only [hs]
    exact h

theorem checkClient_views (hc : c ∈ srv.clientpool.clients) :
    (srv.checkClient sys c).views.Sublist srv.views := by
  rw [checkClient]
  split
  · dsimp only
    split
    · exact removeClient_views _
    · have hreact := queuePacket_reacts sys (srv.machine.callEvent .resend)
        { c with waiting := c.waiting + 1 } (c.lastpacket.getD .zero).p
        (c.lastpacket.getD .zero).len 2
      rw [srv.put_views hc (Prod.ext hreact.identity hreact.transfer)]
  · exact List.Sublist.refl _

/-- So does the one of `checkClients`. -/
theorem foreach_checkClient {n : ℕ} (hn : srv.clientpool.clients.length ≤ n) :
    Lib.foreach (·.clientpool.clients)
        (fun srv c => (.ok (srv.checkClient sys c) : Except Empty Server)) srv =
      Lib.foreachFrom (·.clientpool.clients)
        (fun srv c => (.ok (srv.checkClient sys c) : Except Empty Server)) n 0 srv := by
  refine Lib.foreach_eq_foreachFrom (fun srv₁ c srv₂ hc hs => ?_) hn
  cases hs
  simpa [views] using (checkClient_views sys srv₁ hc).length_le

/-- Checking leaves some of the clients, as they were. -/
theorem checkClients_views : (srv.checkClients sys).views.Sublist srv.views := by
  rw [checkClients]
  rcases Lib.foreach_invariant (·.clientpool.clients)
    (fun srv c => (.ok (srv.checkClient sys c) : Except Empty Server))
    (fun srv' => srv'.views.Sublist srv.views) (fun _ => True)
    (fun srv₁ c srv₂ h hc hs => by
      cases hs
      exact (checkClient_views sys srv₁ hc).trans h)
    (fun _ _ _ _ _ _ => trivial) (s := srv) (List.Sublist.refl _) with ⟨srv', hs, h⟩ | ⟨e, -, -⟩
  · simp only [hs]
    exact h
  · exact e.elim

/-! ## Receiving -/

/-- The socket of a client that is added. -/
def newSocket (fd : Int) (src : SockAddr) : Socket :=
  ⟨fd, 0, src, ⟨srv.machine.nexttok, getAddress sys src⟩, srv.machine.nexttok + 1, pktlen⟩

/-- The server with this socket. -/
def withSocket (fd : Int) (src : SockAddr) : Server where
  machine := { srv.machine with nexttok := srv.machine.nexttok + 2 }
  clientpool := srv.clientpool
  socketpool := srv.socketpool ++ [srv.newSocket sys fd src]

/-- The server with a client added. -/
def added (fd : Int) (src : SockAddr) : Server where
  machine := { srv.machine with nexttok := srv.machine.nexttok + 2 }
  clientpool := srv.clientpool.push (srv.newSocket sys fd src)
  socketpool := srv.socketpool ++ [srv.newSocket sys fd src]

/-- What comes of a sender without a client, by what becomes of the socket and the client
    pushed for it. -/
theorem findOrAllocateClient_none {fd : Int} {src : SockAddr}
    (hfind : srv.findClient fd src = none) :
    srv.findOrAllocateClient sys fd src =
      match sys.pushSocket, sys.pushClient with
      | .stored, .stored => (srv.added sys fd src,
          .client (.new srv.clientpool.fresh (srv.newSocket sys fd src)))
      | .stored, .nomem => ((srv.added sys fd src).removeClient
          (.new srv.clientpool.fresh (srv.newSocket sys fd src)), .released)
      | .stored, .astray => (srv.added sys fd src, .astray)
      | .nomem, _ =>
        ((srv.withSocket sys fd src).destroySocket (srv.newSocket sys fd src) false, .null)
      | .astray, _ => (srv.withSocket sys fd src, .astray) := by
  rw [findOrAllocateClient, hfind]
  dsimp only [addSocket]
  cases sys.pushSocket with
  | stored =>
    dsimp only [addClient]
    cases sys.pushClient <;> rfl
  | nomem | astray => rfl

/-- The client of a sender is found, or added. -/
theorem findOrAllocateClient_eq {srv₁ : Server} {fd : Int} {src : SockAddr}
    (h : srv.findOrAllocateClient sys fd src = (srv₁, .client c)) :
    (srv.findClient fd src = some c ∧ srv₁ = srv) ∨
      srv.findClient fd src = none ∧
        c = .new srv.clientpool.fresh (srv.newSocket sys fd src) ∧ srv₁ = srv.added sys fd src := by
  cases hfind : srv.findClient fd src with
  | some d =>
    rw [findOrAllocateClient, hfind] at h
    cases h
    exact .inl ⟨rfl, rfl⟩
  | none =>
    rw [findOrAllocateClient_none sys srv hfind] at h
    cases hs : sys.pushSocket with
    | stored =>
      cases hc : sys.pushClient with
      | stored =>
        rw [hs, hc] at h
        cases h
        exact .inr ⟨rfl, rfl, rfl⟩
      | nomem | astray =>
        rw [hs, hc] at h
        cases h
    | nomem | astray =>
      rw [hs] at h
      cases h

/-- The client of a sender is found in the pool, or added at its end. -/
theorem findOrAllocateClient_cases {srv₁ : Server} {fd : Int} {src : SockAddr}
    (h : srv.findOrAllocateClient sys fd src = (srv₁, .client c)) :
    (srv.findClient fd src = some c ∧ c ∈ srv.clientpool.clients ∧ srv₁ = srv) ∨
      srv.findClient fd src = none ∧ ∃ s, s.fd = fd ∧ s.addr = src ∧
        c = .new srv.clientpool.fresh s ∧ srv₁.clientpool = srv.clientpool.push s := by
  rcases findOrAllocateClient_eq sys srv h with ⟨hfind, rfl⟩ | ⟨hfind, hc, rfl⟩
  · exact .inl ⟨hfind, List.mem_of_find?_eq_some hfind, rfl⟩
  · exact .inr ⟨hfind, srv.newSocket sys fd src, rfl, rfl, hc, rfl⟩

/-- What holds of the clients, and of new ones, holds of the clients then. -/
theorem forall_findOrAllocateClient {P : Client → Prop} {srv₁ : Server} {fd : Int} {src : SockAddr}
    (h : srv.findOrAllocateClient sys fd src = (srv₁, .client c))
    (hP : ∀ d ∈ srv.clientpool.clients, P d) (hnew : ∀ ptr s, P (.new ptr s)) :
    ∀ d ∈ srv₁.clientpool.clients, P d := by
  rcases findOrAllocateClient_eq sys srv h with ⟨-, rfl⟩ | ⟨-, -, rfl⟩
  · exact hP
  · intro d hd
    rcases List.mem_append.1 hd with hd | hd
    · exact hP d hd
    · rw [List.mem_singleton.1 hd]
      exact hnew _ _

/-- It is in the pool then. -/
theorem mem_of_findOrAllocateClient {srv₁ : Server} {fd : Int} {src : SockAddr}
    (h : srv.findOrAllocateClient sys fd src = (srv₁, .client c)) :
    c ∈ srv₁.clientpool.clients := by
  rcases findOrAllocateClient_cases sys srv h with ⟨-, hc, rfl⟩ | ⟨-, s, -, -, rfl, hpool⟩
  · exact hc
  · rw [hpool]
    exact List.mem_append_right _ List.mem_cons_self

end

end Server

theorem Server.handler_eq_some {sys : Sys} {srv : Server} {a : Arrival} {c : Client} :
    srv.handler sys a = some c ↔
      ∃ srv₁, srv.findOrAllocateClient sys a.fd a.src = (srv₁, .client c) := by
  rw [handler]
  rcases srv.findOrAllocateClient sys a.fd a.src with ⟨srv₁, found⟩
  cases found <;> simp

/-- The turn a client has when a datagram of it is received. -/
def receiving (sys : Sys) (data : Bytes) : Turn where
  meanwhile s := (s.1.callEvent .receivingPackets,
    { s.2 with bytestransferred := s.2.bytestransferred + receivedLength data })
  sys := sys
  datagram := data

/-- A turn of receiving is the processing of the datagram, once it is counted. -/
theorem turn_receiving (cfg : Config) (sys : Sys) (m : Machine) (c : Client) (data : Bytes) :
    turn cfg (m, c) (receiving sys data) =
      processDatagram cfg sys (m.callEvent .receivingPackets)
        { c with bytestransferred := c.bytestransferred + receivedLength data } data :=
  rfl

theorem turn_progresses (cfg : Config) (sys : Sys) (m : Machine) (c : Client) (data : Bytes) :
    Progresses sys data c (turn cfg (m, c) (receiving sys data)) :=
  processDatagram_progresses cfg sys (m.callEvent .receivingPackets)
    { c with bytestransferred := c.bytestransferred + receivedLength data } data

/-- What a turn never changes about its client. -/
theorem turn_identity {cfg : Config} {sys : Sys} {m : Machine} {c : Client} {data : Bytes}
    {st : State} (h : turn cfg (m, c) (receiving sys data) = .ok st) :
    st.2.identity = c.identity := by
  have hprogress := turn_progresses cfg sys m c data
  rw [h] at hprogress
  exact hprogress.1

theorem turn_ptr {cfg : Config} {sys : Sys} {m : Machine} {c : Client} {data : Bytes}
    {st : State} (h : turn cfg (m, c) (receiving sys data) = .ok st) : st.2.ptr = c.ptr :=
  congrArg Identity.ptr (turn_identity h)

/-- Receiving a datagram is a turn of the client it is handed to. -/
theorem receivePackets_turn {cfg : Config} {sys : Sys} {srv srv₁ : Server} {s : Socket}
    {src : SockAddr} {data : Bytes} {c : Client}
    (h : srv.findOrAllocateClient sys s.fd src = (srv₁, .client c)) :
    srv.receivePackets cfg sys s (.datagram src data) =
      (turn cfg (srv₁.machine, c) (receiving sys data)).map fun st => (srv₁.put st, 0) := by
  rw [turn_receiving]
  simp only [Server.receivePackets, h]
  split <;> simp only [*, Except.map]

/-- A datagram that is received was processed for the client it is handed to. -/
theorem step_readable_ok {cfg : Config} {sys : Sys} {srv srv' : Server} {s : Socket}
    {src : SockAddr} {data : Bytes}
    (h : step cfg srv ⟨sys, .readable s (.datagram src data)⟩ = .ok srv') :
    ∃ srv₁ c st, srv.findOrAllocateClient sys s.fd src = (srv₁, .client c) ∧
      turn cfg (srv₁.machine, c) (receiving sys data) = .ok st ∧ srv' = srv₁.put st := by
  rcases hfound : srv.findOrAllocateClient sys s.fd src with ⟨srv₁, found⟩
  cases found with
  | null | released | astray =>
    simp only [step, Server.receivePackets, hfound, Except.map] at h
    cases h
  | client c =>
    simp only [step, receivePackets_turn hfound] at h
    cases hturn : turn cfg (srv₁.machine, c) (receiving sys data) with
    | error crash =>
      rw [hturn] at h
      cases h
    | ok st =>
      rw [hturn] at h
      cases h
      exact ⟨srv₁, c, st, rfl, hturn, rfl⟩

/-- A step takes some clients out, crashes for want of memory for one, or is a turn
    of one. -/
theorem step_cases (cfg : Config) (srv : Server) (i : Input) :
    (∃ srv', step cfg srv i = .ok srv' ∧ srv'.views.Sublist srv.views) ∨
    (∃ crash, step cfg srv i = .error crash ∧
      crash.fault ∈ [.nullClient, .releasedClient, .astrayItem]) ∨
    ∃ a srv₁ c, i.arrival = some a ∧
      srv.findOrAllocateClient i.sys a.fd a.src = (srv₁, .client c) ∧
      step cfg srv i =
        (turn cfg (srv₁.machine, c) (receiving i.sys a.data)).map srv₁.put := by
  obtain ⟨sys, event⟩ := i
  have hdestroy : ∀ s (r : Server × Int), (destroyFailed s r).views = r.1.views := fun s r => by
    rw [Server.views, Server.destroyFailed_clientpool]
    rfl
  cases event with
  | check => exact .inl ⟨_, rfl, Server.checkClients_views sys srv⟩
  | activity | hangup | unknown => exact .inl ⟨_, rfl, List.Sublist.refl _⟩
  | writable s =>
    refine .inl ⟨_, rfl, ?_⟩
    rw [hdestroy]
    exact Server.sendPackets_views sys srv s
  | readable s received =>
    cases received with
    | failed e =>
      -- Nothing was received: the socket may be destroyed, the clients stay.
      refine .inl ⟨destroyFailed s (srv, if e = .again ∨ e = .intr then 0 else -1), rfl, ?_⟩
      rw [hdestroy]
    | datagram src data =>
      rcases hfound : srv.findOrAllocateClient sys s.fd src with ⟨srv₁, found⟩
      cases found with
      | null =>
        refine .inr (.inl ⟨⟨.nullClient, srv₁.machine⟩, ?_, List.mem_cons_self⟩)
        simp only [step, Server.receivePackets, hfound, Except.map]
      | released =>
        refine .inr (.inl ⟨⟨.releasedClient, srv₁.machine⟩, ?_,
          List.mem_cons_of_mem _ List.mem_cons_self⟩)
        simp only [step, Server.receivePackets, hfound, Except.map]
      | astray =>
        refine .inr (.inl ⟨⟨.astrayItem, srv₁.machine⟩, ?_,
          List.mem_cons_of_mem _ (List.mem_cons_of_mem _ List.mem_cons_self)⟩)
        simp only [step, Server.receivePackets, hfound, Except.map]
      | client c =>
        refine .inr (.inr ⟨⟨s.fd, src, data⟩, srv₁, c, rfl, hfound, ?_⟩)
        simp only [step, receivePackets_turn hfound]
        cases turn cfg (srv₁.machine, c) (receiving sys data) with
        | error crash => rfl
        | ok st => rfl

/-! ## A server to run -/

namespace Sample

/-- A server with one socket and no clients, on a directory with the file `F`. -/
def boot (F : Bytes) : Server := .boot (machine F) [socket]

theorem run_boot (F : Bytes) : Lib.run (step config) (boot F) [] = .ok (boot F) := rfl

/-- It, after some events. -/
def after (F : Bytes) (inputs : List Input) : Server :=
  (Lib.run (step config) (boot F) inputs).toOption.getD (boot F)

theorem run_after {F : Bytes} {inputs : List Input}
    (h : (Lib.run (step config) (boot F) inputs).isOk = true) :
    Lib.run (step config) (boot F) inputs = .ok (after F inputs) :=
  Lib.eq_ok_of_isOk h (boot F)

/-- The server to run, receiving datagrams of one host. -/
def receive (datagram : Bytes) : Input :=
  ⟨.ideal, .readable socket (.datagram (.inet 40000 1) datagram)⟩

/-- The queues are flushed. -/
def flush : Input := ⟨.ideal, .writable socket⟩

end Sample

end Nbstftp
