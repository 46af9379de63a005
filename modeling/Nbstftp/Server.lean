import Nbstftp.Lib.Foreach
import Nbstftp.Pool
import Nbstftp.Turn

/-!
# The server

The server holds its clients in one pool and its sockets in another. Its main
loop takes a few kinds of steps (`step`), in any order: it checks the clients for
timeouts (`checkClients`), and when a descriptor is ready, it flushes the queues
of all clients (`sendPackets`) or receives a datagram and processes it for the
client of its sender (`receivePackets`), which is added to the pool if there is
none (`findOrAllocateClient`). A descriptor that failed is closed, with its socket
(`destroySocket`) or without one (`closeUnknown`).

The loops over the pool are index loops, in which a client removed makes the next
one be passed over (`Lib.foreach`).
-/

namespace Nbstftp

/-- The machine, and the pools of clients and of sockets. -/
structure Server where
  machine : Machine
  clientpool : ClientPool
  socketpool : List Socket

/-- `GetAddress`: the text is that of the start of the structure, not of the IP
    address in it. -/
def getAddress (sys : Sys) (saddr : SockAddr) : Bytes :=
  sys.inetNtop (saddr.bytes.take saddr.ipLength)

/-- What `AddSocket` returns. -/
inductive Added
  | socket (s : Socket)
  | failed
  /-- Nothing: what it does from the push on is not defined. -/
  | astray

/-- What `FindOrAllocateClient` returns. -/
inductive Found
  | client (c : Client)
  | null
  /-- A client that was removed at once, and is released. -/
  | released
  /-- Nothing: what it does from a push on is not defined. -/
  | astray

/-- What `recvfrom` gives. -/
inductive Received
  | datagram (src : SockAddr) (data : Bytes)
  | failed (e : Errno)

namespace Server

/-- A server started on some sockets: there are no clients. -/
def boot (machine : Machine) (socketpool : List Socket) : Server :=
  ⟨machine, .empty, socketpool⟩

/-- A client and the machine are changed. -/
def put (srv : Server) (s : State) : Server :=
  { srv with machine := s.1, clientpool := srv.clientpool.update s.2 }

/-! ## Sockets and clients -/

/-- `DestroySocket`: the first socket of the pool with the descriptor and the text
    of `s` is taken out. -/
def destroySocket (srv : Server) (s : Socket) (closefd : Bool) : Server :=
  let m := srv.machine
  -- A descriptor that stays open stays with the multiplexer, too.
  let m := if closefd then
    ({ m with interest := Function.update m.interest s.fd none } : Machine).emit (.close s.fd)
    else m
  { srv with
    machine := (m.free s.bindaddr).emit (.free s.packet)
    socketpool := srv.socketpool.eraseP fun t =>
      t.fd = s.fd ∧ t.bindaddr.bytes = s.bindaddr.bytes }

/-- `FindSocket`: the first socket of the pool with the descriptor. -/
def findSocket (srv : Server) (fd : Int) : Option Socket := srv.socketpool.find? (·.fd = fd)

/-- A descriptor that no socket has is no longer watched, and closed. -/
def closeUnknown (srv : Server) (fd : Int) : Server :=
  { srv with machine :=
      ({ srv.machine with interest := Function.update srv.machine.interest fd none } :
        Machine).emit (.close fd) }

/-- `AddSocket`, for a client: nothing is bound. -/
def addSocket (sys : Sys) (srv : Server) (fd : Int) (saddr : SockAddr) :
    Server × Added :=
  let bindaddr := srv.machine.nmalloc (getAddress sys saddr)
  let packet := bindaddr.1.nmalloc (List.replicate pktlen 0)
  let sock : Socket := ⟨fd, 0, saddr, bindaddr.2, packet.2.tok, pktlen⟩
  let srv := { srv with machine := packet.1, socketpool := srv.socketpool ++ [sock] }
  match sys.pushSocket with
  | .stored => (srv, .socket sock)
  | .nomem => (srv.destroySocket sock false, .failed)
  | .astray => (srv, .astray)

def freeLastpacket (m : Machine) (c : Client) : Machine :=
  match c.lastpacket with
  | some last => if last.allocated ≠ 0 then m.free last.p else m
  | none => m

/-- The packets a client owns, and its block buffer, are released. -/
def freeClient (m : Machine) (c : Client) : Machine :=
  let m := (c.packetqueue.filter (·.allocated ≠ 0)).foldl (fun m pq => m.free pq.p) m
  let m := freeLastpacket m c
  match c.blk with
  | some blk => m.free blk
  | none => m

/-- `RemoveClient`. -/
def removeClient (srv : Server) (c : Client) : Server :=
  let srv := srv.destroySocket c.s false
  { srv with
    machine := freeClient srv.machine c, clientpool := srv.clientpool.remove c.ptr }

/-- `AddClient`, of a client just allocated for a socket. -/
def addClient (sys : Sys) (srv : Server) (s : Socket) : Server × Found :=
  let c := Client.new srv.clientpool.fresh s
  let srv := { srv with clientpool := srv.clientpool.push s }
  match sys.pushClient with
  | .stored => (srv, .client c)
  -- Without memory the client is removed, and then written to and returned.
  | .nomem => (srv.removeClient c, .released)
  | .astray => (srv, .astray)

/-- `FindClient`: by descriptor and transfer ID; the negated port is an `int`. -/
def findClient (srv : Server) (fd : Int) (addr : SockAddr) : Option Client :=
  srv.clientpool.clients.find? fun c => c.s.fd = fd ∧ c.tid.toInt = -(getPort addr).toInt

/-- `FindOrAllocateClient`. -/
def findOrAllocateClient (sys : Sys) (srv : Server) (fd : Int) (addr : SockAddr) :
    Server × Found :=
  match srv.findClient fd addr with
  | some c => (srv, .client c)
  | none =>
    match srv.addSocket sys fd addr with
    | (srv, .failed) => (srv, .null)
    | (srv, .socket s) => srv.addClient sys s
    | (srv, .astray) => (srv, .astray)

/-! ## Receiving -/

/-- `ReceivePackets`. -/
def receivePackets (cfg : Config) (sys : Sys) (srv : Server) (s : Socket) (r : Received) :
    Except Crash (Server × Int) :=
  match r with
  | .failed e => .ok (srv, if e = .again ∨ e = .intr then 0 else -1)
  | .datagram src data =>
    -- The client is found or allocated before the datagram is looked at.
    let found := srv.findOrAllocateClient sys s.fd src
    match found.2 with
    | .null => .error ⟨.nullClient, found.1.machine⟩
    | .released => .error ⟨.releasedClient, found.1.machine⟩
    | .astray => .error ⟨.astrayItem, found.1.machine⟩
    | .client c =>
      let c := { c with bytestransferred := c.bytestransferred + receivedLength data }
      match processDatagram cfg sys (found.1.machine.callEvent .receivingPackets) c data with
      | .error crash => .error crash
      | .ok s => .ok (found.1.put s, 0)

/-! ## Sending -/

/-- A packet of the queue, and its index in it, is sent to the client. -/
def sendPacket (sys : Sys) (s : State) (pq : Packetqueue × ℕ) : Except State State :=
  let m := s.1.callEvent .sendingPackets
  match sys.sendto s.2.ptr pq.2 with
  | none => .error (m, s.2)
  | some sendlen =>
    let m := m.emit (.sendto s.2.s.fd s.2.s.addr pq.1.bytes)
    let c := { s.2 with bytestransferred := s.2.bytestransferred + sendlen }
    -- A packet sent again is the last packet of the client, which keeps it.
    .ok (if pq.1.allocated ≠ 0 ∧ pq.1.allocated ≠ 2 then m.free pq.1.p else m, c)

/-- The queue of a client is emptied once it was sent. -/
def clearQueue (s : State) : State :=
  let status := setSocketStatus s.1 s.2.s SF_READABLE
  (status.1, { s.2 with packetqueue := [], s := status.2 })

def closeFile (m : Machine) (c : Client) : Machine :=
  match c.f with
  | some f => m.fclose f
  | none => m

/-- A client whose queue was sent is removed if it is marked for destruction. -/
def finishClient (srv : Server) (s : State) : Server :=
  let s := clearQueue s
  if s.2.destroy then (srv.put (closeFile s.1 s.2, s.2)).removeClient s.2 else srv.put s

/-- The queue of a client is sent. -/
def sendClient (sys : Sys) (srv : Server) (c : Client) : Except Server Server :=
  match Lib.run (sendPacket sys) (srv.machine, c) c.packetqueue.zipIdx with
  | .ok s => .ok (srv.finishClient s)
  -- The queue is left as it was, packets that were sent included.
  | .error s => .error (srv.put s)

/-- `SendPackets`: the queues of all clients are sent, whatever socket is ready. -/
def sendPackets (sys : Sys) (srv : Server) (_s : Socket) : Server × Int :=
  match Lib.foreach (·.clientpool.clients) (sendClient sys) srv with
  | .ok srv => (srv, 0)
  | .error srv => (srv, -1)

/-! ## Checking -/

/-- A client that does not answer gets its last packet again, or is removed. -/
def checkClient (sys : Sys) (srv : Server) (c : Client) : Server :=
  if c.waiting ≠ 0 ∧ c.nextresend ≤ sys.time then
    -- `c->waiting++ >= 3` counts in either case.
    let waited := { c with waiting := c.waiting + 1 }
    if 3 ≤ c.waiting then srv.removeClient waited
    else
      let last := c.lastpacket.getD .zero
      srv.put (queuePacket sys (srv.machine.callEvent .resend) waited last.p last.len 2)
  else srv

/-- `CheckClients`. -/
def checkClients (sys : Sys) (srv : Server) : Server :=
  match Lib.foreach (·.clientpool.clients)
    (fun srv c => (.ok (srv.checkClient sys c) : Except Empty Server)) srv with
  | .ok srv => srv
  | .error e => nomatch e

end Server

/-! ## Steps -/

/-- What the main loop comes to next. -/
inductive Event
  | check
  /-- Modules are told that a socket is ready. -/
  | activity (s : Socket)
  /-- A socket is reported to have failed. -/
  | hangup (s : Socket)
  /-- A descriptor is reported that no socket has. -/
  | unknown (fd : Int)
  | writable (s : Socket)
  | readable (s : Socket) (received : Received)

/-- An event, and what the system calls give then. -/
structure Input where
  sys : Sys
  event : Event

/-- A socket that fails is destroyed. -/
def destroyFailed (s : Socket) (r : Server × Int) : Server :=
  if r.2 = -1 then r.1.destroySocket s true else r.1

/-- A step of the main loop. -/
def step (cfg : Config) (srv : Server) (i : Input) : Except Crash Server :=
  match i.event with
  | .check => .ok (srv.checkClients i.sys)
  | .activity _ => .ok { srv with machine := srv.machine.callEvent .socketActivity }
  | .hangup s => .ok (srv.destroySocket s true)
  | .unknown fd => .ok (srv.closeUnknown fd)
  | .writable s => .ok (destroyFailed s (srv.sendPackets i.sys s))
  | .readable s received => (srv.receivePackets cfg i.sys s received).map (destroyFailed s)

/-- A step with the servers it leads from and to. -/
abbrev ServerStep := Lib.Transition Server Input Crash

/-- A datagram that arrives: its descriptor, its sender and its bytes. -/
structure Arrival where
  fd : Int
  src : SockAddr
  data : Bytes

def Input.arrival (i : Input) : Option Arrival :=
  match i.event with
  | .readable s (.datagram src data) => some ⟨s.fd, src, data⟩
  | _ => none

/-- The client a datagram is handed to. -/
def Server.handler (sys : Sys) (srv : Server) (a : Arrival) : Option Client :=
  match (srv.findOrAllocateClient sys a.fd a.src).2 with
  | .client c => some c
  | _ => none

end Nbstftp
