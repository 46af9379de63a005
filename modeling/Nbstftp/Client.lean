import Nbstftp.System

/-!
# Clients

A client is one transfer with one endpoint: its socket (a copy of the listening
descriptor, with the address of the endpoint), the state of the transfer and
the packets queued for it.

The state of the transfer proper, i.e., the counters, the flags, the file and
the block buffer, is read off a client by `Client.transfer`: most of what the
server does to a client (queueing, sending, resending) leaves it alone, and is
said to do so in one equation.
-/

namespace Nbstftp

/-- A status of a socket: watched for writing, for reading. -/
def SF_WRITABLE : UInt32 := 1
def SF_READABLE : UInt32 := 2

/-- `socket_s`. -/
structure Socket where
  fd : Int
  flags : UInt32
  addr : SockAddr
  /-- The text of the address the socket was added with. -/
  bindaddr : Buffer
  /-- The token of the receive buffer, of `pktlen` bytes. -/
  packet : ℕ
  pktlen : ℕ
  deriving DecidableEq

/-- `packetqueue_s`: a packet, and whether it is to be released once sent (`1`)
    or is a packet sent again (`2`). -/
structure Packetqueue where
  p : Buffer
  len : ℕ
  allocated : UInt8
  deriving DecidableEq

/-- The zeros a client has for a last packet until it has queued one. -/
def Packetqueue.zero : Packetqueue := ⟨⟨0, []⟩, 0, 0⟩

/-- The bytes of a queued packet that go on the wire. -/
def Packetqueue.bytes (q : Packetqueue) : Bytes := q.p.bytes.take q.len

/-- `client_s`; `ptr` is its address in memory. -/
structure Client where
  ptr : ℕ
  s : Socket
  currentblockno : UInt16
  /-- The count of blocks, which the 16 bits of `currentblockno` wrap. -/
  actualblockno : ℕ
  waiting : UInt8
  sendingfile : Bool
  destroy : Bool
  nextresend : Int
  bytestransferred : Int
  lastpacket : Option Packetqueue
  packetqueue : List Packetqueue
  f : Option File
  tid : Int16
  blksize : ℕ
  /-- The block buffer, of as many bytes as were allocated. -/
  blk : Option Buffer
  deriving DecidableEq

/-- The state of a transfer. -/
structure Transfer where
  currentblockno : UInt16
  actualblockno : ℕ
  sendingfile : Bool
  destroy : Bool
  f : Option File
  blksize : ℕ
  blk : Option Buffer
  deriving DecidableEq

/-- The state of a transfer that has not started. -/
def Transfer.fresh : Transfer := ⟨0, 0, false, false, none, 512, none⟩

/-- The size of the block buffer: until it is allocated, what would be. -/
def Transfer.capacity (t : Transfer) : ℕ :=
  match t.blk with
  | some blk => blk.bytes.length
  | none => t.blksize

/-- `GetPort`. -/
def getPort (s : SockAddr) : Int16 := s.port.toInt16

namespace Client

def transfer (c : Client) : Transfer :=
  ⟨c.currentblockno, c.actualblockno, c.sendingfile, c.destroy, c.f, c.blksize, c.blk⟩

/-- A client just allocated for a socket: zeros, but for what `AddClient` sets. -/
def new (ptr : ℕ) (s : Socket) : Client where
  ptr := ptr
  s := s
  currentblockno := 0
  actualblockno := 0
  waiting := 0
  sendingfile := false
  destroy := false
  nextresend := 0
  bytestransferred := 0
  lastpacket := none
  packetqueue := []
  f := none
  tid := -getPort s.addr
  blksize := 512
  blk := none

/-- `if (cond) c->destroy = 1`. -/
def destroyIf (c : Client) (cond : Bool) : Client := { c with destroy := c.destroy || cond }

@[simp] theorem new_transfer (ptr : ℕ) (s : Socket) : (new ptr s).transfer = .fresh := rfl

end Client

/-- What never changes about a client: its address in memory, its descriptor, its
    endpoint and its transfer ID. -/
structure Identity where
  ptr : ℕ
  fd : Int
  addr : SockAddr
  tid : Int16

def Client.identity (c : Client) : Identity := ⟨c.ptr, c.s.fd, c.s.addr, c.tid⟩

/-- `SetSocketStatus`: the status is noted in this copy of the socket, and
    registered for its descriptor, if that is watched at all. -/
def setSocketStatus (m : Machine) (s : Socket) (status : UInt32) : Machine × Socket :=
  ({ m with interest :=
      if (m.interest s.fd).isSome then Function.update m.interest s.fd (some status)
      else m.interest },
    { s with flags := status })

end Nbstftp
