import Nbstftp.CString

/-!
# The machine the server runs on

What the server asks of the operating system has two parts:

* `Sys`, the outcomes of the system calls, which the server does not control:
  everything proved for all `Sys` holds whatever they are;
* `Machine`, what the calls change: the contents of the files, the supply of
  file handles and of memory blocks, the interest registered with the
  multiplexer, and the record of the calls made (`Effect`).

Memory blocks are identified by the token `nmalloc` gives them. A block handed
from function to function is carried with its bytes (`Buffer`), as the server
never writes to a block it has handed on.
-/

namespace Nbstftp

/-- The error codes of the system the server tells apart. -/
inductive Errno
  | intr
  | again
  | nomem
  | acces
  | range
  | other (code : ℕ)
  deriving DecidableEq

/-- `errno`, as printed by `%d`. -/
def Errno.number : Errno → ℕ
  | .intr => 4
  | .again => 11
  | .nomem => 12
  | .acces => 13
  | .range => 34
  | .other code => code

/-- The modes a file is opened in; `r` is that of `FileExists`. -/
inductive OpenMode
  | r
  | rt
  | rb
  | wt
  | wb
  deriving DecidableEq

def OpenMode.writes : OpenMode → Bool
  | .wt | .wb => true
  | _ => false

inductive AccessMode
  | readOK
  | writeOK

/-- What becomes of an item given to `vec_push`. -/
inductive Push
  /-- It is in the vector, and `errno` is not `ENOMEM`. -/
  | stored
  /-- It is in the vector, and `errno` is `ENOMEM`: without memory for a larger block
      it lies right behind the block, in what the allocator left unused there. -/
  | nomem
  /-- Without memory it was written through a null pointer, or over other blocks. -/
  | astray
  deriving DecidableEq

/-- The outcomes of the system calls made while a datagram is handled or the
    queues are flushed, and what is in memory nobody has written. -/
structure Sys where
  /-- The clock. -/
  time : Int
  /-- Whether `stat` finds a file, and whether it is a directory. -/
  stat : Bytes → Option Bool
  /-- The error `access` reports, if any. -/
  access : Bytes → AccessMode → Option Errno
  /-- The error `fopen` reports, if any. -/
  fopen : Bytes → OpenMode → Option Errno
  /-- The most bytes one `fread` of so many delivers. -/
  fread : ℕ → ℕ
  /-- The most bytes one `fwrite` of so many stores. -/
  fwrite : ℕ → ℕ
  strerror : Errno → Bytes
  /-- `asprintf` finds no memory for a path. -/
  nomem : Bool
  /-- The string an uninitialised pointer happens to point to, if it can be followed. -/
  uninit : Option Bytes
  /-- The text of the address at a pointer. -/
  inetNtop : Bytes → Bytes
  /-- `vec_push` of a socket to the socket pool. -/
  pushSocket : Push
  /-- `vec_push` of a client to the client pool. -/
  pushClient : Push
  /-- The bytes `sendto` accepts of a queue entry of a client (its address in
      memory and the index of the entry), if it does not fail. -/
  sendto : ℕ → ℕ → Option ℕ

/-- The system on which everything works. -/
def Sys.ideal : Sys where
  time := 0
  stat _ := some false
  access _ _ := none
  fopen _ _ := none
  fread n := n
  fwrite n := n
  strerror _ := []
  nomem := false
  uninit := some []
  inetNtop := id
  pushSocket := .stored
  pushClient := .stored
  sendto _ _ := some 0

/-! ## Addresses -/

/-- A socket address (`socketstructs_t`): those of the descriptors the server
    binds are of IPv4 or IPv6. -/
inductive SockAddr
  | inet (port : UInt16) (addr : BitVec 32)
  | inet6 (port : UInt16) (flowinfo : BitVec 32) (addr : BitVec 128) (scopeId : BitVec 32)
  deriving DecidableEq

/-- An address family and an IP address. -/
inductive IpAddr
  | v4 (addr : BitVec 32)
  | v6 (addr : BitVec 128)
  deriving DecidableEq

namespace SockAddr

def port : SockAddr → UInt16
  | .inet port _ => port
  | .inet6 port _ _ _ => port

/-- Who is at an address: family, IP address and UDP port. -/
def endpoint : SockAddr → IpAddr × UInt16
  | .inet port addr => (.v4 addr, port)
  | .inet6 port _ addr _ => (.v6 addr, port)

/-- The bytes of a word of `n` bytes in network order. -/
def wordBytes {w : ℕ} (n : ℕ) (x : BitVec w) : Bytes :=
  (List.range n).map fun i => UInt8.ofNat (x.toNat >>> (8 * (n - 1 - i)))

/-- The address as it lies in memory (family `AF_INET` is 2, `AF_INET6` is 10). -/
def bytes : SockAddr → Bytes
  | .inet port addr => [2, 0] ++ htons port ++ wordBytes 4 addr
  | .inet6 port flowinfo addr scopeId =>
    [10, 0] ++ htons port ++ wordBytes 4 flowinfo ++ wordBytes 16 addr ++ wordBytes 4 scopeId

/-- The size of the address `inet_ntop` formats, by family. -/
def ipLength : SockAddr → ℕ
  | .inet .. => 4
  | .inet6 .. => 16

end SockAddr

/-! ## Effects -/

/-- The events modules are called with while sockets and packets are handled. -/
inductive ModuleEvent
  | socketActivity
  | newReadRequest
  | newWriteRequest
  | dataPacket
  | ackPacket
  | errorPacket
  | unknownPacket
  | sendingPackets
  | receivingPackets
  | resend
  deriving DecidableEq

/-- A call whose outcome is seen outside the server. -/
inductive Effect
  | fopen (path : Bytes) (mode : OpenMode)
  | fclose (file : ℕ)
  | close (fd : Int)
  | free (tok : ℕ)
  | sendto (fd : Int) (addr : SockAddr) (packet : Bytes)
  | event (e : ModuleEvent)
  /-- The line logged for a request: filename, mode, option and parameter. -/
  | logRequest (write : Bool) (filename mode opt optparam : Bytes)
  deriving DecidableEq

/-! ## The machine -/

/-- A memory block and the bytes in it. -/
structure Buffer where
  tok : ℕ
  bytes : Bytes
  deriving DecidableEq

/-- An open `FILE`: which `fopen` gave it, its path, position and mode. Every
    handle has a single owner, which carries it. -/
structure File where
  id : ℕ
  path : Bytes
  pos : ℕ
  mode : OpenMode
  deriving DecidableEq

/-- A handle on a path at a position, for writing or for reading. -/
structure File.On (f : File) (writes : Bool) (path : Bytes) (pos : ℕ) : Prop where
  path : f.path = path
  pos : f.pos = pos
  mode : f.mode.writes = writes

/-- What `fwrite` returns for `n` bytes; a file opened for reading takes none. -/
def fwriteCount (sys : Sys) (f : File) (n : ℕ) : ℕ :=
  if f.mode.writes then min n (sys.fwrite n) else 0

structure Machine where
  /-- The contents of the files, what a stream was given to write included: that it
      may be in the buffer of the stream up to `fclose` is left out. -/
  files : Bytes → Bytes
  nextfile : ℕ
  nexttok : ℕ
  /-- The status each registered descriptor is watched for. -/
  interest : Int → Option UInt32
  effects : List Effect

/-- Why the process stops, or has no defined behaviour from there on. -/
inductive Fault
  /-- An `assert` fails. -/
  | assertion
  /-- A read or a write on a null `FILE`. -/
  | nullFile
  /-- A null path is used. -/
  | nullPath
  /-- A null client is used. -/
  | nullClient
  /-- A released client is used. -/
  | releasedClient
  /-- A pointer that was never assigned is followed. -/
  | wildPointer
  /-- An item is written outside of the block of its vector. -/
  | astrayItem
  /-- Bytes past the end of the receive buffer are read. -/
  | overread
  /-- Bytes past the end of the block buffer are written. -/
  | overflow
  deriving DecidableEq

/-- A fault, and the machine it leaves. -/
structure Crash where
  fault : Fault
  machine : Machine

namespace Machine

/-- Nothing done yet, with the given files and registered descriptors; the token
    `0` is that of the null pointer. -/
def boot (files : Bytes → Bytes) (interest : Int → Option UInt32) : Machine :=
  ⟨files, 0, 1, interest, []⟩

def emit (m : Machine) (e : Effect) : Machine := { m with effects := m.effects ++ [e] }

/-- `CallEvent`. -/
def callEvent (m : Machine) (e : ModuleEvent) : Machine := m.emit (.event e)

/-- `nmalloc`, of a block then filled with `bytes`. -/
def nmalloc (m : Machine) (bytes : Bytes) : Machine × Buffer :=
  ({ m with nexttok := m.nexttok + 1 }, ⟨m.nexttok, bytes⟩)

def free (m : Machine) (b : Buffer) : Machine := m.emit (.free b.tok)

/-- Opening for writing truncates. -/
def fopen (sys : Sys) (m : Machine) (path : Bytes) (mode : OpenMode) :
    Machine × Except Errno File :=
  let m := m.emit (.fopen path mode)
  match sys.fopen path mode with
  | some e => (m, .error e)
  | none =>
    ({ m with
        nextfile := m.nextfile + 1
        files := if mode.writes then Function.update m.files path [] else m.files },
      .ok ⟨m.nextfile, path, 0, mode⟩)

def fclose (m : Machine) (f : File) : Machine := m.emit (.fclose f.id)

/-- Reading at most `n` bytes; nothing comes of a file opened for writing. -/
def fread (sys : Sys) (m : Machine) (f : File) (n : ℕ) : Bytes × File :=
  let data := if f.mode.writes then [] else
    ((m.files f.path).drop f.pos).take (min n (sys.fread n))
  (data, { f with pos := f.pos + data.length })

/-- Writing `n` bytes from the start of `data`. -/
def fwrite (sys : Sys) (m : Machine) (f : File) (data : Bytes) (n : ℕ) : Machine × File :=
  let data := data.take (fwriteCount sys f n)
  ({ m with files := Function.update m.files f.path (poke (m.files f.path) f.pos data) },
    { f with pos := f.pos + data.length })

end Machine

/-- `FileExists`: a file, not a directory, that can be opened and read. -/
def fileExists (sys : Sys) (m : Machine) (path : Bytes) : Machine × Bool :=
  match sys.stat path with
  | none | some true => (m, false)
  | some false =>
    match m.fopen sys path .r with
    | (m, .error _) => (m, false)
    | (m, .ok input) => (m.fclose input, (sys.access path .readOK).isNone)

end Nbstftp
