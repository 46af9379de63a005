import Nbstftp.Client

/-!
# Building and queueing packets

Everything the server sends is built by one of `sendData`, `acknowledge`,
`error` and `optionAcknowledge` and goes through `queuePacket`, which keeps a
copy of the last packet for retransmission and registers the descriptor for
writing.
-/

namespace Nbstftp

/-- The opcodes of packets. -/
inductive Opcode
  | rrq
  | wrq
  | data
  | ack
  | error
  | oack
  deriving DecidableEq

def Opcode.code : Opcode → UInt16
  | .rrq => 1
  | .wrq => 2
  | .data => 3
  | .ack => 4
  | .error => 5
  | .oack => 6

/-- The error codes of ERROR packets. -/
inductive ErrorCode
  | undefined
  | nofile
  | access
  | diskfull
  | illegal
  | unknowntid
  | fileexists
  | nouser
  | option
  deriving DecidableEq

def ErrorCode.code : ErrorCode → UInt16
  | .undefined => 0
  | .nofile => 1
  | .access => 2
  | .diskfull => 3
  | .illegal => 4
  | .unknowntid => 5
  | .fileexists => 6
  | .nouser => 7
  | .option => 8

/-- `MAX_PACKET_SIZE`, and the size of the header of a packet (`packet_s`). -/
def maxPacketSize : ℕ := 516
def headerSize : ℕ := 4

/-! ## The queue -/

/-- `QueuePacket`: the copy kept of a fresh packet replaces the last one. -/
def queuePacket (sys : Sys) (m : Machine) (c : Client) (p : Buffer) (len : ℕ)
    (allocated : UInt8) : Machine × Client :=
  let pack : Packetqueue := ⟨p, len, allocated⟩
  let copy := m.nmalloc (p.bytes.take len)
  let m := if allocated = 2 then m else copy.1
  let status := setSocketStatus m c.s (SF_WRITABLE ||| SF_READABLE)
  (status.1, { c with
    packetqueue := c.packetqueue ++ [pack]
    lastpacket := if allocated = 2 then c.lastpacket else some { pack with p := copy.2 }
    nextresend := sys.time + 5
    s := status.2 })

/-! ## Builders -/

/-- `SendData`. -/
def sendData (sys : Sys) (m : Machine) (c : Client) (data : Bytes) : Machine × Client :=
  let p := m.nmalloc (htons Opcode.data.code ++ htons c.currentblockno ++ data)
  queuePacket sys p.1 c p.2 (data.length + headerSize) 1

/-- `Acknowledge`. -/
def acknowledge (sys : Sys) (m : Machine) (c : Client) (blockno : UInt16) : Machine × Client :=
  let p := m.nmalloc (htons Opcode.ack.code ++ htons blockno)
  queuePacket sys p.1 c p.2 headerSize 1

/-- `Error`: the formatted message has to fit into a packet. -/
def errorWith (sys : Sys) (m : Machine) (c : Client) (errnum : UInt16) (buf : Bytes) :
    Except Crash (Machine × Client) :=
  if buf.length + headerSize ≤ maxPacketSize then
    let p := m.nmalloc (htons Opcode.error.code ++ htons errnum ++ buf ++ [0])
    let q := queuePacket sys p.1 c p.2 (buf.length + headerSize + 1) 1
    .ok (q.1, q.2.destroyIf true)
  else .error ⟨.assertion, m⟩

/-- `Error` with one of the codes there are. -/
def error (sys : Sys) (m : Machine) (c : Client) (errnum : ErrorCode) (buf : Bytes) :
    Except Crash (Machine × Client) :=
  errorWith sys m c errnum.code buf

/-- The packet `OptionAcknowledge` builds, write by write: the terminator of the
    parameter goes where the parameter starts. -/
def oackBytes (option param : Bytes) : Bytes :=
  let p := List.replicate (headerSize + option.length + param.length + 2) 0
  let p := poke p 0 (htons Opcode.oack.code)
  let pptr := 2
  let p := poke p pptr (option ++ [0])
  let pptr := pptr + option.length
  let p := poke p pptr [0]
  let pptr := pptr + 1
  let p := poke p pptr (param ++ [0])
  poke p pptr [0]

/-- `OptionAcknowledge`. -/
def optionAcknowledge (sys : Sys) (m : Machine) (c : Client) (option param : Bytes) :
    Machine × Client :=
  let p := m.nmalloc (oackBytes option param)
  queuePacket sys p.1 c p.2 (headerSize + option.length + param.length + 2) 1

end Nbstftp
