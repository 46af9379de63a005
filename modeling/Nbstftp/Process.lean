import Nbstftp.Packet

/-!
# Processing a datagram

`processPacket` handles one datagram for the client it belongs to, by opcode:
`processData`, `processError`, `processAck`, `processWrq` and `processRrq` are
the cases of the switch, in the order of the source. A case that fails in a way
C leaves undefined, or by an assertion, ends in a `Crash`.

A datagram is read from the receive buffer, which is longer than it and filled
up with zeros (`receiveBuffer`).
-/

namespace Nbstftp

/-- The configuration of the server, as far as requests depend on it. -/
structure Config where
  directory : Bytes
  fixpath : Bool

/-- What a case of the switch leaves: the machine and the client. -/
abbrev Outcome := Except Crash (Machine × Client)

/-- The size of the buffer of a socket (`pktlen`): the largest block, and a header. -/
def pktlen : ℕ := 65464 + 4

/-- The receive buffer of a socket after a datagram arrived: longer ones are cut. -/
def receiveBuffer (datagram : Bytes) : Bytes :=
  datagram.take pktlen ++ List.replicate (pktlen - datagram.length) 0

/-- The size of a received datagram, as `recvfrom` gives it. -/
def receivedLength (datagram : Bytes) : ℕ := min datagram.length pktlen

/-- A datagram is no longer waited for, and a packet sent again is released. -/
def releaseLastpacket (m : Machine) (c : Client) : Machine × Client :=
  match c.lastpacket with
  | some last =>
    if last.allocated = 2 then
      (m.free last.p, { c with
        waiting := 0, lastpacket := some { last with allocated := 0, len := 0 } })
    else (m, { c with waiting := 0 })
  | none => (m, { c with waiting := 0 })

/-! ## DATA, ERROR and ACK -/

/-- `len - sizeof(packet_t)`, a difference of `size_t`. -/
def payloadLength (len : ℕ) : ℕ := (len + UInt64.size - headerSize) % UInt64.size

/-- The block of a DATA packet is appended to the file, whatever its number. -/
def storeBlock (sys : Sys) (m : Machine) (c : Client) (p : Bytes) (len : ℕ) : Outcome :=
  if c.sendingfile then
    match c.f with
    | none => .error ⟨.nullFile, m⟩
    | some f =>
      -- Below the size of a header the count wraps around, and may be larger than the buffer.
      if p.length < headerSize + fwriteCount sys f (payloadLength len) then
        .error ⟨.overread, m⟩
      else
        let w := m.fwrite sys f (p.drop headerSize) (payloadLength len)
        let c := { c with
          currentblockno := c.currentblockno + 1
          actualblockno := c.actualblockno + 1
          f := some w.2 }
        let a := acknowledge sys w.1 c (ntohs p 2)
        .ok (a.1, a.2.destroyIf (payloadLength len < 512))
  else .ok (m, c)

/-- `case PACKET_DATA`. -/
def processData (sys : Sys) (m : Machine) (c : Client) (p : Bytes) (len : ℕ) : Outcome :=
  let r := releaseLastpacket m c
  storeBlock sys (r.1.callEvent .dataPacket) r.2 p len

/-- `case PACKET_ERROR`. -/
def processError (sys : Sys) (m : Machine) (c : Client) : Outcome :=
  let r := releaseLastpacket m c
  let a := acknowledge sys (r.1.callEvent .errorPacket) r.2 1
  .ok (a.1, a.2.destroyIf true)

/-- The block buffer, allocated if need be for the block size of the moment. -/
def blockBuffer (m : Machine) (c : Client) : Machine × Buffer :=
  match c.blk with
  | some blk => (m, blk)
  | none => m.nmalloc (List.replicate c.blksize 0)

/-- The next block is read and sent, whatever block was acknowledged. -/
def sendNextBlock (sys : Sys) (m : Machine) (c : Client) : Outcome :=
  if c.sendingfile then
    let alloc := blockBuffer m c
    -- A buffer of a smaller block size is kept when a larger one is negotiated.
    if alloc.2.bytes.length < c.blksize then .error ⟨.overflow, alloc.1⟩
    else match c.f with
      | none => .error ⟨.nullFile, alloc.1⟩
      | some f =>
        let read := alloc.1.fread sys f c.blksize
        let zeroed := poke alloc.2.bytes 0 (List.replicate c.blksize 0)
        let blk := { alloc.2 with bytes := poke zeroed 0 read.1 }
        let c := { c with
          blk := some blk
          f := some read.2
          currentblockno := c.currentblockno + 1
          actualblockno := c.actualblockno + 1 }
        let d := sendData sys alloc.1 c (blk.bytes.take read.1.length)
        -- The end of the file: the block read is short.
        .ok (d.1, d.2.destroyIf (min c.blksize read.1.length ≠ c.blksize))
  else .ok (m, c)

/-- `case PACKET_ACK`. -/
def processAck (sys : Sys) (m : Machine) (c : Client) : Outcome :=
  let r := releaseLastpacket m c
  sendNextBlock sys (r.1.callEvent .ackPacket) r.2

/-! ## Requests -/

/-- `GetNext`: the string at offset `data` of the buffer, and the offset behind it. -/
def getNext (p : Bytes) (data mlen : ℕ) : Bytes × ℕ :=
  (strndup (p.drop data) mlen, data + strnlen (p.drop data) mlen + 1)

/-- The fields of a request; the pointer to the parameter of an empty option is never
    assigned. -/
structure Request where
  filename : Bytes
  mode : Bytes
  opt : Bytes
  optparam : Option Bytes
  deriving DecidableEq

/-- The modes a file is opened in: text for `netascii`. -/
def Request.readMode (q : Request) : OpenMode :=
  if strcasecmp q.mode (ascii "netascii") = 0 then .rt else .rb

def Request.writeMode (q : Request) : OpenMode :=
  if strcasecmp q.mode (ascii "netascii") = 0 then .wt else .wb

/-- The line logged for a request, if it can be: the string at the pointer to the
    parameter is printed even if that was never assigned. -/
def Request.log (q : Request) (sys : Sys) (write : Bool) : Option Effect :=
  (q.optparam.or sys.uninit).map (.logRequest write q.filename q.mode q.opt)

/-- The parameter of an option that is not empty. -/
def Request.param (q : Request) : Bytes := q.optparam.getD []

/-- The parsing of both kinds of requests. -/
def parseRequest (p : Bytes) (alloclen : ℕ) : Request :=
  let maxlen := alloclen - 2
  let filename := getNext p 2 maxlen
  let mode := getNext p filename.2 maxlen
  let opt := getNext p mode.2 maxlen
  let optparam := if strnlen opt.1 maxlen ≠ 0 then some (getNext p opt.2 maxlen).1 else none
  ⟨filename.1, mode.1, opt.1, optparam⟩

/-- `FixPath`. -/
def fixPath (str : Bytes) : Bytes := str.map fun b => if b = 92 then 47 else b

/-- The path a filename is served from. -/
def requestPath (cfg : Config) (filename : Bytes) : Bytes :=
  cfg.directory ++ ascii "/" ++ if cfg.fixpath then fixPath filename else filename

/-- `access(tmp, W_OK) == -1 || access(config->directory, W_OK) == -1`, with
    `errno` being `EACCES`. -/
def accessDenied (cfg : Config) (sys : Sys) (tmp : Bytes) : Bool :=
  match sys.access tmp .writeOK with
  | some e => e = .acces
  | none => sys.access cfg.directory .writeOK = some .acces

/-- A write request, once logged. -/
def serveWrq (cfg : Config) (sys : Sys) (m : Machine) (c : Client) (q : Request) : Outcome :=
  if strcasecmp q.mode (ascii "mail") = 0 then
    error sys m c .illegal (ascii "Mail mode not supported by NBSTFTP")
  else if sys.nomem then error sys m c .undefined (ascii "Out of Memory")
  else
    let tmp := requestPath cfg q.filename
    if accessDenied cfg sys tmp then
      error sys m c .nouser (ascii "Cannot access file: " ++ sys.strerror .acces)
    else
      match m.fopen sys tmp q.writeMode with
      | (m, .error e) => error sys m c .nofile (ascii "Cannot write file: " ++ sys.strerror e)
      | (m, .ok f) =>
        -- A file the client has from before is overwritten, and stays open.
        let c := { c with
          f := some f, currentblockno := 1, actualblockno := 1, sendingfile := true }
        .ok (acknowledge sys (m.callEvent .newWriteRequest) c 0)

/-- `case PACKET_WRQ`. -/
def processWrq (cfg : Config) (sys : Sys) (m : Machine) (c : Client) (p : Bytes)
    (alloclen : ℕ) : Outcome :=
  let r := releaseLastpacket m c
  let q := parseRequest p alloclen
  match q.log sys true with
  | none => .error ⟨.wildPointer, r.1⟩
  | some line => serveWrq cfg sys (r.1.emit line) r.2 q

/-- `if (!FileExists(tmp)) Error(...)`: a missing file is reported, which is not
    the end of the request. -/
def reportMissing (sys : Sys) (m : Machine) (c : Client) (tmp : Bytes) : Outcome :=
  let found := fileExists sys m tmp
  if found.2 then .ok (found.1, c)
  else error sys found.1 c .nofile
    (ascii "File " ++ tmp ++ ascii " does not exist on the filesystem.")

/-- `case PACKET_RRQ` from `fopen` on; `tsize` if the size of the file is asked
    for. -/
def serveFile (sys : Sys) (m : Machine) (c : Client) (q : Request) (tmp : Bytes)
    (tsize : Bool) : Outcome :=
  match m.fopen sys tmp q.readMode with
  | (m, .error e) => error sys m c .nofile (ascii "Cannot open file: " ++ sys.strerror e)
  | (m, .ok f) =>
    if tsize then
      -- Only the size was asked for: the file is not kept.
      let a := optionAcknowledge sys m c q.opt (decimal (m.files tmp).length)
      .ok (a.1.fclose f, a.2)
    -- A block size was acknowledged, or a transfer is on: the next ACK gets a block.
    else if c.sendingfile then .ok (m, { c with f := some f })
    else
      let read := m.fread sys f 512
      let c := { c with
        f := some read.2, sendingfile := true, currentblockno := 1, actualblockno := 1 }
      .ok (sendData sys (m.callEvent .newWriteRequest) c read.1)

/-- `case PACKET_RRQ` from the path on. -/
def openForRead (cfg : Config) (sys : Sys) (m : Machine) (c : Client) (q : Request)
    (tsize : Bool) : Outcome :=
  if sys.nomem then .error ⟨.nullPath, m⟩
  else
    let tmp := requestPath cfg q.filename
    match reportMissing sys m c tmp with
    | .error crash => .error crash
    | .ok (m, c) => serveFile sys m c q tmp tsize

/-- `OptionAcknowledge` of a block size: the ACK of the option is to be answered
    with the first block. -/
def negotiate (sys : Sys) (m : Machine) (c : Client) (q : Request) (optparam : Bytes)
    (blksize : ℕ) : Machine × Client :=
  let a := optionAcknowledge sys m c q.opt optparam
  -- The transfer is on before the file has been opened.
  (a.1, { a.2 with
    sendingfile := true, currentblockno := 0, actualblockno := 0, blksize := blksize })

/-- A read request, once logged. -/
def serveRrq (cfg : Config) (sys : Sys) (m : Machine) (c : Client) (q : Request) : Outcome :=
  if strcasecmp q.mode (ascii "mail") = 0 then
    error sys m c .illegal (ascii "Mail mode not supported by NBSTFTP")
  else if strcasecmp q.opt (ascii "blksize") = 0 then
    let blksize := strtol q.param
    if blksize.2 then
      error sys m c .option (ascii "Invalid block size " ++ q.param ++ ascii ": " ++
        sys.strerror .range ++ ascii " (" ++ decimal Errno.range.number ++ ascii ")")
    else if blksize.1 < 8 ∨ 65464 < blksize.1 then
      error sys m c .option (ascii "Invalid block size " ++ decimalInt blksize.1)
    else
      let a := negotiate sys m c q q.param blksize.1.toNat
      openForRead cfg sys a.1 a.2 q false
  else openForRead cfg sys m c q (strcasecmp q.opt (ascii "tsize") = 0)

/-- `case PACKET_RRQ`. -/
def processRrq (cfg : Config) (sys : Sys) (m : Machine) (c : Client) (p : Bytes)
    (alloclen : ℕ) : Outcome :=
  let r := releaseLastpacket m c
  let q := parseRequest p alloclen
  match q.log sys false with
  | none => .error ⟨.wildPointer, r.1⟩
  | some line => serveRrq cfg sys (r.1.emit line) r.2 q

/-! ## The switch -/

/-- `ProcessPacket`: a datagram of `len` bytes at the start of the buffer `p`, of
    `alloclen` bytes. -/
def processPacket (cfg : Config) (sys : Sys) (m : Machine) (c : Client) (p : Bytes)
    (len alloclen : ℕ) : Outcome :=
  if maxPacketSize < len then .ok (m, c)
  else if ntohs p 0 = Opcode.data.code then processData sys m c p len
  else if ntohs p 0 = Opcode.error.code then processError sys m c
  else if ntohs p 0 = Opcode.ack.code then processAck sys m c
  else if ntohs p 0 = Opcode.wrq.code then processWrq cfg sys m c p alloclen
  else if ntohs p 0 = Opcode.rrq.code then processRrq cfg sys m c p alloclen
  else .ok (m.callEvent .unknownPacket, c)

/-- `ProcessPacket` on a datagram as `ReceivePackets` hands it over. -/
def processDatagram (cfg : Config) (sys : Sys) (m : Machine) (c : Client) (datagram : Bytes) :
    Outcome :=
  processPacket cfg sys m c (receiveBuffer datagram) (receivedLength datagram) pktlen

end Nbstftp
