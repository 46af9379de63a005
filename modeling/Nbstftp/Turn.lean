import Nbstftp.Request
import Nbstftp.Lib.Trace

/-!
# Turns

The life of a client is a sequence of *turns*: meanwhile, the rest of the server
runs, flushing the queue of the client or doing something for other clients;
then a datagram of the client is processed. A run of turns is recorded as its
*exchanges*, i.e., as the transitions of `turn`.

Datagrams are told apart the way the server does, by the receive buffer they
leave (`IsPacket`, `blocknoOf`, `requestOf`).
-/

namespace Nbstftp

/-! ## Datagrams -/

def opcodeOf (datagram : Bytes) : UInt16 := ntohs (receiveBuffer datagram) 0

def blocknoOf (datagram : Bytes) : UInt16 := ntohs (receiveBuffer datagram) 2

/-- The request in a datagram, should it be one. -/
def requestOf (datagram : Bytes) : Request := parseRequest (receiveBuffer datagram) pktlen

/-- The fields of a datagram are read from the buffer. -/
theorem ntohs_receiveBuffer {datagram : Bytes} (h : datagram.length ≤ pktlen) (off : ℕ) :
    ntohs (receiveBuffer datagram) off = ntohs datagram off := by
  have hget : ∀ i, (receiveBuffer datagram).getD i 0 = datagram.getD i 0 := by
    intro i
    rw [receiveBuffer, List.take_of_length_le h, List.getD_eq_getElem?_getD,
      List.getD_eq_getElem?_getD, List.getElem?_append]
    rcases Nat.lt_or_ge i datagram.length with hi | hi
    · rw [if_pos hi]
    · -- Behind the datagram, the buffer is filled up with zeros.
      rw [if_neg (Nat.not_lt.2 hi), List.getElem?_replicate, List.getElem?_eq_none hi]
      split <;> rfl
  rw [ntohs, ntohs, hget, hget]

/-- A datagram that is not too large and has a given opcode. -/
def IsPacket (op : Opcode) (datagram : Bytes) : Prop :=
  datagram.length ≤ maxPacketSize ∧ opcodeOf datagram = op.code

instance (op : Opcode) (datagram : Bytes) : Decidable (IsPacket op datagram) :=
  inferInstanceAs (Decidable (_ ∧ _))

theorem isPacket_iff {op : Opcode} {datagram : Bytes} :
    IsPacket op datagram ↔ datagram.length ≤ maxPacketSize ∧ ntohs datagram 0 = op.code := by
  refine and_congr_right fun h => ?_
  rw [opcodeOf, ntohs_receiveBuffer (Nat.le_trans h (by decide))]

theorem isPacket_ackBytes (blockno : UInt16) : IsPacket .ack (ackBytes blockno) :=
  isPacket_iff.2 ⟨by simp [ackBytes, maxPacketSize], by rw [ackBytes, ntohs_htons_append]⟩

theorem blocknoOf_ackBytes (blockno : UInt16) : blocknoOf (ackBytes blockno) = blockno := by
  rw [blocknoOf, ntohs_receiveBuffer (by simp [ackBytes, pktlen]), ackBytes,
    ntohs_htons_append_two, ← List.append_nil (htons blockno), ntohs_htons_append]

section

variable (cfg : Config) (sys : Sys) (m : Machine) (c : Client) {datagram : Bytes}

theorem processDatagram_large (h : ¬datagram.length ≤ maxPacketSize) :
    processDatagram cfg sys m c datagram = .ok (m, c) := by
  rw [processDatagram, processPacket, if_pos]
  rw [receivedLength, pktlen, maxPacketSize] at *
  omega

/-- A datagram that is not too large goes by its opcode. -/
theorem processDatagram_eq (h : datagram.length ≤ maxPacketSize) :
    processDatagram cfg sys m c datagram =
      if opcodeOf datagram = Opcode.data.code then
        processData sys m c (receiveBuffer datagram) (receivedLength datagram)
      else if opcodeOf datagram = Opcode.error.code then processError sys m c
      else if opcodeOf datagram = Opcode.ack.code then processAck sys m c
      else if opcodeOf datagram = Opcode.wrq.code then
        processWrq cfg sys m c (receiveBuffer datagram) pktlen
      else if opcodeOf datagram = Opcode.rrq.code then
        processRrq cfg sys m c (receiveBuffer datagram) pktlen
      else .ok (m.callEvent .unknownPacket, c) := by
  refine if_neg ?_
  rw [receivedLength]
  omega

theorem processDatagram_data (h : IsPacket .data datagram) :
    processDatagram cfg sys m c datagram =
      processData sys m c (receiveBuffer datagram) (receivedLength datagram) := by
  rw [processDatagram_eq cfg sys m c h.1, h.2, if_pos rfl]

theorem processDatagram_error (h : IsPacket .error datagram) :
    processDatagram cfg sys m c datagram = processError sys m c := by
  rw [processDatagram_eq cfg sys m c h.1, h.2, if_neg (by decide), if_pos rfl]

theorem processDatagram_ack (h : IsPacket .ack datagram) :
    processDatagram cfg sys m c datagram = processAck sys m c := by
  rw [processDatagram_eq cfg sys m c h.1, h.2, if_neg (by decide), if_neg (by decide),
    if_pos rfl]

theorem processDatagram_wrq (h : IsPacket .wrq datagram) :
    processDatagram cfg sys m c datagram =
      processWrq cfg sys m c (receiveBuffer datagram) pktlen := by
  rw [processDatagram_eq cfg sys m c h.1, h.2, if_neg (by decide), if_neg (by decide),
    if_neg (by decide), if_pos rfl]

theorem processDatagram_rrq (h : IsPacket .rrq datagram) :
    processDatagram cfg sys m c datagram =
      processRrq cfg sys m c (receiveBuffer datagram) pktlen := by
  rw [processDatagram_eq cfg sys m c h.1, h.2, if_neg (by decide), if_neg (by decide),
    if_neg (by decide), if_neg (by decide), if_pos rfl]

/-- Any other datagram leaves the client alone. -/
theorem processDatagram_other
    (h : ∀ op ∈ [Opcode.data, .error, .ack, .wrq, .rrq], ¬IsPacket op datagram) :
    ∃ m' ∈ [m, m.callEvent .unknownPacket],
      processDatagram cfg sys m c datagram = .ok (m', c) := by
  by_cases hlen : datagram.length ≤ maxPacketSize
  · have hop : ∀ op ∈ [Opcode.data, .error, .ack, .wrq, .rrq], opcodeOf datagram ≠ op.code :=
      fun op hop hop' => h op hop ⟨hlen, hop'⟩
    refine ⟨m.callEvent .unknownPacket, List.mem_cons_of_mem _ List.mem_cons_self, ?_⟩
    rw [processDatagram_eq cfg sys m c hlen, if_neg (hop .data (by decide)),
      if_neg (hop .error (by decide)), if_neg (hop .ack (by decide)),
      if_neg (hop .wrq (by decide)), if_neg (hop .rrq (by decide))]
  · -- It is dropped before its opcode is looked at.
    exact ⟨m, List.mem_cons_self, processDatagram_large cfg sys m c hlen⟩

/-- A datagram comes to one case of the switch, or to none. -/
theorem processDatagram_cases (datagram : Bytes) :
    (IsPacket .data datagram ∧ processDatagram cfg sys m c datagram =
      processData sys m c (receiveBuffer datagram) (receivedLength datagram)) ∨
    (IsPacket .error datagram ∧ processDatagram cfg sys m c datagram = processError sys m c) ∨
    (IsPacket .ack datagram ∧ processDatagram cfg sys m c datagram = processAck sys m c) ∨
    (IsPacket .wrq datagram ∧ processDatagram cfg sys m c datagram =
      processWrq cfg sys m c (receiveBuffer datagram) pktlen) ∨
    (IsPacket .rrq datagram ∧ processDatagram cfg sys m c datagram =
      processRrq cfg sys m c (receiveBuffer datagram) pktlen) ∨
    ∃ m' ∈ [m, m.callEvent .unknownPacket],
      processDatagram cfg sys m c datagram = .ok (m', c) := by
  by_cases hdata : IsPacket .data datagram
  · exact .inl ⟨hdata, processDatagram_data cfg sys m c hdata⟩
  by_cases herror : IsPacket .error datagram
  · exact .inr (.inl ⟨herror, processDatagram_error cfg sys m c herror⟩)
  by_cases hack : IsPacket .ack datagram
  · exact .inr (.inr (.inl ⟨hack, processDatagram_ack cfg sys m c hack⟩))
  by_cases hwrq : IsPacket .wrq datagram
  · exact .inr (.inr (.inr (.inl ⟨hwrq, processDatagram_wrq cfg sys m c hwrq⟩)))
  by_cases hrrq : IsPacket .rrq datagram
  · exact .inr (.inr (.inr (.inr (.inl ⟨hrrq, processDatagram_rrq cfg sys m c hrrq⟩))))
  refine .inr (.inr (.inr (.inr (.inr (processDatagram_other cfg sys m c ?_)))))
  simp [hdata, herror, hack, hwrq, hrrq]

end

/-! ## Runs of turns -/

/-- What happens to a client until a datagram of it has been processed, and what
    the system calls give then. -/
structure Turn where
  meanwhile : State → State
  sys : Sys
  datagram : Bytes

/-- A turn: the rest of the server, then the datagram. -/
def turn (cfg : Config) (s : State) (t : Turn) : Except Crash State :=
  processDatagram cfg t.sys (t.meanwhile s).1 (t.meanwhile s).2 t.datagram

/-- A turn with the states it leads from and to. -/
abbrev Exchange := Lib.Transition State Turn Crash

/-- The exchanges of a run of turns. -/
abbrev exchanges (cfg : Config) (s : State) (turns : List Turn) : List Exchange :=
  Lib.trace (turn cfg) s turns

namespace Exchange

/-- The state the datagram of an exchange is processed in. -/
def before (x : Exchange) : State := x.input.meanwhile x.pre

/-- The packets queued while the datagram is processed. -/
def queued (x : Exchange) : List Bytes :=
  match x.post with
  | .ok s' => queuedBetween x.before s'
  | .error _ => []

/-- The blocks among them. -/
def data (x : Exchange) : List Bytes := x.queued.filter (IsData ·)

/-- The count of blocks after an exchange. -/
def blocks (x : Exchange) : ℕ :=
  match x.post with
  | .ok s' => s'.2.actualblockno
  | .error _ => 0

/-- Whether an exchange leaves the client marked for destruction. -/
def destroyed (x : Exchange) : Bool :=
  match x.post with
  | .ok s' => s'.2.destroy
  | .error _ => false

section

variable (s s' : State) (t : Turn)

@[simp] theorem data_ok :
    data ⟨s, t, .ok s'⟩ = (queuedBetween (t.meanwhile s) s').filter (IsData ·) := rfl

@[simp] theorem blocks_ok : blocks ⟨s, t, .ok s'⟩ = s'.2.actualblockno := rfl

@[simp] theorem destroyed_ok : destroyed ⟨s, t, .ok s'⟩ = s'.2.destroy := rfl

end

end Exchange

/-- Meanwhile, the transfer of the client and the file at `path` stay as they are. -/
structure Turn.Quiet (t : Turn) (path : Bytes) : Prop where
  transfer : ∀ s, (t.meanwhile s).2.transfer = s.2.transfer
  files : ∀ s, (t.meanwhile s).1.files path = s.1.files path

/-- A datagram that asks for the file at `path`, not in mail mode. -/
structure IsRequest (cfg : Config) (op : Opcode) (path datagram : Bytes) : Prop where
  packet : IsPacket op datagram
  not_mail : strcasecmp (requestOf datagram).mode (ascii "mail") ≠ 0
  path : requestPath cfg (requestOf datagram).filename = path

/-- One without options. -/
structure IsPlainRequest (cfg : Config) (op : Opcode) (path datagram : Bytes) : Prop
    extends IsRequest cfg op path datagram where
  opt : (requestOf datagram).opt = []

theorem IsPlainRequest.plain {cfg : Config} {op : Opcode} {path datagram : Bytes}
    (h : IsPlainRequest cfg op path datagram) : (requestOf datagram).Plain :=
  ⟨h.not_mail, h.opt⟩

/-- A request in octet mode. -/
def IsOctet (datagram : Bytes) : Prop :=
  strcasecmp (requestOf datagram).mode (ascii "octet") = 0

/-! ## A server to run

A directory with a file `f`, and a client with nothing between its datagrams, on
the ideal system. -/

namespace Sample

def config : Config := ⟨ascii "/srv", false⟩

def path : Bytes := ascii "/srv/f"

/-- The file `f` has content `F`, and descriptor 3 is watched. -/
def machine (F : Bytes) : Machine :=
  .boot (fun p => if p = path then F else []) (fun fd => if fd = 3 then some SF_READABLE else none)

def socket : Socket := ⟨3, SF_READABLE, .inet 40000 1, ⟨1, []⟩, 2, pktlen⟩

def start (F : Bytes) : State := ({ machine F with nexttok := 3 }, .new 1 socket)

/-- A request for `f`, in octet mode. -/
def request (op : Opcode) (options : Bytes) : Bytes :=
  htons op.code ++ ascii "f" ++ [0] ++ ascii "octet" ++ [0] ++ options

/-- A turn in which nothing happens meanwhile. -/
def turn (datagram : Bytes) : Turn := ⟨id, .ideal, datagram⟩

theorem serves (path : Bytes) : Sys.ideal.Serves path :=
  ⟨rfl, rfl, fun _ => rfl, rfl, Nat.le_refl⟩

theorem accepts (path : Bytes) : Sys.ideal.Accepts config path :=
  ⟨rfl, rfl, fun _ => rfl, fun n _ => Nat.le_refl n⟩

theorem loggable (datagram : Bytes) : (requestOf datagram).Loggable Sys.ideal :=
  fun _ => Option.some_ne_none _

theorem quiet (datagram path : Bytes) : (turn datagram).Quiet path :=
  ⟨fun _ => rfl, fun _ => rfl⟩

theorem request_plain (op : Opcode) : IsPlainRequest config op path (request op []) where
  packet := by cases op <;> decide +kernel
  not_mail := by cases op <;> decide +kernel
  path := by cases op <;> decide +kernel
  opt := by cases op <;> decide +kernel

theorem request_octet (op : Opcode) : IsOctet (request op []) := by
  cases op <;> rw [IsOctet] <;> decide +kernel

/-- A write request with an option, so that nothing is printed that was never assigned. -/
def wrq : Bytes := request .wrq (ascii "tsize" ++ [0] ++ ascii "2" ++ [0])

theorem wrq_isRequest : IsRequest config .wrq path wrq where
  packet := by decide +kernel
  not_mail := by decide +kernel
  path := by decide +kernel

theorem wrq_octet : IsOctet wrq := by
  rw [IsOctet]
  decide +kernel

/-- A read request with an option that nobody knows. -/
def rrq : Bytes := request .rrq (ascii "timeout" ++ [0] ++ ascii "1" ++ [0])

end Sample

end Nbstftp
