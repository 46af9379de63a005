import Nbstftp.Fields

/-!
# Reading packets back

What `sendData`, `acknowledge` and `errorWith` build is read back field by field, from the
queue and from the copy that is kept for sending it again (`decodesBack`).

An OACK packet is to consist of the opcode, the option and its parameter, each of the two
with a NUL byte behind it (`optionPacket`). What `optionAcknowledge` builds is longer by two
bytes, and the NUL byte of the parameter is written over its first byte (`oackBytes_eq`):
reading the packet back gives the option, and an empty parameter (`readBack_oackBytes`).
-/

namespace Nbstftp

/-! ## DATA, ACK and ERROR packets -/

namespace Packetqueue

variable (pq : Packetqueue)

/-- The fields of a packet, as they are read when it is processed. -/
def opcode : UInt16 := ntohs pq.bytes 0

def blockno : UInt16 := ntohs pq.bytes 2

def payload : Bytes := pq.bytes.drop headerSize

def message : Bytes := strndup (pq.bytes.drop headerSize) 512

end Packetqueue

/-- One packet more is queued, and a copy of it kept, both of which satisfy `P`. -/
def Queues (c c' : Client) (P : Packetqueue → Prop) : Prop :=
  ∃ pq last, c'.packetqueue = c.packetqueue ++ [pq] ∧ c'.lastpacket = some last ∧ P pq ∧ P last

/-- DATA, ACK and ERROR packets are read back as what they were built from. -/
structure DecodesBack (sys : Sys) (m : Machine) (c : Client) : Prop where
  data : ∀ data, Queues c (sendData sys m c data).2 fun pq =>
    pq.opcode = 3 ∧ pq.blockno = c.currentblockno ∧ pq.payload = data
  ack : ∀ blockno, Queues c (acknowledge sys m c blockno).2 fun pq =>
    pq.opcode = 4 ∧ pq.blockno = blockno ∧ pq.payload = []
  error : ∀ errnum buf, 0 ∉ buf → buf.length ≤ 512 →
    ∃ s', errorWith sys m c errnum buf = .ok s' ∧ Queues c s'.2 fun pq =>
      pq.opcode = 5 ∧ pq.blockno = errnum ∧ pq.message = buf

/-- What holds of the bytes of a packet just built holds of what is queued and kept. -/
theorem queuePacket_queues (sys : Sys) (m : Machine) (c : Client) {bytes : Bytes} {len : ℕ}
    (hlen : bytes.length = len) {P : Packetqueue → Prop} (h : ∀ pq, pq.bytes = bytes → P pq) :
    Queues c (queuePacket sys (m.nmalloc bytes).1 c (m.nmalloc bytes).2 len 1).2 P := by
  have htake : bytes.take len = bytes := List.take_of_length_le (Nat.le_of_eq hlen)
  refine ⟨_, _, rfl, rfl, h _ htake, h _ ?_⟩
  -- The copy is as long as the packet.
  exact (congrArg (List.take len) htake).trans htake

/-- The two fields of the header of a packet. -/
theorem header_of_bytes {pq : Packetqueue} {op n : UInt16} {rest : Bytes}
    (h : pq.bytes = htons op ++ htons n ++ rest) : pq.opcode = op ∧ pq.blockno = n := by
  rw [Packetqueue.opcode, Packetqueue.blockno, h, List.append_assoc, ntohs_htons_append,
    ntohs_htons_append_two, ntohs_htons_append]
  exact ⟨rfl, rfl⟩

/-- A message is read up to the terminator put behind it. -/
theorem strndup_append_zero {buf : Bytes} (h : 0 ∉ buf) (hlen : buf.length ≤ 512) :
    strndup (buf ++ [0]) 512 = buf := by
  have hfield : Lib.nextField 0 (buf ++ [0]) = buf := Lib.nextField_append_cons h []
  rw [strndup_eq (hfield.symm ▸ hlen), hfield]

theorem decodesBack (sys : Sys) (m : Machine) (c : Client) : DecodesBack sys m c where
  data data := by
    refine queuePacket_queues sys m c (length_dataBytes c.currentblockno data) fun pq hpq => ?_
    obtain ⟨hop, hn⟩ := header_of_bytes hpq
    exact ⟨hop, hn, by rw [Packetqueue.payload, hpq, drop_dataBytes]⟩
  ack blockno := by
    have hsize : (ackBytes blockno).length = headerSize := rfl
    refine queuePacket_queues sys m c hsize fun pq hpq => ?_
    obtain ⟨hop, hn⟩ := header_of_bytes (hpq.trans (List.append_nil _).symm)
    exact ⟨hop, hn, by rw [Packetqueue.payload, hpq]; rfl⟩
  error errnum buf hnul hlen := by
    have hsize : (htons Opcode.error.code ++ htons errnum ++ buf ++ [0]).length =
        buf.length + headerSize + 1 := by
      simp [headerSize]
      omega
    refine ⟨_, if_pos (Nat.add_le_add_right hlen headerSize), ?_⟩
    refine queuePacket_queues sys m c hsize fun pq hpq => ?_
    obtain ⟨hop, hn⟩ := header_of_bytes (hpq.trans (List.append_assoc _ buf [0]))
    refine ⟨hop, hn, ?_⟩
    rw [Packetqueue.message, hpq]
    exact strndup_append_zero hnul hlen

/-! ## OACK packets -/

/-- The OACK packet of an option and its parameter. -/
def optionPacket (option param : Bytes) : Bytes :=
  htons Opcode.oack.code ++ option ++ [0] ++ param ++ [0]

/-- The option and the parameter read from a packet the way requests are parsed. -/
def readBack (p : Bytes) : Bytes × Bytes :=
  let option := getNext p 2 p.length
  (option.1, (getNext p option.2 p.length).1)

/-- Acknowledging an option queues its packet, which can be read back. -/
structure AcknowledgesOption (sys : Sys) (m : Machine) (c : Client) (option param : Bytes) :
    Prop where
  packet : queuedBetween (m, c) (optionAcknowledge sys m c option param) =
    [optionPacket option param]
  readBack : ∀ p ∈ queuedBetween (m, c) (optionAcknowledge sys m c option param),
    readBack p = (option, param)

/-- The bytes built: the first byte of the parameter is overwritten, and two more NUL bytes
    are behind it. -/
theorem oackBytes_eq (option param : Bytes) :
    oackBytes option param = htons Opcode.oack.code ++ option ++ [0] ++
      (0 :: (param ++ [0]).tail) ++ [0, 0] := by
  have hopcode : (htons Opcode.oack.code).length = 2 := rfl
  have h₁ : poke (List.replicate (headerSize + option.length + param.length + 2) 0) 0
      (htons Opcode.oack.code) = htons Opcode.oack.code ++ List.replicate (option.length + 1) 0 ++
        (List.replicate (param.length + 1) 0 ++ [0, 0]) := by
    have hzeros : List.replicate (headerSize + option.length + param.length + 2) (0 : UInt8) =
        [] ++ List.replicate 2 0 ++ (List.replicate (option.length + 1) 0 ++
          (List.replicate (param.length + 1) 0 ++ [0, 0])) := by
      rw [show ([0, 0] : Bytes) = List.replicate 2 0 from rfl, List.nil_append,
        ← List.replicate_add, ← List.replicate_add, ← List.replicate_add, headerSize]
      congr 1
      omega
    rw [hzeros, poke_append List.length_nil (by rw [List.length_replicate, hopcode]),
      List.nil_append, List.append_assoc]
  have h₂ := poke_append hopcode
    (show (List.replicate (option.length + 1) (0 : UInt8)).length = (option ++ [0]).length by simp)
    (List.replicate (param.length + 1) 0 ++ [0, 0])
  -- The terminator of the option is there already.
  have h₃ := poke_append
    (show (htons Opcode.oack.code ++ option).length = 2 + option.length by
      rw [List.length_append, hopcode])
    (show ([0] : Bytes).length = ([0] : Bytes).length from rfl)
    (List.replicate (param.length + 1) 0 ++ [0, 0])
  have hoption : (htons Opcode.oack.code ++ option ++ [0]).length = 2 + option.length + 1 := by
    rw [List.length_append, List.length_append, hopcode, List.length_singleton]
  have h₄ := poke_append hoption
    (show (List.replicate (param.length + 1) (0 : UInt8)).length = (param ++ [0]).length by simp)
    [0, 0]
  obtain ⟨b, rest, hcons⟩ : ∃ b rest, param ++ [0] = [b] ++ rest :=
    List.exists_cons_of_ne_nil (by simp)
  have h₅ := poke_append hoption (show [b].length = ([0] : Bytes).length from rfl)
    (rest ++ [0, 0])
  rw [oackBytes, h₁, h₂, ← List.append_assoc _ option, h₃, ← List.append_assoc _ _ [0, 0], h₄,
    hcons, ← List.append_assoc _ [b], List.append_assoc _ rest, h₅]
  simp

/-- A string that ends in a NUL byte is read. -/
theorem getNext_append {p f rest : Bytes} {data mlen : ℕ} (hdrop : p.drop data = f ++ 0 :: rest)
    (hf : 0 ∉ f) (hlen : f.length ≤ mlen) :
    getNext p data mlen = (f, data + f.length + 1) ∧ p.drop (data + f.length + 1) = rest := by
  have hfirst : Lib.nextField 0 (p.drop data) = f := hdrop ▸ Lib.nextField_append_cons hf rest
  constructor
  · rw [getNext, strnlen_eq, strndup_eq (hfirst.symm ▸ hlen), hfirst]
  · rw [Nat.add_assoc, ← List.drop_drop, hdrop, List.drop_append, List.drop_eq_nil_of_le
      (Nat.le_succ _), Nat.add_sub_cancel_left]
    rfl

/-- Reading the packet back gives the option, but not the parameter. -/
theorem readBack_oackBytes {option : Bytes} (h : 0 ∉ option) (param : Bytes) :
    readBack (oackBytes option param) = (option, []) := by
  have hdrop : (oackBytes option param).drop 2 =
      option ++ 0 :: ([] ++ 0 :: ((param ++ [0]).tail ++ [0, 0])) := by
    rw [oackBytes_eq]
    simp [htons]
  have hlen : option.length ≤ (oackBytes option param).length := by
    rw [length_oackBytes]
    omega
  obtain ⟨hoption, hdrop₁⟩ := getNext_append hdrop h hlen
  obtain ⟨hparam, -⟩ := getNext_append hdrop₁ List.not_mem_nil (Nat.zero_le _)
  rw [readBack, hoption]
  exact congrArg (option, Prod.fst ·) hparam

theorem optionAcknowledge_queued (sys : Sys) (m : Machine) (c : Client) (option param : Bytes) :
    queuedBetween (m, c) (optionAcknowledge sys m c option param) = [oackBytes option param] :=
  (optionAcknowledge_reacts sys m c option param).queued_eq

/-- No option is acknowledged as it should be: the packet is too long. -/
theorem not_acknowledgesOption (sys : Sys) (m : Machine) (c : Client) (option param : Bytes) :
    ¬AcknowledgesOption sys m c option param := by
  intro h
  have hlen := congrArg (fun l : List Bytes => l.map List.length) h.packet
  rw [optionAcknowledge_queued, List.map_singleton, List.map_singleton, length_oackBytes] at hlen
  simp [optionPacket, headerSize] at hlen
  omega

/-- The size of a file of one byte. -/
theorem not_acknowledges_tsize :
    ¬∀ sys m c option param, option ≠ [] → 0 ∉ option → 0 ∉ param →
      AcknowledgesOption sys m c option param := by
  intro h
  have hpacket := (h .ideal (Sample.machine []) (.new 1 Sample.socket) (ascii "tsize") (ascii "1")
    (by decide) (by decide) (by decide)).packet
  rw [optionAcknowledge_queued] at hpacket
  exact absurd hpacket (by decide +kernel)

end Nbstftp
