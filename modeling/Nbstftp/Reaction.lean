import Nbstftp.Process

/-!
# Reactions

What handling a datagram does to a client is summed up by a `Reaction`: the
transfer it leaves, the packets it queues, the files it leaves and the calls it
makes. `Reacts s r s'` says that going from `s` to `s'` is the reaction `r`;
what a reaction does not name stays as it was.

Reactions compose (`Reacts.trans`), so that those of the cases of the switch are
put together from those of the functions they call: `releaseLastpacket`, the
builders of packets, and plain updates of the transfer.
-/

namespace Nbstftp

/-- A machine and the client a datagram is handled for. -/
abbrev State := Machine × Client

/-- What handling a datagram does. -/
structure Reaction where
  transfer : Transfer
  queued : List Bytes
  files : Bytes → Bytes
  effects : List Effect

/-- Going from `s` to `s'` is the reaction `r`. -/
structure Reacts (s : State) (r : Reaction) (s' : State) : Prop where
  transfer : s'.2.transfer = r.transfer
  identity : s'.2.identity = s.2.identity
  queue : ∃ es, s'.2.packetqueue = s.2.packetqueue ++ es ∧ es.map Packetqueue.bytes = r.queued
  files : s'.1.files = r.files
  effects : s'.1.effects = s.1.effects ++ r.effects

/-- The packets queued between two states of a client, as they go on the wire. -/
def queuedBetween (s s' : State) : List Bytes :=
  (s'.2.packetqueue.drop s.2.packetqueue.length).map Packetqueue.bytes

namespace Reacts

variable {s s' s'' : State} {r r' : Reaction}

theorem queued_eq (h : Reacts s r s') : queuedBetween s s' = r.queued := by
  obtain ⟨es, hq, hes⟩ := h.queue
  rw [queuedBetween, hq, List.drop_left, hes]

/-- A reaction that queues nothing leaves the queue alone. -/
theorem packetqueue_eq (h : Reacts s r s') (hr : r.queued = []) :
    s'.2.packetqueue = s.2.packetqueue := by
  obtain ⟨es, hq, hes⟩ := h.queue
  rw [hr, List.map_eq_nil_iff] at hes
  rw [hq, hes, List.append_nil]

/-- One reaction after the other. -/
theorem trans (h : Reacts s r s') (h' : Reacts s' r' s'') :
    Reacts s ⟨r'.transfer, r.queued ++ r'.queued, r'.files, r.effects ++ r'.effects⟩ s'' where
  transfer := h'.transfer
  identity := h'.identity.trans h.identity
  queue := by
    obtain ⟨es, hq, hes⟩ := h.queue
    obtain ⟨es', hq', hes'⟩ := h'.queue
    exact ⟨es ++ es', by rw [hq', hq, List.append_assoc], by rw [List.map_append, hes, hes']⟩
  files := h'.files
  effects := by rw [h'.effects, h.effects, List.append_assoc]

/-- A reaction that queues nothing, from what it leaves. -/
theorem silent {m m' : Machine} {c c' : Client} {t : Transfer} {files : Bytes → Bytes}
    {es : List Effect} (ht : c'.transfer = t) (hi : c'.identity = c.identity)
    (hq : c'.packetqueue = c.packetqueue) (hf : m'.files = files)
    (he : m'.effects = m.effects ++ es) : Reacts (m, c) ⟨t, [], files, es⟩ (m', c') :=
  ⟨ht, hi, ⟨[], hq.trans (List.append_nil _).symm, rfl⟩, hf, he⟩

/-- Packets queued at the end. -/
theorem queueing {qs : List Bytes} (h : Reacts s r s')
    (h' : Reacts s' ⟨s'.2.transfer, qs, s'.1.files, []⟩ s'') :
    Reacts s ⟨r.transfer, r.queued ++ qs, r.files, r.effects⟩ s'' := by
  have := h.trans h'
  rwa [h.transfer, h.files, List.append_nil] at this

/-- Packets queued after changes that queue nothing. -/
theorem queues {m m' : Machine} {c c' : Client} {t : Transfer} {qs : List Bytes}
    {files : Bytes → Bytes} {es : List Effect}
    (h : Reacts (m', c') ⟨c'.transfer, qs, m'.files, []⟩ s'') (ht : c'.transfer = t)
    (hi : c'.identity = c.identity) (hq : c'.packetqueue = c.packetqueue) (hf : m'.files = files)
    (he : m'.effects = m.effects ++ es) : Reacts (m, c) ⟨t, qs, files, es⟩ s'' :=
  (silent ht hi hq hf he).queueing h

/-- A call at the end. -/
theorem emit (h : Reacts s r s') (e : Effect) :
    Reacts s ⟨r.transfer, r.queued, r.files, r.effects ++ [e]⟩ (s'.1.emit e, s'.2) where
  transfer := h.transfer
  identity := h.identity
  queue := h.queue
  files := h.files
  effects := by rw [← List.append_assoc, ← h.effects]; rfl

/-- Marking the client for destruction, at the end. -/
theorem mark (h : Reacts s r s') (cond : Bool) :
    Reacts s ⟨{ r.transfer with destroy := r.transfer.destroy || cond },
      r.queued, r.files, r.effects⟩ (s'.1, s'.2.destroyIf cond) where
  transfer := congrArg (fun t : Transfer => { t with destroy := t.destroy || cond }) h.transfer
  identity := h.identity
  queue := h.queue
  files := h.files
  effects := h.effects

/-- The same reaction, written differently. -/
theorem congr (h : Reacts s r s') (hr : r = r') : Reacts s r' s' := hr ▸ h

end Reacts

/-! ## The functions every case calls -/

/-- The bytes of DATA, ACK and ERROR packets. -/
def dataBytes (blockno : UInt16) (data : Bytes) : Bytes :=
  htons Opcode.data.code ++ htons blockno ++ data

def ackBytes (blockno : UInt16) : Bytes := htons Opcode.ack.code ++ htons blockno

def errorBytes (errnum : ErrorCode) (msg : Bytes) : Bytes :=
  htons Opcode.error.code ++ htons errnum.code ++ msg ++ [0]

theorem length_dataBytes (blockno : UInt16) (data : Bytes) :
    (dataBytes blockno data).length = data.length + headerSize := by
  simp [dataBytes, headerSize]
  omega

/-- The release of a packet sent again. -/
def releaseEffects (c : Client) : List Effect :=
  match c.lastpacket with
  | some last => if last.allocated = 2 then [.free last.p.tok] else []
  | none => []

section Builders

variable (sys : Sys) (m : Machine) (c : Client)

theorem releaseLastpacket_reacts :
    Reacts (m, c) ⟨c.transfer, [], m.files, releaseEffects c⟩ (releaseLastpacket m c) := by
  rw [releaseLastpacket, releaseEffects]
  cases hl : c.lastpacket with
  | none => exact .silent rfl rfl rfl rfl (List.append_nil _).symm
  | some last =>
    by_cases ha : last.allocated = 2
    · simp only [ha, if_true]
      exact .silent rfl rfl rfl rfl rfl
    · simp only [ha, if_false]
      exact .silent rfl rfl rfl rfl (List.append_nil _).symm

theorem queuePacket_reacts (p : Buffer) (len : ℕ) (allocated : UInt8) :
    Reacts (m, c) ⟨c.transfer, [p.bytes.take len], m.files, []⟩
      (queuePacket sys m c p len allocated) := by
  by_cases ha : allocated = 2 <;> simp only [queuePacket, ha, if_true, if_false] <;>
    exact ⟨rfl, rfl, ⟨[_], rfl, rfl⟩, rfl, (List.append_nil _).symm⟩

/-- Queueing a packet just built. -/
theorem queuePacket_nmalloc_reacts {bytes : Bytes} {len : ℕ} (hlen : bytes.length = len) :
    Reacts (m, c) ⟨c.transfer, [bytes], m.files, []⟩
      (queuePacket sys (m.nmalloc bytes).1 c (m.nmalloc bytes).2 len 1) := by
  have h := queuePacket_reacts sys (m.nmalloc bytes).1 c (m.nmalloc bytes).2 len 1
  rw [show (m.nmalloc bytes).2.bytes.take len = bytes from
    List.take_of_length_le (Nat.le_of_eq hlen)] at h
  exact ⟨h.transfer, h.identity, h.queue, h.files, h.effects⟩

theorem sendData_reacts (data : Bytes) :
    Reacts (m, c) ⟨c.transfer, [dataBytes c.currentblockno data], m.files, []⟩
      (sendData sys m c data) :=
  queuePacket_nmalloc_reacts sys m c (length_dataBytes c.currentblockno data)

theorem acknowledge_reacts (blockno : UInt16) :
    Reacts (m, c) ⟨c.transfer, [ackBytes blockno], m.files, []⟩
      (acknowledge sys m c blockno) :=
  queuePacket_nmalloc_reacts sys m c rfl

theorem length_oackBytes (option param : Bytes) :
    (oackBytes option param).length = headerSize + option.length + param.length + 2 := by
  simp only [oackBytes, length_poke, List.length_replicate, List.length_append, length_htons,
    List.length_singleton, headerSize]
  omega

theorem optionAcknowledge_reacts (option param : Bytes) :
    Reacts (m, c) ⟨c.transfer, [oackBytes option param], m.files, []⟩
      (optionAcknowledge sys m c option param) :=
  queuePacket_nmalloc_reacts sys m c (length_oackBytes option param)

/-- An error that can be formatted is queued and marks the client. -/
theorem error_reacts {errnum : ErrorCode} {buf : Bytes}
    (h : buf.length + headerSize ≤ maxPacketSize) :
    ∃ s', error sys m c errnum buf = .ok s' ∧
      Reacts (m, c) ⟨{ c.transfer with destroy := true }, [errorBytes errnum buf], m.files, []⟩
        s' := by
  have hlen : (errorBytes errnum buf).length = buf.length + headerSize + 1 := by
    simp [errorBytes, headerSize]
    omega
  have hq := queuePacket_nmalloc_reacts sys m c hlen
  exact ⟨_, if_pos h, (hq.mark true).congr (by rw [Bool.or_true])⟩

theorem error_crashes {errnum : ErrorCode} {buf : Bytes}
    (h : ¬buf.length + headerSize ≤ maxPacketSize) :
    error sys m c errnum buf = .error ⟨.assertion, m⟩ :=
  if_neg h

end Builders

end Nbstftp
