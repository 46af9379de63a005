import Nbstftp.Answer
import Nbstftp.Fields

/-!
# What a DATA packet stores

The payload of a DATA packet goes to the file of its client, and is acknowledged.

* Its length is that of the datagram less that of the header, a difference that wraps: a
  DATA packet shorter than the header has `fwrite` asked for bytes far behind the receive
  buffer (`stores_payload_iff`).
* What `fwrite` reports is printed and not looked at further: a block of which only a part
  was stored is acknowledged like any other (`acks_stored_iff`).
-/

namespace Nbstftp

/-- The bytes of a datagram passed to `fwrite`, in number: the length given there. -/
def passedCount (datagram : Bytes) : ℕ := payloadLength (receivedLength datagram)

section

variable (cfg : Config) (sys : Sys) (m : Machine) (c : Client) (datagram : Bytes)

/-- The payload of a DATA packet is stored, no more and no less, and the client is marked
    for destruction if it is short. -/
structure StoresPayload : Prop where
  count : passedCount datagram = datagram.length - headerSize
  stored : ∃ s' f, processDatagram cfg sys m c datagram = .ok s' ∧ c.f = some f ∧
    s'.1.files =
      (m.fwrite sys f (datagram.drop headerSize) (datagram.length - headerSize)).1.files ∧
    s'.2.destroy = (c.destroy || decide (passedCount datagram < 512))

/-- All bytes passed to `fwrite` for the file of the client are reported to be stored. -/
def StoresAll : Prop := ∀ f ∈ c.f, fwriteCount sys f (passedCount datagram) = passedCount datagram

/-- A block is acknowledged only if all of it was stored; if it was not, there is an error,
    and the block is not counted. -/
structure AcksStored : Prop where
  acked : ∀ s', processDatagram cfg sys m c datagram = .ok s' →
    (∃ p ∈ queuedBetween (m, c) s', packetOpcode p = Opcode.ack.code) →
    StoresAll sys c datagram
  short : ∀ f ∈ c.f, fwriteCount sys f (passedCount datagram) < passedCount datagram →
    ∃ s', processDatagram cfg sys m c datagram = .ok s' ∧
      (∃ p ∈ queuedBetween (m, c) s', packetOpcode p = Opcode.error.code) ∧
      (∀ p ∈ queuedBetween (m, c) s', packetOpcode p ≠ Opcode.ack.code) ∧
      s'.2.currentblockno = c.currentblockno ∧ s'.2.actualblockno = c.actualblockno

end

/-- No more than the bytes passed are looked at. -/
theorem fwrite_take (sys : Sys) (m : Machine) (f : File) (data : Bytes) (n : ℕ) :
    m.fwrite sys f (data.take n) n = m.fwrite sys f data n := by
  rw [Machine.fwrite, Machine.fwrite, List.take_take, Nat.min_eq_left (fwriteCount_le sys f n)]

section

variable {cfg : Config} {sys : Sys} {m : Machine} {c : Client} {datagram : Bytes}

/-- The payload of a datagram with a header. -/
theorem passedCount_eq (h : headerSize ≤ datagram.length) (hle : datagram.length ≤ maxPacketSize) :
    passedCount datagram = datagram.length - headerSize ∧
      ((receiveBuffer datagram).drop headerSize).take (passedCount datagram) =
        datagram.drop headerSize := by
  have hcount : passedCount datagram = datagram.length - headerSize := by
    rw [maxPacketSize] at hle
    rw [headerSize] at h ⊢
    rw [passedCount, payloadLength, receivedLength, pktlen, headerSize, UInt64.size]
    omega
  refine ⟨hcount, ?_⟩
  have htake : datagram.take pktlen = datagram :=
    List.take_of_length_le (Nat.le_trans hle (by decide))
  rw [hcount, receiveBuffer, htake, List.drop_append_of_le_length h,
    List.take_append_of_le_length (by rw [List.length_drop]), List.take_of_length_le
      (by rw [List.length_drop])]

/-- The length of a datagram without one wraps around. -/
theorem passedCount_wraps (h : ¬headerSize ≤ datagram.length) :
    passedCount datagram ≠ datagram.length - headerSize := by
  rw [headerSize] at h
  rw [passedCount, payloadLength, receivedLength, pktlen, headerSize, UInt64.size]
  omega

/-- A DATA packet is stored as it should be exactly if it has a header, and there is a file
    to store it in. -/
theorem stores_payload_iff (h : IsPacket .data datagram) (hsending : c.sendingfile = true) :
    StoresPayload cfg sys m c datagram ↔ headerSize ≤ datagram.length ∧ c.f.isSome = true := by
  have hdata := processDatagram_data cfg sys m c h
  rcases processData_cases sys m c (receiveBuffer datagram) (receivedLength datagram) with
    ⟨hidle, -⟩ | ⟨-, hf, m', hcrash⟩ | ⟨-, f, m', -, hlen, hcrash⟩ |
    ⟨-, f, s', hf, -, hs', hreact⟩
  · cases hsending.symm.trans hidle
  · refine iff_of_false (fun hstores => ?_) fun hfile => by
      rw [hf] at hfile
      cases hfile.2
    obtain ⟨s', f, -, hf', -⟩ := hstores.stored
    cases hf.symm.trans hf'
  · refine iff_of_false (fun hstores => ?_) fun hheader => ?_
    · obtain ⟨s', f, hs', -⟩ := hstores.stored
      cases (hdata.trans hcrash).symm.trans hs'
    · -- The bytes of a payload are all in the buffer.
      have hle := h.1
      have hcount := fwriteCount_le sys f (passedCount datagram)
      rw [length_receiveBuffer, ← passedCount] at hlen
      rw [(passedCount_eq hheader.1 h.1).1] at hcount hlen
      rw [pktlen, headerSize] at hlen
      rw [headerSize] at hcount
      rw [maxPacketSize] at hle
      omega
  · by_cases hheader : headerSize ≤ datagram.length
    · obtain ⟨hcount, hpayload⟩ := passedCount_eq hheader h.1
      refine iff_of_true ⟨hcount, s', f, hdata.trans hs', hf, ?_, ?_⟩ ⟨hheader, by rw [hf]; rfl⟩
      · rw [hreact.files, ← passedCount, ← fwrite_take, hpayload, hcount]
      · exact congrArg Transfer.destroy hreact.transfer
    · exact iff_of_false (fun hstores => passedCount_wraps hheader hstores.count)
        fun h' => hheader h'.1

/-- A block is acknowledged, whatever was stored of it. -/
theorem acknowledged_of_data (h : IsPacket .data datagram) (hsending : c.sendingfile = true)
    {s' : State} (hs' : processDatagram cfg sys m c datagram = .ok s') :
    ∃ p ∈ queuedBetween (m, c) s', packetOpcode p = Opcode.ack.code := by
  rw [processDatagram_data cfg sys m c h] at hs'
  rcases processData_cases sys m c (receiveBuffer datagram) (receivedLength datagram) with
    ⟨hidle, -⟩ | ⟨-, -, m', hcrash⟩ | ⟨-, f', m', -, -, hcrash⟩ |
    ⟨-, f', s'', -, -, hs'', hreact⟩
  · cases hsending.symm.trans hidle
  · cases hcrash.symm.trans hs'
  · cases hcrash.symm.trans hs'
  · cases hs''.symm.trans hs'
    refine ⟨_, ?_, packetOpcode_ackBytes (ntohs (receiveBuffer datagram) 2)⟩
    rw [hreact.queued_eq]
    exact List.mem_singleton_self _

/-- A block is acknowledged as it should be exactly if all of it is stored. -/
theorem acks_stored_iff (h : IsPacket .data datagram) (hsending : c.sendingfile = true) :
    AcksStored cfg sys m c datagram ↔ StoresAll sys c datagram := by
  constructor
  · intro hacks f hf
    by_contra hne
    -- An error is queued for a short write, which is not what a DATA packet is answered with.
    obtain ⟨s', hs', -, hnone, -⟩ :=
      hacks.short f hf (Nat.lt_of_le_of_ne (fwriteCount_le sys f _) hne)
    obtain ⟨p, hp, hop⟩ := acknowledged_of_data h hsending hs'
    exact hnone p hp hop
  · intro hall
    exact ⟨fun _ _ _ => hall, fun f hf hshort => absurd (hall f hf) (Nat.ne_of_lt hshort)⟩

end

namespace Sample

/-- A client in the middle of a write. -/
def writing : Client :=
  { Client.new 1 socket with
    currentblockno := 1, actualblockno := 1, sendingfile := true, f := some ⟨0, path, 0, .wb⟩ }

end Sample

/-- A block of one byte. -/
theorem stores_payload_sample :
    StoresPayload Sample.config .ideal (Sample.machine []) Sample.writing [0, 3, 0, 1, 7] :=
  (stores_payload_iff (by decide +kernel) rfl).2 ⟨by decide, rfl⟩

/-- Two bytes, the opcode alone. -/
theorem not_stores_payload :
    ¬∀ cfg sys m c datagram, IsPacket .data datagram → c.sendingfile = true →
      StoresPayload cfg sys m c datagram := by
  intro h
  have hcount := (h Sample.config .ideal (Sample.machine []) Sample.writing [0, 3]
    (by decide +kernel) rfl).count
  exact absurd hcount (by decide +kernel)

/-- A block of one byte, which the file takes. -/
theorem acks_stored_sample :
    AcksStored Sample.config .ideal (Sample.machine []) Sample.writing [0, 3, 0, 1, 7] :=
  (acks_stored_iff (by decide +kernel) rfl).2 (by rw [StoresAll]; decide +kernel)

/-- A block of one byte, for which there is no space left. -/
theorem not_acks_stored :
    ¬∀ cfg sys m c datagram, IsPacket .data datagram → c.sendingfile = true →
      AcksStored cfg sys m c datagram := by
  intro h
  obtain ⟨s', hs', -, hnone, -⟩ := (h Sample.config { Sys.ideal with fwrite := fun _ => 0 }
    (Sample.machine []) Sample.writing [0, 3, 0, 1, 7] (by decide +kernel) rfl).short _ rfl
    (by decide +kernel)
  obtain ⟨p, hp, hop⟩ := acknowledged_of_data (by decide +kernel) rfl hs'
  exact hnone p hp hop

end Nbstftp
