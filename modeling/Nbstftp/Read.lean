import Nbstftp.Turn
import Nbstftp.Lib.Block

/-!
# Reading a file

A read of a file `F` in blocks of `B` bytes is tied together by an invariant:
the counters agree on the number `k` of the last block sent, and the file is
read up to the end of that block (`Transfer.Reading`). An ACK moves it on to the
next block, whatever its number (`processAck_reading`).

The first block of a request without options starts a read as well, but a
repetition of the request takes the file back to its start and leaves the
counters. So a DATA packet carries the block of its number in every run in which
no request is repeated while the file is being sent (`read_integrity`), and not
in every run (`not_read_integrity`).
-/

namespace Nbstftp

open Lib (block)

/-- `k` blocks of `B` bytes of the file at `path`, of content `F`, are sent. -/
structure Transfer.Reading (t : Transfer) (path F : Bytes) (B k : ℕ) : Prop where
  sending : t.sendingfile = true
  counter : t.actualblockno = k
  number : t.currentblockno = UInt16.ofNat k
  blksize : t.blksize = B
  capacity : B ≤ t.capacity
  handle : ∃ f, t.f = some f ∧ f.On false path (min (k * B) F.length)

/-- An ACK sends the next block of a read. -/
theorem processAck_reading {sys : Sys} (hsys : ∀ n, n ≤ sys.fread n) {m : Machine} {c : Client}
    {path F : Bytes} {B k : ℕ} (hF : m.files path = F) (h : c.transfer.Reading path F B k) :
    ∃ s', processAck sys m c = .ok s' ∧ s'.1.files = m.files ∧
      s'.2.transfer.Reading path F B (k + 1) ∧
      s'.2.destroy = (c.destroy || decide ((block B F k).length < B)) ∧
      queuedBetween (m, c) s' = [dataBytes (UInt16.ofNat (k + 1)) (block B F k)] := by
  obtain ⟨f, hf, hon⟩ := h.handle
  have hblksize : c.blksize = B := h.blksize
  have hcapacity : c.blksize ≤ c.transfer.capacity := hblksize ▸ h.capacity
  have hnumber : c.currentblockno + 1 = UInt16.ofNat (k + 1) := by
    rw [show c.currentblockno = UInt16.ofNat k from h.number, UInt16.ofNat_add]
    rfl
  -- What is read is the next block, from the end of the last one.
  obtain ⟨hdata, hon'⟩ := m.fread_eq hsys hon B
  have hread : ((m.files path).drop (min (k * B) F.length)).take B = block B F k := by
    rw [hF, Lib.block_eq_take_drop]
    rcases Nat.le_total (k * B) F.length with hk | hk
    · rw [Nat.min_eq_left hk]
    · rw [Nat.min_eq_right hk, List.drop_length, List.drop_eq_nil_of_le hk]
  rw [hread] at hdata
  rw [hread, Lib.min_add_length_block] at hon'
  rcases processAck_cases sys m c with ⟨hsending, -⟩ | ⟨-, hcap, -⟩ | ⟨-, -, hnone, -⟩ |
    ⟨-, -, f', blk, s', hf', hblk, hs', hreact⟩
  · exact absurd (h.sending.symm.trans hsending) (by decide)
  · exact absurd hcap (Nat.not_lt.2 hcapacity)
  · cases hf.symm.trans hnone
  · cases hf'.symm.trans hf
    rw [hblksize, hnumber, hdata] at hreact
    refine ⟨s', hs', hreact.files, ?_, ?_, hreact.queued_eq⟩
    · rw [hreact.transfer]
      exact ⟨h.sending, congrArg (· + 1) h.counter, hnumber, h.blksize,
        Nat.le_trans h.capacity (Nat.le_of_eq hblk.symm), _, rfl, hon'⟩
    · have hdestroy : s'.2.destroy = (c.destroy || decide ((block B F k).length < c.blksize)) :=
        congrArg Transfer.destroy hreact.transfer
      rwa [hblksize] at hdestroy

/-- The first block of a file starts a read. -/
theorem Transfer.reading_begun {t : Transfer} {f : File} {path F : Bytes}
    (hblksize : t.blksize = 512) (hcapacity : 512 ≤ t.capacity)
    (hf : f.On false path (F.take 512).length) : (t.begun f).Reading path F 512 1 where
  sending := rfl
  counter := rfl
  number := rfl
  blksize := hblksize
  capacity := hcapacity
  handle := ⟨f, rfl, by rwa [List.length_take] at hf⟩

/-! ## Repeated requests -/

/-- A client created by a request is sent this very request again, any number of
    times, and ACKs of any number, while the file can be read in full. -/
structure RepeatedRead (cfg : Config) (path rrq : Bytes) (s : State) (turns : List Turn) :
    Prop where
  fresh : s.2.transfer = .fresh
  request : IsPlainRequest cfg .rrq path rrq
  octet : IsOctet rrq
  first : turns.head?.map Turn.datagram = some rrq
  datagrams : ∀ t ∈ turns, t.datagram = rrq ∨ IsPacket .ack t.datagram
  quiet : ∀ t ∈ turns, t.Quiet path
  serves : ∀ t ∈ turns, t.sys.Serves path

/-- Every block queued is the one the counter of the client says. -/
def Exchange.Intact (F : Bytes) (x : Exchange) : Prop :=
  ∀ d ∈ x.data, ntohs d 2 = UInt16.ofNat x.blocks ∧ d.drop headerSize = block 512 F (x.blocks - 1)

instance (F : Bytes) (x : Exchange) : Decidable (x.Intact F) :=
  inferInstanceAs (Decidable (∀ d ∈ x.data, _))

/-- The request does not reach a transfer that is on, or the file is empty. -/
def Exchange.Unrepeated (rrq F : Bytes) (x : Exchange) : Prop :=
  x.input.datagram = rrq → x.before.2.sendingfile = true → F = []

instance (rrq F : Bytes) (x : Exchange) : Decidable (x.Unrepeated rrq F) :=
  inferInstanceAs (Decidable (_ → _ → _))

namespace Exchange

variable {s s' : State} {t : Turn}

theorem intact_nil {F : Bytes} (h : queuedBetween (t.meanwhile s) s' = []) :
    Intact F ⟨s, t, .ok s'⟩ := by
  simp [Intact, h]

theorem intact_block {F : Bytes} {k : ℕ} (hk : s'.2.actualblockno = k + 1)
    (h : queuedBetween (t.meanwhile s) s' = [dataBytes (UInt16.ofNat (k + 1)) (block 512 F k)]) :
    Intact F ⟨s, t, .ok s'⟩ := by
  intro d hd
  rw [data_ok, h] at hd
  rw [List.mem_singleton.1 (List.mem_filter.1 hd).1, ntohs_dataBytes, drop_dataBytes,
    blocks_ok, hk]
  exact ⟨rfl, rfl⟩

end Exchange

/-- What holds between the turns. -/
structure RepeatedRead.Inv (path F : Bytes) (s : State) : Prop where
  files : s.1.files path = F
  transfer : s.2.transfer = .fresh ∨ ∃ k, s.2.transfer.Reading path F 512 k

namespace RepeatedRead

variable {cfg : Config} {path rrq F : Bytes} {s : State} {turns : List Turn} {t : Turn}

theorem inv_meanwhile (ht : t.Quiet path) (hs : Inv path F s) : Inv path F (t.meanwhile s) where
  files := (ht.files s).trans hs.files
  transfer := by rw [ht.transfer s]; exact hs.transfer

/-- A turn that does not crash keeps the invariant, and queues an intact block or none. -/
theorem inv_turn_ok (hrrq : IsPlainRequest cfg .rrq path rrq) (hquiet : t.Quiet path)
    (hserves : t.sys.Serves path) (ht : t.datagram = rrq ∨ IsPacket .ack t.datagram)
    (hloggable : t.datagram = rrq → (requestOf rrq).Loggable t.sys) (hs : Inv path F s)
    (hQ : Exchange.Unrepeated rrq F ⟨s, t, turn cfg s t⟩) :
    ∃ s', turn cfg s t = .ok s' ∧ Inv path F s' ∧ Exchange.Intact F ⟨s, t, .ok s'⟩ := by
  obtain ⟨hF, htransfer⟩ := inv_meanwhile hquiet hs
  have hQ : t.datagram = rrq → (t.meanwhile s).2.sendingfile = true → F = [] := hQ
  rcases ht with ht | hack
  · rw [turn, ht, processDatagram_rrq _ _ _ _ hrrq.packet]
    rcases htransfer with hfresh | ⟨k, hk⟩
    · -- The request starts the transfer.
      obtain ⟨s', f, es, hs', hf, hreact⟩ := processRrq_started (t.meanwhile s).1
        (t.meanwhile s).2 hserves rfl hrrq.plain (hloggable ht) hrrq.path
        (congrArg Transfer.sendingfile hfresh)
      rw [hF] at hf hreact
      have htransfer' := hreact.transfer
      rw [hfresh] at htransfer'
      have hreading : s'.2.transfer.Reading path F 512 1 :=
        htransfer' ▸ Transfer.reading_begun rfl (Nat.le_refl _) hf
      exact ⟨s', hs', ⟨hreact.files ▸ hF, .inr ⟨1, hreading⟩⟩,
        Exchange.intact_block hreading.counter
          (hreact.queued_eq.trans (by rw [Lib.block_zero]; rfl))⟩
    · -- Repeated, it goes back to the start of an empty file.
      obtain ⟨s', f, es, hs', hf, hreact⟩ := processRrq_reopened (t.meanwhile s).1
        (t.meanwhile s).2 hserves rfl hrrq.plain (hloggable ht) hrrq.path hk.sending
      have hreading : s'.2.transfer.Reading path F 512 k := by
        rw [hreact.transfer]
        refine ⟨hk.sending, hk.counter, hk.number, hk.blksize, hk.capacity, f, rfl, ?_⟩
        rwa [hQ ht hk.sending, List.length_nil, Nat.min_zero]
      exact ⟨s', hs', ⟨hreact.files ▸ hF, .inr ⟨k, hreading⟩⟩,
        Exchange.intact_nil hreact.queued_eq⟩
  · -- An ACK moves a transfer on, whatever its number.
    rw [turn, processDatagram_ack _ _ _ _ hack]
    rcases htransfer with hfresh | ⟨k, hk⟩
    · obtain ⟨s', hs', hreact⟩ := processAck_idle t.sys (t.meanwhile s).1 (t.meanwhile s).2
        (congrArg Transfer.sendingfile hfresh)
      exact ⟨s', hs', ⟨hreact.files ▸ hF, .inl (hreact.transfer.trans hfresh)⟩,
        Exchange.intact_nil hreact.queued_eq⟩
    · obtain ⟨s', hs', hfiles, hreading, -, hqueued⟩ :=
        processAck_reading hserves.fread hF hk
      exact ⟨s', hs', ⟨hfiles ▸ hF, .inr ⟨k + 1, hreading⟩⟩,
        Exchange.intact_block hreading.counter hqueued⟩

/-- A request that cannot be logged ends the run, and queues nothing. -/
theorem inv_turn (hrrq : IsPlainRequest cfg .rrq path rrq) (hquiet : t.Quiet path)
    (hserves : t.sys.Serves path) (ht : t.datagram = rrq ∨ IsPacket .ack t.datagram)
    (hs : Inv path F s) (hQ : Exchange.Unrepeated rrq F ⟨s, t, turn cfg s t⟩) :
    Exchange.Intact F ⟨s, t, turn cfg s t⟩ ∧ ∀ s', turn cfg s t = .ok s' → Inv path F s' := by
  by_cases hloggable : t.datagram = rrq → (requestOf rrq).Loggable t.sys
  · obtain ⟨s', hs', hinv, hintact⟩ := inv_turn_ok hrrq hquiet hserves ht hloggable hs hQ
    rw [hs']
    exact ⟨hintact, fun s'' h => Except.ok.inj h ▸ hinv⟩
  · obtain ⟨hdatagram, hwild⟩ := Classical.not_imp.1 hloggable
    rw [turn, hdatagram, processDatagram_rrq _ _ _ _ hrrq.packet,
      processRrq_wild cfg t.sys _ _ _ _ _ rfl hwild]
    exact ⟨fun d hd => absurd hd List.not_mem_nil, fun s' h => by cases h⟩

end RepeatedRead

/-- A repeated read on the server to run. -/
theorem repeatedRead_sample (F : Bytes) {ds : List Bytes}
    (hds : ∀ d ∈ ds, d = Sample.request .rrq [] ∨ IsPacket .ack d) :
    RepeatedRead Sample.config Sample.path (Sample.request .rrq []) (Sample.start F)
      ((Sample.request .rrq [] :: ds).map Sample.turn) where
  fresh := rfl
  request := Sample.request_plain .rrq
  octet := Sample.request_octet .rrq
  first := rfl
  datagrams := by
    simp only [List.forall_mem_map, List.forall_mem_cons]
    exact ⟨.inl rfl, hds⟩
  quiet := by simp [Sample.quiet]
  serves := by simp [Sample.turn, Sample.serves]

/-- A file of one byte, asked for twice, is sent twice. -/
theorem not_read_integrity :
    ¬∀ cfg path rrq s turns, RepeatedRead cfg path rrq s turns →
      ∀ x ∈ exchanges cfg s turns, x.Intact (s.1.files path) := by
  intro h
  have hread := repeatedRead_sample [1]
    (show ∀ d ∈ [Sample.request .rrq [], ackBytes 1], _ from by decide +kernel)
  exact absurd (h _ _ _ _ _ hread) (by decide +kernel)

/-- If the request is not repeated while the file is being sent (or the file is
    empty), every block is the one its number says. -/
theorem read_integrity {cfg : Config} {path rrq : Bytes} {s : State} {turns : List Turn}
    (h : RepeatedRead cfg path rrq s turns)
    (hQ : ∀ x ∈ exchanges cfg s turns, x.Unrepeated rrq (s.1.files path)) :
    ∀ x ∈ exchanges cfg s turns, x.Intact (s.1.files path) := by
  refine Lib.forall_mem_trace (RepeatedRead.Inv path (s.1.files path)) ⟨rfl, .inl h.fresh⟩ ?_ hQ
  intro s' t hs' ht hx
  exact RepeatedRead.inv_turn h.request (h.quiet t ht) (h.serves t ht) (h.datagrams t ht) hs' hx

/-- A file of two blocks, asked for once. -/
theorem read_integrity_once :
    let F : Bytes := List.replicate 512 7 ++ [8]
    (∀ x ∈ exchanges Sample.config (Sample.start F)
      ([Sample.request .rrq [], ackBytes 1].map Sample.turn),
        x.Unrepeated (Sample.request .rrq []) F) ∧
      ∀ x ∈ exchanges Sample.config (Sample.start F)
        ([Sample.request .rrq [], ackBytes 1].map Sample.turn), x.Intact F :=
  ⟨by decide +kernel,
    read_integrity (repeatedRead_sample _ (by decide +kernel)) (by decide +kernel)⟩

end Nbstftp
