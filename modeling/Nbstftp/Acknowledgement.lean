import Nbstftp.Read

/-!
# Which ACK a block answers

The protocol is in lock step if a block is sent only in answer to the ACK of the
block before it, and any other ACK changes nothing (`Exchange.InStep`). The
server does not look at the number of an ACK: it is in lock step in exactly
those runs in which every ACK that reaches a transfer carries the number of the
last block (`in_step_iff`), however the reads of the run are started.

What a datagram of a read does to the counters and which blocks it queues is
said by `Advance`; the history of a run then has the last block in it
(`CountersAgree`).
-/

namespace Nbstftp

open Lib (Always)

/-- What a datagram of a read makes of the counters, and the blocks it queues. -/
inductive Advance (datagram : Bytes) (t t' : Transfer) : List Bytes → Prop
  | stays (hn : t'.currentblockno = t.currentblockno) (hk : t'.actualblockno = t.actualblockno) :
      Advance datagram t t' []
  | resets (hn : t'.currentblockno = 0) (hk : t'.actualblockno = 0) : Advance datagram t t' []
  | starts (data : Bytes) (hn : t'.currentblockno = 1) (hk : t'.actualblockno = 1) :
      Advance datagram t t' [dataBytes 1 data]
  | next (data : Bytes) (hack : IsPacket .ack datagram) (hsending : t.sendingfile = true)
      (hn : t'.currentblockno = t.currentblockno + 1)
      (hk : t'.actualblockno = t.actualblockno + 1) :
      Advance datagram t t' [dataBytes (t.currentblockno + 1) data]

theorem filter_isData_eq_nil {qs : List Bytes} (hqs : ∀ q ∈ qs, ¬IsData q) :
    qs.filter (IsData ·) = [] :=
  List.filter_eq_nil_iff.2 fun q hq => by simpa using hqs q hq

/-- An opening leaves the counters as they were, or starts with the first block. -/
theorem Opening.counters {tmp : Bytes} {t : Transfer} {s s' : State}
    (h : Opening tmp t s (.ok s')) :
    ((queuedBetween s s').filter (IsData ·) = [] ∧
      s'.2.currentblockno = t.currentblockno ∧ s'.2.actualblockno = t.actualblockno) ∨
    ∃ data, (queuedBetween s s').filter (IsData ·) = [dataBytes 1 data] ∧
      s'.2.currentblockno = 1 ∧ s'.2.actualblockno = 1 := by
  cases h with
  | ok t' qs files es s' hstart h hopen htmp =>
    have hn : s'.2.currentblockno = t'.currentblockno :=
      congrArg Transfer.currentblockno h.transfer
    have hk : s'.2.actualblockno = t'.actualblockno := congrArg Transfer.actualblockno h.transfer
    rw [h.queued_eq, hn, hk]
    cases hstart with
    | refused destroy qs hqs => exact .inl ⟨filter_isData_eq_nil hqs, rfl, rfl⟩
    | reopened destroy qs hqs hsending f => exact .inl ⟨filter_isData_eq_nil hqs, rfl, rfl⟩
    | started destroy qs hqs hsending f data =>
      refine .inr ⟨data, ?_, rfl, rfl⟩
      rw [List.filter_append, filter_isData_eq_nil hqs,
        List.filter_cons_of_pos (by simpa using isData_dataBytes 1 data)]
      rfl

section

variable {cfg : Config} {sys : Sys} {m : Machine} {c : Client} {datagram : Bytes} {s' : State}

theorem processAck_advance (hack : IsPacket .ack datagram) (h : processAck sys m c = .ok s') :
    Advance datagram c.transfer s'.2.transfer
      ((queuedBetween (m, c) s').filter (IsData ·)) := by
  rcases processAck_cases sys m c with ⟨-, s₁, hs₁, hreact⟩ | ⟨-, -, m', hm'⟩ |
    ⟨-, -, -, m', hm'⟩ | ⟨hsending, -, f, blk, s₁, -, -, hs₁, hreact⟩
  · cases hs₁.symm.trans h
    rw [hreact.queued_eq, hreact.transfer]
    exact .stays rfl rfl
  · cases hm'.symm.trans h
  · cases hm'.symm.trans h
  · cases hs₁.symm.trans h
    rw [hreact.queued_eq, hreact.transfer,
      List.filter_cons_of_pos (by simpa using isData_dataBytes _ _)]
    exact .next _ hack hsending rfl rfl

/-- An ACK that reaches a transfer is counted. -/
theorem processAck_moves (hsending : c.sendingfile = true) (h : processAck sys m c = .ok s') :
    s'.2.actualblockno = c.actualblockno + 1 := by
  rcases processAck_cases sys m c with ⟨hidle, -⟩ | ⟨-, -, m', hm'⟩ |
    ⟨-, -, -, m', hm'⟩ | ⟨-, -, f, blk, s₁, -, -, hs₁, hreact⟩
  · cases hsending.symm.trans hidle
  · cases hm'.symm.trans h
  · cases hm'.symm.trans h
  · cases hs₁.symm.trans h
    exact congrArg Transfer.actualblockno hreact.transfer

theorem processRrq_advance {p : Bytes} {alloclen : ℕ}
    (h : processRrq cfg sys m c p alloclen = .ok s') :
    Advance datagram c.transfer s'.2.transfer
      ((queuedBetween (m, c) s').filter (IsData ·)) := by
  rcases processRrq_cases cfg sys m c _ p alloclen rfl with
    ⟨-, hcrash⟩ | ⟨-, ⟨e, line, -, -, hrefused⟩ | ⟨-, -, hopening⟩ | ⟨blksize, -, -, hopening⟩⟩
  · cases hcrash.symm.trans h
  · have hlog := loggedState_reacts m c line
    rw [hrefused] at h
    generalize loggedState m c line = s₀ at hlog h
    rcases error_cases sys s₀.1 s₀.2 e.1 e.2 with ⟨-, s₁, hs₁, hreact⟩ | ⟨-, hcrash⟩
    · cases hs₁.symm.trans h
      have hreact' := hlog.trans hreact
      rw [hreact'.queued_eq, hreact'.transfer, hlog.transfer, filter_isData_eq_nil]
      · exact .stays rfl rfl
      · exact fun q hq => List.mem_singleton.1 hq ▸ not_isData_errorBytes _ _
    · cases hcrash.symm.trans h
  · rw [h] at hopening
    rcases hopening.counters with ⟨hdata, hn, hk⟩ | ⟨data, hdata, hn, hk⟩
    · rw [hdata]
      exact .stays hn hk
    · rw [hdata]
      exact .starts data hn hk
  · rw [h] at hopening
    rcases hopening.counters with ⟨hdata, hn, hk⟩ | ⟨data, hdata, hn, hk⟩
    · rw [hdata]
      exact .resets hn hk
    · rw [hdata]
      exact .starts data hn hk

/-- Every datagram but DATA packets and write requests. -/
theorem processDatagram_advance (hdata : ¬IsPacket .data datagram)
    (hwrq : ¬IsPacket .wrq datagram) (h : processDatagram cfg sys m c datagram = .ok s') :
    Advance datagram c.transfer s'.2.transfer
      ((queuedBetween (m, c) s').filter (IsData ·)) := by
  rcases processDatagram_cases cfg sys m c datagram with ⟨hdata', -⟩ | ⟨-, hs⟩ | ⟨hack, hs⟩ |
    ⟨hwrq', -⟩ | ⟨-, hs⟩ | ⟨m', -, hs⟩
  · exact absurd hdata' hdata
  · obtain ⟨s₁, hs₁, hreact⟩ := processError_reacts sys m c
    cases hs₁.symm.trans (hs.symm.trans h)
    rw [hreact.queued_eq, hreact.transfer, filter_isData_eq_nil]
    · exact .stays rfl rfl
    · exact fun q hq => List.mem_singleton.1 hq ▸ not_isData_ackBytes _
  · exact processAck_advance hack (hs.symm.trans h)
  · exact absurd hwrq' hwrq
  · exact processRrq_advance (hs.symm.trans h)
  · cases hs.symm.trans h
    rw [queuedBetween, List.drop_length]
    exact .stays rfl rfl

end

/-! ## Runs of reads -/

/-- A run of reads of a client: any requests, ACKs and errors, and anything else
    that is no part of a write. -/
structure ReadRun (s : State) (turns : List Turn) : Prop where
  fresh : s.2.transfer = .fresh
  keeps : ∀ t ∈ turns, ∀ s, (t.meanwhile s).2.transfer = s.2.transfer
  not_data : ∀ t ∈ turns, ¬IsPacket .data t.datagram
  not_wrq : ∀ t ∈ turns, ¬IsPacket .wrq t.datagram

namespace Exchange

/-- An ACK of another block than the last one. -/
def AcksOther (x : Exchange) : Prop :=
  IsPacket .ack x.input.datagram ∧
    blocknoOf x.input.datagram ≠ UInt16.ofNat x.before.2.actualblockno

instance (x : Exchange) : Decidable x.AcksOther := inferInstanceAs (Decidable (_ ∧ _))

/-- Block `k` is among what an exchange queues. -/
def Sends (k : ℕ) (x : Exchange) : Prop :=
  x.blocks = k ∧ ∃ d ∈ x.data, ntohs d 2 = UInt16.ofNat k

/-- Lock step: block `k + 1` is queued in answer to the ACK of block `k`, which
    was queued before; and an ACK of another block changes nothing. -/
def InStep (past : List Exchange) (x : Exchange) : Prop :=
  (∀ k, 1 ≤ k → x.Sends (k + 1) →
    IsPacket .ack x.input.datagram ∧ blocknoOf x.input.datagram = UInt16.ofNat k ∧
      ∃ y ∈ past, y.Sends k) ∧
  (x.AcksOther → ∃ s', x.post = .ok s' ∧ s'.2.transfer = x.before.2.transfer ∧
    s'.2.packetqueue = x.before.2.packetqueue)

/-- In lock step, an ACK of another block is not counted. -/
theorem InStep.blocks_eq {past : List Exchange} {x : Exchange} (h : x.InStep past)
    (hx : x.AcksOther) : x.blocks = x.before.2.actualblockno := by
  obtain ⟨s', hok, htransfer, -⟩ := h.2 hx
  rw [blocks, hok]
  exact congrArg Transfer.actualblockno htransfer

/-- An ACK that reaches a transfer is one of the last block. -/
def AcksLast (x : Exchange) : Prop := x.AcksOther → x.before.2.sendingfile = false

instance (x : Exchange) : Decidable x.AcksLast := inferInstanceAs (Decidable (_ → _))

end Exchange

/-- The counters agree, and the last block is part of the history. -/
structure CountersAgree (past : List Exchange) (s : State) : Prop where
  number : s.2.currentblockno = UInt16.ofNat s.2.actualblockno
  sent : 1 ≤ s.2.actualblockno → ∃ y ∈ past, y.Sends s.2.actualblockno

section

variable {cfg : Config} {s s' : State} {t : Turn} {past : List Exchange}

theorem CountersAgree.meanwhile (h : CountersAgree past s)
    (ht : ∀ s, (t.meanwhile s).2.transfer = s.2.transfer) :
    CountersAgree past (t.meanwhile s) := by
  have hn : (t.meanwhile s).2.currentblockno = s.2.currentblockno :=
    congrArg Transfer.currentblockno (ht s)
  have hk : (t.meanwhile s).2.actualblockno = s.2.actualblockno :=
    congrArg Transfer.actualblockno (ht s)
  exact ⟨by rw [hn, hk, h.number], by rw [hk]; exact h.sent⟩

/-- An exchange keeps the counters and the history together. -/
theorem CountersAgree.step (h : CountersAgree past (t.meanwhile s))
    (hadvance : Advance t.datagram (t.meanwhile s).2.transfer s'.2.transfer
      (Exchange.data ⟨s, t, .ok s'⟩)) :
    CountersAgree (past ++ [⟨s, t, .ok s'⟩]) s' := by
  generalize hdata : Exchange.data ⟨s, t, .ok s'⟩ = data at hadvance
  -- A block that is sent has the number of the counter.
  have hsends : ∀ {k d}, s'.2.actualblockno = k → data = [dataBytes (UInt16.ofNat k) d] →
      ∃ y ∈ past ++ [(⟨s, t, .ok s'⟩ : Exchange)], y.Sends s'.2.actualblockno := by
    rintro k d rfl rfl
    refine ⟨_, List.mem_append_right _ List.mem_cons_self, rfl, _, ?_, ntohs_dataBytes _ d⟩
    rw [hdata]
    exact List.mem_cons_self
  cases hadvance with
  | stays hn hk =>
    have hn' : s'.2.currentblockno = (t.meanwhile s).2.currentblockno := hn
    have hk' : s'.2.actualblockno = (t.meanwhile s).2.actualblockno := hk
    refine ⟨by rw [hn', hk', h.number], fun hpos => ?_⟩
    rw [hk'] at hpos ⊢
    obtain ⟨y, hy, hsend⟩ := h.sent hpos
    exact ⟨y, List.mem_append_left _ hy, hsend⟩
  | resets hn hk =>
    have hk' : s'.2.actualblockno = 0 := hk
    exact ⟨by rw [show s'.2.currentblockno = 0 from hn, hk']; rfl, fun hpos => by omega⟩
  | starts d hn hk =>
    have hk' : s'.2.actualblockno = 1 := hk
    exact ⟨by rw [show s'.2.currentblockno = 1 from hn, hk']; rfl, fun _ => hsends hk' rfl⟩
  | next d hack hsending hn hk =>
    have hk' : s'.2.actualblockno = (t.meanwhile s).2.actualblockno + 1 := hk
    have hnumber : (t.meanwhile s).2.currentblockno + 1 =
        UInt16.ofNat ((t.meanwhile s).2.actualblockno + 1) := by
      rw [h.number, UInt16.ofNat_add]
      rfl
    refine ⟨?_, fun _ => hsends hk' (congrArg (fun n => [dataBytes n d]) hnumber)⟩
    rw [show s'.2.currentblockno = (t.meanwhile s).2.currentblockno + 1 from hn, hk', hnumber]

/-- An ACK of another block is in step exactly if there is no transfer. -/
theorem in_step_iff_acksLast (h : CountersAgree past (t.meanwhile s))
    (hdata : ¬IsPacket .data t.datagram) (hwrq : ¬IsPacket .wrq t.datagram) :
    Exchange.InStep past ⟨s, t, turn cfg s t⟩ ↔ Exchange.AcksLast ⟨s, t, turn cfg s t⟩ := by
  constructor
  · rintro ⟨-, hother⟩ hx
    obtain ⟨s', hs', htransfer, -⟩ := hother hx
    by_contra hidle
    have hsending : (t.meanwhile s).2.sendingfile = true := by
      simpa [Exchange.before] using hidle
    have hs'' : processAck t.sys (t.meanwhile s).1 (t.meanwhile s).2 = .ok s' :=
      (processDatagram_ack cfg t.sys _ _ hx.1).symm.trans hs'
    have hmoves := processAck_moves hsending hs''
    have hkeeps : s'.2.actualblockno = (t.meanwhile s).2.actualblockno :=
      congrArg Transfer.actualblockno htransfer
    omega
  · intro hlast
    constructor
    · rintro k hk ⟨hblocks, d, hd, -⟩
      cases hpost : turn cfg s t with
      | error e =>
        rw [hpost] at hd
        cases hd
      | ok s' =>
        rw [hpost] at hblocks hd hlast
        have hadvance := processDatagram_advance hdata hwrq hpost
        rw [Exchange.data_ok] at hd
        generalize (queuedBetween (t.meanwhile s) s').filter (IsData ·) = qs at hd hadvance
        have hblocks' : s'.2.transfer.actualblockno = k + 1 := hblocks
        cases hadvance with
        | stays | resets => cases hd
        | starts d _ hk₁ => omega
        | next d hack hsending _ hk₁ =>
          -- The block before is the last one, in the history by the invariant.
          have hk' : (t.meanwhile s).2.actualblockno = k :=
            Nat.succ.inj (hk₁.symm.trans hblocks')
          refine ⟨hack, ?_, hk' ▸ h.sent (hk' ▸ hk)⟩
          by_contra hother
          exact absurd (hsending.symm.trans (hlast ⟨hack, hk' ▸ hother⟩)) (by decide)
    · intro hx
      obtain ⟨s', hs', hreact⟩ := processAck_idle t.sys (t.meanwhile s).1 (t.meanwhile s).2
        (hlast hx)
      exact ⟨s', (processDatagram_ack cfg t.sys _ _ hx.1).trans hs', hreact.transfer,
        hreact.packetqueue_eq rfl⟩

end

/-- Runs of reads on the server to run. -/
theorem readRun_sample (F : Bytes) {ds : List Bytes}
    (hds : ∀ d ∈ ds, ¬IsPacket .data d ∧ ¬IsPacket .wrq d) :
    ReadRun (Sample.start F) (ds.map Sample.turn) where
  fresh := rfl
  keeps := by simp [Sample.turn]
  not_data := by simpa [Sample.turn] using fun d hd => (hds d hd).1
  not_wrq := by simpa [Sample.turn] using fun d hd => (hds d hd).2

/-- A file is asked for, and an ACK of block 7 comes instead of one of block 1. -/
theorem not_in_step :
    ¬∀ cfg s turns, ReadRun s turns → Always Exchange.InStep (exchanges cfg s turns) := by
  intro h
  have hrun := readRun_sample (List.replicate 600 0)
    (show ∀ d ∈ [Sample.request .rrq [], ackBytes 7], _ from by decide +kernel)
  have hstep := (h Sample.config _ _ hrun).getElem (show 1 < _ from by decide +kernel)
  exact absurd (hstep.blocks_eq (by decide +kernel)) (by decide +kernel)

/-- A run of reads is in lock step exactly if every ACK that reaches a transfer is
    one of the last block. -/
theorem in_step_iff {cfg : Config} {s : State} {turns : List Turn} (h : ReadRun s turns) :
    Always Exchange.InStep (exchanges cfg s turns) ↔
      ∀ x ∈ exchanges cfg s turns, x.AcksLast := by
  rw [← Lib.always_iff_forall_mem]
  refine Lib.always_iff_always CountersAgree ?_ ?_ ?_
  · have hk : s.2.actualblockno = 0 := congrArg Transfer.actualblockno h.fresh
    have hn : s.2.currentblockno = 0 := congrArg Transfer.currentblockno h.fresh
    exact ⟨by rw [hn, hk]; rfl, fun hpos => by omega⟩
  · rintro past ⟨s, t, post⟩ hs ht (hpost : post = turn cfg s t)
    rw [hpost]
    exact in_step_iff_acksLast (hs.meanwhile (h.keeps t ht)) (h.not_data t ht) (h.not_wrq t ht)
  · rintro past ⟨s, t, post⟩ s' hs ht (hpost : post = turn cfg s t) hlast (hok : post = .ok s')
    rw [hok]
    exact (hs.meanwhile (h.keeps t ht)).step
      (processDatagram_advance (h.not_data t ht) (h.not_wrq t ht) (hpost.symm.trans hok))

/-- A file of two blocks, the ACK of the first of which comes in time. -/
theorem in_step_blocks :
    Always Exchange.InStep (exchanges Sample.config (Sample.start (List.replicate 600 0))
      ([Sample.request .rrq [], ackBytes 1].map Sample.turn)) :=
  (in_step_iff (readRun_sample _ (by decide +kernel))).2 (by decide +kernel)

end Nbstftp
