import Nbstftp.LockStep

/-!
# Confirming an option

A read request with an option the server knows, a block size or the size of the file,
is answered with an OACK (`handshake_acknowledged`), which the client confirms with an
ACK of block 0. After a block size, the transfer is on and the first block is sent;
after the size of the file, the file has been closed again and nothing is sent
(`handshake_completes_iff`).
-/

namespace Nbstftp

open Lib (block)

/-- A read request of a new client for a file that is served, with a block size that is
    accepted or for its size, and the ACK that confirms the option. -/
structure Handshake (cfg : Config) (path : Bytes) (s : State) (rrq ack : Turn) : Prop where
  fresh : s.2.transfer = .fresh
  request : IsRequest cfg .rrq path rrq.datagram
  option : acceptedBlksize rrq.sys (requestOf rrq.datagram) ≠ none ∨
    strcasecmp (requestOf rrq.datagram).opt (ascii "tsize") = 0
  quiet : rrq.Quiet path
  serves : rrq.sys.Serves path
  packet : IsPacket .ack ack.datagram
  blockno : blocknoOf ack.datagram = 0
  quiet_ack : ack.Quiet path
  fread : ∀ n, n ≤ ack.sys.fread n

/-- The ACK gets the first block of the file, of the block size of the client then. -/
def Handshake.Completes (cfg : Config) (path : Bytes) (s : State) (rrq ack : Turn) : Prop :=
  ∃ s₁ s₂, turn cfg s rrq = .ok s₁ ∧ turn cfg s₁ ack = .ok s₂ ∧
    Exchange.queued ⟨s₁, ack, .ok s₂⟩ = [dataBytes 1 ((s.1.files path).take s₁.2.blksize)]

/-- An option is at most one of the two. -/
theorem strcasecmp_blksize_of_tsize {s : Bytes} (h : strcasecmp s (ascii "tsize") = 0) :
    strcasecmp s (ascii "blksize") ≠ 0 := by
  intro h'
  cases s with
  | nil => exact absurd h (by decide)
  | cons b bs =>
    -- The first letters differ.
    have hb : tolower 116 = tolower 98 :=
      (tolower_eq_of_strcasecmp h).symm.trans (tolower_eq_of_strcasecmp h')
    exact absurd hb (by decide)

section

variable {cfg : Config} {path : Bytes} {s : State} {rrq ack : Turn}

/-- The size of the file is answered from a file that is closed again. -/
theorem turn_tsize (hrequest : IsRequest cfg .rrq path rrq.datagram)
    (hopt : strcasecmp (requestOf rrq.datagram).opt (ascii "tsize") = 0)
    (hquiet : rrq.Quiet path) (hserves : rrq.sys.Serves path) :
    ∃ s', turn cfg s rrq = .ok s' ∧ s'.2.transfer = s.2.transfer ∧
      Exchange.queued ⟨s, rrq, .ok s'⟩ =
        [oackBytes (requestOf rrq.datagram).opt (decimal (s.1.files path).length)] := by
  have hblksize := strcasecmp_blksize_of_tsize hopt
  have hrefusal : rrqRefusal rrq.sys (requestOf rrq.datagram) = none := by
    rw [rrqRefusal, if_neg hrequest.not_mail, if_pos hblksize]
  have haccept : acceptedBlksize rrq.sys (requestOf rrq.datagram) = none :=
    if_neg fun h => hblksize h.2
  have hloggable : (requestOf rrq.datagram).Loggable rrq.sys := loggable_of_opt fun hempty => by
    rw [requestOf, hempty] at hopt
    exact absurd hopt (by decide)
  obtain ⟨line, hline⟩ := hloggable.log false
  have hlog := loggedState_reacts (rrq.meanwhile s).1 (rrq.meanwhile s).2 line
  have hturn : turn cfg s rrq = serveRrq cfg rrq.sys
      (loggedState (rrq.meanwhile s).1 (rrq.meanwhile s).2 line).1
      (loggedState (rrq.meanwhile s).1 (rrq.meanwhile s).2 line).2 (requestOf rrq.datagram) := by
    rw [turn, processDatagram_rrq _ _ _ _ hrequest.packet]
    exact processRrq_eq cfg rrq.sys _ _ _ _ _ rfl hline
  generalize loggedState (rrq.meanwhile s).1 (rrq.meanwhile s).2 line = s₁ at hlog hturn
  rw [serveRrq_plain cfg rrq.sys s₁.1 s₁.2 _ hrefusal haccept, hopt] at hturn
  obtain ⟨m₂, hopen, hfiles, heffects⟩ := openForRead_serves s₁.1 s₁.2 hserves hrequest.path true
  obtain ⟨s', hs', hreact⟩ := serveFile_tsize rrq.sys m₂ s₁.2 (requestOf rrq.datagram) path
    (hserves.fopen _)
  have hprobe : Reacts s₁ ⟨s₁.2.transfer, [], m₂.files, _⟩ (m₂, s₁.2) :=
    .silent rfl rfl rfl rfl heffects
  -- Logging, looking for the file, and answering with its size.
  have hall := (hlog.trans hprobe).trans hreact
  refine ⟨s', (hturn.trans hopen).trans hs', ?_, ?_⟩
  · exact (hall.transfer.trans hlog.transfer).trans (hquiet.transfer s)
  · have hF : m₂.files path = s.1.files path := by
      rw [hfiles, hlog.files]
      exact hquiet.files s
    rw [← hF]
    exact hall.queued_eq

/-- A block size starts the read before its first block. -/
theorem turn_blksize (hrequest : IsRequest cfg .rrq path rrq.datagram) {B : ℕ}
    (haccept : acceptedBlksize rrq.sys (requestOf rrq.datagram) = some B)
    (hquiet : rrq.Quiet path) (hserves : rrq.sys.Serves path) (hfresh : s.2.transfer = .fresh) :
    ∃ s', turn cfg s rrq = .ok s' ∧ s'.1.files path = s.1.files path ∧
      s'.2.transfer.Reading path (s.1.files path) B 0 ∧
      Exchange.queued ⟨s, rrq, .ok s'⟩ =
        [oackBytes (requestOf rrq.datagram).opt (requestOf rrq.datagram).param] := by
  obtain ⟨s', f, es, hs', hf, hreact⟩ := processRrq_negotiated (rrq.meanwhile s).1
    (rrq.meanwhile s).2 hserves rfl haccept hrequest.path
  have htransfer := hreact.transfer
  rw [hquiet.transfer, hfresh] at htransfer
  refine ⟨s', ?_, (congrFun hreact.files path).trans (hquiet.files s), ?_, hreact.queued_eq⟩
  · rw [turn, processDatagram_rrq _ _ _ _ hrequest.packet, ← hs']
  · rw [htransfer]
    refine ⟨rfl, rfl, rfl, rfl, Nat.le_refl B, f, rfl, ?_⟩
    rwa [Nat.zero_mul, Nat.zero_min]

/-- The option is acknowledged, and nothing else is sent yet. -/
theorem handshake_acknowledged (h : Handshake cfg path s rrq ack) :
    ∃ s₁ param, turn cfg s rrq = .ok s₁ ∧
      Exchange.queued ⟨s, rrq, .ok s₁⟩ = [oackBytes (requestOf rrq.datagram).opt param] := by
  rcases h.option with haccept | hopt
  · obtain ⟨B, hB⟩ := Option.ne_none_iff_exists'.1 haccept
    obtain ⟨s₁, hs₁, -, -, hqueued⟩ := turn_blksize h.request hB h.quiet h.serves h.fresh
    exact ⟨s₁, _, hs₁, hqueued⟩
  · obtain ⟨s₁, hs₁, -, hqueued⟩ := turn_tsize h.request hopt h.quiet h.serves
    exact ⟨s₁, _, hs₁, hqueued⟩

/-- A block is sent in confirmation of the option if and only if that is a block size. -/
theorem handshake_completes_iff (h : Handshake cfg path s rrq ack) :
    Handshake.Completes cfg path s rrq ack ↔
      strcasecmp (requestOf rrq.datagram).opt (ascii "blksize") = 0 := by
  cases haccept : acceptedBlksize rrq.sys (requestOf rrq.datagram) with
  | some B =>
    have hblksize : strcasecmp (requestOf rrq.datagram).opt (ascii "blksize") = 0 := by
      by_contra hne
      rw [acceptedBlksize, if_neg fun h => hne h.2] at haccept
      cases haccept
    refine iff_of_true ?_ hblksize
    obtain ⟨s₁, hs₁, hF, hreading, -⟩ := turn_blksize h.request haccept h.quiet h.serves h.fresh
    obtain ⟨s₂, hs₂, -, -, -, hqueued⟩ := processAck_reading h.fread
      ((h.quiet_ack.files s₁).trans hF) ((h.quiet_ack.transfer s₁).symm ▸ hreading)
    refine ⟨s₁, s₂, hs₁, ?_, hqueued.trans ?_⟩
    · rw [turn, processDatagram_ack _ _ _ _ h.packet, hs₂]
    · rw [Lib.block_zero, show s₁.2.blksize = B from hreading.blksize]
      rfl
  | none =>
    have hopt := h.option.resolve_left (not_not.2 haccept)
    refine iff_of_false ?_ (strcasecmp_blksize_of_tsize hopt)
    rintro ⟨s₁, s₂, hs₁, hs₂, hqueued⟩
    -- No transfer is on.
    obtain ⟨s', hs', htransfer, -⟩ := turn_tsize h.request hopt h.quiet h.serves
    rw [Except.ok.inj (hs'.symm.trans hs₁), h.fresh] at htransfer
    have hfresh : (ack.meanwhile s₁).2.transfer = .fresh :=
      (h.quiet_ack.transfer s₁).trans htransfer
    obtain ⟨s₃, hs₃, hreact⟩ := processAck_idle ack.sys (ack.meanwhile s₁).1 (ack.meanwhile s₁).2
      (congrArg Transfer.sendingfile hfresh)
    rw [turn, processDatagram_ack _ _ _ _ h.packet, hs₃] at hs₂
    cases hs₂
    have hnone : Exchange.queued ⟨s₁, ack, .ok s₂⟩ = [] := hreact.queued_eq
    rw [hnone] at hqueued
    cases hqueued

end

namespace Sample

/-- A request for the block size of 512 bytes, and one for the size of the file. -/
def rrqBlksize : Bytes := request .rrq (ascii "blksize" ++ [0] ++ ascii "512" ++ [0])

def rrqTsize : Bytes := request .rrq (ascii "tsize" ++ [0] ++ ascii "0" ++ [0])

theorem handshake (F : Bytes) {rrq : Bytes} (hrrq : rrq ∈ [rrqBlksize, rrqTsize]) :
    Handshake config path (start F) (turn rrq) (turn (ackBytes 0)) where
  fresh := rfl
  request := by
    rcases List.mem_pair.1 hrrq with rfl | rfl <;>
      exact ⟨by decide +kernel, by decide +kernel, by decide +kernel⟩
  option := by
    rcases List.mem_pair.1 hrrq with rfl | rfl
    · exact .inl (by decide +kernel)
    · exact .inr (by decide +kernel)
  quiet := quiet _ _
  serves := serves _
  packet := isPacket_ackBytes 0
  blockno := blocknoOf_ackBytes 0
  quiet_ack := quiet _ _
  fread := Nat.le_refl

end Sample

/-- The size of a file is confirmed, which is not answered. -/
theorem not_handshake_completes :
    ¬∀ cfg path s rrq ack, Handshake cfg path s rrq ack →
      Handshake.Completes cfg path s rrq ack := by
  intro h
  obtain ⟨s₁, s₂, hs₁, hs₂, hqueued⟩ :=
    h _ _ _ _ _ (Sample.handshake [1] (show Sample.rrqTsize ∈ _ by decide))
  have hnone : ∀ s₁ ∈ (turn Sample.config (Sample.start [1])
      (Sample.turn Sample.rrqTsize)).toOption,
      ∀ s₂ ∈ (turn Sample.config s₁ (Sample.turn (ackBytes 0))).toOption,
        Exchange.queued ⟨s₁, Sample.turn (ackBytes 0), .ok s₂⟩ = [] := by
    decide +kernel
  rw [hnone s₁ (Lib.mem_toOption.2 hs₁) s₂ (Lib.mem_toOption.2 hs₂)] at hqueued
  cases hqueued

/-- A block size is confirmed. -/
theorem handshake_completes_blksize :
    Handshake.Completes Sample.config Sample.path (Sample.start [1])
      (Sample.turn Sample.rrqBlksize) (Sample.turn (ackBytes 0)) :=
  (handshake_completes_iff (Sample.handshake [1] (by decide))).2 (by decide +kernel)

end Nbstftp
