import Nbstftp.Read

/-!
# Reading in lock step

In a lock-step run a read request is followed by the ACKs of one block after the
other, each sent once the block it acknowledges has been: meanwhile, the queue
is flushed, and a client marked for destruction is gone (`Turn.Flushes`). What
the exchanges of such a run show, the blocks queued and the mark, is known in
full (`exchanges_acks`).

* A read with a negotiated block size sends the file, block by block up to and
  including the first short one, with which the client is marked
  (`negotiated_read`).
* A request without options sends the same blocks as one for the default block
  size, but does not test the first one for the end of the file: the two agree
  exactly for files of at least one full block (`reads_agree_iff`).
-/

namespace Nbstftp

open Lib (block blockCount)

/-- Meanwhile, what is queued for the client is sent: a client marked for
    destruction is removed, and the next datagram is one for a new client. -/
structure Turn.Flushes (t : Turn) (path : Bytes) : Prop where
  kept : ∀ s, s.2.destroy = false → (t.meanwhile s).2.transfer = s.2.transfer
  removed : ∀ s, s.2.destroy = true → (t.meanwhile s).2.transfer = .fresh
  files : ∀ s, (t.meanwhile s).1.files path = s.1.files path

/-- ACKs of one block after the other, from the `k`-th on. -/
inductive Acks (path : Bytes) : ℕ → List Turn → Prop
  | nil (k : ℕ) : Acks path k []
  | cons {k : ℕ} {t : Turn} {acks : List Turn} (hack : IsPacket .ack t.datagram)
      (hblockno : blocknoOf t.datagram = UInt16.ofNat k) (hflush : t.Flushes path)
      (hread : ∀ n, n ≤ t.sys.fread n) (hacks : Acks path (k + 1) acks) :
      Acks path k (t :: acks)

/-- A request for a block size on a client that is not sending, and ACKs. -/
structure NegotiatedRead (cfg : Config) (path : Bytes) (B : ℕ) (s : State) (rrq : Turn)
    (acks : List Turn) : Prop where
  fresh : s.2.transfer = .fresh
  packet : IsPacket .rrq rrq.datagram
  blksize : acceptedBlksize rrq.sys (requestOf rrq.datagram) = some B
  filename : requestPath cfg (requestOf rrq.datagram).filename = path
  quiet : rrq.Quiet path
  serves : rrq.sys.Serves path
  acks : Acks path 0 acks

/-- A request without options on a client that is not sending, and ACKs. -/
structure PlainRead (cfg : Config) (path : Bytes) (s : State) (rrq : Turn)
    (acks : List Turn) : Prop where
  fresh : s.2.transfer = .fresh
  request : IsPlainRequest cfg .rrq path rrq.datagram
  quiet : rrq.Quiet path
  serves : rrq.sys.Serves path
  acks : Acks path 1 acks

namespace Sample

/-- A turn on the server to run in which a marked client is replaced. -/
def flushed (datagram : Bytes) : Turn :=
  ⟨fun s => if s.2.destroy then (s.1, .new 2 socket) else s, .ideal, datagram⟩

theorem flushes (datagram path : Bytes) : (flushed datagram).Flushes path where
  kept s h := by simp [flushed, h]
  removed s h := by simp [flushed, h]
  files s := by simp only [flushed]; split <;> rfl

/-- ACKs of `n` blocks, from the `k`-th on. -/
def acks : ℕ → ℕ → List Turn
  | _, 0 => []
  | k, n + 1 => flushed (ackBytes (UInt16.ofNat k)) :: acks (k + 1) n

theorem acks_acks (path : Bytes) (k n : ℕ) : Acks path k (acks k n) := by
  induction n generalizing k with
  | zero => exact .nil k
  | succ n ih =>
    exact .cons (isPacket_ackBytes _) (blocknoOf_ackBytes _) (flushes _ _) Nat.le_refl (ih (k + 1))

theorem plainRead (F : Bytes) (n : ℕ) :
    PlainRead config path (start F) (turn (request .rrq [])) (acks 1 n) :=
  ⟨rfl, request_plain .rrq, quiet _ _, serves _, acks_acks _ _ _⟩

theorem negotiatedRead (F : Bytes) (n : ℕ) :
    NegotiatedRead config path 512 (start F)
      (turn (request .rrq (ascii "blksize" ++ [0] ++ ascii "512" ++ [0]))) (acks 0 n) :=
  ⟨rfl, by decide +kernel, by decide +kernel, by decide +kernel, quiet _ _, serves _,
    acks_acks _ _ _⟩

end Sample

/-! ## What a run shows -/

/-- What the ACK of the `k`-th block shows: the next block, with which the client
    is marked if it is the last, or nothing if there is none. -/
def shown (B : ℕ) (F : Bytes) (k : ℕ) : List Bytes × Bool :=
  if k < blockCount B F then
    ([dataBytes (UInt16.ofNat (k + 1)) (block B F k)], decide (k + 1 = blockCount B F))
  else ([], false)

theorem shown_fst (B : ℕ) (F : Bytes) (k : ℕ) :
    (shown B F k).1 = if k < blockCount B F then
      [dataBytes (UInt16.ofNat (k + 1)) (block B F k)] else [] := by
  rw [shown]
  split <;> rfl

theorem shown_snd (B : ℕ) (F : Bytes) (k : ℕ) :
    (shown B F k).2 = decide (k + 1 = blockCount B F) := by
  rw [shown]
  split
  · rfl
  · exact (decide_eq_false (by omega)).symm

/-- `k` blocks are sent, and the client is marked exactly if these are all. -/
structure Transfer.Sent (t : Transfer) (path F : Bytes) (B k : ℕ) : Prop where
  reading : k < blockCount B F → t.Reading path F B k ∧ t.destroy = false
  done : blockCount B F ≤ k → t.destroy = true ∨ t = .fresh

section

variable {cfg : Config} {path F : Bytes} {B k : ℕ} {s : State} {t : Turn}

/-- An ACK in lock step. -/
theorem turn_ack (hB : 0 < B) (hack : IsPacket .ack t.datagram) (hflush : t.Flushes path)
    (hread : ∀ n, n ≤ t.sys.fread n) (hF : s.1.files path = F)
    (hs : s.2.transfer.Sent path F B k) :
    ∃ s', turn cfg s t = .ok s' ∧ s'.1.files path = F ∧ s'.2.transfer.Sent path F B (k + 1) ∧
      (Exchange.data ⟨s, t, .ok s'⟩, Exchange.destroyed ⟨s, t, .ok s'⟩) = shown B F k := by
  have hF₁ : (t.meanwhile s).1.files path = F := (hflush.files s).trans hF
  rw [turn, processDatagram_ack _ _ _ _ hack]
  by_cases hk : k < blockCount B F
  · obtain ⟨hreading, hdestroy⟩ := hs.reading hk
    have hkept := hflush.kept s hdestroy
    obtain ⟨s', hs', hfiles, hreading', hdestroy', hqueued⟩ :=
      processAck_reading hread hF₁ (hkept ▸ hreading)
    have hd : (t.meanwhile s).2.destroy = false :=
      (congrArg Transfer.destroy hkept).trans hdestroy
    -- The block is short exactly if it is the last one.
    have hlast : decide ((block B F k).length < B) = decide (k + 1 = blockCount B F) := by
      rw [decide_eq_decide, Lib.length_block_lt_iff hB]
      rw [blockCount] at *
      omega
    rw [hd, Bool.false_or, hlast] at hdestroy'
    refine ⟨s', hs', hfiles ▸ hF₁, ⟨fun hk' => ⟨hreading', ?_⟩, fun hk' => .inl ?_⟩, ?_⟩
    · exact hdestroy'.trans (decide_eq_false (Nat.ne_of_lt hk'))
    · exact hdestroy'.trans (decide_eq_true (by omega))
    · rw [shown, if_pos hk, Exchange.data_ok, hqueued, Exchange.destroyed_ok, hdestroy']
      simp [isData_dataBytes]
  · -- The client is a new one.
    have hfresh : (t.meanwhile s).2.transfer = .fresh := by
      cases hd : s.2.destroy with
      | true => exact hflush.removed s hd
      | false =>
        rcases hs.done (Nat.not_lt.1 hk) with hd' | hfresh
        · exact absurd (hd.symm.trans hd') (by decide)
        · exact (hflush.kept s hd).trans hfresh
    obtain ⟨s', hs', hreact⟩ := processAck_idle t.sys (t.meanwhile s).1 (t.meanwhile s).2
      (congrArg Transfer.sendingfile hfresh)
    have hfresh' : s'.2.transfer = .fresh := hreact.transfer.trans hfresh
    refine ⟨s', hs', hreact.files ▸ hF₁, ⟨fun hk' => absurd hk' (by omega), fun _ => .inr hfresh'⟩,
      ?_⟩
    rw [shown, if_neg hk, Exchange.data_ok, hreact.queued_eq, Exchange.destroyed_ok,
      show s'.2.destroy = false from congrArg Transfer.destroy hfresh']
    rfl

/-- A run of ACKs in lock step shows one block after the other. -/
theorem exchanges_acks (hB : 0 < B) {acks : List Turn} (hacks : Acks path k acks)
    (hF : s.1.files path = F) (hs : s.2.transfer.Sent path F B k) :
    (exchanges cfg s acks).map (fun x => (x.data, x.destroyed)) =
      (List.range' k acks.length).map (shown B F) := by
  induction hacks generalizing s with
  | nil => rfl
  | cons hack _ hflush hread _ ih =>
    obtain ⟨s', hs', hF', hsent, hshown⟩ := turn_ack hB hack hflush hread hF hs
    rw [exchanges, Lib.trace_cons_ok hs', List.map_cons, hshown, ih hF' hsent,
      List.length_cons, List.range'_succ, List.map_cons]

end

/-! ## Negotiated reads -/

/-- The request starts the read before its first block. -/
theorem turn_negotiated {cfg : Config} {path : Bytes} {B : ℕ} {s : State} {rrq : Turn}
    {acks : List Turn} (h : NegotiatedRead cfg path B s rrq acks) :
    ∃ s', turn cfg s rrq = .ok s' ∧ s'.1.files path = s.1.files path ∧
      s'.2.transfer.Sent path (s.1.files path) B 0 ∧
      Exchange.data ⟨s, rrq, .ok s'⟩ = [] ∧ Exchange.destroyed ⟨s, rrq, .ok s'⟩ = false := by
  have hfresh : (rrq.meanwhile s).2.transfer = .fresh := (h.quiet.transfer s).trans h.fresh
  obtain ⟨s', f, es, hs', hf, hreact⟩ := processRrq_negotiated (rrq.meanwhile s).1
    (rrq.meanwhile s).2 h.serves rfl h.blksize h.filename
  have htransfer := hreact.transfer
  rw [hfresh] at htransfer
  refine ⟨s', ?_, ?_, ⟨fun _ => ?_, fun h0 => ?_⟩, ?_, ?_⟩
  · rw [turn, processDatagram_rrq _ _ _ _ h.packet, ← hs']
  · exact (congrFun hreact.files path).trans (h.quiet.files s)
  · rw [htransfer]
    refine ⟨⟨rfl, rfl, rfl, rfl, Nat.le_refl B, f, rfl, ?_⟩, rfl⟩
    rwa [Nat.zero_mul, Nat.zero_min]
  · exact absurd (Lib.blockCount_pos B (s.1.files path)) (by omega)
  · rw [Exchange.data_ok, hreact.queued_eq]
    simp [not_isData_oackBytes]
  · exact congrArg Transfer.destroy htransfer

section

variable {cfg : Config} {path : Bytes} {B : ℕ} {s : State} {rrq : Turn} {acks : List Turn}

/-- The first exchange of a negotiated read shows nothing, the others the blocks. -/
theorem exchanges_negotiated (h : NegotiatedRead cfg path B s rrq acks) :
    (exchanges cfg s (rrq :: acks)).map (fun x => (x.data, x.destroyed)) =
      ([], false) :: (List.range acks.length).map (shown B (s.1.files path)) := by
  have hB : 0 < B := by
    have := (acceptedBlksize_bounds _ _ h.blksize).1
    omega
  obtain ⟨s', hs', hF, hsent, hdata, hdestroyed⟩ := turn_negotiated h
  rw [exchanges, Lib.trace_cons_ok hs', List.map_cons, hdata, hdestroyed,
    exchanges_acks hB h.acks hF hsent, List.range_eq_range']

/-- The blocks queued in a negotiated read. -/
theorem data_negotiated (h : NegotiatedRead cfg path B s rrq acks) :
    (exchanges cfg s (rrq :: acks)).flatMap Exchange.data =
      (List.range (min acks.length (blockCount B (s.1.files path)))).map
        (fun k => dataBytes (UInt16.ofNat (k + 1)) (block B (s.1.files path) k)) := by
  have hl := congrArg (List.flatMap Prod.fst) (exchanges_negotiated h)
  rw [List.flatMap_map, List.flatMap_cons, List.nil_append, List.flatMap_map] at hl
  rw [← Lib.flatMap_range_ite]
  simpa only [shown_fst] using hl

/-- A negotiated read in lock step, of any file and however many ACKs follow: the
    blocks queued are those of the file, numbered from 1, up to the first short
    one; together they are the file; and the client is marked for destruction
    right with the last one. -/
theorem negotiated_read (h : NegotiatedRead cfg path B s rrq acks) :
    let F := s.1.files path
    let N := F.length / B + 1
    let l := exchanges cfg s (rrq :: acks)
    l.flatMap Exchange.data =
        (List.range (min acks.length N)).map
          (fun k => dataBytes (UInt16.ofNat (k + 1)) ((F.drop (k * B)).take B)) ∧
      (N ≤ acks.length → (l.flatMap Exchange.data).flatMap (List.drop headerSize) = F) ∧
      l.map Exchange.destroyed = (List.range (acks.length + 1)).map (fun i => decide (i = N)) := by
  intro F N l
  have hB : 0 < B := by
    have := (acceptedBlksize_bounds _ _ h.blksize).1
    omega
  have hblocks := data_negotiated h
  refine ⟨?_, fun hN => ?_, ?_⟩
  · rw [hblocks]
    simp only [Lib.block_eq_take_drop]
    rfl
  · rw [hblocks, Nat.min_eq_right (show blockCount B (s.1.files path) ≤ _ from hN),
      List.flatMap_map]
    exact Lib.flatMap_block hB F
  · have hl := congrArg (List.map Prod.snd) (exchanges_negotiated h)
    rw [List.map_map, List.map_cons, List.map_map] at hl
    rw [List.range_succ_eq_map, List.map_cons, List.map_map]
    refine hl.trans ?_
    simp only [Function.comp_def, shown_snd]
    rfl

end

/-- A file of 513 bytes is sent in two blocks. -/
theorem negotiated_read_blocks :
    let F : Bytes := List.replicate 512 7 ++ [8]
    (exchanges Sample.config (Sample.start F)
        (Sample.turn (Sample.request .rrq (ascii "blksize" ++ [0] ++ ascii "512" ++ [0])) ::
          Sample.acks 0 3)).map Exchange.destroyed = [false, false, true, false] := by
  intro F
  have hfiles : (Sample.start F).1.files Sample.path = F := rfl
  have hlength : F.length / 512 = 1 := by
    rw [List.length_append, List.length_replicate]
    rfl
  have hdestroyed := (negotiated_read (Sample.negotiatedRead F 3)).2.2
  rwa [hfiles, hlength] at hdestroyed

/-! ## Plain reads -/

/-- The blocks queued in a run, each with whether its client is marked then. -/
def blocksSent (l : List Exchange) : List (Bytes × Bool) :=
  l.flatMap fun x => x.data.map fun d => (d, x.destroyed)

/-- No block follows one shorter than 512 bytes. -/
def EndsWithShort (ds : List Bytes) : Prop :=
  ∀ d ∈ ds.dropLast, 512 ≤ (d.drop headerSize).length

instance (ds : List Bytes) : Decidable (EndsWithShort ds) :=
  inferInstanceAs (Decidable (∀ d ∈ ds.dropLast, _))

section

variable {cfg cfg' : Config} {path path' : Bytes} {s s' : State} {rrq rrq' : Turn}
  {acks acks' : List Turn}

/-- The request sends the first block, and does not look at its length. -/
theorem turn_plain (h : PlainRead cfg path s rrq acks)
    (hloggable : (requestOf rrq.datagram).Loggable rrq.sys) :
    ∃ s', turn cfg s rrq = .ok s' ∧ s'.1.files path = s.1.files path ∧
      s'.2.transfer.Reading path (s.1.files path) 512 1 ∧ s'.2.destroy = false ∧
      Exchange.data ⟨s, rrq, .ok s'⟩ = [dataBytes 1 (block 512 (s.1.files path) 0)] := by
  have hfresh : (rrq.meanwhile s).2.transfer = .fresh := (h.quiet.transfer s).trans h.fresh
  obtain ⟨s', f, es, hs', hf, hreact⟩ := processRrq_started (rrq.meanwhile s).1
    (rrq.meanwhile s).2 h.serves rfl h.request.plain hloggable h.request.path
    (congrArg Transfer.sendingfile hfresh)
  have htransfer := hreact.transfer
  rw [hfresh] at htransfer
  rw [h.quiet.files] at hf hreact
  refine ⟨s', ?_, (congrFun hreact.files path).trans (h.quiet.files s), ?_, ?_, ?_⟩
  · rw [turn, processDatagram_rrq _ _ _ _ h.request.packet, ← hs']
  · rw [htransfer]
    exact Transfer.reading_begun rfl (Nat.le_refl _) hf
  · exact congrArg Transfer.destroy htransfer
  · rw [Exchange.data_ok, hreact.queued_eq, Lib.block_zero]
    simp [isData_dataBytes]

/-- The blocks a run of ACKs shows. -/
theorem blocksSent_eq {l : List Exchange} {ks : List ℕ} {B : ℕ} {F : Bytes}
    (h : l.map (fun x => (x.data, x.destroyed)) = ks.map (shown B F)) :
    blocksSent l = ks.flatMap fun k => (shown B F k).1.map fun d => (d, (shown B F k).2) := by
  have hl := congrArg (List.flatMap fun o => o.1.map fun d => (d, o.2)) h
  rwa [List.flatMap_map, List.flatMap_map] at hl

theorem map_fst_blocksSent (l : List Exchange) :
    (blocksSent l).map Prod.fst = l.flatMap Exchange.data := by
  rw [blocksSent, List.map_flatMap]
  simp [Function.comp_def]

/-- All blocks of a negotiated read but the last are full. -/
theorem endsWithShort_negotiated (h : NegotiatedRead cfg path 512 s rrq acks) :
    EndsWithShort ((exchanges cfg s (rrq :: acks)).flatMap Exchange.data) := by
  intro d hd
  rw [data_negotiated h, ← List.map_dropLast] at hd
  obtain ⟨k, hk, rfl⟩ := List.mem_map.1 hd
  rw [List.dropLast_eq_take, List.length_range, List.take_range, List.mem_range,
    blockCount] at hk
  refine Nat.le_of_eq ?_
  rw [drop_dataBytes, (Lib.length_block_eq_iff (by omega)).2 (by omega)]

/-- A request that cannot be logged sends nothing. -/
theorem blocksSent_wild (h : PlainRead cfg path s rrq acks)
    (hwild : ¬(requestOf rrq.datagram).Loggable rrq.sys) :
    blocksSent (exchanges cfg s (rrq :: acks)) = [] := by
  have hcrash := processRrq_wild cfg rrq.sys (rrq.meanwhile s).1 (rrq.meanwhile s).2 _
    (receiveBuffer rrq.datagram) pktlen rfl hwild
  rw [← processDatagram_rrq _ _ _ _ h.request.packet] at hcrash
  rw [exchanges, Lib.trace_cons_error hcrash]
  rfl

/-- A request without options and one for a block size of 512 bytes, answered in
    lock step by as many blocks, send the same blocks and mark the client with
    the same one, exactly if the one without options can be logged and the file has
    at least one full block. -/
theorem reads_agree_iff (h : PlainRead cfg path s rrq acks)
    (h' : NegotiatedRead cfg' path' 512 s' rrq' acks')
    (hF : s'.1.files path' = s.1.files path) (hlength : acks'.length = acks.length + 1) :
    (blocksSent (exchanges cfg s (rrq :: acks)) = blocksSent (exchanges cfg' s' (rrq' :: acks')) ∧
      EndsWithShort ((exchanges cfg s (rrq :: acks)).flatMap Exchange.data) ∧
      EndsWithShort ((exchanges cfg' s' (rrq' :: acks')).flatMap Exchange.data)) ↔
      (requestOf rrq.datagram).Loggable rrq.sys ∧ 512 ≤ (s.1.files path).length := by
  generalize hFF : s.1.files path = F at *
  have hnegotiated : blocksSent (exchanges cfg' s' (rrq' :: acks')) =
      (dataBytes 1 (block 512 F 0), decide (1 = blockCount 512 F)) ::
        (List.range' 1 acks.length).flatMap
          fun k => (shown 512 F k).1.map fun d => (d, (shown 512 F k).2) := by
    have hl := congrArg (List.flatMap fun o : List Bytes × Bool => o.1.map fun d => (d, o.2))
      (exchanges_negotiated h')
    rw [hF, hlength, List.range_eq_range', List.range'_succ, List.flatMap_map,
      List.flatMap_cons, List.flatMap_map, List.flatMap_cons, shown_fst _ _ 0,
      if_pos (Lib.blockCount_pos 512 F), shown_snd _ _ 0] at hl
    exact hl
  by_cases hloggable : (requestOf rrq.datagram).Loggable rrq.sys
  swap
  · rw [blocksSent_wild h hloggable, hnegotiated]
    exact iff_of_false (fun hsent => by cases hsent.1) fun hboth => hloggable hboth.1
  rw [and_iff_right hloggable]
  obtain ⟨s₁, hs₁, hF₁, hreading, hdestroy, hdata⟩ := turn_plain h hloggable
  rw [hFF] at hF₁ hreading hdata
  -- Both start with the first block, the client being marked in one case only.
  have hplain : blocksSent (exchanges cfg s (rrq :: acks)) =
      (dataBytes 1 (block 512 F 0), false) :: blocksSent (exchanges cfg s₁ acks) := by
    rw [exchanges, Lib.trace_cons_ok hs₁, blocksSent, List.flatMap_cons, hdata,
      Exchange.destroyed_ok, hdestroy]
    rfl
  rw [hplain, hnegotiated]
  constructor
  · rintro ⟨hsent, -⟩
    have hcount : ¬1 = blockCount 512 F :=
      of_decide_eq_false (congrArg Prod.snd (List.cons.inj hsent).1).symm
    rw [blockCount] at hcount
    omega
  · intro hfull
    have hcount : 1 < blockCount 512 F := by
      rw [blockCount]
      omega
    have hsent₁ : s₁.2.transfer.Sent path F 512 1 :=
      ⟨fun _ => ⟨hreading, hdestroy⟩, fun hle => absurd hle (Nat.not_le.2 hcount)⟩
    have hrest : blocksSent (exchanges cfg s₁ acks) = _ :=
      blocksSent_eq (exchanges_acks (by omega) h.acks hF₁ hsent₁)
    have hsent : blocksSent (exchanges cfg s (rrq :: acks)) =
        blocksSent (exchanges cfg' s' (rrq' :: acks')) := by
      rw [hplain, hnegotiated, hrest, decide_eq_false (Nat.ne_of_lt hcount)]
    refine ⟨hplain ▸ hnegotiated ▸ hsent, ?_, endsWithShort_negotiated h'⟩
    rw [← map_fst_blocksSent, hsent, map_fst_blocksSent]
    exact endsWithShort_negotiated h'

/-- A file of one byte is sent in one block after a negotiation, in two without. -/
theorem not_reads_agree :
    ¬∀ cfg path s rrq acks cfg' path' s' rrq' acks', PlainRead cfg path s rrq acks →
      NegotiatedRead cfg' path' 512 s' rrq' acks' → s'.1.files path' = s.1.files path →
      acks'.length = acks.length + 1 →
      blocksSent (exchanges cfg s (rrq :: acks)) =
          blocksSent (exchanges cfg' s' (rrq' :: acks')) ∧
        EndsWithShort ((exchanges cfg s (rrq :: acks)).flatMap Exchange.data) ∧
        EndsWithShort ((exchanges cfg' s' (rrq' :: acks')).flatMap Exchange.data) := by
  intro h
  have hagree := (h _ _ _ _ _ _ _ _ _ _ (Sample.plainRead [1] 1) (Sample.negotiatedRead [1] 2)
    rfl rfl).1
  exact absurd hagree (by decide +kernel)

end

/-- Agreement on a file of 512 bytes. -/
theorem reads_agree_block :
    let F : Bytes := List.replicate 512 0
    (blocksSent (exchanges Sample.config (Sample.start F)
          (Sample.turn (Sample.request .rrq []) :: Sample.acks 1 1)) =
        blocksSent (exchanges Sample.config (Sample.start F)
          (Sample.turn (Sample.request .rrq (ascii "blksize" ++ [0] ++ ascii "512" ++ [0])) ::
            Sample.acks 0 2)) ∧
      EndsWithShort ((exchanges Sample.config (Sample.start F)
        (Sample.turn (Sample.request .rrq []) :: Sample.acks 1 1)).flatMap Exchange.data) ∧
      EndsWithShort ((exchanges Sample.config (Sample.start F)
        (Sample.turn (Sample.request .rrq (ascii "blksize" ++ [0] ++ ascii "512" ++ [0])) ::
          Sample.acks 0 2)).flatMap Exchange.data)) :=
  (reads_agree_iff (Sample.plainRead _ 1) (Sample.negotiatedRead _ 2) rfl rfl).2
    ⟨Sample.loggable _, Nat.le_of_eq List.length_replicate.symm⟩

end Nbstftp
