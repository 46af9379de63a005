import Nbstftp.Turn
import Nbstftp.Lib.Block

/-!
# Writing a file

A write request empties its file, and every DATA packet appends its payload to
it, whatever its number (`turn_wrq`, `turn_block`): the file is what has been
delivered so far (`Storing`).

* Delivered once each and in order, the blocks of `D` make up `D`, and the
  client is marked for destruction with the last one (`write_blocks`).
* Delivered more than once, a block is written more than once: the file is `D`,
  each block of it written once, whenever the client is marked exactly if every
  block has been delivered once, or nothing was ever written (`completes_iff`).
-/

namespace Nbstftp

open Lib (block blockCount)

/-- The full blocks of `D` and the last one make up `D`. -/
theorem flatMap_block_append (D : Bytes) :
    (List.range (D.length / 512)).flatMap (block 512 D) ++ block 512 D (D.length / 512) = D := by
  have hD := Lib.flatMap_block (show 0 < 512 by omega) D
  rwa [blockCount, List.range_succ, List.flatMap_append, List.flatMap_singleton] at hD

/-- The DATA packet of the `i`-th block of `D`, counted from 0. -/
def blockPacket (D : Bytes) (i : ℕ) : Bytes :=
  dataBytes (UInt16.ofNat (i + 1)) (block 512 D i)

/-- A file of content `W` is being written at its end. -/
structure Appending (path W : Bytes) (s : State) : Prop where
  files : s.1.files path = W
  sending : s.2.transfer.sendingfile = true
  handle : ∃ f, s.2.transfer.f = some f ∧ f.On true path W.length

/-- Moreover, the client is not marked. -/
structure Storing (path W : Bytes) (s : State) : Prop extends Appending path W s where
  destroy : s.2.transfer.destroy = false

theorem Appending.meanwhile {path W : Bytes} {s : State} {t : Turn} (h : Appending path W s)
    (ht : t.Quiet path) : Appending path W (t.meanwhile s) where
  files := (ht.files s).trans h.files
  sending := by rw [ht.transfer, h.sending]
  handle := by rw [ht.transfer]; exact h.handle

/-! ## Datagrams of a write -/

section

variable {D : Bytes} {i : ℕ}

theorem length_blockPacket : (blockPacket D i).length = (block 512 D i).length + headerSize :=
  length_dataBytes _ _

theorem length_blockPacket_le : (blockPacket D i).length ≤ maxPacketSize := by
  have := Lib.length_block_le 512 D i
  rw [length_blockPacket, headerSize, maxPacketSize]
  omega

theorem isPacket_blockPacket : IsPacket .data (blockPacket D i) :=
  isPacket_iff.2 ⟨length_blockPacket_le, isData_dataBytes _ _⟩

/-- The payload and the number the server reads from the packet of a block. -/
theorem payloadLength_blockPacket :
    payloadLength (receivedLength (blockPacket D i)) = (block 512 D i).length := by
  have := Lib.length_block_le 512 D i
  rw [payloadLength, receivedLength, length_blockPacket, pktlen, headerSize, UInt64.size]
  omega

theorem payload_blockPacket :
    ((receiveBuffer (blockPacket D i)).drop headerSize).take (block 512 D i).length =
      block 512 D i := by
  have hlen : (blockPacket D i).length ≤ pktlen :=
    Nat.le_trans length_blockPacket_le (by decide)
  rw [receiveBuffer, List.take_of_length_le hlen, List.drop_append_of_le_length
    (by rw [length_blockPacket]; omega), blockPacket, drop_dataBytes, List.take_left]

theorem number_blockPacket :
    ntohs (receiveBuffer (blockPacket D i)) 2 = UInt16.ofNat (i + 1) := by
  rw [ntohs_receiveBuffer (Nat.le_trans length_blockPacket_le (by decide)), blockPacket,
    ntohs_dataBytes]

end

/-! ## Turns of a write -/

section

variable {cfg : Config} {path wrq D W : Bytes} {s : State} {t : Turn} {i : ℕ}

/-- A write request empties the file. -/
theorem turn_wrq (hquiet : t.Quiet path) (haccepts : t.sys.Accepts cfg path)
    (hwrq : IsRequest cfg .wrq path t.datagram)
    (hloggable : (requestOf t.datagram).Loggable t.sys)
    (hdestroy : s.2.transfer.destroy = false) :
    ∃ s', turn cfg s t = .ok s' ∧ Storing path [] s' ∧ s'.2.actualblockno = 1 ∧
      Exchange.queued ⟨s, t, .ok s'⟩ = [ackBytes 0] := by
  obtain ⟨s', f, es, hs', hf, hreact⟩ := processWrq_started (t.meanwhile s).1
    (t.meanwhile s).2 haccepts rfl hwrq.not_mail hloggable hwrq.path
  refine ⟨s', ?_, ⟨⟨?_, ?_, ⟨f, ?_, hf⟩⟩, ?_⟩, ?_, hreact.queued_eq⟩
  · rw [turn, processDatagram_wrq _ _ _ _ hwrq.packet, ← hs']
  · exact (congrFun hreact.files path).trans (Function.update_self _ _ _)
  · exact congrArg Transfer.sendingfile hreact.transfer
  · exact congrArg Transfer.f hreact.transfer
  · exact (congrArg Transfer.destroy hreact.transfer).trans
      ((congrArg Transfer.destroy (hquiet.transfer s)).trans hdestroy)
  · exact congrArg Transfer.actualblockno hreact.transfer

/-- The packet of a block appends the block, is counted and is acknowledged; it
    marks the client if the block is short. -/
theorem turn_append (hquiet : t.Quiet path) (haccepts : t.sys.Accepts cfg path)
    (ht : t.datagram = blockPacket D i) (hs : Appending path W s) :
    ∃ s', turn cfg s t = .ok s' ∧ Appending path (W ++ block 512 D i) s' ∧
      s'.2.destroy = (s.2.destroy || decide ((block 512 D i).length < 512)) ∧
      s'.2.actualblockno = s.2.actualblockno + 1 ∧
      Exchange.queued ⟨s, t, .ok s'⟩ = [ackBytes (UInt16.ofNat (i + 1))] := by
  have hs₁ := hs.meanwhile hquiet
  have htransfer := hquiet.transfer s
  obtain ⟨f, hf, hon⟩ := hs₁.handle
  have hle := Lib.length_block_le 512 D i
  have hbuffer : (receiveBuffer (blockPacket D i)).length = pktlen := by
    have := @length_blockPacket_le D i
    rw [receiveBuffer, List.length_append, List.length_take, List.length_replicate]
    omega
  have hfits : (block 512 D i).length ≤
      ((receiveBuffer (blockPacket D i)).drop headerSize).length := by
    rw [List.length_drop, hbuffer, pktlen, headerSize]
    omega
  obtain ⟨hfiles, hon'⟩ := (t.meanwhile s).1.fwrite_eq hon
    (haccepts.fwrite _ (Nat.le_trans hle (by decide))) hfits
  rw [turn, ht, processDatagram_data _ _ _ _ isPacket_blockPacket]
  rcases processData_cases t.sys (t.meanwhile s).1 (t.meanwhile s).2
    (receiveBuffer (blockPacket D i)) (receivedLength (blockPacket D i)) with
    ⟨hsending, -⟩ | ⟨-, hnone, -⟩ | ⟨-, f', -, -, hlen, -⟩ | ⟨-, f', s', hf', -, hs', hreact⟩
  · exact absurd (hs₁.sending.symm.trans hsending) (by decide)
  · cases hf.symm.trans hnone
  · -- A block fits into the buffer.
    have hcount := fwriteCount_le t.sys f' (payloadLength (receivedLength (blockPacket D i)))
    rw [payloadLength_blockPacket] at hcount hlen
    rw [hbuffer, pktlen, headerSize] at hlen
    omega
  · cases hf'.symm.trans hf
    rw [payloadLength_blockPacket, number_blockPacket] at hreact
    refine ⟨s', hs', ⟨?_, ?_, ⟨_, congrArg Transfer.f hreact.transfer, ?_⟩⟩, ?_, ?_,
      hreact.queued_eq⟩
    · refine (congrFun hreact.files path).trans ((congrFun hfiles path).trans ?_)
      rw [Function.update_self, hs₁.files, payload_blockPacket, poke_length]
    · exact (congrArg Transfer.sendingfile hreact.transfer).trans hs₁.sending
    · rwa [List.length_append]
    · refine (congrArg Transfer.destroy hreact.transfer).trans ?_
      rw [Transfer.stored, htransfer]
      rfl
    · refine (congrArg Transfer.actualblockno hreact.transfer).trans ?_
      rw [Transfer.stored, htransfer]
      rfl

/-- On a client that is not marked, a full block leaves it so. -/
theorem turn_block (hquiet : t.Quiet path) (haccepts : t.sys.Accepts cfg path)
    (ht : t.datagram = blockPacket D i) (hs : Storing path W s) :
    ∃ s', turn cfg s t = .ok s' ∧ s'.1.files path = W ++ block 512 D i ∧
      s'.2.destroy = decide ((block 512 D i).length < 512) ∧
      (512 ≤ (block 512 D i).length → Storing path (W ++ block 512 D i) s') ∧
      Exchange.queued ⟨s, t, .ok s'⟩ = [ackBytes (UInt16.ofNat (i + 1))] := by
  obtain ⟨s', hs', happending, hdestroy, -, hqueued⟩ :=
    turn_append hquiet haccepts ht hs.toAppending
  rw [show s.2.destroy = false from hs.destroy, Bool.false_or] at hdestroy
  exact ⟨s', hs', happending.files, hdestroy, fun hfull =>
    ⟨happending, hdestroy.trans (decide_eq_false (Nat.not_lt.2 hfull))⟩, hqueued⟩

/-- Blocks, in any order, are appended one after the other, and counted. -/
theorem run_append {turns : List Turn} {ks : List ℕ}
    (hturns : turns.map Turn.datagram = ks.map (blockPacket D))
    (hquiet : ∀ t ∈ turns, t.Quiet path) (haccepts : ∀ t ∈ turns, t.sys.Accepts cfg path)
    (hs : Appending path W s) :
    ∃ s', Lib.run (turn cfg) s turns = .ok s' ∧
      Appending path (W ++ ks.flatMap (block 512 D)) s' ∧
      s'.2.actualblockno = s.2.actualblockno + ks.length := by
  induction turns generalizing ks W s with
  | nil =>
    obtain rfl : ks = [] := List.map_eq_nil_iff.1 hturns.symm
    exact ⟨s, rfl, by rwa [List.flatMap_nil, List.append_nil], rfl⟩
  | cons t turns ih =>
    cases ks with
    | nil => cases hturns
    | cons k ks =>
      obtain ⟨ht, hturns⟩ := List.cons.inj hturns
      rw [List.forall_mem_cons] at hquiet haccepts
      obtain ⟨s₁, hs₁, happending, -, hcount, -⟩ := turn_append hquiet.1 haccepts.1 ht hs
      obtain ⟨s', hs', happending', hcount'⟩ := ih hturns hquiet.2 haccepts.2 happending
      refine ⟨s', (Lib.run_cons_ok hs₁).trans hs', ?_, ?_⟩
      · rwa [List.flatMap_cons, ← List.append_assoc]
      · rw [hcount', hcount, List.length_cons]
        omega

/-- Full blocks, in any order, are appended one after the other. -/
theorem run_blocks {turns : List Turn} {ks : List ℕ}
    (hturns : turns.map Turn.datagram = ks.map (blockPacket D))
    (hquiet : ∀ t ∈ turns, t.Quiet path) (haccepts : ∀ t ∈ turns, t.sys.Accepts cfg path)
    (hfull : ∀ k ∈ ks, 512 ≤ (block 512 D k).length) (hs : Storing path W s) :
    ∃ s', Lib.run (turn cfg) s turns = .ok s' ∧ Storing path (W ++ ks.flatMap (block 512 D)) s' ∧
      (exchanges cfg s turns).flatMap Exchange.queued =
        ks.map (fun k => ackBytes (UInt16.ofNat (k + 1))) ∧
      (exchanges cfg s turns).map Exchange.destroyed = ks.map (fun _ => false) := by
  induction turns generalizing ks W s with
  | nil =>
    obtain rfl : ks = [] := List.map_eq_nil_iff.1 hturns.symm
    exact ⟨s, rfl, by rwa [List.flatMap_nil, List.append_nil], rfl, rfl⟩
  | cons t turns ih =>
    cases ks with
    | nil => cases hturns
    | cons k ks =>
      obtain ⟨ht, hturns⟩ := List.cons.inj hturns
      rw [List.forall_mem_cons] at hquiet haccepts hfull
      obtain ⟨s₁, hs₁, -, hdestroy, hstoring, hqueued⟩ := turn_block hquiet.1 haccepts.1 ht hs
      obtain ⟨s', hs', hstoring', hqueued', hdestroyed'⟩ :=
        ih hturns hquiet.2 haccepts.2 hfull.2 (hstoring hfull.1)
      refine ⟨s', (Lib.run_cons_ok hs₁).trans hs', ?_, ?_, ?_⟩
      · rwa [List.flatMap_cons, ← List.append_assoc]
      · rw [exchanges, Lib.trace_cons_ok hs₁, List.flatMap_cons, hqueued, hqueued']
        rfl
      · rw [exchanges, Lib.trace_cons_ok hs₁, List.map_cons, hdestroyed', Exchange.destroyed_ok,
          hdestroy, decide_eq_false (Nat.not_lt.2 hfull.1), List.map_cons]

end

/-! ## A write in order -/

/-- A write request on a client that has not started, and the packets of the
    blocks of `D`, once each and in order. -/
structure BlockWrite (cfg : Config) (path D : Bytes) (s : State) (wrq : Turn)
    (datas : List Turn) : Prop where
  fresh : s.2.transfer = .fresh
  request : IsRequest cfg .wrq path wrq.datagram
  loggable : (requestOf wrq.datagram).Loggable wrq.sys
  datagrams : datas.map Turn.datagram = (List.range (D.length / 512 + 1)).map (blockPacket D)
  quiet : ∀ t ∈ wrq :: datas, t.Quiet path
  accepts : ∀ t ∈ wrq :: datas, t.sys.Accepts cfg path

/-- The file is `D` in the end, the ACKs queued are those of the request and of
    each block, in this order, and nothing else is; the client is marked right
    with the last block. -/
theorem write_blocks {cfg : Config} {path D : Bytes} {s : State} {wrq : Turn}
    {datas : List Turn} (h : BlockWrite cfg path D s wrq datas) :
    let N := D.length / 512 + 1
    let l := exchanges cfg s (wrq :: datas)
    (∃ s', Lib.run (turn cfg) s (wrq :: datas) = .ok s' ∧ s'.1.files path = D) ∧
      l.flatMap Exchange.queued =
        (List.range (N + 1)).map (fun k => ackBytes (UInt16.ofNat k)) ∧
      l.map Exchange.destroyed = (List.range (N + 1)).map (fun i => decide (i = N)) := by
  intro N l
  have hrange : List.range N = List.range (D.length / 512) ++ [D.length / 512] :=
    List.range_succ
  -- All blocks are full but the last one.
  obtain ⟨fulls, lasts, rfl, hfulls, hlasts⟩ :=
    List.map_eq_append_iff.1 ((hrange ▸ h.datagrams).trans List.map_append)
  obtain ⟨last, rfl, hlast⟩ := List.map_eq_singleton_iff.1 hlasts
  have hquiet : (∀ t ∈ fulls, t.Quiet path) ∧ last.Quiet path := by
    simpa [or_imp, forall_and] using (List.forall_mem_cons.1 h.quiet).2
  have haccepts : (∀ t ∈ fulls, t.sys.Accepts cfg path) ∧ last.sys.Accepts cfg path := by
    simpa [or_imp, forall_and] using (List.forall_mem_cons.1 h.accepts).2
  have hfull : ∀ k ∈ List.range (D.length / 512), 512 ≤ (block 512 D k).length := fun k hk =>
    Nat.le_of_eq ((Lib.length_block_eq_iff (by omega)).2 (List.mem_range.1 hk)).symm
  obtain ⟨s₁, hs₁, hstoring₁, -, hqueued₁⟩ := turn_wrq (List.forall_mem_cons.1 h.quiet).1
    (List.forall_mem_cons.1 h.accepts).1 h.request h.loggable
    (congrArg Transfer.destroy h.fresh)
  obtain ⟨s₂, hs₂, hstoring₂, hqueued₂, hdestroyed₂⟩ :=
    run_blocks hfulls hquiet.1 haccepts.1 hfull hstoring₁
  obtain ⟨s₃, hs₃, hfile, hdestroy, -, hqueued₃⟩ :=
    turn_block hquiet.2 haccepts.2 hlast hstoring₂
  have hl : l = ⟨s, wrq, .ok s₁⟩ :: (exchanges cfg s₁ fulls ++ [⟨s₂, last, .ok s₃⟩]) := by
    rw [show l = _ from Lib.trace_cons_ok hs₁, Lib.trace_append hs₂, Lib.trace_cons_ok hs₃]
    rfl
  refine ⟨⟨s₃, ?_, ?_⟩, ?_, ?_⟩
  · rw [Lib.run_cons_ok hs₁, Lib.run_append hs₂, Lib.run_cons_ok hs₃, Lib.run]
  · exact hfile.trans (flatMap_block_append D)
  · rw [hl, List.flatMap_cons, List.flatMap_append, hqueued₁, hqueued₂, List.flatMap_singleton,
      hqueued₃, List.range_succ_eq_map, List.map_cons, List.map_map, hrange, List.map_append]
    rfl
  · have hd₁ : s₁.2.destroy = false := hstoring₁.destroy
    have hd₂ : (List.range (D.length / 512)).map (fun _ => false) =
        (List.range (D.length / 512)).map (fun k => decide (k + 1 = N)) :=
      List.map_congr_left fun k hk =>
        (decide_eq_false (Nat.ne_of_lt (Nat.succ_lt_succ (List.mem_range.1 hk)))).symm
    have hd₃ : s₃.2.destroy = decide (D.length / 512 + 1 = N) := by
      rw [hdestroy, decide_eq_decide, Lib.length_block_lt_iff (by omega)]
      simp [N]
    rw [List.range_succ_eq_map, List.map_cons, List.map_map, hrange, List.map_append,
      hl, List.map_cons, List.map_append, hdestroyed₂, hd₂, List.map_singleton,
      Exchange.destroyed_ok, Exchange.destroyed_ok, hd₁, hd₃]
    rfl

/-- Writes in order on the server to run. -/
theorem blockWrite_sample (D : Bytes) :
    BlockWrite Sample.config Sample.path D (Sample.start []) (Sample.turn Sample.wrq)
      (((List.range (D.length / 512 + 1)).map (blockPacket D)).map Sample.turn) where
  fresh := rfl
  request := Sample.wrq_isRequest
  loggable := Sample.loggable _
  datagrams := by rw [List.map_map]; exact List.map_id _
  quiet := by simp [Sample.quiet]
  accepts := by simp [Sample.turn, Sample.accepts]

/-- A file of two blocks. -/
theorem write_blocks_bytes :
    let D : Bytes := List.replicate 512 7 ++ [8]
    (exchanges Sample.config (Sample.start []) ([Sample.wrq, blockPacket D 0,
      blockPacket D 1].map Sample.turn)).map Exchange.destroyed = [false, false, true] := by
  intro D
  have hlength : D.length / 512 = 1 := by
    rw [List.length_append, List.length_replicate]
    rfl
  have hdestroyed := (write_blocks (blockWrite_sample D)).2.2
  rwa [hlength] at hdestroyed

/-! ## A write with repetitions -/

/-- The blocks of `D` in order, the `i`-th delivered `reps i` times. -/
def deliveries (D : Bytes) (reps : ℕ → ℕ) : List ℕ :=
  (List.range (D.length / 512 + 1)).flatMap fun i => List.replicate (reps i) i

/-- An octet write request, and then the packets of the blocks of `D` in order,
    each delivered at least once. -/
structure RepeatedWrite (cfg : Config) (path D wrq : Bytes) (n : ℕ) (reps : ℕ → ℕ) (s : State)
    (turns : List Turn) : Prop where
  fresh : s.2.transfer = .fresh
  request : IsRequest cfg .wrq path wrq
  octet : IsOctet wrq
  datagrams : turns.map Turn.datagram =
    List.replicate (n + 1) wrq ++ (deliveries D reps).map (blockPacket D)
  delivered : ∀ i ≤ D.length / 512, 1 ≤ reps i
  quiet : ∀ t ∈ turns, t.Quiet path
  accepts : ∀ t ∈ turns, t.sys.Accepts cfg path

/-- The file at `path` after an exchange. -/
def Exchange.file (path : Bytes) (x : Exchange) : Bytes :=
  match x.post with
  | .ok s' => s'.1.files path
  | .error _ => []

/-- If the exchange leaves the client marked for destruction, the file is `D`, and as
    many blocks have been written as `D` has: none of them twice. The count of blocks
    starts with 1 at the request. -/
def Exchange.Completes (path D : Bytes) (x : Exchange) : Prop :=
  x.destroyed = true → x.file path = D ∧ x.blocks = 1 + (D.length / 512 + 1)

instance (path D : Bytes) (x : Exchange) : Decidable (x.Completes path D) :=
  inferInstanceAs (Decidable (_ → _ ∧ _))

section

variable {cfg : Config} {path D W wrq : Bytes} {s : State} {turns : List Turn}

/-- Exchanges that do not mark the client. -/
theorem completes_of_not_destroyed {x : Exchange} (h : x.destroyed = false) :
    x.Completes path D := fun hd => absurd (h.symm.trans hd) (by decide)

/-- A write request delivered any number of times leaves an empty file. -/
theorem run_wrqs {n : ℕ} (hturns : turns.map Turn.datagram = List.replicate (n + 1) wrq)
    (hquiet : ∀ t ∈ turns, t.Quiet path) (haccepts : ∀ t ∈ turns, t.sys.Accepts cfg path)
    (hwrq : IsRequest cfg .wrq path wrq)
    (hloggable : ∀ t ∈ turns, (requestOf wrq).Loggable t.sys)
    (hdestroy : s.2.transfer.destroy = false) :
    ∃ s', Lib.run (turn cfg) s turns = .ok s' ∧ Storing path [] s' ∧
      s'.2.actualblockno = 1 ∧ ∀ x ∈ exchanges cfg s turns, x.destroyed = false := by
  induction n generalizing s turns with
  | zero =>
    obtain ⟨t, rfl, ht⟩ := List.map_eq_singleton_iff.1 hturns
    rw [List.forall_mem_singleton] at hquiet haccepts hloggable
    obtain ⟨s₁, hs₁, hstoring, hcount, -⟩ :=
      turn_wrq hquiet haccepts (ht ▸ hwrq) (ht ▸ hloggable) hdestroy
    refine ⟨s₁, Lib.run_cons_ok hs₁, hstoring, hcount, ?_⟩
    rw [exchanges, Lib.trace_cons_ok hs₁, Lib.trace, List.forall_mem_singleton]
    exact hstoring.destroy
  | succ n ih =>
    obtain ⟨t, turns, rfl, ht, hturns⟩ := List.map_eq_cons_iff.1 hturns
    rw [List.forall_mem_cons] at hquiet haccepts hloggable
    obtain ⟨s₁, hs₁, hstoring, -⟩ :=
      turn_wrq hquiet.1 haccepts.1 (ht ▸ hwrq) (ht ▸ hloggable.1) hdestroy
    obtain ⟨s', hs', hstoring', hcount, hdestroyed⟩ :=
      ih hturns hquiet.2 haccepts.2 hloggable.2 hstoring.destroy
    refine ⟨s', (Lib.run_cons_ok hs₁).trans hs', hstoring', hcount, ?_⟩
    rw [exchanges, Lib.trace_cons_ok hs₁, List.forall_mem_cons]
    exact ⟨hstoring.destroy, hdestroyed⟩

theorem repeated_eq_range {reps : ℕ → ℕ} {n : ℕ} (h : ∀ i < n, reps i = 1) :
    ((List.range n).flatMap fun i => List.replicate (reps i) i) = List.range n := by
  have hcongr : ((List.range n).flatMap fun i => List.replicate (reps i) i) =
      (List.range n).flatMap fun i => [i] :=
    List.flatMap_congr fun i hi => by rw [h i (List.mem_range.1 hi)]; rfl
  rw [hcongr, List.flatMap_singleton']

/-- The repetitions of the first `n` blocks are `n` packets if each comes once. -/
theorem length_repeated_eq_iff {reps : ℕ → ℕ} {n : ℕ} (h : ∀ i < n, 1 ≤ reps i) :
    ((List.range n).flatMap fun i => List.replicate (reps i) i).length = n ↔
      ∀ i < n, reps i = 1 := by
  have hle : n ≤ ((List.range n).flatMap fun i => List.replicate (reps i) i).length ∧
      (((List.range n).flatMap fun i => List.replicate (reps i) i).length = n →
        ∀ i < n, reps i = 1) := by
    induction n with
    | zero => simp
    | succ n ih =>
      obtain ⟨hle, hone⟩ := ih fun i hi => h i (Nat.lt_succ_of_lt hi)
      have hn := h n (Nat.lt_succ_self n)
      rw [List.range_succ, List.flatMap_append, List.flatMap_singleton, List.length_append,
        List.length_replicate]
      refine ⟨by omega, fun heq i hi => ?_⟩
      rcases Nat.lt_succ_iff_lt_or_eq.1 hi with hi | rfl
      · exact hone (by omega) i hi
      · omega
  exact ⟨hle.2, fun hone => by rw [repeated_eq_range hone, List.length_range]⟩

/-- The last packet delivered is that of the last block. -/
theorem deliveries_eq {reps : ℕ → ℕ} (h : 1 ≤ reps (D.length / 512)) :
    ∃ ks, deliveries D reps = ks ++ [D.length / 512] := by
  obtain ⟨r, hr⟩ := Nat.exists_eq_add_of_le' h
  exact ⟨_, by rw [deliveries, List.range_succ, List.flatMap_append, List.flatMap_singleton, hr,
    List.replicate_succ', ← List.append_assoc]⟩

/-- Delivered once each, the packets before the last one are those of the full blocks. -/
theorem deliveries_once {reps : ℕ → ℕ} {ks : List ℕ} (h : ∀ i < D.length / 512 + 1, reps i = 1)
    (hks : deliveries D reps = ks ++ [D.length / 512]) : ks = List.range (D.length / 512) := by
  rw [deliveries, repeated_eq_range h, List.range_succ] at hks
  exact (List.append_cancel_right hks).symm

/-- A write request that cannot be logged ends the run, with nothing written. -/
theorem not_destroyed_of_wild {n : ℕ} {datas : List Bytes}
    (hturns : turns.map Turn.datagram = List.replicate n wrq ++ datas) (hdatas : wrq ∉ datas)
    (hquiet : ∀ t ∈ turns, t.Quiet path) (haccepts : ∀ t ∈ turns, t.sys.Accepts cfg path)
    (hwrq : IsRequest cfg .wrq path wrq) (hdestroy : s.2.transfer.destroy = false)
    (hwild : ∃ t ∈ turns, t.datagram = wrq ∧ ¬(requestOf wrq).Loggable t.sys) :
    ∀ x ∈ exchanges cfg s turns, x.destroyed = false := by
  induction n generalizing s turns with
  | zero =>
    obtain ⟨t, ht, heq, -⟩ := hwild
    have hmem : t.datagram ∈ datas := by
      have hmem := List.mem_map_of_mem (f := Turn.datagram) ht
      rwa [hturns, List.replicate_zero, List.nil_append] at hmem
    exact absurd (heq ▸ hmem) hdatas
  | succ n ih =>
    rw [List.replicate_succ, List.cons_append] at hturns
    obtain ⟨t, turns, rfl, ht, hturns⟩ := List.map_eq_cons_iff.1 hturns
    rw [List.forall_mem_cons] at hquiet haccepts
    by_cases hloggable : (requestOf wrq).Loggable t.sys
    · obtain ⟨s₁, hs₁, hstoring, -⟩ :=
        turn_wrq hquiet.1 haccepts.1 (ht ▸ hwrq) (ht ▸ hloggable) hdestroy
      rw [exchanges, Lib.trace_cons_ok hs₁, List.forall_mem_cons]
      obtain ⟨u, hu, hwild⟩ := hwild
      rcases List.mem_cons.1 hu with rfl | hu
      · exact absurd hloggable hwild.2
      · exact ⟨hstoring.destroy, ih hturns hquiet.2 haccepts.2 hstoring.destroy ⟨u, hu, hwild⟩⟩
    · have hs : turn cfg s t = .error ⟨.wildPointer, (releaseLastpacket (t.meanwhile s).1
          (t.meanwhile s).2).1⟩ := by
        rw [turn, ht, processDatagram_wrq _ _ _ _ hwrq.packet,
          processWrq_wild cfg t.sys _ _ _ _ _ rfl hloggable]
      rw [exchanges, Lib.trace_cons_error hs, List.forall_mem_singleton]
      rfl

/-- If the requests can be logged, the file is `D` whenever the client is marked, and no block
    has been written twice, exactly if every block was delivered once. -/
theorem completes_iff_once {n : ℕ} {reps : ℕ → ℕ}
    (h : RepeatedWrite cfg path D wrq n reps s turns)
    (hloggable : ∀ t ∈ turns, t.datagram = wrq → (requestOf wrq).Loggable t.sys) :
    (∀ x ∈ exchanges cfg s turns, x.Completes path D) ↔ ∀ i ≤ D.length / 512, reps i = 1 := by
  obtain ⟨ks, hks⟩ := deliveries_eq (h.delivered _ (Nat.le_refl _))
  have honce : (deliveries D reps).length = D.length / 512 + 1 ↔
      ∀ i < D.length / 512 + 1, reps i = 1 :=
    length_repeated_eq_iff fun i hi => h.delivered i (Nat.le_of_lt_succ hi)
  have hshort : (block 512 D (D.length / 512)).length < 512 :=
    (Lib.length_block_lt_iff (by omega)).2 (Nat.le_refl _)
  obtain ⟨wrqs, turns, rfl, hwrqs, hturns⟩ := List.map_eq_append_iff.1 h.datagrams
  rw [hks, List.map_append] at hturns
  obtain ⟨datas, lasts, rfl, hdatas, hlasts⟩ := List.map_eq_append_iff.1 hturns
  obtain ⟨last, rfl, hlast⟩ := List.map_eq_singleton_iff.1 hlasts
  have hquiet := h.quiet
  have haccepts := h.accepts
  rw [List.forall_mem_append, List.forall_mem_append, List.forall_mem_singleton] at hquiet haccepts
  obtain ⟨s₁, hs₁, hstoring₁, hcount₁, hdestroyed₁⟩ := run_wrqs hwrqs hquiet.1 haccepts.1
    h.request (fun t ht => hloggable t (List.mem_append_left _ ht)
      (List.eq_of_mem_replicate (hwrqs ▸ List.mem_map_of_mem ht)))
    (congrArg Transfer.destroy h.fresh)
  obtain ⟨s₂, hs₂, happending₂, hcount₂⟩ :=
    run_append hdatas hquiet.2.1 haccepts.2.1 hstoring₁.toAppending
  obtain ⟨s₃, hs₃, happending₃, hdestroy₃, hcount₃, -⟩ :=
    turn_append hquiet.2.2 haccepts.2.2 hlast happending₂
  have hmarked : s₃.2.destroy = true := by
    rw [hdestroy₃, decide_eq_true hshort, Bool.or_true]
  have hcount : s₃.2.actualblockno = 1 + (deliveries D reps).length := by
    rw [hcount₃, hcount₂, hcount₁, hks, List.length_append, List.length_singleton,
      Nat.add_assoc]
  have htrace : exchanges cfg s (wrqs ++ (datas ++ [last])) =
      exchanges cfg s wrqs ++ (exchanges cfg s₁ datas ++ [⟨s₂, last, .ok s₃⟩]) := by
    rw [exchanges, Lib.trace_append hs₁, Lib.trace_append hs₂, Lib.trace_cons_ok hs₃, Lib.trace]
  rw [htrace, List.forall_mem_append, List.forall_mem_append, List.forall_mem_singleton]
  constructor
  · -- After the last exchange, as many blocks are counted as were delivered.
    rintro ⟨-, -, hcompletes⟩ i hi
    have hblocks : s₃.2.actualblockno = _ := (hcompletes hmarked).2
    exact honce.1 (Nat.add_left_cancel (hcount.symm.trans hblocks)) i (Nat.lt_succ_of_le hi)
  · intro hone
    have hone' : ∀ i < D.length / 512 + 1, reps i = 1 :=
      fun i hi => hone i (Nat.le_of_lt_succ hi)
    obtain rfl := deliveries_once hone' hks
    have hfull : ∀ k ∈ List.range (D.length / 512), 512 ≤ (block 512 D k).length := fun k hk =>
      Nat.le_of_eq ((Lib.length_block_eq_iff (by omega)).2 (List.mem_range.1 hk)).symm
    obtain ⟨-, -, -, -, hdestroyed₂⟩ :=
      run_blocks hdatas hquiet.2.1 haccepts.2.1 hfull hstoring₁
    refine ⟨fun x hx => completes_of_not_destroyed (hdestroyed₁ x hx),
      fun x hx => completes_of_not_destroyed ?_, fun _ => ⟨?_, ?_⟩⟩
    · have hmem : x.destroyed ∈ (List.range (D.length / 512)).map fun _ => false :=
        hdestroyed₂ ▸ List.mem_map_of_mem hx
      obtain ⟨k, -, hk⟩ := List.mem_map.1 hmem
      exact hk.symm
    · exact happending₃.files.trans (flatMap_block_append D)
    · exact hcount.trans (congrArg (1 + ·) (honce.2 hone'))

/-- The file is `D` whenever the client is marked, and no block has been written twice, exactly
    if every block was delivered once, or some request could not be logged. -/
theorem completes_iff {n : ℕ} {reps : ℕ → ℕ}
    (h : RepeatedWrite cfg path D wrq n reps s turns) :
    (∀ x ∈ exchanges cfg s turns, x.Completes path D) ↔
      ((∀ t ∈ turns, t.datagram = wrq → (requestOf wrq).Loggable t.sys) →
        ∀ i ≤ D.length / 512, reps i = 1) := by
  by_cases hloggable : ∀ t ∈ turns, t.datagram = wrq → (requestOf wrq).Loggable t.sys
  · rw [completes_iff_once h hloggable]
    exact ⟨fun hone _ => hone, fun hone => hone hloggable⟩
  · refine iff_of_true (fun x hx => completes_of_not_destroyed ?_) fun hall =>
      absurd hall hloggable
    have hdatas : wrq ∉ (deliveries D reps).map (blockPacket D) := fun hmem => by
      obtain ⟨i, -, hi⟩ := List.mem_map.1 hmem
      have hop := h.request.packet.2
      rw [← hi, (isPacket_blockPacket (D := D) (i := i)).2] at hop
      exact absurd hop (by decide)
    simp only [not_forall, exists_prop] at hloggable
    exact not_destroyed_of_wild h.datagrams hdatas h.quiet h.accepts h.request
      (congrArg Transfer.destroy h.fresh) hloggable x hx

end

/-- Writes with repetitions on the server to run. -/
theorem repeatedWrite_sample (D : Bytes) (n : ℕ) {reps : ℕ → ℕ} (hreps : ∀ i, 1 ≤ reps i) :
    RepeatedWrite Sample.config Sample.path D Sample.wrq n reps (Sample.start [])
      ((List.replicate (n + 1) Sample.wrq ++
        (deliveries D reps).map (blockPacket D)).map Sample.turn) where
  fresh := rfl
  request := Sample.wrq_isRequest
  octet := Sample.wrq_octet
  datagrams := by rw [List.map_map]; exact List.map_id _
  delivered i _ := hreps i
  quiet := by simp [Sample.quiet]
  accepts := by simp [Sample.turn, Sample.accepts]

/-- A file of two bytes, the one block of which is delivered twice. -/
theorem not_completes :
    ¬∀ cfg path D wrq n reps s turns, RepeatedWrite cfg path D wrq n reps s turns →
      ∀ x ∈ exchanges cfg s turns, x.Completes path D := by
  intro h
  have hreps : ∀ i, 1 ≤ (fun _ => 2 : ℕ → ℕ) i := fun _ => Nat.le_succ 1
  have hcompletes := h _ _ _ _ _ _ _ _ (repeatedWrite_sample [1, 2] 0 hreps)
  exact absurd hcompletes (by decide +kernel)

/-- A file of two blocks, the request for which is delivered twice. -/
theorem completes_bytes :
    let D : Bytes := List.replicate 512 7 ++ [8]
    (∀ i ≤ D.length / 512, (fun _ => 1 : ℕ → ℕ) i = 1) ∧
      ∀ x ∈ exchanges Sample.config (Sample.start [])
        ((List.replicate 2 Sample.wrq ++
          (deliveries D fun _ => 1).map (blockPacket D)).map Sample.turn),
        x.Completes Sample.path D :=
  ⟨fun _ _ => rfl, (completes_iff (repeatedWrite_sample _ 1 fun _ => Nat.le_refl 1)).2
    fun _ _ _ => rfl⟩

end Nbstftp
