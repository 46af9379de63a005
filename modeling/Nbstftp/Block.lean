import Nbstftp.Reaction

/-!
# Reactions to DATA, ERROR and ACK

An ACK sends the next block of the file (`sendNextBlock_reacts`): the transfer
moves on by one block (`Transfer.sent`) whatever the number acknowledged, as
long as the block buffer holds a block and there is a file. A DATA packet
appends its payload to the file (`storeBlock_reacts`), and moves the transfer on
likewise (`Transfer.stored`).
-/

namespace Nbstftp

/-- The transfer after reading and sending a block. -/
def Transfer.sent (t : Transfer) (f : File) (blk : Buffer) (data : Bytes) : Transfer :=
  { t with
    currentblockno := t.currentblockno + 1
    actualblockno := t.actualblockno + 1
    f := some f
    blk := some blk
    destroy := t.destroy || decide (data.length < t.blksize) }

/-- The transfer after storing a block. -/
def Transfer.stored (t : Transfer) (f : File) (len : ℕ) : Transfer :=
  { t with
    currentblockno := t.currentblockno + 1
    actualblockno := t.actualblockno + 1
    f := some f
    destroy := t.destroy || decide (len < 512) }

theorem fwriteCount_le (sys : Sys) (f : File) (n : ℕ) : fwriteCount sys f n ≤ n := by
  rw [fwriteCount]
  split
  · exact Nat.min_le_left _ _
  · exact Nat.zero_le _

namespace Machine

variable (sys : Sys) (m : Machine) (f : File)

/-- Reading sees the files only. -/
theorem fread_congr {m m' : Machine} (h : m'.files = m.files) (n : ℕ) :
    m'.fread sys f n = m.fread sys f n := by
  rw [fread, fread, h]

theorem length_fread_le (n : ℕ) : (m.fread sys f n).1.length ≤ n := by
  rw [fread]
  split
  · exact Nat.zero_le n
  · exact Nat.le_trans (List.length_take_le _ _) (Nat.min_le_left _ _)

/-- A system that delivers what it can reads on from the position of the handle. -/
theorem fread_eq {sys : Sys} (hsys : ∀ n, n ≤ sys.fread n) {f : File} {path : Bytes} {pos : ℕ}
    (hf : f.On false path pos) (n : ℕ) :
    (m.fread sys f n).1 = ((m.files path).drop pos).take n ∧
      (m.fread sys f n).2.On false path (pos + (((m.files path).drop pos).take n).length) := by
  obtain ⟨rfl, rfl, hmode⟩ := hf
  have hdata : (m.fread sys f n).1 = ((m.files f.path).drop f.pos).take n := by
    simp [fread, hmode, Nat.min_eq_left (hsys n)]
  exact ⟨hdata, rfl, congrArg (f.pos + List.length ·) hdata, hmode⟩

/-- Writing sees and changes the files only. -/
theorem fwrite_files_congr {m m' : Machine} (h : m'.files = m.files) (data : Bytes) (n : ℕ) :
    (m'.fwrite sys f data n).1.files = (m.fwrite sys f data n).1.files := by
  simp only [fwrite, h]

/-- Of bytes that are there, as many are stored as `fwrite` takes. -/
theorem fwrite_pos (data : Bytes) {n : ℕ} (h : fwriteCount sys f n ≤ data.length) :
    (m.fwrite sys f data n).2.pos = f.pos + fwriteCount sys f n := by
  rw [fwrite, List.length_take, Nat.min_eq_left h]

/-- A system that stores what it is given writes at the position of the handle. -/
theorem fwrite_eq {sys : Sys} {f : File} {path : Bytes} {pos : ℕ} (hf : f.On true path pos)
    {data : Bytes} {n : ℕ} (hsys : n ≤ sys.fwrite n) (hn : n ≤ data.length) :
    (m.fwrite sys f data n).1.files =
        Function.update m.files path (poke (m.files path) pos (data.take n)) ∧
      (m.fwrite sys f data n).2.On true path (pos + n) := by
  obtain ⟨rfl, rfl, hmode⟩ := hf
  have hcount : fwriteCount sys f n = n := by
    rw [fwriteCount, if_pos hmode, Nat.min_eq_left hsys]
  have hpos := fwrite_pos sys m f data (hcount.symm ▸ hn)
  rw [hcount] at hpos
  exact ⟨by rw [fwrite, hcount], rfl, hpos, hmode⟩

end Machine

section

variable (sys : Sys) (m : Machine) (c : Client)

/-! ## Sending -/

theorem length_blockBuffer : (blockBuffer m c).2.bytes.length = c.transfer.capacity := by
  simp only [blockBuffer, Transfer.capacity, Client.transfer]
  cases c.blk with
  | none => exact List.length_replicate
  | some blk => rfl

/-- Allocating the block buffer changes nothing but the supply of memory. -/
theorem blockBuffer_machine :
    (blockBuffer m c).1.files = m.files ∧ (blockBuffer m c).1.effects = m.effects := by
  rw [blockBuffer]
  cases c.blk with
  | none => exact ⟨rfl, rfl⟩
  | some blk => exact ⟨rfl, rfl⟩

theorem sendNextBlock_idle (h : c.sendingfile = false) : sendNextBlock sys m c = .ok (m, c) := by
  simp [sendNextBlock, h]

/-- A block buffer that is too small is overrun. -/
theorem sendNextBlock_overflow (h : c.sendingfile = true)
    (hcap : c.transfer.capacity < c.blksize) :
    ∃ m', sendNextBlock sys m c = .error ⟨.overflow, m'⟩ := by
  rw [← length_blockBuffer m c] at hcap
  exact ⟨_, by rw [sendNextBlock, if_pos h]; exact if_pos hcap⟩

theorem sendNextBlock_nullFile (h : c.sendingfile = true)
    (hcap : c.blksize ≤ c.transfer.capacity) (hf : c.f = none) :
    ∃ m', sendNextBlock sys m c = .error ⟨.nullFile, m'⟩ := by
  rw [← length_blockBuffer m c] at hcap
  refine ⟨(blockBuffer m c).1, ?_⟩
  rw [sendNextBlock, if_pos h]
  simp only [hf, Nat.not_lt.2 hcap, if_false]

theorem sendNextBlock_reacts {f : File} (h : c.sendingfile = true) (hf : c.f = some f)
    (hcap : c.blksize ≤ c.transfer.capacity) :
    ∃ s' blk, sendNextBlock sys m c = .ok s' ∧
      blk.bytes.length = c.transfer.capacity ∧
      Reacts (m, c)
        ⟨c.transfer.sent (m.fread sys f c.blksize).2 blk (m.fread sys f c.blksize).1,
          [dataBytes (c.currentblockno + 1) (m.fread sys f c.blksize).1], m.files, []⟩ s' := by
  have hlen := length_blockBuffer m c
  obtain ⟨hfiles, heffects⟩ := blockBuffer_machine m c
  have hread := Machine.fread_congr sys f hfiles c.blksize
  have hle := Machine.length_fread_le sys m f c.blksize
  generalize hdata : (m.fread sys f c.blksize).1 = data at *
  generalize hf' : (m.fread sys f c.blksize).2 = f' at *
  -- The block read fits, so that what is sent is what was read.
  let blk : Buffer := { (blockBuffer m c).2 with
    bytes := poke (poke (blockBuffer m c).2.bytes 0 (List.replicate c.blksize 0)) 0 data }
  have hblk : blk.bytes.length = c.transfer.capacity := by
    simp only [blk, length_poke, List.length_replicate, hlen]
    omega
  have htake : blk.bytes.take data.length = data := take_poke_zero _ _
  let c' : Client := { c with
    blk := some blk
    f := some f'
    currentblockno := c.currentblockno + 1
    actualblockno := c.actualblockno + 1 }
  have hread' : Reacts (m, c) ⟨c'.transfer, [], m.files, []⟩ ((blockBuffer m c).1, c') :=
    .silent rfl rfl rfl hfiles (heffects.trans (List.append_nil _).symm)
  have hshort : decide (min c.blksize data.length ≠ c.blksize) =
      decide (data.length < c.blksize) := by
    rw [decide_eq_decide]
    omega
  refine ⟨_, blk, ?_, hblk,
    (hread'.queueing (sendData_reacts sys _ c' data)).mark (decide (data.length < c.blksize))⟩
  rw [sendNextBlock, if_pos h]
  simp only [hf, hlen, Nat.not_lt.2 hcap, if_false, hread, hdata, hf', hshort]
  rw [htake]

/-! ## Storing -/

theorem storeBlock_idle (p : Bytes) (len : ℕ) (h : c.sendingfile = false) :
    storeBlock sys m c p len = .ok (m, c) := by
  simp [storeBlock, h]

theorem storeBlock_nullFile (p : Bytes) (len : ℕ) (h : c.sendingfile = true) (hf : c.f = none) :
    storeBlock sys m c p len = .error ⟨.nullFile, m⟩ := by
  rw [storeBlock, if_pos h]
  simp only [hf]

theorem storeBlock_overread {p : Bytes} {len : ℕ} {f : File} (h : c.sendingfile = true)
    (hf : c.f = some f) (hlen : p.length < headerSize + fwriteCount sys f (payloadLength len)) :
    storeBlock sys m c p len = .error ⟨.overread, m⟩ := by
  rw [storeBlock, if_pos h]
  simp only [hf, hlen, if_true]

theorem storeBlock_reacts {p : Bytes} {len : ℕ} {f : File} (h : c.sendingfile = true)
    (hf : c.f = some f) (hlen : ¬p.length < headerSize + fwriteCount sys f (payloadLength len)) :
    ∃ s', storeBlock sys m c p len = .ok s' ∧
      Reacts (m, c)
        ⟨c.transfer.stored (m.fwrite sys f (p.drop headerSize) (payloadLength len)).2
            (payloadLength len),
          [ackBytes (ntohs p 2)],
          (m.fwrite sys f (p.drop headerSize) (payloadLength len)).1.files, []⟩ s' := by
  generalize hw : m.fwrite sys f (p.drop headerSize) (payloadLength len) = w
  have heffects : w.1.effects = m.effects := by rw [← hw]; rfl
  let c' : Client := { c with
    currentblockno := c.currentblockno + 1
    actualblockno := c.actualblockno + 1
    f := some w.2 }
  have hwrite : Reacts (m, c) ⟨c'.transfer, [], w.1.files, []⟩ (w.1, c') :=
    .silent rfl rfl rfl rfl (heffects.trans (List.append_nil _).symm)
  refine ⟨_, ?_,
    (hwrite.queueing (acknowledge_reacts sys w.1 c' (ntohs p 2))).mark
      (decide (payloadLength len < 512))⟩
  rw [storeBlock, if_pos h]
  simp only [hf, hlen, if_false, hw]
  rfl

/-! ## The cases of the switch -/

/-- Every case starts by releasing a packet sent again; these then call the
    modules. -/
theorem release_reacts (e : ModuleEvent) :
    Reacts (m, c) ⟨c.transfer, [], m.files, releaseEffects c ++ [.event e]⟩
      ((releaseLastpacket m c).1.callEvent e, (releaseLastpacket m c).2) :=
  (releaseLastpacket_reacts m c).emit (.event e)

theorem processError_reacts :
    ∃ s', processError sys m c = .ok s' ∧
      Reacts (m, c) ⟨{ c.transfer with destroy := true }, [ackBytes 1], m.files,
        releaseEffects c ++ [.event .errorPacket]⟩ s' := by
  have hr := (release_reacts m c .errorPacket).queueing (acknowledge_reacts sys _ _ 1)
  exact ⟨_, rfl, (hr.mark true).congr (by rw [Bool.or_true, List.nil_append])⟩

/-- What a DATA packet does, whatever its number. -/
theorem processData_cases (p : Bytes) (len : ℕ) :
    (c.sendingfile = false ∧ ∃ s', processData sys m c p len = .ok s' ∧
      Reacts (m, c) ⟨c.transfer, [], m.files, releaseEffects c ++ [.event .dataPacket]⟩ s') ∨
    (c.sendingfile = true ∧ c.f = none ∧
      ∃ m', processData sys m c p len = .error ⟨.nullFile, m'⟩) ∨
    (c.sendingfile = true ∧
      ∃ f m', c.f = some f ∧ p.length < headerSize + fwriteCount sys f (payloadLength len) ∧
        processData sys m c p len = .error ⟨.overread, m'⟩) ∨
    (c.sendingfile = true ∧
      ∃ f s', c.f = some f ∧ ¬p.length < headerSize + fwriteCount sys f (payloadLength len) ∧
        processData sys m c p len = .ok s' ∧
        Reacts (m, c)
          ⟨c.transfer.stored (m.fwrite sys f (p.drop headerSize) (payloadLength len)).2
              (payloadLength len),
            [ackBytes (ntohs p 2)],
            (m.fwrite sys f (p.drop headerSize) (payloadLength len)).1.files,
            releaseEffects c ++ [.event .dataPacket]⟩ s') := by
  have hr := release_reacts m c .dataPacket
  rw [processData]
  generalize (releaseLastpacket m c).1.callEvent .dataPacket = m₁ at hr ⊢
  generalize (releaseLastpacket m c).2 = c₁ at hr ⊢
  have hsending : c₁.sendingfile = c.sendingfile := congrArg Transfer.sendingfile hr.transfer
  have hf₁ : c₁.f = c.f := congrArg Transfer.f hr.transfer
  have htransfer : c₁.transfer = c.transfer := hr.transfer
  have hfiles : m₁.files = m.files := hr.files
  -- What is tested is tested after the last packet was released, which changes none of it.
  cases h : c.sendingfile with
  | false => exact .inl ⟨rfl, _, storeBlock_idle sys m₁ c₁ p len (hsending.trans h), hr⟩
  | true =>
    have h₁ : c₁.sendingfile = true := hsending.trans h
    cases hf : c.f with
    | none =>
      exact .inr (.inl ⟨rfl, rfl, _, storeBlock_nullFile sys m₁ c₁ p len h₁ (hf₁.trans hf)⟩)
    | some f =>
      by_cases hlen : p.length < headerSize + fwriteCount sys f (payloadLength len)
      · exact .inr (.inr (.inl ⟨rfl, f, _, rfl, hlen,
          storeBlock_overread sys m₁ c₁ h₁ (hf₁.trans hf) hlen⟩))
      · obtain ⟨s', hs', hstore⟩ := storeBlock_reacts sys m₁ c₁ h₁ (hf₁.trans hf) hlen
        refine .inr (.inr (.inr ⟨rfl, f, s', rfl, hlen, hs', (hr.trans hstore).congr ?_⟩))
        rw [htransfer, Machine.fwrite_files_congr sys f hfiles, List.append_nil]
        rfl

/-- What an ACK does, whatever its number. -/
theorem processAck_cases :
    (c.sendingfile = false ∧ ∃ s', processAck sys m c = .ok s' ∧
      Reacts (m, c) ⟨c.transfer, [], m.files, releaseEffects c ++ [.event .ackPacket]⟩ s') ∨
    (c.sendingfile = true ∧ c.transfer.capacity < c.blksize ∧
      ∃ m', processAck sys m c = .error ⟨.overflow, m'⟩) ∨
    (c.sendingfile = true ∧ c.blksize ≤ c.transfer.capacity ∧ c.f = none ∧
      ∃ m', processAck sys m c = .error ⟨.nullFile, m'⟩) ∨
    (c.sendingfile = true ∧ c.blksize ≤ c.transfer.capacity ∧
      ∃ f blk s', c.f = some f ∧ blk.bytes.length = c.transfer.capacity ∧
        processAck sys m c = .ok s' ∧
        Reacts (m, c)
          ⟨c.transfer.sent (m.fread sys f c.blksize).2 blk (m.fread sys f c.blksize).1,
            [dataBytes (c.currentblockno + 1) (m.fread sys f c.blksize).1], m.files,
            releaseEffects c ++ [.event .ackPacket]⟩ s') := by
  have hr := release_reacts m c .ackPacket
  rw [processAck]
  generalize (releaseLastpacket m c).1.callEvent .ackPacket = m₁ at hr ⊢
  generalize (releaseLastpacket m c).2 = c₁ at hr ⊢
  -- The release left the transfer and the files alone.
  have hsending : c₁.sendingfile = c.sendingfile := congrArg Transfer.sendingfile hr.transfer
  have hf₁ : c₁.f = c.f := congrArg Transfer.f hr.transfer
  have hblksize : c₁.blksize = c.blksize := congrArg Transfer.blksize hr.transfer
  have hno : c₁.currentblockno = c.currentblockno :=
    congrArg Transfer.currentblockno hr.transfer
  have htransfer : c₁.transfer = c.transfer := hr.transfer
  have hfiles : m₁.files = m.files := hr.files
  cases h : c.sendingfile with
  | false => exact .inl ⟨rfl, _, sendNextBlock_idle sys m₁ c₁ (hsending.trans h), hr⟩
  | true =>
    have h₁ : c₁.sendingfile = true := hsending.trans h
    rcases Nat.lt_or_ge c.transfer.capacity c.blksize with hcap | hcap
    · exact .inr (.inl ⟨rfl, hcap,
        sendNextBlock_overflow sys m₁ c₁ h₁ (by rwa [htransfer, hblksize])⟩)
    have hcap₁ : c₁.blksize ≤ c₁.transfer.capacity := by rwa [htransfer, hblksize]
    cases hf : c.f with
    | none =>
      exact .inr (.inr (.inl ⟨rfl, hcap, rfl, sendNextBlock_nullFile sys m₁ c₁ h₁ hcap₁
        (hf₁.trans hf)⟩))
    | some f =>
      obtain ⟨s', blk, hs', hblk, hsend⟩ :=
        sendNextBlock_reacts sys m₁ c₁ h₁ (hf₁.trans hf) hcap₁
      rw [htransfer] at hblk
      refine .inr (.inr (.inr ⟨rfl, hcap, f, blk, s', rfl, hblk, hs',
        (hr.trans hsend).congr ?_⟩))
      rw [htransfer, hblksize, hno, Machine.fread_congr sys f hfiles, hfiles, List.append_nil]
      rfl

/-- An ACK nobody waits for leaves the transfer alone. -/
theorem processAck_idle (h : c.sendingfile = false) :
    ∃ s', processAck sys m c = .ok s' ∧
      Reacts (m, c) ⟨c.transfer, [], m.files, releaseEffects c ++ [.event .ackPacket]⟩ s' := by
  rcases processAck_cases sys m c with ⟨-, hidle⟩ | ⟨hsending, -⟩ | ⟨hsending, -⟩ | ⟨hsending, -⟩
  · exact hidle
  all_goals cases h.symm.trans hsending

end

end Nbstftp
