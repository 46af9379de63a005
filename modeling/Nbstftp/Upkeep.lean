import Nbstftp.Steps

/-!
# What handling a datagram does besides

Besides the transfer, the handling of a datagram changes what a client keeps for
the sake of its queue: the queue itself, the last packet, the count of its
resends, and the status its descriptor is watched for. It does so in two ways only
(`Upkeep`): a packet sent again is released (`releaseLastpacket`), and packets
just built are queued (`queuePacket`). All else that happens in between leaves
these things alone (`Aside`).

So whatever holds of these two holds of the handling of every datagram
(`processDatagram_upkeep`).
-/

namespace Nbstftp

/-- The block released by a call. -/
def Effect.freed : Effect → Option ℕ
  | .free tok => some tok
  | _ => none

/-- The blocks released so far. -/
def Machine.frees (m : Machine) : List ℕ := m.effects.filterMap Effect.freed

theorem Machine.frees_emit (m : Machine) (e : Effect) :
    (m.emit e).frees = m.frees ++ e.freed.toList := by
  rw [frees, emit, List.filterMap_append, frees]
  cases h : e.freed <;> simp [h]

/-- A part of the handling of a datagram that neither queues nor releases a packet; it
    may allocate the block buffer. -/
structure Aside (s s' : State) : Prop where
  socket : s'.2.s = s.2.s
  waiting : s'.2.waiting = s.2.waiting
  lastpacket : s'.2.lastpacket = s.2.lastpacket
  packetqueue : s'.2.packetqueue = s.2.packetqueue
  nextresend : s'.2.nextresend = s.2.nextresend
  interest : s'.1.interest = s.1.interest
  frees : s'.1.frees = s.1.frees
  nexttok : s.1.nexttok ≤ s'.1.nexttok
  blk : ∀ blk' ∈ s'.2.blk, (∃ blk ∈ s.2.blk, blk'.tok = blk.tok) ∨
    s.1.nexttok ≤ blk'.tok ∧ blk'.tok < s'.1.nexttok

theorem Aside.refl (s : State) : Aside s s :=
  ⟨rfl, rfl, rfl, rfl, rfl, rfl, rfl, Nat.le_refl _, fun blk h => .inl ⟨blk, h, rfl⟩⟩

/-- What the handling of a datagram is made of. -/
inductive Upkeep : State → State → Prop
  | aside {s s' : State} (h : Aside s s') : Upkeep s s'
  | release (m : Machine) (c : Client) : Upkeep (m, c) (releaseLastpacket m c)
  | queue (sys : Sys) (m : Machine) (c : Client) (bytes : Bytes) (len : ℕ) :
      Upkeep (m, c) (queuePacket sys (m.nmalloc bytes).1 c (m.nmalloc bytes).2 len 1)
  | trans {s s' s'' : State} (h : Upkeep s s') (h' : Upkeep s' s'') : Upkeep s s''

/-- An outcome is made of this, or a crash. -/
def Upkeeps (s : State) : Outcome → Prop
  | .ok s' => Upkeep s s'
  | .error _ => True

namespace Upkeep

variable {s s' s'' : State} {o : Outcome}

theorem refl (s : State) : Upkeep s s := .aside (.refl s)

/-- Changes of the transfer that leave the block buffer alone, and calls that release
    nothing. -/
theorem silent {m m' : Machine} {c c' : Client} (hs : c'.s = c.s) (hw : c'.waiting = c.waiting)
    (hl : c'.lastpacket = c.lastpacket) (hq : c'.packetqueue = c.packetqueue)
    (hn : c'.nextresend = c.nextresend) (hb : c'.blk = c.blk) (hi : m'.interest = m.interest)
    (ht : m'.nexttok = m.nexttok) (hf : m'.frees = m.frees) : Upkeep (m, c) (m', c') :=
  .aside ⟨hs, hw, hl, hq, hn, hi, hf, Nat.le_of_eq ht.symm, fun blk h => .inl ⟨blk, hb ▸ h, rfl⟩⟩

theorem outcome (h : Upkeep s s') (ho : Upkeeps s' o) : Upkeeps s o := by
  cases o with
  | ok s'' => exact h.trans ho
  | error crash => trivial

/-- Marking the client, at the end. -/
theorem mark (h : Upkeep s s') (cond : Bool) : Upkeep s (s'.1, s'.2.destroyIf cond) :=
  h.trans (.silent rfl rfl rfl rfl rfl rfl rfl rfl rfl)

/-- A call at the end that releases nothing. -/
theorem emit (h : Upkeep s s') {e : Effect} (he : e.freed = none) :
    Upkeep s (s'.1.emit e, s'.2) :=
  h.trans (.silent rfl rfl rfl rfl rfl rfl rfl rfl
    (by rw [Machine.frees_emit, he]; exact List.append_nil _))

end Upkeep

section

variable (sys : Sys) (m : Machine) (c : Client)

theorem sendData_upkeep (data : Bytes) : Upkeep (m, c) (sendData sys m c data) :=
  .queue sys m c _ _

theorem acknowledge_upkeep (blockno : UInt16) : Upkeep (m, c) (acknowledge sys m c blockno) :=
  .queue sys m c _ _

theorem optionAcknowledge_upkeep (option param : Bytes) :
    Upkeep (m, c) (optionAcknowledge sys m c option param) :=
  .queue sys m c _ _

theorem error_upkeeps (errnum : ErrorCode) (buf : Bytes) :
    Upkeeps (m, c) (error sys m c errnum buf) := by
  rw [error, errorWith]
  split
  · exact (Upkeep.queue sys m c _ _).mark true
  · trivial

theorem storeBlock_upkeeps (p : Bytes) (len : ℕ) : Upkeeps (m, c) (storeBlock sys m c p len) := by
  rw [storeBlock]
  generalize payloadLength len = n
  split
  · cases c.f with
    | none => trivial
    | some f =>
      dsimp only
      split
      · trivial
      · refine Upkeep.mark (.trans ?_ (acknowledge_upkeep sys _ _ _)) _
        exact .silent rfl rfl rfl rfl rfl rfl rfl rfl rfl
  · exact .refl _

/-- Getting the block buffer, and filling it. -/
theorem blockBuffer_aside {c' : Client} {bytes : Bytes} (hs : c'.s = c.s)
    (hw : c'.waiting = c.waiting) (hl : c'.lastpacket = c.lastpacket)
    (hq : c'.packetqueue = c.packetqueue) (hn : c'.nextresend = c.nextresend)
    (hb : c'.blk = some { (blockBuffer m c).2 with bytes := bytes }) :
    Aside (m, c) ((blockBuffer m c).1, c') := by
  rw [blockBuffer] at hb ⊢
  cases hblk : c.blk with
  | none =>
    rw [hblk] at hb
    refine ⟨hs, hw, hl, hq, hn, rfl, rfl, Nat.le_succ _, fun blk h => .inr ?_⟩
    cases hb.symm.trans h
    exact ⟨Nat.le_refl _, Nat.lt_succ_self _⟩
  | some blk =>
    rw [hblk] at hb
    refine ⟨hs, hw, hl, hq, hn, rfl, rfl, Nat.le_refl _, fun blk' h => .inl ⟨blk, hblk, ?_⟩⟩
    cases hb.symm.trans h
    rfl

theorem sendNextBlock_upkeeps : Upkeeps (m, c) (sendNextBlock sys m c) := by
  rw [sendNextBlock]
  split
  · dsimp only
    split
    · trivial
    · cases c.f with
      | none => trivial
      | some f =>
        refine Upkeep.mark (.trans (.aside ?_) (sendData_upkeep sys _ _ _)) _
        exact blockBuffer_aside m c rfl rfl rfl rfl rfl rfl
  · exact .refl _

/-- Opening a file releases nothing. -/
theorem fopen_upkeep (path : Bytes) (mode : OpenMode) :
    Upkeep (m, c) ((m.fopen sys path mode).1, c) := by
  rw [Machine.fopen]
  cases sys.fopen path mode with
  | some e => exact (Upkeep.refl (m, c)).emit rfl
  | none =>
    exact ((Upkeep.refl (m, c)).emit (e := .fopen path mode) rfl).trans
      (.silent rfl rfl rfl rfl rfl rfl rfl rfl rfl)

theorem fileExists_upkeep (path : Bytes) : Upkeep (m, c) ((fileExists sys m path).1, c) := by
  have hopen := fopen_upkeep sys m c path .r
  rw [fileExists]
  cases sys.stat path with
  | none => exact .refl _
  | some directory =>
    cases directory with
    | true => exact .refl _
    | false =>
      generalize m.fopen sys path .r = o at hopen ⊢
      obtain ⟨m', _ | input⟩ := o
      · exact hopen
      · exact hopen.emit rfl

theorem reportMissing_upkeeps (tmp : Bytes) : Upkeeps (m, c) (reportMissing sys m c tmp) := by
  have hexists := fileExists_upkeep sys m c tmp
  rw [reportMissing]
  split
  · exact hexists
  · exact hexists.outcome (error_upkeeps sys _ c _ _)

variable (q : Request)

theorem serveFile_upkeeps (tmp : Bytes) (tsize : Bool) :
    Upkeeps (m, c) (serveFile sys m c q tmp tsize) := by
  have hopen := fopen_upkeep sys m c tmp q.readMode
  rw [serveFile]
  generalize m.fopen sys tmp q.readMode = o at hopen ⊢
  obtain ⟨m', e | f⟩ := o
  · exact hopen.outcome (error_upkeeps sys m' c _ _)
  dsimp only
  split
  · exact (hopen.trans (optionAcknowledge_upkeep sys m' c _ _)).emit rfl
  split
  · exact hopen.trans (.silent rfl rfl rfl rfl rfl rfl rfl rfl rfl)
  · refine hopen.trans (.trans ?_ (sendData_upkeep sys _ _ _))
    exact ((Upkeep.refl (m', c)).emit (e := .event .newWriteRequest) rfl).trans
      (.silent rfl rfl rfl rfl rfl rfl rfl rfl rfl)

theorem openForRead_upkeeps (cfg : Config) (tsize : Bool) :
    Upkeeps (m, c) (openForRead cfg sys m c q tsize) := by
  rw [openForRead]
  split
  · trivial
  have hmissing := reportMissing_upkeeps sys m c (requestPath cfg q.filename)
  dsimp only
  generalize reportMissing sys m c (requestPath cfg q.filename) = o at hmissing ⊢
  cases o with
  | error crash => trivial
  | ok s => exact Upkeep.outcome hmissing (serveFile_upkeeps sys s.1 s.2 q _ tsize)

theorem negotiate_upkeep (optparam : Bytes) (blksize : ℕ) :
    Upkeep (m, c) (negotiate sys m c q optparam blksize) :=
  (optionAcknowledge_upkeep sys m c _ _).trans (.silent rfl rfl rfl rfl rfl rfl rfl rfl rfl)

theorem serveRrq_upkeeps (cfg : Config) : Upkeeps (m, c) (serveRrq cfg sys m c q) := by
  cases hrefusal : rrqRefusal sys q with
  | some e =>
    rw [serveRrq_refused cfg sys m c q hrefusal]
    exact error_upkeeps sys m c _ _
  | none =>
    cases haccept : acceptedBlksize sys q with
    | none =>
      rw [serveRrq_plain cfg sys m c q hrefusal haccept]
      exact openForRead_upkeeps sys m c q cfg _
    | some blksize =>
      rw [serveRrq_negotiated cfg sys m c q haccept]
      exact (negotiate_upkeep sys m c q _ _).outcome (openForRead_upkeeps sys _ _ q cfg _)

theorem serveWrq_upkeeps (cfg : Config) : Upkeeps (m, c) (serveWrq cfg sys m c q) := by
  cases hrefusal : wrqRefusal cfg sys q with
  | some e =>
    rw [serveWrq_refused cfg sys m c q hrefusal]
    exact error_upkeeps sys m c _ _
  | none =>
    rw [serveWrq_open cfg sys m c q hrefusal]
    have hopen := fopen_upkeep sys m c (requestPath cfg q.filename) q.writeMode
    generalize m.fopen sys (requestPath cfg q.filename) q.writeMode = o at hopen ⊢
    obtain ⟨m', e | f⟩ := o
    · exact hopen.outcome (error_upkeeps sys m' c _ _)
    · refine hopen.trans (.trans ?_ (acknowledge_upkeep sys _ _ _))
      exact ((Upkeep.refl (m', c)).emit (e := .event .newWriteRequest) rfl).trans
        (.silent rfl rfl rfl rfl rfl rfl rfl rfl rfl)

/-! ## The switch -/

/-- The packet sent again is released before anything else is done. -/
theorem Upkeeps.released {e : Effect} (he : e.freed = none) {o : Outcome}
    (h : Upkeeps ((releaseLastpacket m c).1.emit e, (releaseLastpacket m c).2) o) :
    Upkeeps (m, c) o :=
  ((Upkeep.release m c).emit he).outcome h

/-- Nor does the line logged for a request release anything. -/
theorem freed_log {write : Bool} {line : Effect} (h : q.log sys write = some line) :
    line.freed = none := by
  obtain ⟨param, -, rfl⟩ := log_some h
  rfl

theorem processWrq_upkeeps (cfg : Config) (p : Bytes) (alloclen : ℕ) :
    Upkeeps (m, c) (processWrq cfg sys m c p alloclen) := by
  by_cases h : (parseRequest p alloclen).Loggable sys
  · obtain ⟨line, hline⟩ := h.log true
    rw [processWrq_eq cfg sys m c _ p alloclen rfl hline]
    exact .released m c (freed_log sys _ hline) (serveWrq_upkeeps sys _ _ _ cfg)
  · rw [processWrq_wild cfg sys m c _ p alloclen rfl h]
    trivial

theorem processRrq_upkeeps (cfg : Config) (p : Bytes) (alloclen : ℕ) :
    Upkeeps (m, c) (processRrq cfg sys m c p alloclen) := by
  by_cases h : (parseRequest p alloclen).Loggable sys
  · obtain ⟨line, hline⟩ := h.log false
    rw [processRrq_eq cfg sys m c _ p alloclen rfl hline]
    exact .released m c (freed_log sys _ hline) (serveRrq_upkeeps sys _ _ _ cfg)
  · rw [processRrq_wild cfg sys m c _ p alloclen rfl h]
    trivial

theorem processPacket_upkeeps (cfg : Config) (p : Bytes) (len alloclen : ℕ) :
    Upkeeps (m, c) (processPacket cfg sys m c p len alloclen) := by
  rw [processPacket]
  split
  · exact .refl _
  split
  · exact .released m c rfl (storeBlock_upkeeps sys _ _ p len)
  split
  · refine .released m c (e := .event .errorPacket) rfl ?_
    exact (acknowledge_upkeep sys _ _ 1).mark true
  split
  · exact .released m c rfl (sendNextBlock_upkeeps sys _ _)
  split
  · exact processWrq_upkeeps sys m c cfg p alloclen
  split
  · exact processRrq_upkeeps sys m c cfg p alloclen
  · exact (Upkeep.refl (m, c)).emit rfl

theorem processDatagram_upkeep {cfg : Config} {datagram : Bytes} {s' : State}
    (h : processDatagram cfg sys m c datagram = .ok s') : Upkeep (m, c) s' := by
  have hupkeeps := processPacket_upkeeps sys m c cfg (receiveBuffer datagram)
    (receivedLength datagram) pktlen
  rwa [← processDatagram, h] at hupkeeps

/-- So is the turn of the client a datagram is received for. -/
theorem turn_upkeep {cfg : Config} {data : Bytes} {st : State}
    (h : turn cfg (m, c) (receiving sys data) = .ok st) : Upkeep (m, c) st := by
  have hcounted : Upkeep (m, c) (m.callEvent .receivingPackets,
      { c with bytestransferred := c.bytestransferred + receivedLength data }) :=
    .silent rfl rfl rfl rfl rfl rfl rfl rfl ((m.frees_emit _).trans (List.append_nil _))
  exact hcounted.trans (processDatagram_upkeep sys _ _ h)

end

end Nbstftp
