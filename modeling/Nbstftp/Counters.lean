import Nbstftp.Answer
import Nbstftp.Block
import Nbstftp.Sending

/-!
# The counters of a client

A client counts blocks twice, in 16 bits that go on the wire and wrap, and in a number that
does not. They are reset and advanced together, whatever datagrams come, so that they stay
congruent; the block size stays in the range it is checked for; and so no DATA packet is
larger than the buffers for packets (`clients_inBounds`).

A packet that is sent again is the copy of one that was queued before: the invariant is also
about the last packet of a client (`Client.Bounded`).
-/

namespace Nbstftp

/-- If a packet is a DATA packet, it fits into a buffer for packets. -/
structure DataFits (bytes : Bytes) (len : ℕ) : Prop where
  le : packetOpcode bytes = Opcode.data.code → len ≤ pktlen

/-- The counters are congruent, the block size is in range, and the DATA packets queued are
    not too large. -/
structure Client.InBounds (c : Client) : Prop where
  counters : c.currentblockno.toNat = c.actualblockno % UInt16.size
  blksize : 8 ≤ c.blksize ∧ c.blksize ≤ 65464
  queue : ∀ pq ∈ c.packetqueue, DataFits pq.p.bytes pq.len

/-- And neither is the last packet. -/
structure Client.Bounded (c : Client) : Prop extends c.InBounds where
  last : ∀ last ∈ c.lastpacket, DataFits last.p.bytes last.len

/-- All clients are. -/
def Server.Bounded (srv : Server) : Prop := ∀ c ∈ srv.clientpool.clients, c.Bounded

/-- What a case of the switch leaves, if it does not crash. -/
def BoundedAfter (o : Outcome) : Prop := ∀ s ∈ o.toOption, s.2.Bounded

namespace Client.Bounded

variable {c d : Client}

theorem new (ptr : ℕ) (s : Socket) : (Client.new ptr s).Bounded where
  counters := rfl
  blksize := (by decide : 8 ≤ 512 ∧ 512 ≤ 65464)
  queue pq hpq := absurd hpq List.not_mem_nil
  last last hlast := by cases hlast

/-- Other fields of a client may change. -/
theorem congr (h : c.Bounded) (hcurrent : d.currentblockno = c.currentblockno)
    (hactual : d.actualblockno = c.actualblockno) (hblksize : d.blksize = c.blksize)
    (hqueue : d.packetqueue = c.packetqueue) (hlast : d.lastpacket = c.lastpacket) :
    d.Bounded where
  counters := by rw [hcurrent, hactual, h.counters]
  blksize := hblksize ▸ h.blksize
  queue := hqueue ▸ h.queue
  last := hlast ▸ h.last

theorem destroyIf (h : c.Bounded) (cond : Bool) : (c.destroyIf cond).Bounded :=
  h.congr rfl rfl rfl rfl rfl

/-- Both counters are set to a number. -/
theorem reset (h : c.Bounded) {n : ℕ} (hcurrent : d.currentblockno = UInt16.ofNat n)
    (hactual : d.actualblockno = n) (hblksize : 8 ≤ d.blksize ∧ d.blksize ≤ 65464)
    (hqueue : d.packetqueue = c.packetqueue) (hlast : d.lastpacket = c.lastpacket) : d.Bounded where
  counters := by rw [hcurrent, hactual, UInt16.toNat_ofNat']
  blksize := hblksize
  queue := hqueue ▸ h.queue
  last := hlast ▸ h.last

/-- Both counters are advanced. -/
theorem advance (h : c.Bounded) (hcurrent : d.currentblockno = c.currentblockno + 1)
    (hactual : d.actualblockno = c.actualblockno + 1) (hblksize : d.blksize = c.blksize)
    (hqueue : d.packetqueue = c.packetqueue) (hlast : d.lastpacket = c.lastpacket) :
    d.Bounded where
  counters := by
    rw [hcurrent, hactual, UInt16.toNat_add, h.counters]
    exact (Nat.mod_add_mod _ _ _)
  blksize := hblksize ▸ h.blksize
  queue := hqueue ▸ h.queue
  last := hlast ▸ h.last

end Client.Bounded

/-! ## Queueing -/

/-- The copy of a packet is no larger. -/
theorem DataFits.take {bytes : Bytes} {len : ℕ} (h : DataFits bytes len) :
    DataFits (bytes.take len) len := by
  refine ⟨fun hdata => ?_⟩
  rcases Nat.lt_or_ge len 2 with hshort | hlong
  · exact Nat.le_trans (Nat.le_of_lt hshort) (by decide)
  · refine h.le (Eq.trans ?_ hdata)
    rw [packetOpcode, packetOpcode, ntohs, ntohs, List.getD_eq_getElem?_getD,
      List.getD_eq_getElem?_getD, List.getD_eq_getElem?_getD, List.getD_eq_getElem?_getD,
      List.getElem?_take_of_lt (by omega), List.getElem?_take_of_lt (by omega)]

section

variable (sys : Sys) (m : Machine) {c : Client}

theorem queuePacket_bounded (h : c.Bounded) {p : Buffer} {len : ℕ} (hp : DataFits p.bytes len)
    (allocated : UInt8) : (queuePacket sys m c p len allocated).2.Bounded where
  counters := h.counters
  blksize := h.blksize
  queue pq hpq := by
    rcases List.mem_append.1 hpq with hpq | hpq
    · exact h.queue pq hpq
    · rw [List.mem_singleton.1 hpq]
      exact hp
  last last hlast := by
    rw [queuePacket] at hlast
    dsimp only at hlast
    split at hlast
    · exact h.last last hlast
    · cases hlast
      exact hp.take

/-- A packet of another kind may have any length. -/
theorem dataFits_of_ne (op : Opcode) (hop : op ≠ .data) {bytes : Bytes}
    (h : packetOpcode bytes = op.code) (len : ℕ) : DataFits bytes len := by
  refine ⟨fun hdata => ?_⟩
  rw [hdata] at h
  cases op with
  | data => exact absurd rfl hop
  | rrq | wrq | ack | error | oack => exact absurd h (by decide)

theorem sendData_bounded (h : c.Bounded) {data : Bytes} (hdata : data.length ≤ 65464) :
    (sendData sys m c data).2.Bounded :=
  queuePacket_bounded sys _ h ⟨fun _ => Nat.add_le_add_right hdata headerSize⟩ 1

theorem acknowledge_bounded (h : c.Bounded) (blockno : UInt16) :
    (acknowledge sys m c blockno).2.Bounded :=
  queuePacket_bounded sys _ h
    (dataFits_of_ne .ack (by decide) (packetOpcode_ackBytes blockno) _) 1

theorem optionAcknowledge_bounded (h : c.Bounded) (option param : Bytes) :
    (optionAcknowledge sys m c option param).2.Bounded :=
  queuePacket_bounded sys _ h
    (dataFits_of_ne .oack (by decide) (packetOpcode_oackBytes option param) _) 1

theorem error_bounded (h : c.Bounded) (errnum : ErrorCode) (buf : Bytes) :
    BoundedAfter (error sys m c errnum buf) := by
  intro s hs
  rw [error, errorWith] at hs
  split at hs
  · cases hs
    exact (queuePacket_bounded sys _ h (dataFits_of_ne .error (by decide)
      (packetOpcode_errorBytes errnum buf) _) 1).destroyIf true
  · cases hs

theorem releaseLastpacket_bounded (h : c.Bounded) : (releaseLastpacket m c).2.Bounded := by
  rw [releaseLastpacket]
  cases hlast : c.lastpacket with
  | none => exact h.congr rfl rfl rfl rfl hlast.symm
  | some last =>
    dsimp only
    split
    · refine ⟨⟨h.counters, h.blksize, h.queue⟩, fun last' hlast' => ?_⟩
      cases hlast'
      exact ⟨fun _ => Nat.zero_le _⟩
    · exact h.congr rfl rfl rfl rfl hlast.symm

end

/-! ## The switch -/

section

variable (cfg : Config) (sys : Sys) (m : Machine) {c : Client}

theorem boundedAfter_ok {s : State} (h : s.2.Bounded) : BoundedAfter (.ok s) := fun s' hs' => by
  cases hs'
  exact h

theorem boundedAfter_error (crash : Crash) : BoundedAfter (.error crash) := fun s hs => by
  cases hs

theorem storeBlock_bounded (h : c.Bounded) (p : Bytes) (len : ℕ) :
    BoundedAfter (storeBlock sys m c p len) := by
  rw [storeBlock]
  generalize payloadLength len = n
  split
  · cases c.f with
    | none => exact boundedAfter_error _
    | some f =>
      dsimp only
      split
      · exact boundedAfter_error _
      · refine boundedAfter_ok (.destroyIf (acknowledge_bounded sys _ ?_ _) _)
        exact h.advance rfl rfl rfl rfl rfl
  · exact boundedAfter_ok h

/-- A block is not larger than the block size. -/
theorem sendNextBlock_bounded (h : c.Bounded) : BoundedAfter (sendNextBlock sys m c) := by
  rw [sendNextBlock]
  split
  · dsimp only
    split
    · exact boundedAfter_error _
    · cases c.f with
      | none => exact boundedAfter_error _
      | some f =>
        refine boundedAfter_ok (.destroyIf (sendData_bounded sys _ ?_ ?_) _)
        · exact h.advance rfl rfl rfl rfl rfl
        · refine Nat.le_trans (List.length_take_le _ _) ?_
          exact Nat.le_trans (Machine.length_fread_le _ _ _ _) h.blksize.2
  · exact boundedAfter_ok h

theorem reportMissing_bounded (h : c.Bounded) (tmp : Bytes) :
    BoundedAfter (reportMissing sys m c tmp) := by
  rw [reportMissing]
  split
  · exact boundedAfter_ok h
  · exact error_bounded sys _ h _ _

variable (q : Request)

theorem serveFile_bounded (h : c.Bounded) (tmp : Bytes) (tsize : Bool) :
    BoundedAfter (serveFile sys m c q tmp tsize) := by
  rw [serveFile]
  generalize m.fopen sys tmp q.readMode = o
  obtain ⟨m', e | f⟩ := o
  · exact error_bounded sys _ h _ _
  dsimp only
  split
  · exact boundedAfter_ok (optionAcknowledge_bounded sys m' h _ _)
  split
  · exact boundedAfter_ok (h.congr rfl rfl rfl rfl rfl)
  · refine boundedAfter_ok (sendData_bounded sys _ ?_ ?_)
    · exact h.reset (n := 1) rfl rfl h.blksize rfl rfl
    · exact Nat.le_trans (Machine.length_fread_le _ _ _ _) (by decide)

theorem openForRead_bounded (h : c.Bounded) (tsize : Bool) :
    BoundedAfter (openForRead cfg sys m c q tsize) := by
  rw [openForRead]
  split
  · exact boundedAfter_error _
  have hmissing := reportMissing_bounded sys m h (requestPath cfg q.filename)
  dsimp only
  generalize reportMissing sys m c (requestPath cfg q.filename) = o at hmissing ⊢
  cases o with
  | error crash => exact boundedAfter_error _
  | ok s => exact serveFile_bounded sys s.1 q (hmissing s rfl) _ tsize

/-- A block size is accepted in range only. -/
theorem serveRrq_bounded (h : c.Bounded) : BoundedAfter (serveRrq cfg sys m c q) := by
  cases hrefusal : rrqRefusal sys q with
  | some e =>
    rw [serveRrq_refused cfg sys m c q hrefusal]
    exact error_bounded sys m h _ _
  | none =>
    cases haccept : acceptedBlksize sys q with
    | none =>
      rw [serveRrq_plain cfg sys m c q hrefusal haccept]
      exact openForRead_bounded cfg sys m q h _
    | some blksize =>
      rw [serveRrq_negotiated cfg sys m c q haccept]
      refine openForRead_bounded cfg sys _ q ?_ _
      exact (optionAcknowledge_bounded sys m h _ _).reset (n := 0) rfl rfl
        (acceptedBlksize_bounds sys q haccept) rfl rfl

theorem serveWrq_bounded (h : c.Bounded) : BoundedAfter (serveWrq cfg sys m c q) := by
  cases hrefusal : wrqRefusal cfg sys q with
  | some e =>
    rw [serveWrq_refused cfg sys m c q hrefusal]
    exact error_bounded sys m h _ _
  | none =>
    rw [serveWrq_open cfg sys m c q hrefusal]
    generalize m.fopen sys (requestPath cfg q.filename) q.writeMode = o
    obtain ⟨m', e | f⟩ := o
    · exact error_bounded sys m' h _ _
    · refine boundedAfter_ok (acknowledge_bounded sys _ ?_ 0)
      exact h.reset (n := 1) rfl rfl h.blksize rfl rfl

theorem processPacket_bounded (h : c.Bounded) (p : Bytes) (len alloclen : ℕ) :
    BoundedAfter (processPacket cfg sys m c p len alloclen) := by
  have hreleased := releaseLastpacket_bounded m h
  rw [processPacket]
  split
  · exact boundedAfter_ok h
  split
  · exact storeBlock_bounded sys _ hreleased p len
  split
  · exact boundedAfter_ok ((acknowledge_bounded sys _ hreleased 1).destroyIf true)
  split
  · exact sendNextBlock_bounded sys _ hreleased
  split
  · rw [processWrq]
    split
    · exact boundedAfter_error _
    · exact serveWrq_bounded cfg sys _ _ hreleased
  split
  · rw [processRrq]
    split
    · exact boundedAfter_error _
    · exact serveRrq_bounded cfg sys _ _ hreleased
  · exact boundedAfter_ok h

end

/-! ## The server -/

namespace Server

variable {srv srv' : Server}

theorem Bounded.subset (h : srv.Bounded)
    (hsub : srv'.clientpool.clients ⊆ srv.clientpool.clients) : srv'.Bounded :=
  fun c hc => h c (hsub hc)

theorem Bounded.put (h : srv.Bounded) {s : State} (hs : s.2.Bounded) : (srv.put s).Bounded := by
  intro c hc
  rcases ClientPool.mem_update hc with rfl | ⟨hc, -⟩
  · exact hs
  · exact h c hc

/-- What is sent again is the last packet. -/
theorem Bounded.checkClient (h : srv.Bounded) {c : Client} (hc : c.Bounded) (sys : Sys) :
    (srv.checkClient sys c).Bounded := by
  rw [Server.checkClient]
  split
  · dsimp only
    split
    · exact h.subset List.eraseP_subset
    · have hwaited : Client.Bounded { c with waiting := c.waiting + 1 } :=
        hc.congr rfl rfl rfl rfl rfl
      refine h.put (queuePacket_bounded sys _ hwaited ?_ 2)
      cases hlast : c.lastpacket with
      | none => exact ⟨fun _ => Nat.zero_le _⟩
      | some last => exact hc.last last hlast
  · exact h

theorem Bounded.checkClients (h : srv.Bounded) (sys : Sys) : (srv.checkClients sys).Bounded := by
  rw [Server.checkClients]
  rcases Lib.foreach_invariant (·.clientpool.clients)
    (fun srv c => (.ok (srv.checkClient sys c) : Except Empty Server)) Bounded (fun _ => True)
    (fun srv₁ c srv₂ hsrv hc hs => by
      cases hs
      exact hsrv.checkClient (hsrv c hc) sys)
    (fun _ _ _ _ _ _ => trivial) h with ⟨srv', hs, hsrv'⟩ | ⟨e, -, -⟩
  · simpa only [hs] using hsrv'
  · exact e.elim

theorem Bounded.sendPackets (h : srv.Bounded) (sys : Sys) (s : Socket) :
    (srv.sendPackets sys s).1.Bounded :=
  sendPackets_forall (fun _ _ hc => hc.congr rfl rfl rfl rfl rfl)
    (fun _ hc => ⟨⟨hc.counters, hc.blksize, fun _ hpq => absurd hpq List.not_mem_nil⟩, hc.last⟩)
    h s

theorem Bounded.destroyFailed {s : Socket} {r : Server × Int} (h : r.1.Bounded) :
    (Nbstftp.destroyFailed s r).Bounded := by
  rw [Nbstftp.destroyFailed]
  split <;> exact h

/-- A step of the main loop keeps the clients within bounds. -/
theorem Bounded.step {cfg : Config} {i : Input} (h : srv.Bounded)
    (hstep : step cfg srv i = .ok srv') : srv'.Bounded := by
  obtain ⟨sys, event⟩ := i
  cases event with
  | check =>
    cases hstep
    exact h.checkClients sys
  | activity | hangup | unknown =>
    cases hstep
    exact h
  | writable s =>
    cases hstep
    exact .destroyFailed (h.sendPackets sys s)
  | readable s received =>
    cases received with
    | failed e =>
      cases hstep
      exact .destroyFailed h
    | datagram src data =>
      obtain ⟨srv₁, c, st, hfound, hturn, rfl⟩ := step_readable_ok hstep
      have h₁ : srv₁.Bounded := forall_findOrAllocateClient sys srv hfound h Client.Bounded.new
      have hc := h₁ c (mem_of_findOrAllocateClient sys srv hfound)
      have hcounted : Client.Bounded
          { c with bytestransferred := c.bytestransferred + receivedLength data } :=
        hc.congr rfl rfl rfl rfl rfl
      have hafter := processPacket_bounded cfg sys (srv₁.machine.callEvent .receivingPackets)
        hcounted (receiveBuffer data) (receivedLength data) pktlen
      rw [turn_receiving, processDatagram] at hturn
      exact h₁.put (hafter st (Lib.mem_toOption.2 hturn))

end Server

/-- A step leaves all clients within bounds. -/
def ServerStep.InBounds (t : ServerStep) : Prop :=
  ∀ srv ∈ t.post.toOption, ∀ c ∈ srv.clientpool.clients, c.InBounds

/-- In every run of the server, on any datagrams and whatever the system calls give, the
    counters, the block size and the DATA packets of all clients stay within bounds. -/
theorem clients_inBounds (cfg : Config) (machine : Machine) (socketpool : List Socket)
    (inputs : List Input) :
    Lib.Always (fun _ => ServerStep.InBounds)
      (Lib.trace (step cfg) (.boot machine socketpool) inputs) := by
  refine Lib.always_of_always (Q := fun _ _ => True) (fun _ => Server.Bounded)
    (fun c hc => absurd hc List.not_mem_nil) ?_ ?_ fun _ _ _ _ => trivial
  · rintro past ⟨srv, i, post⟩ hsrv - (hpost : post = step cfg srv i) - srv' hsrv' c hc
    rw [hpost, Lib.mem_toOption] at hsrv'
    exact (hsrv.step hsrv' c hc).toInBounds
  · rintro past ⟨srv, i, post⟩ srv' hsrv - (hpost : post = step cfg srv i) -
      (hok : post = .ok srv')
    exact hsrv.step (hpost ▸ hok)

end Nbstftp
