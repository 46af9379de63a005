import Nbstftp.History

/-!
# The direction of a transfer

That a transfer is on is told by one flag, `sendingfile`, whether a client reads or
writes: so an ACK is answered with a block if the client is writing, and a DATA
packet is stored and acknowledged if it is reading (`not_respects_direction`). A
datagram of the other direction leaves a transfer alone if and only if it is too
large to be looked at (`respects_direction_iff`).
-/

namespace Nbstftp

/-- A step in which a request starts the transfer of the client at an address. -/
structure ServerStep.Starts (op : Opcode) (ptr : ℕ) (t : ServerStep) : Prop where
  request : ∃ a ∈ t.input.arrival, IsPacket op a.data ∧
    ∃ c ∈ t.pre.handler t.input.sys a, c.ptr = ptr ∧ c.sendingfile = false
  started : ∃ srv ∈ t.post.toOption, ∃ d ∈ srv.clientpool.clients,
    d.ptr = ptr ∧ d.sendingfile = true

/-- The transfer of the client at an address was started by a request. -/
def StartedBy (op : Opcode) (past : List ServerStep) (ptr : ℕ) : Prop :=
  Since (ServerStep.Starts op ptr) past ptr

/-- A datagram of the other direction than the transfer of the client at an address: an
    ACK if it was started by a WRQ, a DATA packet if it was started by an RRQ. -/
def Astray (past : List ServerStep) (ptr : ℕ) (datagram : Bytes) : Prop :=
  StartedBy .wrq past ptr ∧ opcodeOf datagram = Opcode.ack.code ∨
    StartedBy .rrq past ptr ∧ opcodeOf datagram = Opcode.data.code

/-- A step leaves alone the file, the counters, the mark and the queue of a client. -/
def ServerStep.Ignores (t : ServerStep) (c : Client) : Prop :=
  ∃ srv ∈ t.post.toOption, ∃ d ∈ srv.clientpool.clients, d.ptr = c.ptr ∧ d.f = c.f ∧
    d.currentblockno = c.currentblockno ∧ d.actualblockno = c.actualblockno ∧
    d.destroy = c.destroy ∧ d.packetqueue = c.packetqueue ∧
    ∀ f ∈ c.f, srv.machine.files f.path = t.pre.machine.files f.path

/-- A datagram of the other direction is ignored. -/
def RespectsDirection (past : List ServerStep) (t : ServerStep) : Prop :=
  ∀ a ∈ t.input.arrival, ∀ c ∈ t.pre.handler t.input.sys a, c ∈ t.pre.clientpool.clients →
    Astray past c.ptr a.data → t.Ignores c

/-- A datagram of the other direction is larger than any packet. -/
def AstrayLarge (past : List ServerStep) (t : ServerStep) : Prop :=
  ∀ a ∈ t.input.arrival, ∀ c ∈ t.pre.handler t.input.sys a, c ∈ t.pre.clientpool.clients →
    Astray past c.ptr a.data → maxPacketSize < a.data.length

/-! ## Transfers stay on -/

theorem ReadStart.sendingfile {t t' : Transfer} {qs : List Bytes} (h : ReadStart t t' qs)
    (ht : t.sendingfile = true) : t'.sendingfile = true := by
  cases h with
  | refused | reopened => exact ht
  | started => rfl

/-- A transfer that is on stays so. -/
theorem Progress.sendingfile {sys : Sys} {datagram : Bytes} {t t' : Transfer}
    (h : Progress sys datagram t t') (ht : t.sendingfile = true) : t'.sendingfile = true := by
  cases h with
  | marked | stored | sent => exact ht
  | begun => rfl
  | started hrrq hstart => exact hstart.sendingfile ht
  | negotiated hrrq haccept hstart => exact hstart.sendingfile rfl

/-- A client whose transfer was started is in the middle of it. -/
def Server.Started (past : List ServerStep) (srv : Server) : Prop :=
  ∀ op, ∀ c ∈ srv.clientpool.clients, StartedBy op past c.ptr → c.sendingfile = true

theorem step_started {cfg : Config} {past : List ServerStep} {srv srv' : Server} {i : Input}
    (h : srv.Started past) (hstep : step cfg srv i = .ok srv') :
    srv'.Started (past ++ [⟨srv, i, .ok srv'⟩]) := by
  intro op d hd hstarted
  rcases since_concat.1 hstarted with ⟨-, srv₁, hsrv₁, e, he, hptr, hsending⟩ | ⟨hsince, hholds⟩
  · cases hsrv₁
    rwa [Server.eq_of_ptr hd he hptr.symm]
  · rcases step_origin hstep hd with ⟨c, hc, hview⟩ | ⟨a, -, c, hc, hid, hprogress⟩
    · have hsending : d.sendingfile = c.sendingfile := congrArg (·.2.sendingfile) hview
      have hptr : d.ptr = c.ptr := congrArg (·.1.ptr) hview
      rw [hsending]
      exact h op c hc (hptr ▸ hsince)
    · have hptr : d.ptr = c.ptr := congrArg Identity.ptr hid
      rw [hptr] at hsince hholds
      exact hprogress.sendingfile (h op c (Server.mem_of_holds hc hholds) hsince)

/-! ## Datagrams astray -/

section

variable {cfg : Config} {sys : Sys} {m : Machine} {c : Client} {data : Bytes}

/-- While a transfer is on, an ACK and a DATA packet both move it on. -/
theorem turn_moves {st : State} (hsending : c.sendingfile = true)
    (hpacket : IsPacket .ack data ∨ IsPacket .data data)
    (h : turn cfg (m, c) (receiving sys data) = .ok st) :
    st.2.actualblockno = c.actualblockno + 1 := by
  have hoff : ∀ {P : Prop}, c.sendingfile = false → P := fun hoff => by
    cases hsending.symm.trans hoff
  rw [turn_receiving] at h
  rcases hpacket with hack | hdata
  · rw [processDatagram_ack cfg _ _ _ hack] at h
    rcases processAck_cases sys (m.callEvent .receivingPackets)
      { c with bytestransferred := c.bytestransferred + receivedLength data } with
      ⟨hoff', -⟩ | ⟨-, -, m', hcrash⟩ | ⟨-, -, -, m', hcrash⟩ |
      ⟨-, -, f, blk, s', -, -, hs', hreact⟩
    · exact hoff hoff'
    · cases h.symm.trans hcrash
    · cases h.symm.trans hcrash
    · cases h.symm.trans hs'
      exact congrArg Transfer.actualblockno hreact.transfer
  · rw [processDatagram_data cfg _ _ _ hdata] at h
    rcases processData_cases sys (m.callEvent .receivingPackets)
      { c with bytestransferred := c.bytestransferred + receivedLength data } (receiveBuffer data)
      (receivedLength data) with
      ⟨hoff', -⟩ | ⟨-, -, m', hcrash⟩ | ⟨-, f, m', -, -, hcrash⟩ |
      ⟨-, f, s', -, -, hs', hreact⟩
    · exact hoff hoff'
    · cases h.symm.trans hcrash
    · cases h.symm.trans hcrash
    · cases h.symm.trans hs'
      exact congrArg Transfer.actualblockno hreact.transfer

end

/-- A datagram of the other direction is ignored exactly if it is too large. -/
theorem respectsDirection_iff {cfg : Config} {past : List ServerStep} {srv : Server} {i : Input}
    (h : srv.Started past) :
    RespectsDirection past ⟨srv, i, step cfg srv i⟩ ↔
      AstrayLarge past ⟨srv, i, step cfg srv i⟩ := by
  refine forall₅_congr fun a ha c hc hmem => forall_congr' fun hastray => ?_
  have hstep := step_handed_of_mem cfg ha hc hmem
  constructor
  · rintro ⟨srv', hsrv', d, hd, hptr, -, -, hcount, -⟩
    by_contra hle
    -- The transfer is on, so that the datagram moves it on.
    obtain ⟨hsending, hpacket⟩ : c.sendingfile = true ∧
        (IsPacket .ack a.data ∨ IsPacket .data a.data) := by
      rcases hastray with ⟨hstarted, hop⟩ | ⟨hstarted, hop⟩
      · exact ⟨h _ c hmem hstarted, .inl ⟨Nat.not_lt.1 hle, hop⟩⟩
      · exact ⟨h _ c hmem hstarted, .inr ⟨Nat.not_lt.1 hle, hop⟩⟩
    cases hturn : turn cfg (srv.machine, c) (receiving i.sys a.data) with
    | error crash =>
      rw [hstep, hturn] at hsrv'
      cases hsrv'
    | ok st =>
      rw [hstep, hturn] at hsrv'
      cases hsrv'
      rcases ClientPool.mem_update hd with rfl | ⟨-, hne⟩
      · rw [turn_moves hsending hpacket hturn] at hcount
        omega
      · exact hne (hptr.trans (turn_ptr hturn).symm)
  · intro hlarge
    -- Nothing is done but to count the bytes.
    have hturn : turn cfg (srv.machine, c) (receiving i.sys a.data) = .ok
        (srv.machine.callEvent .receivingPackets,
          { c with bytestransferred := c.bytestransferred + receivedLength a.data }) :=
      processDatagram_large _ _ _ _ (Nat.not_le.2 hlarge)
    rw [hturn] at hstep
    exact ⟨srv.put _, congrArg Except.toOption hstep, _, ClientPool.mem_update_self hmem rfl, rfl,
      rfl, rfl, rfl, rfl, rfl, fun f _ => rfl⟩

/-- In every run of the server, the datagrams of the other direction are ignored if and
    only if all of them are too large. -/
theorem respects_direction_iff (cfg : Config) (machine : Machine) (socketpool : List Socket)
    (inputs : List Input) :
    Lib.Always RespectsDirection (Lib.trace (step cfg) (.boot machine socketpool) inputs) ↔
      Lib.Always AstrayLarge (Lib.trace (step cfg) (.boot machine socketpool) inputs) := by
  refine Lib.always_iff_always (fun past srv => srv.Started past)
    (fun op c hc => absurd hc List.not_mem_nil) ?_ ?_
  · rintro past ⟨srv, i, post⟩ hstarted - (hpost : post = step cfg srv i)
    rw [hpost]
    exact respectsDirection_iff hstarted
  · rintro past ⟨srv, i, post⟩ srv' hstarted - (hpost : post = step cfg srv i) -
      (hok : post = .ok srv')
    rw [hok]
    exact step_started hstarted (hpost.symm.trans hok)

instance (t : ServerStep) (c : Client) : Decidable (t.Ignores c) :=
  inferInstanceAs (Decidable (∃ srv ∈ t.post.toOption, ∃ d ∈ srv.clientpool.clients, _))

/-- A client that writes sends an ACK. -/
theorem not_respects_direction :
    ¬∀ cfg machine socketpool inputs,
      Lib.Always RespectsDirection (Lib.trace (step cfg) (.boot machine socketpool) inputs) := by
  intro h
  have hrun : Lib.run (step Sample.config) (Sample.boot [1])
      [Sample.receive Sample.wrq] =
        .ok (Sample.after [1] [Sample.receive Sample.wrq]) :=
    Sample.run_after (by decide +kernel)
  have hrespects := h Sample.config (Sample.machine [1]) [Sample.socket]
    [Sample.receive Sample.wrq, Sample.receive (ackBytes 0)] _ _ []
    (Lib.trace_concat hrun (Sample.receive (ackBytes 0)))
  have hignores := hrespects ⟨3, .inet 40000 1, ackBytes 0⟩ rfl
    ((Sample.after [1] [Sample.receive Sample.wrq]).clientpool.clients.headD
      (.new 0 Sample.socket)) (by decide +kernel) (by decide +kernel)
    (.inl ⟨⟨[], _, [], Lib.trace_concat (Sample.run_boot [1]) _,
      ⟨by decide +kernel, by decide +kernel⟩, fun u hu => absurd hu List.not_mem_nil⟩,
      by decide +kernel⟩)
  exact absurd hignores (by decide +kernel)

end Nbstftp
