import Nbstftp.Endpoint
import Nbstftp.History

/-!
# Who gets a client

A client is allocated for whatever arrives from an endpoint without one, before the
datagram is looked at: a late ACK, a DATA packet, or no packet at all gets a client
that did not ask for it (`not_admits_requests`). So every client was sent a datagram,
and every datagram is handed to a client that is there, or adds one
(`admits_datagrams`). Only requests create clients if and only if every other datagram
finds a client that is there already (`admits_requests_iff`).
-/

namespace Nbstftp

/-- A datagram is a read or a write request. -/
def Asks (datagram : Bytes) : Prop := IsPacket .rrq datagram ∨ IsPacket .wrq datagram

instance (datagram : Bytes) : Decidable (Asks datagram) := inferInstanceAs (Decidable (_ ∨ _))

/-- A step in which a request is processed for the client at an address. -/
def ServerStep.Asked (ptr : ℕ) (t : ServerStep) : Prop :=
  ∃ a ∈ t.input.arrival, Asks a.data ∧ ∃ c ∈ t.pre.handler t.input.sys a, c.ptr = ptr

/-- No client is at the endpoint of a datagram. -/
def Server.Unknown (srv : Server) (a : Arrival) : Prop :=
  ∀ c ∈ srv.clientpool.clients, c.s.fd = a.fd → c.s.addr.endpoint ≠ a.src.endpoint

/-- Only requests create clients: after a step, every client has had one processed since
    it was allocated, and no other datagram from an endpoint without a client changes the
    pools. -/
structure AdmitsRequests (past : List ServerStep) (t : ServerStep) : Prop where
  asked : ∀ srv ∈ t.post.toOption, ∀ c ∈ srv.clientpool.clients,
    Since (ServerStep.Asked c.ptr) (past ++ [t]) c.ptr
  unchanged : ∀ a ∈ t.input.arrival, ¬Asks a.data → t.pre.Unknown a →
    ∀ srv ∈ t.post.toOption, srv.identities = t.pre.identities ∧
      srv.socketpool = t.pre.socketpool

/-- Only datagrams create clients: after a step, every client has had one processed since
    it was allocated; one that a client is found for leaves the pools as they are, and any
    other one adds a client, and its socket. -/
structure AdmitsDatagrams (past : List ServerStep) (t : ServerStep) : Prop where
  handed : ∀ srv ∈ t.post.toOption, ∀ c ∈ srv.clientpool.clients,
    Since (ServerStep.HandsTo · c.ptr) (past ++ [t]) c.ptr
  known : ∀ a ∈ t.input.arrival, (t.pre.findClient a.fd a.src).isSome →
    ∀ srv ∈ t.post.toOption, srv.identities = t.pre.identities ∧
      srv.socketpool = t.pre.socketpool
  unknown : ∀ a ∈ t.input.arrival, t.pre.findClient a.fd a.src = none →
    ∀ srv ∈ t.post.toOption, ∃ s, s.fd = a.fd ∧ s.addr = a.src ∧
      srv.identities = t.pre.identities ++ [(Client.new t.pre.clientpool.fresh s).identity] ∧
      srv.socketpool = t.pre.socketpool ++ [s]

/-- A datagram that is no request arrives when there is a client to be found for it, or
    no memory for one. -/
def ServerStep.KnowsSender (t : ServerStep) : Prop :=
  ∀ a ∈ t.input.arrival, ¬Asks a.data →
    (t.pre.findClient a.fd a.src).isSome ∨ t.pre.handler t.input.sys a = none

/-- Without a transfer, a datagram that is no request is dealt with. -/
theorem turn_idle {cfg : Config} {sys : Sys} {m : Machine} {c : Client} {data : Bytes}
    (hidle : c.sendingfile = false) (hasks : ¬Asks data) :
    ∃ st, turn cfg (m, c) (receiving sys data) = .ok st := by
  obtain ⟨hrrq, hwrq⟩ := not_or.1 hasks
  rw [turn_receiving]
  generalize hc' : { c with bytestransferred := c.bytestransferred + receivedLength data } = c'
  generalize m.callEvent .receivingPackets = m'
  have hidle' : c'.sendingfile = false := by rw [← hc']; exact hidle
  rcases processDatagram_cases cfg sys m' c' data with ⟨-, hs⟩ | ⟨-, hs⟩ | ⟨-, hs⟩ | ⟨hwrq', -⟩ |
    ⟨hrrq', -⟩ | ⟨m'', -, hs⟩
  · rw [hs]
    rcases processData_cases sys m' c' (receiveBuffer data) (receivedLength data) with
      ⟨-, st, hs, -⟩ | ⟨hon, -⟩ | ⟨hon, -⟩ | ⟨hon, -⟩
    · exact ⟨st, hs⟩
    all_goals cases hidle'.symm.trans hon
  · obtain ⟨st, hs', -⟩ := processError_reacts sys m' c'
    exact ⟨st, hs.trans hs'⟩
  · rw [hs]
    rcases processAck_cases sys m' c' with ⟨-, st, hs, -⟩ | ⟨hon, -⟩ | ⟨hon, -⟩ | ⟨hon, -⟩
    · exact ⟨st, hs⟩
    all_goals cases hidle'.symm.trans hon
  · exact absurd hwrq' hwrq
  · exact absurd hrrq' hrrq
  · exact ⟨_, hs⟩

section

variable {cfg : Config} {past : List ServerStep} {srv : Server} {i : Input}

/-- Then it is handed to a client of the pool. -/
theorem ServerStep.KnowsSender.mem {t : ServerStep} (h : t.KnowsSender) {a : Arrival} {c : Client}
    (ha : a ∈ t.input.arrival) (hasks : ¬Asks a.data) (hc : c ∈ t.pre.handler t.input.sys a) :
    c ∈ t.pre.clientpool.clients := by
  rcases Server.handler_cases hc with ⟨-, hmem⟩ | ⟨hnone, -⟩
  · exact hmem
  · rcases h a ha hasks with hsome | hhandler
    · rw [hnone] at hsome
      cases hsome
    · cases hhandler.symm.trans hc

/-- A new client for a datagram that is no request is one nobody asked for. -/
theorem AdmitsRequests.knowsSender (h : AdmitsRequests past ⟨srv, i, step cfg srv i⟩) :
    ServerStep.KnowsSender ⟨srv, i, step cfg srv i⟩ := by
  intro a ha hasks
  cases hc : srv.handler i.sys a with
  | none => exact .inr rfl
  | some c =>
    rcases Server.handler_cases hc with ⟨hfind, -⟩ | ⟨hnone, hnew⟩
    · exact .inl (Option.isSome_of_mem hfind)
    obtain ⟨srv₁, hfound, hstep⟩ := step_handed cfg ha hc
    obtain ⟨st, hturn⟩ : ∃ st, turn cfg (srv₁.machine, c) (receiving i.sys a.data) = .ok st :=
      turn_idle (hnew ▸ rfl) hasks
    rw [hturn] at hstep
    have hptr := turn_ptr hturn
    have hasked := h.asked (srv₁.put st) (congrArg Except.toOption hstep) st.2
      (ClientPool.mem_update_self (Server.mem_of_findOrAllocateClient i.sys srv hfound) hptr)
    rcases since_concat.1 hasked with ⟨b, hb, hbasks, -⟩ | ⟨-, hholds⟩
    · cases Option.some.inj (Option.mem_def.1 hb ▸ Option.mem_def.1 ha)
      exact absurd hbasks hasks
    · rw [hptr, hnew] at hholds
      exact absurd hholds srv.clientpool.fresh_notMem

/-- What a step does to the past of the clients, if what it hands a datagram to satisfies
    `R` after it, or is there before. -/
theorem step_since {R : ℕ → ServerStep → Prop} {srv' : Server}
    (hpast : ∀ c ∈ srv.clientpool.clients, Since (R c.ptr) past c.ptr)
    (hstep : step cfg srv i = .ok srv')
    (hR : ∀ a ∈ i.arrival, ∀ c ∈ srv.handler i.sys a,
      R c.ptr ⟨srv, i, .ok srv'⟩ ∨ c ∈ srv.clientpool.clients) :
    ∀ d ∈ srv'.clientpool.clients, Since (R d.ptr) (past ++ [⟨srv, i, .ok srv'⟩]) d.ptr := by
  have hthere : ∀ c ∈ srv.clientpool.clients,
      Since (R c.ptr) (past ++ [⟨srv, i, .ok srv'⟩]) c.ptr := fun c hc =>
    since_concat.2 (.inr ⟨hpast c hc, Server.holds_of_mem hc⟩)
  intro d hd
  rcases step_origin hstep hd with ⟨c, hc, hview⟩ | ⟨a, ha, c, hc, hid, -⟩
  · have hptr : d.ptr = c.ptr := congrArg (·.1.ptr) hview
    rw [hptr]
    exact hthere c hc
  · have hptr : d.ptr = c.ptr := congrArg Identity.ptr hid
    rw [hptr]
    exact (hR a ha c hc).elim (fun h => since_concat.2 (.inl h)) (hthere c)

/-- A datagram leaves the pools as they are if a client is found for it, and adds one
    with its socket else. -/
theorem step_admits {srv' : Server} {a : Arrival} (ha : a ∈ i.arrival)
    (hstep : step cfg srv i = .ok srv') :
    ((srv.findClient a.fd a.src).isSome ∧ srv'.identities = srv.identities ∧
      srv'.socketpool = srv.socketpool) ∨
    srv.findClient a.fd a.src = none ∧ ∃ s, s.fd = a.fd ∧ s.addr = a.src ∧
      srv'.identities = srv.identities ++ [(Client.new srv.clientpool.fresh s).identity] ∧
      srv'.socketpool = srv.socketpool ++ [s] := by
  obtain ⟨srv₁, c, st, hfound, hturn, rfl⟩ := step_arrival_ok ha hstep
  have hput : (srv₁.put st).identities = srv₁.identities :=
    ClientPool.map_update (Server.mem_of_findOrAllocateClient i.sys srv hfound)
      (turn_ptr hturn) (turn_identity hturn)
  rw [hput]
  rcases Server.findOrAllocateClient_eq i.sys srv hfound with ⟨hfind, rfl⟩ | ⟨hnone, -, rfl⟩
  · exact .inl ⟨Option.isSome_of_mem hfind, rfl, rfl⟩
  · exact .inr ⟨hnone, srv.newSocket i.sys a.fd a.src, rfl, rfl, List.map_append, rfl⟩

/-- If all others are handed to clients of the pool, only requests create clients. -/
theorem ServerStep.KnowsSender.admits (h : ServerStep.KnowsSender ⟨srv, i, step cfg srv i⟩)
    (hpast : ∀ c ∈ srv.clientpool.clients, Since (ServerStep.Asked c.ptr) past c.ptr) :
    AdmitsRequests past ⟨srv, i, step cfg srv i⟩ := by
  constructor
  · intro srv' hsrv'
    have hstep : step cfg srv i = .ok srv' := Lib.mem_toOption.1 hsrv'
    rw [hstep] at h ⊢
    refine step_since hpast hstep fun a ha c hc => ?_
    by_cases hasks : Asks a.data
    · exact .inl ⟨a, ha, hasks, c, hc, rfl⟩
    · exact .inr (h.mem ha hasks hc)
  · intro a ha hasks _ srv' hsrv'
    have hstep : step cfg srv i = .ok srv' := Lib.mem_toOption.1 hsrv'
    rcases step_admits ha hstep with ⟨-, hsame⟩ | ⟨hnone, -⟩
    · exact hsame
    · obtain ⟨srv₁, c, st, hfound, -, -⟩ := step_arrival_ok ha hstep
      have hmem : c ∈ srv.clientpool.clients :=
        h.mem ha hasks (Server.handler_eq_some.2 ⟨srv₁, hfound⟩)
      rcases Server.findOrAllocateClient_eq i.sys srv hfound with ⟨hfind, -⟩ | ⟨-, rfl, -⟩
      · cases hnone.symm.trans hfind
      · exact absurd (Server.holds_of_mem hmem) srv.clientpool.fresh_notMem

end

/-- In every run of the server, only datagrams create clients, one for each that no client
    is found for. -/
theorem admits_datagrams (cfg : Config) (machine : Machine) (socketpool : List Socket)
    (inputs : List Input) :
    Lib.Always AdmitsDatagrams (Lib.trace (step cfg) (.boot machine socketpool) inputs) := by
  have hhanded : ∀ {past srv i srv'}, (∀ c ∈ srv.clientpool.clients,
      Since (ServerStep.HandsTo · c.ptr) past c.ptr) → step cfg srv i = .ok srv' →
      ∀ d ∈ srv'.clientpool.clients,
        Since (ServerStep.HandsTo · d.ptr) (past ++ [⟨srv, i, .ok srv'⟩]) d.ptr :=
    fun hpast hstep => step_since (R := fun ptr t => t.HandsTo ptr) hpast hstep
      fun a ha c hc => .inl ⟨a, ha, c, hc, rfl⟩
  refine Lib.always_of_always (fun past srv => ∀ c ∈ srv.clientpool.clients,
    Since (ServerStep.HandsTo · c.ptr) past c.ptr) (fun c hc => absurd hc List.not_mem_nil) ?_ ?_
    fun _ _ _ _ => trivial
  · rintro past ⟨srv, i, post⟩ hpast - (hpost : post = step cfg srv i) -
    refine ⟨fun srv' hsrv' => ?_, fun a ha hsome srv' hsrv' => ?_, fun a ha hnone srv' hsrv' => ?_⟩
    · have hok : post = .ok srv' := Lib.mem_toOption.1 hsrv'
      rw [hok]
      exact hhanded hpast (hpost.symm.trans hok)
    · have hstep := hpost.symm.trans (Lib.mem_toOption.1 hsrv')
      rcases step_admits ha hstep with ⟨-, hsame⟩ | ⟨hnone, -⟩
      · exact hsame
      · have hsome : (srv.findClient a.fd a.src).isSome := hsome
        rw [hnone] at hsome
        cases hsome
    · have hstep := hpost.symm.trans (Lib.mem_toOption.1 hsrv')
      rcases step_admits ha hstep with ⟨hsome, -⟩ | ⟨-, hadded⟩
      · have hnone : srv.findClient a.fd a.src = none := hnone
        rw [hnone] at hsome
        cases hsome
      · exact hadded
  · rintro past ⟨srv, i, post⟩ srv' hpast - (hpost : post = step cfg srv i) -
      (hok : post = .ok srv')
    rw [hok]
    exact hhanded hpast (hpost.symm.trans hok)

/-- In every run of the server, only requests create clients if and only if every other
    datagram arrives when there is a client to be found for it. -/
theorem admits_requests_iff (cfg : Config) (machine : Machine) (socketpool : List Socket)
    (inputs : List Input) :
    Lib.Always AdmitsRequests (Lib.trace (step cfg) (.boot machine socketpool) inputs) ↔
      ∀ t ∈ Lib.trace (step cfg) (.boot machine socketpool) inputs, ServerStep.KnowsSender t := by
  rw [← Lib.always_iff_forall_mem]
  refine Lib.always_iff_always (fun past srv => ∀ c ∈ srv.clientpool.clients,
    Since (ServerStep.Asked c.ptr) past c.ptr) (fun c hc => absurd hc List.not_mem_nil) ?_ ?_
  · rintro past ⟨srv, i, post⟩ hpast - (hpost : post = step cfg srv i)
    rw [hpost]
    exact ⟨fun h => h.knowsSender, fun h => h.admits hpast⟩
  · rintro past ⟨srv, i, post⟩ srv' hpast - (hpost : post = step cfg srv i) hknows
      (hok : post = .ok srv')
    rw [hpost] at hknows hok
    have hadmits := hknows.admits hpast
    rw [hok] at hadmits
    rw [hpost, hok]
    exact hadmits.asked srv' rfl

/-- An ACK arrives, of a transfer there never was. -/
theorem not_admits_requests :
    ¬∀ cfg machine socketpool inputs,
      Lib.Always AdmitsRequests (Lib.trace (step cfg) (.boot machine socketpool) inputs) := by
  intro h
  have hadmits := h Sample.config (Sample.machine [1]) [Sample.socket]
    [Sample.receive (ackBytes 1)] [] _ [] (Lib.trace_concat (Sample.run_boot [1]) _)
  have hpool : ∀ srv ∈ (step Sample.config (Sample.boot [1])
      (Sample.receive (ackBytes 1))).toOption, srv.socketpool = [Sample.socket] :=
    fun srv hsrv => (hadmits.unchanged ⟨3, .inet 40000 1, ackBytes 1⟩ rfl (by decide +kernel)
      (fun c hc => absurd hc List.not_mem_nil) srv hsrv).2
  exact absurd hpool (by decide +kernel)

end Nbstftp
