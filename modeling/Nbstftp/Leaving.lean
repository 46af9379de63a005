import Nbstftp.Retransmission

/-!
# Clients that leave

A client that is marked for destruction is removed when the last of the packets queued for it has
been sent, so that one with nothing queued would stay for good. There is none: every part of
the server that marks a client queues a packet for it first, the last block, an ACK or an error,
and flushing empties the queues only of clients that are kept (`run_leaving`).
-/

namespace Nbstftp

/-- A client that is marked has something queued for it. -/
def Client.Leaving (c : Client) : Prop := c.destroy = true → c.packetqueue ≠ []

/-- So it is with all clients of a server, and none is waited for. -/
structure Server.Leaving (srv : Server) : Prop where
  unarmed : srv.Unarmed
  clients : ∀ c ∈ srv.clientpool.clients, c.Leaving

/-- So it is with the client that comes of handling a datagram. -/
def Leaves (o : Outcome) : Prop := ∀ s ∈ o.toOption, s.2.Leaving

section

variable {s s' : State} {r : Reaction}

theorem leaves_ok : Leaves (.ok s) ↔ s.2.Leaving :=
  ⟨fun h => h s rfl, fun h _ hs => Option.some.inj hs ▸ h⟩

theorem leaves_error {crash : Crash} : Leaves (.error crash) := fun _ hs => nomatch hs

/-- A reaction that marks the client may have queued something. -/
theorem Reacts.leaving (h : Reacts s r s')
    (hr : r.queued = [] → r.transfer.destroy = s.2.destroy) (hs : s.2.Leaving) :
    s'.2.Leaving := by
  intro hmarked hnil
  obtain ⟨es, hqueue, hes⟩ := h.queue
  obtain ⟨hnil, rfl⟩ := List.append_eq_nil_iff.1 (hqueue.symm.trans hnil)
  have hsame : r.transfer.destroy = s.2.destroy := hr hes.symm
  have hdestroy : s'.2.destroy = r.transfer.destroy := congrArg Transfer.destroy h.transfer
  exact hs (hsame.symm.trans (hdestroy.symm.trans hmarked)) hnil

/-- One that queues something does. -/
theorem Reacts.leaving_of_queued (h : Reacts s r s') (hr : r.queued ≠ []) (hs : s.2.Leaving) :
    s'.2.Leaving :=
  h.leaving (fun hnil => absurd hnil hr) hs

end

/-! ## Datagrams -/

section

variable (cfg : Config) (sys : Sys) (m : Machine) {c : Client} (q : Request) (tmp : Bytes)

theorem error_leaves (errnum : ErrorCode) (buf : Bytes) (hc : c.Leaving) :
    Leaves (error sys m c errnum buf) := by
  rcases error_cases sys m c errnum buf with ⟨-, s', hs', hreact⟩ | ⟨-, hcrash⟩
  · rw [hs', leaves_ok]
    exact hreact.leaving_of_queued (List.cons_ne_nil _ _) hc
  · rw [hcrash]
    exact leaves_error

theorem serveFile_leaves (tsize : Bool) (hc : c.Leaving) :
    Leaves (serveFile sys m c q tmp tsize) := by
  cases hopen : sys.fopen tmp q.readMode with
  | some e =>
    rw [serveFile_error sys m c q tmp hopen]
    exact error_leaves sys _ _ _ hc
  | none =>
    cases tsize with
    | true =>
      obtain ⟨s', hs', hreact⟩ := serveFile_tsize sys m c q tmp hopen
      rw [hs', leaves_ok]
      exact hreact.leaving_of_queued (List.cons_ne_nil _ _) hc
    | false =>
      cases hsending : c.sendingfile with
      | true =>
        obtain ⟨s', hs', hreact⟩ := serveFile_reopened sys m c q tmp hopen hsending
        rw [hs', leaves_ok]
        exact hreact.leaving (fun _ => rfl) hc
      | false =>
        obtain ⟨s', hs', hreact⟩ := serveFile_started sys m c q tmp hopen hsending
        rw [hs', leaves_ok]
        exact hreact.leaving_of_queued (List.cons_ne_nil _ _) hc

theorem openForRead_leaves (tsize : Bool) (hc : c.Leaving) :
    Leaves (openForRead cfg sys m c q tsize) := by
  rw [openForRead]
  split
  · exact leaves_error
  have hmissing : Leaves (reportMissing sys m c (requestPath cfg q.filename)) := by
    rw [reportMissing]
    split
    · exact leaves_ok.2 hc
    · exact error_leaves sys _ _ _ hc
  dsimp only
  generalize reportMissing sys m c (requestPath cfg q.filename) = o at hmissing ⊢
  cases o with
  | error crash => exact leaves_error
  | ok s => exact serveFile_leaves sys s.1 q _ tsize (leaves_ok.1 hmissing)

theorem serveRrq_leaves (hc : c.Leaving) : Leaves (serveRrq cfg sys m c q) := by
  cases hrefusal : rrqRefusal sys q with
  | some e =>
    rw [serveRrq_refused cfg sys m c q hrefusal]
    exact error_leaves sys m _ _ hc
  | none =>
    cases haccept : acceptedBlksize sys q with
    | none =>
      rw [serveRrq_plain cfg sys m c q hrefusal haccept]
      exact openForRead_leaves cfg sys m q _ hc
    | some blksize =>
      rw [serveRrq_negotiated cfg sys m c q haccept]
      exact openForRead_leaves cfg sys _ q _
        ((negotiate_reacts sys m c q _ _).leaving_of_queued (List.cons_ne_nil _ _) hc)

theorem processRrq_leaves (p : Bytes) (alloclen : ℕ) (hc : c.Leaving) :
    Leaves (processRrq cfg sys m c p alloclen) := by
  by_cases hloggable : (parseRequest p alloclen).Loggable sys
  · obtain ⟨line, hline⟩ := hloggable.log false
    rw [processRrq_eq cfg sys m c _ p alloclen rfl hline]
    exact serveRrq_leaves cfg sys _ _ ((loggedState_reacts m c line).leaving (fun _ => rfl) hc)
  · rw [processRrq_wild cfg sys m c _ p alloclen rfl hloggable]
    exact leaves_error

theorem processWrq_leaves (p : Bytes) (alloclen : ℕ) (hc : c.Leaving) :
    Leaves (processWrq cfg sys m c p alloclen) := by
  have hlog (line : Effect) : (loggedState m c line).2.Leaving :=
    (loggedState_reacts m c line).leaving (fun _ => rfl) hc
  rcases processWrq_cases cfg sys m c _ p alloclen rfl with ⟨-, hwild⟩ |
    ⟨-, line, -, ⟨e, -, hrefused⟩ | ⟨-, e, -, hfailed⟩ | ⟨-, -, s', f, hs', -, hreact⟩⟩
  · rw [hwild]
    exact leaves_error
  · rw [hrefused]
    exact error_leaves sys _ _ _ (hlog line)
  · rw [hfailed]
    exact error_leaves sys _ _ _ (hlog line)
  · rw [hs', leaves_ok]
    exact hreact.leaving_of_queued (List.cons_ne_nil _ _) hc

theorem processData_leaves (p : Bytes) (len : ℕ) (hc : c.Leaving) :
    Leaves (processData sys m c p len) := by
  rcases processData_cases sys m c p len with ⟨-, s', hs', hreact⟩ | ⟨-, -, m', hcrash⟩ |
    ⟨-, f, m', -, -, hcrash⟩ | ⟨-, f, s', -, -, hs', hreact⟩
  · rw [hs', leaves_ok]
    exact hreact.leaving (fun _ => rfl) hc
  · rw [hcrash]
    exact leaves_error
  · rw [hcrash]
    exact leaves_error
  · rw [hs', leaves_ok]
    exact hreact.leaving_of_queued (List.cons_ne_nil _ _) hc

theorem processAck_leaves (hc : c.Leaving) : Leaves (processAck sys m c) := by
  rcases processAck_cases sys m c with ⟨-, s', hs', hreact⟩ | ⟨-, -, m', hcrash⟩ |
    ⟨-, -, -, m', hcrash⟩ | ⟨-, -, f, blk, s', -, -, hs', hreact⟩
  · rw [hs', leaves_ok]
    exact hreact.leaving (fun _ => rfl) hc
  · rw [hcrash]
    exact leaves_error
  · rw [hcrash]
    exact leaves_error
  · rw [hs', leaves_ok]
    exact hreact.leaving_of_queued (List.cons_ne_nil _ _) hc

theorem processDatagram_leaves (datagram : Bytes) (hc : c.Leaving) :
    Leaves (processDatagram cfg sys m c datagram) := by
  rcases processDatagram_cases cfg sys m c datagram with ⟨-, hs⟩ | ⟨-, hs⟩ | ⟨-, hs⟩ | ⟨-, hs⟩ |
    ⟨-, hs⟩ | ⟨m', -, hs⟩
  · exact hs ▸ processData_leaves sys m _ _ hc
  · obtain ⟨s', hs', hreact⟩ := processError_reacts sys m c
    rw [hs, hs', leaves_ok]
    exact hreact.leaving_of_queued (List.cons_ne_nil _ _) hc
  · exact hs ▸ processAck_leaves sys m hc
  · exact hs ▸ processWrq_leaves cfg sys m _ _ hc
  · exact hs ▸ processRrq_leaves cfg sys m _ _ hc
  · exact hs ▸ leaves_ok.2 hc

end

/-! ## Runs -/

/-- A client that is kept once its queue was sent is not marked. -/
theorem keep_leaving {sys : Sys} {c d : Client} (h : keep sys c = some d) : d.Leaving := by
  rw [keep] at h
  split at h
  · cases h
  · next hlive =>
    cases h
    exact fun hmarked => absurd hmarked hlive

theorem walk_leaving {sys : Sys} {l : List Client} (h : ∀ c ∈ l, c.Leaving) :
    ∀ c ∈ Lib.walk (keep sys) false l, c.Leaving := by
  intro c hc
  rcases Lib.mem_walk.1 hc with ⟨d, -, hkept⟩ | hpassed
  · exact keep_leaving hkept
  · exact h c ((Lib.passed_sublist false l).subset hpassed)

/-- Flushing empties the queues of clients that are not marked, or removes them. -/
theorem sendPackets_leaving {sys : Sys} {srv : Server}
    (h : ∀ c ∈ srv.clientpool.clients, c.Leaving) (s : Socket) :
    ∀ c ∈ (srv.sendPackets sys s).1.clientpool.clients, c.Leaving := by
  rcases sendPackets_cases sys srv s with ⟨srv', hs, hflushed⟩ |
    ⟨srv', hs, pre, c, rest, idx, hstopped⟩
  · rw [hs, hflushed.clients]
    exact walk_leaving h
  · obtain ⟨n, hclients⟩ := hstopped.clients
    rw [hstopped.pool, List.forall_mem_append, List.forall_mem_cons] at h
    rw [hs, hclients, List.forall_mem_append, List.forall_mem_cons]
    exact ⟨walk_leaving h.1, h.2.1, h.2.2⟩

/-- No step leaves a client marked with nothing to send. -/
theorem step_leaving {cfg : Config} {srv srv' : Server} {i : Input} (hunarmed : srv.Unarmed)
    (h : ∀ c ∈ srv.clientpool.clients, c.Leaving) (hstep : step cfg srv i = .ok srv') :
    ∀ c ∈ srv'.clientpool.clients, c.Leaving := by
  obtain ⟨sys, event⟩ := i
  cases event with
  | check =>
    cases hstep
    rwa [Server.checkClients_unarmed hunarmed]
  | activity | hangup | unknown =>
    cases hstep
    exact h
  | writable s =>
    cases hstep
    rw [Server.destroyFailed_clientpool]
    exact sendPackets_leaving h s
  | readable s received =>
    cases received with
    | failed e =>
      cases hstep
      rw [Server.destroyFailed_clientpool]
      exact h
    | datagram src data =>
      obtain ⟨srv₁, c, st, hfound, hturn, rfl⟩ := step_readable_ok hstep
      have h₁ : ∀ c ∈ srv₁.clientpool.clients, c.Leaving :=
        Server.forall_findOrAllocateClient sys srv hfound h fun _ _ hmarked => nomatch hmarked
      rw [turn_receiving] at hturn
      intro d hd
      rcases ClientPool.mem_update hd with rfl | ⟨hd, -⟩
      · have hleaves := processDatagram_leaves cfg sys (srv₁.machine.callEvent .receivingPackets)
          (c := { c with bytestransferred := c.bytestransferred + receivedLength data }) data
          (h₁ c (Server.mem_of_findOrAllocateClient sys srv hfound))
        rw [hturn] at hleaves
        exact leaves_ok.1 hleaves
      · exact h₁ d hd

section

variable {cfg : Config} {machine : Machine} {socketpool : List Socket} {inputs : List Input}

theorem leaving_boot : (Server.boot machine socketpool).Leaving :=
  ⟨fun _ hc => absurd hc List.not_mem_nil, fun _ hc => absurd hc List.not_mem_nil⟩

/-- Before every step of a run, the clients that are marked have something queued. -/
theorem forall_pre_leaving : ∀ t ∈ Lib.trace (step cfg) (.boot machine socketpool) inputs,
    ∀ c ∈ t.pre.clientpool.clients, c.Leaving := fun t ht =>
  (Lib.forall_pre (Q := fun _ => True) Server.Leaving
    (fun _ _ _ h _ hs => ⟨step_unarmed h.unarmed hs, step_leaving h.unarmed h.clients hs⟩)
    leaving_boot (fun _ _ => trivial) t ht).clients

/-- In every run of the server, a client that is marked has something queued for it. -/
theorem run_leaving {srv : Server}
    (hrun : Lib.run (step cfg) (.boot machine socketpool) inputs = .ok srv) :
    ∀ c ∈ srv.clientpool.clients, c.destroy = true → c.packetqueue ≠ [] :=
  (Lib.run_rule (Q := fun _ => True) Server.Leaving
    (fun _ _ _ h _ hs => ⟨step_unarmed h.unarmed hs, step_leaving h.unarmed h.clients hs⟩)
    leaving_boot (fun _ _ => trivial) hrun).clients

end

/-- A client that has sent an ERROR is marked, and the ACK of it is queued. -/
theorem run_leaving_error :
    let srv := Sample.after [] [Sample.receive (errorBytes .undefined [])]
    srv.clientpool.clients.any Client.destroy = true ∧
      ∀ c ∈ srv.clientpool.clients, c.destroy = true → c.packetqueue ≠ [] :=
  ⟨by decide +kernel, run_leaving (Sample.run_after (by decide +kernel))⟩

end Nbstftp
