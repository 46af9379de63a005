import Nbstftp.Steps
import Mathlib.Data.Nat.Find

/-!
# Sending the queue of a client

`sendClient` sends the packets queued for a client up to the first one that
`sendto` fails for (`sendClient_cases`). If there is none, the queue is emptied
and the descriptor is no longer watched for writing; and if the client is marked
for destruction, its file is closed and it leaves the pool: that is what flushing
makes of a client (`keep`, `sendClient_ok`).
-/

namespace Nbstftp

/-- What a call sends: the descriptor, the address and the packet. -/
def Effect.sent : Effect → Option (Int × SockAddr × Bytes)
  | .sendto fd addr packet => some (fd, addr, packet)
  | _ => none

/-- What was sent so far. -/
def Machine.sent (m : Machine) : List (Int × SockAddr × Bytes) := m.effects.filterMap Effect.sent

/-- What is queued for a client, as it is to be sent. -/
def Client.packets (c : Client) : List (Int × SockAddr × Bytes) :=
  c.packetqueue.map fun pq => (c.s.fd, c.s.addr, pq.bytes)

/-- The calls made to send a packet to a client. -/
def Client.sending (c : Client) (pq : Packetqueue) : List Effect :=
  [.event .sendingPackets, .sendto c.s.fd c.s.addr pq.bytes] ++
    if pq.allocated ≠ 0 ∧ pq.allocated ≠ 2 then [.free pq.p.tok] else []

/-- Some calls made. -/
def Machine.emits (m : Machine) (es : List Effect) : Machine :=
  { m with effects := m.effects ++ es }

/-! ## What the calls send -/

namespace Machine

variable (m : Machine)

theorem sent_emits (es : List Effect) : (m.emits es).sent = m.sent ++ es.filterMap Effect.sent :=
  List.filterMap_append

theorem sent_emit (e : Effect) : (m.emit e).sent = m.sent ++ e.sent.toList := by
  rw [sent, emit, List.filterMap_append, sent]
  cases h : e.sent <;> simp [h]

@[simp] theorem sent_fclose (f : File) : (m.fclose f).sent = m.sent := by
  rw [fclose, sent_emit]
  exact List.append_nil _

end Machine

/-- Sending some packets of a queue sends these packets. -/
theorem Client.sent_sending (c : Client) (queue : List Packetqueue) :
    (queue.flatMap c.sending).filterMap Effect.sent =
      queue.map fun pq => (c.s.fd, c.s.addr, pq.bytes) := by
  have hsent : ∀ pq, (c.sending pq).filterMap Effect.sent = [(c.s.fd, c.s.addr, pq.bytes)] := by
    intro pq
    rw [sending]
    split <;> rfl
  induction queue with
  | nil => rfl
  | cons pq queue ih =>
    rw [List.flatMap_cons, List.filterMap_append, hsent, ih, List.map_cons, List.singleton_append]

/-! ## Releasing a client -/

/-- The buffers a client owns. -/
def Client.buffers (c : Client) : List Buffer :=
  (c.packetqueue.filter (·.allocated ≠ 0)).map (·.p) ++
    (c.lastpacket.toList.filter (·.allocated ≠ 0)).map (·.p) ++ c.blk.toList

namespace Machine

variable (m : Machine)

@[simp] theorem emits_nil : m.emits [] = m := by
  rw [emits, List.append_nil]

theorem emits_append (es es' : List Effect) : m.emits (es ++ es') = (m.emits es).emits es' := by
  rw [emits, emits, emits, List.append_assoc]

theorem emits_cons (e : Effect) (es : List Effect) : (m.emit e).emits es = m.emits (e :: es) := by
  rw [emits, emits, emit, List.append_assoc, List.singleton_append]

theorem emits_free (b : Buffer) : m.emits [.free b.tok] = m.free b := rfl

/-- Releasing buffers one by one. -/
theorem foldl_free (queue : List Packetqueue) :
    queue.foldl (fun m pq => m.free pq.p) m =
      m.emits ((queue.map (·.p)).map fun b => .free b.tok) := by
  induction queue generalizing m with
  | nil => exact m.emits_nil.symm
  | cons pq queue ih =>
    rw [List.foldl_cons, ih, List.map_cons, List.map_cons, ← List.singleton_append, emits_append,
      emits_free]

end Machine

namespace Server

theorem freeLastpacket_eq (m : Machine) (c : Client) :
    freeLastpacket m c = m.emits (((c.lastpacket.toList.filter (·.allocated ≠ 0)).map (·.p)).map
      fun b => .free b.tok) := by
  rw [freeLastpacket]
  cases c.lastpacket with
  | none => exact m.emits_nil.symm
  | some last =>
    by_cases ha : last.allocated = 0
    · simp [ha]
    · simpa [ha] using (m.emits_free last.p).symm

/-- Releasing a client releases the buffers it owns. -/
theorem freeClient_eq (m : Machine) (c : Client) :
    freeClient m c = m.emits (c.buffers.map fun b => .free b.tok) := by
  rw [Client.buffers, List.map_append, List.map_append, Machine.emits_append,
    Machine.emits_append, ← freeLastpacket_eq, ← Machine.foldl_free, freeClient]
  cases c.blk with
  | none => exact (Machine.emits_nil _).symm
  | some blk => rfl

/-- A client is released with its socket. -/
theorem removeClient_machine (srv : Server) (c : Client) :
    (srv.removeClient c).machine = srv.machine.emits
      (.free c.s.bindaddr.tok :: .free c.s.packet :: c.buffers.map fun b => .free b.tok) := by
  rw [removeClient, freeClient_eq, ← Machine.emits_cons, ← Machine.emits_cons]
  rfl

end Server

/-- Releasing buffers sends nothing. -/
theorem filterMap_sent_free (bs : List Buffer) :
    (bs.map fun b => Effect.free b.tok).filterMap Effect.sent = [] := by
  rw [List.filterMap_map, List.filterMap_eq_nil_iff]
  exact fun b _ => rfl

theorem Server.sent_removeClient (srv : Server) (c : Client) :
    (srv.removeClient c).machine.sent = srv.machine.sent := by
  rw [removeClient_machine, Machine.sent_emits]
  exact congrArg (srv.machine.sent ++ ·) (filterMap_sent_free c.buffers) |>.trans
    (List.append_nil _)

theorem Server.sent_closeFile (m : Machine) (c : Client) : (closeFile m c).sent = m.sent := by
  rw [closeFile]
  cases c.f with
  | none => rfl
  | some f => exact m.sent_fclose f

/-! ## One client -/

/-- Every packet queued for a client can be sent. -/
def Client.Sends (sys : Sys) (c : Client) : Prop :=
  ∀ idx < c.packetqueue.length, (sys.sendto c.ptr idx).isSome

instance (sys : Sys) (c : Client) : Decidable (c.Sends sys) :=
  inferInstanceAs (Decidable (∀ idx < c.packetqueue.length, _))

/-- The first packet of a client that cannot be sent is the `idx`-th. -/
structure Client.FailsAt (sys : Sys) (c : Client) (idx : ℕ) : Prop where
  queued : idx < c.packetqueue.length
  fails : sys.sendto c.ptr idx = none
  first : ∀ i < idx, (sys.sendto c.ptr i).isSome

theorem Client.sends_or_failsAt (sys : Sys) (c : Client) :
    c.Sends sys ∨ ∃ idx, c.FailsAt sys idx := by
  by_cases h : ∃ idx, idx < c.packetqueue.length ∧ sys.sendto c.ptr idx = none
  · obtain ⟨hqueued, hfails⟩ := Nat.find_spec h
    refine .inr ⟨Nat.find h, hqueued, hfails, fun i hi => ?_⟩
    exact Option.isSome_iff_ne_none.2 fun hi' =>
      Nat.find_min h hi ⟨Nat.lt_trans hi hqueued, hi'⟩
  · exact .inl fun idx hidx => Option.isSome_iff_ne_none.2 fun h' => h ⟨idx, hidx, h'⟩

/-- The count of bytes sent, after a queue was sent from its `idx`-th packet on. -/
def Client.sentBytes (sys : Sys) (c : Client) (queue : List (Packetqueue × ℕ)) : Int :=
  queue.foldl (fun n pq => n + ((sys.sendto c.ptr pq.2).getD 0 : ℕ)) c.bytestransferred

/-- A client whose queue was sent. -/
def Client.flushed (sys : Sys) (c : Client) : Client :=
  { c with
    packetqueue := []
    bytestransferred := c.sentBytes sys c.packetqueue.zipIdx
    s := { c.s with flags := SF_READABLE } }

section

variable {sys : Sys}

theorem sendPacket_ok {m : Machine} {c : Client} {pq : Packetqueue} {k sendlen : ℕ}
    (h : sys.sendto c.ptr k = some sendlen) :
    Server.sendPacket sys (m, c) (pq, k) =
      .ok (m.emits (c.sending pq),
        { c with bytestransferred := c.bytestransferred + sendlen }) := by
  simp only [Server.sendPacket, h, Client.sending, Machine.emits_append]
  split <;> simp [Machine.emits, Machine.emit, Machine.callEvent, Machine.free]

theorem sendPacket_error {m : Machine} {c : Client} {pq : Packetqueue} {k : ℕ}
    (h : sys.sendto c.ptr k = none) :
    Server.sendPacket sys (m, c) (pq, k) = .error (m.emits [.event .sendingPackets], c) := by
  simp only [Server.sendPacket, h]
  rfl

/-- Sending a queue from its `k`-th packet on, if all of it can be sent. -/
theorem run_sendPacket_ok {queue : List Packetqueue} {k : ℕ} {m : Machine} {c : Client}
    (h : ∀ idx < queue.length, (sys.sendto c.ptr (k + idx)).isSome) :
    Lib.run (Server.sendPacket sys) (m, c) (queue.zipIdx k) =
      .ok (m.emits (queue.flatMap c.sending),
        { c with bytestransferred := c.sentBytes sys (queue.zipIdx k) }) := by
  induction queue generalizing k m c with
  | nil => rw [List.flatMap_nil, m.emits_nil]; rfl
  | cons pq queue ih =>
    obtain ⟨sendlen, hsendlen⟩ := Option.isSome_iff_exists.1 (h 0 (Nat.succ_pos _))
    rw [Nat.add_zero] at hsendlen
    have hrest := ih (k := k + 1) (m := m.emits (c.sending pq))
      (c := { c with bytestransferred := c.bytestransferred + sendlen })
      fun idx hidx => by
        have := h (idx + 1) (Nat.succ_lt_succ hidx)
        rwa [Nat.add_comm idx 1, ← Nat.add_assoc] at this
    rw [List.zipIdx_cons, Lib.run_cons_ok (sendPacket_ok hsendlen), hrest, List.flatMap_cons,
      Machine.emits_append]
    simp only [Client.sentBytes, List.foldl_cons, hsendlen]
    rfl

/-- Sending a queue, if its `idx`-th packet is the first that cannot be sent. -/
theorem run_sendPacket_error {queue : List Packetqueue} {idx k : ℕ} {m : Machine} {c : Client}
    (hidx : idx < queue.length) (hfails : sys.sendto c.ptr (k + idx) = none)
    (hfirst : ∀ i < idx, (sys.sendto c.ptr (k + i)).isSome) :
    ∃ n, Lib.run (Server.sendPacket sys) (m, c) (queue.zipIdx k) =
      .error (m.emits ((queue.take idx).flatMap c.sending ++ [.event .sendingPackets]),
        { c with bytestransferred := n }) := by
  induction queue generalizing idx k m c with
  | nil => exact absurd hidx (Nat.not_lt_zero _)
  | cons pq queue ih =>
    rw [List.zipIdx_cons]
    cases idx with
    | zero =>
      rw [Nat.add_zero] at hfails
      refine ⟨c.bytestransferred, ?_⟩
      rw [Lib.run, sendPacket_error hfails]
      rfl
    | succ idx =>
      -- The head is sent, and the rest is a queue whose indices are one higher.
      obtain ⟨sendlen, hsendlen⟩ := Option.isSome_iff_exists.1 (hfirst 0 (Nat.succ_pos _))
      rw [Nat.add_zero] at hsendlen
      have hshift : ∀ i, k + 1 + i = k + (i + 1) := fun i => by omega
      obtain ⟨n, hn⟩ := ih (k := k + 1) (m := m.emits (c.sending pq))
        (c := { c with bytestransferred := c.bytestransferred + sendlen })
        (Nat.lt_of_succ_lt_succ hidx) (by rw [hshift]; exact hfails)
        fun i hi => by rw [hshift]; exact hfirst (i + 1) (Nat.succ_lt_succ hi)
      refine ⟨n, ?_⟩
      rw [Lib.run_cons_ok (sendPacket_ok hsendlen), hn, List.take_succ_cons, List.flatMap_cons,
        List.append_assoc, ← Machine.emits_append]
      rfl

/-- What flushing makes of a client of the pool. -/
def keep (sys : Sys) (c : Client) : Option Client :=
  if c.destroy then none else some (c.flushed sys)

theorem keep_eq_none {c : Client} : keep sys c = none ↔ c.destroy = true := by
  rw [keep]
  cases c.destroy <;> simp

namespace Server

variable (srv : Server) (c : Client)

/-- The machine after the queue of a client was sent. -/
def cleared : Machine :=
  (setSocketStatus (srv.machine.emits (c.packetqueue.flatMap c.sending)) c.s SF_READABLE).1

variable (sys) in
/-- The server after the queue of a client was sent: it is kept, or leaves the pool. -/
def afterSending : Server :=
  if c.destroy then
    (srv.put (closeFile (srv.cleared c) (c.flushed sys), c.flushed sys)).removeClient
      (c.flushed sys)
  else srv.put (srv.cleared c, c.flushed sys)

/-- The server after sending to a client failed at the `idx`-th packet of its queue. -/
def afterFailing (idx : ℕ) (n : Int) : Server :=
  srv.put (srv.machine.emits
    ((c.packetqueue.take idx).flatMap c.sending ++ [.event .sendingPackets]),
    { c with bytestransferred := n })

variable {srv c}

theorem sendClient_ok (h : c.Sends sys) : sendClient sys srv c = .ok (srv.afterSending sys c) := by
  rw [sendClient, run_sendPacket_ok fun idx hidx => by rw [Nat.zero_add]; exact h idx hidx]
  rfl

theorem sendClient_error {idx : ℕ} (h : c.FailsAt sys idx) :
    ∃ n, sendClient sys srv c = .error (srv.afterFailing c idx n) := by
  obtain ⟨n, hn⟩ := run_sendPacket_error (k := 0) (m := srv.machine) h.queued
    (by rw [Nat.zero_add]; exact h.fails) fun i hi => by rw [Nat.zero_add]; exact h.first i hi
  exact ⟨n, by rw [sendClient, hn]; rfl⟩

section

variable {pre rest : List Client}

theorem afterSending_clients (hpool : srv.clientpool.clients = pre ++ c :: rest) :
    (srv.afterSending sys c).clientpool.clients = pre ++ ((keep sys c).toList ++ rest) := by
  have hput : ∀ m, (srv.put (m, c.flushed sys)).clientpool.clients = pre ++ c.flushed sys :: rest :=
    fun m => ClientPool.update_eq hpool rfl
  rw [afterSending, keep]
  split
  · exact ClientPool.remove_eq (hput _)
  · exact hput _

theorem afterFailing_clients (hpool : srv.clientpool.clients = pre ++ c :: rest) (idx : ℕ)
    (n : Int) : (srv.afterFailing c idx n).clientpool.clients =
      pre ++ { c with bytestransferred := n } :: rest :=
  ClientPool.update_eq hpool rfl

end

theorem afterSending_sent :
    (srv.afterSending sys c).machine.sent = srv.machine.sent ++ c.packets := by
  have hcleared : (srv.cleared c).sent = srv.machine.sent ++ c.packets := by
    rw [Client.packets, ← Client.sent_sending, ← Machine.sent_emits]
    rfl
  rw [afterSending]
  split
  · rw [sent_removeClient, ← hcleared]
    exact sent_closeFile _ _
  · exact hcleared

theorem afterFailing_sent {idx : ℕ} {n : Int} :
    (srv.afterFailing c idx n).machine.sent = srv.machine.sent ++ c.packets.take idx := by
  rw [Client.packets, ← List.map_take, ← Client.sent_sending]
  refine (Machine.sent_emits _ _).trans ?_
  rw [List.filterMap_append]
  exact congrArg (srv.machine.sent ++ ·) (List.append_nil _)

end Server

end

/-! ## The pool -/

/-- Flushing a pool, client by client, with a relation `R` of the clients so far to
    the server: it comes to the end, or to a packet that cannot be sent. -/
theorem sendPackets_rule (sys : Sys) (srv : Server) (s : Socket) (R : List Client → Server → Prop)
    (fails : Server → Prop) (h₀ : R [] srv)
    (hskip : ∀ pre c rest srv', srv.clientpool.clients = pre ++ c :: rest →
      Lib.skips (keep sys) false pre = true → R pre srv' → R (pre ++ [c]) srv')
    (hok : ∀ pre c rest srv', srv.clientpool.clients = pre ++ c :: rest →
      Lib.skips (keep sys) false pre = false →
      srv'.clientpool.clients = Lib.walk (keep sys) false pre ++ c :: rest → R pre srv' →
      c.Sends sys → R (pre ++ [c]) (srv'.afterSending sys c))
    (herr : ∀ pre c rest srv' idx n, srv.clientpool.clients = pre ++ c :: rest →
      Lib.skips (keep sys) false pre = false →
      srv'.clientpool.clients = Lib.walk (keep sys) false pre ++ c :: rest → R pre srv' →
      c.FailsAt sys idx → fails (srv'.afterFailing c idx n)) :
    (∃ srv', srv.sendPackets sys s = (srv', 0) ∧
      srv'.clientpool.clients = Lib.walk (keep sys) false srv.clientpool.clients ∧
      R srv.clientpool.clients srv') ∨
    ∃ srv', srv.sendPackets sys s = (srv', -1) ∧ fails srv' := by
  rcases Lib.foreach_rule (·.clientpool.clients) (Server.sendClient sys) (keep sys) R fails h₀
    hskip (fun pre c rest srv' hl hk hpool hR => by
      rcases c.sends_or_failsAt sys with hsends | ⟨idx, hfails⟩
      · exact .inl ⟨_, Server.sendClient_ok hsends, Server.afterSending_clients hpool,
          hok pre c rest srv' hl hk hpool hR hsends⟩
      · obtain ⟨n, hn⟩ : ∃ n, Server.sendClient sys srv' c = .error (srv'.afterFailing c idx n) :=
          Server.sendClient_error hfails
        exact .inr ⟨_, hn, herr pre c rest srv' idx n hl hk hpool hR hfails⟩) with
    ⟨srv', hs, hclients, hR⟩ | ⟨srv', hs, hfails⟩
  · exact .inl ⟨srv', by rw [Server.sendPackets, hs], hclients, hR⟩
  · exact .inr ⟨srv', by rw [Server.sendPackets, hs], hfails⟩

/-- What was sent once some clients were visited. -/
theorem visited_packets {sys : Sys} {pre : List Client} {c : Client} :
    (Lib.visited (keep sys) false (pre ++ [c])).flatMap Client.packets =
      (Lib.visited (keep sys) false pre).flatMap Client.packets ++
        if Lib.skips (keep sys) false pre then [] else c.packets := by
  rw [Lib.visited_append, List.flatMap_append]
  cases Lib.skips (keep sys) false pre <;> simp [Lib.visited]

/-- Flushing a pool came to its end. -/
structure Flushed (sys : Sys) (srv srv' : Server) : Prop where
  sends : ∀ c ∈ Lib.visited (keep sys) false srv.clientpool.clients, c.Sends sys
  clients : srv'.clientpool.clients = Lib.walk (keep sys) false srv.clientpool.clients
  sent : srv'.machine.sent = srv.machine.sent ++
    (Lib.visited (keep sys) false srv.clientpool.clients).flatMap Client.packets

/-- Flushing a pool stopped at the `idx`-th packet of a client, behind some clients. -/
structure Stopped (sys : Sys) (srv srv' : Server) (pre : List Client) (c : Client)
    (rest : List Client) (idx : ℕ) : Prop where
  pool : srv.clientpool.clients = pre ++ c :: rest
  reached : Lib.skips (keep sys) false pre = false
  sends : ∀ d ∈ Lib.visited (keep sys) false pre, d.Sends sys
  fails : c.FailsAt sys idx
  clients : ∃ n, srv'.clientpool.clients =
    Lib.walk (keep sys) false pre ++ { c with bytestransferred := n } :: rest
  sent : srv'.machine.sent = srv.machine.sent ++
    (Lib.visited (keep sys) false pre).flatMap Client.packets ++ c.packets.take idx

/-- What comes of flushing a pool. -/
theorem sendPackets_cases (sys : Sys) (srv : Server) (s : Socket) :
    (∃ srv', srv.sendPackets sys s = (srv', 0) ∧ Flushed sys srv srv') ∨
    ∃ srv', srv.sendPackets sys s = (srv', -1) ∧
      ∃ pre c rest idx, Stopped sys srv srv' pre c rest idx := by
  rcases sendPackets_rule sys srv s
    (fun pre srv' => (∀ d ∈ Lib.visited (keep sys) false pre, d.Sends sys) ∧
      srv'.machine.sent = srv.machine.sent ++
        (Lib.visited (keep sys) false pre).flatMap Client.packets)
    (fun srv' => ∃ pre c rest idx, Stopped sys srv srv' pre c rest idx)
    ⟨fun d hd => absurd hd List.not_mem_nil, (List.append_nil _).symm⟩
    (fun pre c rest srv' _ hk hR => by
      rw [visited_packets, Lib.visited_append, hk, if_pos rfl, List.append_nil]
      simpa [Lib.visited] using hR)
    (fun pre c rest srv' _ hk _ hR hsends => by
      refine ⟨fun d hd => ?_, ?_⟩
      · rw [Lib.visited_append, hk] at hd
        rcases List.mem_append.1 hd with hd | hd
        · exact hR.1 d hd
        · rw [List.mem_singleton.1 hd]
          exact hsends
      · rw [Server.afterSending_sent, hR.2, visited_packets, hk, List.append_assoc]
        rfl)
    (fun pre c rest srv' idx n hl hk hpool hR hfails =>
      ⟨pre, c, rest, idx, hl, hk, hR.1, hfails, ⟨n, Server.afterFailing_clients hpool idx n⟩,
        by rw [Server.afterFailing_sent, hR.2]⟩) with
    ⟨srv', hs, hclients, hsends, hsent⟩ | hstopped
  · exact .inl ⟨srv', hs, hsends, hclients, hsent⟩
  · exact .inr hstopped

/-- What sending leaves true of a client, flushing leaves true of the clients. -/
theorem sendPackets_forall {sys : Sys} {srv : Server} {P : Client → Prop}
    (hsent : ∀ c n, P c → P { c with bytestransferred := n })
    (hflushed : ∀ c, P c → P (c.flushed sys)) (h : ∀ c ∈ srv.clientpool.clients, P c)
    (s : Socket) : ∀ c ∈ (srv.sendPackets sys s).1.clientpool.clients, P c := by
  have hkeep : ∀ {c d}, P c → keep sys c = some d → P d := fun {c d} hc hd => by
    rw [keep] at hd
    split at hd
    · cases hd
    · exact Option.some.inj hd ▸ hflushed c hc
  have hwalk : ∀ {l : List Client}, (∀ c ∈ l, P c) → ∀ c ∈ Lib.walk (keep sys) false l, P c := by
    intro l hl c hc
    rcases Lib.mem_walk.1 hc with ⟨d, hd, hdc⟩ | hc
    · exact hkeep (hl d ((Lib.visited_sublist false l).subset hd)) hdc
    · exact hl c ((Lib.passed_sublist false l).subset hc)
  rcases sendPackets_cases sys srv s with ⟨srv', hs, hflushed⟩ |
    ⟨srv', hs, pre, c, rest, idx, hstopped⟩
  · rw [hs, hflushed.clients]
    exact hwalk h
  · obtain ⟨n, hclients⟩ := hstopped.clients
    rw [hstopped.pool] at h
    rw [hs, hclients]
    intro d hd
    -- It was visited, or it is the one that failed, or it comes after that.
    rcases List.mem_append.1 hd with hd | hd
    · exact hwalk (fun e he => h e (List.mem_append_left _ he)) d hd
    rcases List.mem_cons.1 hd with rfl | hd
    · exact hsent c n (h c (List.mem_append_right _ List.mem_cons_self))
    · exact h d (List.mem_append_right _ (List.mem_cons_of_mem c hd))

end Nbstftp
