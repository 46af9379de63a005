import Nbstftp.Flush

/-!
# Failing to send

When `sendto` fails for a packet, flushing the queues stops there, for all
clients of the pool, and whatever socket was ready.

* The queue of the client it fails for is left as it was, with the packets
  already sent (and released): the queues are what was not sent yet if and only
  if it fails for the first packet of a client (`consistent_iff`).
* A failure for a client of another descriptor keeps the clients of a descriptor
  from being sent to, and has its socket destroyed: they are not concerned if and
  only if there is no failure at all and none of them is passed over
  (`isolated_iff`).
-/

namespace Nbstftp

/-- The client that flushing the queues fails for, if any. -/
def Server.failing (srv : Server) (sys : Sys) : Option Client :=
  (Lib.visited (keep sys) false srv.clientpool.clients).find? fun c => ¬c.Sends sys

/-- The clients that are removed as they are flushed, before a failure. -/
def Server.finished (sys : Sys) (srv : Server) : List Client :=
  ((Lib.visited (keep sys) false srv.clientpool.clients).takeWhile fun c => c.Sends sys).filter
    (·.destroy)

section

variable {sys : Sys} {srv srv' : Server} {pre rest : List Client} {c : Client} {idx : ℕ}

theorem Client.FailsAt.not_sends (h : c.FailsAt sys idx) : ¬c.Sends sys := fun hsends => by
  have hsome := hsends idx h.queued
  rw [h.fails] at hsome
  cases hsome

theorem Flushed.failing (h : Flushed sys srv srv') : srv.failing sys = none :=
  List.find?_eq_none.2 fun c hc => by simpa using h.sends c hc

theorem Stopped.failing (h : Stopped sys srv srv' pre c rest idx) :
    srv.failing sys = some c := by
  have hnone : (Lib.visited (keep sys) false pre).find? (fun c => ¬c.Sends sys) = none :=
    List.find?_eq_none.2 fun d hd => by simpa using h.sends d hd
  rw [Server.failing, h.pool, Lib.visited_append, h.reached, List.find?_append, hnone,
    Option.none_or, Lib.visited, List.find?_cons_of_pos (by simpa using h.fails.not_sends)]

theorem Server.mem_finished (hc : c ∈ srv.finished sys) :
    c ∈ srv.clientpool.clients ∧ c.destroy = true :=
  ⟨(Lib.visited_sublist false _).subset
    ((List.takeWhile_sublist _).subset (List.mem_filter.1 hc).1), (List.mem_filter.1 hc).2⟩

/-- All that are visited are sent to, up to the one that fails. -/
theorem takeWhile_sends {l : List Client} (h : ∀ d ∈ l, d.Sends sys) :
    l.takeWhile (fun c => c.Sends sys) = l :=
  List.takeWhile_eq_self_iff.2 fun d hd => decide_eq_true (h d hd)

theorem Server.finished_of_failsAt (hpool : srv.clientpool.clients = pre ++ c :: rest)
    (hk : Lib.skips (keep sys) false pre = false)
    (hsends : ∀ d ∈ Lib.visited (keep sys) false pre, d.Sends sys) (hfails : c.FailsAt sys idx) :
    srv.finished sys = (Lib.visited (keep sys) false pre).filter (·.destroy) := by
  rw [finished, hpool, Lib.visited_append, hk, Lib.visited,
    List.takeWhile_append_of_pos fun d hd => decide_eq_true (hsends d hd),
    List.takeWhile_cons_of_neg (by simpa using hfails.not_sends), List.append_nil]

end

/-! ## The queues left -/

/-- What became of a client: how many packets of its queue were sent, and whether it
    stays in the pool. -/
structure Account where
  client : Client
  sent : ℕ
  stays : Bool

/-- By these accounts, what is queued is what was not sent yet, in order, for the
    clients that stay, and nothing for the others. -/
structure Consistent (srv srv' : Server) (accounts : List Account) : Prop where
  clients : accounts.map Account.client = srv.clientpool.clients
  sent : srv'.machine.sent =
    srv.machine.sent ++ accounts.flatMap fun a => a.client.packets.take a.sent
  left : srv'.clientpool.clients.map (fun c => (c.identity, c.packetqueue)) =
    (accounts.filter Account.stays).map fun a =>
      (a.client.identity, a.client.packetqueue.drop a.sent)
  gone : ∀ a ∈ accounts, a.stays = false → a.client.packetqueue.length ≤ a.sent

/-- The count of packets queued for some clients. -/
def load (l : List Client) : ℕ := (l.flatMap Client.packetqueue).length

theorem load_cons (c : Client) (l : List Client) :
    load (c :: l) = c.packetqueue.length + load l := by
  rw [load, List.flatMap_cons, List.length_append, load]

theorem load_append (l l' : List Client) : load (l ++ l') = load l + load l' := by
  rw [load, List.flatMap_append, List.length_append, load, load]

theorem length_flatMap_packets (l : List Client) : (l.flatMap Client.packets).length = load l := by
  rw [List.length_flatMap, load, List.length_flatMap]
  exact congrArg List.sum (List.map_congr_left fun c _ => List.length_map _)

/-- Every packet is sent or left, for the clients that stay; and sent for the others. -/
theorem length_accounts {accounts : List Account}
    (hgone : ∀ a ∈ accounts, a.stays = false → a.client.packetqueue.length ≤ a.sent) :
    (accounts.flatMap fun a => a.client.packets.take a.sent).length +
        ((accounts.filter Account.stays).flatMap fun a =>
          a.client.packetqueue.drop a.sent).length =
      load (accounts.map Account.client) := by
  induction accounts with
  | nil => rfl
  | cons a accounts ih =>
    have hrest := ih fun b hb => hgone b (List.mem_cons_of_mem a hb)
    have hlen : (a.client.packets.take a.sent).length =
        min a.sent a.client.packetqueue.length := by
      rw [List.length_take, Client.packets, List.length_map]
    rw [List.flatMap_cons, List.length_append, hlen, List.map_cons, load_cons]
    cases hstays : a.stays with
    | true =>
      rw [List.filter_cons_of_pos hstays, List.flatMap_cons, List.length_append, List.length_drop]
      omega
    | false =>
      have hall := hgone a List.mem_cons_self hstays
      rw [List.filter_cons_of_neg (by simp [hstays])]
      omega

section

variable {sys : Sys} {srv srv' : Server}

/-- Each packet is counted once: among those sent or among those left. -/
theorem Consistent.load {accounts : List Account} (h : Consistent srv srv' accounts) :
    srv'.machine.sent.length + load srv'.clientpool.clients =
      srv.machine.sent.length + load srv.clientpool.clients := by
  have hleft : Nbstftp.load srv'.clientpool.clients =
      ((accounts.filter Account.stays).flatMap fun a =>
        a.client.packetqueue.drop a.sent).length := by
    have hleft := congrArg (fun l => (l.flatMap fun x : Identity × List Packetqueue => x.2).length)
      h.left
    simpa only [List.flatMap_map, Nbstftp.load] using hleft
  rw [h.sent, hleft, ← h.clients, List.length_append, Nat.add_assoc, length_accounts h.gone]

variable (sys) in
/-- What a walk leaves is what was not sent for it. -/
theorem load_walk (skip : Bool) (l : List Client) :
    load (Lib.walk (keep sys) skip l) +
      ((Lib.visited (keep sys) skip l).flatMap Client.packets).length = load l := by
  rw [length_flatMap_packets]
  induction l generalizing skip with
  | nil => rfl
  | cons c l ih =>
    cases skip with
    | true =>
      have hrest := ih false
      rw [Lib.walk, Lib.visited, load_cons, load_cons]
      omega
    | false =>
      have hrest := ih (keep sys c).isNone
      have hkeep : load (keep sys c).toList = 0 := by
        rw [keep]
        split <;> rfl
      rw [Lib.walk, Lib.visited, load_append, hkeep, load_cons, load_cons]
      omega

variable (sys) in
/-- A walk in accounts: what is visited is sent in full, the rest is not sent. -/
theorem exists_accounts (skip : Bool) (l : List Client) :
    ∃ accounts : List Account, accounts.map Account.client = l ∧
      (accounts.flatMap fun a => a.client.packets.take a.sent) =
        (Lib.visited (keep sys) skip l).flatMap Client.packets ∧
      (Lib.walk (keep sys) skip l).map (fun c => (c.identity, c.packetqueue)) =
        (accounts.filter Account.stays).map
          (fun a => (a.client.identity, a.client.packetqueue.drop a.sent)) ∧
      ∀ a ∈ accounts, a.stays = false → a.client.packetqueue.length ≤ a.sent := by
  induction l generalizing skip with
  | nil => exact ⟨[], rfl, rfl, rfl, fun a ha => absurd ha List.not_mem_nil⟩
  | cons c l ih =>
    cases skip with
    | true =>
      -- Passed over: nothing is sent.
      obtain ⟨accounts, hclients, hsent, hleft, hgone⟩ := ih false
      refine ⟨⟨c, 0, true⟩ :: accounts, congrArg (c :: ·) hclients, hsent, ?_, ?_⟩
      · exact congrArg ((c.identity, c.packetqueue) :: ·) hleft
      · exact List.forall_mem_cons.2 ⟨nofun, hgone⟩
    | false =>
      obtain ⟨accounts, hclients, hsent, hleft, hgone⟩ := ih (keep sys c).isNone
      refine ⟨⟨c, c.packetqueue.length, !c.destroy⟩ :: accounts, congrArg (c :: ·) hclients,
        ?_, ?_, ?_⟩
      · have htake : c.packets.take c.packetqueue.length = c.packets :=
          List.take_of_length_le (Nat.le_of_eq (List.length_map _))
        rw [List.flatMap_cons, hsent, Lib.visited, List.flatMap_cons, htake]
      · rw [Lib.walk, List.map_append, hleft, keep]
        cases hd : c.destroy with
        | true => simp
        | false => simp [Client.flushed, Client.identity]
      · exact List.forall_mem_cons.2 ⟨fun _ => Nat.le_refl _, hgone⟩

/-- When a `sendto` fails, the queues left are what was not sent yet, exactly if it is
    the first one for its client. -/
theorem consistent_iff (s : Socket) (h : (srv.sendPackets sys s).2 = -1) :
    (∃ accounts, Consistent srv (srv.sendPackets sys s).1 accounts) ↔
      ∀ c ∈ srv.failing sys, sys.sendto c.ptr 0 = none := by
  rcases sendPackets_cases sys srv s with ⟨srv', hs, -⟩ | ⟨srv', hs, pre, c, rest, idx, hstopped⟩
  · rw [hs] at h
    cases h
  obtain ⟨n, hclients⟩ := hstopped.clients
  rw [hs, hstopped.failing]
  constructor
  · -- The packets sent of the queue that is left are counted twice.
    rintro ⟨accounts, hconsistent⟩ d hd
    have hload := hconsistent.load
    have hwalk := load_walk sys false pre
    have htake : (c.packets.take idx).length = idx := by
      rw [List.length_take, Client.packets, List.length_map]
      exact Nat.min_eq_left (Nat.le_of_lt hstopped.fails.queued)
    rw [hclients, hstopped.pool, hstopped.sent, load_append, load_append, load_cons, load_cons,
      List.length_append, List.length_append, htake] at hload
    have hidx : idx = 0 := by
      simp only at hload
      omega
    cases hd
    exact hidx ▸ hstopped.fails.fails
  · -- The queue of the client is whole: its account is that nothing was sent.
    intro hfirst
    have hidx : idx = 0 := by
      by_contra hidx
      have hsome := hstopped.fails.first 0 (Nat.pos_of_ne_zero hidx)
      rw [hfirst c rfl] at hsome
      cases hsome
    subst hidx
    obtain ⟨accounts, haccounts, hsent, hleft, hgone⟩ := exists_accounts sys false pre
    refine ⟨accounts ++ (c :: rest).map fun d => ⟨d, 0, true⟩, ?_, ?_, ?_, ?_⟩
    · rw [List.map_append, haccounts, List.map_map, hstopped.pool]
      exact congrArg (pre ++ ·) (List.map_id' _)
    · rw [hstopped.sent, List.flatMap_append, hsent, List.flatMap_map, ← List.append_assoc]
      simp
    · rw [hclients, List.map_append, hleft, List.filter_append, List.map_append]
      congr 1
      rw [List.filter_eq_self.2 (by simp)]
      simp [Client.identity]
    · intro a ha
      rcases List.mem_append.1 ha with ha | ha
      · exact hgone a ha
      · obtain ⟨d, -, rfl⟩ := List.mem_map.1 ha
        intro hgone
        cases hgone

end

/-- The system on which only the first packet of each queue can be sent. -/
def Sample.sendsFirst : Sys :=
  { Sys.ideal with sendto := fun _ idx => if idx = 0 then some 4 else none }

/-- The system on which nothing can be sent. -/
def Sample.sendsNothing : Sys := { Sys.ideal with sendto := fun _ _ => none }

/-- Two packets of which none is sent stay queued. -/
theorem consistent_sample :
    ∃ accounts, Consistent
      (Sample.server (Sample.client 1 false [ackBytes 0, ackBytes 1]) (Sample.client 2 false [])
        (by decide))
      ((Sample.server (Sample.client 1 false [ackBytes 0, ackBytes 1]) (Sample.client 2 false [])
        (by decide)).sendPackets Sample.sendsNothing Sample.socket).1 accounts :=
  (consistent_iff Sample.socket (by decide +kernel)).2 fun _ _ => rfl

/-- Two packets of which the first one is sent stay queued, too. -/
theorem not_consistent :
    ¬∀ sys srv s, (Server.sendPackets sys srv s).2 = -1 →
      ∃ accounts, Consistent srv (srv.sendPackets sys s).1 accounts := by
  intro h
  obtain ⟨accounts, hconsistent⟩ := h Sample.sendsFirst
    (Sample.server (Sample.client 1 false [ackBytes 0, ackBytes 1]) (Sample.client 2 false [])
      (by decide)) Sample.socket (by decide +kernel)
  exact absurd hconsistent.load (by decide +kernel)

/-! ## The clients of other descriptors -/

/-- Flushing on behalf of a socket succeeds, so that the socket is not destroyed, and
    sends what is queued for the clients of its descriptor. -/
structure Isolated (srv : Server) (s : Socket) (r : Server × Int) : Prop where
  result : r.2 = 0
  kept : destroyFailed s r = r.1
  sent : r.1.machine.sent.filter (·.1 = s.fd) = srv.machine.sent.filter (·.1 = s.fd) ++
    (srv.clientpool.clients.filter (·.s.fd = s.fd)).flatMap Client.packets

/-- What is queued for a client, if it is of a descriptor. -/
theorem filter_packets (fd : Int) (c : Client) :
    c.packets.filter (·.1 = fd) = if c.s.fd = fd then c.packets else [] := by
  rw [Client.packets, List.filter_map]
  by_cases hfd : c.s.fd = fd <;> simp [hfd, Function.comp_def]

theorem filter_flatMap_packets (fd : Int) (l : List Client) :
    (l.flatMap Client.packets).filter (·.1 = fd) =
      l.flatMap fun c => if c.s.fd = fd then c.packets else [] := by
  rw [List.filter_flatMap]
  exact List.flatMap_congr fun c _ => filter_packets fd c

theorem flatMap_filter_packets (fd : Int) (l : List Client) :
    (l.filter (·.s.fd = fd)).flatMap Client.packets =
      l.flatMap fun c => if c.s.fd = fd then c.packets else [] := by
  induction l with
  | nil => rfl
  | cons c l ih =>
    by_cases hfd : c.s.fd = fd <;> simp [hfd, ih]

section

variable {sys : Sys} {srv : Server}

/-- If every packet of the clients of a descriptor can be sent, flushing on its behalf
    succeeds and sends them exactly if it fails for no other client, and passes none of
    them over with packets queued. -/
theorem isolated_iff (s : Socket)
    (h : ∀ c ∈ srv.clientpool.clients, c.s.fd = s.fd → c.Sends sys) :
    Isolated srv s (srv.sendPackets sys s) ↔
      (∀ c ∈ Lib.visited (keep sys) false srv.clientpool.clients, c.s.fd ≠ s.fd → c.Sends sys) ∧
        ∀ c ∈ Lib.passed (keep sys) false srv.clientpool.clients,
          c.s.fd = s.fd → c.packetqueue = [] := by
  rcases sendPackets_cases sys srv s with ⟨srv', hs, hflushed⟩ |
    ⟨srv', hs, pre, c, rest, idx, hstopped⟩
  · rw [hs]
    have hsent : srv'.machine.sent.filter (·.1 = s.fd) = srv.machine.sent.filter (·.1 = s.fd) ++
        (Lib.visited (keep sys) false srv.clientpool.clients).flatMap
          fun c => if c.s.fd = s.fd then c.packets else [] := by
      rw [hflushed.sent, List.filter_append, filter_flatMap_packets]
    have hpassed : (∀ c ∈ Lib.passed (keep sys) false srv.clientpool.clients,
        (if c.s.fd = s.fd then c.packets else []) = []) ↔
        ∀ c ∈ Lib.passed (keep sys) false srv.clientpool.clients,
          c.s.fd = s.fd → c.packetqueue = [] := by
      refine forall_congr' fun c => forall_congr' fun _ => ?_
      rw [ite_eq_right_iff, Client.packets, List.map_eq_nil_iff]
    rw [← hpassed, ← Lib.visited_flatMap_eq_iff]
    -- What the clients of the descriptor had queued is sent if none of it is passed over.
    constructor
    · intro hisolated
      refine ⟨fun c hc _ => hflushed.sends c hc, ?_⟩
      have := hisolated.sent
      rwa [hsent, List.append_cancel_left_eq, flatMap_filter_packets] at this
    · rintro ⟨-, hvisited⟩
      refine ⟨rfl, rfl, ?_⟩
      rw [hsent, hvisited, flatMap_filter_packets]
  · -- It fails: for a client of another descriptor, that is.
    rw [hs]
    have hc : c ∈ Lib.visited (keep sys) false srv.clientpool.clients := by
      rw [hstopped.pool, Lib.visited_append, hstopped.reached]
      exact List.mem_append_right _ List.mem_cons_self
    have hfd : c.s.fd ≠ s.fd := fun hfd =>
      hstopped.fails.not_sends (h c ((Lib.visited_sublist _ _).subset hc) hfd)
    exact ⟨fun hisolated => absurd hisolated.result (show ¬(-1 : Int) = 0 by decide),
      fun hsends => absurd (hsends.1 c hc hfd) hstopped.fails.not_sends⟩

end

/-- A client of another descriptor. -/
def Sample.other (ptr : ℕ) (destroy : Bool) (packets : List Bytes) : Client :=
  { Sample.client ptr destroy packets with s := { Sample.socket with fd := 4 } }

/-- The system on which nothing can be sent to a client. -/
def Sample.sendsNotTo (ptr : ℕ) : Sys :=
  { Sys.ideal with sendto := fun ptr' _ => if ptr' = ptr then none else some 4 }

/-- A client of another descriptor that cannot be sent to, with nothing queued. -/
theorem isolated_sample :
    Isolated (Sample.server (Sample.other 1 false []) (Sample.client 2 false [ackBytes 0])
        (by decide)) Sample.socket
      ((Sample.server (Sample.other 1 false []) (Sample.client 2 false [ackBytes 0])
        (by decide)).sendPackets (Sample.sendsNotTo 1) Sample.socket) :=
  (isolated_iff Sample.socket (by decide +kernel)).2 (by decide +kernel)

/-- With a packet queued for it, the socket is destroyed, and nothing is sent. -/
theorem not_isolated :
    ¬∀ sys srv s, (∀ c ∈ srv.clientpool.clients, c.s.fd = s.fd → c.Sends sys) →
      Isolated srv s (Server.sendPackets sys srv s) := by
  intro h
  have hisolated := h (Sample.sendsNotTo 1)
    (Sample.server (Sample.other 1 false [ackBytes 0]) (Sample.client 2 false [ackBytes 0])
      (by decide)) Sample.socket (by decide +kernel)
  exact absurd hisolated.result (by decide +kernel)

end Nbstftp
