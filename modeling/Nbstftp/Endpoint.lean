import Nbstftp.Steps

/-!
# Clients and endpoints

A datagram is processed for the client found by the descriptor it came in on and
by the port of its sender, whatever the IP address: a second host with the port
of a client gets that client (`not_handed_to_sender`).

In the pool of a running server, clients of one descriptor have different ports
(`Keyed`), but for port 32768, which no transfer ID negates and which is never
found. So the client a datagram is handed to is that of its sender if and only if
no other host has the port of the sender among the clients then
(`handed_to_sender_iff`).
-/

namespace Nbstftp

/-- A datagram is handed to a client at the address it came from. -/
def ServerStep.HandedToSender (t : ServerStep) : Prop :=
  ∀ a ∈ t.input.arrival, ∀ c ∈ t.pre.handler t.input.sys a,
    c.s.fd = a.fd ∧ c.s.addr.endpoint = a.src.endpoint

/-- A datagram arrives when no client at another address has its port. -/
def ServerStep.PortsApart (t : ServerStep) : Prop :=
  ∀ a ∈ t.input.arrival, ∀ c ∈ t.pre.clientpool.clients,
    c.s.fd = a.fd → c.s.addr.port = a.src.port → a.src.port ≠ 32768 →
      c.s.addr.endpoint = a.src.endpoint

instance (t : ServerStep) : Decidable t.HandedToSender :=
  inferInstanceAs (Decidable (∀ a ∈ t.input.arrival, ∀ c ∈ t.pre.handler t.input.sys a, _))

/-! ## Transfer IDs -/

/-- A transfer ID, negated in 16 bits, is the negation of the port looked for if
    the ports are the same, but for port 32768. -/
theorem tid_eq_iff (p q : UInt16) :
    (-p.toInt16).toInt = -q.toInt16.toInt ↔ p = q ∧ q ≠ 32768 := by
  have htoInt : ∀ n : UInt16, n.toInt16.toInt =
      if n.toNat < 32768 then (n.toNat : Int) else n.toNat - 65536 := by
    intro n
    have hbits : n.toInt16.toInt = n.toBitVec.toInt := rfl
    have hnat : n.toBitVec.toNat = n.toNat := rfl
    rw [hbits, BitVec.toInt_eq_toNat_cond, hnat]
    split <;> split <;> omega
  have hp := p.toNat_lt
  have hq := q.toNat_lt
  have hmin : (32768 : UInt16).toNat = 32768 := rfl
  rw [Int16.toInt_neg, htoInt, htoInt, Ne, ← UInt16.toNat_inj, ← UInt16.toNat_inj, hmin,
    Int.bmod_def]
  split <;> split <;> split <;> omega

/-- Who the clients of a running server are: transfer IDs are negated ports, and
    no two clients of a descriptor have the same port, but for port 32768. -/
structure Keyed (ids : List Identity) : Prop where
  tid : ∀ i ∈ ids, i.tid = -i.addr.port.toInt16
  ports : ids.Pairwise fun i j =>
    i.fd = j.fd → i.addr.port = j.addr.port → i.addr.port = 32768

theorem Keyed.sublist {ids ids' : List Identity} (h : Keyed ids) (hs : ids'.Sublist ids) :
    Keyed ids' :=
  ⟨fun i hi => h.tid i (hs.subset hi), h.ports.sublist hs⟩

/-- A client may be added if its port is new. -/
theorem Keyed.push {ids : List Identity} {i : Identity} (h : Keyed ids)
    (htid : i.tid = -i.addr.port.toInt16)
    (hnew : ∀ j ∈ ids, j.fd = i.fd → j.addr.port = i.addr.port → j.addr.port = 32768) :
    Keyed (ids ++ [i]) := by
  constructor
  · intro j hj
    rcases List.mem_append.1 hj with hj | hj
    · exact h.tid j hj
    · rw [List.mem_singleton.1 hj, htid]
  · rw [List.pairwise_append]
    refine ⟨h.ports, List.pairwise_singleton _ _, fun j hj k hk => ?_⟩
    rw [List.mem_singleton.1 hk]
    exact hnew j hj

/-- Two clients of a descriptor with the same port are one. -/
theorem Keyed.eq {ids : List Identity} (h : Keyed ids) {i j : Identity} (hi : i ∈ ids)
    (hj : j ∈ ids) (hfd : i.fd = j.fd) (hport : i.addr.port = j.addr.port)
    (hfound : i.addr.port ≠ 32768) : i = j := by
  by_contra hij
  have hsymm : Std.Symm fun i j : Identity =>
      i.fd = j.fd → i.addr.port = j.addr.port → i.addr.port = 32768 :=
    ⟨fun i j h hfd hport => hport.trans (h hfd.symm hport.symm)⟩
  exact hfound (h.ports.forall hi hj hij hfd hport)

namespace Server

def identities (srv : Server) : List Identity := srv.clientpool.clients.map Client.identity

theorem identities_eq (srv : Server) : srv.identities = srv.views.map Prod.fst := by
  rw [identities, views, List.map_map]
  rfl

section

variable {sys : Sys} {srv srv₁ : Server} {fd : Int} {src : SockAddr} {c : Client}

/-- What `FindClient` looks for, in the pool of a running server. -/
theorem key_iff (h : Keyed srv.identities) (hc : c ∈ srv.clientpool.clients) :
    decide (c.s.fd = fd ∧ c.tid.toInt = -(getPort src).toInt) = true ↔
      c.s.fd = fd ∧ c.s.addr.port = src.port ∧ src.port ≠ 32768 := by
  have htid : c.tid = -c.s.addr.port.toInt16 := h.tid c.identity (List.mem_map_of_mem hc)
  rw [decide_eq_true_eq, htid, getPort, tid_eq_iff]

theorem findClient_some (h : Keyed srv.identities) (hfind : srv.findClient fd src = some c) :
    c.s.fd = fd ∧ c.s.addr.port = src.port ∧ src.port ≠ 32768 :=
  (key_iff h (List.mem_of_find?_eq_some hfind)).1 (List.find?_eq_some_iff_append.1 hfind).1

theorem findClient_none (h : Keyed srv.identities) (hfind : srv.findClient fd src = none)
    (hc : c ∈ srv.clientpool.clients) (hfd : c.s.fd = fd) (hport : c.s.addr.port = src.port) :
    c.s.addr.port = 32768 := by
  by_contra hport'
  exact List.find?_eq_none.1 hfind c hc ((key_iff h hc).2 ⟨hfd, hport, hport ▸ hport'⟩)

/-- Looking for a client adds at most one, with a new port. -/
theorem keyed_findOrAllocateClient (h : Keyed srv.identities)
    (hfound : srv.findOrAllocateClient sys fd src = (srv₁, .client c)) :
    Keyed srv₁.identities := by
  rcases findOrAllocateClient_cases sys srv hfound with ⟨-, -, rfl⟩ |
    ⟨hnone, s, hfd, haddr, -, hpool⟩
  · exact h
  · -- Had there been a client with the port, it would have been found.
    rw [identities, hpool]
    simp only [ClientPool.push, List.map_append, List.map_singleton]
    refine h.push (i := (Client.new srv.clientpool.fresh s).identity) rfl ?_
    intro j hj hjfd hjport
    obtain ⟨d, hd, rfl⟩ := List.mem_map.1 hj
    exact findClient_none h hnone hd (hjfd.trans hfd) (hjport.trans (congrArg _ haddr))

/-- The datagram is handed to the client of its sender exactly if no other host has
    its port. -/
theorem handedToSender_iff_portsApart (h : Keyed srv.identities) {i : Input}
    {post : Except Crash Server} :
    ServerStep.HandedToSender ⟨srv, i, post⟩ ↔ ServerStep.PortsApart ⟨srv, i, post⟩ := by
  constructor
  · intro hhanded a ha c hc hfd hport hfound
    -- There is a client to be found: it is this one, ports being unique.
    have hsome : (srv.findClient a.fd a.src).isSome :=
      List.find?_isSome.2 ⟨c, hc, (key_iff h hc).2 ⟨hfd, hport, hfound⟩⟩
    obtain ⟨d, hd⟩ := Option.isSome_iff_exists.1 hsome
    have hhandler : d ∈ srv.handler i.sys a :=
      handler_eq_some.2 ⟨srv, by rw [findOrAllocateClient, hd]⟩
    obtain ⟨hdfd, hdport, -⟩ := findClient_some h hd
    have hcd : c.identity = d.identity :=
      h.eq (List.mem_map_of_mem hc) (List.mem_map_of_mem (List.mem_of_find?_eq_some hd))
        (hfd.trans hdfd.symm) (hport.trans hdport.symm) (fun h => hfound (hport.symm.trans h))
    have haddr : c.s.addr = d.s.addr := congrArg Identity.addr hcd
    rw [haddr]
    exact (hhanded a ha d hhandler).2
  · intro hapart a ha c hc
    obtain ⟨srv₁, hfound⟩ := handler_eq_some.1 hc
    rcases findOrAllocateClient_cases i.sys srv hfound with ⟨hfind, hmem, -⟩ |
      ⟨-, s, hfd, haddr, rfl, -⟩
    · obtain ⟨hfd, hport, hfound⟩ := findClient_some h hfind
      exact ⟨hfd, hapart a ha c hmem hfd hport hfound⟩
    · exact ⟨hfd, congrArg SockAddr.endpoint haddr⟩

end

end Server

/-- A step keeps transfer IDs and ports as they are in a running server. -/
theorem step_keyed {cfg : Config} {srv srv' : Server} {i : Input} (h : Keyed srv.identities)
    (hstep : step cfg srv i = .ok srv') : Keyed srv'.identities := by
  rcases step_cases cfg srv i with ⟨srv₂, hs, hsub⟩ | ⟨crash, hs, -⟩ |
    ⟨a, srv₁, c, -, hfound, hs⟩
  · cases hstep.symm.trans hs
    rw [Server.identities_eq] at h ⊢
    exact h.sublist (hsub.map _)
  · cases hstep.symm.trans hs
  · rw [hs] at hstep
    cases hturn : turn cfg (srv₁.machine, c) (receiving i.sys a.data) with
    | error crash =>
      rw [hturn] at hstep
      cases hstep
    | ok st =>
      rw [hturn] at hstep
      cases hstep
      have hmem := Server.mem_of_findOrAllocateClient i.sys srv hfound
      rw [Server.identities, Server.put,
        ClientPool.map_update hmem (turn_ptr hturn) (turn_identity hturn)]
      exact Server.keyed_findOrAllocateClient h hfound

/-- In every run of the server, every datagram is handed to the client of its sender
    if and only if none arrives while a client at another address has its port. -/
theorem handed_to_sender_iff (cfg : Config) (machine : Machine) (socketpool : List Socket)
    (inputs : List Input) :
    (∀ t ∈ Lib.trace (step cfg) (.boot machine socketpool) inputs,
        ServerStep.HandedToSender t) ↔
      ∀ t ∈ Lib.trace (step cfg) (.boot machine socketpool) inputs, ServerStep.PortsApart t := by
  rw [← Lib.always_iff_forall_mem, ← Lib.always_iff_forall_mem]
  refine Lib.always_iff_always (fun _ srv => Keyed srv.identities)
    ⟨fun i hi => absurd hi List.not_mem_nil, List.Pairwise.nil⟩ ?_ ?_
  · rintro past ⟨srv, i, post⟩ hkeyed - -
    exact Server.handedToSender_iff_portsApart hkeyed
  · rintro past ⟨srv, i, post⟩ srv' hkeyed - (hpost : post = _) - (hok : post = _)
    exact step_keyed hkeyed (hpost.symm.trans hok)

/-- Two hosts send from the same port. -/
theorem not_handed_to_sender :
    ¬∀ cfg machine socketpool inputs,
      ∀ t ∈ Lib.trace (step cfg) (.boot machine socketpool) inputs,
        ServerStep.HandedToSender t := by
  intro h
  have hhanded := h Sample.config (Sample.machine [1]) [Sample.socket]
    ([1, 2].map fun addr => ⟨.ideal, .readable Sample.socket
      (.datagram (.inet 40000 addr) (Sample.request .rrq []))⟩)
  exact absurd hhanded (by decide +kernel)

end Nbstftp
