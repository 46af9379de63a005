import Nbstftp.Steps

/-!
# The past of a client

A client is known by its address in memory for as long as it is in the pool: what
happened to it before a step is what happened at its address since it has been there
(`Since`). After a step, a client of the pool is one that was there before, and only
what is kept for its queue may have changed, or the one a datagram was handed to,
which may be new and has had a turn (`step_turned`).
-/

namespace Nbstftp

/-- A step hands a datagram to the client at an address in memory. -/
def ServerStep.HandsTo (t : ServerStep) (ptr : ℕ) : Prop :=
  ∃ a ∈ t.input.arrival, ∃ c ∈ t.pre.handler t.input.sys a, c.ptr = ptr

/-- There is a client at an address in memory. -/
def Server.Holds (srv : Server) (ptr : ℕ) : Prop := ptr ∈ srv.clientpool.clients.map Client.ptr

/-- There was a step satisfying `R`, and the client at an address has been in the pool
    ever since. -/
def Since (R : ServerStep → Prop) (past : List ServerStep) (ptr : ℕ) : Prop :=
  ∃ before t after, past = before ++ t :: after ∧ R t ∧ ∀ u ∈ after, u.pre.Holds ptr

section

variable {R : ServerStep → Prop} {past : List ServerStep} {t : ServerStep} {ptr : ℕ}

/-- It was the last step, or one before it. -/
theorem since_concat : Since R (past ++ [t]) ptr ↔ R t ∨ Since R past ptr ∧ t.pre.Holds ptr :=
  Lib.since_concat (R := fun _ => R)

end

namespace Server

variable {sys : Sys} {srv srv' : Server} {a : Arrival} {c d : Client}

theorem holds_of_mem (h : c ∈ srv.clientpool.clients) : srv.Holds c.ptr := List.mem_map_of_mem h

/-- The client a datagram is handed to is one of the pool, or a new one. -/
theorem handler_cases (h : c ∈ srv.handler sys a) :
    (srv.findClient a.fd a.src = some c ∧ c ∈ srv.clientpool.clients) ∨
      srv.findClient a.fd a.src = none ∧
        c = .new srv.clientpool.fresh (srv.newSocket sys a.fd a.src) := by
  obtain ⟨srv₁, hfound⟩ := handler_eq_some.1 h
  rcases findOrAllocateClient_eq sys srv hfound with ⟨hfind, -⟩ | ⟨hfind, hc, -⟩
  · exact .inl ⟨hfind, List.mem_of_find?_eq_some hfind⟩
  · exact .inr ⟨hfind, hc⟩

/-- A client at the address of one of the pool is that one. -/
theorem eq_of_ptr (hc : c ∈ srv.clientpool.clients) (hd : d ∈ srv.clientpool.clients)
    (h : c.ptr = d.ptr) : c = d :=
  List.inj_on_of_nodup_map srv.clientpool.nodup hc hd h

/-- A new client is at a new address. -/
theorem mem_of_holds (h : c ∈ srv.handler sys a) (hholds : srv.Holds c.ptr) :
    c ∈ srv.clientpool.clients := by
  rcases handler_cases h with ⟨-, hc⟩ | ⟨-, rfl⟩
  · exact hc
  · exact absurd hholds srv.clientpool.fresh_notMem

end Server

/-- A datagram arrives when a socket is read. -/
theorem exists_of_mem_arrival {i : Input} {a : Arrival} (ha : a ∈ i.arrival) :
    ∃ sys s src data, i = ⟨sys, .readable s (.datagram src data)⟩ ∧ a = ⟨s.fd, src, data⟩ := by
  obtain ⟨sys, event⟩ := i
  cases event with
  | check | activity | hangup | unknown | writable => cases ha
  | readable s received =>
    cases received with
    | failed e => cases ha
    | datagram src data => exact ⟨sys, s, src, data, rfl, (Option.some.inj ha).symm⟩

/-- A step that hands a datagram to a client is a turn of that client. -/
theorem step_handed (cfg : Config) {srv : Server} {i : Input} {a : Arrival} {c : Client}
    (ha : a ∈ i.arrival) (hc : c ∈ srv.handler i.sys a) :
    ∃ srv₁, srv.findOrAllocateClient i.sys a.fd a.src = (srv₁, .client c) ∧
      step cfg srv i =
        (turn cfg (srv₁.machine, c) (receiving i.sys a.data)).map srv₁.put := by
  obtain ⟨srv₁, hfound⟩ := Server.handler_eq_some.1 hc
  obtain ⟨sys, s, src, data, rfl, rfl⟩ := exists_of_mem_arrival ha
  refine ⟨srv₁, hfound, ?_⟩
  simp only [step, receivePackets_turn hfound]
  cases turn cfg (srv₁.machine, c) (receiving sys data) <;> rfl

/-- It changes nothing else, if the client was in the pool. -/
theorem step_handed_of_mem (cfg : Config) {srv : Server} {i : Input} {a : Arrival} {c : Client}
    (ha : a ∈ i.arrival) (hc : c ∈ srv.handler i.sys a) (hmem : c ∈ srv.clientpool.clients) :
    step cfg srv i = (turn cfg (srv.machine, c) (receiving i.sys a.data)).map srv.put := by
  obtain ⟨srv₁, hfound, hstep⟩ := step_handed cfg ha hc
  rcases Server.findOrAllocateClient_eq i.sys srv hfound with ⟨-, rfl⟩ | ⟨-, rfl, -⟩
  · exact hstep
  · exact absurd (Server.holds_of_mem hmem) srv.clientpool.fresh_notMem

/-- A datagram that arrives was processed for the client it is handed to. -/
theorem step_arrival_ok {cfg : Config} {srv srv' : Server} {i : Input} {a : Arrival}
    (ha : a ∈ i.arrival) (hstep : step cfg srv i = .ok srv') :
    ∃ srv₁ c st, srv.findOrAllocateClient i.sys a.fd a.src = (srv₁, .client c) ∧
      turn cfg (srv₁.machine, c) (receiving i.sys a.data) = .ok st ∧ srv' = srv₁.put st := by
  obtain ⟨sys, s, src, data, rfl, rfl⟩ := exists_of_mem_arrival ha
  exact step_readable_ok hstep

/-- Receiving a datagram removes nobody. -/
theorem step_holds {cfg : Config} {srv srv' : Server} {i : Input} {a : Arrival} {ptr : ℕ}
    (ha : a ∈ i.arrival) (hstep : step cfg srv i = .ok srv') (h : srv.Holds ptr) :
    srv'.Holds ptr := by
  obtain ⟨srv₁, c, st, hfound, hturn, rfl⟩ := step_arrival_ok ha hstep
  have hptr := turn_ptr hturn
  have hmem := Server.mem_of_findOrAllocateClient i.sys srv hfound
  rw [Server.Holds, Server.put, ClientPool.map_update hmem hptr hptr]
  rcases Server.findOrAllocateClient_eq i.sys srv hfound with ⟨-, rfl⟩ | ⟨-, -, rfl⟩
  · exact h
  · have hpush : (srv.added i.sys a.fd a.src).clientpool.clients.map Client.ptr =
        srv.clientpool.clients.map Client.ptr ++ _ := List.map_append
    rw [hpush]
    exact List.mem_append_left _ h

/-- Where a client of the pool comes from: it was there before the step, and its transfer
    is what it was, or it has had the turn of the client a datagram was handed to. -/
theorem step_turned {cfg : Config} {srv srv' : Server} {i : Input}
    (hstep : step cfg srv i = .ok srv') {d : Client} (hd : d ∈ srv'.clientpool.clients) :
    (∃ c ∈ srv.clientpool.clients, d.view = c.view) ∨
      ∃ a ∈ i.arrival, ∃ c ∈ srv.handler i.sys a, ∃ m st, st.2 = d ∧
        turn cfg (m, c) (receiving i.sys a.data) = .ok st := by
  rcases step_cases cfg srv i with ⟨srv₂, hs, hsub⟩ | ⟨crash, hs, -⟩ |
    ⟨a, srv₁, c, harrival, hfound, hs⟩
  · cases hstep.symm.trans hs
    obtain ⟨c, hc, hview⟩ := List.mem_map.1 (hsub.subset (List.mem_map_of_mem hd))
    exact .inl ⟨c, hc, hview.symm⟩
  · cases hstep.symm.trans hs
  · rw [hs] at hstep
    cases hturn : turn cfg (srv₁.machine, c) (receiving i.sys a.data) with
    | error crash =>
      rw [hturn] at hstep
      cases hstep
    | ok st =>
      rw [hturn] at hstep
      cases hstep
      rcases ClientPool.mem_update hd with rfl | ⟨hd, hptr⟩
      · exact .inr ⟨a, harrival, c, Server.handler_eq_some.2 ⟨srv₁, hfound⟩, _, st, rfl, hturn⟩
      · -- One of the others: it cannot be the client that was added.
        rcases Server.findOrAllocateClient_eq i.sys srv hfound with ⟨-, rfl⟩ | ⟨-, rfl, rfl⟩
        · exact .inl ⟨d, hd, rfl⟩
        · rcases List.mem_append.1 hd with hd | hd
          · exact .inl ⟨d, hd, rfl⟩
          · rw [List.mem_singleton.1 hd] at hptr
            exact absurd (turn_ptr hturn).symm hptr

/-- Its turn made progress of the transfer of the client a datagram was handed to. -/
theorem step_origin {cfg : Config} {srv srv' : Server} {i : Input}
    (hstep : step cfg srv i = .ok srv') {d : Client} (hd : d ∈ srv'.clientpool.clients) :
    (∃ c ∈ srv.clientpool.clients, d.view = c.view) ∨
      ∃ a ∈ i.arrival, ∃ c ∈ srv.handler i.sys a, d.identity = c.identity ∧
        Progress i.sys a.data c.transfer d.transfer := by
  rcases step_turned hstep hd with hview | ⟨a, ha, c, hc, m, st, rfl, hturn⟩
  · exact .inl hview
  · have hprogress := turn_progresses cfg i.sys m c a.data
    rw [hturn] at hprogress
    exact .inr ⟨a, ha, c, hc, hprogress⟩

/-- A datagram that is handed to no client ends the run for want of one. -/
theorem step_crash {cfg : Config} {srv : Server} {i : Input} {crash : Crash}
    (hstep : step cfg srv i = .error crash) :
    crash.fault ∈ [.nullClient, .releasedClient, .astrayItem] ∨
      ∃ a ∈ i.arrival, ∃ c ∈ srv.handler i.sys a, ∃ m,
        turn cfg (m, c) (receiving i.sys a.data) = .error crash := by
  rcases step_cases cfg srv i with ⟨srv₂, hs, -⟩ | ⟨crash', hs, hfault⟩ |
    ⟨a, srv₁, c, harrival, hfound, hs⟩
  · cases hstep.symm.trans hs
  · cases hstep.symm.trans hs
    exact .inl hfault
  · refine .inr ⟨a, harrival, c, Server.handler_eq_some.2 ⟨srv₁, hfound⟩, srv₁.machine, ?_⟩
    rw [hs] at hstep
    cases hturn : turn cfg (srv₁.machine, c) (receiving i.sys a.data) with
    | error crash' =>
      rw [hturn] at hstep
      cases hstep
      rfl
    | ok st =>
      rw [hturn] at hstep
      cases hstep

end Nbstftp
