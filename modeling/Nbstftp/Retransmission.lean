import Nbstftp.History
import Nbstftp.Sending
import Nbstftp.Upkeep

/-!
# Timeouts

A client that does not answer is to be sent its last packet again, three times,
and to be removed then. That it does not answer is told by `waiting`, which is to
be set by `queuePacket`: but it is not, nor by any other step, so that nobody is
ever waited for (`run_unarmed`). Checking the clients does nothing at all
(`checkClients_unarmed`), and a silent client stays in the pool as it is
(`never_retries`).
-/

namespace Nbstftp

/-- A step sends the last of the packets queued for the client at an address. -/
structure ServerStep.Empties (t : ServerStep) (ptr : ℕ) : Prop where
  writable : ∃ s, t.input.event = .writable s
  queued : ∃ c ∈ t.pre.clientpool.clients, c.ptr = ptr ∧ c.packetqueue ≠ []
  emptied : ∃ srv, t.post = .ok srv ∧ ∃ c ∈ srv.clientpool.clients, c.ptr = ptr ∧ c.packetqueue = []

/-- A client in the middle of a transfer that was sent its last packet, and has not
    been heard of since. -/
structure Silent (past : List ServerStep) (c : Client) : Prop where
  sending : c.sendingfile = true
  unmarked : c.destroy = false
  since : ∃ before t after, past = before ++ t :: after ∧ t.Empties c.ptr ∧
    ∀ u ∈ after, ¬u.HandsTo c.ptr

/-- Checking the clients queues the last packet of a client again, or removes it. -/
def Retries (sys : Sys) (srv : Server) (c : Client) : Prop :=
  (∃ d ∈ (srv.checkClients sys).clientpool.clients, d.ptr = c.ptr ∧ ∃ last ∈ c.lastpacket,
    d.packetqueue = c.packetqueue ++ [{ last with allocated := 2 }]) ∨
  ∀ d ∈ (srv.checkClients sys).clientpool.clients, d.ptr ≠ c.ptr

namespace Server

/-! ## Nobody is waited for -/

/-- No answer of any client is waited for. -/
def Unarmed (srv : Server) : Prop := ∀ c ∈ srv.clientpool.clients, c.waiting = 0

theorem checkClient_unarmed {srv : Server} {c : Client} (h : c.waiting = 0) (sys : Sys) :
    srv.checkClient sys c = srv := by
  rw [checkClient, if_neg]
  exact fun hdue => hdue.1 h

/-- So there is nothing to be done for a client that does not answer. -/
theorem checkClients_unarmed {srv : Server} (h : srv.Unarmed) (sys : Sys) :
    srv.checkClients sys = srv := by
  rw [checkClients]
  rcases Lib.foreach_invariant (·.clientpool.clients)
    (fun srv c => (.ok (srv.checkClient sys c) : Except Empty Server)) (· = srv) (fun _ => True)
    (fun srv₁ c srv₂ heq hc hs => by
      subst heq
      cases hs
      exact checkClient_unarmed (h c hc) sys)
    (fun _ _ _ _ _ _ => trivial) (s := srv) rfl with ⟨srv', hs, rfl⟩ | ⟨e, -, -⟩
  · simp only [hs]
  · exact e.elim

end Server

theorem releaseLastpacket_waiting (m : Machine) (c : Client) :
    (releaseLastpacket m c).2.waiting = 0 := by
  rw [releaseLastpacket]
  split
  · split <;> rfl
  · rfl

/-- Handling a datagram never starts to wait. -/
theorem Upkeep.unarmed {s s' : State} (h : Upkeep s s') (hw : s.2.waiting = 0) :
    s'.2.waiting = 0 := by
  induction h with
  | aside h => exact h.waiting.trans hw
  | release m c => exact releaseLastpacket_waiting m c
  | queue sys m c bytes len => exact hw
  | trans h h' ih ih' => exact ih' (ih hw)

theorem turn_unarmed {cfg : Config} {sys : Sys} {m : Machine} {c : Client} {data : Bytes}
    {st : State} (h : turn cfg (m, c) (receiving sys data) = .ok st) (hw : c.waiting = 0) :
    st.2.waiting = 0 :=
  (processDatagram_upkeep sys _ _ h).unarmed hw

/-- No step ever starts to wait. -/
theorem step_unarmed {cfg : Config} {srv srv' : Server} {i : Input} (h : srv.Unarmed)
    (hstep : step cfg srv i = .ok srv') : srv'.Unarmed := by
  obtain ⟨sys, event⟩ := i
  cases event with
  | check =>
    cases hstep
    rwa [Server.checkClients_unarmed h]
  | activity | hangup | unknown =>
    cases hstep
    exact h
  | writable s =>
    cases hstep
    rw [Server.Unarmed, Server.destroyFailed_clientpool]
    exact sendPackets_forall (P := fun c => c.waiting = 0) (fun _ _ hw => hw) (fun _ hw => hw) h s
  | readable s received =>
    cases received with
    | failed e =>
      cases hstep
      rw [Server.Unarmed, Server.destroyFailed_clientpool]
      exact h
    | datagram src data =>
      obtain ⟨srv₁, c, st, hfound, hturn, rfl⟩ := step_readable_ok hstep
      have h₁ : srv₁.Unarmed := Server.forall_findOrAllocateClient sys srv hfound h fun _ _ => rfl
      intro d hd
      rcases ClientPool.mem_update hd with rfl | ⟨hd, -⟩
      · exact turn_unarmed hturn (h₁ c (Server.mem_of_findOrAllocateClient sys srv hfound))
      · exact h₁ d hd

/-- In no run of the server, any client is ever waited for. -/
theorem run_unarmed {cfg : Config} {machine : Machine} {socketpool : List Socket}
    {inputs : List Input} {srv : Server}
    (hrun : Lib.run (step cfg) (.boot machine socketpool) inputs = .ok srv) : srv.Unarmed := by
  rcases Lib.run_invariant (step cfg) inputs Server.Unarmed (fun _ => True)
    (fun srv₁ i srv₂ h hs => step_unarmed h hs) (fun _ _ _ _ _ => trivial)
    (s := .boot machine socketpool) (fun c hc => absurd hc List.not_mem_nil) with
    ⟨srv', hs, h⟩ | ⟨e, he, -⟩
  · cases hrun.symm.trans hs
    exact h
  · cases hrun.symm.trans he

/-! ## Silent clients -/

/-- In every run of the server, and at any time, checking the clients does nothing for
    a silent one. -/
theorem never_retries {cfg : Config} {machine : Machine} {socketpool : List Socket}
    {inputs : List Input} {srv : Server}
    (hrun : Lib.run (step cfg) (.boot machine socketpool) inputs = .ok srv) {c : Client}
    (hc : c ∈ srv.clientpool.clients)
    (_hsilent : Silent (Lib.trace (step cfg) (.boot machine socketpool) inputs) c) {sys : Sys}
    (_hdue : c.nextresend ≤ sys.time) : ¬Retries sys srv c := by
  rw [Retries, Server.checkClients_unarmed (run_unarmed hrun)]
  rintro (⟨d, hd, hptr, last, -, hqueue⟩ | hgone)
  · have hdc : d = c := List.inj_on_of_nodup_map srv.clientpool.nodup hd hc hptr
    rw [hdc] at hqueue
    exact List.cons_ne_nil _ _ (List.self_eq_append_right.1 hqueue)
  · exact hgone c hc rfl

namespace Sample

/-- A server that has sent the first block of its file. -/
def waiting : List Input := [receive (request .rrq []), flush]

/-- A client that was sent it, and does not answer. -/
def silentClient : Client := (after [1] waiting).clientpool.clients.headD (.new 0 socket)

theorem silentClient_mem : silentClient ∈ (after [1] waiting).clientpool.clients := by
  decide +kernel

theorem silentClient_silent :
    Silent (Lib.trace (step config) (boot [1]) waiting) silentClient where
  sending := by decide +kernel
  unmarked := by decide +kernel
  since := by
    have hrequest : Lib.run (step config) (boot [1]) [receive (request .rrq [])] =
        .ok (after [1] [receive (request .rrq [])]) := run_after (by decide +kernel)
    refine ⟨_, _, [], Lib.trace_concat hrequest flush, ⟨⟨socket, rfl⟩, by decide +kernel, ?_⟩,
      fun u hu => absurd hu List.not_mem_nil⟩
    exact ⟨_, rfl, silentClient, silentClient_mem, rfl, by decide +kernel⟩

end Sample

/-- A client that was sent a block, five seconds later. -/
theorem never_retries_sample :
    ¬Retries { Sys.ideal with time := 5 } (Sample.after [1] Sample.waiting) Sample.silentClient :=
  never_retries (Sample.run_after (by decide +kernel)) Sample.silentClient_mem
    Sample.silentClient_silent (by decide +kernel)

/-- It is not sent the block again, nor removed. -/
theorem not_retries :
    ¬∀ cfg machine socketpool inputs srv,
      Lib.run (step cfg) (.boot machine socketpool) inputs = .ok srv →
      ∀ c ∈ srv.clientpool.clients,
        Silent (Lib.trace (step cfg) (.boot machine socketpool) inputs) c →
        ∀ sys : Sys, c.nextresend ≤ sys.time → Retries sys srv c := by
  intro h
  have hretries := h Sample.config (Sample.machine [1]) [Sample.socket] Sample.waiting _
    (Sample.run_after (by decide +kernel)) _ Sample.silentClient_mem Sample.silentClient_silent
    { Sys.ideal with time := 5 } (by decide +kernel)
  have hrun : Lib.run (step Sample.config) (Sample.boot [1]) Sample.waiting = .ok _ :=
    Sample.run_after (by decide +kernel)
  have hunarmed : (Sample.after [1] Sample.waiting).Unarmed := run_unarmed hrun
  rw [Retries, Server.checkClients_unarmed hunarmed] at hretries
  exact absurd hretries (by decide +kernel)

end Nbstftp
