import Nbstftp.Multiplexer
import Nbstftp.Retransmission

/-!
# Write interest

Whether a descriptor is watched for writing is one bit, which all clients of the
descriptor share: queueing a packet for one of them sets it, and sending the queue
of one of them clears it. So a client that flushing passes over keeps its packets
while the bit is cleared for another one, and a descriptor that is taken off the
multiplexer leaves the packets of its clients behind (`not_registered`).

If this does not happen, then between the iterations of the main loop every client
with packets queued has its descriptor watched for writing (`registered`).
-/

namespace Nbstftp

/-- A descriptor is watched for writing. -/
def Machine.Writable (m : Machine) (fd : Int) : Prop :=
  ∃ status ∈ m.interest fd, status &&& SF_WRITABLE ≠ 0

/-- Every client with packets queued has its descriptor watched for writing. -/
def Server.Registered (srv : Server) : Prop :=
  ∀ c ∈ srv.clientpool.clients, c.packetqueue ≠ [] → srv.machine.Writable c.s.fd

/-- The descriptor taken off the multiplexer because it failed, if any. -/
def Input.dropped (i : Input) : Option Int :=
  match i.event with
  | .hangup s => some s.fd
  | .unknown fd => some fd
  | .readable s (.failed e) => if e = .again ∨ e = .intr then none else some s.fd
  | _ => none

/-- The clients flushed in a step, and those passed over. -/
def ServerStep.flushed (t : ServerStep) : List Client :=
  match t.input.event with
  | .writable _ => Lib.visited (keep t.input.sys) false t.pre.clientpool.clients
  | _ => []

def ServerStep.passed (t : ServerStep) : List Client :=
  match t.input.event with
  | .writable _ => Lib.passed (keep t.input.sys) false t.pre.clientpool.clients
  | _ => []

/-- A step in which every `sendto` succeeds. -/
def ServerStep.Sends (t : ServerStep) : Prop :=
  ∀ c ∈ t.pre.clientpool.clients, c.Sends t.input.sys

/-- A step that leaves no packets behind: those of the clients of a descriptor that is
    dropped, or those of a client passed over while another one of its descriptor is
    flushed. -/
structure ServerStep.StrandsNone (t : ServerStep) : Prop where
  dropped : ∀ fd ∈ t.input.dropped, ∀ c ∈ t.pre.clientpool.clients, c.s.fd = fd →
    c.packetqueue = []
  passed : ∀ c ∈ t.passed, c.packetqueue ≠ [] → ∀ d ∈ t.flushed, d.s.fd ≠ c.s.fd

/-! ## Who is watched -/

theorem setSocketStatus_interest (m : Machine) (s : Socket) (status : UInt32) (fd : Int) :
    (setSocketStatus m s status).1.interest fd =
      if s.fd = fd then (m.interest fd).map fun _ => status else m.interest fd := by
  have hinterest : (setSocketStatus m s status).1.interest =
      if (m.interest s.fd).isSome then Function.update m.interest s.fd (some status)
      else m.interest := rfl
  rw [hinterest]
  by_cases hfd : s.fd = fd
  · subst hfd
    cases h : m.interest s.fd <;> simp [h]
  · rw [if_neg hfd]
    split
    · exact Function.update_of_ne (Ne.symm hfd) _ _
    · rfl

/-- What handling a datagram does to the multiplexer: descriptors stay watched, or stay
    unwatched, and those watched for writing stay so. -/
structure Watches (s s' : State) : Prop where
  fd : s'.2.s.fd = s.2.s.fd
  watched : ∀ fd, (s'.1.interest fd).isSome = (s.1.interest fd).isSome
  writable : ∀ fd, s.1.Writable fd → s'.1.Writable fd
  queued : s'.2.packetqueue = s.2.packetqueue ∨
    ((s.1.interest s.2.s.fd).isSome → s'.1.Writable s.2.s.fd)

theorem releaseLastpacket_watches (m : Machine) (c : Client) :
    Watches (m, c) (releaseLastpacket m c) := by
  rw [releaseLastpacket]
  split
  · split <;> exact ⟨rfl, fun _ => rfl, fun _ h => h, .inl rfl⟩
  · exact ⟨rfl, fun _ => rfl, fun _ h => h, .inl rfl⟩

theorem queuePacket_watches (sys : Sys) (m : Machine) (c : Client) (bytes : Bytes) (len : ℕ) :
    Watches (m, c) (queuePacket sys (m.nmalloc bytes).1 c (m.nmalloc bytes).2 len 1) := by
  have hinterest : ∀ fd, (queuePacket sys (m.nmalloc bytes).1 c (m.nmalloc bytes).2 len
      1).1.interest fd =
        if c.s.fd = fd then (m.interest fd).map fun _ => SF_WRITABLE ||| SF_READABLE
        else m.interest fd :=
    fun fd => setSocketStatus_interest _ c.s _ fd
  have hset : ∀ fd, c.s.fd = fd → (m.interest fd).isSome →
      (queuePacket sys (m.nmalloc bytes).1 c (m.nmalloc bytes).2 len 1).1.Writable fd := by
    intro fd hfd hsome
    obtain ⟨status, hstatus⟩ := Option.isSome_iff_exists.1 hsome
    refine ⟨SF_WRITABLE ||| SF_READABLE, ?_, by decide⟩
    rw [hinterest, if_pos hfd, hstatus]
    rfl
  refine ⟨rfl, fun fd => ?_, fun fd hw => ?_, .inr (hset _ rfl)⟩
  · rw [hinterest]
    split
    · exact Option.isSome_map
    · rfl
  · -- What is watched for writing stays so, on this descriptor as on the others.
    by_cases hfd : c.s.fd = fd
    · obtain ⟨status, hstatus, -⟩ := hw
      exact hset fd hfd (Option.isSome_of_mem hstatus)
    · rw [Machine.Writable, hinterest, if_neg hfd]
      exact hw

/-- Handling a datagram that queues a packet sets the bit. -/
theorem Upkeep.watches {s s' : State} (h : Upkeep s s') : Watches s s' := by
  induction h with
  | aside h =>
    refine ⟨congrArg Socket.fd h.socket, fun fd => by rw [h.interest], fun fd hw => ?_,
      .inl h.packetqueue⟩
    rw [Machine.Writable, h.interest]
    exact hw
  | release m c => exact releaseLastpacket_watches m c
  | queue sys m c bytes len => exact queuePacket_watches sys m c bytes len
  | @trans s s' s'' h h' ih ih' =>
    refine ⟨ih'.fd.trans ih.fd, fun fd => (ih'.watched fd).trans (ih.watched fd),
      fun fd hw => ih'.writable fd (ih.writable fd hw), ?_⟩
    rcases ih'.queued with hq' | hq'
    · exact ih.queued.imp hq'.trans fun hq hsome => ih'.writable _ (hq hsome)
    · rw [ih.fd, ih.watched] at hq'
      exact .inr hq'

namespace Server

variable {sys : Sys} {srv srv' : Server}

/-! ## Flushing -/

theorem closeFile_interest (m : Machine) (c : Client) : (closeFile m c).interest = m.interest := by
  rw [closeFile]
  cases c.f <;> rfl

theorem afterSending_interest (srv : Server) (c : Client) (fd : Int) :
    (srv.afterSending sys c).machine.interest fd =
      if c.s.fd = fd then (srv.machine.interest fd).map fun _ => SF_READABLE
      else srv.machine.interest fd := by
  have hcleared : (srv.cleared c).interest fd = _ :=
    setSocketStatus_interest (srv.machine.emits (c.packetqueue.flatMap c.sending)) c.s
      SF_READABLE fd
  have hafter : (srv.afterSending sys c).machine.interest = (srv.cleared c).interest := by
    rw [afterSending]
    split
    · rw [removeClient_machine]
      exact closeFile_interest _ _
    · rfl
  rw [hafter, hcleared]
  rfl

/-- Flushing, with every `sendto` succeeding: the bit is cleared for the descriptors of
    the clients that are flushed, and for no other. -/
theorem sendPackets_interest (hsends : ∀ c ∈ srv.clientpool.clients, c.Sends sys) (s : Socket) :
    ∃ srv', srv.sendPackets sys s = (srv', 0) ∧
      srv'.clientpool.clients = Lib.walk (keep sys) false srv.clientpool.clients ∧
      ∀ fd, (srv'.machine.interest fd).isSome = (srv.machine.interest fd).isSome ∧
        ((∀ c ∈ Lib.visited (keep sys) false srv.clientpool.clients, c.s.fd ≠ fd) →
          srv'.machine.interest fd = srv.machine.interest fd) := by
  refine (sendPackets_rule sys srv s (fun pre srv' => ∀ fd,
      (srv'.machine.interest fd).isSome = (srv.machine.interest fd).isSome ∧
        ((∀ c ∈ Lib.visited (keep sys) false pre, c.s.fd ≠ fd) →
          srv'.machine.interest fd = srv.machine.interest fd)) (fun _ => False)
    (fun fd => ⟨rfl, fun _ => rfl⟩) (fun pre c rest srv' hl hk hR fd => ?_)
    (fun pre c rest srv' hl hk hpool hR hc fd => ?_) ?_).resolve_right fun ⟨_, _, h⟩ => h
  · refine ⟨(hR fd).1, fun hfd => (hR fd).2 fun d hd => hfd d ?_⟩
    rw [Lib.visited_append]
    exact List.mem_append_left _ hd
  · rw [afterSending_interest, Lib.visited_append, hk]
    constructor
    · rw [← (hR fd).1]
      split
      · exact Option.isSome_map
      · rfl
    · intro hfd
      rw [if_neg (hfd c (List.mem_append_right _ List.mem_cons_self))]
      exact (hR fd).2 fun d hd => hfd d (List.mem_append_left _ hd)
  · -- It does not stop: no `sendto` fails.
    intro pre c rest srv' idx n hl hk hpool hR hfails
    have hsome := hsends c (hl ▸ List.mem_append_right _ List.mem_cons_self) idx hfails.queued
    rw [hfails.fails] at hsome
    cases hsome

/-- Flushing leaves no packets behind, unless the bit is cleared for the descriptor of a
    client that is passed over. -/
theorem sendPackets_registered (h : srv.Registered) {s : Socket}
    (hsends : ServerStep.Sends ⟨srv, ⟨sys, .writable s⟩, .ok srv'⟩)
    (hstrands : ServerStep.StrandsNone ⟨srv, ⟨sys, .writable s⟩, .ok srv'⟩)
    (hstep : srv' = destroyFailed s (srv.sendPackets sys s)) :
    srv'.Registered ∧
      ∀ fd, (srv'.machine.interest fd).isSome = (srv.machine.interest fd).isSome := by
  obtain ⟨srv₁, hs, hclients, hinterest⟩ := sendPackets_interest hsends s
  have hsrv' : srv' = srv₁ := by rw [hstep, hs]; rfl
  subst hsrv'
  refine ⟨fun c hc hqueue => ?_, fun fd => (hinterest fd).1⟩
  rw [hclients] at hc
  rcases Lib.mem_walk.1 hc with ⟨d, -, hd⟩ | hpassed
  · rw [keep] at hd
    split at hd
    · cases hd
    · cases hd
      exact absurd rfl hqueue
  · rw [Machine.Writable, (hinterest c.s.fd).2 (hstrands.passed c hpassed hqueue)]
    exact h c ((Lib.passed_sublist false _).subset hpassed) hqueue

/-! ## The other steps -/

/-- Dropping a descriptor without packets queued for its clients. -/
theorem Registered.drop {fd : Int} (h : srv.Registered)
    (hqueue : ∀ c ∈ srv.clientpool.clients, c.s.fd = fd → c.packetqueue = [])
    (hclients : srv'.clientpool = srv.clientpool)
    (hinterest : srv'.machine.interest = Function.update srv.machine.interest fd none) :
    srv'.Registered := by
  intro c hc hc'
  rw [hclients] at hc
  rw [Machine.Writable, hinterest, Function.update_of_ne fun hfd => hc' (hqueue c hc hfd)]
  exact h c hc hc'

theorem findOrAllocateClient_interest {srv₁ : Server} {fd : Int} {src : SockAddr} {c : Client}
    (h : srv.findOrAllocateClient sys fd src = (srv₁, .client c)) :
    srv₁.machine.interest = srv.machine.interest := by
  rcases findOrAllocateClient_eq sys srv h with ⟨-, rfl⟩ | ⟨-, -, rfl⟩ <;> rfl

theorem findOrAllocateClient_registered {srv₁ : Server} {fd : Int} {src : SockAddr} {c : Client}
    (hfound : srv.findOrAllocateClient sys fd src = (srv₁, .client c)) (h : srv.Registered) :
    srv₁.Registered := by
  have hinterest := findOrAllocateClient_interest hfound
  refine forall_findOrAllocateClient sys srv hfound (fun d hd hqueue => ?_)
    fun _ _ hqueue => absurd rfl hqueue
  rw [Machine.Writable, hinterest]
  exact h d hd hqueue

/-- Receiving a datagram on a descriptor that is watched. -/
theorem receive_registered {cfg : Config} {s : Socket} {src : SockAddr} {data : Bytes}
    (h : srv.Registered) (hwatched : (srv.machine.interest s.fd).isSome)
    (hstep : step cfg srv ⟨sys, .readable s (.datagram src data)⟩ = .ok srv') :
    srv'.Registered := by
  obtain ⟨srv₁, c, st, hfound, hturn, rfl⟩ := step_readable_ok hstep
  have h₁ : srv₁.Registered := findOrAllocateClient_registered hfound h
  have hc : c ∈ srv₁.clientpool.clients := mem_of_findOrAllocateClient sys srv hfound
  have hwatches : Watches _ st := (turn_upkeep sys _ _ hturn).watches
  have hfd : c.s.fd = s.fd := by
    rcases findOrAllocateClient_eq sys srv hfound with ⟨hfind, -⟩ | ⟨-, rfl, -⟩
    · exact (of_decide_eq_true (List.find?_eq_some_iff_append.1 hfind).1).1
    · rfl
  intro d hd hqueue
  rcases ClientPool.mem_update hd with rfl | ⟨hd, -⟩
  · rw [hwatches.fd]
    rcases hwatches.queued with hq | hq
    · exact hwatches.writable _ (h₁ c hc (hq ▸ hqueue))
    · refine hq ?_
      rw [← findOrAllocateClient_interest hfound, ← hfd] at hwatched
      exact hwatched
  · exact hwatches.writable _ (h₁ d hd hqueue)

end Server

/-- Dealing with a report leaves no packets behind, if no step of it does. -/
theorem report_registered {cfg : Config} {srv srv' : Server} {r : Report}
    (h : srv.Registered ∧ srv.Unarmed)
    (hsteps : ∀ t ∈ Lib.trace (step cfg) srv (r.inputs srv),
      ServerStep.Sends t ∧ ServerStep.StrandsNone t)
    (hrun : Lib.run (step cfg) srv (r.inputs srv) = .ok srv') :
    srv'.Registered ∧ srv'.Unarmed := by
  refine report_rule (fun srv => srv.Registered ∧ srv.Unarmed)
    (fun s srv => (srv.Registered ∧ srv.Unarmed) ∧ s.fd = r.fd ∧ (srv.machine.interest r.fd).isSome)
    ?_ ?_ ?_ ?_ ?_ ?_ (fun _ _ h => h.1) h hsteps hrun
  · intro srv ⟨h, hunarmed⟩ _ _ hq
    exact ⟨h.drop (hq.2.dropped r.fd rfl) rfl rfl, hunarmed⟩
  · intro srv s h hwatched hfind
    exact ⟨h, of_decide_eq_true (List.find?_eq_some_iff_append.1 hfind).1, hwatched⟩
  · intro srv s ⟨⟨h, hunarmed⟩, _⟩ hq
    exact ⟨h.drop (hq.2.dropped s.fd rfl) rfl rfl, hunarmed⟩
  · -- The descriptor stays with the multiplexer, for what is read after this.
    intro srv s srv' ⟨⟨h, hunarmed⟩, hfd, hwatched⟩ hstep hq
    have hflush := Server.sendPackets_registered h hq.1 hq.2 (Except.ok.inj hstep).symm
    exact ⟨⟨hflush.1, step_unarmed hunarmed hstep⟩, hfd, (hflush.2 r.fd).trans hwatched⟩
  · intro srv s src data srv' ⟨⟨h, hunarmed⟩, hfd, hwatched⟩ hstep
    exact ⟨Server.receive_registered h (hfd ▸ hwatched) hstep, step_unarmed hunarmed hstep⟩
  · -- The socket is destroyed, and its descriptor dropped.
    intro srv s e ⟨⟨h, hunarmed⟩, _⟩ he hq
    exact ⟨h.drop (hq.2.dropped s.fd (if_neg he)) rfl rfl, hunarmed⟩

/-- In every run of the main loop in which every `sendto` succeeds and no step leaves
    packets behind, every client with packets queued has its descriptor watched for
    writing. -/
theorem registered {cfg : Config} {machine : Machine} {socketpool : List Socket}
    {its : List Iteration} {srv : Server}
    (hrun : Lib.run (iterate cfg) (.boot machine socketpool) its = .ok srv)
    (hsends : ∀ t ∈ loopSteps cfg (.boot machine socketpool) its, t.Sends)
    (hstrands : ∀ t ∈ loopSteps cfg (.boot machine socketpool) its, t.StrandsNone) :
    srv.Registered := by
  refine (loop_rule (fun srv => srv.Registered ∧ srv.Unarmed) (fun sys srv h => ?_)
    (fun r srv srv' => report_registered) ⟨?_, ?_⟩ (fun t ht => ⟨hsends t ht, hstrands t ht⟩)
    hrun).1
  · rwa [Server.checkClients_unarmed h.2]
  · exact fun c hc => absurd hc List.not_mem_nil
  · exact fun c hc => absurd hc List.not_mem_nil

namespace Sample

/-- A datagram is ready on the descriptor, from a port. -/
def arrives (port : UInt16) (data : Bytes) : Report :=
  ⟨3, false, false, true, .datagram (.inet port 1) data, .ideal⟩

/-- The descriptor is ready for writing. -/
def drains : Report := ⟨3, false, true, false, .failed .again, .ideal⟩

/-- An iteration on some reports. -/
def iteration (reports : List Report) : Iteration := ⟨.ideal, reports⟩

end Sample

instance (m : Machine) (fd : Int) : Decidable (m.Writable fd) :=
  inferInstanceAs (Decidable (∃ status ∈ m.interest fd, _))

instance (srv : Server) : Decidable srv.Registered :=
  inferInstanceAs (Decidable (∀ c ∈ srv.clientpool.clients, _))

instance (t : ServerStep) : Decidable t.Sends :=
  inferInstanceAs (Decidable (∀ c ∈ t.pre.clientpool.clients, _))

instance (t : ServerStep) : Decidable t.StrandsNone :=
  decidable_of_iff
    ((∀ fd ∈ t.input.dropped, ∀ c ∈ t.pre.clientpool.clients, c.s.fd = fd → c.packetqueue = []) ∧
      ∀ c ∈ t.passed, c.packetqueue ≠ [] → ∀ d ∈ t.flushed, d.s.fd ≠ c.s.fd)
    ⟨fun h => ⟨h.1, h.2⟩, fun h => ⟨h.dropped, h.passed⟩⟩

namespace Sample

/-- Two clients of a descriptor, one of which has acknowledged a block. -/
def sharing : List Iteration :=
  [iteration [arrives 40000 (request .rrq []), arrives 40001 (request .rrq [])],
    iteration [drains, arrives 40000 (ackBytes 1)]]

/-- The server after some iterations. -/
def looped (its : List Iteration) : Server :=
  (Lib.run (iterate config) (boot [1]) its).toOption.getD (boot [1])

theorem run_looped {its : List Iteration}
    (h : (Lib.run (iterate config) (boot [1]) its).isOk = true) :
    Lib.run (iterate config) (boot [1]) its = .ok (looped its) :=
  Lib.eq_ok_of_isOk h (boot [1])

end Sample

theorem registered_sharing : (Sample.looped Sample.sharing).Registered :=
  registered (Sample.run_looped (by decide +kernel)) (by decide +kernel) (by decide +kernel)

/-- A client that is marked is flushed and removed, which clears the bit for the one
    behind it. -/
theorem not_registered :
    ¬∀ cfg machine socketpool its srv,
      Lib.run (iterate cfg) (.boot machine socketpool) its = .ok srv →
      (∀ t ∈ loopSteps cfg (.boot machine socketpool) its, ServerStep.Sends t) →
        srv.Registered := by
  intro h
  have hregistered := h Sample.config (Sample.machine [1]) [Sample.socket]
    [Sample.iteration [Sample.arrives 40000 (htons Opcode.error.code ++ [0, 0]),
      Sample.arrives 40001 (Sample.request .rrq []), Sample.drains]] _
    (Sample.run_looped (by decide +kernel)) (by decide +kernel)
  exact absurd hregistered (by decide +kernel)

end Nbstftp
