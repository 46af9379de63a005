import Nbstftp.History
import Nbstftp.Memory

/-!
# The calls of a step

What the main loop does is done for one client after the other: a client is found
or added, its packets are queued, sent and released, it is checked or removed. Each
of these is a *call* (`Server.call`), and a step of the server a run of calls
(`receivePackets_calls`, `checkClients_calls`, `sendPackets_calls`). The calls may
come in any order, though, and the count of the resends of a client may be
anything when it is checked: so what is proved of all runs of calls does not rest
on the order the server has them come in, nor on nobody being waited for.

A call for a client makes something of it, or takes it out of the pool
(`Task.client`), and releases some blocks (`Task.releases`); nothing else changes.
-/

namespace Nbstftp

/-- What is done for a client of the pool. -/
inductive Task
  /-- A packet is built, and queued as a fresh one. -/
  | queue (sys : Sys) (bytes : Bytes) (len : ℕ)
  | release
  /-- The rest of the handling of a datagram. -/
  | rest (f : State → State) (h : ∀ s, Aside s (f s) ∧ (f s).2.ptr = s.2.ptr)
  /-- The client is checked, whatever the count of its resends is. -/
  | check (sys : Sys) (waiting : UInt8)
  /-- The queue is sent, which does not fail. -/
  | send (sys : Sys) (h : ∀ ptr idx, (sys.sendto ptr idx).isSome)
  | remove

/-- A client is found or added for an address, or something is done for the one at an
    address in memory. -/
inductive PoolCall
  | accept (sys : Sys) (fd : Int) (addr : SockAddr)
  | client (ptr : ℕ) (task : Task)

def Task.run (srv : Server) (c : Client) : Task → Server
  | .queue sys bytes len =>
    let p := srv.machine.nmalloc bytes
    srv.put (queuePacket sys p.1 c p.2 len 1)
  | .release => srv.put (releaseLastpacket srv.machine c)
  | .rest f _ => srv.put (f (srv.machine, c))
  | .check sys waiting => srv.checkClient sys { c with waiting := waiting }
  | .send sys _ =>
    match srv.sendClient sys c with
    | .ok srv => srv
    | .error srv => srv
  | .remove => srv.removeClient c

namespace Server

/-- The client at an address in memory. -/
def clientAt (srv : Server) (ptr : ℕ) : Option Client :=
  srv.clientpool.clients.find? (·.ptr = ptr)

/-- A call; it does nothing if there is no such client. -/
def call (srv : Server) : PoolCall → Except Empty Server
  | .accept sys fd addr => .ok (srv.findOrAllocateClient sys fd addr).1
  | .client ptr task =>
    .ok (match srv.clientAt ptr with
      | some c => task.run srv c
      | none => srv)

variable {srv srv' srv'' : Server} {ptr : ℕ} {c : Client}

theorem clientAt_eq_some :
    srv.clientAt ptr = some c ↔ c ∈ srv.clientpool.clients ∧ c.ptr = ptr := by
  have hfound : ∀ {d : Client} {ptr : ℕ}, srv.clientAt ptr = some d →
      d ∈ srv.clientpool.clients ∧ d.ptr = ptr := fun h =>
    ⟨List.mem_of_find?_eq_some h, by simpa using List.find?_some h⟩
  refine ⟨hfound, ?_⟩
  rintro ⟨hc, rfl⟩
  cases h : srv.clientAt c.ptr with
  | none => exact absurd (decide_eq_true rfl) (List.find?_eq_none.1 h c hc)
  | some d => rw [eq_of_ptr (hfound h).1 hc (hfound h).2]

theorem clientAt_eq_none : srv.clientAt ptr = none ↔ ¬srv.Holds ptr := by
  rw [clientAt, List.find?_eq_none]
  simp only [decide_eq_true_eq, Holds, List.mem_map, not_exists, not_and]

/-- The call for a client of the pool. -/
theorem call_client (hc : c ∈ srv.clientpool.clients) (task : Task) :
    srv.call (.client c.ptr task) = .ok (task.run srv c) := by
  rw [call, clientAt_eq_some.2 ⟨hc, rfl⟩]

/-! ## The steps of the main loop -/

/-- Some calls lead from one server to another. -/
def Calls (srv srv' : Server) : Prop := ∃ calls, Lib.run call srv calls = .ok srv'

theorem Calls.refl (srv : Server) : srv.Calls srv := ⟨[], rfl⟩

theorem Calls.trans (h : srv.Calls srv') (h' : srv'.Calls srv'') : srv.Calls srv'' := by
  obtain ⟨calls, hcalls⟩ := h
  obtain ⟨calls', hcalls'⟩ := h'
  exact ⟨calls ++ calls', (Lib.run_append hcalls).trans hcalls'⟩

theorem Calls.single {k : PoolCall} (h : srv.call k = .ok srv') : srv.Calls srv' :=
  ⟨[k], Lib.run_cons_ok h⟩

theorem Calls.task (hc : c ∈ srv.clientpool.clients) (task : Task) : srv.Calls (task.run srv c) :=
  .single (call_client hc task)

/-- Writing to a client twice. -/
theorem put_put (srv : Server) (m m' : Machine) {d e : Client} (h : d.ptr = e.ptr) :
    (srv.put (m, d)).put (m', e) = srv.put (m', e) := by
  have hpool : (srv.clientpool.update d).update e = srv.clientpool.update e := by
    rw [ClientPool.mk.injEq]
    refine (List.map_map ..).trans (List.map_congr_left fun x _ => ?_)
    by_cases hx : x.ptr = e.ptr <;> simp [hx, h]
  exact congrArg (fun pool => ({ srv with machine := m', clientpool := pool } : Server)) hpool

end Server

/-- A client as it would be at another address in memory. -/
def Client.placed (c : Client) (ptr : ℕ) : Client := { c with ptr := ptr }

open Classical in
/-- What is done for the queue of a client while a datagram is handled is done in calls;
    the client is at its address in memory all along. -/
theorem Upkeep.calls {s s' : State} (h : Upkeep s s') {srv : Server} {ptr : ℕ}
    (hc : s.2.placed ptr ∈ srv.clientpool.clients) (hm : srv.machine = s.1) :
    srv.Calls (srv.put (s'.1, s'.2.placed ptr)) := by
  induction h generalizing srv with
  | @aside s s' h =>
    -- A task is a function of the state: this one acts on the state at hand only.
    let f : State → State := fun x =>
      if x = (s.1, s.2.placed ptr) then (s'.1, s'.2.placed ptr) else x
    have hf : ∀ x, Aside x (f x) ∧ (f x).2.ptr = x.2.ptr := by
      intro x
      dsimp only [f]
      split
      · next hx =>
        rw [hx]
        exact ⟨⟨h.socket, h.waiting, h.lastpacket, h.packetqueue, h.nextresend, h.interest,
          h.frees, h.nexttok, h.blk⟩, rfl⟩
      · exact ⟨.refl x, rfl⟩
    have hrun : Task.run srv (s.2.placed ptr) (.rest f hf) =
        srv.put (s'.1, s'.2.placed ptr) := by
      rw [Task.run, hm]
      exact congrArg srv.put (if_pos rfl)
    exact hrun ▸ Server.Calls.task hc _
  | release m d =>
    have hrun : releaseLastpacket m (d.placed ptr) =
        ((releaseLastpacket m d).1, (releaseLastpacket m d).2.placed ptr) := by
      simp only [releaseLastpacket, Client.placed]
      cases d.lastpacket with
      | none => rfl
      | some last => by_cases ha : last.allocated = 2 <;> simp [ha]
    have hcalls := Server.Calls.task hc .release
    rwa [Task.run, hm, hrun] at hcalls
  | queue sys m d bytes len =>
    have hcalls := Server.Calls.task hc (.queue sys bytes len)
    rwa [Task.run, hm] at hcalls
  | @trans s s' s'' h h' ih ih' =>
    have hmem : s'.2.placed ptr ∈ (srv.put (s'.1, s'.2.placed ptr)).clientpool.clients :=
      ClientPool.mem_update_self hc rfl
    have hcalls := ih' hmem rfl
    rw [Server.put_put] at hcalls
    · exact (ih hc hm).trans hcalls
    · rfl

namespace Server

variable {srv srv' : Server}

/-- Receiving a datagram is done in calls. -/
theorem receivePackets_calls {cfg : Config} {sys : Sys} {s : Socket} {src : SockAddr}
    {data : Bytes} {n : Int}
    (h : srv.receivePackets cfg sys s (.datagram src data) = .ok (srv', n)) : srv.Calls srv' := by
  rcases hfound : srv.findOrAllocateClient sys s.fd src with ⟨srv₁, found⟩
  cases found with
  | null | released | astray =>
    simp only [receivePackets, hfound] at h
    cases h
  | client c =>
    rw [receivePackets_turn hfound] at h
    cases hturn : turn cfg (srv₁.machine, c) (receiving sys data) with
    | error crash =>
      rw [hturn] at h
      cases h
    | ok st =>
      rw [hturn] at h
      cases h
      have hmem : c.placed c.ptr ∈ srv₁.clientpool.clients :=
        mem_of_findOrAllocateClient sys srv hfound
      have hcalls := (turn_upkeep sys _ _ hturn).calls hmem rfl
      rw [← turn_ptr hturn] at hcalls
      exact (Calls.single (k := .accept sys s.fd src) (by rw [call, hfound])).trans hcalls

/-- So is checking the clients. -/
theorem checkClients_calls (srv : Server) (sys : Sys) : srv.Calls (srv.checkClients sys) := by
  rw [checkClients]
  rcases Lib.foreach_invariant (·.clientpool.clients)
    (fun srv c => (.ok (srv.checkClient sys c) : Except Empty Server)) srv.Calls (fun _ => True)
    (fun srv₁ c srv₂ h hc hs => by
      cases hs
      exact h.trans (.task hc (.check sys c.waiting)))
    (fun _ _ _ _ _ _ => trivial) (s := srv) (.refl srv) with ⟨srv', hs, h⟩ | ⟨e, -, -⟩
  · simp only [hs]
    exact h
  · exact e.elim

/-- So is sending the queues, if that does not fail. -/
theorem sendPackets_calls (srv : Server) {sys : Sys} (h : ∀ ptr idx, (sys.sendto ptr idx).isSome)
    (s : Socket) : srv.Calls (srv.sendPackets sys s).1 := by
  have hsend : ∀ {srv₁ : Server} {c : Client},
      sendClient sys srv₁ c = .ok (Task.run srv₁ c (.send sys h)) := fun {srv₁ c} => by
    have hsends : c.Sends sys := fun idx _ => h c.ptr idx
    simp only [Task.run, sendClient_ok hsends]
  rw [sendPackets]
  rcases Lib.foreach_invariant (·.clientpool.clients) (sendClient sys) srv.Calls (fun _ => False)
    (fun srv₁ c srv₂ hcalls hc hs => by
      cases hsend.symm.trans hs
      exact hcalls.trans (.task hc (.send sys h)))
    (fun srv₁ c srv₂ _ _ hs => by cases hsend.symm.trans hs) (s := srv) (.refl srv) with
    ⟨srv', hs, hcalls⟩ | ⟨srv', -, hfails⟩
  · simp only [hs]
    exact hcalls
  · exact hfails.elim

end Server

/-! ## What a call makes of its client -/

/-- The tokens of the packets of a client: those of its queue, and the last one. -/
def Client.packetToks (c : Client) : List ℕ :=
  c.packetqueue.map (·.p.tok) ++ c.lastpacket.toList.map (·.p.tok)

/-- The blocks released with a client. -/
def Client.left (c : Client) : List ℕ := c.s.toks ++ c.buffers.map (·.tok)

/-- The blocks released when the queue of a client is sent. -/
def Client.sentToks (c : Client) : List ℕ :=
  (c.packetqueue.filter fun pq => pq.allocated ≠ 0 ∧ pq.allocated ≠ 2).map (·.p.tok)

/-- An answer of a client is waited for, and has not come in time. -/
def Client.Due (c : Client) (sys : Sys) (waiting : UInt8) : Prop :=
  waiting ≠ 0 ∧ c.nextresend ≤ sys.time

instance (c : Client) (sys : Sys) (waiting : UInt8) : Decidable (c.Due sys waiting) :=
  inferInstanceAs (Decidable (_ ∧ _))

/-- The last packet is queued again. -/
def Server.resend (sys : Sys) (m : Machine) (c : Client) (waiting : UInt8) : State :=
  let last := c.lastpacket.getD .zero
  queuePacket sys (m.callEvent .resend) { c with waiting := waiting + 1 } last.p last.len 2

namespace Task

/-- What becomes of the machine and the client, or of the machine alone. -/
def client (m : Machine) (c : Client) : Task → Option Client
  | .queue sys bytes len => some (queuePacket sys (m.nmalloc bytes).1 c (m.nmalloc bytes).2 len 1).2
  | .release => some (releaseLastpacket m c).2
  | .rest f _ => some (f (m, c)).2
  | .check sys waiting =>
    if c.Due sys waiting then
      if 3 ≤ waiting then none else some (Server.resend sys m c waiting).2
    else some c
  | .send sys _ => keep sys c
  | .remove => none

/-- The blocks released. -/
def releases (c : Client) : Task → List ℕ
  | .release => (releaseEffects c).filterMap Effect.freed
  | .check sys waiting => if c.Due sys waiting ∧ 3 ≤ waiting then c.left else []
  | .send sys _ => c.sentToks ++ if c.destroy then (c.flushed sys).left else []
  | .remove => c.left
  | .queue .. | .rest .. => []

variable {srv : Server} {c : Client}

theorem run_check (sys : Sys) (waiting : UInt8) :
    Task.run srv c (.check sys waiting) =
      if c.Due sys waiting then
        if 3 ≤ waiting then srv.removeClient c
        else srv.put (Server.resend sys srv.machine c waiting)
      else srv :=
  rfl

theorem run_send {sys : Sys} (h : ∀ ptr idx, (sys.sendto ptr idx).isSome) :
    Task.run srv c (.send sys h) = srv.afterSending sys c := by
  have hsends : c.Sends sys := fun idx _ => h c.ptr idx
  simp only [Task.run, Server.sendClient_ok hsends]

/-- A call changes one client, or takes it out of the pool. -/
theorem run_clients {pre rest : List Client} (hpool : srv.clientpool.clients = pre ++ c :: rest)
    (task : Task) : (task.run srv c).clientpool.clients =
      pre ++ ((task.client srv.machine c).toList ++ rest) := by
  have hput : ∀ {st : State}, st.2.ptr = c.ptr →
      (srv.put st).clientpool.clients = pre ++ ((some st.2).toList ++ rest) := fun hptr =>
    ClientPool.update_eq hpool hptr
  have hremove : (srv.removeClient c).clientpool.clients = pre ++ rest :=
    ClientPool.remove_eq hpool
  cases task with
  | queue sys bytes len => exact hput rfl
  | release => exact hput (congrArg Identity.ptr (releaseLastpacket_reacts _ c).identity)
  | rest f h => exact hput (h _).2
  | check sys waiting =>
    rw [run_check, client]
    split
    · split
      · exact hremove
      · exact hput rfl
    · exact hpool
  | send sys h =>
    rw [run_send]
    exact Server.afterSending_clients hpool
  | remove => exact hremove

/-- A client leaves its blocks. -/
theorem removeClient_frees (srv : Server) (c : Client) :
    (srv.removeClient c).machine.frees = srv.machine.frees ++ c.left := by
  rw [Server.removeClient_machine, Machine.frees_emits, Client.left, Socket.toks]
  simp [Effect.freed, List.filterMap_map, Function.comp_def]

/-- Of some packets that are sent, the fresh ones are released. -/
theorem frees_sending (c : Client) (queue : List Packetqueue) :
    (queue.flatMap c.sending).filterMap Effect.freed =
      (queue.filter fun pq => pq.allocated ≠ 0 ∧ pq.allocated ≠ 2).map (·.p.tok) := by
  induction queue with
  | nil => rfl
  | cons pq queue ih =>
    rw [List.flatMap_cons, List.filterMap_append, ih, Client.sending]
    by_cases h : pq.allocated ≠ 0 ∧ pq.allocated ≠ 2
    · rw [if_pos h, List.filter_cons_of_pos (by simpa using h), List.map_cons]
      rfl
    · rw [if_neg h, List.filter_cons_of_neg (by simpa using h)]
      rfl

theorem cleared_frees (srv : Server) (c : Client) :
    (srv.cleared c).frees = srv.machine.frees ++ c.sentToks :=
  (srv.machine.frees_emits _).trans (congrArg (srv.machine.frees ++ ·) (frees_sending c _))

/-- It releases some blocks. -/
theorem run_frees (task : Task) : (task.run srv c).machine.frees =
    srv.machine.frees ++ task.releases c := by
  cases task with
  | queue sys bytes len => exact (List.append_nil _).symm
  | release =>
    have heffects := (releaseLastpacket_reacts srv.machine c).effects
    exact (congrArg (List.filterMap Effect.freed) heffects).trans List.filterMap_append
  | rest f h => exact (h _).1.frees.trans (List.append_nil _).symm
  | check sys waiting =>
    rw [run_check, releases]
    by_cases hdue : c.Due sys waiting
    · by_cases hlast : 3 ≤ waiting
      · rw [if_pos hdue, if_pos hlast, if_pos ⟨hdue, hlast⟩]
        exact removeClient_frees srv c
      · rw [if_pos hdue, if_neg hlast, if_neg fun h => hlast h.2]
        exact Machine.frees_emit _ _
    · rw [if_neg hdue, if_neg fun h => hdue h.1, List.append_nil]
  | send sys h =>
    rw [run_send, releases, Server.afterSending]
    split
    · rw [removeClient_frees, ← List.append_assoc, ← cleared_frees]
      exact congrArg (· ++ _) (Server.closeFile_frees _ _)
    · exact (cleared_frees srv c).trans (congrArg _ (List.append_nil _).symm)
  | remove => exact removeClient_frees srv c

theorem nexttok_le_run (task : Task) : srv.machine.nexttok ≤ (task.run srv c).machine.nexttok := by
  have hremove : srv.machine.nexttok ≤ (srv.removeClient c).machine.nexttok := by
    rw [Server.removeClient_machine]
    exact Nat.le_refl _
  cases task with
  | queue sys bytes len => exact Nat.le_add_right _ 2
  | release => exact (releaseLastpacket_frugal srv.machine c).nexttok
  | rest f h => exact (h (srv.machine, c)).1.nexttok
  | check sys waiting =>
    rw [run_check]
    split
    · split
      · exact hremove
      · exact Nat.le_refl _
    · exact Nat.le_refl _
  | send sys h =>
    rw [run_send, Server.afterSending_nexttok]
  | remove => exact hremove

end Task

/-- A client was added, or could not be: then what was allocated for it is released. -/
structure Server.Accepts (srv srv' : Server) (s : Socket) : Prop where
  nexttok : srv'.machine.nexttok = srv.machine.nexttok + 2
  frees : srv'.machine.frees = srv.machine.frees ∨
    srv'.machine.frees = srv.machine.frees ++ s.toks
  clients : srv'.clientpool.clients = srv.clientpool.clients ∨
    srv'.clientpool.clients = srv.clientpool.clients ++ [.new srv.clientpool.fresh s]

/-- Finding or adding a client changes none of those there are. -/
theorem Server.accepts (sys : Sys) (srv : Server) (fd : Int) (addr : SockAddr) :
    (srv.findOrAllocateClient sys fd addr).1 = srv ∨
      srv.Accepts (srv.findOrAllocateClient sys fd addr).1 (srv.newSocket sys fd addr) := by
  cases hfind : srv.findClient fd addr with
  | some c =>
    rw [findOrAllocateClient, hfind]
    exact .inl rfl
  | none =>
    refine .inr ?_
    rw [findOrAllocateClient_none sys srv hfind]
    cases sys.pushSocket with
    | stored =>
      cases sys.pushClient with
      | stored | astray => exact ⟨rfl, .inl rfl, .inr rfl⟩
      | nomem =>
        refine ⟨?_, .inr (Task.removeClient_frees _ _), .inl ?_⟩
        · exact congrArg Machine.nexttok (removeClient_machine _ _)
        · have hpool : (srv.clientpool.push (srv.newSocket sys fd addr)).clients =
              srv.clientpool.clients ++ .new _ (srv.newSocket sys fd addr) :: [] := rfl
          exact (ClientPool.remove_eq hpool).trans (List.append_nil _)
    | nomem =>
      refine ⟨rfl, .inr ?_, .inl rfl⟩
      refine (Machine.frees_emit ..).trans ((congrArg (· ++ _) (Machine.frees_emit ..)).trans ?_)
      exact List.append_assoc ..
    | astray => exact ⟨rfl, .inl rfl, .inl rfl⟩

end Nbstftp
