import Nbstftp.Failure
import Nbstftp.Sockets

/-!
# The dispatch of epoll

`ProcessSockets` goes over the events `epoll_wait` has filled in: the socket of the
descriptor is looked up and copied, and flushed and read as the event says, or
destroyed. What it does to the server is what the main loop does (`dispatch_watched`);
here, the calls made for sockets are recorded, in order (`dispatchCalls`), also those
`RemoveClient` makes for the clients that flushing removes (`flushCalls`).

Flushing and reading are tested one after the other: a socket that is destroyed as
flushing failed, or with its client, is read nevertheless if the event says so
(`not_touches_no_destroyed`). Other ways to touch a destroyed socket lead from one event
to a later one, by way of its client (`touches_no_destroyed_iff`).
-/

namespace Nbstftp

/-- A call made for a socket while events are dispatched. -/
inductive Call
  | send (s : Socket)
  | receive (s : Socket)
  | destroy (s : Socket)
  deriving DecidableEq

def Call.socket : Call → Socket
  | .send s | .receive s | .destroy s => s

/-- The socket that is destroyed by a call. -/
def Call.destroyed : Call → Option Socket
  | .destroy s => some s
  | _ => none

/-- The queue of a client is sent; `RemoveClient` destroys the socket of one that is marked. -/
def recordClient (sys : Sys) (r : Server × List Call) (c : Client) :
    Except (Server × List Call) (Server × List Call) :=
  match r.1.sendClient sys c with
  | .ok srv => .ok (srv, r.2 ++ if c.destroy then [.destroy c.s] else [])
  | .error srv => .error (srv, r.2)

/-- The calls made for sockets in `SendPackets`. -/
def flushCalls (sys : Sys) (srv : Server) : List Call :=
  match Lib.foreach (·.1.clientpool.clients) (recordClient sys) (srv, []) with
  | .ok r => r.2
  | .error r => r.2

/-- The calls made for sockets in `ReceivePackets`: where a client cannot be added, `AddSocket`
    or `RemoveClient` destroys its socket. -/
def addCalls (sys : Sys) (srv : Server) (s : Socket) : Received → List Call
  | .failed _ => []
  | .datagram src _ =>
    match (srv.findOrAllocateClient sys s.fd src).2 with
    | .null | .released => [.destroy (srv.newSocket sys s.fd src)]
    | .client _ | .astray => []

/-- `if (ev->events & EPOLLOUT && SendPackets(s) == -1) DestroySocket(s, 1)`. -/
def writeReady (sys : Sys) (srv : Server) (s : Socket) : Server × List Call :=
  let r := srv.sendPackets sys s
  let calls := .send s :: flushCalls sys srv
  if r.2 = -1 then (r.1.destroySocket s true, calls ++ [.destroy s]) else (r.1, calls)

/-- `if (ev->events & EPOLLIN && ReceivePackets(s) == -1) DestroySocket(s, 1)`. -/
def readReady (cfg : Config) (sys : Sys) (srv : Server) (s : Socket) (received : Received) :
    Except Crash Server × List Call :=
  let calls := .receive s :: addCalls sys srv s received
  match srv.receivePackets cfg sys s received with
  | .error crash => (.error crash, calls)
  | .ok r =>
    if r.2 = -1 then (.ok (r.1.destroySocket s true), calls ++ [.destroy s])
    else (.ok r.1, calls)

/-- An event whose socket was found, and modules were told. -/
def serveReady (cfg : Config) (srv : Server) (s : Socket) (ev : Report) :
    Except Crash Server × List Call :=
  if ev.failed then (.ok (srv.destroySocket s true), [.destroy s])
  else
    let w := if ev.writable then writeReady ev.sys srv s else (srv, [])
    if ev.readable then
      let r := readReady cfg ev.sys w.1 s ev.received
      (r.1, w.2 ++ r.2)
    else (.ok w.1, w.2)

/-- The body of the loop: the server it leaves, and the calls it makes for the socket. -/
def dispatchEvent (cfg : Config) (srv : Server) (ev : Report) : Except Crash Server × List Call :=
  match srv.findSocket ev.fd with
  | none => (.ok (srv.closeUnknown ev.fd), [])
  | some s =>
    serveReady cfg { srv with machine := srv.machine.callEvent .socketActivity } s ev

/-- What an event does to the server, whether its descriptor is watched still or not. -/
def dispatch (cfg : Config) (srv : Server) (ev : Report) : Except Crash Server :=
  (dispatchEvent cfg srv ev).1

/-- The calls made for sockets while some events are dispatched. -/
def dispatchCalls (cfg : Config) (srv : Server) (events : List Report) : List Call :=
  (Lib.trace (dispatch cfg) srv events).flatMap fun t => (dispatchEvent cfg t.pre t.input).2

/-- A later call leaves alone the socket that a call destroyed. -/
def Call.SparedBy (call later : Call) : Prop :=
  ∀ s ∈ call.destroyed, later.socket.entry ≠ s.entry

instance (call later : Call) : Decidable (call.SparedBy later) :=
  inferInstanceAs (Decidable (∀ s ∈ call.destroyed, _))

/-- No socket is touched by a call after one that destroyed it: so it is destroyed once. -/
def TouchesNoDestroyed (calls : List Call) : Prop := calls.Pairwise Call.SparedBy

/-- The sockets of the pools are different ones, each with a receive buffer that was
    allocated for it. -/
structure Server.OwnBuffers (srv : Server) : Prop where
  nodup : (srv.socketpool.map Socket.entry).Nodup
  allocated : ∀ s ∈ srv.socketpool, s.packet < srv.machine.nexttok
  apart : ∀ c ∈ srv.clientpool.clients, ∀ d ∈ srv.clientpool.clients,
    c.s.entry = d.s.entry → c.ptr = d.ptr
  given : ∀ c ∈ srv.clientpool.clients, c.s.packet < srv.machine.nexttok

/-! ## What events do to sockets -/

/-- Receiving fails. -/
def Received.Fails (received : Received) : Prop :=
  ∃ e, received = .failed e ∧ e ≠ .again ∧ e ≠ .intr

instance (received : Received) : Decidable received.Fails :=
  match received with
  | .failed e => decidable_of_iff (¬(e = .again ∨ e = .intr)) (by simp [Received.Fails])
  | .datagram _ _ => .isFalse fun ⟨_, h, _⟩ => nomatch h

namespace Report

variable (ev : Report) (srv : Server)

/-- The socket an event is dealt with for, if there is anything to do. -/
def socket : Option Socket :=
  if ev.failed ∨ ev.writable ∨ ev.readable then srv.findSocket ev.fd else none

/-- Its socket, if `ProcessSockets` destroys it for a failure. -/
def closed : Option Socket :=
  if ev.failed ∨ (ev.writable ∧ (srv.failing ev.sys).isSome) ∨
      (ev.readable ∧ ev.received.Fails) then srv.findSocket ev.fd
  else none

/-- The clients that flushing its socket removes. -/
def removed : List Client :=
  if (srv.findSocket ev.fd).isSome ∧ ev.failed = false ∧ ev.writable then srv.finished ev.sys
  else []

/-- An event of a socket that has not failed and is ready for writing: it is destroyed as
    `sendto` fails, or with its client, and then read; or destroyed for both reasons. -/
def TouchesAgain : Prop :=
  ev.failed = false ∧ ev.writable = true ∧ ∃ s ∈ srv.findSocket ev.fd,
    ((srv.failing ev.sys).isSome ∧ ev.readable = true) ∨
      (∃ c ∈ srv.finished ev.sys, c.s.entry = s.entry) ∧
        ((srv.failing ev.sys).isSome ∨ ev.readable = true)

end Report

/-- An event destroys a socket for a failure whose client a later one removes, or removes a
    client whose socket a later one is dealt with for. -/
def Crosses (t u : Lib.Transition Server Report Crash) : Prop :=
  (∃ s ∈ t.input.closed t.pre, ∃ c ∈ u.input.removed u.pre, c.s.entry = s.entry) ∨
    ∃ c ∈ t.input.removed t.pre, ∃ s ∈ u.input.socket u.pre, s.entry = c.s.entry

section

variable {cfg : Config} {sys : Sys} {srv srv' : Server} {s : Socket} {ev : Report}

/-! ## The main loop -/

theorem writeReady_server :
    (writeReady sys srv s).1 = destroyFailed s (srv.sendPackets sys s) := by
  simp only [writeReady, destroyFailed]
  split <;> rfl

theorem readReady_server (received : Received) :
    (readReady cfg sys srv s received).1 =
      (srv.receivePackets cfg sys s received).map (destroyFailed s) := by
  simp only [readReady]
  cases srv.receivePackets cfg sys s received with
  | error crash => rfl
  | ok r =>
    simp only [Except.map, destroyFailed]
    split <;> rfl

/-- A descriptor that is watched is dealt with as in the main loop. -/
theorem dispatch_watched (h : (srv.machine.interest ev.fd).isSome) :
    dispatch cfg srv ev = processSocket cfg srv ev := by
  have hnone : ¬(srv.machine.interest ev.fd).isNone := by
    rw [Option.isNone_iff_eq_none]
    exact Option.isSome_iff_ne_none.1 h
  rw [processSocket, Report.inputs, if_neg hnone, dispatch, dispatchEvent]
  cases hfind : srv.findSocket ev.fd with
  | none => rfl
  | some s =>
    simp only
    rw [Lib.run_cons_ok (show step cfg srv ⟨ev.sys, .activity s⟩ =
      .ok { srv with machine := srv.machine.callEvent .socketActivity } from rfl)]
    generalize { srv with machine := srv.machine.callEvent .socketActivity } = srv₁
    rw [serveReady]
    cases ev.failed with
    | true => rfl
    | false =>
      have hread : ∀ srv₂, (if ev.readable then (readReady cfg ev.sys srv₂ s ev.received).1
          else .ok srv₂) = Lib.run (step cfg) srv₂
            (if ev.readable then [⟨ev.sys, .readable s ev.received⟩] else []) := by
        intro srv₂
        cases ev.readable with
        | false => rfl
        | true =>
          rw [if_pos rfl, if_pos rfl, readReady_server, Lib.run]
          simp only [step]
          cases (srv₂.receivePackets cfg ev.sys s ev.received).map (destroyFailed s) <;> rfl
      -- Flushing is a step of its own in the main loop, and reading comes after it.
      cases hw : ev.writable with
      | false =>
        refine Eq.trans ?_ (hread srv₁)
        cases ev.readable <;> rfl
      | true =>
        rw [if_neg Bool.false_ne_true, if_neg Bool.false_ne_true, if_pos rfl, if_pos rfl,
          List.singleton_append, Lib.run_cons_ok (show step cfg srv₁ ⟨ev.sys, .writable s⟩ =
            .ok (writeReady ev.sys srv₁ s).1 by rw [writeReady_server]; rfl), ← hread]
        cases ev.readable <;> rfl

/-! ## Flushing -/

theorem sendClient_recorded (r : Server × List Call) (c : Client) :
    r.1.sendClient sys c = ((recordClient sys r c).map Prod.fst).mapError Prod.fst := by
  rw [recordClient]
  cases r.1.sendClient sys c <;> rfl

/-- That calls are recorded changes nothing else. -/
theorem sendPackets_recorded (sys : Sys) (srv : Server) (s : Socket) :
    srv.sendPackets sys s =
      match Lib.foreach (·.1.clientpool.clients) (recordClient sys) (srv, []) with
      | .ok r => (r.1, 0)
      | .error r => (r.1, -1) := by
  rw [Server.sendPackets, Lib.foreach_map sendClient_recorded (srv, [])]
  cases Lib.foreach (fun r : Server × List Call => r.1.clientpool.clients) (recordClient sys)
    (srv, []) <;> rfl

/-- Flushing destroys the sockets of the clients that are removed. -/
theorem flushCalls_eq (sys : Sys) (srv : Server) :
    flushCalls sys srv = (srv.finished sys).map fun c => .destroy c.s := by
  rcases Lib.foreach_rule (·.1.clientpool.clients) (recordClient sys) (keep sys)
    (fun pre r => (∀ d ∈ Lib.visited (keep sys) false pre, d.Sends sys) ∧
      r.2 = ((Lib.visited (keep sys) false pre).filter (·.destroy)).map fun c => .destroy c.s)
    (fun r => r.2 = (srv.finished sys).map fun c => .destroy c.s) (s := (srv, []))
    ⟨fun d hd => absurd hd List.not_mem_nil, rfl⟩
    (fun pre c rest r _ hk hR => by
      rw [Lib.visited_append, hk, show Lib.visited (keep sys) true [c] = [] from rfl,
        List.append_nil]
      exact hR)
    (fun pre c rest r hl hk hpool hR => by
      rcases c.sends_or_failsAt sys with hsends | ⟨idx, hfails⟩
      · refine .inl ⟨(r.1.afterSending sys c, r.2 ++ if c.destroy then [.destroy c.s] else []),
          by rw [recordClient, Server.sendClient_ok hsends], Server.afterSending_clients hpool, ?_⟩
        have hvisited : Lib.visited (keep sys) false (pre ++ [c]) =
            Lib.visited (keep sys) false pre ++ [c] := by
          rw [Lib.visited_append, hk]
          rfl
        rw [hvisited, List.filter_append, List.map_append, ← hR.2]
        refine ⟨fun d hd => ?_, by cases hd : c.destroy <;> simp [hd]⟩
        rcases List.mem_append.1 hd with hd | hd
        · exact hR.1 d hd
        · rw [List.mem_singleton.1 hd]
          exact hsends
      · obtain ⟨n, hn⟩ : ∃ n, r.1.sendClient sys c = .error (r.1.afterFailing c idx n) :=
          Server.sendClient_error hfails
        refine .inr ⟨(r.1.afterFailing c idx n, r.2), by rw [recordClient, hn], ?_⟩
        rw [Server.finished_of_failsAt hl hk hR.1 hfails]
        exact hR.2) with ⟨r, hr, -, hsends, hcalls⟩ | ⟨r, hr, hcalls⟩
  · simp only [flushCalls, hr, hcalls, Server.finished, takeWhile_sends hsends]
  · simp only [flushCalls, hr, hcalls]

/-- Flushing fails exactly if `sendto` fails for a client that is visited. -/
theorem Server.sendPackets_failed_iff :
    (srv.sendPackets sys s).2 = -1 ↔ (srv.failing sys).isSome := by
  rcases sendPackets_cases sys srv s with ⟨srv', hs, hflushed⟩ |
    ⟨srv', hs, pre, c, rest, idx, hstopped⟩
  · rw [hs, hflushed.failing]
    exact iff_of_false (show ¬(0 : Int) = -1 by decide) (by simp)
  · rw [hs, hstopped.failing]
    exact iff_of_true rfl rfl

/-- The clients that are left were there before, with their sockets, and are not removed. -/
theorem Server.sendPackets_left {d : Client}
    (hd : d ∈ (srv.sendPackets sys s).1.clientpool.clients) :
    ∃ e ∈ srv.clientpool.clients, e ∉ srv.finished sys ∧ e.ptr = d.ptr ∧
      e.s.entry = d.s.entry := by
  rcases sendPackets_cases sys srv s with ⟨srv', hs, hflushed⟩ |
    ⟨srv', hs, pre, c, rest, idx, hstopped⟩
  · rw [hs, hflushed.clients] at hd
    exact notMem_removed (s := s) (.ok srv) (List.append_nil _).symm hd
  · obtain ⟨n, hclients⟩ := hstopped.clients
    have hpool := hstopped.pool
    rw [hs, hclients] at hd
    rcases List.mem_append.1 hd with hd | hd
    · obtain ⟨e, he, hleft⟩ := notMem_removed (s := s) (.ok srv) hpool hd
      exact ⟨e, hpool ▸ List.mem_append_left _ he, hleft⟩
    -- Flushing stopped at a client: it is not removed, nor is any after it.
    have hfinished := finished_of_failsAt hpool hstopped.reached hstopped.sends hstopped.fails
    have hnodup : srv.clientpool.clients.Nodup := .of_map _ srv.clientpool.nodup
    rw [hpool, List.nodup_append] at hnodup
    have hleft : ∀ e ∈ c :: rest, e ∉ srv.finished sys := fun e he hmem => by
      rw [hfinished] at hmem
      exact hnodup.2.2 e ((Lib.visited_sublist false pre).subset (List.mem_filter.1 hmem).1) e he
        rfl
    rcases List.mem_cons.1 hd with rfl | hd
    · exact ⟨c, hpool ▸ List.mem_append_right _ List.mem_cons_self,
        hleft c List.mem_cons_self, rfl, rfl⟩
    · exact ⟨d, hpool ▸ List.mem_append_right _ (List.mem_cons_of_mem c hd),
        hleft d (List.mem_cons_of_mem c hd), rfl, rfl⟩

/-! ## The pools -/

/-- The sockets of a server are some of another one, and new ones; so are those of its
    clients. -/
structure Server.Renews (srv srv' : Server) : Prop where
  nexttok : srv.machine.nexttok ≤ srv'.machine.nexttok
  sockets : ∀ t ∈ srv'.socketpool, t ∈ srv.socketpool ∨ srv.machine.nexttok ≤ t.packet
  clients : ∀ d ∈ srv'.clientpool.clients,
    (∃ c ∈ srv.clientpool.clients, c.s.entry = d.s.entry) ∨ srv.machine.nexttok ≤ d.s.packet
  own : srv.OwnBuffers → srv'.OwnBuffers

namespace Server

theorem Renews.refl (srv : Server) : srv.Renews srv :=
  ⟨Nat.le_refl _, fun _ ht => .inl ht, fun d hd => .inl ⟨d, hd, rfl⟩, id⟩

theorem packet_eq {s t : Socket} (h : s.entry = t.entry) : s.packet = t.packet :=
  (congrArg Socket.packet h :)

theorem Renews.trans {srv₁ srv₂ srv₃ : Server} (h : srv₁.Renews srv₂) (h' : srv₂.Renews srv₃) :
    srv₁.Renews srv₃ where
  nexttok := Nat.le_trans h.nexttok h'.nexttok
  sockets t ht := by
    rcases h'.sockets t ht with ht | hge
    · exact h.sockets t ht
    · exact .inr (Nat.le_trans h.nexttok hge)
  clients d hd := by
    rcases h'.clients d hd with ⟨c, hc, hentry⟩ | hge
    · rcases h.clients c hc with ⟨b, hb, hentry'⟩ | hge
      · exact .inl ⟨b, hb, hentry'.trans hentry⟩
      · exact .inr (packet_eq hentry ▸ hge)
    · exact .inr (Nat.le_trans h.nexttok hge)
  own hown := h'.own (h.own hown)

/-- Sockets and clients are only taken out. -/
theorem Renews.of_sublist (hn : srv'.machine.nexttok = srv.machine.nexttok)
    (hsub : srv'.socketpool.Sublist srv.socketpool)
    (hleft : ∀ d ∈ srv'.clientpool.clients, ∃ c ∈ srv.clientpool.clients,
      c.ptr = d.ptr ∧ c.s.entry = d.s.entry) : srv.Renews srv' where
  nexttok := Nat.le_of_eq hn.symm
  sockets _ ht := .inl (hsub.subset ht)
  clients d hd := by
    obtain ⟨c, hc, -, hentry⟩ := hleft d hd
    exact .inl ⟨c, hc, hentry⟩
  own h := by
    refine ⟨h.nodup.sublist (hsub.map _), fun _ ht => hn ▸ h.allocated _ (hsub.subset ht),
      fun d hd e he hentry => ?_, fun d hd => ?_⟩
    · obtain ⟨c, hc, hptr, hcd⟩ := hleft d hd
      obtain ⟨b, hb, hptr', hbe⟩ := hleft e he
      rw [← hptr, ← hptr']
      exact h.apart c hc b hb (hcd.trans (hentry.trans hbe.symm))
    · obtain ⟨c, hc, -, hcd⟩ := hleft d hd
      exact hn ▸ packet_eq hcd ▸ h.given c hc

theorem destroySocket_sublist (srv : Server) (s : Socket) (closefd : Bool) :
    (srv.destroySocket s closefd).socketpool.Sublist srv.socketpool :=
  List.eraseP_sublist

theorem destroySocket_renews (srv : Server) (s : Socket) : srv.Renews (srv.destroySocket s true) :=
  .of_sublist rfl (srv.destroySocket_sublist s true) fun d hd => ⟨d, hd, rfl, rfl⟩

theorem sendPackets_sublist (srv : Server) (sys : Sys) (s : Socket) :
    (srv.sendPackets sys s).1.socketpool.Sublist srv.socketpool ∧
      (srv.sendPackets sys s).1.machine.nexttok = srv.machine.nexttok := by
  have hsending : ∀ (srv' : Server) c,
      (srv'.afterSending sys c).socketpool.Sublist srv'.socketpool := by
    intro srv' c
    rw [afterSending]
    split
    · exact destroySocket_sublist _ _ false
    · exact List.Sublist.refl _
  rcases sendPackets_rule sys srv s
    (fun _ srv' => srv'.socketpool.Sublist srv.socketpool ∧
      srv'.machine.nexttok = srv.machine.nexttok)
    (fun srv' => srv'.socketpool.Sublist srv.socketpool ∧
      srv'.machine.nexttok = srv.machine.nexttok)
    ⟨List.Sublist.refl _, rfl⟩ (fun _ _ _ _ _ _ hR => hR)
    (fun _ c _ srv' _ _ _ hR _ =>
      ⟨(hsending srv' c).trans hR.1, (afterSending_nexttok srv' c).trans hR.2⟩)
    (fun _ _ _ _ _ _ _ _ _ hR _ => hR) with ⟨srv', hs, -, hR⟩ | ⟨srv', hs, hR⟩
  · rw [hs]
    exact hR
  · rw [hs]
    exact hR

theorem sendPackets_renews (srv : Server) (sys : Sys) (s : Socket) :
    srv.Renews (srv.sendPackets sys s).1 :=
  .of_sublist (srv.sendPackets_sublist sys s).2 (srv.sendPackets_sublist sys s).1 fun _ hd => by
    obtain ⟨e, he, -, hleft⟩ := sendPackets_left hd
    exact ⟨e, he, hleft⟩

/-- A client that is added has a socket of its own. -/
theorem added_renews (srv : Server) (sys : Sys) (fd : Int) (src : SockAddr) :
    srv.Renews (srv.added sys fd src) := by
  have hsockets : (srv.added sys fd src).socketpool =
      srv.socketpool ++ [srv.newSocket sys fd src] := rfl
  have hclients : (srv.added sys fd src).clientpool.clients =
      srv.clientpool.clients ++ [.new srv.clientpool.fresh (srv.newSocket sys fd src)] := rfl
  have hpacket : (srv.newSocket sys fd src).packet = srv.machine.nexttok + 1 := rfl
  have hn : (srv.added sys fd src).machine.nexttok = srv.machine.nexttok + 2 := rfl
  refine ⟨Nat.le_add_right _ _, fun t ht => ?_, fun d hd => ?_, fun h => ?_⟩
  · rcases List.mem_append.1 (hsockets ▸ ht) with ht | ht
    · exact .inl ht
    · rw [List.mem_singleton.1 ht]
      exact .inr (Nat.le_succ _)
  · rcases List.mem_append.1 (hclients ▸ hd) with hd | hd
    · exact .inl ⟨d, hd, rfl⟩
    · rw [List.mem_singleton.1 hd]
      exact .inr (Nat.le_succ _)
  -- The buffer of the new socket is younger than all others.
  have hyounger : ∀ t : Socket, t.packet < srv.machine.nexttok →
      t.entry ≠ (srv.newSocket sys fd src).entry := fun t ht hentry => by
    have := packet_eq hentry
    omega
  refine ⟨?_, fun t ht => ?_, fun c hc d hd hentry => ?_, fun d hd => ?_⟩
  · rw [hsockets, List.map_append, List.nodup_append]
    refine ⟨h.nodup, List.nodup_singleton _, fun e he e' he' heq => ?_⟩
    obtain ⟨t, ht, rfl⟩ := List.mem_map.1 he
    rw [List.map_singleton, List.mem_singleton] at he'
    exact hyounger t (h.allocated t ht) (heq.trans he')
  · rw [hn]
    rcases List.mem_append.1 (hsockets ▸ ht) with ht | ht
    · exact Nat.lt_add_right 2 (h.allocated t ht)
    · rw [List.mem_singleton.1 ht, hpacket]
      exact Nat.lt_succ_self _
  · rcases List.mem_append.1 (hclients ▸ hc) with hc | hc <;>
      rcases List.mem_append.1 (hclients ▸ hd) with hd | hd
    · exact h.apart c hc d hd hentry
    · rw [List.mem_singleton.1 hd] at hentry
      exact absurd hentry (hyounger c.s (h.given c hc))
    · rw [List.mem_singleton.1 hc] at hentry
      exact absurd hentry.symm (hyounger d.s (h.given d hd))
    · rw [List.mem_singleton.1 hc, List.mem_singleton.1 hd]
  · rw [hn]
    rcases List.mem_append.1 (hclients ▸ hd) with hd | hd
    · exact Nat.lt_add_right 2 (h.given d hd)
    · rw [List.mem_singleton.1 hd]
      exact Nat.lt_succ_self _

/-- A client of the pool is written to; its socket stays the same. -/
theorem put_renews {c : Client} (hc : c ∈ srv.clientpool.clients) {st : State}
    (hn : srv.machine.nexttok ≤ st.1.nexttok) (hptr : st.2.ptr = c.ptr)
    (hentry : st.2.s.entry = c.s.entry) : srv.Renews (srv.put st) := by
  have hleft : ∀ d ∈ (srv.put st).clientpool.clients, ∃ e ∈ srv.clientpool.clients,
      e.ptr = d.ptr ∧ e.s.entry = d.s.entry := fun d hd => by
    rcases ClientPool.mem_update hd with rfl | ⟨hd, -⟩
    · exact ⟨c, hc, hptr.symm, hentry.symm⟩
    · exact ⟨d, hd, rfl, rfl⟩
  refine ⟨hn, fun t ht => .inl ht, fun d hd => ?_, fun h => ⟨h.nodup,
    fun t ht => Nat.lt_of_lt_of_le (h.allocated t ht) hn, fun d hd e he hsame => ?_,
    fun d hd => ?_⟩⟩
  · obtain ⟨e, he, -, hed⟩ := hleft d hd
    exact .inl ⟨e, he, hed⟩
  · obtain ⟨a, ha, hptr, had⟩ := hleft d hd
    obtain ⟨b, hb, hptr', hbe⟩ := hleft e he
    rw [← hptr, ← hptr']
    exact h.apart a ha b hb (had.trans (hsame.trans hbe.symm))
  · obtain ⟨a, ha, -, had⟩ := hleft d hd
    exact Nat.lt_of_lt_of_le (packet_eq had ▸ h.given a ha) hn

/-- Receiving gives -1 exactly if it fails so. -/
theorem receivePackets_fails_iff {received : Received} {r : Server × Int}
    (h : srv.receivePackets cfg sys s received = .ok r) : r.2 = -1 ↔ received.Fails := by
  cases received with
  | failed e =>
    cases h
    simp [Received.Fails]
  | datagram src data =>
    refine iff_of_false (fun hfailed => ?_) fun ⟨e, he, _⟩ => by cases he
    rw [receivePackets] at h
    dsimp only at h
    split at h
    · cases h
    · cases h
    · cases h
    · split at h <;> cases h
      exact absurd hfailed (show ¬(0 : Int) = -1 by decide)

theorem not_fails_of_error {received : Received} {crash : Crash}
    (h : srv.receivePackets cfg sys s received = .error crash) : ¬received.Fails := by
  rintro ⟨e, rfl, -⟩
  cases h

/-- Reading a socket adds at most a new one. -/
theorem receivePackets_renews {received : Received} {r : Server × Int}
    (h : srv.receivePackets cfg sys s received = .ok r) :
    srv.Renews r.1 ∧ addCalls sys srv s received = [] := by
  cases received with
  | failed e =>
    cases h
    exact ⟨.refl srv, rfl⟩
  | datagram src data =>
    rcases hfound : srv.findOrAllocateClient sys s.fd src with ⟨srv₁, found⟩
    cases found with
    | null | released | astray =>
      simp only [receivePackets, hfound] at h
      cases h
    | client c =>
      rw [receivePackets_turn hfound] at h
      cases hturn : turn cfg (srv₁.machine, c) (receiving sys data) with
      | error crash =>
        rw [hturn] at h
        cases h
      | ok st =>
        rw [hturn] at h
        cases h
        have hadded : srv.Renews srv₁ := by
          rcases findOrAllocateClient_eq sys srv hfound with ⟨-, rfl⟩ | ⟨-, -, rfl⟩
          · exact .refl _
          · exact srv.added_renews sys s.fd src
        have hupkeep := turn_upkeep sys srv₁.machine c hturn
        refine ⟨hadded.trans (put_renews (mem_of_findOrAllocateClient sys srv hfound)
          hupkeep.frugal.nexttok (turn_ptr hturn) hupkeep.entry), ?_⟩
        rw [addCalls, hfound]

/-- A socket does not come back. -/
theorem Renews.gone (h : srv.Renews srv') (hs : s.packet < srv.machine.nexttok)
    (hgone : ∀ t ∈ srv.socketpool, t.entry ≠ s.entry) :
    ∀ t ∈ srv'.socketpool, t.entry ≠ s.entry := by
  intro t ht heq
  rcases h.sockets t ht with ht | hge
  · exact hgone t ht heq
  · have := packet_eq heq
    omega

/-- Nor does it come to another client. -/
theorem Renews.left (h : srv.Renews srv') (hs : s.packet < srv.machine.nexttok)
    (hleft : ∀ c ∈ srv.clientpool.clients, c.s.entry ≠ s.entry) :
    ∀ c ∈ srv'.clientpool.clients, c.s.entry ≠ s.entry := by
  intro c hc heq
  rcases h.clients c hc with ⟨b, hb, hentry⟩ | hge
  · exact hleft b hb (hentry.trans heq)
  · have := packet_eq heq
    omega

/-- What is found in a list is found in a part of the list that it is in. -/
theorem find?_of_sublist {α : Type*} {p : α → Bool} {a : α} {l l' : List α} (h : l'.Sublist l)
    (hnodup : l.Nodup) (hfind : l.find? p = some a) (ha : a ∈ l') : l'.find? p = some a := by
  induction h with
  | slnil => exact absurd ha List.not_mem_nil
  | cons b h ih =>
    obtain ⟨hb, hnodup⟩ := List.nodup_cons.1 hnodup
    cases hp : p b with
    | true =>
      rw [List.find?_cons_of_pos hp, Option.some_inj] at hfind
      exact absurd (h.subset ha) (hfind ▸ hb)
    | false => exact ih hnodup (by rwa [List.find?_cons_of_neg (by simp [hp])] at hfind) ha
  | cons_cons b h ih =>
    cases hp : p b with
    | true =>
      rw [List.find?_cons_of_pos hp] at hfind ⊢
      exact hfind
    | false =>
      rw [List.find?_cons_of_neg (by simp [hp])] at hfind ⊢
      have hne : a ≠ b := fun heq => by
        rw [← heq, List.find?_some hfind] at hp
        cases hp
      exact ih (List.nodup_cons.1 hnodup).2 hfind ((List.mem_cons.1 ha).resolve_left hne)

/-- A socket that was found is not in the pool after it was destroyed. -/
theorem destroySocket_gone {srv₀ : Server} {fd : Int} (hown : srv₀.OwnBuffers)
    (hfind : srv₀.findSocket fd = some s) (hsub : srv.socketpool.Sublist srv₀.socketpool) :
    ∀ t ∈ (srv.destroySocket s true).socketpool, t.entry ≠ s.entry := by
  intro t ht heq
  have ht' : t ∈ srv.socketpool := (destroySocket_sublist srv s true).subset ht
  have hs₀ : s ∈ srv₀.socketpool := List.mem_of_find?_eq_some hfind
  have hts : t = s :=
    List.inj_on_of_nodup_map hown.nodup (hsub.subset ht') hs₀ heq
  subst hts
  -- It was the first one of its descriptor, so that it is the one that is taken out.
  obtain ⟨hfd, pre, rest, hpool, hpre⟩ := List.find?_eq_some_iff_append.1
    (find?_of_sublist hsub hown.nodup.of_map hfind ht')
  have hfd : t.fd = fd := by simpa using hfd
  have htaken : (srv.destroySocket t true).socketpool = pre ++ rest := by
    refine Eq.trans (congrArg (List.eraseP _) hpool) ?_
    rw [List.eraseP_append_right _ fun u hu => ?_, List.eraseP_cons_of_pos (by simp)]
    have hu : u.fd ≠ fd := by simpa using hpre u hu
    simp [hfd, hu]
  have hnodup : srv.socketpool.Nodup := hown.nodup.of_map.sublist hsub
  rw [hpool, List.nodup_middle, List.nodup_cons] at hnodup
  exact hnodup.1 (htaken ▸ ht)

end Server

/-! ## One event -/

theorem Call.sparedBy_send (s : Socket) (later : Call) : (Call.send s).SparedBy later :=
  fun _ h => nomatch h

theorem Call.sparedBy_receive (s : Socket) (later : Call) : (Call.receive s).SparedBy later :=
  fun _ h => nomatch h

theorem Call.sparedBy_destroy {s : Socket} {later : Call} :
    (Call.destroy s).SparedBy later ↔ later.socket.entry ≠ s.entry := by
  simp [Call.SparedBy, Call.destroyed]

/-- The calls of the write half. -/
theorem writeReady_calls (sys : Sys) (srv : Server) (s : Socket) :
    (writeReady sys srv s).2 = .send s :: (srv.finished sys).map (fun c => .destroy c.s) ++
      if (srv.failing sys).isSome then [.destroy s] else [] := by
  rw [writeReady, flushCalls_eq]
  simp only [Server.sendPackets_failed_iff]
  split <;> simp

/-- A socket that is destroyed as no client could be added is a new one, and the process has
    crashed. -/
theorem addCalls_cases (cfg : Config) (sys : Sys) (srv : Server) (s : Socket)
    (received : Received) :
    addCalls sys srv s received = [] ∨
      (srv.receivePackets cfg sys s received).isOk = false ∧
        ∃ t, addCalls sys srv s received = [.destroy t] ∧ srv.machine.nexttok ≤ t.packet := by
  cases received with
  | failed e => exact .inl rfl
  | datagram src data =>
    rcases hfound : srv.findOrAllocateClient sys s.fd src with ⟨srv₁, found⟩
    cases found with
    | client c | astray =>
      left
      rw [addCalls, hfound]
    | null | released =>
      refine .inr ⟨?_, srv.newSocket sys s.fd src, ?_, Nat.le_succ _⟩
      · simp only [Server.receivePackets, hfound]
        rfl
      · rw [addCalls, hfound]

/-- The calls of the read half. -/
theorem readReady_calls (cfg : Config) (sys : Sys) (srv : Server) (s : Socket)
    (received : Received) :
    (readReady cfg sys srv s received).2 = .receive s :: addCalls sys srv s received ++
      if received.Fails then [.destroy s] else [] := by
  rw [readReady]
  cases hreceive : srv.receivePackets cfg sys s received with
  | error crash =>
    cases received with
    | failed e => cases hreceive
    | datagram src data => simp [Server.not_fails_of_error hreceive]
  | ok r =>
    simp only [Server.receivePackets_fails_iff hreceive]
    split <;> simp

theorem writeReady_nexttok (sys : Sys) (srv : Server) (s : Socket) :
    (writeReady sys srv s).1.machine.nexttok = srv.machine.nexttok := by
  rw [writeReady]
  split <;> exact (srv.sendPackets_sublist sys s).2

/-- The calls of an event: the halves one after the other, or none. -/
theorem dispatchEvent_calls (cfg : Config) (hfind : srv.findSocket ev.fd = some s) :
    ∃ adds, (adds = [] ∨ (dispatch cfg srv ev).isOk = false ∧
        ∃ t, adds = [Call.destroy t] ∧ srv.machine.nexttok ≤ t.packet) ∧
      (dispatchEvent cfg srv ev).2 =
        if ev.failed then [.destroy s]
        else (if ev.writable then
            .send s :: (srv.finished ev.sys).map (fun c => .destroy c.s) ++
              if (srv.failing ev.sys).isSome then [.destroy s] else []
          else []) ++
          if ev.readable then
            .receive s :: adds ++ if ev.received.Fails then [.destroy s] else []
          else [] := by
  have hserve : dispatchEvent cfg srv ev =
      serveReady cfg { srv with machine := srv.machine.callEvent .socketActivity } s ev := by
    rw [dispatchEvent, hfind]
  have hwrite := writeReady_calls ev.sys
    { srv with machine := srv.machine.callEvent .socketActivity } s
  have hn := writeReady_nexttok ev.sys
    { srv with machine := srv.machine.callEvent .socketActivity } s
  rw [dispatch, hserve, serveReady]
  cases ev.failed with
  | true => exact ⟨[], .inl rfl, rfl⟩
  | false =>
    cases ev.readable with
    | false =>
      refine ⟨[], .inl rfl, ?_⟩
      cases ev.writable with
      | true => exact hwrite.trans (List.append_nil _).symm
      | false => rfl
    | true =>
      -- Whatever was flushed before, reading may add to the calls.
      have hread : ∀ w : Server, w.machine.nexttok = srv.machine.nexttok →
          addCalls ev.sys w s ev.received = [] ∨
            (readReady cfg ev.sys w s ev.received).1.isOk = false ∧
              ∃ t, addCalls ev.sys w s ev.received = [.destroy t] ∧
                srv.machine.nexttok ≤ t.packet := by
        intro w hw
        refine (addCalls_cases cfg ev.sys w s ev.received).imp_right fun ⟨hcrash, t, ht, hle⟩ =>
          ⟨?_, t, ht, hw ▸ hle⟩
        rw [readReady_server]
        cases hreceive : w.receivePackets cfg ev.sys s ev.received with
        | error crash => rfl
        | ok r =>
          rw [hreceive] at hcrash
          cases hcrash
      cases ev.writable with
      | true =>
        refine ⟨_, hread _ hn, ?_⟩
        simp only [Bool.false_eq_true, if_false, if_true, readReady_calls, hwrite]
        rfl
      | false =>
        refine ⟨_, hread _ rfl, ?_⟩
        simp only [Bool.false_eq_true, if_false, if_true, readReady_calls]

/-- Which calls these are. -/
theorem mem_dispatchEvent (cfg : Config) (hfind : srv.findSocket ev.fd = some s) :
    ∃ adds, (adds = [] ∨ (dispatch cfg srv ev).isOk = false ∧
        ∃ t, adds = [Call.destroy t] ∧ srv.machine.nexttok ≤ t.packet) ∧
      ∀ call, call ∈ (dispatchEvent cfg srv ev).2 ↔
        (ev.failed = true ∧ call = .destroy s) ∨
        (ev.failed = false ∧ ev.writable = true ∧
          (call = .send s ∨ (∃ c ∈ srv.finished ev.sys, call = .destroy c.s) ∨
            (srv.failing ev.sys).isSome ∧ call = .destroy s)) ∨
        (ev.failed = false ∧ ev.readable = true ∧
          (call = .receive s ∨ call ∈ adds ∨ ev.received.Fails ∧ call = .destroy s)) := by
  obtain ⟨adds, hadds, hcalls⟩ := dispatchEvent_calls cfg hfind
  refine ⟨adds, hadds, fun call => ?_⟩
  rw [hcalls]
  cases ev.failed
  · simp [List.mem_ite_nil_right, eq_comm (a := call)]
  · simp

/-- A call of an event is for its socket, for that of a client it removes, or for a new one. -/
theorem dispatchEvent_socket {call : Call} (hcall : call ∈ (dispatchEvent cfg srv ev).2) :
    (∃ s ∈ ev.socket srv, call.socket = s) ∨
      (∃ c ∈ ev.removed srv, call = .destroy c.s) ∨ srv.machine.nexttok ≤ call.socket.packet := by
  cases hfind : srv.findSocket ev.fd with
  | none =>
    rw [dispatchEvent, hfind] at hcall
    exact absurd hcall List.not_mem_nil
  | some s =>
    obtain ⟨adds, hadds, hmem⟩ := mem_dispatchEvent cfg hfind
    have hsocket (h : ev.failed ∨ ev.writable ∨ ev.readable) : s ∈ ev.socket srv := by
      rw [Report.socket, if_pos h, hfind]
      rfl
    rcases (hmem call).1 hcall with ⟨hf, rfl⟩ | ⟨hf, hw, rfl | ⟨c, hc, rfl⟩ | ⟨-, rfl⟩⟩ |
      ⟨hf, hr, rfl | hcall | ⟨-, rfl⟩⟩
    · exact .inl ⟨s, hsocket (.inl hf), rfl⟩
    · exact .inl ⟨s, hsocket (.inr (.inl hw)), rfl⟩
    · refine .inr (.inl ⟨c, ?_, rfl⟩)
      rwa [Report.removed, if_pos ⟨by rw [hfind]; rfl, hf, hw⟩]
    · exact .inl ⟨s, hsocket (.inr (.inl hw)), rfl⟩
    · exact .inl ⟨s, hsocket (.inr (.inr hr)), rfl⟩
    · rcases hadds with rfl | ⟨-, t, rfl, hle⟩
      · exact absurd hcall List.not_mem_nil
      · rw [List.mem_singleton.1 hcall]
        exact .inr (.inr hle)
    · exact .inl ⟨s, hsocket (.inr (.inr hr)), rfl⟩

theorem exists_socket (cfg : Config) (h : s ∈ ev.socket srv) :
    ∃ call ∈ (dispatchEvent cfg srv ev).2, call.socket = s := by
  rw [Report.socket] at h
  split at h
  · next hready =>
    obtain ⟨adds, -, hmem⟩ := mem_dispatchEvent cfg h
    cases hf : ev.failed with
    | true => exact ⟨.destroy s, (hmem _).2 (.inl ⟨hf, rfl⟩), rfl⟩
    | false =>
      rcases hready with hfailed | hw | hr
      · cases hf.symm.trans hfailed
      · exact ⟨.send s, (hmem _).2 (.inr (.inl ⟨hf, hw, .inl rfl⟩)), rfl⟩
      · exact ⟨.receive s, (hmem _).2 (.inr (.inr ⟨hf, hr, .inl rfl⟩)), rfl⟩
  · cases h

theorem destroy_mem_closed (cfg : Config) (h : s ∈ ev.closed srv) :
    .destroy s ∈ (dispatchEvent cfg srv ev).2 := by
  rw [Report.closed] at h
  split at h
  · next hfails =>
    obtain ⟨adds, -, hmem⟩ := mem_dispatchEvent cfg h
    refine (hmem _).2 ?_
    cases hf : ev.failed with
    | true => exact .inl ⟨rfl, rfl⟩
    | false =>
      rcases hfails with hfailed | ⟨hw, hfailing⟩ | ⟨hr, hreceived⟩
      · cases hf.symm.trans hfailed
      · exact .inr (.inl ⟨rfl, hw, .inr (.inr ⟨hfailing, rfl⟩)⟩)
      · exact .inr (.inr ⟨rfl, hr, .inr (.inr ⟨hreceived, rfl⟩)⟩)
  · cases h

theorem destroy_mem_removed (cfg : Config) {c : Client} (h : c ∈ ev.removed srv) :
    .destroy c.s ∈ (dispatchEvent cfg srv ev).2 := by
  rw [Report.removed] at h
  split at h
  · next hready =>
    obtain ⟨s, hfind⟩ := Option.isSome_iff_exists.1 hready.1
    obtain ⟨adds, -, hmem⟩ := mem_dispatchEvent cfg hfind
    exact (hmem _).2 (.inr (.inl ⟨hready.2.1, hready.2.2, .inr (.inl ⟨c, h, rfl⟩)⟩))
  · exact absurd h List.not_mem_nil

/-- What an event destroys where the process goes on. -/
theorem destroyed_cases (hok : dispatch cfg srv ev = .ok srv') {call : Call}
    (hcall : call ∈ (dispatchEvent cfg srv ev).2) {t : Socket} (ht : t ∈ call.destroyed) :
    t ∈ ev.closed srv ∨ ∃ c ∈ ev.removed srv, t = c.s := by
  cases hfind : srv.findSocket ev.fd with
  | none =>
    rw [dispatchEvent, hfind] at hcall
    exact absurd hcall List.not_mem_nil
  | some s =>
    obtain ⟨adds, hadds, hmem⟩ := mem_dispatchEvent cfg hfind
    have hclosed (h : ev.failed ∨ (ev.writable ∧ (srv.failing ev.sys).isSome) ∨
        (ev.readable ∧ ev.received.Fails)) : s ∈ ev.closed srv := by
      rw [Report.closed, if_pos h, hfind]
      rfl
    rcases (hmem call).1 hcall with ⟨hf, rfl⟩ | ⟨hf, hw, rfl | ⟨c, hc, rfl⟩ | ⟨hfailing, rfl⟩⟩ |
      ⟨-, hr, rfl | hcall | ⟨hfails, rfl⟩⟩
    · cases ht
      exact .inl (hclosed (.inl hf))
    · cases ht
    · cases ht
      refine .inr ⟨c, ?_, rfl⟩
      rwa [Report.removed, if_pos ⟨by rw [hfind]; rfl, hf, hw⟩]
    · cases ht
      exact .inl (hclosed (.inr (.inl ⟨hw, hfailing⟩)))
    · cases ht
    · rcases hadds with rfl | ⟨hcrash, -⟩
      · exact absurd hcall List.not_mem_nil
      · rw [hok] at hcrash
        cases hcrash
    · cases ht
      exact .inl (hclosed (.inr (.inr ⟨hr, hfails⟩)))

/-- The clients that are removed have different sockets. -/
theorem finished_pairwise (hown : srv.OwnBuffers) (sys : Sys) :
    ((srv.finished sys).map fun c => Call.destroy c.s).Pairwise Call.SparedBy := by
  have hsub : (srv.finished sys).Sublist srv.clientpool.clients :=
    List.filter_sublist.trans ((List.takeWhile_sublist _).trans (Lib.visited_sublist false _))
  have hptr : srv.clientpool.clients.Pairwise fun c d => c.ptr ≠ d.ptr :=
    List.pairwise_map.1 srv.clientpool.nodup
  rw [List.pairwise_map]
  refine (hptr.sublist hsub).imp_of_mem fun {c d} hc hd hne => Call.sparedBy_destroy.2 fun heq => ?_
  exact hne (hown.apart c (hsub.subset hc) d (hsub.subset hd) heq.symm)

/-- The calls of the write half of an event. -/
theorem touches_write_iff {l : List Client}
    (hl : (l.map fun c => Call.destroy c.s).Pairwise Call.SparedBy) (failing : Bool) :
    TouchesNoDestroyed (.send s :: l.map (fun c => .destroy c.s) ++
        if failing then [.destroy s] else []) ↔
      ¬((∃ c ∈ l, c.s.entry = s.entry) ∧ failing = true) := by
  rw [TouchesNoDestroyed, List.cons_append, List.pairwise_cons, List.pairwise_append]
  cases failing with
  | false => simp [hl, Call.sparedBy_send]
  | true =>
    simp [hl, Call.sparedBy_send, Call.sparedBy_destroy, Call.socket, eq_comm (b := s.entry)]

/-- Those of the read half, if what is added is new. -/
theorem touches_read {adds : List Call} (hadds : adds = [] ∨ ∃ t, adds = [.destroy t] ∧
      t.entry ≠ s.entry) (fails : Prop) [Decidable fails] :
    TouchesNoDestroyed (.receive s :: adds ++ if fails then [.destroy s] else []) := by
  rw [TouchesNoDestroyed, List.cons_append, List.pairwise_cons, List.pairwise_append]
  refine ⟨fun _ _ => Call.sparedBy_receive s _, ?_, ?_, fun a ha b hb => ?_⟩
  · rcases hadds with rfl | ⟨t, rfl, -⟩
    · exact .nil
    · exact List.pairwise_singleton _ _
  · split
    · exact List.pairwise_singleton _ _
    · exact .nil
  · obtain ⟨-, hb⟩ := List.mem_ite_nil_right.1 hb
    rcases hadds with rfl | ⟨t, rfl, hne⟩
    · exact absurd ha List.not_mem_nil
    · rw [List.mem_singleton.1 ha, List.mem_singleton.1 hb, Call.sparedBy_destroy]
      exact hne.symm

/-- The one after the other. -/
theorem spares_read_iff {l : List Client} {adds : List Call} (hadds : adds = [] ∨
      ∃ t, adds = [.destroy t] ∧ t.entry ≠ s.entry ∧ ∀ c ∈ l, t.entry ≠ c.s.entry)
    (failing : Bool) (fails : Prop) [Decidable fails] :
    (∀ a ∈ .send s :: l.map (fun c => Call.destroy c.s) ++
        if failing then [.destroy s] else [],
      ∀ b ∈ .receive s :: adds ++ if fails then [.destroy s] else [], a.SparedBy b) ↔
      ¬((∃ c ∈ l, c.s.entry = s.entry) ∨ failing = true) := by
  constructor
  · rintro h (⟨c, hc, heq⟩ | rfl)
    · refine Call.sparedBy_destroy.1 (h (.destroy c.s) ?_ (.receive s) List.mem_cons_self) heq.symm
      exact List.mem_cons_of_mem _ (List.mem_append_left _ (List.mem_map_of_mem hc))
    · refine Call.sparedBy_destroy.1 (h (.destroy s) ?_ (.receive s) List.mem_cons_self) rfl
      exact List.mem_cons_of_mem _ (List.mem_append_right _ List.mem_cons_self)
  · intro h a ha b hb
    obtain ⟨hclients, hfailing⟩ := not_or.1 h
    have hlater : b.socket.entry = s.entry ∨
        ∃ t, b = .destroy t ∧ ∀ c ∈ l, t.entry ≠ c.s.entry := by
      rcases List.mem_append.1 hb with hb | hb
      · rcases List.mem_cons.1 hb with rfl | hb
        · exact .inl rfl
        · rcases hadds with rfl | ⟨t, rfl, -, hne⟩
          · exact absurd hb List.not_mem_nil
          · exact .inr ⟨t, List.mem_singleton.1 hb, hne⟩
      · rw [List.mem_singleton.1 (List.mem_ite_nil_right.1 hb).2]
        exact .inl rfl
    rw [if_neg hfailing, List.append_nil] at ha
    rcases List.mem_cons.1 ha with rfl | ha
    · exact Call.sparedBy_send s b
    · obtain ⟨c, hc, rfl⟩ := List.mem_map.1 ha
      rw [Call.sparedBy_destroy]
      rcases hlater with heq | ⟨t, rfl, hne⟩
      · exact fun hentry => hclients ⟨c, hc, hentry.symm.trans heq⟩
      · exact hne c hc

/-- Within an event, a socket is touched after it was destroyed exactly if it is destroyed by
    flushing, and touched again. -/
theorem dispatchEvent_touches_iff (hown : srv.OwnBuffers) :
    TouchesNoDestroyed (dispatchEvent cfg srv ev).2 ↔ ¬ev.TouchesAgain srv := by
  cases hfind : srv.findSocket ev.fd with
  | none =>
    rw [dispatchEvent, hfind]
    refine iff_of_true List.Pairwise.nil fun ⟨_, _, s, hs, _⟩ => ?_
    cases hfind.symm.trans hs
  | some s =>
    obtain ⟨adds, hadds, hcalls⟩ := dispatchEvent_calls cfg hfind
    have hremoved := finished_pairwise hown ev.sys
    have hagain : ev.TouchesAgain srv ↔ ev.failed = false ∧ ev.writable = true ∧
        ((srv.failing ev.sys).isSome ∧ ev.readable = true ∨
          (∃ c ∈ srv.finished ev.sys, c.s.entry = s.entry) ∧
            ((srv.failing ev.sys).isSome ∨ ev.readable = true)) := by
      rw [Report.TouchesAgain, hfind]
      simp
    -- The sockets of the pools are not new.
    have hnew : adds = [] ∨ ∃ t, adds = [.destroy t] ∧ t.entry ≠ s.entry ∧
        ∀ c ∈ srv.finished ev.sys, t.entry ≠ c.s.entry := by
      refine hadds.imp_right fun ⟨_, t, ht, hle⟩ => ⟨t, ht, fun heq => ?_, fun c hc heq => ?_⟩
      · have := hown.allocated s (List.mem_of_find?_eq_some hfind)
        have := Server.packet_eq heq
        omega
      · have := hown.given c (Server.mem_finished hc).1
        have := Server.packet_eq heq
        omega
    have hwrites := touches_write_iff (s := s) hremoved (srv.failing ev.sys).isSome
    have hreads := touches_read (hnew.imp_right fun ⟨t, ht, hne, _⟩ => ⟨t, ht, hne⟩)
      ev.received.Fails
    have hboth := spares_read_iff hnew (srv.failing ev.sys).isSome ev.received.Fails
    generalize (∃ c ∈ srv.finished ev.sys, c.s.entry = s.entry) = dead at hwrites hboth hagain
    rw [hcalls, hagain]
    cases ev.failed with
    | true => simp [TouchesNoDestroyed]
    | false =>
      cases ev.writable <;> cases ev.readable
      · simp [TouchesNoDestroyed]
      · simpa using hreads
      · simpa using hwrites
      · have hboth := List.pairwise_append.trans
          (and_congr hwrites (and_congr (iff_true_intro hreads) hboth))
        refine hboth.trans ?_
        by_cases hdead : dead <;> cases (srv.failing ev.sys).isSome <;> simp [hdead]

/-! ## All events -/

/-- The write half takes sockets out, the one that is destroyed for good; and the clients that are
    removed. -/
theorem writeReady_renews (sys : Sys) (hown : srv.OwnBuffers) {fd : Int}
    (hfind : srv.findSocket fd = some s) :
    srv.Renews (writeReady sys srv s).1 ∧
      (writeReady sys srv s).1.socketpool.Sublist srv.socketpool ∧
      ((srv.failing sys).isSome → ∀ t ∈ (writeReady sys srv s).1.socketpool, t.entry ≠ s.entry) ∧
      ∀ c ∈ srv.finished sys, ∀ d ∈ (writeReady sys srv s).1.clientpool.clients,
        d.s.entry ≠ c.s.entry := by
  have hsub := (srv.sendPackets_sublist sys s).1
  have hsent := srv.sendPackets_renews sys s
  have hleft : ∀ c ∈ srv.finished sys, ∀ d ∈ (srv.sendPackets sys s).1.clientpool.clients,
      d.s.entry ≠ c.s.entry := fun c hc d hd heq => by
    obtain ⟨e, he, hnot, -, hentry⟩ := Server.sendPackets_left hd
    have hc' := (Server.mem_finished hc).1
    exact hnot (Server.eq_of_ptr he hc' (hown.apart e he c hc' (hentry.trans heq)) ▸ hc)
  rw [writeReady]
  split
  · exact ⟨hsent.trans (Server.destroySocket_renews _ s),
      (Server.destroySocket_sublist _ s true).trans hsub,
      fun _ => Server.destroySocket_gone hown hfind hsub, hleft⟩
  · next hok =>
    exact ⟨hsent, hsub, fun hfailing => absurd (Server.sendPackets_failed_iff.2 hfailing) hok,
      hleft⟩

/-- So does the read half, where it is destroyed. -/
theorem readReady_renews (hown : srv.OwnBuffers) {fd : Int} (hfind : srv.findSocket fd = some s)
    {w : Server} (hsub : w.socketpool.Sublist srv.socketpool) {received : Received}
    (h : (readReady cfg sys w s received).1 = .ok srv') :
    w.Renews srv' ∧ (received.Fails → ∀ t ∈ srv'.socketpool, t.entry ≠ s.entry) := by
  rw [readReady] at h
  cases hreceive : w.receivePackets cfg sys s received with
  | error crash =>
    rw [hreceive] at h
    cases h
  | ok r =>
    obtain ⟨hreceived, -⟩ := Server.receivePackets_renews hreceive
    have hfails := Server.receivePackets_fails_iff hreceive
    rw [hreceive] at h
    dsimp only at h
    split at h
    · -- Nothing could be received, the socket is destroyed.
      cases h
      cases received with
      | failed e =>
        cases hreceive
        exact ⟨Server.destroySocket_renews _ s,
          fun _ => Server.destroySocket_gone hown hfind hsub⟩
      | datagram src data =>
        obtain ⟨e, he, -⟩ := hfails.1 ‹_›
        cases he
    · cases h
      exact ⟨hreceived, fun hfailed => absurd (hfails.2 hfailed) ‹_›⟩

/-- So do both of them. -/
theorem serveReady_renews (hown : srv.OwnBuffers) (hfind : srv.findSocket ev.fd = some s)
    (h : (serveReady cfg srv s ev).1 = .ok srv') :
    srv.Renews srv' ∧
      (∀ t ∈ ev.closed srv, ∀ u ∈ srv'.socketpool, u.entry ≠ t.entry) ∧
      ∀ c ∈ ev.removed srv, ∀ d ∈ srv'.clientpool.clients, d.s.entry ≠ c.s.entry := by
  have hs := hown.allocated s (List.mem_of_find?_eq_some hfind)
  rw [serveReady] at h
  cases hf : ev.failed with
  | true =>
    rw [hf, if_pos rfl] at h
    cases h
    refine ⟨Server.destroySocket_renews srv s, fun t ht => ?_, fun c hc => ?_⟩
    · rw [Report.closed, if_pos (.inl hf), hfind] at ht
      cases ht
      exact Server.destroySocket_gone hown hfind (List.Sublist.refl _)
    · rw [Report.removed, hf] at hc
      simp at hc
  | false =>
    rw [hf, if_neg Bool.false_ne_true] at h
    obtain ⟨hrenews, hsub, hfailing, hleft⟩ :
        srv.Renews (if ev.writable then writeReady ev.sys srv s else (srv, [])).1 ∧
        (if ev.writable then writeReady ev.sys srv s else (srv, [])).1.socketpool.Sublist
          srv.socketpool ∧
        (ev.writable = true ∧ (srv.failing ev.sys).isSome → ∀ t ∈ (if ev.writable then
          writeReady ev.sys srv s else (srv, [])).1.socketpool, t.entry ≠ s.entry) ∧
        (ev.writable = true → ∀ c ∈ srv.finished ev.sys, ∀ d ∈ (if ev.writable then
          writeReady ev.sys srv s else (srv, [])).1.clientpool.clients,
            d.s.entry ≠ c.s.entry) := by
      cases ev.writable with
      | true =>
        obtain ⟨hrenews, hsub, hfailing, hleft⟩ := writeReady_renews ev.sys hown hfind
        exact ⟨hrenews, hsub, fun h => hfailing h.2, fun _ => hleft⟩
      | false => exact ⟨.refl srv, List.Sublist.refl _, fun h => absurd h.1 Bool.false_ne_true,
          fun h => absurd h Bool.false_ne_true⟩
    generalize (if ev.writable then writeReady ev.sys srv s else (srv, [])) = w at *
    -- Reading comes after it, and destroys the socket if it fails.
    have hread : w.1.Renews srv' ∧ (ev.readable = true ∧ ev.received.Fails →
        ∀ t ∈ srv'.socketpool, t.entry ≠ s.entry) := by
      cases hr : ev.readable with
      | true =>
        rw [hr, if_pos rfl] at h
        obtain ⟨hread, hgone⟩ := readReady_renews hown hfind hsub h
        exact ⟨hread, fun h => hgone h.2⟩
      | false =>
        rw [hr, if_neg Bool.false_ne_true] at h
        cases h
        exact ⟨.refl _, fun h => absurd h.1 Bool.false_ne_true⟩
    refine ⟨hrenews.trans hread.1, fun t ht => ?_, fun c hc => ?_⟩
    · rw [Report.closed, hfind] at ht
      split at ht
      · next hfails =>
        cases ht
        rcases hfails with hfailed | ⟨hw, hfails⟩ | hfails
        · cases hf.symm.trans hfailed
        · exact hread.1.gone (Nat.lt_of_lt_of_le hs hrenews.nexttok) (hfailing ⟨hw, hfails⟩)
        · exact hread.2 hfails
      · cases ht
    · rw [Report.removed] at hc
      split at hc
      · next hready =>
        have hgiven := hown.given c (Server.mem_finished hc).1
        exact hread.1.left (Nat.lt_of_lt_of_le hgiven hrenews.nexttok) (hleft hready.2.2 c hc)
      · exact absurd hc List.not_mem_nil

/-- A socket that is destroyed for a failure leaves the pool, and does not come back; a client
    that is removed leaves its socket to nobody. -/
theorem dispatch_renews (hown : srv.OwnBuffers) (h : dispatch cfg srv ev = .ok srv') :
    srv.Renews srv' ∧
      (∀ s ∈ ev.closed srv, ∀ t ∈ srv'.socketpool, t.entry ≠ s.entry) ∧
      ∀ c ∈ ev.removed srv, ∀ d ∈ srv'.clientpool.clients, d.s.entry ≠ c.s.entry := by
  rw [dispatch, dispatchEvent] at h
  cases hfind : srv.findSocket ev.fd with
  | none =>
    rw [hfind] at h
    cases h
    have hclosed : ev.closed srv = none := by rw [Report.closed, hfind, ite_self]
    have hremoved : ev.removed srv = [] := by
      rw [Report.removed, hfind]
      exact if_neg fun h => Bool.false_ne_true h.1
    rw [hclosed, hremoved]
    exact ⟨.of_sublist rfl (List.Sublist.refl _) fun d hd => ⟨d, hd, rfl, rfl⟩,
      fun s hs => (nomatch hs), fun c hc => absurd hc List.not_mem_nil⟩
  | some s =>
    rw [hfind] at h
    have hown₁ : Server.OwnBuffers
        { srv with machine := srv.machine.callEvent .socketActivity } :=
      ⟨hown.nodup, hown.allocated, hown.apart, hown.given⟩
    obtain ⟨hrenews, hgone⟩ := serveReady_renews hown₁ hfind h
    exact ⟨⟨hrenews.nexttok, hrenews.sockets, hrenews.clients, fun _ => hrenews.own hown₁⟩, hgone⟩

/-- What an event destroys, a later one touches exactly by way of its client. -/
theorem crosses_iff {srv₁ srv₂ : Server} {ev₂ : Report} (hown : srv.OwnBuffers)
    (h : dispatch cfg srv ev = .ok srv₁) (hlater : srv₁.Renews srv₂) {post : Except Crash Server} :
    (∀ call ∈ (dispatchEvent cfg srv ev).2, ∀ later ∈ (dispatchEvent cfg srv₂ ev₂).2,
      call.SparedBy later) ↔ ¬Crosses ⟨srv, ev, .ok srv₁⟩ ⟨srv₂, ev₂, post⟩ := by
  obtain ⟨hrenews, hclosed, hremoved⟩ := dispatch_renews hown h
  have hsocket : ∀ s ∈ ev.closed srv, s.packet < srv.machine.nexttok := fun s hs => by
    rw [Report.closed] at hs
    split at hs
    · exact hown.allocated s (List.mem_of_find?_eq_some hs)
    · cases hs
  have hclient : ∀ c ∈ ev.removed srv, c.s.packet < srv.machine.nexttok := fun c hc => by
    rw [Report.removed] at hc
    split at hc
    · exact hown.given c (Server.mem_finished hc).1
    · exact absurd hc List.not_mem_nil
  constructor
  · rintro hspares (⟨s, hs, c, hc, heq⟩ | ⟨c, hc, s, hs, heq⟩)
    · exact Call.sparedBy_destroy.1 (hspares _ (destroy_mem_closed cfg hs) _
        (destroy_mem_removed cfg hc)) heq
    · obtain ⟨later, hmem, hcall⟩ := exists_socket cfg hs
      exact Call.sparedBy_destroy.1 (hspares _ (destroy_mem_removed cfg hc) later hmem)
        (hcall ▸ heq)
  · intro hnot call hcall later hmem t ht heq
    have hpacket := Server.packet_eq heq
    -- A new socket is none that was destroyed before, which had a buffer by then.
    have hold : t.packet < srv₂.machine.nexttok := by
      have := Nat.le_trans hrenews.nexttok hlater.nexttok
      rcases destroyed_cases h hcall ht with hs | ⟨c, hc, rfl⟩
      · exact Nat.lt_of_lt_of_le (hsocket t hs) this
      · exact Nat.lt_of_lt_of_le (hclient c hc) this
    rcases destroyed_cases h hcall ht with hs | ⟨c, hc, rfl⟩ <;>
      rcases dispatchEvent_socket hmem with ⟨u, hu, hsame⟩ | ⟨d, hd, rfl⟩ | hnew
    · -- The socket left the pool, so that it is not found again.
      have hfound : u ∈ srv₂.socketpool := by
        rw [Report.socket] at hu
        split at hu
        · exact List.mem_of_find?_eq_some hu
        · cases hu
      exact hlater.gone (Nat.lt_of_lt_of_le (hsocket t hs) hrenews.nexttok) (hclosed t hs) u hfound
        (hsame ▸ heq)
    · exact hnot (.inl ⟨t, hs, d, hd, heq⟩)
    · omega
    · exact hnot (.inr ⟨c, hc, u, hu, hsame ▸ heq⟩)
    · -- The client left the pool, and nobody else has its socket.
      have hmem : d ∈ srv₂.clientpool.clients := by
        rw [Report.removed] at hd
        split at hd
        · exact (Server.mem_finished hd).1
        · exact absurd hd List.not_mem_nil
      exact hlater.left (Nat.lt_of_lt_of_le (hclient c hc) hrenews.nexttok) (hremoved c hc) d hmem
        heq
    · omega

/-- Dispatching any list of events, no destroyed socket is touched if and only if no event
    touches one again that it destroyed by flushing, and none leads to one of an earlier event
    by way of its client. -/
theorem touches_no_destroyed_iff (events : List Report) (hown : srv.OwnBuffers) :
    TouchesNoDestroyed (dispatchCalls cfg srv events) ↔
      (∀ t ∈ Lib.trace (dispatch cfg) srv events, ¬t.input.TouchesAgain t.pre) ∧
        (Lib.trace (dispatch cfg) srv events).Pairwise fun t u => ¬Crosses t u := by
  have hpre : ∀ t ∈ Lib.trace (dispatch cfg) srv events, t.pre.OwnBuffers :=
    Lib.forall_pre (Q := fun _ => True) Server.OwnBuffers
      (fun s i s' h _ hs => (dispatch_renews h hs).1.own h) hown fun _ _ => trivial
  have hlater : (Lib.trace (dispatch cfg) srv events).Pairwise fun t u =>
      ∃ srv₁, t.post = .ok srv₁ ∧ srv₁.Renews u.pre :=
    Lib.pairwise_trace Server.OwnBuffers Server.Renews Server.Renews.refl
      (fun _ _ _ => Server.Renews.trans)
      (fun s i s' h hs => ⟨(dispatch_renews h hs).1.own h, (dispatch_renews h hs).1⟩) hown
  rw [TouchesNoDestroyed, dispatchCalls, List.pairwise_flatMap]
  refine and_congr (forall₂_congr fun t ht => dispatchEvent_touches_iff (hpre t ht)) ?_
  -- Of two events, the state before the later one has come of the one after the earlier one.
  have hpair : ∀ t ∈ Lib.trace (dispatch cfg) srv events, ∀ u,
      (∃ srv₁, t.post = .ok srv₁ ∧ srv₁.Renews u.pre) →
        ((∀ call ∈ (dispatchEvent cfg t.pre t.input).2,
          ∀ later ∈ (dispatchEvent cfg u.pre u.input).2, call.SparedBy later) ↔ ¬Crosses t u) := by
    rintro ⟨s₁, ev₁, post₁⟩ ht ⟨s₂, ev₂, post₂⟩ ⟨srv₁, rfl, hrenews⟩
    exact crosses_iff (hpre _ ht) (Lib.post_eq ht).symm hrenews
  constructor
  · exact fun h => (hlater.and h).imp_of_mem fun ht _ hboth => (hpair _ ht _ hboth.1).1 hboth.2
  · exact fun h => (hlater.and h).imp_of_mem fun ht _ hboth => (hpair _ ht _ hboth.1).2 hboth.2

end

/-! ## A dispatch to run -/

instance (ev : Report) (srv : Server) : Decidable (ev.TouchesAgain srv) :=
  inferInstanceAs (Decidable (_ ∧ _ ∧ ∃ s ∈ srv.findSocket ev.fd, _))

instance (t u : Lib.Transition Server Report Crash) : Decidable (Crosses t u) :=
  inferInstanceAs (Decidable ((∃ s ∈ _, ∃ c ∈ _, _) ∨ ∃ c ∈ _, ∃ s ∈ _, _))

namespace Sample

/-- A server with an ACK queued for its only client. -/
def acknowledging : Server := after [] [receive wrq]

/-- The descriptor is ready for both, and `sendto` fails; what is received, nobody knows. -/
def ready : Report := ⟨3, false, true, true, .failed (.other 9), sendsNothing⟩

/-- A server whose only client has sent an ERROR packet: flushing removes it. -/
def erroneous : Server := after [] [receive (htons Opcode.error.code ++ [0, 0])]

end Sample

/-- A socket is read after it was destroyed, and destroyed again. -/
theorem not_touches_no_destroyed :
    ¬∀ (cfg : Config) (srv : Server) (events : List Report), srv.OwnBuffers →
      TouchesNoDestroyed (dispatchCalls cfg srv events) := by
  intro h
  have htouches := h Sample.config Sample.acknowledging [Sample.ready]
    ⟨by decide +kernel, by decide +kernel, by decide +kernel, by decide +kernel⟩
  revert htouches
  rw [TouchesNoDestroyed]
  decide +kernel

/-- The client is removed with its socket, and the one that is listened on is read, twice. -/
theorem touches_no_destroyed_sample :
    TouchesNoDestroyed (dispatchCalls Sample.config Sample.erroneous
      [{ Sample.ready with sys := .ideal, received := .failed .again },
        { Sample.ready with sys := .ideal }]) :=
  (touches_no_destroyed_iff _ ⟨by decide +kernel, by decide +kernel, by decide +kernel,
    by decide +kernel⟩).2 ⟨by decide +kernel, by decide +kernel⟩

end Nbstftp
