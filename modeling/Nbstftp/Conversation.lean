import Nbstftp.Endpoint
import Nbstftp.Events
import Nbstftp.Failure
import Nbstftp.LockStep
import Nbstftp.Retransmission

/-!
# The server, seen from one host

What was shown of the turns of a client is shown of the server here. Of a run of the server, with
all of its clients and sockets, a host sees its own datagrams and what is sent to it. If no
other host has its port, no other client changes the file it transfers, and what is queued
for it can be sent, then these are the turns of one client (`ServerStep.turn`): they leave the file
as the server does, and what they queue is what was sent to the host, followed by what is queued
for it still (`conversation`).

What the rest of the server does between two turns is to flush the queue of the client, which
removes it if it is marked. So a turn in which the client is there is a quiet one, and one in which
it is not marked is one in which it was flushed (`ServerStep.Timely`).
-/

namespace Nbstftp

/-! ## Hosts -/

/-- A host: the descriptor it sends to, and its address. -/
structure Host where
  fd : Int
  addr : SockAddr

/-- The client of a host. -/
def Client.Of (c : Client) (h : Host) : Prop := c.s.fd = h.fd ∧ c.s.addr = h.addr

instance (c : Client) (h : Host) : Decidable (c.Of h) := inferInstanceAs (Decidable (_ ∧ _))

/-- What of some packets goes to a host. -/
def Host.packets (h : Host) (sent : List (Int × SockAddr × Bytes)) : List Bytes :=
  sent.filterMap fun e => if e.1 = h.fd ∧ e.2.1 = h.addr then some e.2.2 else none

/-- What was sent to a host. -/
def Server.sentTo (srv : Server) (h : Host) : List Bytes := h.packets srv.machine.sent

/-- What was sent to a host, followed by what is queued for it. -/
def Server.addressedTo (srv : Server) (h : Host) : List Bytes :=
  srv.sentTo h ++ h.packets (srv.clientpool.clients.flatMap Client.packets)

/-- A datagram of a host. -/
def Arrival.Of (a : Arrival) (h : Host) : Prop := a.fd = h.fd ∧ a.src = h.addr

instance (a : Arrival) (h : Host) : Decidable (a.Of h) := inferInstanceAs (Decidable (_ ∧ _))

/-- The datagram of a host that arrives. -/
def Input.heard (i : Input) (h : Host) : Option Bytes :=
  (i.arrival.filter fun a => a.Of h).map Arrival.data

theorem Client.of_iff {c d : Client} {h : Host} (heq : c.view = d.view) : c.Of h ↔ d.Of h := by
  have hfd : c.s.fd = d.s.fd := congrArg (·.1.fd) heq
  have haddr : c.s.addr = d.s.addr := congrArg (·.1.addr) heq
  rw [Client.Of, Client.Of, hfd, haddr]

/-! ## Turns -/

/-- A client with another transfer. -/
def Client.withTransfer (c : Client) (t : Transfer) : Client :=
  { c with
    currentblockno := t.currentblockno
    actualblockno := t.actualblockno
    sendingfile := t.sendingfile
    destroy := t.destroy
    f := t.f
    blksize := t.blksize
    blk := t.blk }

/-- A turn that leads from a state with the file at `path` and the transfer of `s`, to `s` and a
    datagram; with `flushes`, from any with a client that is marked, if the transfer of `s` is
    fresh. -/
def Turn.to (path : Bytes) (flushes : Bool) (s : State) (sys : Sys) (data : Bytes) : Turn where
  meanwhile r :=
    ({ s.1 with files := Function.update s.1.files path (r.1.files path) },
      s.2.withTransfer (if flushes && r.2.destroy then .fresh else r.2.transfer))
  sys := sys
  datagram := data

/-- The turn of the client of a host that is made of a step in which it is heard: one in which the
    client may have been removed, or one in which it may not. -/
structure ServerStep.IsTurn (h : Host) (path : Bytes) (flushes : Bool) (t : ServerStep)
    (u : Turn) : Prop where
  datagram : t.input.heard h = some u.datagram
  sys : u.sys = t.input.sys
  quiet : flushes = false → u.Quiet path
  flush : flushes = true → u.Flushes path

/-- The steps in which a host is heard. -/
def heardIn (h : Host) (ts : List ServerStep) : List ServerStep :=
  ts.filter fun t => (t.input.heard h).isSome

/-- What the rest of the server may do: nobody else has the port of the host, or changes the file at
    `path`, and the packets queued for the host can be sent. -/
structure ServerStep.Apart (h : Host) (path : Bytes) (t : ServerStep) : Prop where
  port : ∀ a ∈ t.input.arrival, a.fd = h.fd → a.src.port = h.addr.port → a.src = h.addr
  files : t.input.heard h = none →
    ∀ srv ∈ t.post.toOption, srv.machine.files path = t.pre.machine.files path
  sends : ∀ c ∈ t.pre.clientpool.clients, c.Of h → c.Sends t.input.sys

instance (h : Host) (path : Bytes) (t : ServerStep) : Decidable (t.Apart h path) :=
  decidable_of_iff (_ ∧ _ ∧ _)
    ⟨fun hs => ⟨hs.1, hs.2.1, hs.2.2⟩, fun hs => ⟨hs.port, hs.files, hs.sends⟩⟩

/-- When a datagram of the host arrives, its client is not marked, for a turn in which it may have
    been removed; and for one in which it may not, it is there, unless this is its first one. -/
structure ServerStep.Timely (h : Host) (flushes : ServerStep → Bool) (past : List ServerStep)
    (t : ServerStep) : Prop where
  unmarked : (t.input.heard h).isSome → flushes t = true →
    ∀ c ∈ t.pre.clientpool.clients, c.Of h → c.destroy = false
  present : (t.input.heard h).isSome → flushes t = false →
    (∃ c ∈ t.pre.clientpool.clients, c.Of h) ∨ ∀ u ∈ past, u.input.heard h = none

/-- A host has no client when a step is made. -/
def ServerStep.Unknown (t : ServerStep) (h : Host) : Bool :=
  decide (∀ c ∈ t.pre.clientpool.clients, ¬c.Of h)

/-- It is timely to take the client for removed when there is none. -/
theorem ServerStep.timely_of_unknown (h : Host) (past : List ServerStep) (t : ServerStep) :
    t.Timely h (fun t => ServerStep.Unknown t h) past where
  unmarked _ hunknown c hc hof := absurd hof (of_decide_eq_true hunknown c hc)
  present _ hknown := by
    have hnot := of_decide_eq_false hknown
    push Not at hnot
    exact .inl hnot

namespace Turn

variable {path : Bytes} {s r : State} {sys : Sys} {data : Bytes}

theorem to_quiet : (Turn.to path false s sys data).Quiet path where
  transfer _ := rfl
  files _ := Function.update_self _ _ _

theorem to_flushes : (Turn.to path true s sys data).Flushes path where
  kept r hr := by
    have hif : (if true && r.2.destroy then Transfer.fresh else r.2.transfer) = r.2.transfer := by
      rw [hr]
      rfl
    exact hif
  removed r hr := by
    have hif : (if true && r.2.destroy then Transfer.fresh else r.2.transfer) = .fresh := by
      rw [hr]
      rfl
    exact hif
  files _ := Function.update_self _ _ _

/-- It leads to `s` from where it should. -/
theorem to_meanwhile {flushes : Bool} (hfiles : s.1.files path = r.1.files path)
    (htransfer : s.2.transfer = if flushes && r.2.destroy then .fresh else r.2.transfer) :
    (Turn.to path flushes s sys data).meanwhile r = s := by
  rw [Turn.to]
  dsimp only
  rw [← hfiles, ← htransfer, Function.update_eq_self]
  rfl

end Turn

/-! ## Calls -/

/-- The handling of a datagram sends nothing. -/
theorem Makes.sent {m : Machine} {s : State} (h : Makes (fun e => e.sent = none) m (.ok s)) :
    s.1.sent = m.sent := by
  obtain ⟨es, hes, hnone⟩ := h
  have heffects : s.1.effects = m.effects ++ es := hes
  rw [Machine.sent, heffects, List.filterMap_append, List.filterMap_eq_nil_iff.2 hnone,
    List.append_nil]
  rfl

theorem Serving.sent {starts : Prop} {e : Effect} (h : Serving starts e) : e.sent = none := by
  rcases h with hfile | ⟨-, rfl⟩
  · cases e with
    | fopen | fclose => rfl
    | close | free | sendto | event | logRequest => exact hfile.elim
  · rfl

theorem sent_releaseLastpacket (m : Machine) (c : Client) :
    (releaseLastpacket m c).1.sent = m.sent := by
  rw [Machine.sent, (releaseLastpacket_reacts m c).effects, List.filterMap_append, releaseEffects]
  cases c.lastpacket with
  | none => exact List.append_nil _
  | some last =>
    dsimp only
    split <;> exact List.append_nil _

theorem sent_log {q : Request} {sys : Sys} {write : Bool} {line : Effect}
    (h : q.log sys write = some line) : line.sent = none := by
  obtain ⟨param, -, rfl⟩ := log_some h
  rfl

theorem processDatagram_sent {cfg : Config} {sys : Sys} {m : Machine} {c : Client} {data : Bytes}
    {s : State} (h : processDatagram cfg sys m c data = .ok s) : s.1.sent = m.sent := by
  have hsilent : ∀ {e : Effect} {o : Outcome}, e.sent = none →
      Makes (fun e => e.sent = none) ((releaseLastpacket m c).1.emit e) o → o = .ok s →
        s.1.sent = m.sent := by
    rintro e o he hmakes rfl
    rw [hmakes.sent, Machine.sent_emit, he, Option.toList_none, List.append_nil,
      sent_releaseLastpacket]
  rcases processDatagram_cases cfg sys m c data with ⟨-, hs⟩ | ⟨-, hs⟩ | ⟨-, hs⟩ | ⟨hwrq, -⟩ |
    ⟨hrrq, -⟩ | ⟨m', hm', hs⟩
  · exact hsilent (e := .event .dataPacket) rfl (.refl (calls_storeBlock sys _ _ _ _))
      (hs.symm.trans h)
  · refine hsilent (e := .event .errorPacket) rfl (o := processError sys m c) (.refl ?_)
      (hs.symm.trans h)
    exact (acknowledge_reacts sys _ _ 1).effects.trans (List.append_nil _)
  · exact hsilent (e := .event .ackPacket) rfl (.refl (calls_sendNextBlock sys _ _))
      (hs.symm.trans h)
  · -- A request that was handled was logged.
    obtain ⟨line, hline⟩ := (loggable_of_ok (.inr hwrq) h).log true
    obtain ⟨es, hes, hserving, -⟩ := serveWrq_makes sys _ _ (requestOf data) cfg
    exact hsilent (sent_log hline) ⟨es, hes, fun e he => (hserving e he).sent⟩
      ((processDatagram_serveWrq hwrq hline).symm.trans h)
  · obtain ⟨line, hline⟩ := (loggable_of_ok (.inl hrrq) h).log false
    exact hsilent (sent_log hline)
      ((serveRrq_makes sys _ _ (requestOf data) cfg).mono fun e he => he.sent)
      ((processDatagram_serveRrq hrrq hline).symm.trans h)
  · cases hs.symm.trans h
    simp only [List.mem_cons, List.not_mem_nil, or_false] at hm'
    rcases hm' with rfl | rfl
    · rfl
    · exact (m.sent_emit _).trans (List.append_nil _)

theorem Upkeep.queue_extends {s s' : State} (h : Upkeep s s') :
    s.2.packetqueue <+: s'.2.packetqueue := by
  induction h with
  | aside h => exact h.packetqueue ▸ List.prefix_rfl
  | release m c =>
    rw [releaseLastpacket]
    split
    · split <;> exact List.prefix_rfl
    · exact List.prefix_rfl
  | queue sys m c bytes len => exact List.prefix_append _ _
  | trans h h' ih ih' => exact ih.trans ih'

/-! ## Following a host -/

/-- The client of a host has the transfer that its turns have led to; and if it has none, its last
    one was marked, or there was none. -/
structure Server.Follows (srv : Server) (h : Host) (path : Bytes) (s : State) : Prop where
  keyed : Keyed srv.identities
  addr : ∀ c ∈ srv.clientpool.clients, c.s.fd = h.fd → c.s.addr.port = h.addr.port →
    c.s.addr = h.addr
  files : srv.machine.files path = s.1.files path
  transfer : ∀ c ∈ srv.clientpool.clients, c.Of h → c.transfer = s.2.transfer
  gone : (∀ c ∈ srv.clientpool.clients, ¬c.Of h) → s.2.destroy = true ∨ s.2.transfer = .fresh

namespace Host

variable {h : Host}

theorem packets_append (l l' : List (Int × SockAddr × Bytes)) :
    h.packets (l ++ l') = h.packets l ++ h.packets l' :=
  List.filterMap_append

/-- All that is queued for a client goes to one host. -/
theorem packets_client (c : Client) :
    h.packets c.packets = if c.Of h then c.packetqueue.map Packetqueue.bytes else [] := by
  rw [packets, Client.packets, List.filterMap_map]
  split
  · next hc => exact List.filterMap_eq_map_iff_forall_eq_some.2 fun pq _ => if_pos hc
  · next hc => exact List.filterMap_eq_nil_iff.2 fun pq _ => if_neg hc

theorem packets_of_not {l : List Client} (hl : ∀ c ∈ l, ¬c.Of h) :
    h.packets (l.flatMap Client.packets) = [] := by
  induction l with
  | nil => rfl
  | cons c l ih =>
    rw [List.forall_mem_cons] at hl
    rw [List.flatMap_cons, packets_append, packets_client, if_neg hl.1, ih hl.2]
    rfl

end Host

namespace Server

variable {h : Host} {path : Bytes} {s : State} {srv srv' : Server} {c : Client}
  {pre rest : List Client}

/-- A host has one client at most. -/
theorem Follows.alone (hs : srv.Follows h path s) (hport : h.addr.port ≠ 32768)
    (hpool : srv.clientpool.clients = pre ++ c :: rest) (hc : c.Of h) :
    ∀ d ∈ pre ++ rest, ¬d.Of h := by
  intro d hd hof
  have hmem : c ∈ srv.clientpool.clients := hpool ▸ List.mem_append_right _ List.mem_cons_self
  have heq : d.identity = c.identity :=
    hs.keyed.eq (List.mem_map_of_mem (ClientPool.mem_of_mem_others hpool hd))
      (List.mem_map_of_mem hmem) (hof.1.trans hc.1.symm)
      (congrArg SockAddr.port (hof.2.trans hc.2.symm))
      (fun hport' => hport ((congrArg SockAddr.port hof.2).symm.trans hport'))
  exact ClientPool.ptr_ne hpool hd (congrArg Identity.ptr heq)

/-- What goes to a host is what goes to its client. -/
theorem Follows.packets (hs : srv.Follows h path s) (hport : h.addr.port ≠ 32768)
    (hpool : srv.clientpool.clients = pre ++ c :: rest) (hc : c.Of h) :
    h.packets (srv.clientpool.clients.flatMap Client.packets) =
      c.packetqueue.map Packetqueue.bytes := by
  have halone := hs.alone hport hpool hc
  rw [hpool, List.flatMap_append, List.flatMap_cons, Host.packets_append, Host.packets_append,
    Host.packets_client, if_pos hc,
    Host.packets_of_not fun d hd => halone d (List.mem_append_left _ hd),
    Host.packets_of_not fun d hd => halone d (List.mem_append_right _ hd), List.append_nil,
    List.nil_append]

/-- Some of the clients stay, as they were; that of the host does, unless it is marked. -/
theorem Follows.sublist (hs : srv.Follows h path s) (hsub : srv'.views.Sublist srv.views)
    (hfiles : srv'.machine.files = srv.machine.files)
    (hstays : ∀ c ∈ srv.clientpool.clients, c.Of h →
      c.destroy = true ∨ ∃ d ∈ srv'.clientpool.clients, d.Of h) : srv'.Follows h path s := by
  have hview : ∀ d ∈ srv'.clientpool.clients, ∃ c ∈ srv.clientpool.clients, c.view = d.view :=
    fun d hd => List.mem_map.1 (hsub.subset (List.mem_map_of_mem hd))
  refine ⟨?_, fun d hd hfd hp => ?_, ?_, fun d hd hof => ?_, fun hnone => ?_⟩
  · rw [identities_eq]
    have hkeyed := hs.keyed
    rw [identities_eq] at hkeyed
    exact hkeyed.sublist (hsub.map _)
  · obtain ⟨c, hc, heq⟩ := hview d hd
    have hcfd : c.s.fd = d.s.fd := congrArg (·.1.fd) heq
    have haddr : c.s.addr = d.s.addr := congrArg (·.1.addr) heq
    exact haddr ▸ hs.addr c hc (hcfd.trans hfd) (haddr ▸ hp)
  · rw [hfiles, hs.files]
  · obtain ⟨c, hc, heq⟩ := hview d hd
    have htransfer : c.transfer = d.transfer := congrArg Prod.snd heq
    exact htransfer ▸ hs.transfer c hc ((Client.of_iff heq).2 hof)
  · by_cases hsome : ∃ c ∈ srv.clientpool.clients, c.Of h
    · obtain ⟨c, hc, hof⟩ := hsome
      rcases hstays c hc hof with hmarked | ⟨d, hd, hdof⟩
      · exact .inl ((congrArg Transfer.destroy (hs.transfer c hc hof)).symm.trans hmarked)
      · exact absurd hdof (hnone d hd)
    · exact hs.gone fun c hc hof => hsome ⟨c, hc, hof⟩

/-- What the clients are not concerned in. -/
theorem Follows.aside (hs : srv.Follows h path s) (hpool : srv'.clientpool = srv.clientpool)
    (hfiles : srv'.machine.files = srv.machine.files)
    (hsent : srv'.machine.sent = srv.machine.sent) :
    srv'.Follows h path s ∧ srv'.addressedTo h = srv.addressedTo h := by
  refine ⟨hs.sublist ?_ hfiles fun c hc hof => .inr ⟨c, hpool ▸ hc, hof⟩, ?_⟩
  · rw [views, views, hpool]
  · rw [addressedTo, addressedTo, sentTo, sentTo, hsent, hpool]

/-! ## Flushing -/

theorem files_removeClient (srv : Server) (c : Client) :
    (srv.removeClient c).machine.files = srv.machine.files := by
  rw [removeClient_machine]
  rfl

/-- Flushing changes no file. -/
theorem files_afterSending (sys : Sys) (srv : Server) (c : Client) :
    (srv.afterSending sys c).machine.files = srv.machine.files := by
  rw [afterSending]
  split
  · rw [files_removeClient]
    have hclose : ∀ (m : Machine) (c : Client), (closeFile m c).files = m.files := fun m c => by
      rw [closeFile]
      cases c.f <;> rfl
    exact hclose _ _
  · rfl

/-- A client whose queue was sent is kept as it is seen from outside, or removed. -/
theorem keep_views (sys : Sys) (c : Client) :
    List.Sublist ((keep sys c).toList.map Client.view) [c.view] := by
  rw [keep]
  split
  · exact List.nil_sublist _
  · exact List.Sublist.refl _

/-- What is queued for a client is sent, to its host. -/
theorem Follows.afterSending (hs : srv.Follows h path s) (hport : h.addr.port ≠ 32768)
    (hpool : srv.clientpool.clients = pre ++ c :: rest) (sys : Sys) :
    (srv.afterSending sys c).Follows h path s ∧
      (srv.afterSending sys c).addressedTo h = srv.addressedTo h := by
  have hclients : (srv.afterSending sys c).clientpool.clients = _ := afterSending_clients hpool
  have hkept : (keep sys c).toList.flatMap Client.packets = [] := by
    rw [keep]
    split <;> rfl
  constructor
  · refine hs.sublist ?_ (files_afterSending sys srv c) fun d hd hof => ?_
    · rw [views, views, hclients, hpool, List.map_append, List.map_append, List.map_append]
      exact (List.Sublist.refl _).append ((keep_views sys c).append (List.Sublist.refl _))
    · rw [hpool] at hd
      rcases List.mem_append.1 hd with hd | hd
      · exact .inr ⟨d, hclients ▸ List.mem_append_left _ hd, hof⟩
      rcases List.mem_cons.1 hd with rfl | hd
      · cases hdestroy : d.destroy with
        | true => exact .inl rfl
        | false =>
          refine .inr ⟨d.flushed sys, ?_, hof⟩
          rw [hclients, keep, hdestroy]
          exact List.mem_append_right _ List.mem_cons_self
      · refine .inr ⟨d, ?_, hof⟩
        exact hclients ▸ List.mem_append_right _ (List.mem_append_right _ hd)
  · have hqueued := Host.packets_client (h := h) c
    rw [addressedTo, addressedTo, sentTo, sentTo, afterSending_sent, hclients,
      Host.packets_append, List.append_assoc]
    congr 1
    rw [List.flatMap_append, List.flatMap_append, hkept, List.nil_append, ← List.flatMap_append]
    by_cases hof : c.Of h
    · rw [Host.packets_of_not (hs.alone hport hpool hof), List.append_nil, hqueued, if_pos hof,
        hs.packets hport hpool hof]
    · rw [hqueued, if_neg hof, hpool, List.flatMap_append, List.flatMap_append, List.flatMap_cons,
        Host.packets_append, Host.packets_append, Host.packets_append, hqueued, if_neg hof]
      rfl

/-- Nothing goes to a host as sending to the client of another one fails. -/
theorem Follows.afterFailing (hs : srv.Follows h path s)
    (hpool : srv.clientpool.clients = pre ++ c :: rest) (hof : ¬c.Of h) (idx : ℕ) (n : Int) :
    (srv.afterFailing c idx n).Follows h path s ∧
      (srv.afterFailing c idx n).addressedTo h = srv.addressedTo h := by
  have hclients := afterFailing_clients hpool idx n
  have hviews : (srv.afterFailing c idx n).views = srv.views := by
    rw [views, views, hclients, hpool, List.map_append, List.map_append]
    rfl
  constructor
  · refine hs.sublist (hviews ▸ List.Sublist.refl _) rfl fun d hd hdof => .inr ?_
    have hview : d.view ∈ (srv.afterFailing c idx n).views := hviews ▸ List.mem_map_of_mem hd
    obtain ⟨e, he, heq⟩ := List.mem_map.1 hview
    exact ⟨e, he, (Client.of_iff heq).2 hdof⟩
  · have hnone : h.packets (c.packets.take idx) = [] := by
      have hsub := (List.take_sublist idx c.packets).filterMap
        fun e => if e.1 = h.fd ∧ e.2.1 = h.addr then some e.2.2 else none
      rw [← Host.packets, ← Host.packets, Host.packets_client, if_neg hof] at hsub
      exact List.sublist_nil.1 hsub
    rw [addressedTo, addressedTo, sentTo, sentTo, afterFailing_sent, Host.packets_append, hnone,
      List.append_nil, hclients, hpool, List.flatMap_append, List.flatMap_append]
    rfl

/-- Flushing the queues sends the host what is queued for it, or nothing. -/
theorem Follows.sendPackets (hs : srv.Follows h path s) (hport : h.addr.port ≠ 32768) {sys : Sys}
    (hsends : ∀ c ∈ srv.clientpool.clients, c.Of h → c.Sends sys) (t : Socket) :
    (srv.sendPackets sys t).1.Follows h path s ∧
      (srv.sendPackets sys t).1.addressedTo h = srv.addressedTo h := by
  have hrule := sendPackets_rule sys srv t
    (fun _ srv' => srv'.Follows h path s ∧ srv'.addressedTo h = srv.addressedTo h)
    (fun srv' => srv'.Follows h path s ∧ srv'.addressedTo h = srv.addressedTo h) ⟨hs, rfl⟩
    (fun _ _ _ _ _ _ hR => hR)
    (fun pre c rest srv' _ _ hpool hR _ => by
      obtain ⟨hs', hsame⟩ := hR.1.afterSending hport hpool sys
      exact ⟨hs', hsame.trans hR.2⟩)
    (fun pre c rest srv' idx n hl _ hpool hR hfails => by
      have hmem : c ∈ srv.clientpool.clients := hl ▸ List.mem_append_right _ List.mem_cons_self
      obtain ⟨hs', hsame⟩ := hR.1.afterFailing hpool
        (fun hof => hfails.not_sends (hsends c hmem hof)) idx n
      exact ⟨hs', hsame.trans hR.2⟩)
  rcases hrule with ⟨srv', heq, -, hR⟩ | ⟨srv', heq, hR⟩
  · rw [heq]
    exact hR
  · rw [heq]
    exact hR

/-! ## Receiving -/

theorem put_clients (hpool : srv.clientpool.clients = pre ++ c :: rest) {st : State}
    (hid : st.2.identity = c.identity) :
    (srv.put st).clientpool.clients = pre ++ st.2 :: rest :=
  ClientPool.update_eq hpool (congrArg Identity.ptr hid)

theorem put_identities (hc : c ∈ srv.clientpool.clients) {st : State}
    (hid : st.2.identity = c.identity) : (srv.put st).identities = srv.identities :=
  ClientPool.map_update hc (congrArg Identity.ptr hid) hid

/-- The clients are at the addresses they were at. -/
theorem Follows.put_addr (hs : srv.Follows h path s) (hc : c ∈ srv.clientpool.clients) {st : State}
    (hid : st.2.identity = c.identity) : ∀ d ∈ (srv.put st).clientpool.clients, d.s.fd = h.fd →
      d.s.addr.port = h.addr.port → d.s.addr = h.addr := by
  intro d hd
  have hmem : d.identity ∈ srv.identities := put_identities hc hid ▸ List.mem_map_of_mem hd
  obtain ⟨e, he, heq⟩ := List.mem_map.1 hmem
  have hfd : e.s.fd = d.s.fd := congrArg Identity.fd heq
  have haddr : e.s.addr = d.s.addr := congrArg Identity.addr heq
  rw [← hfd, ← haddr]
  exact hs.addr e he

/-- A turn of the client of another host. -/
theorem Follows.put_other (hs : srv.Follows h path s) (hc : c ∈ srv.clientpool.clients)
    (hof : ¬c.Of h) {st : State} (hid : st.2.identity = c.identity)
    (hsent : st.1.sent = srv.machine.sent) (hfiles : st.1.files path = srv.machine.files path) :
    (srv.put st).Follows h path s ∧ (srv.put st).addressedTo h = srv.addressedTo h := by
  obtain ⟨pre, rest, hpool⟩ := List.append_of_mem hc
  have hclients := put_clients hpool hid
  have hof' : ¬st.2.Of h := fun hof' => hof
    ⟨(congrArg Identity.fd hid).symm.trans hof'.1, (congrArg Identity.addr hid).symm.trans hof'.2⟩
  have hold : ∀ d ∈ (srv.put st).clientpool.clients, d.Of h → d ∈ srv.clientpool.clients := by
    intro d hd hdof
    rw [hclients] at hd
    rcases List.mem_append.1 hd with hd | hd
    · exact hpool ▸ List.mem_append_left _ hd
    rcases List.mem_cons.1 hd with rfl | hd
    · exact absurd hdof hof'
    · exact hpool ▸ List.mem_append_right _ (List.mem_cons_of_mem _ hd)
  have hnew : ∀ d ∈ srv.clientpool.clients, d.Of h → d ∈ (srv.put st).clientpool.clients := by
    intro d hd hdof
    rw [hpool] at hd
    rcases List.mem_append.1 hd with hd | hd
    · exact hclients ▸ List.mem_append_left _ hd
    rcases List.mem_cons.1 hd with rfl | hd
    · exact absurd hdof hof
    · exact hclients ▸ List.mem_append_right _ (List.mem_cons_of_mem _ hd)
  refine ⟨⟨put_identities hc hid ▸ hs.keyed, hs.put_addr hc hid, hfiles.trans hs.files,
    fun d hd hdof => hs.transfer d (hold d hd hdof) hdof,
    fun hnone => hs.gone fun d hd hdof => hnone d (hnew d hd hdof) hdof⟩, ?_⟩
  have hpackets : ∀ d : Client, ¬d.Of h → h.packets d.packets = [] := fun d hd => by
    rw [Host.packets_client, if_neg hd]
  have hsent' : (srv.put st).machine.sent = srv.machine.sent := hsent
  rw [addressedTo, addressedTo, sentTo, sentTo, hsent', hclients, hpool, List.flatMap_append,
    List.flatMap_append, List.flatMap_cons, List.flatMap_cons, Host.packets_append,
    Host.packets_append, Host.packets_append, Host.packets_append, hpackets c hof,
    hpackets st.2 hof']

/-- A turn of the client of the host. -/
theorem Follows.put_own {m : Machine} (hs : srv.Follows h path (m, c))
    (hport : h.addr.port ≠ 32768) (hc : c ∈ srv.clientpool.clients) (hof : c.Of h) {st : State}
    (hid : st.2.identity = c.identity) (hsent : st.1.sent = srv.machine.sent)
    (hqueue : c.packetqueue <+: st.2.packetqueue) :
    (srv.put st).Follows h path st ∧
      (srv.put st).addressedTo h = srv.addressedTo h ++ queuedBetween (m, c) st := by
  obtain ⟨pre, rest, hpool⟩ := List.append_of_mem hc
  have hclients := put_clients hpool hid
  have halone := hs.alone hport hpool hof
  have hof' : st.2.Of h :=
    ⟨(congrArg Identity.fd hid).trans hof.1, (congrArg Identity.addr hid).trans hof.2⟩
  have hown : (srv.put st).Follows h path st := by
    refine ⟨put_identities hc hid ▸ hs.keyed, hs.put_addr hc hid, rfl, fun d hd hdof => ?_,
      fun hnone => ?_⟩
    · rw [hclients] at hd
      rcases List.mem_append.1 hd with hd | hd
      · exact absurd hdof (halone d (List.mem_append_left _ hd))
      rcases List.mem_cons.1 hd with rfl | hd
      · rfl
      · exact absurd hdof (halone d (List.mem_append_right _ hd))
    · exact absurd hof' (hnone st.2 (hclients ▸ List.mem_append_right _ List.mem_cons_self))
  refine ⟨hown, ?_⟩
  obtain ⟨es, hes⟩ := hqueue
  have hsent' : (srv.put st).machine.sent = srv.machine.sent := hsent
  rw [addressedTo, addressedTo, sentTo, sentTo, hsent', hown.packets hport hclients hof',
    hs.packets hport hpool hof, queuedBetween, ← hes, List.map_append, List.drop_left,
    List.append_assoc]

theorem added_clients (sys : Sys) (fd : Int) (src : SockAddr) :
    (srv.added sys fd src).clientpool.clients = srv.clientpool.clients ++
      [.new srv.clientpool.fresh (srv.newSocket sys fd src)] := rfl

/-- A client that is added has nothing queued for it. -/
theorem added_addressedTo (sys : Sys) (fd : Int) (src : SockAddr) :
    (srv.added sys fd src).addressedTo h = srv.addressedTo h := by
  rw [addressedTo, addressedTo, added_clients, List.flatMap_append, Host.packets_append]
  exact congrArg (srv.sentTo h ++ ·) (List.append_nil _)

/-- The client of another host is found, or added. -/
theorem Follows.found_other (hs : srv.Follows h path s) {sys : Sys} {fd : Int} {src : SockAddr}
    (hfound : srv.findOrAllocateClient sys fd src = (srv', .client c))
    (hapart : fd = h.fd → src.port = h.addr.port → src = h.addr)
    (hother : ¬(fd = h.fd ∧ src = h.addr)) :
    srv'.Follows h path s ∧ srv'.addressedTo h = srv.addressedTo h ∧ ¬c.Of h := by
  have hkeyed := keyed_findOrAllocateClient hs.keyed hfound
  rcases findOrAllocateClient_eq sys srv hfound with ⟨hfind, rfl⟩ | ⟨-, rfl, rfl⟩
  · obtain ⟨hfd, hport, -⟩ := findClient_some hs.keyed hfind
    refine ⟨hs, rfl, fun hof => hother ⟨hfd.symm.trans hof.1, hapart (hfd.symm.trans hof.1) ?_⟩⟩
    rw [← hport, hof.2]
  · have hnew : ¬(Client.new srv.clientpool.fresh (srv.newSocket sys fd src)).Of h := hother
    refine ⟨⟨hkeyed, fun d hd hfd hport => ?_, hs.files, fun d hd hof => ?_, fun hnone => ?_⟩,
      added_addressedTo sys fd src, hnew⟩
    · rcases List.mem_append.1 hd with hd | hd
      · exact hs.addr d hd hfd hport
      · cases List.mem_singleton.1 hd
        exact hapart hfd hport
    · rcases List.mem_append.1 hd with hd | hd
      · exact hs.transfer d hd hof
      · cases List.mem_singleton.1 hd
        exact absurd hof hnew
    · exact hs.gone fun d hd => hnone d (List.mem_append_left _ hd)

/-- So is that of the host: it is the one there was, or a new one if there was none. -/
theorem Follows.found_own (hs : srv.Follows h path s) (hport : h.addr.port ≠ 32768) {sys : Sys}
    (hfound : srv.findOrAllocateClient sys h.fd h.addr = (srv', .client c)) :
    srv'.Follows h path (srv'.machine, c) ∧ srv'.addressedTo h = srv.addressedTo h ∧ c.Of h ∧
      srv'.machine.files = srv.machine.files ∧
      (c ∈ srv.clientpool.clients ∧ c.transfer = s.2.transfer ∨
        (∀ d ∈ srv.clientpool.clients, ¬d.Of h) ∧ c.transfer = .fresh) := by
  have hkeyed := keyed_findOrAllocateClient hs.keyed hfound
  rcases findOrAllocateClient_eq sys srv hfound with ⟨hfind, rfl⟩ | ⟨hfind, rfl, rfl⟩
  · obtain ⟨hfd, hport', -⟩ := findClient_some hs.keyed hfind
    have hmem : c ∈ srv'.clientpool.clients := List.mem_of_find?_eq_some hfind
    have hof : c.Of h := ⟨hfd, hs.addr c hmem hfd hport'⟩
    have htransfer := hs.transfer c hmem hof
    exact ⟨⟨hkeyed, hs.addr, rfl, fun d hd hdof => (hs.transfer d hd hdof).trans htransfer.symm,
      fun hnone => absurd hof (hnone c hmem)⟩, rfl, hof, rfl, .inl ⟨hmem, htransfer⟩⟩
  · -- A client of the host would have been found.
    have hnone : ∀ d ∈ srv.clientpool.clients, ¬d.Of h := fun d hd hof => hport <| by
      have hsame : d.s.addr.port = h.addr.port := congrArg SockAddr.port hof.2
      rw [← hsame]
      exact findClient_none hs.keyed hfind hd hof.1 hsame
    have hof : (Client.new srv.clientpool.fresh (srv.newSocket sys h.fd h.addr)).Of h := ⟨rfl, rfl⟩
    refine ⟨⟨hkeyed, fun d hd hfd hport' => ?_, rfl, fun d hd hdof => ?_, fun hnone' => ?_⟩,
      added_addressedTo sys h.fd h.addr, hof, rfl, .inr ⟨hnone, rfl⟩⟩
    · rcases List.mem_append.1 hd with hd | hd
      · exact hs.addr d hd hfd hport'
      · cases List.mem_singleton.1 hd
        rfl
    · rcases List.mem_append.1 hd with hd | hd
      · exact absurd hdof (hnone d hd)
      · cases List.mem_singleton.1 hd
        rfl
    · exact absurd hof (hnone' _ (List.mem_append_right _ List.mem_cons_self))

/-! ## Steps -/

theorem sent_destroySocket (srv : Server) (t : Socket) (closefd : Bool) :
    (srv.destroySocket t closefd).machine.sent = srv.machine.sent := by
  have hfree : ∀ m : Machine, ((m.free t.bindaddr).emit (.free t.packet)).sent = m.sent := by
    intro m
    rw [Machine.free, Machine.sent_emit, Machine.sent_emit]
    exact (List.append_nil _).trans (List.append_nil _)
  cases closefd with
  | false => exact hfree _
  | true => exact (hfree _).trans ((Machine.sent_emit _ _).trans (List.append_nil _))

theorem files_destroySocket (srv : Server) (t : Socket) (closefd : Bool) :
    (srv.destroySocket t closefd).machine.files = srv.machine.files := by
  cases closefd <;> rfl

theorem Follows.destroyFailed (hs : srv.Follows h path s) (t : Socket) (n : Int) :
    (Nbstftp.destroyFailed t (srv, n)).Follows h path s ∧
      (Nbstftp.destroyFailed t (srv, n)).addressedTo h = srv.addressedTo h := by
  rw [Nbstftp.destroyFailed]
  split
  · exact hs.aside rfl (files_destroySocket srv t true) (sent_destroySocket srv t true)
  · exact ⟨hs, rfl⟩

theorem sent_turn {cfg : Config} {sys : Sys} {m : Machine} {c : Client} {data : Bytes} {st : State}
    (hturn : Nbstftp.turn cfg (m, c) (receiving sys data) = .ok st) : st.1.sent = m.sent := by
  rw [turn_receiving] at hturn
  exact (processDatagram_sent hturn).trans ((m.sent_emit _).trans (List.append_nil _))

/-- A step in which the host is not heard changes nothing for it. -/
theorem Follows.step_other (hs : srv.Follows h path s) (hport : h.addr.port ≠ 32768)
    (hunarmed : srv.Unarmed) {cfg : Config} {i : Input} (hheard : i.heard h = none)
    (hstep : step cfg srv i = .ok srv') (hapart : ServerStep.Apart h path ⟨srv, i, .ok srv'⟩) :
    srv'.Follows h path s ∧ srv'.addressedTo h = srv.addressedTo h := by
  obtain ⟨sys, event⟩ := i
  cases event with
  | check =>
    cases hstep
    rw [checkClients_unarmed hunarmed]
    exact ⟨hs, rfl⟩
  | activity t =>
    cases hstep
    exact hs.aside rfl rfl ((srv.machine.sent_emit _).trans (List.append_nil _))
  | hangup t =>
    cases hstep
    exact hs.aside rfl (files_destroySocket srv t true) (sent_destroySocket srv t true)
  | unknown fd =>
    cases hstep
    exact hs.aside rfl rfl ((Machine.sent_emit _ _).trans (List.append_nil _))
  | writable t =>
    cases hstep
    obtain ⟨hs', hsame⟩ := hs.sendPackets hport hapart.sends t
    obtain ⟨hs'', hsame'⟩ := hs'.destroyFailed t (srv.sendPackets sys t).2
    exact ⟨hs'', hsame'.trans hsame⟩
  | readable t received =>
    cases received with
    | failed e =>
      cases hstep
      exact hs.destroyFailed t _
    | datagram src data =>
      obtain ⟨srv₁, c, st, hfound, hturn, rfl⟩ := step_readable_ok hstep
      have hother : ¬(t.fd = h.fd ∧ src = h.addr) := fun hof => by
        rw [Input.heard, show (⟨sys, .readable t (.datagram src data)⟩ : Input).arrival =
          some ⟨t.fd, src, data⟩ from rfl, Option.filter_some,
          if_pos (decide_eq_true (show Arrival.Of ⟨t.fd, src, data⟩ h from hof))] at hheard
        cases hheard
      obtain ⟨hs₁, hsame, hof⟩ := hs.found_other hfound (hapart.port ⟨t.fd, src, data⟩ rfl) hother
      obtain ⟨hs', hsame'⟩ := hs₁.put_other (mem_of_findOrAllocateClient sys srv hfound) hof
        (turn_identity hturn) (sent_turn hturn)
        ((hapart.files hheard _ rfl).trans (hs.files.trans hs₁.files.symm))
      exact ⟨hs', hsame'.trans hsame⟩

/-- A step in which it is heard is the turn of its client. -/
theorem Follows.step_own (hs : srv.Follows h path s) (hport : h.addr.port ≠ 32768) {cfg : Config}
    {i : Input} (hheard : (i.heard h).isSome) (hstep : step cfg srv i = .ok srv')
    {flushes : ServerStep → Bool}
    (hunmarked : flushes ⟨srv, i, .ok srv'⟩ = true →
      ∀ c ∈ srv.clientpool.clients, c.Of h → c.destroy = false)
    (hpresent : flushes ⟨srv, i, .ok srv'⟩ = false →
      (∃ c ∈ srv.clientpool.clients, c.Of h) ∨ s.2.transfer = .fresh) :
    ∃ u s', ServerStep.IsTurn h path (flushes ⟨srv, i, .ok srv'⟩) ⟨srv, i, .ok srv'⟩ u ∧
      Nbstftp.turn cfg s u = .ok s' ∧ srv'.Follows h path s' ∧
      srv'.addressedTo h = srv.addressedTo h ++ Exchange.queued ⟨s, u, .ok s'⟩ := by
  obtain ⟨data, hdata⟩ := Option.isSome_iff_exists.1 hheard
  obtain ⟨a, ha, rfl⟩ := Option.map_eq_some_iff.1 hdata
  obtain ⟨harrival, hof⟩ := Option.filter_eq_some_iff.1 ha
  obtain ⟨hfd, haddr⟩ := of_decide_eq_true hof
  obtain ⟨srv₁, c, st, hfound, hturn, rfl⟩ := step_arrival_ok harrival hstep
  generalize flushes ⟨srv, i, .ok (srv₁.put st)⟩ = kind at hunmarked hpresent ⊢
  have hu : ServerStep.IsTurn h path kind ⟨srv, i, .ok (srv₁.put st)⟩ (.to path kind
      ((receiving i.sys a.data).meanwhile (srv₁.machine, c)) i.sys a.data) := by
    refine ⟨by rw [Input.heard, ha]; rfl, rfl, ?_, ?_⟩
    · rintro rfl
      exact Turn.to_quiet
    · rintro rfl
      exact Turn.to_flushes
  rw [hfd, haddr] at hfound
  obtain ⟨hs₁, hsame, hown, hfiles, hcases⟩ := hs.found_own hport hfound
  obtain ⟨hs', hissued⟩ := hs₁.put_own hport (mem_of_findOrAllocateClient i.sys srv hfound) hown
    (turn_identity hturn) (sent_turn hturn) (turn_upkeep i.sys srv₁.machine c hturn).queue_extends
  -- The turn leads to the state the datagram was handled in.
  have hmeanwhile : (Turn.to path kind ((receiving i.sys a.data).meanwhile (srv₁.machine, c))
      i.sys a.data).meanwhile s = (receiving i.sys a.data).meanwhile (srv₁.machine, c) := by
    refine Turn.to_meanwhile ((congrFun hfiles path).trans hs.files) ?_
    have htransfer : ((receiving i.sys a.data).meanwhile (srv₁.machine, c)).2.transfer =
        c.transfer := rfl
    rw [htransfer]
    rcases hcases with ⟨hmem, hc⟩ | ⟨hnone, hc⟩
    · cases kind with
      | false => exact hc
      | true =>
        have hlive : s.2.destroy = false := by
          rw [← hunmarked rfl c hmem hown]
          exact congrArg Transfer.destroy hc.symm
        rw [hlive]
        exact hc
    · rw [hc]
      cases kind with
      | false =>
        rcases hpresent rfl with ⟨d, hd, hdof⟩ | hfresh
        · exact absurd hdof (hnone d hd)
        · exact hfresh.symm
      | true =>
        rcases hs.gone hnone with hmarked | hfresh
        · rw [hmarked]
          rfl
        · rw [hfresh]
          exact (ite_self _).symm
  refine ⟨_, st, hu, ?_, hs', ?_⟩
  · rw [Nbstftp.turn, hmeanwhile]
    exact hturn
  · rw [hissued, hsame, Exchange.queued, Exchange.before]
    dsimp only
    rw [hmeanwhile]
    rfl

end Server

/-! ## Runs -/

/-- What the server did, seen from a host: the steps of a run in which it was heard are turns that
    lead from `s₀` to `s`, and the server follows them. -/
structure Converses (cfg : Config) (h : Host) (path : Bytes) (flushes : ServerStep → Bool)
    (s₀ : State) (past : List ServerStep) (srv : Server) (turns : List Turn) (s : State) :
    Prop where
  heard : List.Forall₂ (fun t u => ServerStep.IsTurn h path (flushes t) t u) (heardIn h past) turns
  run : Lib.run (turn cfg) s₀ turns = .ok s
  follows : srv.Follows h path s
  addressed : srv.addressedTo h = (exchanges cfg s₀ turns).flatMap Exchange.queued

section

variable {cfg : Config} {h : Host} {path : Bytes} {flushes : ServerStep → Bool} {s₀ s : State}
  {past : List ServerStep} {srv srv' : Server} {turns : List Turn} {machine : Machine}
  {socketpool : List Socket}

theorem heardIn_concat (ts : List ServerStep) (t : ServerStep) :
    heardIn h (ts ++ [t]) = heardIn h ts ++ if (t.input.heard h).isSome then [t] else [] := by
  rw [heardIn, List.filter_append, List.filter_singleton]
  cases (t.input.heard h).isSome <;> rfl

/-- One more step. -/
theorem Converses.step (hc : Converses cfg h path flushes s₀ past srv turns s)
    (hport : h.addr.port ≠ 32768) (hunarmed : srv.Unarmed) {i : Input}
    (hapart : ServerStep.Apart h path ⟨srv, i, .ok srv'⟩)
    (hunmarked : (i.heard h).isSome → flushes ⟨srv, i, .ok srv'⟩ = true →
      ∀ c ∈ srv.clientpool.clients, c.Of h → c.destroy = false)
    (hpresent : (i.heard h).isSome → flushes ⟨srv, i, .ok srv'⟩ = false →
      (∃ c ∈ srv.clientpool.clients, c.Of h) ∨ s.2.transfer = .fresh)
    (hstep : Nbstftp.step cfg srv i = .ok srv') :
    ∃ turns' s', Converses cfg h path flushes s₀ (past ++ [⟨srv, i, .ok srv'⟩]) srv' turns' s' := by
  cases hheard : (i.heard h).isSome with
  | false =>
    obtain ⟨hfollows, hsame⟩ := hc.follows.step_other hport hunarmed
      (Option.isNone_iff_eq_none.1 (Option.isSome_eq_false_iff.1 hheard)) hstep hapart
    refine ⟨turns, s, ?_, hc.run, hfollows, hsame.trans hc.addressed⟩
    rw [heardIn_concat, hheard]
    simpa using hc.heard
  | true =>
    obtain ⟨u, s', hu, hs', hfollows, hissued⟩ := hc.follows.step_own hport hheard hstep
      (hunmarked hheard) (hpresent hheard)
    refine ⟨turns ++ [u], s', ?_, ?_, hfollows, ?_⟩
    · rw [heardIn_concat, hheard]
      exact List.rel_append hc.heard (.cons hu .nil)
    · rw [Lib.run_append hc.run, Lib.run_cons_ok hs', Lib.run]
    · have hexchanges : exchanges cfg s₀ (turns ++ [u]) =
          exchanges cfg s₀ turns ++ [⟨s, u, .ok s'⟩] := by
        rw [exchanges, Lib.trace_concat hc.run, hs']
      rw [hissued, hc.addressed, hexchanges, List.flatMap_append, List.flatMap_singleton]

/-- It begins with a server that has no client, and has sent the host nothing. -/
theorem converses_boot (hfiles : s₀.1.files path = machine.files path)
    (hfresh : s₀.2.transfer = .fresh) (hsent : h.packets machine.sent = []) :
    Converses cfg h path flushes s₀ [] (.boot machine socketpool) [] s₀ where
  heard := .nil
  run := rfl
  follows :=
    ⟨⟨fun _ hi => absurd hi List.not_mem_nil, .nil⟩, fun _ hc => absurd hc List.not_mem_nil,
      hfiles.symm, fun _ hc => absurd hc List.not_mem_nil, fun _ => .inr hfresh⟩
  addressed := by
    rw [Server.addressedTo, Server.sentTo]
    exact (List.append_nil _).trans hsent

/-- The turns are those of the datagrams of the host. -/
theorem Converses.datagrams (hc : Converses cfg h path flushes s₀ past srv turns s) :
    turns.map Turn.datagram = past.filterMap fun t => t.input.heard h := by
  have hsame : (past.filterMap fun t => t.input.heard h) =
      (heardIn h past).filterMap fun t => t.input.heard h := by
    rw [heardIn, List.filterMap_filter]
    refine List.filterMap_congr fun t _ => ?_
    cases t.input.heard h <;> rfl
  have hheard := hc.heard
  rw [hsame]
  clear hc
  generalize heardIn h past = ts at hheard ⊢
  induction hheard with
  | nil => rfl
  | cons hu _ ih => rw [List.map_cons, ih, List.filterMap_cons, hu.datagram]

/-- Every turn is made of a step. -/
theorem Converses.exists_step (hc : Converses cfg h path flushes s₀ past srv turns s) {u : Turn}
    (hu : u ∈ turns) : ∃ t ∈ heardIn h past, t.IsTurn h path (flushes t) u := by
  have hheard := hc.heard
  clear hc
  generalize heardIn h past = ts at hheard ⊢
  induction hheard with
  | nil => cases hu
  | cons hu' _ ih =>
    rcases List.mem_cons.1 hu with rfl | hu
    · exact ⟨_, List.mem_cons_self, hu'⟩
    · obtain ⟨t, ht, hturn⟩ := ih hu
      exact ⟨t, List.mem_cons_of_mem _ ht, hturn⟩

/-- Before the host is heard for the first time, nothing has happened. -/
theorem Converses.eq_start (hc : Converses cfg h path flushes s₀ past srv turns s)
    (hpast : ∀ t ∈ past, t.input.heard h = none) : s = s₀ := by
  have hnil : heardIn h past = [] :=
    List.filter_eq_nil_iff.2 fun t ht => by rw [hpast t ht]; exact Bool.false_ne_true
  have hturns := hc.heard
  rw [hnil, List.forall₂_nil_left_iff] at hturns
  subst hturns
  exact (Except.ok.inj hc.run).symm

/-- A run of the server is, for a host that nobody else interferes with, a run of turns. -/
theorem converses {inputs : List Input} (hport : h.addr.port ≠ 32768)
    (hfiles : s₀.1.files path = machine.files path) (hfresh : s₀.2.transfer = .fresh)
    (hsent : h.packets machine.sent = [])
    (hapart : ∀ t ∈ Lib.trace (step cfg) (.boot machine socketpool) inputs,
      ServerStep.Apart h path t)
    (htimely : Lib.Always (ServerStep.Timely h flushes)
      (Lib.trace (step cfg) (.boot machine socketpool) inputs))
    (hrun : Lib.run (step cfg) (.boot machine socketpool) inputs = .ok srv) :
    ∃ turns s, Converses cfg h path flushes s₀
      (Lib.trace (step cfg) (.boot machine socketpool) inputs) srv turns s := by
  have hinv := Lib.run_always
    (Q := fun past t => ServerStep.Apart h path t ∧ ServerStep.Timely h flushes past t)
    (fun past srv => srv.Unarmed ∧ ∃ turns s, Converses cfg h path flushes s₀ past srv turns s)
    ⟨fun c hc => absurd hc List.not_mem_nil, [], s₀, converses_boot hfiles hfresh hsent⟩
    (fun past srv i srv' hinv ht hstep => by
      obtain ⟨hunarmed, turns, s, hc⟩ := hinv
      exact ⟨step_unarmed hunarmed hstep, hc.step hport hunarmed ht.1 ht.2.unmarked
        (fun hheard hquiet => (ht.2.present hheard hquiet).imp_right fun hpast =>
          hc.eq_start hpast ▸ hfresh) hstep⟩)
    (fun past t future hl =>
      ⟨hapart t (hl ▸ List.mem_append_right _ List.mem_cons_self), htimely past t future hl⟩) hrun
  exact hinv.2

/-- In every run of the server, whatever other clients and sockets do: the datagrams of a host
    that nobody else interferes with are handled as a run of turns of one client, in the order in
    which they arrive. The file is as these turns leave it; so is the transfer of the client, if
    there is one; and what they queue is what is sent to the host, followed by what is queued for
    it still. -/
theorem conversation {inputs : List Input} (hport : h.addr.port ≠ 32768)
    (hfiles : s₀.1.files path = machine.files path) (hfresh : s₀.2.transfer = .fresh)
    (hsent : h.packets machine.sent = [])
    (hapart : ∀ t ∈ Lib.trace (step cfg) (.boot machine socketpool) inputs,
      ServerStep.Apart h path t)
    (hrun : Lib.run (step cfg) (.boot machine socketpool) inputs = .ok srv) :
    ∃ turns s,
      List.Forall₂ (fun t u => ServerStep.IsTurn h path (ServerStep.Unknown t h) t u)
        (heardIn h (Lib.trace (step cfg) (.boot machine socketpool) inputs)) turns ∧
      Lib.run (turn cfg) s₀ turns = .ok s ∧ srv.machine.files path = s.1.files path ∧
      (∀ c ∈ srv.clientpool.clients, c.Of h → c.transfer = s.2.transfer) ∧
      srv.addressedTo h = (exchanges cfg s₀ turns).flatMap Exchange.queued := by
  obtain ⟨turns, s, hc⟩ := converses hport hfiles hfresh hsent hapart
    (fun past t _ _ => ServerStep.timely_of_unknown h past t) hrun
  exact ⟨turns, s, hc.heard, hc.run, hc.follows.files, hc.follows.transfer, hc.addressed⟩

end

namespace Sample

/-- The host of the server to run. -/
def host : Host := ⟨3, .inet 40000 1⟩

/-- A datagram of another one. -/
def receiveOther (datagram : Bytes) : Input :=
  ⟨.ideal, .readable socket (.datagram (.inet 40001 2) datagram)⟩

end Sample

/-- Two hosts read a file of one byte, in turn. -/
theorem conversation_two :
    let inputs := [Sample.receive (Sample.request .rrq []),
      Sample.receiveOther (Sample.request .rrq []), Sample.flush, Sample.receive (ackBytes 1),
      Sample.receiveOther (ackBytes 1), Sample.flush, Sample.receive (ackBytes 2)]
    ∃ turns s,
      List.Forall₂
        (fun t u => ServerStep.IsTurn Sample.host Sample.path
          (ServerStep.Unknown t Sample.host) t u)
        (heardIn Sample.host (Lib.trace (step Sample.config) (Sample.boot [1]) inputs)) turns ∧
      Lib.run (turn Sample.config) (Sample.start [1]) turns = .ok s ∧
      (Sample.after [1] inputs).machine.files Sample.path = s.1.files Sample.path ∧
      (∀ c ∈ (Sample.after [1] inputs).clientpool.clients, c.Of Sample.host →
        c.transfer = s.2.transfer) ∧
      (Sample.after [1] inputs).addressedTo Sample.host =
        (exchanges Sample.config (Sample.start [1]) turns).flatMap Exchange.queued :=
  conversation (by decide) rfl rfl rfl (by decide +kernel) (Sample.run_after (by decide +kernel))

end Nbstftp
