import Nbstftp.Sending

/-!
# Flushing the queues

`sendPackets` walks the pool by an index while clients marked for destruction
leave it, so that the client behind each of them is passed over: its packets stay
in its queue, and if it is marked as well, it stays in the pool
(`not_flushes`).

With every `sendto` succeeding, everything queued is sent, in order, every queue
is emptied and exactly the marked clients leave if and only if no marked client
is followed by one that is marked, or has packets queued (`flushes_iff`).
-/

namespace Nbstftp

/-- A client with nothing to be done for it. -/
def Client.Idle (c : Client) : Prop := c.destroy = false ∧ c.packetqueue = []

instance (c : Client) : Decidable c.Idle := inferInstanceAs (Decidable (_ ∧ _))

/-- Flushing does what is to be done: it succeeds, sends what is queued, each packet
    once and in order, empties the queues and takes out the marked clients. -/
structure Flushes (srv : Server) (r : Server × Int) : Prop where
  result : r.2 = 0
  sent : r.1.machine.sent = srv.machine.sent ++ srv.clientpool.clients.flatMap Client.packets
  emptied : ∀ c ∈ r.1.clientpool.clients, c.packetqueue = []
  remaining : r.1.views = (srv.clientpool.clients.filter (!·.destroy)).map Client.view

section

variable {sys : Sys}

/-- Flushing a pool whose `sendto`s succeed comes to its end. -/
theorem sendPackets_flushed {srv : Server} (h : ∀ c ∈ srv.clientpool.clients, c.Sends sys)
    (s : Socket) : ∃ srv', srv.sendPackets sys s = (srv', 0) ∧ Flushed sys srv srv' := by
  refine (sendPackets_cases sys srv s).resolve_right ?_
  rintro ⟨_, -, pre, c, rest, idx, hstopped⟩
  have hc : c ∈ srv.clientpool.clients :=
    hstopped.pool ▸ List.mem_append_right _ List.mem_cons_self
  have hsome := h c hc idx hstopped.fails.queued
  rw [hstopped.fails.fails] at hsome
  cases hsome

/-- What is looked at to tell whether a pool was flushed. -/
def Client.look (c : Client) : (Identity × Transfer) × List Packetqueue :=
  (c.view, c.packetqueue)

theorem flushed_look (c : Client) : (c.flushed sys).look = (c.view, []) := rfl

/-- A client passed over looks as if it had been flushed if it is idle. -/
theorem keep_look_iff {c : Client} : (keep sys c).map Client.look = some c.look ↔ c.Idle := by
  rw [keep, Client.Idle]
  cases c.destroy with
  | true => simp
  | false =>
    rw [if_neg Bool.false_ne_true, Option.map_some, Option.some.injEq, flushed_look, Client.look,
      Prod.mk.injEq]
    exact ⟨fun h => ⟨rfl, h.2.symm⟩, fun h => ⟨rfl, h.2.symm⟩⟩

/-- What a pool looks like when everything was done. -/
theorem filterMap_keep_look (l : List Client) :
    (l.filterMap (keep sys)).map Client.look =
      ((l.filter (!·.destroy)).map Client.view).map (·, []) := by
  induction l with
  | nil => rfl
  | cons c l ih =>
    rw [List.filterMap_cons, keep]
    cases hd : c.destroy with
    | true => simpa [hd] using ih
    | false =>
      rw [if_neg Bool.false_ne_true, List.map_cons, flushed_look, ih, List.filter_cons_of_pos,
        List.map_cons, List.map_cons]
      rw [hd]
      rfl

/-- With every `sendto` succeeding, flushing does what is to be done exactly if no
    marked client is followed by one for which there is something to be done. -/
theorem flushes_iff {srv : Server}
    (h : ∀ c ∈ srv.clientpool.clients, ∀ idx < c.packetqueue.length,
      (sys.sendto c.ptr idx).isSome) (s : Socket) :
    Flushes srv (srv.sendPackets sys s) ↔
      srv.clientpool.clients.IsChain fun c d => c.destroy = true → d.Idle := by
  obtain ⟨srv', hs, -, hclients, hsent⟩ := sendPackets_flushed h s
  have hchain : ∀ c d : Client, (c.destroy = true → d.Idle) ↔
      (keep sys c = none → (keep sys d).map Client.look = some d.look) := fun c d => by
    rw [keep_eq_none, keep_look_iff]
  have hwalk := Lib.walk_map_eq_iff (keep sys) Client.look false srv.clientpool.clients
  rw [← hclients, filterMap_keep_look] at hwalk
  rw [hs, List.IsChain.iff hchain]
  constructor
  · -- Empty queues and the clients left make up what the pool looks like.
    intro hflush
    refine (hwalk.1 ?_).2
    rw [← hflush.remaining, Server.views, List.map_map]
    exact List.map_congr_left fun c hc => Prod.ext rfl (hflush.emptied c hc)
  · intro hl
    have hlook := hwalk.2 ⟨fun h => absurd h Bool.false_ne_true, hl⟩
    refine ⟨rfl, ?_, ?_, ?_⟩
    · -- Those passed over have nothing to be sent.
      rw [hsent, (Lib.visited_flatMap_eq_iff false _).2]
      refine Lib.forall_mem_passed (fun h => absurd h Bool.false_ne_true)
        (List.IsChain.imp (fun c d hcd hc => ?_) ((List.IsChain.iff hchain).2 hl))
      rw [Client.packets, (hcd (keep_eq_none.1 hc)).2, List.map_nil]
    · intro c hc
      have hmem : c.look ∈ srv'.clientpool.clients.map Client.look := List.mem_map_of_mem hc
      rw [hlook] at hmem
      obtain ⟨v, -, hv⟩ := List.mem_map.1 hmem
      exact (congrArg Prod.snd hv).symm
    · have := congrArg (List.map Prod.fst) hlook
      rw [List.map_map, List.map_map] at this
      exact this.trans (List.map_id' _)

end

/-! ## Two pools to flush -/

namespace Sample

/-- A client at an address in memory, with packets queued, and perhaps marked. -/
def client (ptr : ℕ) (destroy : Bool) (packets : List Bytes) : Client :=
  { Client.new ptr socket with
    destroy := destroy
    packetqueue := packets.map fun p => ⟨⟨ptr, p⟩, p.length, 1⟩ }

/-- A server with two clients. -/
def server (c d : Client) (h : c.ptr ≠ d.ptr) : Server where
  machine := machine []
  clientpool := ⟨[c, d], by simp [h]⟩
  socketpool := [socket, c.s, d.s]

end Sample

/-- A marked client behind an unmarked one. -/
theorem flushes_sample :
    Flushes (Sample.server (Sample.client 1 false [ackBytes 0])
      (Sample.client 2 true [ackBytes 1]) (by decide))
      ((Sample.server (Sample.client 1 false [ackBytes 0])
        (Sample.client 2 true [ackBytes 1]) (by decide)).sendPackets .ideal Sample.socket) :=
  (flushes_iff (fun _ _ _ _ => rfl) Sample.socket).2 (by simp [Sample.server, Sample.client])

/-- Two marked clients, one behind the other. -/
theorem not_flushes :
    ¬∀ sys srv s, (∀ c ∈ srv.clientpool.clients, ∀ idx < c.packetqueue.length,
        (sys.sendto c.ptr idx).isSome) → Flushes srv (srv.sendPackets sys s) := by
  intro h
  have hflush := h .ideal (Sample.server (Sample.client 1 true [ackBytes 0])
    (Sample.client 2 true [ackBytes 1]) (by decide)) Sample.socket fun _ _ _ _ => rfl
  exact absurd (congrArg List.length hflush.remaining) (by decide +kernel)

end Nbstftp
