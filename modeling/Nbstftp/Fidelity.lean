import Nbstftp.Ownership

/-!
# What is sent again

A packet is sent again as the last packet of its client: the entry of the queue that
`checkClient` makes refers to the block of the copy kept of it. Between this and the
sending of the queue, further packets may be queued, which replace the last packet,
and datagrams handled, which might release it. What is sent is nevertheless the
packet that was queued last when it was decided to send it again
(`resends_lastQueued`): a copy is never written to, and not released before its
client leaves.
-/

namespace Nbstftp

namespace CallStep

variable (t : CallStep) (ptr : ℕ)

/-- A call queues a packet just built for the client at an address. -/
structure Queues (bytes : Bytes) (len : ℕ) : Prop where
  holds : t.pre.Holds ptr
  input : ∃ sys, t.input = .client ptr (.queue sys bytes len)

/-- A call has the last packet of the client at an address sent again, behind the first
    `k` packets of its queue. -/
structure Resends (k : ℕ) : Prop where
  checks : ∃ c ∈ t.pre.clientpool.clients, c.ptr = ptr ∧ c.packetqueue.length = k ∧
    ∃ sys waiting, t.input = .client ptr (.check sys waiting) ∧ c.Due sys waiting ∧ ¬3 ≤ waiting

def Sends : Prop := ∃ sys h, t.input = .client ptr (.send sys h)

end CallStep

/-- The packet just built that was queued last for the client at an address, since it has
    been in the pool. -/
def LastQueued (past : List CallStep) (ptr : ℕ) (bytes : Bytes) (len : ℕ) : Prop :=
  Lib.Since (fun _ t => CallStep.Queues t ptr bytes len)
    (fun u => u.pre.Holds ptr ∧ ∀ bytes len, ¬CallStep.Queues u ptr bytes len) past

/-- A call sends the queue of a client, the `k`-th packet of which is `pq`: what goes on
    the wire is a packet of so many bytes, from a block that is still allocated then. -/
structure CallStep.Puts (t : CallStep) (c : Client) (k : ℕ) (pq : Packetqueue) (bytes : Bytes)
    (len : ℕ) : Prop where
  size : pq.len = len
  content : pq.p.bytes = bytes.take len
  wire : ∀ srv, t.post = .ok srv →
    srv.machine.sent[t.pre.machine.sent.length + k]? = some (c.s.fd, c.s.addr, bytes.take len)
  allocated : ∀ sys h, t.input = .client c.ptr (.send sys h) →
    ∀ s, Lib.run (Server.sendPacket sys) (t.pre.machine, c) (c.packetqueue.zipIdx.take k) = .ok s →
      pq.p.tok ∉ s.1.frees

/-- Something was decided for the client at an address, whose queue was not sent since. -/
def Pending (R : List CallStep → CallStep → Prop) (past : List CallStep) (ptr : ℕ) : Prop :=
  Lib.Since R (fun u => u.pre.Holds ptr ∧ ¬CallStep.Sends u ptr) past

/-- A call that sends the queue of a client sends again what was queued last for the client
    when that was decided. -/
def Faithful (past : List CallStep) (t : CallStep) : Prop :=
  ∀ c ∈ t.pre.clientpool.clients, CallStep.Sends t c.ptr → ∀ k pq, c.packetqueue[k]? = some pq →
    pq.allocated = 2 → Pending (fun before u => CallStep.Resends u c.ptr k ∧
      ∀ bytes len, LastQueued before c.ptr bytes len → CallStep.Puts t c k pq bytes len) past c.ptr

/-! ## What is remembered -/

/-- A packet queued again is the one that was queued last then. -/
def Issued (past : List CallStep) (ptr k : ℕ) (pq : Packetqueue) : Prop :=
  Pending (fun before u => CallStep.Resends u ptr k ∧ ∀ bytes len,
    LastQueued before ptr bytes len → pq.p.tok ≠ 0 ∧ pq.p.bytes = bytes.take len ∧ pq.len = len)
    past ptr

/-- The last packet of a client is the one queued last, and those queued again were. -/
structure Client.Recalls (c : Client) (past : List CallStep) : Prop where
  last : ∀ bytes len, LastQueued past c.ptr bytes len →
    ∃ last ∈ c.lastpacket, last.p.bytes = bytes.take len ∧ last.len = len
  again : ∀ k pq, c.packetqueue[k]? = some pq → pq.allocated = 2 → Issued past c.ptr k pq

section

variable {past : List CallStep} {t : CallStep} {ptr k : ℕ} {pq : Packetqueue} {bytes : Bytes}
  {len : ℕ} {c d : Client}

theorem lastQueued_concat : LastQueued (past ++ [t]) ptr bytes len ↔
    CallStep.Queues t ptr bytes len ∨ LastQueued past ptr bytes len ∧ t.pre.Holds ptr ∧
      ∀ bytes len, ¬CallStep.Queues t ptr bytes len :=
  Lib.since_concat

theorem Issued.concat (h : Issued past ptr k pq) (hholds : t.pre.Holds ptr)
    (hsends : ¬CallStep.Sends t ptr) : Issued (past ++ [t]) ptr k pq :=
  Lib.since_concat.2 (.inr ⟨h, hholds, hsends⟩)

namespace Client.Recalls

/-- A new client recalls nothing. -/
theorem new (hnew : ¬t.pre.Holds ptr) (s : Socket) : (Client.new ptr s).Recalls (past ++ [t]) where
  last bytes len hlast := by
    rcases lastQueued_concat.1 hlast with hqueues | ⟨-, hholds, -⟩
    · exact absurd hqueues.holds hnew
    · exact absurd hholds hnew
  again k pq hpq := by cases hpq

/-- The last packet remains so until the next one is queued. -/
theorem keep_last (h : c.Recalls past) (hqueues : ∀ bytes len, ¬CallStep.Queues t c.ptr bytes len) :
    ∀ bytes len, LastQueued (past ++ [t]) c.ptr bytes len →
      ∃ last ∈ c.lastpacket, last.p.bytes = bytes.take len ∧ last.len = len := by
  intro bytes len hlast
  rcases lastQueued_concat.1 hlast with hqueue | ⟨hlast, -⟩
  · exact absurd hqueue (hqueues bytes len)
  · exact h.last bytes len hlast

/-- A client is left alone by what is done for others, or does not concern its queue. -/
theorem keep (h : c.Recalls past) (hholds : t.pre.Holds c.ptr)
    (hqueues : ∀ bytes len, ¬CallStep.Queues t c.ptr bytes len)
    (hsends : ¬CallStep.Sends t c.ptr) (hptr : d.ptr = c.ptr)
    (hlast : d.lastpacket = c.lastpacket) (hqueue : d.packetqueue = c.packetqueue) :
    d.Recalls (past ++ [t]) where
  last := by
    rw [hptr, hlast]
    exact h.keep_last hqueues
  again k pq hpq ha := by
    rw [hptr]
    exact (h.again k pq (hqueue ▸ hpq) ha).concat hholds hsends

end Client.Recalls

end

/-! ## Runs of calls -/

/-- An entry of a queue with one more packet is one there was, or that packet. -/
theorem getElem?_concat_cases {α : Type*} {l : List α} {x a : α} {k : ℕ}
    (h : (l ++ [x])[k]? = some a) : l[k]? = some a ∨ k = l.length ∧ a = x := by
  rw [List.getElem?_append] at h
  split at h
  · exact .inl h
  · next hk =>
    rw [List.getElem?_singleton] at h
    split at h
    · next hzero =>
      cases h
      exact .inr ⟨Nat.le_antisymm (Nat.le_of_sub_eq_zero hzero) (Nat.le_of_not_lt hk), rfl⟩
    · cases h

section

variable {past : List CallStep} {srv srv' : Server} {origin : ℕ → Option Origin} {c d : Client}

/-- A packet that is queued is the last one then. -/
theorem Client.Recalls.queue (h : c.Recalls past) (hmem : c ∈ srv.clientpool.clients) (sys : Sys)
    (bytes : Bytes) (len : ℕ) (o : Except Empty Server) :
    (queuePacket sys (srv.machine.nmalloc bytes).1 c (srv.machine.nmalloc bytes).2 len 1).2.Recalls
      (past ++ [⟨srv, .client c.ptr (.queue sys bytes len), o⟩]) where
  last bytes' len' hlast := by
    rcases lastQueued_concat.1 hlast with ⟨-, _, hinput⟩ | ⟨-, hholds, hqueues⟩
    · cases hinput
      exact ⟨_, rfl, rfl, rfl⟩
    · exact absurd ⟨hholds, sys, rfl⟩ (hqueues bytes len)
  again k pq hpq ha := by
    rcases getElem?_concat_cases hpq with hpq | ⟨-, rfl⟩
    · refine (h.again k pq hpq ha).concat (Server.holds_of_mem hmem) ?_
      rintro ⟨_, _, hinput⟩
      cases hinput
    · cases ha

/-- The last packet, queued again, is the one that was queued last. -/
theorem Client.Recalls.resend (h : c.Recalls past) (howned : srv.OwnsPackets origin)
    (hmem : c ∈ srv.clientpool.clients) {sys : Sys} {waiting : UInt8} (hdue : c.Due sys waiting)
    (hretry : ¬3 ≤ waiting) (o : Except Empty Server) :
    (Server.resend sys srv.machine c waiting).2.Recalls
      (past ++ [⟨srv, .client c.ptr (.check sys waiting), o⟩]) where
  last := h.keep_last fun bytes len hqueues => by
    obtain ⟨_, hinput⟩ := hqueues.input
    cases hinput
  again k pq hpq ha := by
    rcases getElem?_concat_cases hpq with hpq | ⟨rfl, rfl⟩
    · refine (h.again k pq hpq ha).concat (Server.holds_of_mem hmem) ?_
      rintro ⟨_, _, hinput⟩
      cases hinput
    · refine Lib.since_concat.2 (.inl ⟨⟨c, hmem, rfl, rfl, sys, waiting, rfl, hdue, hretry⟩, ?_⟩)
      intro bytes len hqueued
      obtain ⟨last, hlast, hbytes, hlen⟩ := h.last bytes len hqueued
      rw [Option.mem_def.1 hlast]
      refine ⟨fun hzero => ?_, hbytes, hlen⟩
      cases howned.zero.symm.trans (hzero ▸ ((howned.owns c hmem).last last hlast).2.1)

/-- What a call makes of its client recalls what was queued. -/
theorem Client.Recalls.task (h : c.Recalls past) (howned : srv.OwnsPackets origin)
    (hmem : c ∈ srv.clientpool.clients) {task : Task} (hd : d ∈ task.client srv.machine c)
    (o : Except Empty Server) : d.Recalls (past ++ [⟨srv, .client c.ptr task, o⟩]) := by
  have hholds : srv.Holds c.ptr := Server.holds_of_mem hmem
  have hqueues : (∀ sys bytes len, task ≠ .queue sys bytes len) → ∀ bytes len,
      ¬CallStep.Queues ⟨srv, .client c.ptr task, o⟩ c.ptr bytes len := by
    intro hne bytes len hqueue
    obtain ⟨sys, hinput⟩ := hqueue.input
    exact hne sys bytes len (PoolCall.client.inj hinput).2
  have hsends : (∀ sys hsend, task ≠ .send sys hsend) →
      ¬CallStep.Sends ⟨srv, .client c.ptr task, o⟩ c.ptr := fun hne ⟨sys, hsend, hinput⟩ =>
    hne sys hsend (PoolCall.client.inj hinput).2
  cases task with
  | queue sys bytes len =>
    cases hd
    exact h.queue hmem sys bytes len o
  | release =>
    rw [Task.client, (howned.owns c hmem).releaseLastpacket_eq] at hd
    cases hd
    exact h.keep hholds (hqueues fun _ _ _ => by simp) (hsends fun _ _ => by simp) rfl rfl rfl
  | rest f hf =>
    cases hd
    obtain ⟨haside, hptr⟩ := hf (srv.machine, c)
    exact h.keep hholds (hqueues fun _ _ _ => by simp) (hsends fun _ _ => by simp) hptr
      haside.lastpacket haside.packetqueue
  | check sys waiting =>
    -- A client that is due sends its last packet again, or leaves.
    rw [Task.client] at hd
    split at hd
    · next hdue =>
      split at hd
      · cases hd
      · next hretry =>
        cases hd
        exact h.resend howned hmem hdue hretry o
    · cases hd
      exact h.keep hholds (hqueues fun _ _ _ => by simp) (hsends fun _ _ => by simp) rfl rfl rfl
  | send sys hsend =>
    rw [Task.client, Nbstftp.keep] at hd
    split at hd
    · cases hd
    · cases hd
      exact ⟨h.keep_last (hqueues fun _ _ _ => by simp), fun k pq hpq => by cases hpq⟩
  | remove => cases hd

/-- Nothing is done for the other clients. -/
theorem Client.Recalls.other (h : d.Recalls past) (hmem : d ∈ srv.clientpool.clients) {k : PoolCall}
    (hother : ∀ task, k ≠ .client d.ptr task) (o : Except Empty Server) :
    d.Recalls (past ++ [⟨srv, k, o⟩]) := by
  refine h.keep (Server.holds_of_mem hmem) (fun bytes len hqueues => ?_) ?_ rfl rfl rfl
  · obtain ⟨_, hinput⟩ := hqueues.input
    exact hother _ hinput
  · rintro ⟨_, _, hinput⟩
    exact hother _ hinput

/-- The clients own their packets, and recall what was queued. -/
structure Remembers (past : List CallStep) (srv : Server) : Prop where
  owned : ∃ origin, srv.OwnsPackets origin
  recalls : ∀ c ∈ srv.clientpool.clients, c.Recalls past

/-- So they do after any call. -/
theorem Remembers.call (h : Remembers past srv) {k : PoolCall} (hk : srv.call k = .ok srv')
    (o : Except Empty Server) : Remembers (past ++ [⟨srv, k, o⟩]) srv' := by
  obtain ⟨⟨origin, howned⟩, hrecalls⟩ := h
  refine ⟨⟨_, howned.call hk⟩, fun d hd => ?_⟩
  have hother : ∀ {d}, d ∈ srv.clientpool.clients → (∀ task, k ≠ .client d.ptr task) →
      d.Recalls (past ++ [⟨srv, k, o⟩]) := fun {d} hd hne => (hrecalls d hd).other hd hne o
  cases k with
  | accept sys fd addr =>
    cases hk
    -- A client that is added has nothing to recall.
    rcases srv.accepts sys fd addr with heq | haccepts
    · exact hother (heq ▸ hd) fun task => by simp
    · rcases haccepts.clients with heq | heq
      · exact hother (heq ▸ hd) fun task => by simp
      · rw [heq] at hd
        rcases List.mem_append.1 hd with hd | hd
        · exact hother hd fun task => by simp
        · rw [List.mem_singleton.1 hd]
          exact .new (t := ⟨srv, .accept sys fd addr, o⟩) srv.clientpool.fresh_notMem _
  | client ptr task =>
    cases hk
    cases hc : srv.clientAt ptr with
    | none =>
      rw [hc] at hd
      refine hother hd fun task' heq => Server.clientAt_eq_none.1 hc ?_
      rw [(PoolCall.client.inj heq).1]
      exact Server.holds_of_mem hd
    | some c =>
      rw [hc] at hd
      obtain ⟨hmem, rfl⟩ := Server.clientAt_eq_some.1 hc
      obtain ⟨pre, rest, hpool⟩ := List.append_of_mem hmem
      have hbeside : d ∈ pre ++ rest → d.Recalls (past ++ [⟨srv, .client c.ptr task, o⟩]) :=
        fun hd => hother (ClientPool.mem_of_mem_others hpool hd) fun task' heq =>
          ClientPool.ptr_ne hpool hd (PoolCall.client.inj heq).1.symm
      dsimp only at hd
      rw [Task.run_clients hpool, List.mem_append, List.mem_append, Option.mem_toList] at hd
      rcases hd with hd | hd | hd
      · exact hbeside (List.mem_append_left _ hd)
      · exact (hrecalls c hmem).task howned hmem hd o
      · exact hbeside (List.mem_append_right _ hd)

/-! ## Sending -/

theorem take_zipIdx {α : Type*} (l : List α) (k : ℕ) : l.zipIdx.take k = (l.take k).zipIdx := by
  refine List.ext_getElem? fun i => ?_
  simp only [List.getElem?_take, List.getElem?_zipIdx]
  split <;> rfl

/-- A copy is not released before it is sent. -/
theorem Server.OwnsPackets.notMem_frees (h : srv.OwnsPackets origin)
    (hmem : c ∈ srv.clientpool.clients) {pq : Packetqueue} (hpq : pq ∈ c.packetqueue)
    (ha : pq.allocated = 2) (hzero : pq.p.tok ≠ 0)
    {sys : Sys} (hsend : ∀ ptr idx, (sys.sendto ptr idx).isSome) {k : ℕ} {s : State}
    (hs : Lib.run (sendPacket sys) (srv.machine, c) (c.packetqueue.zipIdx.take k) = .ok s) :
    pq.p.tok ∉ s.1.frees := by
  have hc := h.owns c hmem
  obtain ⟨ho, hfree⟩ := (hc.again pq hpq ha).resolve_left hzero
  rw [take_zipIdx, run_sendPacket_ok fun idx _ => hsend _ _] at hs
  cases hs
  have hfrees : (srv.machine.emits ((c.packetqueue.take k).flatMap c.sending)).frees = _ :=
    srv.machine.frees_emits _
  rw [hfrees, Task.frees_sending, List.mem_append]
  rintro (hgone | hsent)
  · exact hfree hgone
  · have hsub : pq.p.tok ∈ c.sentToks :=
      (((List.take_sublist k c.packetqueue).filter _).map _).subset hsent
    cases ho.symm.trans (hc.origin_of_mem_sentToks hsub).1

/-- Sending a queue puts its packets on the wire, one by one. -/
theorem sent_afterSending {sys : Sys} {k : ℕ} {pq : Packetqueue}
    (hpq : c.packetqueue[k]? = some pq) :
    (srv.afterSending sys c).machine.sent[srv.machine.sent.length + k]? =
      some (c.s.fd, c.s.addr, pq.bytes) := by
  rw [Server.afterSending_sent, List.getElem?_append_right (Nat.le_add_right _ _),
    Nat.add_sub_cancel_left, Client.packets, List.getElem?_map, hpq]
  rfl

/-- In every run of calls, what is sent again is what was queued last for its client when
    that was decided. -/
theorem resends_lastQueued (files : Bytes → Bytes) (interest : Int → Option UInt32)
    (socketpool : List Socket) (calls : List PoolCall) :
    Lib.Always Faithful
      (Lib.trace Server.call (.boot (.boot files interest) socketpool) calls) := by
  refine Lib.always_of_always (Q := fun _ _ => True) Remembers
    ⟨⟨_, .boot files interest socketpool⟩, fun c hc => absurd hc List.not_mem_nil⟩ ?_ ?_
    fun _ _ _ _ => trivial
  · rintro past ⟨srv, k, post⟩ h - (hpost : post = srv.call k) -
    rintro c (hmem : c ∈ srv.clientpool.clients) ⟨sys, hsend, (hinput : k = _)⟩ idx pq hpq ha
    obtain ⟨origin, howned⟩ := h.owned
    rw [hinput, Server.call_client hmem, Task.run_send] at hpost
    refine Lib.Since.imp ((h.recalls c hmem).again idx pq hpq ha) ?_ fun _ h => h
    rintro before u ⟨hresends, hcontent⟩
    refine ⟨hresends, fun bytes len hlast => ?_⟩
    obtain ⟨hzero, hbytes, hlen⟩ := hcontent bytes len hlast
    refine ⟨hlen, hbytes, fun srv' hok => ?_, fun sys' hsend' _ s hs => ?_⟩
    · cases hpost.symm.trans hok
      have hwire : pq.bytes = bytes.take len := by
        rw [Packetqueue.bytes, hbytes, hlen, List.take_take, Nat.min_self]
      rw [← hwire]
      exact sent_afterSending hpq
    · exact howned.notMem_frees hmem (List.mem_of_getElem? hpq) ha hzero hsend' hs
  · rintro past ⟨srv, k, post⟩ srv' h - (hpost : post = srv.call k) - hok
    exact h.call (hpost.symm.trans hok) _

end

namespace Sample

/-- An acknowledgement is sent, and is to be sent again; but before it is, the next one is
    queued. -/
def resending : List PoolCall :=
  [.accept .ideal 3 (.inet 40000 1), .client 1 (.queue .ideal (ackBytes 0) headerSize),
    .client 1 (.send .ideal ideal_sends), .client 1 (.check { Sys.ideal with time := 5 } 1),
    .client 1 (.queue .ideal (ackBytes 1) headerSize), .client 1 (.send .ideal ideal_sends)]

example : ((Lib.run Server.call idle resending).toOption.getD idle).machine.sent.map (·.2.2) =
    [ackBytes 0, ackBytes 0, ackBytes 1] := by decide +kernel

end Sample

end Nbstftp
