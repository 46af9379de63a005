import Nbstftp.Calls

/-!
# Who owns the packets

Of the flag of a packet, three values are in use: a packet just built is queued with
`1`, as is the copy kept of it, and the copy that is queued again with `2`. So what a
block was allocated for (its `Origin`) tells how a client refers to it: the packet,
by an entry of the queue flagged `1`, and by one only; the copy, as the last packet,
or by entries flagged `2`. What a client refers to was not released
(`Client.Owns`), and this remains so whatever calls are made (`OwnsPackets.call`).

As no copy is ever flagged `2`, nothing is ever released by `releaseLastpacket`.
-/

namespace Nbstftp

/-- What a block was allocated for: a packet of the client at an address in memory, or
    the copy kept of it. -/
structure Origin where
  ptr : ℕ
  copy : Bool
  deriving DecidableEq

/-- The blocks of a client that are no packets. -/
def Client.otherToks (c : Client) : List ℕ := c.blk.toList.map (·.tok) ++ c.s.toks

/-- A client refers to packets and copies of its own, none of which was released. -/
structure Client.Owns (c : Client) (origin : ℕ → Option Origin) (m : Machine) : Prop where
  fresh : ∀ pq ∈ c.packetqueue, pq.allocated ≠ 2 →
    pq.allocated = 1 ∧ origin pq.p.tok = some ⟨c.ptr, false⟩ ∧ pq.p.tok ∉ m.frees
  nodup : c.sentToks.Nodup
  /-- Where there was no last packet, the null pointer was queued again. -/
  again : ∀ pq ∈ c.packetqueue, pq.allocated = 2 →
    pq.p.tok = 0 ∨ origin pq.p.tok = some ⟨c.ptr, true⟩ ∧ pq.p.tok ∉ m.frees
  last : ∀ last ∈ c.lastpacket,
    last.allocated = 1 ∧ origin last.p.tok = some ⟨c.ptr, true⟩ ∧ last.p.tok ∉ m.frees
  others : ∀ tok ∈ c.otherToks, tok < m.nexttok ∧ origin tok = none

/-- So do all clients; what was allocated for a packet is known, and what was released
    was allocated. -/
structure Server.OwnsPackets (srv : Server) (origin : ℕ → Option Origin) : Prop where
  zero : origin 0 = none
  pos : 0 < srv.machine.nexttok
  new : ∀ tok, srv.machine.nexttok ≤ tok → origin tok = none
  frees : ∀ tok ∈ srv.machine.frees, tok < srv.machine.nexttok
  owns : ∀ c ∈ srv.clientpool.clients, c.Owns origin srv.machine

/-- What blocks are allocated for: a packet, and the copy of it. -/
def Task.origin (m : Machine) (c : Client) (origin : ℕ → Option Origin) :
    Task → ℕ → Option Origin
  | .queue .. => Function.update (Function.update origin m.nexttok (some ⟨c.ptr, false⟩))
      (m.nexttok + 1) (some ⟨c.ptr, true⟩)
  | _ => origin

theorem Task.origin_of_lt {m : Machine} {c : Client} {origin : ℕ → Option Origin} (task : Task)
    {tok : ℕ} (h : tok < m.nexttok) : task.origin m c origin tok = origin tok := by
  cases task with
  | queue sys bytes len =>
    rw [Task.origin, Function.update_of_ne, Function.update_of_ne]
    · exact Nat.ne_of_lt h
    · exact Nat.ne_of_lt (Nat.lt_succ_of_lt h)
  | release | rest | check | send | remove => rfl

/-- The blocks that sending the queue releases, with one more packet in it. -/
theorem Client.sentToks_concat {c c' : Client} {pq : Packetqueue}
    (h : c'.packetqueue = c.packetqueue ++ [pq]) : c'.sentToks =
      c.sentToks ++ if pq.allocated ≠ 0 ∧ pq.allocated ≠ 2 then [pq.p.tok] else [] := by
  rw [sentToks, h, List.filter_append, List.map_append, sentToks]
  by_cases ha : pq.allocated ≠ 0 ∧ pq.allocated ≠ 2 <;> simp [ha]

namespace Client.Owns

variable {c c' : Client} {origin origin' : ℕ → Option Origin} {m m' : Machine}

/-- A client is left alone by what is done for others. -/
theorem mono (h : c.Owns origin m) (hnew : ∀ tok, m.nexttok ≤ tok → origin tok = none)
    (horigin : ∀ tok < m.nexttok, origin' tok = origin tok) (hn : m.nexttok ≤ m'.nexttok)
    (hfrees : ∀ tok ∈ m'.frees, tok ∈ m.frees ∨ ∀ o ∈ origin tok, o.ptr ≠ c.ptr) :
    c.Owns origin' m' := by
  have hkept : ∀ {tok copy}, origin tok = some ⟨c.ptr, copy⟩ → tok ∉ m.frees →
      origin' tok = some ⟨c.ptr, copy⟩ ∧ tok ∉ m'.frees := by
    intro tok copy ho hfree
    have hlt : tok < m.nexttok := Nat.lt_of_not_le fun hle => by
      rw [hnew tok hle] at ho
      cases ho
    refine ⟨(horigin tok hlt).trans ho, fun hfree' => ?_⟩
    exact (hfrees tok hfree').elim hfree fun hother => hother _ ho rfl
  refine ⟨fun pq hpq ha => ?_, h.nodup, fun pq hpq ha => ?_, fun last hlast => ?_,
    fun tok htok => ?_⟩
  · obtain ⟨hone, ho, hfree⟩ := h.fresh pq hpq ha
    exact ⟨hone, hkept ho hfree⟩
  · exact (h.again pq hpq ha).imp_right fun ⟨ho, hfree⟩ => hkept ho hfree
  · obtain ⟨hone, ho, hfree⟩ := h.last last hlast
    exact ⟨hone, hkept ho hfree⟩
  · obtain ⟨hlt, ho⟩ := h.others tok htok
    exact ⟨Nat.lt_of_lt_of_le hlt hn, (horigin tok hlt).trans ho⟩

/-- What is no packet may be replaced. -/
theorem congr (h : c.Owns origin m) (hptr : c'.ptr = c.ptr)
    (hqueue : c'.packetqueue = c.packetqueue) (hlast : c'.lastpacket = c.lastpacket)
    (hothers : ∀ tok ∈ c'.otherToks, tok < m.nexttok ∧ origin tok = none) :
    c'.Owns origin m where
  fresh := by rw [hqueue, hptr]; exact h.fresh
  nodup := by rw [sentToks, hqueue]; exact h.nodup
  again := by rw [hqueue, hptr]; exact h.again
  last := by rw [hlast, hptr]; exact h.last
  others := hothers

/-- The blocks of the queue that sending it releases. -/
theorem mem_sentToks (h : c.Owns origin m) {tok : ℕ} :
    tok ∈ c.sentToks ↔ ∃ pq ∈ c.packetqueue, pq.allocated ≠ 2 ∧ pq.p.tok = tok := by
  simp only [sentToks, List.mem_map, List.mem_filter, decide_eq_true_eq]
  constructor
  · rintro ⟨pq, ⟨hpq, -, ha⟩, rfl⟩
    exact ⟨pq, hpq, ha, rfl⟩
  · rintro ⟨pq, hpq, ha, rfl⟩
    refine ⟨pq, ⟨hpq, ?_, ha⟩, rfl⟩
    rw [(h.fresh pq hpq ha).1]
    decide

theorem origin_of_mem_sentToks (h : c.Owns origin m) {tok : ℕ} (htok : tok ∈ c.sentToks) :
    origin tok = some ⟨c.ptr, false⟩ ∧ tok ∉ m.frees := by
  obtain ⟨pq, hpq, ha, rfl⟩ := h.mem_sentToks.1 htok
  exact (h.fresh pq hpq ha).2

/-- What a client refers to as a packet is one of its own, not released yet. -/
theorem of_mem_packetToks (h : c.Owns origin m) {tok : ℕ} (htok : tok ∈ c.packetToks)
    (hzero : tok ≠ 0) : (∃ copy, origin tok = some ⟨c.ptr, copy⟩) ∧ tok ∉ m.frees := by
  rw [packetToks, List.mem_append, List.mem_map, List.mem_map] at htok
  rcases htok with ⟨pq, hpq, rfl⟩ | ⟨last, hlast, rfl⟩
  · by_cases ha : pq.allocated = 2
    · obtain ⟨ho, hfree⟩ := (h.again pq hpq ha).resolve_left hzero
      exact ⟨⟨_, ho⟩, hfree⟩
    · obtain ⟨-, ho, hfree⟩ := h.fresh pq hpq ha
      exact ⟨⟨_, ho⟩, hfree⟩
  · obtain ⟨-, ho, hfree⟩ := h.last last (Option.mem_toList.1 hlast)
    exact ⟨⟨_, ho⟩, hfree⟩

/-- All packets leave with their client. -/
theorem left_eq (h : c.Owns origin m) : c.left = c.s.toks ++ c.packetToks ++
    c.blk.toList.map (·.tok) := by
  have hqueue : c.packetqueue.filter (·.allocated ≠ 0) = c.packetqueue := by
    refine List.filter_eq_self.2 fun pq hpq => ?_
    by_cases ha : pq.allocated = 2
    · rw [ha]; rfl
    · rw [(h.fresh pq hpq ha).1]; rfl
  have hlast : c.lastpacket.toList.filter (·.allocated ≠ 0) = c.lastpacket.toList := by
    refine List.filter_eq_self.2 fun last hlast => ?_
    rw [(h.last last (Option.mem_toList.1 hlast)).1]; rfl
  simp only [left, buffers, hqueue, hlast, packetToks, List.map_append, List.map_map,
    List.append_assoc]
  rfl

theorem mem_left (h : c.Owns origin m) {tok : ℕ} (htok : tok ∈ c.left) :
    tok ∈ c.packetToks ∨ tok ∈ c.otherToks := by
  rw [h.left_eq, List.mem_append, List.mem_append] at htok
  rw [otherToks, List.mem_append]
  tauto

/-- No last packet is flagged as one that is sent again: none is released. -/
theorem releaseLastpacket_eq (h : c.Owns origin m) (m₁ : Machine) :
    releaseLastpacket m₁ c = (m₁, { c with waiting := 0 }) := by
  rw [releaseLastpacket]
  cases hlast : c.lastpacket with
  | none => rfl
  | some last =>
    dsimp only
    rw [(h.last last hlast).1, if_neg (by decide)]

theorem releaseEffects_eq (h : c.Owns origin m) : releaseEffects c = [] := by
  have heffects := (releaseLastpacket_reacts m c).effects
  rw [h.releaseLastpacket_eq] at heffects
  exact List.self_eq_append_right.1 heffects

/-- Nothing is left of the queue once it was sent. -/
theorem flushed (h : c.Owns origin m) (sys : Sys) : (c.flushed sys).Owns origin m where
  fresh _ hpq := absurd hpq List.not_mem_nil
  nodup := List.nodup_nil
  again _ hpq := absurd hpq List.not_mem_nil
  last := h.last
  others := h.others

/-- A call releases blocks of its client. -/
theorem mem_releases (h : c.Owns origin m) {task : Task} {tok : ℕ} (htok : tok ∈ task.releases c) :
    tok ∈ c.packetToks ∨ tok ∈ c.otherToks := by
  cases task with
  | queue | rest => cases htok
  | release =>
    rw [Task.releases, h.releaseEffects_eq] at htok
    cases htok
  | check sys waiting =>
    rw [Task.releases] at htok
    split at htok
    · exact h.mem_left htok
    · cases htok
  | send sys hsend =>
    rcases List.mem_append.1 htok with htok | htok
    · obtain ⟨pq, hpq, -, rfl⟩ := h.mem_sentToks.1 htok
      exact .inl (List.mem_append_left _ (List.mem_map_of_mem hpq))
    · split at htok
      · exact ((h.flushed sys).mem_left htok).imp_left (List.mem_append_right _)
      · cases htok
  | remove => exact h.mem_left htok

end Client.Owns

namespace Server.OwnsPackets

variable {srv : Server} {origin : ℕ → Option Origin} {c d : Client}

theorem lt_of_origin (h : srv.OwnsPackets origin) {tok : ℕ} {o : Origin}
    (ho : origin tok = some o) : tok < srv.machine.nexttok := Nat.lt_of_not_le fun hle => by
  rw [h.new tok hle] at ho
  cases ho

/-- The blocks of a client are none of the packets of others. -/
theorem of_mem_toks (h : srv.OwnsPackets origin) (hc : c.Owns origin srv.machine) {tok : ℕ}
    (htok : tok ∈ c.packetToks ∨ tok ∈ c.otherToks) :
    tok < srv.machine.nexttok ∧ ∀ o ∈ origin tok, o.ptr = c.ptr := by
  have hnone : origin tok = none → ∀ o ∈ origin tok, o.ptr = c.ptr := fun hnone o ho => by
    rw [hnone] at ho
    cases ho
  rcases htok with htok | htok
  · by_cases hzero : tok = 0
    · rw [hzero]
      exact ⟨h.pos, hzero ▸ hnone (hzero ▸ h.zero)⟩
    · obtain ⟨⟨copy, ho⟩, -⟩ := hc.of_mem_packetToks htok hzero
      exact ⟨h.lt_of_origin ho, fun o ho' => by rw [← Option.some.inj (ho.symm.trans ho')]⟩
  · obtain ⟨hlt, ho⟩ := hc.others tok htok
    exact ⟨hlt, hnone ho⟩

/-- A packet that is built is a new one, and so is the copy kept of it. -/
theorem queue (h : srv.OwnsPackets origin) (hc : c ∈ srv.clientpool.clients) (sys : Sys)
    (bytes : Bytes) (len : ℕ) :
    (queuePacket sys (srv.machine.nmalloc bytes).1 c (srv.machine.nmalloc bytes).2 len 1).2.Owns
      ((Task.queue sys bytes len).origin srv.machine c origin)
      ((Task.queue sys bytes len).run srv c).machine := by
  have hold : c.Owns ((Task.queue sys bytes len).origin srv.machine c origin)
      ((Task.queue sys bytes len).run srv c).machine :=
    (h.owns c hc).mono h.new (fun _ => Task.origin_of_lt _) (Task.nexttok_le_run _)
      fun tok htok => .inl htok
  have hunused : ∀ tok, srv.machine.nexttok ≤ tok → tok ∉ srv.machine.frees := fun tok hle htok =>
    Nat.not_lt.2 hle (h.frees tok htok)
  refine ⟨fun pq hpq ha => ?_, ?_, fun pq hpq ha => ?_, fun last hlast => ?_, hold.others⟩
  · rcases List.mem_append.1 hpq with hpq | hpq
    · exact hold.fresh pq hpq ha
    · rw [List.mem_singleton.1 hpq]
      refine ⟨rfl, ?_, hunused _ (Nat.le_refl _)⟩
      exact (Function.update_of_ne (Nat.ne_of_lt (Nat.lt_succ_self _)) ..).trans
        (Function.update_self ..)
  · have hqueue : (queuePacket sys (srv.machine.nmalloc bytes).1 c (srv.machine.nmalloc bytes).2
        len 1).2.packetqueue = c.packetqueue ++ [⟨(srv.machine.nmalloc bytes).2, len, 1⟩] := rfl
    have hone : (1 : UInt8) ≠ 0 ∧ (1 : UInt8) ≠ 2 := by decide
    rw [Client.sentToks_concat hqueue, if_pos hone]
    -- The new packet is younger than all others.
    refine (h.owns c hc).nodup.append (List.nodup_singleton _) fun tok htok hnew => ?_
    have hlt := h.lt_of_origin ((h.owns c hc).origin_of_mem_sentToks htok).1
    rw [List.mem_singleton.1 hnew] at hlt
    exact Nat.lt_irrefl _ hlt
  · rcases List.mem_append.1 hpq with hpq | hpq
    · exact hold.again pq hpq ha
    · rw [List.mem_singleton.1 hpq] at ha
      cases ha
  · cases hlast
    exact ⟨rfl, Function.update_self .., hunused _ (Nat.le_succ _)⟩

/-- A packet that is queued again is the copy. -/
theorem resend (h : srv.OwnsPackets origin) (hc : c ∈ srv.clientpool.clients) (sys : Sys)
    (waiting : UInt8) : (resend sys srv.machine c waiting).2.Owns origin
      (srv.put (resend sys srv.machine c waiting)).machine := by
  have hfrees : (srv.put (Server.resend sys srv.machine c waiting)).machine.frees =
      srv.machine.frees := (Machine.frees_emit _ _).trans (List.append_nil _)
  have hold : c.Owns origin (srv.put (Server.resend sys srv.machine c waiting)).machine :=
    (h.owns c hc).mono h.new (fun tok _ => rfl) (Nat.le_refl _) fun tok htok => .inl (hfrees ▸ htok)
  refine ⟨fun pq hpq ha => ?_, ?_, fun pq hpq ha => ?_, hold.last, hold.others⟩
  · rcases List.mem_append.1 hpq with hpq | hpq
    · exact hold.fresh pq hpq ha
    · rw [List.mem_singleton.1 hpq] at ha
      exact absurd rfl ha
  · have hqueue : (Server.resend sys srv.machine c waiting).2.packetqueue = c.packetqueue ++
        [⟨(c.lastpacket.getD .zero).p, (c.lastpacket.getD .zero).len, 2⟩] := rfl
    rw [Client.sentToks_concat hqueue, if_neg fun h => h.2 rfl, List.append_nil]
    exact hold.nodup
  · rcases List.mem_append.1 hpq with hpq | hpq
    · exact hold.again pq hpq ha
    · rw [List.mem_singleton.1 hpq]
      cases hlast : c.lastpacket with
      | none => exact .inl rfl
      | some last => exact .inr (hold.last last hlast).2

/-- The rest of the handling of a datagram may replace the block buffer. -/
theorem rest (h : srv.OwnsPackets origin) (hc : c ∈ srv.clientpool.clients) {s : State}
    (haside : Aside (srv.machine, c) s) (hptr : s.2.ptr = c.ptr) : s.2.Owns origin s.1 := by
  have hold : c.Owns origin s.1 := (h.owns c hc).mono h.new (fun tok _ => rfl) haside.nexttok
    fun tok htok => .inl (haside.frees ▸ htok)
  refine hold.congr hptr haside.packetqueue haside.lastpacket fun tok htok => ?_
  rw [Client.otherToks, haside.socket] at htok
  rcases List.mem_append.1 htok with htok | htok
  · obtain ⟨blk', hblk', rfl⟩ := List.mem_map.1 htok
    rcases haside.blk blk' (Option.mem_toList.1 hblk') with ⟨blk, hblk, heq⟩ | ⟨hge, hlt⟩
    · refine heq ▸ hold.others _ (List.mem_append_left _ ?_)
      exact List.mem_map_of_mem (Option.mem_toList.2 hblk)
    · exact ⟨hlt, h.new _ hge⟩
  · exact hold.others tok (List.mem_append_right _ htok)

/-- A client that stays when its queue was sent has its last packet still. -/
theorem send (h : srv.OwnsPackets origin) (hc : c ∈ srv.clientpool.clients) {sys : Sys}
    (hsend : ∀ ptr idx, (sys.sendto ptr idx).isSome) (hstay : c.destroy = false) :
    (c.flushed sys).Owns origin ((Task.send sys hsend).run srv c).machine := by
  have hcown := h.owns c hc
  refine ⟨fun _ hpq => absurd hpq List.not_mem_nil, List.nodup_nil,
    fun _ hpq => absurd hpq List.not_mem_nil, fun last hlast => ?_, fun tok htok => ?_⟩
  · obtain ⟨hone, ho, hfree⟩ := hcown.last last hlast
    refine ⟨hone, ho, ?_⟩
    rw [Task.run_frees, Task.releases, hstay, if_neg Bool.false_ne_true, List.append_nil,
      List.mem_append]
    rintro (htok | htok)
    · exact hfree htok
    · cases ho.symm.trans (hcown.origin_of_mem_sentToks htok).1
  · obtain ⟨hlt, ho⟩ := hcown.others tok htok
    exact ⟨Nat.lt_of_lt_of_le hlt (Task.nexttok_le_run _), ho⟩

/-- What a call makes of its client refers to packets of its own. -/
theorem client (h : srv.OwnsPackets origin) (hc : c ∈ srv.clientpool.clients) {task : Task}
    (hd : d ∈ task.client srv.machine c) :
    d.Owns (task.origin srv.machine c origin) (task.run srv c).machine := by
  have hcown := h.owns c hc
  cases task with
  | queue sys bytes len =>
    cases hd
    exact h.queue hc sys bytes len
  | release =>
    cases hd
    rw [Task.run, hcown.releaseLastpacket_eq]
    exact hcown.congr rfl rfl rfl hcown.others
  | rest f hf =>
    cases hd
    exact h.rest hc (hf (srv.machine, c)).1 (hf (srv.machine, c)).2
  | check sys waiting =>
    rw [Task.client] at hd
    rw [Task.run_check]
    by_cases hdue : c.Due sys waiting
    · rw [if_pos hdue] at hd ⊢
      split at hd
      · cases hd
      · next hlast =>
        cases hd
        rw [if_neg hlast]
        exact h.resend hc sys waiting
    · rw [if_neg hdue] at hd ⊢
      cases hd
      exact hcown
  | send sys hsend =>
    rw [Task.client, keep] at hd
    split at hd
    · cases hd
    · next hstay =>
      cases hd
      exact h.send hc hsend (Bool.eq_false_iff.2 hstay)
  | remove => cases hd

/-- A call for a client leaves everything owned. -/
theorem task (h : srv.OwnsPackets origin) (hc : c ∈ srv.clientpool.clients) (task : Task) :
    (task.run srv c).OwnsPackets (task.origin srv.machine c origin) := by
  have hn : srv.machine.nexttok ≤ (task.run srv c).machine.nexttok := Task.nexttok_le_run task
  refine ⟨(task.origin_of_lt h.pos).trans h.zero, Nat.lt_of_lt_of_le h.pos hn, fun tok hle => ?_,
    fun tok htok => ?_, fun d hd => ?_⟩
  · have hold := h.new tok (Nat.le_trans hn hle)
    -- Only a packet that is queued gives blocks an origin.
    cases task with
    | queue sys bytes len =>
      rw [Task.origin, Function.update_of_ne, Function.update_of_ne, hold]
      · exact Nat.ne_of_gt (Nat.lt_of_succ_lt hle)
      · exact Nat.ne_of_gt hle
    | release | rest | check | send | remove => exact hold
  · rw [Task.run_frees] at htok
    rcases List.mem_append.1 htok with htok | htok
    · exact Nat.lt_of_lt_of_le (h.frees tok htok) hn
    · exact Nat.lt_of_lt_of_le (h.of_mem_toks (h.owns c hc) ((h.owns c hc).mem_releases htok)).1 hn
  · obtain ⟨pre, rest, hpool⟩ := List.append_of_mem hc
    rw [Task.run_clients hpool, List.mem_append, List.mem_append] at hd
    have hother : d ∈ pre ++ rest → d.Owns (task.origin srv.machine c origin)
        (task.run srv c).machine := by
      intro hd
      refine (h.owns d (ClientPool.mem_of_mem_others hpool hd)).mono h.new
        (fun _ => task.origin_of_lt) hn fun tok htok => ?_
      rw [Task.run_frees] at htok
      refine (List.mem_append.1 htok).imp_right fun htok o ho => ?_
      rw [(h.of_mem_toks (h.owns c hc) ((h.owns c hc).mem_releases htok)).2 o ho]
      exact (ClientPool.ptr_ne hpool hd).symm
    rcases hd with hd | hd | hd
    · exact hother (List.mem_append_left _ hd)
    · exact h.client hc (Option.mem_toList.1 hd)
    · exact hother (List.mem_append_right _ hd)

/-- So does one that finds or adds a client, whose blocks are no packets. -/
theorem accept (h : srv.OwnsPackets origin) (sys : Sys) (fd : Int) (addr : SockAddr) :
    (srv.findOrAllocateClient sys fd addr).1.OwnsPackets origin := by
  rcases srv.accepts sys fd addr with heq | haccepts
  · rwa [heq]
  -- A client was to be added: only the blocks of its socket are new.
  generalize (srv.findOrAllocateClient sys fd addr).1 = srv' at haccepts ⊢
  have hn : srv.machine.nexttok ≤ srv'.machine.nexttok := by
    rw [haccepts.nexttok]
    exact Nat.le_add_right _ _
  have hsocket : ∀ tok ∈ (srv.newSocket sys fd addr).toks,
      srv.machine.nexttok ≤ tok ∧ tok < srv'.machine.nexttok := by
    rw [haccepts.nexttok, newSocket, Socket.toks]
    simp
  have hfrees : ∀ tok ∈ srv'.machine.frees, tok ∈ srv.machine.frees ∨
      tok ∈ (srv.newSocket sys fd addr).toks := fun tok htok => by
    rcases haccepts.frees with heq | heq
    · exact .inl (heq ▸ htok)
    · exact List.mem_append.1 (heq ▸ htok)
  have hold : ∀ d ∈ srv.clientpool.clients, d.Owns origin srv'.machine := fun d hd =>
    (h.owns d hd).mono h.new (fun _ _ => rfl) hn fun tok htok =>
      (hfrees tok htok).imp_right fun htok o ho => by
        rw [h.new tok (hsocket tok htok).1] at ho
        cases ho
  refine ⟨h.zero, Nat.lt_of_lt_of_le h.pos hn, fun tok hle => h.new tok (Nat.le_trans hn hle),
    fun tok htok => ?_, fun d hd => ?_⟩
  · rcases hfrees tok htok with htok | htok
    · exact Nat.lt_of_lt_of_le (h.frees tok htok) hn
    · exact (hsocket tok htok).2
  · rcases haccepts.clients with heq | heq
    · exact hold d (heq ▸ hd)
    · rw [heq] at hd
      rcases List.mem_append.1 hd with hd | hd
      · exact hold d hd
      · rw [List.mem_singleton.1 hd]
        exact ⟨fun _ hpq => absurd hpq List.not_mem_nil, List.nodup_nil,
          fun _ hpq => absurd hpq List.not_mem_nil,
          fun _ hlast => (Option.not_mem_none _ hlast).elim,
          fun tok htok => ⟨(hsocket tok htok).2, h.new tok (hsocket tok htok).1⟩⟩

end Server.OwnsPackets

/-! ## Runs of calls -/

/-- A call, with the servers it leads from and to. -/
abbrev CallStep := Lib.Transition Server PoolCall Empty

/-- What blocks are allocated for, after a call. -/
def PoolCall.origin (srv : Server) (origin : ℕ → Option Origin) : PoolCall → ℕ → Option Origin
  | .accept .. => origin
  | .client ptr task =>
    match srv.clientAt ptr with
    | some c => task.origin srv.machine c origin
    | none => origin

/-- A server that was just started owns no packets. -/
theorem Server.OwnsPackets.boot (files : Bytes → Bytes) (interest : Int → Option UInt32)
    (socketpool : List Socket) :
    (Server.boot (.boot files interest) socketpool).OwnsPackets fun _ => none where
  zero := rfl
  pos := Nat.one_pos
  new _ _ := rfl
  frees _ htok := absurd htok List.not_mem_nil
  owns _ hc := absurd hc List.not_mem_nil

/-- Whatever is called, clients own the packets they refer to. -/
theorem Server.OwnsPackets.call {srv srv' : Server} {origin : ℕ → Option Origin}
    (h : srv.OwnsPackets origin) {k : PoolCall} (hk : srv.call k = .ok srv') :
    srv'.OwnsPackets (k.origin srv origin) := by
  cases k with
  | accept sys fd addr =>
    cases hk
    exact h.accept sys fd addr
  | client ptr task =>
    cases hk
    rw [PoolCall.origin]
    cases hc : srv.clientAt ptr with
    | none => exact h
    | some c => exact h.task (Server.clientAt_eq_some.1 hc).1 task

namespace Sample

theorem ideal_sends (ptr idx : ℕ) : (Sys.ideal.sendto ptr idx).isSome := rfl

/-- A server that was just started, on no files. -/
def idle : Server := .boot (.boot (fun _ => []) fun _ => none) []

end Sample

end Nbstftp
