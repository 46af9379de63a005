import Nbstftp.Filing
import Nbstftp.History
import Nbstftp.Retransmission

/-!
# Who has which handle

Every handle that was given is closed once, or one client of the pool has it, as long
as no client gets a handle that has one already: the old one is dropped then and never
closed (`owns_handles_iff`, `not_owns_handles`).

Even then no handle is accounted for twice, so that a client of the pool has an open
one (`Server.Tidy.isOpen`).
-/

namespace Nbstftp

/-- How many of some clients have a handle. -/
def held (l : List Client) (id : ℕ) : ℕ := l.countP fun c => c.handle = some id

/-- How often a handle is accounted for: closed, or with a client of the pool. -/
def Server.uses (srv : Server) (id : ℕ) : ℕ :=
  srv.machine.closes id + held srv.clientpool.clients id

section

variable {l l' : List Client} {c d : Client} {id : ℕ}

theorem held_append : held (l ++ l') id = held l id + held l' id := List.countP_append

theorem held_cons : held (c :: l) id = c.holds id + held l id := by
  rw [held, List.countP_cons, Nat.add_comm, Client.holds]
  simp only [decide_eq_true_eq, held]

theorem holds_le_held (h : c ∈ l) : c.holds id ≤ held l id := by
  obtain ⟨pre, rest, rfl⟩ := List.append_of_mem h
  rw [held_append, held_cons]
  omega

theorem holds_eq_one {f : File} (h : f ∈ c.f) : c.holds f.id = 1 := by
  rw [Client.holds, Client.handle, Option.mem_def.1 h, Option.map_some, if_pos rfl]

theorem held_eq_zero (h : ∀ c ∈ l, c.holds id = 0) : held l id = 0 := by
  induction l with
  | nil => rfl
  | cons c l ih =>
    rw [held_cons, h c List.mem_cons_self, ih fun d hd => h d (List.mem_cons_of_mem c hd)]

theorem holds_eq_of_view (h : c.view = d.view) : c.holds id = d.holds id :=
  congrArg (fun v : Identity × Transfer => if v.2.f.map File.id = some id then 1 else 0) h

theorem holds_eq_zero_or_one (c : Client) (id : ℕ) : c.holds id = 0 ∨ c.holds id = 1 := by
  rw [Client.holds]
  split
  · exact .inr rfl
  · exact .inl rfl

/-- A handle that is held once is held by one client. -/
theorem eq_of_held (hheld : held l id ≤ 1) (hc : c ∈ l) (hd : d ∈ l) (hcid : c.holds id = 1)
    (hdid : d.holds id = 1) : c = d := by
  obtain ⟨pre, rest, rfl⟩ := List.append_of_mem hc
  rw [held_append, held_cons] at hheld
  rcases List.mem_append.1 hd with hd | hd
  · have hpre : d.holds id ≤ held pre id := holds_le_held hd
    omega
  rcases List.mem_cons.1 hd with rfl | hd
  · rfl
  · have hrest : d.holds id ≤ held rest id := holds_le_held hd
    omega

end

namespace Machine

theorem closes_emits (m : Machine) {es : List Effect} (hes : ∀ e ∈ es, ∀ id, e ≠ .fclose id)
    (id : ℕ) : (m.emits es).closes id = m.closes id := by
  rw [closes, emits, List.count_append, List.count_eq_zero_of_not_mem fun h => hes _ h id rfl]
  rfl

end Machine

namespace Server

variable {sys : Sys} {srv srv₁ srv' : Server} {c : Client} {id : ℕ}

/-! ## Flushing -/

theorem closes_closeFile (m : Machine) (c : Client) (id : ℕ) :
    (closeFile m c).closes id = m.closes id + c.holds id := by
  rw [closeFile, Client.holds, Client.handle]
  cases c.f with
  | none => rfl
  | some f =>
    rw [Machine.closes_fclose, Option.map_some]
    simp only [Option.some.injEq]

/-- Sending a queue closes nothing. -/
theorem ne_fclose_of_mem_sending {queue : List Packetqueue} {e : Effect}
    (h : e ∈ queue.flatMap c.sending) (id : ℕ) : e ≠ .fclose id := by
  rintro rfl
  obtain ⟨pq, -, he⟩ := List.mem_flatMap.1 h
  rw [Client.sending] at he
  split at he <;> simp at he

/-- The file of a client that is removed after its queue was sent is closed. -/
theorem closes_afterSending (srv : Server) (c : Client) (id : ℕ) :
    (srv.afterSending sys c).machine.closes id =
      srv.machine.closes id + if c.destroy then c.holds id else 0 := by
  have hcleared : (srv.cleared c).closes id = srv.machine.closes id :=
    srv.machine.closes_emits (fun e he => ne_fclose_of_mem_sending he) id
  rw [afterSending]
  split
  · rw [removeClient_machine, Machine.closes_emits]
    · exact (closes_closeFile _ _ id).trans (congrArg (· + _) hcleared)
    · rintro e he id rfl
      simp at he
  · exact hcleared

theorem afterSending_nextfile (srv : Server) (c : Client) :
    (srv.afterSending sys c).machine.nextfile = srv.machine.nextfile := by
  have hclose : ∀ m, (closeFile m (c.flushed sys)).nextfile = m.nextfile := fun m => by
    rw [closeFile]
    cases (c.flushed sys).f <;> rfl
  rw [afterSending]
  split
  · rw [removeClient_machine]
    exact hclose _
  · rfl

/-- What flushing keeps a client for, it keeps with its file. -/
theorem held_keep (c : Client) (id : ℕ) :
    (if c.destroy then c.holds id else 0) + held (keep sys c).toList id = c.holds id := by
  rw [keep]
  cases c.destroy with
  | true => rfl
  | false => exact (Nat.zero_add _).trans held_cons

/-- Flushing accounts for every handle as before: it gives none, and closes those of the
    clients it removes. -/
theorem sendPackets_uses (sys : Sys) (srv : Server) (s : Socket) :
    (srv.sendPackets sys s).1.machine.nextfile = srv.machine.nextfile ∧
      ∀ id, (srv.sendPackets sys s).1.uses id = srv.uses id := by
  -- The accounts of the clients so far.
  have hrule := sendPackets_rule sys srv s
    (fun pre srv' => srv'.machine.nextfile = srv.machine.nextfile ∧
      ∀ id, srv'.machine.closes id + held (Lib.walk (keep sys) false pre) id =
        srv.machine.closes id + held pre id)
    (fun srv' => srv'.machine.nextfile = srv.machine.nextfile ∧ ∀ id, srv'.uses id = srv.uses id)
    ⟨rfl, fun _ => rfl⟩
    (fun pre c rest srv' _ hk hR => by
      refine ⟨hR.1, fun id => ?_⟩
      rw [Lib.walk_append, hk, held_append, held_append, ← Nat.add_assoc, hR.2, Nat.add_assoc]
      rfl)
    (fun pre c rest srv' _ hk _ hR _ => by
      -- A client that is removed has its file closed; one that stays keeps it.
      refine ⟨(afterSending_nextfile srv' c).trans hR.1, fun id => ?_⟩
      have hkeep := @held_keep sys c id
      have hpre := hR.2 id
      rw [closes_afterSending, Lib.walk_append, hk, held_append, held_append, Lib.walk, Lib.walk,
        List.append_nil, held_cons]
      have hnil : held [] id = 0 := rfl
      omega)
    (fun pre c rest srv' idx n hl hk hpool hR _ => by
      -- The clients from this one on are as they were.
      refine ⟨hR.1, fun id => ?_⟩
      have hpre := hR.2 id
      have hcloses : (srv'.afterFailing c idx n).machine.closes id = srv'.machine.closes id := by
        refine srv'.machine.closes_emits (fun e he id => ?_) id
        rcases List.mem_append.1 he with he | he
        · exact ne_fclose_of_mem_sending he id
        · intro h
          cases (List.mem_singleton.1 he).symm.trans h
      rw [uses, uses, hcloses, afterFailing_clients hpool, hl, held_append, held_append, held_cons,
        held_cons, ← Nat.add_assoc, hpre, Nat.add_assoc]
      rfl)
  rcases hrule with ⟨srv', hs, hclients, hnext, huses⟩ | ⟨srv', hs, hfails⟩
  · rw [hs]
    exact ⟨hnext, fun id => by rw [uses, uses, hclients, huses]⟩
  · rw [hs]
    exact hfails

/-! ## The other steps -/

theorem closes_destroySocket (srv : Server) (s : Socket) (closefd : Bool) (id : ℕ) :
    (srv.destroySocket s closefd).machine.closes id = srv.machine.closes id := by
  refine ((Machine.closes_free _ _ id).trans (Machine.closes_free _ _ id)).trans ?_
  cases closefd with
  | false => rfl
  | true => exact Machine.closes_close _ s.fd id

theorem destroyFailed_uses (s : Socket) (r : Server × Int) :
    (destroyFailed s r).machine.nextfile = r.1.machine.nextfile ∧
      ∀ id, (destroyFailed s r).uses id = r.1.uses id := by
  rw [destroyFailed]
  split
  · exact ⟨rfl, fun id => congrArg (· + _) (closes_destroySocket r.1 s true id)⟩
  · exact ⟨rfl, fun _ => rfl⟩

/-- A step without a datagram accounts for every handle as before. -/
theorem step_uses {cfg : Config} {i : Input} (hunarmed : srv.Unarmed) (ha : i.arrival = none)
    (hstep : step cfg srv i = .ok srv') :
    srv'.machine.nextfile = srv.machine.nextfile ∧ ∀ id, srv'.uses id = srv.uses id := by
  obtain ⟨sys, event⟩ := i
  cases event with
  | check =>
    cases hstep
    rw [checkClients_unarmed hunarmed]
    exact ⟨rfl, fun _ => rfl⟩
  | activity s =>
    cases hstep
    exact ⟨rfl, fun id => congrArg (· + _) (srv.machine.closes_callEvent _ id)⟩
  | hangup s =>
    cases hstep
    exact ⟨rfl, fun id => congrArg (· + _) (closes_destroySocket srv s true id)⟩
  | unknown fd =>
    cases hstep
    exact ⟨rfl, fun id => congrArg (· + _) (Machine.closes_close _ fd id)⟩
  | writable s =>
    cases hstep
    have hdestroy := destroyFailed_uses s (srv.sendPackets sys s)
    have hflush := sendPackets_uses sys srv s
    exact ⟨hdestroy.1.trans hflush.1, fun id => (hdestroy.2 id).trans (hflush.2 id)⟩
  | readable s received =>
    cases received with
    | datagram src data => cases ha
    | failed e =>
      cases hstep
      exact destroyFailed_uses s _

/-- Adding a client for a datagram accounts for every handle as before. -/
theorem findOrAllocateClient_uses {fd : Int} {src : SockAddr}
    (h : srv.findOrAllocateClient sys fd src = (srv₁, .client c)) :
    srv₁.machine.nextfile = srv.machine.nextfile ∧ ∀ id, srv₁.uses id = srv.uses id := by
  rcases findOrAllocateClient_eq sys srv h with ⟨-, rfl⟩ | ⟨-, -, rfl⟩
  · exact ⟨rfl, fun _ => rfl⟩
  · refine ⟨rfl, fun id => ?_⟩
    have hheld : held (srv.added sys fd src).clientpool.clients id =
        held srv.clientpool.clients id := held_append
    rw [uses, hheld]
    rfl

/-- Writing to a client of the pool replaces its handle. -/
theorem put_uses {st : State} (hc : c ∈ srv.clientpool.clients) (hptr : st.2.ptr = c.ptr) (id : ℕ) :
    (srv.put st).uses id + c.holds id =
      st.1.closes id + held srv.clientpool.clients id + st.2.holds id := by
  obtain ⟨pre, rest, hpool⟩ := List.append_of_mem hc
  have hupdate : (srv.put st).clientpool.clients = pre ++ st.2 :: rest :=
    ClientPool.update_eq hpool hptr
  rw [uses, hupdate, hpool, held_append, held_append, held_cons, held_cons]
  have hmachine : (srv.put st).machine = st.1 := rfl
  rw [hmachine]
  omega

/-- What receiving a datagram does to the handle of its client. -/
theorem turn_filing {cfg : Config} {m : Machine} {data : Bytes} {st : State}
    (h : turn cfg (m, c) (receiving sys data) = .ok st) :
    Filing (fileChange cfg sys data) (m, c) st := by
  have hcounted : Filing .kept (m, c) (m.callEvent .receivingPackets,
      { c with bytestransferred := c.bytestransferred + receivedLength data }) :=
    .silent rfl (m.closes_callEvent _) rfl rfl
  exact hcounted.after (processDatagram_filing cfg sys _ _ h)

/-- Receiving a datagram accounts for the handles that were given, but for the one that
    is dropped when another is taken. -/
theorem receive_uses {cfg : Config} {i : Input} {a : Arrival} {st : State}
    (hfound : srv.findOrAllocateClient i.sys a.fd a.src = (srv₁, .client c))
    (hturn : turn cfg (srv₁.machine, c) (receiving i.sys a.data) = .ok st) (id : ℕ) :
    (srv₁.put st).uses id + (if fileChange cfg i.sys a.data = .taken then c.holds id else 0) =
      srv.uses id + srv₁.machine.opens st.1 id := by
  have hfiling := turn_filing hturn
  have hput := put_uses (mem_of_findOrAllocateClient i.sys srv hfound) (turn_ptr hturn) id
  have hclosed := hfiling.closed id
  have huses : srv₁.uses id = srv₁.machine.closes id + held srv₁.clientpool.clients id := rfl
  rw [← (findOrAllocateClient_uses hfound).2 id, huses]
  dsimp only at hclosed
  by_cases htaken : fileChange cfg i.sys a.data = .taken
  · rw [if_pos htaken] at hclosed ⊢
    omega
  · rw [if_neg htaken] at hclosed ⊢
    have hholds : st.2.holds id = c.holds id := by
      rw [Client.holds, hfiling.handle htaken, Client.holds]
    omega

end Server

/-! ## Accounts -/

/-- A handle is accounted for at most once, and not before it is given. -/
structure Server.Tidy (srv : Server) : Prop where
  once : ∀ id, srv.uses id ≤ 1
  given : ∀ id, srv.machine.nextfile ≤ id → srv.uses id = 0

/-- Every handle that was given is accounted for once. -/
def Server.Owned (srv : Server) : Prop :=
  ∀ id, srv.uses id = if id < srv.machine.nextfile then 1 else 0

theorem Server.Owned.tidy {srv : Server} (h : srv.Owned) : srv.Tidy := by
  constructor
  · intro id
    rw [h id]
    split <;> omega
  · intro id hid
    rw [h id, if_neg (Nat.not_lt.2 hid)]

/-- A client of the pool has a handle that was given and not closed. -/
theorem Server.Tidy.isOpen {srv : Server} (h : srv.Tidy) {c : Client}
    (hc : c ∈ srv.clientpool.clients) {f : File} (hf : f ∈ c.f) :
    f.id < srv.machine.nextfile ∧ srv.machine.closes f.id = 0 ∧
      held srv.clientpool.clients f.id = 1 := by
  have hheld : c.holds f.id ≤ held srv.clientpool.clients f.id := holds_le_held hc
  rw [holds_eq_one hf] at hheld
  have honce := h.once f.id
  have huses : srv.uses f.id = srv.machine.closes f.id + held srv.clientpool.clients f.id := rfl
  refine ⟨?_, by omega, by omega⟩
  by_contra hid
  have := h.given f.id (Nat.not_lt.1 hid)
  omega

section

variable {cfg : Config} {srv srv' : Server} {i : Input}

/-- A step accounts for handles as before, or is a turn of a client. -/
theorem step_uses_cases (hunarmed : srv.Unarmed) (hstep : step cfg srv i = .ok srv') :
    (i.arrival = none ∧ srv'.machine.nextfile = srv.machine.nextfile ∧
      ∀ id, srv'.uses id = srv.uses id) ∨
    ∃ a ∈ i.arrival, ∃ c ∈ srv.handler i.sys a, ∃ m st,
      turn cfg (m, c) (receiving i.sys a.data) = .ok st ∧ st.2 ∈ srv'.clientpool.clients ∧
      st.2.ptr = c.ptr ∧ srv.machine.nextfile ≤ srv'.machine.nextfile ∧
      ∀ id, srv'.uses id +
          (if fileChange cfg i.sys a.data = .taken then c.holds id else 0) =
        srv.uses id + srv.machine.opens srv'.machine id := by
  cases ha : i.arrival with
  | none => exact .inl ⟨rfl, Server.step_uses hunarmed ha hstep⟩
  | some a =>
    obtain ⟨srv₁, c, st, hfound, hturn, rfl⟩ := step_arrival_ok ha hstep
    have hptr := turn_ptr hturn
    have hnext := (Server.findOrAllocateClient_uses hfound).1
    refine .inr ⟨a, rfl, c, Server.handler_eq_some.2 ⟨srv₁, hfound⟩, srv₁.machine, st, hturn,
      ClientPool.mem_update_self (Server.mem_of_findOrAllocateClient i.sys srv hfound) hptr, hptr,
      ?_, fun id => ?_⟩
    · rw [← hnext]
      exact (Server.turn_filing hturn).nextfile
    · have hopens : srv.machine.opens (srv₁.put st).machine id = srv₁.machine.opens st.1 id := by
        rw [Machine.opens, Machine.opens, hnext]
        rfl
      rw [hopens]
      exact Server.receive_uses hfound hturn id

/-- Nothing is ever accounted for twice. -/
theorem step_tidy (hunarmed : srv.Unarmed) (h : srv.Tidy) (hstep : step cfg srv i = .ok srv') :
    srv'.Tidy := by
  rcases step_uses_cases hunarmed hstep with ⟨-, hnext, huses⟩ |
    ⟨a, -, c, -, m, st, -, -, -, hnext, huses⟩
  · exact ⟨fun id => huses id ▸ h.once id, fun id hid => huses id ▸ h.given id (hnext ▸ hid)⟩
  · constructor
    · intro id
      have hid := huses id
      rcases Nat.lt_or_ge id srv.machine.nextfile with hlt | hle
      · have honce := h.once id
        rw [Machine.opens_eq_zero _ (.inl hlt)] at hid
        omega
      · have hopens := srv.machine.opens_le srv'.machine id
        rw [h.given id hle] at hid
        omega
    · intro id hle
      have hid := huses id
      rw [Machine.opens_eq_zero _ (.inr hle), h.given id (Nat.le_trans hnext hle)] at hid
      omega

/-- A datagram that concerns a file is a request. -/
theorem isRequest_of_fileChange {sys : Sys} {datagram : Bytes}
    (h : fileChange cfg sys datagram ≠ .kept) :
    IsPacket .rrq datagram ∨ IsPacket .wrq datagram := by
  by_contra hne
  obtain ⟨hrrq, hwrq⟩ := not_or.1 hne
  rw [fileChange, if_neg hrrq, if_neg hwrq] at h
  exact h rfl

/-- A request that concerns a file is dealt with, or the server crashes. -/
theorem turn_deals {sys : Sys} {m : Machine} {c : Client} {data : Bytes}
    (h : fileChange cfg sys data ≠ .kept) :
    Deals (Served cfg sys data) (fileChange cfg sys data) (m, c)
      (turn cfg (m, c) (receiving sys data)) := by
  have hcounted : Filing .kept (m, c) (m.callEvent .receivingPackets,
      { c with bytestransferred := c.bytestransferred + receivedLength data }) :=
    .silent rfl (m.closes_callEvent _) rfl rfl
  exact .after hcounted (processDatagram_deals cfg sys _ _ (isRequest_of_fileChange h))

theorem Deals.served {served : Prop} {change : FileChange} {s s' : State} {o : Outcome}
    (h : Deals served change s o) (ho : o = .ok s') : served := by
  by_contra hserved
  obtain ⟨crash, hs, -⟩ := h.crash hserved
  cases ho.symm.trans hs

end

/-! ## Ownership -/

/-- After a step, every handle that was given is closed once, or one client of the pool
    has it; and the handle of a client that was removed is closed. -/
structure ServerStep.OwnsHandles (t : ServerStep) : Prop where
  owned : ∀ srv ∈ t.post.toOption, ∀ id < srv.machine.nextfile, srv.uses id = 1
  removed : ∀ srv ∈ t.post.toOption, ∀ c ∈ t.pre.clientpool.clients, ¬srv.Holds c.ptr →
    ∀ f ∈ c.f, srv.machine.closes f.id = 1

/-- A request that gets a client a file is only dealt with for a client without one. -/
def ServerStep.DropsNone (cfg : Config) (t : ServerStep) : Prop :=
  ∀ a ∈ t.input.arrival, fileChange cfg t.input.sys a.data = .taken →
    Served cfg t.input.sys a.data → ∀ c ∈ t.pre.handler t.input.sys a, c.f = none

section

variable {cfg : Config} {srv srv' : Server} {i : Input}

/-- If no handle is dropped, all remain accounted for. -/
theorem step_owned (hunarmed : srv.Unarmed) (h : srv.Owned) (hstep : step cfg srv i = .ok srv')
    (hdrops : ServerStep.DropsNone cfg ⟨srv, i, .ok srv'⟩) : srv'.Owned := by
  intro id
  rcases step_uses_cases hunarmed hstep with ⟨-, hnext, huses⟩ |
    ⟨a, ha, c, hc, m, st, hturn, -, -, hnext, huses⟩
  · rw [huses, hnext, h id]
  · have hid := huses id
    have hheld : (if fileChange cfg i.sys a.data = .taken then c.holds id else 0) = 0 := by
      by_cases htaken : fileChange cfg i.sys a.data = .taken
      · have hserved := (turn_deals (by rw [htaken]; decide)).served hturn
        rw [if_pos htaken, Client.holds, Client.handle, hdrops a ha htaken hserved c hc]
        rfl
      · exact if_neg htaken
    rw [hheld, Nat.add_zero, h id, Machine.opens] at hid
    rw [hid]
    split_ifs <;> omega

/-- A client that a step removes had its handle closed. -/
theorem step_removed (hunarmed : srv.Unarmed) (h : srv.Owned) (hstep : step cfg srv i = .ok srv')
    {c : Client} (hc : c ∈ srv.clientpool.clients) (hgone : ¬srv'.Holds c.ptr) {f : File}
    (hf : f ∈ c.f) : srv'.machine.closes f.id = 1 := by
  obtain ⟨hgiven, hclosed, hheld⟩ := h.tidy.isOpen hc hf
  rcases step_uses_cases hunarmed hstep with ⟨harrival, hnext, huses⟩ | ⟨a, ha, -⟩
  · -- Whoever has it afterwards had it before, as this client did.
    have hnone : held srv'.clientpool.clients f.id = 0 := by
      refine held_eq_zero fun d hd => ?_
      rcases step_origin hstep hd with ⟨e, he, hview⟩ | ⟨a, ha, -⟩
      · have hptr : d.ptr = e.ptr := congrArg (·.1.ptr) hview
        rw [holds_eq_of_view hview]
        refine (holds_eq_zero_or_one e f.id).resolve_right fun hee => hgone ?_
        rw [eq_of_held (Nat.le_of_eq hheld) hc he (holds_eq_one hf) hee, ← hptr]
        exact Server.holds_of_mem hd
      · cases harrival.symm.trans ha
    have hsum := huses f.id
    rw [h f.id, if_pos hgiven, Server.uses, hnone] at hsum
    exact hsum
  · exact absurd (step_holds ha hstep (Server.holds_of_mem hc)) hgone

/-- A handle that is dropped is accounted for no more. -/
theorem ServerStep.OwnsHandles.dropsNone (hunarmed : srv.Unarmed) (h : srv.Owned)
    (howns : ServerStep.OwnsHandles ⟨srv, i, step cfg srv i⟩) :
    ServerStep.DropsNone cfg ⟨srv, i, step cfg srv i⟩ := by
  intro a ha htaken hserved c hc
  rcases Server.handler_cases hc with ⟨-, hmem⟩ | ⟨-, rfl⟩
  · obtain ⟨srv₁, hfound, hhanded⟩ := step_handed cfg ha hc
    have hdeals : Deals (Served cfg i.sys a.data) _ (srv₁.machine, c)
        (turn cfg (srv₁.machine, c) (receiving i.sys a.data)) :=
      turn_deals (by rw [htaken]; decide)
    obtain ⟨st, hturn, -⟩ := hdeals.ok hserved
    have hstep : step cfg srv i = .ok (srv₁.put st) := by rw [hhanded, hturn]; rfl
    rw [hstep] at howns
    cases hf : c.f with
    | none => rfl
    | some f =>
      -- The handle is given out already, and no longer in use after the turn.
      obtain ⟨hgiven, -, -⟩ := h.tidy.isOpen hmem hf
      rcases step_uses_cases hunarmed hstep with ⟨hnone, -⟩ |
        ⟨a', ha', c', hc', -, -, -, -, -, hnext, huses⟩
      · cases hnone.symm.trans ha
      cases Option.some.inj ((Option.mem_def.1 ha').symm.trans (Option.mem_def.1 ha))
      cases Option.some.inj ((Option.mem_def.1 hc').symm.trans (Option.mem_def.1 hc))
      have hid := huses f.id
      rw [if_pos htaken, holds_eq_one hf, h f.id, if_pos hgiven,
        Machine.opens_eq_zero _ (.inl hgiven)] at hid
      have hone := howns.owned _ rfl f.id (Nat.lt_of_lt_of_le hgiven hnext)
      omega
  · rfl

theorem ownsHandles_iff (hunarmed : srv.Unarmed) (h : srv.Owned) :
    ServerStep.OwnsHandles ⟨srv, i, step cfg srv i⟩ ↔
      ServerStep.DropsNone cfg ⟨srv, i, step cfg srv i⟩ := by
  refine ⟨fun howns => howns.dropsNone hunarmed h, fun hdrops => ⟨?_, ?_⟩⟩
  · intro srv' hsrv' id hid
    have hstep : step cfg srv i = .ok srv' := Lib.mem_toOption.1 hsrv'
    rw [step_owned hunarmed h hstep hdrops, if_pos hid]
  · intro srv' hsrv' c hc hgone f hf
    exact step_removed hunarmed h (Lib.mem_toOption.1 hsrv') hc hgone hf

end

/-- A server that was started, on some files. -/
def Server.started (files : Bytes → Bytes) (interest : Int → Option UInt32)
    (socketpool : List Socket) : Server :=
  .boot (.boot files interest) socketpool

/-- In every run of the server, every handle remains accounted for if and only if no
    client gets a file that has one already. -/
theorem owns_handles_iff (cfg : Config) (files : Bytes → Bytes) (interest : Int → Option UInt32)
    (socketpool : List Socket) (inputs : List Input) :
    (∀ t ∈ Lib.trace (step cfg) (.started files interest socketpool) inputs,
        ServerStep.OwnsHandles t) ↔
      ∀ t ∈ Lib.trace (step cfg) (.started files interest socketpool) inputs,
        ServerStep.DropsNone cfg t := by
  rw [← Lib.always_iff_forall_mem, ← Lib.always_iff_forall_mem]
  refine Lib.always_iff_always (fun _ srv => srv.Unarmed ∧ srv.Owned)
    ⟨fun c hc => absurd hc List.not_mem_nil, fun id => rfl⟩ ?_ ?_
  · rintro past ⟨srv, i, post⟩ ⟨hunarmed, h⟩ - (hpost : post = step cfg srv i)
    rw [hpost]
    exact ownsHandles_iff hunarmed h
  · rintro past ⟨srv, i, post⟩ srv' ⟨hunarmed, h⟩ - (hpost : post = step cfg srv i) hdrops
      (hok : post = .ok srv')
    have hstep := hpost.symm.trans hok
    rw [hok] at hdrops
    exact ⟨step_unarmed hunarmed hstep, step_owned hunarmed h hstep hdrops⟩

/-- A request for a file is repeated, and the handle of the first one is dropped: it is
    the second one given, as the file was opened before to see whether it exists. -/
theorem not_owns_handles :
    ¬∀ cfg files interest socketpool inputs,
      ∀ t ∈ Lib.trace (step cfg) (.started files interest socketpool) inputs,
        ServerStep.OwnsHandles t := by
  intro h
  have howned : ∀ t ∈ Lib.trace (step Sample.config) (Sample.boot [1])
      ([Sample.request .rrq [], Sample.request .rrq []].map Sample.receive),
      ∀ srv ∈ t.post.toOption, 1 < srv.machine.nextfile → srv.uses 1 = 1 :=
    fun t ht srv hsrv hid => (h Sample.config _ _ [Sample.socket] _ t ht).owned srv hsrv 1 hid
  exact absurd howned (by decide +kernel)

end Nbstftp
