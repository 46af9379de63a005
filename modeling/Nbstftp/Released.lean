import Nbstftp.Selecting

/-!
# Buffers that are released while a socket is visited

In the loop of `select`, a socket is a copy, with a pointer to its receive buffer. Flushing it
flushes all clients and removes those that are done, with their sockets; and if the socket
that is being visited is the one of such a client, or `sendto` failed so that it is destroyed,
it is read nevertheless, into a buffer that was released (`ServerStep.ReadsReleased`).

As long as no socket is destroyed for another one, and none but those listened on because of a
failure, this is the only way to such a buffer (`spares_released_iff`).
-/

namespace Nbstftp

/-- The socket that is destroyed in a step because its descriptor failed. -/
def ServerStep.closed (t : ServerStep) : Option Socket :=
  match t.input.event with
  | .hangup s => some s
  | .writable s => if (t.pre.failing t.input.sys).isSome then some s else none
  | .readable s (.failed e) => if e = .again ∨ e = .intr then none else some s
  | _ => none

/-- A step that destroys no socket for another one, and none for a failure but one that is
    listened on. -/
structure ServerStep.Clean (sockets : List Socket) (t : ServerStep) : Prop where
  own : t.DestroysOwn sockets
  closed : ∀ s ∈ t.closed, ∃ l ∈ sockets, s.entry = l.entry

/-- `recvfrom` is given a buffer that was released. -/
def ServerStep.ReadsReleased (t : ServerStep) : Prop :=
  ∃ s received, t.input.event = .readable s received ∧ s.packet ∈ t.pre.machine.frees

/-- The socket that is visited is ready for writing and reading, and flushing fails, or removes
    the client of this very socket. -/
def LoopStep.FlushesVisited (t : LoopStep) : Prop :=
  ∃ rd s, t.visited = some (rd, s) ∧ rd.error s.fd = false ∧ rd.write s.fd = true ∧
    rd.read s.fd = true ∧ ((t.pre.srv.failing t.input.sys).isSome ∨
      ∃ c ∈ t.pre.srv.finished t.input.sys, c.s.entry = s.entry)

namespace Server

variable {sockets : List Socket} {sys : Sys} {srv srv' : Server} {s : Socket} {c : Client}

/-! ## What flushing releases -/

/-- A client that is removed has its socket released. -/
theorem toks_subset_afterSending (hd : c.destroy = true) :
    c.s.toks ⊆ (srv.afterSending sys c).machine.frees := by
  rw [afterSending, if_pos hd, removeClient_machine, Machine.frees_emits]
  refine List.subset_append_of_subset_right _ fun tok htok => List.mem_filterMap.2 ?_
  simp only [Socket.toks, List.mem_cons, List.not_mem_nil, or_false] at htok
  rcases htok with rfl | rfl
  · exact ⟨.free c.s.bindaddr.tok, List.mem_cons_self, rfl⟩
  · exact ⟨.free c.s.packet, List.mem_cons_of_mem _ List.mem_cons_self, rfl⟩

/-- What flushing some clients has released, besides what was: blocks of clients, and those of the
    sockets of the ones that are removed. -/
structure Releases (srv : Server) (done : List Client) (srv' : Server) : Prop where
  frees : ∀ tok ∈ srv'.machine.frees, tok ∈ srv.machine.frees ∨
    (∃ c ∈ srv.clientpool.clients, tok ∈ c.toks) ∨ ∃ c ∈ done, tok ∈ c.s.toks
  done : ∀ c ∈ done, c.s.toks ⊆ srv'.machine.frees

theorem Releases.afterSending {done : List Client} (h : srv.Releases done srv')
    (hc : c ∈ srv.clientpool.clients) :
    srv.Releases (done ++ [c].filter (·.destroy)) (srv'.afterSending sys c) where
  frees tok htok := by
    rcases afterSending_frees htok with htok | htok | ⟨hd, htok⟩
    · refine (h.frees tok htok).imp_right (Or.imp_right ?_)
      exact fun ⟨d, hd, htok⟩ => ⟨d, List.mem_append_left _ hd, htok⟩
    · exact .inr (.inl ⟨c, hc, htok⟩)
    · refine .inr (.inr ⟨c, List.mem_append_right _ ?_, htok⟩)
      exact List.mem_filter.2 ⟨List.mem_cons_self, hd⟩
  done d hd := by
    rcases List.mem_append.1 hd with hd | hd
    · exact List.Subset.trans (h.done d hd) (frees_subset_afterSending srv' c)
    · obtain ⟨hd, hdestroy⟩ := List.mem_filter.1 hd
      obtain rfl := List.mem_singleton.1 hd
      exact toks_subset_afterSending hdestroy

/-- Flushing all clients releases the sockets of those that are removed. -/
theorem sendPackets_releases (sys : Sys) (srv : Server) (s : Socket) :
    srv.Releases (srv.finished sys) (srv.sendPackets sys s).1 := by
  rcases sendPackets_rule sys srv s
    (fun pre srv' => (∀ d ∈ Lib.visited (keep sys) false pre, d.Sends sys) ∧
      srv.Releases ((Lib.visited (keep sys) false pre).filter (·.destroy)) srv')
    (fun srv' => srv.Releases (srv.finished sys) srv')
    ⟨fun d hd => absurd hd List.not_mem_nil, fun tok htok => .inl htok,
      fun c hc => absurd hc List.not_mem_nil⟩
    (fun pre c rest srv' _ hk hR => by
      rw [Lib.visited_append, hk, show Lib.visited (keep sys) true [c] = [] from rfl,
        List.append_nil]
      exact hR)
    (fun pre c rest srv' hl hk _ hR hsends => by
      have hvisited : Lib.visited (keep sys) false (pre ++ [c]) =
          Lib.visited (keep sys) false pre ++ [c] := by
        rw [Lib.visited_append, hk]
        rfl
      rw [hvisited, List.filter_append]
      refine ⟨fun d hd => ?_, hR.2.afterSending (hl ▸ List.mem_append_right _ List.mem_cons_self)⟩
      rcases List.mem_append.1 hd with hd | hd
      · exact hR.1 d hd
      · rw [List.mem_singleton.1 hd]
        exact hsends)
    (fun pre c rest srv' idx n hl hk _ hR hfails => by
      -- The client that fails is not removed, nor is any after it.
      have hfinished := finished_of_failsAt hl hk hR.1 hfails
      have hmem : c ∈ srv.clientpool.clients := hl ▸ List.mem_append_right _ List.mem_cons_self
      rw [hfinished]
      refine ⟨fun tok htok => ?_, fun d hd => List.Subset.trans (hR.2.done d hd)
        (frees_subset_afterFailing srv' c idx n)⟩
      rcases afterFailing_frees htok with htok | htok
      · exact hR.2.frees tok htok
      · exact .inr (.inl ⟨c, hmem, htok⟩)) with ⟨srv', hs, -, hsends, hR⟩ | ⟨srv', hs, hR⟩
  · rw [hs, finished, takeWhile_sends hsends]
    exact hR
  · rw [hs]
    exact hR

/-! ## Whose buffer it is -/

theorem Ordered.entry_mem (h : srv.Ordered sockets) (hs : s ∈ srv.socketpool) :
    s.entry ∈ srv.live sockets :=
  h.pool ▸ List.mem_map_of_mem hs

theorem packet_mem_toks (s : Socket) : s.packet ∈ s.entry.toks :=
  List.mem_cons_of_mem _ (List.mem_singleton_self _)

/-- The buffer of a socket of the pool is in use. -/
theorem Ordered.packet_notMem (h : srv.Ordered sockets) (hs : s ∈ srv.socketpool) :
    s.packet ∉ srv.machine.frees := fun hfreed =>
  (h.keeps.released s.packet hfreed).2
    (List.mem_flatMap.2 ⟨s.entry, h.entry_mem hs, packet_mem_toks s⟩)

/-- Sockets in use that share a block are the same. -/
theorem Ordered.entry_eq (h : srv.Ordered sockets) {t u : Socket} (ht : t ∈ srv.live sockets)
    (hu : u ∈ srv.live sockets) {tok : ℕ} (httok : tok ∈ t.toks) (hutok : tok ∈ u.toks) :
    u = t := by
  obtain ⟨pre, rest, hlive⟩ := List.append_of_mem ht
  have hnodup := h.keeps.nodup
  rw [hlive] at hnodup hu
  have hnot := notMem_of_nodup hnodup httok
  rcases List.mem_append.1 hu with hu | hu
  · exact absurd (List.mem_flatMap.2 ⟨u, List.mem_append_left _ hu, hutok⟩) hnot
  · refine (List.mem_cons.1 hu).resolve_right fun hu => ?_
    exact hnot (List.mem_flatMap.2 ⟨u, List.mem_append_right _ hu, hutok⟩)

/-- Flushing releases the buffer of a socket of the pool if it removes its client. -/
theorem Ordered.released_iff (h : srv.Ordered sockets) (hs : s ∈ srv.socketpool) (t : Socket) :
    s.packet ∈ (srv.sendPackets sys t).1.machine.frees ↔
      ∃ c ∈ srv.finished sys, c.s.entry = s.entry := by
  have hreleases := srv.sendPackets_releases sys t
  have hmem : s.packet ∈ (srv.live sockets).flatMap Socket.toks :=
    List.mem_flatMap.2 ⟨s.entry, h.entry_mem hs, packet_mem_toks s⟩
  constructor
  · intro hfreed
    rcases hreleases.frees _ hfreed with hfreed | ⟨c, hc, htok⟩ | ⟨c, hc, htok⟩
    · exact absurd hfreed (h.packet_notMem hs)
    · exact absurd hmem (h.apart c hc _ htok).2
    · have hclient : c.s.entry ∈ srv.live sockets :=
        List.mem_map_of_mem (List.mem_append_right _ (List.mem_map_of_mem (mem_finished hc).1))
      exact ⟨c, hc, h.entry_eq (h.entry_mem hs) hclient (packet_mem_toks s) htok⟩
  · rintro ⟨c, hc, hentry⟩
    have hpacket : c.s.packet = s.packet := (congrArg Socket.packet hentry :)
    exact hreleases.done c hc (hpacket ▸ packet_mem_toks c.s)

/-- So does destroying it. -/
theorem Ordered.written_iff (h : srv.Ordered sockets) (hs : s ∈ srv.socketpool) :
    s.packet ∈ (destroyFailed s (srv.sendPackets sys s)).machine.frees ↔
      (srv.failing sys).isSome ∨ ∃ c ∈ srv.finished sys, c.s.entry = s.entry := by
  rw [← h.released_iff hs s, ← sendPackets_failed_iff (s := s), destroyFailed]
  split
  · next hfailed =>
    refine iff_of_true ?_ (.inl hfailed)
    rw [destroySocket_frees]
    exact List.mem_append_right _ (packet_mem_toks s)
  · next hsent => exact ⟨.inr, fun hor => hor.resolve_left hsent⟩

/-! ## What visits keep -/

/-- Telling modules changes nothing. -/
theorem Ordered.activity (h : srv.Ordered sockets) :
    Server.Ordered sockets { srv with machine := srv.machine.callEvent .socketActivity } := by
  have hfrees : (srv.machine.callEvent .socketActivity).frees = srv.machine.frees :=
    (srv.machine.frees_emit _).trans (List.append_nil _)
  refine h.step_watched (fun _ => rfl) h.pool (List.Sublist.refl _) (Nat.le_refl _)
    (fun tok htok => ?_) (fun tok htok => .inl ?_) fun d hd => ⟨d, hd, List.Subset.refl _⟩
  · exact hfrees.symm ▸ htok
  · exact hfrees ▸ htok

/-- A step for a socket keeps the pools in order, if it is a clean one. -/
theorem Ordered.cleanly (h : srv.Ordered sockets) {cfg : Config} {rd : FdSets} {m : Moment}
    {i : Input} (hi : i ∈ rd.inputs s m) (hstep : Nbstftp.step cfg srv i = .ok srv')
    (hclean : ServerStep.Clean sockets ⟨srv, i, .ok srv'⟩) : srv'.Ordered sockets := by
  obtain ⟨sys, event⟩ := i
  cases event with
  | check | unknown =>
    simp only [FdSets.inputs, List.mem_append] at hi
    split_ifs at hi <;> simp at hi
  | activity s' =>
    cases hstep
    exact h.activity
  | hangup s' =>
    cases hstep
    obtain ⟨l, hl, hentry⟩ := hclean.closed s' rfl
    exact h.destroySocket hl hentry (hclean.own.again s' rfl)
  | writable s' =>
    cases hstep
    obtain ⟨h', hwatched⟩ := h.sendPackets hclean.own
    rw [destroyFailed]
    split
    · next hfailed =>
      obtain ⟨l, hl, hentry⟩ := hclean.closed s' (if_pos (sendPackets_failed_iff.1 hfailed))
      refine h'.destroySocket hl hentry ?_
      rw [hwatched]
      exact (hclean.own.again s' rfl).imp_right fun hnot =>
        sendPackets_forall (fun c n hc => hc) (fun c hc => hc) hnot s'
    · exact h'
  | readable s' received =>
    cases received with
    | datagram src data => exact h.receive hstep
    | failed e =>
      cases hstep
      by_cases he : e = .again ∨ e = .intr
      · rw [if_pos he]
        exact h
      · obtain ⟨l, hl, hentry⟩ := hclean.closed s' (if_neg he)
        rw [if_neg he]
        exact h.destroySocket hl hentry (hclean.own.again s' (if_neg he))

/-! ## What is read -/

/-- A socket is read if it is ready for it, and has no error. -/
theorem readable_of_mem {rd : FdSets} {m : Moment} {i : Input} (hi : i ∈ rd.inputs s m)
    {s' : Socket} {received : Received} (hevent : i.event = .readable s' received) :
    rd.error s.fd = false ∧ rd.read s.fd = true ∧ s' = s := by
  obtain ⟨sys, event⟩ := i
  cases hevent
  simp only [FdSets.inputs, List.mem_append] at hi
  split_ifs at hi with _ herror _ hread <;> simp_all

theorem reads_cons {cfg : Config} {i : Input} {is : List Input}
    (hstep : Nbstftp.step cfg srv i = .ok srv')
    (hevent : ∀ s received, i.event ≠ .readable s received) :
    (∃ u ∈ Lib.trace (Nbstftp.step cfg) srv (i :: is), ServerStep.ReadsReleased u) ↔
      ∃ u ∈ Lib.trace (Nbstftp.step cfg) srv' is, ServerStep.ReadsReleased u := by
  rw [Lib.trace_cons_ok hstep, List.exists_mem_cons_iff]
  exact or_iff_right fun ⟨s, received, heq, _⟩ => hevent s received heq

theorem reads_readable {cfg : Config} {received : Received} :
    (∃ u ∈ Lib.trace (Nbstftp.step cfg) srv [⟨sys, .readable s received⟩],
        ServerStep.ReadsReleased u) ↔ s.packet ∈ srv.machine.frees := by
  simp only [Lib.trace_singleton, List.mem_singleton, exists_eq_left]
  exact ⟨fun ⟨_, _, heq, hfreed⟩ => (Event.readable.inj heq).1 ▸ hfreed,
    fun hfreed => ⟨s, received, rfl, hfreed⟩⟩

/-- Steps for a socket of the pool read a buffer that was released if they flush the queues
    before, and this releases it. -/
theorem Ordered.reads_iff (h : srv.Ordered sockets) (hs : s ∈ srv.socketpool) (cfg : Config)
    (rd : FdSets) (m : Moment) :
    (∃ u ∈ Lib.trace (Nbstftp.step cfg) srv (rd.inputs s m), ServerStep.ReadsReleased u) ↔
      rd.error s.fd = false ∧ rd.write s.fd = true ∧ rd.read s.fd = true ∧
        ((srv.failing m.sys).isSome ∨ ∃ c ∈ srv.finished m.sys, c.s.entry = s.entry) := by
  by_cases hread : rd.error s.fd = false ∧ rd.read s.fd = true
  · obtain ⟨herror, hread⟩ := hread
    -- Modules are told first, of which the pools see nothing.
    let told : Server := { srv with machine := srv.machine.callEvent .socketActivity }
    have htold : told.Ordered sockets := h.activity
    have hstold : s ∈ told.socketpool := hs
    have htell : Nbstftp.step cfg srv ⟨m.sys, .activity s⟩ = .ok told := rfl
    cases hwrite : rd.write s.fd with
    | false =>
      have hinputs : rd.inputs s m = [⟨m.sys, .activity s⟩, ⟨m.sys, .readable s m.received⟩] := by
        simp [FdSets.inputs, herror, hread, hwrite]
      refine iff_of_false ?_ fun hflush => Bool.false_ne_true hflush.2.1
      rw [hinputs, reads_cons htell (by simp), reads_readable]
      exact htold.packet_notMem hs
    | true =>
      have hinputs : rd.inputs s m =
          [⟨m.sys, .activity s⟩, ⟨m.sys, .writable s⟩, ⟨m.sys, .readable s m.received⟩] := by
        simp [FdSets.inputs, herror, hread, hwrite]
      have hflush : Nbstftp.step cfg told ⟨m.sys, .writable s⟩ =
          .ok (destroyFailed s (told.sendPackets m.sys s)) := rfl
      rw [hinputs, reads_cons htell (by simp), reads_cons hflush (by simp), reads_readable,
        htold.written_iff hs]
      exact ⟨fun hflush => ⟨herror, rfl, hread, hflush⟩, fun hflush => hflush.2.2.2⟩
  · -- Nothing is read.
    refine iff_of_false ?_ fun hflush => hread ⟨hflush.1, hflush.2.2.1⟩
    rintro ⟨u, hu, s', received, hevent, -⟩
    obtain ⟨herror, hready, -⟩ := readable_of_mem (Lib.input_mem hu) hevent
    exact hread ⟨herror, hready⟩

end Server

/-! ## Runs -/

section

variable {cfg : Config} {sockets : List Socket}

/-- A turn of the main loop keeps the pools in order, if the steps of it are clean ones. -/
theorem SelectLoop.step_ordered {l l' : SelectLoop} {m : Moment}
    (h : l.srv.Ordered sockets ∧ l.srv.Unarmed)
    (hclean : ∀ u ∈ LoopStep.serverSteps cfg ⟨l, m, .ok l'⟩, ServerStep.Clean sockets u)
    (hstep : l.step cfg m = .ok l') : l'.srv.Ordered sockets ∧ l'.srv.Unarmed := by
  obtain ⟨srv, phase⟩ := l
  cases phase with
  | check =>
    cases hstep
    rwa [Server.checkClients_unarmed h.2]
  | select =>
    simp only [SelectLoop.step] at hstep
    split at hstep <;> cases hstep <;> exact h
  | visit rd idx =>
    simp only [SelectLoop.step] at hstep
    cases hget : srv.socketpool[idx]? with
    | none =>
      rw [hget] at hstep
      cases hstep
      exact h
    | some s =>
      simp only [hget] at hstep
      simp only [LoopStep.serverSteps, LoopStep.visited, hget, Option.map_some] at hclean
      cases hrun : Lib.run (Nbstftp.step cfg) srv (rd.inputs s m) with
      | error crash =>
        rw [hrun] at hstep
        cases hstep
      | ok srv' =>
        rw [hrun] at hstep
        cases hstep
        refine Lib.run_rule (Q := fun u => u.input ∈ rd.inputs s m ∧ ServerStep.Clean sockets u)
          (fun srv => srv.Ordered sockets ∧ srv.Unarmed)
          (fun srv₁ i srv₂ h hQ hs => ⟨h.1.cleanly hQ.1 hs hQ.2, step_unarmed h.2 hs⟩) h
          (fun u hu => ⟨Lib.input_mem hu, hclean u hu⟩) hrun

/-- What a visit reads was released if flushing the queues releases it. -/
theorem LoopStep.reads_iff (cfg : Config) {t : LoopStep} (h : t.pre.srv.Ordered sockets) :
    (∃ u ∈ t.serverSteps cfg, u.ReadsReleased) ↔ t.FlushesVisited := by
  rw [LoopStep.serverSteps, LoopStep.FlushesVisited]
  cases hvisited : t.visited with
  | none =>
    refine iff_of_false ?_ ?_
    · rintro ⟨u, hu, -⟩
      exact List.not_mem_nil hu
    · rintro ⟨rd, s, heq, -⟩
      exact Option.some_ne_none _ heq.symm
  | some v =>
    obtain ⟨rd, s⟩ := v
    obtain ⟨idx, -, hget, -⟩ := visit_eq cfg hvisited
    rw [h.reads_iff (List.mem_of_getElem? hget)]
    constructor
    · exact fun hflush => ⟨rd, s, rfl, hflush⟩
    · rintro ⟨_, _, ⟨⟩, hflush⟩
      exact hflush

/-- In a run of the main loop from its start, in which every socket that is destroyed is one
    listened on that failed, or that of a client that is removed, `recvfrom` is never given a
    buffer that was released if and only if no socket is flushed and read in a visit in which
    its own client is removed, or sending fails. -/
theorem spares_released_iff {files : Bytes → Bytes} {ls : Listeners} {ms : List Moment}
    (hclean : ∀ t ∈ Lib.trace (SelectLoop.step cfg) ⟨initializeSockets files ls, .check⟩ ms,
      ∀ u ∈ LoopStep.serverSteps cfg t, u.Clean (initializeSockets files ls).socketpool) :
    (∀ t ∈ Lib.trace (SelectLoop.step cfg) ⟨initializeSockets files ls, .check⟩ ms,
        ∀ u ∈ LoopStep.serverSteps cfg t, ¬u.ReadsReleased) ↔
      ∀ t ∈ Lib.trace (SelectLoop.step cfg) ⟨initializeSockets files ls, .check⟩ ms,
        ¬LoopStep.FlushesVisited t := by
  have hbound := initializeSockets_bound files ls
  have hordered := Lib.forall_pre
    (fun l => l.srv.Ordered (initializeSockets files ls).socketpool ∧ l.srv.Unarmed)
    (fun l m l' h hq hs => SelectLoop.step_ordered h hq hs)
    ⟨hbound.ordered, fun c hc => absurd (hbound.clients ▸ hc) List.not_mem_nil⟩ hclean
  refine forall₂_congr fun t ht => ?_
  rw [← LoopStep.reads_iff cfg (hordered t ht).1]
  exact ⟨fun h ⟨u, hu, hreads⟩ => h u hu hreads, fun h u hu hreads => h ⟨u, hu, hreads⟩⟩

end

instance (sockets : List Socket) (t : ServerStep) : Decidable (t.Clean sockets) :=
  decidable_of_iff (t.DestroysOwn sockets ∧ ∀ s ∈ t.closed, ∃ l ∈ sockets, s.entry = l.entry)
    ⟨fun h => ⟨h.1, h.2⟩, fun h => ⟨h.own, h.closed⟩⟩

instance (t : LoopStep) : Decidable t.FlushesVisited :=
  decidable_of_iff
    (∃ v ∈ t.visited, v.1.error v.2.fd = false ∧ v.1.write v.2.fd = true ∧
      v.1.read v.2.fd = true ∧ ((t.pre.srv.failing t.input.sys).isSome ∨
        ∃ c ∈ t.pre.srv.finished t.input.sys, c.s.entry = v.2.entry))
    ⟨fun ⟨v, hv, h⟩ => ⟨v.1, v.2, hv, h⟩, fun ⟨rd, s, hv, h⟩ => ⟨(rd, s), hv, h⟩⟩

namespace Sample

/-- A client comes with an error, and is visited in the same pass. -/
def giveUp : List Moment :=
  [moment .timeout (.failed .again), moment (.ready (sets true)) (.failed .again),
    moment .timeout (.datagram (.inet 40000 1) (htons Opcode.error.code ++ [0, 0])),
    moment .timeout (.failed .again)]

end Sample

/-- That client is removed in its own visit, which goes on with its buffer. -/
theorem reads_released_giveUp :
    ¬∀ t ∈ Lib.trace (SelectLoop.step Sample.config) ⟨Sample.listens, .check⟩ Sample.giveUp,
      ∀ u ∈ LoopStep.serverSteps Sample.config t, ¬u.ReadsReleased := by
  have hclean : ∀ t ∈ Lib.trace (SelectLoop.step Sample.config) ⟨Sample.listens, .check⟩
      Sample.giveUp, ∀ u ∈ LoopStep.serverSteps Sample.config t,
        u.Clean Sample.listens.socketpool := by decide +kernel
  have hflushes : ∃ t ∈ Lib.trace (SelectLoop.step Sample.config) ⟨Sample.listens, .check⟩
      Sample.giveUp, LoopStep.FlushesVisited t := by decide +kernel
  obtain ⟨t, ht, hflushes⟩ := hflushes
  exact fun hspares => (spares_released_iff hclean).1 hspares t ht hflushes

end Nbstftp
