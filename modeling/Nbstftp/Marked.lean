import Nbstftp.History

/-!
# Clients marked for destruction

A client is marked once its last block or an error is queued, and taken out only
when its queue has been sent. Datagrams that are received in between are handled as
before, as no case of the switch looks at the mark (`not_spares_marked`): only those
that are dropped, unknown, or of a transfer that is not on leave it alone
(`turn_spared_iff`, `spares_marked_iff`).
-/

namespace Nbstftp

/-- A call that opens or closes a file. -/
def Effect.onFile : Effect → Bool
  | .fopen _ _ | .fclose _ => true
  | _ => false

/-- The calls made that open or close a file. -/
def Machine.fileCalls (m : Machine) : List Effect := m.effects.filter Effect.onFile

/-- Nothing is done for a client: no operation on its file or another one, its block
    counters and its queue are kept. -/
structure Spared (s s' : State) : Prop where
  files : s'.1.files = s.1.files
  fileCalls : s'.1.fileCalls = s.1.fileCalls
  f : s'.2.f = s.2.f
  currentblockno : s'.2.currentblockno = s.2.currentblockno
  actualblockno : s'.2.actualblockno = s.2.actualblockno
  packetqueue : s'.2.packetqueue = s.2.packetqueue

/-- A datagram that is no request and no ERROR, and no DATA or ACK packet for a client
    with a transfer on: it is dropped, unknown or ignored. -/
def Harmless (c : Client) (datagram : Bytes) : Prop :=
  (∀ op ∈ [Opcode.error, .wrq, .rrq], ¬IsPacket op datagram) ∧
    (c.sendingfile = true → ∀ op ∈ [Opcode.data, .ack], ¬IsPacket op datagram)

/-- A step spares the clients that are marked. -/
def ServerStep.SparesMarked (t : ServerStep) : Prop :=
  ∀ a ∈ t.input.arrival, ∀ c ∈ t.pre.handler t.input.sys a, c ∈ t.pre.clientpool.clients →
    c.destroy = true → ∃ srv ∈ t.post.toOption, ∃ d ∈ srv.clientpool.clients,
      d.ptr = c.ptr ∧ Spared (t.pre.machine, c) (srv.machine, d)

/-- The clients that are marked get harmless datagrams only. -/
def ServerStep.HarmsNone (t : ServerStep) : Prop :=
  ∀ a ∈ t.input.arrival, ∀ c ∈ t.pre.handler t.input.sys a, c ∈ t.pre.clientpool.clients →
    c.destroy = true → Harmless c a.data

@[simp] theorem Machine.fileCalls_callEvent (m : Machine) (e : ModuleEvent) :
    (m.callEvent e).fileCalls = m.fileCalls := by
  simp [fileCalls, callEvent, emit, Effect.onFile]

/-! ## Reactions that spare the client -/

section

variable {s s' : State} {r : Reaction}

theorem Reacts.fileCalls (h : Reacts s r s') :
    s'.1.fileCalls = s.1.fileCalls ++ r.effects.filter Effect.onFile := by
  rw [Machine.fileCalls, h.effects, List.filter_append]
  rfl

theorem Reacts.spared (h : Reacts s r s') (ht : r.transfer = s.2.transfer) (hq : r.queued = [])
    (hf : r.files = s.1.files) (he : r.effects.filter Effect.onFile = []) : Spared s s' where
  files := h.files.trans hf
  fileCalls := by rw [h.fileCalls, he, List.append_nil]
  f := congrArg Transfer.f (h.transfer.trans ht)
  currentblockno := congrArg Transfer.currentblockno (h.transfer.trans ht)
  actualblockno := congrArg Transfer.actualblockno (h.transfer.trans ht)
  packetqueue := h.packetqueue_eq hq

/-- A reaction that queues something does not. -/
theorem Reacts.not_spared_of_queued (h : Reacts s r s') (hq : r.queued ≠ []) : ¬Spared s s' := by
  intro hspared
  have hqueued := h.queued_eq
  rw [queuedBetween, hspared.packetqueue, List.drop_length, List.map_nil] at hqueued
  exact hq hqueued.symm

/-- Nor does one that opens a path. -/
theorem Reacts.not_spared_of_opened (h : Reacts s r s') (ho : opened r.effects ≠ []) :
    ¬Spared s s' := by
  intro hspared
  have hcalls : r.effects.filter Effect.onFile = [] :=
    List.append_cancel_left ((h.fileCalls.symm.trans hspared.fileCalls).trans
      (List.append_nil _).symm)
  rw [List.filter_eq_nil_iff] at hcalls
  refine ho (List.filterMap_eq_nil_iff.2 fun e he => ?_)
  cases e with
  | fopen path mode => exact absurd rfl (hcalls _ he)
  | _ => rfl

theorem onFile_released (c : Client) (e : ModuleEvent) :
    (releaseEffects c ++ [Effect.event e]).filter Effect.onFile = [] := by
  rw [releaseEffects]
  split
  · split <;> rfl
  · rfl

end

/-! ## The cases of the switch -/

section

variable (cfg : Config) (sys : Sys) (m : Machine) (c : Client) (datagram : Bytes)

/-- Processing a datagram ends well, and spares the client. -/
def Spares (s : State) (o : Outcome) : Prop := ∃ s' ∈ o.toOption, Spared s s'

theorem not_spares_error {s : State} {crash : Crash} : ¬Spares s (.error crash) := by
  rintro ⟨s', hs', -⟩
  cases hs'

theorem spares_ok {s s' : State} : Spares s (.ok s') ↔ Spared s s' := by
  constructor
  · rintro ⟨s'', hs'', hspared⟩
    cases hs''
    exact hspared
  · exact fun hspared => ⟨s', rfl, hspared⟩

/-- An error is queued or fails an assertion, after calls that queue nothing. -/
theorem not_spares_after_error {s : State} {r : Reaction} (h : Reacts s r (m, c))
    (errnum : ErrorCode) (buf : Bytes) : ¬Spares s (error sys m c errnum buf) := by
  rcases error_cases sys m c errnum buf with ⟨-, s', hs', hreact⟩ | ⟨-, hcrash⟩
  · rw [hs', spares_ok]
    exact (h.trans hreact).not_spared_of_queued (List.append_ne_nil_of_right_ne_nil _ (by simp))
  · rw [hcrash]
    exact not_spares_error

theorem Opening.not_spares {tmp : Bytes} {t : Transfer} {s : State} {o : Outcome}
    (h : Opening tmp t s o) : ¬Spares s o := by
  cases h with
  | crash => exact not_spares_error
  | ok t' qs files es s' hstart hreact hopen =>
    rw [spares_ok]
    exact hreact.not_spared_of_opened hopen

theorem processRrq_not_spares (p : Bytes) (alloclen : ℕ) :
    ¬Spares (m, c) (processRrq cfg sys m c p alloclen) := by
  rcases processRrq_cases cfg sys m c _ p alloclen rfl with
    ⟨-, hcrash⟩ | ⟨-, ⟨e, line, -, -, hrefused⟩ | ⟨-, -, hopen⟩ | ⟨blksize, -, -, hopen⟩⟩
  · rw [hcrash]
    exact not_spares_error
  · rw [hrefused]
    exact not_spares_after_error sys _ _ (loggedState_reacts m c line) _ _
  · exact hopen.not_spares
  · exact hopen.not_spares

theorem processWrq_not_spares (p : Bytes) (alloclen : ℕ) :
    ¬Spares (m, c) (processWrq cfg sys m c p alloclen) := by
  rcases processWrq_cases cfg sys m c _ p alloclen rfl with ⟨-, hcrash⟩ |
    ⟨-, line, -, ⟨e, -, hrefused⟩ | ⟨-, e, -, hfailed⟩ | ⟨-, -, s', f, hs', -, hreact⟩⟩
  · rw [hcrash]
    exact not_spares_error
  · rw [hrefused]
    exact not_spares_after_error sys _ _ (loggedState_reacts m c line) _ _
  · rw [hfailed]
    exact not_spares_after_error sys _ _ ((loggedState_reacts m c line).emit _) _ _
  · rw [hs', spares_ok]
    exact hreact.not_spared_of_queued (by simp)

/-- A DATA packet spares a client without a transfer, and no other. -/
theorem processData_spares_iff (p : Bytes) (len : ℕ) :
    Spares (m, c) (processData sys m c p len) ↔ c.sendingfile = false := by
  rcases processData_cases sys m c p len with ⟨hoff, s', hs', hreact⟩ | ⟨hon, -, m', hcrash⟩ |
    ⟨hon, f, m', -, -, hcrash⟩ | ⟨hon, f, s', -, -, hs', hreact⟩
  · rw [hs', spares_ok]
    exact iff_of_true (hreact.spared rfl rfl rfl (onFile_released c _)) hoff
  · rw [hcrash]
    exact iff_of_false not_spares_error (by simp [hon])
  · rw [hcrash]
    exact iff_of_false not_spares_error (by simp [hon])
  · rw [hs', spares_ok]
    exact iff_of_false (hreact.not_spared_of_queued (by simp)) (by simp [hon])

/-- So does an ACK. -/
theorem processAck_spares_iff :
    Spares (m, c) (processAck sys m c) ↔ c.sendingfile = false := by
  rcases processAck_cases sys m c with ⟨hoff, s', hs', hreact⟩ | ⟨hon, -, m', hcrash⟩ |
    ⟨hon, -, -, m', hcrash⟩ | ⟨hon, -, f, blk, s', -, -, hs', hreact⟩
  · rw [hs', spares_ok]
    exact iff_of_true (hreact.spared rfl rfl rfl (onFile_released c _)) hoff
  · rw [hcrash]
    exact iff_of_false not_spares_error (by simp [hon])
  · rw [hcrash]
    exact iff_of_false not_spares_error (by simp [hon])
  · rw [hs', spares_ok]
    exact iff_of_false (hreact.not_spared_of_queued (by simp)) (by simp [hon])

theorem IsPacket.unique {op op' : Opcode} {datagram : Bytes} (h : IsPacket op datagram)
    (h' : IsPacket op' datagram) : op = op' := by
  have hcode : op.code = op'.code := h.2.symm.trans h'.2
  cases op <;> cases op' <;> first | rfl | exact absurd hcode (by decide)

/-- Processing a datagram spares the client exactly if it is harmless. -/
theorem processDatagram_spares_iff :
    Spares (m, c) (processDatagram cfg sys m c datagram) ↔ Harmless c datagram := by
  by_cases hother : ∀ op ∈ [Opcode.data, .error, .ack, .wrq, .rrq], ¬IsPacket op datagram
  · obtain ⟨m', hm', heq⟩ := processDatagram_other cfg sys m c hother
    rw [heq, spares_ok]
    refine iff_of_true ?_ ⟨fun op hop => hother op ?_, fun _ op hop => hother op ?_⟩
    · rcases List.mem_pair.1 hm' with rfl | rfl
      · exact ⟨rfl, rfl, rfl, rfl, rfl, rfl⟩
      · exact ⟨rfl, m.fileCalls_callEvent _, rfl, rfl, rfl, rfl⟩
    · revert op; decide
    · revert op; decide
  push Not at hother
  obtain ⟨op, hop, hpacket⟩ := hother
  -- A request or an ERROR is not harmless, a DATA or ACK packet may be.
  have hharm : op ∈ [Opcode.error, .wrq, .rrq] → ¬Harmless c datagram :=
    fun hop hharmless => hharmless.1 op hop hpacket
  have hoff : op ∈ [Opcode.data, .ack] → (c.sendingfile = false ↔ Harmless c datagram) := by
    refine fun hop => ⟨fun hoff => ⟨fun op' hop' hpacket' => ?_, fun hon => by simp [hoff] at hon⟩,
      fun hharmless => Bool.not_eq_true _ ▸ fun hon => hharmless.2 hon op hop hpacket⟩
    rw [hpacket'.unique hpacket] at hop'
    rcases List.mem_pair.1 hop with rfl | rfl <;> exact absurd hop' (by decide)
  simp only [List.mem_cons, List.not_mem_nil, or_false] at hop
  rcases hop with rfl | rfl | rfl | rfl | rfl
  · rw [processDatagram_data cfg sys m c hpacket, processData_spares_iff, hoff (by decide)]
  · obtain ⟨s', hs', hreact⟩ := processError_reacts sys m c
    rw [processDatagram_error cfg sys m c hpacket, hs', spares_ok]
    exact iff_of_false (hreact.not_spared_of_queued (by simp)) (hharm (by decide))
  · rw [processDatagram_ack cfg sys m c hpacket, processAck_spares_iff, hoff (by decide)]
  · rw [processDatagram_wrq cfg sys m c hpacket]
    exact iff_of_false (processWrq_not_spares cfg sys m c _ _) (hharm (by decide))
  · rw [processDatagram_rrq cfg sys m c hpacket]
    exact iff_of_false (processRrq_not_spares cfg sys m c _ _) (hharm (by decide))

end

/-! ## Runs of the server -/

/-- Counting the bytes of a datagram makes no difference. -/
theorem turn_spares_iff (cfg : Config) (sys : Sys) (m : Machine) (c : Client) (data : Bytes) :
    Spares (m, c) (turn cfg (m, c) (receiving sys data)) ↔ Harmless c data := by
  refine Iff.trans (exists_congr fun s' => and_congr_right fun _ => ?_)
    (processDatagram_spares_iff cfg sys (m.callEvent .receivingPackets)
      { c with bytestransferred := c.bytestransferred + receivedLength data } data)
  constructor
  · intro h
    exact ⟨h.files, h.fileCalls.trans (m.fileCalls_callEvent _).symm, h.f, h.currentblockno,
      h.actualblockno, h.packetqueue⟩
  · intro h
    exact ⟨h.files, h.fileCalls.trans (m.fileCalls_callEvent _), h.f, h.currentblockno,
      h.actualblockno, h.packetqueue⟩

/-- A step spares the clients that are marked exactly if it does not harm them. -/
theorem sparesMarked_iff (cfg : Config) (srv : Server) (i : Input) :
    ServerStep.SparesMarked ⟨srv, i, step cfg srv i⟩ ↔
      ServerStep.HarmsNone ⟨srv, i, step cfg srv i⟩ := by
  refine forall₄_congr fun a ha c hc => forall₂_congr fun hmem _ => ?_
  have hstep := step_handed_of_mem cfg ha hc hmem
  rw [← turn_spares_iff cfg i.sys srv.machine c a.data, hstep]
  constructor
  · rintro ⟨srv', hsrv', d, hd, hptr, hspared⟩
    cases hturn : turn cfg (srv.machine, c) (receiving i.sys a.data) with
    | error crash =>
      rw [hturn] at hsrv'
      cases hsrv'
    | ok st =>
      rw [hturn] at hsrv'
      cases hsrv'
      rcases ClientPool.mem_update hd with rfl | ⟨-, hne⟩
      · exact ⟨st, rfl, hspared⟩
      · exact absurd (hptr.trans (turn_ptr hturn).symm) hne
  · rintro ⟨st, hturn, hspared⟩
    rw [Lib.mem_toOption.1 hturn]
    exact ⟨srv.put st, rfl, st.2,
      ClientPool.mem_update_self hmem (turn_ptr (Lib.mem_toOption.1 hturn)),
      turn_ptr (Lib.mem_toOption.1 hturn), hspared⟩

/-- In every run of the server, marked clients are spared if and only if all the datagrams
    they get are harmless. -/
theorem spares_marked_iff (cfg : Config) (machine : Machine) (socketpool : List Socket)
    (inputs : List Input) :
    (∀ t ∈ Lib.trace (step cfg) (.boot machine socketpool) inputs, ServerStep.SparesMarked t) ↔
      ∀ t ∈ Lib.trace (step cfg) (.boot machine socketpool) inputs,
        ServerStep.HarmsNone t := by
  rw [← Lib.always_iff_forall_mem, ← Lib.always_iff_forall_mem]
  refine Lib.always_iff_always (fun _ _ => True) trivial ?_ fun _ _ _ _ _ _ _ _ => trivial
  rintro past ⟨srv, i, post⟩ - - (hpost : post = step cfg srv i)
  rw [hpost]
  exact sparesMarked_iff cfg srv i

/-- An ERROR, and the server whose only client has sent it. -/
def Sample.abort : Input := receive (errorBytes .undefined [])

def Sample.aborted : Server := after [] [abort]

/-- A second ERROR is acknowledged like the first. -/
theorem not_spares_marked :
    ¬∀ cfg machine socketpool inputs, ∀ t ∈ Lib.trace (step cfg) (.boot machine socketpool) inputs,
      ServerStep.SparesMarked t := by
  intro h
  have hrun : Lib.run (step Sample.config) (Sample.boot []) [Sample.abort] = .ok Sample.aborted :=
    Sample.run_after (by decide +kernel)
  have hspares := h Sample.config (Sample.machine []) [Sample.socket]
    ([Sample.abort] ++ [Sample.abort]) ⟨Sample.aborted, Sample.abort, _⟩
    (Lib.trace_concat hrun Sample.abort ▸ List.mem_append_right _ List.mem_cons_self)
  have hqueued : ∀ srv ∈ (step Sample.config Sample.aborted Sample.abort).toOption,
      ∀ c ∈ Sample.aborted.clientpool.clients, ∀ d ∈ srv.clientpool.clients,
        d.packetqueue ≠ c.packetqueue := by
    decide +kernel
  have hmem : Sample.aborted.clientpool.clients.headD (.new 0 Sample.socket) ∈
      Sample.aborted.clientpool.clients := by
    decide +kernel
  obtain ⟨srv, hsrv, d, hd, -, hspared⟩ := hspares ⟨3, .inet 40000 1, errorBytes .undefined []⟩ rfl
    _ (by decide +kernel) hmem (by decide +kernel)
  exact hqueued srv hsrv _ hmem d hd hspared.packetqueue

end Nbstftp
