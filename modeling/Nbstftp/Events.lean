import Nbstftp.Confinement
import Nbstftp.Filing

/-!
# The events of requests

Modules are told of requests by two events: one for read requests, one for write requests.
Handling a datagram is to raise the one of its kind if it starts a transfer, i.e., if the client
takes a file that was opened for it, and none otherwise (`MirrorsRequests`).

Write requests do. A read request raises the event of a write request when its first block is
sent, and none if the client waits for an ACK before that, so it never raises its own: the events
mirror the requests as long as no read request starts a transfer (`mirrorsRequests_iff`).
-/

namespace Nbstftp

/-- The case of the switch ends after some more calls, all of which satisfy `P`. -/
def Makes (P : Effect → Prop) (m : Machine) (o : Outcome) : Prop :=
  ∃ es, calls o = m.effects ++ es ∧ ∀ e ∈ es, P e

/-- How often an event is raised until the case of the switch ends. -/
def raised (e : ModuleEvent) (m : Machine) (o : Outcome) : ℕ :=
  ((calls o).drop m.effects.length).count (.event e)

/-- A file is opened or closed. -/
def Effect.IsFileCall : Effect → Prop
  | .fopen .. | .fclose _ => True
  | _ => False

/-- The calls made while a request is served: on files, and the event of a transfer that
    starts. -/
def Serving (starts : Prop) (e : Effect) : Prop :=
  e.IsFileCall ∨ starts ∧ e = .event .newWriteRequest

/-! ## Calls made -/

namespace Makes

variable {P Q : Effect → Prop} {m m' : Machine} {o : Outcome}

theorem refl (h : calls o = m.effects) : Makes P m o :=
  ⟨[], h.trans (List.append_nil _).symm, fun _ he => absurd he List.not_mem_nil⟩

theorem mono (h : Makes P m o) (hPQ : ∀ e, P e → Q e) : Makes Q m o := by
  obtain ⟨es, hes, hP⟩ := h
  exact ⟨es, hes, fun e he => hPQ e (hP e he)⟩

/-- After other calls. -/
theorem after {es : List Effect} (h : m'.effects = m.effects ++ es) (hP : ∀ e ∈ es, P e)
    (ho : Makes P m' o) : Makes P m o := by
  obtain ⟨es', hes', hP'⟩ := ho
  refine ⟨es ++ es', by rw [hes', h, List.append_assoc], fun e he => ?_⟩
  exact (List.mem_append.1 he).elim (hP e) (hP' e)

end Makes

theorem raised_eq {e : ModuleEvent} {m : Machine} {o : Outcome} {es : List Effect}
    (h : calls o = m.effects ++ es) : raised e m o = es.count (.event e) := by
  rw [raised, h, List.drop_left]

/-- Handling an error makes no calls. -/
theorem error_makes (P : Effect → Prop) (sys : Sys) (m : Machine) (c : Client)
    (errnum : ErrorCode) (buf : Bytes) : Makes P m (error sys m c errnum buf) :=
  .refl (calls_error sys m c errnum buf)

section

variable (sys : Sys) (m : Machine) (c : Client) (q : Request)

/-- `FileExists` opens and closes a file at most. -/
theorem fileExists_makes (path : Bytes) : ∃ es, (fileExists sys m path).1.effects =
    m.effects ++ es ∧ ∀ e ∈ es, e.IsFileCall := by
  have hnone : ∃ es, m.effects = m.effects ++ es ∧ ∀ e ∈ es, e.IsFileCall :=
    ⟨[], (List.append_nil _).symm, fun _ he => absurd he List.not_mem_nil⟩
  rw [fileExists]
  cases sys.stat path with
  | none => exact hnone
  | some directory =>
    cases directory with
    | true => exact hnone
    | false =>
      cases hopen : sys.fopen path .r with
      | some e =>
        simp only [m.fopen_error hopen]
        exact ⟨[.fopen path .r], rfl, fun e he => by rw [List.mem_singleton.1 he]; trivial⟩
      | none =>
        simp only [m.fopen_ok hopen rfl]
        refine ⟨[.fopen path .r, .fclose m.nextfile], by simp [Machine.fclose, Machine.emit], ?_⟩
        intro e he
        rcases List.mem_pair.1 he with rfl | rfl <;> trivial

theorem reportMissing_makes (P : Effect → Prop) (hP : ∀ e : Effect, e.IsFileCall → P e)
    (tmp : Bytes) : Makes P m (reportMissing sys m c tmp) := by
  obtain ⟨es, hes, hfile⟩ := fileExists_makes sys m tmp
  rw [reportMissing]
  refine .after hes (fun e he => hP e (hfile e he)) ?_
  split
  · exact .refl rfl
  · exact error_makes P sys _ c _ _

/-- Serving a file raises an event only if the client takes it. -/
theorem serveFile_makes (tmp : Bytes) (tsize : Bool) :
    Makes (Serving (readChange sys tmp q.readMode tsize = .taken)) m
      (serveFile sys m c q tmp tsize) := by
  have hfopen : ∀ e ∈ [Effect.fopen tmp q.readMode],
      Serving (readChange sys tmp q.readMode tsize = .taken) e := by
    intro e he
    rw [List.mem_singleton.1 he]
    exact .inl trivial
  cases hopen : sys.fopen tmp q.readMode with
  | some e =>
    rw [serveFile_error sys m c q tmp hopen]
    exact .after rfl hfopen (error_makes _ sys _ c _ _)
  | none =>
    cases tsize with
    | true =>
      -- The file is closed again.
      obtain ⟨s', hs', hreact⟩ := serveFile_tsize sys m c q tmp hopen
      rw [hs']
      refine ⟨_, hreact.effects, fun e he => ?_⟩
      rcases List.mem_pair.1 he with rfl | rfl <;> exact .inl trivial
    | false =>
      have htaken : readChange sys tmp q.readMode false = .taken := if_pos ⟨hopen, rfl⟩
      cases hsending : c.sendingfile with
      | true =>
        -- The first block is to be sent when the ACK arrives: no event is raised.
        obtain ⟨s', hs', hreact⟩ := serveFile_reopened sys m c q tmp hopen hsending
        rw [hs']
        exact ⟨_, hreact.effects, hfopen⟩
      | false =>
        obtain ⟨s', hs', hreact⟩ := serveFile_started sys m c q tmp hopen hsending
        rw [hs']
        refine ⟨_, hreact.effects, fun e he => ?_⟩
        rcases List.mem_pair.1 he with rfl | rfl
        · exact .inl trivial
        · exact .inr ⟨htaken, rfl⟩

variable (cfg : Config)

theorem openForRead_makes (tsize : Bool) :
    Makes (Serving (ReadServed cfg sys q ∧
        readChange sys (requestPath cfg q.filename) q.readMode tsize = .taken)) m
      (openForRead cfg sys m c q tsize) := by
  have hreport := reportMissing_deals sys m c (requestPath cfg q.filename)
  have hmissing := reportMissing_makes sys m c
    (Serving (ReadServed cfg sys q ∧
      readChange sys (requestPath cfg q.filename) q.readMode tsize = .taken))
    (fun _ => .inl) (requestPath cfg q.filename)
  rw [openForRead]
  cases hmemory : sys.nomem with
  | true => exact .refl rfl
  | false =>
    simp only [Bool.false_eq_true, if_false]
    cases hs : reportMissing sys m c (requestPath cfg q.filename) with
    | error crash =>
      rw [hs] at hmissing
      exact hmissing
    | ok s =>
      rw [hs] at hmissing hreport
      obtain ⟨es, hes, hserving⟩ := hmissing
      refine .after hes hserving ((serveFile_makes sys s.1 s.2 q _ tsize).mono ?_)
      rintro e (hfile | ⟨htaken, he⟩)
      · exact .inl hfile
      · -- The file is taken only if the request has come that far.
        refine .inr ⟨⟨⟨hmemory, ?_, ?_⟩, htaken⟩, he⟩
        · by_contra hfound
          obtain ⟨crash, hcrash, -⟩ := hreport.crash hfound
          cases hcrash
        · rw [readChange] at htaken
          split_ifs at htaken with hopen
          rw [hopen.1]
          exact fun e he => absurd he (Option.not_mem_none e)

theorem serveRrq_makes :
    Makes (Serving (RrqServed cfg sys q ∧ rrqChange cfg sys q = .taken)) m
      (serveRrq cfg sys m c q) := by
  cases hrefusal : rrqRefusal sys q with
  | some e =>
    rw [serveRrq_refused cfg sys m c q hrefusal]
    exact error_makes _ sys m c e.1 e.2
  | none =>
    have hserved : ReadServed cfg sys q → RrqServed cfg sys q := fun h =>
      ⟨fun e he => absurd (hrefusal.symm.trans he) (Option.some_ne_none e).symm, fun _ => h⟩
    rw [rrqChange, hrefusal]
    cases haccept : acceptedBlksize sys q with
    | none =>
      rw [serveRrq_plain cfg sys m c q hrefusal haccept]
      refine (openForRead_makes sys m c q cfg _).mono fun e he => he.imp_right ?_
      exact fun h => ⟨⟨hserved h.1.1, h.1.2⟩, h.2⟩
    | some blksize =>
      -- The acknowledgement of the option is queued first, which is no call.
      rw [serveRrq_negotiated cfg sys m c q haccept]
      have hneg := (negotiate_reacts sys m c q q.param blksize).effects
      refine .after hneg (fun e he => absurd he List.not_mem_nil) ?_
      refine (openForRead_makes sys _ _ q cfg false).mono fun e he => he.imp_right ?_
      rintro ⟨⟨hread, htaken⟩, he⟩
      refine ⟨⟨hserved hread, ?_⟩, he⟩
      simp [htaken, FileChange.followed]

/-- A write request raises its event if it starts a transfer. -/
theorem serveWrq_makes : ∃ es, calls (serveWrq cfg sys m c q) = m.effects ++ es ∧
    (∀ e ∈ es, Serving (wrqChange cfg sys q = .taken) e) ∧
    (wrqChange cfg sys q = .taken → es.count (.event .newWriteRequest) = 1) := by
  have herror (m' : Machine) (errnum : ErrorCode) (buf : Bytes) (es : List Effect)
      (hes : m'.effects = m.effects ++ es) :
      calls (error sys m' c errnum buf) = m.effects ++ es :=
    (calls_error sys m' c errnum buf).trans hes
  rw [wrqChange]
  cases hrefusal : wrqRefusal cfg sys q with
  | some e =>
    rw [serveWrq_refused cfg sys m c q hrefusal]
    refine ⟨[], herror m e.1 e.2 [] (List.append_nil _).symm, by simp, ?_⟩
    simp
  | none =>
    rw [serveWrq_open cfg sys m c q hrefusal]
    cases hopen : sys.fopen (requestPath cfg q.filename) q.writeMode with
    | some e =>
      rw [m.fopen_error hopen]
      refine ⟨[.fopen (requestPath cfg q.filename) q.writeMode],
        herror (m.emit _) .nofile _ _ rfl, fun e he => ?_, by simp⟩
      rw [List.mem_singleton.1 he]
      exact .inl trivial
    | none =>
      rw [m.fopen_ok_writes hopen q.writeMode_writes]
      refine ⟨[.fopen (requestPath cfg q.filename) q.writeMode, .event .newWriteRequest],
        ?_, fun e he => ?_, fun _ => by simp⟩
      · have hack := (acknowledge_reacts sys
          (({ m.emit (.fopen (requestPath cfg q.filename) q.writeMode) with
              nextfile := m.nextfile + 1
              files := Function.update m.files (requestPath cfg q.filename) [] } :
            Machine).callEvent .newWriteRequest)
          { c with
            f := some ⟨m.nextfile, requestPath cfg q.filename, 0, q.writeMode⟩
            currentblockno := 1, actualblockno := 1, sendingfile := true } 0).effects
        refine (hack.trans (List.append_nil _)).trans ?_
        simp [Machine.callEvent, Machine.emit]
      · rcases List.mem_pair.1 he with rfl | rfl
        · exact .inl trivial
        · exact .inr ⟨by simp, rfl⟩

/-- Blocks that are stored or sent raise no event, nor is any other call made. -/
theorem calls_storeBlock (p : Bytes) (len : ℕ) : calls (storeBlock sys m c p len) = m.effects := by
  rw [storeBlock]
  split
  · cases c.f with
    | none => rfl
    | some f =>
      dsimp only
      split
      · rfl
      · exact (acknowledge_reacts sys _ _ (ntohs p 2)).effects.trans (List.append_nil _)
  · rfl

theorem calls_sendNextBlock : calls (sendNextBlock sys m c) = m.effects := by
  have hbuffer : (blockBuffer m c).1.effects = m.effects := (blockBuffer_machine m c).2
  rw [sendNextBlock]
  split
  · dsimp only
    split
    · exact hbuffer
    · cases c.f with
      | none => exact hbuffer
      | some f =>
        exact ((sendData_reacts sys _ _ _).effects.trans (List.append_nil _)).trans hbuffer
  · rfl

end

/-! ## Requests and their events -/

/-- A datagram starts a transfer: its client has a file that was opened meanwhile. -/
def Starts (cfg : Config) (sys : Sys) (m : Machine) (c : Client) (datagram : Bytes) : Prop :=
  ∃ s', processDatagram cfg sys m c datagram = .ok s' ∧ Filing .taken (m, c) s'

/-- The event of read requests, and that of write requests, is raised once if the datagram is
    such a request and starts a transfer, and is not raised otherwise. -/
structure MirrorsRequests (cfg : Config) (sys : Sys) (m : Machine) (c : Client)
    (datagram : Bytes) : Prop where
  read : IsPacket .rrq datagram → Starts cfg sys m c datagram →
    raised .newReadRequest m (processDatagram cfg sys m c datagram) = 1
  write : IsPacket .wrq datagram → Starts cfg sys m c datagram →
    raised .newWriteRequest m (processDatagram cfg sys m c datagram) = 1
  no_read : ¬(IsPacket .rrq datagram ∧ Starts cfg sys m c datagram) →
    raised .newReadRequest m (processDatagram cfg sys m c datagram) = 0
  no_write : ¬(IsPacket .wrq datagram ∧ Starts cfg sys m c datagram) →
    raised .newWriteRequest m (processDatagram cfg sys m c datagram) = 0

section

variable {cfg : Config} {sys : Sys} {m : Machine} {c : Client} {datagram : Bytes}

/-- What becomes of the file of a client is one thing. -/
theorem Filing.taken_iff {change : FileChange} {s s' : State} (h : Filing change s s') :
    Filing .taken s s' ↔ change = .taken := by
  refine ⟨fun htaken => ?_, fun hchange => hchange ▸ h⟩
  by_contra hne
  obtain ⟨id, hid⟩ := Option.isSome_iff_exists.1 (htaken.taken rfl)
  -- The handle it has then would not be closed, and would be closed.
  have hopen := htaken.closed id
  have hclosed := h.closed id
  rw [if_pos rfl, Client.holds, if_pos hid] at hopen
  rw [if_neg hne] at hclosed
  omega

/-- Which datagrams start a transfer, as the system calls give it. -/
theorem starts_iff : Starts cfg sys m c datagram ↔
    Served cfg sys datagram ∧ fileChange cfg sys datagram = .taken := by
  constructor
  · rintro ⟨s', hs', htaken⟩
    have hchange := (processDatagram_filing cfg sys m c hs').taken_iff.1 htaken
    refine ⟨?_, hchange⟩
    by_cases hrequest : IsPacket .rrq datagram ∨ IsPacket .wrq datagram
    · by_contra hserved
      obtain ⟨crash, hcrash, -⟩ := (processDatagram_deals cfg sys m c hrequest).crash hserved
      cases hcrash.symm.trans hs'
    · exact ⟨fun h => absurd h hrequest, fun h => absurd (.inl h) hrequest,
        fun h => absurd (.inr h) hrequest⟩
  · rintro ⟨hserved, hchange⟩
    have hrequest : IsPacket .rrq datagram ∨ IsPacket .wrq datagram := by
      by_contra hnone
      rw [not_or] at hnone
      rw [fileChange, if_neg hnone.1, if_neg hnone.2] at hchange
      cases hchange
    obtain ⟨s', hs', hfiling⟩ := (processDatagram_deals cfg sys m c hrequest).ok hserved
    exact ⟨s', hs', hchange ▸ hfiling⟩

/-- No event is raised before a datagram comes to its case. -/
theorem event_notMem_releaseEffects (c : Client) (e : ModuleEvent) :
    Effect.event e ∉ releaseEffects c := by
  rw [releaseEffects]
  cases c.lastpacket with
  | none => exact List.not_mem_nil
  | some last =>
    dsimp only
    split <;> simp

theorem serving_event {starts : Prop} {e : ModuleEvent} :
    Serving starts (.event e) ↔ starts ∧ e = .newWriteRequest := by
  simp [Serving, Effect.IsFileCall]

/-- The events raised for a request are those raised once it is logged. -/
theorem raised_logged {q : Request} {write : Bool} {line : Effect}
    (hline : q.log sys write = some line) {o : Outcome} {es : List Effect}
    (h : calls o = (loggedState m c line).1.effects ++ es) (e : ModuleEvent) :
    raised e m o = es.count (.event e) := by
  obtain ⟨param, -, rfl⟩ := log_some hline
  rw [(loggedState_reacts m c _).effects, List.append_assoc] at h
  rw [raised_eq h, List.count_append, List.count_eq_zero.2, Nat.zero_add]
  simp [event_notMem_releaseEffects]

/-- A request is logged and served. -/
theorem processDatagram_serveRrq (h : IsPacket .rrq datagram) {line : Effect}
    (hline : (requestOf datagram).log sys false = some line) :
    processDatagram cfg sys m c datagram =
      serveRrq cfg sys (loggedState m c line).1 (loggedState m c line).2 (requestOf datagram) :=
  (processDatagram_rrq cfg sys m c h).trans (processRrq_eq cfg sys m c _ _ _ rfl hline)

theorem processDatagram_serveWrq (h : IsPacket .wrq datagram) {line : Effect}
    (hline : (requestOf datagram).log sys true = some line) :
    processDatagram cfg sys m c datagram =
      serveWrq cfg sys (loggedState m c line).1 (loggedState m c line).2 (requestOf datagram) :=
  (processDatagram_wrq cfg sys m c h).trans (processWrq_eq cfg sys m c _ _ _ rfl hline)

/-- A request that cannot be logged is not served. -/
theorem processDatagram_wild (h : IsPacket .rrq datagram ∨ IsPacket .wrq datagram)
    (hwild : ¬(requestOf datagram).Loggable sys) :
    processDatagram cfg sys m c datagram = .error ⟨.wildPointer, (releaseLastpacket m c).1⟩ := by
  rcases h with hrrq | hwrq
  · exact (processDatagram_rrq cfg sys m c hrrq).trans (processRrq_wild cfg sys m c _ _ _ rfl hwild)
  · exact (processDatagram_wrq cfg sys m c hwrq).trans (processWrq_wild cfg sys m c _ _ _ rfl hwild)

theorem loggable_of_ok (h : IsPacket .rrq datagram ∨ IsPacket .wrq datagram) {s : State}
    (hs : processDatagram cfg sys m c datagram = .ok s) : (requestOf datagram).Loggable sys := by
  by_contra hwild
  cases (processDatagram_wild h hwild).symm.trans hs

theorem raised_wild (h : IsPacket .rrq datagram ∨ IsPacket .wrq datagram)
    (hwild : ¬(requestOf datagram).Loggable sys) (e : ModuleEvent) :
    raised e m (processDatagram cfg sys m c datagram) = 0 := by
  have hcalls : calls (.error ⟨.wildPointer, (releaseLastpacket m c).1⟩) =
      m.effects ++ releaseEffects c := (releaseLastpacket_reacts m c).effects
  rw [processDatagram_wild h hwild, raised_eq hcalls]
  exact List.count_eq_zero.2 (event_notMem_releaseEffects c e)

/-- A read request never raises its own event, and that of a write request only if it starts a
    transfer. -/
theorem raised_rrq (h : IsPacket .rrq datagram) (e : ModuleEvent)
    (he : ¬(e = .newWriteRequest ∧ Starts cfg sys m c datagram)) :
    raised e m (processDatagram cfg sys m c datagram) = 0 := by
  have hwrq : ¬IsPacket .wrq datagram := fun hwrq => absurd (h.2.symm.trans hwrq.2) (by decide)
  by_cases hloggable : (requestOf datagram).Loggable sys
  swap
  · exact raised_wild (.inl h) hloggable e
  obtain ⟨line, hline⟩ := hloggable.log false
  obtain ⟨es, hes, hserving⟩ := serveRrq_makes sys (loggedState m c line).1 (loggedState m c line).2
    (requestOf datagram) cfg
  rw [processDatagram_serveRrq h hline, raised_logged hline hes]
  refine List.count_eq_zero.2 fun hmem => he ?_
  obtain ⟨⟨hserved, hchange⟩, hwrite⟩ := serving_event.1 (hserving _ hmem)
  refine ⟨hwrite, starts_iff.2
    ⟨⟨fun _ => hloggable, fun _ => hserved, fun h => absurd h hwrq⟩, ?_⟩⟩
  rw [fileChange, if_pos h]
  exact hchange

/-- A write request raises its event exactly if it starts a transfer. -/
theorem raised_wrq (h : IsPacket .wrq datagram) :
    raised .newReadRequest m (processDatagram cfg sys m c datagram) = 0 ∧
      (Starts cfg sys m c datagram →
        raised .newWriteRequest m (processDatagram cfg sys m c datagram) = 1) ∧
      (¬Starts cfg sys m c datagram →
        raised .newWriteRequest m (processDatagram cfg sys m c datagram) = 0) := by
  have hrrq : ¬IsPacket .rrq datagram := fun hrrq => absurd (h.2.symm.trans hrrq.2) (by decide)
  have hchange : fileChange cfg sys datagram = wrqChange cfg sys (requestOf datagram) := by
    rw [fileChange, if_neg hrrq, if_pos h]
  by_cases hloggable : (requestOf datagram).Loggable sys
  swap
  · refine ⟨raised_wild (.inr h) hloggable _, fun hstarts => ?_,
      fun _ => raised_wild (.inr h) hloggable _⟩
    exact absurd ((starts_iff.1 hstarts).1.loggable (.inr h)) hloggable
  obtain ⟨line, hline⟩ := hloggable.log true
  obtain ⟨es, hes, hserving, hcount⟩ := serveWrq_makes sys (loggedState m c line).1
    (loggedState m c line).2 (requestOf datagram) cfg
  have hstarts : Starts cfg sys m c datagram ↔
      wrqChange cfg sys (requestOf datagram) = .taken := by
    rw [starts_iff, hchange]
    refine and_iff_right_of_imp fun htaken =>
      ⟨fun _ => hloggable, fun h => absurd h hrrq, fun _ => ?_⟩
    -- A request whose file is opened is not refused.
    rw [wrqChange] at htaken
    split_ifs at htaken with hopen
    refine ⟨fun e he => ?_, fun _ e he => ?_⟩
    · rw [hopen.1] at he
      exact absurd he (Option.not_mem_none e)
    · rw [hopen.2] at he
      exact absurd he (Option.not_mem_none e)
  rw [hstarts, processDatagram_serveWrq h hline, raised_logged hline hes, raised_logged hline hes]
  refine ⟨List.count_eq_zero.2 fun hmem => ?_, hcount,
    fun hne => List.count_eq_zero.2 fun hmem => ?_⟩
  · exact absurd (serving_event.1 (hserving _ hmem)).2 (by decide)
  · exact hne (serving_event.1 (hserving _ hmem)).1

/-- Any other datagram raises neither event. -/
theorem raised_other (hrrq : ¬IsPacket .rrq datagram) (hwrq : ¬IsPacket .wrq datagram)
    {e : ModuleEvent} (he : e ∈ [ModuleEvent.newReadRequest, .newWriteRequest]) :
    raised e m (processDatagram cfg sys m c datagram) = 0 := by
  have hne : e ≠ .dataPacket ∧ e ≠ .errorPacket ∧ e ≠ .ackPacket ∧ e ≠ .unknownPacket := by
    rcases List.mem_pair.1 he with rfl | rfl <;> decide
  -- Each case raises its own event after the release of the last packet.
  have hcase {o : Outcome} {e' : ModuleEvent} (hee' : e ≠ e')
      (ho : calls o = ((releaseLastpacket m c).1.callEvent e').effects) : raised e m o = 0 := by
    have hcalls : calls o = m.effects ++ (releaseEffects c ++ [.event e']) := by
      rw [ho, ← List.append_assoc]
      exact congrArg (· ++ [Effect.event e']) (releaseLastpacket_reacts m c).effects
    rw [raised_eq hcalls, List.count_eq_zero]
    simp [event_notMem_releaseEffects, hee']
  rcases processDatagram_cases cfg sys m c datagram with ⟨-, hs⟩ | ⟨-, hs⟩ | ⟨-, hs⟩ |
    ⟨hwrq', -⟩ | ⟨hrrq', -⟩ | ⟨m', hm', hs⟩
  · rw [hs]
    exact hcase hne.1 (calls_storeBlock sys _ _ _ _)
  · rw [hs]
    exact hcase hne.2.1 ((acknowledge_reacts sys _ _ 1).effects.trans (List.append_nil _))
  · rw [hs]
    exact hcase hne.2.2.1 (calls_sendNextBlock sys _ _)
  · exact absurd hwrq' hwrq
  · exact absurd hrrq' hrrq
  · rw [hs]
    rcases List.mem_pair.1 hm' with rfl | rfl
    · have hcalls : calls (.ok (m', c)) = m'.effects ++ [] := (List.append_nil _).symm
      rw [raised_eq hcalls, List.count_nil]
    · have hcalls : calls (.ok (m.callEvent .unknownPacket, c)) =
          m.effects ++ [.event .unknownPacket] := rfl
      rw [raised_eq hcalls, List.count_eq_zero]
      simp [hne.2.2.2]

end

/-- Events mirror the requests exactly as long as no read request starts a transfer. -/
theorem mirrorsRequests_iff (cfg : Config) (sys : Sys) (m : Machine) (c : Client)
    (datagram : Bytes) :
    MirrorsRequests cfg sys m c datagram ↔
      ¬(IsPacket .rrq datagram ∧ (requestOf datagram).Loggable sys ∧
        RrqServed cfg sys (requestOf datagram) ∧
        rrqChange cfg sys (requestOf datagram) = .taken) := by
  have hne : ¬(IsPacket .rrq datagram ∧ IsPacket .wrq datagram) := fun h =>
    absurd (h.1.2.symm.trans h.2.2) (by decide)
  have hstarts : (IsPacket .rrq datagram ∧ (requestOf datagram).Loggable sys ∧
      RrqServed cfg sys (requestOf datagram) ∧
      rrqChange cfg sys (requestOf datagram) = .taken) ↔
      IsPacket .rrq datagram ∧ Starts cfg sys m c datagram := by
    refine and_congr_right fun hrrq => ?_
    rw [starts_iff, fileChange, if_pos hrrq, ← and_assoc]
    exact and_congr_left'
      ⟨fun h => ⟨fun _ => h.1, fun _ => h.2, fun hwrq => absurd ⟨hrrq, hwrq⟩ hne⟩,
        fun h => ⟨h.loggable (.inl hrrq), h.rrq hrrq⟩⟩
  rw [hstarts]
  by_cases hrrq : IsPacket .rrq datagram
  · -- The event of a read request is missing as soon as it starts a transfer.
    have hwrq : ¬IsPacket .wrq datagram := fun hwrq => hne ⟨hrrq, hwrq⟩
    have hread : raised .newReadRequest m (processDatagram cfg sys m c datagram) = 0 :=
      raised_rrq hrrq _ fun h => absurd h.1 (by decide)
    constructor
    · rintro h ⟨-, hs⟩
      exact absurd (hread.symm.trans (h.read hrrq hs)) (by decide)
    · intro hnot
      have hs : ¬Starts cfg sys m c datagram := fun hs => hnot ⟨hrrq, hs⟩
      exact ⟨fun _ h => absurd h hs, fun h => absurd h hwrq, fun _ => hread,
        fun _ => raised_rrq hrrq _ fun h => hs h.2⟩
  · -- All other events are as they are to be.
    refine iff_of_true ?_ fun h => hrrq h.1
    by_cases hwrq : IsPacket .wrq datagram
    · obtain ⟨hread, hwrite, hnone⟩ := @raised_wrq cfg sys m c datagram hwrq
      exact ⟨fun h => absurd h hrrq, fun _ => hwrite, fun _ => hread,
        fun h => hnone fun hs => h ⟨hwrq, hs⟩⟩
    · exact ⟨fun h => absurd h hrrq, fun h => absurd h hwrq,
        fun _ => raised_other hrrq hwrq (by decide), fun _ => raised_other hrrq hwrq (by decide)⟩

/-- The event of a write request is raised for a plain read request. -/
theorem not_mirrorsRequests :
    ¬MirrorsRequests Sample.config .ideal (Sample.machine []) (.new 1 Sample.socket)
      Sample.rrq := by
  intro h
  have hnone := h.no_write fun hwrq => absurd hwrq.1 (by decide +kernel)
  have hone : raised .newWriteRequest (Sample.machine []) (processDatagram Sample.config .ideal
      (Sample.machine []) (.new 1 Sample.socket) Sample.rrq) = 1 := by
    decide +kernel
  exact absurd (hnone.symm.trans hone) (by decide)

end Nbstftp
