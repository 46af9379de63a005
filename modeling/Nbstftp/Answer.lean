import Nbstftp.Filing

/-!
# Answers to requests

A request is to get one answer: DATA, ACK or OACK if it is granted, one ERROR if it is
not (`AnsweredOnce`). A missing file that is to be read is reported without leaving the
case, and a block size is acknowledged before the file is looked for: such requests get
two answers (`not_answered_once`), and all others that can be reported get one
(`answered_once_iff`).
-/

namespace Nbstftp

/-- The opcode of a packet. -/
def packetOpcode (packet : Bytes) : UInt16 := ntohs packet 0

section

variable (cfg : Config) (sys : Sys) (q : Request)

/-- A read request is granted: it is not refused, and its file is found and opened. -/
def RrqGranted : Prop :=
  rrqRefusal sys q = none ∧ sys.Finds (requestPath cfg q.filename) ∧
    sys.fopen (requestPath cfg q.filename) q.readMode = none

/-- A write request is granted: it is not refused, and its file is opened. -/
def WrqGranted : Prop :=
  wrqRefusal cfg sys q = none ∧ sys.fopen (requestPath cfg q.filename) q.writeMode = none

/-- A read request that is not refused comes to one answer: the file is found, and it is
    opened or that it is not can be reported, no block size having been acknowledged. -/
structure ReadAnswered : Prop where
  memory : sys.nomem = false
  found : sys.Finds (requestPath cfg q.filename)
  opened : ∀ e ∈ sys.fopen (requestPath cfg q.filename) q.readMode,
    acceptedBlksize sys q = none ∧ Reportable (openMessage sys e)

/-- A read request comes to one answer: if it is refused, that can be reported. -/
structure RrqAnswered : Prop where
  refused : ∀ e ∈ rrqRefusal sys q, Reportable e.2
  read : rrqRefusal sys q = none → ReadAnswered cfg sys q

end

/-- A request that is not dropped and can be logged comes to one answer; a write request
    does if the error it ends with can be reported. -/
def Answered (cfg : Config) (sys : Sys) (op : Opcode) (datagram : Bytes) : Prop :=
  datagram.length ≤ maxPacketSize ∧ (requestOf datagram).Loggable sys ∧
    if op = .wrq then WrqServed cfg sys (requestOf datagram)
    else RrqAnswered cfg sys (requestOf datagram)

/-- A request is granted. -/
def Granted (cfg : Config) (sys : Sys) (op : Opcode) (datagram : Bytes) : Prop :=
  if op = .wrq then WrqGranted cfg sys (requestOf datagram)
  else RrqGranted cfg sys (requestOf datagram)

/-- The queue gets one packet: DATA, ACK or OACK if the request is granted, ERROR if it
    is denied. -/
def AnsweredOnce (granted : Prop) (s : State) (o : Outcome) : Prop :=
  ∃ s' ∈ o.toOption, ∃ p, queuedBetween s s' = [p] ∧
    (granted → packetOpcode p ∈ [Opcode.data.code, Opcode.ack.code, Opcode.oack.code]) ∧
    (¬granted → packetOpcode p = Opcode.error.code)

theorem packetOpcode_errorBytes (errnum : ErrorCode) (msg : Bytes) :
    packetOpcode (errorBytes errnum msg) = Opcode.error.code := by
  rw [packetOpcode, errorBytes, List.append_assoc, List.append_assoc, ntohs_htons_append]

theorem packetOpcode_ackBytes (blockno : UInt16) :
    packetOpcode (ackBytes blockno) = Opcode.ack.code :=
  ntohs_htons_append _ _

theorem packetOpcode_oackBytes (option param : Bytes) :
    packetOpcode (oackBytes option param) = Opcode.oack.code := by
  rw [packetOpcode, oackBytes, ntohs_poke, ntohs_poke, ntohs_poke, ntohs_poke, poke]
  · simp only [List.take_zero, Nat.zero_sub, List.replicate_zero, List.nil_append,
      ntohs_htons_append]
  all_goals omega

/-! ## What comes of a part of the handling -/

section

variable {granted : Prop} {s s₁ s' : State} {r : Reaction} {o : Outcome}

theorem not_answeredOnce_error {crash : Crash} : ¬AnsweredOnce granted s (.error crash) := by
  rintro ⟨s', hs', -⟩
  cases hs'

/-- An answer to a request that is granted. -/
theorem Reacts.answeredOnce {p : Bytes} (h : Reacts s r s') (hqueued : r.queued = [p])
    (hgranted : granted)
    (hp : packetOpcode p ∈ [Opcode.data.code, Opcode.ack.code, Opcode.oack.code]) :
    AnsweredOnce granted s (.ok s') :=
  ⟨s', rfl, p, h.queued_eq.trans hqueued, fun _ => hp, fun hdenied => absurd hgranted hdenied⟩

/-- One answer is not two. -/
theorem Reacts.not_answeredOnce (h : Reacts s r s') (hqueued : 2 ≤ r.queued.length) :
    ¬AnsweredOnce granted s (.ok s') := by
  rintro ⟨s'', hs'', p, hp, -⟩
  cases hs''
  rw [h.queued_eq] at hp
  rw [hp, List.length_singleton] at hqueued
  omega

/-- An error is the only answer to a request that is denied, if it can be reported. -/
theorem answeredOnce_error_iff (sys : Sys) (h : Reacts s r s₁) (hqueued : r.queued = [])
    (hdenied : ¬granted) (errnum : ErrorCode) (buf : Bytes) :
    AnsweredOnce granted s (error sys s₁.1 s₁.2 errnum buf) ↔ Reportable buf := by
  rcases error_cases sys s₁.1 s₁.2 errnum buf with ⟨hbuf, s', hs', hreact⟩ | ⟨hbuf, hcrash⟩
  · rw [hs']
    refine iff_of_true ⟨s', rfl, _, ?_, fun hgranted => absurd hgranted hdenied,
      fun _ => packetOpcode_errorBytes errnum buf⟩ hbuf
    rw [(h.trans hreact).queued_eq, hqueued, List.nil_append]
  · rw [hcrash]
    exact iff_of_false not_answeredOnce_error hbuf

/-- An error after another answer is one too many. -/
theorem not_answeredOnce_after_error (sys : Sys) (h : Reacts s r s₁) (hqueued : r.queued ≠ [])
    (errnum : ErrorCode) (buf : Bytes) :
    ¬AnsweredOnce granted s (error sys s₁.1 s₁.2 errnum buf) := by
  rcases error_cases sys s₁.1 s₁.2 errnum buf with ⟨-, s', hs', hreact⟩ | ⟨-, hcrash⟩
  · rw [hs']
    refine (h.trans hreact).not_answeredOnce ?_
    rw [List.length_append, List.length_singleton]
    have := List.length_pos_of_ne_nil hqueued
    omega
  · rw [hcrash]
    exact not_answeredOnce_error

end

/-! ## Reading -/

section

variable (cfg : Config) (sys : Sys) (q : Request) {granted : Prop} {s s₁ : State} {r : Reaction}
  {path : Bytes}

theorem fileExists_reacts (s : State) (path : Bytes) :
    ∃ es, Reacts s ⟨s.2.transfer, [], s.1.files, es⟩ ((fileExists sys s.1 path).1, s.2) := by
  obtain ⟨hfiles, es, hes, -⟩ := fileExists_spec sys s.1 path
  exact ⟨es, .silent rfl rfl rfl hfiles hes⟩

theorem reportMissing_found (m : Machine) (c : Client) (h : sys.Finds path) :
    reportMissing sys m c path = .ok ((fileExists sys m path).1, c) :=
  if_pos ((fileExists_filing sys m c path).2.2 h)

theorem reportMissing_missing (m : Machine) (c : Client) (h : ¬sys.Finds path) :
    reportMissing sys m c path =
      error sys (fileExists sys m path).1 c .nofile (missingMessage path) :=
  if_neg (mt (fileExists_filing sys m c path).2.1 h)

/-- A file that is served after a packet was queued for it gets another one, unless a
    transfer is on. -/
theorem serveFile_not_answeredOnce (h : Reacts s r s₁) (tsize : Bool) (hqueued : r.queued ≠ [])
    (hon : s₁.2.sendingfile = true → 2 ≤ r.queued.length) :
    ¬AnsweredOnce granted s (serveFile sys s₁.1 s₁.2 q path tsize) := by
  have hpos := List.length_pos_of_ne_nil hqueued
  cases hopen : sys.fopen path q.readMode with
  | some e =>
    rw [serveFile_error sys _ _ q path hopen]
    exact not_answeredOnce_after_error sys (h.emit _) hqueued _ _
  | none =>
    cases tsize with
    | true =>
      obtain ⟨s', hs', hreact⟩ := serveFile_tsize sys s₁.1 s₁.2 q path hopen
      rw [hs']
      refine (h.trans hreact).not_answeredOnce ?_
      simp only [List.length_append, List.length_singleton]
      omega
    | false =>
      cases hsending : s₁.2.sendingfile with
      | true =>
        obtain ⟨s', hs', hreact⟩ := serveFile_reopened sys s₁.1 s₁.2 q path hopen hsending
        rw [hs']
        exact (h.trans hreact).not_answeredOnce (by rw [List.append_nil]; exact hon hsending)
      | false =>
        obtain ⟨s', hs', hreact⟩ := serveFile_started sys s₁.1 s₁.2 q path hopen hsending
        rw [hs']
        refine (h.trans hreact).not_answeredOnce ?_
        simp only [List.length_append, List.length_singleton]
        omega

/-- A file that is missing is reported, and served nevertheless. -/
theorem openForRead_missing (h : Reacts s r s₁) (tsize : Bool)
    (hfound : ¬sys.Finds (requestPath cfg q.filename))
    (hon : s₁.2.sendingfile = true → r.queued ≠ []) :
    ¬AnsweredOnce granted s (openForRead cfg sys s₁.1 s₁.2 q tsize) := by
  obtain ⟨es, hexists⟩ := fileExists_reacts sys s₁ (requestPath cfg q.filename)
  rw [openForRead]
  split
  · exact not_answeredOnce_error
  dsimp only
  rw [reportMissing_missing sys _ _ hfound]
  rcases error_cases sys (fileExists sys s₁.1 (requestPath cfg q.filename)).1 s₁.2 .nofile
    (missingMessage (requestPath cfg q.filename)) with ⟨-, s₂, hs₂, hreact⟩ | ⟨-, hcrash⟩
  · rw [hs₂]
    refine serveFile_not_answeredOnce sys q ((h.trans hexists).trans hreact) tsize (by simp)
      fun hsending => ?_
    have hpos := List.length_pos_of_ne_nil
      (hon ((congrArg Transfer.sendingfile hreact.transfer).symm.trans hsending))
    simp only [List.append_nil, List.length_append, List.length_singleton]
    omega
  · rw [hcrash]
    exact not_answeredOnce_error

/-- A file that is found is served. -/
theorem openForRead_found (s₁ : State) (tsize : Bool) (hmemory : sys.nomem = false)
    (hfound : sys.Finds (requestPath cfg q.filename)) :
    openForRead cfg sys s₁.1 s₁.2 q tsize =
      serveFile sys (fileExists sys s₁.1 (requestPath cfg q.filename)).1 s₁.2 q
        (requestPath cfg q.filename) tsize := by
  rw [openForRead, hmemory]
  simp only [Bool.false_eq_true, if_false, reportMissing_found sys _ _ hfound]

theorem not_rrqGranted_of_fopen {e : Errno}
    (h : sys.fopen (requestPath cfg q.filename) q.readMode = some e) : ¬RrqGranted cfg sys q :=
  fun hgranted => by cases h.symm.trans hgranted.2.2

/-- What reading comes to is what serving the file comes to, if it is found. -/
theorem openForRead_iff (h : Reacts s r s₁) (tsize : Bool)
    (hon : s₁.2.sendingfile = true → r.queued ≠ [])
    (hserve : ∀ m es, Reacts s ⟨s₁.2.transfer, r.queued, s₁.1.files, r.effects ++ es⟩ (m, s₁.2) →
      sys.Finds (requestPath cfg q.filename) →
      (AnsweredOnce (RrqGranted cfg sys q) s
          (serveFile sys m s₁.2 q (requestPath cfg q.filename) tsize) ↔
        ∀ e ∈ sys.fopen (requestPath cfg q.filename) q.readMode,
          acceptedBlksize sys q = none ∧ Reportable (openMessage sys e))) :
    AnsweredOnce (RrqGranted cfg sys q) s (openForRead cfg sys s₁.1 s₁.2 q tsize) ↔
      ReadAnswered cfg sys q := by
  by_cases hfound : sys.Finds (requestPath cfg q.filename)
  swap
  · exact iff_of_false (openForRead_missing cfg sys q h tsize hfound hon)
      fun hanswered => hfound hanswered.found
  cases hmemory : sys.nomem with
  | true =>
    rw [openForRead, if_pos hmemory]
    exact iff_of_false not_answeredOnce_error fun hanswered => by
      cases hmemory.symm.trans hanswered.memory
  | false =>
    -- Looking for the file sends nothing.
    obtain ⟨es, hexists⟩ := fileExists_reacts sys s₁ (requestPath cfg q.filename)
    have hbefore := h.trans hexists
    rw [List.append_nil] at hbefore
    rw [openForRead_found cfg sys q s₁ tsize hmemory hfound, hserve _ es hbefore hfound]
    exact ⟨fun hopened => ⟨hmemory, hfound, hopened⟩, fun hanswered => hanswered.opened⟩

/-- Reading without a block size, while no transfer is on: the answer is the first block,
    the size, or that the file could not be opened. -/
theorem openForRead_plain_iff (h : Reacts s r s₁) (hqueued : r.queued = []) (tsize : Bool)
    (hrefusal : rrqRefusal sys q = none) (haccept : acceptedBlksize sys q = none)
    (hoff : s₁.2.sendingfile = false) :
    AnsweredOnce (RrqGranted cfg sys q) s (openForRead cfg sys s₁.1 s₁.2 q tsize) ↔
      ReadAnswered cfg sys q := by
  refine openForRead_iff cfg sys q h tsize (by simp [hoff]) fun m es hbefore hfound => ?_
  cases hopen : sys.fopen (requestPath cfg q.filename) q.readMode with
  | some e =>
    rw [serveFile_error sys _ _ q _ hopen]
    refine (answeredOnce_error_iff sys (hbefore.emit _) (by simp [hqueued])
      (not_rrqGranted_of_fopen cfg sys q hopen) _ _).trans
      ⟨fun hreport e' he => ?_, fun hopened => (hopened e rfl).2⟩
    cases he
    exact ⟨haccept, hreport⟩
  | none =>
    have hgranted : RrqGranted cfg sys q := ⟨hrefusal, hfound, hopen⟩
    refine iff_of_true ?_ fun e he => by cases he
    cases tsize with
    | true =>
      obtain ⟨s', hs', hreact⟩ := serveFile_tsize sys m s₁.2 q (requestPath cfg q.filename) hopen
      rw [hs']
      exact (hbefore.trans hreact).answeredOnce (by rw [hqueued]; rfl) hgranted
        (by rw [packetOpcode_oackBytes]; decide)
    | false =>
      obtain ⟨s', hs', hreact⟩ :=
        serveFile_started sys m s₁.2 q (requestPath cfg q.filename) hopen hoff
      rw [hs']
      refine (hbefore.trans hreact).answeredOnce (by rw [hqueued]; rfl) hgranted ?_
      exact List.mem_cons.2 (.inl (isData_dataBytes 1 _))

/-- Reading once a block size was acknowledged: there must be no other answer. -/
theorem openForRead_negotiated_iff (h : Reacts s r s₁) {option param : Bytes}
    (hqueued : r.queued = [oackBytes option param]) (hrefusal : rrqRefusal sys q = none)
    (haccept : acceptedBlksize sys q ≠ none) (hon : s₁.2.sendingfile = true) :
    AnsweredOnce (RrqGranted cfg sys q) s (openForRead cfg sys s₁.1 s₁.2 q false) ↔
      ReadAnswered cfg sys q := by
  refine openForRead_iff cfg sys q h false (by simp [hqueued]) fun m es hbefore hfound => ?_
  cases hopen : sys.fopen (requestPath cfg q.filename) q.readMode with
  | some e =>
    -- The error follows the acknowledgement.
    rw [serveFile_error sys _ _ q _ hopen]
    exact iff_of_false (not_answeredOnce_after_error sys (hbefore.emit _) (by simp [hqueued]) _ _)
      fun hopened => haccept (hopened e rfl).1
  | none =>
    refine iff_of_true ?_ fun e he => by cases he
    obtain ⟨s', hs', hreact⟩ :=
      serveFile_reopened sys m s₁.2 q (requestPath cfg q.filename) hopen hon
    rw [hs']
    exact (hbefore.trans hreact).answeredOnce (by rw [hqueued]; rfl) ⟨hrefusal, hfound, hopen⟩
      (by rw [packetOpcode_oackBytes]; decide)

end

/-! ## Requests -/

section

variable (cfg : Config) (sys : Sys) (m : Machine) (c : Client) (datagram : Bytes)

theorem processRrq_answeredOnce_iff (hoff : c.sendingfile = false) (p : Bytes) (alloclen : ℕ) :
    AnsweredOnce (RrqGranted cfg sys (parseRequest p alloclen)) (m, c)
        (processRrq cfg sys m c p alloclen) ↔
      (parseRequest p alloclen).Loggable sys ∧ RrqAnswered cfg sys (parseRequest p alloclen) := by
  generalize hq : parseRequest p alloclen = q
  by_cases hloggable : q.Loggable sys
  swap
  · rw [processRrq_wild cfg sys m c q p alloclen hq hloggable]
    exact iff_of_false not_answeredOnce_error fun h => hloggable h.1
  rw [and_iff_right hloggable]
  obtain ⟨line, hline⟩ := hloggable.log false
  have hlog := loggedState_reacts m c line
  rw [processRrq_eq cfg sys m c q p alloclen hq hline]
  generalize loggedState m c line = s at hlog ⊢
  have hoff' : s.2.sendingfile = false := (congrArg Transfer.sendingfile hlog.transfer).trans hoff
  cases hrefusal : rrqRefusal sys q with
  | some e =>
    rw [serveRrq_refused cfg sys s.1 s.2 q hrefusal, answeredOnce_error_iff sys hlog rfl
      (fun hgranted => by cases hrefusal.symm.trans hgranted.1)]
    refine ⟨fun hreport => ⟨fun e' he => ?_, fun hnone => by cases hrefusal.symm.trans hnone⟩,
      fun hanswered => hanswered.refused e hrefusal⟩
    cases hrefusal.symm.trans he
    exact hreport
  | none =>
    have hread : ReadAnswered cfg sys q ↔ RrqAnswered cfg sys q :=
      ⟨fun h => ⟨fun e he => (by cases hrefusal.symm.trans he), fun _ => h⟩,
        fun h => h.read hrefusal⟩
    rw [← hread]
    cases haccept : acceptedBlksize sys q with
    | none =>
      rw [serveRrq_plain cfg sys s.1 s.2 q hrefusal haccept]
      exact openForRead_plain_iff cfg sys q hlog rfl _ hrefusal haccept hoff'
    | some blksize =>
      rw [serveRrq_negotiated cfg sys s.1 s.2 q haccept]
      have hneg := negotiate_reacts sys s.1 s.2 q q.param blksize
      exact openForRead_negotiated_iff cfg sys q (hlog.trans hneg) rfl hrefusal
        (by rw [haccept]; exact Option.some_ne_none _) (congrArg Transfer.sendingfile hneg.transfer)

theorem processWrq_answeredOnce_iff (p : Bytes) (alloclen : ℕ) :
    AnsweredOnce (WrqGranted cfg sys (parseRequest p alloclen)) (m, c)
        (processWrq cfg sys m c p alloclen) ↔
      (parseRequest p alloclen).Loggable sys ∧ WrqServed cfg sys (parseRequest p alloclen) := by
  generalize hq : parseRequest p alloclen = q
  rcases processWrq_cases cfg sys m c q p alloclen hq with ⟨hwild, hcrash⟩ |
    ⟨hloggable, line, -, hcases⟩
  · rw [hcrash]
    exact iff_of_false not_answeredOnce_error fun h => hwild h.1
  rw [and_iff_right hloggable]
  have hlog := loggedState_reacts m c line
  rcases hcases with ⟨e, hrefusal, heq⟩ | ⟨hrefusal, e, hopen, heq⟩ |
    ⟨hrefusal, hopen, s', f, hs', -, hreact⟩
  · rw [heq, answeredOnce_error_iff sys hlog rfl
      (fun hgranted => by cases hrefusal.symm.trans hgranted.1)]
    refine ⟨fun hreport => ⟨fun e' he => ?_, fun hnone => by cases hrefusal.symm.trans hnone⟩,
      fun hserved => hserved.refused e hrefusal⟩
    cases hrefusal.symm.trans he
    exact hreport
  · have hopened := hlog.emit (.fopen (requestPath cfg q.filename) q.writeMode)
    rw [heq]
    refine (answeredOnce_error_iff sys hopened rfl
      (fun hgranted => by cases hopen.symm.trans hgranted.2) _ _).trans
      ⟨fun hreport => ⟨fun e' he => absurd (hrefusal.symm.trans he) nofun, fun _ e' he => ?_⟩,
        fun hserved => hserved.opened hrefusal e hopen⟩
    cases hopen.symm.trans he
    exact hreport
  · rw [hs']
    exact iff_of_true (hreact.answeredOnce rfl ⟨hrefusal, hopen⟩
        (by rw [packetOpcode_ackBytes]; decide))
      ⟨fun e he => absurd (hrefusal.symm.trans he) nofun,
        fun _ e he => absurd (hopen.symm.trans he) nofun⟩

/-- A request to a client with no transfer on is answered once if and only if it is not
    dropped, it can be logged and, for a read, its file is found and opened or refused for
    one reason. -/
theorem answered_once_iff {op : Opcode} (hop : op ∈ [Opcode.rrq, .wrq])
    (hdatagram : opcodeOf datagram = op.code) (hoff : c.sendingfile = false) :
    AnsweredOnce (Granted cfg sys op datagram) (m, c) (processDatagram cfg sys m c datagram) ↔
      Answered cfg sys op datagram := by
  rw [Answered]
  by_cases hlen : datagram.length ≤ maxPacketSize
  swap
  · rw [processDatagram_large cfg sys m c hlen]
    refine iff_of_false ?_ fun h => hlen h.1
    rintro ⟨s', hs', p, hp, -⟩
    cases hs'
    simp [queuedBetween] at hp
  rw [and_iff_right hlen]
  rcases List.mem_pair.1 hop with rfl | rfl
  · rw [Granted, if_neg (by decide), if_neg (by decide),
      processDatagram_rrq cfg sys m c ⟨hlen, hdatagram⟩]
    exact processRrq_answeredOnce_iff cfg sys m c hoff _ _
  · rw [Granted, if_pos rfl, if_pos rfl, processDatagram_wrq cfg sys m c ⟨hlen, hdatagram⟩]
    exact processWrq_answeredOnce_iff cfg sys m c _ _

end

namespace Sample

/-- A system without any files. -/
def bare : Sys := { Sys.ideal with stat := fun _ => none, fopen := fun _ _ => some (.other 2) }

/-- A request that can be answered. -/
theorem answered : Answered config .ideal .rrq (request .rrq []) := by
  refine ⟨by decide, loggable _, ?_⟩
  rw [if_neg (by decide)]
  have hrefusal := (request_plain .rrq).plain.rrqRefusal .ideal
  exact ⟨fun e he => absurd (hrefusal.symm.trans he) nofun,
    fun _ => ⟨rfl, ⟨rfl, rfl, rfl⟩, fun e he => absurd he nofun⟩⟩

end Sample

/-- A file that is not there is reported as missing, and as not opened. -/
theorem not_answered_once :
    ¬∀ (cfg : Config) (sys : Sys) (m : Machine) (c : Client) (datagram : Bytes), ∀ op,
      op ∈ [Opcode.rrq, .wrq] → opcodeOf datagram = op.code → c.packetqueue = [] →
        c.sendingfile = false →
          AnsweredOnce (Granted cfg sys op datagram) (m, c)
            (processDatagram cfg sys m c datagram) := by
  intro h
  obtain ⟨s', hs', p, hp, -⟩ := h Sample.config Sample.bare (Sample.machine [])
    (.new 1 Sample.socket) Sample.rrq .rrq (by decide) (by decide +kernel) rfl rfl
  have htwo : ∀ s ∈ (processDatagram Sample.config Sample.bare (Sample.machine [])
      (.new 1 Sample.socket) Sample.rrq).toOption,
      (queuedBetween (Sample.machine [], .new 1 Sample.socket) s).length = 2 := by
    decide +kernel
  have hlength := htwo s' hs'
  rw [hp] at hlength
  cases hlength

/-- A file that is there is answered with its first block. -/
theorem answered_once_sample :
    AnsweredOnce (Granted Sample.config .ideal .rrq (Sample.request .rrq []))
      (Sample.machine [1], .new 1 Sample.socket)
      (processDatagram Sample.config .ideal (Sample.machine [1]) (.new 1 Sample.socket)
        (Sample.request .rrq [])) :=
  (answered_once_iff Sample.config .ideal (Sample.machine [1]) (.new 1 Sample.socket)
    (Sample.request .rrq []) (by decide) (by decide +kernel) rfl).2 Sample.answered

end Nbstftp
