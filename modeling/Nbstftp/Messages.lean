import Nbstftp.Answer

/-!
# The messages of errors

An ERROR packet carries a message made of what the client, the configuration and the system
have provided: a filename and the directory, the value of an option, the text of a system
error. Before it is built, its length is asserted to fit into a packet, but for the NUL byte
behind the message. So a request may end the process, or be answered with a packet that is
too large by a byte (`not_errors_fit`); that it does neither is a matter of the lengths of
the messages it leads to (`errors_fit_iff`).
-/

namespace Nbstftp

/-- A message fits into an ERROR packet, with its NUL byte. -/
def FitsPacket (msg : Bytes) : Prop := msg.length + headerSize + 1 ≤ maxPacketSize

instance (msg : Bytes) : Decidable (FitsPacket msg) := inferInstanceAs (Decidable (_ ≤ _))

/-- A packet is not too large if it is an ERROR packet. -/
def ErrorFits (packet : Bytes) : Prop :=
  packetOpcode packet = Opcode.error.code → packet.length ≤ maxPacketSize

instance (packet : Bytes) : Decidable (ErrorFits packet) :=
  inferInstanceAs (Decidable (_ → _))

/-- The assertion on the length of a message does not fail, and the ERROR packets queued are
    not too large. -/
structure ErrorsFit (s : State) (outcome : Outcome) : Prop where
  passes : ∀ crash, outcome = .error crash → crash.fault ≠ .assertion
  fits : ∀ s', outcome = .ok s' → ∀ p ∈ queuedBetween s s', ErrorFits p

section

variable (cfg : Config) (sys : Sys) (q : Request)

/-- What the messages of a read request are made of is short enough: the value of an option
    and the text of the error it is refused with, the path of a file that is missing, and
    the text of the error a file cannot be opened with. -/
structure RrqTextsFit : Prop where
  range : strcasecmp q.mode (ascii "mail") ≠ 0 → strcasecmp q.opt (ascii "blksize") = 0 →
    (strtol q.param).2 = true → q.param.length + (sys.strerror .range).length ≤ 485
  missing : rrqRefusal sys q = none → sys.nomem = false →
    ¬sys.Finds (requestPath cfg q.filename) → (requestPath cfg q.filename).length ≤ 472
  opened : rrqRefusal sys q = none → sys.nomem = false →
    ∀ e ∈ sys.fopen (requestPath cfg q.filename) q.readMode, (sys.strerror e).length ≤ 493

/-- What the messages of a write request are made of is short enough: the texts of the
    errors a file cannot be accessed or opened with. -/
structure WrqTextsFit : Prop where
  access : strcasecmp q.mode (ascii "mail") ≠ 0 → sys.nomem = false →
    accessDenied cfg sys (requestPath cfg q.filename) = true →
      (sys.strerror .acces).length ≤ 491
  opened : wrqRefusal cfg sys q = none →
    ∀ e ∈ sys.fopen (requestPath cfg q.filename) q.writeMode, (sys.strerror e).length ≤ 492

end

/-- What the messages of a request are made of is short enough, if the request can be
    logged. -/
def TextsFit (cfg : Config) (sys : Sys) (op : Opcode) (datagram : Bytes) : Prop :=
  (requestOf datagram).Loggable sys →
    if op = .wrq then WrqTextsFit cfg sys (requestOf datagram)
    else RrqTextsFit cfg sys (requestOf datagram)

/-! ## Messages -/

section

variable (cfg : Config) (sys : Sys) (q : Request)

theorem fitsPacket_missing_iff (path : Bytes) :
    FitsPacket (missingMessage path) ↔ path.length ≤ 472 := by
  have h₁ : (ascii "File ").length = 5 := by decide
  have h₂ : (ascii " does not exist on the filesystem.").length = 34 := by decide
  rw [FitsPacket, missingMessage, List.length_append, List.length_append, h₁, h₂]
  simp only [headerSize, maxPacketSize]
  omega

theorem fitsPacket_open_iff (e : Errno) :
    FitsPacket (openMessage sys e) ↔ (sys.strerror e).length ≤ 493 := by
  have h : (ascii "Cannot open file: ").length = 18 := by decide
  rw [FitsPacket, openMessage, List.length_append, h]
  simp only [headerSize, maxPacketSize]
  omega

theorem fitsPacket_write_iff (e : Errno) :
    FitsPacket (ascii "Cannot write file: " ++ sys.strerror e) ↔
      (sys.strerror e).length ≤ 492 := by
  have h : (ascii "Cannot write file: ").length = 19 := by decide
  rw [FitsPacket, List.length_append, h]
  simp only [headerSize, maxPacketSize]
  omega

theorem fitsPacket_blksize (s : Bytes) :
    FitsPacket (ascii "Invalid block size " ++ decimalInt (strtol s).1) := by
  have h : (ascii "Invalid block size ").length = 19 := by decide
  have hdec := length_decimalInt_strtol_le s
  rw [FitsPacket, List.length_append, h]
  simp only [headerSize, maxPacketSize]
  omega

/-- The message a read request is refused with fits, unless the block size asked for is not
    representable. -/
theorem rrqRefusal_fits_iff :
    (∀ e ∈ rrqRefusal sys q, FitsPacket e.2) ↔ (strcasecmp q.mode (ascii "mail") ≠ 0 →
      strcasecmp q.opt (ascii "blksize") = 0 → (strtol q.param).2 = true →
        q.param.length + (sys.strerror .range).length ≤ 485) := by
  rw [rrqRefusal]
  by_cases hmail : strcasecmp q.mode (ascii "mail") = 0
  · rw [if_pos hmail]
    refine iff_of_true (fun e he => ?_) fun h => absurd hmail h
    cases he
    decide
  rw [if_neg hmail]
  by_cases hopt : strcasecmp q.opt (ascii "blksize") = 0
  swap
  · rw [if_pos hopt]
    exact iff_of_true (fun e he => absurd he (by simp)) fun _ h => absurd h hopt
  rw [if_neg (not_not.2 hopt)]
  cases hrange : (strtol q.param).2 with
  | true =>
    have h₁ : (ascii "Invalid block size ").length = 19 := by decide
    have h₂ : (ascii " (" ++ decimal Errno.range.number ++ ascii ")").length = 5 := by decide
    have h₃ : (ascii ": ").length = 2 := by decide
    simp only [if_true, Option.mem_some_iff, forall_eq', FitsPacket, hopt, headerSize,
      maxPacketSize, List.append_assoc, List.length_append, h₁, h₃] at h₂ ⊢
    simp only [ne_eq, hmail, not_false_eq_true, forall_const]
    omega
  | false =>
    refine iff_of_true (fun e he => ?_) fun _ _ h => by cases h
    rw [if_neg Bool.false_ne_true] at he
    split at he
    · cases he
      exact fitsPacket_blksize _
    · cases he

theorem wrqRefusal_fits_iff :
    (∀ e ∈ wrqRefusal cfg sys q, FitsPacket e.2) ↔ (strcasecmp q.mode (ascii "mail") ≠ 0 →
      sys.nomem = false → accessDenied cfg sys (requestPath cfg q.filename) = true →
        (sys.strerror .acces).length ≤ 491) := by
  have h : (ascii "Cannot access file: ").length = 20 := by decide
  rw [wrqRefusal]
  by_cases hmail : strcasecmp q.mode (ascii "mail") = 0
  · rw [if_pos hmail]
    refine iff_of_true (fun e he => ?_) fun h => absurd hmail h
    cases he
    decide
  rw [if_neg hmail]
  cases hmemory : sys.nomem with
  | true =>
    refine iff_of_true (fun e he => ?_) fun _ h => by cases h
    cases he
    decide
  | false =>
    cases hdenied : accessDenied cfg sys (requestPath cfg q.filename) with
    | true =>
      simp only [if_true, Option.mem_some_iff, forall_eq', FitsPacket, headerSize,
        maxPacketSize, List.length_append, h, Bool.false_eq_true, if_false]
      simp only [ne_eq, hmail, not_false_eq_true, forall_const]
      omega
    | false => exact iff_of_true (fun e he => absurd he (by simp)) fun _ _ h => by cases h

end

/-! ## Packets -/

theorem errorFits_dataBytes (blockno : UInt16) (data : Bytes) :
    ErrorFits (dataBytes blockno data) := fun h => by
  rw [packetOpcode, isData_dataBytes] at h
  exact absurd h (by decide)

theorem errorFits_ackBytes (blockno : UInt16) : ErrorFits (ackBytes blockno) := fun h => by
  rw [packetOpcode_ackBytes] at h
  exact absurd h (by decide)

theorem errorFits_oackBytes (option param : Bytes) : ErrorFits (oackBytes option param) :=
  fun h => by
    rw [packetOpcode_oackBytes] at h
    exact absurd h (by decide)

/-- An ERROR packet is larger than its message by the header and the NUL byte. -/
theorem errorFits_errorBytes_iff {errnum : ErrorCode} {msg : Bytes} :
    ErrorFits (errorBytes errnum msg) ↔ FitsPacket msg := by
  have hlen : (errorBytes errnum msg).length = msg.length + headerSize + 1 := by
    simp [errorBytes, headerSize]
    omega
  rw [ErrorFits, FitsPacket, hlen]
  exact ⟨fun h => h (packetOpcode_errorBytes errnum msg), fun h _ => h⟩

/-! ## What comes of a part of the handling -/

section

variable {s s₁ s' : State} {r : Reaction} (sys : Sys)

theorem errorsFit_ok_iff : ErrorsFit s (.ok s') ↔ ∀ p ∈ queuedBetween s s', ErrorFits p := by
  refine ⟨fun h => h.fits s' rfl, fun h => ⟨fun crash hcrash => ?_, fun s'' hs => ?_⟩⟩
  · cases hcrash
  · cases hs
    exact h

theorem errorsFit_crash_iff {crash : Crash} :
    ErrorsFit s (.error crash) ↔ crash.fault ≠ .assertion := by
  refine ⟨fun h => h.passes crash rfl, fun h => ⟨fun crash' hcrash => ?_, fun s'' hs => ?_⟩⟩
  · cases hcrash
    exact h
  · cases hs

theorem Reacts.errorsFit_iff (h : Reacts s r s') :
    ErrorsFit s (.ok s') ↔ ∀ p ∈ r.queued, ErrorFits p := by
  rw [errorsFit_ok_iff, h.queued_eq]

/-- An error at the end. -/
theorem errorsFit_error_iff (h : Reacts s r s₁) (errnum : ErrorCode) (buf : Bytes) :
    ErrorsFit s (error sys s₁.1 s₁.2 errnum buf) ↔
      (∀ p ∈ r.queued, ErrorFits p) ∧ FitsPacket buf := by
  rcases error_cases sys s₁.1 s₁.2 errnum buf with ⟨-, s', hs', hreact⟩ | ⟨hlarge, hcrash⟩
  · rw [hs', (h.trans hreact).errorsFit_iff, List.forall_mem_append, List.forall_mem_singleton,
      errorFits_errorBytes_iff]
  · rw [hcrash, errorsFit_crash_iff]
    refine iff_of_false (fun h => h rfl) fun h => hlarge ?_
    exact Nat.le_trans (Nat.le_succ _) h.2

/-- A file that is served. -/
theorem errorsFit_serveFile_iff (h : Reacts s r s₁) (q : Request) (path : Bytes) (tsize : Bool) :
    ErrorsFit s (serveFile sys s₁.1 s₁.2 q path tsize) ↔
      (∀ p ∈ r.queued, ErrorFits p) ∧
        ∀ e ∈ sys.fopen path q.readMode, FitsPacket (openMessage sys e) := by
  cases hopen : sys.fopen path q.readMode with
  | some e =>
    rw [serveFile_error sys _ _ q path hopen,
      errorsFit_error_iff sys (h.emit (.fopen path q.readMode))]
    exact and_congr_right fun _ => by simp [openMessage]
  | none =>
    have hnone : ∀ e ∈ (none : Option Errno), FitsPacket (openMessage sys e) := by simp
    rw [and_iff_left hnone]
    cases tsize with
    | true =>
      obtain ⟨s', hs', hreact⟩ := serveFile_tsize sys s₁.1 s₁.2 q path hopen
      rw [hs', (h.trans hreact).errorsFit_iff, List.forall_mem_append, List.forall_mem_singleton,
        and_iff_left (errorFits_oackBytes _ _)]
    | false =>
      cases hsending : s₁.2.sendingfile with
      | true =>
        obtain ⟨s', hs', hreact⟩ := serveFile_reopened sys s₁.1 s₁.2 q path hopen hsending
        rw [hs', (h.trans hreact).errorsFit_iff, List.append_nil]
      | false =>
        obtain ⟨s', hs', hreact⟩ := serveFile_started sys s₁.1 s₁.2 q path hopen hsending
        rw [hs', (h.trans hreact).errorsFit_iff, List.forall_mem_append,
          List.forall_mem_singleton, and_iff_left (errorFits_dataBytes _ _)]

/-- A file that is looked for, and served: after packets that fit. -/
theorem errorsFit_openForRead_iff (h : Reacts s r s₁) (hfit : ∀ p ∈ r.queued, ErrorFits p)
    (cfg : Config) (q : Request) (tsize : Bool) :
    ErrorsFit s (openForRead cfg sys s₁.1 s₁.2 q tsize) ↔ (sys.nomem = false →
      (¬sys.Finds (requestPath cfg q.filename) →
        FitsPacket (missingMessage (requestPath cfg q.filename))) ∧
      ∀ e ∈ sys.fopen (requestPath cfg q.filename) q.readMode, FitsPacket (openMessage sys e)) := by
  obtain ⟨es, hexists⟩ := fileExists_reacts sys s₁ (requestPath cfg q.filename)
  cases hmemory : sys.nomem with
  | true =>
    rw [openForRead, if_pos hmemory, errorsFit_crash_iff]
    exact iff_of_true (fun h => by cases h) fun h => absurd h (by decide)
  | false =>
    rw [imp_iff_right rfl]
    by_cases hfound : sys.Finds (requestPath cfg q.filename)
    · rw [openForRead_found cfg sys q s₁ tsize hmemory hfound,
        errorsFit_serveFile_iff sys (h.trans hexists), List.append_nil, and_iff_right hfit,
        and_iff_right fun hmissing => absurd hfound hmissing]
    · rw [openForRead, hmemory]
      dsimp only
      rw [if_neg Bool.false_ne_true, reportMissing_missing sys _ _ hfound]
      rcases error_cases sys (fileExists sys s₁.1 (requestPath cfg q.filename)).1 s₁.2 .nofile
        (missingMessage (requestPath cfg q.filename)) with ⟨-, s₂, hs₂, hreact⟩ | ⟨hlarge, hcrash⟩
      · rw [hs₂]
        dsimp only
        rw [errorsFit_serveFile_iff sys ((h.trans hexists).trans hreact), List.append_nil,
          List.forall_mem_append, List.forall_mem_singleton, errorFits_errorBytes_iff,
          and_iff_right hfit, imp_iff_right hfound]
      · -- The assertion fails: the text is too long for a packet.
        rw [hcrash, errorsFit_crash_iff]
        refine iff_of_false (fun h => h rfl) fun hmessages => hlarge ?_
        exact Nat.le_trans (Nat.le_succ _) (hmessages.1 hfound)

end

/-! ## Requests -/

section

variable (cfg : Config) (sys : Sys) (m : Machine) (c : Client)

theorem processRrq_errorsFit_iff (p : Bytes) (alloclen : ℕ) :
    ErrorsFit (m, c) (processRrq cfg sys m c p alloclen) ↔
      ((parseRequest p alloclen).Loggable sys →
        RrqTextsFit cfg sys (parseRequest p alloclen)) := by
  generalize hq : parseRequest p alloclen = q
  by_cases hloggable : q.Loggable sys
  swap
  · rw [processRrq_wild cfg sys m c q p alloclen hq hloggable, errorsFit_crash_iff]
    exact iff_of_true nofun fun h => absurd h hloggable
  obtain ⟨line, hline⟩ := hloggable.log false
  rw [forall_prop_of_true hloggable]
  have hlog := loggedState_reacts m c line
  have hnil : ∀ p ∈ ([] : List Bytes), ErrorFits p := fun p hp => absurd hp List.not_mem_nil
  rw [processRrq_eq cfg sys m c q p alloclen hq hline]
  generalize loggedState m c line = s at hlog ⊢
  cases hrefusal : rrqRefusal sys q with
  | some e =>
    rw [serveRrq_refused cfg sys s.1 s.2 q hrefusal, errorsFit_error_iff sys hlog,
      and_iff_right hnil]
    have hsome : ∀ {P : Prop}, rrqRefusal sys q = none → P :=
      fun hnone => by cases hrefusal.symm.trans hnone
    refine ⟨fun hfits => ⟨(rrqRefusal_fits_iff sys q).1 fun e' he => ?_, hsome, hsome⟩,
      fun htexts => (rrqRefusal_fits_iff sys q).2 htexts.range e hrefusal⟩
    cases hrefusal.symm.trans he
    exact hfits
  | none =>
    have hrange := (rrqRefusal_fits_iff sys q).1 fun e he => by cases hrefusal.symm.trans he
    have hread : RrqTextsFit cfg sys q ↔ (sys.nomem = false →
        (¬sys.Finds (requestPath cfg q.filename) →
          FitsPacket (missingMessage (requestPath cfg q.filename))) ∧
        ∀ e ∈ sys.fopen (requestPath cfg q.filename) q.readMode,
          FitsPacket (openMessage sys e)) := by
      simp only [fitsPacket_missing_iff, fitsPacket_open_iff]
      exact ⟨fun h hmemory => ⟨h.missing hrefusal hmemory, h.opened hrefusal hmemory⟩,
        fun h => ⟨hrange, fun _ hmemory => (h hmemory).1, fun _ hmemory => (h hmemory).2⟩⟩
    rw [hread]
    cases haccept : acceptedBlksize sys q with
    | none =>
      rw [serveRrq_plain cfg sys s.1 s.2 q hrefusal haccept]
      exact errorsFit_openForRead_iff sys hlog hnil cfg q _
    | some blksize =>
      rw [serveRrq_negotiated cfg sys s.1 s.2 q haccept]
      have hneg := negotiate_reacts sys s.1 s.2 q q.param blksize
      refine errorsFit_openForRead_iff sys (hlog.trans hneg) (fun p hp => ?_) cfg q _
      rw [List.mem_singleton.1 hp]
      exact errorFits_oackBytes _ _

theorem processWrq_errorsFit_iff (p : Bytes) (alloclen : ℕ) :
    ErrorsFit (m, c) (processWrq cfg sys m c p alloclen) ↔
      ((parseRequest p alloclen).Loggable sys →
        WrqTextsFit cfg sys (parseRequest p alloclen)) := by
  generalize hq : parseRequest p alloclen = q
  rcases processWrq_cases cfg sys m c q p alloclen hq with ⟨hwild, hcrash⟩ |
    ⟨hloggable, line, -, hcases⟩
  · rw [hcrash, errorsFit_crash_iff]
    exact iff_of_true nofun fun h => absurd h hwild
  rw [forall_prop_of_true hloggable]
  have hlog := loggedState_reacts m c line
  have hnil : ∀ p ∈ ([] : List Bytes), ErrorFits p := fun p hp => absurd hp List.not_mem_nil
  rcases hcases with ⟨e, hrefusal, heq⟩ | ⟨hrefusal, e, hopen, heq⟩ |
    ⟨hrefusal, hopen, s', f, hs', -, hreact⟩
  · rw [heq, errorsFit_error_iff sys hlog, and_iff_right hnil]
    refine ⟨fun hfits => ⟨(wrqRefusal_fits_iff cfg sys q).1 fun e' he => ?_, fun hnone => ?_⟩,
      fun htexts => (wrqRefusal_fits_iff cfg sys q).2 htexts.access e hrefusal⟩
    · cases hrefusal.symm.trans he
      exact hfits
    · cases hrefusal.symm.trans hnone
  · have hopened := hlog.emit (.fopen (requestPath cfg q.filename) q.writeMode)
    have haccess := (wrqRefusal_fits_iff cfg sys q).1 fun e' he => by cases hrefusal.symm.trans he
    rw [heq, errorsFit_error_iff sys hopened, and_iff_right hnil, fitsPacket_write_iff]
    refine ⟨fun hfits => ⟨haccess, fun _ e' he => ?_⟩, fun htexts => htexts.opened hrefusal e hopen⟩
    cases hopen.symm.trans he
    exact hfits
  · have haccess := (wrqRefusal_fits_iff cfg sys q).1 fun e' he => by cases hrefusal.symm.trans he
    rw [hs', hreact.errorsFit_iff, List.forall_mem_singleton]
    refine iff_of_true (errorFits_ackBytes 0) ⟨haccess, fun _ e he => ?_⟩
    cases hopen.symm.trans he

/-- The errors a request is answered with fit exactly if what their messages are made of is
    short enough. -/
theorem errors_fit_iff {op : Opcode} (hop : op ∈ [Opcode.rrq, .wrq]) {datagram : Bytes}
    (h : IsPacket op datagram) :
    ErrorsFit (m, c) (processDatagram cfg sys m c datagram) ↔ TextsFit cfg sys op datagram := by
  rw [TextsFit]
  rcases List.mem_pair.1 hop with rfl | rfl
  · rw [if_neg (by decide), processDatagram_rrq cfg sys m c h]
    exact processRrq_errorsFit_iff cfg sys m c _ _
  · rw [if_pos rfl, processDatagram_wrq cfg sys m c h]
    exact processWrq_errorsFit_iff cfg sys m c _ _

end

instance (s : State) : (outcome : Outcome) → Decidable (ErrorsFit s outcome)
  | .ok _ => decidable_of_iff _ errorsFit_ok_iff.symm
  | .error _ => decidable_of_iff _ errorsFit_crash_iff.symm

/-- A request for a file that is there leads to no message. -/
theorem errors_fit_sample :
    ErrorsFit (Sample.start []) (processDatagram Sample.config .ideal (Sample.start []).1
      (Sample.start []).2 (Sample.request .rrq [])) := by
  have hplain := (Sample.request_plain .rrq).plain
  refine (errors_fit_iff Sample.config .ideal _ _
    (show Opcode.rrq ∈ [Opcode.rrq, .wrq] by decide) (by decide +kernel)).2 ?_
  rw [TextsFit, if_neg (by decide)]
  refine fun _ => ⟨fun _ hopt => absurd hopt ?_,
    fun _ _ hmissing => absurd ⟨rfl, rfl, rfl⟩ hmissing, fun _ _ e he => absurd he nofun⟩
  rw [hplain.opt]
  decide

namespace Sample

/-- A request for a file with a name of 500 bytes, with an option that nobody knows. -/
def longRequest : Bytes :=
  htons Opcode.rrq.code ++ List.replicate 500 102 ++ [0] ++ ascii "octet" ++ [0] ++
    ascii "a" ++ [0] ++ ascii "1" ++ [0]

end Sample

/-- A file that is missing, and has a long name: its path does not fit into a packet, behind
    `File` and before `does not exist on the filesystem.` -/
theorem not_errors_fit :
    ¬∀ cfg sys m c op datagram, op ∈ [Opcode.rrq, .wrq] → IsPacket op datagram →
      ErrorsFit (m, c) (processDatagram cfg sys m c datagram) := by
  intro h
  have hlong : ¬ErrorsFit (Sample.start []) (processDatagram Sample.config Sample.bare
      (Sample.start []).1 (Sample.start []).2 Sample.longRequest) := by
    decide +kernel
  exact hlong (h _ _ _ _ .rrq _ (by decide) (by decide +kernel))

end Nbstftp
