import Nbstftp.Opening

/-!
# Reactions to requests

A read request is refused with an error (`rrqRefusal`), or opens its file, after
negotiating the block size it asks for (`acceptedBlksize`): `processRrq_cases`.
A write request is refused (`wrqRefusal`), or opens its file (`processWrq_cases`).

On a system that serves the path (`Sys.Serves`), or accepts it for writing
(`Sys.Accepts`), the reactions to requests without options, and to those for a
block size, are known in full (`processRrq_started`, `processRrq_reopened`,
`processRrq_negotiated`, `processWrq_started`).
-/

namespace Nbstftp

/-! ## Refusals -/

/-- The error a read request is refused with before any path is opened. -/
def rrqRefusal (sys : Sys) (q : Request) : Option (ErrorCode × Bytes) :=
  let blksize := strtol q.param
  if strcasecmp q.mode (ascii "mail") = 0 then
    some (.illegal, ascii "Mail mode not supported by NBSTFTP")
  else if strcasecmp q.opt (ascii "blksize") ≠ 0 then none
  else if blksize.2 then
    some (.option, ascii "Invalid block size " ++ q.param ++ ascii ": " ++
      sys.strerror .range ++ ascii " (" ++ decimal Errno.range.number ++ ascii ")")
  else if blksize.1 < 8 ∨ 65464 < blksize.1 then
    some (.option, ascii "Invalid block size " ++ decimalInt blksize.1)
  else none

/-- The block size a read request that is not refused asks for, if any. -/
def acceptedBlksize (sys : Sys) (q : Request) : Option ℕ :=
  if rrqRefusal sys q = none ∧ strcasecmp q.opt (ascii "blksize") = 0 then
    some (strtol q.param).1.toNat
  else none

/-- The error a write request is refused with before any path is opened. -/
def wrqRefusal (cfg : Config) (sys : Sys) (q : Request) : Option (ErrorCode × Bytes) :=
  if strcasecmp q.mode (ascii "mail") = 0 then
    some (.illegal, ascii "Mail mode not supported by NBSTFTP")
  else if sys.nomem then some (.undefined, ascii "Out of Memory")
  else if accessDenied cfg sys (requestPath cfg q.filename) then
    some (.nouser, ascii "Cannot access file: " ++ sys.strerror .acces)
  else none

/-- A transfer just negotiated. -/
def Transfer.negotiated (t : Transfer) (blksize : ℕ) : Transfer :=
  { t with sendingfile := true, currentblockno := 0, actualblockno := 0, blksize := blksize }

section

variable (cfg : Config) (sys : Sys) (m : Machine) (c : Client) (q : Request)

theorem serveRrq_refused {e : ErrorCode × Bytes} (h : rrqRefusal sys q = some e) :
    serveRrq cfg sys m c q = error sys m c e.1 e.2 := by
  rw [rrqRefusal] at h
  rw [serveRrq]
  split at h
  · cases h; rw [if_pos ‹_›]
  rw [if_neg ‹_›]
  split at h
  · cases h
  rw [if_pos (not_not.1 ‹_›)]
  split at h
  · cases h; exact if_pos ‹_›
  refine (if_neg ‹_›).trans ?_
  split at h
  · cases h; exact if_pos ‹_›
  · cases h

theorem serveRrq_negotiated {blksize : ℕ} (h : acceptedBlksize sys q = some blksize) :
    serveRrq cfg sys m c q =
      openForRead cfg sys (negotiate sys m c q q.param blksize).1
        (negotiate sys m c q q.param blksize).2 q false := by
  rw [acceptedBlksize] at h
  split at h
  · obtain ⟨hnone, hopt⟩ := ‹_ ∧ _›
    cases h
    rw [rrqRefusal] at hnone
    rw [serveRrq]
    split at hnone
    · cases hnone
    rw [if_neg ‹_›, if_pos hopt]
    rw [if_neg (not_not.2 hopt)] at hnone
    split at hnone
    · cases hnone
    refine (if_neg ‹_›).trans ?_
    split at hnone
    · cases hnone
    · exact if_neg ‹_›
  · cases h

theorem serveRrq_plain (h : rrqRefusal sys q = none) (h' : acceptedBlksize sys q = none) :
    serveRrq cfg sys m c q =
      openForRead cfg sys m c q (strcasecmp q.opt (ascii "tsize") = 0) := by
  have hopt : strcasecmp q.opt (ascii "blksize") ≠ 0 := fun hopt => by
    rw [acceptedBlksize, if_pos ⟨h, hopt⟩] at h'
    cases h'
  rw [rrqRefusal] at h
  split at h
  · cases h
  · rw [serveRrq, if_neg ‹_›, if_neg hopt]

/-- An acceptable block size is one the block buffer is meant for. -/
theorem acceptedBlksize_bounds {blksize : ℕ} (h : acceptedBlksize sys q = some blksize) :
    8 ≤ blksize ∧ blksize ≤ 65464 := by
  rw [acceptedBlksize] at h
  split at h
  · obtain ⟨hnone, hopt⟩ := ‹_ ∧ _›
    cases h
    rw [rrqRefusal] at hnone
    split at hnone
    · cases hnone
    rw [if_neg (not_not.2 hopt)] at hnone
    split at hnone
    · cases hnone
    split at hnone
    · cases hnone
    · omega
  · cases h

theorem negotiate_reacts (optparam : Bytes) (blksize : ℕ) :
    Reacts (m, c)
      ⟨c.transfer.negotiated blksize, [oackBytes q.opt optparam], m.files, []⟩
      (negotiate sys m c q optparam blksize) := by
  have h := optionAcknowledge_reacts sys m c q.opt optparam
  exact ⟨congrArg (·.negotiated blksize) h.transfer, h.identity, h.queue, h.files, h.effects⟩

/-! ## Logging -/

/-- The string at the pointer to the parameter can be printed. -/
def Request.Loggable : Prop := q.optparam = none → sys.uninit ≠ none

instance : Decidable (q.Loggable sys) := inferInstanceAs (Decidable (_ → _))

/-- A parameter is read if the option is not empty. -/
theorem parseRequest_optparam (p : Bytes) (alloclen : ℕ) :
    (parseRequest p alloclen).optparam = none ↔ (parseRequest p alloclen).opt = [] := by
  have hlen (data maxlen : ℕ) : strnlen (getNext p data maxlen).1 maxlen ≠ 0 ↔
      (getNext p data maxlen).1 ≠ [] := by
    rw [getNext, strnlen_strndup, Ne, List.length_eq_zero_iff]
  simp only [parseRequest, hlen]
  split_ifs with h <;> simp_all

variable {sys} in
/-- A request with an option can be logged. -/
theorem loggable_of_opt {p : Bytes} {alloclen : ℕ} (h : (parseRequest p alloclen).opt ≠ []) :
    (parseRequest p alloclen).Loggable sys :=
  fun hnone => absurd ((parseRequest_optparam p alloclen).1 hnone) h

variable {q} in
theorem loggable_of_acceptedBlksize {p : Bytes} {alloclen : ℕ} (hq : parseRequest p alloclen = q)
    {blksize : ℕ} (h : acceptedBlksize sys q = some blksize) : q.Loggable sys := by
  subst hq
  refine loggable_of_opt fun hopt => ?_
  rw [acceptedBlksize, hopt] at h
  split at h
  · rename_i hblksize
    exact absurd hblksize.2 (by decide)
  · cases h

/-- The state a request is served from: the packet sent again released, and the
    request logged. -/
def loggedState (line : Effect) : State :=
  ((releaseLastpacket m c).1.emit line, (releaseLastpacket m c).2)

theorem loggedState_reacts (line : Effect) :
    Reacts (m, c) ⟨c.transfer, [], m.files, releaseEffects c ++ [line]⟩ (loggedState m c line) :=
  (releaseLastpacket_reacts m c).emit _

variable {q sys} in
/-- The line logged has the fields of the request. -/
theorem log_some {write : Bool} {line : Effect} (h : q.log sys write = some line) :
    ∃ param, q.optparam.or sys.uninit = some param ∧
      line = .logRequest write q.filename q.mode q.opt param := by
  obtain ⟨param, hparam, rfl⟩ := Option.map_eq_some_iff.1 h
  exact ⟨param, hparam, rfl⟩

variable {q sys} in
theorem Request.Loggable.log (h : q.Loggable sys) (write : Bool) :
    ∃ line, q.log sys write = some line := by
  rw [Request.Loggable] at h
  rw [Request.log]
  cases hparam : q.optparam with
  | some param => exact ⟨_, rfl⟩
  | none =>
    obtain ⟨s, hs⟩ := Option.ne_none_iff_exists'.1 (h hparam)
    exact ⟨_, by rw [hs]; rfl⟩

variable {q sys} in
theorem log_eq_none (h : ¬q.Loggable sys) (write : Bool) : q.log sys write = none := by
  obtain ⟨hparam, huninit⟩ := Classical.not_imp.1 h
  rw [Request.log, hparam, not_not.1 huninit]
  rfl

variable {q sys} in
theorem opened_logged {write : Bool} {line : Effect} (h : q.log sys write = some line) :
    opened (releaseEffects c ++ [line]) = [] := by
  obtain ⟨param, -, rfl⟩ := log_some h
  rw [opened_append, opened_releaseEffects]
  rfl

variable (p : Bytes) (alloclen : ℕ)

theorem processRrq_eq (hq : parseRequest p alloclen = q) {line : Effect}
    (hline : q.log sys false = some line) : processRrq cfg sys m c p alloclen =
      serveRrq cfg sys (loggedState m c line).1 (loggedState m c line).2 q := by
  rw [processRrq, hq]
  simp only [hline]
  rfl

theorem processWrq_eq (hq : parseRequest p alloclen = q) {line : Effect}
    (hline : q.log sys true = some line) : processWrq cfg sys m c p alloclen =
      serveWrq cfg sys (loggedState m c line).1 (loggedState m c line).2 q := by
  rw [processWrq, hq]
  simp only [hline]
  rfl

theorem processRrq_wild (hq : parseRequest p alloclen = q) (h : ¬q.Loggable sys) :
    processRrq cfg sys m c p alloclen = .error ⟨.wildPointer, (releaseLastpacket m c).1⟩ := by
  rw [processRrq, hq]
  simp only [log_eq_none h]

theorem processWrq_wild (hq : parseRequest p alloclen = q) (h : ¬q.Loggable sys) :
    processWrq cfg sys m c p alloclen = .error ⟨.wildPointer, (releaseLastpacket m c).1⟩ := by
  rw [processWrq, hq]
  simp only [log_eq_none h]

/-! ## Read requests -/

/-- A read request that can be logged is refused, or opens its path: from the transfer
    as it was, or from one just negotiated. -/
theorem processRrq_cases (hq : parseRequest p alloclen = q) :
    (¬q.Loggable sys ∧ processRrq cfg sys m c p alloclen =
      .error ⟨.wildPointer, (releaseLastpacket m c).1⟩) ∨
    q.Loggable sys ∧
      ((∃ e line, q.log sys false = some line ∧ rrqRefusal sys q = some e ∧
        processRrq cfg sys m c p alloclen =
          error sys (loggedState m c line).1 (loggedState m c line).2 e.1 e.2) ∨
      (rrqRefusal sys q = none ∧ acceptedBlksize sys q = none ∧
        Opening (requestPath cfg q.filename) c.transfer (m, c)
          (processRrq cfg sys m c p alloclen)) ∨
      ∃ blksize, rrqRefusal sys q = none ∧ acceptedBlksize sys q = some blksize ∧
        Opening (requestPath cfg q.filename) (c.transfer.negotiated blksize) (m, c)
          (processRrq cfg sys m c p alloclen)) := by
  by_cases hloggable : q.Loggable sys
  swap
  · exact .inl ⟨hloggable, processRrq_wild cfg sys m c q p alloclen hq hloggable⟩
  refine .inr ⟨hloggable, ?_⟩
  obtain ⟨line, hline⟩ := hloggable.log false
  have hlog := loggedState_reacts m c line
  have htmp : ∀ r ∈ opened (releaseEffects c ++ [line]), r = requestPath cfg q.filename := by
    rw [opened_logged c hline]
    exact fun r hr => absurd hr List.not_mem_nil
  rw [processRrq_eq cfg sys m c q p alloclen hq hline]
  cases hrefusal : rrqRefusal sys q with
  | some e =>
    exact .inl ⟨e, line, hline, rfl, serveRrq_refused cfg sys _ _ q hrefusal⟩
  | none =>
    generalize loggedState m c line = s at hlog ⊢
    cases haccept : acceptedBlksize sys q with
    | none =>
      refine .inr (.inl ⟨rfl, rfl, ?_⟩)
      rw [serveRrq_plain cfg sys s.1 s.2 q hrefusal haccept]
      exact .after hlog rfl (fun r hr => absurd hr List.not_mem_nil) htmp
        (openForRead_opening sys s.1 s.2 q cfg _)
    | some blksize =>
      -- The transfer starts from what was negotiated, after the acknowledgement.
      refine .inr (.inr ⟨blksize, rfl, rfl, ?_⟩)
      rw [serveRrq_negotiated cfg sys s.1 s.2 q haccept]
      have hneg := negotiate_reacts sys s.1 s.2 q q.param blksize
      rw [hlog.transfer] at hneg
      refine .after (hlog.trans hneg) rfl (fun r hr => ?_) (by rwa [List.append_nil])
        (openForRead_opening sys _ _ q cfg false)
      rw [List.mem_singleton.1 hr]
      exact not_isData_oackBytes _ _

/-! ## Write requests -/

theorem serveWrq_refused {e : ErrorCode × Bytes} (h : wrqRefusal cfg sys q = some e) :
    serveWrq cfg sys m c q = error sys m c e.1 e.2 := by
  rw [wrqRefusal] at h
  rw [serveWrq]
  split at h
  · cases h; rw [if_pos ‹_›]
  rw [if_neg ‹_›]
  split at h
  · cases h; rw [if_pos ‹_›]
  rw [if_neg ‹_›]
  split at h
  · cases h; exact if_pos ‹_›
  · cases h

/-- A write request that is not refused opens its file. -/
theorem serveWrq_open (h : wrqRefusal cfg sys q = none) :
    serveWrq cfg sys m c q =
      match m.fopen sys (requestPath cfg q.filename) q.writeMode with
      | (m, .error e) => error sys m c .nofile (ascii "Cannot write file: " ++ sys.strerror e)
      | (m, .ok f) => .ok (acknowledge sys (m.callEvent .newWriteRequest)
          { c with f := some f, currentblockno := 1, actualblockno := 1, sendingfile := true }
          0) := by
  rw [wrqRefusal] at h
  rw [serveWrq]
  split at h
  · cases h
  rw [if_neg ‹_›]
  split at h
  · cases h
  rw [if_neg ‹_›]
  split at h
  · cases h
  · exact if_neg ‹_›

/-- A transfer that has just opened its file. -/
def Transfer.begun (t : Transfer) (f : File) : Transfer :=
  { t with f := some f, sendingfile := true, currentblockno := 1, actualblockno := 1 }

/-- A write request that can be logged is refused, fails to open its file, or starts
    the transfer. -/
theorem processWrq_cases (hq : parseRequest p alloclen = q) :
    (¬q.Loggable sys ∧ processWrq cfg sys m c p alloclen =
      .error ⟨.wildPointer, (releaseLastpacket m c).1⟩) ∨
    q.Loggable sys ∧ ∃ line, q.log sys true = some line ∧
      ((∃ e, wrqRefusal cfg sys q = some e ∧ processWrq cfg sys m c p alloclen =
        error sys (loggedState m c line).1 (loggedState m c line).2 e.1 e.2) ∨
      (wrqRefusal cfg sys q = none ∧
        ∃ e, sys.fopen (requestPath cfg q.filename) q.writeMode = some e ∧
          processWrq cfg sys m c p alloclen =
            error sys
              ((loggedState m c line).1.emit (.fopen (requestPath cfg q.filename) q.writeMode))
              (loggedState m c line).2 .nofile
              (ascii "Cannot write file: " ++ sys.strerror e)) ∨
      (wrqRefusal cfg sys q = none ∧
        sys.fopen (requestPath cfg q.filename) q.writeMode = none ∧
        ∃ s' f, processWrq cfg sys m c p alloclen = .ok s' ∧
          f.On true (requestPath cfg q.filename) 0 ∧
          Reacts (m, c)
            ⟨c.transfer.begun f, [ackBytes 0],
              Function.update m.files (requestPath cfg q.filename) [],
              releaseEffects c ++ [line] ++
                [.fopen (requestPath cfg q.filename) q.writeMode, .event .newWriteRequest]⟩
            s')) := by
  by_cases hloggable : q.Loggable sys
  swap
  · exact .inl ⟨hloggable, processWrq_wild cfg sys m c q p alloclen hq hloggable⟩
  obtain ⟨line, hline⟩ := hloggable.log true
  refine .inr ⟨hloggable, line, hline, ?_⟩
  have hlog := loggedState_reacts m c line
  rw [processWrq_eq cfg sys m c q p alloclen hq hline]
  generalize loggedState m c line = s at hlog ⊢
  cases hrefusal : wrqRefusal cfg sys q with
  | some e => exact .inl ⟨e, rfl, serveWrq_refused cfg sys s.1 s.2 q hrefusal⟩
  | none =>
    rw [serveWrq_open cfg sys s.1 s.2 q hrefusal]
    cases hopen : sys.fopen (requestPath cfg q.filename) q.writeMode with
    | some e =>
      rw [s.1.fopen_error hopen]
      exact .inr (.inl ⟨rfl, e, rfl, rfl⟩)
    | none =>
      -- The file is emptied, and ACK 0 asks for the first block.
      rw [s.1.fopen_ok_writes hopen q.writeMode_writes]
      refine .inr (.inr ⟨rfl, rfl, _,
        ⟨s.1.nextfile, requestPath cfg q.filename, 0, q.writeMode⟩, rfl,
        ⟨rfl, rfl, q.writeMode_writes⟩, .queues (acknowledge_reacts sys _ _ 0)
          (congrArg (Transfer.begun · _) hlog.transfer) hlog.identity (hlog.packetqueue_eq rfl)
          ?_ ?_⟩)
      · exact congrArg (Function.update · _ _) hlog.files
      · simp [Machine.callEvent, Machine.emit, hlog.effects]

end

/-! ## When the system calls succeed -/

/-- The system serves a path: it is a file that can be opened and read, in full. -/
structure Sys.Serves (sys : Sys) (path : Bytes) : Prop where
  memory : sys.nomem = false
  stat : sys.stat path = some false
  fopen : ∀ mode, sys.fopen path mode = none
  access : sys.access path .readOK = none
  fread : ∀ n, n ≤ sys.fread n

/-- The system accepts a path for writing, in full. -/
structure Sys.Accepts (sys : Sys) (cfg : Config) (path : Bytes) : Prop where
  memory : sys.nomem = false
  access : accessDenied cfg sys path = false
  fopen : ∀ mode, sys.fopen path mode = none
  fwrite : ∀ n ≤ pktlen, n ≤ sys.fwrite n

/-- A request without options, not in mail mode. -/
structure Request.Plain (q : Request) : Prop where
  not_mail : strcasecmp q.mode (ascii "mail") ≠ 0
  opt : q.opt = []

theorem Request.Plain.rrqRefusal {q : Request} (hq : q.Plain) (sys : Sys) :
    Nbstftp.rrqRefusal sys q = none := by
  rw [Nbstftp.rrqRefusal, if_neg hq.not_mail, hq.opt]
  rfl

theorem Request.Plain.acceptedBlksize {q : Request} (hq : q.Plain) (sys : Sys) :
    Nbstftp.acceptedBlksize sys q = none := by
  rw [Nbstftp.acceptedBlksize, if_neg]
  rintro ⟨-, hopt⟩
  rw [hq.opt] at hopt
  exact absurd hopt (by decide)

section

variable {cfg : Config} {sys : Sys} (m : Machine) (c : Client) {q : Request} {path : Bytes}

/-- Opening a path that is served goes on to the file at once. -/
theorem openForRead_serves (hsys : sys.Serves path) (hpath : requestPath cfg q.filename = path)
    (tsize : Bool) :
    ∃ m₁, openForRead cfg sys m c q tsize = serveFile sys m₁ c q path tsize ∧
      m₁.files = m.files ∧ m₁.effects = m.effects ++ [.fopen path .r, .fclose m.nextfile] := by
  refine ⟨(fileExists sys m path).1, ?_, (fileExists_spec sys m path).1, ?_⟩
  · rw [openForRead, hsys.memory, hpath]
    simp [reportMissing, fileExists, hsys.stat, m.fopen_ok (hsys.fopen .r) rfl, hsys.access]
  · simp [fileExists, hsys.stat, m.fopen_ok (hsys.fopen .r) rfl, Machine.fclose, Machine.emit]

/-- A path served to a client that is sending already replaces its file. -/
theorem openForRead_reopened (hsys : sys.Serves path) (hpath : requestPath cfg q.filename = path)
    (h : c.sendingfile = true) :
    ∃ s' f es, openForRead cfg sys m c q false = .ok s' ∧ f.On false path 0 ∧
      Reacts (m, c) ⟨{ c.transfer with f := some f }, [], m.files, es⟩ s' := by
  obtain ⟨m₁, hopen, hfiles, heffects⟩ := openForRead_serves m c hsys hpath false
  obtain ⟨s', hs', hreact⟩ := serveFile_reopened sys m₁ c q path (hsys.fopen _) h
  rw [hfiles] at hreact
  exact ⟨s', ⟨m₁.nextfile, path, 0, q.readMode⟩, _, hopen.trans hs',
    ⟨rfl, rfl, q.readMode_writes⟩, Reacts.trans (.silent rfl rfl rfl hfiles heffects) hreact⟩

/-- A path served to a client that is not sending: its first block is sent. -/
theorem openForRead_started (hsys : sys.Serves path) (hpath : requestPath cfg q.filename = path)
    (h : c.sendingfile = false) :
    ∃ s' f es, openForRead cfg sys m c q false = .ok s' ∧
      f.On false path ((m.files path).take 512).length ∧
      Reacts (m, c) ⟨c.transfer.begun f, [dataBytes 1 ((m.files path).take 512)], m.files, es⟩
        s' := by
  obtain ⟨m₁, hopen, hfiles, heffects⟩ := openForRead_serves m c hsys hpath false
  obtain ⟨s', hs', hreact⟩ := serveFile_started sys m₁ c q path (hsys.fopen _) h
  have hf₀ : File.On ⟨m₁.nextfile, path, 0, q.readMode⟩ false path 0 :=
    ⟨rfl, rfl, q.readMode_writes⟩
  obtain ⟨hdata, hf⟩ := m₁.fread_eq hsys.fread hf₀ 512
  rw [List.drop_zero, hfiles] at hdata
  rw [Nat.zero_add, List.drop_zero, hfiles] at hf
  rw [hdata, hfiles] at hreact
  exact ⟨s', _, _, hopen.trans hs', hf,
    Reacts.trans (.silent rfl rfl rfl hfiles heffects) hreact⟩

variable {p : Bytes} {alloclen : ℕ}

/-- A read request without options goes straight to its path. -/
theorem processRrq_plain (cfg : Config) (sys : Sys) (hq : parseRequest p alloclen = q)
    (hplain : q.Plain) (hloggable : q.Loggable sys) :
    ∃ line, processRrq cfg sys m c p alloclen =
      openForRead cfg sys (loggedState m c line).1 (loggedState m c line).2 q false := by
  have htsize : decide (strcasecmp q.opt (ascii "tsize") = 0) = false := by
    rw [hplain.opt]
    decide
  obtain ⟨line, hline⟩ := hloggable.log false
  refine ⟨line, ?_⟩
  rw [processRrq_eq cfg sys m c q p alloclen hq hline, ← htsize]
  exact serveRrq_plain cfg sys _ _ q (hplain.rrqRefusal sys) (hplain.acceptedBlksize sys)

/-- It replaces the file of a client that is sending already. -/
theorem processRrq_reopened (hsys : sys.Serves path) (hq : parseRequest p alloclen = q)
    (hplain : q.Plain) (hloggable : q.Loggable sys)
    (hpath : requestPath cfg q.filename = path) (h : c.sendingfile = true) :
    ∃ s' f es, processRrq cfg sys m c p alloclen = .ok s' ∧ f.On false path 0 ∧
      Reacts (m, c) ⟨{ c.transfer with f := some f }, [], m.files, es⟩ s' := by
  obtain ⟨line, hplain⟩ := processRrq_plain m c cfg sys hq hplain hloggable
  have hlog := loggedState_reacts m c line
  rw [hplain]
  generalize loggedState m c line = s at hlog ⊢
  obtain ⟨s', f, es, hs', hf, hreact⟩ := openForRead_reopened s.1 s.2 hsys hpath
    ((congrArg Transfer.sendingfile hlog.transfer).trans h)
  rw [hlog.transfer, hlog.files] at hreact
  exact ⟨s', f, _, hs', hf, hlog.trans hreact⟩

/-- It starts the transfer of a client that is not sending, with its first block. -/
theorem processRrq_started (hsys : sys.Serves path) (hq : parseRequest p alloclen = q)
    (hplain : q.Plain) (hloggable : q.Loggable sys)
    (hpath : requestPath cfg q.filename = path) (h : c.sendingfile = false) :
    ∃ s' f es, processRrq cfg sys m c p alloclen = .ok s' ∧
      f.On false path ((m.files path).take 512).length ∧
      Reacts (m, c) ⟨c.transfer.begun f, [dataBytes 1 ((m.files path).take 512)], m.files, es⟩
        s' := by
  obtain ⟨line, hplain⟩ := processRrq_plain m c cfg sys hq hplain hloggable
  have hlog := loggedState_reacts m c line
  rw [hplain]
  generalize loggedState m c line = s at hlog ⊢
  obtain ⟨s', f, es, hs', hf, hreact⟩ := openForRead_started s.1 s.2 hsys hpath
    ((congrArg Transfer.sendingfile hlog.transfer).trans h)
  rw [hlog.transfer, hlog.files] at hreact
  rw [hlog.files] at hf
  exact ⟨s', f, _, hs', hf, hlog.trans hreact⟩

/-- A read request for a block size starts the transfer before the first block. -/
theorem processRrq_negotiated (hsys : sys.Serves path) (hq : parseRequest p alloclen = q)
    {blksize : ℕ} (haccept : acceptedBlksize sys q = some blksize)
    (hpath : requestPath cfg q.filename = path) :
    ∃ s' f es, processRrq cfg sys m c p alloclen = .ok s' ∧ f.On false path 0 ∧
      Reacts (m, c)
        ⟨{ c.transfer.negotiated blksize with f := some f }, [oackBytes q.opt q.param],
          m.files, es⟩ s' := by
  obtain ⟨line, hline⟩ := (loggable_of_acceptedBlksize sys hq haccept).log false
  have hlog := loggedState_reacts m c line
  rw [processRrq_eq cfg sys m c q p alloclen hq hline]
  generalize loggedState m c line = s at hlog ⊢
  rw [serveRrq_negotiated cfg sys s.1 s.2 q haccept]
  have hneg := negotiate_reacts sys s.1 s.2 q q.param blksize
  generalize negotiate sys s.1 s.2 q q.param blksize = s₁ at hneg ⊢
  obtain ⟨s', f, es, hs', hf, hreact⟩ := openForRead_reopened s₁.1 s₁.2 hsys hpath
    (congrArg Transfer.sendingfile hneg.transfer)
  rw [hneg.transfer, hlog.transfer, hneg.files, hlog.files] at hreact
  exact ⟨s', f, _, hs', hf, (hlog.trans hneg).trans hreact⟩

/-- A write request starts the transfer, with an empty file; options are ignored. -/
theorem processWrq_started (hsys : sys.Accepts cfg path) (hq : parseRequest p alloclen = q)
    (hmail : strcasecmp q.mode (ascii "mail") ≠ 0) (hloggable : q.Loggable sys)
    (hpath : requestPath cfg q.filename = path) :
    ∃ s' f es, processWrq cfg sys m c p alloclen = .ok s' ∧ f.On true path 0 ∧
      Reacts (m, c) ⟨c.transfer.begun f, [ackBytes 0], Function.update m.files path [], es⟩
        s' := by
  have hrefusal : wrqRefusal cfg sys q = none := by
    simp [wrqRefusal, hmail, hsys.memory, hpath, hsys.access]
  rcases processWrq_cases cfg sys m c q p alloclen hq with ⟨hwild, -⟩ |
    ⟨-, line, -, ⟨e, he, -⟩ | ⟨-, e, he, -⟩ | ⟨-, -, s', f, hs', hf, hreact⟩⟩
  · exact absurd hloggable hwild
  · cases hrefusal.symm.trans he
  · cases (hsys.fopen _).symm.trans (hpath ▸ he)
  · rw [hpath] at hf hreact
    exact ⟨s', f, _, hs', hf, hreact⟩

end

end Nbstftp
