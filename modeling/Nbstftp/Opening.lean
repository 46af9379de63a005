import Nbstftp.Block

/-!
# Opening a file for reading

A read request that is not refused leads to the opening of a file
(`openForRead`). `Opening` sums up what comes of that for any outcome of the
system calls, down to the crashes: the transfer starts or stays as it was
(`ReadStart`), the first block is the only DATA packet queued, and no path but
that of the request is opened (`openForRead_opening`).
-/

namespace Nbstftp

/-! ## Kinds of packets -/

/-- A packet that carries a block. -/
def IsData (packet : Bytes) : Prop := ntohs packet 0 = Opcode.data.code

instance (packet : Bytes) : Decidable (IsData packet) :=
  inferInstanceAs (Decidable (_ = _))

theorem isData_dataBytes (blockno : UInt16) (data : Bytes) : IsData (dataBytes blockno data) := by
  rw [IsData, dataBytes, List.append_assoc, ntohs_htons_append]

/-- The fields of a DATA packet: its block number and its payload. -/
theorem ntohs_dataBytes (blockno : UInt16) (data : Bytes) :
    ntohs (dataBytes blockno data) 2 = blockno := by
  rw [dataBytes, List.append_assoc, ntohs_htons_append_two, ntohs_htons_append]

theorem drop_dataBytes (blockno : UInt16) (data : Bytes) :
    (dataBytes blockno data).drop headerSize = data :=
  rfl

theorem not_isData_ackBytes (blockno : UInt16) : ¬IsData (ackBytes blockno) := by
  rw [IsData, ackBytes, ntohs_htons_append]
  decide

theorem not_isData_errorBytes (errnum : ErrorCode) (msg : Bytes) :
    ¬IsData (errorBytes errnum msg) := by
  rw [IsData, errorBytes, List.append_assoc, List.append_assoc, ntohs_htons_append]
  decide

theorem not_isData_oackBytes (option param : Bytes) : ¬IsData (oackBytes option param) := by
  -- The writes that follow that of the opcode are behind it.
  rw [IsData, oackBytes, ntohs_poke, ntohs_poke, ntohs_poke, ntohs_poke, poke]
  · simp only [List.take_zero, Nat.zero_sub, List.replicate_zero, List.nil_append,
      ntohs_htons_append]
    decide
  all_goals omega

/-! ## Opening a file -/

/-- The path of an `fopen`. -/
def Effect.openedPath : Effect → Option Bytes
  | .fopen path _ => some path
  | _ => none

/-- The paths opened by some calls. -/
def opened (es : List Effect) : List Bytes := es.filterMap Effect.openedPath

theorem opened_append (es es' : List Effect) : opened (es ++ es') = opened es ++ opened es' :=
  List.filterMap_append

@[simp] theorem opened_releaseEffects (c : Client) : opened (releaseEffects c) = [] := by
  rw [releaseEffects]
  split
  · split <;> rfl
  · rfl

/-- How a read may start from a transfer, and the packets queued then: whether
    the client is marked for destruction is left open. -/
inductive ReadStart (t : Transfer) : Transfer → List Bytes → Prop
  /-- The transfer stays as it was. -/
  | refused (destroy : Bool) (qs : List Bytes) (hqs : ∀ q ∈ qs, ¬IsData q) :
      ReadStart t { t with destroy := destroy } qs
  /-- A transfer that is on already gets a handle, the counters are kept. -/
  | reopened (destroy : Bool) (qs : List Bytes) (hqs : ∀ q ∈ qs, ¬IsData q)
      (hsending : t.sendingfile = true) (f : File) :
      ReadStart t { t with destroy := destroy, f := some f } qs
  /-- The first block is sent. -/
  | started (destroy : Bool) (qs : List Bytes) (hqs : ∀ q ∈ qs, ¬IsData q)
      (hsending : t.sendingfile = false) (f : File) (data : Bytes) :
      ReadStart t { t with
        destroy := destroy, f := some f, sendingfile := true
        currentblockno := 1, actualblockno := 1 } (qs ++ [dataBytes 1 data])

/-- What comes of opening the path `tmp` to start a read from the transfer `t`. -/
inductive Opening (tmp : Bytes) (t : Transfer) (s : State) : Outcome → Prop
  | crash (fault : Fault) (m : Machine) (es : List Effect) (hfault : fault ≠ .overflow)
      (hes : m.effects = s.1.effects ++ es) (htmp : ∀ p ∈ opened es, p = tmp) :
      Opening tmp t s (.error ⟨fault, m⟩)
  | ok (t' : Transfer) (qs : List Bytes) (files : Bytes → Bytes) (es : List Effect) (s' : State)
      (hstart : ReadStart t t' qs) (h : Reacts s ⟨t', qs, files, es⟩ s')
      (hopen : opened es ≠ []) (htmp : ∀ p ∈ opened es, p = tmp) : Opening tmp t s (.ok s')

/-- A read may start after packets that carry no block, and marking the client. -/
theorem ReadStart.after {t t' : Transfer} {qs qs₀ : List Bytes} {destroy : Bool}
    (h : ReadStart { t with destroy := destroy } t' qs) (hqs₀ : ∀ q ∈ qs₀, ¬IsData q) :
    ReadStart t t' (qs₀ ++ qs) := by
  have happend : ∀ {qs}, (∀ q ∈ qs, ¬IsData q) → ∀ q ∈ qs₀ ++ qs, ¬IsData q :=
    fun hqs q hq => (List.mem_append.1 hq).elim (hqs₀ q) (hqs q)
  cases h with
  | refused d qs hqs => exact .refused d _ (happend hqs)
  | reopened d qs hqs hsending f =>
    exact .reopened d _ (happend hqs) (show t.sendingfile = true from hsending) f
  | started d qs hqs hsending f data =>
    rw [← List.append_assoc]
    exact .started d _ (happend hqs) (show t.sendingfile = false from hsending) f data

/-- An opening may follow packets that carry no block, and marking the client. -/
theorem Opening.after {tmp : Bytes} {t : Transfer} {s s' : State} {r : Reaction} {o : Outcome}
    (h : Reacts s r s') (ht : r.transfer = { t with destroy := r.transfer.destroy })
    (hqs : ∀ q ∈ r.queued, ¬IsData q) (htmp : ∀ p ∈ opened r.effects, p = tmp)
    (ho : Opening tmp s'.2.transfer s' o) : Opening tmp t s o := by
  have happend : ∀ {es'}, (∀ p ∈ opened es', p = tmp) →
      ∀ p ∈ opened (r.effects ++ es'), p = tmp := by
    intro es' htmp' p hp
    rw [opened_append, List.mem_append] at hp
    exact hp.elim (htmp p) (htmp' p)
  cases ho with
  | crash fault m es' hfault hes' htmp' =>
    refine .crash fault m (r.effects ++ es') hfault ?_ (happend htmp')
    rw [hes', h.effects, List.append_assoc]
  | ok t' qs' files' es' s'' hstart h' hopen htmp' =>
    rw [h.transfer, ht] at hstart
    refine .ok t' _ files' _ s'' (hstart.after hqs) (h.trans h') ?_ (happend htmp')
    rw [opened_append]
    exact List.append_ne_nil_of_right_ne_nil _ hopen

namespace Machine

variable {sys : Sys} (m : Machine) {path : Bytes} {mode : OpenMode}

theorem fopen_error {e : Errno} (h : sys.fopen path mode = some e) :
    m.fopen sys path mode = (m.emit (.fopen path mode), .error e) := by
  simp only [fopen, h]

/-- A file opened for reading. -/
theorem fopen_ok (h : sys.fopen path mode = none) (hmode : mode.writes = false) :
    m.fopen sys path mode =
      ({ m.emit (.fopen path mode) with nextfile := m.nextfile + 1 },
        .ok ⟨m.nextfile, path, 0, mode⟩) := by
  simp [fopen, h, hmode, emit]

/-- A file opened for writing. -/
theorem fopen_ok_writes (h : sys.fopen path mode = none) (hmode : mode.writes = true) :
    m.fopen sys path mode =
      ({ m.emit (.fopen path mode) with
          nextfile := m.nextfile + 1, files := Function.update m.files path [] },
        .ok ⟨m.nextfile, path, 0, mode⟩) := by
  simp [fopen, h, hmode, emit]

end Machine

theorem Request.readMode_writes (q : Request) : q.readMode.writes = false := by
  rw [readMode]
  split <;> rfl

theorem Request.writeMode_writes (q : Request) : q.writeMode.writes = true := by
  rw [writeMode]
  split <;> rfl

/-- Handling an error is a reaction, or fails an assertion. -/
theorem error_cases (sys : Sys) (m : Machine) (c : Client) (errnum : ErrorCode) (buf : Bytes) :
    (buf.length + headerSize ≤ maxPacketSize ∧ ∃ s', error sys m c errnum buf = .ok s' ∧
      Reacts (m, c) ⟨{ c.transfer with destroy := true }, [errorBytes errnum buf], m.files, []⟩
        s') ∨
    (¬buf.length + headerSize ≤ maxPacketSize ∧
      error sys m c errnum buf = .error ⟨.assertion, m⟩) := by
  by_cases h : buf.length + headerSize ≤ maxPacketSize
  · exact .inl ⟨h, error_reacts sys m c h⟩
  · exact .inr ⟨h, error_crashes sys m c h⟩

section Opening

variable (sys : Sys) (m : Machine) (c : Client) (q : Request) (tmp : Bytes)

/-- What `FileExists` does: at most opening the path and closing it again. -/
theorem fileExists_spec :
    (fileExists sys m tmp).1.files = m.files ∧
      ∃ es, (fileExists sys m tmp).1.effects = m.effects ++ es ∧ ∀ p ∈ opened es, p = tmp := by
  have hnone : ∃ es, m.effects = m.effects ++ es ∧ ∀ p ∈ opened es, p = tmp :=
    ⟨[], (List.append_nil _).symm, fun _ hp => absurd hp List.not_mem_nil⟩
  rw [fileExists]
  cases hstat : sys.stat tmp with
  | none => exact ⟨rfl, hnone⟩
  | some dir =>
    cases dir with
    | true => exact ⟨rfl, hnone⟩
    | false =>
      cases hopen : sys.fopen tmp .r with
      | some e =>
        simp only [m.fopen_error hopen]
        exact ⟨rfl, [.fopen tmp .r], rfl, by simp [opened, Effect.openedPath]⟩
      | none =>
        simp only [m.fopen_ok hopen rfl]
        exact ⟨rfl, [.fopen tmp .r, .fclose m.nextfile],
          by simp [Machine.fclose, Machine.emit], by simp [opened, Effect.openedPath]⟩

theorem serveFile_error {e : Errno} (h : sys.fopen tmp q.readMode = some e) (tsize : Bool) :
    serveFile sys m c q tmp tsize =
      error sys (m.emit (.fopen tmp q.readMode)) c .nofile
        (ascii "Cannot open file: " ++ sys.strerror e) := by
  simp only [serveFile, m.fopen_error h]

theorem serveFile_tsize (h : sys.fopen tmp q.readMode = none) :
    ∃ s', serveFile sys m c q tmp true = .ok s' ∧
      Reacts (m, c) ⟨c.transfer, [oackBytes q.opt (decimal (m.files tmp).length)], m.files,
        [.fopen tmp q.readMode, .fclose m.nextfile]⟩ s' := by
  simp only [serveFile, m.fopen_ok h q.readMode_writes, if_true]
  refine ⟨_, rfl, ?_⟩
  have hopen := optionAcknowledge_reacts sys
    { m.emit (.fopen tmp q.readMode) with nextfile := m.nextfile + 1 } c q.opt
    (decimal (m.files tmp).length)
  exact (Reacts.queues hopen rfl rfl rfl rfl rfl).emit (.fclose m.nextfile)

/-- A file opened for a client that is sending already replaces its file. -/
theorem serveFile_reopened (h : sys.fopen tmp q.readMode = none) (hs : c.sendingfile = true) :
    ∃ s', serveFile sys m c q tmp false = .ok s' ∧
      Reacts (m, c) ⟨{ c.transfer with f := some ⟨m.nextfile, tmp, 0, q.readMode⟩ }, [], m.files,
        [.fopen tmp q.readMode]⟩ s' := by
  simp only [serveFile, m.fopen_ok h q.readMode_writes, Bool.false_eq_true, if_false]
  exact ⟨_, if_pos hs, .silent rfl rfl rfl rfl rfl⟩

/-- A file opened for a client that is not sending: its first block is sent. -/
theorem serveFile_started (h : sys.fopen tmp q.readMode = none) (hs : c.sendingfile = false) :
    ∃ s', serveFile sys m c q tmp false = .ok s' ∧
      Reacts (m, c)
        ⟨{ c.transfer with
            f := some (m.fread sys ⟨m.nextfile, tmp, 0, q.readMode⟩ 512).2
            sendingfile := true, currentblockno := 1, actualblockno := 1 },
          [dataBytes 1 (m.fread sys ⟨m.nextfile, tmp, 0, q.readMode⟩ 512).1], m.files,
          [.fopen tmp q.readMode, .event .newWriteRequest]⟩ s' := by
  simp only [serveFile, m.fopen_ok h q.readMode_writes, Bool.false_eq_true, if_false]
  refine ⟨_, if_neg (by simp [hs]), ?_⟩
  have hsend := sendData_reacts sys
    (({ m.emit (.fopen tmp q.readMode) with nextfile := m.nextfile + 1 } : Machine).callEvent
      .newWriteRequest)
    { c with
      f := some (m.fread sys ⟨m.nextfile, tmp, 0, q.readMode⟩ 512).2
      sendingfile := true, currentblockno := 1, actualblockno := 1 }
    (m.fread sys ⟨m.nextfile, tmp, 0, q.readMode⟩ 512).1
  exact .queues hsend rfl rfl rfl rfl (by simp [Machine.callEvent, Machine.emit])

theorem serveFile_opening (tsize : Bool) :
    Opening tmp c.transfer (m, c) (serveFile sys m c q tmp tsize) := by
  have htmp : ∀ {es}, opened es = [tmp] → opened es ≠ [] ∧ ∀ p ∈ opened es, p = tmp := by
    intro es h
    rw [h]
    exact ⟨List.cons_ne_nil _ _, fun p hp => List.mem_singleton.1 hp⟩
  cases h : sys.fopen tmp q.readMode with
  | some e =>
    rw [serveFile_error sys m c q tmp h]
    rcases error_cases sys (m.emit (.fopen tmp q.readMode)) c .nofile
      (ascii "Cannot open file: " ++ sys.strerror e) with ⟨-, s', hs', hreact⟩ | ⟨-, hcrash⟩
    · rw [hs']
      have hopen : Reacts (m, c) ⟨c.transfer, [], m.files, [.fopen tmp q.readMode]⟩
          (m.emit (.fopen tmp q.readMode), c) := .silent rfl rfl rfl rfl rfl
      exact .ok _ _ _ _ s' (.refused true _ fun p hp => by
          rw [List.mem_singleton.1 hp]; exact not_isData_errorBytes _ _)
        (hopen.trans hreact) (htmp rfl).1 (htmp rfl).2
    · rw [hcrash]
      exact .crash _ _ _ (by decide) rfl (htmp rfl).2
  | none =>
    cases tsize with
    | true =>
      obtain ⟨s', hs', hreact⟩ := serveFile_tsize sys m c q tmp h
      rw [hs']
      exact .ok _ _ _ _ s' (.refused c.destroy _ fun p hp => by
          rw [List.mem_singleton.1 hp]; exact not_isData_oackBytes _ _)
        hreact (htmp rfl).1 (htmp rfl).2
    | false =>
      have hnil : ∀ q ∈ ([] : List Bytes), ¬IsData q := fun _ hq => absurd hq List.not_mem_nil
      -- Without a transfer, the first block is sent at once.
      cases hs : c.sendingfile with
      | true =>
        obtain ⟨s', hs', hreact⟩ := serveFile_reopened sys m c q tmp h hs
        rw [hs']
        exact .ok _ _ _ _ s' (.reopened c.destroy [] hnil hs _) hreact (htmp rfl).1 (htmp rfl).2
      | false =>
        obtain ⟨s', hs', hreact⟩ := serveFile_started sys m c q tmp h hs
        rw [hs']
        exact .ok _ _ _ _ s' (.started c.destroy [] hnil hs _ _) hreact (htmp rfl).1 (htmp rfl).2

/-- Reporting a missing file marks the client, queues an error, or crashes. -/
theorem reportMissing_cases :
    (∃ s' destroy qs es, reportMissing sys m c tmp = .ok s' ∧
      Reacts (m, c) ⟨{ c.transfer with destroy := destroy }, qs, m.files, es⟩ s' ∧
      (∀ q ∈ qs, ¬IsData q) ∧ ∀ p ∈ opened es, p = tmp) ∨
    ∃ m' es, reportMissing sys m c tmp = .error ⟨.assertion, m'⟩ ∧
      m'.effects = m.effects ++ es ∧ ∀ p ∈ opened es, p = tmp := by
  obtain ⟨hfiles, es, hes, htmp⟩ := fileExists_spec sys m tmp
  rw [reportMissing]
  generalize fileExists sys m tmp = found at hfiles hes ⊢
  have hfound : Reacts (m, c) ⟨c.transfer, [], m.files, es⟩ (found.1, c) :=
    .silent rfl rfl rfl hfiles hes
  by_cases h : found.2 = true
  · exact .inl ⟨(found.1, c), c.destroy, [], es, if_pos h, hfound,
      fun _ hq => absurd hq List.not_mem_nil, htmp⟩
  · rcases error_cases sys found.1 c .nofile
      (ascii "File " ++ tmp ++ ascii " does not exist on the filesystem.")
      with ⟨-, s', hs', hreact⟩ | ⟨-, hcrash⟩
    · refine .inl ⟨s', true, _, es, (if_neg h).trans hs',
        (hfound.trans hreact).congr (by rw [hfiles, List.append_nil]), fun p hp => ?_, htmp⟩
      rw [List.mem_singleton.1 hp]
      exact not_isData_errorBytes _ _
    · exact .inr ⟨found.1, es, (if_neg h).trans hcrash, hes, htmp⟩

/-- Whatever the system calls give, reading a path opens it or crashes, and the
    transfer starts with its first block or stays as it was. -/
theorem openForRead_opening (cfg : Config) (tsize : Bool) :
    Opening (requestPath cfg q.filename) c.transfer (m, c) (openForRead cfg sys m c q tsize) := by
  rw [openForRead]
  cases sys.nomem with
  | true => exact .crash _ m [] (by decide) (List.append_nil _).symm (fun _ hp => nomatch hp)
  | false =>
    simp only [Bool.false_eq_true, if_false]
    rcases reportMissing_cases sys m c (requestPath cfg q.filename) with
      ⟨s', d, qs, es, hs', hreact, hqs, htmp⟩ | ⟨m', es, hcrash, hes, htmp⟩
    · rw [hs']
      exact .after hreact rfl hqs htmp (serveFile_opening sys s'.1 s'.2 q _ tsize)
    · rw [hcrash]
      exact .crash _ m' es (by decide) hes htmp

end Opening

end Nbstftp
