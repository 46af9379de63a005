import Nbstftp.Steps

/-!
# Files and their handles

What the handling of a datagram does to the handles of files: it opens some and
closes them again, but for the one a client may get (`Filing`). Whether a client gets
one, or its transfer is started without one, is known from the datagram and from what
the system calls give (`fileChange`), and so is whether a request gets that far
(`Served`).
-/

namespace Nbstftp

/-- How often a handle was closed. -/
def Machine.closes (m : Machine) (id : ℕ) : ℕ := m.effects.count (.fclose id)

/-- The handle a client has, if any. -/
def Client.handle (c : Client) : Option ℕ := c.f.map File.id

/-- How often a client has a handle. -/
def Client.holds (c : Client) (id : ℕ) : ℕ := if c.handle = some id then 1 else 0

/-- How often a handle was given, from one machine to another. -/
def Machine.opens (m m' : Machine) (id : ℕ) : ℕ :=
  if m.nextfile ≤ id ∧ id < m'.nextfile then 1 else 0

/-- What becomes of the file of a client: it is kept; it is kept, and a transfer is on;
    or it is replaced by one just opened, and a transfer is on. -/
inductive FileChange
  | kept
  | flagged
  | taken
  deriving DecidableEq

/-- One change after the other, the first of which takes no file. -/
def FileChange.followed : FileChange → FileChange → FileChange
  | .kept, change => change
  | change, .kept => change
  | _, change => change

/-- What a part of the handling of a datagram does to handles: all that were given are
    closed, but for one that is taken. -/
structure Filing (change : FileChange) (s s' : State) : Prop where
  nextfile : s.1.nextfile ≤ s'.1.nextfile
  closed : ∀ id, s'.1.closes id + (if change = .taken then s'.2.holds id else 0) =
    s.1.closes id + s.1.opens s'.1 id
  handle : change ≠ .taken → s'.2.handle = s.2.handle
  taken : change = .taken → s'.2.handle.isSome
  sending : s'.2.sendingfile = (decide (change ≠ .kept) || s.2.sendingfile)

namespace Machine

variable (m : Machine)

theorem closes_emit (e : Effect) (id : ℕ) :
    (m.emit e).closes id = m.closes id + if e = .fclose id then 1 else 0 := by
  rw [closes, emit, List.count_append, List.count_singleton, closes]
  simp only [beq_iff_eq]

theorem closes_emit_of_ne {e : Effect} (he : ∀ id, e ≠ .fclose id) (id : ℕ) :
    (m.emit e).closes id = m.closes id := by
  rw [closes_emit, if_neg (he id), Nat.add_zero]

@[simp] theorem closes_callEvent (e : ModuleEvent) (id : ℕ) :
    (m.callEvent e).closes id = m.closes id :=
  m.closes_emit_of_ne (fun id h => by cases h) id

@[simp] theorem closes_free (tok id : ℕ) : (m.emit (.free tok)).closes id = m.closes id :=
  m.closes_emit_of_ne (fun id h => by cases h) id

@[simp] theorem closes_close (fd : Int) (id : ℕ) : (m.emit (.close fd)).closes id = m.closes id :=
  m.closes_emit_of_ne (fun id h => by cases h) id

theorem closes_fclose (f : File) (id : ℕ) :
    (m.fclose f).closes id = m.closes id + if f.id = id then 1 else 0 := by
  rw [fclose, closes_emit]
  simp only [Effect.fclose.injEq]

theorem opens_self (id : ℕ) : m.opens m id = 0 := by
  rw [opens, if_neg (by omega)]

theorem opens_le (m' : Machine) (id : ℕ) : m.opens m' id ≤ 1 := by
  rw [opens]
  split <;> omega

theorem opens_eq_zero {m' : Machine} {id : ℕ} (h : id < m.nextfile ∨ m'.nextfile ≤ id) :
    m.opens m' id = 0 :=
  if_neg (by omega)

theorem opens_trans {m m' m'' : Machine} (h : m.nextfile ≤ m'.nextfile)
    (h' : m'.nextfile ≤ m''.nextfile) (id : ℕ) :
    m.opens m'' id = m.opens m' id + m'.opens m'' id := by
  simp only [opens]
  split_ifs <;> omega

end Machine

namespace Filing

variable {change change' : FileChange} {s s' s'' : State}

/-- Calls that close nothing, and changes of the client that keep its handle. -/
theorem silent {m m' : Machine} {c c' : Client} (hn : m'.nextfile = m.nextfile)
    (hc : ∀ id, m'.closes id = m.closes id) (hf : c'.handle = c.handle)
    (hs : c'.sendingfile = c.sendingfile) : Filing .kept (m, c) (m', c') where
  nextfile := Nat.le_of_eq hn.symm
  closed id := by
    have hopens : m.opens m' id = 0 := by rw [Machine.opens, hn, if_neg (by omega)]
    rw [if_neg (by decide), hc, hopens]
  handle _ := hf
  taken := nofun
  sending := by rw [hs]; rfl

theorem refl (s : State) : Filing .kept s s := silent rfl (fun _ => rfl) rfl rfl

/-- One part after the other, the first of which takes no file. -/
theorem trans (h : Filing change s s') (hne : change ≠ .taken) (h' : Filing change' s' s'') :
    Filing (change.followed change') s s'' := by
  have htaken : change.followed change' = .taken ↔ change' = .taken := by
    cases change <;> cases change' <;> simp_all [FileChange.followed]
  refine ⟨Nat.le_trans h.nextfile h'.nextfile, fun id => ?_, fun hn => ?_, fun ht => ?_, ?_⟩
  · have hclosed := h.closed id
    rw [if_neg hne, Nat.add_zero] at hclosed
    rw [Machine.opens_trans h.nextfile h'.nextfile, ← Nat.add_assoc, ← hclosed, ← h'.closed id]
    simp only [htaken]
  · exact (h'.handle fun hn' => hn (htaken.2 hn')).trans (h.handle hne)
  · exact h'.taken (htaken.1 ht)
  · rw [h'.sending, h.sending]
    cases change <;> cases change' <;> simp_all [FileChange.followed]

/-- After a part that keeps everything. -/
theorem after (h : Filing .kept s s') (h' : Filing change s' s'') : Filing change s s'' := by
  have := h.trans nofun h'
  rwa [FileChange.followed] at this

/-- Before a part that keeps everything. -/
theorem before (h : Filing change s s') (h' : Filing .kept s' s'') : Filing change s s'' where
  nextfile := Nat.le_trans h.nextfile h'.nextfile
  closed id := by
    have hclosed := h'.closed id
    rw [if_neg (by decide), Nat.add_zero] at hclosed
    have hholds : s''.2.holds id = s'.2.holds id := by
      rw [Client.holds, h'.handle nofun, Client.holds]
    rw [Machine.opens_trans h.nextfile h'.nextfile, ← Nat.add_assoc, ← h.closed id, hclosed, hholds,
      Nat.add_right_comm]
  handle hn := (h'.handle nofun).trans (h.handle hn)
  taken ht := by rw [h'.handle nofun]; exact h.taken ht
  sending := by rw [h'.sending, h.sending]; rfl

/-- Marking the client, at the end. -/
theorem mark (h : Filing change s s') (cond : Bool) : Filing change s (s'.1, s'.2.destroyIf cond) :=
  h.before (silent rfl (fun _ => rfl) rfl rfl)

/-- A call at the end that closes nothing. -/
theorem emit (h : Filing change s s') {e : Effect} (he : ∀ id, e ≠ .fclose id) :
    Filing change s (s'.1.emit e, s'.2) :=
  h.before (silent rfl (s'.1.closes_emit_of_ne he) rfl rfl)

end Filing

section

variable (sys : Sys) (m : Machine) (c : Client)

theorem releaseLastpacket_filing : Filing .kept (m, c) (releaseLastpacket m c) := by
  rw [releaseLastpacket]
  split
  · split
    · exact .silent rfl (m.closes_emit_of_ne fun _ h => by cases h) rfl rfl
    · exact .silent rfl (fun _ => rfl) rfl rfl
  · exact .silent rfl (fun _ => rfl) rfl rfl

theorem queuePacket_filing (bytes : Bytes) (len : ℕ) :
    Filing .kept (m, c) (queuePacket sys (m.nmalloc bytes).1 c (m.nmalloc bytes).2 len 1) :=
  .silent rfl (fun _ => rfl) rfl rfl

theorem sendData_filing (data : Bytes) : Filing .kept (m, c) (sendData sys m c data) :=
  queuePacket_filing sys m c _ _

theorem acknowledge_filing (blockno : UInt16) : Filing .kept (m, c) (acknowledge sys m c blockno) :=
  queuePacket_filing sys m c _ _

/-- A message fits into an ERROR packet. -/
def Reportable (msg : Bytes) : Prop := msg.length + headerSize ≤ maxPacketSize

instance (msg : Bytes) : Decidable (Reportable msg) := inferInstanceAs (Decidable (_ ≤ _))

/-- Reporting an error keeps the file, if the message fits. -/
theorem error_filing (errnum : ErrorCode) {buf : Bytes} (h : Reportable buf) :
    ∃ s', error sys m c errnum buf = .ok s' ∧ Filing .kept (m, c) s' :=
  ⟨_, if_pos h, (queuePacket_filing sys m c _ _).mark true⟩

/-! ## Opening a file -/

/-- A handle that is given to the client. -/
theorem Filing.take {m m' : Machine} {c c' : Client} {f : File} (hid : f.id = m.nextfile)
    (hn : m'.nextfile = m.nextfile + 1) (hc : ∀ id, m'.closes id = m.closes id) (hf : c'.f = some f)
    (hs : c'.sendingfile = true) : Filing .taken (m, c) (m', c') where
  nextfile := Nat.le_of_lt (by rw [hn]; exact Nat.lt_succ_self _)
  closed id := by
    rw [if_pos rfl, hc, Client.holds, Client.handle, hf, Option.map_some, hid, Machine.opens, hn]
    simp only [Option.some.injEq]
    split_ifs <;> omega
  handle h := absurd rfl h
  taken _ := by rw [Client.handle, hf]; rfl
  sending := by rw [hs]; rfl

/-- A handle that is closed again. -/
theorem Filing.probe {m m' : Machine} {c c' : Client} (hn : m'.nextfile = m.nextfile + 1)
    (hc : ∀ id, m'.closes id = m.closes id + if m.nextfile = id then 1 else 0)
    (hf : c'.handle = c.handle) (hs : c'.sendingfile = c.sendingfile) :
    Filing .kept (m, c) (m', c') where
  nextfile := Nat.le_of_lt (by rw [hn]; exact Nat.lt_succ_self _)
  closed id := by
    rw [if_neg (by decide), hc, Machine.opens, hn]
    dsimp only
    split_ifs <;> omega
  handle _ := hf
  taken := nofun
  sending := hs

/-- `FileExists`, as the system calls give it. -/
def Sys.Finds (sys : Sys) (path : Bytes) : Prop :=
  sys.stat path = some false ∧ sys.fopen path .r = none ∧ sys.access path .readOK = none

instance (path : Bytes) : Decidable (sys.Finds path) := inferInstanceAs (Decidable (_ ∧ _ ∧ _))

theorem fileExists_filing (path : Bytes) :
    Filing .kept (m, c) ((fileExists sys m path).1, c) ∧
      ((fileExists sys m path).2 = true ↔ sys.Finds path) := by
  rw [fileExists, Sys.Finds]
  cases hstat : sys.stat path with
  | none => exact ⟨.refl _, by simp⟩
  | some directory =>
    cases directory with
    | true => exact ⟨.refl _, by simp⟩
    | false =>
      cases hopen : sys.fopen path .r with
      | some e =>
        simp only [m.fopen_error hopen]
        exact ⟨(Filing.refl (m, c)).emit (fun _ h => by cases h), by simp⟩
      | none =>
        simp only [m.fopen_ok hopen rfl]
        refine ⟨.probe rfl (fun id => ?_) rfl rfl, by simp⟩
        rw [Machine.closes_fclose]
        exact congrArg (· + _) (m.closes_emit_of_ne (fun id h => by cases h) id)

/-! ## Blocks -/

theorem storeBlock_filing {s' : State} (p : Bytes) (len : ℕ)
    (h : storeBlock sys m c p len = .ok s') : Filing .kept (m, c) s' := by
  rw [storeBlock] at h
  generalize payloadLength len = n at h
  split at h
  · cases hf : c.f with
    | none => rw [hf] at h; cases h
    | some f =>
      rw [hf] at h
      dsimp only at h
      split at h
      · cases h
      · cases h
        refine Filing.mark (.after ?_ (acknowledge_filing sys _ _ _)) _
        refine .silent rfl (fun _ => rfl) ?_ rfl
        simp [Client.handle, hf, Machine.fwrite]
  · cases h
    exact .refl _

theorem sendNextBlock_filing {s' : State} (h : sendNextBlock sys m c = .ok s') :
    Filing .kept (m, c) s' := by
  have hbuffer : ∀ {c' : Client}, c'.handle = c.handle → c'.sendingfile = c.sendingfile →
      Filing .kept (m, c) ((blockBuffer m c).1, c') := fun hf hs => by
    rw [blockBuffer]
    cases c.blk <;> exact .silent rfl (fun _ => rfl) hf hs
  rw [sendNextBlock] at h
  split at h
  · dsimp only at h
    split at h
    · cases h
    · cases hf : c.f with
      | none => rw [hf] at h; cases h
      | some f =>
        rw [hf] at h
        cases h
        refine Filing.mark (.after ?_ (sendData_filing sys _ _ _)) _
        refine hbuffer ?_ rfl
        simp [Client.handle, hf, Machine.fread]
  · cases h
    exact .refl _

/-! ## Requests -/

/-- What an outcome is if it depends on `served` whether a datagram is dealt with: it
    changes the file, or it is a crash that is not due to a null file. -/
structure Deals (served : Prop) (change : FileChange) (s : State) (o : Outcome) : Prop where
  ok : served → ∃ s', o = .ok s' ∧ Filing change s s'
  crash : ¬served → ∃ crash, o = .error crash ∧ crash.fault ≠ .nullFile

namespace Deals

variable {served : Prop} {change change' : FileChange} {s s' : State} {o : Outcome}

/-- After something that takes no file. -/
theorem trans (h : Filing change s s') (hne : change ≠ .taken) (ho : Deals served change' s' o) :
    Deals served (change.followed change') s o where
  ok hserved := by
    obtain ⟨s'', hs, h'⟩ := ho.ok hserved
    exact ⟨s'', hs, h.trans hne h'⟩
  crash := ho.crash

/-- After something that keeps everything. -/
theorem after (h : Filing .kept s s') (ho : Deals served change s' o) : Deals served change s o :=
  trans h (by decide) ho

/-- A result that is certain. -/
theorem of_ok (h : Filing change s s') : Deals True change s (.ok s') :=
  ⟨fun _ => ⟨s', rfl, h⟩, fun h => absurd trivial h⟩

theorem congr (h : Deals served change s o) {served' : Prop} (hiff : served' ↔ served) :
    Deals served' change s o :=
  ⟨fun hs => h.ok (hiff.1 hs), fun hs => h.crash (mt hiff.2 hs)⟩

/-- The file is changed if there is a result. -/
theorem filing (h : Deals served change s o) (ho : o = .ok s') : Filing change s s' := by
  by_cases hserved : served
  · obtain ⟨s'', hs, hfiling⟩ := h.ok hserved
    cases ho.symm.trans hs
    exact hfiling
  · obtain ⟨crash, hs, -⟩ := h.crash hserved
    cases ho.symm.trans hs

end Deals

theorem error_deals (errnum : ErrorCode) (buf : Bytes) :
    Deals (Reportable buf) .kept (m, c) (error sys m c errnum buf) :=
  ⟨error_filing sys m c errnum, fun h => ⟨_, if_neg h, nofun⟩⟩

/-- The messages a file is reported with that does not exist, or cannot be opened. -/
def missingMessage (path : Bytes) : Bytes :=
  ascii "File " ++ path ++ ascii " does not exist on the filesystem."

def openMessage (sys : Sys) (e : Errno) : Bytes :=
  ascii "Cannot open file: " ++ sys.strerror e

theorem reportMissing_deals (path : Bytes) :
    Deals (sys.Finds path ∨ Reportable (missingMessage path)) .kept (m, c)
      (reportMissing sys m c path) := by
  obtain ⟨hfiling, hfinds⟩ := fileExists_filing sys m c path
  rw [reportMissing]
  by_cases h : (fileExists sys m path).2 = true
  · rw [if_pos h]
    exact (Deals.of_ok hfiling).congr ⟨fun _ => trivial, fun _ => .inl (hfinds.1 h)⟩
  · rw [if_neg h]
    refine (Deals.after hfiling (error_deals sys _ c .nofile _)).congr ?_
    rw [hfinds] at h
    exact ⟨fun hs => hs.resolve_left h, .inr⟩

variable (q : Request) (cfg : Config)

/-- What becomes of the file of a client that reads a path. -/
def readChange (sys : Sys) (path : Bytes) (mode : OpenMode) (tsize : Bool) : FileChange :=
  if sys.fopen path mode = none ∧ tsize = false then .taken else .kept

theorem serveFile_deals (path : Bytes) (tsize : Bool) :
    Deals (∀ e ∈ sys.fopen path q.readMode, Reportable (openMessage sys e))
      (readChange sys path q.readMode tsize) (m, c) (serveFile sys m c q path tsize) := by
  rw [readChange]
  cases hopen : sys.fopen path q.readMode with
  | some e =>
    rw [serveFile_error sys m c q path hopen, if_neg (by simp)]
    have hopened : Filing .kept (m, c) (m.emit (.fopen path q.readMode), c) :=
      (Filing.refl (m, c)).emit fun _ => nofun
    refine (Deals.after hopened (error_deals sys _ c .nofile _)).congr ?_
    exact ⟨fun h => h e rfl, fun h e' he => Option.some.inj he ▸ h⟩
  | none =>
    have hcloses : ∀ id, (m.emit (.fopen path q.readMode)).closes id = m.closes id :=
      m.closes_emit_of_ne fun id h => by cases h
    have hserved : (∀ e ∈ (none : Option Errno), Reportable (openMessage sys e)) ↔ True := by simp
    cases tsize with
    | true =>
      -- The file is opened and closed again, which the client does not notice.
      rw [if_neg (by simp)]
      simp only [serveFile, m.fopen_ok hopen q.readMode_writes, if_true]
      refine (Deals.of_ok ?_).congr hserved
      refine .probe rfl (fun id => ?_) rfl rfl
      rw [Machine.closes_fclose]
      exact congrArg (· + _) (hcloses id)
    | false =>
      -- The client takes the file, whether or not a block is sent at once.
      rw [if_pos ⟨rfl, rfl⟩]
      simp only [serveFile, m.fopen_ok hopen q.readMode_writes, Bool.false_eq_true, if_false]
      split
      · refine (Deals.of_ok ?_).congr hserved
        exact .take rfl rfl hcloses rfl ‹_›
      · refine (Deals.of_ok (.before ?_ (sendData_filing sys _ _ _))).congr hserved
        refine .take rfl rfl (fun id => ?_) rfl rfl
        rw [Machine.closes_callEvent]
        exact hcloses id

/-- A read request that is not refused comes to its file, or to an error that can be
    reported. -/
structure ReadServed (cfg : Config) (sys : Sys) (q : Request) : Prop where
  memory : sys.nomem = false
  found : sys.Finds (requestPath cfg q.filename) ∨
    Reportable (missingMessage (requestPath cfg q.filename))
  opened : ∀ e ∈ sys.fopen (requestPath cfg q.filename) q.readMode, Reportable (openMessage sys e)

theorem openForRead_deals (tsize : Bool) :
    Deals (ReadServed cfg sys q)
      (readChange sys (requestPath cfg q.filename) q.readMode tsize) (m, c)
      (openForRead cfg sys m c q tsize) := by
  have hmissing := reportMissing_deals sys m c (requestPath cfg q.filename)
  rw [openForRead]
  by_cases hmemory : sys.nomem = true
  · rw [if_pos hmemory]
    exact ⟨fun h => absurd hmemory (by rw [h.memory]; decide),
      fun _ => ⟨_, rfl, fun h => by cases h⟩⟩
  rw [if_neg hmemory]
  dsimp only
  by_cases hfound : sys.Finds (requestPath cfg q.filename) ∨
      Reportable (missingMessage (requestPath cfg q.filename))
  · obtain ⟨s₁, hs₁, hfiling⟩ := hmissing.ok hfound
    rw [hs₁]
    refine (Deals.after hfiling (serveFile_deals sys s₁.1 s₁.2 q _ tsize)).congr ?_
    exact ⟨fun h => h.opened, fun h => ⟨Bool.not_eq_true _ ▸ hmemory, hfound, h⟩⟩
  · obtain ⟨crash, hs, hfault⟩ := hmissing.crash hfound
    rw [hs]
    exact ⟨fun h => absurd h.found hfound, fun _ => ⟨crash, rfl, hfault⟩⟩

/-- A transfer is on once its block size was acknowledged, before there is a file. -/
theorem negotiate_filing (optparam : Bytes) (blksize : ℕ) :
    Filing .flagged (m, c) (negotiate sys m c q optparam blksize) where
  nextfile := Nat.le_refl _
  closed id := by rw [if_neg (by decide)]; exact congrArg _ (m.opens_self id).symm
  handle _ := rfl
  taken := nofun
  sending := rfl

/-- What becomes of the file of a client with a read request, and with a write request. -/
def rrqChange (cfg : Config) (sys : Sys) (q : Request) : FileChange :=
  if (rrqRefusal sys q).isSome then .kept
  else if (acceptedBlksize sys q).isSome then
    FileChange.flagged.followed
      (readChange sys (requestPath cfg q.filename) q.readMode false)
  else readChange sys (requestPath cfg q.filename) q.readMode (strcasecmp q.opt (ascii "tsize") = 0)

def wrqChange (cfg : Config) (sys : Sys) (q : Request) : FileChange :=
  if wrqRefusal cfg sys q = none ∧ sys.fopen (requestPath cfg q.filename) q.writeMode = none then
    .taken
  else .kept

/-- A request is dealt with: if it is refused, that can be reported. -/
structure RrqServed (cfg : Config) (sys : Sys) (q : Request) : Prop where
  refused : ∀ e ∈ rrqRefusal sys q, Reportable e.2
  read : rrqRefusal sys q = none → ReadServed cfg sys q

structure WrqServed (cfg : Config) (sys : Sys) (q : Request) : Prop where
  refused : ∀ e ∈ wrqRefusal cfg sys q, Reportable e.2
  opened : wrqRefusal cfg sys q = none →
    ∀ e ∈ sys.fopen (requestPath cfg q.filename) q.writeMode,
      Reportable (ascii "Cannot write file: " ++ sys.strerror e)

theorem serveRrq_deals :
    Deals (RrqServed cfg sys q) (rrqChange cfg sys q) (m, c) (serveRrq cfg sys m c q) := by
  rw [rrqChange]
  cases hrefusal : rrqRefusal sys q with
  | some e =>
    rw [if_pos Option.isSome_some, serveRrq_refused cfg sys m c q hrefusal]
    refine (error_deals sys m c e.1 e.2).congr ⟨fun h => h.refused e hrefusal, fun h => ⟨?_, ?_⟩⟩
    · intro e' he
      cases hrefusal.symm.trans he
      exact h
    · exact fun hn => absurd (hrefusal.symm.trans hn) nofun
  | none =>
    have hserved : RrqServed cfg sys q ↔ ReadServed cfg sys q :=
      ⟨fun h => h.read hrefusal,
        fun h => ⟨fun e he => absurd (hrefusal.symm.trans he) nofun, fun _ => h⟩⟩
    rw [if_neg (by simp)]
    cases haccept : acceptedBlksize sys q with
    | none =>
      rw [if_neg (by simp), serveRrq_plain cfg sys m c q hrefusal haccept]
      exact (openForRead_deals sys m c q cfg _).congr hserved
    | some blksize =>
      rw [if_pos Option.isSome_some, serveRrq_negotiated cfg sys m c q haccept]
      exact (Deals.trans (negotiate_filing sys m c q _ _) (by decide)
        (openForRead_deals sys _ _ q cfg false)).congr hserved

theorem serveWrq_deals :
    Deals (WrqServed cfg sys q) (wrqChange cfg sys q) (m, c) (serveWrq cfg sys m c q) := by
  rw [wrqChange]
  cases hrefusal : wrqRefusal cfg sys q with
  | some e =>
    rw [if_neg (by simp), serveWrq_refused cfg sys m c q hrefusal]
    refine (error_deals sys m c e.1 e.2).congr ⟨fun h => h.refused e hrefusal, fun h => ⟨?_, ?_⟩⟩
    · intro e' he
      cases hrefusal.symm.trans he
      exact h
    · exact fun hn => absurd (hrefusal.symm.trans hn) nofun
  | none =>
    have hrefused : ∀ e ∈ wrqRefusal cfg sys q, Reportable e.2 :=
      fun e he => absurd (hrefusal.symm.trans he) nofun
    rw [serveWrq_open cfg sys m c q hrefusal]
    cases hopen : sys.fopen (requestPath cfg q.filename) q.writeMode with
    | some e =>
      rw [if_neg (by simp), m.fopen_error hopen]
      have hopened : Filing .kept (m, c)
          (m.emit (.fopen (requestPath cfg q.filename) q.writeMode), c) :=
        (Filing.refl (m, c)).emit fun _ => nofun
      refine (Deals.after hopened (error_deals sys _ c .nofile _)).congr
        ⟨fun h => h.opened hrefusal e hopen, fun h => ⟨hrefused, fun _ e' he => ?_⟩⟩
      cases hopen.symm.trans he
      exact h
    | none =>
      -- The client takes the file, and the acknowledgement leaves it with it.
      rw [if_pos ⟨rfl, rfl⟩, m.fopen_ok_writes hopen q.writeMode_writes]
      refine (Deals.of_ok (.before ?_ (acknowledge_filing sys _ _ _))).congr ?_
      · refine .take rfl rfl (fun id => ?_) rfl rfl
        rw [Machine.closes_callEvent]
        exact m.closes_emit_of_ne (fun id h => by cases h) id
      · exact ⟨fun _ => trivial,
          fun _ => ⟨hrefused, fun _ e he => absurd (hopen.symm.trans he) nofun⟩⟩

end

/-! ## Datagrams -/

section

variable (cfg : Config) (sys : Sys) (m : Machine) (c : Client) {datagram : Bytes}

/-- What becomes of the file of the client a datagram is handed to. -/
def fileChange (cfg : Config) (sys : Sys) (datagram : Bytes) : FileChange :=
  if IsPacket .rrq datagram then rrqChange cfg sys (requestOf datagram)
  else if IsPacket .wrq datagram then wrqChange cfg sys (requestOf datagram)
  else .kept

/-- A datagram, should it be a request, can be logged and is dealt with. -/
structure Served (cfg : Config) (sys : Sys) (datagram : Bytes) : Prop where
  loggable : IsPacket .rrq datagram ∨ IsPacket .wrq datagram →
    (requestOf datagram).Loggable sys
  rrq : IsPacket .rrq datagram → RrqServed cfg sys (requestOf datagram)
  wrq : IsPacket .wrq datagram → WrqServed cfg sys (requestOf datagram)

variable {sys} in
theorem logged_filing {q : Request} {write : Bool} {line : Effect}
    (h : q.log sys write = some line) : Filing .kept (m, c) (loggedState m c line) := by
  obtain ⟨param, -, rfl⟩ := log_some h
  exact (releaseLastpacket_filing m c).emit fun _ => nofun

theorem processRrq_deals (p : Bytes) (alloclen : ℕ) :
    Deals ((parseRequest p alloclen).Loggable sys ∧ RrqServed cfg sys (parseRequest p alloclen))
      (rrqChange cfg sys (parseRequest p alloclen)) (m, c) (processRrq cfg sys m c p alloclen) := by
  by_cases h : (parseRequest p alloclen).Loggable sys
  · obtain ⟨line, hline⟩ := h.log false
    rw [processRrq_eq cfg sys m c _ p alloclen rfl hline]
    exact (Deals.after (logged_filing m c hline) (serveRrq_deals sys _ _ _ cfg)).congr
      (and_iff_right h)
  · rw [processRrq_wild cfg sys m c _ p alloclen rfl h]
    exact ⟨fun hserved => absurd hserved.1 h, fun _ => ⟨_, rfl, nofun⟩⟩

theorem processWrq_deals (p : Bytes) (alloclen : ℕ) :
    Deals ((parseRequest p alloclen).Loggable sys ∧ WrqServed cfg sys (parseRequest p alloclen))
      (wrqChange cfg sys (parseRequest p alloclen)) (m, c) (processWrq cfg sys m c p alloclen) := by
  by_cases h : (parseRequest p alloclen).Loggable sys
  · obtain ⟨line, hline⟩ := h.log true
    rw [processWrq_eq cfg sys m c _ p alloclen rfl hline]
    exact (Deals.after (logged_filing m c hline) (serveWrq_deals sys _ _ _ cfg)).congr
      (and_iff_right h)
  · rw [processWrq_wild cfg sys m c _ p alloclen rfl h]
    exact ⟨fun hserved => absurd hserved.1 h, fun _ => ⟨_, rfl, nofun⟩⟩

theorem processDatagram_deals (h : IsPacket .rrq datagram ∨ IsPacket .wrq datagram) :
    Deals (Served cfg sys datagram) (fileChange cfg sys datagram) (m, c)
      (processDatagram cfg sys m c datagram) := by
  have hne : ¬(IsPacket .rrq datagram ∧ IsPacket .wrq datagram) := fun h =>
    absurd (h.1.2.symm.trans h.2.2) (by decide)
  rw [fileChange]
  rcases h with hrrq | hwrq
  · rw [if_pos hrrq, processDatagram_rrq cfg sys m c hrrq]
    refine (processRrq_deals cfg sys m c _ _).congr ?_
    exact ⟨fun h => ⟨h.loggable (.inl hrrq), h.rrq hrrq⟩,
      fun h => ⟨fun _ => h.1, fun _ => h.2, fun hwrq => absurd ⟨hrrq, hwrq⟩ hne⟩⟩
  · rw [if_neg fun hrrq => hne ⟨hrrq, hwrq⟩, if_pos hwrq, processDatagram_wrq cfg sys m c hwrq]
    refine (processWrq_deals cfg sys m c _ _).congr ?_
    exact ⟨fun h => ⟨h.loggable (.inr hwrq), h.wrq hwrq⟩,
      fun h => ⟨fun _ => h.1, fun hrrq => absurd ⟨hrrq, hwrq⟩ hne, fun _ => h.2⟩⟩

/-- What a datagram does to the file of its client. -/
theorem processDatagram_filing {s' : State}
    (h : processDatagram cfg sys m c datagram = .ok s') :
    Filing (fileChange cfg sys datagram) (m, c) s' := by
  by_cases hrequest : IsPacket .rrq datagram ∨ IsPacket .wrq datagram
  · exact (processDatagram_deals cfg sys m c hrequest).filing h
  obtain ⟨hrrq, hwrq⟩ := not_or.1 hrequest
  have hreleased : ∀ e, Filing .kept (m, c)
      ((releaseLastpacket m c).1.callEvent e, (releaseLastpacket m c).2) := fun e =>
    (releaseLastpacket_filing m c).emit fun _ => nofun
  rw [fileChange, if_neg hrrq, if_neg hwrq]
  rcases processDatagram_cases cfg sys m c datagram with ⟨-, hs⟩ | ⟨-, hs⟩ | ⟨-, hs⟩ |
    ⟨hwrq', -⟩ | ⟨hrrq', -⟩ | ⟨m', hm', hs⟩
  · exact (hreleased _).after (storeBlock_filing sys _ _ _ _ (hs.symm.trans h))
  · cases hs.symm.trans h
    exact ((hreleased .errorPacket).after (acknowledge_filing sys _ _ _)).mark true
  · exact (hreleased _).after (sendNextBlock_filing sys _ _ (hs.symm.trans h))
  · exact absurd hwrq' hwrq
  · exact absurd hrrq' hrrq
  · cases hs.symm.trans h
    rcases List.mem_pair.1 hm' with rfl | rfl
    · exact .refl _
    · exact (Filing.refl (m, c)).emit fun _ => nofun

end

end Nbstftp
