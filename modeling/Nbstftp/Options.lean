import Nbstftp.Answer
import Nbstftp.Encoding
import Mathlib.Data.Finset.Dedup
import Mathlib.Data.Finset.Insert

/-!
# The options of a read request

A read request carries a list of options and their values, the order of which is not to
matter. But only the first one is read (`requestOf_bytes`), so that it does: requests that
carry the same options in another order may differ in the block size they leave, the file
they open and the options that are acknowledged (`not_orderInsensitive`). They do not,
whatever the state, exactly if their first options ask for the same (`orderInsensitive_iff`).

That it is enough for the first options to ask for the same is due to the options being
logged besides, which nothing depends on: the handling does the same to machines that differ
by their effects only (`unlogged_openForRead`).
-/

namespace Nbstftp

/-- A read request with options. -/
structure OptionRequest where
  filename : Bytes
  mode : Bytes
  options : List (Bytes × Bytes)

namespace OptionRequest

/-- An option and its value, each with a NUL byte behind it. -/
def optionBytes (o : Bytes × Bytes) : Bytes := o.1 ++ [0] ++ o.2 ++ [0]

def bytes (r : OptionRequest) : Bytes :=
  htons Opcode.rrq.code ++ r.filename ++ [0] ++ r.mode ++ [0] ++ r.options.flatMap optionBytes

/-- The fields are without NUL bytes, the options are not empty, and the request is not too
    large. -/
structure WellFormed (r : OptionRequest) : Prop where
  filename : 0 ∉ r.filename
  mode : 0 ∉ r.mode
  options : ∀ o ∈ r.options, o.1 ≠ [] ∧ 0 ∉ o.1 ∧ 0 ∉ o.2
  size : r.bytes.length ≤ maxPacketSize

end OptionRequest

/-- What a read request asks for: nothing, as its mode is not supported; its file; the size
    of its file, by an option; blocks of a size, acknowledged by a packet; or a block size
    that is refused, as it is out of range or not representable. In an error for the latter,
    of the value its length matters, as far as the error may fit into a packet at all. -/
inductive Asked
  | mail
  | file
  | size (option : Bytes)
  | blocks (oack : Bytes) (blksize : ℕ)
  | outOfRange
  | overflow (length : ℕ)
  deriving DecidableEq

/-- What is asked for by the first option. -/
def asksOption : Option (Bytes × Bytes) → Asked
  | none => .file
  | some (option, value) =>
    if strcasecmp option (ascii "blksize") = 0 then
      if (strtol value).2 then .overflow (min value.length 487)
      else if (strtol value).1 < 8 ∨ 65464 < (strtol value).1 then .outOfRange
      else .blocks (oackBytes option value) (strtol value).1.toNat
    else if strcasecmp option (ascii "tsize") = 0 then .size option
    else .file

/-- What is asked for by the mode and the first option. -/
def asks (mode : Bytes) (first : Option (Bytes × Bytes)) : Asked :=
  if strcasecmp mode (ascii "mail") = 0 then .mail else asksOption first

/-- What is left of handling a datagram: the block size, whether a transfer is on, the file,
    and the options acknowledged. -/
structure Observation where
  blksize : ℕ
  sendingfile : Bool
  f : Option File
  acknowledged : Finset Bytes
  deriving DecidableEq

/-- What is left, unless the process crashes. -/
def observed (s : State) : Outcome → Option Observation
  | .ok s' => some ⟨s'.2.blksize, s'.2.sendingfile, s'.2.f,
      ((queuedBetween s s').filter (packetOpcode · = Opcode.oack.code)).toFinset⟩
  | .error _ => none

/-- Two datagrams leave the same, whatever the configuration, the system and the state. -/
def SameEffect (d d' : Bytes) : Prop :=
  ∀ cfg sys m c, observed (m, c) (processDatagram cfg sys m c d) =
    observed (m, c) (processDatagram cfg sys m c d')

/-! ## The first option -/

/-- The request that is read. -/
def firstRequest (filename mode : Bytes) (first : Option (Bytes × Bytes)) : Request :=
  ⟨filename, mode, (first.map Prod.fst).getD [], first.map Prod.snd⟩

/-- A string without NUL bytes that is not too long is measured in full. -/
theorem strnlen_of_notMem {s : Bytes} (h : 0 ∉ s) {maxlen : ℕ} (hlen : s.length ≤ maxlen) :
    strnlen s maxlen = s.length := by
  rw [strnlen_eq, strndup_eq] <;> rw [Lib.nextField_of_notMem h]
  exact hlen

theorem OptionRequest.length_bytes (r : OptionRequest) :
    r.bytes.length = 2 + (r.filename.length + 1 + (r.mode.length + 1 +
      (r.options.flatMap optionBytes).length)) := by
  simp only [bytes, List.length_append, length_htons, List.length_singleton]
  omega

theorem OptionRequest.length_optionBytes (o : Bytes × Bytes) :
    (optionBytes o).length = o.1.length + 1 + (o.2.length + 1) := by
  simp only [optionBytes, List.length_append, List.length_singleton]
  omega

/-- Behind the request, the receive buffer is filled with zeros. -/
theorem OptionRequest.WellFormed.receiveBuffer_eq {r : OptionRequest} (h : r.WellFormed) :
    ∃ zeros, (receiveBuffer r.bytes).drop 2 = r.filename ++ 0 :: (r.mode ++ 0 ::
      (r.options.flatMap OptionRequest.optionBytes ++ 0 :: zeros)) := by
  have hsize := h.size
  rw [maxPacketSize] at hsize
  obtain ⟨n, hzeros⟩ : ∃ n, pktlen - r.bytes.length = n + 1 :=
    Nat.exists_eq_succ_of_ne_zero (by rw [pktlen]; omega)
  refine ⟨List.replicate n 0, ?_⟩
  rw [receiveBuffer, List.take_of_length_le (by rw [pktlen]; omega), hzeros,
    List.replicate_succ, OptionRequest.bytes]
  simp [htons]

/-- Of a request, the options behind the first one are not read. -/
theorem requestOf_bytes {r : OptionRequest} (h : r.WellFormed) :
    requestOf r.bytes = firstRequest r.filename r.mode r.options.head? := by
  have hlong : ∀ {n : ℕ}, n ≤ r.bytes.length → n ≤ pktlen - 2 := fun hn =>
    Nat.le_trans hn (Nat.le_trans h.size (by decide))
  have hbytes := r.length_bytes
  obtain ⟨zeros, hdrop⟩ := h.receiveBuffer_eq
  obtain ⟨hfilename, hdrop₁⟩ := getNext_append hdrop h.filename (hlong (by omega))
  obtain ⟨hmode, hdrop₂⟩ := getNext_append hdrop₁ h.mode (hlong (by omega))
  rw [requestOf, parseRequest]
  rw [hfilename, hmode]
  cases hoptions : r.options with
  | nil =>
    rw [hoptions] at hdrop₂
    obtain ⟨hopt, -⟩ := getNext_append (f := []) hdrop₂ List.not_mem_nil (Nat.zero_le _)
    rw [hopt]
    rfl
  | cons o os =>
    obtain ⟨hne, hname, hvalue⟩ := h.options o (hoptions ▸ List.mem_cons_self)
    rw [hoptions, List.flatMap_cons] at hdrop₂ hbytes
    rw [List.length_append, OptionRequest.length_optionBytes] at hbytes
    have hdrop₃ : _ = o.1 ++ 0 :: (o.2 ++ 0 ::
        (os.flatMap OptionRequest.optionBytes ++ 0 :: zeros)) :=
      hdrop₂.trans (by simp [OptionRequest.optionBytes])
    obtain ⟨hopt, hdrop₄⟩ := getNext_append hdrop₃ hname (hlong (by omega))
    obtain ⟨hparam, -⟩ := getNext_append hdrop₄ hvalue (hlong (by omega))
    rw [hopt, strnlen_of_notMem hname (hlong (by omega)), if_pos, hparam]
    · rfl
    · exact fun hzero => hne (List.length_eq_zero_iff.1 hzero)

/-! ## What is asked for -/

section

variable (cfg : Config) (sys : Sys) (m : Machine) (c : Client)

/-- A read request once logged, by what it asks for. -/
def serveAsked (q : Request) : Asked → Outcome
  | .mail => error sys m c .illegal (ascii "Mail mode not supported by NBSTFTP")
  | .file => openForRead cfg sys m c q false
  | .size _ => openForRead cfg sys m c q true
  | .blocks _ blksize =>
    let a := negotiate sys m c q q.param blksize
    openForRead cfg sys a.1 a.2 q false
  | .outOfRange =>
    error sys m c .option (ascii "Invalid block size " ++ decimalInt (strtol q.param).1)
  | .overflow _ =>
    error sys m c .option (ascii "Invalid block size " ++ q.param ++ ascii ": " ++
      sys.strerror .range ++ ascii " (" ++ decimal Errno.range.number ++ ascii ")")

theorem serveRrq_eq_serveAsked (filename mode : Bytes) (first : Option (Bytes × Bytes)) :
    serveRrq cfg sys m c (firstRequest filename mode first) =
      serveAsked cfg sys m c (firstRequest filename mode first) (asks mode first) := by
  rw [serveRrq, asks]
  -- The tests of the source come in the same order on both sides.
  by_cases hmail : strcasecmp mode (ascii "mail") = 0
  · rw [if_pos hmail]
    exact if_pos hmail
  rw [if_neg hmail]
  refine (if_neg hmail).trans ?_
  cases first with
  | none => rfl
  | some o =>
    obtain ⟨option, value⟩ := o
    rw [asksOption]
    by_cases hblksize : strcasecmp option (ascii "blksize") = 0
    · rw [if_pos hblksize]
      refine (if_pos hblksize).trans ?_
      by_cases hrange : (strtol value).2 = true
      · rw [if_pos hrange]
        exact if_pos hrange
      rw [if_neg hrange]
      refine (if_neg hrange).trans ?_
      by_cases hbounds : (strtol value).1 < 8 ∨ 65464 < (strtol value).1
      · rw [if_pos hbounds]
        exact if_pos hbounds
      · rw [if_neg hbounds]
        exact if_neg hbounds
    · rw [if_neg hblksize]
      refine (if_neg hblksize).trans ?_
      by_cases htsize : strcasecmp option (ascii "tsize") = 0
      · rw [if_pos htsize]
        exact congrArg (openForRead cfg sys m c _) (decide_eq_true htsize)
      · rw [if_neg htsize]
        exact congrArg (openForRead cfg sys m c _) (decide_eq_false htsize)

end

/-! ## Nothing depends on what was logged -/

/-- A machine, but for its effects. -/
def Machine.quiet (m : Machine) : Machine := { m with effects := [] }

/-- What is left but for effects, unless the process crashes. -/
def unlogged (o : Outcome) : Option State := o.toOption.map fun s => (s.1.quiet, s.2)

section

variable (cfg : Config) (sys : Sys) (m : Machine) (c : Client) (q : Request) (path : Bytes)

theorem unlogged_error (errnum : ErrorCode) (buf : Bytes) :
    unlogged (error sys m.quiet c errnum buf) = unlogged (error sys m c errnum buf) := by
  rw [error, errorWith, error, errorWith]
  split <;> rfl

theorem quiet_fileExists :
    (fileExists sys m.quiet path).1.quiet = (fileExists sys m path).1.quiet ∧
      (fileExists sys m.quiet path).2 = (fileExists sys m path).2 := by
  rw [fileExists, fileExists]
  cases sys.stat path with
  | none => exact ⟨rfl, rfl⟩
  | some directory =>
    cases directory with
    | true => exact ⟨rfl, rfl⟩
    | false =>
      simp only [Machine.fopen]
      cases sys.fopen path .r <;> exact ⟨rfl, rfl⟩

theorem unlogged_reportMissing :
    unlogged (reportMissing sys m.quiet c path) = unlogged (reportMissing sys m c path) := by
  obtain ⟨hquiet, hfound⟩ := quiet_fileExists sys m path
  rw [reportMissing, reportMissing, hfound]
  split
  · exact congrArg (fun m' => some (m', c)) hquiet
  · rw [← unlogged_error, hquiet, unlogged_error]

theorem unlogged_serveFile (tsize : Bool) :
    unlogged (serveFile sys m.quiet c q path tsize) =
      unlogged (serveFile sys m c q path tsize) := by
  rw [serveFile, serveFile, Machine.fopen, Machine.fopen]
  cases sys.fopen path q.readMode with
  | some e =>
    exact (unlogged_error sys (m.quiet.emit (.fopen path q.readMode)) c _ _).symm.trans
      (unlogged_error sys (m.emit (.fopen path q.readMode)) c _ _)
  | none =>
    dsimp only
    split
    · rfl
    split
    · rfl
    · rfl

theorem unlogged_openForRead (tsize : Bool) :
    unlogged (openForRead cfg sys m.quiet c q tsize) =
      unlogged (openForRead cfg sys m c q tsize) := by
  have hmissing := unlogged_reportMissing sys m c (requestPath cfg q.filename)
  rw [openForRead, openForRead]
  split
  · rfl
  dsimp only
  generalize reportMissing sys m.quiet c (requestPath cfg q.filename) = o at hmissing ⊢
  generalize reportMissing sys m c (requestPath cfg q.filename) = o' at hmissing ⊢
  cases o with
  | error crash =>
    cases o' with
    | error crash' => rfl
    | ok s' => cases hmissing
  | ok s =>
    cases o' with
    | error crash' => cases hmissing
    | ok s' =>
      obtain ⟨hquiet, hc⟩ := Prod.mk.inj (Option.some.inj hmissing)
      dsimp only
      rw [← unlogged_serveFile, hquiet, hc, unlogged_serveFile]

/-- Machines that differ by what was logged open a file alike. -/
theorem unlogged_openForRead_eq {m' : Machine} (h : m.quiet = m'.quiet) (tsize : Bool) :
    unlogged (openForRead cfg sys m c q tsize) = unlogged (openForRead cfg sys m' c q tsize) := by
  rw [← unlogged_openForRead, h, unlogged_openForRead]

theorem quiet_negotiate (optparam : Bytes) (blksize : ℕ) :
    (negotiate sys m.quiet c q optparam blksize).1.quiet =
        (negotiate sys m c q optparam blksize).1.quiet ∧
      (negotiate sys m.quiet c q optparam blksize).2 =
        (negotiate sys m c q optparam blksize).2 :=
  ⟨rfl, rfl⟩

end

/-! ## What is left -/

/-- What is left after a reaction. -/
def Reaction.observation (r : Reaction) : Observation :=
  ⟨r.transfer.blksize, r.transfer.sendingfile, r.transfer.f,
    (r.queued.filter (packetOpcode · = Opcode.oack.code)).toFinset⟩

section

variable {s s₁ s' : State} {r : Reaction} {o o' : Outcome}

theorem observed_congr (h : unlogged o = unlogged o') : observed s o = observed s o' := by
  cases o with
  | error crash =>
    cases o' with
    | error crash' => rfl
    | ok s' => cases h
  | ok s₁ =>
    cases o' with
    | error crash' => cases h
    | ok s' =>
      have hc : s₁.2 = s'.2 := (Prod.mk.inj (Option.some.inj h)).2
      rw [observed, observed, queuedBetween, queuedBetween, hc]

theorem Reacts.observed_ok (h : Reacts s r s') : observed s (.ok s') = some r.observation := by
  have hblksize : s'.2.blksize = r.transfer.blksize := congrArg Transfer.blksize h.transfer
  have hsending : s'.2.sendingfile = r.transfer.sendingfile :=
    congrArg Transfer.sendingfile h.transfer
  have hf : s'.2.f = r.transfer.f := congrArg Transfer.f h.transfer
  rw [observed, h.queued_eq, hblksize, hsending, hf, Reaction.observation]

/-- An error acknowledges nothing, if it can be reported. -/
theorem Reacts.observed_error (h : Reacts s r s₁) (sys : Sys) (errnum : ErrorCode) (buf : Bytes) :
    observed s (error sys s₁.1 s₁.2 errnum buf) =
      if Reportable buf then some r.observation else none := by
  rcases error_cases sys s₁.1 s₁.2 errnum buf with ⟨hbuf, s', hs', hreact⟩ | ⟨hbuf, hcrash⟩
  · have hqueued : (r.queued ++ [errorBytes errnum buf]).filter
        (packetOpcode · = Opcode.oack.code) =
          r.queued.filter (packetOpcode · = Opcode.oack.code) := by
      rw [List.filter_append, List.filter_singleton, packetOpcode_errorBytes]
      exact List.append_nil _
    have htransfer : s₁.2.transfer = r.transfer := h.transfer
    rw [hs', (h.trans hreact).observed_ok, if_pos (show Reportable buf from hbuf),
      Reaction.observation, Reaction.observation, htransfer, hqueued]
  · rw [hcrash, if_neg (show ¬Reportable buf from hbuf)]
    rfl

end

/-! ## What is asked for decides -/

/-- The request is one that asks for this. -/
def Asked.Of (q : Request) : Asked → Prop
  | .mail => strcasecmp q.mode (ascii "mail") = 0
  | .size option => q.opt = option
  | .blocks oack _ => oackBytes q.opt q.param = oack
  | .overflow length => min q.param.length 487 = length
  | _ => True

theorem asks_of (filename mode : Bytes) (first : Option (Bytes × Bytes)) :
    (asks mode first).Of (firstRequest filename mode first) := by
  rw [asks]
  split
  · assumption
  cases first with
  | none => trivial
  | some o =>
    rw [asksOption]
    split
    · split
      · rfl
      · split
        · trivial
        · rfl
    · split
      · rfl
      · trivial

/-- An error about the value of an option can be reported unless the value is too long. -/
theorem reportable_overflow (sys : Sys) (param : Bytes) :
    Reportable (ascii "Invalid block size " ++ param ++ ascii ": " ++ sys.strerror .range ++
        ascii " (" ++ decimal Errno.range.number ++ ascii ")") ↔
      min param.length 487 + (sys.strerror .range).length ≤ 486 := by
  have hbefore : (ascii "Invalid block size ").length = 19 := by decide
  have hbetween : (ascii ": ").length = 2 := by decide
  have hbehind : (ascii " (").length + (decimal Errno.range.number).length +
      (ascii ")").length = 5 := by decide
  simp only [Reportable, List.length_append, headerSize, maxPacketSize]
  omega

theorem reportable_outOfRange (param : Bytes) :
    Reportable (ascii "Invalid block size " ++ decimalInt (strtol param).1) := by
  have hbefore : (ascii "Invalid block size ").length = 19 := by decide
  have hvalue := length_decimalInt_strtol_le param
  rw [Reportable, List.length_append, hbefore]
  generalize (decimalInt (strtol param).1).length = length at hvalue ⊢
  rw [headerSize, maxPacketSize]
  omega

section

variable (cfg : Config) (sys : Sys) (m : Machine) (c : Client) {q q' : Request}

/-- Of the options, opening a file reads the name of one that asks for the size. -/
theorem openForRead_congr (hfilename : q.filename = q'.filename) (hmode : q.mode = q'.mode)
    {tsize : Bool} (hopt : tsize = true → q.opt = q'.opt) :
    openForRead cfg sys m c q tsize = openForRead cfg sys m c q' tsize := by
  have hread : q.readMode = q'.readMode := by rw [Request.readMode, Request.readMode, hmode]
  have hserve : ∀ m c path,
      serveFile sys m c q path tsize = serveFile sys m c q' path tsize := by
    intro m c path
    rw [serveFile, serveFile, hread]
    cases tsize with
    | true => rw [hopt rfl]
    | false => simp only [Bool.false_eq_true, if_false]
  rw [openForRead, openForRead, hfilename]
  simp only [hserve]

/-- Of an option, acknowledging it reads what goes into the packet. -/
theorem negotiate_congr {param param' : Bytes}
    (h : oackBytes q.opt param = oackBytes q'.opt param') (blksize : ℕ) :
    negotiate sys m c q param blksize = negotiate sys m c q' param' blksize := by
  have hlength := congrArg List.length h
  rw [length_oackBytes, length_oackBytes] at hlength
  rw [negotiate, negotiate, optionAcknowledge, optionAcknowledge, h, hlength]

/-- Requests for the same that differ by their options leave the same. -/
theorem observed_serveAsked_congr (hfilename : q.filename = q'.filename)
    (hmode : q.mode = q'.mode) {a : Asked} (ha : a.Of q) (ha' : a.Of q')
    (line line' : Effect) :
    observed (m, c)
        (serveAsked cfg sys (loggedState m c line).1 (loggedState m c line).2 q a) =
      observed (m, c)
        (serveAsked cfg sys (loggedState m c line').1 (loggedState m c line').2 q' a) := by
  have hlog := loggedState_reacts m c line
  have hlog' := loggedState_reacts m c line'
  have hquiet : (loggedState m c line).1.quiet = (loggedState m c line').1.quiet := rfl
  have hclient : (loggedState m c line).2 = (loggedState m c line').2 := rfl
  have hnotSize : false = true → q.opt = q'.opt := fun h => absurd h Bool.false_ne_true
  generalize loggedState m c line = s at hlog hquiet hclient ⊢
  generalize loggedState m c line' = s' at hlog' hquiet hclient ⊢
  cases a with
  | mail => exact (hlog.observed_error sys _ _).trans (hlog'.observed_error sys _ _).symm
  | file =>
    refine observed_congr ?_
    rw [serveAsked, serveAsked, unlogged_openForRead_eq cfg sys _ _ _ hquiet, hclient,
      openForRead_congr cfg sys _ _ hfilename hmode hnotSize]
  | size option =>
    -- The option comes back as it was written, so that it has to be the same.
    have hopt : q.opt = q'.opt := ha.trans ha'.symm
    refine observed_congr ?_
    rw [serveAsked, serveAsked, unlogged_openForRead_eq cfg sys _ _ _ hquiet, hclient,
      openForRead_congr cfg sys _ _ hfilename hmode fun _ => hopt]
  | blocks oack blksize =>
    -- Both are acknowledged first, by the same packet.
    have hoack : oackBytes q.opt q.param = oackBytes q'.opt q'.param :=
      ha.trans ha'.symm
    have hsame : negotiate sys s.1.quiet s.2 q q.param blksize =
        negotiate sys s'.1.quiet s'.2 q' q'.param blksize := by
      rw [hquiet, hclient]
      exact negotiate_congr sys _ _ hoack blksize
    obtain ⟨hnegotiated, hparty⟩ := quiet_negotiate sys s.1 s.2 q q.param blksize
    obtain ⟨hnegotiated', hparty'⟩ := quiet_negotiate sys s'.1 s'.2 q' q'.param blksize
    rw [hsame] at hnegotiated hparty
    refine observed_congr ?_
    dsimp only [serveAsked]
    rw [unlogged_openForRead_eq cfg sys _ _ _ (hnegotiated.symm.trans hnegotiated'),
      ← hparty, hparty', openForRead_congr cfg sys _ _ hfilename hmode hnotSize]
  | outOfRange =>
    refine (hlog.observed_error sys _ _).trans (.trans ?_ (hlog'.observed_error sys _ _).symm)
    rw [if_pos (reportable_outOfRange _), if_pos (reportable_outOfRange _)]
    rfl
  | overflow length =>
    refine (hlog.observed_error sys _ _).trans (.trans ?_ (hlog'.observed_error sys _ _).symm)
    have hlength : min q.param.length 487 = min q'.param.length 487 :=
      ha.trans ha'.symm
    simp only [reportable_overflow, hlength]
    rfl

end

/-! ## What is left tells what was asked for -/

namespace Sample

/-- A system on which everything works, with error texts of a length. -/
def verbose (k : ℕ) : Sys := { Sys.ideal with strerror := fun _ => List.replicate k 46 }

/-- A client without a transfer. -/
def fresh : State := (machine [], .new 1 socket)

/-- What is seen of that client's transfer and of the options acknowledged, if the file
    asked for is of size `n`. -/
def seen (n k : ℕ) : Asked → Option (ℕ × Bool × Finset Bytes)
  | .mail | .outOfRange => some (512, false, ∅)
  | .file => some (512, true, ∅)
  | .size option => some (512, false, {oackBytes option (decimal n)})
  | .blocks oack blksize => some (blksize, true, {oack})
  | .overflow length => if length + k ≤ 486 then some (512, false, ∅) else none

end Sample

open Sample (seen verbose fresh)

/-- The option is read from the packet that acknowledges it. -/
theorem option_of_oackBytes {option option' param : Bytes}
    (h : oackBytes option param = oackBytes option' param) : option = option' := by
  have hlength := congrArg List.length h
  rw [length_oackBytes, length_oackBytes] at hlength
  rw [oackBytes_eq, oackBytes_eq] at h
  simp only [List.append_assoc] at h
  exact (List.append_inj (List.append_cancel_left h) (by omega)).1

/-- Error texts of a suitable length tell apart what is asked for. -/
theorem seen_injective {n : ℕ} {a b : Asked} (hmail : a = .mail ↔ b = .mail)
    (ha : ∀ length, a = .overflow length → length ≤ 487)
    (hb : ∀ length, b = .overflow length → length ≤ 487)
    (h : ∀ k, seen n k a = seen n k b) : a = b := by
  have hlong := h 487
  cases a with
  | mail => exact (hmail.1 rfl).symm
  | file =>
    cases b with
    | file => rfl
    | _ => simp [seen] at hlong
  | size option =>
    cases b with
    | size option' =>
      have hoack : oackBytes option (decimal n) = oackBytes option' (decimal n) := by
        simpa [seen] using hlong
      rw [option_of_oackBytes hoack]
    | _ => simp [seen] at hlong
  | blocks oack blksize =>
    cases b with
    | blocks oack' blksize' =>
      obtain ⟨rfl, rfl⟩ : blksize = blksize' ∧ oack = oack' := by simpa [seen] using hlong
      rfl
    | _ => simp [seen] at hlong
  | outOfRange =>
    cases b with
    | mail => cases hmail.2 rfl
    | outOfRange => rfl
    | _ => simp [seen] at hlong
  | overflow length =>
    cases b with
    | mail => cases hmail.2 rfl
    | overflow length' =>
      -- Of two different lengths, only the smaller one leaves room for a text of 486 bytes less.
      have hlength := ha length rfl
      have hlength' := hb length' rfl
      by_contra hne
      rcases Nat.lt_or_gt_of_ne fun heq => hne (congrArg Asked.overflow heq) with hlt | hlt
      · have hroom := h (486 - length)
        rw [seen, seen, if_pos (by omega), if_neg (by omega)] at hroom
        cases hroom
      · have hroom := h (486 - length')
        rw [seen, seen, if_neg (by omega), if_pos (by omega)] at hroom
        cases hroom
    | _ => simp [seen] at hlong

theorem acknowledged_dataBytes (blockno : UInt16) (data : Bytes) :
    ([dataBytes blockno data].filter (packetOpcode · = Opcode.oack.code)).toFinset = ∅ := by
  have hdata : packetOpcode (dataBytes blockno data) = Opcode.data.code :=
    isData_dataBytes blockno data
  rw [List.filter_singleton, hdata]
  rfl

theorem acknowledged_oackBytes (option param : Bytes) :
    ([oackBytes option param].filter (packetOpcode · = Opcode.oack.code)).toFinset =
      {oackBytes option param} := by
  rw [List.filter_singleton, packetOpcode_oackBytes]
  rfl

/-- What is seen on these systems. -/
theorem observed_verbose (k : ℕ) (q : Request) {a : Asked} (ha : a.Of q) (line : Effect) :
    (observed fresh (serveAsked Sample.config (verbose k) (loggedState fresh.1 fresh.2 line).1
        (loggedState fresh.1 fresh.2 line).2 q a)).map
          (fun o => (o.blksize, o.sendingfile, o.acknowledged)) =
      seen (fresh.1.files (requestPath Sample.config q.filename)).length k a := by
  have hlog := loggedState_reacts fresh.1 fresh.2 line
  generalize loggedState fresh.1 fresh.2 line = s at hlog ⊢
  have hserves : (verbose k).Serves (requestPath Sample.config q.filename) :=
    ⟨rfl, rfl, fun _ => rfl, rfl, Nat.le_refl⟩
  -- What is asked for decides how the file is opened, if at all.
  cases a with
  | mail =>
    rw [serveAsked, hlog.observed_error, if_pos (by decide)]
    rfl
  | file =>
    obtain ⟨s', f, es, hs', -, hreact⟩ := openForRead_started s.1 s.2 hserves rfl
      (congrArg Transfer.sendingfile hlog.transfer)
    rw [hlog.transfer] at hreact
    rw [serveAsked, hs', (hlog.trans hreact).observed_ok]
    exact congrArg (fun acknowledged => some (512, true, acknowledged)) (acknowledged_dataBytes _ _)
  | size option =>
    cases ha
    obtain ⟨m₁, hopen, hfiles, heffects⟩ := openForRead_serves s.1 s.2 hserves rfl true
    obtain ⟨s', hs', hreact⟩ := serveFile_tsize (verbose k) m₁ s.2 q
      (requestPath Sample.config q.filename) rfl
    rw [hlog.transfer, hfiles, hlog.files] at hreact
    have hexists : Reacts s ⟨s.2.transfer, [], s.1.files, _⟩ (m₁, s.2) :=
      .silent rfl rfl rfl hfiles heffects
    rw [serveAsked, hopen, hs', ((hlog.trans hexists).trans hreact).observed_ok]
    exact congrArg (fun acknowledged => some (512, false, acknowledged))
      (acknowledged_oackBytes _ _)
  | blocks oack blksize =>
    cases ha
    have hneg := negotiate_reacts (verbose k) s.1 s.2 q q.param blksize
    rw [serveAsked]
    generalize negotiate (verbose k) s.1 s.2 q q.param blksize = s₁ at hneg ⊢
    obtain ⟨s', f, es, hs', -, hreact⟩ := openForRead_reopened s₁.1 s₁.2 hserves rfl
      (congrArg Transfer.sendingfile hneg.transfer)
    rw [hneg.transfer] at hreact
    rw [hs', ((hlog.trans hneg).trans hreact).observed_ok]
    exact congrArg (fun acknowledged => some (blksize, true, acknowledged))
      (acknowledged_oackBytes _ _)
  | outOfRange =>
    rw [serveAsked, hlog.observed_error, if_pos (reportable_outOfRange _)]
    rfl
  | overflow length =>
    cases ha
    have htext : ((verbose k).strerror .range).length = k := List.length_replicate
    rw [serveAsked, hlog.observed_error, seen]
    simp only [reportable_overflow, htext]
    split <;> rfl

/-! ## The order of the options -/

section

variable {r r' : OptionRequest}

theorem OptionRequest.WellFormed.isPacket (h : r.WellFormed) : IsPacket .rrq r.bytes := by
  refine isPacket_iff.2 ⟨h.size, ?_⟩
  rw [OptionRequest.bytes]
  simp only [List.append_assoc]
  exact ntohs_htons_append _ _

/-- The options may be put in another order. -/
theorem OptionRequest.WellFormed.perm (h : r.WellFormed) {options' : List (Bytes × Bytes)}
    (hperm : options'.Perm r.options) : { r with options := options' }.WellFormed where
  filename := h.filename
  mode := h.mode
  options o ho := h.options o (hperm.subset ho)
  size := by
    have hlength := (hperm.flatMap_right OptionRequest.optionBytes).length_eq
    have hsize := h.size
    simp only [OptionRequest.bytes, List.length_append] at hsize ⊢
    rwa [hlength]

/-- A read request with an option can be logged. -/
theorem loggable_bytes_iff (h : r.WellFormed) (sys : Sys) :
    (requestOf r.bytes).Loggable sys ↔ (r.options = [] → sys.uninit ≠ none) := by
  rw [requestOf_bytes h, Request.Loggable, firstRequest, Option.map_eq_none_iff,
    List.head?_eq_none_iff]

/-- A read request that can be logged is handled as its first option asks for. -/
theorem processDatagram_asks (h : r.WellFormed) (cfg : Config) {sys : Sys} (m : Machine)
    (c : Client) (hloggable : (requestOf r.bytes).Loggable sys) :
    ∃ line, processDatagram cfg sys m c r.bytes =
      serveAsked cfg sys (loggedState m c line).1 (loggedState m c line).2
        (firstRequest r.filename r.mode r.options.head?) (asks r.mode r.options.head?) := by
  obtain ⟨line, hline⟩ := hloggable.log false
  refine ⟨line, ?_⟩
  rw [processDatagram_rrq cfg sys m c h.isPacket, processRrq_eq cfg sys m c _ _ _ rfl hline]
  exact (congrArg _ (requestOf_bytes h)).trans
    (serveRrq_eq_serveAsked cfg sys _ _ r.filename r.mode r.options.head?)

theorem asks_mail {mode : Bytes} {first : Option (Bytes × Bytes)} :
    asks mode first = .mail ↔ strcasecmp mode (ascii "mail") = 0 := by
  rw [asks]
  split
  · exact iff_of_true rfl ‹_›
  · refine iff_of_false (fun hmail => ?_) ‹_›
    cases first with
    | none => cases hmail
    | some o =>
      rw [asksOption] at hmail
      split_ifs at hmail

theorem asks_overflow_le {mode : Bytes} {first : Option (Bytes × Bytes)} (length : ℕ)
    (h : asks mode first = .overflow length) : length ≤ 487 := by
  have hof := asks_of [] mode first
  rw [h] at hof
  exact hof ▸ Nat.min_le_right _ _

/-- Two requests for a file, both with options or both without, leave the same if and only
    if their first options ask for the same. -/
theorem sameEffect_iff (h : r.WellFormed) (h' : r'.WellFormed)
    (hfilename : r.filename = r'.filename) (hmode : r.mode = r'.mode)
    (hoptions : r.options = [] ↔ r'.options = []) :
    SameEffect r.bytes r'.bytes ↔
      asks r.mode r.options.head? = asks r'.mode r'.options.head? := by
  constructor
  · intro hsame
    refine seen_injective (n := (fresh.1.files (requestPath Sample.config r.filename)).length)
      ?_ asks_overflow_le asks_overflow_le fun k => ?_
    · rw [asks_mail, asks_mail, hmode]
    · have hview := congrArg (Option.map fun o => (o.blksize, o.sendingfile, o.acknowledged))
        (hsame Sample.config (verbose k) fresh.1 fresh.2)
      have hloggable : ∀ q : Request, q.Loggable (verbose k) := fun _ _ => Option.some_ne_none _
      obtain ⟨line, hserve⟩ := processDatagram_asks h Sample.config fresh.1 fresh.2 (hloggable _)
      obtain ⟨line', hserve'⟩ :=
        processDatagram_asks h' Sample.config fresh.1 fresh.2 (hloggable _)
      rw [hserve, hserve'] at hview
      refine (observed_verbose k _ (asks_of _ _ _) line).symm.trans (hview.trans ?_)
      refine (observed_verbose k _ (asks_of _ _ _) line').trans ?_
      rw [firstRequest, hfilename]
  · intro hasks cfg sys m c
    have hlogged : (requestOf r.bytes).Loggable sys ↔ (requestOf r'.bytes).Loggable sys := by
      rw [loggable_bytes_iff h, loggable_bytes_iff h', hoptions]
    by_cases hloggable : (requestOf r.bytes).Loggable sys
    · obtain ⟨line, hserve⟩ := processDatagram_asks h cfg m c hloggable
      obtain ⟨line', hserve'⟩ := processDatagram_asks h' cfg m c (hlogged.1 hloggable)
      rw [hserve, hserve', hasks]
      exact observed_serveAsked_congr cfg sys m c hfilename hmode
        (hasks ▸ asks_of r.filename r.mode r.options.head?) (asks_of _ _ _) line line'
    · rw [processDatagram_rrq cfg sys m c h.isPacket, processDatagram_rrq cfg sys m c h'.isPacket,
        processRrq_wild cfg sys m c _ _ _ rfl hloggable,
        processRrq_wild cfg sys m c _ _ _ rfl (mt hlogged.2 hloggable)]

end

/-- The options of a read request may be put in another order if and only if the first
    ones ask for the same then. -/
theorem orderInsensitive_iff {r : OptionRequest} (h : r.WellFormed)
    {options' : List (Bytes × Bytes)} (hperm : options'.Perm r.options) :
    SameEffect r.bytes { r with options := options' }.bytes ↔
      asks r.mode r.options.head? = asks r.mode options'.head? :=
  sameEffect_iff h (h.perm hperm) rfl rfl
    ⟨fun hnil => List.perm_nil.1 (hnil ▸ hperm), fun hnil => List.nil_perm.1 (hnil ▸ hperm)⟩

namespace Sample

/-- A read request for `f`, in octet mode, with options. -/
def optionRequest (options : List (Bytes × Bytes)) : OptionRequest :=
  ⟨ascii "f", ascii "octet", options⟩

def blksizeOption : Bytes × Bytes := (ascii "blksize", ascii "1024")

def tsizeOption : Bytes × Bytes := (ascii "tsize", ascii "0")

def timeoutOption : Bytes × Bytes := (ascii "timeout", ascii "1")

/-- An option that is not known. -/
def rateOption : Bytes × Bytes := (ascii "rate", ascii "2")

end Sample

/-- Of a block size and the size of the file, what is asked for first is given. -/
theorem not_orderInsensitive :
    ¬∀ (r : OptionRequest) (options' : List (Bytes × Bytes)), r.WellFormed →
      (r.options.map Prod.fst).Nodup → options'.Perm r.options →
        SameEffect r.bytes { r with options := options' }.bytes := by
  intro h
  have hsame := h (Sample.optionRequest [Sample.blksizeOption, Sample.tsizeOption])
    [Sample.tsizeOption, Sample.blksizeOption] ⟨by decide, by decide, by decide, by decide⟩
    (by decide) (.swap _ _ _) Sample.config .ideal (Sample.machine []) (.new 1 Sample.socket)
  have hblksize := congrArg (Option.map Observation.blksize) hsame
  exact absurd hblksize (by decide +kernel)

/-- Options that ask for nothing may be put in another order. -/
theorem orderInsensitive_sample :
    SameEffect (Sample.optionRequest [Sample.timeoutOption, Sample.rateOption]).bytes
      (Sample.optionRequest [Sample.rateOption, Sample.timeoutOption]).bytes :=
  (orderInsensitive_iff (r := Sample.optionRequest [Sample.timeoutOption, Sample.rateOption])
    ⟨by decide, by decide, by decide, by decide⟩ (.swap _ _ _)).2 (by decide)

end Nbstftp
