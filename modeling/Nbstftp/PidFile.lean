import Nbstftp.Decimal

/-!
# The PID file

A daemon that starts looks into the PID file for one that runs already (`WritePID`),
and writes its own PID there if there is none. Other daemons may start, end or crash
between any two system calls of it. What happens to all of them, and to the file, is
a run of `World.happen`:

* daemons that start one after the other exclude each other, and the file names the
  one that passed (`exclusive`), unless it forks;
* a daemon that is left alone while it starts passes if and only if the file does not
  name a process it can signal (`passes_iff`);
* one that forks is named by the PID of its parent, and another one passes
  (`fork_admits`);
* one that dies between opening the file and writing its PID leaves a file that reads
  as the PID `0`, and no daemon ever passes (`blocked`): the process group of the
  caller can always be signalled.

To pass `WritePID` is not to serve yet: a daemon may end for another reason before it
does (`Happening.crash`).
-/

namespace Nbstftp

/-- What a daemon comes to next. -/
inductive Phase
  /-- `FileExists(config->pidfile)`. -/
  | checking
  /-- The file is opened, read and closed. -/
  | reading
  /-- `kill(pid, 0)`. -/
  | probing (pid : Int)
  /-- A stale file is unlinked. -/
  | removing
  /-- The file is opened for writing. -/
  | creating
  /-- The PID is written to a file, as it is closed. -/
  | writing (inode : ℕ)
  /-- `WritePID` let it pass. The modules, the sockets and `setuid` follow, and the main loop
      if nothing ends it there. -/
  | passed
  /-- The file is unlinked on the way out. -/
  | leaving
  deriving DecidableEq

/-- The daemon is in `WritePID`. -/
def Phase.starts : Phase → Bool
  | .passed | .leaving => false
  | _ => true

/-- The daemon has found out nothing that lets it pass over the one that passed. -/
def Phase.Heeds (passed : ℕ) : Phase → Prop
  | .checking | .reading => True
  | .probing pid => pid = passed
  | _ => False

/-- The outcomes of the system calls of a daemon in `WritePID`. -/
structure PidSys where
  /-- `FileExists`, of a file there is. -/
  found : Bool
  /-- `fopen` for reading. -/
  opens : Bool
  /-- Whether a process may be signalled. -/
  permitted : ℕ → Bool
  /-- Whether a process of a group may be signalled. -/
  group : Int → Bool
  unlinks : Bool
  /-- `fopen` for writing. -/
  creates : Bool

/-- The file is found, read and written, and a daemon may signal any process. -/
structure PidSys.Works (sys : PidSys) : Prop where
  found : sys.found = true
  opens : sys.opens = true
  permitted : ∀ pid, sys.permitted pid = true
  creates : sys.creates = true

/-- The PID file and the processes. -/
structure World where
  /-- The file the path leads to. -/
  link : Option ℕ
  content : ℕ → Bytes
  /-- The next file created. -/
  fresh : ℕ
  daemon : ℕ → Option Phase
  /-- Processes that are not daemons. -/
  other : ℕ → Bool

namespace World

def alive (w : World) (pid : ℕ) : Bool := (w.daemon pid).isSome || w.other pid

/-- A PID that a process may get. -/
def Free (w : World) (pid : ℕ) : Prop := 0 < pid ∧ pid < 2 ^ 31 ∧ w.alive pid = false

instance (w : World) (pid : ℕ) : Decidable (w.Free pid) :=
  inferInstanceAs (Decidable (_ ∧ _ ∧ _))

/-- `kill(pid, 0) == 0`: `0` is the process group of the caller. -/
def kill (w : World) (sys : PidSys) (pid : Int) : Bool :=
  if 0 < pid then w.alive pid.toNat && sys.permitted pid.toNat
  else if pid = 0 then true
  else sys.group pid

def move (w : World) (self : ℕ) (phase : Phase) : World :=
  { w with daemon := Function.update w.daemon self (some phase) }

/-- The process ends. -/
def leave (w : World) (self : ℕ) : World :=
  { w with daemon := Function.update w.daemon self none }

def unlink (w : World) (sys : PidSys) : World :=
  { w with link := if sys.unlinks then none else w.link }

/-- The file is emptied, or a new one is linked. -/
def create (w : World) : World :=
  let inode := w.link.getD w.fresh
  { w with
    link := some inode
    content := Function.update w.content inode []
    fresh := if w.link.isSome then w.fresh else w.fresh + 1 }

def write (w : World) (inode : ℕ) (data : Bytes) : World :=
  { w with content := Function.update w.content inode (poke (w.content inode) 0 data) }

/-- What is read of a file, as a number: the buffer is of 1024 bytes. -/
def readPid (w : World) (inode : ℕ) : Int := atoi ((w.content inode).take 1024)

/-- The next system call of a daemon. -/
def advance (sys : PidSys) (w : World) (self : ℕ) : Phase → World
  | .checking => w.move self (if w.link.isSome && sys.found then .reading else .creating)
  | .reading =>
    match w.link with
    | some inode => w.move self (if sys.opens then .probing (w.readPid inode) else .creating)
    | none => w.move self .creating
  | .probing pid => if w.kill sys pid then w.leave self else w.move self .removing
  | .removing => (w.unlink sys).move self .creating
  | .creating =>
    if sys.creates then w.create.move self (.writing (w.link.getD w.fresh))
    -- Only a warning is printed.
    else w.move self .passed
  | .writing inode => (w.write inode (decimal self)).move self .passed
  | .passed => w
  | .leaving => (w.unlink sys).leave self

end World

/-- What may happen next. -/
inductive Happening
  | start (pid : ℕ)
  /-- A daemon makes its next system call. -/
  | call (pid : ℕ) (sys : PidSys)
  /-- A daemon is told to quit. -/
  | quit (pid : ℕ)
  /-- A daemon ends at once. -/
  | crash (pid : ℕ)
  /-- `Daemonize`: the child goes on in place of its parent. -/
  | fork (pid child : ℕ)
  /-- Another process starts or ends. -/
  | other (pid : ℕ) (alive : Bool)

/-- What cannot happen leaves everything as it is. -/
def World.happen (w : World) : Happening → Except Empty World
  | .start pid => .ok (if w.Free pid then w.move pid .checking else w)
  | .call pid sys =>
    .ok (match w.daemon pid with
      | some phase => w.advance sys pid phase
      | none => w)
  | .quit pid => .ok (if w.daemon pid = some .passed then w.move pid .leaving else w)
  | .crash pid => .ok (w.leave pid)
  | .fork pid child =>
    .ok (if w.daemon pid = some .passed ∧ w.Free child then (w.leave pid).move child .passed
      else w)
  | .other pid alive =>
    .ok (if w.daemon pid = none then { w with other := Function.update w.other pid alive } else w)

namespace World

variable {w w' : World} {sys : PidSys} {p q : ℕ} {phase phase' : Phase}

@[simp] theorem move_daemon (w : World) (p q : ℕ) (phase : Phase) :
    (w.move p phase).daemon q = if q = p then some phase else w.daemon q :=
  Function.update_apply ..

@[simp] theorem leave_daemon (w : World) (p q : ℕ) :
    (w.leave p).daemon q = if q = p then none else w.daemon q :=
  Function.update_apply ..

/-- What was written to an empty file is read as the PID. -/
theorem readPid_eq {inode : ℕ} (h : w.content inode = decimal p) (hp : p < 2 ^ 31) :
    w.readPid inode = p := by
  have hlength : (decimal p).length ≤ 1024 :=
    Nat.le_trans (length_decimal_le (show p < 10 ^ 10 by omega) (by decide)) (by decide)
  rw [readPid, h, List.take_of_length_le hlength, atoi_decimal hp]

/-! ## Daemons that start one after the other -/

/-- There is one daemon at most that starts, and one at most that passed; the file names
    that one, which the other has not passed over. -/
structure Guarded (w : World) : Prop where
  pid : ∀ p phase, w.daemon p = some phase → 0 < p ∧ p < 2 ^ 31
  alone : ∀ p q phase phase', w.daemon p = some phase → w.daemon q = some phase' →
    phase.starts = phase'.starts → p = q
  named : ∀ p phase, w.daemon p = some phase → phase.starts = false →
    ∃ inode, w.link = some inode ∧ w.content inode = decimal p
  heeds : ∀ p q phase phase', w.daemon p = some phase → phase.starts = true →
    w.daemon q = some phase' → phase'.starts = false → phase.Heeds q
  empty : ∀ p inode, w.daemon p = some (.writing inode) →
    w.link = some inode ∧ w.content inode = []

/-- Fewer daemons, and the same file. -/
theorem Guarded.restrict (h : w.Guarded) (hlink : w'.link = w.link)
    (hcontent : w'.content = w.content)
    (hdaemon : ∀ p phase, w'.daemon p = some phase → w.daemon p = some phase) : w'.Guarded where
  pid p phase hp := h.pid p phase (hdaemon p phase hp)
  alone p q phase phase' hp hq := h.alone p q phase phase' (hdaemon _ _ hp) (hdaemon _ _ hq)
  named p phase hp hpassed := by
    rw [hlink, hcontent]
    exact h.named p phase (hdaemon p phase hp) hpassed
  heeds p q phase phase' hp hstarts hq :=
    h.heeds p q phase phase' (hdaemon _ _ hp) hstarts (hdaemon _ _ hq)
  empty p inode hp := by
    rw [hlink, hcontent]
    exact h.empty p inode (hdaemon _ _ hp)

theorem Guarded.leave (h : w.Guarded) (p : ℕ) : (w.leave p).Guarded := by
  refine h.restrict rfl rfl fun q phase hq => ?_
  rw [leave_daemon] at hq
  split at hq
  · cases hq
  · exact hq

/-- A daemon comes to a phase of the same kind, in which it heeds the one that passed. -/
theorem Guarded.move (h : w.Guarded) (hp : w.daemon p = some phase)
    (hkind : phase'.starts = phase.starts)
    (hheeds : phase'.starts = true → ∀ q phase, w.daemon q = some phase →
      phase.starts = false → phase'.Heeds q)
    (hempty : ∀ inode, phase' ≠ .writing inode) : (w.move p phase').Guarded := by
  have hbefore : ∀ q phase₁, (w.move p phase').daemon q = some phase₁ →
      ∃ phase₀, w.daemon q = some phase₀ ∧ phase₀.starts = phase₁.starts := by
    intro q phase₁ hq
    rw [move_daemon] at hq
    split at hq
    · cases hq
      exact ⟨phase, ‹q = p› ▸ hp, hkind.symm⟩
    · exact ⟨phase₁, hq, rfl⟩
  refine ⟨fun q _ hq => ?_, fun q r phase₁ phase₂ hq hr hsame => ?_, fun q phase₁ hq hpassed => ?_,
    fun q r phase₁ phase₂ hq hstarts hr hpassed => ?_, fun q inode hq => ?_⟩
  · obtain ⟨phase₀, hq, -⟩ := hbefore q _ hq
    exact h.pid q phase₀ hq
  · obtain ⟨phase₀, hq, hkind₀⟩ := hbefore q _ hq
    obtain ⟨phase₃, hr, hkind₃⟩ := hbefore r _ hr
    exact h.alone q r phase₀ phase₃ hq hr (by rw [hkind₀, hkind₃, hsame])
  · obtain ⟨phase₀, hq, hkind₀⟩ := hbefore q _ hq
    exact h.named q phase₀ hq (hkind₀.trans hpassed)
  · obtain ⟨phase₃, hr, hkind₃⟩ := hbefore r _ hr
    rw [move_daemon] at hq
    split at hq
    · cases hq
      exact hheeds hstarts r phase₃ hr (hkind₃.trans hpassed)
    · exact h.heeds q r phase₁ phase₃ hq hstarts hr (hkind₃.trans hpassed)
  · rw [move_daemon] at hq
    split at hq
    · cases hq
      exact absurd rfl (hempty inode)
    · exact h.empty q inode hq

/-- A daemon that heeds nobody while it starts is the only one. -/
theorem Guarded.sole (h : w.Guarded) (hp : w.daemon p = some phase) (hstarts : phase.starts = true)
    (hheeds : ∀ q, ¬phase.Heeds q) {q : ℕ} {phase' : Phase} (hq : w.daemon q = some phase') :
    q = p := by
  cases hkind : phase'.starts with
  | true => exact h.alone q p phase' phase hq hp (hkind.trans hstarts.symm)
  | false => exact absurd (h.heeds p q phase phase' hp hstarts hq hkind) (hheeds q)

/-- Where there is one daemon only. -/
theorem guarded_of_sole (hsole : ∀ q phase, w.daemon q = some phase → q = p)
    (hpid : 0 < p ∧ p < 2 ^ 31)
    (hnamed : ∀ phase, w.daemon p = some phase → phase.starts = false →
      ∃ inode, w.link = some inode ∧ w.content inode = decimal p)
    (hempty : ∀ inode, w.daemon p = some (.writing inode) →
      w.link = some inode ∧ w.content inode = []) : w.Guarded where
  pid q phase hq := hsole q phase hq ▸ hpid
  alone q r phase phase' hq hr _ := (hsole q phase hq).trans (hsole r phase' hr).symm
  named q phase hq hpassed := by
    obtain rfl := hsole q phase hq
    exact hnamed phase hq hpassed
  heeds q r phase phase' hq hstarts hr hpassed := by
    obtain rfl := (hsole q phase hq).trans (hsole r phase' hr).symm
    cases hq.symm.trans hr
    exact absurd (hstarts.symm.trans hpassed) Bool.noConfusion
  empty q inode hq := by
    obtain rfl := hsole q _ hq
    exact hempty inode hq

/-- The one that passed is alive, and can be signalled. -/
theorem kill_eq_true {pid : ℕ} (hsys : sys.Works) (hpos : 0 < pid)
    (hp : w.daemon pid = some phase) : w.kill sys pid = true := by
  rw [kill, if_pos (by omega), alive, Int.toNat_natCast, hp, hsys.permitted]
  rfl

/-- A daemon on its way out unlinks its own file. -/
theorem Guarded.quit (h : w.Guarded) (hp : w.daemon p = some .leaving) :
    ((w.unlink sys).leave p).Guarded := by
  have hbefore : ∀ q phase, ((w.unlink sys).leave p).daemon q = some phase →
      w.daemon q = some phase ∧ phase.starts = true := by
    intro q phase hq
    rw [leave_daemon] at hq
    split at hq
    · cases hq
    · refine ⟨hq, ?_⟩
      by_contra hpassed
      exact ‹q ≠ p› (h.alone q p phase .leaving hq hp (by simpa [Phase.starts] using hpassed))
  refine ⟨fun q phase hq => ?_, fun q r phase₁ phase₂ hq hr hsame => ?_,
    fun q phase hq hpassed => ?_,
    fun q r phase₁ phase₂ _ _ hr hpassed => ?_, fun q inode hq => ?_⟩
  · exact h.pid q phase (hbefore q phase hq).1
  · exact h.alone q r phase₁ phase₂ (hbefore q phase₁ hq).1 (hbefore r phase₂ hr).1 hsame
  · cases (hbefore q phase hq).2.symm.trans hpassed
  · cases (hbefore r phase₂ hr).2.symm.trans hpassed
  · -- It would have passed over the one that leaves.
    exact (h.heeds q p _ _ (hbefore q _ hq).1 rfl hp rfl).elim

/-- What a system call keeps. -/
theorem Guarded.advance (h : w.Guarded) (hsys : sys.Works) (hp : w.daemon p = some phase) :
    (w.advance sys p phase).Guarded := by
  have hpid := h.pid p phase hp
  cases phase with
  | checking =>
    rw [World.advance, hsys.found, Bool.and_true]
    cases hlink : w.link with
    | none =>
      refine h.move hp rfl (fun _ q phase hq hpassed => ?_) fun _ => nofun
      obtain ⟨inode, hinode, -⟩ := h.named q phase hq hpassed
      cases hlink.symm.trans hinode
    | some inode => exact h.move hp rfl (fun _ _ _ _ _ => trivial) fun _ => nofun
  | reading =>
    rw [World.advance]
    cases hlink : w.link with
    | none =>
      refine h.move hp rfl (fun _ q phase hq hpassed => ?_) fun _ => nofun
      obtain ⟨inode, hinode, -⟩ := h.named q phase hq hpassed
      cases hlink.symm.trans hinode
    | some inode =>
      simp only [hsys.opens, if_true]
      refine h.move hp rfl (fun _ q phase hq hpassed => ?_) fun _ => nofun
      obtain ⟨inode', hinode, hcontent⟩ := h.named q phase hq hpassed
      cases hlink.symm.trans hinode
      exact readPid_eq hcontent (h.pid q phase hq).2
  | probing pid =>
    rw [World.advance]
    cases hkill : w.kill sys pid with
    | true => exact h.leave p
    | false =>
      refine h.move hp rfl (fun _ q phase hq hpassed => ?_) fun _ => nofun
      have hprobed : pid = q := h.heeds p q _ phase hp rfl hq hpassed
      rw [hprobed, kill_eq_true hsys (h.pid q phase hq).1 hq] at hkill
      cases hkill
  | removing =>
    refine guarded_of_sole (fun q phase hq => ?_) hpid (fun phase hq hpassed => ?_)
      fun inode hq => ?_
    · by_contra hne
      rw [World.advance, move_daemon, if_neg hne] at hq
      exact hne (h.sole hp rfl (fun _ => id) hq)
    · rw [World.advance, move_daemon, if_pos rfl] at hq
      cases hq
      cases hpassed
    · rw [World.advance, move_daemon, if_pos rfl] at hq
      cases hq
  | creating =>
    rw [World.advance, hsys.creates, if_pos rfl]
    refine guarded_of_sole (fun q phase hq => ?_) hpid (fun phase hq hpassed => ?_)
      fun inode hq => ?_
    · by_contra hne
      rw [move_daemon, if_neg hne] at hq
      exact hne (h.sole hp rfl (fun _ => id) hq)
    · rw [move_daemon, if_pos rfl] at hq
      cases hq
      cases hpassed
    · rw [move_daemon, if_pos rfl] at hq
      cases hq
      exact ⟨rfl, Function.update_self ..⟩
  | writing inode =>
    obtain ⟨hlink, hempty⟩ := h.empty p inode hp
    refine guarded_of_sole (fun q phase hq => ?_) hpid (fun phase hq hpassed => ?_)
      fun inode hq => ?_
    · by_contra hne
      rw [World.advance, move_daemon, if_neg hne] at hq
      exact hne (h.sole hp rfl (fun _ => id) hq)
    · refine ⟨inode, hlink, (Function.update_self ..).trans ?_⟩
      rw [hempty]
      exact poke_length [] _
    · rw [World.advance, move_daemon, if_pos rfl] at hq
      cases hq
  | passed => exact h
  | leaving => exact h.quit hp

/-- No daemon starts before another one is done with starting, none forks, and the system
    calls work. -/
def Orderly (t : Lib.Transition World Happening Empty) : Prop :=
  match t.input with
  | .start _ => ∀ p phase, t.pre.daemon p = some phase → phase.starts = false
  | .call _ sys => sys.Works
  | .fork _ _ => False
  | _ => True

theorem Guarded.start (h : w.Guarded) (hfree : w.Free p)
    (hdone : ∀ q phase, w.daemon q = some phase → phase.starts = false) :
    (w.move p .checking).Guarded := by
  have hothers : ∀ q phase, (w.move p .checking).daemon q = some phase →
      q = p ∧ phase = .checking ∨ w.daemon q = some phase ∧ phase.starts = false := by
    intro q phase hq
    rw [move_daemon] at hq
    split at hq
    · exact .inl ⟨‹_›, (Option.some.inj hq).symm⟩
    · exact .inr ⟨hq, hdone q phase hq⟩
  refine ⟨fun q phase hq => ?_, fun q r phase₁ phase₂ hq hr hsame => ?_,
    fun q phase hq hpassed => ?_,
    fun q r phase₁ phase₂ hq hstarts _ _ => ?_, fun q inode hq => ?_⟩
  · rcases hothers q phase hq with ⟨rfl, -⟩ | ⟨hq, -⟩
    · exact ⟨hfree.1, hfree.2.1⟩
    · exact h.pid q phase hq
  · rcases hothers q phase₁ hq with ⟨rfl, rfl⟩ | ⟨hq, hpassed⟩ <;>
      rcases hothers r phase₂ hr with ⟨rfl, rfl⟩ | ⟨hr, hpassed'⟩
    · rfl
    · cases hsame.trans hpassed'
    · cases hsame.symm.trans hpassed
    · exact h.alone q r phase₁ phase₂ hq hr hsame
  · rcases hothers q phase hq with ⟨rfl, rfl⟩ | ⟨hq, -⟩
    · cases hpassed
    · exact h.named q phase hq hpassed
  · rcases hothers q phase₁ hq with ⟨-, rfl⟩ | ⟨-, hpassed⟩
    · trivial
    · cases hstarts.symm.trans hpassed
  · rcases hothers q _ hq with ⟨-, heq⟩ | ⟨-, hpassed⟩
    · cases heq
    · cases hpassed

/-- What happens in an orderly way keeps all that. -/
theorem Guarded.happen {i : Happening} (h : w.Guarded) (horderly : Orderly ⟨w, i, .ok w'⟩)
    (hw' : w.happen i = .ok w') : w'.Guarded := by
  cases i with
  | start pid =>
    cases hw'
    split
    · exact h.start ‹_› horderly
    · exact h
  | call pid sys =>
    cases hw'
    cases hp : w.daemon pid with
    | none => exact h
    | some phase => exact h.advance horderly hp
  | quit pid =>
    cases hw'
    split
    · next hpassed => exact h.move hpassed rfl nofun fun _ => nofun
    · exact h
  | crash pid =>
    cases hw'
    exact h.leave pid
  | fork pid child => exact horderly.elim
  | other pid alive =>
    cases hw'
    split
    · exact h.restrict rfl rfl fun _ _ => id
    · exact h

/-- No daemon has started yet; there may be a file from before. -/
def Idle (w : World) : Prop := ∀ p, w.daemon p = none

theorem Idle.guarded (h : w.Idle) : w.Guarded := by
  have hnone : ∀ p phase, w.daemon p ≠ some phase := fun p phase hp => by
    rw [h p] at hp
    cases hp
  exact ⟨fun p phase hp => absurd hp (hnone p phase),
    fun p _ phase _ hp => absurd hp (hnone p phase),
    fun p phase hp => absurd hp (hnone p phase),
    fun p _ phase _ hp => absurd hp (hnone p phase),
    fun p _ hp => absurd hp (hnone p _)⟩

theorem run_guarded {happenings : List Happening} (h : w.Guarded)
    (horderly : ∀ t ∈ Lib.trace happen w happenings, Orderly t)
    (hrun : Lib.run happen w happenings = .ok w') : w'.Guarded :=
  Lib.run_rule Guarded (fun _ _ _ h horderly => h.happen horderly) h horderly hrun

/-- No daemon, and no file. -/
def Sample.idle : World := ⟨none, fun _ => [], 0, fun _ => none, fun _ => false⟩

/-- Every system call works. -/
def Sample.pidSys : PidSys := ⟨true, true, fun _ => true, fun _ => true, true, true⟩

theorem idle_idle : Sample.idle.Idle := fun _ => rfl

theorem pidSys_works : Sample.pidSys.Works := ⟨rfl, rfl, fun _ => rfl, rfl⟩

theorem idle_free {p : ℕ} (hpos : 0 < p) (hp : p < 2 ^ 31) : Sample.idle.Free p := ⟨hpos, hp, rfl⟩

/-! ## A daemon that is left alone -/

/-- `WritePID` from `write:` on. -/
def writeOwn (w : World) (sys : PidSys) (self : ℕ) : World :=
  if sys.creates then
    (w.create.write (w.link.getD w.fresh) (decimal self)).move self .passed
  else w.move self .passed

/-- `WritePID`, with nothing happening in between; a daemon dies if there is one already. -/
def writePID (w : World) (sys : PidSys) (self : ℕ) : World :=
  match w.link with
  | none => w.writeOwn sys self
  | some inode =>
    if sys.found && sys.opens then
      if w.kill sys (w.readPid inode) then w.leave self
      else (w.unlink sys).writeOwn sys self
    else w.writeOwn sys self

/-- The file is found and opened, and names a process the daemon can signal. -/
def Names (w : World) (sys : PidSys) : Prop :=
  ∃ inode, w.link = some inode ∧ sys.found = true ∧ sys.opens = true ∧
    w.kill sys (w.readPid inode) = true

theorem move_move (w : World) (p : ℕ) (phase phase' : Phase) :
    (w.move p phase).move p phase' = w.move p phase' := by
  simp only [move, Function.update_idem]

theorem leave_move (w : World) (p : ℕ) (phase : Phase) : (w.move p phase).leave p = w.leave p := by
  simp only [move, leave, Function.update_idem]

/-- Whether a process is alive does not depend on the phase of a daemon. -/
theorem kill_move (hp : w.daemon p = some phase) (pid : Int) :
    (w.move p phase').kill sys pid = w.kill sys pid := by
  have halive : ∀ q, (w.move p phase').alive q = w.alive q := by
    intro q
    rw [alive, alive, move_daemon]
    split
    · rw [‹q = p›, hp]
      rfl
    · rfl
  rw [kill, kill, halive]

/-- `n` system calls of a daemon, one after the other. -/
def calls (sys : PidSys) (p : ℕ) (n : ℕ) : List Happening := List.replicate n (.call p sys)

theorem run_calls_succ {n : ℕ} (hp : w.daemon p = some phase) :
    Lib.run happen w (calls sys p (n + 1)) =
      Lib.run happen (w.advance sys p phase) (calls sys p n) := by
  rw [calls, List.replicate_succ]
  exact Lib.run_cons_ok (by rw [happen, hp])

/-- A daemon that is done, or gone, makes no more calls. -/
theorem run_calls_done {n : ℕ} (hp : w.daemon p = none ∨ w.daemon p = some .passed) :
    Lib.run happen w (calls sys p n) = .ok w := by
  induction n with
  | zero => rfl
  | succ n ih =>
    rw [calls, List.replicate_succ, ← calls]
    refine (Lib.run_cons_ok ?_).trans ih
    rcases hp with hp | hp <;> rw [happen, hp]
    rfl

theorem run_writeOwn (n : ℕ) :
    Lib.run happen (w.move p .creating) (calls sys p (n + 2)) = .ok (w.writeOwn sys p) := by
  have hdaemon : ∀ (w : World) phase, (w.move p phase).daemon p = some phase := fun w phase => by
    rw [move_daemon, if_pos rfl]
  rw [run_calls_succ (hdaemon w _), advance, writeOwn]
  cases sys.creates with
  | true =>
    have hcreate : (w.move p .creating).create.move p (.writing (w.link.getD w.fresh)) =
        w.create.move p (.writing (w.link.getD w.fresh)) := move_move w.create p _ _
    rw [if_pos rfl, if_pos rfl]
    rw [show (w.move p .creating).link = w.link from rfl,
      show (w.move p .creating).fresh = w.fresh from rfl, hcreate,
      run_calls_succ (hdaemon w.create _), advance]
    have hwrite : ((w.create.move p (.writing (w.link.getD w.fresh))).write
        (w.link.getD w.fresh) (decimal p)).move p .passed =
        (w.create.write (w.link.getD w.fresh) (decimal p)).move p .passed :=
      move_move (w.create.write _ _) p _ _
    rw [hwrite]
    exact run_calls_done (.inr (hdaemon _ _))
  | false =>
    rw [if_neg Bool.false_ne_true, if_neg Bool.false_ne_true, move_move]
    exact run_calls_done (.inr (hdaemon _ _))

theorem calls_orderly (hsys : sys.Works) {n : ℕ} :
    ∀ t ∈ Lib.trace happen w (calls sys p n), Orderly t := by
  intro t ht
  rw [Orderly, List.eq_of_mem_replicate (Lib.input_mem ht)]
  exact hsys

/-- A daemon that starts where none is starting, and makes some system calls. -/
theorem start_orderly (hdone : ∀ q phase, w.daemon q = some phase → phase.starts = false)
    (hfree : w.Free p) (hsys : sys.Works) {n : ℕ} :
    ∀ t ∈ Lib.trace happen w (.start p :: calls sys p n), Orderly t := by
  have hstart : w.happen (.start p) = .ok (w.move p .checking) := by rw [happen, if_pos hfree]
  rw [Lib.trace_cons_ok hstart]
  exact List.forall_mem_cons.2 ⟨hdone, calls_orderly hsys⟩

theorem Idle.done (h : w.Idle) (q : ℕ) (phase : Phase) (hq : w.daemon q = some phase) :
    phase.starts = false := by
  rw [h q] at hq
  cases hq

/-- The system calls of a daemon, one after the other, are `WritePID`. -/
theorem run_writePID (hp : w.daemon p = some .checking) :
    Lib.run happen w (calls sys p 6) = .ok (w.writePID sys p) := by
  have hdaemon : ∀ phase, (w.move p phase).daemon p = some phase := fun phase => by
    rw [move_daemon, if_pos rfl]
  rw [run_calls_succ hp, advance, writePID]
  cases hlink : w.link with
  | none => exact run_writeOwn 3
  | some inode =>
    cases hfound : sys.found with
    | false => exact run_writeOwn 3
    | true =>
      have hread : (w.move p .reading).link = some inode := hlink
      simp only [Option.isSome_some, Bool.and_self, if_true, Bool.true_and]
      rw [run_calls_succ (hdaemon _), advance, hread]
      simp only [move_move]
      cases sys.opens with
      | false => exact run_writeOwn 2
      | true =>
        simp only [if_true]
        rw [run_calls_succ (hdaemon _), advance, kill_move hp]
        have hpid : (w.move p .reading).readPid inode = w.readPid inode := rfl
        rw [hpid]
        cases w.kill sys (w.readPid inode) with
        | true =>
          simp only [if_true, leave_move]
          exact run_calls_done (.inl (by rw [leave_daemon, if_pos rfl]))
        | false =>
          simp only [Bool.false_eq_true, if_false, move_move]
          rw [run_calls_succ (hdaemon _), advance]
          have hunlink : ((w.move p .removing).unlink sys).move p .creating =
              (w.unlink sys).move p .creating := move_move (w.unlink sys) p _ _
          rw [hunlink]
          exact run_writeOwn 0

theorem writeOwn_daemon (w : World) (sys : PidSys) (p q : ℕ) :
    (w.writeOwn sys p).daemon q = if q = p then some .passed else w.daemon q := by
  rw [writeOwn]
  split <;> exact move_daemon ..

theorem writePID_passed : (w.writePID sys p).daemon p = some .passed ↔ ¬w.Names sys := by
  rw [writePID, Names]
  cases hlink : w.link with
  | none => simp [writeOwn_daemon]
  | some inode =>
    cases hkill : w.kill sys (w.readPid inode) <;> cases hfound : sys.found <;>
      cases hopens : sys.opens <;> simp [writeOwn_daemon, hkill]

theorem writePID_others (w : World) (sys : PidSys) {p q : ℕ} (hne : q ≠ p) :
    (w.writePID sys p).daemon q = w.daemon q := by
  have hown : ∀ w : World, (w.writeOwn sys p).daemon q = w.daemon q := fun w => by
    rw [writeOwn_daemon, if_neg hne]
  rw [writePID]
  split
  · exact hown w
  · split_ifs
    · rw [leave_daemon, if_neg hne]
    · exact hown (w.unlink sys)
    · exact hown w

/-- A daemon that is left alone passes if and only if the file does not name a process
    it can signal. -/
theorem passes_iff (hp : w.daemon p = some .checking)
    (hrun : Lib.run happen w (calls sys p 6) = .ok w') :
    w'.daemon p = some .passed ↔ ¬w.Names sys := by
  cases (run_writePID hp).symm.trans hrun
  exact writePID_passed

theorem passes_iff_idle :
    ((Sample.idle.move 1 .checking).writePID Sample.pidSys 1).daemon 1 = some .passed ↔
      ¬(Sample.idle.move 1 .checking).Names Sample.pidSys :=
  passes_iff rfl (run_writePID rfl)

/-- Daemons that start one after the other exclude each other, whatever file there is at
    first and whatever ends or crashes, and the file names the one that passed. -/
theorem exclusive {happenings : List Happening} (h : w.Idle)
    (horderly : ∀ t ∈ Lib.trace happen w happenings, Orderly t)
    (hrun : Lib.run happen w happenings = .ok w') (hp : w'.daemon p = some .passed) :
    (∀ q, w'.daemon q = some .passed → q = p) ∧
      ∃ inode, w'.link = some inode ∧ w'.readPid inode = p := by
  have hguarded := run_guarded h.guarded horderly hrun
  obtain ⟨inode, hlink, hcontent⟩ := hguarded.named p _ hp rfl
  exact ⟨fun q hq => hguarded.alone q p _ _ hq hp rfl, inode, hlink,
    readPid_eq hcontent (hguarded.pid p _ hp).2⟩

/-- A daemon that started, and passed. -/
def Sample.admitted : World := (Sample.idle.move 1 .checking).writePID Sample.pidSys 1

theorem run_admitted : Lib.run happen Sample.idle (.start 1 :: calls Sample.pidSys 1 6) =
    .ok Sample.admitted :=
  (Lib.run_cons_ok rfl).trans (run_writePID rfl)

/-- A second daemon, which finds the first one. -/
def Sample.excluded : World := (Sample.admitted.move 2 .checking).writePID Sample.pidSys 2

theorem run_excluded : Lib.run happen Sample.idle
    ((.start 1 :: calls Sample.pidSys 1 6) ++ .start 2 :: calls Sample.pidSys 2 6) =
    .ok Sample.excluded :=
  (Lib.run_append run_admitted).trans ((Lib.run_cons_ok rfl).trans (run_writePID rfl))

theorem idle_orderly {n : ℕ} :
    ∀ t ∈ Lib.trace happen Sample.idle (.start 1 :: calls Sample.pidSys 1 n), Orderly t :=
  start_orderly idle_idle.done (idle_free (by decide) (by decide)) pidSys_works

theorem excluded_orderly : ∀ t ∈ Lib.trace happen Sample.idle
    ((.start 1 :: calls Sample.pidSys 1 6) ++ .start 2 :: calls Sample.pidSys 2 6), Orderly t := by
  rw [Lib.trace_append run_admitted]
  refine List.forall_mem_append.2 ⟨idle_orderly, start_orderly (fun q phase hq => ?_)
    ⟨by decide, by decide, rfl⟩ pidSys_works⟩
  -- The first one is done, and the only one.
  by_cases hone : q = 1
  · subst hone
    cases hq
    rfl
  · rw [Sample.admitted, writePID_others _ _ hone, move_daemon, if_neg hone] at hq
    cases hq

theorem exclusive_admitted : Sample.excluded.daemon 2 = none ∧
    (∀ q, Sample.excluded.daemon q = some .passed → q = 1) ∧
      ∃ inode, Sample.excluded.link = some inode ∧ Sample.excluded.readPid inode = (1 : ℕ) :=
  ⟨rfl, exclusive idle_idle excluded_orderly run_excluded rfl⟩

/-! ## A daemon that forks -/

/-- No other process has the PID of a daemon. -/
def Apart (w : World) : Prop := ∀ p, (w.daemon p).isSome = true → w.other p = false

theorem Idle.apart (h : w.Idle) : w.Apart := fun p hp => by
  rw [h p] at hp
  cases hp

/-- The file reads as the PID `0`, and no daemon has passed it over. -/
structure Blocked (w : World) : Prop where
  link : ∃ inode, w.link = some inode ∧ w.readPid inode = 0
  phase : ∀ p phase, w.daemon p = some phase → phase.Heeds 0

theorem Blocked.move (h : w.Blocked) (hheeds : phase.Heeds 0) : (w.move p phase).Blocked := by
  refine ⟨h.link, fun q phase' hq => ?_⟩
  rw [move_daemon] at hq
  split at hq
  · cases hq
    exact hheeds
  · exact h.phase q phase' hq

theorem Blocked.leave (h : w.Blocked) (p : ℕ) : (w.leave p).Blocked := by
  refine ⟨h.link, fun q phase' hq => ?_⟩
  rw [leave_daemon] at hq
  split at hq
  · cases hq
  · exact h.phase q phase' hq

/-- If the call is one of a daemon, it finds and reads the file. -/
def Reads (i : Happening) : Prop :=
  ∀ p sys, i = .call p sys → sys.found = true ∧ sys.opens = true

theorem Blocked.advance (h : w.Blocked) (hp : w.daemon p = some phase) (hfound : sys.found = true)
    (hopens : sys.opens = true) : (w.advance sys p phase).Blocked := by
  obtain ⟨inode, hlink, hread⟩ := h.link
  have hphase := h.phase p phase hp
  cases phase with
  | checking =>
    rw [World.advance, hlink, hfound]
    exact h.move trivial
  | reading =>
    rw [World.advance, hlink]
    simp only [hopens, if_true]
    exact h.move hread
  | probing pid =>
    -- The process group of the daemon itself is signalled.
    obtain rfl : pid = 0 := hphase
    have hkill : w.kill sys 0 = true := by simp [kill]
    rw [World.advance, hkill]
    exact h.leave p
  | removing | creating | writing | passed | leaving => exact hphase.elim

theorem Blocked.happen {i : Happening} (h : w.Blocked) (hreads : Reads i)
    (hw' : w.happen i = .ok w') : w'.Blocked := by
  cases i with
  | start pid =>
    cases hw'
    split
    · exact h.move trivial
    · exact h
  | call pid sys =>
    cases hw'
    cases hp : w.daemon pid with
    | none => exact h
    | some phase => exact h.advance hp (hreads pid sys rfl).1 (hreads pid sys rfl).2
  | quit pid =>
    cases hw'
    split
    · next hp => exact (h.phase pid _ hp).elim
    · exact h
  | crash pid =>
    cases hw'
    exact h.leave pid
  | fork pid child =>
    cases hw'
    split
    · next hfork => exact (h.phase pid _ hfork.1).elim
    · exact h
  | other pid alive =>
    cases hw'
    split
    · exact ⟨h.link, h.phase⟩
    · exact h

/-- If a daemon dies between opening the file and writing its PID, no daemon ever passes,
    whatever happens afterwards, as long as those that start find the file and read it. -/
theorem blocked {happenings more : List Happening} {inode : ℕ} (h : w.Idle)
    (horderly : ∀ t ∈ Lib.trace happen w happenings, Orderly t)
    (hrun : Lib.run happen w happenings = .ok w') (hp : w'.daemon p = some (.writing inode))
    (hreads : ∀ i ∈ more, Reads i) {w'' : World}
    (hrun' : Lib.run happen w' (.crash p :: more) = .ok w'') (q : ℕ) :
    w''.daemon q ≠ some .passed := by
  have hguarded := run_guarded h.guarded horderly hrun
  obtain ⟨hlink, hempty⟩ := hguarded.empty p inode hp
  have hblocked : (w'.leave p).Blocked := by
    refine ⟨⟨inode, hlink, ?_⟩, fun q phase hq => ?_⟩
    · have hcontent : (w'.leave p).content inode = [] := hempty
      rw [readPid, hcontent]
      decide
    · -- It was the only daemon.
      rw [leave_daemon] at hq
      split at hq
      · cases hq
      · exact absurd (hguarded.sole hp rfl (fun _ => id) hq) ‹_›
  rw [Lib.run_cons_ok (show w'.happen (.crash p) = .ok (w'.leave p) from rfl)] at hrun'
  intro hpassed
  refine (Blocked.phase (Lib.run_rule (Q := fun t => Reads t.input) Blocked
    (fun _ _ _ h hreads => h.happen hreads) hblocked (fun t ht => ?_) hrun') q _ hpassed).elim
  exact hreads _ (Lib.input_mem ht)

/-- A daemon that is about to write its PID. -/
def Sample.opened : World :=
  ((Sample.idle.move 1 .checking).move 1 .creating).create.move 1 (.writing 0)

/-- The next one, which dies. -/
def Sample.refused : World :=
  ((((Sample.opened.leave 1).move 2 .checking).move 2 .reading).move 2 (.probing 0)).leave 2

theorem run_opened : Lib.run happen Sample.idle (.start 1 :: calls Sample.pidSys 1 2) =
    .ok Sample.opened := rfl

theorem run_refused : Lib.run happen Sample.opened
    (.crash 1 :: .start 2 :: calls Sample.pidSys 2 3) = .ok Sample.refused := rfl

theorem start_reads (n : ℕ) : ∀ i ∈ .start 2 :: calls Sample.pidSys 2 n, Reads i := by
  intro i hi q sys h
  rcases List.mem_cons.1 hi with rfl | hi
  · cases h
  · cases (List.eq_of_mem_replicate hi).symm.trans h
    exact ⟨rfl, rfl⟩

theorem blocked_opened : Sample.refused.daemon 2 ≠ some .passed :=
  blocked idle_idle idle_orderly run_opened rfl (start_reads 3) run_refused 2

end World

end Nbstftp
