import Nbstftp.Turn
import Nbstftp.Lib.Location

/-!
# Confinement to the directory

The path of a request is the directory of the configuration, a slash and the
filename (`requestPath`), resolved lexically to a location (`resolve`). So it
stays in the directory exactly if the filename does not climb out of it, or
enters it again (`below_requestPath_iff`).

Nothing checks that: a request is `Confined`, i.e., opens nothing outside of the
directory and is refused if its filename leaves it, exactly if its filename
stays, or the request is refused anyway before it comes to the path
(`confined_iff`).
-/

namespace Nbstftp

open Lib (Component Location)

/-- What a name between two slashes stands for. -/
def component (name : Bytes) : Component Bytes :=
  if name = [] ∨ name = ascii "." then .here
  else if name = ascii ".." then .up
  else .name name

def components (path : Bytes) : List (Component Bytes) := (path.splitOn 47).map component

/-- Where a path leads, lexically: from the root if it starts with a slash, from
    the working directory otherwise. -/
def resolve (path : Bytes) : Location Bytes :=
  Location.walk ⟨path.head? = some 47, 0, []⟩ (components path)

/-- The filename of a request as part of its path. -/
def pathname (cfg : Config) (filename : Bytes) : Bytes :=
  if cfg.fixpath then fixPath filename else filename

theorem requestPath_eq (cfg : Config) (filename : Bytes) :
    requestPath cfg filename = cfg.directory ++ 47 :: pathname cfg filename := by
  rw [requestPath, List.append_assoc]
  rfl

/-- A directory is entered before what follows the slash behind it. -/
theorem resolve_append {directory : Bytes} (hd : directory ≠ []) (filename : Bytes) :
    resolve (directory ++ 47 :: filename) = (resolve directory).walk (components filename) := by
  rw [resolve, resolve, ← Location.walk_append, components, List.splitOn_append_cons_self,
    List.map_append, List.head?_append_of_ne_nil _ hd]
  rfl

theorem resolve_absolute (path : Bytes) :
    (resolve path).absolute = decide (path.head? = some 47) :=
  Location.walk_absolute _ _

/-- A request stays in the directory exactly if its filename returns to it. -/
theorem below_requestPath_iff (cfg : Config) (filename : Bytes) :
    (resolve cfg.directory).Below (resolve (requestPath cfg filename)) ↔
      cfg.directory ≠ [] ∧ (resolve cfg.directory).Returns
        (Location.normal (components (pathname cfg filename))) := by
  rw [requestPath_eq]
  by_cases hd : cfg.directory = []
  · -- Then the path starts from the root, and the directory does not.
    refine ⟨fun h => absurd h.1 ?_, fun h => absurd hd h.1⟩
    rw [hd, resolve_absolute, resolve_absolute]
    simp
  · rw [resolve_append hd, Location.below_walk_iff]
    exact (and_iff_right hd).symm

/-! ## What a request opens -/

/-- The calls made until a case of the switch ends, well or in a crash. -/
def calls : Outcome → List Effect
  | .ok s' => s'.1.effects
  | .error crash => crash.machine.effects

/-- The paths opened from the machine `m` on. -/
def pathsOpened (m : Machine) (o : Outcome) : List Bytes :=
  opened ((calls o).drop m.effects.length)

/-- The request is refused: an ERROR packet is queued, and the server goes on. -/
def Refused (s : State) : Outcome → Prop
  | .ok s' => ∃ e ∈ queuedBetween s s', ntohs e 0 = Opcode.error.code
  | .error _ => False

theorem not_refused_error {s : State} {crash : Crash} : ¬Refused s (.error crash) := id

/-- Only paths in the directory are opened, and if the path of the request is not
    in the directory, it is refused and nothing is opened. -/
def Confined (cfg : Config) (s : State) (tmp : Bytes) (o : Outcome) : Prop :=
  (∀ p ∈ pathsOpened s.1 o, (resolve cfg.directory).Below (resolve p)) ∧
    (¬(resolve cfg.directory).Below (resolve tmp) → Refused s o ∧ pathsOpened s.1 o = [])

section

variable {cfg : Config} {s : State} {tmp : Bytes} {o : Outcome} {es : List Effect}

theorem pathsOpened_eq {m : Machine} (h : calls o = m.effects ++ es) :
    pathsOpened m o = opened es := by
  rw [pathsOpened, h, List.drop_left]

theorem confined_of_refused (h : Refused s o) (hopen : pathsOpened s.1 o = []) :
    Confined cfg s tmp o := by
  refine ⟨?_, fun _ => ⟨h, hopen⟩⟩
  rw [hopen]
  exact fun p hp => absurd hp List.not_mem_nil

/-- A request that opens its path, or is not refused, has to stay. -/
theorem confined_iff_below (htmp : ∀ p ∈ pathsOpened s.1 o, p = tmp)
    (h : Refused s o → pathsOpened s.1 o ≠ []) :
    Confined cfg s tmp o ↔ (resolve cfg.directory).Below (resolve tmp) := by
  constructor
  · rintro ⟨-, hleaves⟩
    by_contra hbelow
    exact h (hleaves hbelow).1 (hleaves hbelow).2
  · exact fun hbelow => ⟨fun p hp => htmp p hp ▸ hbelow, fun hleaves => absurd hbelow hleaves⟩

/-- In particular one that opens its path once. -/
theorem confined_iff_of_opened (hes : calls o = s.1.effects ++ es) (htmp : opened es = [tmp]) :
    Confined cfg s tmp o ↔ (resolve cfg.directory).Below (resolve tmp) := by
  have hopened : pathsOpened s.1 o = [tmp] := (pathsOpened_eq hes).trans htmp
  refine confined_iff_below (fun p hp => ?_) fun _ => ?_
  · rw [hopened] at hp
    exact List.mem_singleton.1 hp
  · rw [hopened]
    exact List.cons_ne_nil _ _

/-- Handling an error opens nothing. -/
theorem calls_error (sys : Sys) (m : Machine) (c : Client) (errnum : ErrorCode) (buf : Bytes) :
    calls (error sys m c errnum buf) = m.effects := by
  rcases error_cases sys m c errnum buf with ⟨-, s', hs', hreact⟩ | ⟨-, hcrash⟩
  · rw [hs']
    exact hreact.effects.trans (List.append_nil _)
  · rw [hcrash]
    rfl

/-- Handling an error after calls that open nothing refuses the request, if the
    message fits; else, nothing is opened either. -/
theorem confined_error (sys : Sys) {s₁ : State} {r : Reaction} (h : Reacts s r s₁)
    (hopen : opened r.effects = []) (errnum : ErrorCode) (buf : Bytes) :
    Confined cfg s tmp (error sys s₁.1 s₁.2 errnum buf) ↔
      buf.length + headerSize ≤ maxPacketSize ∨
        (resolve cfg.directory).Below (resolve tmp) := by
  rcases error_cases sys s₁.1 s₁.2 errnum buf with
    ⟨hfits, s', hs', hreact⟩ | ⟨hlarge, hcrash⟩
  · have hreact' := h.trans hreact
    have hcalls : calls (.ok s') = s.1.effects ++ r.effects := by
      rw [← List.append_nil r.effects]
      exact hreact'.effects
    rw [hs']
    refine ⟨fun _ => .inl hfits, fun _ => confined_of_refused ?_ ?_⟩
    · refine ⟨errorBytes errnum buf, ?_, ?_⟩
      · rw [hreact'.queued_eq]
        exact List.mem_append_right _ List.mem_cons_self
      · rw [errorBytes, List.append_assoc, List.append_assoc, ntohs_htons_append]
    · rw [pathsOpened_eq hcalls, hopen]
  · have hcalls : calls (.error ⟨.assertion, s₁.1⟩) = s.1.effects ++ r.effects := h.effects
    rw [hcrash]
    refine (confined_iff_below ?_ (absurd · not_refused_error)).trans
      (or_iff_right hlarge).symm
    rw [pathsOpened_eq hcalls, hopen]
    exact fun p hp => absurd hp List.not_mem_nil

/-- A request that cannot be logged is not refused, nor is anything opened. -/
theorem confined_wild (m : Machine) (c : Client) :
    Confined cfg (m, c) tmp (.error ⟨.wildPointer, (releaseLastpacket m c).1⟩) ↔
      (resolve cfg.directory).Below (resolve tmp) := by
  have hcalls : calls (.error ⟨.wildPointer, (releaseLastpacket m c).1⟩) =
      m.effects ++ releaseEffects c := (releaseLastpacket_reacts m c).effects
  refine confined_iff_below ?_ (absurd · not_refused_error)
  rw [pathsOpened_eq hcalls, opened_releaseEffects]
  exact fun p hp => absurd hp List.not_mem_nil

/-- An opening is of the path of the request. -/
theorem Opening.confined_iff_opened {t : Transfer} (h : Opening tmp t s o) :
    Confined cfg s tmp o ↔ (resolve cfg.directory).Below (resolve tmp) := by
  cases h with
  | crash fault m es hfault hes htmp =>
    refine confined_iff_below ?_ (absurd · not_refused_error)
    rwa [pathsOpened_eq (show calls (.error ⟨fault, m⟩) = _ from hes)]
  | ok t' qs files es s' hstart h hopen htmp =>
    have hes : pathsOpened s.1 (.ok s') = opened es :=
      pathsOpened_eq (show calls (.ok s') = _ from h.effects)
    refine confined_iff_below ?_ fun _ => ?_
    · rwa [hes]
    · rwa [hes]

end

/-! ## Requests -/

/-- The error a request is refused with before any path is opened. -/
def refusal (cfg : Config) (sys : Sys) (datagram : Bytes) : Option (ErrorCode × Bytes) :=
  if opcodeOf datagram = Opcode.wrq.code then wrqRefusal cfg sys (requestOf datagram)
  else rrqRefusal sys (requestOf datagram)

/-- A datagram that can be logged and is refused for another reason than its path, by
    an error that fits into a packet. -/
def RefusedAnyway (cfg : Config) (sys : Sys) (datagram : Bytes) : Prop :=
  datagram.length ≤ maxPacketSize ∧ (requestOf datagram).Loggable sys ∧
    ∃ e ∈ refusal cfg sys datagram, e.2.length + headerSize ≤ maxPacketSize

section

variable {cfg : Config} {sys : Sys} {m : Machine} {c : Client} {datagram tmp : Bytes}

theorem processRrq_confined_iff (h : IsPacket .rrq datagram)
    (htmp : requestPath cfg (requestOf datagram).filename = tmp) :
    Confined cfg (m, c) tmp (processDatagram cfg sys m c datagram) ↔
      RefusedAnyway cfg sys datagram ∨ (resolve cfg.directory).Below (resolve tmp) := by
  have hrefusal : refusal cfg sys datagram = rrqRefusal sys (requestOf datagram) := by
    rw [refusal, h.2]
    rfl
  rw [processDatagram_rrq cfg sys m c h, RefusedAnyway, hrefusal, ← htmp]
  rcases processRrq_cases cfg sys m c (requestOf datagram) (receiveBuffer datagram) pktlen rfl
    with ⟨hwild, hcrash⟩ | ⟨hloggable, ⟨e, line, hline, he, hrefused⟩ |
      ⟨hnone, -, hopening⟩ | ⟨blksize, hnone, -, hopening⟩⟩
  · rw [hcrash, confined_wild]
    simp [hwild]
  · rw [hrefused, confined_error sys (loggedState_reacts m c line) (opened_logged c hline), he]
    simp [h.1, hloggable]
  · rw [hopening.confined_iff_opened, hnone]
    simp
  · rw [hopening.confined_iff_opened, hnone]
    simp

theorem processWrq_confined_iff (h : IsPacket .wrq datagram)
    (htmp : requestPath cfg (requestOf datagram).filename = tmp) :
    Confined cfg (m, c) tmp (processDatagram cfg sys m c datagram) ↔
      RefusedAnyway cfg sys datagram ∨ (resolve cfg.directory).Below (resolve tmp) := by
  have hrefusal : refusal cfg sys datagram = wrqRefusal cfg sys (requestOf datagram) := by
    rw [refusal, h.2]
    rfl
  rw [processDatagram_wrq cfg sys m c h, RefusedAnyway, hrefusal, ← htmp]
  rcases processWrq_cases cfg sys m c (requestOf datagram) (receiveBuffer datagram) pktlen rfl
    with ⟨hwild, hcrash⟩ | ⟨hloggable, line, hline, hcases⟩
  · rw [hcrash, confined_wild]
    simp [hwild]
  have hlog := loggedState_reacts m c line
  have hopened := opened_logged c hline
  rcases hcases with ⟨e, he, hrefused⟩ | ⟨hnone, e, -, hfailed⟩ | ⟨hnone, -, s', f, hs', -, hreact⟩
  · rw [hrefused, confined_error sys hlog hopened, he]
    simp [h.1, hloggable]
  · have hopen := hlog.emit (.fopen (requestPath cfg (requestOf datagram).filename)
      (requestOf datagram).writeMode)
    rw [hfailed, confined_iff_of_opened ((calls_error _ _ _ _ _).trans hopen.effects)
      (by rw [opened_append, hopened]; rfl), hnone]
    simp
  · have hcalls : calls (.ok s') = _ := hreact.effects
    rw [hs', confined_iff_of_opened hcalls (by rw [opened_append, hopened]; rfl), hnone]
    simp

/-- A request, whatever the system calls give, is confined to the directory exactly
    if it is refused anyway, or its filename returns to the directory. -/
theorem confined_iff
    (h : opcodeOf datagram = Opcode.rrq.code ∨ opcodeOf datagram = Opcode.wrq.code) :
    Confined cfg (m, c) (requestPath cfg (requestOf datagram).filename)
        (processDatagram cfg sys m c datagram) ↔
      RefusedAnyway cfg sys datagram ∨ (cfg.directory ≠ [] ∧ (resolve cfg.directory).Returns
        (Location.normal (components (pathname cfg (requestOf datagram).filename)))) := by
  rw [← below_requestPath_iff]
  by_cases hlen : datagram.length ≤ maxPacketSize
  · rcases h with hrrq | hwrq
    · exact processRrq_confined_iff ⟨hlen, hrrq⟩ rfl
    · exact processWrq_confined_iff ⟨hlen, hwrq⟩ rfl
  · -- A datagram that is too large is dropped, without an answer.
    rw [processDatagram_large cfg sys m c hlen]
    have hnone : pathsOpened m (.ok (m, c)) = [] :=
      pathsOpened_eq (show calls (.ok (m, c)) = m.effects ++ [] from (List.append_nil _).symm)
    have hrefused : ¬Refused (m, c) (.ok (m, c)) := by
      rintro ⟨e, he, -⟩
      rw [queuedBetween, List.drop_length] at he
      cases he
    refine (confined_iff_below ?_ (absurd · hrefused)).trans (or_iff_right (hlen ·.1)).symm
    rw [hnone]
    exact fun p hp => absurd hp List.not_mem_nil

end

/-- A file beside the directory is asked for, and opened. -/
theorem not_confined :
    ¬∀ cfg sys m c datagram,
      opcodeOf datagram = Opcode.rrq.code ∨ opcodeOf datagram = Opcode.wrq.code →
      Confined cfg (m, c) (requestPath cfg (requestOf datagram).filename)
        (processDatagram cfg sys m c datagram) := by
  intro h
  have hconfined := h Sample.config .ideal (Sample.start []).1 (Sample.start []).2
    (htons Opcode.rrq.code ++ ascii "../etc/passwd" ++ [0] ++ ascii "octet" ++ [0])
    (.inl (by decide +kernel))
  exact absurd hconfined.1 (by decide +kernel)

/-- A name in the directory. -/
theorem confined_name :
    Confined Sample.config (Sample.start [])
      (requestPath Sample.config (requestOf (Sample.request .rrq [])).filename)
      (processDatagram Sample.config .ideal (Sample.start []).1 (Sample.start []).2
        (Sample.request .rrq [])) :=
  (confined_iff (.inl (by decide +kernel))).2 (.inr (by decide +kernel))

end Nbstftp
