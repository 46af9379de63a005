import Nbstftp.Events
import Nbstftp.Fields

/-!
# Memory that was never written

A request is to be treated by what was received, whatever is in memory that nobody has written
(`IndependentOfMemory`). The fields of a request are assigned one by one, but for the parameter
of an option: that is only read if the option is not empty, and printed in any case, if the
pointer can be followed at all.

So a request is treated alike exactly if its option is not empty (`independentOfMemory_iff`).
-/

namespace Nbstftp

/-- The same system, with something else in memory that was never written. -/
def Sys.withUninit (sys : Sys) (s : Option Bytes) : Sys := { sys with uninit := s }

/-- What is logged for a request: whether it writes, and its four strings. -/
def Effect.logged : Effect → Option (Bool × Bytes × Bytes × Bytes × Bytes)
  | .logRequest write filename mode opt optparam => some (write, filename, mode, opt, optparam)
  | _ => none

/-- The text logged for the requests so far. -/
def logged (es : List Effect) : List (Bool × Bytes × Bytes × Bytes × Bytes) :=
  es.filterMap Effect.logged

theorem logged_append (es es' : List Effect) : logged (es ++ es') = logged es ++ logged es' :=
  List.filterMap_append

/-- Two ways to handle a datagram queue the same packets, open the same files and log the
    same. -/
structure SameTreatment (s : State) (o o' : Outcome) : Prop where
  queued : o.toOption.map (queuedBetween s) = o'.toOption.map (queuedBetween s)
  opened : pathsOpened s.1 o = pathsOpened s.1 o'
  logged : logged (calls o) = logged (calls o')

/-- A datagram is treated alike, whatever memory holds that was never written. -/
def IndependentOfMemory (cfg : Config) (sys : Sys) (m : Machine) (c : Client)
    (datagram : Bytes) : Prop :=
  ∀ s s', SameTreatment (m, c) (processDatagram cfg (sys.withUninit s) m c datagram)
    (processDatagram cfg (sys.withUninit s') m c datagram)

/-! ## The parameter -/

section

variable (cfg : Config) (sys : Sys) (m : Machine) (c : Client) (q : Request)

variable {sys q} in
theorem log_eq_some {param : Bytes} (h : q.optparam.or sys.uninit = some param) (write : Bool) :
    q.log sys write = some (.logRequest write q.filename q.mode q.opt param) := by
  rw [Request.log, h]
  rfl

theorem serveRrq_withUninit (s : Option Bytes) :
    serveRrq cfg (sys.withUninit s) m c q = serveRrq cfg sys m c q := rfl

theorem serveWrq_withUninit (s : Option Bytes) :
    serveWrq cfg (sys.withUninit s) m c q = serveWrq cfg sys m c q := rfl

/-- Of all that is logged while a request is handled, serving it logs nothing. -/
theorem logged_serving {starts : Prop} {es : List Effect} (h : ∀ e ∈ es, Serving starts e) :
    logged es = [] := by
  refine List.filterMap_eq_nil_iff.2 fun e he => ?_
  rcases h e he with hfile | ⟨-, rfl⟩
  · cases e with
    | fopen | fclose => rfl
    | _ => cases hfile
  · rfl

theorem logged_releaseEffects : logged (releaseEffects c) = [] := by
  rw [releaseEffects]
  cases c.lastpacket with
  | none => rfl
  | some last =>
    dsimp only
    split <;> rfl

/-- The only line logged for a request, served from where it was logged. -/
theorem logged_request {line : Effect} {starts : Prop} {o : Outcome}
    (h : Makes (Serving starts) (loggedState m c line).1 o) :
    logged (calls o) = logged m.effects ++ logged [line] := by
  obtain ⟨es, hes, hserving⟩ := h
  rw [hes, (loggedState_reacts m c line).effects, logged_append, logged_append, logged_append,
    logged_releaseEffects, logged_serving hserving, List.append_nil, List.nil_append]

end

/-! ## Requests -/

section

variable {cfg : Config} {sys : Sys} {m : Machine} {c : Client} {datagram : Bytes}

/-- A request with an option is handled alike. -/
theorem processDatagram_withUninit (h : IsPacket .rrq datagram ∨ IsPacket .wrq datagram)
    (hopt : (requestOf datagram).opt ≠ []) (s : Option Bytes) :
    processDatagram cfg (sys.withUninit s) m c datagram = processDatagram cfg sys m c datagram := by
  obtain ⟨param, hparam⟩ :=
    Option.ne_none_iff_exists'.1 (mt (parseRequest_optparam _ _).1 hopt)
  have hor (sys : Sys) : (requestOf datagram).optparam.or sys.uninit = some param :=
    congrArg (·.or sys.uninit) hparam
  rcases h with h | h
  · rw [processDatagram_serveRrq h (log_eq_some (hor _) false),
      processDatagram_serveRrq h (log_eq_some (hor _) false), serveRrq_withUninit]
  · rw [processDatagram_serveWrq h (log_eq_some (hor _) true),
      processDatagram_serveWrq h (log_eq_some (hor _) true), serveWrq_withUninit]

/-- What is logged for a request without an option, where something can be printed. -/
theorem logged_processDatagram (h : IsPacket .rrq datagram ∨ IsPacket .wrq datagram)
    (hparam : (requestOf datagram).optparam = none) :
    ∃ write, ∀ s, logged (calls (processDatagram cfg (sys.withUninit (some s)) m c datagram)) =
      logged m.effects ++ [(write, (requestOf datagram).filename, (requestOf datagram).mode,
        (requestOf datagram).opt, s)] := by
  have hor (s : Bytes) : (requestOf datagram).optparam.or (sys.withUninit (some s)).uninit =
      some s := congrArg (·.or (some s)) hparam
  rcases h with h | h
  · refine ⟨false, fun s => ?_⟩
    rw [processDatagram_serveRrq h (log_eq_some (hor s) false),
      logged_request m c (serveRrq_makes _ _ _ _ cfg)]
    rfl
  · refine ⟨true, fun s => ?_⟩
    obtain ⟨es, hes, hserving, -⟩ := serveWrq_makes (sys.withUninit (some s)) _ _ _ cfg
    rw [processDatagram_serveWrq h (log_eq_some (hor s) true),
      logged_request m c ⟨es, hes, hserving⟩]
    rfl

/-- Any other datagram is handled alike. -/
theorem processDatagram_withUninit_of_not
    (h : ¬(IsPacket .rrq datagram ∨ IsPacket .wrq datagram)) (s : Option Bytes) :
    processDatagram cfg (sys.withUninit s) m c datagram = processDatagram cfg sys m c datagram := by
  by_cases hlen : datagram.length ≤ maxPacketSize
  · have hrrq : opcodeOf datagram ≠ Opcode.rrq.code := fun hop => h (.inl ⟨hlen, hop⟩)
    have hwrq : opcodeOf datagram ≠ Opcode.wrq.code := fun hop => h (.inr ⟨hlen, hop⟩)
    rw [processDatagram_eq cfg _ m c hlen, processDatagram_eq cfg _ m c hlen]
    simp only [if_neg hrrq, if_neg hwrq]
    rfl
  · rw [processDatagram_large cfg _ m c hlen, processDatagram_large cfg _ m c hlen]

/-- Datagrams are treated alike exactly if requests among them name an option. -/
theorem independentOfMemory_iff (cfg : Config) (sys : Sys) (m : Machine) (c : Client)
    (datagram : Bytes) :
    IndependentOfMemory cfg sys m c datagram ↔
      (IsPacket .rrq datagram ∨ IsPacket .wrq datagram → (requestOf datagram).opt ≠ []) := by
  constructor
  · -- Two values of the memory that was never written are logged as they are.
    intro hsame h hopt
    have hparam : (requestOf datagram).optparam = none := (parseRequest_optparam _ _).2 hopt
    obtain ⟨write, hlogged⟩ := @logged_processDatagram cfg sys m c datagram h hparam
    have heq := (hsame (some []) (some [0])).logged
    rw [hlogged, hlogged] at heq
    simp at heq
  · intro h
    have hsame (s : Option Bytes) : processDatagram cfg (sys.withUninit s) m c datagram =
        processDatagram cfg sys m c datagram := by
      by_cases hrequest : IsPacket .rrq datagram ∨ IsPacket .wrq datagram
      · exact processDatagram_withUninit hrequest (h hrequest) s
      · exact processDatagram_withUninit_of_not hrequest s
    intro s s'
    rw [hsame, hsame]
    exact ⟨rfl, rfl, rfl⟩

end

/-- A request without an option: what is logged as its parameter is arbitrary. -/
theorem not_independentOfMemory :
    ¬IndependentOfMemory Sample.config .ideal (Sample.machine []) (.new 1 Sample.socket)
      (Sample.request .rrq []) := by
  intro h
  have hlogged := (h (some []) (some [0])).logged
  revert hlogged
  decide +kernel

end Nbstftp
