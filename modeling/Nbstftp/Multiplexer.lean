import Nbstftp.Steps

/-!
# The main loop

An iteration of the main loop checks the clients, and then deals with what the
multiplexer reports of the descriptors it watches (`processSockets`): the socket of
the descriptor is looked up, and destroyed if the descriptor failed, or else the
queues are flushed, and a datagram is received, as the descriptor is ready for it.

So a run of the main loop is a run of `step` (`run_iterate`), on inputs that come of
the state of the server (`loopInputs`): only descriptors that are watched are
reported, and events are only about sockets that are found.
-/

namespace Nbstftp

/-- What is reported of a descriptor, what is received if it is ready, and what the
    system calls give. -/
structure Report where
  fd : Int
  /-- `EPOLLHUP | EPOLLERR`. -/
  failed : Bool
  /-- `EPOLLOUT`. -/
  writable : Bool
  /-- `EPOLLIN`. -/
  readable : Bool
  received : Received
  sys : Sys

/-- What is done about a report: nothing is reported of a descriptor not watched. -/
def Report.inputs (srv : Server) (r : Report) : List Input :=
  if (srv.machine.interest r.fd).isNone then []
  else
    match srv.findSocket r.fd with
    | none => [⟨r.sys, .unknown r.fd⟩]
    | some s =>
      ⟨r.sys, .activity s⟩ ::
        if r.failed then [⟨r.sys, .hangup s⟩]
        else (if r.writable then [⟨r.sys, .writable s⟩] else []) ++
          if r.readable then [⟨r.sys, .readable s r.received⟩] else []

/-- The body of the loop of `ProcessSockets`. -/
def processSocket (cfg : Config) (srv : Server) (r : Report) : Except Crash Server :=
  Lib.run (step cfg) srv (r.inputs srv)

/-- `ProcessSockets`. -/
def processSockets (cfg : Config) (srv : Server) (reports : List Report) :
    Except Crash Server :=
  Lib.run (processSocket cfg) srv reports

/-- An iteration of the main loop: the system calls of `CheckClients`, and the reports. -/
structure Iteration where
  sys : Sys
  reports : List Report

/-- The body of the main loop. -/
def iterate (cfg : Config) (srv : Server) (it : Iteration) : Except Crash Server :=
  processSockets cfg (srv.checkClients it.sys) it.reports

/-- The inputs of an iteration. -/
def Iteration.inputs (cfg : Config) (srv : Server) (it : Iteration) : List Input :=
  ⟨it.sys, .check⟩ :: Lib.drive (step cfg) (fun srv r => r.inputs srv) (srv.checkClients it.sys)
    it.reports

/-- The inputs of the main loop. -/
def loopInputs (cfg : Config) (srv : Server) (its : List Iteration) : List Input :=
  Lib.drive (step cfg) (fun srv it => it.inputs cfg srv) srv its

/-- The steps of the main loop. -/
def loopSteps (cfg : Config) (srv : Server) (its : List Iteration) : List ServerStep :=
  Lib.trace (step cfg) srv (loopInputs cfg srv its)

section

variable {cfg : Config} {srv srv' : Server}

theorem iterate_eq (it : Iteration) :
    iterate cfg srv it = Lib.run (step cfg) srv (it.inputs cfg srv) :=
  Lib.run_drive

/-- A run of the main loop is a run of the server. -/
theorem run_iterate (its : List Iteration) :
    Lib.run (iterate cfg) srv its = Lib.run (step cfg) srv (loopInputs cfg srv its) := by
  rw [loopInputs, ← Lib.run_drive]
  exact congrArg (Lib.run · srv its) (funext fun srv => funext fun it => iterate_eq it)

/-- Reading a socket, if it is ready for that: what holds before it (`mid`) gives what holds
    afterwards (`inv`), when it is left alone or destroyed, and for a datagram. -/
theorem read_rule {Q : ServerStep → Prop} {r : Report} {s : Socket} (inv mid : Server → Prop)
    (hdatagram : ∀ srv src data srv', mid srv →
      step cfg srv ⟨r.sys, .readable s (.datagram src data)⟩ = .ok srv' → inv srv')
    (hfailed : ∀ srv e, mid srv → ¬(e = .again ∨ e = .intr) →
      Q ⟨srv, ⟨r.sys, .readable s (.failed e)⟩, .ok (srv.destroySocket s true)⟩ →
      inv (srv.destroySocket s true))
    (hidle : ∀ srv, mid srv → inv srv) (h₀ : mid srv)
    (hQ : ∀ t ∈ Lib.trace (step cfg) srv
      (if r.readable then [⟨r.sys, .readable s r.received⟩] else []), Q t)
    (hrun : Lib.run (step cfg) srv
      (if r.readable then [⟨r.sys, .readable s r.received⟩] else []) = .ok srv') : inv srv' := by
  split at hrun
  · rw [if_pos ‹_›] at hQ
    obtain ⟨srv₁, hs, hq, hrun, -⟩ := Lib.run_cons_inv hrun hQ
    cases hrun
    cases hreceived : r.received with
    | datagram src data =>
      rw [hreceived] at hs
      exact hdatagram srv src data srv' h₀ hs
    | failed e =>
      rw [hreceived] at hs hq
      cases hs
      by_cases he : e = .again ∨ e = .intr
      · -- Nothing was there to be read.
        simp only [destroyFailed, he, if_true]
        exact hidle srv h₀
      · simp only [destroyFailed, he, if_false, if_true] at hq ⊢
        exact hfailed srv e h₀ he hq
  · cases hrun
    exact hidle srv h₀

/-- Dealing with a report: what holds before it (`inv`) gives what holds while its socket
    is served (`mid`), whose steps satisfy `Q`, and that gives what holds after it. -/
theorem report_rule {Q : ServerStep → Prop} {r : Report} (inv : Server → Prop)
    (mid : Socket → Server → Prop)
    (hunknown : ∀ srv, inv srv → (srv.machine.interest r.fd).isSome →
      srv.findSocket r.fd = none →
      Q ⟨srv, ⟨r.sys, .unknown r.fd⟩, .ok (srv.closeUnknown r.fd)⟩ → inv (srv.closeUnknown r.fd))
    (hactivity : ∀ srv s, inv srv → (srv.machine.interest r.fd).isSome →
      srv.findSocket r.fd = some s →
      mid s { srv with machine := srv.machine.callEvent .socketActivity })
    (hhangup : ∀ srv s, mid s srv → Q ⟨srv, ⟨r.sys, .hangup s⟩, .ok (srv.destroySocket s true)⟩ →
      inv (srv.destroySocket s true))
    (hwritable : ∀ srv s srv', mid s srv → step cfg srv ⟨r.sys, .writable s⟩ = .ok srv' →
      Q ⟨srv, ⟨r.sys, .writable s⟩, .ok srv'⟩ → mid s srv')
    (hdatagram : ∀ srv s src data srv', mid s srv →
      step cfg srv ⟨r.sys, .readable s (.datagram src data)⟩ = .ok srv' → inv srv')
    (hfailed : ∀ srv s e, mid s srv → ¬(e = .again ∨ e = .intr) →
      Q ⟨srv, ⟨r.sys, .readable s (.failed e)⟩, .ok (srv.destroySocket s true)⟩ →
      inv (srv.destroySocket s true))
    (hidle : ∀ srv s, mid s srv → inv srv)
    (h₀ : inv srv) (hQ : ∀ t ∈ Lib.trace (step cfg) srv (r.inputs srv), Q t)
    (hrun : Lib.run (step cfg) srv (r.inputs srv) = .ok srv') : inv srv' := by
  rw [Report.inputs] at hQ hrun
  split at hrun
  · cases hrun
    exact h₀
  rw [if_neg ‹_›] at hQ
  have hwatched : (srv.machine.interest r.fd).isSome :=
    Option.isSome_iff_ne_none.2 fun h => ‹¬_› (Option.isNone_iff_eq_none.2 h)
  cases hfind : srv.findSocket r.fd with
  | none =>
    rw [hfind] at hQ hrun
    obtain ⟨srv₁, hs, hq, hrun, -⟩ := Lib.run_cons_inv hrun hQ
    cases hrun
    cases hs
    exact hunknown srv h₀ hwatched hfind hq
  | some s =>
    rw [hfind] at hQ hrun
    obtain ⟨srv₁, hs, -, hrun, hQ⟩ := Lib.run_cons_inv hrun hQ
    cases hs
    have hmid := hactivity srv s h₀ hwatched hfind
    -- A socket that failed is not served; one that is ready is written to, then read.
    split at hrun
    · rw [if_pos ‹_›] at hQ
      obtain ⟨srv₂, hs, hq, hrun, -⟩ := Lib.run_cons_inv hrun hQ
      cases hrun
      cases hs
      exact hhangup _ s hmid hq
    rw [if_neg ‹_›] at hQ
    split at hrun
    · rw [if_pos ‹_›] at hQ
      obtain ⟨srv₂, hs, hq, hrun, hQ⟩ := Lib.run_cons_inv hrun hQ
      exact read_rule inv (mid s) (hdatagram · s) (hfailed · s) (hidle · s)
        (hwritable _ s srv₂ hmid hs hq) hQ hrun
    · rw [if_neg ‹_›] at hQ
      exact read_rule inv (mid s) (hdatagram · s) (hfailed · s) (hidle · s) hmid hQ hrun

/-- What checking keeps, and what dealing with a report keeps whose steps satisfy `Q`,
    the main loop keeps if its steps do. -/
theorem loop_rule {Q : ServerStep → Prop} (inv : Server → Prop)
    (hcheck : ∀ sys srv, inv srv → inv (srv.checkClients sys))
    (hreport : ∀ (r : Report) srv srv', inv srv →
      (∀ t ∈ Lib.trace (step cfg) srv (r.inputs srv), Q t) →
      Lib.run (step cfg) srv (r.inputs srv) = .ok srv' → inv srv')
    {its : List Iteration} (h₀ : inv srv) (hQ : ∀ t ∈ loopSteps cfg srv its, Q t)
    (hrun : Lib.run (iterate cfg) srv its = .ok srv') : inv srv' := by
  rw [run_iterate] at hrun
  refine Lib.drive_rule inv (fun srv it srv' h _ hQ hrun => ?_) h₀ hQ hrun
  refine Lib.drive_rule inv (fun srv r srv' h _ => hreport r srv srv' h) (hcheck it.sys srv h)
    (fun t ht => hQ t ?_) hrun
  exact List.mem_cons_of_mem _ ht

end

end Nbstftp
