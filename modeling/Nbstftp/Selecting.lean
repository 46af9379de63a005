import Nbstftp.Allocation
import Nbstftp.Dispatch
import Nbstftp.Survival

/-!
# The loop of select

The `ProcessSockets` of `select` goes over the pool of sockets itself, by an index, and serves
every socket whose descriptor is in the sets that `select` left. A client has the descriptor
of the socket it was received on, so that it is served with it; and it is visited in the very
pass in which it came, as the pool is one longer then. The main loop is taken visit by visit
(`SelectLoop.step`), each of which is a few of the steps known from the other backends
(`FdSets.inputs`). What the sets contain is left open.

A pass makes no more visits than there were sockets, and clients came (`visits_le`). But
there is no end to those: of some senders, every datagram brings a new client, and the pass
goes on for as long as they come (`starves`), while no client is checked.
-/

namespace Nbstftp

/-! ## The main loop -/

/-- The sets of descriptors that `select` leaves. -/
structure FdSets where
  read : Int → Bool
  write : Int → Bool
  error : Int → Bool

/-- What `select` returns: an error, that nothing happened in time, or some descriptors. -/
inductive Selected
  | failed
  | timeout
  | ready (rd : FdSets)

/-- Where the main loop is: at `CheckClients`, at `select`, or at an index of the pool. -/
inductive LoopPhase
  | check
  | select
  | visit (rd : FdSets) (idx : ℕ)

structure SelectLoop where
  srv : Server
  phase : LoopPhase

/-- What the system gives at a moment: the outcomes of the calls, that of `select` and that
    of `recvfrom`. -/
structure Moment where
  sys : Sys
  selected : Selected
  received : Received

/-- The steps for a socket of the pool: modules are told of activity, and a socket with an
    error is destroyed; any other is flushed and read, one after the other. -/
def FdSets.inputs (rd : FdSets) (s : Socket) (m : Moment) : List Input :=
  (if rd.error s.fd ∨ rd.read s.fd ∨ rd.write s.fd then [⟨m.sys, .activity s⟩] else []) ++
    if rd.error s.fd then [⟨m.sys, .hangup s⟩]
    else (if rd.write s.fd then [⟨m.sys, .writable s⟩] else []) ++
      if rd.read s.fd then [⟨m.sys, .readable s m.received⟩] else []

/-- The main loop goes on: `CheckClients`, `select`, and the turns of
    `vec_foreach(&socketpool, s, idx)` one by one. -/
def SelectLoop.step (cfg : Config) (l : SelectLoop) (m : Moment) : Except Crash SelectLoop :=
  match l.phase with
  | .check => .ok ⟨l.srv.checkClients m.sys, .select⟩
  | .select =>
    match m.selected with
    | .failed | .timeout => .ok { l with phase := .check }
    | .ready rd => .ok { l with phase := .visit rd 0 }
  | .visit rd idx =>
    match l.srv.socketpool[idx]? with
    | none => .ok { l with phase := .check }
    -- The index moves on, whatever the visit makes of the pool.
    | some s => (Lib.run (Nbstftp.step cfg) l.srv (rd.inputs s m)).map (⟨·, .visit rd (idx + 1)⟩)

/-- A transition of the main loop. -/
abbrev LoopStep := Lib.Transition SelectLoop Moment Crash

namespace LoopStep

/-- The socket that is visited, with the sets. -/
def visited (t : LoopStep) : Option (FdSets × Socket) :=
  match t.pre.phase with
  | .visit rd idx => t.pre.srv.socketpool[idx]?.map (rd, ·)
  | _ => none

/-- The steps of the server in a visit. -/
def serverSteps (cfg : Config) (t : LoopStep) : List ServerStep :=
  match t.visited with
  | some (rd, s) => Lib.trace (step cfg) t.pre.srv (rd.inputs s t.input)
  | none => []

end LoopStep

/-- A datagram of a sender that has no client, so that one is added. -/
def ServerStep.admitted (t : ServerStep) : ℕ :=
  if ∃ a ∈ t.input.arrival, t.pre.findClient a.fd a.src = none then 1 else 0

section

variable {cfg : Config} {rd : FdSets} {srv srv' : Server} {l l' : SelectLoop} {m : Moment}

/-! ## How long a pass is -/

/-- A step for a socket makes the pool longer by the client that is added, if any. -/
theorem socketpool_length_le {s : Socket} {i : Input} (hi : i ∈ rd.inputs s m)
    (h : step cfg srv i = .ok srv') :
    srv'.socketpool.length ≤
      srv.socketpool.length + ServerStep.admitted ⟨srv, i, .ok srv'⟩ := by
  obtain ⟨sys, event⟩ := i
  have hdestroyed : ∀ s (r : Server × Int), r.1.socketpool.length ≤ srv.socketpool.length →
      (destroyFailed s r).socketpool.length ≤ srv.socketpool.length := fun s r hle => by
    rw [destroyFailed]
    split
    · exact Nat.le_trans (r.1.destroySocket_sublist s true).length_le hle
    · exact hle
  cases event with
  | check =>
    simp only [FdSets.inputs, List.mem_append] at hi
    split_ifs at hi <;> simp at hi
  | activity s' =>
    cases h
    exact Nat.le_add_right _ _
  | unknown fd =>
    cases h
    exact Nat.le_add_right _ _
  | hangup s' =>
    cases h
    exact Nat.le_trans (srv.destroySocket_sublist s' true).length_le (Nat.le_add_right _ _)
  | writable s' =>
    cases h
    exact Nat.le_trans (hdestroyed s' _ (srv.sendPackets_sublist sys s').1.length_le)
      (Nat.le_add_right _ _)
  | readable s' received =>
    cases received with
    | failed e =>
      cases h
      exact Nat.le_trans (hdestroyed s' (srv, _) (Nat.le_refl _)) (Nat.le_add_right _ _)
    | datagram src data =>
      obtain ⟨srv₁, c, st, hfound, -, rfl⟩ := step_readable_ok h
      rcases Server.findOrAllocateClient_eq sys srv hfound with ⟨-, rfl⟩ | ⟨hnone, -, rfl⟩
      · exact Nat.le_add_right _ _
      · have hadmitted : ServerStep.admitted ⟨srv, ⟨sys, .readable s' (.datagram src data)⟩,
            .ok ((srv.added sys s'.fd src).put st)⟩ = 1 :=
          if_pos ⟨⟨s'.fd, src, data⟩, rfl, hnone⟩
        have hpool : ((srv.added sys s'.fd src).put st).socketpool =
            srv.socketpool ++ [srv.newSocket sys s'.fd src] := rfl
        rw [hadmitted, hpool, List.length_append, List.length_singleton]

/-- What a visit is. -/
theorem visit_eq (cfg : Config) {t : LoopStep} {s : Socket} (h : t.visited = some (rd, s)) :
    ∃ idx, t.pre = ⟨t.pre.srv, .visit rd idx⟩ ∧ t.pre.srv.socketpool[idx]? = some s ∧
      t.pre.step cfg t.input = (Lib.run (step cfg) t.pre.srv (rd.inputs s t.input)).map
        (⟨·, .visit rd (idx + 1)⟩) := by
  obtain ⟨⟨srv, phase⟩, m, post⟩ := t
  cases phase with
  | check | select => cases h
  | visit rd' idx =>
    obtain ⟨s', hs', heq⟩ := Option.map_eq_some_iff.1 h
    cases heq
    refine ⟨idx, rfl, hs', ?_⟩
    simp only [SelectLoop.step, hs']

/-- The clients that are added by some visits. -/
def admissions (cfg : Config) (ts : List LoopStep) : ℕ :=
  (ts.map fun t => ((t.serverSteps cfg).map ServerStep.admitted).sum).sum

/-- A visit makes the pool longer by the clients it adds. -/
theorem visit_length_le {t : LoopStep} (ht : t.post = t.pre.step cfg t.input)
    (h : t.visited.isSome) (hpost : t.post = .ok l') :
    l'.srv.socketpool.length ≤
      t.pre.srv.socketpool.length + ((t.serverSteps cfg).map ServerStep.admitted).sum := by
  obtain ⟨⟨rd, s⟩, hs⟩ := Option.isSome_iff_exists.1 h
  obtain ⟨idx, -, -, hstep⟩ := visit_eq cfg hs
  rw [← ht, hpost] at hstep
  cases hrun : Lib.run (step cfg) t.pre.srv (rd.inputs s t.input) with
  | error crash =>
    rw [hrun] at hstep
    cases hstep
  | ok srv' =>
    rw [hrun] at hstep
    cases hstep
    rw [LoopStep.serverSteps, hs]
    exact Lib.run_measure (·.socketpool.length) ServerStep.admitted
      (fun _ _ _ hi h => socketpool_length_le hi h) hrun

/-- From an index on, visits go on for at most the sockets that are left, and those to come. -/
theorem visits_le_from {idx : ℕ} {ms : List Moment} (hne : ms ≠ [])
    (hrun : Lib.run (SelectLoop.step cfg) ⟨srv, .visit rd idx⟩ ms = .ok l)
    (hvisit : ∀ t ∈ Lib.trace (SelectLoop.step cfg) ⟨srv, .visit rd idx⟩ ms,
      (LoopStep.visited t).isSome) :
    idx + ms.length ≤ srv.socketpool.length +
      admissions cfg (Lib.trace (SelectLoop.step cfg) ⟨srv, .visit rd idx⟩ ms) := by
  induction ms generalizing srv idx with
  | nil => exact absurd rfl hne
  | cons m ms ih =>
    obtain ⟨l₁, hstep, hvisited, hrun, hrest⟩ := Lib.run_cons_inv hrun hvisit
    obtain ⟨⟨rd', s⟩, hs⟩ := Option.isSome_iff_exists.1 hvisited
    obtain ⟨idx', hpre, hget, hvisit'⟩ := visit_eq cfg hs
    cases hpre
    have hlt : idx < srv.socketpool.length := (List.getElem?_eq_some_iff.1 hget).1
    have hle := visit_length_le (t := ⟨⟨srv, .visit rd idx⟩, m, .ok l₁⟩) hstep.symm hvisited rfl
    rw [Lib.trace_cons_ok hstep, admissions, List.map_cons, List.sum_cons, List.length_cons]
    rw [← admissions]
    by_cases hnil : ms = []
    · rw [hnil, List.length_nil]
      omega
    · -- The index has moved on by one, and the pool is longer by who came.
      obtain ⟨srv₁, rfl⟩ : ∃ srv₁, l₁ = ⟨srv₁, .visit rd (idx + 1)⟩ := by
        dsimp only at hvisit'
        rw [hstep] at hvisit'
        cases hsteps : Lib.run (step cfg) srv (rd.inputs s m) with
        | error crash =>
          rw [hsteps] at hvisit'
          cases hvisit'
        | ok srv₁ =>
          rw [hsteps] at hvisit'
          exact ⟨srv₁, Except.ok.inj hvisit'⟩
      have := ih hnil hrun hrest
      dsimp only at hle
      omega

/-- However long the loop only visits sockets, after `select` returned, it makes no more visits
    than there were sockets, and clients that were added since. -/
theorem visits_le {ms : List Moment}
    (hrun : Lib.run (SelectLoop.step cfg) ⟨srv, .visit rd 0⟩ ms = .ok l)
    (hvisit : ∀ t ∈ Lib.trace (SelectLoop.step cfg) ⟨srv, .visit rd 0⟩ ms,
      (LoopStep.visited t).isSome) :
    ms.length ≤ srv.socketpool.length +
      admissions cfg (Lib.trace (SelectLoop.step cfg) ⟨srv, .visit rd 0⟩ ms) := by
  by_cases hne : ms = []
  · rw [hne]
    exact Nat.zero_le _
  · have hle := visits_le_from hne hrun hvisit
    omega

/-! ## A pass without end -/

/-- A datagram from a port that no client is found by, which can be dealt with. -/
structure Moment.Floods (cfg : Config) (m : Moment) (src : SockAddr) (data : Bytes) : Prop where
  received : m.received = .datagram src data
  port : src.port = 32768
  memory : m.sys.pushSocket = .stored ∧ m.sys.pushClient = .stored
  served : Served cfg m.sys data

theorem findClient_flood (srv : Server) (fd : Int) {src : SockAddr} (h : src.port = 32768) :
    srv.findClient fd src = none := by
  refine List.find?_eq_none.2 fun c _ hfound => ?_
  -- The negated port is no `short`.
  have hport : -(getPort src).toInt = 32768 := by
    rw [getPort, h]
    decide
  have htid := c.tid.toInt_lt
  rw [decide_eq_true_eq, hport] at hfound
  omega

/-- Any such datagram is survived, and adds a client. -/
theorem step_flood {src : SockAddr} {data : Bytes} (h : m.Floods cfg src data) (srv : Server)
    (s : Socket) :
    ∃ srv', step cfg srv ⟨m.sys, .readable s m.received⟩ = .ok srv' ∧
      srv'.socketpool = srv.socketpool ++ [srv.newSocket m.sys s.fd src] := by
  have hnone := findClient_flood srv s.fd h.port
  have hadded : srv.findOrAllocateClient m.sys s.fd src = _ :=
    Server.findOrAllocateClient_added hnone h.memory.1 h.memory.2
  rw [h.received]
  have hok : (step cfg srv ⟨m.sys, .readable s (.datagram src data)⟩).isOk = true := by
    refine step_isOk_iff.2 ⟨fun a ha _ => h.memory, fun a ha c hc => ?_⟩
    cases ha
    obtain ⟨srv₁, hfound⟩ := Server.handler_eq_some.1 hc
    cases hadded.symm.trans hfound
    -- A new client has no transfer yet.
    exact ⟨nofun, nofun, h.served⟩
  cases hstep : step cfg srv ⟨m.sys, .readable s (.datagram src data)⟩ with
  | error crash =>
    rw [hstep] at hok
    cases hok
  | ok srv' =>
    obtain ⟨srv₁, c, st, hfound, -, rfl⟩ := step_readable_ok hstep
    cases hadded.symm.trans hfound
    exact ⟨_, rfl, rfl⟩

theorem starves_from {idx : ℕ} (hidx : idx < srv.socketpool.length)
    (hready : ∀ s ∈ srv.socketpool,
      rd.read s.fd = true ∧ rd.write s.fd = false ∧ rd.error s.fd = false)
    {ms : List Moment} (hms : ∀ m ∈ ms, ∃ src data, m.Floods cfg src data) :
    ∃ srv', Lib.run (SelectLoop.step cfg) ⟨srv, .visit rd idx⟩ ms =
        .ok ⟨srv', .visit rd (idx + ms.length)⟩ ∧
      srv'.socketpool.length = srv.socketpool.length + ms.length := by
  induction ms generalizing srv idx with
  | nil => exact ⟨srv, rfl, rfl⟩
  | cons m ms ih =>
    obtain ⟨src, data, hflood⟩ := hms m List.mem_cons_self
    have hget := List.getElem?_eq_getElem hidx
    obtain ⟨hread, hwrite, herror⟩ := hready _ (List.getElem_mem hidx)
    -- Modules are told, and the datagram is received.
    have hinputs : rd.inputs srv.socketpool[idx] m =
        [⟨m.sys, .activity srv.socketpool[idx]⟩,
          ⟨m.sys, .readable srv.socketpool[idx] m.received⟩] := by
      simp [FdSets.inputs, hread, hwrite, herror]
    obtain ⟨srv₁, hstep, hpool⟩ := step_flood hflood
      { srv with machine := srv.machine.callEvent .socketActivity } srv.socketpool[idx]
    have hvisit : SelectLoop.step cfg ⟨srv, .visit rd idx⟩ m = .ok ⟨srv₁, .visit rd (idx + 1)⟩ := by
      simp only [SelectLoop.step, hget, hinputs]
      rw [Lib.run_cons_ok (show step cfg srv ⟨m.sys, .activity srv.socketpool[idx]⟩ =
        .ok { srv with machine := srv.machine.callEvent .socketActivity } from rfl),
        Lib.run_cons_ok hstep]
      rfl
    have hlength : srv₁.socketpool.length = srv.socketpool.length + 1 := by
      rw [hpool, List.length_append, List.length_singleton]
    have hready' : ∀ s ∈ srv₁.socketpool,
        rd.read s.fd = true ∧ rd.write s.fd = false ∧ rd.error s.fd = false := by
      intro s hs
      rw [hpool] at hs
      rcases List.mem_append.1 hs with hs | hs
      · exact hready s hs
      · -- The new socket has the descriptor of the one visited.
        rw [List.mem_singleton.1 hs]
        exact ⟨hread, hwrite, herror⟩
    have hidx' : idx + 1 < srv₁.socketpool.length := by omega
    obtain ⟨srv', hrun, hlen⟩ := ih hidx' hready' fun m hm => hms m (List.mem_cons_of_mem _ hm)
    refine ⟨srv', ?_, by rw [hlen, hlength, List.length_cons]; omega⟩
    rw [Lib.run_cons_ok hvisit, hrun, List.length_cons]
    congr 3
    omega

/-- However many of these arrive, each as it is received, the loop is still at the sockets after
    the last of them, and has come to no `CheckClients`. -/
theorem starves (cfg : Config) {rd : FdSets} {srv : Server} (hne : srv.socketpool ≠ [])
    (hready : ∀ s ∈ srv.socketpool,
      rd.read s.fd = true ∧ rd.write s.fd = false ∧ rd.error s.fd = false)
    {ms : List Moment} (hms : ∀ m ∈ ms, ∃ src data, m.Floods cfg src data) :
    ∃ srv', Lib.run (SelectLoop.step cfg) ⟨srv, .visit rd 0⟩ ms =
        .ok ⟨srv', .visit rd ms.length⟩ ∧
      srv'.socketpool.length = srv.socketpool.length + ms.length := by
  have hrun := starves_from (List.length_pos_iff.2 hne) hready hms
  rwa [Nat.zero_add] at hrun

end

namespace Sample

/-- The descriptor of the server is ready for reading, and for writing if so. -/
def sets (write : Bool) : FdSets :=
  ⟨fun fd => fd = 3, fun fd => write && fd = 3, fun _ => false⟩

/-- A moment in which something is received, and the system formats addresses. -/
def moment (selected : Selected) (received : Received) : Moment :=
  ⟨{ Sys.ideal with inetNtop := dotted }, selected, received⟩

/-- Two senders, both of which send what is no packet. -/
def burst (port port' : UInt16) : List Moment :=
  [port, port'].map fun port => moment .timeout (.datagram (.inet port 1) [])

end Sample

theorem visits_le_burst :
    (Sample.burst 40000 40001).length ≤ Sample.listens.socketpool.length +
      admissions Sample.config (Lib.trace (SelectLoop.step Sample.config)
        ⟨Sample.listens, .visit (Sample.sets false) 0⟩ (Sample.burst 40000 40001)) :=
  visits_le (Lib.eq_ok_of_isOk (by decide +kernel) ⟨Sample.listens, .check⟩) (by decide +kernel)

theorem starves_burst :
    ∃ srv', Lib.run (SelectLoop.step Sample.config)
        ⟨Sample.listens, .visit (Sample.sets false) 0⟩ (Sample.burst 32768 32768) =
          .ok ⟨srv', .visit (Sample.sets false) 2⟩ ∧
      srv'.socketpool.length = Sample.listens.socketpool.length + 2 := by
  refine starves Sample.config (by decide +kernel) (by decide +kernel)
    (List.forall_mem_map.2 fun port hport => ?_)
  have hport : port = 32768 := by simpa using hport
  rw [hport]
  refine ⟨.inet 32768 1, [], rfl, rfl, ⟨rfl, rfl⟩, ⟨fun h => ?_, nofun, nofun⟩⟩
  rcases h with h | h <;> exact absurd h (by decide +kernel)

end Nbstftp
