import Nbstftp.Allocation
import Nbstftp.Files
import Nbstftp.Marked
import Nbstftp.Multiplexer
import Nbstftp.Options
import Nbstftp.Storage

/-!
# What the server survives

A datagram may bring about a fault: a DATA packet shorter than its header, for a client in a
transfer, if `fwrite` takes more than the receive buffer holds; an ACK that has the next block
read into a buffer that is too small, or from no file; a request without an option if what is
printed as its parameter cannot be; one that is answered with a message too long for a packet;
and the first datagram of a sender for which memory does not suffice. Otherwise the main loop
goes on without any of these faults (`survives_iff`).

Where every system call succeeds, three kinds of datagrams are left that bring one about, all of
which anyone can send (`killed_iff`).

That a block is used after it was released is not one of these faults: when it is not is what
`accounts_iff`, `spares_released_iff` and `touches_no_destroyed_iff` are about.
-/

namespace Nbstftp

/-- Dealing with a datagram for a client brings about no fault. -/
structure Bearable (cfg : Config) (sys : Sys) (c : Client) (datagram : Bytes) : Prop where
  data : IsPacket .data datagram → c.sendingfile = true →
    ∃ f ∈ c.f, headerSize + fwriteCount sys f (passedCount datagram) ≤ pktlen
  ack : IsPacket .ack datagram → c.sendingfile = true → c.transfer.Fits ∧ c.f.isSome = true
  request : Served cfg sys datagram

namespace ServerStep

/-- A step without a fault: memory suffices for a new client, and the datagram can be dealt
    with. -/
structure Survived (cfg : Config) (t : ServerStep) : Prop where
  memory : ∀ a ∈ t.input.arrival, t.pre.findClient a.fd a.src = none →
    t.input.sys.pushSocket = .stored ∧ t.input.sys.pushClient = .stored
  bearable : ∀ a ∈ t.input.arrival, ∀ c ∈ t.pre.handler t.input.sys a,
    Bearable cfg t.input.sys c a.data

/-- A datagram that brings about a fault although every system call succeeds. -/
inductive Kills (t : ServerStep) (a : Arrival) (c : Client) : Prop
  /-- A block is larger than its buffer. -/
  | large (h : IsPacket .ack a.data) (hsending : c.sendingfile = true) (hfits : ¬c.transfer.Fits)
  /-- What is printed as the parameter of a request cannot be. -/
  | wild (h : IsPacket .rrq a.data ∨ IsPacket .wrq a.data)
      (hwild : ¬(requestOf a.data).Loggable t.input.sys)
  /-- A block size is too long to be refused. -/
  | long (h : IsPacket .rrq a.data) (hmail : strcasecmp (requestOf a.data).mode (ascii "mail") ≠ 0)
      (hopt : strcasecmp (requestOf a.data).opt (ascii "blksize") = 0)
      (hrange : (strtol (requestOf a.data).param).2 = true)
      (hlength : 486 < (requestOf a.data).param.length + (t.input.sys.strerror .range).length)

end ServerStep

/-- Every system call succeeds, for any path; but `fwrite` takes no more than there is in the
    receive buffer. -/
structure Sys.Succeeds (sys : Sys) : Prop where
  memory : sys.nomem = false ∧ sys.pushSocket = .stored ∧ sys.pushClient = .stored
  stat : ∀ path, sys.stat path = some false
  access : ∀ path mode, sys.access path mode = none
  fopen : ∀ path mode, sys.fopen path mode = none
  fwrite : ∀ n, headerSize + sys.fwrite n ≤ pktlen
  sendto : ∀ ptr idx, (sys.sendto ptr idx).isSome

/-- All of an iteration do. -/
structure Iteration.Succeeds (it : Iteration) : Prop where
  check : it.sys.Succeeds
  reports : ∀ r ∈ it.reports, r.sys.Succeeds

/-! ## Datagrams -/

section

variable (cfg : Config) (sys : Sys) (m : Machine) (c : Client) {datagram : Bytes}

theorem processData_isOk_iff (h : IsPacket .data datagram) :
    (processDatagram cfg sys m c datagram).isOk = true ↔
      (c.sendingfile = true →
        ∃ f ∈ c.f, headerSize + fwriteCount sys f (passedCount datagram) ≤ pktlen) := by
  rw [processDatagram_data cfg sys m c h]
  rcases processData_cases sys m c (receiveBuffer datagram) (receivedLength datagram) with
    ⟨hidle, s', hs, -⟩ | ⟨hsending, hf, m', hs⟩ | ⟨hsending, f, m', hf, hlen, hs⟩ |
    ⟨-, f, s', hf, hlen, hs, -⟩
  · rw [hs]
    exact iff_of_true rfl fun hsending => absurd (hidle.symm.trans hsending) (by decide)
  · rw [hs, hf]
    refine iff_of_false nofun fun hbear => ?_
    obtain ⟨f, hf, -⟩ := hbear hsending
    cases hf
  · rw [hs]
    refine iff_of_false nofun fun hbear => ?_
    obtain ⟨f', hf', hle⟩ := hbear hsending
    cases hf.symm.trans hf'
    rw [length_receiveBuffer, ← passedCount] at hlen
    exact Nat.not_lt.2 hle hlen
  · rw [hs]
    rw [length_receiveBuffer, ← passedCount] at hlen
    exact iff_of_true rfl fun _ => ⟨f, hf, Nat.not_lt.1 hlen⟩

theorem processAck_isOk_iff (h : IsPacket .ack datagram) :
    (processDatagram cfg sys m c datagram).isOk = true ↔
      (c.sendingfile = true → c.transfer.Fits ∧ c.f.isSome = true) := by
  have hfits : c.transfer.Fits ↔ c.blksize ≤ c.transfer.capacity := Transfer.fits_iff
  rw [processDatagram_ack cfg sys m c h, hfits]
  rcases processAck_cases sys m c with ⟨hidle, s', hs, -⟩ | ⟨hsending, hcap, m', hs⟩ |
    ⟨hsending, -, hf, m', hs⟩ | ⟨-, hcap, f, blk, s', hf, -, hs, -⟩
  · rw [hs]
    exact iff_of_true rfl fun hsending => absurd (hidle.symm.trans hsending) (by decide)
  · rw [hs]
    exact iff_of_false nofun fun hbear => absurd (hbear hsending).1 (Nat.not_le.2 hcap)
  · rw [hs, hf]
    exact iff_of_false nofun fun hbear => absurd (hbear hsending).2 (by decide)
  · rw [hs, hf]
    exact iff_of_true rfl fun _ => ⟨hcap, rfl⟩

theorem processRequest_isOk_iff (h : IsPacket .rrq datagram ∨ IsPacket .wrq datagram) :
    (processDatagram cfg sys m c datagram).isOk = true ↔ Served cfg sys datagram := by
  have hdeals := processDatagram_deals cfg sys m c h
  constructor
  · intro hok
    by_contra hserved
    obtain ⟨crash, hs, -⟩ := hdeals.crash hserved
    rw [hs] at hok
    cases hok
  · intro hserved
    obtain ⟨s', hs, -⟩ := hdeals.ok hserved
    rw [hs]
    rfl

/-- Only requests have to be served. -/
theorem served_of_not {cfg : Config} {sys : Sys} (hrrq : ¬IsPacket .rrq datagram)
    (hwrq : ¬IsPacket .wrq datagram) : Served cfg sys datagram :=
  ⟨fun h => absurd h (not_or.2 ⟨hrrq, hwrq⟩), fun h => absurd h hrrq, fun h => absurd h hwrq⟩

/-- A datagram is dealt with exactly if it can be borne. -/
theorem processDatagram_isOk_iff (datagram : Bytes) :
    (processDatagram cfg sys m c datagram).isOk = true ↔ Bearable cfg sys c datagram := by
  -- Each kind of packet has its own condition, and there is none for the rest.
  by_cases hdata : IsPacket .data datagram
  · rw [processData_isOk_iff cfg sys m c hdata]
    have hrrq : ¬IsPacket .rrq datagram := fun hrrq => absurd (hdata.unique hrrq) (by decide)
    have hwrq : ¬IsPacket .wrq datagram := fun hwrq => absurd (hdata.unique hwrq) (by decide)
    exact ⟨fun h => ⟨fun _ => h, fun hack => absurd (hdata.unique hack) (by decide),
      served_of_not hrrq hwrq⟩, fun h => h.data hdata⟩
  by_cases hack : IsPacket .ack datagram
  · rw [processAck_isOk_iff cfg sys m c hack]
    have hrrq : ¬IsPacket .rrq datagram := fun hrrq => absurd (hack.unique hrrq) (by decide)
    have hwrq : ¬IsPacket .wrq datagram := fun hwrq => absurd (hack.unique hwrq) (by decide)
    exact ⟨fun h => ⟨fun h => absurd h hdata, fun _ => h, served_of_not hrrq hwrq⟩,
      fun h => h.ack hack⟩
  by_cases hrequest : IsPacket .rrq datagram ∨ IsPacket .wrq datagram
  · rw [processRequest_isOk_iff cfg sys m c hrequest]
    exact ⟨fun h => ⟨fun h => absurd h hdata, fun h => absurd h hack, h⟩, Bearable.request⟩
  obtain ⟨hrrq, hwrq⟩ := not_or.1 hrequest
  refine iff_of_true ?_ ⟨fun h => absurd h hdata, fun h => absurd h hack,
    served_of_not hrrq hwrq⟩
  rcases processDatagram_cases cfg sys m c datagram with ⟨h, -⟩ | ⟨-, hs⟩ | ⟨h, -⟩ | ⟨h, -⟩ |
    ⟨h, -⟩ | ⟨m', -, hs⟩
  · exact absurd h hdata
  · rw [hs]
    rfl
  · exact absurd h hack
  · exact absurd h hwrq
  · exact absurd h hrrq
  · rw [hs]
    rfl

end

/-! ## Steps -/

section

variable {cfg : Config} {srv : Server} {i : Input}

/-- The client a datagram would be handed to, if memory suffices. -/
theorem Server.handler_isSome_iff {sys : Sys} {a : Arrival} :
    (srv.handler sys a).isSome = true ↔ (srv.findClient a.fd a.src = none →
      sys.pushSocket = .stored ∧ sys.pushClient = .stored) := by
  rw [handler]
  cases hfind : srv.findClient a.fd a.src with
  | some c =>
    rw [findOrAllocateClient_some hfind]
    exact iff_of_true rfl fun hnone => (Option.some_ne_none c hnone).elim
  | none =>
    cases hs : sys.pushSocket with
    | nomem =>
      obtain ⟨srv', hnull⟩ := findOrAllocateClient_null hfind hs
      rw [hnull]
      exact iff_of_false Bool.false_ne_true fun h => absurd (h rfl).1 (by decide)
    | astray =>
      obtain ⟨srv', hastray⟩ := findOrAllocateClient_astray hfind (.inl hs)
      rw [hastray]
      exact iff_of_false Bool.false_ne_true fun h => absurd (h rfl).1 (by decide)
    | stored =>
      cases hc : sys.pushClient with
      | nomem =>
        obtain ⟨srv', hreleased⟩ := findOrAllocateClient_released hfind hs hc
        rw [hreleased]
        exact iff_of_false Bool.false_ne_true fun h => absurd (h rfl).2 (by decide)
      | astray =>
        obtain ⟨srv', hastray⟩ := findOrAllocateClient_astray hfind (.inr ⟨hs, hc⟩)
        rw [hastray]
        exact iff_of_false Bool.false_ne_true fun h => absurd (h rfl).2 (by decide)
      | stored =>
        rw [findOrAllocateClient_added hfind hs hc]
        exact iff_of_true rfl fun _ => ⟨rfl, rfl⟩

/-- A datagram that arrives without there being a client for it ends the process. -/
theorem step_unhandled {a : Arrival} (ha : a ∈ i.arrival)
    (hnone : (srv.handler i.sys a).isSome = false) : (step cfg srv i).isOk = false := by
  obtain ⟨sys, s, src, data, rfl, rfl⟩ := exists_of_mem_arrival ha
  rw [Server.handler] at hnone
  rcases hfound : srv.findOrAllocateClient sys s.fd src with ⟨srv₁, found⟩
  rw [hfound] at hnone
  cases found with
  | client c => cases hnone
  | null | released | astray =>
    simp only [step, Server.receivePackets, hfound, Except.map]
    rfl

/-- A step is survived exactly if what it comes to can be borne. -/
theorem step_isOk_iff :
    (step cfg srv i).isOk = true ↔ ServerStep.Survived cfg ⟨srv, i, step cfg srv i⟩ := by
  cases harrival : i.arrival with
  | none =>
    have hnone : ∀ a, a ∉ i.arrival := fun a ha => by
      rw [harrival] at ha
      cases ha
    refine iff_of_true ?_ ⟨fun a ha => absurd ha (hnone a), fun a ha => absurd ha (hnone a)⟩
    rcases step_cases cfg srv i with ⟨srv', hs, -⟩ | ⟨crash, hs, hfault⟩ | ⟨a, -, -, ha, -⟩
    · rw [hs]
      rfl
    · -- Only receiving asks for memory.
      obtain ⟨sys, event⟩ := i
      cases event with
      | check | activity | hangup | unknown | writable => cases hs
      | readable s received =>
        cases received with
        | datagram src data => cases harrival
        | failed e => cases hs
    · exact absurd ha (hnone a)
  | some a =>
    have honly : ∀ b ∈ i.arrival, b = a := fun b hb =>
      (Option.some.inj (harrival.symm.trans hb)).symm
    cases hhandler : srv.handler i.sys a with
    | none =>
      have hnone : (srv.handler i.sys a).isSome = false := by rw [hhandler]; rfl
      rw [step_unhandled harrival hnone]
      refine iff_of_false (by decide) fun h => ?_
      rw [Server.handler_isSome_iff.2 (h.memory a harrival)] at hnone
      cases hnone
    | some c =>
      have hmemory := Server.handler_isSome_iff.1 (show (srv.handler i.sys a).isSome = true by
        rw [hhandler]; rfl)
      obtain ⟨srv₁, -, hstep⟩ := step_handed cfg harrival hhandler
      have hok : (step cfg srv i).isOk = (processDatagram cfg i.sys
          (srv₁.machine.callEvent .receivingPackets)
          { c with bytestransferred := c.bytestransferred + receivedLength a.data }
          a.data).isOk := by
        rw [hstep, turn_receiving]
        cases processDatagram cfg i.sys _ _ a.data <;> rfl
      rw [hok, processDatagram_isOk_iff]
      -- The bytes counted do not matter.
      refine ⟨fun h => ⟨fun b hb => honly b hb ▸ hmemory, fun b hb d hd => ?_⟩, fun h => ?_⟩
      · obtain rfl := honly b hb
        cases hhandler.symm.trans hd
        exact ⟨h.data, h.ack, h.request⟩
      · have hbear := h.bearable a harrival c hhandler
        exact ⟨hbear.data, hbear.ack, hbear.request⟩

end

/-! ## When nothing fails but the server -/

section

variable {sys : Sys} (hsys : sys.Succeeds)

include hsys

/-- A write request is dealt with. -/
theorem Sys.Succeeds.wrqServed (cfg : Config) (q : Request) : WrqServed cfg sys q where
  refused e he := by
    rw [wrqRefusal] at he
    split at he
    · cases he
      decide
    · simp [hsys.memory.1, accessDenied, hsys.access] at he
  opened _ e he := by
    rw [hsys.fopen] at he
    cases he

/-- A read request is, if it can be refused. -/
theorem Sys.Succeeds.rrqServed_iff (cfg : Config) (q : Request) :
    RrqServed cfg sys q ↔ ∀ e ∈ rrqRefusal sys q, Reportable e.2 := by
  refine ⟨fun h => h.refused, fun h => ⟨h, fun _ => ⟨hsys.memory.1, .inl ?_, fun e he => ?_⟩⟩⟩
  · exact ⟨hsys.stat _, hsys.fopen _ _, hsys.access _ _⟩
  · rw [hsys.fopen] at he
    cases he

end

/-- It cannot be refused exactly if the block size is not representable, and too long. -/
theorem rrqRefusal_reportable_iff (sys : Sys) (q : Request) :
    (∀ e ∈ rrqRefusal sys q, Reportable e.2) ↔ (strcasecmp q.mode (ascii "mail") ≠ 0 →
      strcasecmp q.opt (ascii "blksize") = 0 → (strtol q.param).2 = true →
        q.param.length + (sys.strerror .range).length ≤ 486) := by
  rw [rrqRefusal]
  by_cases hmail : strcasecmp q.mode (ascii "mail") = 0
  · rw [if_pos hmail]
    refine iff_of_true (fun e he => ?_) fun h => absurd hmail h
    cases he
    decide
  rw [if_neg hmail]
  by_cases hopt : strcasecmp q.opt (ascii "blksize") = 0
  swap
  · rw [if_pos hopt]
    exact iff_of_true (fun e he => absurd he (by simp)) fun _ h => absurd h hopt
  rw [if_neg (not_not.2 hopt)]
  cases hrange : (strtol q.param).2 with
  | true =>
    simp only [if_true, Option.mem_some_iff, forall_eq', reportable_overflow, hopt]
    simp only [ne_eq, hmail, not_false_eq_true, forall_const]
    omega
  | false =>
    refine iff_of_true (fun e he => ?_) fun _ _ h => by cases h
    rw [if_neg Bool.false_ne_true] at he
    split at he
    · cases he
      exact reportable_outOfRange _
    · cases he

section

variable {cfg : Config} {srv : Server} {i : Input}

/-- A step from a server whose transfers have their files is survived exactly if its datagram
    does not kill. -/
theorem ServerStep.survived_iff (hfiled : srv.Filed) (hsys : i.sys.Succeeds)
    {post : Except Crash Server} : Survived cfg ⟨srv, i, post⟩ ↔
      ∀ a ∈ i.arrival, ∀ c ∈ srv.handler i.sys a, ¬Kills ⟨srv, i, post⟩ a c := by
  constructor
  · rintro hsurvived a ha c hc (⟨h, hsending, hfits⟩ | ⟨h, hwild⟩ |
      ⟨h, hmail, hopt, hrange, hlength⟩)
    · exact hfits ((hsurvived.bearable a ha c hc).ack h hsending).1
    · exact hwild ((hsurvived.bearable a ha c hc).request.loggable h)
    · have hserved := (hsurvived.bearable a ha c hc).request.rrq h
      have hreport := (rrqRefusal_reportable_iff i.sys _).1 hserved.refused hmail hopt hrange
      exact Nat.not_lt.2 hreport hlength
  · refine fun hspared => ⟨fun _ _ _ => hsys.memory.2, fun a ha c hc => ?_⟩
    have hspares := hspared a ha c hc
    refine ⟨fun h hsending => ?_, fun h hsending => ⟨?_, hfiled.handler hc hsending⟩,
      fun h => ?_, fun h => (hsys.rrqServed_iff cfg _).2
        ((rrqRefusal_reportable_iff i.sys _).2 ?_), fun _ => hsys.wrqServed cfg _⟩
    · -- `fwrite` stays within the buffer, whatever it is asked for.
      obtain ⟨f, hf⟩ := Option.isSome_iff_exists.1 (hfiled.handler hc hsending)
      refine ⟨f, hf, Nat.le_trans (Nat.add_le_add_left ?_ _) (hsys.fwrite (passedCount a.data))⟩
      rw [fwriteCount]
      split
      · exact Nat.min_le_right _ _
      · exact Nat.zero_le _
    · by_contra hfits
      exact hspares (.large h hsending hfits)
    · by_contra hwild
      exact hspares (.wild h hwild)
    · intro hmail hopt hrange
      by_contra hlong
      exact hspares (.long h hmail hopt hrange (Nat.not_le.1 hlong))

/-- A block size that is agreed on comes with a file. -/
theorem Sys.Succeeds.opensFlagged (hsys : i.sys.Succeeds) {post : Except Crash Server} :
    ServerStep.OpensFlagged cfg ⟨srv, i, post⟩ := by
  intro a ha hflagged
  have hread : ∀ path mode, readChange i.sys path mode false = .taken := fun path mode => by
    rw [readChange, if_pos ⟨hsys.fopen path mode, rfl⟩]
  refine absurd hflagged ?_
  rw [fileChange, rrqChange, wrqChange, hread]
  split
  · split
    · decide
    · split
      · decide
      · rw [readChange]
        split <;> decide
  · split
    · split <;> decide
    · decide

theorem Report.sys_eq {r : Report} (h : i ∈ r.inputs srv) : i.sys = r.sys := by
  rw [Report.inputs] at h
  split at h
  · cases h
  · split at h
    · rw [List.mem_singleton.1 h]
    · rcases List.mem_cons.1 h with rfl | h
      · rfl
      · split at h
        · rw [List.mem_singleton.1 h]
        · rcases List.mem_append.1 h with h | h <;> split at h
          · rw [List.mem_singleton.1 h]
          · cases h
          · rw [List.mem_singleton.1 h]
          · cases h

theorem Iteration.Succeeds.loopSteps {its : List Iteration} (h : ∀ it ∈ its, it.Succeeds) :
    ∀ t ∈ loopSteps cfg srv its, t.input.sys.Succeeds := by
  intro t ht
  obtain ⟨srv', it, hit, hinput⟩ := Lib.mem_drive (Lib.input_mem ht)
  rcases List.mem_cons.1 hinput with heq | hinput
  · rw [heq]
    exact (h it hit).check
  · obtain ⟨srv'', r, hr, hinput⟩ := Lib.mem_drive hinput
    rw [Report.sys_eq hinput]
    exact (h it hit).reports r hr

/-- In every run of the main loop in which all system calls succeed, there is a fault if and
    only if a datagram brings it about. -/
theorem killed_iff (hfiled : srv.Filed) {its : List Iteration}
    (hsucceeds : ∀ it ∈ its, it.Succeeds) :
    (Lib.run (iterate cfg) srv its).isOk = false ↔
      ∃ t ∈ loopSteps cfg srv its, ∃ a ∈ t.input.arrival,
        ∃ c ∈ t.pre.handler t.input.sys a, t.Kills a c := by
  have hsys : ∀ t ∈ loopSteps cfg srv its, t.input.sys.Succeeds :=
    Iteration.Succeeds.loopSteps hsucceeds
  have hpast : ∀ t ∈ loopSteps cfg srv its, t.pre.Filed := by
    rw [loopSteps, ← Lib.always_iff_forall_mem] at hsys ⊢
    refine Lib.always_of_always (fun _ => Server.Filed) hfiled (fun _ _ h _ _ _ => h) ?_ hsys
    rintro past ⟨srv, i, post⟩ srv' h - (hpost : post = step cfg srv i) hsucceeds
      (hok : post = .ok srv')
    exact step_filed h (hpost.symm.trans hok) hsucceeds.opensFlagged
  have hstep : ∀ t ∈ loopSteps cfg srv its, t.post.isOk = true ↔
      ∀ a ∈ t.input.arrival, ∀ c ∈ t.pre.handler t.input.sys a, ¬t.Kills a c := by
    rintro ⟨srv', i, post⟩ ht
    obtain rfl : post = step cfg srv' i := Lib.post_eq ht
    rw [step_isOk_iff, ServerStep.survived_iff (hpast _ ht) (hsys _ ht)]
  rw [← Bool.not_eq_true, run_iterate, Lib.run_isOk_iff_forall, ← loopSteps,
    forall₂_congr hstep]
  simp only [not_forall, not_not, exists_prop]

end

namespace Sample

/-- The system on which everything works, and pointers that were never assigned point nowhere. -/
def uninitialised : Sys :=
  { Sys.ideal with uninit := none, fwrite := fun n => min n (pktlen - headerSize) }

/-- A client of the server asks for a file, with an option and then without one. -/
def plainRequest : List Iteration :=
  [⟨uninitialised, [⟨3, false, false, true, .datagram (.inet 40000 1) (blksizeRequest "8"),
      uninitialised⟩,
    ⟨3, false, false, true, .datagram (.inet 40000 1) (request .rrq []), uninitialised⟩]⟩]

end Sample

theorem Sys.succeeds_uninitialised : Sample.uninitialised.Succeeds where
  memory := ⟨rfl, rfl, rfl⟩
  stat _ := rfl
  access _ _ := rfl
  fopen _ _ := rfl
  fwrite n := Nat.add_le_of_le_sub' (by decide) (Nat.min_le_right n _)
  sendto _ _ := rfl

/-- The second one ends the process. -/
theorem killed_iff_plainRequest :
    ∃ t ∈ loopSteps Sample.config (Sample.boot [1]) Sample.plainRequest,
      ∃ a ∈ t.input.arrival, ∃ c ∈ t.pre.handler t.input.sys a, t.Kills a c := by
  refine (killed_iff (fun c hc => absurd hc List.not_mem_nil) fun it hit => ?_).1
    (by decide +kernel)
  rw [List.mem_singleton.1 hit]
  refine ⟨Sys.succeeds_uninitialised, fun r hr => ?_⟩
  rcases List.mem_pair.1 hr with rfl | rfl <;> exact Sys.succeeds_uninitialised

end Nbstftp
