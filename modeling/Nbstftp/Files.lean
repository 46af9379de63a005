import Nbstftp.Capacity
import Nbstftp.Handles

/-!
# Transfers and their files

A transfer is on once a block size was acknowledged, before the file is opened: a
client that gets no file then is in a transfer without one, and its next ACK reads a
null file (`not_has_files`). If no client gets there, every client in a transfer has
an open file, and no null file is read or written (`has_files_iff`).
-/

namespace Nbstftp

/-- Every client in a transfer has a file. -/
def Server.Filed (srv : Server) : Prop :=
  ∀ c ∈ srv.clientpool.clients, c.sendingfile = true → c.f.isSome

/-- A client in a transfer has a file that was opened and is not closed. -/
def Server.HasFiles (srv : Server) : Prop :=
  ∀ c ∈ srv.clientpool.clients, c.sendingfile = true →
    ∃ f ∈ c.f, f.id < srv.machine.nextfile ∧ srv.machine.closes f.id = 0

/-- After a step, clients in a transfer have open files; and in it no null file is used. -/
structure ServerStep.HasFiles (t : ServerStep) : Prop where
  opened : ∀ srv ∈ t.post.toOption, srv.HasFiles
  noFault : ∀ crash, t.post = .error crash → crash.fault ≠ .nullFile

/-- A read request whose block size is accepted is only dealt with for a client without a
    file if its file can be opened. -/
def ServerStep.OpensFlagged (cfg : Config) (t : ServerStep) : Prop :=
  ∀ a ∈ t.input.arrival, fileChange cfg t.input.sys a.data = .flagged →
    Served cfg t.input.sys a.data → ∀ c ∈ t.pre.handler t.input.sys a, c.f.isSome

/-- Nothing but a block of a transfer without a file uses a null file. -/
theorem processDatagram_nullFile {cfg : Config} {sys : Sys} {m : Machine} {c : Client}
    {data : Bytes} {crash : Crash} (h : processDatagram cfg sys m c data = .error crash)
    (hfault : crash.fault = .nullFile) : c.sendingfile = true ∧ c.f = none := by
  by_cases hrequest : IsPacket .rrq data ∨ IsPacket .wrq data
  · -- A request that ends the server does so for another reason.
    have hdeals := processDatagram_deals cfg sys m c hrequest
    by_cases hserved : Served cfg sys data
    · obtain ⟨s', hs, -⟩ := hdeals.ok hserved
      cases h.symm.trans hs
    · obtain ⟨crash', hs, hne⟩ := hdeals.crash hserved
      cases h.symm.trans hs
      exact absurd hfault hne
  rcases processDatagram_cases cfg sys m c data with ⟨-, hs⟩ | ⟨-, hs⟩ | ⟨-, hs⟩ | ⟨hwrq, -⟩ |
    ⟨hrrq, -⟩ | ⟨m', -, hs⟩
  · rw [hs] at h
    rcases processData_cases sys m c (receiveBuffer data) (receivedLength data) with
      ⟨-, s', hs, -⟩ | ⟨hon, hnone, -⟩ | ⟨-, f, m', -, -, hs⟩ | ⟨-, f, s', -, -, hs, -⟩
    · cases h.symm.trans hs
    · exact ⟨hon, hnone⟩
    · cases h.symm.trans hs
      cases hfault
    · cases h.symm.trans hs
  · cases h.symm.trans hs
  · rw [hs] at h
    rcases processAck_cases sys m c with ⟨-, s', hs, -⟩ | ⟨-, -, m', hs⟩ | ⟨hon, -, hnone, -⟩ |
      ⟨-, -, f, blk, s', -, -, hs, -⟩
    · cases h.symm.trans hs
    · cases h.symm.trans hs
      cases hfault
    · exact ⟨hon, hnone⟩
    · cases h.symm.trans hs
  · exact absurd (.inr hwrq) hrequest
  · exact absurd (.inl hrrq) hrequest
  · cases h.symm.trans hs

/-- Receiving leaves a client with a file if it is in a transfer, unless a transfer is on
    for which there is none. -/
theorem Filing.filed {change : FileChange} {s s' : State} (h : Filing change s s')
    (hs : s.2.sendingfile = true → s.2.f.isSome) (hflagged : change = .flagged → s.2.f.isSome)
    (hs' : s'.2.sendingfile = true) : s'.2.f.isSome := by
  have hhandle : ∀ c : Client, c.handle.isSome = c.f.isSome := fun c => Option.isSome_map
  rw [← hhandle]
  cases change with
  | taken => exact h.taken rfl
  | flagged => rw [h.handle (by decide), hhandle]; exact hflagged rfl
  | kept =>
    have hsending := h.sending
    rw [hs'] at hsending
    rw [h.handle (by decide), hhandle]
    exact hs hsending.symm

section

variable {cfg : Config} {srv srv' : Server} {i : Input}

/-- The client a datagram is handed to has a file if it is in a transfer. -/
theorem Server.Filed.handler (h : srv.Filed) {sys : Sys} {a : Arrival} {c : Client}
    (hc : c ∈ srv.handler sys a) (hsending : c.sendingfile = true) : c.f.isSome := by
  rcases Server.handler_cases hc with ⟨-, hmem⟩ | ⟨-, rfl⟩
  · exact h c hmem hsending
  · cases hsending

/-- If every transfer that is on has its file, this remains so. -/
theorem step_filed (h : srv.Filed) (hstep : step cfg srv i = .ok srv')
    (hopens : ServerStep.OpensFlagged cfg ⟨srv, i, .ok srv'⟩) : srv'.Filed := by
  intro d hd hsending
  rcases step_turned hstep hd with ⟨c, hc, hview⟩ | ⟨a, ha, c, hc, m, st, rfl, hturn⟩
  · have hf : d.f = c.f := congrArg (·.2.f) hview
    have hon : d.sendingfile = c.sendingfile := congrArg (·.2.sendingfile) hview
    rw [hf]
    exact h c hc (hon.symm.trans hsending)
  · refine (Server.turn_filing hturn).filed (h.handler hc) (fun hflagged => ?_) hsending
    exact hopens a ha hflagged ((turn_deals (by rw [hflagged]; decide)).served hturn) c hc

/-- A file that is there is open. -/
theorem Server.Filed.hasFiles (h : srv.Filed) (htidy : srv.Tidy) : srv.HasFiles := by
  intro c hc hsending
  obtain ⟨f, hf⟩ := Option.isSome_iff_exists.1 (h c hc hsending)
  obtain ⟨hgiven, hclosed, -⟩ := htidy.isOpen hc hf
  exact ⟨f, hf, hgiven, hclosed⟩

/-- A transfer that is on without a file is seen after the step. -/
theorem ServerStep.HasFiles.opensFlagged
    (hfiles : ServerStep.HasFiles ⟨srv, i, step cfg srv i⟩) :
    ServerStep.OpensFlagged cfg ⟨srv, i, step cfg srv i⟩ := by
  intro a ha hflagged hserved c hc
  obtain ⟨srv₁, hfound, hhanded⟩ := step_handed cfg ha hc
  have hdeals : Deals (Served cfg i.sys a.data) _ (srv₁.machine, c)
      (turn cfg (srv₁.machine, c) (receiving i.sys a.data)) :=
    turn_deals (by rw [hflagged]; decide)
  obtain ⟨st, hturn, hfiling⟩ := hdeals.ok hserved
  rw [hturn] at hhanded
  have hmem : st.2 ∈ (srv₁.put st).clientpool.clients :=
    ClientPool.mem_update_self (Server.mem_of_findOrAllocateClient i.sys srv hfound)
      (turn_ptr hturn)
  rw [hflagged] at hfiling
  obtain ⟨f, hf, -⟩ :=
    hfiles.opened (srv₁.put st) (congrArg Except.toOption hhanded) st.2 hmem hfiling.sending
  -- It has it from before.
  have hhandle : st.2.handle = c.handle := hfiling.handle (by decide)
  have hsome : c.handle.isSome := by
    rw [← hhandle, Client.handle, Option.mem_def.1 hf]
    rfl
  rwa [Client.handle, Option.isSome_map] at hsome

theorem hasFiles_iff (hunarmed : srv.Unarmed) (htidy : srv.Tidy) (h : srv.Filed) :
    ServerStep.HasFiles ⟨srv, i, step cfg srv i⟩ ↔
      ServerStep.OpensFlagged cfg ⟨srv, i, step cfg srv i⟩ := by
  refine ⟨fun hfiles => hfiles.opensFlagged, fun hopens => ⟨?_, ?_⟩⟩
  · intro srv' hsrv'
    have hstep : step cfg srv i = .ok srv' := Lib.mem_toOption.1 hsrv'
    exact (step_filed h hstep hopens).hasFiles (step_tidy hunarmed htidy hstep)
  · intro crash hcrash hfault
    rcases step_crash hcrash with hother | ⟨a, -, c, hc, m, hturn⟩
    · rw [hfault] at hother
      exact absurd hother (by decide)
    · obtain ⟨hon, hnone⟩ := processDatagram_nullFile hturn hfault
      have hsome : c.f.isSome := h.handler hc hon
      rw [show c.f = none from hnone] at hsome
      cases hsome

end

/-- In every run of the server, every client in a transfer has an open file if and only if
    no transfer is on before its file fails to open. -/
theorem has_files_iff (cfg : Config) (files : Bytes → Bytes) (interest : Int → Option UInt32)
    (socketpool : List Socket) (inputs : List Input) :
    (∀ t ∈ Lib.trace (step cfg) (.started files interest socketpool) inputs,
        ServerStep.HasFiles t) ↔
      ∀ t ∈ Lib.trace (step cfg) (.started files interest socketpool) inputs,
        ServerStep.OpensFlagged cfg t := by
  rw [← Lib.always_iff_forall_mem, ← Lib.always_iff_forall_mem]
  refine Lib.always_iff_always (fun _ srv => srv.Unarmed ∧ srv.Tidy ∧ srv.Filed)
    ⟨fun c hc => absurd hc List.not_mem_nil, Server.Owned.tidy fun id => rfl,
      fun c hc => absurd hc List.not_mem_nil⟩ ?_ ?_
  · rintro past ⟨srv, i, post⟩ ⟨hunarmed, htidy, hfiled⟩ - (hpost : post = step cfg srv i)
    rw [hpost]
    exact hasFiles_iff hunarmed htidy hfiled
  · rintro past ⟨srv, i, post⟩ srv' ⟨hunarmed, htidy, hfiled⟩ - (hpost : post = step cfg srv i)
      hopens (hok : post = .ok srv')
    have hstep := hpost.symm.trans hok
    rw [hok] at hopens
    exact ⟨step_unarmed hunarmed hstep, step_tidy hunarmed htidy hstep,
      step_filed hfiled hstep hopens⟩

/-- The system on which no file can be opened. -/
def Sample.unopened : Sys := { Sys.ideal with fopen := fun _ _ => some .acces }

/-- Blocks of 8 bytes are agreed on, of a file that cannot be opened. -/
theorem not_has_files :
    ¬∀ cfg files interest socketpool inputs,
      ∀ t ∈ Lib.trace (step cfg) (.started files interest socketpool) inputs,
        ServerStep.HasFiles t := by
  intro h
  have hfiled : ∀ t ∈ Lib.trace (step Sample.config) (Sample.boot [1])
      [⟨Sample.unopened,
        .readable Sample.socket (.datagram (.inet 40000 1) (Sample.blksizeRequest "8"))⟩],
      ∀ srv ∈ t.post.toOption, ∀ c ∈ srv.clientpool.clients, c.sendingfile = true →
        c.f.isSome = true := by
    intro t ht srv hsrv c hc hsending
    obtain ⟨f, hf, -⟩ := (h Sample.config _ _ [Sample.socket] _ t ht).opened srv hsrv c hc hsending
    exact Option.isSome_of_mem hf
  exact absurd hfiled (by decide +kernel)

end Nbstftp
