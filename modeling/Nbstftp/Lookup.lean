import Nbstftp.Endpoint

/-!
# Looking up clients

The transfer ID a client is stored with is its port, narrowed to 16 bits, negated, and
narrowed again; it is found by the negation of its narrowed port as an `int`. The two
are the same for every port but 32768, whose negation does not fit into 16 bits
(`tid_eq_iff`): a client of that port is never found again, and every datagram of it
gets a new one (`not_coherent`). For the clients of all other ports, looking them up
gives back the client there is (`coherent_iff`).
-/

namespace Nbstftp

/-- What looking for the client of a sender is to give, once `c` was got for it: `c` is
    found, got again without anything being added, and the only client of the endpoint. -/
structure Coherent (srv : Server) (fd : Int) (src : SockAddr) (c : Client) : Prop where
  found : srv.findClient fd src = some c
  again : ∀ sys, srv.findOrAllocateClient sys fd src = (srv, .client c)
  unique : ∀ d ∈ srv.clientpool.clients, ∀ e ∈ srv.clientpool.clients, d.s.fd = fd → e.s.fd = fd →
    d.s.addr.endpoint = src.endpoint → e.s.addr.endpoint = src.endpoint → d = e

namespace Server

variable {sys : Sys} {srv srv₁ : Server} {fd : Int} {src : SockAddr} {c : Client}

/-- The port of an endpoint. -/
theorem port_of_endpoint {s s' : SockAddr} (h : s.endpoint = s'.endpoint) : s.port = s'.port := by
  have hport : ∀ s : SockAddr, s.endpoint.2 = s.port := fun s => by cases s <;> rfl
  rw [← hport, h, hport]

/-- The client got for a sender is one of its descriptor and its port. -/
theorem findOrAllocateClient_key (h : Keyed srv.identities)
    (hfound : srv.findOrAllocateClient sys fd src = (srv₁, .client c)) :
    c.s.fd = fd ∧ c.s.addr.port = src.port := by
  rcases findOrAllocateClient_eq sys srv hfound with ⟨hfind, -⟩ | ⟨-, rfl, -⟩
  · exact ⟨(findClient_some h hfind).1, (findClient_some h hfind).2.1⟩
  · exact ⟨rfl, rfl⟩

/-- It is found again if its port is one that can be. -/
theorem findClient_again (h : Keyed srv.identities)
    (hfound : srv.findOrAllocateClient sys fd src = (srv₁, .client c)) (hport : src.port ≠ 32768) :
    srv₁.findClient fd src = some c := by
  have h₁ := keyed_findOrAllocateClient h hfound
  have hc : c ∈ srv₁.clientpool.clients := mem_of_findOrAllocateClient sys srv hfound
  obtain ⟨hcfd, hcport⟩ := findOrAllocateClient_key h hfound
  have hsome : (srv₁.findClient fd src).isSome :=
    List.find?_isSome.2 ⟨c, hc, (key_iff h₁ hc).2 ⟨hcfd, hcport, hport⟩⟩
  obtain ⟨d, hd⟩ := Option.isSome_iff_exists.1 hsome
  -- There is no other client of the descriptor with the port.
  obtain ⟨hdfd, hdport, -⟩ := findClient_some h₁ hd
  have hmem : d ∈ srv₁.clientpool.clients := List.mem_of_find?_eq_some hd
  have hid : d.identity = c.identity :=
    h₁.eq (List.mem_map_of_mem hmem) (List.mem_map_of_mem hc) (hdfd.trans hcfd.symm)
      (hdport.trans hcport.symm) fun h => hport (hdport.symm.trans h)
  have hdc : d = c :=
    List.inj_on_of_nodup_map srv₁.clientpool.nodup hmem hc (congrArg Identity.ptr hid)
  rw [hd, hdc]

/-- Looking up the client of a sender is coherent exactly for ports that can be found. -/
theorem coherent_iff_port (h : Keyed srv.identities)
    (hfound : srv.findOrAllocateClient sys fd src = (srv₁, .client c)) :
    Coherent srv₁ fd src c ↔ src.port ≠ 32768 := by
  have h₁ := keyed_findOrAllocateClient h hfound
  constructor
  · exact fun hcoherent => (findClient_some h₁ hcoherent.found).2.2
  · intro hport
    have hfind := findClient_again h hfound hport
    refine ⟨hfind, fun sys' => by rw [findOrAllocateClient, hfind], ?_⟩
    intro d hd e he hdfd hefd hdend heend
    have hdport := port_of_endpoint hdend
    have hid : d.identity = e.identity :=
      h₁.eq (List.mem_map_of_mem hd) (List.mem_map_of_mem he) (hdfd.trans hefd.symm)
        (hdport.trans (port_of_endpoint heend).symm) fun h => hport (hdport.symm.trans h)
    exact List.inj_on_of_nodup_map srv₁.clientpool.nodup hd he (congrArg Identity.ptr hid)

end Server

/-- In every run of the server, transfer IDs and ports stay as they are to be. -/
theorem run_keyed {cfg : Config} {machine : Machine} {socketpool : List Socket}
    {inputs : List Input} {srv : Server}
    (hrun : Lib.run (step cfg) (.boot machine socketpool) inputs = .ok srv) :
    Keyed srv.identities := by
  rcases Lib.run_invariant (step cfg) inputs (fun srv => Keyed srv.identities) (fun _ => True)
    (fun srv₁ i srv₂ h hs => step_keyed h hs) (fun _ _ _ _ _ => trivial)
    (s := .boot machine socketpool) ⟨fun i hi => absurd hi List.not_mem_nil, List.Pairwise.nil⟩ with
    ⟨srv', hs, h⟩ | ⟨e, he, -⟩
  · cases hrun.symm.trans hs
    exact h
  · cases hrun.symm.trans he

/-- In every state a run of the server leads to, and for every sender, looking up its
    client is coherent if and only if its port is not 32768. -/
theorem coherent_iff {cfg : Config} {machine : Machine} {socketpool : List Socket}
    {inputs : List Input} {srv srv₁ : Server} {sys : Sys} {fd : Int} {src : SockAddr} {c : Client}
    (hrun : Lib.run (step cfg) (.boot machine socketpool) inputs = .ok srv)
    (hfound : srv.findOrAllocateClient sys fd src = (srv₁, .client c)) :
    Coherent srv₁ fd src c ↔ src.port ≠ 32768 :=
  Server.coherent_iff_port (run_keyed hrun) hfound

/-- A sender of the server to run, before anything arrives. -/
theorem coherent_sample :
    Coherent ((Sample.boot [1]).added .ideal 3 (.inet 40000 1)) 3 (.inet 40000 1)
        (.new 1 ((Sample.boot [1]).newSocket .ideal 3 (.inet 40000 1))) ↔
      (SockAddr.inet 40000 1).port ≠ 32768 := by
  have hfound : (Sample.boot [1]).findOrAllocateClient .ideal 3 (.inet 40000 1) =
      (_, .client _) := rfl
  exact coherent_iff (Sample.run_boot [1]) hfound

/-- A sender with port 32768. -/
theorem not_coherent :
    ¬∀ cfg machine socketpool inputs srv,
      Lib.run (step cfg) (.boot machine socketpool) inputs = .ok srv →
      ∀ sys fd src srv₁ c, srv.findOrAllocateClient sys fd src = (srv₁, .client c) →
        Coherent srv₁ fd src c := by
  intro h
  have hcoherent := h Sample.config (Sample.machine [1]) [Sample.socket] [] (Sample.boot [1])
    (Sample.run_boot [1]) .ideal 3 (.inet 32768 1) _ _ rfl
  exact absurd hcoherent.found (by decide +kernel)

end Nbstftp
