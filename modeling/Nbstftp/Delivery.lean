import Nbstftp.Conversation
import Nbstftp.Leaving
import Nbstftp.Write

/-!
# Whole transfers

What the server does for a host that reads or writes a file, whatever other hosts do meanwhile.

* A host that asks for a block size, and acknowledges one block after the other, each when what is
  queued for it has been sent, is sent the blocks of the file in order, once each, up to the first
  short one (`reads_file`).
* A host that writes a file, and sends its blocks in order, has as much of it stored at any time
  as it has sent, and is sent one ACK for each (`writes_file`); it need not wait.

Both are runs of turns known in full (`exchanges_negotiated`, `run_write`), which the runs of the
server are (`conversation`).
-/

namespace Nbstftp

open Lib (block blockCount)

/-! ## In turn -/

/-- A host is heard only when nothing is queued for it. -/
def ServerStep.InTurn (h : Host) (t : ServerStep) : Prop :=
  (t.input.heard h).isSome → t.pre.addressedTo h = t.pre.sentTo h

instance (h : Host) (t : ServerStep) : Decidable (t.InTurn h) :=
  inferInstanceAs (Decidable (_ → _))

section

variable {h : Host} {path : Bytes}

/-- Then its client is not marked. -/
theorem ServerStep.InTurn.unmarked {t : ServerStep} (ht : t.InTurn h)
    (hleaving : ∀ c ∈ t.pre.clientpool.clients, c.Leaving) (hheard : (t.input.heard h).isSome)
    {c : Client} (hc : c ∈ t.pre.clientpool.clients) (hof : c.Of h) : c.destroy = false := by
  have hnone : h.packets (t.pre.clientpool.clients.flatMap Client.packets) = [] :=
    List.append_right_eq_self.1 (ht hheard)
  obtain ⟨pre, rest, hpool⟩ := List.append_of_mem hc
  rw [hpool, List.flatMap_append, List.flatMap_cons, Host.packets_append, Host.packets_append,
    Host.packets_client, if_pos hof] at hnone
  have hqueue : c.packetqueue = [] := by
    simpa using (List.append_eq_nil_iff.1 (List.append_eq_nil_iff.1 hnone).2).1
  cases hmarked : c.destroy with
  | false => rfl
  | true => exact absurd hqueue (hleaving c hc hmarked)

/-- The start of the turns of a host: a client that is new. -/
def Host.start (h : Host) (machine : Machine) : State :=
  (machine, .new 0 ⟨h.fd, SF_READABLE, h.addr, ⟨0, []⟩, 0, pktlen⟩)

end

/-! ## Reading -/

/-- A host asks for the file at `path` in blocks of `B` bytes, and then acknowledges `n` blocks, the
    first time before the first one, each when nothing is queued for it. -/
structure HostReads (cfg : Config) (h : Host) (path rrq : Bytes) (B n : ℕ)
    (ts : List ServerStep) : Prop where
  port : h.addr.port ≠ 32768
  heard : (ts.filterMap fun t => t.input.heard h) =
    rrq :: (List.range n).map fun k => ackBytes (UInt16.ofNat k)
  packet : IsPacket .rrq rrq
  filename : requestPath cfg (requestOf rrq).filename = path
  blksize : ∀ t ∈ heardIn h ts, acceptedBlksize t.input.sys (requestOf rrq) = some B
  serves : ∀ t ∈ heardIn h ts, t.input.sys.Serves path
  inTurn : ∀ t ∈ ts, ServerStep.InTurn h t
  apart : ∀ t ∈ ts, ServerStep.Apart h path t

section

variable {cfg : Config} {h : Host} {path rrq : Bytes} {B k n : ℕ} {ts : List ServerStep}
  {machine : Machine} {socketpool : List Socket} {inputs : List Input} {srv : Server}

/-- ACKs of one block after the other. -/
theorem acks_of_datagrams {turns : List Turn}
    (hturns : turns.map Turn.datagram =
      (List.range' k n).map fun k => ackBytes (UInt16.ofNat k))
    (hflush : ∀ u ∈ turns, u.Flushes path) (hread : ∀ u ∈ turns, ∀ n, n ≤ u.sys.fread n) :
    Acks path k turns := by
  induction turns generalizing k n with
  | nil => exact .nil k
  | cons u turns ih =>
    cases n with
    | zero => cases hturns
    | succ n =>
      obtain ⟨hu, hturns⟩ := List.cons.inj hturns
      rw [List.forall_mem_cons] at hflush hread
      refine .cons ?_ ?_ hflush.1 hread.1 (ih hturns hflush.2 hread.2)
      · rw [hu]
        exact isPacket_ackBytes _
      · rw [hu]
        exact blocknoOf_ackBytes _

namespace HostReads

/-- In all steps but that of the request, the client may have been removed. -/
def flushes (h : Host) (rrq : Bytes) (t : ServerStep) : Bool := decide (t.input.heard h ≠ some rrq)

/-- No ACK is the request. -/
theorem ackBytes_ne (hrrq : IsPacket .rrq rrq) (k : UInt16) : ackBytes k ≠ rrq := fun heq => by
  have hack := isPacket_ackBytes k
  rw [heq] at hack
  exact absurd (hack.2.symm.trans hrrq.2) (by decide)

/-- The request is the first datagram, and the client is not marked when another one arrives. -/
theorem timely (hreads : HostReads cfg h path rrq B n ts)
    (hleaving : ∀ t ∈ ts, ∀ c ∈ t.pre.clientpool.clients, c.Leaving) :
    Lib.Always (ServerStep.Timely h (flushes h rrq)) ts := by
  intro past t future hts
  have ht : t ∈ ts := hts ▸ List.mem_append_right _ List.mem_cons_self
  refine ⟨fun hheard _ c hc hof => (hreads.inTurn t ht).unmarked (hleaving t ht) hheard hc hof,
    fun _ hrequest => .inr fun u hu => ?_⟩
  have hrequest : t.input.heard h = some rrq := not_not.1 (of_decide_eq_false hrequest)
  have hheard := hreads.heard
  rw [hts, List.filterMap_append, List.filterMap_cons, hrequest] at hheard
  -- Had anything been heard before, the request would be one of the ACKs.
  cases hpast : past.filterMap fun t => t.input.heard h with
  | nil => exact List.filterMap_eq_nil_iff.1 hpast u hu
  | cons d ds =>
    rw [hpast, List.cons_append, List.cons.injEq] at hheard
    have hmem : rrq ∈ (List.range n).map fun k => ackBytes (UInt16.ofNat k) :=
      hheard.2 ▸ List.mem_append_right _ List.mem_cons_self
    obtain ⟨k, -, hk⟩ := List.mem_map.1 hmem
    exact absurd hk (ackBytes_ne hreads.packet _)

/-- The turns of the host are a read in lock step. -/
theorem negotiatedRead (hreads : HostReads cfg h path rrq B n ts) {s₀ s : State}
    {turns : List Turn} (hfresh : s₀.2.transfer = .fresh)
    (hc : Converses cfg h path (flushes h rrq) s₀ ts srv turns s) :
    ∃ u acks, turns = u :: acks ∧ acks.length = n ∧ NegotiatedRead cfg path B s₀ u acks := by
  have hdatagrams := hc.datagrams.trans hreads.heard
  obtain ⟨u, acks, rfl, hu, hacks⟩ := List.map_eq_cons_iff.1 hdatagrams
  obtain ⟨t, ht, hturn⟩ := hc.exists_step List.mem_cons_self
  have hquiet : u.Quiet path := hturn.quiet <| decide_eq_false <| not_not.2 <| hu ▸ hturn.datagram
  have hall : ∀ v ∈ acks, v.Flushes path ∧ v.sys.Serves path := by
    intro v hv
    obtain ⟨t', ht', hturn'⟩ := hc.exists_step (List.mem_cons_of_mem _ hv)
    refine ⟨hturn'.flush (decide_eq_true ?_), hturn'.sys ▸ hreads.serves t' ht'⟩
    have hmem : v.datagram ∈ (List.range n).map fun k => ackBytes (UInt16.ofNat k) :=
      hacks ▸ List.mem_map_of_mem hv
    obtain ⟨k, -, hk⟩ := List.mem_map.1 hmem
    rw [hturn'.datagram, ← hk]
    exact fun heq => ackBytes_ne hreads.packet _ (Option.some.inj heq)
  have hlength : acks.length = n := by
    have hlength := congrArg List.length hacks
    rwa [List.length_map, List.length_map, List.length_range] at hlength
  refine ⟨u, acks, rfl, hlength, ?_⟩
  refine ⟨hfresh, hu ▸ hreads.packet, ?_, hu ▸ hreads.filename, hquiet,
    hturn.sys ▸ hreads.serves t ht, ?_⟩
  · rw [hu, hturn.sys]
    exact hreads.blksize t ht
  · rw [List.range_eq_range'] at hacks
    exact acks_of_datagrams hacks (fun v hv => (hall v hv).1) fun v hv => (hall v hv).2.fread

end HostReads

/-- In every run of the server in which a host reads a file in turn, and whatever the other
    clients do: the DATA packets sent to it, or queued for it still, are the first blocks of
    the file, in order and once each, one for each ACK; and if there are enough ACKs, they
    make up the file. -/
theorem reads_file (hsent : h.packets machine.sent = [])
    (hreads : HostReads cfg h path rrq B n
      (Lib.trace (step cfg) (.boot machine socketpool) inputs))
    (hrun : Lib.run (step cfg) (.boot machine socketpool) inputs = .ok srv) :
    let F := machine.files path
    let N := F.length / B + 1
    let sent := (srv.addressedTo h).filter (IsData ·)
    sent = (List.range (min n N)).map
        (fun k => dataBytes (UInt16.ofNat (k + 1)) ((F.drop (k * B)).take B)) ∧
      (N ≤ n → sent.flatMap (List.drop headerSize) = F) := by
  have hfresh : (h.start machine).2.transfer = .fresh := rfl
  obtain ⟨turns, s, hc⟩ :=
    converses hreads.port rfl hfresh hsent hreads.apart (hreads.timely forall_pre_leaving) hrun
  obtain ⟨u, acks, rfl, rfl, hread⟩ := hreads.negotiatedRead rfl hc
  have hB : 0 < B := Nat.lt_of_lt_of_le (by decide) (acceptedBlksize_bounds _ _ hread.blksize).1
  have hblocks : _ = (List.range (min acks.length (blockCount B (machine.files path)))).map
      (fun k => dataBytes (UInt16.ofNat (k + 1)) (block B (machine.files path) k)) :=
    data_negotiated hread
  have hdata : (srv.addressedTo h).filter (IsData ·) =
      (exchanges cfg (h.start machine) (u :: acks)).flatMap Exchange.data := by
    rw [hc.addressed, List.filter_flatMap]
    rfl
  intro F N sent
  have hsent : sent = _ := hdata.trans hblocks
  rw [hsent]
  constructor
  · simp only [Lib.block_eq_take_drop]
    rfl
  · intro hN
    rw [Nat.min_eq_right (show blockCount B F ≤ _ from hN), List.flatMap_map]
    exact Lib.flatMap_block hB F

end

namespace Sample

/-- A request for `f` in blocks of 8 bytes, which two ACKs follow; meanwhile, another host asks for
    `f`, and sends an ERROR. -/
def read : List Input :=
  [receive (request .rrq (ascii "blksize" ++ [0] ++ ascii "8" ++ [0])),
    receiveOther (request .rrq []), flush, receive (ackBytes 0),
    receiveOther (errorBytes .undefined []), flush, receive (ackBytes 1)]

theorem read_ideal {i : Input} (hi : i ∈ read) : i.sys = .ideal := by
  simp only [read, List.mem_cons, List.not_mem_nil, or_false] at hi
  rcases hi with rfl | rfl | rfl | rfl | rfl | rfl | rfl <;> rfl

theorem hostReads_read :
    HostReads config host path (request .rrq (ascii "blksize" ++ [0] ++ ascii "8" ++ [0])) 8 2
      (Lib.trace (step config) (boot (ascii "ninebytes")) read) where
  port := by decide
  heard := by decide +kernel
  packet := by decide +kernel
  filename := by decide +kernel
  blksize := by decide +kernel
  serves t ht := read_ideal (Lib.input_mem (List.mem_of_mem_filter ht)) ▸ serves path
  inTurn := by decide +kernel
  apart := by decide +kernel

end Sample

/-- A file of nine bytes, sent in two blocks while another host is served. -/
theorem reads_file_bytes :
    (((Sample.after (ascii "ninebytes") Sample.read).addressedTo Sample.host).filter
      (IsData ·)).flatMap (List.drop headerSize) = ascii "ninebytes" :=
  (reads_file rfl Sample.hostReads_read (Sample.run_after (by decide +kernel))).2 (by decide)

/-! ## Writing -/

/-- A host asks to write the file at `path`, and then sends the first `n` blocks of `D`. -/
structure HostWrites (cfg : Config) (h : Host) (path wrq D : Bytes) (n : ℕ)
    (ts : List ServerStep) : Prop where
  port : h.addr.port ≠ 32768
  heard : (ts.filterMap fun t => t.input.heard h) = wrq :: (List.range n).map (blockPacket D)
  le : n ≤ D.length / 512 + 1
  request : IsRequest cfg .wrq path wrq
  loggable : ∀ t ∈ heardIn h ts, (requestOf wrq).Loggable t.input.sys
  accepts : ∀ t ∈ heardIn h ts, t.input.sys.Accepts cfg path
  apart : ∀ t ∈ ts, ServerStep.Apart h path t

section

variable {cfg : Config} {h : Host} {path wrq D : Bytes} {n : ℕ} {ts : List ServerStep}
  {machine : Machine} {socketpool : List Socket} {inputs : List Input} {srv : Server}

/-- Full blocks: they are what the file is, and are acknowledged. -/
theorem run_write_full {s : State} {turns : List Turn} (hfresh : s.2.transfer = .fresh)
    (hturns : turns.map Turn.datagram = wrq :: (List.range n).map (blockPacket D))
    (hle : n ≤ D.length / 512) (hrequest : IsRequest cfg .wrq path wrq)
    (hloggable : ∀ u ∈ turns, (requestOf wrq).Loggable u.sys)
    (hquiet : ∀ u ∈ turns, u.Quiet path) (haccepts : ∀ u ∈ turns, u.sys.Accepts cfg path) :
    ∃ s', Lib.run (turn cfg) s turns = .ok s' ∧ Storing path (D.take (n * 512)) s' ∧
      (exchanges cfg s turns).flatMap Exchange.queued =
        (List.range (n + 1)).map fun k => ackBytes (UInt16.ofNat k) := by
  obtain ⟨u, blocks, rfl, rfl, hblocks⟩ := List.map_eq_cons_iff.1 hturns
  rw [List.forall_mem_cons] at hquiet haccepts hloggable
  have hfull : ∀ k ∈ List.range n, 512 ≤ (block 512 D k).length := fun k hk =>
    Nat.le_of_eq ((Lib.length_block_eq_iff (by omega)).2
      (Nat.lt_of_lt_of_le (List.mem_range.1 hk) hle)).symm
  obtain ⟨s₁, hs₁, hstoring₁, -, hqueued₁⟩ := turn_wrq hquiet.1 haccepts.1 hrequest
    hloggable.1 (congrArg Transfer.destroy hfresh)
  obtain ⟨s₂, hs₂, hstoring₂, hqueued₂, -⟩ :=
    run_blocks hblocks hquiet.2 haccepts.2 hfull hstoring₁
  rw [List.nil_append, Lib.flatMap_block_range] at hstoring₂
  refine ⟨s₂, (Lib.run_cons_ok hs₁).trans hs₂, hstoring₂, ?_⟩
  rw [exchanges, Lib.trace_cons_ok hs₁, List.flatMap_cons, hqueued₁, hqueued₂,
    List.range_succ_eq_map, List.map_cons, List.map_map]
  rfl

/-- The first `n` blocks of `D`, in order, whether or not the last one is among them. -/
theorem run_write {s : State} {turns : List Turn} (hfresh : s.2.transfer = .fresh)
    (hturns : turns.map Turn.datagram = wrq :: (List.range n).map (blockPacket D))
    (hle : n ≤ D.length / 512 + 1) (hrequest : IsRequest cfg .wrq path wrq)
    (hloggable : ∀ u ∈ turns, (requestOf wrq).Loggable u.sys)
    (hquiet : ∀ u ∈ turns, u.Quiet path) (haccepts : ∀ u ∈ turns, u.sys.Accepts cfg path) :
    ∃ s', Lib.run (turn cfg) s turns = .ok s' ∧ s'.1.files path = D.take (n * 512) ∧
      (exchanges cfg s turns).flatMap Exchange.queued =
        (List.range (n + 1)).map fun k => ackBytes (UInt16.ofNat k) := by
  rcases Nat.lt_or_ge n (D.length / 512 + 1) with hlt | hge
  · obtain ⟨s', hs', hstoring, hqueued⟩ :=
      run_write_full hfresh hturns (Nat.le_of_lt_succ hlt) hrequest hloggable hquiet haccepts
    exact ⟨s', hs', hstoring.files, hqueued⟩
  obtain rfl := Nat.le_antisymm hle hge
  -- The blocks before the last one are full.
  rw [List.range_succ, List.map_append, ← List.cons_append] at hturns
  obtain ⟨fulls, lasts, rfl, hfulls, hlasts⟩ := List.map_eq_append_iff.1 hturns
  obtain ⟨last, rfl, hlast⟩ := List.map_eq_singleton_iff.1 hlasts
  rw [List.forall_mem_append, List.forall_mem_singleton] at hquiet haccepts
  obtain ⟨s₁, hs₁, hstoring, hqueued⟩ :=
    run_write_full hfresh hfulls (Nat.le_refl _) hrequest
      (fun u hu => hloggable u (List.mem_append_left _ hu)) hquiet.1 haccepts.1
  obtain ⟨s₂, hs₂, hfile, -, -, hqueued'⟩ := turn_block hquiet.2 haccepts.2 hlast hstoring
  refine ⟨s₂, ?_, ?_, ?_⟩
  · rw [Lib.run_append hs₁, Lib.run_cons_ok hs₂, Lib.run]
  · rw [hfile, Lib.take_succ_mul]
  · rw [exchanges, Lib.trace_append hs₁, Lib.trace_cons_ok hs₂, List.flatMap_append, hqueued,
      List.range_succ (n := D.length / 512 + 1), List.map_append, Lib.trace, List.flatMap_singleton,
      hqueued', List.map_singleton]

/-- If the client cannot have been removed, all turns are quiet. -/
theorem Converses.quiet {past : List ServerStep} {s₀ s : State} {turns : List Turn}
    (hc : Converses cfg h path (fun _ => false) s₀ past srv turns s) :
    ∀ u ∈ turns, u.Quiet path := by
  intro u hu
  obtain ⟨t, -, hturn⟩ := hc.exists_step hu
  exact hturn.quiet rfl

/-- What holds of the system calls whenever the host is heard holds in all turns. -/
theorem Converses.forall_sys (P : Sys → Prop) {past : List ServerStep}
    {flushes : ServerStep → Bool} {s₀ s : State} {turns : List Turn}
    (hc : Converses cfg h path flushes s₀ past srv turns s)
    (hpast : ∀ t ∈ heardIn h past, P t.input.sys) : ∀ u ∈ turns, P u.sys := by
  intro u hu
  obtain ⟨t, ht, hturn⟩ := hc.exists_step hu
  exact hturn.sys ▸ hpast t ht

namespace HostWrites

/-- A step in which the host is heard is one in which it has sent only some of the blocks. -/
structure Unfinished (cfg : Config) (h : Host) (path wrq D : Bytes) (n : ℕ)
    (past : List ServerStep) : Prop where
  loggable : ∀ t ∈ heardIn h past, (requestOf wrq).Loggable t.input.sys
  accepts : ∀ t ∈ heardIn h past, t.input.sys.Accepts cfg path
  heard : ∃ d ds, (past.filterMap fun t => t.input.heard h) ++ d :: ds =
    wrq :: (List.range n).map (blockPacket D)

theorem unfinished (hwrites : HostWrites cfg h path wrq D n ts) {past future : List ServerStep}
    {t : ServerStep} (hts : ts = past ++ t :: future) (hheard : (t.input.heard h).isSome) :
    Unfinished cfg h path wrq D n past where
  loggable u hu := hwrites.loggable u <| by
    rw [hts, heardIn, List.filter_append]
    exact List.mem_append_left _ hu
  accepts u hu := hwrites.accepts u <| by
    rw [hts, heardIn, List.filter_append]
    exact List.mem_append_left _ hu
  heard := by
    obtain ⟨d, hd⟩ := Option.isSome_iff_exists.1 hheard
    refine ⟨d, future.filterMap fun t => t.input.heard h, ?_⟩
    rw [← hwrites.heard, hts, List.filterMap_append, List.filterMap_cons, hd]

/-- Its client is not marked then. -/
theorem Unfinished.unmarked {past : List ServerStep} {s₀ s : State} {turns : List Turn}
    (hpast : Unfinished cfg h path wrq D n past) (hfresh : s₀.2.transfer = .fresh)
    (hle : n ≤ D.length / 512 + 1) (hrequest : IsRequest cfg .wrq path wrq)
    (hc : Converses cfg h path (fun _ => false) s₀ past srv turns s) : s.2.destroy = false := by
  obtain ⟨d, ds, hheard⟩ := hpast.heard
  have hdatagrams := hc.datagrams
  generalize (past.filterMap fun t => t.input.heard h) = l at hheard hdatagrams
  cases l with
  | nil =>
    obtain rfl := List.map_eq_nil_iff.1 hdatagrams
    cases hc.run
    exact congrArg Transfer.destroy hfresh
  | cons d' l =>
    rw [List.cons_append] at hheard
    obtain ⟨rfl, hblocks⟩ := List.cons.inj hheard
    have hlength := congrArg List.length hblocks
    rw [List.length_append, List.length_map, List.length_range, List.length_cons] at hlength
    have hl : l = (List.range l.length).map (blockPacket D) := by
      have htake := congrArg (List.take l.length) hblocks
      rwa [List.take_left, ← List.map_take, List.take_range, Nat.min_eq_left (by omega)] at htake
    rw [hl] at hdatagrams
    obtain ⟨s', hs', hstoring, -⟩ := run_write_full hfresh hdatagrams (by omega) hrequest
      (hc.forall_sys (requestOf d').Loggable hpast.loggable) hc.quiet
      (hc.forall_sys (·.Accepts cfg path) hpast.accepts)
    cases hs'.symm.trans hc.run
    exact hstoring.destroy

end HostWrites

/-- In every run of the server in which a host writes a file, and whatever the other clients do:
    the file is what the host has sent of it; and the packets sent to the host, or queued for it
    still, are the ACKs of its request and of each block, in order and once each. -/
theorem writes_file (hsent : h.packets machine.sent = [])
    (hwrites : HostWrites cfg h path wrq D n
      (Lib.trace (step cfg) (.boot machine socketpool) inputs))
    (hrun : Lib.run (step cfg) (.boot machine socketpool) inputs = .ok srv) :
    srv.machine.files path = D.take (n * 512) ∧
      srv.addressedTo h = (List.range (n + 1)).map fun k => ackBytes (UInt16.ofNat k) := by
  have hinv := Lib.run_always
    (Q := fun past t => ServerStep.Apart h path t ∧
      ((t.input.heard h).isSome → HostWrites.Unfinished cfg h path wrq D n past))
    (fun past srv => srv.Unarmed ∧
      ∃ turns s, Converses cfg h path (fun _ => false) (h.start machine) past srv turns s)
    ⟨fun c hc => absurd hc List.not_mem_nil, [], _, converses_boot rfl rfl hsent⟩
    (fun past srv i srv' hinv ht hstep => by
      obtain ⟨hunarmed, turns, s, hc⟩ := hinv
      refine ⟨step_unarmed hunarmed hstep, hc.step hwrites.port hunarmed ht.1
        (fun _ hflush => nomatch hflush) (fun hheard _ => ?_) hstep⟩
      by_cases hknown : ∃ c ∈ srv.clientpool.clients, c.Of h
      · exact .inl hknown
      · -- It would be gone only if it had been marked.
        have hlive := (ht.2 hheard).unmarked rfl hwrites.le hwrites.request hc
        rcases hc.follows.gone fun c hmem hof => hknown ⟨c, hmem, hof⟩ with hmarked | hfresh
        · exact absurd (hlive.symm.trans hmarked) (by decide)
        · exact .inr hfresh)
    (fun past t future hl => ⟨hwrites.apart t (hl ▸ List.mem_append_right _ List.mem_cons_self),
      hwrites.unfinished hl⟩) hrun
  obtain ⟨-, turns, s, hc⟩ := hinv
  obtain ⟨s', hs', hfile, hqueued⟩ := run_write (s := h.start machine) rfl
    (hc.datagrams.trans hwrites.heard) hwrites.le hwrites.request
    (hc.forall_sys (requestOf wrq).Loggable hwrites.loggable) hc.quiet
    (hc.forall_sys (·.Accepts cfg path) hwrites.accepts)
  cases hs'.symm.trans hc.run
  exact ⟨hc.follows.files.trans hfile, hc.addressed.trans hqueued⟩

end

namespace Sample

/-- A request to write `f`, and the one block of a short file; another host sends an ACK. -/
def write (D : Bytes) : List Input :=
  [receive wrq, receiveOther (ackBytes 0), receive (blockPacket D 0), flush]

theorem write_ideal {D : Bytes} {i : Input} (hi : i ∈ write D) : i.sys = .ideal := by
  simp only [write, List.mem_cons, List.not_mem_nil, or_false] at hi
  rcases hi with rfl | rfl | rfl | rfl <;> rfl

theorem run_write_bytes : Lib.run (step config) (boot [1]) (write [1, 2]) =
    .ok (after [1] (write [1, 2])) :=
  run_after (by decide +kernel)

theorem hostWrites_write :
    HostWrites config host path wrq [1, 2] 1
      (Lib.trace (step config) (boot [1]) (write [1, 2])) where
  port := by decide
  heard := by
    have hheard : (write [1, 2]).filterMap (·.heard host) =
        wrq :: (List.range 1).map (blockPacket [1, 2]) := by decide +kernel
    have hinputs := congrArg (List.filterMap (·.heard host)) (Lib.map_input_trace run_write_bytes)
    rw [List.filterMap_map] at hinputs
    exact hinputs.trans hheard
  le := by decide
  request := wrq_isRequest
  loggable t ht := write_ideal (Lib.input_mem (List.mem_of_mem_filter ht)) ▸ loggable wrq
  accepts t ht := write_ideal (Lib.input_mem (List.mem_of_mem_filter ht)) ▸ accepts path
  apart := by decide +kernel

end Sample

/-- A file of two bytes, sent while another host sends something. -/
theorem writes_file_bytes :
    let srv := Sample.after [1] (Sample.write [1, 2])
    srv.machine.files Sample.path = ([1, 2] : Bytes).take (1 * 512) ∧
      srv.addressedTo Sample.host = (List.range 2).map fun k => ackBytes (UInt16.ofNat k) :=
  writes_file rfl Sample.hostWrites_write Sample.run_write_bytes

end Nbstftp
