import Nbstftp.Sending
import Nbstftp.Upkeep

/-!
# Memory in use

Blocks are identified by the tokens they were allocated with, each of which is given
once. So some blocks that are in use remain so (`Machine.Keeps`) as long as only
others are released: those a client owns, which are no blocks of any socket
(`Client.Apart`). Neither the handling of a datagram (`Upkeep.keeps`) nor sending a
queue (`Server.afterSending_frees`) releases anything else, but for the blocks of the
socket of a client that is removed.
-/

namespace Nbstftp

/-- The tokens of the packets and the block buffer of a client. -/
def Client.toks (c : Client) : List ℕ :=
  c.packetqueue.map (·.p.tok) ++ c.lastpacket.toList.map (·.p.tok) ++ c.blk.toList.map (·.tok)

/-- The tokens of the text of the address of a socket, and of its receive buffer. -/
def Socket.toks (s : Socket) : List ℕ := [s.bindaddr.tok, s.packet]

/-- Some different blocks are allocated, and were not released. -/
structure Machine.Keeps (m : Machine) (T : List ℕ) : Prop where
  nodup : T.Nodup
  allocated : ∀ tok ∈ T, tok < m.nexttok
  released : ∀ tok ∈ m.frees, tok < m.nexttok ∧ tok ∉ T

/-- What a client owns is allocated, and is none of some blocks. -/
def Client.Apart (c : Client) (m : Machine) (T : List ℕ) : Prop :=
  ∀ tok ∈ c.toks, tok < m.nexttok ∧ tok ∉ T

theorem Client.mem_toks {c : Client} {tok : ℕ} :
    tok ∈ c.toks ↔ (∃ pq ∈ c.packetqueue, pq.p.tok = tok) ∨
      (∃ last ∈ c.lastpacket, last.p.tok = tok) ∨ ∃ blk ∈ c.blk, blk.tok = tok := by
  simp only [toks, List.mem_append, List.mem_map, Option.mem_toList, or_assoc, Option.mem_def]

section

variable {m m' : Machine} {T T' : List ℕ} {c c' : Client}

/-- Blocks remain in use if only others are released. -/
theorem Machine.Keeps.release (h : m.Keeps T) (hT : T'.Sublist T) (hn : m.nexttok ≤ m'.nexttok)
    (hf : ∀ tok ∈ m'.frees, tok ∈ m.frees ∨ tok < m.nexttok ∧ tok ∉ T') : m'.Keeps T' where
  nodup := h.nodup.sublist hT
  allocated tok htok := Nat.lt_of_lt_of_le (h.allocated tok (hT.subset htok)) hn
  released tok htok := by
    rcases hf tok htok with htok | ⟨hlt, htok⟩
    · obtain ⟨hlt, hnot⟩ := h.released tok htok
      exact ⟨Nat.lt_of_lt_of_le hlt hn, fun h => hnot (hT.subset h)⟩
    · exact ⟨Nat.lt_of_lt_of_le hlt hn, htok⟩

theorem Client.Apart.mono (h : c.Apart m T) (hn : m.nexttok ≤ m'.nexttok) (hT : T' ⊆ T)
    (hc : c'.toks ⊆ c.toks) : c'.Apart m' T' := fun tok htok =>
  ⟨Nat.lt_of_lt_of_le (h tok (hc htok)).1 hn, fun h' => (h tok (hc htok)).2 (hT h')⟩

end

/-! ## Handling a datagram -/

/-- Some blocks are in use, and the client owns none of them. -/
structure Reserves (T : List ℕ) (s : State) : Prop where
  keeps : s.1.Keeps T
  apart : s.2.Apart s.1 T

/-- A part of the handling of a datagram leaves the blocks of others alone. -/
structure Frugal (s s' : State) : Prop where
  nexttok : s.1.nexttok ≤ s'.1.nexttok
  frees : s.1.frees ⊆ s'.1.frees
  reserves : ∀ T, Reserves T s → Reserves T s'

theorem Aside.frugal {s s' : State} (h : Aside s s') : Frugal s s' where
  nexttok := h.nexttok
  frees := by rw [h.frees]; exact List.Subset.refl _
  reserves T hT := by
    refine ⟨hT.keeps.release (List.Sublist.refl _) h.nexttok fun tok htok => .inl (h.frees ▸ htok),
      fun tok htok => ?_⟩
    rw [Client.mem_toks, h.packetqueue, h.lastpacket] at htok
    have hold : ∀ {tok}, tok ∈ s.2.toks → tok < s'.1.nexttok ∧ tok ∉ T := fun htok =>
      ⟨Nat.lt_of_lt_of_le (hT.apart _ htok).1 h.nexttok, (hT.apart _ htok).2⟩
    rcases htok with hqueue | hlast | ⟨blk', hblk', rfl⟩
    · exact hold (Client.mem_toks.2 (.inl hqueue))
    · exact hold (Client.mem_toks.2 (.inr (.inl hlast)))
    · rcases h.blk blk' hblk' with ⟨blk, hblk, heq⟩ | ⟨hge, hlt⟩
      · exact hold (Client.mem_toks.2 (.inr (.inr ⟨blk, hblk, heq.symm⟩)))
      · exact ⟨hlt, fun hmem => Nat.not_lt.2 hge (hT.keeps.allocated _ hmem)⟩

theorem releaseLastpacket_frugal (m : Machine) (c : Client) :
    Frugal (m, c) (releaseLastpacket m c) := by
  have hnone : Frugal (m, c) (m, { c with waiting := 0 }) :=
    ⟨Nat.le_refl _, List.Subset.refl _, fun T hT => ⟨hT.keeps, hT.apart⟩⟩
  rw [releaseLastpacket]
  split
  next last hlast =>
    split
    · have hfrees : (m.free last.p).frees = m.frees ++ [last.p.tok] := m.frees_emit _
      have hmem : last.p.tok ∈ c.toks := Client.mem_toks.2 (.inr (.inl ⟨last, hlast, rfl⟩))
      refine ⟨Nat.le_refl _, ?_, fun T hT => ⟨?_, fun tok htok => hT.apart tok ?_⟩⟩
      · rw [hfrees]
        exact List.subset_append_left _ _
      · refine hT.keeps.release (List.Sublist.refl _) (Nat.le_refl _) fun tok htok => ?_
        rw [hfrees, List.mem_append, List.mem_singleton] at htok
        exact htok.imp_right fun heq => by rw [heq]; exact hT.apart _ hmem
      · rw [Client.mem_toks] at htok ⊢
        refine htok.imp_right (Or.imp_left ?_)
        rintro ⟨last', hlast', rfl⟩
        cases hlast'
        exact ⟨last, hlast, rfl⟩
    · exact hnone
  next => exact hnone

theorem queuePacket_frugal (sys : Sys) (m : Machine) (c : Client) (bytes : Bytes) (len : ℕ) :
    Frugal (m, c) (queuePacket sys (m.nmalloc bytes).1 c (m.nmalloc bytes).2 len 1) := by
  -- The packet, and the copy that is the last packet, are new.
  have hn : (queuePacket sys (m.nmalloc bytes).1 c (m.nmalloc bytes).2 len 1).1.nexttok =
      m.nexttok + 2 := rfl
  refine ⟨by rw [hn]; exact Nat.le_add_right _ _, List.Subset.refl _, fun T hT => ⟨?_, ?_⟩⟩
  · exact hT.keeps.release (List.Sublist.refl _) (by rw [hn]; exact Nat.le_add_right _ _)
      fun tok htok => .inl htok
  · intro tok htok
    have hnew : m.nexttok ≤ tok → tok ∉ T := fun hge hmem =>
      Nat.not_lt.2 hge (hT.keeps.allocated tok hmem)
    rw [hn]
    rw [Client.mem_toks] at htok
    rcases htok with ⟨pq, hpq, rfl⟩ | ⟨last, hlast, rfl⟩ | ⟨blk, hblk, rfl⟩
    · rcases List.mem_append.1 hpq with hpq | hpq
      · obtain ⟨hlt, hnot⟩ := hT.apart _ (Client.mem_toks.2 (.inl ⟨pq, hpq, rfl⟩))
        exact ⟨Nat.lt_of_lt_of_le hlt (Nat.le_add_right _ _), hnot⟩
      · cases List.mem_singleton.1 hpq
        exact ⟨Nat.lt_add_of_pos_right (by decide), hnew (Nat.le_refl _)⟩
    · cases hlast
      exact ⟨Nat.lt_succ_self _, hnew (Nat.le_succ _)⟩
    · obtain ⟨hlt, hnot⟩ := hT.apart _ (Client.mem_toks.2 (.inr (.inr ⟨blk, hblk, rfl⟩)))
      exact ⟨Nat.lt_of_lt_of_le hlt (Nat.le_add_right _ _), hnot⟩

/-- So does the handling of a datagram. -/
theorem Upkeep.frugal {s s' : State} (h : Upkeep s s') : Frugal s s' := by
  induction h with
  | aside h => exact h.frugal
  | release m c => exact releaseLastpacket_frugal m c
  | queue sys m c bytes len => exact queuePacket_frugal sys m c bytes len
  | trans h h' ih ih' =>
    exact ⟨Nat.le_trans ih.nexttok ih'.nexttok, List.Subset.trans ih.frees ih'.frees,
      fun T hT => ih'.reserves T (ih.reserves T hT)⟩

/-! ## Sending a queue -/

theorem Machine.frees_emits (m : Machine) (es : List Effect) :
    (m.emits es).frees = m.frees ++ es.filterMap Effect.freed :=
  List.filterMap_append

namespace Client

variable {c : Client} {tok : ℕ}

/-- Sending packets of the queue releases some of them. -/
theorem mem_toks_of_sending {queue : List Packetqueue} (hqueue : queue ⊆ c.packetqueue)
    (h : tok ∈ (queue.flatMap c.sending).filterMap Effect.freed) : tok ∈ c.toks := by
  obtain ⟨e, he, hfreed⟩ := List.mem_filterMap.1 h
  obtain ⟨pq, hpq, he⟩ := List.mem_flatMap.1 he
  refine mem_toks.2 (.inl ⟨pq, hqueue hpq, ?_⟩)
  rw [sending] at he
  split at he
  · simp only [List.cons_append, List.nil_append, List.mem_cons, List.not_mem_nil, or_false] at he
    rcases he with rfl | rfl | rfl
    · cases hfreed
    · cases hfreed
    · exact Option.some.inj hfreed
  · simp only [List.append_nil, List.mem_cons, List.not_mem_nil, or_false] at he
    rcases he with rfl | rfl <;> cases hfreed

/-- The buffers of a client are its own. -/
theorem mem_toks_of_buffers {b : Buffer} (h : b ∈ c.buffers) : b.tok ∈ c.toks := by
  rw [buffers, List.mem_append, List.mem_append] at h
  rcases h with (h | h) | h
  · obtain ⟨pq, hpq, rfl⟩ := List.mem_map.1 h
    exact mem_toks.2 (.inl ⟨pq, (List.mem_filter.1 hpq).1, rfl⟩)
  · obtain ⟨pq, hpq, rfl⟩ := List.mem_map.1 h
    exact mem_toks.2 (.inr (.inl ⟨pq, Option.mem_toList.1 (List.mem_filter.1 hpq).1, rfl⟩))
  · exact mem_toks.2 (.inr (.inr ⟨b, Option.mem_toList.1 h, rfl⟩))

/-- A client whose queue was sent owns no more than before. -/
theorem flushed_toks (sys : Sys) (c : Client) : (c.flushed sys).toks ⊆ c.toks := fun tok htok => by
  rw [mem_toks] at htok ⊢
  rcases htok with ⟨pq, hpq, -⟩ | h
  · exact absurd hpq List.not_mem_nil
  · exact .inr h

end Client

namespace Server

variable {sys : Sys} {srv : Server} {c : Client} {tok : ℕ}

theorem closeFile_frees (m : Machine) (c : Client) : (closeFile m c).frees = m.frees := by
  rw [closeFile]
  cases c.f with
  | none => rfl
  | some f => exact (m.frees_emit (.fclose f.id)).trans (List.append_nil _)

theorem closeFile_nexttok (m : Machine) (c : Client) : (closeFile m c).nexttok = m.nexttok := by
  rw [closeFile]
  cases c.f <;> rfl

theorem afterSending_nexttok (srv : Server) (c : Client) :
    (srv.afterSending sys c).machine.nexttok = srv.machine.nexttok := by
  rw [afterSending]
  split
  · rw [removeClient_machine]
    exact closeFile_nexttok _ _
  · rfl

/-- Sending the queue of a client releases what was released before, blocks of the client,
    and those of its socket if it is removed. -/
theorem afterSending_frees (h : tok ∈ (srv.afterSending sys c).machine.frees) :
    tok ∈ srv.machine.frees ∨ tok ∈ c.toks ∨ c.destroy = true ∧ tok ∈ c.s.toks := by
  have hcleared : tok ∈ (srv.cleared c).frees → tok ∈ srv.machine.frees ∨ tok ∈ c.toks := by
    intro htok
    have hfrees : (srv.cleared c).frees = _ :=
      srv.machine.frees_emits (c.packetqueue.flatMap c.sending)
    rw [hfrees] at htok
    exact (List.mem_append.1 htok).imp_right (Client.mem_toks_of_sending (List.Subset.refl _))
  rw [afterSending] at h
  split at h
  · rw [removeClient_machine, Machine.frees_emits] at h
    rcases List.mem_append.1 h with h | h
    · have hclose : tok ∈ (srv.cleared c).frees := closeFile_frees _ (c.flushed sys) ▸ h
      exact (hcleared hclose).imp_right .inl
    · obtain ⟨e, he, hfreed⟩ := List.mem_filterMap.1 h
      simp only [List.mem_cons] at he
      -- The text and the buffer of the socket, and what the client had left.
      rcases he with rfl | rfl | he
      · exact .inr (.inr ⟨‹_›, List.mem_cons.2 (.inl (Option.some.inj hfreed).symm)⟩)
      · refine .inr (.inr ⟨‹_›, List.mem_cons_of_mem _ ?_⟩)
        exact List.mem_singleton.2 (Option.some.inj hfreed).symm
      · obtain ⟨b, hb, rfl⟩ := List.mem_map.1 he
        cases hfreed
        exact .inr (.inl (c.flushed_toks sys (Client.mem_toks_of_buffers hb)))
  · exact (hcleared h).imp_right .inl

theorem frees_subset_afterSending (srv : Server) (c : Client) :
    srv.machine.frees ⊆ (srv.afterSending sys c).machine.frees := by
  have hcleared : srv.machine.frees ⊆ (srv.cleared c).frees := by
    have hfrees : (srv.cleared c).frees = _ :=
      srv.machine.frees_emits (c.packetqueue.flatMap c.sending)
    rw [hfrees]
    exact List.subset_append_left _ _
  rw [afterSending]
  split
  · rw [removeClient_machine, Machine.frees_emits]
    refine List.Subset.trans ?_ (List.subset_append_left _ _)
    exact (closeFile_frees (srv.cleared c) (c.flushed sys)).symm ▸ hcleared
  · exact hcleared

/-- A packet that cannot be sent is not released. -/
theorem afterFailing_frees {idx : ℕ} {n : Int}
    (h : tok ∈ (srv.afterFailing c idx n).machine.frees) :
    tok ∈ srv.machine.frees ∨ tok ∈ c.toks := by
  have hfrees : (srv.afterFailing c idx n).machine.frees = _ := srv.machine.frees_emits _
  rw [hfrees, List.filterMap_append] at h
  refine (List.mem_append.1 h).imp_right fun h => ?_
  rcases List.mem_append.1 h with h | h
  · exact Client.mem_toks_of_sending (List.take_subset _ _) h
  · cases h

theorem frees_subset_afterFailing (srv : Server) (c : Client) (idx : ℕ) (n : Int) :
    srv.machine.frees ⊆ (srv.afterFailing c idx n).machine.frees := by
  have hfrees : (srv.afterFailing c idx n).machine.frees = _ := srv.machine.frees_emits _
  rw [hfrees]
  exact List.subset_append_left _ _

end Server

end Nbstftp
