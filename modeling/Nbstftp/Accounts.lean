import Nbstftp.Lib.Ledger
import Nbstftp.Ownership

/-!
# The books of the packets

Of each packet that is built, two blocks are allocated: the packet, and the copy kept
of it. Each is to be referred to by a client until it is released, and to be released
once. But nobody releases the last packet that is replaced by the next one, nor one
that is queued again when the queue is sent; and who is removed while the last packet
is queued again releases it twice. So the books are balanced after a call
(`Accounts`) if and only if it is a tidy one (`CallStep.Tidy`), in which none of this
happens (`accounts_iff`).
-/

namespace Nbstftp

/-- A call allocates a block for a packet of the client at an address in memory. -/
structure CallStep.Issues (t : CallStep) (ptr tok : ℕ) : Prop where
  queues : ∃ sys bytes len, t.input = .client ptr (.queue sys bytes len)
  holds : t.pre.Holds ptr
  allocated : tok = t.pre.machine.nexttok ∨ tok = t.pre.machine.nexttok + 1

/-- The blocks allocated for packets of the client at an address. -/
def issuedTo (past : List CallStep) (ptr : ℕ) : Set ℕ :=
  {tok | ∃ t ∈ past, CallStep.Issues t ptr tok}

def issued (past : List CallStep) : Set ℕ := {tok | ∃ ptr, tok ∈ issuedTo past ptr}

/-- The blocks that clients refer to as packets. -/
def Server.referred (srv : Server) : Set ℕ :=
  {tok | ∃ c ∈ srv.clientpool.clients, tok ∈ c.packetToks}

/-- After a call, each block allocated for a packet is referred to or was released, and
    released only once; those of a client that left were. -/
structure Accounts (past : List CallStep) (t : CallStep) : Prop where
  balanced : ∀ srv, t.post = .ok srv →
    Lib.Balanced (issued (past ++ [t])) srv.machine.frees srv.referred
  settled : ∀ srv, t.post = .ok srv → ∀ ptr, t.pre.Holds ptr → ¬srv.Holds ptr →
    ∀ tok ∈ issuedTo (past ++ [t]) ptr, tok ∈ srv.machine.frees

/-- No packet is among those of a client twice. -/
def Client.Distinct (c : Client) : Prop := (c.packetToks.filter (· ≠ 0)).Nodup

/-- A call for a client loses none of its packets, and releases none twice. -/
def Task.Tidy (c : Client) : Task → Prop
  -- The last packet is replaced: it has to be queued again.
  | .queue .. => ∀ last ∈ c.lastpacket, ∃ pq ∈ c.packetqueue, pq.p.tok = last.p.tok
  -- Packets that were queued again are dropped: they have to be the last one.
  | .send .. => ∀ pq ∈ c.packetqueue, pq.allocated = 2 → pq.p.tok ≠ 0 →
      ∃ last ∈ c.lastpacket, last.p.tok = pq.p.tok
  | .check sys waiting => c.Due sys waiting → 3 ≤ waiting → c.Distinct
  | .remove => c.Distinct
  | .release | .rest .. => True

def CallStep.Tidy (t : CallStep) : Prop :=
  ∀ ptr task, t.input = .client ptr task → ∀ c ∈ t.pre.clientpool.clients, c.ptr = ptr → task.Tidy c

/-! ## What is issued -/

section

variable {past : List CallStep} {t : CallStep} {ptr tok : ℕ}

theorem mem_issuedTo_concat : tok ∈ issuedTo (past ++ [t]) ptr ↔
    tok ∈ issuedTo past ptr ∨ CallStep.Issues t ptr tok := by
  simp only [issuedTo, Set.mem_ofPred_eq, List.mem_append, List.mem_singleton, or_and_right,
    exists_or, exists_eq_left]

theorem issued_concat :
    issued (past ++ [t]) = issued past ∪ {tok | ∃ ptr, CallStep.Issues t ptr tok} := by
  ext tok
  simp only [issued, Set.mem_ofPred_eq, Set.mem_union, mem_issuedTo_concat, exists_or]

theorem issued_concat_of_not (h : ∀ ptr tok, ¬CallStep.Issues t ptr tok) :
    issued (past ++ [t]) = issued past := by
  rw [issued_concat, Set.union_eq_left]
  rintro tok ⟨ptr, hissues⟩
  exact absurd hissues (h ptr tok)

end

/-- The blocks that were allocated for packets are those known as such. -/
def Known (past : List CallStep) (origin : ℕ → Option Origin) : Prop :=
  ∀ ptr tok, tok ∈ issuedTo past ptr ↔ ∃ copy, origin tok = some ⟨ptr, copy⟩

section

variable {past : List CallStep} {origin : ℕ → Option Origin} {srv srv' : Server} {k : PoolCall}

theorem Known.mem_issued (h : Known past origin) {tok : ℕ} :
    tok ∈ issued past ↔ ∃ o, origin tok = some o := by
  constructor
  · rintro ⟨ptr, htok⟩
    obtain ⟨copy, ho⟩ := (h ptr tok).1 htok
    exact ⟨_, ho⟩
  · rintro ⟨⟨ptr, copy⟩, ho⟩
    exact ⟨ptr, (h ptr tok).2 ⟨copy, ho⟩⟩

/-- A packet that is queued is allocated with its copy. -/
theorem issues_queue_iff {c : Client} (hmem : c ∈ srv.clientpool.clients) {sys : Sys}
    {bytes : Bytes} {len : ℕ} {o : Except Empty Server} {ptr tok : ℕ} :
    CallStep.Issues ⟨srv, .client c.ptr (.queue sys bytes len), o⟩ ptr tok ↔
      c.ptr = ptr ∧ (tok = srv.machine.nexttok ∨ tok = srv.machine.nexttok + 1) := by
  constructor
  · rintro ⟨⟨_, _, _, hinput⟩, -, htok⟩
    cases hinput
    exact ⟨rfl, htok⟩
  · rintro ⟨rfl, htok⟩
    exact ⟨⟨sys, bytes, len, rfl⟩, Server.holds_of_mem hmem, htok⟩

/-- Both are known as such from then on. -/
theorem origin_queue_iff {c : Client} (howned : srv.OwnsPackets origin) {sys : Sys} {bytes : Bytes}
    {len ptr tok : ℕ} :
    (∃ copy, (Task.queue sys bytes len).origin srv.machine c origin tok = some ⟨ptr, copy⟩) ↔
      (∃ copy, origin tok = some ⟨ptr, copy⟩) ∨
        c.ptr = ptr ∧ (tok = srv.machine.nexttok ∨ tok = srv.machine.nexttok + 1) := by
  have hnone : ∀ {tok}, srv.machine.nexttok ≤ tok → ¬∃ copy, origin tok = some ⟨ptr, copy⟩ := by
    rintro tok hle ⟨copy, ho⟩
    cases (howned.new tok hle).symm.trans ho
  rw [Task.origin]
  by_cases hcopy : tok = srv.machine.nexttok + 1
  · rw [hcopy, Function.update_self, or_iff_right (hnone (Nat.le_succ _))]
    simp
  rw [Function.update_of_ne hcopy]
  by_cases hpacket : tok = srv.machine.nexttok
  · rw [hpacket, Function.update_self, or_iff_right (hnone (Nat.le_refl _))]
    simp
  · rw [Function.update_of_ne hpacket]
    exact (or_iff_left fun h => h.2.elim hpacket hcopy).symm

/-- They still are after a call. -/
theorem Known.call (h : Known past origin) (howned : srv.OwnsPackets origin)
    (o : Except Empty Server) : Known (past ++ [⟨srv, k, o⟩]) (k.origin srv origin) := by
  intro ptr tok
  rw [mem_issuedTo_concat, h ptr tok]
  have hquiet : (∀ sys bytes len, k ≠ .client ptr (.queue sys bytes len)) →
      ¬CallStep.Issues ⟨srv, k, o⟩ ptr tok := fun hk hissues => by
    obtain ⟨sys, bytes, len, hinput⟩ := hissues.queues
    exact hk sys bytes len hinput
  cases k with
  | accept sys fd addr => exact or_iff_left (hquiet fun _ _ _ => by simp)
  | client p task =>
    rw [PoolCall.origin]
    cases hc : srv.clientAt p with
    | none =>
      refine or_iff_left fun hissues => ?_
      obtain ⟨sys, bytes, len, hinput⟩ := hissues.queues
      cases hinput
      exact Server.clientAt_eq_none.1 hc hissues.holds
    | some c =>
      obtain ⟨hmem, rfl⟩ := Server.clientAt_eq_some.1 hc
      cases task with
      | release | rest | check | send | remove =>
        exact or_iff_left (hquiet fun _ _ _ => by simp)
      | queue sys bytes len => rw [issues_queue_iff hmem, origin_queue_iff howned]

end

/-! ## What a client settles -/

section

variable {past : List CallStep} {origin : ℕ → Option Origin} {srv : Server} {c : Client}

/-- What is no packet leaves with a client besides. -/
theorem Client.Owns.count_left {m : Machine} (h : c.Owns origin m) {tok : ℕ} {o : Origin}
    (ho : origin tok = some o) : c.left.count tok = c.packetToks.count tok := by
  have hother : ∀ {toks : List ℕ}, toks ⊆ c.otherToks → toks.count tok = 0 := fun htoks =>
    List.count_eq_zero.2 fun htok => by cases (h.others tok (htoks htok)).2.symm.trans ho
  rw [h.left_eq, List.count_append, List.count_append, hother (List.subset_append_right _ _),
    hother (List.subset_append_left _ _), Nat.zero_add, Nat.add_zero]

/-- Of the packets a client refers to, all but the null pointer were allocated as such. -/
theorem Known.mem_issued_of_mem (h : Known past origin) {m : Machine} (hc : c.Owns origin m)
    {tok : ℕ} (htok : tok ∈ c.packetToks) (hzero : tok ≠ 0) : tok ∈ issued past := by
  obtain ⟨⟨copy, ho⟩, -⟩ := hc.of_mem_packetToks htok hzero
  exact h.mem_issued.2 ⟨_, ho⟩

/-- A client that leaves settles its packets if it refers to none twice. -/
theorem settles_left (h : Known past origin) {m : Machine} (hc : c.Owns origin m)
    (hzero : origin 0 = none) :
    Lib.Settles (issued past) {tok | tok ∈ c.packetToks} c.left ∅ ↔ c.Distinct := by
  have hne : ∀ {tok o}, origin tok = some o → tok ≠ 0 := fun ho htok => by
    rw [htok, hzero] at ho
    cases ho
  rw [Lib.settles_empty, Client.Distinct, List.nodup_iff_count_le_one]
  constructor
  · intro hsettles tok
    by_cases htok : tok ∈ c.packetToks ∧ tok ≠ 0
    · have hissued := h.mem_issued_of_mem hc htok.1 htok.2
      obtain ⟨o, ho⟩ := h.mem_issued.1 hissued
      rw [List.count_filter (by simpa using htok.2), ← hc.count_left ho]
      exact Nat.le_of_eq (hsettles tok hissued htok.1)
    · rw [List.count_eq_zero.2 fun hmem => htok (by simpa using hmem)]
      exact Nat.zero_le _
  · intro hdistinct tok hissued htok
    obtain ⟨o, ho⟩ := h.mem_issued.1 hissued
    have honce := hdistinct tok
    rw [List.count_filter (by simpa using hne ho)] at honce
    rw [hc.count_left ho]
    exact Nat.le_antisymm honce (List.count_pos_iff.2 htok)

/-- Queueing a packet settles the last one if that is queued, too. -/
theorem settles_queue (h : Known past origin) (howned : srv.OwnsPackets origin)
    (hc : c.Owns origin srv.machine) (sys : Sys) (bytes : Bytes) (len : ℕ) :
    Lib.Settles (issued past) {tok | tok ∈ c.packetToks} []
        {tok | ∃ d ∈ (Task.queue sys bytes len).client srv.machine c, tok ∈ d.packetToks} ↔
      (Task.queue sys bytes len).Tidy c := by
  have htoks : (queuePacket sys (srv.machine.nmalloc bytes).1 c (srv.machine.nmalloc bytes).2
      len 1).2.packetToks = c.packetqueue.map (·.p.tok) ++ [srv.machine.nexttok] ++
        [srv.machine.nexttok + 1] := congrArg (· ++ _) List.map_append
  rw [Lib.settles_nil]
  constructor
  · -- The last packet is replaced, so that only the queue can refer to it still.
    intro hsettles last hlast
    obtain ⟨-, ho, -⟩ := hc.last last hlast
    have hlt := howned.lt_of_origin ho
    obtain ⟨d, hd, hkept⟩ := hsettles last.p.tok (h.mem_issued.2 ⟨_, ho⟩)
      (List.mem_append_right _ (List.mem_map_of_mem (Option.mem_toList.2 hlast)))
    cases hd
    rw [htoks, List.mem_append, List.mem_append, List.mem_singleton, List.mem_singleton] at hkept
    rcases hkept with (hkept | heq) | heq
    · exact List.mem_map.1 hkept
    · exact absurd heq (Nat.ne_of_lt hlt)
    · exact absurd heq (Nat.ne_of_lt (Nat.lt_succ_of_lt hlt))
  · intro htidy tok _ htok
    refine ⟨_, rfl, ?_⟩
    rw [htoks]
    refine List.mem_append_left _ (List.mem_append_left _ ?_)
    rcases List.mem_append.1 htok with htok | htok
    · exact htok
    · obtain ⟨last, hlast, rfl⟩ := List.mem_map.1 htok
      exact List.mem_map.2 (htidy last (Option.mem_toList.1 hlast))

theorem Client.mem_flushed_packetToks {sys : Sys} {tok : ℕ} :
    tok ∈ (c.flushed sys).packetToks ↔ ∃ last ∈ c.lastpacket, last.p.tok = tok :=
  List.mem_map.trans (by simp only [Option.mem_toList]; rfl)

/-- What was queued afresh is no copy, as the last packet is. -/
theorem Client.Owns.notMem_flushed {m : Machine} (h : c.Owns origin m) {sys : Sys} {tok : ℕ}
    (htok : tok ∈ c.sentToks) : tok ∉ (c.flushed sys).packetToks := fun hlast => by
  obtain ⟨last, hmem, rfl⟩ := mem_flushed_packetToks.1 hlast
  cases (h.last last hmem).2.1.symm.trans (h.origin_of_mem_sentToks htok).1

/-- When the queue is sent, fresh packets are released, and the last packet is referred to
    still, or released with its client. -/
theorem Client.Owns.settled_send (h : c.Owns origin srv.machine) {sys : Sys}
    (hsend : ∀ ptr idx, (sys.sendto ptr idx).isSome) {tok : ℕ} {o : Origin}
    (ho : origin tok = some o) :
    ((tok ∈ (Task.send sys hsend).releases c ∨
      ∃ d ∈ (Task.send sys hsend).client srv.machine c, tok ∈ d.packetToks) ↔
        tok ∈ c.sentToks ∨ tok ∈ (c.flushed sys).packetToks) ∧
      ((Task.send sys hsend).releases c).count tok ≤ 1 := by
  have honce := List.nodup_iff_count_le_one.1 h.nodup tok
  cases hdestroy : c.destroy with
  | false =>
    rw [Task.releases, Task.client, keep, hdestroy, if_neg Bool.false_ne_true,
      if_neg Bool.false_ne_true, List.append_nil]
    refine ⟨or_congr_right ⟨?_, fun hl => ⟨_, rfl, hl⟩⟩, honce⟩
    rintro ⟨d, hd, hl⟩
    cases hd
    exact hl
  | true =>
    have hleft := (h.flushed sys).count_left ho
    rw [Task.releases, Task.client, keep, hdestroy, if_pos rfl, if_pos rfl, List.mem_append,
      List.count_append, hleft, ← List.count_pos_iff (l := (c.flushed sys).left), hleft,
      List.count_pos_iff]
    refine ⟨or_iff_left ?_, ?_⟩
    · rintro ⟨d, hd, -⟩
      cases hd
    by_cases hsent : tok ∈ c.sentToks
    · rw [List.count_eq_zero.2 (h.notMem_flushed hsent), Nat.add_zero]
      exact honce
    · rw [List.count_eq_zero.2 hsent, Nat.zero_add]
      refine Nat.le_trans List.count_le_length ?_
      cases hl : c.lastpacket <;> simp [packetToks, Client.flushed, hl]

/-- Sending the queue settles what was queued again if that is the last packet. -/
theorem settles_send (h : Known past origin) (hc : c.Owns origin srv.machine)
    (hzero : origin 0 = none) {sys : Sys} (hsend : ∀ ptr idx, (sys.sendto ptr idx).isSome) :
    Lib.Settles (issued past) {tok | tok ∈ c.packetToks} ((Task.send sys hsend).releases c)
        {tok | ∃ d ∈ (Task.send sys hsend).client srv.machine c, tok ∈ d.packetToks} ↔
      (Task.send sys hsend).Tidy c := by
  constructor
  · intro hsettles pq hpq ha hne
    obtain ⟨ho, -⟩ := (hc.again pq hpq ha).resolve_left hne
    have hkept := (hsettles _ (h.mem_issued.2 ⟨_, ho⟩)
      (List.mem_append_left _ (List.mem_map_of_mem hpq))).1
    rcases (hc.settled_send hsend ho).1.1 hkept with hsent | hlast
    · cases ho.symm.trans (hc.origin_of_mem_sentToks hsent).1
    · exact Client.mem_flushed_packetToks.1 hlast
  · intro htidy tok hissued htok
    obtain ⟨o, ho⟩ := h.mem_issued.1 hissued
    obtain ⟨hsettled, honce⟩ := hc.settled_send hsend ho
    refine ⟨hsettled.2 ?_, honce⟩
    rcases List.mem_append.1 htok with htok | htok
    · obtain ⟨pq, hpq, rfl⟩ := List.mem_map.1 htok
      by_cases ha : pq.allocated = 2
      · refine .inr (Client.mem_flushed_packetToks.2 (htidy pq hpq ha fun hpzero => ?_))
        cases hzero.symm.trans (hpzero ▸ ho)
      · exact .inl (hc.mem_sentToks.2 ⟨pq, hpq, ha, rfl⟩)
    · exact .inr htok

/-- A call for a client settles its packets if it is a tidy one. -/
theorem settles_iff (h : Known past origin) (howned : srv.OwnsPackets origin)
    (hmem : c ∈ srv.clientpool.clients) (task : Task) :
    Lib.Settles (issued past) {tok | tok ∈ c.packetToks} (task.releases c)
        {tok | ∃ d ∈ task.client srv.machine c, tok ∈ d.packetToks} ↔ task.Tidy c := by
  have hc := howned.owns c hmem
  have hgone : {tok | ∃ d ∈ (none : Option Client), tok ∈ d.packetToks} = ∅ := by
    ext tok
    simp
  cases task with
  | queue sys bytes len => exact settles_queue h howned hc sys bytes len
  | release =>
    rw [Task.releases, hc.releaseEffects_eq, Task.client, hc.releaseLastpacket_eq]
    exact iff_true_intro (Lib.settles_of_subset fun tok htok => ⟨_, rfl, htok⟩)
  | rest f hf =>
    have haside := (hf (srv.machine, c)).1
    refine iff_true_intro (Lib.settles_of_subset fun tok htok => ⟨_, rfl, ?_⟩)
    rw [Client.packetToks, haside.packetqueue, haside.lastpacket]
    exact htok
  | check sys waiting =>
    rw [Task.releases, Task.client, Task.Tidy]
    by_cases hdue : c.Due sys waiting
    · by_cases hleaves : 3 ≤ waiting
      · rw [if_pos ⟨hdue, hleaves⟩, if_pos hdue, if_pos hleaves, hgone]
        exact (settles_left h hc howned.zero).trans ⟨fun h _ _ => h, fun h => h hdue hleaves⟩
      · rw [if_neg fun h => hleaves h.2, if_pos hdue, if_neg hleaves]
        refine iff_of_true (Lib.settles_of_subset fun tok htok => ⟨_, rfl, ?_⟩)
          fun _ h => absurd h hleaves
        rcases List.mem_append.1 htok with htok | htok
        · refine List.mem_append_left _ ?_
          exact List.map_append.symm ▸ List.mem_append_left _ htok
        · exact List.mem_append_right _ htok
    · rw [if_neg fun h => hdue h.1, if_neg hdue]
      exact iff_of_true (Lib.settles_of_subset fun tok htok => ⟨_, rfl, htok⟩)
        fun h => absurd h hdue
  | send sys hsend => exact settles_send h hc howned.zero hsend
  | remove =>
    rw [Task.client, hgone]
    exact settles_left h hc howned.zero

end

/-! ## Runs of calls -/

/-- What is held is held by one client, or by another. -/
theorem Server.referred_eq {srv : Server} {pre rest : List Client} {o : Option Client}
    (hpool : srv.clientpool.clients = pre ++ (o.toList ++ rest)) :
    srv.referred =
      {tok | ∃ d ∈ o, tok ∈ d.packetToks} ∪ {tok | ∃ d ∈ pre ++ rest, tok ∈ d.packetToks} := by
  ext tok
  simp only [referred, hpool, Set.mem_ofPred_eq, Set.mem_union, List.mem_append, Option.mem_toList]
  constructor
  · rintro ⟨d, hd | hd | hd, htok⟩
    · exact .inr ⟨d, .inl hd, htok⟩
    · exact .inl ⟨d, hd, htok⟩
    · exact .inr ⟨d, .inr hd, htok⟩
  · rintro (⟨d, hd, htok⟩ | ⟨d, hd | hd, htok⟩)
    · exact ⟨d, .inr (.inl hd), htok⟩
    · exact ⟨d, .inl hd, htok⟩
    · exact ⟨d, .inr (.inr hd), htok⟩

section

variable {past : List CallStep} {origin : ℕ → Option Origin} {srv : Server} {c : Client}

/-- The books are balanced after a call for a client if it is a tidy one. -/
theorem balanced_task_iff (h : Known past origin) (howned : srv.OwnsPackets origin)
    (hbalanced : Lib.Balanced (issued past) srv.machine.frees srv.referred)
    (hmem : c ∈ srv.clientpool.clients) (task : Task) (o : Except Empty Server) :
    Lib.Balanced (issued (past ++ [⟨srv, .client c.ptr task, o⟩])) (task.run srv c).machine.frees
      (task.run srv c).referred ↔ task.Tidy c := by
  have hc := howned.owns c hmem
  obtain ⟨pre, rest, hpool⟩ := List.append_of_mem hmem
  have hmine : {tok | ∃ d ∈ some c, tok ∈ d.packetToks} = {tok | tok ∈ c.packetToks} := by
    ext tok
    simp
  rw [Server.referred_eq (o := some c) hpool, hmine] at hbalanced
  rw [issued_concat, Task.run_frees, Server.referred_eq (Task.run_clients hpool task),
    ← settles_iff h howned hmem task]
  have hne : ∀ {tok}, tok ∈ issued past → tok ≠ 0 := fun {tok} hissued hzero => by
    obtain ⟨o, ho⟩ := h.mem_issued.1 hissued
    cases howned.zero.symm.trans (hzero ▸ ho)
  refine hbalanced.change_iff ?_ ?_ ?_ ?_
  · -- What others hold is known as theirs.
    rintro tok hissued htok ⟨d, hd, htok'⟩
    have hdmem := ClientPool.mem_of_mem_others hpool hd
    obtain ⟨⟨copy, ho⟩, -⟩ := hc.of_mem_packetToks htok (hne hissued)
    obtain ⟨⟨copy', ho'⟩, -⟩ := (howned.owns d hdmem).of_mem_packetToks htok' (hne hissued)
    exact ClientPool.ptr_ne hpool hd (congrArg Origin.ptr (Option.some.inj (ho'.symm.trans ho)))
  · exact fun tok hissued htok => (hc.of_mem_packetToks htok (hne hissued)).2
  · -- What the call releases is its client's, or was never issued.
    intro tok hissued htok
    refine (hc.mem_releases htok).resolve_right fun hother => ?_
    obtain ⟨o, ho⟩ := h.mem_issued.1 hissued
    cases (hc.others tok hother).2.symm.trans ho
  · rintro tok ⟨ptr, ⟨sys, bytes, len, hinput⟩, -, htok⟩
    cases hinput
    have hunused : tok ∉ srv.machine.frees := fun hfree => by
      have hlt := howned.frees tok hfree
      rcases htok with htok | htok
      · exact Nat.ne_of_lt hlt htok
      · exact Nat.ne_of_lt (Nat.lt_succ_of_lt hlt) htok
    refine ⟨⟨_, rfl, ?_⟩, by rwa [Task.releases, List.append_nil]⟩
    rcases htok with htok | htok
    · exact List.mem_append_left _ (List.mem_map.2 ⟨⟨(srv.machine.nmalloc bytes).2, len, 1⟩,
        List.mem_append_right _ (List.mem_singleton_self _), htok.symm⟩)
    · exact List.mem_append_right _ (List.mem_singleton.2 htok)

/-- They are when a client is found or added. -/
theorem balanced_accept (h : Known past origin) (howned : srv.OwnsPackets origin)
    (hbalanced : Lib.Balanced (issued past) srv.machine.frees srv.referred) (sys : Sys) (fd : Int)
    (addr : SockAddr) (o : Except Empty Server) :
    Lib.Balanced (issued (past ++ [⟨srv, .accept sys fd addr, o⟩]))
      (srv.findOrAllocateClient sys fd addr).1.machine.frees
      (srv.findOrAllocateClient sys fd addr).1.referred := by
  rw [issued_concat_of_not (by rintro ptr tok ⟨⟨_, _, _, hinput⟩, -, -⟩; cases hinput)]
  rcases srv.accepts sys fd addr with heq | haccepts
  · rwa [heq]
  generalize (srv.findOrAllocateClient sys fd addr).1 = srv' at haccepts ⊢
  have hreferred : srv'.referred = srv.referred := by
    ext tok
    rcases haccepts.clients with heq | heq <;>
      simp [Server.referred, heq, Client.packetToks, Client.new, or_and_right, exists_or]
  rw [hreferred]
  rcases haccepts.frees with heq | heq
  · rwa [heq]
  · -- What is released is the socket that was just allocated.
    have hsocket : ∀ tok ∈ issued past, tok ∉ (srv.newSocket sys fd addr).toks := by
      intro tok hissued htok
      obtain ⟨o, ho⟩ := h.mem_issued.1 hissued
      have hlt := howned.lt_of_origin ho
      simp only [Socket.toks, Server.newSocket, List.mem_cons, List.not_mem_nil, or_false] at htok
      omega
    rw [heq]
    refine ⟨fun tok htok => (hbalanced.kept tok htok).imp_left (List.mem_append_left _),
      fun tok htok => ?_⟩
    rw [List.count_append, List.count_eq_zero.2 (hsocket tok htok)]
    exact hbalanced.once tok htok

end

/-- The books are kept, and balanced. -/
structure Books (past : List CallStep) (srv : Server) : Prop where
  known : ∃ origin, srv.OwnsPackets origin ∧ Known past origin
  balanced : Lib.Balanced (issued past) srv.machine.frees srv.referred

/-- If they are balanced, nothing is left of a client that left. -/
theorem settled_of_balanced {past : List CallStep} {origin : ℕ → Option Origin} {srv : Server}
    (hbalanced : Lib.Balanced (issued past) srv.machine.frees srv.referred) (h : Known past origin)
    (howned : srv.OwnsPackets origin) {ptr : ℕ} (hgone : ¬srv.Holds ptr) :
    ∀ tok ∈ issuedTo past ptr, tok ∈ srv.machine.frees := by
  intro tok htok
  refine (hbalanced.kept tok ⟨ptr, htok⟩).resolve_right fun ⟨d, hd, hheld⟩ => ?_
  obtain ⟨copy, ho⟩ := (h ptr tok).1 htok
  have hne : tok ≠ 0 := fun hzero => by cases howned.zero.symm.trans (hzero ▸ ho)
  obtain ⟨⟨copy', ho'⟩, -⟩ := (howned.owns d hd).of_mem_packetToks hheld hne
  have hptr : d.ptr = ptr := congrArg Origin.ptr (Option.some.inj (ho'.symm.trans ho))
  exact hgone (hptr ▸ Server.holds_of_mem hd)

/-- A call leaves the books balanced if and only if it is a tidy one. -/
theorem Books.call {past : List CallStep} {srv srv' : Server} {k : PoolCall} (h : Books past srv)
    (hk : srv.call k = .ok srv') :
    (Lib.Balanced (issued (past ++ [⟨srv, k, .ok srv'⟩])) srv'.machine.frees srv'.referred ↔
      CallStep.Tidy ⟨srv, k, .ok srv'⟩) ∧
    ∃ origin, srv'.OwnsPackets origin ∧ Known (past ++ [⟨srv, k, .ok srv'⟩]) origin := by
  obtain ⟨⟨origin, howned, hknown⟩, hbalanced⟩ := h
  refine ⟨?_, _, howned.call hk, hknown.call howned _⟩
  cases k with
  | accept sys fd addr =>
    cases hk
    refine iff_of_true (balanced_accept hknown howned hbalanced sys fd addr _) fun _ _ hinput => ?_
    cases hinput
  | client ptr task =>
    cases hk
    cases hc : srv.clientAt ptr with
    | none =>
      have hnone := Server.clientAt_eq_none.1 hc
      rw [issued_concat_of_not]
      · refine iff_of_true hbalanced ?_
        rintro _ _ hinput c hmem rfl
        cases hinput
        exact absurd (Server.holds_of_mem hmem) hnone
      · rintro p tok ⟨⟨_, _, _, hinput⟩, hholds, -⟩
        cases hinput
        exact hnone hholds
    | some c =>
      obtain ⟨hmem, rfl⟩ := Server.clientAt_eq_some.1 hc
      refine (balanced_task_iff hknown howned hbalanced hmem task _).trans ⟨?_, fun htidy => ?_⟩
      · rintro htidy _ _ hinput d hd hptr
        cases hinput
        rwa [Server.eq_of_ptr hd hmem hptr]
      · exact htidy c.ptr task rfl c hmem rfl

/-- In every run of calls, every block allocated for a packet is referred to until it is
    released, and released once, if and only if every call is tidy. -/
theorem accounts_iff (files : Bytes → Bytes) (interest : Int → Option UInt32)
    (socketpool : List Socket) (calls : List PoolCall) :
    Lib.Always Accounts (Lib.trace Server.call (.boot (.boot files interest) socketpool) calls) ↔
      Lib.Always (fun _ => CallStep.Tidy)
        (Lib.trace Server.call (.boot (.boot files interest) socketpool) calls) := by
  refine Lib.always_iff_always Books ⟨⟨_, .boot files interest socketpool, ?_⟩, ?_⟩ ?_ ?_
  · exact fun ptr tok => iff_of_false (fun ⟨t, ht, _⟩ => List.not_mem_nil ht) fun ⟨_, ho⟩ => by
      cases ho
  · exact ⟨fun tok ⟨_, t, ht, _⟩ => absurd ht List.not_mem_nil,
      fun tok ⟨_, t, ht, _⟩ => absurd ht List.not_mem_nil⟩
  · rintro past ⟨srv, k, post⟩ hbooks - (hpost : post = srv.call k)
    cases hk : srv.call k with
    | error e => exact e.elim
    | ok srv' =>
      rw [hk] at hpost
      rw [hpost]
      obtain ⟨hiff, origin, howned, hknown⟩ := hbooks.call hk
      rw [← hiff]
      refine ⟨fun h => h.balanced srv' rfl, fun h => ⟨?_, ?_⟩⟩
      · rintro _ ⟨⟩
        exact h
      · rintro _ ⟨⟩ ptr - hgone
        exact settled_of_balanced h hknown howned hgone
  · rintro past ⟨srv, k, post⟩ srv' hbooks - (hpost : post = srv.call k) htidy hok
    cases hok
    obtain ⟨hiff, hknown⟩ := hbooks.call hpost.symm
    exact ⟨hknown, hiff.2 htidy⟩

namespace Sample

/-- A client is added, acknowledged, and acknowledged once more. -/
def acknowledgements : List PoolCall :=
  [.accept .ideal 3 (.inet 40000 1), .client 1 (.queue .ideal (ackBytes 0) headerSize),
    .client 1 (.send .ideal ideal_sends), .client 1 (.queue .ideal (ackBytes 1) headerSize)]

/-- The server then. -/
def acknowledged : Server := (Lib.run Server.call idle acknowledgements).toOption.getD idle

end Sample

/-- The copy of the first acknowledgement is lost when the second one is queued. -/
theorem not_accounts :
    ¬∀ (files : Bytes → Bytes) (interest : Int → Option UInt32) (socketpool : List Socket)
      (calls : List PoolCall),
      Lib.Always Accounts
        (Lib.trace Server.call (.boot (.boot files interest) socketpool) calls) := by
  intro h
  have haccounts := (h (fun _ => []) (fun _ => none) [] Sample.acknowledgements).getElem
    (i := 3) (by decide +kernel)
  have hissued : 4 ∈ issuedTo (Lib.trace Server.call Sample.idle Sample.acknowledgements) 1 :=
    ⟨_, List.mem_of_getElem? (i := 1) rfl, ⟨_, _, _, rfl⟩, List.mem_singleton.2 rfl, .inr rfl⟩
  rcases (haccounts.balanced Sample.acknowledged rfl).kept 4 ⟨1, hissued⟩ with
    hfree | ⟨c, hc, hheld⟩
  · revert hfree
    decide +kernel
  · revert c
    decide +kernel

end Nbstftp
