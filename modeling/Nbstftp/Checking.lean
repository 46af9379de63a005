import Nbstftp.Calls
import Nbstftp.Flush

/-!
# Checking the clients

A client that has not answered in time is to be sent its last packet again, or to be
removed. The pool is walked by an index while clients leave it, so that the client behind
one that is removed is passed over, timed out or not (`not_checks_each`); every client is
handled once if and only if no client that is removed is followed by one that is timed out
(`checks_each_iff`).
-/

namespace Nbstftp

namespace Client

variable (c : Client) (sys : Sys)

/-- A client that is timed out, and was sent its last packet often enough. -/
def Expired : Prop := c.Due sys c.waiting ∧ 3 ≤ c.waiting

instance : Decidable (c.Expired sys) := inferInstanceAs (Decidable (_ ∧ _))

/-- The entry of the queue for the last packet sent again. -/
def resend : Packetqueue := { c.lastpacket.getD .zero with allocated := 2 }

end Client

/-- What checking makes of a client, if it stays. -/
def checked (sys : Sys) (c : Client) : Option Client :=
  if c.Due sys c.waiting then
    if 3 ≤ c.waiting then none
    else some { c with
      waiting := c.waiting + 1
      packetqueue := c.packetqueue ++ [c.resend]
      nextresend := sys.time + 5
      s := { c.s with flags := SF_WRITABLE ||| SF_READABLE } }
  else some c

/-- What is to become of a client `c` that stays: one more resend is counted and queued if
    it is timed out, and nothing is changed if it is not. -/
def Handled (sys : Sys) (c d : Client) : Prop :=
  if c.Due sys c.waiting then
    d.view = c.view ∧ d.waiting = c.waiting + 1 ∧ d.packetqueue = c.packetqueue ++ [c.resend] ∧
      d.lastpacket = c.lastpacket
  else d = c

/-- Every client is handled once: those expired are removed, and the others stay, in order,
    and are handled. -/
def ChecksEach (sys : Sys) (srv srv' : Server) : Prop :=
  List.Forall₂ (Handled sys) (srv.clientpool.clients.filter (¬·.Expired sys))
    srv'.clientpool.clients

section

variable {sys : Sys} {srv : Server} {c : Client}

theorem checked_eq_none : checked sys c = none ↔ c.Expired sys := by
  rw [checked, Client.Expired]
  by_cases hdue : c.Due sys c.waiting
  · by_cases hgone : 3 ≤ c.waiting <;> simp [hdue, hgone]
  · simp [hdue]

/-- A client that stays is handled. -/
theorem handled_checked {d : Client} (h : checked sys c = some d) : Handled sys c d := by
  rw [checked] at h
  rw [Handled]
  by_cases hdue : c.Due sys c.waiting
  · rw [if_pos hdue] at h ⊢
    split at h
    · cases h
    · cases h
      exact ⟨rfl, rfl, rfl, rfl⟩
  · rw [if_neg hdue] at h ⊢
    exact (Option.some.inj h).symm

/-- Checking a client of a pool changes its place only. -/
theorem Server.checkClient_clients {pre rest : List Client}
    (h : srv.clientpool.clients = pre ++ c :: rest) :
    (srv.checkClient sys c).clientpool.clients = pre ++ ((checked sys c).toList ++ rest) := by
  rw [checkClient, checked]
  by_cases hdue : c.waiting ≠ 0 ∧ c.nextresend ≤ sys.time
  · rw [if_pos hdue, if_pos (show c.Due sys c.waiting from hdue)]
    dsimp only
    by_cases hgone : 3 ≤ c.waiting
    · rw [if_pos hgone, if_pos hgone]
      exact ClientPool.remove_eq (c := c) h
    · rw [if_neg hgone, if_neg hgone]
      exact ClientPool.update_eq h rfl
  · rw [if_neg hdue, if_neg (show ¬c.Due sys c.waiting from hdue)]
    exact h

/-- What checking leaves of a pool. -/
theorem Server.checkClients_clients (srv : Server) (sys : Sys) :
    (srv.checkClients sys).clientpool.clients =
      Lib.walk (checked sys) false srv.clientpool.clients := by
  rw [checkClients]
  rcases Lib.foreach_rule (·.clientpool.clients)
    (fun srv c => (.ok (srv.checkClient sys c) : Except Empty Server)) (checked sys)
    (fun _ _ => True) (fun _ => True) (s := srv) trivial (fun _ _ _ _ _ _ _ => trivial)
    (fun pre c rest srv' _ _ hpool _ =>
      .inl ⟨_, rfl, checkClient_clients hpool, trivial⟩) with ⟨srv', hs, hpool, -⟩ | ⟨e, -, -⟩
  · simp only [hs]
    exact hpool
  · exact e.elim

/-- What is looked at to tell whether a client was handled. -/
def Client.standing (c : Client) : (Identity × Transfer) × UInt8 × List Packetqueue :=
  (c.view, c.waiting, c.packetqueue)

/-- Counting a resend does not come to the same count. -/
theorem add_one_ne (n : UInt8) : n + 1 ≠ n := by
  intro h
  have hn := congrArg UInt8.toNat h
  rw [UInt8.toNat_add] at hn
  have := n.toNat_lt
  simp at hn
  omega

/-- A client is left as it is, as to how it stands, if it is not timed out. -/
theorem checked_standing_iff :
    (checked sys c).map Client.standing = some c.standing ↔ ¬c.Due sys c.waiting := by
  by_cases hdue : c.Due sys c.waiting
  · refine iff_of_false (fun h => ?_) (not_not.2 hdue)
    rw [checked, if_pos hdue] at h
    split at h
    · cases h
    · have hwaiting := congrArg (fun x : (Identity × Transfer) × UInt8 × List Packetqueue => x.2.1)
        (Option.some.inj h)
      exact add_one_ne _ hwaiting
  · rw [checked, if_neg hdue]
    exact iff_of_true rfl hdue

/-- If all are handled, they stand as if checked one by one. -/
theorem standing_of_handled {l l' : List Client}
    (h : List.Forall₂ (Handled sys) (l.filter (¬·.Expired sys)) l') :
    l'.map Client.standing = (l.filterMap (checked sys)).map Client.standing := by
  induction l generalizing l' with
  | nil =>
    cases h
    rfl
  | cons c l ih =>
    cases hc : checked sys c with
    | none =>
      rw [List.filter_cons_of_neg (by simpa using checked_eq_none.1 hc)] at h
      rw [List.filterMap_cons_none hc]
      exact ih h
    | some d =>
      have hstays : ¬c.Expired sys := fun hgone => by
        cases hc.symm.trans (checked_eq_none.2 hgone)
      rw [List.filter_cons_of_pos (by simpa using hstays)] at h
      obtain ⟨d', l'', hd', hl, rfl⟩ := List.forall₂_cons_left_iff.1 h
      rw [List.filterMap_cons_some hc, List.map_cons, List.map_cons, ih hl]
      congr 1
      have hd := handled_checked hc
      rw [Handled] at hd hd'
      by_cases hdue : c.Due sys c.waiting
      · rw [if_pos hdue] at hd hd'
        rw [Client.standing, Client.standing, hd.1, hd.2.1, hd.2.2.1, hd'.1, hd'.2.1, hd'.2.2.1]
      · rw [if_neg hdue] at hd hd'
        rw [hd, hd']

/-- Checked one by one, all are handled. -/
theorem handled_filterMap (l : List Client) :
    List.Forall₂ (Handled sys) (l.filter (¬·.Expired sys))
      (l.filterMap (checked sys)) := by
  induction l with
  | nil => exact .nil
  | cons c l ih =>
    cases hc : checked sys c with
    | none =>
      rw [List.filterMap_cons_none hc,
        List.filter_cons_of_neg (by simpa using checked_eq_none.1 hc)]
      exact ih
    | some d =>
      have hstays : ¬c.Expired sys := fun hgone => by
        cases hc.symm.trans (checked_eq_none.2 hgone)
      rw [List.filterMap_cons_some hc, List.filter_cons_of_pos (by simpa using hstays)]
      exact .cons (handled_checked hc) ih

/-- Checking handles every client once exactly if no client that is removed is followed by
    one that is timed out. -/
theorem checks_each_iff (sys : Sys) (srv : Server) :
    ChecksEach sys srv (srv.checkClients sys) ↔
      srv.clientpool.clients.IsChain fun c d => c.Expired sys → ¬d.Due sys d.waiting := by
  have hchain : ∀ c d : Client, (c.Expired sys → ¬d.Due sys d.waiting) ↔
      (checked sys c = none → (checked sys d).map Client.standing = some d.standing) :=
    fun c d => by rw [checked_eq_none, checked_standing_iff]
  rw [ChecksEach, Server.checkClients_clients]
  constructor
  · intro h
    have hwalk := (Lib.walk_map_eq_iff (checked sys) Client.standing false
      srv.clientpool.clients).1 (standing_of_handled h)
    exact (List.IsChain.iff hchain).2 hwalk.2
  · intro h
    -- Those passed over are not timed out, and would not have changed.
    have hwalk := (Lib.walk_map_eq_iff (checked sys) id false
      srv.clientpool.clients).2 ⟨fun h => absurd h Bool.false_ne_true, h.imp fun c d hcd hc => ?_⟩
    · rw [List.map_id, List.map_id] at hwalk
      rw [hwalk]
      exact handled_filterMap _
    · rw [checked, if_neg (hcd (checked_eq_none.1 hc))]
      rfl

end

namespace Sample

/-- A client that is timed out, and was sent its last packet some times. -/
def late (ptr : ℕ) (waiting : UInt8) : Client := { client ptr false [] with waiting := waiting }

end Sample

/-- Two clients that are timed out, one behind the other. -/
theorem not_checks_each : ¬∀ sys srv, ChecksEach sys srv (srv.checkClients sys) := by
  intro h
  have hlen := (h .ideal (Sample.server (Sample.late 1 3) (Sample.late 2 3)
    (by decide))).length_eq
  exact absurd hlen (by decide +kernel)

end Nbstftp
