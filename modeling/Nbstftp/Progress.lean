import Nbstftp.Turn

/-!
# What a datagram does to its client

Whatever a datagram is, and whatever the system calls give, it leaves its client
who it was, and moves its transfer on in one of a few ways (`Progress`); and if
the block buffer is overrun, it was too small before
(`processDatagram_progresses`).
-/

namespace Nbstftp

/-- The ways a datagram may move a transfer on. -/
inductive Progress (sys : Sys) (datagram : Bytes) (t : Transfer) : Transfer → Prop
  /-- It stays as it was, or is marked for destruction. -/
  | marked (destroy : Bool) : Progress sys datagram t { t with destroy := destroy }
  | stored (hdata : IsPacket .data datagram) (hsending : t.sendingfile = true) (f : File)
      (len : ℕ) : Progress sys datagram t (t.stored f len)
  | sent (hack : IsPacket .ack datagram) (hsending : t.sendingfile = true)
      (hcap : t.blksize ≤ t.capacity) (f : File) (blk : Buffer)
      (hblk : blk.bytes.length = t.capacity) (data : Bytes) :
      Progress sys datagram t (t.sent f blk data)
  | begun (hwrq : IsPacket .wrq datagram) (f : File) : Progress sys datagram t (t.begun f)
  | started (hrrq : IsPacket .rrq datagram) {t' : Transfer} {qs : List Bytes}
      (hstart : ReadStart t t' qs) : Progress sys datagram t t'
  | negotiated (hrrq : IsPacket .rrq datagram) {blksize : ℕ}
      (haccept : acceptedBlksize sys (requestOf datagram) = some blksize) {t' : Transfer}
      {qs : List Bytes} (hstart : ReadStart (t.negotiated blksize) t' qs) :
      Progress sys datagram t t'

/-- An outcome is progress, or a crash which is not due to the block buffer, unless
    that is too small. -/
def Progresses (sys : Sys) (datagram : Bytes) (c : Client) : Outcome → Prop
  | .ok s' => s'.2.identity = c.identity ∧ Progress sys datagram c.transfer s'.2.transfer
  | .error crash => crash.fault = .overflow → c.transfer.capacity < c.blksize

section

variable (cfg : Config) (sys : Sys) (m : Machine) (c : Client) {datagram : Bytes}

/-- A reaction that leaves a transfer as some progress does. -/
theorem Reacts.progresses {s' : State} {r : Reaction} (h : Reacts (m, c) r s')
    (hr : Progress sys datagram c.transfer r.transfer) : Progresses sys datagram c (.ok s') :=
  ⟨h.identity, h.transfer ▸ hr⟩

/-- Reporting an error, from a state with the transfer of the client. -/
theorem error_progresses {s : State} {r : Reaction} (h : Reacts (m, c) r s)
    (hr : r.transfer = c.transfer) (errnum : ErrorCode) (buf : Bytes) :
    Progresses sys datagram c (error sys s.1 s.2 errnum buf) := by
  rcases error_cases sys s.1 s.2 errnum buf with ⟨-, s', hs', hreact⟩ | ⟨-, hcrash⟩
  · rw [hs']
    refine (h.trans hreact).progresses sys m c ?_
    rw [h.transfer, hr]
    exact .marked true
  · rw [hcrash]
    exact fun h => nomatch h

/-- Opening a file, from a transfer that the start of any read makes progress from. -/
theorem Opening.progresses {tmp : Bytes} {t : Transfer} {o : Outcome}
    (h : Opening tmp t (m, c) o)
    (ht : ∀ {t' qs}, ReadStart t t' qs → Progress sys datagram c.transfer t') :
    Progresses sys datagram c o := by
  cases h with
  | crash fault m' es hfault => exact fun h => absurd h hfault
  | ok t' qs files es s' hstart hreact => exact hreact.progresses sys m c (ht hstart)

theorem processData_progresses (h : IsPacket .data datagram) (p : Bytes) (len : ℕ) :
    Progresses sys datagram c (processData sys m c p len) := by
  rcases processData_cases sys m c p len with ⟨-, s', hs', hreact⟩ | ⟨-, -, m', hcrash⟩ |
    ⟨-, f, m', -, -, hcrash⟩ | ⟨hsending, f, s', -, -, hs', hreact⟩
  · rw [hs']
    exact hreact.progresses sys m c (.marked c.destroy)
  · rw [hcrash]
    exact fun h => nomatch h
  · rw [hcrash]
    exact fun h => nomatch h
  · rw [hs']
    exact hreact.progresses sys m c (.stored h hsending _ _)

theorem processAck_progresses (h : IsPacket .ack datagram) :
    Progresses sys datagram c (processAck sys m c) := by
  rcases processAck_cases sys m c with ⟨-, s', hs', hreact⟩ | ⟨-, hcap, m', hcrash⟩ |
    ⟨-, -, -, m', hcrash⟩ | ⟨hsending, hcap, f, blk, s', -, hblk, hs', hreact⟩
  · rw [hs']
    exact hreact.progresses sys m c (.marked c.destroy)
  · rw [hcrash]
    exact fun _ => hcap
  · rw [hcrash]
    exact fun h => nomatch h
  · rw [hs']
    exact hreact.progresses sys m c (.sent h hsending hcap _ blk hblk _)

theorem processWrq_progresses (h : IsPacket .wrq datagram) (p : Bytes) (alloclen : ℕ) :
    Progresses sys datagram c (processWrq cfg sys m c p alloclen) := by
  rcases processWrq_cases cfg sys m c _ p alloclen rfl with ⟨-, hcrash⟩ |
    ⟨-, line, -, ⟨e, -, hrefused⟩ | ⟨-, e, -, hfailed⟩ | ⟨-, -, s', f, hs', -, hreact⟩⟩
  · rw [hcrash]
    exact fun h => nomatch h
  · rw [hrefused]
    exact error_progresses sys m c (loggedState_reacts m c line) rfl _ _
  · rw [hfailed]
    exact error_progresses sys m c ((loggedState_reacts m c line).emit _) rfl _ _
  · rw [hs']
    exact hreact.progresses sys m c (.begun h f)

theorem processRrq_progresses (h : IsPacket .rrq datagram) :
    Progresses sys datagram c (processRrq cfg sys m c (receiveBuffer datagram) pktlen) := by
  rcases processRrq_cases cfg sys m c (requestOf datagram) (receiveBuffer datagram) pktlen rfl
    with ⟨-, hcrash⟩ | ⟨-, ⟨e, line, -, -, hrefused⟩ | ⟨-, -, hopening⟩ |
      ⟨blksize, -, haccept, hopening⟩⟩
  · rw [hcrash]
    exact fun h => nomatch h
  · rw [hrefused]
    exact error_progresses sys m c (loggedState_reacts m c line) rfl _ _
  · exact hopening.progresses sys m c (.started h)
  · exact hopening.progresses sys m c (.negotiated h haccept)

/-- What any datagram does. -/
theorem processDatagram_progresses (datagram : Bytes) :
    Progresses sys datagram c (processDatagram cfg sys m c datagram) := by
  rcases processDatagram_cases cfg sys m c datagram with ⟨hdata, hs⟩ | ⟨-, hs⟩ | ⟨hack, hs⟩ |
    ⟨hwrq, hs⟩ | ⟨hrrq, hs⟩ | ⟨m', -, hs⟩
  · rw [hs]
    exact processData_progresses sys m c hdata _ _
  · obtain ⟨s', hs', hreact⟩ := processError_reacts sys m c
    rw [hs, hs']
    exact hreact.progresses sys m c (.marked true)
  · rw [hs]
    exact processAck_progresses sys m c hack
  · rw [hs]
    exact processWrq_progresses cfg sys m c hwrq _ _
  · rw [hs]
    exact processRrq_progresses cfg sys m c hrrq
  · rw [hs]
    exact ⟨rfl, .marked c.destroy⟩

end

end Nbstftp
