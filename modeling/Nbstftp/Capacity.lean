import Nbstftp.Steps

/-!
# The block buffer

The block buffer of a client is allocated when the first block is read into it,
for the block size of that moment, and kept: a block size accepted later may be
larger, and the next block overruns the buffer (`not_keeps_capacity`).

As long as no block size larger than the buffer is accepted for a client that has
one, in every run of the server every buffer holds a block of its client, and
none is overrun (`capacity_kept`).
-/

namespace Nbstftp

/-- The block buffer, once allocated, holds a block. -/
def Transfer.Fits (t : Transfer) : Prop := ∀ blk ∈ t.blk, t.blksize ≤ blk.bytes.length

instance (t : Transfer) : Decidable t.Fits :=
  inferInstanceAs (Decidable (∀ blk ∈ t.blk, t.blksize ≤ blk.bytes.length))

theorem Transfer.fits_iff {t : Transfer} : t.Fits ↔ t.blksize ≤ t.capacity := by
  rw [Fits, capacity]
  cases t.blk with
  | none => simp
  | some blk => simp

namespace ServerStep

/-- The clients a step leaves. -/
def clientsAfter (t : ServerStep) : List Client :=
  match t.post with
  | .ok srv => srv.clientpool.clients
  | .error _ => []

/-- The fault a step ends the run with. -/
def fault (t : ServerStep) : Option Fault :=
  match t.post with
  | .ok _ => none
  | .error crash => some crash.fault

/-- After a step, every block buffer holds a block, and none was overrun. -/
def KeepsCapacity (t : ServerStep) : Prop :=
  (∀ c ∈ t.clientsAfter, c.transfer.Fits) ∧ t.fault ≠ some .overflow

/-- A block size accepted for a client that has a block buffer is not larger. -/
def WithinBuffer (t : ServerStep) : Prop :=
  ∀ a ∈ t.input.arrival, IsPacket .rrq a.data →
    ∀ blksize ∈ acceptedBlksize t.input.sys (requestOf a.data),
      ∀ c ∈ t.pre.handler t.input.sys a, ∀ blk ∈ c.blk, blksize ≤ blk.bytes.length

instance (t : ServerStep) : Decidable t.KeepsCapacity :=
  inferInstanceAs (Decidable (_ ∧ _))

instance (t : ServerStep) : Decidable t.WithinBuffer :=
  inferInstanceAs (Decidable (∀ a ∈ t.input.arrival, IsPacket .rrq a.data →
    ∀ blksize ∈ acceptedBlksize t.input.sys (requestOf a.data),
      ∀ c ∈ t.pre.handler t.input.sys a, ∀ blk ∈ c.blk, blksize ≤ blk.bytes.length))

end ServerStep

/-- Starting a read leaves the block size and the block buffer alone. -/
theorem ReadStart.fits {t t' : Transfer} {qs : List Bytes} (h : ReadStart t t' qs)
    (ht : t.Fits) : t'.Fits := by
  cases h with
  | refused | reopened | started => exact ht

/-- The block buffer of a transfer that moves on holds a block, unless a larger block
    size was accepted. -/
theorem Progress.fits {sys : Sys} {datagram : Bytes} {t t' : Transfer}
    (h : Progress sys datagram t t') (ht : t.Fits)
    (hwithin : IsPacket .rrq datagram → ∀ blksize ∈ acceptedBlksize sys (requestOf datagram),
      ∀ blk ∈ t.blk, blksize ≤ blk.bytes.length) : t'.Fits := by
  cases h with
  | marked | stored | begun => exact ht
  | sent hack hsending hcap f blk hblk data =>
    -- The buffer is the one there was, or one allocated for the block size.
    intro blk' hblk'
    cases hblk'
    exact hblk ▸ hcap
  | started hrrq hstart => exact hstart.fits ht
  | negotiated hrrq haccept hstart => exact hstart.fits (hwithin hrrq _ haccept)

/-- What a step within the buffers keeps. -/
theorem keepsCapacity_step {cfg : Config} {srv : Server} {i : Input}
    (h : ∀ c ∈ srv.clientpool.clients, c.transfer.Fits)
    (hwithin : ServerStep.WithinBuffer ⟨srv, i, step cfg srv i⟩) :
    ServerStep.KeepsCapacity ⟨srv, i, step cfg srv i⟩ := by
  have hcrash : ∀ crash : Crash, crash.fault ≠ .overflow →
      ServerStep.KeepsCapacity ⟨srv, i, .error crash⟩ :=
    fun crash hfault => ⟨fun c hc => absurd hc List.not_mem_nil,
      fun h => hfault (Option.some.inj h)⟩
  rcases step_cases cfg srv i with ⟨srv', hs, hsub⟩ | ⟨crash, hs, hfault⟩ |
    ⟨a, srv₁, c, harrival, hfound, hs⟩
  · rw [hs]
    refine ⟨fun c hc => ?_, nofun⟩
    obtain ⟨d, hd, hview⟩ := List.mem_map.1 (hsub.subset (List.mem_map_of_mem hc))
    have htransfer : d.transfer = c.transfer := congrArg Prod.snd hview
    exact htransfer ▸ h d hd
  · rw [hs]
    exact hcrash crash fun h => absurd (h ▸ hfault) (by decide)
  · -- The client the datagram is for is one of the pool, or new and without a buffer.
    have hfits : ∀ d ∈ srv₁.clientpool.clients, d.transfer.Fits :=
      Server.forall_findOrAllocateClient i.sys srv hfound h fun _ _ => nofun
    have hc := hfits c (Server.mem_of_findOrAllocateClient i.sys srv hfound)
    have hprogress := turn_progresses cfg i.sys srv₁.machine c a.data
    rw [hs]
    generalize turn cfg (srv₁.machine, c) (receiving i.sys a.data) = o at hprogress ⊢
    cases o with
    | error crash =>
      exact hcrash crash fun hfault =>
        absurd (hprogress hfault) (Nat.not_lt.2 (Transfer.fits_iff.1 hc))
    | ok st =>
      have hst := hprogress.2.fits hc fun hrrq blksize haccept =>
        hwithin a harrival hrrq blksize haccept c (Server.handler_eq_some.2 ⟨srv₁, hfound⟩)
      refine ⟨fun d hd => ?_, nofun⟩
      rcases ClientPool.mem_update hd with rfl | ⟨hd, -⟩
      · exact hst
      · exact hfits d hd

/-- In every run of the server that accepts no block size larger than the buffer of
    the client, all block buffers hold a block at all times. -/
theorem capacity_kept {cfg : Config} {machine : Machine} {socketpool : List Socket}
    {inputs : List Input}
    (h : ∀ t ∈ Lib.trace (step cfg) (.boot machine socketpool) inputs,
      ServerStep.WithinBuffer t) :
    ∀ t ∈ Lib.trace (step cfg) (.boot machine socketpool) inputs,
      ServerStep.KeepsCapacity t := by
  rw [← Lib.always_iff_forall_mem] at h ⊢
  refine Lib.always_of_always
    (fun _ srv => ∀ c ∈ srv.clientpool.clients, c.transfer.Fits)
    (fun c hc => absurd hc List.not_mem_nil) ?_ ?_ h
  · rintro past ⟨srv, i, post⟩ hsrv - (hpost : post = step cfg srv i) hwithin
    rw [hpost] at hwithin ⊢
    exact keepsCapacity_step hsrv hwithin
  · rintro past ⟨srv, i, post⟩ srv' hsrv - (hpost : post = step cfg srv i) hwithin
      (hok : post = .ok srv')
    rw [hpost] at hwithin hok
    have hkeeps := keepsCapacity_step hsrv hwithin
    rw [hok] at hkeeps
    exact hkeeps.1

/-- A request for blocks of a given size. -/
def Sample.blksizeRequest (blksize : String) : Bytes :=
  Sample.request .rrq (ascii "blksize" ++ [0] ++ ascii blksize ++ [0])

/-- Blocks of 16 bytes are asked for, and then, while the buffer is one of these, of 8. -/
def Sample.shrinking : List Input :=
  [Sample.blksizeRequest "16", ackBytes 0, Sample.blksizeRequest "8", ackBytes 0].map
    Sample.receive

theorem capacity_kept_eight :
    (∀ t ∈ Lib.trace (step Sample.config)
      (.boot (Sample.machine (List.replicate 40 1)) [Sample.socket]) Sample.shrinking,
        ServerStep.WithinBuffer t) ∧
      ∀ t ∈ Lib.trace (step Sample.config)
        (.boot (Sample.machine (List.replicate 40 1)) [Sample.socket]) Sample.shrinking,
        ServerStep.KeepsCapacity t :=
  ⟨by decide +kernel, capacity_kept (by decide +kernel)⟩

/-- Blocks of 512 bytes are asked for while the buffer is one of 8. -/
theorem not_keeps_capacity :
    ¬∀ cfg machine socketpool inputs,
      ∀ t ∈ Lib.trace (step cfg) (.boot machine socketpool) inputs,
        ServerStep.KeepsCapacity t := by
  intro h
  have hkeeps := h Sample.config (Sample.machine [1]) [Sample.socket]
    ([Sample.blksizeRequest "8", ackBytes 0, Sample.blksizeRequest "512"].map Sample.receive)
  exact absurd hkeeps (by decide +kernel)

end Nbstftp
