import TensorArena.Proofs.Arena.Positions

/-!
# Whole runs of an arena

An arena starts fresh over some buffer and answers calls: requests of any size and alignment at
either end, and rewinds. A `History` is the arena together with every block it handed out; a rewind
moves the blocks of the head from `live` to `retired`.

`History.Sound` is the invariant of all runs. `run_keeps_blocks_apart` reads off it what a holder of
blocks relies on: the order of the positions, blocks inside the arena and aligned as absolute
addresses, no byte in two blocks that are alive together, no block of the tail over an earlier block
of the head even if that was retired, use that only grows, and failure exactly where a block would
cross the other end.
-/

namespace TensorArena

namespace Arena

/-- A call on an arena. -/
inductive Call where
  | allocate (region : Region) (size align : Nat)
  | resetHead
  deriving DecidableEq, Repr

/-- The address of the first byte that the arena manages, over a buffer that starts at
`address`. -/
def baseAddress (address : Nat) (buffer : Memory) : Nat :=
  address + min ((arenaAlignment - address % arenaAlignment) % arenaAlignment) buffer.size

/-- An arena that manages any bytes starts at an aligned address. -/
theorem dvd_baseAddress (address : Nat) (buffer : Memory)
    (h : (ofBuffer address buffer).capacity ≠ 0) :
    arenaAlignment ∣ baseAddress address buffer := by
  have hskip : (arenaAlignment - address % arenaAlignment) % arenaAlignment < buffer.size := by
    by_cases hlt : (arenaAlignment - address % arenaAlignment) % arenaAlignment < buffer.size
    · exact hlt
    · have hmin : min ((arenaAlignment - address % arenaAlignment) % arenaAlignment) buffer.size =
          buffer.size := Nat.min_eq_right (by omega)
      have hdown := alignDown_le (buffer.size - buffer.size) arenaAlignment
      simp only [ofBuffer, capacity, Memory.window, hmin] at h
      omega
  unfold baseAddress
  rw [Nat.min_eq_left (Nat.le_of_lt hskip)]
  simp only [arenaAlignment]
  omega

/-! ## Histories -/

/-- An arena and the blocks that it handed out, newest first. The retired ones are blocks of the
head from before the last rewind. -/
structure History where
  arena : Arena
  live : List Block := []
  retired : List Block := []

namespace History

/-- The arena after one call. A request that fails leaves all as it was. -/
def step (h : History) : Call → History
  | .allocate region size align =>
    match h.arena.allocate region size align with
    | .ok (offset, arena) =>
      { h with arena, live := ⟨region, ⟨offset, size⟩, align⟩ :: h.live }
    | .error _ => h
  | .resetHead =>
    { arena := h.arena.resetHead
      live := h.live.filter fun b => b.region = .tail
      retired := (h.live.filter fun b => b.region = .head) ++ h.retired }

/-- The arena after calls in order. -/
def run (h : History) (calls : List Call) : History :=
  calls.foldl step h

/-- A fresh arena over a buffer. -/
def start (address : Nat) (buffer : Memory) : History :=
  { arena := ofBuffer address buffer }

/-- All blocks, alive or retired. -/
def blocks (h : History) : List Block :=
  h.live ++ h.retired

/-! ## The invariant -/

/-- What every run keeps. A live block of the head ends at the head or before, not only at the
watermark: that is why blocks handed out after a rewind are apart. -/
structure Sound (h : History) : Prop where
  kept : h.arena.WellKept
  holds : ∀ b ∈ h.blocks, h.arena.Holds b
  heads : ∀ b ∈ h.live, b.region = .head → b.range.stop ≤ h.arena.head
  retired : ∀ b ∈ h.retired, b.region = .head
  legal : ∀ b ∈ h.blocks, LegalAlignment b.align
  aligned : ∀ b ∈ h.blocks, b.align ∣ b.range.offset
  apart : h.live.Pairwise fun b c => b.range.Apart c.range
  /-- A block of the tail shares nothing with any block of the head that there ever was. -/
  ends_apart : ∀ b ∈ h.blocks, ∀ c ∈ h.blocks, b.region = .tail → c.region = .head →
    b.range.Apart c.range

theorem start_sound (address : Nat) (buffer : Memory) : (start address buffer).Sound where
  kept := ofBuffer_wellKept address buffer
  holds := nofun
  heads := nofun
  retired := nofun
  legal := nofun
  aligned := nofun
  apart := .nil
  ends_apart := nofun

/-- A block of the tail and a block of the head lie on different sides of the positions. -/
theorem apart_of_holds {a : Arena} (kept : a.WellKept) {b c : Block} (hb : a.Holds b)
    (hc : a.Holds c) (hbr : b.region = .tail) (hcr : c.region = .head) :
    b.range.Apart c.range := by
  have := kept.watermark_le
  simp only [Holds, hbr] at hb
  simp only [Holds, hcr] at hc
  exact (ByteRange.apart_of_stop_le (by omega)).symm

theorem Sound.allocate {h : History} (hs : h.Sound) {b : Block} {a' : Arena}
    (hg : h.arena.Grants b a') :
    History.Sound { h with arena := a', live := b :: h.live } := by
  have hold : ∀ c ∈ h.blocks, a'.Holds c := fun c hc => (hs.holds c hc).later hg.later
  have holds : ∀ c ∈ b :: h.blocks, a'.Holds c := by
    rintro c hc
    rcases List.mem_cons.mp hc with rfl | hc
    · exact hg.holds
    · exact hold c hc
  refine
    { kept := hg.kept
      holds
      heads := ?_
      retired := hs.retired
      legal := ?_
      aligned := ?_
      apart := ?_
      ends_apart := fun c hc d hd => apart_of_holds hg.kept (holds c hc) (holds d hd) }
  · intro c hc hr
    rcases List.mem_cons.mp hc with rfl | hc
    · exact Nat.le_of_eq (hg.head_eq hr).2.1.symm
    · have hle := hs.heads c hc hr
      cases hb : b.region with
      | head =>
        obtain ⟨h₁, h₂, -⟩ := hg.head_eq hb
        simp only [ByteRange.stop] at h₂
        dsimp only
        omega
      | tail =>
        dsimp only
        rw [(hg.tail_eq hb).2]
        exact hle
  · intro c hc
    rcases List.mem_cons.mp hc with rfl | hc
    · exact hg.legal
    · exact hs.legal c hc
  · intro c hc
    rcases List.mem_cons.mp hc with rfl | hc
    · exact hg.aligned
    · exact hs.aligned c hc
  · refine List.pairwise_cons.mpr ⟨fun c hc => ?_, hs.apart⟩
    have hcb := hs.holds c (List.mem_append_left _ hc)
    cases hcr : c.region with
    | tail => exact hg.apart_tail hcb hcr
    | head =>
      cases hb : b.region with
      | tail => exact hg.tail_apart hcb hb
      | head =>
        -- Both blocks are of the head: the older one ends before the head, where the new one starts.
        exact (ByteRange.apart_of_stop_le
          (Nat.le_trans (hs.heads c hc hcr) (hg.head_eq hb).1)).symm

theorem mem_blocks_resetHead {h : History} {b : Block} (hb : b ∈ (h.step .resetHead).blocks) :
    b ∈ h.blocks := by
  simp only [step, blocks, List.mem_append, List.mem_filter] at hb ⊢
  rcases hb with ⟨hb, -⟩ | ⟨hb, -⟩ | hb
  · exact .inl hb
  · exact .inl hb
  · exact .inr hb

theorem Sound.resetHead {h : History} (hs : h.Sound) : (h.step .resetHead).Sound where
  kept := hs.kept.resetHead
  holds b hb := (hs.holds b (mem_blocks_resetHead hb)).later (.resetHead h.arena)
  heads b hb hr := by
    simp only [step, List.mem_filter, decide_eq_true_eq] at hb
    rw [hb.2] at hr
    cases hr
  retired b hb := by
    simp only [step, List.mem_append, List.mem_filter, decide_eq_true_eq] at hb
    rcases hb with ⟨-, hr⟩ | hb
    · exact hr
    · exact hs.retired b hb
  legal b hb := hs.legal b (mem_blocks_resetHead hb)
  aligned b hb := hs.aligned b (mem_blocks_resetHead hb)
  apart := hs.apart.filter _
  ends_apart b hb c hc := hs.ends_apart b (mem_blocks_resetHead hb) c (mem_blocks_resetHead hc)

theorem Sound.step {h : History} (hs : h.Sound) (call : Call) : (h.step call).Sound := by
  cases call with
  | resetHead => exact hs.resetHead
  | allocate region size align =>
    unfold History.step
    dsimp only
    split
    · rename_i offset arena hok
      exact hs.allocate (allocate_ok hok hs.kept)
    · exact hs

theorem Sound.run {h : History} (hs : h.Sound) (calls : List Call) : (h.run calls).Sound := by
  induction calls generalizing h with
  | nil => exact hs
  | cons call rest ih => exact ih (hs.step call)

theorem Sound.later_step {h : History} (hs : h.Sound) (call : Call) :
    h.arena.Later (h.step call).arena := by
  cases call with
  | resetHead => exact .resetHead h.arena
  | allocate region size align =>
    unfold History.step
    dsimp only
    split
    · rename_i offset arena hok
      exact (allocate_ok hok hs.kept).later
    · exact .refl _

theorem Sound.later_run {h : History} (hs : h.Sound) (calls : List Call) :
    h.arena.Later (h.run calls).arena := by
  induction calls generalizing h with
  | nil => exact .refl _
  | cons call rest ih => exact (hs.later_step call).trans (ih (hs.step call))

theorem capacity_run (address : Nat) (buffer : Memory) (calls : List Call) :
    ((start address buffer).run calls).arena.capacity = (ofBuffer address buffer).capacity :=
  ((start_sound address buffer).later_run calls).capacity_eq

theorem run_append (h : History) (calls more : List Call) :
    h.run (calls ++ more) = (h.run calls).run more :=
  List.foldl_append

/-- A block of a sound history lies inside the arena. -/
theorem Sound.stop_le {h : History} (hs : h.Sound) {b : Block} (hb : b ∈ h.blocks) :
    b.range.stop ≤ h.arena.capacity := by
  have h₁ := hs.holds b hb
  have h₂ := hs.kept.watermark_le
  have h₃ := hs.kept.tail_le
  unfold Holds at h₁
  split at h₁
  · omega
  · exact h₁.2

/-! ## What holders of blocks rely on -/

/-- After any calls on a fresh arena: the positions stand in order; every block lies inside the
arena, and one that holds bytes starts at an absolute address that its alignment divides; live
blocks are pairwise apart; a block of the tail is apart from every block of the head, retired or
not; later calls never lower the use; a call with a legal alignment fails exactly when its rounded
block would cross the tail or the watermark; and a call that fails leaves the history as it was. -/
theorem run_keeps_blocks_apart (address : Nat) (buffer : Memory) (calls : List Call) :
    let h := (start address buffer).run calls
    let a := h.arena
    (a.head ≤ a.watermark ∧ a.watermark ≤ a.tail ∧ a.tail ≤ a.capacity) ∧
    (∀ b ∈ h.blocks, b.range.stop ≤ a.capacity ∧
      (b.range.length ≠ 0 → b.align ∣ baseAddress address buffer + b.range.offset)) ∧
    h.live.Pairwise (fun b c => b.range.Apart c.range) ∧
    (∀ b ∈ h.blocks, ∀ c ∈ h.blocks, b.region = .tail → c.region = .head →
      b.range.Apart c.range) ∧
    (∀ more, a.used ≤ ((start address buffer).run (calls ++ more)).arena.used) ∧
    (∀ size align, LegalAlignment align →
      ((∃ e, a.allocate .head size align = .error e) ↔
        a.tail < (a.head + align - 1) / align * align + size) ∧
      ((∃ e, a.allocate .tail size align = .error e) ↔
        ((a.tail : Int) - size) / align * align < a.watermark)) ∧
    (∀ region size align, (∃ e, a.allocate region size align = .error e) →
      h.step (.allocate region size align) = h) := by
  intro h a
  have hs : h.Sound := (start_sound address buffer).run calls
  refine ⟨⟨hs.kept.head_le, hs.kept.watermark_le, hs.kept.tail_le⟩, fun b hb => ⟨hs.stop_le hb, ?_⟩,
    hs.apart, hs.ends_apart, fun more => ?_, fun size align hl =>
      ⟨allocateHead_error_iff hl, allocateTail_error_iff hl⟩, ?_⟩
  · intro hne
    have hcap : (ofBuffer address buffer).capacity ≠ 0 := by
      have hstop := hs.stop_le hb
      rw [capacity_run] at hstop
      simp only [ByteRange.stop] at hstop
      omega
    exact Nat.dvd_add (Nat.dvd_trans (hs.legal b hb).dvd (dvd_baseAddress address buffer hcap))
      (hs.aligned b hb)
  · rw [run_append]
    exact (hs.later_run more).used_le
  · rintro region size align ⟨e, he⟩
    simp only [step, a] at he ⊢
    rw [he]

end History

end Arena

end TensorArena
