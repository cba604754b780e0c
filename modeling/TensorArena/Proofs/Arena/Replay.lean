import TensorArena.Proofs.Arena.History
import Mathlib.Data.List.Forall2

/-!
# A run again in the smallest buffer

`serve` answers calls in their order until one is refused. Where all of them were granted in one fresh
arena, `replay_in_required` grants them again in a buffer of the size that the bytes in use ask for.

What carries the second run is that both capacities are multiples of the arena's alignment. Below a
capacity like that a block of the tail lies at a distance that depends on the distance of the old tail
only, so the two arenas stay `Alike`: their heads stand at one offset, and their tails at one distance
from the end. Room is never short, because the bytes in use only grow towards the final sum.
-/

namespace TensorArena

namespace Arena

/-! ## Runs in which every call is granted -/

/-- Answers calls in order, until one is refused: the blocks that they were given, in that order, and
the arena after them. -/
def serve (a : Arena) : List Call → Except MemoryError (List Block × Arena)
  | [] => .ok ([], a)
  | .resetHead :: rest => a.resetHead.serve rest
  | .allocate region size align :: rest => do
    let (offset, b) ← a.allocate region size align
    let (blocks, c) ← b.serve rest
    return (⟨region, ⟨offset, size⟩, align⟩ :: blocks, c)

theorem serve_allocate_eq_ok_iff {a : Arena} {region : Region} {size align : Nat}
    {rest : List Call} {r : List Block × Arena} :
    a.serve (.allocate region size align :: rest) = .ok r ↔
      ∃ offset b blocks c, a.allocate region size align = .ok (offset, b) ∧
        b.serve rest = .ok (blocks, c) ∧ r = (⟨region, ⟨offset, size⟩, align⟩ :: blocks, c) := by
  constructor
  · intro h
    rw [serve] at h
    cases hok : a.allocate region size align with
    | error e =>
      rw [hok] at h
      cases h
    | ok granted =>
      obtain ⟨offset, b⟩ := granted
      rw [hok] at h
      dsimp only [bind, Except.bind, pure, Except.pure] at h
      cases hrest : b.serve rest with
      | error e =>
        rw [hrest] at h
        cases h
      | ok served =>
        rw [hrest] at h
        exact ⟨offset, b, served.1, served.2, rfl, hrest, (Except.ok.inj h).symm⟩
  · rintro ⟨offset, b, blocks, c, hok, hrest, rfl⟩
    rw [serve, hok]
    dsimp only [bind, Except.bind, pure, Except.pure]
    rw [hrest]

/-- Calls that are all granted end where a history of them ends. -/
theorem run_arena_of_serve {a b : Arena} {calls : List Call} {blocks : List Block}
    (hserve : a.serve calls = .ok (blocks, b)) {h : History} (ha : h.arena = a) :
    (h.run calls).arena = b := by
  induction calls generalizing a blocks h with
  | nil =>
    cases hserve
    exact ha
  | cons call rest ih =>
    cases call with
    | resetHead => exact ih hserve (congrArg Arena.resetHead ha)
    | allocate region size align =>
      obtain ⟨offset, b, blocks, c, hok, hrest, hr⟩ := serve_allocate_eq_ok_iff.mp hserve
      cases hr
      refine ih hrest ?_
      simp only [History.step, ha, hok]

theorem WellKept.serve {a b : Arena} {calls : List Call} {blocks : List Block} (kept : a.WellKept)
    (hserve : a.serve calls = .ok (blocks, b)) : a.Later b := by
  have hsound : History.Sound { arena := a } :=
    { kept, holds := nofun, heads := nofun, retired := nofun, legal := nofun, aligned := nofun,
      apart := .nil, ends_apart := nofun }
  have hlater := hsound.later_run calls
  rwa [run_arena_of_serve hserve rfl] at hlater

/-! ## Two arenas at the same point of a run -/

/-- A multiple of the alignment as the capacity, and the positions in their order. -/
structure Whole (a : Arena) : Prop where
  kept : a.WellKept
  dvd_capacity : arenaAlignment ∣ a.capacity

theorem ofBuffer_whole (address : Nat) (buffer : Memory) : (ofBuffer address buffer).Whole where
  kept := ofBuffer_wellKept address buffer
  dvd_capacity := by
    rw [capacity_ofBuffer]
    exact dvd_alignDown (by decide) _

theorem Whole.allocate {a b : Arena} {region : Region} {size align offset : Nat} (h : a.Whole)
    (hok : a.allocate region size align = .ok (offset, b)) : b.Whole := by
  have hgrants := allocate_ok hok h.kept
  refine ⟨hgrants.kept, ?_⟩
  rw [hgrants.later.capacity_eq]
  exact h.dvd_capacity

/-- Two arenas, maybe of different capacities, after the same calls: what the head has done is the
same, and so is what the tail has taken from the end. -/
structure Alike (a b : Arena) : Prop where
  left : a.Whole
  right : b.Whole
  head_eq : b.head = a.head
  watermark_eq : b.watermark = a.watermark
  tailUsed_eq : b.tailUsed = a.tailUsed

theorem Alike.used_eq {a b : Arena} (h : a.Alike b) : b.used = a.used := by
  rw [used, used, headUsed, headUsed, h.watermark_eq, h.tailUsed_eq]

theorem Alike.resetHead {a b : Arena} (h : a.Alike b) : a.resetHead.Alike b.resetHead where
  left := ⟨h.left.kept.resetHead, h.left.dvd_capacity⟩
  right := ⟨h.right.kept.resetHead, h.right.dvd_capacity⟩
  head_eq := rfl
  watermark_eq := h.watermark_eq
  tailUsed_eq := h.tailUsed_eq

/-- The same block in arenas of two capacities: at the head it starts at the same offset, at the tail
at the same distance from the end. -/
structure Corresponds (capacity capacity' : Nat) (b b' : Block) : Prop where
  region_eq : b'.region = b.region
  length_eq : b'.range.length = b.range.length
  align_eq : b'.align = b.align
  head_eq : b.region = .head → b'.range.offset = b.range.offset
  tail_eq : b.region = .tail → b'.range.offset + capacity = b.range.offset + capacity'

/-- The tail at a given distance from the end of a capacity that the alignment divides. -/
theorem Whole.alignDown_tail {a : Arena} (h : a.Whole) {align : Nat} (hl : LegalAlignment align)
    {size : Nat} (hsize : size ≤ a.tail) :
    alignDown (a.tail - size) align + alignUp (a.tailUsed + size) align = a.capacity := by
  have hdvd : align ∣ a.capacity := Nat.dvd_trans hl.dvd h.dvd_capacity
  have htail := h.kept.tail_le
  have hfit : alignUp (a.tailUsed + size) align ≤ a.capacity :=
    (alignUp_le_iff hl.1 hdvd).mpr (by unfold tailUsed; omega)
  have hsub : a.tail - size = a.capacity - (a.tailUsed + size) := by
    unfold tailUsed
    omega
  rw [hsub, alignDown_sub_eq hl.1 hdvd]
  omega

/-- A request that is granted in one arena is granted in the other, as long as the other one has as
many bytes as are in use then. -/
theorem Alike.allocate {a a' b : Arena} (h : a.Alike a') {region : Region} {size align offset : Nat}
    (hok : a.allocate region size align = .ok (offset, b)) (hroom : b.used ≤ a'.capacity) :
    ∃ offset' b', a'.allocate region size align = .ok (offset', b') ∧ b.Alike b' ∧
      Corresponds a.capacity a'.capacity ⟨region, ⟨offset, size⟩, align⟩
        ⟨region, ⟨offset', size⟩, align⟩ := by
  have hhead := h.head_eq
  have hmark := h.watermark_eq
  have hused : a'.capacity - a'.tail = a.capacity - a.tail := h.tailUsed_eq
  have htail := h.left.kept.tail_le
  have htail' := h.right.kept.tail_le
  have hwhole := h.left.allocate hok
  cases region with
  | head =>
    obtain ⟨hl, hoffset, hfit, rfl⟩ := allocateHead_ok hok
    have hfit' : offset + size ≤ a'.tail := by
      simp only [used, headUsed, tailUsed, capacity] at hroom hused htail htail'
      omega
    have hok' : a'.allocate .head size align = .ok (offset,
        { a' with head := offset + size, watermark := max a'.watermark (offset + size) }) := by
      simp only [Arena.allocate, allocateHead, hhead, ← hoffset]
      rw [if_neg (not_not_intro hl), if_pos hfit']
    refine ⟨offset, _, hok', ⟨hwhole, h.right.allocate hok', rfl, ?_, hused⟩,
      ⟨rfl, rfl, rfl, fun _ => rfl, by rintro ⟨⟩⟩⟩
    dsimp only
    rw [hmark]
  | tail =>
    obtain ⟨hl, hsize, hoffset, hle, rfl⟩ := allocateTail_ok hok
    have hstart := h.left.alignDown_tail hl hsize
    have hup := le_alignUp hl.1 (a.tailUsed + size)
    simp only [used, headUsed, tailUsed, capacity] at hroom hused htail htail' hstart hup
    have hsize' : size ≤ a'.tail := by omega
    have hstart' := h.right.alignDown_tail hl hsize'
    rw [h.tailUsed_eq] at hstart'
    simp only [tailUsed, capacity] at hstart'
    have hok' : a'.allocate .tail size align = .ok (alignDown (a'.tail - size) align,
        { a' with tail := alignDown (a'.tail - size) align }) := by
      simp only [Arena.allocate, allocateTail]
      rw [if_neg (not_not_intro hl), if_pos ⟨hsize', by omega⟩]
    refine ⟨_, _, hok', ⟨hwhole, h.right.allocate hok', hhead, hmark, ?_⟩,
      ⟨rfl, rfl, rfl, by rintro ⟨⟩, fun _ => ?_⟩⟩
    · simp only [tailUsed, capacity]
      omega
    · simp only [capacity]
      omega

/-- Calls that are all granted in one arena are all granted in the other, as long as the other one has
as many bytes as are in use at the end. -/
theorem Alike.serve {a a' b : Arena} (h : a.Alike a') {calls : List Call} {blocks : List Block}
    (hserve : a.serve calls = .ok (blocks, b)) (hroom : b.used ≤ a'.capacity) :
    ∃ blocks' b', a'.serve calls = .ok (blocks', b') ∧ b.Alike b' ∧
      List.Forall₂ (Corresponds a.capacity a'.capacity) blocks blocks' := by
  induction calls generalizing a a' blocks with
  | nil =>
    cases hserve
    exact ⟨[], a', rfl, h, .nil⟩
  | cons call rest ih =>
    cases call with
    | resetHead => exact ih h.resetHead hserve hroom
    | allocate region size align =>
      obtain ⟨offset, c, blocks, b, hok, hrest, hr⟩ := serve_allocate_eq_ok_iff.mp hserve
      cases hr
      have hlater := (h.left.allocate hok).kept.serve hrest
      obtain ⟨offset', c', hok', halike, hblock⟩ :=
        h.allocate hok (Nat.le_trans hlater.used_le hroom)
      have hcapacity : c.capacity = a.capacity := (allocate_ok hok h.left.kept).later.capacity_eq
      have hcapacity' : c'.capacity = a'.capacity :=
        (allocate_ok hok' h.right.kept).later.capacity_eq
      obtain ⟨blocks', b', hrest', hend, hblocks⟩ := ih halike hrest (by rwa [hcapacity'])
      rw [hcapacity, hcapacity'] at hblocks
      exact ⟨_, b', serve_allocate_eq_ok_iff.mpr ⟨offset', c', blocks', b', hok', hrest', rfl⟩, hend,
        .cons hblock hblocks⟩

theorem ofBuffer_alike (address address' : Nat) (buffer buffer' : Memory) :
    (ofBuffer address buffer).Alike (ofBuffer address' buffer') where
  left := ofBuffer_whole address buffer
  right := ofBuffer_whole address' buffer'
  head_eq := rfl
  watermark_eq := rfl
  tailUsed_eq := by
    rw [tailUsed, tailUsed, capacity_ofBuffer, capacity_ofBuffer, Nat.sub_self, Nat.sub_self]

/-- Calls that are all granted in a fresh arena are all granted in a fresh arena over any buffer of the
size that the bytes in use at the end ask for, at any address. The blocks are the same, those of the
head by their offsets and those of the tail by their distance from the capacity, and the same number of
bytes is in use at the end. -/
theorem replay_in_required {address : Nat} {buffer : Memory} {calls : List Call}
    {blocks : List Block} {a : Arena}
    (hserve : (ofBuffer address buffer).serve calls = .ok (blocks, a))
    (address' : Nat) {buffer' : Memory} (hsize : buffer'.size = requiredBufferSize a.used) :
    ∃ blocks' a', (ofBuffer address' buffer').serve calls = .ok (blocks', a') ∧
      List.Forall₂ (Corresponds a.capacity a'.capacity) blocks blocks' ∧
      a'.headUsed = a.headUsed ∧ a'.tailUsed = a.tailUsed ∧ a'.used = a.used := by
  have hroom := (capacity_ofBuffer_of_required address' hsize).1
  obtain ⟨blocks', a', hserve', halike, hblocks⟩ :=
    (ofBuffer_alike address address' buffer buffer').serve hserve hroom
  have hcapacity := ((ofBuffer_wellKept address buffer).serve hserve).capacity_eq
  have hcapacity' := ((ofBuffer_wellKept address' buffer').serve hserve').capacity_eq
  rw [← hcapacity, ← hcapacity'] at hblocks
  exact ⟨blocks', a', hserve', hblocks, halike.watermark_eq, halike.tailUsed_eq, halike.used_eq⟩

/-- Requests at both ends, with the head rewound between them. -/
def sampleCalls : List Call :=
  [.allocate .tail 37 4, .allocate .head 21 16, .resetHead, .allocate .head 8 8,
    .allocate .tail 64 16]

/-- 133 bytes are in use then; a buffer of 160 bytes at an odd address holds them. -/
theorem replay_in_required_of_sample :
    let blocks : List Block :=
      [⟨.tail, ⟨472, 37⟩, 4⟩, ⟨.head, ⟨0, 21⟩, 16⟩, ⟨.head, ⟨0, 8⟩, 8⟩, ⟨.tail, ⟨400, 64⟩, 16⟩]
    let a : Arena := { ofBuffer 0 (.replicate 512 0) with head := 8, watermark := 21, tail := 400 }
    (ofBuffer 0 (.replicate 512 0)).serve sampleCalls = .ok (blocks, a) ∧
      (Memory.replicate 160 0).size = requiredBufferSize a.used ∧
      ∃ blocks' a', (ofBuffer 3 (.replicate 160 0)).serve sampleCalls = .ok (blocks', a') ∧
        List.Forall₂ (Corresponds a.capacity a'.capacity) blocks blocks' ∧
        a'.headUsed = a.headUsed ∧ a'.tailUsed = a.tailUsed ∧ a'.used = a.used := by
  intro blocks a
  have hserve : (ofBuffer 0 (.replicate 512 0)).serve sampleCalls = .ok (blocks, a) := rfl
  have hsize : (Memory.replicate 160 0).size = requiredBufferSize a.used := by decide
  exact ⟨hserve, hsize, replay_in_required hserve 3 hsize⟩

end Arena

end TensorArena
