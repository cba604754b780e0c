import TensorArena.Proofs.Arena.Recording

/-!
# The ledger of a recorder balances

A recorder measures what a request took by the position that the request moves, and reports what is
in use by the watermark and the tail. The two agree once the rewinds are counted in: over any run

    bytes taken, over all categories = tail used + head + the heads that were rewound

`Takes` is what one granted request does to the positions, `Balanced` the invariant, and
`create_balances` the account of a whole run that starts with the recorder's own block.
-/

namespace TensorArena

/-! ## Sums -/

@[simp] theorem total_append (ns ms : List Nat) : total (ns ++ ms) = total ns + total ms := by
  induction ns with
  | nil => simp [total]
  | cons n ns ih =>
    simp only [total, List.cons_append, List.foldr_cons] at ih ⊢
    omega

@[simp] theorem total_singleton (n : Nat) : total [n] = n :=
  rfl

theorem total_eq_zero {ns : List Nat} (h : ∀ n ∈ ns, n = 0) : total ns = 0 := by
  induction ns with
  | nil => rfl
  | cons n ns ih =>
    have hrest := ih fun m hm => h m (by simp [hm])
    simp only [total, List.foldr_cons] at hrest ⊢
    simp [h n, hrest]

namespace Ledger

/-- One figure of the tallies, summed over all categories. -/
def sum (l : Ledger) (figure : Tally → Nat) : Nat :=
  total (Category.all.map fun c => figure (l.get c))

@[simp] theorem sum_empty (figure : Tally → Nat) :
    (Ledger.sum {} figure) = 5 * figure {} := by
  simp only [sum, Category.all, total, get, List.map_cons, List.map_nil, List.foldr_cons,
    List.foldr_nil]
  omega

/-- An entry adds to a sum what it adds to the one tally it goes to. -/
theorem sum_enter (l : Ledger) (c : Category) {requested used : Nat} (figure : Tally → Nat) (n : Nat)
    (h : ∀ t : Tally, figure (t.add requested used) = figure t + n) :
    (l.enter c requested used).sum figure = l.sum figure + n := by
  cases c <;> simp [sum, Category.all, total, enter, get_set, h] <;> omega

theorem get_enter (l : Ledger) (c c' : Category) (requested used : Nat) :
    (l.enter c requested used).get c' =
      if c' = c then (l.get c).add requested used else l.get c' :=
  l.get_set c c' _

end Ledger

/-! ## What a request takes -/

/-- Rounding up adds less than one alignment. -/
theorem alignUp_lt_add {align : Nat} (h : IsPowerOfTwo align) (value : Nat) :
    alignUp value align < value + align := by
  have := alignDown_le (value + align - 1) align
  have := h.pos
  unfold alignUp
  omega

/-- A granted request takes its size and less than one alignment more, all of it at one of the two
positions. -/
structure Arena.Takes (a : Arena) (size used : Nat) (a' : Arena) : Prop where
  kept : a'.WellKept
  size_le : size ≤ used
  used_le : used ≤ size + 15
  taken : a'.tailUsed + a'.head = a.tailUsed + a.head + used
  /-- Without a rewind the head is the watermark. -/
  top : a.watermark = a.head → a'.watermark = a'.head

theorem ofBuffer_tailUsed (address : Nat) (buffer : Memory) :
    (Arena.ofBuffer address buffer).tailUsed = 0 := by
  simp only [Arena.tailUsed, Arena.ofBuffer, Arena.capacity, Memory.window]
  omega

namespace Recorder

/-- The bytes that a recorder measures, from the two positions of the end that moved. -/
def moved (a a' : Arena) (region : Region) : Nat :=
  (position a' region - position a region) + (position a region - position a' region)

theorem takes_head {a a' : Arena} {size align offset : Nat} (hk : a.WellKept)
    (h : a.allocateHead size align = .ok (offset, a')) : a.Takes size (moved a a' .head) a' := by
  have hgrants : a.Grants ⟨.head, ⟨offset, size⟩, align⟩ a' := Arena.allocate_ok h hk
  obtain ⟨legal, rfl, fits, rfl⟩ := Arena.allocateHead_ok h
  have hup := le_alignUp legal.1 a.head
  have hlt := alignUp_lt_add legal.1 a.head
  have halign : align ≤ 16 := legal.2
  have := hk.head_le
  refine ⟨hgrants.kept, ?_, ?_, ?_, ?_⟩
  · simp only [moved, position]; omega
  · simp only [moved, position]; omega
  · simp only [moved, position, Arena.tailUsed, Arena.capacity]; omega
  · intro htop
    simp only [htop]
    omega

theorem takes_tail {a a' : Arena} {size align offset : Nat} (hk : a.WellKept)
    (h : a.allocateTail size align = .ok (offset, a')) : a.Takes size (moved a a' .tail) a' := by
  have hgrants : a.Grants ⟨.tail, ⟨offset, size⟩, align⟩ a' := Arena.allocate_ok h hk
  obtain ⟨legal, fits, rfl, above, rfl⟩ := Arena.allocateTail_ok h
  have hdown := alignDown_le (a.tail - size) align
  have hlt := lt_alignDown_add legal.1 (a.tail - size)
  have halign : align ≤ 16 := legal.2
  have htail := hk.tail_le
  refine ⟨hgrants.kept, ?_, ?_, ?_, fun htop => htop⟩
  · simp only [moved, position]; omega
  · simp only [moved, position]; omega
  · simp only [moved, position, Arena.tailUsed, Arena.capacity] at htail ⊢; omega

/-- A request is refused and counted as failed, or granted and entered with what it took. -/
theorem allocate_cases (r : Recorder) (hk : r.arena.WellKept) (region : Region) (size align : Nat)
    (category : Category) :
    (r.allocate region size align category).2 = { r with failed := r.failed + 1 } ∨
    ∃ a used, r.arena.Takes size used a ∧
      (r.allocate region size align category).2 =
        { r with arena := a, ledger := r.ledger.enter category size used } := by
  unfold allocate
  cases h : r.arena.allocate region size align with
  | error e => exact .inl rfl
  | ok granted =>
    obtain ⟨offset, a⟩ := granted
    right
    refine ⟨a, moved r.arena a region, ?_, rfl⟩
    cases region with
    | head => exact takes_head hk h
    | tail => exact takes_tail hk h

/-! ## Runs -/

/-- One step of the holder of a recorder. Only a request has a use for the category. -/
def use (r : Recorder) (category : Category) : Arena.Use → Recorder
  | .call (.allocate region size align) => (r.allocate region size align category).2
  | .call .resetHead => { r with arena := r.arena.resetHead }
  | .write offset bytes =>
    { r with arena := { r.arena with memory := r.arena.memory.write offset bytes } }

/-- The recorder behind a store takes the same step. -/
theorem use_eq (r : Recorder) (category : Category) (u : Arena.Use) :
    ((Store.recorded r).use category u).2 = .recorded (r.use category u) := by
  cases u with
  | write offset bytes => rfl
  | call c => cases c <;> rfl

def run (r : Recorder) : List (Arena.Use × Category) → Recorder
  | [] => r
  | (u, category) :: rest => (r.use category u).run rest

/-- The heads that were current at each rewind of a run. -/
def rewound (r : Recorder) : List (Arena.Use × Category) → List Nat
  | [] => []
  | (u, category) :: rest =>
    if u = .call .resetHead then r.arena.head :: (r.use category u).rewound rest
    else (r.use category u).rewound rest

/-- The requests of a run, granted or not. -/
def requests : List (Arena.Use × Category) → Nat
  | [] => 0
  | (.call (.allocate ..), _) :: rest => requests rest + 1
  | _ :: rest => requests rest

theorem requests_cons (u : Arena.Use) (category : Category)
    (rest : List (Arena.Use × Category)) :
    requests ((u, category) :: rest) = requests [(u, category)] + requests rest := by
  cases u with
  | call c => cases c <;> simp [requests, Nat.add_comm]
  | write offset bytes => simp [requests]

theorem rewound_cons (r : Recorder) (u : Arena.Use) (category : Category)
    (rest : List (Arena.Use × Category)) :
    r.rewound ((u, category) :: rest) =
      r.rewound [(u, category)] ++ (r.use category u).rewound rest := by
  by_cases h : u = .call .resetHead <;> simp [rewound, h]

/-! ## The balance -/

/-- What every run keeps, for the requests made so far and the heads rewound so far. -/
structure Balanced (r : Recorder) (requested : Nat) (heads : List Nat) : Prop where
  kept : r.arena.WellKept
  counted : r.ledger.sum Tally.count + r.failed = requested
  bounded : ∀ c, (r.ledger.get c).requested ≤ (r.ledger.get c).used ∧
    (r.ledger.get c).used ≤ (r.ledger.get c).requested + 15 * (r.ledger.get c).count
  balance : r.ledger.sum Tally.used = r.arena.tailUsed + r.arena.head + total heads
  top : total heads = 0 → r.arena.watermark = r.arena.head

theorem Balanced.allocate {r : Recorder} {requested : Nat} {heads : List Nat}
    (h : r.Balanced requested heads) (region : Region) (size align : Nat) (category : Category) :
    ((r.allocate region size align category).2).Balanced (requested + 1) heads := by
  obtain hrefused | ⟨a, used, htakes, hgranted⟩ := r.allocate_cases h.kept region size align category
  · rw [hrefused]
    have hcounted := h.counted
    exact ⟨h.kept, by simp only; omega, h.bounded, h.balance, h.top⟩
  · rw [hgranted]
    refine ⟨htakes.kept, ?_, ?_, ?_, fun hzero => htakes.top (h.top hzero)⟩
    · have hsum : (r.ledger.enter category size used).sum Tally.count = _ :=
        r.ledger.sum_enter category Tally.count 1 fun t => rfl
      have hcounted := h.counted
      simp only [hsum]
      omega
    · intro c
      obtain ⟨hlow, hhigh⟩ := h.bounded c
      have := htakes.size_le
      have := htakes.used_le
      by_cases heq : c = category
      · subst heq
        simp only [Ledger.get_enter, if_true, Tally.add]
        omega
      · simpa only [Ledger.get_enter, heq, if_false] using h.bounded c
    · have hsum : (r.ledger.enter category size used).sum Tally.used = _ :=
        r.ledger.sum_enter category Tally.used used fun t => rfl
      have hbalance := h.balance
      have htaken := htakes.taken
      simp only [hsum]
      omega

/-- A rewind gives up the head; that is what joins the rewound ones. -/
theorem Balanced.resetHead {r : Recorder} {requested : Nat} {heads : List Nat}
    (h : r.Balanced requested heads) :
    ({ r with arena := r.arena.resetHead } : Recorder).Balanced requested
      (heads ++ [r.arena.head]) := by
  have hbalance := h.balance
  refine ⟨h.kept.resetHead, h.counted, h.bounded, ?_, ?_⟩
  · simp only [total_append, total_singleton, Arena.resetHead, Arena.tailUsed, Arena.capacity]
      at hbalance ⊢
    omega
  · intro hzero
    simp only [total_append, total_singleton] at hzero
    have htop := h.top (by omega)
    simp only [Arena.resetHead]
    omega

theorem Balanced.use {r : Recorder} {requested : Nat} {heads : List Nat}
    (h : r.Balanced requested heads) (category : Category) (u : Arena.Use) :
    (r.use category u).Balanced (requested + requests [(u, category)])
      (heads ++ r.rewound [(u, category)]) := by
  cases u with
  | call c =>
    cases c with
    | allocate region size align =>
      simpa [Recorder.use, requests, rewound] using h.allocate region size align category
    | resetHead => simpa [Recorder.use, requests, rewound] using h.resetHead
  | write offset bytes =>
    have hsize : (r.arena.memory.write offset bytes).size = r.arena.memory.size :=
      Memory.size_write ..
    simp only [Recorder.use, requests, rewound, reduceCtorEq, if_false, List.append_nil,
      Nat.add_zero]
    refine ⟨⟨h.kept.head_le, h.kept.watermark_le, ?_⟩, h.counted, h.bounded, ?_, h.top⟩
    · simpa only [Arena.capacity, hsize] using h.kept.tail_le
    · simpa only [Arena.tailUsed, Arena.capacity, hsize] using h.balance

theorem Balanced.run {r : Recorder} {requested : Nat} {heads : List Nat}
    (h : r.Balanced requested heads) (uses : List (Arena.Use × Category)) :
    (r.run uses).Balanced (requested + requests uses) (heads ++ r.rewound uses) := by
  induction uses generalizing r requested heads with
  | nil => simpa [Recorder.run, requests, rewound] using h
  | cons step rest ih =>
    obtain ⟨u, category⟩ := step
    have hrest := ih (h.use category u)
    rw [requests_cons, rewound_cons, ← Nat.add_assoc, ← List.append_assoc]
    exact hrest

/-- A fresh recorder has made one request, for its own block. -/
theorem create_balanced {address : Nat} {buffer : Memory} {r : Recorder}
    (h : (create (Arena.ofBuffer address buffer)).2 = .ok r) : r.Balanced 1 [] := by
  have hempty : ({ arena := Arena.ofBuffer address buffer } : Recorder).Balanced 0 [] :=
    { kept := Arena.ofBuffer_wellKept address buffer
      counted := by simp
      bounded := fun c => by cases c <;> simp [Ledger.get]
      balance := by
        rw [Ledger.sum_empty, ofBuffer_tailUsed]
        rfl
      top := fun _ => rfl }
  have hfirst := hempty.allocate .tail bookkeepingBytes arenaAlignment .allocatorInternal
  unfold create at h
  split at h
  · rename_i heq
    cases h
    rw [heq] at hfirst
    exact hfirst
  · cases h

/-- The account of a run, from the creation of the recorder over any buffer. Every request is
either in the count of a category or failed; no category takes less than was asked of it, nor
fifteen bytes a request more; and all that was taken is at the tail, below the head, or was rewound.
Where every rewind came with nothing below the head, that is what the arena reports as used. -/
theorem create_balances (address : Nat) (buffer : Memory) (r : Recorder)
    (h : (create (Arena.ofBuffer address buffer)).2 = .ok r)
    (uses : List (Arena.Use × Category)) :
    let last := r.run uses
    last.ledger.sum Tally.count + last.failed = 1 + requests uses ∧
    (∀ c, (last.ledger.get c).requested ≤ (last.ledger.get c).used ∧
      (last.ledger.get c).used ≤ (last.ledger.get c).requested + 15 * (last.ledger.get c).count) ∧
    last.ledger.sum Tally.used =
      last.arena.tailUsed + last.arena.head + total (r.rewound uses) ∧
    ((∀ head ∈ r.rewound uses, head = 0) → last.ledger.sum Tally.used = last.arena.used) := by
  intro last
  have hlast := (create_balanced h).run uses
  refine ⟨hlast.counted, hlast.bounded, hlast.balance, ?_⟩
  intro hzero
  have hbalance := hlast.balance
  have hheads : total (r.rewound uses) = 0 := total_eq_zero hzero
  have htop := hlast.top hheads
  simp only [List.nil_append] at hbalance
  simp only [last, Arena.used, Arena.headUsed]
  omega

/-- A block at the head, a refused request, a rewind and a block at the tail. -/
def sampleUses : List (Arena.Use × Category) :=
  [(.call (.allocate .head 10 1), .scratchBufferRequests),
    (.call (.allocate .head 500 4), .evalTensorData),
    (.call .resetHead, .evalTensorData),
    (.call (.allocate .tail 3 8), .opData)]

theorem create_balances_sample :
    ∃ r, (create (Arena.ofBuffer 0 (.replicate 256 0))).2 = .ok r ∧
      (r.run sampleUses).ledger.sum Tally.count + (r.run sampleUses).failed = 1 + 3 ∧
      (r.run sampleUses).ledger.sum Tally.used =
        (r.run sampleUses).arena.tailUsed + (r.run sampleUses).arena.head + 10 := by
  cases h : (create (Arena.ofBuffer 0 (.replicate 256 0))).2 with
  | error e =>
    have hmade : (create (Arena.ofBuffer 0 (.replicate 256 0))).2.toOption.isSome = true := by
      decide +kernel
    rw [h] at hmade
    cases hmade
  | ok r =>
    obtain ⟨hcounted, -, hbalance, -⟩ := create_balances 0 (.replicate 256 0) r h sampleUses
    have hrewound : r.rewound sampleUses = [10] := by
      have hall : (create (Arena.ofBuffer 0 (.replicate 256 0))).2.toOption.map
          (·.rewound sampleUses) = some [10] := by decide +kernel
      rw [h] at hall
      exact Option.some.inj hall
    rw [hrewound] at hbalance
    exact ⟨r, rfl, hcounted, hbalance⟩

end Recorder

end TensorArena
