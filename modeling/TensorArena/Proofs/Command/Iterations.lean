import TensorArena.Command.Run
import TensorArena.Proofs.Reference.Repeat

/-!
# Benches that run a model a number of times

A bench fills its inputs once and is then invoked as often as asked. Its outputs do not depend on how
often, as long as nothing takes the place of an input. Under first fit placement an operator may write
into an input that nobody needs any more, and then the next run starts from something else.
-/

namespace TensorArena
namespace Bench

variable {b b' : Bench} {tables : Tables} {a : Allotment} {meanings : List Meaning} {v : Stores}

/-! ## Filling -/

/-- Filling an input writes as many bytes as it has. -/
theorem fill_ok {index : Nat} {value : Binary} (hserves : b.interpreter.Serves tables a b.site)
    (h : b.fill index value = .ok b') :
    ∃ bytes, b' = { b with site := b.interpreter.feedInput b.site (index, bytes) } ∧
      ∀ id, b.interpreter.graph.inputs[index]? = some id →
        bytes.length = b.interpreter.graph.toGraph.sizeOf id := by
  obtain ⟨handle, hfound, h⟩ := bind_ok h
  have hhandle := mapError_ok hfound
  obtain ⟨filled, hfill, h⟩ := bind_ok h
  obtain ⟨_, -, rfl⟩ := map_ok (mapError_ok hfill)
  cases h
  refine ⟨(handle.slice.fill handle.tensor.dtype.size
    (handle.tensor.dtype.nearestWord value)).bytes, ?_, fun id hin => ?_⟩
  · show _ = { b with site := b.interpreter.feedInput b.site _ }
    unfold Interpreter.feedInput
    rw [hhandle]
    rfl
  · -- The handle is over the whole range of the input.
    obtain ⟨t, hs, -⟩ := Interpreter.stored_of_input b.interpreter.graph.rules hin
    obtain ⟨span, hspan, -, hlen, -, -, hstop⟩ := hserves.lodged.fits.stored hs
    have hwritable := hserves.lodged.writableTensor_eq hserves.state hserves.hold hs hspan
    unfold Interpreter.writableInput Interpreter.lookup at hhandle
    rw [hin] at hhandle
    cases hwritable.symm.trans hhandle
    rw [Graph.sizeOf_eq hs.1, ← hlen]
    exact (Bytes.length_overlay ..).trans
      (b.site.memory.length_read_of_le (Nat.le_trans hstop hserves.lodged.start_le))

/-- Filling inputs one after the other writes each of them. -/
theorem fillInputs_ok {values : List Binary} {rest index : Nat} {p p' : Progress}
    (hserves : b.interpreter.Serves tables a b.site)
    (h : ExceptT.run (Report.fillInputs values b rest index) p = (.ok b', p')) :
    ∃ writes : List (Nat × Bytes),
      b' = { b with site := writes.foldl b.interpreter.feedInput b.site } ∧
      (∀ k bytes id, (k, bytes) ∈ writes → b.interpreter.graph.inputs[k]? = some id →
        bytes.length = b.interpreter.graph.toGraph.sizeOf id) ∧
      ∀ k < rest, ∃ bytes, (index + k, bytes) ∈ writes := by
  induction rest generalizing b index p with
  | zero =>
    cases h
    exact ⟨[], rfl, nofun, nofun⟩
  | succ rest ih =>
    obtain ⟨b₁, p₁, hneed, hrest⟩ := Step.bind_ok h
    obtain ⟨_, p₂, -, hrest⟩ := Step.bind_ok hrest
    obtain ⟨hfilled, -⟩ := Step.liftExcept_ok hneed
    obtain ⟨bytes, rfl, hlen⟩ := fill_ok hserves (mapError_ok hfilled)
    have hsizes : ∀ k bytes' id, (k, bytes') ∈ [(index, bytes)] →
        b.interpreter.graph.inputs[k]? = some id →
        bytes'.length = b.interpreter.graph.toGraph.sizeOf id := by
      intro k bytes' id hmem hin
      cases List.mem_singleton.mp hmem
      exact hlen id hin
    obtain ⟨hwrote, -⟩ := hserves.lodged.feed_tracks hserves.state hserves.hold hsizes
    obtain ⟨writes, hb', hwrites, hall⟩ :=
      ih (b := { b with site := b.interpreter.feedInput b.site (index, bytes) })
        (hserves.wrote hwrote) hrest
    refine ⟨(index, bytes) :: writes, hb', ?_, ?_⟩
    · intro k bytes' id hmem hin
      rcases List.mem_cons.mp hmem with heq | hmem
      · exact hsizes k bytes' id (List.mem_singleton.mpr heq) hin
      · exact hwrites k bytes' id hmem hin
    · intro k hk
      cases k with
      | zero => exact ⟨bytes, List.mem_cons_self⟩
      | succ k =>
        obtain ⟨bytes', hmem⟩ := hall k (Nat.lt_of_succ_lt_succ hk)
        rw [Nat.succ_add_eq_add_succ] at hmem
        exact ⟨bytes', List.mem_cons_of_mem _ hmem⟩

/-! ## Invoking -/

theorem invokeTimes_succ_ok {n : Nat} (h : b.invokeTimes (n + 1) = (.ok (), b')) :
    ∃ i s, b.interpreter.invoke b.site = (.ok (), i, s) ∧
      (Bench.mk i s).invokeTimes n = (.ok (), b') := by
  unfold invokeTimes invoke at h
  cases hinvoke : b.interpreter.invoke b.site with
  | mk answer rest =>
    rw [hinvoke] at h
    cases answer with
    | ok _ => exact ⟨rest.1, rest.2, rfl, h⟩
    | error e => cases h

/-- However often a bench is invoked, it ends up with the outputs of one run. -/
theorem follows_of_invokeTimes (hr : b.interpreter.Repeats a meanings)
    (h : b.interpreter.Follows tables a (fun id => id ∈ b.interpreter.graph.inputs) v b.site)
    {n : Nat} (hrun : b.invokeTimes (n + 1) = (.ok (), b')) :
    b'.interpreter = b.interpreter ∧
      b.interpreter.Follows tables a
        (b.interpreter.graph.toGraph.LiveOrInput b.interpreter.graph.operators.length)
        (b.interpreter.afterRun meanings v) b'.site := by
  induction n generalizing b with
  | zero =>
    obtain ⟨i, s, hinvoke, hrest⟩ := invokeTimes_succ_ok hrun
    cases hrest
    have hstep := hr.invoke h (by rw [hinvoke])
    rw [hinvoke] at hstep
    exact hstep
  | succ n ih =>
    obtain ⟨i, s, hinvoke, hrest⟩ := invokeTimes_succ_ok hrun
    have hstep := hr.invoke h (by rw [hinvoke])
    rw [hinvoke] at hstep
    obtain ⟨hsame, hran⟩ := hstep
    dsimp only at hsame hran
    subst hsame
    exact ih (b := ⟨b.interpreter, s⟩) hr (hr.rewind h hran) hrest

/-! ## Interpreters whose inputs last -/

section Lasting

variable {i i₁ : Interpreter Unit Timing} {s s₁ : Site Unit Timing}

/-- An interpreter of a graph without state that has not been allocated, and that will place its
activations one after the other; or the last operator still needs every graph input. -/
structure Lasting (i : Interpreter Unit Timing) : Prop where
  made : i.Made
  created : i.state = .created
  stateless : ∀ op ∈ i.graph.operators, op.Stateless i.graph.toGraph
  computed : i.graph.toGraph.Computed i.kernels
    (i.graph.operators.map (Operator.meaning i.graph.toGraph))
  placed : i.strategy = .linear ∨ i.strategy = .firstFit ∧
    ∀ id ∈ i.graph.inputs, i.graph.operators.length - 1 ∈ i.graph.toGraph.touches id

theorem Lasting.strategy_sound (h : Lasting i) : i.strategy.Sound := by
  rcases h.placed with heq | ⟨heq, -⟩
  · rw [heq]
    exact Strategy.linear_sound
  · rw [heq]
    exact Strategy.firstFit_sound

/-- Creating an interpreter with the sample kernels and setting it to linear placement makes one. -/
theorem lasting_of_create {g : CheckedGraph} {s s' : Site Unit Timing}
    (h : Interpreter.create g (Registry.samples id).resolver s = (.ok i, s'))
    (hstateless : ∀ op ∈ g.operators, op.Stateless g.toGraph) :
    Lasting { i with strategy := .linear } := by
  have hcomputed := Interpreter.computed_of_create h hstateless
  obtain ⟨hmade, rfl, hcreated, -⟩ := Interpreter.create_ok h
  exact ⟨⟨hmade.kernels_length, hmade.inputs, hmade.outputs⟩, hcreated, hstateless, hcomputed,
    .inl rfl⟩

/-- Allocating it gives an interpreter that repeats itself, and that follows the reference from its
start. -/
theorem Lasting.allocate_ok (h : Lasting i) (hs : s.Sound)
    (hallocate : i.allocate s = (.ok (), i₁, s₁)) :
    ∃ tables a, i₁ = { i with state := .allocated tables } ∧
      i₁.Repeats a (i.graph.operators.map (Operator.meaning i.graph.toGraph)) ∧
      i₁.Follows tables a (fun _ => False)
        (.start i.graph.toGraph (i.graph.operators.map (Operator.meaning i.graph.toGraph))) s₁ := by
  have hallocating := Interpreter.allocating i hs h.made.kernels_length h.strategy_sound
  rw [hallocate] at hallocating
  cases hallocating with
  | stayed hstayed => exact absurd h.created (hstayed rfl)
  | done _ hhold hcommitted hquiet =>
    rename_i tables a _ _
    obtain ⟨hstart, hprepared⟩ :=
      Interpreter.follows_of_committed hs hhold hcommitted hquiet h.computed
    refine ⟨tables, a, rfl, ⟨h.computed, hprepared, ?_, ?_, ?_⟩, hstart⟩
    · rcases h.placed with heq | ⟨-, hneeded⟩
      · rw [heq] at hcommitted
        exact hcommitted.keepsInputs i.graph.rules
      · exact Allotment.keepsInputs_of_needed i.graph.rules hcommitted.fits hneeded
    · exact fun op hop => (h.stateless op hop).noVariable
    · intro f hf
      obtain ⟨op, -, rfl⟩ := List.mem_map.mp hf
      exact op.meaning_stateless i.graph.toGraph

/-- After all inputs were written once, any two numbers of invocations that succeed lead to the same
outputs. -/
theorem output_of_invokeTimes_eq (h : Lasting i) (hs : s.Sound)
    (hallocate : i.allocate s = (.ok (), i₁, s₁)) {writes : List (Nat × Bytes)}
    (hfull : i.graph.toGraph.Full writes) {m n : Nat} {b₁ b₂ : Bench}
    (hm : (Bench.mk i₁ (writes.foldl i₁.feedInput s₁)).invokeTimes (m + 1) = (.ok (), b₁))
    (hn : (Bench.mk i₁ (writes.foldl i₁.feedInput s₁)).invokeTimes (n + 1) = (.ok (), b₂))
    (index : Nat) : b₁.output index = b₂.output index := by
  obtain ⟨tables, a, rfl, hrepeats, hstart⟩ := h.allocate_ok hs hallocate
  have hfed := hstart.feed hfull
  obtain ⟨hsame₁, hfirst⟩ := follows_of_invokeTimes hrepeats hfed hm
  obtain ⟨hsame₂, hsecond⟩ := follows_of_invokeTimes hrepeats hfed hn
  have hmade : Interpreter.Made { i with state := .allocated tables } :=
    ⟨h.made.kernels_length, h.made.inputs, h.made.outputs⟩
  unfold Bench.output
  rw [hsame₁, hsame₂, hfirst.output_eq hsecond hmade index]

/-- Invoking again changes no output: after the command has filled the inputs, it shows the same
outputs however often it invokes. -/
theorem output_of_fillInputs_eq (h : Lasting i) (hs : s.Sound)
    (hallocate : i.allocate s = (.ok (), i₁, s₁)) {values : List Binary} {p p' : Progress}
    (hfill : ExceptT.run (Report.fillInputs values ⟨i₁, s₁⟩ i.graph.inputs.length 0) p = (.ok b, p'))
    {m n : Nat} {b₁ b₂ : Bench} (hm : b.invokeTimes (m + 1) = (.ok (), b₁))
    (hn : b.invokeTimes (n + 1) = (.ok (), b₂)) (index : Nat) :
    b₁.output index = b₂.output index := by
  obtain ⟨tables, a, hi₁, -, hstart⟩ := h.allocate_ok hs hallocate
  obtain ⟨writes, rfl, hsizes, hall⟩ := fillInputs_ok hstart.toServes hfill
  have hgraph : i₁.graph = i.graph := by rw [hi₁]
  have hfull : i.graph.toGraph.Full writes := by
    refine ⟨?_, fun index hindex => ?_⟩
    · rw [hgraph] at hsizes
      exact fun index bytes id => hsizes index bytes id
    · obtain ⟨bytes, hmem⟩ := hall index hindex
      rw [Nat.zero_add] at hmem
      exact ⟨bytes, hmem⟩
  exact output_of_invokeTimes_eq h hs hallocate hfull hm hn index

end Lasting

/-! ## A chain of two sums -/

/-- The chain, allocated in a small arena. -/
def chainStart (strategy : Strategy) :
    Except AllocationError Unit × Interpreter Unit Timing × Site Unit Timing :=
  (Interpreter.chain strategy).allocate (.ofBuffer 0 (.replicate 112 0) () { most := 0 })

/-- The command filling the input of the chain with 21. -/
def chainFill (strategy : Strategy) : Except String Bench × Progress :=
  ExceptT.run (Report.fillInputs [Format.double.ofNat 21]
    ⟨(chainStart strategy).2.1, (chainStart strategy).2.2⟩ 1 0) {}

/-- The chain with 21 in its input. -/
def chainFed (strategy : Strategy) : Bench :=
  (chainFill strategy).1.toOption.getD ⟨(chainStart strategy).2.1, (chainStart strategy).2.2⟩

/-- What the chain shows after so many runs. -/
def chainShown (strategy : Strategy) (n : Nat) : Option (List Nat) :=
  (((chainFed strategy).invokeTimes n).2.output 0).toOption.map Prod.snd

theorem chainFill_eq {strategy : Strategy} (h : (chainFill strategy).1.isOk = true) :
    chainFill strategy = (.ok (chainFed strategy), (chainFill strategy).2) := by
  unfold chainFed
  cases hfill : chainFill strategy with
  | mk answer p =>
    rw [hfill] at h
    cases answer with
    | ok b => rfl
    | error e => cases h

/-- Under linear placement the chain shows the same after one run and after two. -/
theorem chain_linear_output_eq :
    ((chainFed .linear).invokeTimes 1).2.output 0 = ((chainFed .linear).invokeTimes 2).2.output 0 := by
  have hcreate : Interpreter.create ⟨Graph.fourfold, rfl⟩ (Registry.samples id).resolver
      (.ofBuffer 0 (.replicate 112 0) () { most := 0 } : Site Unit Timing) =
        (.ok (Interpreter.chain .firstFit), _) := rfl
  have hlasting : Lasting (Interpreter.chain .linear) := lasting_of_create hcreate (by decide)
  have hstart : (Interpreter.chain .linear).allocate (.ofBuffer 0 (.replicate 112 0) () { most := 0 }) =
      (.ok (), (chainStart .linear).2.1, (chainStart .linear).2.2) :=
    Prod.ext (show (chainStart .linear).1 = _ by decide +kernel) (Prod.eta _).symm
  have hfill := chainFill_eq (show (chainFill .linear).1.isOk = true by decide +kernel)
  have hruns : ∀ n ∈ [1, 2], (chainFed .linear).invokeTimes n =
      (.ok (), ((chainFed .linear).invokeTimes n).2) := by
    intro n hn
    refine Prod.ext ?_ rfl
    revert n
    decide +kernel
  exact output_of_fillInputs_eq hlasting (Site.ofBuffer_sound ..) hstart hfill
    (hruns 1 (by simp)) (hruns 2 (by simp)) 0

/-- First fit puts the second sum on the input, so a second run starts from the result of the first. -/
theorem chain_firstFit_changes :
    ((chainFed .firstFit).invokeTimes 2).1 = .ok () ∧ chainShown .firstFit 1 = some [84] ∧
      chainShown .firstFit 2 = some [336] := by
  rw [Strategy.firstFit_eq]
  decide +kernel

end Bench

end TensorArena
