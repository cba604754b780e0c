import TensorArena.Kernel.Sample
import TensorArena.Proofs.Reference.Stateless

/-!
# The kernel with a state is a function

The sample kernel that reports the median of its input and counts its runs keeps to `Kernel.Computes`,
over any graph that gives it one input and two outputs. It sorts in a scratch block, so the input stays
as it is, and its count is in the persistent data, which start at zero. The section on words is
about bytes that are filled with one word.
-/

namespace TensorArena

variable {σ : Type}

/-! ## Words -/

namespace Bytes

/-- So many bytes, filled with one word. -/
def filled (size width w : Nat) : Bytes :=
  laid size width (List.replicate (size / width) w)

@[simp]
theorem length_filled (size width w : Nat) : (filled size width w).length = size :=
  length_laid ..

theorem filled_zero (size width : Nat) : filled size width 0 = List.replicate size 0 := by
  have hwords : ofWords width (List.replicate (size / width) 0) =
      List.replicate (size / width * width) 0 := by
    rw [ofWords, List.flatMap_replicate, ofNat_zero, List.flatten_replicate_replicate]
  rw [filled, laid, hwords, overlay, List.take_replicate, List.drop_replicate, List.length_replicate,
    List.length_replicate, List.replicate_append_replicate]
  congr 1
  omega

/-- Words that fill the bytes are all that is in them. -/
theorem laid_eq {size width : Nat} {ws : List Nat} (h : ws.length * width = size) :
    laid size width ws = ofWords width ws := by
  apply overlay_eq
  rw [length_ofWords, List.length_replicate, h]

theorem words_filled {size width w : Nat} (hwidth : 0 < width) (hdvd : width ∣ size)
    (hw : w < 256 ^ width) :
    words width (filled size width w) = List.replicate (size / width) w := by
  have hfull : (List.replicate (size / width) w).length * width = size := by
    rw [List.length_replicate, Nat.div_mul_cancel hdvd]
  rw [filled, laid_eq hfull, words_ofWords hwidth]
  intro w' hw'
  rwa [List.eq_of_mem_replicate hw']

end Bytes

theorem Slice.bytes_fill {s : Slice} {width : Nat} (hdvd : width ∣ s.bytes.length) (w : Nat) :
    (s.fill width w).bytes = Bytes.filled s.bytes.length width w := by
  apply Bytes.overlay_ofWords
  rw [List.length_replicate, Nat.div_mul_cancel hdvd]

/-! ## What the kernel asks for -/

/-- Persistent data that are asked for and filled once hold afterwards what they were filled with. -/
theorem Preparation.persistent_ok {π : Type} {size : Nat} {fill : Bytes → Bytes} {g grant : Grant}
    {s s' : Site σ π} (hs : s.Sound)
    (h : (Preparation.persistent size fill (fun _ => .done) .fail).run g s = (.ok grant, s'))
    (hfill : ∀ bytes, (fill bytes).length = bytes.length) :
    grant.scratch = g.scratch ∧ ∃ before : Bytes, before.length = size ∧
      (grant.userData.map s'.memory.piece).getD [] = fill before := by
  unfold Preparation.run at h
  split at h
  · cases h
  · split at h
    · cases h
    · rename_i offset s₁ hgranted
      obtain ⟨hsince, htook, -⟩ := Site.allocate_tail_ok hgranted hs
      have hstop : offset + size ≤ s₁.memory.size :=
        Nat.le_trans htook.stop_le (Nat.le_trans hs.kept.tail_le (Nat.le_of_eq hsince.size_eq.symm))
      have hread : s₁.store.memory.read? offset size = some (s₁.memory.read offset size) :=
        if_pos hstop
      rw [hread] at h
      cases h
      have hbefore : (s₁.memory.read offset size).length = size :=
        s₁.memory.length_read_of_le hstop
      have hlen : (fill (s₁.memory.read offset size)).length = size := by
        rw [hfill, hbefore]
      refine ⟨rfl, _, hbefore, ?_⟩
      rw [Option.map_some, Option.getD_some, Site.memory_mapMemory, List.take_of_length_le (by omega)]
      exact Memory.piece_write_self (r := ⟨offset, size⟩) _ hlen hstop

namespace SampleKernel

/-- The kernel asks for one scratch block, and leaves its count at zero. -/
theorem simpleStateful_prepares {free : σ → σ} {signature : Signature} {grant : Grant} {data : Bytes}
    (h : (simpleStateful free).Prepares signature grant data) :
    grant.scratch.length = 1 ∧ data = List.replicate DType.i32.size 0 := by
  obtain ⟨π, s, s', hs, hrun, rfl⟩ := h
  change (simpleStatefulPreparation signature).run {} s = _ at hrun
  unfold simpleStatefulPreparation at hrun
  split at hrun
  · cases hrun
  · rename_i input hinput
    split at hrun
    · cases hrun
    · obtain ⟨hscratch, before, hlen, hdata⟩ := Preparation.persistent_ok hs hrun fun _ => List.length_map ..
      rw [hdata, List.map_const', hlen]
      exact ⟨congrArg List.length hscratch, rfl⟩

/-! ## What a run does -/

/-- The element in the middle of the bytes, when they are sorted. -/
def median (bytes : Bytes) : Nat :=
  let sorted := (Bytes.words DType.u8.size bytes).mergeSort
  (sorted[sorted.length / 2]?).getD 0

/-- The count after one run more. -/
def nextCount (persistent : Bytes) : Nat :=
  ((Bytes.words DType.i32.size persistent).headD 0 + 1) % DType.i32.modulus

/-- Reporting as a function of the input and the persistent data: a variable that is the input stays
as it is. -/
def reporting (g : Graph) (x y z : Nat) : Meaning where
  initial := List.replicate DType.i32.size 0
  apply inputs persistent :=
    let bytes := argument inputs 0
    ⟨(if g.IsVar x then [Bytes.overlay (List.replicate (g.sizeOf x) 0) bytes] else []) ++
        [Bytes.filled (g.sizeOf y) DType.u8.size (median bytes),
          Bytes.filled (g.sizeOf z) DType.i32.size (nextCount persistent)],
      Bytes.overlay persistent (Bytes.ofWords DType.i32.size [nextCount persistent])⟩

variable {o after : Operands} {outside outside' : σ}

/-- The operands when the block is sorted and the runs are counted. -/
def counted (o : Operands) (block : Slice) : Operands :=
  { o.setScratch 0 (block.store DType.u8.size
      (Bytes.words DType.u8.size (argument (o.inputs.map Input.bytes) 0)).mergeSort) with
    userData := o.userData.store DType.i32.size [nextCount o.userData.bytes] }

/-- The scratch block and the persistent data are written first, and then both outputs are filled. -/
theorem simpleStateful_ok {free : σ → σ}
    (h : (simpleStateful free).invoke.run (o, outside) = (.ok (), after, outside')) :
    ∃ block out out', o.scratch[0]? = some block ∧ o.output 0 = .ok out ∧
      DType.u8.size ∣ out.slice.bytes.length ∧
      let once := (counted o block).setOutput 0
        (out.slice.fill DType.u8.size (median (argument (o.inputs.map Input.bytes) 0)))
      once.output 1 = .ok out' ∧ DType.i32.size ∣ out'.slice.bytes.length ∧
        after = once.setOutput 1 (out'.slice.fill DType.i32.size (nextCount o.userData.bytes)) := by
  -- Step by step, since the run succeeded.
  obtain ⟨view, _, h₁, h⟩ := Step.bind_ok h
  obtain ⟨hview, rfl⟩ := KernelM.look_ok h₁
  obtain ⟨_, _, h₂, h⟩ := Step.bind_ok h
  obtain ⟨rfl, -, rfl⟩ := KernelM.elements_ok h₂
  obtain ⟨block, _, h₃, h⟩ := Step.bind_ok h
  obtain ⟨hblock, rfl⟩ := KernelM.look_ok h₃
  rw [Operands.input_ok hview] at h
  dsimp only at h hblock
  split at h
  · cases h
  · obtain ⟨_, _, h₄, h⟩ := Step.bind_ok h
    obtain rfl := KernelM.change_ok h₄
    obtain ⟨_, _, h₅, h⟩ := Step.bind_ok h
    obtain ⟨hdata, rfl⟩ := KernelM.look_ok h₅
    cases hdata
    obtain ⟨counts, _, h₆, h⟩ := Step.bind_ok h
    obtain ⟨hcounts, rfl⟩ := Step.liftExcept_ok h₆
    obtain ⟨-, -, hwords⟩ := Slice.elements_ok (mapError_ok hcounts)
    split at h
    · cases h
    · rename_i count rest
      have hcount : (count + 1) % DType.i32.modulus = nextCount o.userData.bytes := by
        rw [nextCount]
        rw [Operands.userData_setScratch] at hwords
        rw [← hwords]
        rfl
      rw [hcount] at h
      obtain ⟨_, _, h₇, h⟩ := Step.bind_ok h
      obtain rfl := KernelM.change_ok h₇
      obtain ⟨out, _, h₈, h⟩ := Step.bind_ok h
      obtain ⟨hout, rfl⟩ := KernelM.look_ok h₈
      obtain ⟨_, _, h₉, h⟩ := Step.bind_ok h
      obtain ⟨hdvd, rfl⟩ := KernelM.fillOutput_ok h₉
      obtain ⟨out', _, h₁₀, h⟩ := Step.bind_ok h
      obtain ⟨hout', rfl⟩ := KernelM.look_ok h₁₀
      obtain ⟨hdvd', hafter⟩ := KernelM.fillOutput_ok h
      exact ⟨block, out, out', Operands.scratchBlock_ok hblock, hout, hdvd, hout', hdvd',
        congrArg Prod.fst hafter⟩

/-- What is left in everything that the kernel may write, when it is handed an input and two
outputs. -/
theorem simpleStateful_run {free : σ → σ} {op : Operator} {input : Input} {t u : Tensor}
    {first second block userData : Slice} {context : Option Int}
    (h : (simpleStateful free).invoke.run
      (⟨op, [input], [some (t, first), some (u, second)], [block], userData, context⟩, outside) =
        (.ok (), after, outside')) :
    ∃ sorted : Bytes, sorted.length = block.bytes.length ∧
      after.writable.map (fun slice => slice.bytes) =
        ([input].filterMap Input.writable).map (fun slice => slice.bytes) ++
          [Bytes.filled t.size DType.u8.size (median (argument [input.bytes] 0)),
            Bytes.filled u.size DType.i32.size (nextCount userData.bytes)] ++
          [sorted] ++
          [Bytes.overlay userData.bytes (Bytes.ofWords DType.i32.size [nextCount userData.bytes])] := by
  obtain ⟨_, out, out', hblock, hout, hdvd, hout', hdvd', rfl⟩ := simpleStateful_ok h
  cases hblock
  obtain ⟨hout, houtlen⟩ := Tensor.viewOf_ok (Operands.output_ok rfl hout)
  obtain ⟨hout', houtlen'⟩ := Tensor.viewOf_ok (Operands.output_ok rfl hout')
  refine ⟨Bytes.overlay block.bytes (Bytes.ofWords DType.u8.size
    (Bytes.words DType.u8.size (argument [input.bytes] 0)).mergeSort), Bytes.length_overlay .., ?_⟩
  rw [← houtlen, ← houtlen', ← hout, ← hout', ← Slice.bytes_fill hdvd, ← Slice.bytes_fill hdvd']
  simp only [Operands.writable, List.map_append]
  rfl

/-- A run that succeeds has read as many bytes as its input tensor has. -/
theorem simpleStateful_sized {free : σ → σ} {g : Graph} {op : Operator} {grant : Grant} {x : Nat}
    (hinputs : op.inputs = [some x]) (hfits : o.Fits g op grant)
    (h : (simpleStateful free).invoke.run (o, outside) = (.ok (), after, outside')) :
    (argument (o.inputs.map Input.bytes) 0).length = g.sizeOf x := by
  obtain ⟨view, _, h₁, -⟩ := Step.bind_ok h
  obtain ⟨hinput, -⟩ := KernelM.look_ok h₁
  obtain ⟨t, slice, hview, hin⟩ := Operands.viewOf_input hinput
  have hlen := (Tensor.viewOf_ok hview).2
  have hfirst := hfits.inputs
  rw [hinputs] at hfirst
  obtain ⟨input, _, hinput, -, heq⟩ := List.forall₂_cons_left_iff.mp hfirst
  rw [heq] at hin ⊢
  rcases hin with hin | hin
  · cases hin
    rw [Graph.sizeOf_eq hinput.1]
    exact hlen
  · cases hin
    rw [Graph.sizeOf_eq hinput.1]
    exact hlen

/-- A variable that is the input is written back with the bytes that it had. -/
theorem written_of_fits {g : Graph} {x : Nat} {input : Input} (h : Input.Fits g (some x) input) :
    ([input].filterMap Input.writable).map (fun slice => slice.bytes) =
      if g.IsVar x then
        [Bytes.overlay (List.replicate (g.sizeOf x) 0) (argument [input.bytes] 0)] else [] := by
  cases input with
  | absent => exact h.elim
  | shared t slice =>
    rw [if_neg h.2.1]
    rfl
  | var t slice =>
    obtain ⟨ht, hvar, -, hbytes⟩ := h
    have hkind := (Operator.isVar_iff ht).mp hvar
    rw [(Tensor.data_of_kind_var hkind).1] at hbytes
    have hlen : slice.bytes.length = (List.replicate (g.sizeOf x) (0 : UInt8)).length := by
      rw [hbytes, List.length_replicate, Graph.sizeOf_eq ht]
    rw [if_pos hvar]
    show [slice.bytes] = [Bytes.overlay _ slice.bytes]
    rw [Bytes.overlay_eq hlen]

theorem simpleStateful_targets {g : Graph} {op : Operator} {x y z : Nat} (hinputs : op.inputs = [some x])
    (houtputs : op.outputs = [some y, some z]) :
    op.targets g = (if g.IsVar x then [x] else []) ++ [y, z] := by
  have hread : op.inputIds = [x] := by
    rw [Operator.inputIds, hinputs]
    rfl
  have hwritten : op.outputIds = [y, z] := by
    rw [Operator.outputIds, houtputs]
    rfl
  rw [Operator.targets, hread, hwritten]
  by_cases hx : g.IsVar x
  · simp [hx]
  · simp [hx]

/-- The kernel is described by a function. -/
theorem simpleStateful_computes (free : σ → σ) {g : Graph} {op : Operator} {x y z : Nat}
    (hinputs : op.inputs = [some x]) (houtputs : op.outputs = [some y, some z]) :
    (simpleStateful free).Computes g op (reporting g x y z) where
  initial grant data h := (simpleStateful_prepares h).2
  sizes inputs persistent := by
    rw [simpleStateful_targets hinputs houtputs]
    refine ⟨?_, Bytes.length_overlay ..⟩
    unfold reporting
    by_cases hx : g.IsVar x
    · simp [hx, Bytes.length_overlay]
    · simp [hx]
  results grant data h o outside after outside' hfits hrun := by
    obtain ⟨hone, -⟩ := simpleStateful_prepares h
    obtain ⟨operator, inputs, outputs, scratch, userData, context⟩ := o
    obtain ⟨rfl, hin, hout, hscratch, -, -, -⟩ := hfits
    -- One input, two outputs and one block were handed over.
    dsimp only at hin hout hscratch
    rw [hinputs] at hin
    rw [houtputs] at hout
    obtain ⟨input, _, hinput, hnone, rfl⟩ := List.forall₂_cons_left_iff.mp hin
    obtain rfl := List.forall₂_nil_left_iff.mp hnone
    obtain ⟨_, _, hfirst, hrest, rfl⟩ := List.forall₂_cons_left_iff.mp hout
    obtain ⟨_, _, hsecond, hnone, rfl⟩ := List.forall₂_cons_left_iff.mp hrest
    obtain rfl := List.forall₂_nil_left_iff.mp hnone
    obtain ⟨t, first, rfl, ht⟩ := hfirst.exists_tensor
    obtain ⟨u, second, rfl, hu⟩ := hsecond.exists_tensor
    obtain ⟨block, rfl⟩ : ∃ block, scratch = [block] := by
      rw [← hscratch, List.length_map] at hone
      exact List.length_eq_one_iff.mp hone
    obtain ⟨sorted, hsorted, hafter⟩ := simpleStateful_run hrun
    refine ⟨[sorted], ?_, ?_⟩
    · rw [← hscratch, List.map_singleton, List.map_singleton, hsorted]
    · rw [hafter, ← Graph.sizeOf_eq ht, ← Graph.sizeOf_eq hu, written_of_fits hinput]
      rfl

end SampleKernel

end TensorArena
