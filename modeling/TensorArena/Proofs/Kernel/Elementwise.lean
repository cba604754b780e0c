import TensorArena.Kernel.Elementwise
import TensorArena.Proofs.Graph.Constants
import TensorArena.Proofs.Number.Rounded
import TensorArena.Proofs.Reference.Steps

/-!
# Elementwise kernels

Such a kernel decides from the declarations whether it can run, and when it runs it looks at slices
only: it reads an input at the place of each element of the output, or at its first element throughout.
That none of these places is outside the input depends on the counts that were compared when the
kernel was prepared. `Combines` says what the output then holds, element by element.
-/

namespace TensorArena

/-! ## Steps that succeed -/

namespace Step

variable {ε τ α β : Type} {st st₁ : τ}

/-- A step that succeeds is followed by the next one. -/
theorem run_bind_ok {x : ExceptT ε (StateM τ) α} {f : α → ExceptT ε (StateM τ) β} {a : α}
    (h : x.run st = (.ok a, st₁)) : (x >>= f).run st = (f a).run st₁ := by
  rw [run_bind, h]

theorem run_liftExcept {x : Except ε α} {a : α} (h : x = .ok a) :
    (liftExcept x : ExceptT ε (StateM τ) α).run st = (.ok a, st) := by
  rw [h]
  rfl

end Step

namespace KernelM

variable {σ α : Type} {o : Operands} {outside : σ} {v : View} {d : DType}

theorem run_look {f : Operands → Except KernelError α} {a : α} (h : f o = .ok a) :
    (look f : KernelM σ α).run (o, outside) = (.ok a, o, outside) :=
  Step.run_liftExcept h

theorem run_elements {ws : List Nat} (h : v.elements d = .ok ws) :
    (elements v d : KernelM σ (List Nat)).run (o, outside) = (.ok ws, o, outside) :=
  Step.run_liftExcept (by rw [h]; rfl)

/-- An output can be set when it can be read. -/
theorem run_storeOutput {os : List Nat} (h : v.elements d = .ok os) (i : Nat) (ws : List Nat) :
    (storeOutput i v d ws : KernelM σ Unit).run (o, outside) =
      (.ok (), o.setOutput i (v.slice.store d.size ws), outside) :=
  Step.run_bind_ok (run_elements h)

end KernelM

/-! ## Integers that wrap around -/

namespace DType

variable {d : DType}

/-- The integer of the word is an exact result, brought into the range of the type. -/
structure Wraps (d : DType) (exact : Int) (w : Nat) : Prop where
  least_le : d.least ≤ d.toInt w
  le_greatest : d.toInt w ≤ d.greatest
  emod_eq : d.toInt w % d.modulus = exact % d.modulus

theorem toInt_emod (d : DType) (w : Nat) : d.toInt w % d.modulus = w % d.modulus := by
  unfold toInt
  split
  · exact Int.sub_emod_right ..
  · rfl

/-- A word of the type stands for an integer of its range. -/
theorem toInt_mem_range {w : Nat} (hw : w < d.modulus) :
    d.least ≤ d.toInt w ∧ d.toInt w ≤ d.greatest := by
  simp only [least, greatest, toInt, modulus_eq] at *
  cases d with
  | _ =>
    simp only [isSigned, size, if_true, if_false, Bool.false_eq_true, true_and, false_and] at *
    omega

theorem Wraps.of_lt {exact : Int} {w : Nat} (hw : w < d.modulus)
    (h : (w : Int) % d.modulus = exact % d.modulus) : d.Wraps exact w :=
  ⟨(toInt_mem_range hw).1, (toInt_mem_range hw).2, (toInt_emod d w).trans h⟩

end DType

namespace Arithmetic

variable {op : Arithmetic} {d : DType} {a b w : Nat}

/-- The operation on integers of any size. -/
def exact : Arithmetic → Int → Int → Int
  | add, x, y => x + y
  | mul, x, y => x * y

/-- The word is the result of the operation on two others. -/
structure Gives (op : Arithmetic) (d : DType) (a b w : Nat) : Prop where
  word_eq : w = op.apply d a b
  wraps : d ≠ .f32 → d.Wraps (op.exact (d.toInt a) (d.toInt b)) w

theorem onIntegers_lt (op : Arithmetic) (d : DType) (a b : Nat) : op.onIntegers d a b < d.modulus := by
  have hpos : 0 < d.modulus := Nat.two_pow_pos _
  cases op with
  | add => exact Nat.mod_lt _ hpos
  | mul => exact Nat.mod_lt _ hpos

theorem onIntegers_emod (op : Arithmetic) (d : DType) (a b : Nat) :
    (op.onIntegers d a b : Int) % d.modulus = op.exact (d.toInt a) (d.toInt b) % d.modulus := by
  cases op with
  | add =>
    rw [onIntegers, exact, Int.add_emod (d.toInt a), d.toInt_emod, d.toInt_emod, ← Int.add_emod,
      Int.natCast_mod, Int.emod_emod, Nat.cast_add]
  | mul =>
    rw [onIntegers, exact, Int.mul_emod (d.toInt a), d.toInt_emod, d.toInt_emod, ← Int.mul_emod,
      Int.natCast_mod, Int.emod_emod, Nat.cast_mul]

theorem apply_gives (op : Arithmetic) (d : DType) (a b : Nat) : op.Gives d a b (op.apply d a b) := by
  refine ⟨rfl, fun hd => ?_⟩
  rw [apply, if_neg hd]
  exact .of_lt (op.onIntegers_lt d a b) (op.onIntegers_emod d a b)

/-- Words of 32-bit floats have 32 bits. -/
theorem onFloats_lt (ha : a < 2 ^ 32) (hb : b < 2 ^ 32) : op.onFloats a b < 2 ^ 32 := by
  have hprecision : 0 < Format.single.precision := by decide
  have hrange : Format.single.least ≤ Format.single.greatest := by decide
  cases op with
  | add => exact Format.onWords_single_lt (Format.holds_add hprecision hrange) ha hb
  | mul => exact Format.onWords_single_lt (Format.holds_mul hprecision hrange) ha hb

/-- No result is cut off when it is stored. -/
theorem apply_lt (ha : a < 256 ^ d.size) (hb : b < 256 ^ d.size) :
    op.apply d a b < 256 ^ d.size := by
  unfold apply
  split
  · rename_i hd
    subst hd
    exact onFloats_lt ha hb
  · rw [← d.modulus_eq]
    exact op.onIntegers_lt d a b

end Arithmetic

namespace Elementwise

variable {op : Arithmetic} {d : DType} {σ : Type}

/-! ## Broadcasting -/

/-- Where an input is read for an element of an output that has `n` of them. -/
def place (n : Nat) (ws : List Nat) (k : Nat) : Nat :=
  if ws.length = n then k else 0

/-- Every element of the output comes from an element of each input. -/
def Combines (op : Arithmetic) (d : DType) (ls rs ws : List Nat) : Prop :=
  ∀ k < ws.length, ∃ a b w, ls[place ws.length ls k]? = some a ∧
    rs[place ws.length rs k]? = some b ∧ ws[k]? = some w ∧ op.Gives d a b w

theorem broadcast_ok {n : Nat} {ws : List Nat} (h : ws.length = n ∨ ws.length = 1) :
    ∃ ws', broadcast n ws = .ok ws' ∧ ws'.length = n ∧ (∀ w ∈ ws', w ∈ ws) ∧
      ∀ k < n, ws'[k]? = ws[place n ws k]? := by
  unfold broadcast place
  by_cases hn : ws.length = n
  · rw [if_pos hn]
    exact ⟨ws, rfl, hn, fun _ hw => hw, fun k _ => by rw [if_pos hn]⟩
  · rw [if_neg hn]
    obtain ⟨w, rfl⟩ := List.length_eq_one_iff.mp (h.resolve_left hn)
    refine ⟨List.replicate n w, rfl, List.length_replicate, fun v hv => ?_, fun k hk => ?_⟩
    · rw [List.eq_of_mem_replicate hv]
      exact List.mem_singleton_self w
    · rw [if_neg hn, List.getElem?_replicate_of_lt hk]
      rfl

theorem combines_zipWith {ls rs ls' rs' : List Nat} {n : Nat} (hls : ls'.length = n)
    (hrs : rs'.length = n) (hl : ∀ k < n, ls'[k]? = ls[place n ls k]?)
    (hr : ∀ k < n, rs'[k]? = rs[place n rs k]?) :
    Combines op d ls rs (List.zipWith (op.apply d) ls' rs') := by
  have hlen : (List.zipWith (op.apply d) ls' rs').length = n := by
    rw [List.length_zipWith, hls, hrs, Nat.min_self]
  intro k hk
  rw [hlen] at hk ⊢
  have ha := List.getElem?_eq_getElem (hls ▸ hk : k < ls'.length)
  have hb := List.getElem?_eq_getElem (hrs ▸ hk : k < rs'.length)
  refine ⟨_, _, _, (hl k hk).symm.trans ha, (hr k hk).symm.trans hb, ?_, op.apply_gives d _ _⟩
  rw [List.getElem?_zipWith, ha, hb]

theorem lt_of_mem_zipWith {ls rs : List Nat} (hl : ∀ w ∈ ls, w < 256 ^ d.size)
    (hr : ∀ w ∈ rs, w < 256 ^ d.size) :
    ∀ w ∈ List.zipWith (op.apply d) ls rs, w < 256 ^ d.size := by
  intro w hw
  rw [← List.map_uncurry_zip_eq_zipWith] at hw
  obtain ⟨⟨a, b⟩, hab, rfl⟩ := List.mem_map.mp hw
  obtain ⟨ha, hb⟩ := List.of_mem_zip hab
  exact Arithmetic.apply_lt (hl a ha) (hr b hb)

/-- Words that were read have no more bits than their type. -/
theorem lt_of_elements {v : View} {ws : List Nat} (h : v.elements d = .ok ws) :
    ∀ w ∈ ws, w < 256 ^ d.size := by
  obtain ⟨-, -, rfl⟩ := Slice.elements_ok h
  exact fun w hw => Bytes.words_lt hw

/-! ## Declarations that pass -/

/-- An input suits an output: it has the type, and as many elements or one. -/
structure Suits (t out : Tensor) : Prop where
  dtype_eq : t.dtype = out.dtype
  elements_eq : t.shape.elements = out.shape.elements ∨ t.shape.elements = 1

theorem suits_of_checkInput {t out : Tensor} (h : checkInput op out t = .ok ()) : Suits t out := by
  unfold checkInput at h
  split at h
  · cases h
  · rename_i hdtype
    split at h
    · cases h
    · rename_i helements
      refine ⟨Decidable.not_not.mp hdtype, ?_⟩
      omega

/-- What a signature has to have for the kernel to be prepared. -/
theorem operands_of_check {s : Signature} (h : check op s = .ok ()) :
    ∃ l r out, s.input? 0 = some l ∧ s.input? 1 = some r ∧ s.output? 0 = some out ∧
      supports out.dtype = true ∧ Suits l out ∧ Suits r out := by
  unfold check at h
  split at h
  · cases h
  · cases h
  · cases h
  · rename_i l r out hl hr hout
    dsimp only at h
    split at h
    · cases h
    · rename_i hd
      obtain ⟨_, hleft, hright⟩ := bind_ok h
      exact ⟨l, r, out, hl, hr, hout, Decidable.not_not.mp hd, suits_of_checkInput hleft,
        suits_of_checkInput hright⟩

theorem check_of_prepares {free : σ → σ} {s : Signature} {grant : Grant} {data : Bytes}
    (h : (kernel op free).Prepares s grant data) : check op s = .ok () := by
  obtain ⟨π, site, site', -, hrun, -⟩ := h
  simp only [kernel] at hrun
  split at hrun
  · assumption
  · cases hrun

/-! ## Runs -/

/-- Reading views of the right types in the right places, the kernel succeeds and stores one result for
each element of the output. -/
theorem invoke_eq (op : Arithmetic) (free : σ → σ) {o : Operands} {l r out : View}
    (hl : o.input 0 = .ok l) (hr : o.input 1 = .ok r) (hout : o.output 0 = .ok out)
    (hsupports : supports out.dtype = true)
    {ls rs os : List Nat} (hls : l.elements out.dtype = .ok ls) (hrs : r.elements out.dtype = .ok rs)
    (hos : out.elements out.dtype = .ok os) (hleft : ls.length = os.length ∨ ls.length = 1)
    (hright : rs.length = os.length ∨ rs.length = 1) :
    ∃ ws, ws.length = os.length ∧ (∀ w ∈ ws, w < 256 ^ out.dtype.size) ∧
      Combines op out.dtype ls rs ws ∧ ∀ outside : σ,
        (kernel op free).invoke.run (o, outside) =
          (.ok (), o.setOutput 0 (out.slice.store out.dtype.size ws), outside) := by
  obtain ⟨ls', hl', hllen, hlmem, hlget⟩ := broadcast_ok hleft
  obtain ⟨rs', hr', hrlen, hrmem, hrget⟩ := broadcast_ok hright
  refine ⟨List.zipWith (op.apply out.dtype) ls' rs', ?_, ?_,
    combines_zipWith hllen hrlen hlget hrget, fun outside => ?_⟩
  · rw [List.length_zipWith, hllen, hrlen, Nat.min_self]
  · exact lt_of_mem_zipWith (fun w hw => lt_of_elements hls w (hlmem w hw))
      fun w hw => lt_of_elements hrs w (hrmem w hw)
  · refine (Step.run_bind_ok (KernelM.run_look hout)).trans ?_
    rw [if_pos hsupports]
    unfold run
    -- Both inputs are read before the output is looked at for its length.
    refine (Step.run_bind_ok (KernelM.run_look hl)).trans ?_
    refine (Step.run_bind_ok (KernelM.run_elements hls)).trans ?_
    refine (Step.run_bind_ok (KernelM.run_look hr)).trans ?_
    refine (Step.run_bind_ok (KernelM.run_elements hrs)).trans ?_
    refine (Step.run_bind_ok (KernelM.run_look hout)).trans ?_
    refine (Step.run_bind_ok (KernelM.run_elements hos)).trans ?_
    refine (Step.run_bind_ok (Step.run_liftExcept hl')).trans ?_
    refine (Step.run_bind_ok (Step.run_liftExcept hr')).trans ?_
    exact KernelM.run_storeOutput hos 0 _

end Elementwise

end TensorArena
