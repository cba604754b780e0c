import Mathlib.Algebra.Order.Floor.Div
import TensorArena.Proofs.Graph.Definitions

/-!
# Packed bytes are told apart by their bytes

Two packed values are compared word by word, and a word is compared with all its eight bytes, also
those behind the length. So values that show the same bytes are equal only if the same stands behind
them. What stands there are zeros: a value is built with them, and a byte that is written lies within
the length, whatever its place in a word.

`Holds` says this of one value and the bytes that it shows. It leaves no choice of the words, which is
why the bytes decide.
-/

namespace TensorArena

namespace Bytes

/-! ## Bytes written over bytes -/

/-- `bytes` with those from `start` on replaced by `new`; what does not fit is left out. -/
def patch (bytes : Bytes) (start : Nat) (new : Bytes) : Bytes :=
  bytes.take start ++ overlay (bytes.drop start) new

theorem patch_nil (bytes : Bytes) (start : Nat) : patch bytes start [] = bytes := by
  rw [patch, overlay, List.take_nil, List.nil_append, List.length_nil, List.drop_zero,
    List.take_append_drop]

theorem patch_cons_succ (first : UInt8) (rest : Bytes) (start : Nat) (new : Bytes) :
    patch (first :: rest) (start + 1) new = first :: patch rest start new :=
  rfl

/-- Bytes are put down one after another. -/
theorem patch_cons (bytes : Bytes) (start : Nat) (b : UInt8) (new : Bytes) :
    patch bytes start (b :: new) = patch (bytes.set start b) (start + 1) new := by
  induction bytes generalizing start with
  | nil => simp [patch, overlay]
  | cons first rest ih =>
    cases start with
    | zero => simp [patch, overlay]
    | succ start => rw [patch_cons_succ, ih, List.set_cons_succ, patch_cons_succ]

/-- A byte of what one item gives is a byte of the whole, if all items give as many. -/
theorem flatMap_modify {α : Type} {g : α → Bytes} {f : α → α} {width j : Nat} {b : UInt8}
    (hlength : ∀ a, (g a).length = width) (hj : j < width) (hf : ∀ a, g (f a) = (g a).set j b)
    (l : List α) (k : Nat) :
    (l.modify k f).flatMap g = (l.flatMap g).set (k * width + j) b := by
  induction l generalizing k with
  | nil => rw [List.modify_nil, List.flatMap_nil, List.set_nil]
  | cons a l ih =>
    cases k with
    | zero =>
      rw [List.modify_zero_cons, List.flatMap_cons, List.flatMap_cons, hf, Nat.zero_mul,
        Nat.zero_add, List.set_append_left _ _ (by rw [hlength]; exact hj)]
    | succ k =>
      have hplace : (k + 1) * width + j = (g a).length + (k * width + j) := by
        rw [hlength, Nat.succ_mul]
        omega
      rw [List.modify_succ_cons, List.flatMap_cons, List.flatMap_cons, ih, hplace,
        List.set_append_right _ _ (Nat.le_add_right ..), Nat.add_sub_cancel_left]

end Bytes

namespace Packed

variable {p q : Packed} {bytes : Bytes}

/-! ## Words and what they spell -/

/-- What the words spell behind the length. -/
def padding (p : Packed) : Bytes :=
  p.spelled.drop p.length

/-- The words come back from what they spell. -/
theorem words_spelled (p : Packed) : Bytes.words 8 p.spelled = p.words.toList.map UInt64.toNat := by
  rw [spelled_eq_ofWords]
  refine Bytes.words_ofWords (by decide) fun w hw => ?_
  obtain ⟨word, -, rfl⟩ := List.mem_map.mp hw
  exact Nat.lt_of_lt_of_le word.toNat_lt (by decide)

theorem eq_iff_fields : p = q ↔ p.words = q.words ∧ p.length = q.length := by
  cases p with
  | mk words length _ =>
    cases q with
    | mk words' length' _ => rw [mk.injEq]

theorem eq_of_spelled_eq (hspelled : p.spelled = q.spelled) (hlength : p.length = q.length) :
    p = q := by
  refine eq_iff_fields.mpr ⟨?_, hlength⟩
  have hwords : p.words.toList.map UInt64.toNat = q.words.toList.map UInt64.toNat := by
    rw [← words_spelled, ← words_spelled, hspelled]
  exact Array.toList_inj.mp ((List.map_inj_right fun _ _ => UInt64.toNat_inj.mp).mp hwords)

/-- A byte that is written within the length is that byte of the words. -/
theorem spelled_setByte {i : Nat} (h : i < p.length) (b : UInt8) :
    (p.setByte i b).spelled = p.spelled.set i b := by
  -- Within its word the byte is replaced, and the word has all its eight bytes.
  have hword (w : UInt64) :
      Bytes.ofNat 8 (UInt64.ofNat (Bytes.toNat ((Bytes.ofNat 8 w.toNat).set (i % 8) b))).toNat =
        (Bytes.ofNat 8 w.toNat).set (i % 8) b := by
    have hlength : ((Bytes.ofNat 8 w.toNat).set (i % 8) b).length = 8 := by
      rw [List.length_set, Bytes.length_ofNat]
    rw [Bytes.ofNat_toNat_word (Nat.le_of_eq hlength), hlength, Nat.sub_self, List.replicate_zero,
      List.append_nil]
  have hmodify := Bytes.flatMap_modify (g := fun w : UInt64 => Bytes.ofNat 8 w.toNat)
    (fun w => Bytes.length_ofNat 8 w.toNat) (Nat.mod_lt i (by decide)) hword p.words.toList (i / 8)
  rw [setByte, if_pos h, spelled, Array.toList_modify, hmodify, Nat.div_add_mod']
  rfl

/-! ## Zeros behind the length -/

/-- The value shows these bytes, and zeros are behind them. -/
structure Holds (p : Packed) (bytes : Bytes) : Prop where
  length_eq : p.length = bytes.length
  spelled_eq : p.spelled = bytes ++ List.replicate (p.words.size * 8 - bytes.length) 0

theorem holds_ofBytes (bytes : Bytes) : (ofBytes bytes).Holds bytes where
  length_eq := rfl
  spelled_eq := by
    rw [spelled_ofBytes, size_eq]
    rfl

namespace Holds

theorem toBytes_eq (h : p.Holds bytes) : p.toBytes = bytes := by
  rw [toBytes_eq_take, h.spelled_eq, h.length_eq]
  exact List.take_left' rfl

theorem padding_eq (h : p.Holds bytes) : ∀ b ∈ p.padding, b = 0 := by
  rw [padding, h.spelled_eq, h.length_eq, List.drop_left' rfl]
  exact fun b hb => List.eq_of_mem_replicate hb

/-- The bytes that a value shows leave nothing open. -/
theorem unique (hp : p.Holds bytes) (hq : q.Holds bytes) : p = q := by
  have hlength : p.length = q.length := hp.length_eq.trans hq.length_eq.symm
  have hsize : p.words.size = q.words.size := by rw [p.size_eq, q.size_eq, hlength]
  exact eq_of_spelled_eq (by rw [hp.spelled_eq, hq.spelled_eq, hsize]) hlength

theorem setByte (h : p.Holds bytes) (i : Nat) (b : UInt8) :
    (p.setByte i b).Holds (bytes.set i b) := by
  by_cases hi : i < p.length
  · have hsize : (p.setByte i b).words.size = p.words.size := by
      rw [Packed.setByte, if_pos hi, Array.size_modify]
    refine ⟨?_, ?_⟩
    · rw [Packed.setByte, if_pos hi, List.length_set, h.length_eq]
    · rw [spelled_setByte hi, h.spelled_eq, hsize, List.length_set,
        List.set_append_left _ _ (h.length_eq ▸ hi)]
  · -- Past the end neither of the two changes, and the zeros stay.
    rw [Packed.setByte, if_neg hi, List.set_eq_of_length_le (h.length_eq ▸ Nat.not_lt.mp hi)]
    exact h

theorem write (h : p.Holds bytes) (start : Nat) (new : Bytes) :
    (p.write start new).Holds (Bytes.patch bytes start new) := by
  induction new generalizing p bytes start with
  | nil =>
    rw [Bytes.patch_nil]
    exact h
  | cons b new ih =>
    rw [Bytes.patch_cons]
    exact ih (h.setByte start b) (start + 1)

end Holds

/-! ## Values that were built and written -/

/-- Values as they come about, each beside the bytes that a plain list would hold: those that it was
built from, or that stood in the text that it was read from, with every write since made in the list. -/
inductive Built : Packed → Bytes → Prop
  | ofBytes (bytes : Bytes) : Built (ofBytes bytes) bytes
  | ofElements (d : DType) (elements : List Nat) :
      Built (ofElements d.size elements) (Bytes.ofWords d.size elements)
  | ofJson {items : List Json} {bytes : Bytes} {p : Packed} (hread : ofJson? (.array items) = some p)
      (hgiven : List.Forall₂ (fun v b => Json.byte? v = some b) items bytes) : Built p bytes
  | write {p : Packed} {bytes : Bytes} (h : Built p bytes) (start : Nat) (new : Bytes) :
      Built (p.write start new) (Bytes.patch bytes start new)

theorem Built.holds (h : Built p bytes) : p.Holds bytes := by
  induction h with
  | ofBytes bytes => exact holds_ofBytes bytes
  | ofElements d elements => exact holds_ofBytes _
  | ofJson hread hgiven =>
    rw [ofJson?, Json.list?_eq_some_iff.mpr hgiven] at hread
    cases hread
    exact holds_ofBytes _
  | write _ start new ih => exact ih.write start new

/-- Whatever is read is read from a list. -/
theorem exists_built_of_ofJson {j : Json} (h : ofJson? j = some p) : ∃ bytes, Built p bytes := by
  cases j with
  | array items =>
    obtain ⟨bytes, hbytes, -⟩ := Option.map_eq_some_iff.mp h
    exact ⟨bytes, .ofJson h (Json.list?_eq_some_iff.mp hbytes)⟩
  | null | bool | number | string | object => cases h

/-- Values that show the same bytes are the same. -/
theorem Built.eq_iff {bytes' : Bytes} (hp : Built p bytes) (hq : Built q bytes') :
    p = q ↔ p.toBytes = q.toBytes := by
  constructor
  · exact congrArg toBytes
  · rw [hp.holds.toBytes_eq, hq.holds.toBytes_eq]
    rintro rfl
    exact hp.holds.unique hq.holds

/-- What was built and written has as many words as its length asks for, zeros behind the length, and
shows the bytes that it was given with the writes since; and two such values are equal, in all their
words and in length, exactly if they show the same. -/
theorem built_represents {p : Packed} {bytes : Bytes} (h : Built p bytes) :
    p.length = bytes.length ∧ p.words.size = p.length ⌈/⌉ 8 ∧ (∀ b ∈ p.padding, b = 0) ∧
      p.toBytes = bytes ∧ ∀ {q : Packed} {bytes' : Bytes}, Built q bytes' →
        (p = q ↔ p.words = q.words ∧ p.length = q.length) ∧ (p = q ↔ p.toBytes = q.toBytes) :=
  ⟨h.holds.length_eq, p.size_eq, h.holds.padding_eq, h.holds.toBytes_eq,
    fun hq => ⟨eq_iff_fields, h.eq_iff hq⟩⟩

/-- Nine bytes, written across the border of two words and over the end. -/
def overwritten : Packed :=
  ((ofBytes [1, 2, 3, 4, 5, 6, 7, 8, 9]).write 6 [70, 80, 90]).write 8 [0, 77]

/-- The same bytes from a list that was read are the same value. Ten bytes that were elements fill the
same words, and are another. -/
theorem built_represents_of_overwritten :
    Built overwritten [1, 2, 3, 4, 5, 6, 70, 80, 0] ∧
      (overwritten.length = 9 ∧ overwritten.words.size = 9 ⌈/⌉ 8 ∧ (∀ b ∈ overwritten.padding, b = 0) ∧
        overwritten.toBytes = [1, 2, 3, 4, 5, 6, 70, 80, 0]) ∧
      ofJson? (.nats [1, 2, 3, 4, 5, 6, 70, 80, 0]) = some overwritten ∧
      overwritten.words = (ofElements DType.i16.size [513, 1027, 1541, 20550, 0]).words ∧
      overwritten ≠ ofElements DType.i16.size [513, 1027, 1541, 20550, 0] := by
  have hbuilt : Built overwritten [1, 2, 3, 4, 5, 6, 70, 80, 0] :=
    ((Built.ofBytes [1, 2, 3, 4, 5, 6, 7, 8, 9]).write 6 [70, 80, 90]).write 8 [0, 77]
  have helements : Built (ofElements DType.i16.size [513, 1027, 1541, 20550, 0])
      [1, 2, 3, 4, 5, 6, 70, 80, 0, 0] :=
    .ofElements .i16 [513, 1027, 1541, 20550, 0]
  have hread : ofJson? (.nats [1, 2, 3, 4, 5, 6, 70, 80, 0]) =
      some (ofBytes [1, 2, 3, 4, 5, 6, 70, 80, 0]) := by
    decide +kernel
  obtain ⟨bytes, hlist⟩ := exists_built_of_ofJson hread
  obtain ⟨hlength, hsize, hpadding, hbytes, hequal⟩ := built_represents hbuilt
  refine ⟨hbuilt, ⟨hlength, hsize, hpadding, hbytes⟩, ?_, by decide, ?_⟩
  · rw [hread, (hequal hlist).2.mpr (hbytes.trans (toBytes_ofBytes _).symm)]
  · intro heq
    have hshown := (hequal helements).2.mp heq
    rw [hbytes, (built_represents helements).2.2.2.1] at hshown
    exact absurd hshown (by decide)

/-- Something behind the length, which is never built: the bytes are the same, the values are not. -/
example : (⟨#[257], 1, rfl⟩ : Packed).toBytes = (ofBytes [1]).toBytes ∧
    (⟨#[257], 1, rfl⟩ : Packed) ≠ ofBytes [1] := by
  decide

end Packed

end TensorArena
