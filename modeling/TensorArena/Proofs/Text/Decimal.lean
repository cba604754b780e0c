import Mathlib.Data.List.Basic
import Mathlib.Data.List.TakeWhile
import TensorArena.Text.Basic

/-!
# Words between blanks

What is left of a text once the blanks at its ends are gone, which texts read as words, and that
the digits of a printed number read as that number.

The trimmed text is described from outside: nothing blank stands at its ends, and what was taken off
is blank. A text that is already of that kind stays as it is, so both directions of a reading use
the same few facts.
-/

namespace TensorArena.Text

/-- No blank stands at the front. -/
def OpensSolid (cs : List Char) : Prop :=
  ∀ c ∈ cs.head?, isBlank c = false

/-- No blank stands at the back. -/
def EndsSolid (cs : List Char) : Prop :=
  ∀ c ∈ cs.getLast?, isBlank c = false

theorem isDigit_iff {c : Char} : isDigit c = true ↔ 48 ≤ c.toNat ∧ c.toNat ≤ 57 := by
  simp only [isDigit, Bool.and_eq_true, decide_eq_true_eq, Char.le_def, UInt32.le_iff_toNat_le]
  rfl

theorem isBlank_of_isDigit {c : Char} (h : isDigit c = true) : isBlank c = false := by
  obtain ⟨hlow, hhigh⟩ := isDigit_iff.mp h
  simp only [isBlank, Bool.or_eq_false_iff, Bool.and_eq_false_iff, decide_eq_false_iff_not,
    beq_eq_false_iff_ne]
  omega

/-! ## Trimming -/

theorem trimLeft_of_opensSolid {cs : List Char} (h : OpensSolid cs) : trimLeft cs = cs := by
  cases cs with
  | nil => rfl
  | cons c rest =>
    have hc : isBlank c = false := h c rfl
    exact List.dropWhile_cons_of_neg (by simp [hc])

theorem opensSolid_trimLeft (cs : List Char) : OpensSolid (trimLeft cs) := by
  intro c hc
  have hnot := List.head?_dropWhile_not isBlank cs
  rw [trimLeft] at hc
  rw [Option.mem_def.mp hc] at hnot
  exact hnot

theorem trimRight_append_blanks {cs blanks : List Char} (h : ∀ c ∈ blanks, isBlank c = true) :
    trimRight (cs ++ blanks) = trimRight cs := by
  have hreverse : ∀ c ∈ blanks.reverse, isBlank c = true :=
    fun c hc => h c (List.mem_reverse.mp hc)
  rw [trimRight, List.reverse_append, List.dropWhile_append_of_pos hreverse, trimRight]

theorem trimRight_of_endsSolid {cs : List Char} (h : EndsSolid cs) : trimRight cs = cs := by
  have hopens : OpensSolid cs.reverse := fun c hc => h c (List.head?_reverse ▸ hc)
  rw [trimRight, ← trimLeft, trimLeft_of_opensSolid hopens, List.reverse_reverse]

/-- What is taken off the back is blank. -/
theorem exists_trimRight_append (cs : List Char) :
    ∃ blanks, cs = trimRight cs ++ blanks ∧ ∀ c ∈ blanks, isBlank c = true := by
  refine ⟨(cs.reverse.takeWhile isBlank).reverse, ?_, ?_⟩
  · rw [trimRight, ← List.reverse_append, List.takeWhile_append_dropWhile, List.reverse_reverse]
  · intro c hc
    exact List.mem_takeWhile_imp (List.mem_reverse.mp hc)

/-- A text that opens solid has nothing but its back trimmed. -/
theorem trim_of_opensSolid {cs : List Char} (h : OpensSolid cs) : trim cs = trimRight cs := by
  rw [trim, trimLeft_of_opensSolid h]

theorem trim_eq_self {cs : List Char} (hopens : OpensSolid cs) (hends : EndsSolid cs) :
    trim cs = cs := by
  rw [trim_of_opensSolid hopens, trimRight_of_endsSolid hends]

/-- A part at the front of a text opens as the text does. -/
theorem OpensSolid.left {cs rest : List Char} (h : OpensSolid (cs ++ rest)) : OpensSolid cs := by
  cases cs with
  | nil => exact nofun
  | cons c cs => exact h

theorem OpensSolid.append {cs : List Char} (h : OpensSolid cs) (hne : cs ≠ []) (rest : List Char) :
    OpensSolid (cs ++ rest) := by
  cases cs with
  | nil => exact absurd rfl hne
  | cons c cs => exact h

theorem EndsSolid.append {cs : List Char} (h : EndsSolid cs) (hne : cs ≠ []) (front : List Char) :
    EndsSolid (front ++ cs) := by
  obtain ⟨init, c, rfl⟩ := (List.eq_nil_or_concat' cs).resolve_left hne
  intro d hd
  rw [← List.append_assoc, List.getLast?_concat] at hd
  exact h d (List.getLast?_concat.trans hd)

theorem opensSolid_trim (cs : List Char) : OpensSolid (trim cs) := by
  obtain ⟨blanks, heq, -⟩ := exists_trimRight_append (trimLeft cs)
  have hopens := opensSolid_trimLeft cs
  rw [heq] at hopens
  exact hopens.left

/-! ## Reading words -/

theorem word?_eq_some_iff {cs : List Char} {v : Nat} :
    word? cs = some v ↔
      cs ≠ [] ∧ (∀ c ∈ cs, isDigit c = true) ∧ digitsValue cs ≤ Word.max ∧ digitsValue cs = v := by
  simp only [word?, Option.ite_none_right_eq_some, List.all_eq_true, Option.some.injEq, and_assoc]

/-- A plus sign or nothing. -/
def IsSign (cs : List Char) : Prop :=
  cs = [] ∨ cs = ['+']

theorem plusWord?_eq_some_iff {cs : List Char} {v : Nat} :
    plusWord? cs = some v ↔ ∃ sign digits, IsSign sign ∧ cs = sign ++ digits ∧
      word? digits = some v := by
  constructor
  · intro h
    unfold plusWord? at h
    split at h
    · exact ⟨['+'], _, .inr rfl, rfl, h⟩
    · exact ⟨[], cs, .inl rfl, rfl, h⟩
  · rintro ⟨sign, digits, rfl | rfl, rfl, h⟩
    · -- Without a sign the digits open the text, and a plus sign is no digit.
      obtain ⟨-, hdigits, -, -⟩ := word?_eq_some_iff.mp h
      unfold plusWord?
      split
      · exact absurd (hdigits '+' List.mem_cons_self) (by decide)
      · exact h
    · exact h

/-! ## Printed numbers -/

theorem digitsValue_toDigits (n : Nat) : digitsValue (Nat.toDigits 10 n) = n :=
  (Nat.ofDigitChars_eq_foldl (b := 10)).symm.trans Nat.ofDigitChars_ten_toDigits

theorem isDigit_of_mem_toDigits {n : Nat} {c : Char} (h : c ∈ Nat.toDigits 10 n) :
    isDigit c = true := by
  have hdigit := Nat.isDigit_of_mem_toDigits (by decide) (by decide) h
  exact isDigit_iff.mpr (Char.isDigit_iff_toNat.mp hdigit)

end TensorArena.Text
