import TensorArena.Arena.Size
import TensorArena.Proofs.Tensor.Counts
import TensorArena.Proofs.Text.Decimal

/-!
# Written sizes

Which texts are sizes, and which size each of them is. A written size has four parts: a plus sign or
nothing, digits, blanks, and a suffix in letters of either case. The reader works from the other end:
it takes a suffix off and reads what is left. The two agree because no digit and no blank is one of
the letters of a suffix.

A reader over bytes looks for the suffix in a copy of the text in capital letters, and then cuts the
text itself, by the length of the suffix. A text and its copy can have different lengths, so it takes
an argument that the cut is never inside a character. The argument only needs to know which
characters have a `B`, a `K` or an `M` in their upper case, not what the others become.
-/

namespace TensorArena

/-- The text that an error is about. -/
def SizeError.text : SizeError → String
  | notANumber text => text
  | overflows text => text
  | zero text => text

/-- Every message names the text. -/
theorem SizeError.exists_message (e : SizeError) :
    ∃ cause, e.message = "invalid arena size: '" ++ e.text ++ "'" ++ cause := by
  cases e with
  | notANumber text =>
    exact ⟨": expected a number followed by an optional suffix (K, M)", by
      rw [String.append_assoc]; rfl⟩
  | overflows text => exact ⟨" overflows", by rw [String.append_assoc]; rfl⟩
  | zero text => exact ⟨" is zero", by rw [String.append_assoc]; rfl⟩

namespace ArenaSize

/-! ## The grammar -/

/-- The suffixes in capital letters, with the bytes that each counts. -/
def suffixes : List (List Char × Nat) :=
  [([], 1), (['B'], 1), (['K'], kilobyte), (['K', 'B'], kilobyte), (['M'], megabyte),
    (['M', 'B'], megabyte)]

/-- The parts of a written size. -/
structure Writing where
  sign : List Char
  digits : List Char
  blanks : List Char
  suffix : List Char
  unit : Nat
  sign_ok : Text.IsSign sign
  digits_ne : digits ≠ []
  digits_ok : ∀ c ∈ digits, Text.isDigit c = true
  word : Text.digitsValue digits ≤ Word.max
  blanks_ok : ∀ c ∈ blanks, Text.isBlank c = true
  unit_ok : (suffix.map Char.toUpper, unit) ∈ suffixes

namespace Writing

/-- What stands before the suffix. -/
def number (w : Writing) : List Char :=
  w.sign ++ w.digits ++ w.blanks

def text (w : Writing) : List Char :=
  w.number ++ w.suffix

def bytes (w : Writing) : Nat :=
  Text.digitsValue w.digits * w.unit

end Writing

/-! ## The letters of a suffix -/

/-- A letter of a suffix, in either case. -/
def IsLetter (c : Char) : Prop :=
  c.toUpper = 'B' ∨ c.toUpper = 'K' ∨ c.toUpper = 'M'

theorem toNat_toUpper (c : Char) :
    c.toUpper.toNat = if 97 ≤ c.toNat ∧ c.toNat ≤ 122 then c.toNat - 32 else c.toNat := by
  have hlower : ('a'.val ≤ c.val ∧ c.val ≤ 'z'.val) ↔ 97 ≤ c.toNat ∧ c.toNat ≤ 122 := by
    simp only [UInt32.le_iff_toNat_le]
    rfl
  unfold Char.toUpper
  split
  · rename_i h
    have hc := hlower.mp h
    rw [if_pos hc]
    change (c.val + ('A'.val - 'a'.val)).toNat = c.toNat - 32
    rw [UInt32.toNat_add]
    change (c.toNat + 4294967264) % 4294967296 = c.toNat - 32
    omega
  · rename_i h
    rw [if_neg (fun hc => h (hlower.mpr hc))]

theorem IsLetter.toNat_mem {c : Char} (h : IsLetter c) : c.toNat ∈ [66, 75, 77, 98, 107, 109] := by
  have hupper : c.toUpper.toNat = 66 ∨ c.toUpper.toNat = 75 ∨ c.toUpper.toNat = 77 := by
    rcases h with h | h | h
    · exact .inl (by rw [h]; rfl)
    · exact .inr (.inl (by rw [h]; rfl))
    · exact .inr (.inr (by rw [h]; rfl))
  rw [toNat_toUpper] at hupper
  simp only [List.mem_cons, List.not_mem_nil, or_false]
  split at hupper <;> omega

theorem not_isLetter_of_isDigit {c : Char} (h : Text.isDigit c = true) : ¬ IsLetter c := by
  intro hletter
  have hmem := hletter.toNat_mem
  have hrange := Text.isDigit_iff.mp h
  simp only [List.mem_cons, List.not_mem_nil, or_false] at hmem
  omega

theorem isBlank_of_isLetter {c : Char} (h : IsLetter c) : Text.isBlank c = false := by
  have hmem := h.toNat_mem
  simp only [List.mem_cons, List.not_mem_nil, or_false] at hmem
  simp only [Text.isBlank, Bool.or_eq_false_iff, Bool.and_eq_false_iff, decide_eq_false_iff_not,
    beq_eq_false_iff_ne]
  omega

/-- The letters that count more than a byte. -/
def scales : List (Char × Nat) :=
  [('K', kilobyte), ('M', megabyte)]

theorem mem_scales {l : Char} {unit : Nat} :
    (l, unit) ∈ scales ↔ (l = 'K' ∧ unit = kilobyte) ∨ (l = 'M' ∧ unit = megabyte) := by
  simp [scales]

/-! ## Taking the suffix off -/

theorem splitSuffix_of_not_isLetter {c : Char} {rest : List Char} (h : ¬ IsLetter c) :
    splitSuffix (c :: rest) = (c :: rest, 1) := by
  have hB : c.toUpper ≠ 'B' := fun heq => h (.inl heq)
  have hK : c.toUpper ≠ 'K' := fun heq => h (.inr (.inl heq))
  have hM : c.toUpper ≠ 'M' := fun heq => h (.inr (.inr heq))
  simp only [splitSuffix]
  split
  · contradiction
  · contradiction
  · contradiction
  · contradiction
  · rfl

theorem splitSuffix_scale {c : Char} {rest : List Char} {unit : Nat}
    (h : (c.toUpper, unit) ∈ scales) : splitSuffix (c :: rest) = (rest, unit) := by
  obtain ⟨hc, rfl⟩ | ⟨hc, rfl⟩ := mem_scales.mp h
  · simp only [splitSuffix, hc]
  · simp only [splitSuffix, hc]

theorem splitSuffix_byte_scale {c d : Char} {rest : List Char} {unit : Nat} (h : c.toUpper = 'B')
    (hscale : (d.toUpper, unit) ∈ scales) : splitSuffix (c :: d :: rest) = (rest, unit) := by
  obtain ⟨hd, rfl⟩ | ⟨hd, rfl⟩ := mem_scales.mp hscale
  · simp only [splitSuffix, h, hd]
  · simp only [splitSuffix, h, hd]

/-- A `B` counts single bytes where neither `K` nor `M` stands before it. -/
theorem splitSuffix_byte {c : Char} {rest : List Char} (h : c.toUpper = 'B')
    (hrest : ∀ d ∈ rest.head?, d.toUpper ≠ 'K' ∧ d.toUpper ≠ 'M') :
    splitSuffix (c :: rest) = (rest, 1) := by
  cases rest with
  | nil => simp only [splitSuffix, h]
  | cons d rest =>
    obtain ⟨hK, hM⟩ := hrest d rfl
    simp only [splitSuffix, h]

/-! ## Cutting by length -/

/-- The upper case of texts, character by character, as far as a suffix depends on it: the ASCII
letters have their capitals, every character has an upper case, and no other character has a `B`, a
`K` or an `M` in its own. What the upper case of other characters is, and how long, is left open. -/
structure UpperCasing where
  upper : Char → List Char
  upper_ascii : ∀ c, c.toNat < 128 → upper c = [c.toUpper]
  upper_ne : ∀ c, upper c ≠ []
  ascii_of_mem : ∀ c l, l ∈ upper c → l = 'B' ∨ l = 'K' ∨ l = 'M' → c.toNat < 128

/-- Where one character has two letters in its upper case, and all others have what they have in
ASCII. -/
instance : Inhabited UpperCasing where
  default :=
    { upper := fun c => if c = 'ß' then ['S', 'S'] else [c.toUpper]
      upper_ascii := by
        intro c hc
        rw [if_neg]
        rintro rfl
        exact absurd hc (by decide)
      upper_ne := by
        intro c
        split <;> exact List.cons_ne_nil _ _
      ascii_of_mem := by
        intro c l hmem hl
        split at hmem
        · have hS : l = 'S' := by simpa using hmem
          rw [hS] at hl
          exact absurd hl (by decide)
        · obtain rfl := List.mem_singleton.mp hmem
          have hletter : IsLetter c := hl
          have hrange := hletter.toNat_mem
          simp only [List.mem_cons, List.not_mem_nil, or_false] at hrange
          omega }

namespace UpperCasing

def text (u : UpperCasing) (cs : List Char) : List Char :=
  cs.flatMap u.upper

/-- How many bytes the suffix has, going by the text in capital letters, and the bytes that it
counts. The longer suffixes are looked for before the ones they end in. -/
def cut (u : UpperCasing) (cs : List Char) : Nat × Nat :=
  if ['M', 'B'] <:+ u.text cs then (2, megabyte)
  else if ['M'] <:+ u.text cs then (1, megabyte)
  else if ['K', 'B'] <:+ u.text cs then (2, kilobyte)
  else if ['K'] <:+ u.text cs then (1, kilobyte)
  else if ['B'] <:+ u.text cs then (1, 1)
  else (0, 1)

theorem text_concat (u : UpperCasing) (cs : List Char) (c : Char) :
    u.text (cs ++ [c]) = u.text cs ++ u.upper c := by
  simp only [text, List.flatMap_append, List.flatMap_singleton]

/-- The last letter of the upper case is from the upper case of the last character. -/
theorem mem_upper_of_suffix (u : UpperCasing) {l c : Char} {w cs : List Char}
    (h : w ++ [l] <:+ u.text (cs ++ [c])) : l ∈ u.upper c := by
  obtain ⟨front, hfront⟩ := h
  obtain hnil | ⟨init, last, hlast⟩ := List.eq_nil_or_concat' (u.upper c)
  · exact absurd hnil (u.upper_ne c)
  · rw [text_concat, hlast, ← List.append_assoc, ← List.append_assoc] at hfront
    obtain ⟨-, hl⟩ := List.append_inj' hfront rfl
    rw [hlast, ← hl]
    exact List.mem_append_right _ List.mem_cons_self

theorem upper_eq_of_isLetter (u : UpperCasing) {c : Char} (h : IsLetter c) :
    u.upper c = [c.toUpper] := by
  have hmem := h.toNat_mem
  simp only [List.mem_cons, List.not_mem_nil, or_false] at hmem
  exact u.upper_ascii c (by omega)

/-- A letter at the end of the text in capital letters is the capital of the last character. -/
theorem suffix_concat_iff (u : UpperCasing) {l : Char} (hl : l = 'B' ∨ l = 'K' ∨ l = 'M')
    {w cs : List Char} {c : Char} :
    w ++ [l] <:+ u.text (cs ++ [c]) ↔ c.toUpper = l ∧ w <:+ u.text cs := by
  constructor
  · intro h
    have hascii := u.ascii_of_mem c l (u.mem_upper_of_suffix h) hl
    obtain ⟨front, hfront⟩ := h
    rw [text_concat, u.upper_ascii c hascii, ← List.append_assoc] at hfront
    obtain ⟨hw, hlast⟩ := List.append_inj' hfront rfl
    exact ⟨(List.singleton_inj.mp hlast).symm, front, hw⟩
  · rintro ⟨rfl, hw⟩
    rw [text_concat, u.upper_eq_of_isLetter hl, List.suffix_append_self_iff]
    exact hw

theorem singleton_suffix_concat_iff (u : UpperCasing) {l : Char} (hl : l = 'B' ∨ l = 'K' ∨ l = 'M')
    {cs : List Char} {c : Char} : [l] <:+ u.text (cs ++ [c]) ↔ c.toUpper = l :=
  (u.suffix_concat_iff (w := []) hl).trans (and_iff_left (List.nil_suffix))

theorem not_singleton_suffix (u : UpperCasing) {l : Char} (hl : l = 'B' ∨ l = 'K' ∨ l = 'M')
    {cs : List Char} (h : ∀ c ∈ cs.getLast?, c.toUpper ≠ l) : ¬ [l] <:+ u.text cs := by
  obtain rfl | ⟨init, c, rfl⟩ := List.eq_nil_or_concat' cs
  · exact fun hnil => List.cons_ne_nil _ _ (List.suffix_nil.mp hnil)
  · rw [u.singleton_suffix_concat_iff hl]
    exact h c List.getLast?_concat

/-- The tests for a suffix in terms of the last character. -/
theorem cut_concat (u : UpperCasing) (cs : List Char) (c : Char) :
    u.cut (cs ++ [c]) =
      if c.toUpper = 'B' ∧ ['M'] <:+ u.text cs then (2, megabyte)
      else if c.toUpper = 'M' then (1, megabyte)
      else if c.toUpper = 'B' ∧ ['K'] <:+ u.text cs then (2, kilobyte)
      else if c.toUpper = 'K' then (1, kilobyte)
      else if c.toUpper = 'B' then (1, 1)
      else (0, 1) := by
  have hMB : ['M', 'B'] <:+ u.text (cs ++ [c]) ↔ c.toUpper = 'B' ∧ ['M'] <:+ u.text cs :=
    u.suffix_concat_iff (w := ['M']) (.inl rfl)
  have hKB : ['K', 'B'] <:+ u.text (cs ++ [c]) ↔ c.toUpper = 'B' ∧ ['K'] <:+ u.text cs :=
    u.suffix_concat_iff (w := ['K']) (.inl rfl)
  simp only [cut, hMB, hKB, u.singleton_suffix_concat_iff, true_or, or_true]

end UpperCasing

/-- A text as it is taken apart: what stands before the suffix, the suffix, and the bytes that it
counts. Both ways of finding the suffix agree on it. -/
structure Split (cs before after : List Char) (unit : Nat) : Prop where
  eq_append : cs = before ++ after
  unit_ok : (after.map Char.toUpper, unit) ∈ suffixes
  splitSuffix_eq : splitSuffix cs.reverse = (before.reverse, unit)
  cut_eq : ∀ u : UpperCasing, u.cut cs = (after.length, unit)

theorem split_scale {cs : List Char} {c : Char} {unit : Nat} (h : (c.toUpper, unit) ∈ scales) :
    Split (cs ++ [c]) cs [c] unit where
  eq_append := rfl
  unit_ok := by
    obtain ⟨hc, rfl⟩ | ⟨hc, rfl⟩ := mem_scales.mp h
    · simp [suffixes, hc]
    · simp [suffixes, hc]
  splitSuffix_eq := by rw [List.reverse_concat', splitSuffix_scale h]
  cut_eq u := by
    obtain ⟨hc, rfl⟩ | ⟨hc, rfl⟩ := mem_scales.mp h
    · simp [u.cut_concat, hc]
    · simp [u.cut_concat, hc]

theorem split_byte_scale {cs : List Char} {c d : Char} {unit : Nat} (h : c.toUpper = 'B')
    (hscale : (d.toUpper, unit) ∈ scales) : Split (cs ++ [d] ++ [c]) cs [d, c] unit where
  eq_append := by rw [List.append_assoc]; rfl
  unit_ok := by
    obtain ⟨hd, rfl⟩ | ⟨hd, rfl⟩ := mem_scales.mp hscale
    · simp [suffixes, h, hd]
    · simp [suffixes, h, hd]
  splitSuffix_eq := by
    rw [List.reverse_concat', List.reverse_concat', splitSuffix_byte_scale h hscale]
  cut_eq u := by
    have hM : ['M'] <:+ u.text (cs ++ [d]) ↔ d.toUpper = 'M' :=
      u.singleton_suffix_concat_iff (.inr (.inr rfl))
    have hK : ['K'] <:+ u.text (cs ++ [d]) ↔ d.toUpper = 'K' :=
      u.singleton_suffix_concat_iff (.inr (.inl rfl))
    simp only [u.cut_concat, hM, hK]
    obtain ⟨hd, rfl⟩ | ⟨hd, rfl⟩ := mem_scales.mp hscale
    · simp [h, hd]
    · simp [h, hd]

theorem split_byte {cs : List Char} {c : Char} (h : c.toUpper = 'B')
    (hlast : ∀ d ∈ cs.getLast?, d.toUpper ≠ 'K' ∧ d.toUpper ≠ 'M') : Split (cs ++ [c]) cs [c] 1 where
  eq_append := rfl
  unit_ok := by simp [suffixes, h]
  splitSuffix_eq := by
    have hhead : ∀ d ∈ cs.reverse.head?, d.toUpper ≠ 'K' ∧ d.toUpper ≠ 'M' := by
      rw [List.head?_reverse]
      exact hlast
    rw [List.reverse_concat', splitSuffix_byte h hhead]
  cut_eq u := by
    have hK := u.not_singleton_suffix (.inr (.inl rfl)) fun d hd => (hlast d hd).1
    have hM := u.not_singleton_suffix (.inr (.inr rfl)) fun d hd => (hlast d hd).2
    simp [u.cut_concat, h, hK, hM]

theorem split_none {cs : List Char} (hlast : ∀ c ∈ cs.getLast?, ¬ IsLetter c) :
    Split cs cs [] 1 where
  eq_append := (List.append_nil cs).symm
  unit_ok := List.mem_cons_self
  splitSuffix_eq := by
    obtain rfl | ⟨init, c, rfl⟩ := List.eq_nil_or_concat' cs
    · rfl
    · rw [List.reverse_concat', splitSuffix_of_not_isLetter (hlast c List.getLast?_concat)]
  cut_eq u := by
    obtain rfl | ⟨init, c, rfl⟩ := List.eq_nil_or_concat' cs
    · rfl
    · have hc := hlast c List.getLast?_concat
      simp only [IsLetter, not_or] at hc
      simp [u.cut_concat, hc]

/-- Every text is taken apart at one place. -/
theorem exists_split (cs : List Char) : ∃ before after unit, Split cs before after unit := by
  obtain rfl | ⟨init, c, rfl⟩ := List.eq_nil_or_concat' cs
  · exact ⟨_, _, _, split_none nofun⟩
  by_cases hc : IsLetter c
  · obtain hB | hK | hM := hc
    · -- A `B` belongs to the letter before it, if that is a `K` or an `M`.
      by_cases hlast : ∀ d ∈ init.getLast?, d.toUpper ≠ 'K' ∧ d.toUpper ≠ 'M'
      · exact ⟨_, _, _, split_byte hB hlast⟩
      · obtain rfl | ⟨init, d, rfl⟩ := List.eq_nil_or_concat' init
        · exact absurd nofun hlast
        · by_cases hM : d.toUpper = 'M'
          · exact ⟨_, _, _, split_byte_scale hB (mem_scales.mpr (.inr ⟨hM, rfl⟩))⟩
          · by_cases hK : d.toUpper = 'K'
            · exact ⟨_, _, _, split_byte_scale hB (mem_scales.mpr (.inl ⟨hK, rfl⟩))⟩
            · refine absurd (fun e he => ?_) hlast
              rw [List.getLast?_concat, Option.mem_some] at he
              exact he ▸ ⟨hK, hM⟩
    · exact ⟨_, _, _, split_scale (mem_scales.mpr (.inl ⟨hK, rfl⟩))⟩
    · exact ⟨_, _, _, split_scale (mem_scales.mpr (.inr ⟨hM, rfl⟩))⟩
  · refine ⟨_, _, _, split_none fun d hd => ?_⟩
    rw [List.getLast?_concat, Option.mem_some] at hd
    exact hd ▸ hc

/-- A suffix that follows something else than a letter is the one that is taken off. -/
theorem split_append {before after : List Char} {unit : Nat}
    (hunit : (after.map Char.toUpper, unit) ∈ suffixes)
    (hlast : ∀ c ∈ before.getLast?, ¬ IsLetter c) : Split (before ++ after) before after unit := by
  simp only [suffixes, List.mem_cons, List.not_mem_nil, or_false, Prod.mk.injEq,
    List.map_eq_nil_iff, List.map_eq_cons_iff] at hunit
  obtain ⟨rfl, rfl⟩ | ⟨⟨c, _, rfl, hB, rfl⟩, rfl⟩ | ⟨⟨c, _, rfl, hK, rfl⟩, rfl⟩ |
    ⟨⟨d, _, rfl, hK, c, _, rfl, hB, rfl⟩, rfl⟩ | ⟨⟨c, _, rfl, hM, rfl⟩, rfl⟩ |
    ⟨⟨d, _, rfl, hM, c, _, rfl, hB, rfl⟩, rfl⟩ := hunit
  · exact (List.append_nil before).symm ▸ split_none hlast
  · refine split_byte hB fun d hd => ?_
    have hd := hlast d hd
    simp only [IsLetter, not_or] at hd
    exact hd.2
  · exact split_scale (mem_scales.mpr (.inl ⟨hK, rfl⟩))
  · exact List.append_cons before d [c] ▸ split_byte_scale hB (mem_scales.mpr (.inl ⟨hK, rfl⟩))
  · exact split_scale (mem_scales.mpr (.inr ⟨hM, rfl⟩))
  · exact List.append_cons before d [c] ▸ split_byte_scale hB (mem_scales.mpr (.inr ⟨hM, rfl⟩))

theorem Split.isLetter {cs before after : List Char} {unit : Nat} (h : Split cs before after unit)
    {c : Char} (hc : c ∈ after) : IsLetter c := by
  have hcapitals : ∀ p ∈ suffixes, ∀ l ∈ p.1, l = 'B' ∨ l = 'K' ∨ l = 'M' := by simp [suffixes]
  exact hcapitals _ h.unit_ok _ (List.mem_map_of_mem hc)

/-! ## Reading the number -/

/-- Reads what stands before the suffix and counts its units. -/
def weigh (trimmed number : List Char) (unit : Nat) : Except SizeError ArenaSize :=
  match Text.plusWord? (Text.trim number) with
  | none => .error (.notANumber (String.ofList trimmed))
  | some value =>
    match Word.mul? value unit with
    | none => .error (.overflows (String.ofList trimmed))
    | some 0 => .error (.zero (String.ofList trimmed))
    | some bytes => .ok ⟨bytes⟩

theorem parse_eq_weigh {text : String} {before after : List Char} {unit : Nat}
    (h : Split (Text.trim text.toList) before after unit) :
    parse text = weigh (Text.trim text.toList) before unit := by
  unfold parse
  dsimp only
  rw [h.splitSuffix_eq]
  dsimp only
  rw [List.reverse_reverse]
  rfl

namespace Writing

theorem eq_plus_of_mem_sign (w : Writing) {c : Char} (h : c ∈ w.sign) : c = '+' := by
  obtain hsign | hsign := w.sign_ok
  · rw [hsign] at h
    exact absurd h List.not_mem_nil
  · rw [hsign] at h
    exact List.mem_singleton.mp h

theorem isBlank_of_mem (w : Writing) {c : Char} (h : c ∈ w.sign ++ w.digits) :
    Text.isBlank c = false := by
  obtain h | h := List.mem_append.mp h
  · rw [w.eq_plus_of_mem_sign h]
    decide
  · exact Text.isBlank_of_isDigit (w.digits_ok c h)

theorem not_isLetter_of_mem_number (w : Writing) {c : Char} (h : c ∈ w.number) :
    ¬ IsLetter c := by
  obtain h | h := List.mem_append.mp h
  · obtain h | h := List.mem_append.mp h
    · rw [w.eq_plus_of_mem_sign h]
      unfold IsLetter
      decide
    · exact not_isLetter_of_isDigit (w.digits_ok c h)
  · intro hletter
    exact absurd (w.blanks_ok c h) (by simp [isBlank_of_isLetter hletter])

theorem opensSolid_number (w : Writing) : Text.OpensSolid w.number := by
  have hne : w.sign ++ w.digits ≠ [] := fun h => w.digits_ne (List.append_eq_nil_iff.mp h).2
  have hopens : Text.OpensSolid (w.sign ++ w.digits) :=
    fun c hc => w.isBlank_of_mem (List.mem_of_mem_head? hc)
  exact hopens.append hne w.blanks

theorem trim_number (w : Writing) : Text.trim w.number = w.sign ++ w.digits := by
  have hends : Text.EndsSolid (w.sign ++ w.digits) :=
    fun c hc => w.isBlank_of_mem (List.mem_of_mem_getLast? hc)
  rw [Text.trim_of_opensSolid w.opensSolid_number, number, Text.trimRight_append_blanks w.blanks_ok,
    Text.trimRight_of_endsSolid hends]

theorem split (w : Writing) : Split w.text w.number w.suffix w.unit :=
  split_append w.unit_ok fun _ hc => w.not_isLetter_of_mem_number (List.mem_of_mem_getLast? hc)

theorem plusWord?_trim_number (w : Writing) :
    Text.plusWord? (Text.trim w.number) = some (Text.digitsValue w.digits) :=
  Text.plusWord?_eq_some_iff.mpr ⟨w.sign, w.digits, w.sign_ok, w.trim_number,
    Text.word?_eq_some_iff.mpr ⟨w.digits_ne, w.digits_ok, w.word, rfl⟩⟩

end Writing

/-- A text that opens solid and has a number before its suffix is a written size. -/
theorem Split.exists_writing {cs before after : List Char} {unit v : Nat}
    (h : Split cs before after unit) (hopens : Text.OpensSolid cs)
    (hv : Text.plusWord? (Text.trim before) = some v) : ∃ w : Writing, w.text = cs := by
  have hbefore : Text.OpensSolid before := (h.eq_append ▸ hopens).left
  obtain ⟨blanks, heq, hblanks⟩ := Text.exists_trimRight_append before
  rw [Text.trim_of_opensSolid hbefore] at hv
  obtain ⟨sign, digits, hsign, htrim, hword⟩ := Text.plusWord?_eq_some_iff.mp hv
  obtain ⟨hne, hdigits, hle, -⟩ := Text.word?_eq_some_iff.mp hword
  refine ⟨⟨sign, digits, blanks, after, unit, hsign, hne, hdigits, hle, hblanks, h.unit_ok⟩, ?_⟩
  calc Writing.text _ = Text.trimRight before ++ blanks ++ after := by rw [htrim]; rfl
    _ = cs := by rw [← heq, ← h.eq_append]

/-- What a written size is read as. -/
theorem parse_of_writing {text : String} (w : Writing) (h : Text.trim text.toList = w.text) :
    parse text =
      if Word.max < w.bytes then .error (.overflows (String.ofList w.text))
      else if w.bytes = 0 then .error (.zero (String.ofList w.text))
      else .ok ⟨w.bytes⟩ := by
  rw [parse_eq_weigh (h ▸ w.split), h, weigh, w.plusWord?_trim_number]
  by_cases hover : Word.max < w.bytes
  · have hnone : Word.mul? (Text.digitsValue w.digits) w.unit = none := if_neg hover.not_ge
    rw [if_pos hover]
    simp only [hnone]
  · have hsome : Word.mul? (Text.digitsValue w.digits) w.unit = some w.bytes :=
      if_pos (Nat.le_of_not_lt hover)
    rw [if_neg hover]
    simp only [hsome]
    cases w.bytes with
    | zero => rfl
    | succ n => rfl

/-- Every other text has no number where a size has one. -/
theorem parse_of_not_written {text : String} (h : ¬ ∃ w : Writing, Text.trim text.toList = w.text) :
    parse text = .error (.notANumber (String.ofList (Text.trim text.toList))) := by
  obtain ⟨before, after, unit, hsplit⟩ := exists_split (Text.trim text.toList)
  rw [parse_eq_weigh hsplit, weigh]
  cases hv : Text.plusWord? (Text.trim before) with
  | none => rfl
  | some v =>
    obtain ⟨w, hw⟩ := hsplit.exists_writing (Text.opensSolid_trim _) hv
    exact absurd ⟨w, hw.symm⟩ h

/-! ## The reader over bytes -/

/-- The text without its last `size` bytes, where these are whole characters. -/
def withoutLast? (s : String) (size : Nat) : Option String :=
  if h : size ≤ s.utf8ByteSize ∧ (⟨s.utf8ByteSize - size⟩ : String.Pos.Raw).IsValid s then
    some (s.sliceTo ⟨_, h.2⟩).copy
  else none

/-- Finds the suffix in the text in capital letters and cuts as many bytes off the text itself. There
is no result at all where the cut is inside a character. -/
def parseBytes? (u : UpperCasing) (text : String) : Option (Except SizeError ArenaSize) :=
  let trimmed := Text.trim text.toList
  (withoutLast? (String.ofList trimmed) (u.cut trimmed).1).map fun number =>
    weigh trimmed number.toList (u.cut trimmed).2

/-- A cut inside a character is noticed. -/
example : withoutLast? "5ß" 1 = none := by decide +kernel

theorem utf8ByteSize_ofList_of_ascii {cs : List Char} (h : ∀ c ∈ cs, c.toNat < 128) :
    (String.ofList cs).utf8ByteSize = cs.length := by
  induction cs with
  | nil => rfl
  | cons c cs ih =>
    have hc : c.utf8Size = 1 :=
      Char.utf8Size_eq_one_iff.mpr (UInt32.le_iff_toNat_le.mpr (Nat.le_of_lt_succ (h c (by simp))))
    rw [String.ofList_cons, String.utf8ByteSize_append, String.utf8ByteSize_singleton, hc,
      ih fun d hd => h d (List.mem_cons_of_mem c hd), List.length_cons, Nat.add_comm]

/-- Cutting the suffix off by its length leaves what stands before it. -/
theorem withoutLast?_append (before : List Char) {after : List Char}
    (h : ∀ c ∈ after, c.toNat < 128) :
    withoutLast? (String.ofList (before ++ after)) after.length = some (String.ofList before) := by
  have hsize : (String.ofList (before ++ after)).utf8ByteSize =
      (String.ofList before).utf8ByteSize + after.length := by
    rw [String.ofList_append, String.utf8ByteSize_append, utf8ByteSize_ofList_of_ascii h]
  have hle : after.length ≤ (String.ofList (before ++ after)).utf8ByteSize := by omega
  have hpos : (⟨(String.ofList (before ++ after)).utf8ByteSize - after.length⟩ : String.Pos.Raw) =
      (String.ofList before).rawEndPos := by
    rw [hsize, Nat.add_sub_cancel]
    rfl
  have hvalid : String.Pos.Raw.IsValid (String.ofList (before ++ after))
      ⟨(String.ofList (before ++ after)).utf8ByteSize - after.length⟩ :=
    String.Pos.Raw.isValid_iff_exists_append.mpr ⟨_, _, String.ofList_append, hpos⟩
  rw [withoutLast?, dif_pos ⟨hle, hvalid⟩]
  have hsplits : (⟨_, hvalid⟩ : (String.ofList (before ++ after)).Pos).Splits
      (String.ofList before) (String.ofList after) := ⟨String.ofList_append, hpos⟩
  exact congrArg some ((String.Pos.splits _).eq_left hsplits)

/-- No cut is inside a character, and the result is that of the reader over characters. -/
theorem parseBytes?_eq (u : UpperCasing) (text : String) : parseBytes? u text = some (parse text) := by
  obtain ⟨before, after, unit, h⟩ := exists_split (Text.trim text.toList)
  have hascii : ∀ c ∈ after, c.toNat < 128 := by
    intro c hc
    have hmem := (h.isLetter hc).toNat_mem
    simp only [List.mem_cons, List.not_mem_nil, or_false] at hmem
    omega
  have hcut : withoutLast? (String.ofList (Text.trim text.toList)) after.length =
      some (String.ofList before) := by
    rw [h.eq_append]
    exact withoutLast?_append before hascii
  simp only [parseBytes?, h.cut_eq, hcut, Option.map_some, String.toList_ofList,
    parse_eq_weigh h]

/-! ## Which texts are sizes -/

theorem text_of_error {text : String} {e : SizeError} (h : parse text = .error e) :
    e.text = String.ofList (Text.trim text.toList) := by
  by_cases hwritten : ∃ w : Writing, Text.trim text.toList = w.text
  · obtain ⟨w, hw⟩ := hwritten
    rw [hw]
    rw [parse_of_writing w hw] at h
    split at h
    · exact congrArg SizeError.text (Except.error.inj h).symm
    · split at h
      · exact congrArg SizeError.text (Except.error.inj h).symm
      · exact nomatch h
  · rw [parse_of_not_written hwritten] at h
    exact congrArg SizeError.text (Except.error.inj h).symm

theorem parse_eq_ok_iff {text : String} {n : Nat} :
    parse text = .ok ⟨n⟩ ↔
      ∃ w : Writing, Text.trim text.toList = w.text ∧ w.bytes = n ∧ 0 < n ∧ n ≤ Word.max := by
  constructor
  · intro h
    by_cases hwritten : ∃ w : Writing, Text.trim text.toList = w.text
    · obtain ⟨w, hw⟩ := hwritten
      rw [parse_of_writing w hw] at h
      split at h
      · exact nomatch h
      · split at h
        · exact nomatch h
        · rename_i hover hzero
          obtain rfl : w.bytes = n := congrArg ArenaSize.bytes (Except.ok.inj h)
          exact ⟨w, hw, rfl, Nat.pos_of_ne_zero hzero, Nat.le_of_not_lt hover⟩
    · rw [parse_of_not_written hwritten] at h
      exact nomatch h
  · rintro ⟨w, hw, rfl, hpos, hword⟩
    rw [parse_of_writing w hw, if_neg hword.not_gt, if_neg (Nat.ne_of_gt hpos)]

/-- The texts that are sizes are the written sizes that are not zero and fit in a word, and each is
read as the bytes that it counts. Every other text is refused with a message that names it. A reader
over bytes comes to the same result without cutting a character. -/
theorem parse_accepts_written (text : String) :
    (∀ n, parse text = .ok ⟨n⟩ ↔
      ∃ w : Writing, Text.trim text.toList = w.text ∧ w.bytes = n ∧ 0 < n ∧ n ≤ Word.max) ∧
    ((¬ ∃ w : Writing, Text.trim text.toList = w.text ∧ 0 < w.bytes ∧ w.bytes ≤ Word.max) →
      ∃ e : SizeError, parse text = .error e ∧ ∃ cause, e.message =
        "invalid arena size: '" ++ String.ofList (Text.trim text.toList) ++ "'" ++ cause) ∧
    ∀ u : UpperCasing, parseBytes? u text = some (parse text) := by
  refine ⟨fun n => parse_eq_ok_iff, fun hnone => ?_, fun u => parseBytes?_eq u text⟩
  cases h : parse text with
  | error e => exact ⟨e, rfl, text_of_error h ▸ e.exists_message⟩
  | ok s =>
    obtain ⟨w, hw, hbytes, hpos, hword⟩ := parse_eq_ok_iff.mp h
    exact absurd ⟨w, hw, hbytes ▸ hpos, hbytes ▸ hword⟩ hnone

/-- Blanks around, a sign, a blank inside, and a suffix in both cases. -/
example : parse " +2 mB\t" = .ok ⟨2 * megabyte⟩ := by decide +kernel

/-! ## Printed sizes -/

theorem Writing.trim_text (w : Writing) (h : w.suffix ≠ []) : Text.trim w.text = w.text := by
  have hnumber : w.number ≠ [] := by
    simp only [Writing.number, ne_eq, List.append_eq_nil_iff, not_and]
    exact fun hword => absurd hword.2 w.digits_ne
  have hends : Text.EndsSolid w.suffix :=
    fun c hc => isBlank_of_isLetter (w.split.isLetter (List.mem_of_mem_getLast? hc))
  exact Text.trim_eq_self (w.opensSolid_number.append hnumber _) (hends.append h _)

/-- A number, a blank and a suffix. -/
theorem parse_number_blank_suffix {n unit : Nat} {suffix : List Char} {text : String}
    (htext : text.toList = Nat.toDigits 10 n ++ [' '] ++ suffix)
    (hunit : (suffix.map Char.toUpper, unit) ∈ suffixes) (hne : suffix ≠ []) (hpos : 0 < n * unit)
    (hword : n * unit ≤ Word.max) : parse text = .ok ⟨n * unit⟩ := by
  have hvalue := Text.digitsValue_toDigits n
  have hn : n ≤ Word.max :=
    Nat.le_trans (Nat.le_mul_of_pos_right n (Nat.pos_of_mul_pos_left hpos)) hword
  let w : Writing :=
    { sign := [], digits := Nat.toDigits 10 n, blanks := [' '], suffix, unit
      sign_ok := .inl rfl
      digits_ne := Nat.toDigits_ne_nil
      digits_ok := fun _ => Text.isDigit_of_mem_toDigits
      word := hvalue.symm ▸ hn
      blanks_ok := List.forall_mem_singleton.mpr (by decide)
      unit_ok := hunit }
  have hbytes : w.bytes = n * unit := congrArg (· * unit) hvalue
  refine parse_eq_ok_iff.mpr ⟨w, ?_, hbytes, hpos, hword⟩
  rw [htext]
  exact w.trim_text hne

/-- A size is printed in the greatest unit that divides it, and read back from there. -/
theorem parse_text (s : ArenaSize) (hpos : 1 ≤ s.bytes) (hword : s.bytes ≤ Word.max) :
    parse s.text = .ok s := by
  -- Whatever the unit, the printed quotient times the unit is the size again.
  have hread : ∀ (unit : Nat) (suffix : List Char) (tail : String), tail.toList = ' ' :: suffix →
      (suffix.map Char.toUpper, unit) ∈ suffixes → suffix ≠ [] → s.bytes / unit * unit = s.bytes →
      parse (toString (s.bytes / unit) ++ tail) = .ok s := by
    intro unit suffix tail htail hunit hne hdiv
    have htext : (toString (s.bytes / unit) ++ tail).toList =
        Nat.toDigits 10 (s.bytes / unit) ++ [' '] ++ suffix := by
      rw [String.toList_append, htail, Nat.toString_eq_ofList_toDigits, String.toList_ofList,
        List.append_assoc]
      rfl
    have hparse := parse_number_blank_suffix htext hunit hne (by omega) (by omega)
    rw [hdiv] at hparse
    exact hparse
  unfold text
  split
  · rename_i h
    have hdiv := Nat.div_mul_cancel (Nat.dvd_of_mod_eq_zero h.2)
    exact hread megabyte ['M', 'B'] " MB" rfl (by decide) (by decide) hdiv
  · split
    · rename_i h
      have hdiv := Nat.div_mul_cancel (Nat.dvd_of_mod_eq_zero h.2)
      exact hread kilobyte ['K', 'B'] " KB" rfl (by decide) (by decide) hdiv
    · have hunit := hread 1 ['B'] " B" rfl (by decide) (by decide) (by omega)
      rw [Nat.div_one] at hunit
      exact hunit

/-- The greatest word is printed in bytes and read back. -/
theorem parse_text_greatest_word :
    (⟨Word.max⟩ : ArenaSize).text = "18446744073709551615 B" ∧
      parse (⟨Word.max⟩ : ArenaSize).text = .ok ⟨Word.max⟩ :=
  ⟨by decide +kernel, parse_text ⟨Word.max⟩ (by decide) (Nat.le_refl _)⟩

end ArenaSize

end TensorArena
