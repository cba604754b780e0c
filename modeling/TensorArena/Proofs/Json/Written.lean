import Mathlib.Data.List.TakeDrop
import TensorArena.Json.Reader
import TensorArena.Json.Writer
import TensorArena.Proofs.Text.Decimal

/-!
# Reading what was written

`Plain` values are made of texts, words, truth values and nulls by lists and by objects that name no
field twice, and a level counts how deep these stand in each other. The reader gives back every plain
value from the line that it is written as, and goes on with what stands behind it.

The induction is on the value. The reader recurs on a count of steps, and as every step takes at least
one character, the length of what was written bounds the steps that it needs.
-/

namespace TensorArena.Json

/-- Values of texts, words, truth values and nulls, with lists and objects in each other up to a
number of levels. -/
inductive Plain : (levels : Nat) → Json → Prop
  | null {levels : Nat} : Plain levels null
  | bool {levels : Nat} (b : Bool) : Plain levels (bool b)
  | nat {levels n : Nat} (h : n ≤ Word.max) : Plain levels (nat n)
  | text {levels : Nat} (s : String) : Plain levels (text s)
  | array {levels : Nat} {items : List Json} (h : ∀ v ∈ items, Plain levels v) :
      Plain (levels + 1) (array items)
  | record {levels : Nat} {fields : List (String × Json)} (names : (fields.map Prod.fst).Nodup)
      (h : ∀ f ∈ fields, Plain levels f.2) : Plain (levels + 1) (record fields)

/-! ## Numbers -/

/-- What may stand behind a value: the end, or what separates and closes. -/
def Closes (rest : List Char) : Prop :=
  ∀ c ∈ rest.head?, c = ',' ∨ c = ']' ∨ c = '\x7d'

theorem closes_cons {c : Char} {rest : List Char} (h : c = ',' ∨ c = ']' ∨ c = '\x7d') :
    Closes (c :: rest) := by
  intro d hd
  cases hd
  exact h

theorem spanDigits_append {digits rest : List Char}
    (hdigits : ∀ c ∈ digits, Text.isDigit c = true)
    (hrest : ∀ c ∈ rest.head?, Text.isDigit c = false) :
    spanDigits (digits ++ rest) = (digits, rest) := by
  have hstop : rest.takeWhile Text.isDigit = [] ∧ rest.dropWhile Text.isDigit = rest := by
    cases rest with
    | nil => exact ⟨rfl, rfl⟩
    | cons c rest =>
      have hc : Text.isDigit c = false := hrest c rfl
      exact ⟨List.takeWhile_cons_of_neg (by simp [hc]), List.dropWhile_cons_of_neg (by simp [hc])⟩
  rw [spanDigits, List.span_eq_takeWhile_dropWhile, List.takeWhile_append_of_pos hdigits,
    List.dropWhile_append_of_pos hdigits, hstop.1, hstop.2, List.append_nil]

/-- Only the number zero is printed with a zero in front. -/
theorem head?_toDigits_ne {n : Nat} (h : 0 < n) : (Nat.toDigits 10 n).head? ≠ some '0' := by
  induction n using Nat.strongRecOn with
  | ind n ih =>
    by_cases hlt : n < 10
    · rw [Nat.toDigits_of_lt_base hlt]
      have hall : ∀ n < 10, 0 < n → [Nat.digitChar n].head? ≠ some '0' := by decide
      exact hall n hlt h
    · rw [Nat.toDigits_of_base_le (by decide) (Nat.le_of_not_lt hlt),
        List.head?_append_of_ne_nil _ Nat.toDigits_ne_nil]
      exact ih (n / 10) (by omega) (by omega)

theorem readWhole_toDigits (n : Nat) {rest : List Char}
    (hrest : ∀ c ∈ rest.head?, Text.isDigit c = false) :
    readWhole (Nat.toDigits 10 n ++ rest) = some (Nat.toDigits 10 n, rest) := by
  have hspan := spanDigits_append (fun c hc => Text.isDigit_of_mem_toDigits (n := n) hc) hrest
  unfold readWhole
  rw [hspan]
  split
  · rename_i heq
    exact absurd (congrArg Prod.fst heq) Nat.toDigits_ne_nil
  · rename_i c cs _ heq
    have hdigits : Nat.toDigits 10 n = '0' :: c :: cs := congrArg Prod.fst heq
    rcases Nat.eq_zero_or_pos n with rfl | hpos
    · simp at hdigits
    · exact absurd (by rw [hdigits]; rfl) (head?_toDigits_ne hpos)
  · rfl

theorem Closes.not_isDigit {rest : List Char} (h : Closes rest) :
    ∀ c ∈ rest.head?, Text.isDigit c = false := by
  intro c hc
  rcases h c hc with rfl | rfl | rfl
  · rfl
  · rfl
  · rfl

theorem Closes.readFraction_eq {rest : List Char} (h : Closes rest) :
    readFraction rest = some ([], rest) := by
  unfold readFraction
  split
  · exact absurd (h '.' rfl) (by decide)
  · rfl

theorem Closes.readExponent_eq {rest : List Char} (h : Closes rest) :
    readExponent rest = some (none, rest) := by
  cases rest with
  | nil => rfl
  | cons c rest =>
    rcases h c rfl with rfl | rfl | rfl
    · rfl
    · rfl
    · rfl

/-- A printed number is a number without a sign, a fraction and an exponent. -/
theorem readNumber_toDigits (n : Nat) {rest : List Char} (h : Closes rest) :
    readNumber (Nat.toDigits 10 n ++ rest) = some (Numeral.ofNat n, rest) := by
  unfold readNumber
  split
  rename_i negative cs hsign
  split at hsign
  · -- No printed number starts with a minus sign.
    rename_i heq
    obtain ⟨d, ds, hds⟩ := List.exists_cons_of_ne_nil (Nat.toDigits_ne_nil (n := n) (b := 10))
    rw [hds] at heq
    obtain ⟨rfl, -⟩ := List.cons.inj heq
    exact absurd (Text.isDigit_of_mem_toDigits (hds ▸ List.mem_cons_self)) (by decide)
  · cases hsign
    simp only [readWhole_toDigits n h.not_isDigit, h.readFraction_eq, h.readExponent_eq,
      Option.bind_eq_bind, Option.bind_some, Numeral.ofNat, Nat.toString_eq_repr, Nat.toList_repr]

/-! ## Texts -/

theorem hexValue?_hexDigit {n : Nat} (h : n < 16) :
    Bytes.hexValue? (Bytes.hexDigit n) = some n := by
  have hall : ∀ n < 16, Bytes.hexValue? (Bytes.hexDigit n) = some n := by decide
  exact hall n h

/-- The code of a control character in four hexadecimal digits. -/
theorem hex4?_escape {n : Nat} (h : n < 32) (rest : List Char) :
    hex4? ('0' :: '0' :: Bytes.hexDigit (n / 16) :: Bytes.hexDigit (n % 16) :: rest) =
      some (n, rest) := by
  have hzero : Bytes.hexValue? '0' = some 0 := by decide
  have hsum : ((0 * 16 + 0) * 16 + n / 16) * 16 + n % 16 = n := by omega
  simp only [hex4?, hzero, hexValue?_hexDigit (n := n / 16) (by omega),
    hexValue?_hexDigit (n := n % 16) (by omega), Option.bind_eq_bind, Option.bind_some, hsum]

/-- What is written for a character is read as that character in one step. -/
theorem readText_escape (c : Char) (steps : Nat) (rest sofar : List Char) :
    readText (steps + 1) (escape c ++ rest) (some sofar) =
      readText steps rest (some (c :: sofar)) := by
  unfold escape
  split
  · rfl
  · rfl
  · rfl
  · rfl
  · rfl
  · rfl
  · rfl
  · rename_i hquote hslash _ _ _ _ _
    split
    · rename_i hlow
      simp only [List.cons_append, List.nil_append]
      rw [readText]
      simp only [hex4?_escape hlow]
      rw [if_neg (by omega), if_neg (by omega), Option.map_some, Char.ofNat_toNat]
    · rename_i hhigh
      rw [List.singleton_append, readText, if_neg hhigh, Option.map_some]
      · exact fun h => hquote h
      · exact fun rest h _ => hslash h
      · exact fun d rest h _ => hslash h

theorem length_escape_pos (c : Char) : 0 < (escape c).length := by
  unfold escape
  split <;> try exact Nat.succ_pos _
  split <;> exact Nat.succ_pos _

/-- A text is read up to its closing quote. -/
theorem readText_quoted (cs : List Char) (rest sofar : List Char) (steps : Nat)
    (h : (cs.flatMap escape).length < steps) :
    readText steps (cs.flatMap escape ++ '"' :: rest) (some sofar) =
      some (some (String.ofList (sofar.reverse ++ cs)), rest) := by
  induction cs generalizing sofar steps with
  | nil =>
    obtain ⟨steps, rfl⟩ := Nat.exists_eq_add_of_lt h
    simp only [List.flatMap_nil, List.length_nil, List.nil_append, List.append_nil]
    rfl
  | cons c cs ih =>
    rw [List.flatMap_cons, List.length_append] at h
    have hpos := length_escape_pos c
    obtain ⟨steps, rfl⟩ := Nat.exists_eq_add_of_lt (Nat.lt_of_le_of_lt (Nat.zero_le _) h)
    rw [List.flatMap_cons, List.append_assoc, readText_escape, ih (c :: sofar) _ (by omega)]
    simp

/-! ## Lines -/

theorem toList_quote (s : String) :
    (quote s).toList = '"' :: (s.toList.flatMap escape ++ ['"']) := by
  simp [quote]

theorem toList_compact_nat (n : Nat) : (nat n).compact.toList = Nat.toDigits 10 n := by
  simp [nat, compact, Numeral.text, Numeral.ofNat, Binary.sign]

theorem toList_compact_text (s : String) :
    (text s).compact.toList = '"' :: (s.toList.flatMap escape ++ ['"']) :=
  toList_quote s

/-- Lines with commas between them. -/
def joined (lines : List String) : List Char :=
  (",".intercalate lines).toList

theorem joined_singleton (line : String) : joined [line] = line.toList := by
  rw [joined, String.intercalate_singleton]

theorem joined_cons_cons (line next : String) (rest : List String) :
    joined (line :: next :: rest) = line.toList ++ ',' :: joined (next :: rest) := by
  simp only [joined, String.intercalate_cons_cons, String.toList_append, List.append_assoc]
  rfl

theorem exists_joined_cons (line : String) (rest : List String) :
    ∃ more, joined (line :: rest) = line.toList ++ more := by
  cases rest with
  | nil => exact ⟨[], by rw [joined_singleton, List.append_nil]⟩
  | cons next rest => exact ⟨_, joined_cons_cons line next rest⟩

theorem compactItems_eq (items : List Json) : compactItems items = items.map compact := by
  induction items with
  | nil => rfl
  | cons v rest ih => rw [compactItems, ih, List.map_cons]

theorem toList_compact_array (items : List Json) :
    (array items).compact.toList = '[' :: (joined (items.map compact) ++ [']']) := by
  rw [compact, compactItems_eq, String.toList_append, String.toList_append]
  rfl

/-- The line of a field. -/
def fieldText (f : String × Json) : String :=
  quote f.1 ++ ":" ++ f.2.compact

theorem toList_fieldText (f : String × Json) :
    (fieldText f).toList =
      '"' :: (f.1.toList.flatMap escape ++ '"' :: ':' :: f.2.compact.toList) := by
  simp [fieldText, toList_quote]

theorem compactFields_eq (fields : List (String × Json)) :
    compactFields (fields.map fun (k, v) => (some k, v)) = fields.map fieldText := by
  induction fields with
  | nil => rfl
  | cons f rest ih =>
    rw [List.map_cons, compactFields, ih, List.map_cons]
    rfl

theorem toList_compact_record (fields : List (String × Json)) :
    (record fields).compact.toList =
      '\x7b' :: (joined (fields.map fieldText) ++ ['\x7d']) := by
  rw [record, compact, compactFields_eq, String.toList_append, String.toList_append]
  rfl

theorem isSpace_of_isDigit {c : Char} (h : Text.isDigit c = true) : isSpace c = false := by
  simp only [isSpace, Bool.or_eq_false_iff, beq_eq_false_iff_ne]
  refine ⟨⟨⟨?_, ?_⟩, ?_⟩, ?_⟩
  · rintro rfl
    exact absurd h (by decide)
  · rintro rfl
    exact absurd h (by decide)
  · rintro rfl
    exact absurd h (by decide)
  · rintro rfl
    exact absurd h (by decide)

/-- No blank stands in front of a written value, and no bracket that closes. -/
theorem Plain.opens {levels : Nat} {v : Json} (h : Plain levels v) :
    ∃ c cs, v.compact.toList = c :: cs ∧ isSpace c = false ∧ c ≠ ']' := by
  cases h with
  | null => exact ⟨'n', ['u', 'l', 'l'], rfl, rfl, by decide⟩
  | bool b =>
    cases b with
    | true => exact ⟨'t', ['r', 'u', 'e'], rfl, rfl, by decide⟩
    | false => exact ⟨'f', ['a', 'l', 's', 'e'], rfl, rfl, by decide⟩
  | @nat _ n _ =>
    obtain ⟨d, ds, hds⟩ := List.exists_cons_of_ne_nil (Nat.toDigits_ne_nil (n := n) (b := 10))
    have hdigit := Text.isDigit_of_mem_toDigits (n := n) (hds ▸ List.mem_cons_self)
    refine ⟨d, ds, (toList_compact_nat n).trans hds, isSpace_of_isDigit hdigit, ?_⟩
    rintro rfl
    exact absurd hdigit (by decide)
  | text s => exact ⟨'"', _, toList_compact_text s, rfl, by decide⟩
  | array h => exact ⟨'[', _, toList_compact_array _, rfl, by decide⟩
  | record names h => exact ⟨'\x7b', _, toList_compact_record _, rfl, by decide⟩

/-! ## Values -/

/-- The value is read back from its line. -/
def ReadsBack (v : Json) : Prop :=
  ∀ (steps : Nat) (rest : List Char), Closes rest → v.compact.toList.length < steps →
    readValue steps (v.compact.toList ++ rest) = some (v, rest)

theorem skipSpaces_cons {c : Char} (h : isSpace c = false) (cs : List Char) :
    skipSpaces (c :: cs) = c :: cs :=
  List.dropWhile_cons_of_neg (by simp [h])

/-- The items of a list are read up to its closing bracket. -/
theorem readItems_joined {items : List Json} (hne : items ≠ []) (h : ∀ v ∈ items, ReadsBack v)
    (rest : List Char) (earlier : List Json) (steps : Nat)
    (hsteps : (joined (items.map compact)).length + 1 < steps) :
    readItems steps (joined (items.map compact) ++ ']' :: rest) earlier =
      some (array (earlier.reverse ++ items), rest) := by
  induction items generalizing earlier steps with
  | nil => exact absurd rfl hne
  | cons v items ih =>
    obtain ⟨steps, rfl⟩ := Nat.exists_eq_add_of_lt (Nat.lt_of_le_of_lt (Nat.zero_le _) hsteps)
    rw [Nat.zero_add] at hsteps ⊢
    have hv := h v List.mem_cons_self steps
    cases items with
    | nil =>
      rw [List.map_cons, List.map_nil, joined_singleton] at hsteps ⊢
      rw [readItems, hv _ (closes_cons (.inr (.inl rfl))) (by omega)]
      simp [skipSpaces_cons (c := ']') rfl]
    | cons w items =>
      rw [List.map_cons, List.map_cons, joined_cons_cons, ← List.map_cons] at hsteps ⊢
      rw [List.length_append, List.length_cons] at hsteps
      have hrest := ih (by simp) (fun u hu => h u (List.mem_cons_of_mem _ hu)) (v :: earlier)
        steps (by omega)
      rw [List.append_assoc, List.cons_append, readItems, hv _ (closes_cons (.inl rfl)) (by omega)]
      simp only [skipSpaces_cons (c := ',') rfl, hrest]
      simp

/-- A field is read up to what separates or closes. -/
theorem readFields_field {f : String × Json} (hf : ReadsBack f.2)
    (earlier : List (Option String × Json)) {steps : Nat}
    (hsteps : (fieldText f).toList.length < steps) (rest : List Char) :
    readFields (steps + 1) ((fieldText f).toList ++ ',' :: rest) earlier =
        readFields steps rest ((some f.1, f.2) :: earlier) ∧
      readFields (steps + 1) ((fieldText f).toList ++ '\x7d' :: rest) earlier =
        some (object ((some f.1, f.2) :: earlier).reverse, rest) := by
  rw [toList_fieldText] at hsteps ⊢
  simp only [List.length_cons, List.length_append] at hsteps
  have hname := fun rest => readText_quoted f.1.toList rest [] steps (by omega)
  have hvalue := fun rest hrest => hf steps rest hrest (by omega)
  simp only [List.cons_append, List.append_assoc, readFields, skipSpaces_cons (c := '"') rfl, hname,
    skipSpaces_cons (c := ':') rfl, List.reverse_nil, List.nil_append, String.ofList_toList,
    hvalue _ (closes_cons (.inl rfl)), hvalue _ (closes_cons (.inr (.inr rfl))),
    skipSpaces_cons (c := ',') rfl, skipSpaces_cons (c := '\x7d') rfl, and_self]

/-- The fields of an object are read up to its closing brace. -/
theorem readFields_joined {fields : List (String × Json)} (hne : fields ≠ [])
    (h : ∀ f ∈ fields, ReadsBack f.2) (rest : List Char) (earlier : List (Option String × Json))
    (steps : Nat) (hsteps : (joined (fields.map fieldText)).length + 1 < steps) :
    readFields steps (joined (fields.map fieldText) ++ '\x7d' :: rest) earlier =
      some (object (earlier.reverse ++ fields.map fun (k, v) => (some k, v)), rest) := by
  induction fields generalizing earlier steps with
  | nil => exact absurd rfl hne
  | cons f fields ih =>
    obtain ⟨steps, rfl⟩ := Nat.exists_eq_add_of_lt (Nat.lt_of_le_of_lt (Nat.zero_le _) hsteps)
    rw [Nat.zero_add] at hsteps ⊢
    have hf := h f List.mem_cons_self
    cases fields with
    | nil =>
      rw [List.map_cons, List.map_nil, joined_singleton] at hsteps ⊢
      rw [(readFields_field hf earlier (by omega) rest).2]
      simp
    | cons g fields =>
      rw [List.map_cons, List.map_cons, joined_cons_cons, ← List.map_cons] at hsteps ⊢
      rw [List.length_append, List.length_cons] at hsteps
      have hrest := ih (by simp) (fun u hu => h u (List.mem_cons_of_mem _ hu))
        ((some f.1, f.2) :: earlier) steps (by omega)
      rw [List.append_assoc, List.cons_append, (readFields_field hf earlier (by omega) _).1, hrest]
      simp

theorem readsBack_of_steps {v : Json}
    (h : ∀ (steps : Nat) (rest : List Char), Closes rest → v.compact.toList.length ≤ steps →
      readValue (steps + 1) (v.compact.toList ++ rest) = some (v, rest)) : ReadsBack v := by
  intro steps rest hrest hsteps
  cases steps with
  | zero => exact absurd hsteps (Nat.not_lt_zero _)
  | succ steps => exact h steps rest hrest (Nat.le_of_lt_succ hsteps)

/-- The line of a number opens no text, list, object or word of letters. -/
theorem readsBack_nat (n : Nat) : ReadsBack (nat n) := by
  refine readsBack_of_steps fun steps rest hrest _ => ?_
  have hnumber := readNumber_toDigits n hrest
  obtain ⟨d, ds, hds⟩ := List.exists_cons_of_ne_nil (Nat.toDigits_ne_nil (n := n) (b := 10))
  have hdigit : Text.isDigit d = true := Text.isDigit_of_mem_toDigits (hds ▸ List.mem_cons_self)
  have hother {c : Char} (hc : Text.isDigit c = false) (cs : List Char) :
      d :: (ds ++ rest) ≠ c :: cs := by
    intro heq
    rw [(List.cons.inj heq).1, hc] at hdigit
    exact absurd hdigit (by decide)
  rw [hds, List.cons_append] at hnumber
  rw [toList_compact_nat, hds, List.cons_append, readValue,
    skipSpaces_cons (isSpace_of_isDigit hdigit)]
  split
  · exact absurd ‹_› (hother rfl _)
  · exact absurd ‹_› (hother rfl _)
  · exact absurd ‹_› (hother rfl _)
  · exact absurd ‹_› (hother rfl _)
  · exact absurd ‹_› (hother rfl _)
  · exact absurd ‹_› (hother rfl _)
  · rw [hnumber]
    rfl

theorem readsBack_text (s : String) : ReadsBack (text s) := by
  refine readsBack_of_steps fun steps rest _ hsteps => ?_
  rw [toList_compact_text] at hsteps ⊢
  simp only [List.length_cons, List.length_append] at hsteps
  rw [List.cons_append, List.append_assoc, List.singleton_append, readValue, skipSpaces_cons rfl]
  simp only [readText_quoted s.toList _ [] steps (by omega), List.reverse_nil,
    List.nil_append, String.ofList_toList]
  rfl

theorem readsBack_array {levels : Nat} {items : List Json} (hplain : ∀ v ∈ items, Plain levels v)
    (h : ∀ v ∈ items, ReadsBack v) : ReadsBack (array items) := by
  refine readsBack_of_steps fun steps rest _ hsteps => ?_
  rw [toList_compact_array] at hsteps ⊢
  simp only [List.length_cons, List.length_append] at hsteps
  rw [List.cons_append, List.append_assoc, List.singleton_append, readValue, skipSpaces_cons rfl]
  cases items with
  | nil => rfl
  | cons v items =>
    have hread := readItems_joined (List.cons_ne_nil v items) h rest [] steps (by omega)
    obtain ⟨more, hmore⟩ := exists_joined_cons v.compact (items.map compact)
    obtain ⟨c, cs, hline, hsolid, hopen⟩ := (hplain v List.mem_cons_self).opens
    rw [List.map_cons, hmore, hline, List.cons_append, List.cons_append] at hread ⊢
    simp only [skipSpaces_cons hsolid]
    split
    · rename_i heq
      exact absurd (List.cons.inj heq).1 hopen
    · exact hread

theorem readsBack_record {fields : List (String × Json)} (h : ∀ f ∈ fields, ReadsBack f.2) :
    ReadsBack (record fields) := by
  refine readsBack_of_steps fun steps rest _ hsteps => ?_
  rw [toList_compact_record] at hsteps ⊢
  simp only [List.length_cons, List.length_append] at hsteps
  rw [List.cons_append, List.append_assoc, List.singleton_append, readValue, skipSpaces_cons rfl]
  cases fields with
  | nil => rfl
  | cons f fields =>
    have hread := readFields_joined (List.cons_ne_nil f fields) h rest [] steps (by omega)
    obtain ⟨more, hmore⟩ := exists_joined_cons (fieldText f) (fields.map fieldText)
    rw [List.map_cons, hmore, toList_fieldText, List.cons_append, List.cons_append] at hread ⊢
    simp only [skipSpaces_cons (c := '"') rfl]
    exact hread

theorem Plain.readsBack {levels : Nat} {v : Json} (h : Plain levels v) : v.ReadsBack := by
  induction h with
  | null => exact readsBack_of_steps fun _ _ _ _ => rfl
  | bool b =>
    cases b with
    | true => exact readsBack_of_steps fun _ _ _ _ => rfl
    | false => exact readsBack_of_steps fun _ _ _ _ => rfl
  | nat => exact readsBack_nat _
  | text s => exact readsBack_text s
  | array h ih => exact readsBack_array h ih
  | record names h ih => exact readsBack_record ih

/-- A plain value is read back from its line. -/
theorem read_compact {levels : Nat} {v : Json} (h : Plain levels v) : read v.compact = some v := by
  have hread := h.readsBack (v.compact.toList.length + 1) [] (by intro c hc; cases hc)
    (Nat.lt_succ_self _)
  rw [List.append_nil] at hread
  rw [read, hread]
  rfl

/-! ## Codecs -/

/-- A way to write values as texts and to read texts as values. -/
structure Codec where
  read : String → Option Json
  write : Json → String

namespace Codec

/-- Plain values of a number of levels are read back from what was written. -/
def Faithful (levels : Nat) (c : Codec) : Prop :=
  ∀ v, Plain levels v → c.read (c.write v) = some v

/-- Values on one line. -/
def line : Codec :=
  ⟨Json.read, compact⟩

theorem faithful_line (levels : Nat) : line.Faithful levels :=
  fun _ => read_compact

end Codec

end TensorArena.Json
