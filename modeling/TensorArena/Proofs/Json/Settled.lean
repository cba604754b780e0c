import Mathlib.Data.List.Forall2
import TensorArena.Json.Record
import TensorArena.Proofs.Json.Written

/-!
# Data that is written as it is read

A reader may take several values for the same datum: a label in other letters, a list in place of an
object, a default where nothing stands. A writer settles it if every datum that was read is written
as a plain value that reads as that datum again.

The readers of texts, words, truth values and bytes are settled, and so are the readers of lists and of
data that may be absent if the readers of their items are. An object is read field by field: a field
that is named once is found, wherever it stands.
-/

namespace TensorArena.Json

variable {α β γ : Type} {levels : Nat}

/-- The writer puts down a datum as a plain value that the reader takes back. -/
def Keeps (levels : Nat) (reads : Json → Option α) (writes : α → Json) (a : α) : Prop :=
  Plain levels (writes a) ∧ reads (writes a) = some a

/-- What was read is kept. -/
def Settled (levels : Nat) (reads : Json → Option α) (writes : α → Json) : Prop :=
  ∀ j a, reads j = some a → Keeps levels reads writes a

/-- What was read from a text is read again from the text that is written for it. -/
theorem Settled.read_write {reads : Json → Option α} {writes : α → Json}
    (h : Settled levels reads writes) {c : Codec} (hc : c.Faithful levels) {text : String} {a : α}
    (ha : (c.read text).bind reads = some a) : (c.read (c.write (writes a))).bind reads = some a := by
  obtain ⟨j, -, hj⟩ := Option.bind_eq_some_iff.mp ha
  obtain ⟨hplain, hread⟩ := h j a hj
  rw [hc _ hplain, Option.bind_some, hread]

theorem keeps_text (s : String) : Keeps levels text? text s :=
  ⟨.text s, rfl⟩

theorem keeps_bool (b : Bool) : Keeps levels bool? bool b :=
  ⟨.bool b, rfl⟩

theorem keeps_word {n : Nat} (h : n ≤ Word.max) : Keeps levels word? nat n := by
  refine ⟨.nat h, ?_⟩
  have hvalue := Text.digitsValue_toDigits n
  have hword : Text.word? (Nat.toDigits 10 n) = some n :=
    Text.word?_eq_some_iff.mpr
      ⟨Nat.toDigits_ne_nil, fun _ => Text.isDigit_of_mem_toDigits, hvalue.symm ▸ h, hvalue⟩
  simpa [nat, word?, Numeral.word?, Numeral.ofNat] using hword

theorem settled_word : Settled levels word? nat := by
  intro j n h
  cases j with
  | number m =>
    simp only [word?, Numeral.word?] at h
    split at h
    · cases h
    · obtain ⟨-, -, hmax, rfl⟩ := Text.word?_eq_some_iff.mp h
      exact keeps_word hmax
  | null | bool | string | array | object => cases h

theorem keeps_byte (b : UInt8) : Keeps levels byte? (fun b => nat b.toNat) b := by
  have hlt : b.toNat < 256 := b.toNat_lt
  have hmax : b.toNat ≤ Word.max := Nat.le_trans (Nat.le_of_lt hlt) (by decide)
  obtain ⟨hplain, hword⟩ : Keeps levels word? nat b.toNat := keeps_word hmax
  refine ⟨hplain, ?_⟩
  rw [byte?, hword]
  simp [hlt]

theorem mapM_map_eq_some {f : α → β} {g : β → Option γ} {h : α → γ} {l : List α}
    (hg : ∀ a ∈ l, g (f a) = some (h a)) : (l.map f).mapM g = some (l.map h) := by
  induction l with
  | nil => rfl
  | cons a l ih =>
    rw [List.map_cons, List.mapM_cons, hg a List.mem_cons_self,
      ih fun b hb => hg b (List.mem_cons_of_mem _ hb)]
    rfl

/-- The items of a list are read one by one. -/
theorem list?_array (reads : Json → Option α) (items : List Json) :
    list? reads (array items) = items.mapM reads := by
  have hfold (sofar : Option (List α)) :
      items.foldl (fun acc v => push acc (reads v)) sofar =
        sofar.bind fun earlier => (items.mapM reads).map (List.reverseAux · earlier) := by
    induction items generalizing sofar with
    | nil => cases sofar <;> rfl
    | cons v items ih =>
      rw [List.foldl_cons, ih, List.mapM_cons]
      cases sofar with
      | none => rfl
      | some earlier =>
        cases reads v with
        | none => rfl
        | some a =>
          cases items.mapM reads with
          | none => rfl
          | some l => rfl
  rw [list?, hfold]
  simp [Option.map_map]

/-- A list is read by reading all its items, in their order. -/
theorem list?_eq_some_iff {reads : Json → Option α} {items : List Json} {found : List α} :
    list? reads (array items) = some found ↔
      List.Forall₂ (fun v a => reads v = some a) items found := by
  rw [list?_array]
  induction items generalizing found with
  | nil =>
    rw [List.forall₂_nil_left_iff]
    exact ⟨fun h => (Option.some.inj h).symm, fun h => h ▸ rfl⟩
  | cons v items ih =>
    rw [List.mapM_cons, List.forall₂_cons_left_iff]
    constructor
    · intro h
      obtain ⟨a, ha, h⟩ := Option.bind_eq_some_iff.mp h
      obtain ⟨rest, hrest, h⟩ := Option.bind_eq_some_iff.mp h
      exact ⟨a, rest, ha, ih.mp hrest, (Option.some.inj h).symm⟩
    · rintro ⟨a, rest, ha, hrest, rfl⟩
      rw [ha, ih.mpr hrest]
      rfl

/-- A list is kept if its items are. -/
theorem keeps_list {reads : Json → Option α} {writes : α → Json} {l : List α}
    (h : ∀ a ∈ l, Keeps levels reads writes a) :
    Keeps (levels + 1) (list? reads) (fun l => array (l.map writes)) l := by
  constructor
  · refine .array fun v hv => ?_
    obtain ⟨a, ha, rfl⟩ := List.mem_map.mp hv
    exact (h a ha).1
  · rw [list?_array, mapM_map_eq_some (h := id) fun a ha => (h a ha).2, List.map_id]

theorem Settled.list {reads : Json → Option α} {writes : α → Json}
    (h : Settled levels reads writes) :
    Settled (levels + 1) (list? reads) (fun l => array (l.map writes)) := by
  intro j l hl
  cases j with
  | array items =>
    obtain ⟨hlength, hread⟩ := List.forall₂_iff_get.mp (list?_eq_some_iff.mp hl)
    refine keeps_list fun a ha => ?_
    obtain ⟨i, hi, rfl⟩ := List.mem_iff_get.mp ha
    exact h _ _ (hread i (Nat.lt_of_lt_of_eq i.isLt hlength.symm) i.isLt)
  | null | bool | number | string | object => cases hl

/-- A datum that may be absent is kept if a present one is, and is not written as an absent one. -/
theorem Settled.nullable {reads : Json → Option α} {writes : α → Json}
    (h : Settled levels reads writes) (hnull : ∀ a, writes a ≠ null) :
    Settled levels (nullable? reads) (optional writes) := by
  have hsome (a : α) (ha : Keeps levels reads writes a) :
      Keeps levels (nullable? reads) (optional writes) (some a) := by
    refine ⟨ha.1, ?_⟩
    unfold nullable?
    split
    · exact absurd ‹_› (hnull a)
    · exact congrArg (Option.map some) ha.2
  intro j o ho
  unfold nullable? at ho
  split at ho
  · cases ho
    exact ⟨.null, rfl⟩
  · obtain ⟨a, ha, rfl⟩ := Option.map_eq_some_iff.mp ho
    exact hsome a (h j a ha)

/-- A datum with several spellings is kept if its own spelling is read as it. -/
theorem settled_map {reads : Json → Option β} {writes : β → Json}
    (h : ∀ b, Keeps levels reads writes b) {f : β → α} {g : α → β} (hg : ∀ b, f (g (f b)) = f b) :
    Settled levels (fun j => (reads j).map f) (fun a => writes (g a)) := by
  intro j a ha
  obtain ⟨b, -, rfl⟩ := Option.map_eq_some_iff.mp ha
  obtain ⟨hplain, hread⟩ := h (g (f b))
  exact ⟨hplain, (congrArg (Option.map f) hread).trans (congrArg some (hg b))⟩

/-! ## Fields -/

/-- A field that is named once is found. -/
theorem field?_of_mem {fields : List (String × Json)} (names : (fields.map Prod.fst).Nodup)
    {f : String × Json} (h : f ∈ fields) :
    field? (fields.map fun (k, v) => (some k, v)) f.1 = some (some f.2) := by
  have hfilter : (fields.filter fun g => g.1 = f.1) = [f] := by
    induction fields with
    | nil => cases h
    | cons g fields ih =>
      rw [List.map_cons, List.nodup_cons] at names
      rcases List.mem_cons.mp h with rfl | hf
      · have hnone : (fields.filter fun g => g.1 = f.1) = [] := by
          refine List.filter_eq_nil_iff.mpr fun g hg heq => names.1 ?_
          exact List.mem_map.mpr ⟨g, hg, of_decide_eq_true heq⟩
        rw [List.filter_cons_of_pos (by simp), hnone]
      · have hne : g.1 ≠ f.1 := fun heq => names.1 (heq ▸ List.mem_map_of_mem hf)
        rw [List.filter_cons_of_neg (by simp [hne]), ih names.2 hf]
  have hmap : ((fields.map fun (k, v) => (some k, v)).filter fun g => g.1 = some f.1) =
      [(some f.1, f.2)] := by
    rw [List.filter_map]
    simpa [Function.comp_def] using congrArg (List.map fun g => (some g.1, g.2)) hfilter
  rw [field?, hmap]

/-- All fields of an object are found by their names. -/
theorem slots?_record {fields : List (String × Json)} (names : (fields.map Prod.fst).Nodup) :
    (record fields).slots? (fields.map Prod.fst) = some (fields.map fun f => some f.2) := by
  have hnamed : ((fields.map fun (k, v) => (some k, v)).any fun f => f.1.isNone) = false := by simp
  rw [record, slots?, hnamed, if_neg (by decide),
    mapM_map_eq_some fun f hf => field?_of_mem names hf]

/-- An object of plain values under different names is plain, and gives each value its place. -/
theorem plain_record (names : List String) {values : List Json} (hnames : names.Nodup)
    (hlen : names.length = values.length) (hvalues : ∀ v ∈ values, Plain levels v) :
    Plain (levels + 1) (record (names.zip values)) ∧
      (record (names.zip values)).slots? names = some (values.map some) := by
  have hfst : (names.zip values).map Prod.fst = names := List.map_fst_zip (Nat.le_of_eq hlen)
  have hsnd : (names.zip values).map Prod.snd = values := List.map_snd_zip (Nat.le_of_eq hlen.symm)
  have hnodup : ((names.zip values).map Prod.fst).Nodup := hfst.symm ▸ hnames
  have hslots := slots?_record hnodup
  rw [hfst, ← Function.comp_def some Prod.snd, ← List.map_map, hsnd] at hslots
  exact ⟨.record hnodup fun f hf => hvalues f.2 (List.of_mem_zip hf).2, hslots⟩

/-- A required field is present and was read. -/
theorem exists_of_required {reads : Json → Option α} {slot : Option Json} {a : α}
    (h : required reads slot = some a) : ∃ j, reads j = some a := by
  obtain ⟨j, -, hj⟩ := Option.bind_eq_some_iff.mp h
  exact ⟨j, hj⟩

/-- A field with a default was read, or could have been where the default stands. -/
theorem exists_of_withDefault {reads : Json → Option α} {default : α} {slot : Option Json} {a : α}
    (hdefault : ∃ j, reads j = some default) (h : withDefault default reads slot = some a) :
    ∃ j, reads j = some a := by
  cases slot with
  | none =>
    cases h
    exact hdefault
  | some j => exact ⟨j, h⟩

end TensorArena.Json
