import TensorArena.Graph.Operator
import TensorArena.Graph.Tensor
import TensorArena.Proofs.Json.Settled
import TensorArena.Proofs.Tensor.Words

/-!
# Definitions written and read again

An operator or a tensor that was read is written as a text that reads as the same operator or tensor.
Reading loses something: the letter case of a code and a second name for it, whether a field was given
or left to its default, and how the fields were laid out. What is written is one of the forms that lead
to the same definition, so one pass is enough.
-/

namespace TensorArena

open Json

variable {levels : Nat}

namespace OpCode

/-- The label of a code that was asked for by name asks for that code. -/
theorem ofName_label_ofName (name : String) : ofName (ofName name).label = ofName name := by
  cases hcode : ofName name with
  | add => decide +kernel
  | mul => decide +kernel
  | custom other =>
    -- Only a name that is no built-in code is kept.
    have hkept : other = name := by
      unfold ofName at hcode
      split at hcode
      · cases hcode
      · cases hcode
      · cases hcode
      · exact (custom.inj hcode).symm
    rw [label, hkept, hcode, hkept]

theorem settled : Settled levels ofJson? toJson :=
  settled_map keeps_text ofName_label_ofName

end OpCode

theorem DType.settled : Settled levels DType.ofJson? DType.toJson := by
  intro j d _
  refine ⟨.text d.label, ?_⟩
  cases d with
  | _ => rfl

/-- The dimensions of a shape that was read were read as words. -/
theorem Shape.dims_of_ofJson {j : Json} {s : Shape} (h : Shape.ofJson? j = some s) :
    ∃ j, list? word? j = some s.dims := by
  obtain ⟨slots, -, h⟩ := Option.bind_eq_some_iff.mp h
  split at h
  · obtain ⟨dims, hdims, h⟩ := Option.bind_eq_some_iff.mp h
    cases h
    exact exists_of_required hdims
  · cases h

theorem Shape.settled : Settled (levels + 2) Shape.ofJson? Shape.toJson := by
  intro j s h
  obtain ⟨j, hdims⟩ := Shape.dims_of_ofJson h
  obtain ⟨hplain, hread⟩ : Keeps (levels + 1) (list? word?) nats s.dims :=
    settled_word.list j _ hdims
  obtain ⟨hrecord, hslots⟩ := plain_record ["dims"] (by decide) rfl
    (List.forall_mem_singleton.mpr hplain)
  refine ⟨hrecord, ?_⟩
  have hslots : s.toJson.slots? ["dims"] = some [some (nats s.dims)] := hslots
  simp only [Shape.ofJson?, hslots, Option.bind_eq_bind, Option.bind_some, required, hread]

/-- Bytes are written one by one. -/
theorem keeps_bytes (bytes : Bytes) :
    Keeps (levels + 1) (list? byte?) (fun bytes : Bytes => nats (bytes.map UInt8.toNat)) bytes := by
  have hlist : Keeps (levels + 1) (list? byte?)
      (fun bytes : Bytes => .array (bytes.map fun b => nat b.toNat)) bytes :=
    keeps_list fun b _ => keeps_byte b
  simpa [nats, Function.comp_def] using hlist

theorem Packed.settled : Settled (levels + 1) Packed.ofJson? Packed.toJson :=
  settled_map keeps_bytes fun bytes => congrArg ofBytes (toBytes_ofBytes bytes)

theorem Operator.settled_operands : Settled (levels + 1) operandsOfJson? operandsToJson :=
  (settled_word.nullable fun _ => nofun).list

/-- The fields of an operator that was read were read one by one. -/
theorem Operator.fields_of_ofJson {j : Json} {op : Operator} (h : Operator.ofJson? j = some op) :
    (∃ j, OpCode.ofJson? j = some op.code) ∧ (∃ j, operandsOfJson? j = some op.inputs) ∧
      ∃ j, operandsOfJson? j = some op.outputs := by
  obtain ⟨slots, -, h⟩ := Option.bind_eq_some_iff.mp h
  split at h
  · obtain ⟨name, -, h⟩ := Option.bind_eq_some_iff.mp h
    obtain ⟨code, hcode, h⟩ := Option.bind_eq_some_iff.mp h
    obtain ⟨inputs, hinputs, h⟩ := Option.bind_eq_some_iff.mp h
    obtain ⟨outputs, houtputs, h⟩ := Option.bind_eq_some_iff.mp h
    cases h
    exact ⟨exists_of_required hcode, exists_of_required hinputs, exists_of_required houtputs⟩
  · cases h

theorem Operator.settled : Settled (levels + 2) Operator.ofJson? Operator.toJson := by
  intro j op h
  obtain ⟨⟨_, hcode⟩, ⟨_, hinputs⟩, ⟨_, houtputs⟩⟩ := fields_of_ofJson h
  obtain ⟨hname, hreadName⟩ : Keeps (levels + 1) text? text op.name := keeps_text _
  obtain ⟨hcode, hreadCode⟩ : Keeps (levels + 1) OpCode.ofJson? OpCode.toJson op.code :=
    OpCode.settled _ _ hcode
  obtain ⟨hinputs, hreadInputs⟩ : Keeps (levels + 1) operandsOfJson? operandsToJson op.inputs :=
    settled_operands _ _ hinputs
  obtain ⟨houtputs, hreadOutputs⟩ : Keeps (levels + 1) operandsOfJson? operandsToJson op.outputs :=
    settled_operands _ _ houtputs
  have hplain : ∀ v ∈ [.text op.name, op.code.toJson, operandsToJson op.inputs,
      operandsToJson op.outputs], Plain (levels + 1) v := by
    simp [hname, hcode, hinputs, houtputs]
  obtain ⟨hrecord, hslots⟩ := plain_record ["name", "code", "inputs", "outputs"] (by decide) rfl
    hplain
  refine ⟨hrecord, ?_⟩
  have hslots : op.toJson.slots? ["name", "code", "inputs", "outputs"] =
      some [some (.text op.name), some op.code.toJson, some (operandsToJson op.inputs),
        some (operandsToJson op.outputs)] := hslots
  simp only [ofJson?, hslots, Option.bind_eq_bind, Option.bind_some, required, hreadCode,
    hreadInputs, hreadOutputs, hreadName]

/-- The fields of a tensor that was read were read one by one, or stand at their defaults, which might
have been read as well. -/
theorem Tensor.fields_of_ofJson {j : Json} {t : Tensor} (h : Tensor.ofJson? j = some t) :
    (∃ j, DType.ofJson? j = some t.dtype) ∧ (∃ j, Shape.ofJson? j = some t.shape) ∧
      ∃ j, nullable? Packed.ofJson? j = some t.data := by
  obtain ⟨slots, -, h⟩ := Option.bind_eq_some_iff.mp h
  split at h
  · obtain ⟨name, -, h⟩ := Option.bind_eq_some_iff.mp h
    obtain ⟨dtype, hdtype, h⟩ := Option.bind_eq_some_iff.mp h
    obtain ⟨shape, hshape, h⟩ := Option.bind_eq_some_iff.mp h
    obtain ⟨data, hdata, h⟩ := Option.bind_eq_some_iff.mp h
    obtain ⟨isVariable, -, h⟩ := Option.bind_eq_some_iff.mp h
    cases h
    exact ⟨exists_of_required hdtype, exists_of_required hshape,
      exists_of_withDefault ⟨null, rfl⟩ hdata⟩
  · cases h

theorem Tensor.settled : Settled (levels + 3) Tensor.ofJson? Tensor.toJson := by
  intro j t h
  obtain ⟨⟨_, hdtype⟩, ⟨_, hshape⟩, ⟨_, hdata⟩⟩ := fields_of_ofJson h
  obtain ⟨hname, hreadName⟩ : Keeps (levels + 2) text? text t.name := keeps_text _
  obtain ⟨hdtype, hreadDtype⟩ : Keeps (levels + 2) DType.ofJson? DType.toJson t.dtype :=
    DType.settled _ _ hdtype
  obtain ⟨hshape, hreadShape⟩ : Keeps (levels + 2) Shape.ofJson? Shape.toJson t.shape :=
    Shape.settled _ _ hshape
  obtain ⟨hdata, hreadData⟩ :
      Keeps (levels + 2) (nullable? Packed.ofJson?) (optional Packed.toJson) t.data :=
    Packed.settled.nullable (fun _ => nofun) _ _ hdata
  obtain ⟨hvariable, hreadVariable⟩ : Keeps (levels + 2) bool? bool t.isVariable := keeps_bool _
  have hplain : ∀ v ∈ [.text t.name, t.dtype.toJson, t.shape.toJson,
      .optional Packed.toJson t.data, .bool t.isVariable], Plain (levels + 2) v := by
    simp [hname, hdtype, hshape, hdata, hvariable]
  obtain ⟨hrecord, hslots⟩ := plain_record fieldNames (by decide) rfl hplain
  refine ⟨hrecord, ?_⟩
  have hslots : t.toJson.slots? fieldNames =
      some [some (.text t.name), some t.dtype.toJson, some t.shape.toJson,
        some (.optional Packed.toJson t.data), some (.bool t.isVariable)] := hslots
  simp only [ofJson?, hslots, Option.bind_eq_bind, Option.bind_some, required, withDefault,
    hreadName, hreadDtype, hreadShape, hreadData, hreadVariable]

/-- Operators and tensors that were read from a text are the same after they were written and read
again, whatever writes and reads the texts, if it is faithful to plain values. -/
theorem definitions_survive {c : Codec} (h : c.Faithful 3) :
    (∀ text op, (c.read text).bind Operator.ofJson? = some op →
      (c.read (c.write op.toJson)).bind Operator.ofJson? = some op) ∧
    ∀ text t, (c.read text).bind Tensor.ofJson? = some t →
      (c.read (c.write t.toJson)).bind Tensor.ofJson? = some t :=
  ⟨fun _ _ hop => Operator.settled.read_write h hop, fun _ _ ht => Tensor.settled.read_write h ht⟩

/-- An operator given as a list, with a second name of its code in other letters and an operand left
out; a tensor with its fields in another order, whose data ends within a word and whose mark is left
to its default. -/
theorem definitions_survive_on_a_line :
    ((Codec.line.read "[\"scale\", \"MultiPly\", [0, null], [1]]").bind Operator.ofJson? =
        some ⟨"scale", .mul, [some 0, none], [some 1]⟩ ∧
      (Codec.line.read (Codec.line.write
          (Operator.toJson ⟨"scale", .mul, [some 0, none], [some 1]⟩))).bind Operator.ofJson? =
        some ⟨"scale", .mul, [some 0, none], [some 1]⟩) ∧
    (Codec.line.read "\x7b\"name\":\"k\",\"data\":[1,255],\"shape\":[[2]],\"dtype\":\"i8\"\x7d").bind
        Tensor.ofJson? = some (.constant "k" .i8 ⟨[2]⟩ (.ofBytes [1, 255])) ∧
      (Codec.line.read (Codec.line.write
          (Tensor.constant "k" .i8 ⟨[2]⟩ (.ofBytes [1, 255])).toJson)).bind Tensor.ofJson? =
        some (.constant "k" .i8 ⟨[2]⟩ (.ofBytes [1, 255])) := by
  obtain ⟨hops, htensors⟩ := definitions_survive (Codec.faithful_line 3)
  have hop : (Codec.line.read "[\"scale\", \"MultiPly\", [0, null], [1]]").bind Operator.ofJson? =
      some ⟨"scale", .mul, [some 0, none], [some 1]⟩ := by
    decide +kernel
  have ht : (Codec.line.read
      "\x7b\"name\":\"k\",\"data\":[1,255],\"shape\":[[2]],\"dtype\":\"i8\"\x7d").bind
      Tensor.ofJson? = some (.constant "k" .i8 ⟨[2]⟩ (.ofBytes [1, 255])) := by
    decide +kernel
  exact ⟨⟨hop, hops _ _ hop⟩, ht, htensors _ _ ht⟩

end TensorArena
