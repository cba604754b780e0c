import TensorArena.Json.Basic
import TensorArena.Plan.Lifetime
import TensorArena.Word

/-!
# Plans

A plan gives every buffer an offset inside one block. The block is reserved once, and the buffers
of a valid plan fit into it without sharing bytes while they are alive together.
-/

namespace TensorArena

/-- Why buffers could not be placed, or a plan is not valid. -/
inductive PlanError where
  | invalidLifetime (buffer : BufferId) (first last : Nat)
  | invalidAlignment (align : Nat)
  | exceedsCapacity (strategy : String) (required capacity : Nat)
  | overlap (strategy : String) (first second : BufferId)
  | unknownStrategy (name : String)
  deriving DecidableEq, Repr

/-- What went wrong, in words. -/
def PlanError.message : PlanError → String
  | invalidLifetime buffer first last =>
    s!"invalid lifetime for {buffer.text}: first op {first} is after last op {last}"
  | invalidAlignment align => s!"invalid placement alignment {align}"
  | exceedsCapacity strategy required capacity =>
    s!"strategy '{strategy}' needs {required} bytes, only {capacity} available"
  | overlap strategy first second =>
    s!"plan '{strategy}' overlaps {first.text} and {second.text}"
  | unknownStrategy name =>
    s!"unknown placement strategy '{name}' (expected 'greedy-first-fit' or 'linear')"

/-- A buffer and its offset in the block. -/
structure Placement where
  lifetime : Lifetime
  offset : Nat
  deriving DecidableEq, Repr

/-- The offset after the last byte of the buffer. -/
def Placement.stop (p : Placement) : Nat :=
  p.offset + p.lifetime.size

/-- Whether two placements that hold bytes and are alive together share some of them. -/
def Placement.Clashes (a b : Placement) : Prop :=
  0 < a.lifetime.size ∧ 0 < b.lifetime.size ∧ a.lifetime.Overlaps b.lifetime ∧
    ¬ (a.stop ≤ b.offset ∨ b.stop ≤ a.offset)

instance (a b : Placement) : Decidable (a.Clashes b) :=
  inferInstanceAs (Decidable (_ ∧ _))

/-- Placements in the order their lifetimes were given in, and the size of the block. -/
structure Plan where
  strategy : String
  placements : List Placement
  peak : Nat
  deriving DecidableEq, Repr

namespace Plan

/-- The offset of a buffer, if it was planned. -/
def offsetOf? (p : Plan) (buffer : BufferId) : Option Nat :=
  (p.placements.find? fun q => q.lifetime.buffer = buffer).map (·.offset)

/-- The size of all buffers together, which is what the block would take without reuse. -/
def totalBytes (p : Plan) : Nat :=
  total (p.placements.map fun q => q.lifetime.size)

/-- Goes through the placements: each that holds bytes must end in the block, and must not clash
with a later one. -/
def validatePlacements (strategy : String) (peak : Nat) : List Placement → Except PlanError Unit
  | [] => .ok ()
  | a :: rest =>
    if 0 < a.lifetime.size ∧ peak < a.stop then
      .error (.exceedsCapacity strategy a.stop peak)
    else
      match rest.find? fun b => a.Clashes b with
      | some b => .error (.overlap strategy a.lifetime.buffer b.lifetime.buffer)
      | none => validatePlacements strategy peak rest

/-- Checks that every buffer fits into the block and that no two share bytes while both are
alive. -/
def validate (p : Plan) : Except PlanError Unit :=
  validatePlacements p.strategy p.peak p.placements

/-- The percentage of the buffers' bytes that reuse saves, in 64-bit arithmetic. -/
def savedPercent (p : Plan) : Binary :=
  let f := Format.double
  if p.totalBytes = 0 then f.ofNat 0
  else
    let saved := f.mul (f.ofNat 100)
      (f.sub (f.ofNat 1) (f.div (f.ofNat p.peak) (f.ofNat p.totalBytes)))
    if saved.lt (f.ofNat 0) then f.ofNat 0 else saved

def summary (p : Plan) : String :=
  s!"Plan '{p.strategy}': {p.placements.length} buffers, peak {p.peak} B for " ++
    s!"{p.totalBytes} B of buffers ({p.savedPercent.fixed 0}% saved by reuse)"

end Plan

/-- The bytes of the buffers that operator `k` needs, each rounded up to the alignment. -/
def liveBytes (lifetimes : List Lifetime) (align k : Nat) : Nat :=
  total ((lifetimes.filter fun l => l.AliveAt k).map fun l => alignUp l.size align)

/-- The greatest number of live bytes at any operator. No plan can do with less. -/
def peakLiveBytes (lifetimes : List Lifetime) (align : Nat) : Nat :=
  let last := (lifetimes.map (·.last)).foldl max 0
  ((List.range (last + 1)).map fun k => liveBytes lifetimes align k).foldl max 0

/-! ## JSON

A plan is written as a record of its name, its placements and its peak. The buffer of a placement is
an object whose only field names the kind of the buffer. -/

def BufferId.toJson : BufferId → Json
  | tensor id => .record [("Tensor", .nat id)]
  | scratch operator index =>
    .record [("Scratch", .record [("op", .nat operator), ("index", .nat index)])]

def Lifetime.toJson (l : Lifetime) : Json :=
  .record [("buffer", l.buffer.toJson), ("first_op", .nat l.first), ("last_op", .nat l.last),
    ("size", .nat l.size)]

/-- A placement: the lifetime and the offset. -/
def Placement.toJson (p : Placement) : Json :=
  .record [("interval", p.lifetime.toJson), ("offset", .nat p.offset)]

def Plan.toJson (p : Plan) : Json :=
  .record [("strategy_name", .text p.strategy),
    ("placements", .array (p.placements.map Placement.toJson)), ("peak_bytes", .nat p.peak)]

end TensorArena
