import TensorArena.Command.Report
import TensorArena.Plan.Liveness

/-!
# Inspecting a model

Tensors, operators and lifetimes of a model as tables, and what each strategy of placement makes of
the lifetimes when space is no concern. No arena is needed.
-/

namespace TensorArena

open Text

namespace Graph

def tensorRow (index name kind dtype shape bytes : String) : String :=
  s!"  {padRight 4 index} {padRight 24 name} {padRight 10 kind} {padRight 6 dtype} " ++
    s!"{padRight 14 shape} {padLeft 10 bytes}"

def tensorTable (g : Graph) : List String :=
  [tensorRow "Idx" "Name" "Kind" "DType" "Shape" "Bytes",
    "  " ++ String.ofList (List.replicate 74 '-')] ++
  g.tensors.zipIdx.map fun (t, i) =>
    tensorRow s!"t{i}" (shorten 24 t.name) t.kind.label t.dtype.label t.shape.text (toString t.size)

/-- The operators, numbered. -/
def operatorLines (g : Graph) : List String :=
  g.operators.zipIdx.map fun (op, i) => s!"   {padNat 3 i}  {op.summary}"

/-- A mark for each operator: whether the buffer is alive while it runs. -/
def lifetimeBar (g : Graph) (l : Lifetime) : String :=
  String.ofList ((List.range g.operators.length).map fun k => if l.AliveAt k then '█' else '·')

def lifetimeLines (g : Graph) : List String :=
  g.lifetimes.map fun l =>
    s!"   {padRight 6 l.buffer.text} {padNat 8 l.size} B  ops {padNat 3 l.first}..=" ++
      s!"{padRight 3 (toString l.last)} {g.lifetimeBar l}"

def strategyLines (g : Graph) : List String :=
  [Strategy.firstFit, Strategy.linear].map fun s =>
    let outcome := match g.plan s arenaAlignment Word.max with
      | .ok plan => plan.summary
      | .error e => s!"failed: {e.message}"
    s!"   {padRight 20 s.name} {outcome}"

/-- All that can be told about a graph without an arena. -/
def inspection (g : Graph) : List String :=
  [s!"  {g.summary}", ""] ++ g.tensorTable ++ ["", "  Operators:"] ++ g.operatorLines ++
    ["", "  Activation lifetimes:"] ++ g.lifetimeLines ++
    ["", s!"  Lower bound (peak live bytes): {peakLiveBytes g.lifetimes arenaAlignment} B"] ++
    g.strategyLines ++ [""]

end Graph

def Report.inspect (files : Files) (path : String) : Report Unit := do
  heading "Graph Inspector"
  let g ← model files path
  sayAll g.inspection

end TensorArena
