import TensorArena.Command.Report
import TensorArena.Plan.Liveness

/-!
# Planning a model

A model is allocated into a recorded arena, so that every byte has a category, and the usage is
reported together with the plan of the activations. An allocation that fails is reported too, before
the command gives up.
-/

namespace TensorArena

open Text

/-- What is known after an allocation. -/
structure Usage where
  graph : CheckedGraph
  placement : String
  size : ArenaSize
  activations : Plan
  state : Lifecycle
  recorder : Recorder

namespace Usage

def used (u : Usage) : Nat :=
  u.recorder.arena.used

/-- The usage as one value. -/
def toJson (u : Usage) : Json :=
  Json.sorted <| .record [
    ("model", .text u.graph.name),
    ("state", .text u.state.text),
    ("arena_bytes", .nat u.size.bytes),
    ("used_bytes", .nat u.used),
    ("required_buffer_size", .nat (requiredBufferSize u.used)),
    ("failed_requests", .nat u.recorder.failed),
    ("categories",
      .record (Category.all.map fun c => (c.label, (u.recorder.ledger.get c).toJson))),
    ("activations", u.activations.toJson)]

def bufferName (g : Graph) : BufferId → String
  | .tensor id => ((g.tensors[id]?).map (·.name)).getD "?"
  | .scratch .. => "scratch"

def placementLine (g : Graph) (p : Placement) : String :=
  s!"   {padRight 6 p.lifetime.buffer.text} {padRight 24 (bufferName g p.lifetime.buffer)} " ++
    s!"[{padNat 8 p.offset}, {padNat 8 p.stop})"

/-- The usage as lines. -/
def lines (u : Usage) : List String :=
  [s!"  Model:     {u.graph.name}", s!"  Arena:     {u.size.text}",
    s!"  Placement: {u.placement}", s!"  State:     {u.state.text}", "",
    s!"  Activation offsets ({u.activations.summary}):"] ++
  u.activations.placements.map (placementLine u.graph.toGraph) ++ [""] ++
  u.recorder.summaryLines.map ("  " ++ ·) ++
  ["",
    "  Smallest buffer for this allocation at any base address: " ++
      s!"{requiredBufferSize u.used} B",
    ""]

end Usage

/-- The command that plans a model. -/
def Report.plan (files : Files) (path : String) (c : Config) (json : Bool) : Report Unit := do
  let g ← model files path
  let size ← need ConfigError.message c.size
  let strategy ← need ConfigError.message c.strategy
  let activations ← need PlanError.message (g.plan strategy arenaAlignment size.bytes)
  let (log, created) := Recorder.create size.arena
  note log
  let recorder ← need MemoryError.message created
  let site : Site Unit Unit := { store := .recorded recorder, outside := (), profile := () }
  let (i, site) ← interpreter g c site
  let (allocated, i, site) := i.allocate site
  note site.log
  match site.store with
  | .plain _ => pure ()
  | .recorded recorder =>
    let usage : Usage :=
      { graph := g, placement := c.placement, size, activations, state := i.state, recorder }
    if json then say usage.toJson.pretty
    else
      heading "Arena Planner"
      sayAll usage.lines
    note recorder.report
  need (fun e => s!"allocation failed: {e.message}") allocated

end TensorArena
