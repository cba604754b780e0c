import TensorArena.Config
import TensorArena.Graph.Manifest

/-!
# Files

Commands see files through one function that says what is found at a path. A model is a manifest, or
a directory that holds one under a fixed name.
-/

namespace TensorArena

/-- What is found at a path. -/
inductive Entry where
  | file (text : String)
  | directory
  /-- Nothing that can be read, for a reason that the system gives. -/
  | failure (reason : String)
  deriving DecidableEq, Repr

namespace Entry

def missing : Entry :=
  failure "No such file or directory (os error 2)"

def notDirectory : Entry :=
  failure "Not a directory (os error 20)"

/-- The path, or a name in it, is too long. -/
def nameTooLong : Entry :=
  failure "File name too long (os error 36)"

def text : Entry → Except String String
  | file text => .ok text
  | directory => .error "Is a directory (os error 21)"
  | failure reason => .error reason

end Entry

abbrev Files := String → Entry

namespace Files

def manifestName : String := "model.json"

def join (directory name : String) : String :=
  if directory.endsWith "/" then directory ++ name else directory ++ "/" ++ name

def manifestPath (files : Files) (model : String) : String :=
  match files model with
  | .directory => join model manifestName
  | _ => model

/-- Loads a model. -/
def loadModel (files : Files) (model : String) : Log × Except ModelError CheckedGraph :=
  let path := files.manifestPath model
  let opened : LogLine := ⟨.debug, s!"loading model manifest from {path}"⟩
  match (files path).text with
  | .error reason => ([opened], .error (.unreadable reason))
  | .ok text =>
    let (log, result) := CheckedGraph.load text
    (opened :: log, result)

def loadConfig (files : Files) (path : String) : Except ConfigError Config :=
  match (files path).text with
  | .error reason => .error (.unreadable path reason)
  | .ok text => Config.parse text

/-! ## Trees in memory -/

/-- What there is at places, each given by the names on the way to it from the root. The first entry
for a place counts. -/
abbrev Tree := List (List String × Entry)

namespace Tree

/-- What is at a place. The root is always a directory. -/
def entryAt (tree : Tree) (place : List String) : Entry :=
  if place = [] then .directory
  else match tree.find? fun e => e.1 = place with
    | some (_, entry) => entry
    | none => .missing

/-- The place that a name leads to. A step up from the root stays there. -/
def step (place : List String) (name : String) : List String :=
  if name = "" ∨ name = "." then place
  else if name = ".." then place.dropLast
  else place ++ [name]

def maxName : Nat := 255

def maxPath : Nat := 4095

/-- Walks on from a place by names. Every step needs a directory to start from. -/
def walk (tree : Tree) (place : List String) : List String → Entry
  | [] => tree.entryAt place
  | name :: rest =>
    match tree.entryAt place with
    | .directory =>
      if maxName < name.utf8ByteSize then .nameTooLong else walk tree (step place name) rest
    | .file _ => .notDirectory
    | .failure reason => .failure reason

/-- The tree with one more file at the end of a walk, and with the directories on the way. -/
def insert (tree : Tree) (text : String) (place : List String) : List String → Tree
  | [] => (place, .file text) :: tree
  | name :: rest => insert ((place, .directory) :: tree) text (step place name) rest

/-- The directories below the root of a system, and the null device, which reads as an empty
file. -/
def system : Tree :=
  let directories := ["bin", "boot", "dev", "etc", "home", "lib", "media", "mnt", "opt", "proc",
    "root", "run", "sbin", "srv", "sys", "tmp", "usr", "var"]
  (["dev", "null"], .file "") :: directories.map fun name => ([name], .directory)

/-- The directory that relative paths start from. -/
def here : List String := ["tmp", "here"]

def start (path : String) : List String :=
  if path.startsWith "/" then [] else here

/-- What is found at each path. The empty path leads nowhere. -/
def files (tree : Tree) : Files :=
  fun path =>
    if path = "" then .missing
    else if maxPath < path.utf8ByteSize then .nameTooLong
    else tree.walk (start path) (path.splitOn "/")

end Tree

/-- A system that has the given files, by path. A later file replaces an earlier one. -/
def ofList (files : List (String × String)) : Files :=
  Tree.files <| files.foldl
    (fun tree (path, text) => tree.insert text (Tree.start path) (path.splitOn "/"))
    ((Tree.here, .directory) :: Tree.system)

end Files

end TensorArena
