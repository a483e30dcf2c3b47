import Nullness.Command.Run

/-!
# A disk in memory

Files and directories under one directory, as a machine for the command. Paths are
followed name by name: two dots go up, every name but the last has to be a directory,
and so has the last one before a slash. The directories above the one and the root are
there, with nothing else in them.
-/

namespace Nullness

namespace Command

/-- What stands under a path: the bytes of a file, or a directory. -/
inductive Node
  | file (bytes : List UInt8)
  | directory
deriving DecidableEq, Repr

/-- Nodes by their paths from the one directory, as rows of names. -/
structure Disk where
  nodes : List (List String × Node) := []

namespace Disk

/-- The one directory, or one that is reached by going up, or the root. -/
def isBase (place : List String) : Bool :=
  place.all (· = "..") || place = ["/"]

/-- The node at a place. Whatever something lies under is a directory. -/
def node? (d : Disk) (place : List String) : Option Node :=
  match d.nodes.lookup place with
  | some n => some n
  | none =>
    if isBase place || d.nodes.any (fun (p, _) => place.isPrefixOf p) then some .directory
    else none

/-- One directory up. -/
def parent (place : List String) : List String :=
  if place = ["/"] then place
  else if isBase place then place ++ [".."]
  else place.dropLast

/-- Puts bytes in the place of a file. -/
def put (d : Disk) (place : List String) (bytes : List UInt8) : Disk :=
  ⟨(place, .file bytes) :: d.nodes.filter (·.1 ≠ place)⟩

/-- The places that a row of names leads through from a directory. Its last name may
be missing. -/
def follow (d : Disk) (place : List String) : List String → Except OsError (List String)
  | [] => .ok place
  | name :: names =>
    match d.node? place with
    | none => .error .notFound
    | some (.file _) => .error .notDirectory
    | some .directory =>
      if name = "." ∨ name = "" then d.follow place names
      else if name = ".." then d.follow (parent place) names
      else d.follow (place ++ [name]) names

/-- The names in a path. -/
def names (path : String) : List String := path.splitOn "/"

/-- The place that a path leads to. -/
def place (d : Disk) (path : String) : Except OsError (List String) :=
  if path = "" then .error .notFound
  else d.follow (if path.startsWith "/" then ["/"] else []) (names path)

/-- What is found under a path. -/
def find (d : Disk) (path : String) : Except OsError Node :=
  match d.place path with
  | .error e => .error e
  | .ok place =>
    match d.node? place with
    | none => .error .notFound
    | some n => .ok n

/-- The text of a file. -/
def text (d : Disk) (path : String) : Except ReadError String :=
  match d.find path with
  | .error e => .error (.os e)
  | .ok .directory => .error (.os .isDirectory)
  | .ok (.file bytes) =>
    match String.fromUTF8? ⟨bytes.toArray⟩ with
    | some s => .ok s
    | none => .error .notText

/-- The path without the slashes at its end. -/
def withoutSlashes (path : String) : String :=
  String.ofList (path.toList.reverse.dropWhile (· = '/')).reverse

/-- The place of a file that is to be written. A path with a slash at its end is no
path of a file, whether there is a directory at its place or nothing. -/
def target (d : Disk) (path : String) : Except OsError (List String) :=
  let bare := withoutSlashes path
  if path ≠ "" ∧ bare = "" then .error .isDirectory
  else
    match d.place bare with
    | .error e => .error e
    | .ok place =>
      if bare ≠ path ∨ d.node? place = some .directory then .error .isDirectory
      else .ok place

end Disk

/-- A disk with what was written elsewhere. -/
structure World where
  disk : Disk := {}
  output : String := ""
  messages : String := ""

/-- The machine of a disk. Its clock stands still, and its exporter sends nothing. -/
def diskMachine : Machine (StateM World) where
  isThere path := do
    match (← get).disk.find path with
    | .ok _ => return true
    | .error _ => return false
  read path := return (← get).disk.text path
  save sink text := do
    let w ← get
    match sink with
    | .standard =>
      set { w with output := w.output ++ text }
      return .ok ()
    | .file path =>
      match w.disk.target path with
      | .error e => return .error (.opening e)
      | .ok place =>
        set { w with disk := w.disk.put place text.toUTF8.toList }
        return .ok ()
  tell text := modify fun w => { w with messages := w.messages ++ text }
  clock := return 0
  connect _ := return .ok ()
  disconnect := return .ok ()

end Command

end Nullness
