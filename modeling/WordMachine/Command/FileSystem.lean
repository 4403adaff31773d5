import WordMachine.Text.Bytes

/-!
# Files

The commands read and write files through an interface.  A tree of files held in memory is one
instance of it.  A path is walked name by name from the root or from the working directory.  The
first name that does not lead on decides why the path leads nowhere.
-/

namespace WordMachine

inductive FileError.Reason where
  | notFound
  | isDirectory
  | notDirectory
  | nameTooLong
  | noSpace
  | other (text : String)
  deriving DecidableEq, Repr

/-- Which operation on which path failed, and why. -/
structure FileError where
  operation : String
  path : String
  reason : FileError.Reason
  deriving DecidableEq, Repr

def FileError.Reason.description : FileError.Reason → String
  | .notFound => "no such file or directory"
  | .isDirectory => "is a directory"
  | .notDirectory => "not a directory"
  | .nameTooLong => "file name too long"
  | .noSpace => "no space left on device"
  | .other text => text

def FileError.message (e : FileError) : String :=
  e.operation ++ " " ++ e.path ++ ": " ++ e.reason.description

class FileSystem (m : Type → Type) where
  read : String → m (Except FileError Bytes)
  write : String → Bytes → m (Except FileError Unit)

/-! ## Paths -/

/-- A path in its parts: the names that lead to the last one, and the last one. -/
structure Route where
  fromRoot : Bool
  through : List String
  last : Option String
  -- A slash stands behind the last name, so that it means a directory.
  closed : Bool
  deriving DecidableEq, Repr

namespace Route

def longestPath : Nat := 4095

def longestName : Nat := 255

def ofString (path : String) : Except FileError.Reason Route :=
  let names := (path.splitOn "/").filter (· != "")
  if path = "" then .error .notFound
  else if longestPath < path.utf8ByteSize then .error .nameTooLong
  else .ok ⟨path.startsWith "/", names.dropLast, names.getLast?, path.endsWith "/"⟩

end Route

/-! ## A tree of files -/

inductive Device where
  | null
  | full
  | screen
  deriving DecidableEq, Repr

inductive FileNode where
  | directory
  | file (contents : Bytes)
  | device (kind : Device)
  deriving DecidableEq, Repr

/-- Where something is: the names that lead there from the root. -/
abbrev Location := List String

structure FileTree where
  nodes : List (Location × FileNode)
  workingDirectory : Location
  shown : Bytes

namespace FileTree

/-- The root is a directory whether it is listed or not. -/
def node? (t : FileTree) (place : Location) : Option FileNode :=
  if place = [] then some .directory else (t.nodes.find? (·.1 == place)).map (·.2)

def put (t : FileTree) (place : Location) (contents : Bytes) : FileTree :=
  { t with nodes := (place, .file contents) :: t.nodes.filter (·.1 != place) }

def workingFiles (t : FileTree) : List (String × Bytes) :=
  t.nodes.filterMap fun (place, node) =>
    match node with
    | .file contents =>
        if place.dropLast = t.workingDirectory then place.getLast?.map (·, contents) else none
    | _ => none

def look (t : FileTree) (place : Location) (name : String) :
    Except FileError.Reason (Option FileNode) :=
  if Route.longestName < name.utf8ByteSize then .error .nameTooLong
  else .ok (t.node? (place ++ [name]))

def enter (t : FileTree) (place : Location) (name : String) : Except FileError.Reason Location :=
  if name = "." then .ok place
  else if name = ".." then .ok place.dropLast
  else
    match t.look place name with
    | .error reason => .error reason
    | .ok none => .error .notFound
    | .ok (some .directory) => .ok (place ++ [name])
    | .ok (some _) => .error .notDirectory

def walk (t : FileTree) (place : Location) (names : List String) :
    Except FileError.Reason Location :=
  names.foldlM t.enter place

/-- The directory that a path begins in, gone through up to the last name. -/
def approach (t : FileTree) (route : Route) : Except FileError.Reason Location :=
  t.walk (if route.fromRoot then [] else t.workingDirectory) route.through

def meansDirectory (last : Option String) : Bool :=
  last == none || last == some "." || last == some ".."

def find (t : FileTree) (path : String) : Except FileError.Reason FileNode := do
  let route ← Route.ofString path
  let place ← t.approach route
  if meansDirectory route.last then return .directory
  match ← t.look place (route.last.getD "") with
  | none => throw .notFound
  | some .directory => return .directory
  | some node => if route.closed then throw .notDirectory else return node

/-- Where a path leads when it is opened for writing.  A slash behind the last name is refused
before the name is looked at. -/
def target (t : FileTree) (path : String) :
    Except FileError.Reason (Location × Option FileNode) := do
  let route ← Route.ofString path
  let place ← t.approach route
  let name := route.last.getD ""
  if meansDirectory route.last || route.closed then throw .isDirectory
  match ← t.look place name with
  | some .directory => throw .isDirectory
  | node => return (place ++ [name], node)

def read (t : FileTree) (path : String) : Except FileError Bytes :=
  match t.find path with
  | .error reason => .error ⟨"open", path, reason⟩
  | .ok .directory => .error ⟨"read", path, .isDirectory⟩
  | .ok (.file contents) => .ok contents
  | .ok (.device .full) => .error ⟨"read", path, .other "cannot allocate memory"⟩
  | .ok (.device _) => .ok []

def write (t : FileTree) (path : String) (contents : Bytes) : Except FileError Unit × FileTree :=
  match t.target path with
  | .error reason => (.error ⟨"open", path, reason⟩, t)
  | .ok (_, some (.device .null)) => (.ok (), t)
  | .ok (_, some (.device .full)) =>
      if contents.isEmpty then (.ok (), t) else (.error ⟨"write", path, .noSpace⟩, t)
  | .ok (_, some (.device .screen)) => (.ok (), { t with shown := t.shown ++ contents })
  | .ok (place, _) => (.ok (), t.put place contents)

def system : List (Location × FileNode) :=
  (["bin", "dev", "etc", "home", "lib", "opt", "proc", "root", "run", "sbin", "srv", "sys", "tmp",
    "usr", "var"].map fun name => ([name], .directory)) ++
  [(["dev", "null"], .device .null), (["dev", "stdin"], .device .null),
    (["dev", "full"], .device .full), (["dev", "stdout"], .device .screen)]

def empty : FileTree :=
  let place := ["tmp", "word-machine-files"]
  ⟨(place, .directory) :: system, place, []⟩

/-- A working directory with files, of which a later one replaces an earlier one of its name. -/
def ofFiles (files : List (String × Bytes)) : FileTree :=
  files.foldl (fun t (name, contents) => t.put (t.workingDirectory ++ [name]) contents) empty

end FileTree

instance : FileSystem (StateM FileTree) where
  read path := do return (← get).read path
  write path contents := fun t => t.write path contents

end WordMachine
