import EffectLink.Text.Blank
import EffectLink.Text.Utf8

/-! Files and directories. A disk holds a node for each place, a place being the list of names that
leads to it from the root. Making a chain of directories can fail on the way, and then the first
ones are there. -/

namespace EffectLink

namespace Path

/-- The names of a path, empty ones included. -/
def names (path : String) : List String :=
  (Text.pieces (· == '/') path.toList).map String.ofList

def isAbsolute (path : String) : Bool := path.toList.head? == some '/'

/-- The path `relative` as seen from `base`; an absolute path replaces the base. -/
def join (base relative : String) : String :=
  if isAbsolute relative then relative
  else if base.toList.isEmpty || base.toList.getLast? == some '/' then base ++ relative
  else base ++ "/" ++ relative

/-- The root or the leading dot of a path, and what follows it. -/
def splitHead (path : List Char) : List Char × List Char :=
  match path with
  | '/' :: rest => (['/'], rest)
  | ['.'] => (['.'], [])
  | '.' :: '/' :: rest => (['.'], '/' :: rest)
  | _ => ([], path)

/-- Drops the names at the end that lead nowhere. -/
def trimNames (names : List (List Char)) : List (List Char) :=
  (names.reverse.dropWhile fun name => name == [] || name == ['.']).reverse

/-- The path without its last name. The root and the empty path have no parent. -/
def parent? (path : String) : Option String :=
  let (head, body) := splitHead path.toList
  match trimNames (Text.pieces (· == '/') body) with
  | [] => if head = ['.'] then some "" else none
  | kept => some (String.ofList (head ++ ['/'].intercalate (trimNames kept.dropLast)))

end Path

inductive FileError where
  | notFound | taken | notDirectory | isDirectory | nameTooLong
  /-- A path with a zero character. -/
  | zeroByte
  /-- Contents that are no text. -/
  | notText
  /-- Any other reason, as the system words it. -/
  | other (text : String)
  deriving DecidableEq

def FileError.message : FileError → String
  | .notFound => "No such file or directory (os error 2)"
  | .taken => "File exists (os error 17)"
  | .notDirectory => "Not a directory (os error 20)"
  | .isDirectory => "Is a directory (os error 21)"
  | .nameTooLong => "File name too long (os error 36)"
  | .zeroByte => "file name contained an unexpected NUL byte"
  | .notText => "stream did not contain valid UTF-8"
  | .other text => text

inductive Node where
  | file (contents : Bytes)
  | directory
  deriving DecidableEq

abbrev Place := List String

structure Disk where
  nodes : List (Place × Node)
  workingDirectory : Place
  deriving DecidableEq

namespace Disk

/-- The node at a place; the root is a directory. -/
def get? (d : Disk) (place : Place) : Option Node :=
  if place.isEmpty then some .directory else d.nodes.lookup place

/-- Replaces the node at a place or adds one. -/
def put (d : Disk) (place : Place) (node : Node) : Disk :=
  { d with nodes := (place, node) :: d.nodes.filter fun entry => entry.1 != place }

/-- Longest name, in bytes. -/
def longestName : Nat := 255

/-- Longest path, in bytes. -/
def longestPath : Nat := 4095

/-- What a path has to satisfy before it is followed. -/
def checkPath (path : String) : Except FileError Unit :=
  if path.toList.contains '\x00' then .error .zeroByte
  else if path.isEmpty then .error .notFound
  else if longestPath < path.utf8ByteSize then .error .nameTooLong
  else .ok ()

/-- Where the first name of a path is looked up. -/
def origin (d : Disk) (path : String) : Place :=
  if Path.isAbsolute path then [] else d.workingDirectory

def requireDirectory (d : Disk) (place : Place) : Except FileError Unit :=
  match d.get? place with
  | some .directory => .ok ()
  | some (.file _) => .error .notDirectory
  | none => .error .notFound

/-- Follows one name from a directory. -/
def step (d : Disk) (place : Place) (name : String) : Except FileError Place := do
  d.requireDirectory place
  if name = "" ∨ name = "." then .ok place
  else if name = ".." then .ok place.dropLast
  else if longestName < name.utf8ByteSize then .error .nameTooLong
  else if (d.get? (place ++ [name])).isSome then .ok (place ++ [name])
  else .error .notFound

def follow (d : Disk) (start : Place) (names : List String) : Except FileError Place :=
  names.foldlM d.step start

/-- The place a path leads to. -/
def locate (d : Disk) (path : String) : Except FileError Place := do
  checkPath path
  d.follow (d.origin path) (Path.names path)

def isDirectory (d : Disk) (path : String) : Bool :=
  match d.locate path with
  | .ok place => d.get? place == some .directory
  | .error _ => false

def read (d : Disk) (path : String) : Except FileError Bytes := do
  let place ← d.locate path
  match d.get? place with
  | some (.file contents) => .ok contents
  | some .directory => .error .isDirectory
  | none => .error .notFound

def readText (d : Disk) (path : String) : Except FileError String := do
  let contents ← d.read path
  match Utf8.decode? contents with
  | some text => .ok text
  | none => .error .notText

/-- The directory that the last of some names is looked up in, for a name that may be new. -/
def directoryOf (d : Disk) (start : Place) (names : List String) (last : String) :
    Except FileError Place := do
  let place ← d.follow start names.dropLast
  d.requireDirectory place
  if longestName < last.utf8ByteSize then .error .nameTooLong
  else .ok place

/-- Whether a name leads to a directory that is there already. -/
def isDots (name : String) : Bool := name == "" || name == "." || name == ".."

/-- Makes one directory; its parent has to be there. -/
def makeDirectory (d : Disk) (path : String) : Except FileError Disk := do
  checkPath path
  let names := ((Path.names path).reverse.dropWhile (· == "")).reverse
  match names.getLast? with
  | none => .error .taken
  | some last =>
    let parent ← d.directoryOf (d.origin path) names last
    if isDots last || (d.get? (parent ++ [last])).isSome then .error .taken
    else .ok (d.put (parent ++ [last]) .directory)

/-- Makes one directory unless it is there already. -/
def ensureDirectory (d : Disk) (path : String) : Disk × Except FileError Unit :=
  match d.makeDirectory path with
  | .ok made => (made, .ok ())
  | .error fault => (d, if d.isDirectory path then .ok () else .error fault)

/-- Makes a directory and, if they are missing, the directories above it; a path has no more of those
than characters. -/
def makeWithin : Nat → Disk → String → Disk × Except FileError Unit
  | 0, d, _ => (d, .error .notFound)
  | fuel + 1, d, path =>
    if path = "" then (d, .ok ())
    else match d.makeDirectory path, Path.parent? path with
      | .error .notFound, some parent =>
        match makeWithin fuel d parent with
        | (above, .ok ()) => above.ensureDirectory path
        | (above, .error fault) => (above, .error fault)
      | _, _ => d.ensureDirectory path

/-- Makes a directory and those above it. The ones made before a failure stay. -/
def makeDirectories (d : Disk) (path : String) : Disk × Except FileError Unit :=
  makeWithin (path.length + 1) d path

/-- Writes a file, replacing one that is there; its directory has to be there. -/
def write (d : Disk) (path : String) (contents : Bytes) : Except FileError Disk := do
  checkPath path
  let names := Path.names path
  let last := names.getLastD ""
  let parent ← d.directoryOf (d.origin path) names last
  if isDots last then .error .isDirectory
  else match d.get? (parent ++ [last]) with
    | some .directory => .error .isDirectory
    | _ => .ok (d.put (parent ++ [last]) (.file contents))

/-- Writes a file below a directory that is made if it is missing. What was made stays even if the
directory or the file fails. -/
def writeBelow (d : Disk) (directory path : String) (contents : Bytes) :
    Disk × Except FileError Unit :=
  match d.makeDirectories directory with
  | (made, .error fault) => (made, .error fault)
  | (made, .ok ()) =>
    match made.write path contents with
    | .error fault => (made, .error fault)
    | .ok written => (written, .ok ())

end Disk

/-- What becomes of a disk, and of the request, when a file is to be written below a directory. A disk
that refuses nothing but what its tree forbids takes it as `Disk.writeBelow` does. -/
abbrev Medium := Disk → String → String → Bytes → Disk × Except FileError Unit

namespace Disk

/-- A disk with nothing but its working directory and the directories above that. -/
def rooted (place : Place) : Disk :=
  ⟨(List.range (place.length + 1)).map fun n => (place.take n, .directory), place⟩

/-- Adds a file or directory together with the directories above it, as far as they can be made. -/
def plant (d : Disk) (path : String) (node : Node) : Disk :=
  match node with
  | .directory => (d.makeDirectories path).1
  | .file contents => (d.writeBelow ((Path.parent? path).getD "") path contents).1

/-- The directories of `after` that are not in `before`. -/
def newDirectories (before after : Disk) : List Place :=
  after.nodes.filterMap fun (place, node) =>
    if node = .directory ∧ before.get? place = none then some place else none

/-- The files of `after` that are not the same in `before`, in the order of their places. -/
def changedFiles (before after : Disk) : List (Place × Bytes) :=
  let changed := after.nodes.filterMap fun (place, node) =>
    match node with
    | .file contents => if before.get? place = some node then none else some (place, contents)
    | .directory => none
  changed.mergeSort fun a b => !decide ("/".intercalate b.1 < "/".intercalate a.1)

end Disk

end EffectLink
