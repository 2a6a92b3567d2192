import Lc3Assembler.Failure

/-!
# Paths and directories

A run reads and writes files below a working directory.  `Directory` holds the
entries that are known, so that a run is a function of the directory it starts
in and gives the directory it leaves behind.  Beside the entries it holds what the
system refuses to open for reasons that cannot be seen from them, such as a missing
permission.
-/

namespace Lc3Assembler

/-- Where a path starts.  Two slashes at the front, and not more, are kept apart
from one. -/
inductive Root where
  | working
  | slash
  | doubleSlash
  deriving DecidableEq, Repr

namespace Root

def ofText : List Char → Root
  | '/' :: '/' :: '/' :: _ => .slash
  | '/' :: '/' :: _ => .doubleSlash
  | '/' :: _ => .slash
  | _ => .working

def text : Root → String
  | .working => ""
  | .slash => "/"
  | .doubleSlash => "//"

end Root

/-- A path without empty and `.` components.  A `..` stays, since it depends on
the directory whether it can be followed. -/
structure Path where
  root : Root
  parts : List String
  deriving DecidableEq, Repr

namespace Path

/-- The texts between slashes. -/
def segments : List Char → List (List Char)
  | [] => [[]]
  | c :: rest =>
      if c = '/' then [] :: segments rest
      else
        match segments rest with
        | [] => [[c]]
        | first :: others => (c :: first) :: others

def ofString (text : String) : Path :=
  let parts := (segments text.toList).map String.ofList
  { root := .ofText text.toList
    parts := parts.filter fun part => part != "" && part != "." }

/-- The path as it is printed; the working directory itself is `.`. -/
def text (path : Path) : String :=
  if path.root = .working && path.parts.isEmpty then "."
  else path.root.text ++ "/".intercalate path.parts

/-- A name without its suffix.  The suffix starts at the last dot, unless that
is the first or the last character. -/
def stem (name : List Char) : List Char :=
  let suffix := (name.reverse.takeWhile (· != '.')).reverse
  let front := name.take (name.length - suffix.length - 1)
  if suffix.isEmpty || suffix.length = name.length || front.isEmpty then name else front

/-- The path with the suffix of its name replaced. -/
def withSuffix (path : Path) (suffix : String) : Path :=
  match path.parts.getLast? with
  | none => path
  | some name =>
      { path with
        parts := path.parts.dropLast ++ [String.ofList (stem name.toList) ++ suffix] }

/-- Whether a path can only name a directory: it ends in a slash or a dot
component. -/
def namesDirectory (text : String) : Bool :=
  match (segments text.toList).getLast? with
  | some last => last = [] || last = ['.']
  | none => false

end Path

/-- Where a location is counted from: the working directory or one some levels
above it, or the top of the file system. -/
inductive Anchor where
  | working (above : Nat)
  | top
  deriving DecidableEq, Repr

/-- A place in the file system. -/
structure Location where
  anchor : Anchor
  names : List String
  deriving DecidableEq, Repr

namespace Location

/-- The working directory. -/
def here : Location :=
  { anchor := .working 0, names := [] }

/-- Follow one component. -/
def step (location : Location) (part : String) : Location :=
  if part = ".." then
    match location.names.getLast?, location.anchor with
    | some _, _ => { location with names := location.names.dropLast }
    | none, .working above => { anchor := .working (above + 1), names := [] }
    | none, .top => location
  else { location with names := location.names ++ [part] }

def start (path : Path) : Location :=
  match path.root with
  | .working => here
  | .slash | .doubleSlash => { anchor := .top, names := [] }

/-- Where a path leads if it can be followed. -/
def ofPath (path : Path) : Location :=
  path.parts.foldl step (start path)

def path (location : Location) : Path :=
  match location.anchor with
  | .working above =>
      { root := .working, parts := List.replicate above ".." ++ location.names }
  | .top => { root := .slash, parts := location.names }

end Location

/-- What stands at a location. -/
inductive Entry where
  | file (content : List UInt8)
  | directory
  deriving DecidableEq, Repr

/-- What a file is opened for. -/
inductive Access where
  | reading
  | writing
  deriving DecidableEq, Repr

/-- The known entries of the file system, and the files that the system refuses to open. -/
structure Directory where
  entries : List (Location × Entry) := []
  refusals : List ((Access × Location) × Refusal) := []
  deriving DecidableEq, Repr

namespace Directory

/-- The entry at a location; anchors are directories. -/
def entry? (directory : Directory) (location : Location) : Option Entry :=
  if location.names.isEmpty then some .directory else directory.entries.lookup location

/-- Put an entry at a location, in place of the one that is there. -/
def insertInto (location : Location) (entry : Entry) :
    List (Location × Entry) → List (Location × Entry)
  | [] => [(location, entry)]
  | head :: tail =>
      if head.1 = location then (location, entry) :: tail
      else head :: insertInto location entry tail

def insert (directory : Directory) (location : Location) (entry : Entry) : Directory :=
  { directory with entries := insertInto location entry directory.entries }

/-- The directories on the way along some components. -/
def insertParents (directory : Directory) (location : Location) : List String → Directory
  | [] => directory
  | part :: parts =>
      insertParents (directory.insert (location.step part) .directory)
        (location.step part) parts

def addDirectory (directory : Directory) (text : String) : Directory :=
  let path := Path.ofString text
  directory.insertParents (.start path) path.parts

def addFile (directory : Directory) (text : String) (content : List UInt8) : Directory :=
  let path := Path.ofString text
  (directory.insertParents (.start path) path.parts.dropLast).insert (.ofPath path)
    (.file content)

/-- A file that is there and that the system does not let be read. -/
def addUnreadable (directory : Directory) (path : Path) : Directory :=
  let opening := (Access.reading, Location.ofPath path)
  { directory.insert (.ofPath path) (.file []) with
    refusals := (opening, .denied path.text) :: directory.refusals }

def maxNameBytes : Nat := 255

def maxPathBytes : Nat := 4095

/-- Follow components; each has to start in a directory and to be a possible
name. -/
def walk (directory : Directory) (location : Location) :
    List String → Except RefusalKind Location
  | [] => .ok location
  | part :: parts =>
      match directory.entry? location with
      | some .directory =>
          if maxNameBytes < part.utf8ByteSize then .error .tooLong
          else directory.walk (location.step part) parts
      | some (.file _) => .error .notDirectory
      | none => .error .notFound

def refusal (path : Path) : RefusalKind → Refusal
  | .notDirectory => .throughFile path.text
  | .isDirectory => .directory path.text
  | .tooLong => .nameTooLong path.text
  | _ => .missing path.text

def locate (directory : Directory) (path : Path) : Except Failure Location :=
  if path.text.toList.contains '\x00' then .error (.misuse .nullInPath)
  else if maxPathBytes < path.text.utf8ByteSize then .error (.refused (refusal path .tooLong))
  else
    match directory.walk (.start path) path.parts with
    | .ok location => .ok location
    | .error kind => .error (.refused (refusal path kind))

/-- Open what stands at a location, unless the system refuses that. -/
def access (directory : Directory) (purpose : Access) (location : Location) :
    Except Failure Unit :=
  match directory.refusals.lookup (purpose, location) with
  | some refusal => .error (.refused refusal)
  | none => .ok ()

/-- Whether the system lets a file be read, as far as permissions go. -/
def permits (directory : Directory) (path : Path) : Bool :=
  match directory.locate path with
  | .error _ => true
  | .ok location =>
      match directory.refusals.lookup (.reading, location) with
      | some refusal => refusal.kind != .permission
      | none => true

/-- What a path as it was given names, if anything. -/
def lookup (directory : Directory) (text : String) : Option Entry :=
  if text.isEmpty || maxPathBytes < text.utf8ByteSize then none
  else
    match directory.locate (.ofString text) with
    | .error _ => none
    | .ok location =>
        match directory.entry? location with
        | some (.file content) =>
            if Path.namesDirectory text then none else some (.file content)
        | other => other

/-- The content of a file. -/
def read (directory : Directory) (path : Path) : Except Failure (List UInt8) := do
  let location ← directory.locate path
  directory.access .reading location
  match directory.entry? location with
  | some (.file content) => return content
  | some .directory => throw (.refused (.directory path.text))
  | none => throw (.refused (.missing path.text))

/-- Replace or create a file. -/
def write (directory : Directory) (path : Path) (content : List UInt8) :
    Except Failure Directory := do
  let location ← directory.locate path
  directory.access .writing location
  match directory.entry? location with
  | some .directory => throw (.refused (.directory path.text))
  | _ => return directory.insert location (.file content)

/-- The files that are new or hold something else than before. -/
def changes (before after : Directory) : List (Location × List UInt8) :=
  after.entries.filterMap fun (location, entry) =>
    match entry with
    | .directory => none
    | .file content =>
        if before.entry? location = some (.file content) then none else some (location, content)

end Directory

end Lc3Assembler
