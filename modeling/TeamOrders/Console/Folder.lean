import TeamOrders.Text.Trim

/-!
# Files and folders

What a run finds under its paths. A disk is a tree of folders and files, and a run works in one of its
folders. A path is followed part by part, from there or from the root; each part but the last has to
be a folder, and the one that holds a folder is called `..`.
-/

namespace TeamOrders.Console

/-- Why a file or a folder cannot be used. -/
inductive FileError where
  | notFound
  | isDirectory
  | notDirectory
  | alreadyThere
  | nameTooLong
  | denied
  | other (message : String)
deriving DecidableEq

def FileError.message : FileError → String
  | notFound => "No such file or directory (os error 2)"
  | isDirectory => "Is a directory (os error 21)"
  | notDirectory => "Not a directory (os error 20)"
  | alreadyThere => "File exists (os error 17)"
  | nameTooLong => "File name too long (os error 36)"
  | denied => "Permission denied (os error 13)"
  | other message => message

/-- What stands at a place of a disk. -/
inductive Entry where
  | file (text : String)
  | folder (entries : List (String × Entry))

namespace Entry

def child? (name : String) : Entry → Option Entry
  | folder entries => (entries.find? fun entry => entry.1 == name).map Prod.snd
  | file _ => none

/-- What stands where a list of names leads. -/
def at? (entry : Entry) : List String → Option Entry
  | [] => some entry
  | name :: rest => (entry.child? name).bind fun child => child.at? rest

/-- Puts an entry where a list of names leads, and folders on the way where there are none. -/
def put (entry : Entry) (new : Entry) : List String → Entry
  | [] => new
  | name :: rest =>
    let entries := match entry with
      | folder entries => entries
      | file _ => []
    let child := (entry.child? name).getD (folder [])
    folder ((name, child.put new rest) :: entries.filter fun other => other.1 != name)

end Entry

/-- The names on the way from the root to an entry. -/
abbrev Place := List String

/-- A tree of folders and files, and the folder that is worked in. -/
structure Disk where
  root : Entry
  home : Place

namespace Path

/-- The longest name that an entry can have, in bytes. -/
def maxName : Nat := 255

/-- The longest path, in bytes. -/
def maxLength : Nat := 4095

def isAbsolute (path : String) : Bool := path.toList.head? == some '/'

/-- The parts of a path between its slashes, some of which may be empty. -/
def parts (path : String) : List String :=
  (Text.fields (· == '/') path.toList).map String.ofList

/-- The parts of a path without those that lead nowhere. A dot counts in front only. -/
def steps (path : String) : List String :=
  match (parts path).filter (· != "") with
  | [] => []
  | first :: rest =>
    (if first == "." && isAbsolute path then [] else [first]) ++ rest.filter (· != ".")

def ofSteps (absolute : Bool) (steps : List String) : String :=
  (if absolute then "/" else "") ++ "/".intercalate steps

/-- The path and those that lead to the folders around it, the innermost first. The root and the
folder that is worked in are not among them. -/
def enclosing (path : String) : List String :=
  let steps := steps path
  match (List.range steps.length).reverse with
  | [] => []
  | _ :: shorter =>
    path :: shorter.map fun i => ofSteps (isAbsolute path) (steps.take (i + 1))

end Path

namespace Disk

open Console.Path

/-- The place where the following of a path starts. -/
def start (disk : Disk) (path : String) : Place := if isAbsolute path then [] else disk.home

/-- The disk with some files, whose folders are made where needed. -/
def ofFiles (home : Place) (files : List (String × String)) : Disk :=
  let empty : Disk := ⟨.put (.folder []) (.folder []) home, home⟩
  ⟨files.foldl (fun root (path, text) => root.put (.file text) (empty.start path ++ steps path))
    empty.root, home⟩

/-- Follows one part of a path from a place, which has to be a folder. -/
def step (disk : Disk) (here : Place) (part : String) : Except FileError Place :=
  match disk.root.at? here with
  | some (.folder entries) =>
    if part == "" || part == "." then .ok here
    else if part == ".." then .ok here.dropLast
    else if maxName < part.utf8ByteSize then .error .nameTooLong
    else if entries.any fun entry => entry.1 == part then .ok (here ++ [part])
    else .error .notFound
  | _ => .error .notDirectory

def follow (disk : Disk) (path : String) : Except FileError Place :=
  if path.isEmpty then .error .notFound
  else if maxLength < path.utf8ByteSize then .error .nameTooLong
  else (parts path).foldlM disk.step (disk.start path)

def entry (disk : Disk) (path : String) : Except FileError Entry := do
  let place ← disk.follow path
  match disk.root.at? place with
  | some entry => .ok entry
  | none => .error .notFound

def fileText (disk : Disk) (path : String) : Except FileError String := do
  match ← disk.entry path with
  | .file text => .ok text
  | .folder _ => .error .isDirectory

def isFolder (disk : Disk) (path : String) : Bool :=
  match disk.entry path with
  | .ok (.folder _) => true
  | _ => false

/-- Makes a folder where nothing is, within a folder that is there. -/
def makeFolder (disk : Disk) (path : String) : Except FileError Disk := do
  if maxLength < path.utf8ByteSize then throw .nameTooLong
  match (parts path).reverse.dropWhile (· == "") with
  | [] => throw (if path.isEmpty then .notFound else .alreadyThere)
  | last :: before =>
    let around ← before.reverse.foldlM disk.step (disk.start path)
    match disk.step around last with
    | .ok _ => throw .alreadyThere
    | .error .notFound => return { disk with root := disk.root.put (.folder []) (around ++ [last]) }
    | .error e => throw e

end Disk

/-- Tries to make a folder; what is there already is left. -/
def tryFolder {m : Type → Type} [Monad m] (make : String → m (Except FileError Unit))
    (isFolder : String → m Bool) (path : String) : m (Except FileError Unit) := do
  match ← make path with
  | .error .alreadyThere => return if ← isFolder path then .ok () else .error .alreadyThere
  | result => return result

/-- The paths of a list, which lead ever further out, that are yet to be made once a folder around
them has been made or found. -/
def missingFolders {m : Type → Type} [Monad m] (make : String → m (Except FileError Unit))
    (isFolder : String → m Bool) : List String → m (Except FileError (List String))
  | [] => return .ok []
  | path :: outer => do
    match ← tryFolder make isFolder path with
    | .ok () => return .ok []
    | .error .notFound =>
      return (← missingFolders make isFolder outer).map fun missing => missing ++ [path]
    | .error e => return .error e

def makeInTurn {m : Type → Type} [Monad m] (make : String → m (Except FileError Unit))
    (isFolder : String → m Bool) : List String → m (Except FileError Unit)
  | [] => return .ok ()
  | path :: rest => do
    match ← tryFolder make isFolder path with
    | .ok () => makeInTurn make isFolder rest
    | .error e => return .error e

/-- Makes a folder and those around it that are missing. The path itself is tried first, so that a
part of it that is no folder is found before anything is made. -/
def makeFolders {m : Type → Type} [Monad m] (make : String → m (Except FileError Unit))
    (isFolder : String → m Bool) (path : String) : m (Except FileError Unit) := do
  match ← missingFolders make isFolder (Path.enclosing path) with
  | .ok missing => makeInTurn make isFolder missing
  | .error e => return .error e

def Disk.makeFolders (disk : Disk) (path : String) : Except FileError Disk :=
  let make (path : String) : StateM Disk (Except FileError Unit) := fun disk =>
    match disk.makeFolder path with
    | .ok disk => (.ok (), disk)
    | .error e => (.error e, disk)
  let isFolder (path : String) : StateM Disk Bool := fun disk => (disk.isFolder path, disk)
  match (Console.makeFolders make isFolder path).run disk with
  | (.ok (), disk) => .ok disk
  | (.error e, _) => .error e

end TeamOrders.Console
