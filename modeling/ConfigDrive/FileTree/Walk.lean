/-
# ConfigDrive.FileTree.Walk — paths in a tree of files.

A path is walked from the working directory name by name.  Links are followed on the way, and at most
forty of them in one walk.  What a walk finds, or why it fails, is what the operating system would say.
-/
import ConfigDrive.FileTree
import ConfigDrive.Path
import ConfigDrive.SystemError
import ConfigDrive.Text.Utf8

namespace ConfigDrive

/-- The directories that were entered on the way from the root, the last one first. -/
abbrev Trail :=
  List (String × Listing)

/-- Where a walk ends: at something, at a name that is not taken in a directory, or at a link from where
it must go on. -/
inductive Stop
  | reached (place : Place) (item : Item)
  | vacant (directory : Place) (name : String)
  | link (trail : Trail) (target : String) (rest : List String)

/-- The place at the end of a trail. -/
def Trail.place (trail : Trail) : Place :=
  (List.map Prod.fst trail).reverse

namespace FileTree

/-! ## The steps of a path -/

/-- The names in a path, dots included. -/
def namesOf (path : String) : List String :=
  ((Text.pieces '/' path.toList).filter (!·.isEmpty)).map String.ofList

/-- The steps of a path: a path that ends with a slash goes on into the directory that it names. -/
def stepsOf (path : String) : List String :=
  let names := namesOf path
  if path.toList.getLast? = some '/' && !names.isEmpty then names ++ ["."] else names

/-- The number of bytes that a name may have. -/
def nameLimit : Nat :=
  255

/-- How many links one walk follows. -/
def linkLimit : Nat :=
  40

variable (t : FileTree)

/-! ## Walking -/

/-- What the directory at the end of a trail lists. -/
def entriesAt : Trail → Listing
  | [] => t.root
  | (_, entries) :: _ => entries

/-- Enter the directories of these names, one in the other. -/
def enter? (trail : Trail) : Place → Option Trail
  | [] => some trail
  | name :: rest =>
    match (t.entriesAt trail).lookup name with
    | some (.directory entries) => enter? ((name, entries) :: trail) rest
    | _ => none

/-- Walk from the end of a trail up to the first link that must be followed. -/
def descend (followLast : Bool) (trail : Trail) : List String → Except Errno Stop
  | [] => .ok (.reached trail.place (.directory (t.entriesAt trail)))
  | name :: rest =>
    if name = "." then descend followLast trail rest
    else if name = ".." then descend followLast trail.tail rest
    else if nameLimit < name.utf8ByteSize then .error .nameTooLong
    else
      match (t.entriesAt trail).lookup name with
      | none => if rest.isEmpty then .ok (.vacant trail.place name) else .error .notFound
      | some (.directory entries) => descend followLast ((name, entries) :: trail) rest
      | some (.link target) =>
        if rest.isEmpty && !followLast then .ok (.reached (trail.place ++ [name]) (.link target))
        else .ok (.link trail target rest)
      | some item =>
        if rest.isEmpty then .ok (.reached (trail.place ++ [name]) item) else .error .notADirectory

/-- Where the target of a link is walked from. -/
def linkBase (trail : Trail) (target : String) : Trail :=
  if Path.isAbsolute target.toList then [] else trail

/-- Walk from the end of a trail, following at most so many links. -/
def walk (followLast : Bool) : Nat → Trail → List String → Except Errno Stop
  | budget, trail, steps => do
    match ← t.descend followLast trail steps with
    | .link trail target rest =>
      match budget with
      | 0 => .error .tooManyLinks
      | budget + 1 =>
        if target.isEmpty then .error .notFound
        else walk followLast budget (linkBase trail target) (stepsOf target ++ rest)
    | stop => .ok stop

/-- Walk from the directory at a place. -/
def walkFrom (followLast : Bool) (l : Place) (steps : List String) : Except Errno Stop :=
  match t.enter? [] l with
  | some trail => t.walk followLast linkLimit trail steps
  | none => .error .notFound

/-- Walk some steps of a path, which must be one that the system takes. -/
def locateSteps (followLast : Bool) (path : String) (steps : List String) :
    Except SystemError Stop :=
  if path.isEmpty then .error (.errno .notFound)
  else if path.toList.contains '\x00' then .error .nulInPath
  else if Path.byteLimit ≤ path.utf8ByteSize then .error (.errno .nameTooLong)
  else
    let base := if Path.isAbsolute path.toList then [] else t.workingDirectory
    (t.walkFrom followLast base steps).mapError .errno

/-- What a path leads to, links followed. -/
def lookup (path : String) : Except SystemError Item := do
  match ← t.locateSteps true path (stepsOf path) with
  | .reached _ item => return item
  | _ => throw (.errno .notFound)

/-! ## Reading -/

/-- The path leads to a file that someone may execute. -/
def isExecutable (path : String) : Bool :=
  match t.lookup path with
  | .ok item => item.isExecutable
  | .error _ => false

/-- The path leads to a directory. -/
def isDirectory (path : String) : Bool :=
  match t.lookup path with
  | .ok (.directory _) => true
  | _ => false

/-- The text of a file. -/
def readText (path : String) : Except SystemError String := do
  match ← t.lookup path with
  | .directory _ => throw (.errno .isADirectory)
  | .file _ bytes =>
    match Text.Utf8.decode? bytes with
    | some s => return String.ofList s
    | none => throw .notUtf8
  | _ => return ""

/-- The names in a directory. -/
def listDirectory (path : String) : Except SystemError (List String) := do
  match ← t.lookup path with
  | .directory entries => return entries.map (·.1)
  | _ => throw (.errno .notADirectory)

/-! ## Changing -/

/-- The tree with one more directory. -/
def makeDirectory (path : String) : Except SystemError FileTree := do
  match ← t.locateSteps false path (namesOf path) with
  | .vacant l name => return t.insert l name (.directory [])
  | _ => throw (.errno .alreadyExists)

/-- Make a directory and the missing ones around it.  Directories that could be made stay even if a later
one could not. -/
def makeDirectories (t : FileTree) (path : String) : Except SystemError Unit × FileTree :=
  if path.isEmpty then (.ok (), t)
  else
    match t.makeDirectory path with
    | .ok t => (.ok (), t)
    | .error e =>
      if !e.isNotFound then (if t.isDirectory path then .ok () else .error e, t)
      else
        match Path.parent? path with
        | none => (.error .noParentDirectory, t)
        | some parent =>
          if parent.length < path.length then
            match makeDirectories t parent with
            | (.error e, t) => (.error e, t)
            | (.ok (), t) =>
              match t.makeDirectory path with
              | .ok t => (.ok (), t)
              | .error e => (if t.isDirectory path then .ok () else .error e, t)
          else (.error .noParentDirectory, t)
termination_by path.length

/-- Make sure that directories lead along these names, and put an item at the last one.  What stands in
the way is replaced; a link to a directory is followed. -/
def putAt (item : Item) (t : FileTree) (l : Place) : List String → FileTree
  | [] => t
  | [name] => t.insert l name item
  | name :: rest =>
    match t.walkFrom true l [name] with
    | .ok (.reached m (.directory _)) => putAt item t m rest
    | _ => putAt item (t.insert l name (.directory [])) (l ++ [name]) rest

/-- The tree with an item at a path, whatever was there before. -/
def put (path : String) (item : Item) : FileTree :=
  t.putAt item t.workingDirectory (namesOf path)

/-- The tree without what is at a path; a link there is removed itself. -/
def remove (path : String) : FileTree :=
  match t.locateSteps false path (namesOf path) with
  | .ok (.reached l _) => t.erase l
  | _ => t

end FileTree

end ConfigDrive
