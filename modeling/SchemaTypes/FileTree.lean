/-!
# File trees

The files that a command can see, as a value: texts by path, where a path is the list of its names
from the directory of the command down. A directory exists when a file lies below it or when it is
listed; the directory of the command and those around it always exist.

A written path is read in two ways. Resolving takes a step up as the removal of the step before it,
whether that leads to a directory or not; locating walks the tree and fails where no directory is,
and also where a name is longer than a file system takes.
-/

namespace SchemaTypes

/-- Texts of files by path, and directories that are there although no file lies below them. -/
structure FileTree where
  files : List (List String × String)
  folders : List (List String)

namespace FileTree

/-- A tree without files. -/
def empty : FileTree := ⟨[], []⟩

/-! ## Written paths -/

/-- The steps of a path that is written with slashes. A leading slash is a step of its own, and so
is a dot, which leads nowhere else. -/
def steps (path : String) : List String :=
  let names := ((path.toList.splitOn '/').map String.ofList).filter (· != "")
  if path.toList.head? == some '/' then "/" :: names else names

/-- The names on a path that is written with slashes: its steps without the dots. -/
def segments (path : String) : List String := (steps path).filter (· != ".")

/-- A path with slashes between its names. -/
def pathText : List String → String
  | "/" :: names => "/" ++ "/".intercalate names
  | names => "/".intercalate names

/-- Removes the step before every step up, as long as there is one. `walked` is what has been kept,
last name first. -/
def resolveFrom : List String → List String → List String
  | walked, [] => walked.reverse
  | walked, name :: rest =>
    if name = ".." then
      match walked with
      | [] => resolveFrom [".."] rest
      | last :: before =>
        if last = ".." then resolveFrom (".." :: walked) rest
        else if last = "/" then resolveFrom walked rest
        else resolveFrom before rest
    else resolveFrom (name :: walked) rest

/-- The path that a written path stands for, whatever is there. -/
def resolve (path : String) : List String := resolveFrom [] (segments path)

/-- The name of what a path leads to; the root has none. -/
def nameOf (path : List String) : String :=
  match path.getLast? with
  | none | some "/" => ""
  | some name => name

/-! ## Contents -/

/-- A tree of files that are named by written paths. -/
def ofFiles (files : List (String × String)) : FileTree :=
  ⟨files.map fun (path, text) ↦ (segments path, text), []⟩

/-- The text of a file. -/
def text? (t : FileTree) (path : List String) : Option String := t.files.lookup path

/-- Whether a path leads to a directory; the directory of the command, those around it and the root
always are there. -/
def isDirectory (t : FileTree) (path : List String) : Bool :=
  path.all (fun name ↦ name == ".." || name == "/") ||
    t.folders.any (fun folder ↦ path.isPrefixOf folder) ||
    t.files.any fun (file, _) ↦ path.isPrefixOf file && file.length != path.length

/-- Whether a path leads to a file or a directory. -/
def contains (t : FileTree) (path : List String) : Bool :=
  (t.text? path).isSome || t.isDirectory path

/-- The directories of a tree, without its top. -/
def directories (t : FileTree) : List (List String) :=
  let tops (path : List String) : List (List String) :=
    (List.range path.length).map fun n ↦ path.take (n + 1)
  (t.files.flatMap (fun (file, _) ↦ tops file.dropLast) ++ t.folders.flatMap tops).eraseDups

/-- A path below another one, from there on. A further step up leads out again, and so does the step
to the root. -/
def relative? (path below : List String) : Option (List String) :=
  if path.isPrefixOf below then
    match below.drop path.length with
    | [] | ".." :: _ | "/" :: _ => none
    | name :: rest => some (name :: rest)
  else none

/-- The tree below a directory. -/
def below (t : FileTree) (path : List String) : FileTree where
  files := t.files.filterMap fun (file, text) ↦ (relative? path file).map fun r ↦ (r, text)
  folders := t.folders.filterMap (relative? path)

/-- The tree with a new file, or with another text of one that is there. -/
def write (t : FileTree) (path : List String) (text : String) : FileTree :=
  { t with files := t.files.filter (fun e ↦ e.1 != path) ++ [(path, text)] }

/-- The tree with a text added at the end of a file, which is there from then on. -/
def append (t : FileTree) (path : List String) (text : String) : FileTree :=
  t.write path ((t.text? path).getD "" ++ text)

/-! ## Walking -/

/-- Why a path cannot be used. -/
inductive PathError where
  /-- There is no such file or directory. -/
  | notFound
  /-- A file stands where a directory should be. -/
  | notDirectory
  /-- A directory stands where a file should be. -/
  | isDirectory
  /-- The path or a name on it is too long. -/
  | tooLong
  /-- The path holds a NUL character. -/
  | holdsNul
deriving DecidableEq, Repr

/-- The most bytes of a name. -/
def nameLimit : Nat := 255

/-- The most bytes of a path. -/
def pathLimit : Nat := 4095

/-- Whether a path holds a NUL character, which no name has. -/
def holdsNul (path : String) : Bool := path.toList.contains '\x00'

/-- Refuses a written path that leads nowhere, whatever is there. -/
def checkPath (path : String) : Except PathError Unit :=
  if holdsNul path then .error .holdsNul
  else if path.isEmpty then .error .notFound
  else if pathLimit < path.utf8ByteSize then .error .tooLong
  else .ok ()

/-- The directory above a directory; the root has none. -/
def above (here : List String) : List String :=
  match here.getLast? with
  | none | some ".." => here ++ [".."]
  | some "/" => here
  | some _ => here.dropLast

/-- Refuses a place that is no directory. -/
def checkDirectory (t : FileTree) (here : List String) : Except PathError Unit :=
  if t.isDirectory here then .ok ()
  else .error (if (t.text? here).isSome then .notDirectory else .notFound)

/-- Takes one step from a place that has been reached. -/
def step (t : FileTree) (here : List String) (name : String) : Except PathError (List String) := do
  t.checkDirectory here
  if name = "." then return here
  if name = ".." then return above here
  if nameLimit < name.utf8ByteSize then throw .tooLong
  return here ++ [name]

/-- Walks down from a place that has been reached. -/
def walk (t : FileTree) (here : List String) : List String → Except PathError (List String)
  | [] => .ok here
  | name :: rest => do t.walk (← t.step here name) rest

/-- A walk goes on from the place that its first part leads to. -/
theorem walk_append (t : FileTree) (here xs ys : List String) :
    t.walk here (xs ++ ys) = (t.walk here xs).bind fun place ↦ t.walk place ys := by
  induction xs generalizing here with
  | nil => rfl
  | cons name rest ih =>
    simp only [List.cons_append, walk]
    cases h : t.step here name with
    | ok place => exact ih place
    | error e => rfl

/-- The place that a written path leads to; only what is there to be walked through is checked. -/
def locate (t : FileTree) (path : String) : Except PathError (List String) := do
  checkPath path
  t.walk [] (steps path)

/-- The place that names lead to; no name at all leads nowhere else. -/
def locateNames (t : FileTree) (names : List String) : Except PathError (List String) :=
  if names.isEmpty then .ok [] else t.locate (pathText names)

/-- Whether the names on a written path lead to something. That is not known of a path that is too
long. -/
def isThere (t : FileTree) (path : String) : Except PathError Bool :=
  match t.locateNames (segments path) with
  | .ok place => .ok (t.contains place)
  | .error .tooLong => .error .tooLong
  | .error _ => .ok false

/-- Whether a written path leads to a directory. -/
def isDirectoryAt (t : FileTree) (path : String) : Bool :=
  match t.locate path with
  | .ok place => t.isDirectory place
  | .error _ => false

/-- The text that the names on a written path lead to. -/
def textAt? (t : FileTree) (path : String) : Option String :=
  match t.locateNames (segments path) with
  | .ok place => t.text? place
  | .error _ => none

/-- Refuses a place where a directory is. -/
def checkFile (t : FileTree) (place : List String) : Except PathError (List String) :=
  if t.isDirectory place then .error .isDirectory else .ok place

/-- The place of a file that is to be written. -/
def target (t : FileTree) (path : String) : Except PathError (List String) := do
  if path.toList.getLast? = some '/' then
    -- Behind a slash there can only be a directory, whether the name before it leads to anything.
    checkPath path
    t.checkDirectory (← t.walk [] (steps path).dropLast)
    throw .isDirectory
  t.checkFile (← t.locate path)

/-- The text of a file that is to be read. -/
def read (t : FileTree) (path : List String) : Except PathError String :=
  match t.text? path with
  | some text => .ok text
  | none => .error (if t.isDirectory path then .isDirectory else .notFound)

end FileTree

end SchemaTypes
