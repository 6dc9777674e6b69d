import SchemaTypes.Command.Execution
import Std.Time.Format

/-!
# The command

The outer layer: reads the files that the arguments name into a tree, runs the command on it, and
carries out what it leaves behind. It decides nothing itself.
-/

open SchemaTypes

/-- The markdown files below a directory, by their paths. -/
def markdownFiles (directory : String) : IO (List (List String × String)) := do
  let root ← IO.FS.realPath directory
  let found ← root.walkDir
  let mut files := []
  for file in found do
    if file.toString.endsWith ".md" && !(← file.isDir) then
      let inside := (FileTree.segments file.toString).drop (FileTree.segments root.toString).length
      files := (FileTree.resolve directory ++ inside, ← IO.FS.readFile file) :: files
  return files

/-- Adds what a written path leads to, if it leads to anything. -/
def addPath (tree : FileTree) (path : String) : IO FileTree := do
  if path.isEmpty then return tree
  try
    let place ← IO.FS.realPath path
    if ← place.isDir then
      return { tree with
        files := tree.files ++ (← markdownFiles path)
        folders := FileTree.resolve path :: tree.folders }
    else return tree.write (FileTree.resolve path) (← IO.FS.readFile path)
  catch _ => return tree

/-- Adds the directory that a file would be written to, if it is there. -/
def addParent (tree : FileTree) (path : String) : IO FileTree := do
  let parent := (FileTree.resolve path).dropLast
  try
    let place ← IO.FS.realPath (FileTree.pathText parent)
    return if ← place.isDir then { tree with folders := parent :: tree.folders } else tree
  catch _ => return tree

/-- The files and directories that the arguments name. -/
def treeOf (arguments : List String) : IO FileTree := do
  match Command.scan arguments with
  | .error _ => return .empty
  | .ok given =>
    let mut tree := FileTree.empty
    for path in given.positional ++ given.options.map Prod.snd do
      tree ← addParent (← addPath tree path) path
    return tree

/-- The number of processors that work is spread over unless workers are configured. -/
def processors : Nat := 4

/-- A time in the words of the log file, to the millisecond. -/
def timeText (time : Std.Time.DateTime) : String :=
  time.toPlainDateTime.format "uuuu-MM-dd HH:mm:ss,SSS"

/-- The time now: local time, or universal time on a machine that does not know its zone. -/
def timeNow : IO String := do
  let now ← try Std.Time.DateTime.now
    catch _ => pure (.ofTimestampWithZone (← Std.Time.Timestamp.now) .UTC)
  return timeText now

def main (arguments : List String) : IO UInt32 := do
  let before ← treeOf arguments
  let outcome := Command.execute before processors (← timeNow) arguments
  for (path, text) in outcome.files.files do
    if before.text? path != some text then
      IO.FS.writeFile (FileTree.pathText path) text
  IO.print outcome.stdout
  IO.eprint outcome.stderr
  if let some (.mismatch cause) := outcome.fault then IO.eprintln cause.message
  return outcome.exitCode.toUInt32
