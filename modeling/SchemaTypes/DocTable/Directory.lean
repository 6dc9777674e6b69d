import SchemaTypes.DocTable.Markdown
import SchemaTypes.FileTree
import SchemaTypes.Log
import SchemaTypes.Sorting

/-!
# Tables of a documentation directory

The markdown files of a directory are read in the order of the names on their paths, and their
tables are put one behind the other. What has been read before a failure stays in the log.

The log of the files before may have been added to a file by the time it is read.
-/

namespace SchemaTypes.DocTable

/-- Why a documentation directory cannot be read. -/
inductive DirectoryError where
  /-- A table stands under no heading. -/
  | noSection (cause : NoSection)
  /-- A directory has the name of a markdown file. -/
  | isDirectory (path : List String)
deriving DecidableEq, Repr

/-- A text whose line boundaries of one or two characters are all line feeds. -/
def unifyBreaks : List Char → List Char
  | [] => []
  | '\r' :: '\n' :: rest => '\n' :: unifyBreaks rest
  | c :: rest => (if c == '\r' then '\n' else c) :: unifyBreaks rest

/-- Whether a path has the name of a markdown file. -/
def isMarkdown (path : List String) : Bool :=
  match path.getLast? with
  | some name => Text.endsWith name ".md"
  | none => false

/-- Whether a path does not come after another one: by the first names in which they differ. -/
def comesNotAfter : List String → List String → Bool
  | [], _ => true
  | _ :: _, [] => false
  | a :: as, b :: bs => if a = b then comesNotAfter as bs else a ≤ b

/-- Everything in a tree with the name of a markdown file, in order; a directory has no text. -/
def markdownEntries (t : FileTree) : List (List String × Option String) :=
  let entries : List (List String × Option String) :=
    t.files.map (fun (path, text) ↦ (path, some text)) ++ t.directories.map fun path ↦ (path, none)
  sorted (fun a b ↦ comesNotAfter a.1 b.1) (entries.filter fun e ↦ isMarkdown e.1)

/-- The tables of one entry. -/
def entryTables (path : List String) : Option String → Except DirectoryError (List DocTable)
  | some text =>
    (scrape (Text.onChars unifyBreaks text) (FileTree.pathText path)).mapError .noSection
  | none => .error (.isDirectory path)

/-- The tables of entries, up to the first one that cannot be read, and the log of those read.
`added` is what a log has added to the file at a path, and `before` is the log so far. -/
def scrapeEntries (added : List String → List Log.Record → String) (before : List Log.Record) :
    List (List String × Option String) → List Log.Record × Except DirectoryError (List DocTable)
  | [] => ([], .ok [])
  | (path, text) :: rest =>
    match entryTables path (text.map (· ++ added path before)) with
    | .error e => ([], .error e)
    | .ok found =>
      let record : Log.Record := ⟨.debug, .documentation,
        "found " ++ toString found.length ++ " tables in " ++ FileTree.pathText path⟩
      let (records, tables) := scrapeEntries added (before ++ [record]) rest
      (record :: records, tables.map (found ++ ·))

/-- The tables of all markdown files in a tree, where `added` is what a log has added to the file at
a path. -/
def scrapeDirectory (t : FileTree) (added : List String → List Log.Record → String) :
    List Log.Record × Except DirectoryError (List DocTable) :=
  scrapeEntries added [] (markdownEntries t)

end SchemaTypes.DocTable
