/-
A tree of files and directories. A text is walked piece by piece, and every piece before the last
has to lead into a directory that is there: `a/../b` names nothing where there is no `a`. A
directory stays when the last file in it goes.
-/
import TradeWatch.Grouping
import TradeWatch.Store.Path
import TradeWatch.Table.Basic
import TradeWatch.Table.Csv

namespace TradeWatch

/-! ## Contents -/

inductive FileContent
  | bytes (data : ByteArray)
  /-- A table in batches of rows, of which there is at least one. -/
  | batches (first : Table) (rest : List Table)

namespace FileContent

/-- The table of a file of batches. -/
def table : FileContent → Except Fault Table
  | bytes _ => .error .table
  | batches first rest =>
    match first.concat? rest with
    | some t => .ok t
    | none => .error .table

/-- The table of a file of comma-separated text. -/
def csvTable : FileContent → Except Fault Table
  | bytes data => Csv.read data
  | batches _ _ => .error .table

/-- The bytes of a file as text. -/
def text : FileContent → Except Fault String
  | bytes data =>
    match String.fromUTF8? data with
    | some s => .ok s
    | none => .error .file
  | batches _ _ => .error .file

end FileContent

inductive FileNode
  | directory
  | file (content : FileContent)

namespace FileNode

def isDirectory : FileNode → Bool
  | directory => true
  | file _ => false

/-- The table of what stands in the place of a table file; a directory is none. -/
def table : FileNode → Except Fault Table
  | directory => .error .table
  | file content => content.table

/-- The table of what stands in the place of a file of comma-separated text. -/
def csvTable : FileNode → Except Fault Table
  | directory => .error .table
  | file content => content.csvTable

def text : FileNode → Except Fault String
  | directory => .error .file
  | file content => content.text

end FileNode

/-! ## Trees -/

structure FileTree where
  limits : PathLimits
  /-- Where the texts start that do not start at the root. -/
  workingDirectory : Path
  /-- What stands below the root, which is a directory itself. -/
  nodes : List (Path × FileNode)

namespace FileTree

def empty (limits : PathLimits) : FileTree := ⟨limits, [], []⟩

def node? (t : FileTree) (p : Path) : Option FileNode :=
  if p.isEmpty then some .directory else t.nodes.lookup p

def isDirectory (t : FileTree) (p : Path) : Bool :=
  (t.node? p).any (·.isDirectory)

/-- The tree without what stands at a path. -/
def erase (t : FileTree) (p : Path) : FileTree :=
  { t with nodes := t.nodes.filter fun n => n.1 != p }

/-- The tree with a node, in place of one at the same path. -/
def put (t : FileTree) (p : Path) (node : FileNode) : FileTree :=
  { t with nodes := (p, node) :: (t.erase p).nodes }

/-! ## Walks -/

/-- The directory that a piece leads into: an empty piece and a dot stay, two dots go back, and a
name leads into the directory that bears it. -/
def enter? (t : FileTree) (place : Path) (piece : String) : Option Path :=
  if piece = "" ∨ piece = "." then some place
  else if piece = ".." then some place.dropLast
  else if t.isDirectory (place ++ [piece]) then some (place ++ [piece])
  else none

/-- The path of a text. Something need not stand there, but the directories above it have to. -/
def locate? (t : FileTree) (text : String) : Option Path :=
  if t.limits.admitsText text then
    ((Path.parents text).foldlM t.enter? (Path.start t.workingDirectory text)).bind fun place =>
      let last := Path.lastPiece text
      if Path.isStep last then t.enter? place last else some (place ++ [last])
  else none

/-- What a text leads to. -/
def find? (t : FileTree) (text : String) : Option FileNode :=
  (t.locate? text).bind t.node?

/-- The text of a file. -/
def readText (t : FileTree) (name : String) : Except Fault String :=
  match t.find? name with
  | some node => node.text
  | none => .error .file

/-- The files below a directory, by their paths from there on, in order. -/
def listing (t : FileTree) (p : Path) : List String :=
  (t.nodes.filterMap fun n =>
    if p.isPrefixOf n.1 && !n.2.isDirectory then some (Path.text (n.1.drop p.length))
    else none).mergeSort textLe

/-! ## Writing -/

/-- Follows the pieces through directories from a place on and makes those that are missing. A file
in the way ends the walk, and so does a name that is too long; what was made before stays. -/
def makeDirectories (t : FileTree) (place : Path) : List String → FileTree × Option Path
  | [] => (t, some place)
  | piece :: rest =>
    match t.enter? place piece with
    | some inner => t.makeDirectories inner rest
    | none =>
      let inner := place ++ [piece]
      if t.limits.admitsName piece && (t.node? inner).isNone then
        (t.put inner .directory).makeDirectories inner rest
      else (t, none)

/-- The tree with a file in a directory, in place of a file of the same name there. -/
def putFile? (t : FileTree) (place : Path) (name : String) (content : FileContent) :
    Option FileTree :=
  let p := place ++ [name]
  if Path.isStep name || !t.limits.admitsName name || t.isDirectory p then none
  else some (t.put p (.file content))

/-- Writes a file, with the directories above it as far as they are missing. Directories that were
made stay also when the file cannot be written. -/
def write (t : FileTree) (text : String) (content : FileContent) :
    FileTree × Except Fault Unit :=
  if t.limits.admitsText (Path.parentText text) then
    match t.makeDirectories (Path.start t.workingDirectory text) (Path.parents text) with
    | (made, none) => (made, .error .file)
    | (made, some place) =>
      if made.limits.admitsText text then
        match made.putFile? place (Path.lastPiece text) content with
        | some written => (written, .ok ())
        | none => (made, .error .file)
      else (made, .error .file)
  else (t, .error .file)

end FileTree

end TradeWatch
