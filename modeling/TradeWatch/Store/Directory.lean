/-
A store in a directory of files. A source is a table file or, if there is none of its name, a file
of comma-separated text; a result is a table file in a directory of its category and kind.
-/
import TradeWatch.Store.Basic
import TradeWatch.Store.FileTree

namespace TradeWatch

structure DirectoryStore where
  files : FileTree
  /-- The directory of the store, as it was given. -/
  root : String

namespace DirectoryStore

def tableExtension : String := ".arrow"
def csvExtension : String := ".csv"

/-- The text of a file below the directory of the store. -/
def fileText (s : DirectoryStore) (file : String) : String :=
  Path.joinText s.root file

/-- Where a result is written, as text. -/
def outputText (s : DirectoryStore) (key : OutputKey) : String :=
  Path.joinText (Path.joinText (s.fileText key.category) key.kind) (key.name ++ tableExtension)

/-- The whole of a source. -/
def source? (s : DirectoryStore) (name : String) : Except Fault (Option Table) :=
  match s.files.find? (s.fileText (name ++ tableExtension)) with
  | some node => node.table.map some
  | none =>
    match s.files.find? (s.fileText (name ++ csvExtension)) with
    | some node => node.csvTable.map some
    | none => .ok none

def load? (s : DirectoryStore) (name : String) (columns : List String) :
    Except Fault (Option Table) := do
  match ← s.source? name with
  | none => .ok none
  | some t => (t.project name columns).map some

def write (s : DirectoryStore) (key : OutputKey) (t : Table) :
    DirectoryStore × Except Fault Unit :=
  let (files, written) := s.files.write (s.outputText key) (.batches t [])
  ({ s with files := files }, written)

/-- A result that was written before. -/
def result? (s : DirectoryStore) (key : OutputKey) : Except Fault (Option Table) :=
  match s.files.find? (s.outputText key) with
  | some node => node.table.map some
  | none => .ok none

/-- All files of the store, by their paths in it. -/
def fileNames (s : DirectoryStore) : List String :=
  match s.files.locate? s.root with
  | some p => s.files.listing p
  | none => []

instance : TableStore DirectoryStore where
  load? := load?
  write := write

end DirectoryStore

end TradeWatch
