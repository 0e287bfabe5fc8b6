/-
A store that holds its tables in memory. Sources and results are kept apart.
-/
import TradeWatch.Store.Basic

namespace TradeWatch

structure MemoryStore where
  sources : Dict Table
  results : Dict Table

namespace MemoryStore

def empty : MemoryStore := ⟨[], []⟩

/-- The store with a source, in place of one of the same name. -/
def insert (s : MemoryStore) (name : String) (t : Table) : MemoryStore :=
  { s with sources := s.sources.insert name t }

def load? (s : MemoryStore) (name : String) (columns : List String) :
    Except Fault (Option Table) :=
  match s.sources.get? name with
  | none => .ok none
  | some t => (t.project name columns).map some

def write (s : MemoryStore) (key : OutputKey) (t : Table) : MemoryStore :=
  { s with results := s.results.insert key.text t }

/-- A result that was written before. -/
def result? (s : MemoryStore) (key : OutputKey) : Option Table :=
  s.results.get? key.text

/-- The keys of all results, in order. -/
def resultKeys (s : MemoryStore) : List String :=
  s.results.map (·.1)

instance : TableStore MemoryStore where
  load? := load?
  write s key t := (s.write key t, .ok ())

end MemoryStore

end TradeWatch
