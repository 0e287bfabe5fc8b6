/-
Stores of tables: where a run reads its sources and writes its results. A source is named by a
text; a result has a category, a kind and a name.
-/
import TradeWatch.Table.Basic

namespace TradeWatch

/-- Where a result belongs. -/
structure OutputKey where
  category : String
  kind : String
  name : String
deriving DecidableEq, Repr

def OutputKey.text (k : OutputKey) : String :=
  k.category ++ "/" ++ k.kind ++ "/" ++ k.name

class TableStore (σ : Type) where
  /-- The chosen columns of a source, or nothing if there is no such source. -/
  load? : σ → String → List String → Except Fault (Option Table)
  /-- The store after a result was handed to it, and whether it took the result. -/
  write : σ → OutputKey → Table → σ × Except Fault Unit

end TradeWatch
