/-
A store that takes a number of results and refuses every one after them.
-/
import TradeWatch.Store.Basic

namespace TradeWatch

structure QuotaStore (σ : Type) where
  inner : σ
  left : Nat

namespace QuotaStore

variable {σ : Type} [TableStore σ]

def write (s : QuotaStore σ) (key : OutputKey) (t : Table) : QuotaStore σ × Except Fault Unit :=
  match s.left with
  | 0 => (s, .error .file)
  | left + 1 =>
    let (inner, written) := TableStore.write s.inner key t
    (⟨inner, left⟩, written)

instance : TableStore (QuotaStore σ) where
  load? s := TableStore.load? s.inner
  write := write

end QuotaStore

end TradeWatch
