/-
The records that the rules work on: trades, accounts with their relations, and corporate events.
-/
import TradeWatch.Time.Instant

namespace TradeWatch

structure Trade where
  id : String
  time : Time.Instant
  instrument : String
  buyer : String
  seller : String
  quantity : Float
  price : Float
  value : Float
deriving Inhabited, DecidableEq

structure Account where
  id : String
  owner : Option String
  firm : Option String
  related : List String
deriving Inhabited, DecidableEq

structure CorporateEvent where
  id : String
  instrument : String
  kind : String
  /-- When the event became public. -/
  announced : Time.Instant
  /-- When it took effect. -/
  effective : Option Time.Instant
deriving Inhabited, DecidableEq

/-- Where the events of a run came from. -/
inductive EventSource
  | loaded
  /-- Made up from the trades, for want of an event table. -/
  | synthesized
deriving DecidableEq, Repr

end TradeWatch
