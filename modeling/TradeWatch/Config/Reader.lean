/-
Settings from JSON text. An object names the settings that differ from the defaults, in any order
and each at most once; members with other names are passed over. A list gives the values of the
settings in their own order, and may stop early.
-/
import TradeWatch.Config.Basic
import TradeWatch.Json.Skip

namespace TradeWatch.Config

open Json (Reader)

/-! ## One setting -/

/-- Reads a value and puts it into the configuration with `set`. -/
def reading {α : Type} (read : Reader α) (set : α → Config) : Reader Config := fun cs => do
  let (v, cs) ← read cs
  .ok (set v, cs)

/-- The value of one setting. -/
def readSetting (c : Config) : Setting → Reader Config
  | .preAnnouncementWindowDays =>
    reading Json.signed fun v => { c with preAnnouncementWindowDays := v }
  | .abnormalVolumeMultiplier =>
    reading Json.double fun v => { c with abnormalVolumeMultiplier := v }
  | .abnormalReturnThreshold =>
    reading Json.double fun v => { c with abnormalReturnThreshold := v }
  | .profitThreshold => reading Json.double fun v => { c with profitThreshold := v }
  | .networkWindowDays => reading Json.signed fun v => { c with networkWindowDays := v }
  | .leakageWindowHours => reading Json.signed fun v => { c with leakageWindowHours := v }
  | .leakageMinAccounts => reading Json.unsigned fun v => { c with leakageMinAccounts := v }
  | .severityHighOccurrences =>
    reading Json.unsigned fun v => { c with severityHighOccurrences := v }
  | .severityMediumOccurrences =>
    reading Json.unsigned fun v => { c with severityMediumOccurrences := v }
  | .severityLowOccurrences =>
    reading Json.unsigned fun v => { c with severityLowOccurrences := v }
  | .saveIntermediates => reading Json.boolean fun v => { c with saveIntermediates := v }
  | .minSuspiciousEvents => reading Json.unsigned fun v => { c with minSuspiciousEvents := v }
  | .syntheticEventSeed =>
    reading (Json.optional Json.unsigned) fun v => { c with syntheticEventSeed := v }

/-! ## The two forms -/

/-- The members of an object from its opening brace on; `seen` holds the settings already given. -/
def readMembers : Nat → Bool → List Setting → Config → Reader Config
  | 0, _, _, _, _ => .error .malformed
  | fuel + 1, first, seen, c, cs => do
    match ← Json.nextMember first cs with
    | .close rest => .ok (c, rest)
    | .more rest =>
      let (key, rest) ← Json.string rest
      match Setting.ofName? key with
      | none =>
        let (_, rest) ← Json.colon rest
        let (_, rest) ← Json.skip rest
        readMembers fuel false seen c rest
      | some setting =>
        if setting ∈ seen then .error .wrongType
        else
          let (_, rest) ← Json.colon rest
          let (c, rest) ← readSetting c setting rest
          readMembers fuel false (setting :: seen) c rest

/-- The values of these settings from an opening bracket on; nothing may follow the last one. -/
def readList : List Setting → Bool → Config → Reader Config
  | [], _, c, cs =>
    match Json.skipSpace cs with
    | [] => .error .endOfInput
    | d :: rest => if d = ']' then .ok (c, rest) else .error .malformed
  | setting :: settings, first, c, cs => do
    match ← Json.nextElement first cs with
    | .close rest => .ok (c, rest)
    | .more rest =>
      let (c, rest) ← readSetting c setting rest
      readList settings false c rest

def read : Reader Config := fun cs =>
  match Json.skipSpace cs with
  | [] => .error .endOfInput
  | d :: rest =>
    if d = '\x7b' then readMembers (rest.length + 1) true [] {} rest
    else if d = '[' then readList Setting.all true {} rest
    else .error (Json.mismatch (d :: rest))

/-- The settings that a text names, and the defaults for the others. -/
def parse (s : String) : Except Json.Fault Config :=
  Json.whole read s

end TradeWatch.Config
