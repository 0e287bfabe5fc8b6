/-
The arguments of the command line. Flags have two dashes; a flag with a value takes it from behind
an equals sign or from the next argument, which may not look like a flag. Every flag is given at
most once, there are no other arguments, and the first one that does not fit ends the reading.
-/
import TradeWatch.Config.Overrides
import TradeWatch.Decimal.Numeral

namespace TradeWatch.CommandLine

structure Arguments where
  dataDirectory : String := "data"
  configFile : Option String := none
  logLevel : String := "info"
  jsonLogs : Bool := false
  reportJson : Bool := false
  overrides : Overrides := {}

/-! ## Flags -/

inductive Flag
  | help
  | dataDirectory
  | configFile
  | logLevel
  | jsonLogs
  | reportJson
  | setting (s : Setting)
deriving DecidableEq, Repr

namespace Flag

def name : Flag → String
  | help => "--help"
  | dataDirectory => "--data-dir"
  | configFile => "--config"
  | logLevel => "--log-level"
  | jsonLogs => "--json-logs"
  | reportJson => "--report-json"
  | setting s => "--" ++ String.ofList (s.name.toList.map fun c => if c = '_' then '-' else c)

def all : List Flag :=
  [help, dataDirectory, configFile, logLevel, jsonLogs, reportJson] ++ Setting.all.map setting

def ofName? (s : String) : Option Flag :=
  all.find? fun flag => flag.name == s

/-- Takes no value. -/
def isSwitch : Flag → Bool
  | help => true
  | jsonLogs => true
  | reportJson => true
  | setting .saveIntermediates => true
  | _ => false

end Flag

/-- A name and the value behind the first equals sign, if there is one. -/
def splitValue (argument : String) : String × Option String :=
  let cs := argument.toList
  let name := String.ofList (cs.takeWhile (· != '='))
  match cs.dropWhile (· != '=') with
  | [] => (name, none)
  | _ :: value => (name, some (String.ofList value))

/-- The short form of the flag for help, alone or in front of other letters. -/
def isShortHelp (argument : String) : Bool :=
  ['-', 'h'].isPrefixOf argument.toList

/-- May stand behind a flag as its value. -/
def canBeValue (argument : String) : Bool :=
  argument == "-" || argument.toList.head? != some '-'

/-! ## Values -/

def signed? (s : String) : Option Int :=
  (Decimal.integer? true s).filter isSigned64

def unsigned? (s : String) : Option Nat :=
  ((Decimal.integer? false s).filter isUnsigned64).map Int.toNat

/-- A path that names something. -/
def path? (s : String) : Option String :=
  if s = "" then none else some s

def setSetting? (o : Overrides) (value : String) : Setting → Option Overrides
  | .preAnnouncementWindowDays =>
    (signed? value).map fun v => { o with preAnnouncementWindowDays := some v }
  | .abnormalVolumeMultiplier =>
    (Decimal.real? value).map fun v => { o with abnormalVolumeMultiplier := some v }
  | .abnormalReturnThreshold =>
    (Decimal.real? value).map fun v => { o with abnormalReturnThreshold := some v }
  | .profitThreshold => (Decimal.real? value).map fun v => { o with profitThreshold := some v }
  | .networkWindowDays => (signed? value).map fun v => { o with networkWindowDays := some v }
  | .leakageWindowHours => (signed? value).map fun v => { o with leakageWindowHours := some v }
  | .leakageMinAccounts => (unsigned? value).map fun v => { o with leakageMinAccounts := some v }
  | .severityHighOccurrences =>
    (unsigned? value).map fun v => { o with severityHighOccurrences := some v }
  | .severityMediumOccurrences =>
    (unsigned? value).map fun v => { o with severityMediumOccurrences := some v }
  | .severityLowOccurrences =>
    (unsigned? value).map fun v => { o with severityLowOccurrences := some v }
  | .saveIntermediates => none
  | .minSuspiciousEvents =>
    (unsigned? value).map fun v => { o with minSuspiciousEvents := some v }
  | .syntheticEventSeed => (unsigned? value).map fun v => { o with syntheticEventSeed := some v }

/-- The arguments with the value of a flag, if it is one of the flag's values. -/
def setValue? (a : Arguments) (value : String) : Flag → Option Arguments
  | .dataDirectory => (path? value).map fun v => { a with dataDirectory := v }
  | .configFile => (path? value).map fun v => { a with configFile := some v }
  | .logLevel => some { a with logLevel := value }
  | .setting s => (setSetting? a.overrides value s).map fun o => { a with overrides := o }
  | .help => none
  | .jsonLogs => none
  | .reportJson => none

def setSwitch (a : Arguments) : Flag → Arguments
  | .jsonLogs => { a with jsonLogs := true }
  | .reportJson => { a with reportJson := true }
  | .setting .saveIntermediates =>
    { a with overrides := { a.overrides with saveIntermediates := true } }
  | _ => a

/-! ## Reading -/

/-- Why there are no arguments to run with. -/
inductive Stop
  | help
  | usage
deriving DecidableEq, Repr

/-- Reads the arguments from left to right; `seen` holds the flags already given. -/
def readFrom (seen : List Flag) (a : Arguments) : List String → Except Stop Arguments
  | [] => .ok a
  | argument :: rest =>
    if argument = "--" then (if rest.isEmpty then .ok a else .error .usage)
    else if isShortHelp argument then .error .help
    else
      let (name, value?) := splitValue argument
      match Flag.ofName? name with
      | none => .error .usage
      | some flag =>
        if flag.isSwitch then
          if value?.isSome then .error .usage
          else if flag = .help then .error .help
          else if flag ∈ seen then .error .usage
          else readFrom (flag :: seen) (setSwitch a flag) rest
        else if flag ∈ seen then .error .usage
        else match value?, rest with
          | some value, rest =>
            match setValue? a value flag with
            | none => .error .usage
            | some a => readFrom (flag :: seen) a rest
          | none, [] => .error .usage
          | none, value :: rest =>
            if canBeValue value then
              match setValue? a value flag with
              | none => .error .usage
              | some a => readFrom (flag :: seen) a rest
            else .error .usage

def read (arguments : List String) : Except Stop Arguments :=
  readFrom [] {} arguments

end TradeWatch.CommandLine
