/-
The command line as a function of its arguments and the files it finds: what it replies, and the
store it leaves behind.
-/
import TradeWatch.CommandLine.Arguments
import TradeWatch.CommandLine.Printed
import TradeWatch.Store.Directory

namespace TradeWatch.CommandLine

inductive Reply
  | help
  /-- The arguments make no sense. -/
  | usage
  | failed (fault : Fault)
  | reported (report : Report)

/-- A reply with the notices of the run and the store after it. -/
structure Answer where
  reply : Reply
  notices : List Notice
  store : DirectoryStore

/-- The store that the arguments name. -/
def storeOf (a : Arguments) (files : FileTree) : DirectoryStore :=
  ⟨files, a.dataDirectory⟩

/-- The text of the configuration file, if one is given. -/
def configText (a : Arguments) (files : FileTree) : Option (Except Fault String) :=
  a.configFile.map files.readText

/-- The settings of the arguments as a detector. -/
def detector (a : Arguments) (files : FileTree) : Except Fault Detector := do
  Detector.ofConfig (← Config.resolve (configText a files) a.overrides)

def execute {m : Type → Type} [Monad m] (watch : Stopwatch m) (a : Arguments) (files : FileTree)
    (context : RunContext) : m Answer := do
  let store := storeOf a files
  match detector a files with
  | .error e => return ⟨.failed e, [], store⟩
  | .ok d =>
    let ran ← d.execute watch store context
    match ran.result with
    | .error e => return ⟨.failed e, ran.notices, ran.store⟩
    | .ok report => return ⟨.reported report, ran.notices, ran.store⟩

/-- The reply to arguments that no run follows. -/
def Stop.reply : Stop → Reply
  | help => .help
  | usage => .usage

/-- The reply to the arguments, without a clock. -/
def reply (arguments : List String) (files : FileTree) (context : RunContext) : Reply :=
  match read arguments with
  | .error stop => stop.reply
  | .ok a => (Id.run (execute .still a files context)).reply

/-- Where the alerts of a run are written, as the report names it. -/
def alertsFile (a : Arguments) : String :=
  (storeOf a (.empty .unlimited)).outputText Output.alerts

end TradeWatch.CommandLine
