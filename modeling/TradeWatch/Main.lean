/-
The program: reads the files that a run may look at, carries out the run, and writes its results.
-/
import Std.Time.DateTime.Timestamp
import TradeWatch.CommandLine
import TradeWatch.Random.Identifier
import TradeWatch.Store.TableFile

namespace TradeWatch.Main

open CommandLine (Arguments)

/-! ## Files -/

/-- The bytes of a file that is there; one that cannot be read has none that make sense. -/
def readBytes? (name : String) : IO (Option ByteArray) := do
  try
    return some (← IO.FS.readBinFile name)
  catch
    | .noFileOrDirectory .. => return none
    | _ => return some ⟨#[0xff]⟩

/-- A file that holds a table, as far as its text is one. -/
def contentOf (bytes : ByteArray) : FileContent :=
  match (String.fromUTF8? bytes).bind TableFile.decode with
  | some t => .batches t []
  | none => .bytes bytes

/-- A tree with the working directory and nothing else. -/
def emptyTree : IO FileTree := do
  let pieces := Path.pieces (← IO.currentDir).toString
  let (tree, directory) := (FileTree.empty .usual).makeDirectories [] pieces
  return { tree with workingDirectory := directory.getD [] }

/-- The tree with a file, if it is there. -/
def addFile (tree : FileTree) (name : String) (content : ByteArray → FileContent) :
    IO FileTree := do
  match ← readBytes? name with
  | none => return tree
  | some bytes => return (tree.write name (content bytes)).1

/-- The files that a run with these arguments may read. -/
def readFiles (a : Arguments) : IO FileTree := do
  let mut tree ← emptyTree
  if let some name := a.configFile then
    tree ← addFile tree name .bytes
  for table in [tradesTable, accountsTable, eventsTable] do
    let name := Path.joinText a.dataDirectory table
    tree ← addFile tree (name ++ DirectoryStore.tableExtension) contentOf
    tree ← addFile tree (name ++ DirectoryStore.csvExtension) .bytes
  return tree

/-- Writes the results that a run left in its store. -/
def writeFiles (s : DirectoryStore) : IO Unit := do
  for key in Output.all do
    if let .ok (some t) := s.result? key then
      let directory := Path.joinText (Path.joinText s.root key.category) key.kind
      IO.FS.createDirAll directory
      IO.FS.writeFile (s.outputText key) (TableFile.encode t)

/-! ## The run -/

/-- Measures with the clock of the machine. -/
def clock : Stopwatch IO :=
  ⟨fun f => do
    let start ← IO.monoNanosNow
    let x ← IO.lazyPure f
    let stop ← IO.monoNanosNow
    return (x, (stop - start) / 1000)⟩

def randomSeed : IO UInt64 := do
  let bytes ← IO.getRandomBytes 8
  return bytes.toList.foldl (fun n b => n * 256 + b.toUInt64) 0

def surroundings : IO RunContext := do
  let now ← Std.Time.Timestamp.now
  let entropy ← randomSeed
  let ids ← randomSeed
  return ⟨(Time.Instant.ofNanos? now.toNanosecondsSinceUnixEpoch.toInt).getD default,
    Random.identifier ids, entropy⟩

def logNotice (n : Notice) : IO Unit :=
  IO.eprintln ((if n.isError then "ERROR " else " WARN ") ++ n.message ++
    String.join (n.details.map fun d => " " ++ d.1 ++ "=" ++ d.2.compact))

def usage : String :=
  "Usage: insider-surveillance [OPTIONS]\n\nOptions:\n" ++
  String.join (CommandLine.Flag.all.map fun flag =>
    "  " ++ flag.name ++ (if flag.isSwitch then "" else " <VALUE>") ++ "\n")

def fail (e : Fault) : IO UInt32 := do
  IO.eprintln ("Error: " ++ e.diagnostic)
  return e.exitCode

def execute (a : Arguments) : IO UInt32 := do
  let answer ← CommandLine.execute clock a (← readFiles a) (← surroundings)
  answer.notices.forM logNotice
  let written ← (writeFiles answer.store).toBaseIO
  match answer.reply, written with
  | .reported _, .error _ => fail .file
  | .reported r, .ok _ =>
    IO.print (if a.reportJson then r.json.pretty ++ "\n"
      else r.text toString (CommandLine.alertsFile a))
    return 0
  | .failed e, _ => fail e
  | .help, _ => return 0
  | .usage, _ => return 2

end TradeWatch.Main

open TradeWatch in
def main (arguments : List String) : IO UInt32 := do
  match CommandLine.read arguments with
  | .ok a => Main.execute a
  | .error .help =>
    IO.print Main.usage
    return 0
  | .error .usage =>
    IO.eprint Main.usage
    return 2
