import OntologyStructs.CommandLine

namespace OntologyStructs

def look (l : Location) : IO (Option Entry) := do
  try
    let bytes ← IO.FS.readBinFile (Text.toString ("/" ++ Text.join "/" l))
    return some (.file bytes.toList)
  catch
    | .inappropriateType .. => return some .directory
    | _ => return none

def copyWay (tree : FileTree) (l : Location) : List Text → IO FileTree
  | [] => return tree
  | name :: names => do
    let l := if name = ".." then l.dropLast else l ++ [name]
    match tree.at? l, ← look l with
    | none, some entry => copyWay (tree.put l entry) l names
    | _, _ => copyWay tree l names

def copyPath (tree : FileTree) (p : Path) : IO FileTree :=
  copyWay tree (if p.root = .none then tree.home else []) p.parts

def commit (before after : FileTree) : IO Unit :=
  for (l, entry) in after.entries do
    if before.at? l ≠ some entry then
      let name := Text.toString ("/" ++ Text.join "/" l)
      match entry with
      | .directory => IO.FS.createDirAll name
      | .file content => IO.FS.writeBinFile name ⟨content.toArray⟩

def levelName : Level → String
  | .debug => "DEBUG"
  | .info => "INFO"
  | .warning => "WARNING"
  | .error => "ERROR"

def printRecord (r : Record) : IO Unit :=
  IO.eprintln ("[" ++ r.reporter.name.toString ++ "] [" ++ levelName r.level ++ "] "
    ++ r.message.toString)

def printOutcome : CommandLine.Outcome → IO Unit
  | .help => IO.print CommandLine.help.toString
  | .misuse e => IO.eprint e.report.toString
  | .summary s => do
    IO.eprintln CommandLine.title.toString
    for (name, value) in s do
      IO.eprintln (name.toString ++ ": " ++ value.toString)
  | .undrawn reason => IO.eprintln reason.toString
  | .failure e => if e.isReported then return else IO.eprintln e.message.toString

end OntologyStructs

open OntologyStructs in
/-- Starts no other program: the formatter counts as one that is not there. -/
def main (args : List String) : IO UInt32 := do
  let args := args.map Text.ofString
  let home := (Path.ofText (Text.ofString (← IO.currentDir).toString)).parts
  let top ← copyWay ⟨[], home⟩ [] home
  let withSettings ← (CommandLine.settingsPath? args).toList.foldlM copyPath top
  let before ← (CommandLine.paths args withSettings).foldlM copyPath withSettings
  let ended := CommandLine.run ⟨"gofmt", none⟩ CommandLine.plainConsole args before
  commit before ended.tree
  ended.log.forM printRecord
  printOutcome ended.outcome
  return ((ended.outcome.status?).getD 1).toUInt32
