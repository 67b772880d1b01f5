import Bindgen.Command.Run
import Bindgen.Syntax.Stored

/-! # The command

The outer layer of a run: it looks at the disk and the environment, runs the
command on what it saw, and carries out the result. Parsing source text is left
to another tool, which stores the syntax tree of `x.d.ts` in `x.d.ts.json`.
-/

namespace Bindgen.Main

open Syntax

/-- What is at a path whose parent is a directory. -/
def probe (path : String) : IO (Option Entry) := do
  try
    let content ← IO.FS.readBinFile path
    return some (.file content.toList)
  catch
    | .noFileOrDirectory .. => return none
    | _ => return some .directory

def lookAlong (disk : Disk) (path : Path) : IO Disk := do
  let mut disk := disk
  for length in List.range (path.names.length + 1) do
    let step : Path := { path with names := path.names.take length }
    if disk.isDirectory step.parent then
      match disk.resolve step, ← probe step.text with
      | .ok place, some entry =>
        if (disk.lookup? place).isNone then disk := disk.put place entry
      | _, _ => pure ()
  return disk

def storedTree? (path : Path) (source : List UInt8) : IO (Option Node) := do
  try
    let text ← IO.FS.readFile (path.text ++ ".json")
    return (Json.read? text).bind (Node.ofJson? source)
  catch _ => return none

/-- The sources among the given paths that have a stored tree. -/
def storedTrees (disk : Disk) (paths : List Path) : IO (List (List UInt8 × Node)) := do
  let mut trees := []
  for path in paths do
    match disk.read path with
    | .error _ => pure ()
    | .ok source =>
      match ← storedTree? path source with
      | some tree => trees := (source, tree) :: trees
      | none => pure ()
  return trees

def emptyTree (source : List UInt8) : Node :=
  ⟨"program", true, none, .ofSource source 0 source.length, []⟩

def settingVariables : IO (List (String × String)) := do
  let mut found := []
  for name in Settings.names do
    let name := Settings.defaultLead ++ name.toUpper
    match ← IO.getEnv name with
    | some value => found := (name, value) :: found
    | none => pure ()
  return found

def carryOut (before after : Disk) : IO Unit := do
  for (place, content) in (after.changesSince before).reverse do
    IO.FS.createDirAll (Path.ofText (Place.text place)).parent.text
    IO.FS.writeBinFile (Place.text place) ⟨content.toArray⟩

end Bindgen.Main

open Bindgen Bindgen.Main in
def main (arguments : List String) : IO UInt32 := do
  let paths := match Arguments.read arguments with
    | .ok a => a.paths.map Path.ofText
    | .error _ => []
  let mut disk : Disk := ⟨[]⟩
  for path in paths do
    disk ← lookAlong disk path
  let trees ← storedTrees disk paths
  let parse := fun source => (trees.lookup source).getD (emptyTree source)
  let report := run parse (← settingVariables) disk arguments
  carryOut disk report.disk
  for event in report.log do
    if report.verbosity.shows event.level then IO.eprintln event.line
  IO.print report.stdout
  IO.eprint report.stderr
  match report.crash with
  | some crash => IO.eprintln crash.message
  | none => pure ()
  return report.exitCode.toUInt32
