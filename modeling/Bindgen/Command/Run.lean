import Bindgen.Command.Arguments
import Bindgen.Command.Disk
import Bindgen.Settings.Load
import Bindgen.Generate
import Bindgen.Text.Plain

/-! # Runs of the command

A run takes pairs of paths, reads the first of each pair and writes bindings
to the second, one pair after the other. It ends at the first pair that fails;
what was written before stays.
-/

namespace Bindgen

open Syntax

inductive RunError where
  | disk (cause : DiskError)
  | failure (cause : Failure)
deriving DecidableEq

inductive Verbosity where
  | warnings
  | progress
  | details
deriving DecidableEq

def Verbosity.shows : Verbosity -> Event.Level -> Bool
  | .details, _ => true
  | .progress, level => level != .debug
  | .warnings, level => level == .warning

/-- What ends a run without a message of its own. -/
inductive Crash where
  /-- A path with a null character in it. -/
  | badPath
  | settings (cause : SettingsError)
  | failure (cause : Failure)
deriving DecidableEq

/-- The wording of a crash. -/
def Crash.message : Crash -> String
  | .badPath => "embedded null byte"
  | .settings cause => cause.message
  | .failure cause => cause.message

structure Report where
  exitCode : Nat
  stdout : String
  stderr : String
  log : List Event
  verbosity : Verbosity
  crash : Option Crash
  disk : Disk

/-- The name in the header of a generated file: the one that is set, unless it
is empty, else the stem of the output. -/
def Settings.rootFor (settings : Settings) (output : Path) : String :=
  match settings.rootName with
  | none => output.stem
  | some name => if name.isEmpty then output.stem else name

def generateFrom (settings : Settings) (parse : List UInt8 -> Node) (disk : Disk)
    (input output : Path) : Traced Event RunError (List String) := do
  .note (.started input.text (settings.rootFor output))
  match disk.read input with
  | .error e => .fail (.disk e)
  | .ok source =>
    (generate settings input.text (settings.rootFor output) (parse source)).mapError .failure

/-- The content of a file of lines, each with a line feed behind it. -/
def linesContent (lines : List String) : List UInt8 :=
  (lines.flatMap fun line => (line ++ "\n").toUTF8.toList)

def writeLines (disk : Disk) (output : Path) (lines : List String) :
    Disk × Except DiskError Unit :=
  match disk.ensureDirectories output.parent with
  | (disk, .error e) => (disk, .error e)
  | (disk, .ok ()) =>
    match disk.write output (linesContent lines) with
    | .ok disk => (disk, .ok ())
    | .error e => (disk, .error e)

def convertFile (settings : Settings) (parse : List UInt8 -> Node) (disk : Disk)
    (input output : Path) : Disk × Traced Event RunError Unit :=
  match generateFrom settings parse disk input output with
  | ⟨events, .error e⟩ => (disk, ⟨events, .error e⟩)
  | ⟨events, .ok lines⟩ =>
    match writeLines disk output lines with
    | (disk, .error e) => (disk, ⟨events, .error (.disk e)⟩)
    | (disk, .ok ()) => (disk, ⟨events ++ [.wrote output.text lines.length], .ok ()⟩)

structure Progress where
  disk : Disk
  log : List Event
  stdout : String
  failed : Option RunError

/-- Convert files one after the other up to the first that fails. -/
def convertFiles (settings : Settings) (parse : List UInt8 -> Node) (before : Progress) :
    List (Path × Path) -> Progress
  | [] => before
  | (input, output) :: rest =>
    match convertFile settings parse before.disk input output with
    | (disk, ⟨events, .error e⟩) =>
      { before with disk, log := before.log ++ events, failed := some e }
    | (disk, ⟨events, .ok ()⟩) =>
      let stdout := before.stdout ++ Text.plain ("Wrote " ++ output.text ++ "\n")
      convertFiles settings parse
        { before with disk, log := before.log ++ events, stdout } rest

/-- The paths in pairs; nothing if one is left over. -/
def pairs? : List String -> Option (List (Path × Path))
  | [] => some []
  | [_] => none
  | input :: output :: rest =>
    (pairs? rest).map ((Path.ofText input, Path.ofText output) :: ·)

inductive PathFault where
  | null
  | directory (path : String)
deriving DecidableEq

/-- What is wrong with the text of a path: a null character in it, or a directory
at its end. -/
def pathFault? (disk : Disk) (path : String) : Option PathFault :=
  if path.toList.contains '\x00' then some .null
  -- A text that cannot be looked up counts as right here.
  else if path.isEmpty || Disk.maxPath < path.utf8ByteSize then none
  else if disk.isDirectory (Path.ofText path) then some (.directory path)
  else none

/-- The settings that the arguments give. An empty name counts as none. -/
def Arguments.overrides (a : Arguments) : List (String × Json) :=
  (a.debug.map fun b => ("debug", Json.bool b)).toList ++
    ((a.rootName.filter fun name => !name.isEmpty).map fun name =>
      ("namespace", Json.string name)).toList ++
    (a.convertImports.map fun b => ("convert_ambient_imports", Json.bool b)).toList

def usageText : String :=
  "Usage: dts2fable [OPTIONS] [PATHS]...\n"

def hintText : String :=
  "Try \x27dts2fable --help\x27 for help.\n\n"

def helpText : String :=
  usageText ++
  "\n  Translate TypeScript definition files into F# Fable bindings.\n\n" ++
  "  PATHS come in pairs: the .d.ts file to read, then the .fs file to write.\n\n" ++
  "Options:\n" ++
  "  --namespace TEXT                Root namespace of the generated module\n" ++
  "                                  (default: output file name).\n" ++
  "  --convert-imports / --no-convert-imports\n" ++
  "                                  Turn \x60declare\x60 variables into Import bindings.\n" ++
  "  --debug / --no-debug            Enable debug logging (default:\n" ++
  "                                  DTS2FABLE_DEBUG).\n" ++
  "  -h, --help                      Show this message and exit.\n"

namespace Report

def ofUsage (disk : Disk) (verbosity : Verbosity) (e : UsageError) : Report where
  exitCode := 2
  stdout := ""
  stderr := (if e.showsUsage then usageText ++ hintText else "") ++
    Text.plain ("Error: " ++ e.message ++ "\n")
  log := []
  verbosity := verbosity
  crash := none
  disk := disk

def ofCrash (disk : Disk) (crash : Crash) : Report where
  exitCode := 1
  stdout := ""
  stderr := ""
  log := []
  verbosity := .warnings
  crash := some crash
  disk := disk

def ofHelp (disk : Disk) : Report where
  exitCode := 0
  stdout := helpText
  stderr := ""
  log := []
  verbosity := .warnings
  crash := none
  disk := disk

def failureText? : RunError -> Option String
  | .disk e => some e.message
  | .failure e => e.diagnostic?.map Diagnostic.text

def crash? : RunError -> Option Crash
  | .disk _ => none
  | .failure e => if e.diagnostic?.isNone then some (.failure e) else none

/-- A run that has come to its end or to a pair that fails. -/
def ofProgress (verbosity : Verbosity) (p : Progress) : Report where
  exitCode := if p.failed.isSome then 1 else 0
  stdout := p.stdout
  stderr := ((p.failed.bind failureText?).map fun text =>
    Text.plain ("Error: " ++ text ++ "\n")).getD ""
  log := p.log
  verbosity := verbosity
  crash := p.failed.bind crash?
  disk := p.disk

end Report

def Settings.verbosity (settings : Settings) : Verbosity :=
  if settings.debug then .details else .progress

def runPaths (settings : Settings) (parse : List UInt8 -> Node) (disk : Disk)
    (paths : List String) : Report :=
  match paths, pairs? paths with
  | [], _ => .ofUsage disk settings.verbosity .noInput
  | _, none => .ofUsage disk settings.verbosity .noOutput
  | _, some pairs =>
    .ofProgress settings.verbosity (convertFiles settings parse ⟨disk, [], "", none⟩ pairs)

/-- Run the command. The arguments are read and checked first, then the settings
are loaded, and then the files are converted. -/
def run (parse : List UInt8 -> Node) (environment : List (String × String)) (disk : Disk)
    (arguments : List String) : Report :=
  match Arguments.read arguments with
  | .error e => .ofUsage disk .warnings e
  | .ok a =>
    if a.help then .ofHelp disk
    else
      match a.paths.findSome? (pathFault? disk) with
      | some .null => .ofCrash disk .badPath
      | some (.directory path) => .ofUsage disk .warnings (.directory path)
      | none =>
        match Settings.load Settings.defaultLead a.overrides environment none with
        | .error e => .ofCrash disk (.settings e)
        | .ok settings => runPaths settings parse disk a.paths

end Bindgen
