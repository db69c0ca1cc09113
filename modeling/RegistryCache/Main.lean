import RegistryCache.CommandLine.Usage
import RegistryCache.Program.Run

/-! # The program

Reads the environment and the password file, runs the command line, and prints what the run reports.
The network is not reached from here: every request finds nobody to connect to.
-/

namespace RegistryCache.Main

/-- The reason why a file could not be read. -/
def faultOf : IO.Error → FileFault
  | .noFileOrDirectory .. => .missing
  | .inappropriateType .. => .isDirectory
  | e => .other (toString e)

def readFile (path : String) : IO (Except FileFault (List UInt8)) := do
  try
    let bytes ← IO.FS.readBinFile path
    return .ok bytes.toList
  catch e => return .error (faultOf e)

/-- The variables that are set, with their texts. -/
def readEnvironment : IO AppConfig.Environment := do
  let found ← AppConfig.variableNames.filterMapM fun name => do
    return (← IO.getEnv name).map fun text => (name, text)
  return fun name => found.lookup name

def readFiles (config : AppConfig) : IO Files := do
  match config.registry.passwordPath? with
  | none => return fun _ => .error .missing
  | some path =>
    let content ← readFile path
    return fun _ => content

/-- Prints lines, each on its stream. -/
def printLines (lines : List Line) : IO Unit :=
  lines.forM fun line => match line.stream with
    | .out => IO.println line.text
    | .err => IO.eprintln line.text

def runLine (line : List String) : IO UInt32 := do
  match Arguments.parse line with
  | .error refusal =>
    if refusal.isInformation then IO.print refusal.text else IO.eprint refusal.text
    return UInt32.ofNat refusal.exitCode
  | .ok arguments =>
    let environment ← readEnvironment
    let files ← readFiles (arguments.config environment)
    let report := arguments.run environment files .offline
    printLines report.printed
    return UInt32.ofNat report.exitCode

end RegistryCache.Main

def main (args : List String) : IO UInt32 := RegistryCache.Main.runLine args
