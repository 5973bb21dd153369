import MetricScope.Rendering

/-!
# The program

Renders the catalog that the configuration asks for into files. The environment may
name the configuration and the output folder.
-/

set_option autoImplicit false

namespace MetricScope.Program

open Rendering

def readContent (path : String) : IO FileContent := do
  try
    return .bytes (← IO.FS.readBinFile path)
  catch e =>
    match e with
    | .noFileOrDirectory .. => return .missing
    | _ => return .directory

def attempt (step : IO Unit) : IO (Except String Unit) := do
  try
    step
    return .ok ()
  catch e => return .error (toString e)

def machine : Host IO where
  read := readContent
  makeFolder path := attempt (IO.FS.createDirAll path)
  writeFile path content := attempt (IO.FS.writeFile path content)

/-- Renders, reports a failure and answers the exit code. A crash is not reported here. -/
def run : IO UInt32 := do
  let configPath := (← IO.getEnv "PROMDASH_CONFIG").getD defaultConfigPath
  let folder := (← IO.getEnv "PROMDASH_OUT_DIR").getD defaultOutputFolder
  let halt ← render machine configPath folder
  if let some (.failed failure) := halt then
    failure.report.forM fun line => IO.eprintln line
  return (exitCode halt).toUInt32

end MetricScope.Program

def main : IO UInt32 := MetricScope.Program.run
