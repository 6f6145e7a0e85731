import InfoFlow.CommandLine

/-!
# The program

Reads the files that the command line and the environment name, runs the
command, prints its output, and exits with its status.
-/

namespace InfoFlow

/-- The environment variable that names a configuration file. -/
def configVariable : String := "FLOWMON_CONFIG"

/-- The content of a file, if it can be read. -/
def readContent (path : String) : IO (String × Option String) := do
  try
    return (path, some (← IO.FS.readFile path))
  catch _ =>
    return (path, none)

/-- The paths of the files that a command may need. -/
def neededPaths (arguments : List String) (environment : Option String) : List String :=
  match Request.ofArguments? arguments with
  | some request => request.config?.toList ++ request.trace?.toList ++ environment.toList
  | none => []

end InfoFlow

open InfoFlow in
def main (arguments : List String) : IO UInt32 := do
  let environment ← IO.getEnv configVariable
  let contents ← (neededPaths arguments environment).mapM readContent
  let ending := runCommandLine (fun path => (contents.lookup path).join) environment arguments
  (← IO.getStdout).putStr ending.output
  if let some fault := ending.fault then
    let stderr ← IO.getStderr
    stderr.putStrLn s!"Error: {fault.message}"
    for cause in fault.messages.drop 1 do
      stderr.putStrLn s!"Caused by: {cause}"
  return ending.status.toUInt32
