import QuorumWarden.Settings.Config

/-! The command line: it reads the settings of a node from the arguments and the
environment, and shows the duties that they make. -/

namespace QuorumWarden

/-- The variables of the environment that stand for flags. -/
def readEnvironment : IO (List (String × String)) := do
  let found ← Flag.all.mapM fun flag => do
    return (← IO.getEnv flag.variableName).map fun value => (flag.variableName, value)
  return found.filterMap id

/-- The duties of a node, one a line. -/
def Config.report (config : Config) : String :=
  "\n".intercalate ((Duty.all config.orders 0).map fun duty => config.hostname ++ ": " ++ duty.name)

def ArgumentError.exitCode : ArgumentError → UInt32
  | .displayHelp | .displayVersion => 0
  | _ => 2

end QuorumWarden

open QuorumWarden in
def main (arguments : List String) : IO UInt32 := do
  match Values.read arguments (← readEnvironment) with
  | .error error =>
    IO.eprintln error.name
    return error.exitCode
  | .ok values =>
    match Config.make values with
    | .error failure =>
      IO.eprintln ("Error: " ++ failure.full)
      return 1
    | .ok config =>
      IO.println config.report
      return 0
