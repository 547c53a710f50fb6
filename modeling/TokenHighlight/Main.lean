import TokenHighlight.CommandLine.Run

/-!
# The program

Reads the files that a command line names, and prints what the run comes to.
-/

namespace TokenHighlight

/-- The text in a file, if it can be read as text. -/
def readFileText? (path : String) : IO (Option String) := do
  try
    return String.fromUTF8? (← IO.FS.readBinFile path)
  catch _ =>
    return none

/-- The file with the user's configuration. -/
def userConfigFile : IO String := do
  let directory ←
    match ← IO.getEnv "XDG_CONFIG_HOME" with
    | some dir => if dir.startsWith "/" then pure dir else homeDirectory
    | none => homeDirectory
  return Config.userFile directory
where
  homeDirectory : IO String := do
    return (← IO.getEnv "HOME").getD "" ++ "/.config"

end TokenHighlight

open TokenHighlight in
/-- Carries out what the arguments ask for. -/
def main (args : List String) : IO UInt32 := do
  let request := Arguments.parse? args
  let (configText, treeText) ←
    match request with
    | some (.highlight o) => do
      let config ← readFileText? (o.configFile (← userConfigFile))
      let tree ← readFileText? o.tree
      pure (config, tree)
    | _ => pure (none, none)
  let r := report request configText treeText
  IO.print r.output
  match r.error with
  | some line => IO.eprintln line
  | none => pure ()
  if request.isNone then IO.eprintln "error: the arguments make no sense"
  return UInt32.ofNat r.exitCode
