import Deathmatch.Settings.File
import Deathmatch.Settings.Options

/-!
# The command line

Reads a settings document from standard input, applies the options, and writes the settings that a
server would run with, or why it would not run.
-/

namespace Deathmatch

/-- The document of the settings that result from a document and a command line. -/
def effectiveSettings (arguments : List String) (document : String) : Except String String := do
  let options ← (Settings.Options.none.read arguments).mapError (·.message)
  let explain (fault : SettingsFault) : String := (Fault.settings fault).message
  let settings ← (Settings.ofToml document).mapError explain
  let settings := settings.apply options
  settings.validate.mapError explain
  settings.toToml.mapError explain

/-- Everything that a stream still holds. -/
partial def readRest (stream : IO.FS.Stream) (found : String) : IO String := do
  let line ← stream.getLine
  if line.isEmpty then return found else readRest stream (found ++ line)

end Deathmatch

def main (arguments : List String) : IO UInt32 := do
  let document ← Deathmatch.readRest (← IO.getStdin) ""
  match Deathmatch.effectiveSettings arguments document with
  | .ok written =>
    IO.print written
    return 0
  | .error message =>
    IO.eprintln message
    return 1
