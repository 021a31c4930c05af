import Deathmatch.Settings
import Deathmatch.Toml.Document
import Deathmatch.Toml.Written

/-!
# The settings file

Settings are kept in a TOML document, one key for each. Keys that are missing keep their defaults,
keys that mean nothing are passed over, and a value of the wrong kind or out of range is refused.
A server whose file is missing writes the defaults, for the operator to change.
-/

namespace Deathmatch.Settings

open Toml

/-! ## Reading -/

/-- The value of a key, or the default if the key is missing. `read` refuses a wrong value. -/
def entry {α : Type} (document : Entries) (key : String) (read : Value → Option α) (default : α) :
    Option α :=
  match document.lookup key with
  | none => some default
  | some v => read v

def asText : Value → Option String
  | .text s => some s
  | _ => none

def asBool : Value → Option Bool
  | .boolean b => some b
  | _ => none

/-- A natural number below `limit`. -/
def asNat (limit : Nat) : Value → Option Nat
  | .integer n => if 0 ≤ n ∧ n < limit then some n.toNat else none
  | _ => none

def asTexts : Value → Option (List String)
  | .array items => items.mapM asText
  | _ => none

def ofEntries (d : Entries) : Option Settings := do
  let words : Nat := 18446744073709551616
  return {
    name := ← entry d "name" asText default.name
    host := ← entry d "host" asText default.host
    port := UInt16.ofNat (← entry d "port" (asNat 65536) default.port.toNat)
    maxPlayers := ← entry d "max_players" (asNat words) default.maxPlayers
    maps := ← entry d "maps" asTexts default.maps
    verbose := ← entry d "verbose" asBool default.verbose
    tickMillis := ← entry d "tick_interval_ms" (asNat words) default.tickMillis
    insecure := ← entry d "insecure" asBool default.insecure
    autoInsecure := ← entry d "auto_insecure" asBool default.autoInsecure
    registerServer := ← entry d "register_server" asBool default.registerServer
    operators := ← entry d "operators" asTexts default.operators
    apiServer := ← entry d "api_server" asText default.apiServer
    masterServer := ← entry d "master_server" asText default.masterServer
    channelSize := ← entry d "channel_size" (asNat words) default.channelSize }

/-- The settings in a document, if they can be used. -/
def ofToml (contents : String) : Except SettingsFault Settings :=
  match (Toml.read? contents).bind ofEntries with
  | none => .error .invalidFile
  | some settings => settings.validate.map fun _ => settings

/-! ## Writing -/

/-- The largest number of a document, that of 63 bits. -/
def maxNumber : Nat := 9223372036854775807

/-- Settings as a document. It cannot hold a number above `maxNumber`. -/
def toToml (s : Settings) : Except SettingsFault String :=
  if maxNumber < s.maxPlayers ∨ maxNumber < s.tickMillis ∨ maxNumber < s.channelSize then
    .error .unwritable
  else .ok <| String.join [
    writtenLine "name" (writtenText s.name),
    writtenLine "host" (writtenText s.host),
    writtenLine "port" (toString s.port.toNat),
    writtenLine "max_players" (toString s.maxPlayers),
    writtenLine "maps" (writtenTexts s.maps),
    writtenLine "verbose" (writtenBool s.verbose),
    writtenLine "tick_interval_ms" (toString s.tickMillis),
    writtenLine "insecure" (writtenBool s.insecure),
    writtenLine "auto_insecure" (writtenBool s.autoInsecure),
    writtenLine "register_server" (writtenBool s.registerServer),
    writtenLine "operators" (writtenTexts s.operators),
    writtenLine "api_server" (writtenText s.apiServer),
    writtenLine "master_server" (writtenText s.masterServer),
    writtenLine "channel_size" (toString s.channelSize)]

/-! ## The file -/

/-- What stands at the path of the settings. -/
inductive File where
  | present (contents : Bytes)
  | absent
  /-- Not even the directory is there. -/
  | noDirectory
  deriving DecidableEq

/-- Loads the settings, after writing the defaults if there is no file. -/
def loadOrCreate : File → Except Fault Settings × File
  | .present contents =>
    match Text.ofBytes? contents with
    | none => (.error (.stream .invalidData), .present contents)
    | some text => ((ofToml text).mapError .settings, .present contents)
  | .absent =>
    match default.toToml with
    | .ok text => (.ok default, .present (Text.bytes text))
    | .error fault => (.error (.settings fault), .absent)
  | .noDirectory => (.error (.stream .notFound), .noDirectory)

end Deathmatch.Settings
