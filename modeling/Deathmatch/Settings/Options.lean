import Deathmatch.Settings

/-!
# Options

What a command line says about the settings. An option names one of them and comes before those of
the file; a switch only turns something on.
-/

namespace Deathmatch.Settings

/-- Why a command line is refused. -/
inductive OptionFault where
  | unknown (argument : String)
  | missingValue (option : String)
  | invalidValue (option value : String)
  deriving DecidableEq

def OptionFault.message : OptionFault → String
  | unknown argument => "unexpected argument " ++ argument
  | missingValue option => "a value is required for " ++ option
  | invalidValue option value => "invalid value " ++ value ++ " for " ++ option

/-- The settings that a command line names. -/
structure Options where
  host : Option String
  port : Option UInt16
  tickMillis : Option Nat
  verbose : Bool
  deriving DecidableEq

namespace Options

def none : Options :=
  ⟨.none, .none, .none, false⟩

/-- A natural number below `limit`, in decimal digits. -/
def natural? (limit : Nat) (value : String) : Option Nat :=
  if value.toList.all Char.isDigit then value.toNat?.filter (· < limit) else .none

/-- The options with one more, which has a value. -/
def withValue (o : Options) (option value : String) : Except OptionFault Options :=
  let number (limit : Nat) (set : Nat → Options) : Except OptionFault Options :=
    match natural? limit value with
    | some n => .ok (set n)
    | .none => .error (.invalidValue option value)
  match option with
  | "-H" | "--host" => .ok { o with host := some value }
  | "-p" | "--port" => number 65536 fun n => { o with port := some (UInt16.ofNat n) }
  | "-t" | "--tick-interval-ms" => number 18446744073709551616 fun n => { o with tickMillis := some n }
  | _ => .error (.unknown option)

/-- Whether an argument is an option that takes a value. -/
def takesValue (argument : String) : Bool :=
  ["-H", "--host", "-p", "--port", "-t", "--tick-interval-ms"].contains argument

/-- The options of a command line, added to `o`. -/
def read (o : Options) : List String → Except OptionFault Options
  | [] => .ok o
  | argument :: rest =>
    if argument = "-v" ∨ argument = "--verbose" then read { o with verbose := true } rest
    else if takesValue argument then
      match rest with
      | [] => .error (.missingValue argument)
      | value :: rest =>
        match o.withValue argument value with
        | .ok o' => read o' rest
        | .error fault => .error fault
    else .error (.unknown argument)

end Options

/-- The settings after the options of a command line. -/
def apply (s : Settings) (o : Options) : Settings :=
  { s with
    host := o.host.getD s.host
    port := o.port.getD s.port
    tickMillis := o.tickMillis.getD s.tickMillis
    verbose := s.verbose || o.verbose }

end Deathmatch.Settings
