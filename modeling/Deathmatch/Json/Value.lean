/-!
# JSON values

What the account service and the master server exchange. The value of a number plays no part and
is not kept.
-/

namespace Deathmatch.Json

inductive Value where
  | null
  | boolean (b : Bool)
  | number
  | text (s : String)
  | array (items : List Value)
  /-- The members in the order they are written, repeated ones included. -/
  | object (members : List (String × Value))

/-- The values of the fields of a record, in the order of `names`. A record is an object, whose
further members do not matter but which may name each field only once, or an array that lists the
fields; fields may be missing. -/
def Value.record? (names : List String) : Value → Option (List (Option Value))
  | object members =>
    names.mapM fun name =>
      match members.filter fun member => member.1 = name with
      | [] => some none
      | [(_, v)] => some (some v)
      | _ => none
  | array items =>
    if items.length ≤ names.length then
      some (items.map some ++ List.replicate (names.length - items.length) none)
    else none
  | _ => none

def Value.asBool? : Value → Option Bool
  | boolean b => some b
  | _ => none

def Value.asText? : Value → Option String
  | text s => some s
  | _ => none

end Deathmatch.Json
