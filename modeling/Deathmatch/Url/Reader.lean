import Deathmatch.Url

/-!
# Reading URLs

A URL has to say its scheme. Control characters and blanks around it do not count. `read?` refuses
a web scheme without a host, and hosts and ports that are none.
-/

namespace Deathmatch.Url

/-! ## Cutting -/

/-- What stands before the first `mark`, and what stands after it, if it occurs. -/
def cutAt (mark : Char) (cs : List Char) : List Char × Option (List Char) :=
  match cs.span (· ≠ mark) with
  | (before, _ :: after) => (before, some after)
  | (before, []) => (before, none)

/-- What stands before the last `mark`, if it occurs, and what stands after it. -/
def cutAtLast (mark : Char) (cs : List Char) : Option (List Char) × List Char :=
  match cutAt mark cs.reverse with
  | (after, some before) => (some before.reverse, after.reverse)
  | (_, none) => (none, cs)

/-- The characters that count. -/
def cleaned (s : String) : List Char :=
  let isOuter (c : Char) : Bool := decide (c ≤ ' ')
  let inner := ((s.toList.dropWhile isOuter).reverse.dropWhile isOuter).reverse
  inner.filter fun c => !isSkipped c

def isSchemeChar (c : Char) : Bool :=
  c.isAlphanum || c = '+' || c = '-' || c = '.'

/-- The scheme, in small letters, and what follows its colon. -/
def scheme? (cs : List Char) : Option (String × List Char) :=
  match cutAt ':' cs with
  | (name, some rest) =>
    if name.all isSchemeChar && (name.head?.any Char.isAlpha) then
      some (String.ofList (name.map Char.toLower), rest)
    else none
  | (_, none) => none

/-- What ends an authority or a segment. -/
def isSlash (special : Bool) (c : Char) : Bool :=
  c = '/' || (special && c = '\\')

def endsAuthority (special : Bool) (c : Char) : Bool :=
  isSlash special c || c = '?' || c = '#'

/-! ## Authorities -/

/-- What stands before the first colon that is not between square brackets, and the rest. -/
def hostSpan (inside : Bool) : List Char → List Char × List Char
  | [] => ([], [])
  | c :: rest =>
    if c = ':' ∧ !inside then ([], c :: rest)
    else
      let inside := if c = '[' then true else if c = ']' then false else inside
      let (host, after) := hostSpan inside rest
      (c :: host, after)

/-- A port after its colon, and what a backslash behind it starts. -/
def port? (scheme : String) : List Char → Option (Option Nat × List Char)
  | ':' :: rest =>
    let (digits, after) := rest.span Char.isDigit
    let port := ofDigits 10 digits
    if 65535 < port ∨ after.head?.any (· ≠ '\\') then none
    else if digits.isEmpty ∨ usualPort? scheme = some port then some (none, after)
    else some (some port, after)
  | rest => some (none, rest)

/-- An authority, and what belongs to the path already. `isFollowed` says whether anything follows
it. -/
def authority? (scheme : String) (isFollowed : Bool) (cs : List Char) :
    Option (Authority × List Char) := do
  let (credentials, site) := cutAtLast '@' cs
  if credentials = some [] ∧ site = [] ∧ isFollowed then failure
  let (user, password) := cutAt ':' (credentials.getD [])
  let user := escape escapedInCredentials user
  let password := escape escapedInCredentials (password.getD [])
  let (name, rest) := hostSpan false site
  if name = [] then
    if isWeb scheme ∨ rest ≠ [] ∨ user ≠ "" ∨ password ≠ "" then failure
  let host ← if isWeb scheme then Host.ofText? name else Host.verbatim? name
  let (port, rest) ← port? scheme rest
  return (⟨user, password, host, port⟩, rest)

/-- A drive, which is no host. -/
def isDrive : List Char → Bool
  | [letter, mark] => letter.isAlpha && (mark = ':' || mark = '|')
  | _ => false

/-- The host of a file, if it is a remote one. -/
def fileHost? (cs : List Char) : Option (Option Host) :=
  if cs.isEmpty then some none
  else (Host.ofText? cs).map fun host => if host = .name "localhost" then none else some host

/-! ## Paths -/

/-- The segments of a path after its first slash. -/
def pathFrom (special : Bool) (cs : List Char) : List String :=
  let pieces := (cs.splitOnP (isSlash special)).map (escape escapedInPath)
  let last := pieces.getLastD ""
  addSegment (pieces.dropLast.foldl (fun path piece => addSegment path piece false) []) last true

/-- The segments of a path that starts with a slash or lacks it. -/
def hierarchy (special : Bool) (cs : List Char) : List String :=
  match cs with
  | c :: rest => pathFrom special (if isSlash special c then rest else c :: rest)
  | [] => if special then [""] else []

/-- A path without the empty segments it starts with. -/
def withoutLead (names : List String) : List String :=
  match names.dropWhile (· = "") with
  | [] => [""]
  | names => names

/-! ## Whole URLs -/

/-- A URL of the given scheme and authority from the text of the rest. -/
def assemble (scheme : String) (authority : Option Authority) (toPath : List Char → Path)
    (rest : List Char) : Url :=
  let (rest, fragment) := cutAt '#' rest
  let (rest, query) := cutAt '?' rest
  { scheme, authority
    path := toPath rest
    query := query.map (escape (escapedInQuery (isSpecial scheme)))
    fragment := fragment.map (escape escapedInFragment) }

/-- A URL with an authority, from what follows the two slashes. -/
def withAuthority? (scheme : String) (rest : List Char) : Option Url := do
  let special := isSpecial scheme
  let (site, rest) := rest.span fun c => !endsAuthority special c
  let (authority, lead) ← authority? scheme (!rest.isEmpty) site
  return assemble scheme (some authority) (fun cs => .segments (hierarchy special cs)) (lead ++ rest)

/-- A file, from what follows the colon. -/
def file? (rest : List Char) : Option Url :=
  let here : Authority := ⟨"", "", .name "", none⟩
  let toPath (cs : List Char) : Path := .segments (withoutLead (hierarchy true cs))
  match rest with
  | a :: b :: after =>
    if isSlash true a && isSlash true b then do
      let (site, rest) := after.span fun c => !endsAuthority true c
      if isDrive site then return assemble "file" (some here) toPath after
      let host ← fileHost? site
      let authority := host.elim here fun host => { here with host }
      return assemble "file" (some authority) toPath rest
    else some (assemble "file" (some here) toPath rest)
  | _ => some (assemble "file" (some here) toPath rest)

/-- The URL that a text spells. -/
def read? (s : String) : Option Url := do
  let (scheme, rest) ← scheme? (cleaned s)
  if isWeb scheme then withAuthority? scheme (rest.dropWhile (isSlash true))
  else if scheme = "file" then file? rest
  else
    match rest with
    | '/' :: '/' :: rest => withAuthority? scheme rest
    | '/' :: _ => return assemble scheme none (fun cs => .segments (hierarchy false cs)) rest
    | _ => return assemble scheme none (fun cs => .plain (escape isControl cs)) rest

end Deathmatch.Url
