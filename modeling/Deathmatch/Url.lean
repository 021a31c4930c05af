import Deathmatch.Url.Host

/-!
# URLs

A URL is a scheme and what it applies to: an authority and a path of segments, or a plain text,
as after `mailto:`. Only a path of segments can be extended.
-/

namespace Deathmatch

namespace Url

/-- Who serves a URL. -/
structure Authority where
  user : String
  password : String
  host : Host
  /-- Absent if it is the usual one of the scheme. -/
  port : Option Nat
  deriving DecidableEq

inductive Path where
  /-- The segments, each of which follows a slash. -/
  | segments (names : List String)
  | plain (text : String)
  deriving DecidableEq

end Url

structure Url where
  scheme : String
  authority : Option Url.Authority
  path : Url.Path
  query : Option String
  fragment : Option String
  deriving DecidableEq

namespace Url

/-- The schemes of the web, which always have an authority. -/
def isWeb (scheme : String) : Bool :=
  ["http", "https", "ws", "wss", "ftp"].contains scheme

/-- The schemes whose paths have segments in any case. -/
def isSpecial (scheme : String) : Bool :=
  isWeb scheme || scheme = "file"

def usualPort? (scheme : String) : Option Nat :=
  match scheme with
  | "http" | "ws" => some 80
  | "https" | "wss" => some 443
  | "ftp" => some 21
  | _ => none

/-- Whether the URL has no path that could be extended. -/
def isPathless (u : Url) : Bool :=
  match u.path with
  | .segments _ => false
  | .plain _ => true

/-! ## Paths -/

/-- A segment that stands for its place (one dot) or the place above (two), also if the dots are
escaped. -/
def dots? (segment : String) : Option Nat :=
  let rec count : List Char → Option Nat
    | [] => some 0
    | '.' :: rest => (· + 1) <$> count rest
    | '%' :: '2' :: e :: rest => if e = 'e' || e = 'E' then (· + 1) <$> count rest else none
    | _ => none
  (count segment.toList).filter fun n => n = 1 ∨ n = 2

/-- A path with one segment more. A dot segment leads to its place; as the last segment it leaves
an empty one there. -/
def addSegment (path : List String) (segment : String) (isLast : Bool) : List String :=
  let ending := if isLast then [""] else []
  match dots? segment with
  | some 1 => path ++ ending
  | some _ => path.dropLast ++ ending
  | none => path ++ [segment]

/-- Line breaks and tabs are passed over in all parts of a URL. -/
def isSkipped (c : Char) : Bool :=
  c = '\t' || c = '\n' || c = '\r'

/-- A path with one segment more that shows `text`. A text of one or two dots adds nothing. An
empty segment that is alone is overwritten. -/
def addText (special : Bool) (path : List String) (text : String) : List String :=
  if text = "." ∨ text = ".." then path
  else
    let shown := escape (escapedInSegment special) (text.toList.filter fun c => !isSkipped c)
    addSegment (if path = [""] then [] else path) shown true

/-- The URL below `u` that further segments name. An empty segment at the end of the path of `u` is
overwritten. -/
def below (u : Url) (texts : List String) : Url :=
  match u.path with
  | .segments names =>
    let parent := if names.getLast? = some "" then names.dropLast else names
    { u with path := .segments (texts.foldl (addText (isSpecial u.scheme)) parent) }
  | .plain _ => u

/-! ## Writing -/

def Path.text : Path → String
  | segments names => String.join (names.map ("/" ++ ·))
  | plain text => text

def Authority.text (a : Authority) : String :=
  let password := if a.password = "" then "" else ":" ++ a.password
  let credentials := if a.user = "" ∧ a.password = "" then "" else a.user ++ password ++ "@"
  credentials ++ a.host.text ++ a.port.elim "" fun port => ":" ++ toString port

/-- What a request asks the host for: the path and the query. -/
def target (u : Url) : String :=
  u.path.text ++ u.query.elim "" ("?" ++ ·)

def text (u : Url) : String :=
  u.scheme ++ ":" ++ u.authority.elim "" (fun a => "//" ++ a.text) ++ u.target ++
    u.fragment.elim "" ("#" ++ ·)

end Url

end Deathmatch
