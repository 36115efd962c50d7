import StatusList.Url.Host
import StatusList.Url.Path

/-!
# URLs

A *URL* names a thing: its *scheme* says how to reach it, its *authority* who
has it, its *path* which one it is; a *query* and a *fragment* may follow. All
parts are in ASCII, with what may not stand in them encoded.

* `Url.text`: the one text of a URL;
* `Url.appendSegment?`: a URL below another.
-/

namespace StatusList

/-- Who has the thing that a URL names. -/
structure Url.Authority where
  /-- The name of a user, if it is not empty. -/
  username : List Char
  /-- The password of the user, if it is not empty. -/
  password : List Char
  /-- Where the thing is. -/
  host : Url.Host
  /-- The port, where it is not the one of the scheme. -/
  port : Option Nat
  deriving DecidableEq, Repr, Inhabited

/-- The name of a thing. -/
structure Url where
  /-- How to reach the thing, in lower case. -/
  scheme : String
  /-- Who has it, if that is said. -/
  authority : Option Url.Authority
  /-- Which one it is. -/
  path : Url.Path
  /-- What is asked of it. -/
  query : Option (List Char)
  /-- Which part of it is meant. -/
  fragment : Option (List Char)
  deriving DecidableEq, Repr, Inhabited

namespace Url

/-- What a scheme says about the rest of a URL. -/
def Kind.ofScheme (scheme : String) : Kind :=
  if scheme = "file" then .file
  else if scheme ∈ ["http", "https", "ws", "wss", "ftp"] then .special
  else .other

/-- The port of a scheme. -/
def defaultPort? (scheme : String) : Option Nat :=
  if scheme = "http" ∨ scheme = "ws" then some 80
  else if scheme = "https" ∨ scheme = "wss" then some 443
  else if scheme = "ftp" then some 21
  else none

/-- The kind of a URL. -/
def kind (url : Url) : Kind := .ofScheme url.scheme

/-- Whether a URL names something to be asked for over HTTP. -/
def isHttp (url : Url) : Bool := url.scheme = "http" ∨ url.scheme = "https"

/-! ## The text -/

/-- The text of a user, with what ends it. -/
def Authority.userText (a : Authority) : String :=
  let password := if a.password = [] then "" else ":" ++ .ofList a.password
  if a.username = [] ∧ a.password = [] then "" else .ofList a.username ++ password ++ "@"

/-- The text of an authority. -/
def Authority.text (a : Authority) : String :=
  a.userText ++ a.host.text ++ (a.port.map fun port => ":" ++ toString port).getD ""

/-- The text between the scheme and the path. -/
def authorityText (url : Url) : String :=
  match url.authority, url.path with
  | some a, _ => "//" ++ a.text
  | none, .guarded _ => "/."
  | none, _ => ""

/-- What is asked for at a host: the path with the query. -/
def target (url : Url) : String :=
  .ofList url.path.text ++ (url.query.map fun query => "?" ++ .ofList query).getD ""

/-- The text of a URL. -/
def text (url : Url) : String :=
  url.scheme ++ ":" ++ url.authorityText ++ url.target
    ++ (url.fragment.map fun fragment => "#" ++ .ofList fragment).getD ""

/-! ## What is below a URL -/

/-- The URL with a text behind its path as one segment, if it has a root. -/
def appendSegment? (base : Url) (segment : String) : Option Url :=
  match base.path with
  | .rootless _ => none
  | .rooted segments =>
    some { base with path := .rooted (extend base.kind segments segment.toList) }
  | .guarded segments =>
    some { base with path := .guarded (extend base.kind segments segment.toList) }

end Url

end StatusList
