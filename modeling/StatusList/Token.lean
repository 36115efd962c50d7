import StatusList.Document
import StatusList.Text.Utf8

/-!
# Tokens

A status list is published as the *body* of an answer. A body is either the
claims themselves, as a JSON object, or a compact token: header, claims and
signature, each in base64url, with dots between them. White space around a body
does not matter.

A *verifier* decides on the signature of a compact token. It is asked at most
once, after everything else about the body has been found in order, and what it
is shown is a *check*.

* `Body.read`: the body of a byte string;
* `Token.read`: the token of a byte string, and the checks that were made.
-/

namespace StatusList

/-! ## Bodies -/

/-- What a verifier is shown. -/
structure Check where
  /-- The header. -/
  header : Header
  /-- Header and claims as they were sent, with the dot between them. -/
  signingInput : ByteArray
  /-- The signature. -/
  signature : ByteArray
  deriving DecidableEq

/-- What a byte string holds before its signature is looked at. -/
inductive Body where
  /-- Nothing but claims. -/
  | plain (claims : Claims)
  /-- A compact token. -/
  | compact (check : Check) (claims : Claims)

namespace Body

/-- The parts of a text between its dots; `current` is the part at the beginning
    of the text and `done` are the parts before it, all with the latest first. -/
def splitDots (done : List (List Char)) (current : List Char) : List Char → List (List Char)
  | [] => (current.reverse :: done).reverse
  | c :: text =>
    if c = '.' then splitDots (current.reverse :: done) [] text
    else splitDots done (c :: current) text

/-- The bytes of a part. -/
def decodeSegment (segment : Segment) (text : String) : Except Malformed ByteArray :=
  (decodeBase64 text).mapError fun _ => .encoding segment

/-- What the JSON of a part says. -/
def readSegment {α : Type} (segment : Segment) (reader : Json.Reader α) (text : String) :
    Except Malformed α := do
  let bytes ← decodeSegment segment text
  (Json.parse reader bytes.data.toList).mapError (.content segment)

/-- The body of a compact token. -/
def readCompact (text : List Char) : Except Malformed Body :=
  match splitDots [] [] text with
  | [header, payload, signature] => do
    let header : String := .ofList header
    let payload : String := .ofList payload
    let head ← readSegment .header Header.record.read header
    let claims ← readSegment .payload Claims.record.read payload
    let signature ← decodeSegment .signature (.ofList signature)
    return .compact ⟨head, (header ++ "." ++ payload).toUTF8, signature⟩ claims
  | parts => .error (.segmentCount parts.length)

/-- The body of a text without blanks around it. -/
def readTrimmed (text : List Char) : Except Malformed Body :=
  if text.head? = some '\x7b' then
    match Json.parse Claims.record.read (String.ofList text).toUTF8.data.toList with
    | .ok claims => .ok (.plain claims)
    | .error fault => .error (.document fault)
  else
    readCompact text

/-- The body of a byte string. -/
def read (bytes : ByteArray) : Except Malformed Body := do
  let text ← (Utf8.decode bytes).mapError .notText
  readTrimmed (Text.trimChars text.toList)

end Body

/-! ## Tokens -/

/-- A token whose signature, if it has one, has been accepted. -/
structure Token where
  /-- The header, if the token is a compact one. -/
  header : Option Header
  /-- The claims. -/
  claims : Claims
  deriving DecidableEq

/-- A decision on the signature of a compact token. -/
abbrev Verifier := Check → Except Error Unit

namespace Token

/-- The token of a body, and the checks that were made. -/
def ofBody (verifier : Option Verifier) : Body → Except Error Token × List Check
  | .plain claims => (.ok ⟨none, claims⟩, [])
  | .compact check claims =>
    match verifier with
    | none => (.ok ⟨some check.header, claims⟩, [])
    | some verify => ((verify check).map fun _ => ⟨some check.header, claims⟩, [check])

/-- The token of a byte string, and the checks that were made. -/
def readLogged (verifier : Option Verifier) (bytes : ByteArray) :
    Except Error Token × List Check :=
  match Body.read bytes with
  | .ok body => ofBody verifier body
  | .error cause => (.error (.malformedToken cause), [])

/-- The token of a byte string. -/
def read (verifier : Option Verifier) (bytes : ByteArray) : Except Error Token :=
  (readLogged verifier bytes).1

/-- The document that a token carries. -/
def toDocument (t : Token) : Except Error Document := do
  let claim := t.claims.statusList
  Document.ofPacked claim.width (← decodePacked claim.lst) claim.aggregationUri

end Token

/-- The document of a published body. -/
def Document.read (verifier : Option Verifier) (bytes : ByteArray) : Except Error Document := do
  (← Token.read verifier bytes).toDocument

end StatusList
