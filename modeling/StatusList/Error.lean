import StatusList.Cbor.Reader
import StatusList.Flate.Bits
import StatusList.Json.Fault

/-!
# Errors

An *error* is the cause why a status list, or something made from one, could not
be had. Its wording is `Error.message`, and nowhere else.
-/

namespace StatusList

/-- The most bytes that a compressed list may have once it is inflated. -/
def largestPacked : Nat := 64 * 1024 * 1024

/-- The parts of a compact token. -/
inductive Segment where
  | header
  | payload
  | signature
  deriving DecidableEq, Repr, Inhabited

/-- Why a body is not a token that carries a status list. -/
inductive Malformed where
  /-- The body is not UTF-8. -/
  | notText (fault : Utf8.Fault)
  /-- The body begins like a document and is not one. -/
  | document (fault : Json.Fault)
  /-- The number of parts between dots is not three. -/
  | segmentCount (count : Nat)
  /-- A part is not base64url. -/
  | encoding (segment : Segment)
  /-- A part is base64url, but not of the JSON that belongs there. -/
  | content (segment : Segment) (fault : Json.Fault)
  /-- The list has more entries than 32 bits count. -/
  | tooManyEntries (entries : Nat)
  deriving Repr, Inhabited

/-- Why a byte string is not a binary claim. -/
inductive BadClaim where
  /-- It does not begin with a CBOR item. -/
  | unreadable (fault : Cbor.Fault)
  /-- The item is no map. -/
  | notAMap
  /-- The width is an integer beyond eight bits. -/
  | widthOutOfRange
  /-- The value of a known key has the wrong type. -/
  | wrongType (key : String)
  /-- A key is missing. -/
  | missing (key : String)
  deriving DecidableEq, Repr, Inhabited

/-- Why a status list could not be had. -/
inductive Error where
  /-- There is no entry of that index. -/
  | outOfRange (index size : Nat)
  /-- The value does not fit into an entry. -/
  | valueTooLarge (value max : UInt8)
  /-- The number of bits is no width. -/
  | invalidWidth (bits : Nat)
  /-- The number of entries is zero or does not fill whole bytes. -/
  | invalidSize (entries perByte : Nat)
  /-- The text is not base64url. -/
  | notBase64
  /-- The stream cannot be inflated. -/
  | notInflated (fault : Flate.Fault)
  /-- The body is not a token. -/
  | malformedToken (cause : Malformed)
  /-- The byte string is not a binary claim. -/
  | badClaim (cause : BadClaim)
  /-- The signature of a token was refused. -/
  | signatureRejected (why : String)
  deriving Repr, Inhabited

/-! ## Words -/

/-- The words for a part of a token. -/
def Segment.message : Segment → String
  | header => "header"
  | payload => "payload"
  | signature => "signature"

/-- The words for a text that is not base64url. -/
def notBase64Message : String := "invalid base64url encoding: invalid Base64 encoding"

/-- The words for a stream that cannot be inflated. -/
def inflateMessage : Flate.Fault → String
  | .corrupt => "corrupt deflate stream"
  | .truncated => "incomplete deflate stream"
  | .full => s!"inflated list exceeds {largestPacked} bytes"

/-- The words for a body that is not a token. -/
def Malformed.message : Malformed → String
  | notText fault => s!"body is not utf-8: {fault.message}"
  | document fault => s!"document: {fault.message}"
  | segmentCount count => s!"expected 3 segments, found {count}"
  | encoding segment => s!"{segment.message} segment: {notBase64Message}"
  | content segment fault => s!"{segment.message}: {fault.message}"
  | tooManyEntries entries => s!"status list of {entries} entries is too large"

/-- The words for a byte string that is not a binary claim. -/
def BadClaim.message : BadClaim → String
  | unreadable fault => fault.message
  | notAMap => "status list claim is not a map"
  | widthOutOfRange => "bits out of range"
  | wrongType key => s!"{key} has the wrong type"
  | missing key => s!"missing {key}"

/-- The words for an error. -/
def Error.message : Error → String
  | outOfRange index size =>
    s!"index {index} is out of range for a status list of {size} entries"
  | valueTooLarge value max =>
    s!"value {value} exceeds the maximum status value {max} for this list"
  | invalidWidth bits => Json.invalidWidthMessage bits
  | invalidSize entries perByte =>
    s!"status list size {entries} must be greater than 0 and a multiple of {perByte}"
  | notBase64 => notBase64Message
  | notInflated fault => s!"failed to inflate status list: {inflateMessage fault}"
  | malformedToken cause => s!"malformed status list token: {cause.message}"
  | badClaim cause => s!"cbor error: {cause.message}"
  | signatureRejected why => s!"token signature rejected: {why}"

end StatusList
