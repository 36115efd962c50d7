import StatusList.Error
import StatusList.Flate.Zlib
import StatusList.Text.Base64Url
import StatusList.Text.Blank

/-!
# Encoded lists

The bytes of a status list travel *compressed*, as a zlib stream, and in texts
that stream travels *encoded*, as base64url. White space inside an encoded
list is ignored.
-/

namespace StatusList

/-- The bytes that a compressed list stands for. -/
def inflate (stream : ByteArray) : Except Error ByteArray :=
  (Flate.unpack largestPacked stream).mapError .notInflated

/-- The compressed form of bytes. -/
def deflate (raw : ByteArray) : ByteArray := Flate.pack raw

/-- The bytes that a text spells in base64url, whatever ASCII white space stands
    between the characters. -/
def decodeBase64 (text : String) : Except Error ByteArray :=
  match Base64Url.decode? (text.toList.filter fun c => !Text.isAsciiBlank c) with
  | some bytes => .ok bytes.toByteArray
  | none => .error .notBase64

/-- The spelling of bytes in base64url. -/
def encodeBase64 (bytes : ByteArray) : String := .ofList (Base64Url.encode bytes.data.toList)

/-- The bytes of an encoded list. -/
def decodePacked (encoded : String) : Except Error ByteArray := do
  inflate (← decodeBase64 encoded)

/-- The encoded form of the bytes of a list. -/
def encodePacked (raw : ByteArray) : String := encodeBase64 (deflate raw)

end StatusList
