import StatusList.Json.Value
import StatusList.Packed
import StatusList.Time.Civil

/-!
# Claims

The *claims* of a status list token say who issued it, for whom, when and how
long it holds, and carry the *list claim*: the width of the entries and the
encoded list. The *header* of a compact token says how it is signed.

Each of them is read from JSON by a `Json.Record` and written by `toJson`, which
leaves absent members out.
-/

namespace StatusList

open Json (Reader Record Field)

/-- The width of a number of bits. -/
def Width.reader : Reader Width := fun node => do
  let bits ← Reader.byte node
  match Width.ofBits? bits.toNat with
  | some width => return width
  | none => throw (.invalidWidth bits.toNat)

/-- The width as a number. -/
def Width.toJson (w : Width) : Json := .ofNat w.bits

/-! ## List claims -/

/-- The claim that carries a status list. -/
structure ListClaim where
  /-- The width of every entry. -/
  width : Width
  /-- The encoded list. -/
  lst : String
  /-- Where the list is gathered with others. -/
  aggregationUri : Option String
  deriving DecidableEq, Inhabited

namespace ListClaim

/-- A list claim of which members may be missing yet. -/
structure Draft where
  width : Option Width
  lst : Option String
  aggregationUri : Option String

/-- How a list claim is read. -/
def record : Record Draft ListClaim where
  name := "StatusListClaim"
  fields := [
    ⟨"bits", true, fun d node => return { d with width := some (← Width.reader node) }⟩,
    ⟨"lst", true, fun d node => return { d with lst := some (← Reader.string node) }⟩,
    ⟨"aggregation_uri", false, fun d node =>
      return { d with aggregationUri := ← Reader.option Reader.string node }⟩]
  blank := ⟨none, none, none⟩
  finish := fun d => return {
    width := ← Json.need "bits" d.width
    lst := ← Json.need "lst" d.lst
    aggregationUri := d.aggregationUri }

/-- The JSON of a list claim. -/
def toJson (c : ListClaim) : Json :=
  .record [
    ("bits", some c.width.toJson),
    ("lst", some (.string c.lst)),
    ("aggregation_uri", c.aggregationUri.map .string)]

end ListClaim

/-- The list claim of a packed list. -/
def Packed.toClaim (p : Packed) (aggregationUri : Option String) : ListClaim :=
  ⟨p.width, p.toEncoded, aggregationUri⟩

/-! ## Claims -/

/-- The claims of a token. -/
structure Claims where
  /-- Who issued the token. -/
  iss : String
  /-- Where the list is published. -/
  sub : String
  /-- When the token was issued, in seconds since the beginning of 1970. -/
  iat : Int64
  /-- When the token expires. -/
  exp : Option Int64
  /-- For how many seconds the token may be kept. -/
  ttl : Option UInt64
  /-- The claim that carries the list. -/
  statusList : ListClaim
  deriving DecidableEq, Inhabited

namespace Claims

/-- Claims of which members may be missing yet. -/
structure Draft where
  iss : Option String
  sub : Option String
  iat : Option Int64
  exp : Option Int64
  ttl : Option UInt64
  statusList : Option ListClaim

/-- How claims are read. -/
def record : Record Draft Claims where
  name := "StatusListClaims"
  fields := [
    ⟨"iss", true, fun d node => return { d with iss := some (← Reader.string node) }⟩,
    ⟨"sub", true, fun d node => return { d with sub := some (← Reader.string node) }⟩,
    ⟨"iat", true, fun d node => return { d with iat := some (← Reader.signed node) }⟩,
    ⟨"exp", false, fun d node => return { d with exp := ← Reader.option Reader.signed node }⟩,
    ⟨"ttl", false, fun d node => return { d with ttl := ← Reader.option Reader.longWord node }⟩,
    ⟨"status_list", true, fun d node =>
      return { d with statusList := some (← ListClaim.record.read node) }⟩]
  blank := ⟨none, none, none, none, none, none⟩
  finish := fun d => return {
    iss := ← Json.need "iss" d.iss
    sub := ← Json.need "sub" d.sub
    iat := ← Json.need "iat" d.iat
    exp := d.exp
    ttl := d.ttl
    statusList := ← Json.need "status_list" d.statusList }

/-- The JSON of claims. -/
def toJson (c : Claims) : Json :=
  .record [
    ("iss", some (.string c.iss)),
    ("sub", some (.string c.sub)),
    ("iat", some (.ofInt c.iat.toInt)),
    ("exp", c.exp.map fun t => .ofInt t.toInt),
    ("ttl", c.ttl.map fun t => .ofNat t.toNat),
    ("status_list", some c.statusList.toJson)]

/-- When the token was issued, if that is a civil time. -/
def issuedAt (c : Claims) : Option Civil := Civil.ofSeconds? c.iat.toInt

/-- When the token expires, if it does and that is a civil time. -/
def expiresAt (c : Claims) : Option Civil := c.exp.bind fun t => Civil.ofSeconds? t.toInt

end Claims

/-! ## Headers -/

/-- The header of a compact token. -/
structure Header where
  /-- The algorithm of the signature. -/
  alg : String
  /-- The type of the token. -/
  typ : Option String
  /-- The key of the signature. -/
  kid : Option String
  deriving DecidableEq, Inhabited

namespace Header

/-- A header of which members may be missing yet. -/
structure Draft where
  alg : Option String
  typ : Option String
  kid : Option String

/-- How a header is read. -/
def record : Record Draft Header where
  name := "TokenHeader"
  fields := [
    ⟨"alg", true, fun d node => return { d with alg := some (← Reader.string node) }⟩,
    ⟨"typ", false, fun d node => return { d with typ := ← Reader.option Reader.string node }⟩,
    ⟨"kid", false, fun d node => return { d with kid := ← Reader.option Reader.string node }⟩]
  blank := ⟨none, none, none⟩
  finish := fun d => return {
    alg := ← Json.need "alg" d.alg
    typ := d.typ
    kid := d.kid }

/-- The JSON of a header. -/
def toJson (h : Header) : Json :=
  .record [
    ("alg", some (.string h.alg)),
    ("typ", h.typ.map .string),
    ("kid", h.kid.map .string)]

end Header

end StatusList
