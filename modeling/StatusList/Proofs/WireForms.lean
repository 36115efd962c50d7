import StatusList.Proofs.Cbor.Claim
import StatusList.Proofs.Flate.RoundTrip
import StatusList.Proofs.Packed.Unpacked
import StatusList.Proofs.Text.Base64Url
import StatusList.Token

/-!
# Wire forms

A packed list travels in several forms: encoded in a text, compressed in a binary claim,
encoded in the list claim of a token. Each of them gives the list back, if its bytes are
no more than can be inflated; one byte more, and each of them is refused for that reason,
whoever reads it (`Packed.forms_give_back`).

All forms rest on one stream, so that what decides is `inflate_deflate`. The binary claim
also has to write down lengths. They can be written of anything that fits into the
memory of a machine with 64-bit addresses (`Packed.Addressable`).
-/

namespace StatusList

/-! ## Streams and texts -/

/-- A compressed list is inflated if it is no more than may come out. -/
theorem inflate_deflate (raw : ByteArray) :
    inflate (deflate raw) =
      if raw.size ≤ largestPacked then .ok raw else .error (.notInflated .full) := by
  rw [inflate, deflate, Flate.unpack_pack]
  split <;> rfl

theorem decodePacked_encodePacked (raw : ByteArray) :
    decodePacked (encodePacked raw) = inflate (deflate raw) := by
  rw [decodePacked, encodePacked, decodeBase64_encodeBase64]
  rfl

namespace Packed

/-! ## Sizes -/

/-- The list and the text that goes with it are in the memory of one machine. -/
def Addressable (p : Packed) (aggregationUri : Option String) : Prop :=
  p.bytes.size < 2 ^ 63 ∧ ∀ uri ∈ aggregationUri, uri.utf8ByteSize < 2 ^ 63

/-- What is addressable can be written in a binary claim. -/
theorem Addressable.fits {p : Packed} {aggregationUri : Option String}
    (h : p.Addressable aggregationUri) : (BinaryClaim.ofPacked p aggregationUri).Fits := by
  refine ⟨?_, fun uri huri => (h.2 uri huri).trans (by decide)⟩
  have hsize := Flate.size_pack_le p.bytes
  have hbytes := h.1
  change (Flate.pack p.bytes).size < 2 ^ 64
  rw [Flate.longestStored] at hsize
  omega

/-- A list that can be inflated has at most eight entries for each byte that there may be. -/
theorem size_le_of_bytes_le {p : Packed} (h : p.bytes.size ≤ largestPacked) :
    p.size ≤ 2 ^ 29 := by
  have hper : p.width.perByte ≤ 8 := by cases p.width <;> decide
  calc p.size ≤ largestPacked * 8 := Nat.mul_le_mul h hper
    _ = 2 ^ 29 := by decide

/-- A list that can be inflated has fewer entries than a document may have. -/
theorem size_lt_entryLimit {p : Packed} (h : p.bytes.size ≤ largestPacked) :
    p.size < entryLimit :=
  (size_le_of_bytes_le h).trans_lt (by decide)

/-! ## Claims and documents -/

/-- What an encoded list is decoded to. -/
theorem ofEncoded_toEncoded (p : Packed) :
    ofEncoded p.width p.toEncoded = (inflate (deflate p.bytes)).map (mk p.width) := by
  rw [ofEncoded, toEncoded, decodePacked_encodePacked]
  rfl

/-- What an encoded list is decoded to, one byte for each entry. -/
theorem decodeUnpacked_toEncoded (p : Packed) :
    decodeUnpacked p.width p.toEncoded = (inflate (deflate p.bytes)).map (unpack p.width) := by
  rw [decodeUnpacked, toEncoded, decodePacked_encodePacked]
  rfl

/-- What the list of a binary claim is inflated to. -/
theorem toPacked_ofPacked (p : Packed) (aggregationUri : Option String) :
    (BinaryClaim.ofPacked p aggregationUri).toPacked =
      (inflate (deflate p.bytes)).map (mk p.width) := by
  rw [BinaryClaim.toPacked, BinaryClaim.ofPacked, toCompressed]
  rfl

/-- A binary claim is read as it was written. -/
theorem ofCbor_ofPacked {p : Packed} {aggregationUri : Option String}
    (h : p.Addressable aggregationUri) :
    BinaryClaim.ofCbor (BinaryClaim.ofPacked p aggregationUri).toCbor =
      .ok (BinaryClaim.ofPacked p aggregationUri) := by
  have hread := BinaryClaim.ofCbor_toCbor_append h.fits .empty
  rwa [ByteArray.append_empty] at hread

/-- The document of a token that carries the list is the one of the inflated bytes. -/
theorem toDocument_of_toClaim {p : Packed} {aggregationUri : Option String} {t : Token}
    (h : t.claims.statusList = p.toClaim aggregationUri) :
    t.toDocument =
      (do Document.ofPacked p.width (← inflate (deflate p.bytes)) aggregationUri) := by
  rw [Token.toDocument, h, toClaim, toEncoded, decodePacked_encodePacked]

/-- Every form of a list gives the list back, and with it the place where it is gathered
    with others, if the bytes of the list are at most `largestPacked`. If there are more,
    every form can be written all the same, and every reader of it finds more bytes than
    it may inflate; none gives a part of the list. -/
theorem forms_give_back (p : Packed) (aggregationUri : Option String) :
    let claim := BinaryClaim.ofPacked p aggregationUri
    (p.Addressable aggregationUri → BinaryClaim.ofCbor claim.toCbor = .ok claim) ∧
    (p.bytes.size ≤ largestPacked →
      ofEncoded p.width p.toEncoded = .ok p ∧
      decodeUnpacked p.width p.toEncoded = .ok p.toList.toByteArray ∧
      claim.toPacked = .ok p ∧
      ∀ t : Token, t.claims.statusList = p.toClaim aggregationUri →
        ∃ d, t.toDocument = .ok d ∧ d.list = p ∧ d.aggregationUri = aggregationUri) ∧
    (largestPacked < p.bytes.size →
      ofEncoded p.width p.toEncoded = .error (.notInflated .full) ∧
      decodeUnpacked p.width p.toEncoded = .error (.notInflated .full) ∧
      claim.toPacked = .error (.notInflated .full) ∧
      ∀ t : Token, t.claims.statusList = p.toClaim aggregationUri →
        t.toDocument = .error (.notInflated .full)) := by
  have hstream := inflate_deflate p.bytes
  refine ⟨ofCbor_ofPacked, fun hfits => ?_, fun hlong => ?_⟩
  · rw [if_pos hfits] at hstream
    refine ⟨?_, ?_, ?_, fun t ht => ?_⟩
    · rw [ofEncoded_toEncoded, hstream]
      rfl
    · have hunpack : unpack p.width p.bytes = p.toList.toByteArray := by
        rw [← toByteArray_toList (unpack p.width p.bytes), unpack_eq_toList]
      rw [decodeUnpacked_toEncoded, hstream, ← hunpack]
      rfl
    · rw [toPacked_ofPacked, hstream]
      rfl
    · refine ⟨⟨p, aggregationUri, size_lt_entryLimit hfits⟩, ?_, rfl, rfl⟩
      rw [toDocument_of_toClaim ht, hstream]
      exact dif_pos (size_lt_entryLimit hfits)
  · rw [if_neg (Nat.not_le.2 hlong)] at hstream
    refine ⟨?_, ?_, ?_, fun t ht => ?_⟩
    · rw [ofEncoded_toEncoded, hstream]
      rfl
    · rw [decodeUnpacked_toEncoded, hstream]
      rfl
    · rw [toPacked_ofPacked, hstream]
      rfl
    · rw [toDocument_of_toClaim ht, hstream]
      rfl

/-- The forms of a list of sixteen entries of one bit. -/
theorem forms_of_sixteen_give_back :
    let p : Packed := ⟨.one, [0xB9, 0xA3].toByteArray⟩
    let aggregationUri := some "https://example.com/agg"
    p.Addressable aggregationUri ∧
    BinaryClaim.ofCbor (BinaryClaim.ofPacked p aggregationUri).toCbor =
      .ok (BinaryClaim.ofPacked p aggregationUri) ∧
    ofEncoded .one p.toEncoded = .ok p := by
  have h : (mk .one [0xB9, 0xA3].toByteArray).Addressable
      (some "https://example.com/agg") := by
    refine ⟨by decide, fun uri huri => ?_⟩
    rw [← Option.some.inj huri]
    decide
  obtain ⟨hclaim, hfits, -⟩ := forms_give_back (mk .one [0xB9, 0xA3].toByteArray)
    (some "https://example.com/agg")
  exact ⟨h, hclaim h, (hfits (by decide)).1⟩

end Packed

end StatusList
