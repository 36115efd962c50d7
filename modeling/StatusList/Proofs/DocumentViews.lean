import StatusList.Proofs.Packed.Unpacked
import StatusList.Proofs.WrittenRecords

/-!
# Views of a document

A document can be looked at in several ways: by the index of an entry, by its numbers, as JSON, and
as the response of the service, which has the entries laid out one by one and names of its own.
Whatever bytes it is made of, all of them show the list that unpacking gives (`Document.Shows`).

The two kinds of JSON are the same value (`Document.toJson_eq`), so the text of the one is the text
of the other, and what a response is read back from it is known (`ListResponse.read_toJson`).

* `Document.views_agree`: there is a document just if 32 bits count the entries, and then all its
  views agree.
-/

namespace StatusList

open Json (Node Token)
open Service (ListResponse)

namespace Document

/-- All views of a document show the list that the bytes have when they are unpacked. -/
structure Shows (d : Document) (w : Width) (raw : ByteArray) (aggregationUri : Option String) :
    Prop where
  total : d.total = 8 * raw.size / w.bits
  width : d.list.width = w
  isEmpty : d.isEmpty = true ↔ raw.size = 0
  /-- What is at an index is what has been unpacked to that place. -/
  status : ∀ (i : UInt32) (value : UInt8), d.status? i = some value ↔
    i.toNat < d.total ∧ (unpack w raw).data.toList[i.toNat]? = some value
  beyond : ∀ i : UInt32, d.status? i = none ↔ d.total ≤ i.toNat
  /-- As JSON it has the text of the response. -/
  text : d.toJson.compact = (ListResponse.ofDocument d).toJson.compact
  /-- In the text there are these members, in this order. -/
  names : (Node.ofTokens (Token.ofText d.toJson.compact.toUTF8.data.toList)).1.keys =
    Json.keysThere [("statusList", true), ("bitsPerStatus", true), ("totalStatuses", true),
      ("aggregationUri", aggregationUri.isSome)]
  /-- A response is read from the text that has what has been unpacked. -/
  read : ∃ r : ListResponse,
    Json.parse ListResponse.record.read d.toJson.compact.toUTF8.data.toList = .ok r ∧
    r.statusList = (unpack w raw).data.toList ∧ r.bitsPerStatus.toNat = w.bits ∧
    r.totalStatuses.toNat = 8 * raw.size / w.bits ∧ r.aggregationUri = aggregationUri

variable {w : Width} {raw : ByteArray} {aggregationUri : Option String}

theorem size_eq_div (w : Width) (raw : ByteArray) :
    (Packed.mk w raw).size = 8 * raw.size / w.bits := by
  rw [← size_mul_eight_div, Nat.mul_comm]

/-- The width and the number of entries of a document are numbers of the sizes that the response
    has for them. -/
theorem toNat_ofDocument (d : Document) :
    (ListResponse.ofDocument d).bitsPerStatus.toNat = d.list.width.bits ∧
      (ListResponse.ofDocument d).totalStatuses.toNat = d.total := by
  constructor
  · rw [ListResponse.ofDocument]
    cases d.list.width <;> rfl
  · rw [ListResponse.ofDocument, Nat.toUInt32_eq, UInt32.toNat_ofNat']
    exact Nat.mod_eq_of_lt d.size_lt

/-- A document and the response that shows it have the same JSON. -/
theorem toJson_eq (d : Document) : d.toJson = (ListResponse.ofDocument d).toJson := by
  obtain ⟨hbits, htotal⟩ := d.toNat_ofDocument
  rw [toJson, ListResponse.toJson, hbits, htotal]
  rfl

/-- What is at an index of a document. -/
theorem status?_eq_some_iff {d : Document} {i : UInt32} {value : UInt8} :
    d.status? i = some value ↔ d.list.toList[i.toNat]? = some value := by
  rw [status?, Packed.get?, ← Packed.get_eq_ok_iff]
  cases d.list.get i.toNat <;> simp [Except.toOption]

/-- A list has an entry at every index below its size, and at no other. -/
theorem status?_eq_none_iff {d : Document} {i : UInt32} :
    d.status? i = none ↔ d.total ≤ i.toNat := by
  rw [status?, Packed.get?, Packed.get, total]
  split
  · next h => simpa [Except.toOption] using h
  · next h => simpa [Except.toOption] using h

/-- A document shows the list of its bytes. -/
theorem shows_of_list (d : Document) : d.Shows d.list.width d.list.bytes d.aggregationUri := by
  have hunpacked : (unpack d.list.width d.list.bytes).data.toList = d.list.toList :=
    unpack_eq_toList d.list.width d.list.bytes
  have htotal : d.total = 8 * d.list.bytes.size / d.list.width.bits :=
    size_eq_div d.list.width d.list.bytes
  have hback : Json.ReadsBack ListResponse.record.read ListResponse.toJson ListResponse.members :=
    Json.readsBack_of_toNode ListResponse.exact_toJson ListResponse.read_toJson
      ListResponse.keys_toJson
  refine ⟨htotal, rfl, ?_, fun i value => ?_, fun i => ?_, congrArg _ d.toJson_eq, ?_, ?_⟩
  · -- A byte holds at least one entry.
    have hperByte := d.list.width.perByte_pos
    rw [isEmpty, decide_eq_true_iff, total, Packed.size, Nat.mul_eq_zero]
    omega
  · rw [status?_eq_some_iff, hunpacked, iff_and_self]
    intro hvalue
    have hlt := (List.getElem?_eq_some_iff.1 hvalue).1
    rwa [Packed.length_toList] at hlt
  · rw [status?_eq_none_iff]
  · rw [d.toJson_eq]
    exact hback.names _
  · obtain ⟨hbits, hcount⟩ := d.toNat_ofDocument
    rw [d.toJson_eq]
    exact ⟨_, hback.read _, hunpacked.symm, hbits, hcount.trans htotal, rfl⟩

/-- There is a document of a byte string just if 32 bits count the entries of the list, and all
    views of it agree. -/
theorem views_agree (w : Width) (raw : ByteArray) (aggregationUri : Option String) :
    (2 ^ 32 - 1 < 8 * raw.size / w.bits → ofPacked w raw aggregationUri =
      .error (.malformedToken (.tooManyEntries (8 * raw.size / w.bits)))) ∧
    (8 * raw.size / w.bits ≤ 2 ^ 32 - 1 →
      ∃ d, ofPacked w raw aggregationUri = .ok d ∧ d.Shows w raw aggregationUri) := by
  have hsize := size_eq_div w raw
  have hlimit : entryLimit = 2 ^ 32 := rfl
  constructor
  · intro hmany
    rw [ofPacked, dif_neg (by omega), hsize]
  · intro hfew
    have hlt : (Packed.mk w raw).size < entryLimit := by omega
    exact ⟨⟨⟨w, raw⟩, aggregationUri, hlt⟩, dif_pos hlt, shows_of_list _⟩

/-- Two bytes of entries of four bits, and one byte more than 32 bits count the entries of. -/
theorem views_of_two_bytes_agree :
    (∃ d, ofPacked .four [0x21, 0x43].toByteArray none = .ok d ∧ d.total = 4 ∧
      d.status? 2 = some 3 ∧ d.status? 4 = none ∧
      d.toJson.compact = (ListResponse.ofDocument d).toJson.compact) ∧
    ofPacked .one (Packed.fill 0 (2 ^ 29) .empty) none =
      .error (.malformedToken (.tooManyEntries (2 ^ 32))) := by
  obtain ⟨-, hfew⟩ := views_agree .four [0x21, 0x43].toByteArray none
  obtain ⟨hmany, -⟩ := views_agree .one (Packed.fill 0 (2 ^ 29) .empty) none
  have hsize : 8 * (Packed.fill 0 (2 ^ 29) .empty).size / Width.one.bits = 2 ^ 32 := by
    rw [Packed.size_fill]
    rfl
  rw [hsize] at hmany
  obtain ⟨d, hd, hshows⟩ := hfew (by decide)
  have htotal : d.total = 4 := hshows.total
  refine ⟨⟨d, hd, htotal, (hshows.status 2 3).2 ⟨?_, by decide⟩, (hshows.beyond 4).2 ?_,
    hshows.text⟩, hmany (by decide)⟩
  · rw [htotal]
    decide
  · rw [htotal]
    decide

end Document

end StatusList
