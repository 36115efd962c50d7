import StatusList.Proofs.Stages
import StatusList.Proofs.WireForms

/-!
# Faults of documents

The document of a body is made in three steps: the token is read, the list in it is decoded, and
what comes of that is inflated. The kind of an error tells which of them failed
(`Document.faults_name_the_step`), unless a verifier gave the error: it may give any, and then has
the last word.

There is a fourth step that never fails. A document counts its entries with 32 bits, and a longer
list would be malformed; but a list that is inflated has at most `largestPacked` bytes, of which
none holds more than eight entries (`Packed.size_le_of_inflate`). If either number grew by a factor
of eight that would no longer be so.

A stream is known by what it would inflate to without any limit (`Inflates`): it makes no
difference to what comes of a stream how much of it there might have been.
-/

namespace StatusList

/-! ## Streams -/

/-- A stream stands for a byte string, which it gives under some limit. -/
def Inflates (stream raw : ByteArray) : Prop := ∃ limit, Flate.unpack limit stream = .ok raw

theorem inflate_eq_ok_iff {stream raw : ByteArray} :
    inflate stream = .ok raw ↔ Inflates stream raw ∧ raw.size ≤ largestPacked := by
  rw [inflate, mapError_eq_ok_iff]
  constructor
  · intro h
    exact ⟨⟨_, h⟩, Flate.size_le_of_unpack h⟩
  · rintro ⟨⟨limit, h⟩, hsize⟩
    rw [Flate.unpack_of_unpack h, if_pos hsize]

/-- A stream is not inflated if it stands for nothing or for too much. -/
theorem inflate_eq_error_iff {stream : ByteArray} :
    (∃ cause, inflate stream = .error cause) ↔
      ∀ raw, Inflates stream raw → largestPacked < raw.size := by
  constructor
  · rintro ⟨cause, h⟩ raw hraw
    by_contra hsize
    rw [inflate_eq_ok_iff.2 ⟨hraw, Nat.le_of_not_lt hsize⟩] at h
    cases h
  · intro h
    cases hinflate : inflate stream with
    | error cause => exact ⟨cause, rfl⟩
    | ok raw =>
      obtain ⟨hraw, hsize⟩ := inflate_eq_ok_iff.1 hinflate
      exact absurd (h raw hraw) (Nat.not_lt.2 hsize)

theorem exists_fault_of_inflate {stream : ByteArray} {cause : Error}
    (h : inflate stream = .error cause) : ∃ fault, cause = .notInflated fault := by
  obtain ⟨fault, -, rfl⟩ := mapError_eq_error_iff.1 h
  exact ⟨fault, rfl⟩

/-- What has been inflated is always the list of some document. -/
theorem Document.exists_ofPacked_of_inflate {stream raw : ByteArray} (h : inflate stream = .ok raw)
    (width : Width) (aggregationUri : Option String) :
    ∃ d, Document.ofPacked width raw aggregationUri = .ok d ∧ d.list = ⟨width, raw⟩ := by
  have hsize : (Packed.mk width raw).size < entryLimit :=
    Packed.size_lt_entryLimit (inflate_eq_ok_iff.1 h).2
  exact ⟨⟨⟨width, raw⟩, aggregationUri, hsize⟩, dif_pos hsize, rfl⟩

/-! ## Tokens -/

/-- No stage tells of too many entries. -/
theorem Body.Stops.ne_tooManyEntries {bytes : ByteArray} {fault : Malformed} {words : String}
    (h : Body.Stops bytes fault words) (entries : Nat) : fault ≠ .tooManyEntries entries := by
  rintro rfl
  cases h with
  | header _ h | payload _ _ h => cases h

namespace Token

variable {verifier : Option Verifier} {bytes : ByteArray} {token : Token} {cause : Error}

/-- The list of a token that is read is not decoded or not inflated, if there is no document
    of it. -/
theorem toDocument_eq_error_iff :
    token.toDocument = .error cause ↔
      ((∀ stream, ¬Spells token.claims.statusList.lst stream) ∧ cause = .notBase64) ∨
        ∃ stream, Spells token.claims.statusList.lst stream ∧ inflate stream = .error cause := by
  simp only [toDocument, decodePacked, bind_eq_error_iff, bind_eq_ok_iff, decodeBase64_eq_ok_iff,
    decodeBase64_eq_error_iff]
  refine or_iff_left ?_
  rintro ⟨raw, ⟨stream, -, hraw⟩, hnone⟩
  obtain ⟨d, hd, -⟩ := Document.exists_ofPacked_of_inflate hraw token.claims.statusList.width
    token.claims.statusList.aggregationUri
  rw [hd] at hnone
  cases hnone

/-- The verifier is shown the compact token that a byte string is, and gives an error. -/
inductive Refused (verifier : Option Verifier) (bytes : ByteArray) (refusal : Error) : Prop where
  | intro {verify : Verifier} {check : Check} {claims : Claims} (hsome : verifier = some verify)
      (h : Body.IsToken bytes check claims) (hverify : verify check = .error refusal) :
      Refused verifier bytes refusal

/-- A byte string is no token if a stage fails, or if the verifier refuses it. -/
theorem read_eq_error_iff :
    read verifier bytes = .error cause ↔
      (∃ fault words, Body.Stops bytes fault words ∧ cause = .malformedToken fault) ∨
        Refused verifier bytes cause := by
  constructor
  · intro h
    obtain ⟨checks, hlog⟩ : ∃ checks, readLogged verifier bytes = (.error cause, checks) :=
      ⟨_, Prod.ext h rfl⟩
    cases readLogged_eq_iff.1 hlog with
    | malformed hstops => exact .inl ⟨_, _, hstops, rfl⟩
    | refused hsome htoken hverify => exact .inr ⟨hsome, htoken, hverify⟩
  · rintro (⟨fault, words, hstops, rfl⟩ | ⟨hsome, htoken, hverify⟩)
    · exact congrArg Prod.fst (readLogged_eq_iff.2 (.malformed hstops))
    · exact congrArg Prod.fst (readLogged_eq_iff.2 (.refused hsome htoken hverify))

end Token

/-! ## Documents -/

namespace Document

/-- The step at which there is no document of a byte string, with the error for it. -/
inductive Fails (verifier : Option Verifier) (bytes : ByteArray) : Error → Prop where
  /-- A stage fails at which the token is read. -/
  | malformed {fault : Malformed} {words : String} (h : Body.Stops bytes fault words) :
      Fails verifier bytes (.malformedToken fault)
  /-- The verifier refuses the token. -/
  | refused {refusal : Error} (h : Token.Refused verifier bytes refusal) :
      Fails verifier bytes refusal
  /-- The list of the token spells nothing. -/
  | notBase64 {token : Token} (hread : Token.read verifier bytes = .ok token)
      (h : ∀ stream, ¬Spells token.claims.statusList.lst stream) :
      Fails verifier bytes .notBase64
  /-- The list spells a stream that is not inflated. -/
  | notInflated {token : Token} {stream : ByteArray} {fault : Flate.Fault}
      (hread : Token.read verifier bytes = .ok token)
      (hspells : Spells token.claims.statusList.lst stream)
      (h : inflate stream = .error (.notInflated fault)) :
      Fails verifier bytes (.notInflated fault)

variable {verifier : Option Verifier} {bytes : ByteArray} {cause : Error}

/-- There is no document where a step fails, and nowhere else. -/
theorem read_eq_error_iff : read verifier bytes = .error cause ↔ Fails verifier bytes cause := by
  rw [read, bind_eq_error_iff, Token.read_eq_error_iff]
  constructor
  · rintro ((⟨fault, words, hstops, rfl⟩ | hrefused) | ⟨token, hread, hdocument⟩)
    · exact .malformed hstops
    · exact .refused hrefused
    · rcases Token.toDocument_eq_error_iff.1 hdocument with ⟨hnone, rfl⟩ | ⟨stream, hspells, h⟩
      · exact .notBase64 hread hnone
      · obtain ⟨fault, rfl⟩ := exists_fault_of_inflate h
        exact .notInflated hread hspells h
  · rintro (hstops | hrefused | ⟨hread, hnone⟩ | ⟨hread, hspells, h⟩)
    · exact .inl (.inl ⟨_, _, hstops, rfl⟩)
    · exact .inl (.inr hrefused)
    · exact .inr ⟨_, hread, Token.toDocument_eq_error_iff.2 (.inl ⟨hnone, rfl⟩)⟩
    · exact .inr ⟨_, hread, Token.toDocument_eq_error_iff.2 (.inr ⟨_, hspells, h⟩)⟩

/-- The kind of an error names the step that failed, unless the verifier gave it. -/
structure NamesTheStep (verifier : Option Verifier) (bytes : ByteArray) : Prop where
  /-- A body is malformed where its token is. -/
  malformed (fault : Malformed) :
    read verifier bytes = .error (.malformedToken fault) ↔
      Token.read verifier bytes = .error (.malformedToken fault)
  /-- That a list is not base64url is told of a token that has been read, of which the list
      spells nothing. -/
  notBase64 :
    read verifier bytes = .error .notBase64 ↔
      (∃ token, Token.read verifier bytes = .ok token ∧
        ∀ stream, ¬Spells token.claims.statusList.lst stream) ∨
      Token.Refused verifier bytes .notBase64
  /-- That a list is not inflated is told of a token that has been read, of which the list spells
      a stream that stands for nothing or for too much. -/
  notInflated :
    (∃ fault, read verifier bytes = .error (.notInflated fault)) ↔
      (∃ token stream, Token.read verifier bytes = .ok token ∧
        Spells token.claims.statusList.lst stream ∧
        ∀ raw, Inflates stream raw → largestPacked < raw.size) ∨
      ∃ fault, Token.Refused verifier bytes (.notInflated fault)
  /-- No other error is told. -/
  others (cause : Error) (h : read verifier bytes = .error cause) :
    (∃ fault, cause = .malformedToken fault) ∨ cause = .notBase64 ∨
      (∃ fault, cause = .notInflated fault) ∨ Token.Refused verifier bytes cause
  /-- No list is too long for its entries to be counted. -/
  counted (entries : Nat)
    (h : read verifier bytes = .error (.malformedToken (.tooManyEntries entries))) :
    Token.Refused verifier bytes (.malformedToken (.tooManyEntries entries))

theorem namesTheStep (verifier : Option Verifier) (bytes : ByteArray) :
    NamesTheStep verifier bytes where
  malformed fault := by
    constructor
    · intro h
      cases read_eq_error_iff.1 h with
      | malformed hstops => exact Token.read_eq_error_iff.2 (.inl ⟨_, _, hstops, rfl⟩)
      | refused hrefused => exact Token.read_eq_error_iff.2 (.inr hrefused)
    · intro h
      exact bind_eq_error_iff.2 (.inl h)
  notBase64 := by
    rw [read_eq_error_iff]
    constructor
    · intro h
      cases h with
      | refused hrefused => exact .inr hrefused
      | notBase64 hread hnone => exact .inl ⟨_, hread, hnone⟩
    · rintro (⟨token, hread, hnone⟩ | hrefused)
      · exact .notBase64 hread hnone
      · exact .refused hrefused
  notInflated := by
    simp only [read_eq_error_iff]
    constructor
    · rintro ⟨fault, h⟩
      cases h with
      | refused hrefused => exact .inr ⟨fault, hrefused⟩
      | notInflated hread hspells h =>
        exact .inl ⟨_, _, hread, hspells, inflate_eq_error_iff.1 ⟨_, h⟩⟩
    · rintro (⟨token, stream, hread, hspells, h⟩ | ⟨fault, hrefused⟩)
      · obtain ⟨cause, hcause⟩ := inflate_eq_error_iff.2 h
        obtain ⟨fault, rfl⟩ := exists_fault_of_inflate hcause
        exact ⟨fault, .notInflated hread hspells hcause⟩
      · exact ⟨fault, .refused hrefused⟩
  others cause h := by
    cases read_eq_error_iff.1 h with
    | malformed => exact .inl ⟨_, rfl⟩
    | refused hrefused => exact .inr (.inr (.inr hrefused))
    | notBase64 => exact .inr (.inl rfl)
    | notInflated => exact .inr (.inr (.inl ⟨_, rfl⟩))
  counted entries h := by
    cases read_eq_error_iff.1 h with
    | malformed hstops => exact absurd rfl (hstops.ne_tooManyEntries entries)
    | refused hrefused => exact hrefused

/-- The kind of an error names the step that failed, and the size of a document is never the
    fault: a list that has been inflated has at most as many entries as 29 bits count, which
    leaves nothing to be refused and nothing to overflow. -/
theorem faults_name_the_step :
    (∀ (verifier : Option Verifier) (bytes : ByteArray), NamesTheStep verifier bytes) ∧
    (∀ stream raw : ByteArray, inflate stream = .ok raw →
      ∀ (width : Width) (aggregationUri : Option String),
        raw.size * width.perByte ≤ 2 ^ 29 ∧
        raw.size * width.perByte < UInt32.size ∧
        raw.size * width.perByte < USize.size ∧
        ∃ d, ofPacked width raw aggregationUri = .ok d ∧ d.list = ⟨width, raw⟩) := by
  refine ⟨namesTheStep, fun stream raw h width aggregationUri => ?_⟩
  have hsize : (Packed.mk width raw).size ≤ 2 ^ 29 :=
    Packed.size_le_of_bytes_le (inflate_eq_ok_iff.1 h).2
  exact ⟨hsize, hsize.trans_lt (by decide), hsize.trans_lt (Nat.lt_of_lt_of_le (by decide)
    USize.le_size), exists_ofPacked_of_inflate h width aggregationUri⟩

/-- A list of one character, which spells nothing, and a list of sixteen entries. -/
theorem faults_name_the_step_of_one_character :
    let claims : Claims := ⟨"i", "s", 1, none, none, ⟨.one, "A", none⟩⟩
    let bytes := claims.toJson.compact.toUTF8
    let raw := [0xB9, 0xA3].toByteArray
    Token.read none bytes = .ok ⟨none, claims⟩ ∧
    read none bytes = .error .notBase64 ∧
    ((∃ fault, Error.notBase64 = .malformedToken fault) ∨ Error.notBase64 = .notBase64 ∨
      (∃ fault, Error.notBase64 = .notInflated fault) ∨ Token.Refused none bytes .notBase64) ∧
    inflate (deflate raw) = .ok raw ∧
    ∃ d, ofPacked .one raw none = .ok d ∧ d.list = ⟨.one, raw⟩ := by
  intro claims bytes raw
  obtain ⟨hnames, hsizes⟩ := faults_name_the_step
  have hplain : Body.IsPlain claims.toJson.compact := ⟨by decide +kernel, by decide +kernel⟩
  have hread : Token.read none bytes = .ok ⟨none, claims⟩ := by
    rw [Token.read, Token.readLogged, Body.read_plain hplain, claims.parse_compact]
    rfl
  have hnone : ∀ stream, ¬Spells "A" stream := by
    intro stream h
    rw [← decodeBase64_eq_ok_iff] at h
    cases h
  have hbase64 : read none bytes = .error .notBase64 :=
    (hnames none bytes).notBase64.2 (.inl ⟨_, hread, hnone⟩)
  have hinflate : inflate (deflate raw) = .ok raw := inflate_deflate raw
  exact ⟨hread, hbase64, (hnames none bytes).others _ hbase64, hinflate,
    (hsizes _ raw hinflate .one none).2.2.2⟩

end Document

end StatusList
