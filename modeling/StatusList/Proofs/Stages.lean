import StatusList.Proofs.PlainTokens
import StatusList.Proofs.Json.Arrays
import StatusList.Proofs.Json.Objects

/-!
# Stages

A body is read in stages. It has to be text; what begins like a document has to be the JSON of
claims; anything else has to have three parts, of which the header, the payload and the signature
are looked at in this order, each first as base64url and then as what it says; and at the end
somebody may have to accept it. The first stage that fails is the one that is told of, and nothing
after it is looked at (`Body.Stops`, `Token.Staged`).

Which kind of body it is depends on the first character. What begins with a brace is no compact
token, because no digit of base64url is a brace (`Body.readCompact_ne_ok_of_brace`), and a text
that holds a JSON object begins with a brace once the blanks around it are gone
(`Body.head?_of_opening?`). So no object is lost. But the reader of claims takes more than objects:
an array of the claims in their order is read like an object where claims are asked for, as inside
a compact token. By itself it begins with a bracket, so that it is not read as a document, and as
no digit of base64url is a bracket either, it is always refused (`Body.Dispatched`,
`Token.bare_array_is_refused`).
-/

namespace StatusList

open Text (isBlank trimChars)

namespace Body

/-! ## Where reading stops -/

/-- A part does not say what it should: it is not base64url, or what it encodes is not the JSON of
    what the reader reads. Both are told with the name of the part. -/
inductive Unsaid {α : Type} (reader : Json.Reader α) (segment : Segment) (name part : String) :
    Malformed → String → Prop where
  | encoding (h : ∀ bytes, ¬Spells part bytes) :
      Unsaid reader segment name part (.encoding segment)
        (name ++ " segment: " ++ Error.notBase64.message)
  | content {bytes : ByteArray} {fault : Json.Fault} (spells : Spells part bytes)
      (h : Json.parse reader bytes.data.toList = .error fault) :
      Unsaid reader segment name part (.content segment fault) (name ++ ": " ++ fault.message)

/-- A byte string is text that does not begin like a document, and has three parts with two dots
    between them, once the blanks around it are gone. -/
structure Parts (bytes : ByteArray) (header payload signature : String) : Prop where
  trimmed : trimmed? bytes = some (header ++ "." ++ payload ++ "." ++ signature)
  noBrace : (header ++ "." ++ payload ++ "." ++ signature).toList.head? ≠ some '\x7b'
  noDot : '.' ∉ header.toList ∧ '.' ∉ payload.toList ∧ '.' ∉ signature.toList

/-- The stage at which the reading of a byte string stops, and the words for it. What belongs to
    the stages before it is in order. -/
inductive Stops (bytes : ByteArray) : Malformed → String → Prop where
  /-- It is not text. -/
  | text {fault : Utf8.Fault} (h : Utf8.decode bytes = .error fault) :
      Stops bytes (.notText fault) ("body is not utf-8: " ++ fault.message)
  /-- It begins like a document, and the whole of it is not the JSON of claims. -/
  | document {text : String} {fault : Json.Fault} (trimmed : trimmed? bytes = some text)
      (brace : text.toList.head? = some '\x7b')
      (h : Json.parse Claims.record.read text.toUTF8.data.toList = .error fault) :
      Stops bytes (.document fault) ("document: " ++ fault.message)
  /-- The dots in it are not two. -/
  | count {text : String} (trimmed : trimmed? bytes = some text)
      (noBrace : text.toList.head? ≠ some '\x7b') (h : text.toList.count '.' ≠ 2) :
      Stops bytes (.segmentCount (text.toList.count '.' + 1))
        ("expected 3 segments, found " ++ toString (text.toList.count '.' + 1))
  /-- The first part does not say a header. -/
  | header {header payload signature words : String} {cause : Malformed}
      (parts : Parts bytes header payload signature)
      (h : Unsaid Header.record.read .header "header" header cause words) :
      Stops bytes cause words
  /-- The second part does not say claims. -/
  | payload {header payload signature words : String} {head : Header} {cause : Malformed}
      (parts : Parts bytes header payload signature)
      (saysHeader : Says Header.record.read header head)
      (h : Unsaid Claims.record.read .payload "payload" payload cause words) :
      Stops bytes cause words
  /-- The third part is not base64url. -/
  | signature {header payload signature : String} {head : Header} {claims : Claims}
      (parts : Parts bytes header payload signature)
      (saysHeader : Says Header.record.read header head)
      (saysClaims : Says Claims.record.read payload claims)
      (h : ∀ stamp, ¬Spells signature stamp) :
      Stops bytes (.encoding .signature) ("signature segment: " ++ Error.notBase64.message)

/-- A byte string is the JSON of claims, in a text that begins like a document. -/
inductive IsDocument (bytes : ByteArray) (claims : Claims) : Prop where
  | intro {text : String} (trimmed : trimmed? bytes = some text)
      (brace : text.toList.head? = some '\x7b')
      (saysClaims : Json.parse Claims.record.read text.toUTF8.data.toList = .ok claims) :
      IsDocument bytes claims

variable {bytes : ByteArray} {cause : Malformed} {words : String}

/-- The words are those in which the fault is told. -/
theorem Stops.message_eq (h : Stops bytes cause words) : cause.message = words := by
  have hunsaid : ∀ {α : Type} {reader : Json.Reader α} {segment : Segment} {part : String},
      Unsaid reader segment segment.message part cause words → cause.message = words := by
    rintro _ _ _ _ (_ | _) <;> rfl
  cases h with
  | text | document | count | signature => rfl
  | header _ h => exact hunsaid h
  | payload _ _ h => exact hunsaid h

/-! ## Every stage is reached and left -/

theorem decodeSegment_eq_error_iff {segment : Segment} {part : String} :
    decodeSegment segment part = .error cause ↔
      (∀ bytes, ¬Spells part bytes) ∧ cause = .encoding segment := by
  simp only [← decodeBase64_eq_ok_iff]
  rw [decodeSegment]
  cases decodeBase64 part <;> simp [Except.mapError, eq_comm]

theorem readSegment_eq_error_iff {α : Type} {reader : Json.Reader α} {segment : Segment}
    {part : String} (name : String) :
    readSegment segment reader part = .error cause ↔
      ∃ words, Unsaid reader segment name part cause words := by
  simp only [readSegment, bind_eq_error_iff, mapError_eq_error_iff, decodeSegment_eq_error_iff,
    decodeSegment_eq_ok_iff, decodeBase64_eq_ok_iff]
  constructor
  · rintro (⟨hencoding, rfl⟩ | ⟨bytes, hspells, fault, hcontent, rfl⟩)
    · exact ⟨_, .encoding hencoding⟩
    · exact ⟨_, .content hspells hcontent⟩
  · rintro ⟨words, hencoding | ⟨hspells, hcontent⟩⟩
    · exact .inl ⟨hencoding, rfl⟩
    · exact .inr ⟨_, hspells, _, hcontent, rfl⟩

/-- There is one part more than there are dots. -/
theorem length_splitDots (done : List (List Char)) (current text : List Char) :
    (splitDots done current text).length = done.length + text.count '.' + 1 := by
  induction text generalizing done current with
  | nil => rw [splitDots, List.length_reverse, List.length_cons, List.count_nil, Nat.add_zero]
  | cons c text ih =>
    rw [splitDots]
    split
    · next hc => rw [ih, hc, List.count_cons_self, List.length_cons]; omega
    · next hc => rw [ih, List.count_cons_of_ne hc]

/-- A text with two dots has three parts. -/
theorem exists_parts_of_count {text : String} (htrimmed : trimmed? bytes = some text)
    (hbrace : text.toList.head? ≠ some '\x7b') (h : text.toList.count '.' = 2) :
    ∃ header payload signature, Parts bytes header payload signature := by
  have hlength := length_splitDots [] [] text.toList
  rw [h] at hlength
  obtain ⟨a, b, c, hparts⟩ := List.length_eq_three.1 hlength
  obtain ⟨htext, hdots⟩ := splitDots_eq_three_iff.1 hparts
  obtain rfl : text = .ofList a ++ "." ++ .ofList b ++ "." ++ .ofList c := by
    apply String.toList_inj.1
    rw [toList_joined, htext]
    simp only [String.toList_ofList]
  exact ⟨_, _, _, htrimmed, hbrace, by simpa only [String.toList_ofList] using hdots⟩

theorem trimmed?_of_decode {whole : String} (h : Utf8.decode bytes = .ok whole) :
    trimmed? bytes = some (Text.trim whole) := by
  rw [trimmed?, h]
  rfl

theorem read_of_trimmed {text : String} (h : trimmed? bytes = some text) :
    Body.read bytes = readTrimmed text.toList := by
  obtain ⟨whole, hdecode, htrim⟩ := trimmed?_eq_some_iff.1 h
  rw [Body.read, hdecode, ← htrim]
  rfl

theorem read_of_brace {text : String} (htrimmed : trimmed? bytes = some text)
    (hbrace : text.toList.head? = some '\x7b') :
    Body.read bytes = (do
      let claims ← (Json.parse Claims.record.read text.toUTF8.data.toList).mapError .document
      return .plain claims) := by
  rw [read_of_trimmed htrimmed, readTrimmed, if_pos hbrace, String.ofList_toList]
  cases Json.parse Claims.record.read text.toUTF8.data.toList <;> rfl

theorem read_of_count {text : String} (htrimmed : trimmed? bytes = some text)
    (hbrace : text.toList.head? ≠ some '\x7b') (h : text.toList.count '.' ≠ 2) :
    Body.read bytes = .error (.segmentCount (text.toList.count '.' + 1)) := by
  have hlength := length_splitDots [] [] text.toList
  rw [List.length_nil, Nat.zero_add] at hlength
  rw [read_of_trimmed htrimmed, readTrimmed, if_neg hbrace, readCompact]
  split
  · next hparts =>
    rw [hparts] at hlength
    exact absurd (Nat.succ.inj hlength).symm h
  · rw [hlength]

/-- Of three parts each is read after the one before it. -/
theorem Parts.read_eq_error_iff {header payload signature : String}
    (h : Parts bytes header payload signature) :
    Body.read bytes = .error cause ↔
      readSegment .header Header.record.read header = .error cause ∨
        ∃ head, Says Header.record.read header head ∧
          (readSegment .payload Claims.record.read payload = .error cause ∨
            ∃ claims, Says Claims.record.read payload claims ∧
              decodeSegment .signature signature = .error cause) := by
  obtain ⟨htrimmed, hbrace, hheader, hpayload, hsignature⟩ := h
  rw [read_of_trimmed htrimmed, readTrimmed, if_neg hbrace, readCompact, toList_joined,
    splitDots_three hheader hpayload hsignature]
  simp only [String.ofList_toList, bind_eq_error_iff, readSegment_eq_ok_iff, pure, Except.pure,
    reduceCtorEq, and_false, exists_false, or_false]

/-- Reading stops where a stage fails, and nowhere else. -/
theorem read_eq_error_iff : Body.read bytes = .error cause ↔ ∃ words, Stops bytes cause words := by
  constructor
  · intro h
    rcases bind_eq_error_iff.1 h with hdecode | ⟨whole, hdecode, -⟩
    · obtain ⟨fault, hfault, rfl⟩ := mapError_eq_error_iff.1 hdecode
      exact ⟨_, .text hfault⟩
    have htrimmed := trimmed?_of_decode (mapError_eq_ok_iff.1 hdecode)
    by_cases hbrace : (Text.trim whole).toList.head? = some '\x7b'
    · rw [read_of_brace htrimmed hbrace] at h
      rcases bind_eq_error_iff.1 h with hclaims | ⟨claims, -, hplain⟩
      · obtain ⟨fault, hfault, rfl⟩ := mapError_eq_error_iff.1 hclaims
        exact ⟨_, .document htrimmed hbrace hfault⟩
      · cases hplain
    by_cases hcount : (Text.trim whole).toList.count '.' = 2
    · obtain ⟨header, payload, signature, hparts⟩ := exists_parts_of_count htrimmed hbrace hcount
      rcases hparts.read_eq_error_iff.1 h with h | ⟨head, hhead, h | ⟨claims, hclaims, h⟩⟩
      · obtain ⟨words, h⟩ := (readSegment_eq_error_iff "header").1 h
        exact ⟨words, .header hparts h⟩
      · obtain ⟨words, h⟩ := (readSegment_eq_error_iff "payload").1 h
        exact ⟨words, .payload hparts hhead h⟩
      · obtain ⟨hnone, rfl⟩ := decodeSegment_eq_error_iff.1 h
        exact ⟨_, .signature hparts hhead hclaims hnone⟩
    · rw [read_of_count htrimmed hbrace hcount] at h
      cases h
      exact ⟨_, .count htrimmed hbrace hcount⟩
  · rintro ⟨words, h⟩
    cases h with
    | text h =>
      exact bind_eq_error_iff.2 (.inl (mapError_eq_error_iff.2 ⟨_, h, rfl⟩))
    | document htrimmed hbrace h =>
      rw [read_of_brace htrimmed hbrace]
      exact bind_eq_error_iff.2 (.inl (mapError_eq_error_iff.2 ⟨_, h, rfl⟩))
    | count htrimmed hbrace h => exact read_of_count htrimmed hbrace h
    | header hparts h =>
      exact hparts.read_eq_error_iff.2 (.inl ((readSegment_eq_error_iff "header").2 ⟨_, h⟩))
    | payload hparts hhead h =>
      have hpayload := (readSegment_eq_error_iff "payload").2 ⟨_, h⟩
      exact hparts.read_eq_error_iff.2 (.inr ⟨_, hhead, .inl hpayload⟩)
    | signature hparts hhead hclaims h =>
      have hstamp : decodeSegment .signature _ = .error (.encoding .signature) :=
        decodeSegment_eq_error_iff.2 ⟨h, rfl⟩
      exact hparts.read_eq_error_iff.2 (.inr ⟨_, hhead, .inr ⟨_, hclaims, hstamp⟩⟩)

/-- A byte string is read as a document if it is one. -/
theorem read_eq_plain_iff {claims : Claims} :
    Body.read bytes = .ok (.plain claims) ↔ IsDocument bytes claims := by
  constructor
  · intro h
    obtain ⟨whole, hdecode, -⟩ := bind_eq_ok_iff.1 h
    have htrimmed := trimmed?_of_decode (mapError_eq_ok_iff.1 hdecode)
    by_cases hbrace : (Text.trim whole).toList.head? = some '\x7b'
    · rw [read_of_brace htrimmed hbrace] at h
      obtain ⟨said, hsaid, hplain⟩ := bind_eq_ok_iff.1 h
      cases hplain
      exact .intro htrimmed hbrace (mapError_eq_ok_iff.1 hsaid)
    · rw [read_of_trimmed htrimmed, readTrimmed, if_neg hbrace] at h
      obtain ⟨_, _, _, _, _, _, _, _, _, _, _, hbody⟩ := readCompact_eq_ok_iff.1 h
      cases hbody
  · rintro ⟨htrimmed, hbrace, hclaims⟩
    rw [read_of_brace htrimmed hbrace]
    exact bind_eq_ok_iff.2 ⟨_, mapError_eq_ok_iff.2 hclaims, rfl⟩

/-! ## Two kinds of bodies -/

/-- What is read as a compact token does not begin like a document. -/
theorem readCompact_ne_ok_of_brace {text : String} (h : text.toList.head? = some '\x7b')
    (body : Body) : readCompact text.toList ≠ .ok body := by
  intro hread
  obtain ⟨header, payload, signature, head, claims, stamp, htext, -, ⟨_, hheader, -⟩,
    ⟨_, hpayload, -⟩, hsignature, -⟩ := readCompact_eq_ok_iff.1 hread
  rw [htext] at h
  exact (of_mem_joined hheader hpayload hsignature (List.mem_of_mem_head? h)).1 rfl

/-- A text without blanks around it begins with what opens the array or the object in it. -/
theorem head?_of_opening? {text : String} (htrim : Text.trim text = text) {b : UInt8}
    (h : (Json.Node.ofTokens (Json.Token.ofText text.toUTF8.data.toList)).1.opening? = some b) :
    text.toList.head? = some (.ofNat b.toNat) := by
  obtain ⟨hopening, spaces, rest, hspaces, hbytes⟩ := Json.opening?_ofText_eq_some_iff.1 h
  have hchars := Text.trimChars_of_trim_eq htrim
  rw [Utf8.toList_toUTF8] at hbytes
  cases hcs : text.toList with
  | nil =>
    rw [hcs] at hbytes
    exact absurd hbytes.symm (List.append_ne_nil_of_right_ne_nil _ (List.cons_ne_nil _ _))
  | cons c cs =>
    rw [hcs, Utf8.encode_cons] at hbytes
    rw [hcs] at hchars
    have hfront := Text.isBlank_eq_false_of_trimChars_eq hchars
    -- The first byte is ASCII, be it what opens the value or white space before it, so that it is
    -- the first character; and no white space is left at the front of a trimmed text.
    have hfirst : ∀ {b : UInt8} {rest : List UInt8}, b < 0x80 →
        String.utf8EncodeChar c ++ Utf8.encode cs = b :: rest → c = .ofNat b.toNat :=
      fun hb h => by rw [← Utf8.toNat_eq_of_encodeChar_append hb h, Char.ofNat_toNat]
    cases spaces with
    | nil =>
      have hascii : b < 0x80 := by rcases List.mem_pair.1 hopening with rfl | rfl <;> decide
      rw [List.head?_cons, hfirst hascii hbytes]
    | cons b spaces =>
      have hspace := hspaces b (List.mem_cons_self ..)
      rw [Json.Token.isSpace, decide_eq_true_eq] at hspace
      rcases hspace with rfl | rfl | rfl | rfl
      all_goals
        rw [hfirst (by decide) hbytes] at hfront
        exact absurd hfront (by decide)

/-- No part of a compact token has a bracket in it. -/
theorem not_spells_of_bracket {part : String} (h : '[' ∈ part.toList) (bytes : ByteArray) :
    ¬Spells part bytes := by
  intro hspells
  rcases exists_digit_of_decodeBase64 (decodeBase64_eq_ok_iff.2 hspells) h with
    hblank | ⟨digit, hdigit, hchar⟩
  · exact absurd hblank (by decide)
  · have hnone : ∀ digit < 64, '[' ≠ Base64Url.char digit := by decide +kernel
    exact hnone digit hdigit hchar

/-- Why a text that begins with a bracket is no compact token: its dots are not two, or else its
    first part is not base64url. -/
def faultOfBracket (text : String) : Malformed :=
  if text.toList.count '.' = 2 then .encoding .header
  else .segmentCount (text.toList.count '.' + 1)

/-- What comes of a byte string whose text is the JSON of claims once the blanks around it are
    gone. -/
inductive Dispatched (bytes : ByteArray) (text : String) (claims : Claims) : Prop where
  /-- An object is a document. -/
  | object (holds : Json.HoldsObject text.toUTF8.data.toList) (h : IsDocument bytes claims) :
      Dispatched bytes text claims
  /-- An array of the claims in their order is none, although it is read like the object. It is
      looked at as a compact token, which it is not either. -/
  | array {items : List Json.Node} {words : String}
      (holds : Json.Node.ofTokens (Json.Token.ofText text.toUTF8.data.toList) =
        (.array items .closed, false))
      (bracket : text.toList.head? = some '[')
      (h : Stops bytes (faultOfBracket text) words) : Dispatched bytes text claims

/-- A text that begins with a bracket is refused. -/
theorem exists_stops_of_bracket {text : String} (htrimmed : trimmed? bytes = some text)
    (hbracket : text.toList.head? = some '[') :
    ∃ words, Stops bytes (faultOfBracket text) words := by
  have hbrace : text.toList.head? ≠ some '\x7b' := by
    rw [hbracket]
    decide
  rw [faultOfBracket]
  split
  · next hcount =>
    obtain ⟨header, payload, signature, hparts⟩ := exists_parts_of_count htrimmed hbrace hcount
    obtain rfl := Option.some.inj (htrimmed.symm.trans hparts.trimmed)
    have hmem : '[' ∈ header.toList := by
      rw [toList_joined] at hbracket
      cases hheader : header.toList with
      | nil =>
        rw [hheader, List.nil_append, List.head?_cons] at hbracket
        exact absurd hbracket (by decide)
      | cons c cs =>
        rw [hheader, List.cons_append, List.head?_cons, Option.some.injEq] at hbracket
        exact hbracket ▸ List.mem_cons_self
    exact ⟨_, .header hparts (.encoding (not_spells_of_bracket hmem))⟩
  · next hcount => exact ⟨_, .count htrimmed hbrace hcount⟩

/-- A text that is the JSON of claims is an object, or else an array. -/
theorem dispatched {text : String} {claims : Claims} (htrimmed : trimmed? bytes = some text)
    (hclaims : Json.parse Claims.record.read text.toUTF8.data.toList = .ok claims) :
    Dispatched bytes text claims := by
  obtain ⟨node, hnode, hread⟩ := Json.parse_eq_ok_iff.1 hclaims
  obtain ⟨whole, -, htrim⟩ := Option.map_eq_some_iff.1 htrimmed
  have hhead : ∀ {b : UInt8}, node.opening? = some b →
      text.toList.head? = some (.ofNat b.toNat) := fun hopening => by
    refine head?_of_opening? (htrim ▸ Text.trim_trim whole) ?_
    rw [hnode]
    exact hopening
  cases ((Json.Record.read_eq_ok_iff (by decide)).1 hread).fits with
  | object =>
    refine .object ?_ (.intro htrimmed (hhead rfl) hclaims)
    rw [Json.HoldsObject, hnode]
    rfl
  | array =>
    obtain ⟨words, hstops⟩ := exists_stops_of_bracket htrimmed (hhead rfl)
    exact .array hnode (hhead rfl) hstops

end Body

/-! ## Tokens -/

namespace Token

/-- What comes of a byte string, and what the verifier, if there is one, has been shown on the
    way. -/
inductive Staged (verifier : Option Verifier) (bytes : ByteArray) :
    Except Error Token → List Check → Prop where
  /-- A stage fails before there is anything to decide on. -/
  | malformed {cause : Malformed} {words : String} (h : Body.Stops bytes cause words) :
      Staged verifier bytes (.error (.malformedToken cause)) []
  /-- A document has no header, and nobody is asked about it. -/
  | document {claims : Claims} (h : Body.IsDocument bytes claims) :
      Staged verifier bytes (.ok ⟨none, claims⟩) []
  /-- There is nobody to ask about a compact token. -/
  | unchecked {check : Check} {claims : Claims} (hnone : verifier = none)
      (h : Body.IsToken bytes check claims) :
      Staged verifier bytes (.ok ⟨some check.header, claims⟩) []
  /-- The verifier accepts a compact token. -/
  | accepted {verify : Verifier} {check : Check} {claims : Claims} (hsome : verifier = some verify)
      (h : Body.IsToken bytes check claims) (hverify : verify check = .ok ()) :
      Staged verifier bytes (.ok ⟨some check.header, claims⟩) [check]
  /-- The verifier refuses a compact token, and that is the answer. -/
  | refused {verify : Verifier} {check : Check} {claims : Claims} {refusal : Error}
      (hsome : verifier = some verify) (h : Body.IsToken bytes check claims)
      (hverify : verify check = .error refusal) :
      Staged verifier bytes (.error refusal) [check]

variable {verifier : Option Verifier} {bytes : ByteArray}

/-- A byte string goes through the stages, and there is nothing else that comes of it. -/
theorem readLogged_eq_iff {answer : Except Error Token} {checks : List Check} :
    readLogged verifier bytes = (answer, checks) ↔ Staged verifier bytes answer checks := by
  constructor
  · rintro h
    cases hbody : Body.read bytes with
    | error cause =>
      obtain ⟨words, hstops⟩ := Body.read_eq_error_iff.1 hbody
      rw [readLogged, hbody] at h
      cases h
      exact .malformed hstops
    | ok body =>
      cases body with
      | plain claims =>
        rw [readLogged, hbody] at h
        cases h
        exact .document (Body.read_eq_plain_iff.1 hbody)
      | compact check claims =>
        have htoken := Body.read_eq_compact_iff.1 hbody
        cases verifier with
        | none =>
          rw [readLogged, hbody] at h
          cases h
          exact .unchecked rfl htoken
        | some verify =>
          rw [readLogged_of_isToken htoken] at h
          cases hverify : verify check with
          | ok =>
            rw [hverify] at h
            cases h
            exact .accepted rfl htoken hverify
          | error refusal =>
            rw [hverify] at h
            cases h
            exact .refused rfl htoken hverify
  · rintro (hstops | hdocument | ⟨rfl, htoken⟩ | ⟨rfl, htoken, hverify⟩ | ⟨rfl, htoken, hverify⟩)
    · rw [readLogged, Body.read_eq_error_iff.2 ⟨_, hstops⟩]
    · rw [readLogged, Body.read_eq_plain_iff.2 hdocument]
      rfl
    · rw [readLogged, Body.read_eq_compact_iff.2 htoken]
      rfl
    · rw [readLogged_of_isToken htoken, hverify]
      rfl
    · rw [readLogged_of_isToken htoken, hverify]
      rfl

/-- Blanks around a text make no difference to what comes of it. -/
theorem readLogged_between_blanks (verifier : Option Verifier) {before after : String}
    (hbefore : ∀ c ∈ before.toList, isBlank c = true)
    (hafter : ∀ c ∈ after.toList, isBlank c = true) (text : String) :
    readLogged verifier (before ++ text ++ after).toUTF8 = readLogged verifier text.toUTF8 := by
  have hbody : Body.read (before ++ text ++ after).toUTF8 = Body.read text.toUTF8 := by
    rw [Body.read, Body.read, Utf8.decode_toUTF8, Utf8.decode_toUTF8]
    simp only [Except.mapError, bind, Except.bind]
    rw [String.toList_append, String.toList_append, Text.trimChars_append_right hafter,
      Text.trimChars_append_left hbefore]
  rw [readLogged, readLogged, hbody]

/-- A byte string goes through the stages; the first that fails is told in its own words, and if
    none does the verifier has the last. What begins like a document is no compact token, so that
    reading it as a document refuses nothing that the other way of reading would have taken. The
    other way round that is so of objects alone: a text that is the JSON of claims is a document
    if it holds an object, but an array of the claims in their order is refused, although it would
    be read as a document if it were tried. Blanks around a text make no difference. -/
theorem readLogged_staged :
    (∀ (verifier : Option Verifier) (bytes : ByteArray) (answer : Except Error Token)
      (checks : List Check),
      readLogged verifier bytes = (answer, checks) ↔ Staged verifier bytes answer checks) ∧
    (∀ (bytes : ByteArray) (cause : Malformed) (words : String), Body.Stops bytes cause words →
      (Error.malformedToken cause).message = "malformed status list token: " ++ words) ∧
    (∀ text : String, text.toList.head? = some '\x7b' →
      ∀ body, Body.readCompact text.toList ≠ .ok body) ∧
    (∀ (bytes : ByteArray) (text : String) (claims : Claims), Body.trimmed? bytes = some text →
      Json.parse Claims.record.read text.toUTF8.data.toList = .ok claims →
        Body.Dispatched bytes text claims) ∧
    (∀ (verifier : Option Verifier) (before text after : String),
      (∀ c ∈ before.toList, isBlank c = true) → (∀ c ∈ after.toList, isBlank c = true) →
        readLogged verifier (before ++ text ++ after).toUTF8 =
          readLogged verifier text.toUTF8) := by
  refine ⟨fun _ _ _ _ => readLogged_eq_iff, ?_, fun _ => Body.readCompact_ne_ok_of_brace,
    fun _ _ _ => Body.dispatched,
    fun verifier _ text _ hbefore hafter => readLogged_between_blanks verifier hbefore hafter text⟩
  intro bytes cause words h
  rw [← h.message_eq]
  rfl

/-- Two parts where there should be three, a brace with two dots after it, a document between
    blanks, and an array of claims with two dots in one of its strings. -/
theorem readLogged_staged_of_short_bodies :
    let claims : Claims := ⟨"i", "s", 1, none, none, ⟨.one, "eNrbuRgAAhcBXQ", none⟩⟩
    let text := claims.toJson.compact
    let array := "[\"i..\",\"s\",1,null,null,[1,\"eNrbuRgAAhcBXQ\"]]"
    Body.Stops "a.b".toUTF8 (.segmentCount 2) "expected 3 segments, found 2" ∧
    (Error.malformedToken (.segmentCount 2)).message =
      "malformed status list token: " ++ "expected 3 segments, found 2" ∧
    (∀ body, Body.readCompact "\x7b..".toList ≠ .ok body) ∧
    Body.trimmed? text.toUTF8 = some text ∧
    Json.parse Claims.record.read text.toUTF8.data.toList = .ok claims ∧
    Body.Dispatched text.toUTF8 text claims ∧
    Body.Dispatched array.toUTF8 array { claims with iss := "i.." } ∧
    readLogged none (" " ++ text ++ "\n").toUTF8 = readLogged none text.toUTF8 ∧
    readLogged none text.toUTF8 = (.ok ⟨none, claims⟩, []) := by
  intro claims text array
  obtain ⟨hstaged, hmessage, hcompact, hdispatched, hblanks⟩ := readLogged_staged
  have hstops : Body.Stops "a.b".toUTF8 (.segmentCount 2) "expected 3 segments, found 2" :=
    .count (Body.trimmed?_of_decode (Utf8.decode_toUTF8 "a.b")) (by decide) (by decide)
  have htrimmed : Body.trimmed? text.toUTF8 = some text := by
    rw [Body.trimmed?_of_decode (Utf8.decode_toUTF8 text)]
    decide +kernel
  have hdocument := hdispatched _ _ _ htrimmed claims.parse_compact
  have harray : Body.trimmed? array.toUTF8 = some array := by
    rw [Body.trimmed?_of_decode (Utf8.decode_toUTF8 array)]
    decide +kernel
  have hread : Json.parse Claims.record.read array.toUTF8.data.toList =
      .ok { claims with iss := "i.." } := by
    cbv
  have hisDocument : Body.IsDocument text.toUTF8 claims := by
    cases hdocument with
    | object _ h => exact h
    | array _ bracket => exact absurd bracket (by decide +kernel)
  exact ⟨hstops, hmessage _ _ _ hstops, hcompact _ (by decide), htrimmed, claims.parse_compact,
    hdocument, hdispatched _ _ _ harray hread,
    hblanks none " " text "\n" (List.forall_mem_singleton.2 (by decide))
      (List.forall_mem_singleton.2 (by decide)),
    (hstaged none _ _ _).2 (.document hisDocument)⟩

/-- An array of claims by itself is read by the reader of claims, and yet it is refused, whoever
    would be asked about it. So it is not true that the JSON of claims is always accepted. -/
theorem bare_array_is_refused :
    let text := "[\"i\",\"s\",1,null,null,\x7b\"bits\":1,\"lst\":\"eNrbuRgAAhcBXQ\"\x7d]"
    let claims : Claims := ⟨"i", "s", 1, none, none, ⟨.one, "eNrbuRgAAhcBXQ", none⟩⟩
    Body.trimmed? text.toUTF8 = some text ∧
    Json.parse Claims.record.read text.toUTF8.data.toList = .ok claims ∧
    (∀ verifier,
      readLogged verifier text.toUTF8 = (.error (.malformedToken (.segmentCount 1)), [])) ∧
    ¬∀ (bytes : ByteArray) (text : String) (claims : Claims), Body.trimmed? bytes = some text →
      Json.parse Claims.record.read text.toUTF8.data.toList = .ok claims →
        read none bytes = .ok ⟨none, claims⟩ := by
  intro text claims
  have htrimmed : Body.trimmed? text.toUTF8 = some text := by
    rw [Body.trimmed?_of_decode (Utf8.decode_toUTF8 text)]
    decide +kernel
  have hread : Json.parse Claims.record.read text.toUTF8.data.toList = .ok claims := by cbv
  have hcount : text.toList.count '.' = 0 := by decide
  have hstops := Body.Stops.count htrimmed (by decide) (by rw [hcount]; decide)
  rw [hcount] at hstops
  have hrefused : ∀ verifier,
      readLogged verifier text.toUTF8 = (.error (.malformedToken (.segmentCount 1)), []) :=
    fun verifier => readLogged_eq_iff.2 (.malformed hstops)
  refine ⟨htrimmed, hread, hrefused, fun haccepted => ?_⟩
  have hok := haccepted _ _ _ htrimmed hread
  rw [read, hrefused none] at hok
  cases hok

end Token

end StatusList
