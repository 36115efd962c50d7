import StatusList.Proofs.Verifiers

/-!
# Plain and compact bodies

A document can be published as it is, and as the payload of a compact token. The two are read in
ways that have little in common: the one is trimmed and read as a whole, the other cut at its
dots and decoded first. They lead to the same claims and the same document all the same, or are
both refused for the same fault (`Body.read_plain`, `Body.exists_read_of_wraps`,
`Token.ReadAlike`).

Of the claims only one has a part in the document (`Token.toDocument_congr`), so that two bodies
that agree in it have the same document, whoever issued them and when, and whether they hold or
not (`Token.document_of_list_claim`).
-/

namespace StatusList

open Text (isBlank isAsciiBlank trimChars)

/-- What is read as base64url has no dots and no braces in it, and no blanks but ASCII blanks. -/
theorem of_mem_of_decodeBase64 {text : String} {bytes : ByteArray}
    (h : decodeBase64 text = .ok bytes) {c : Char} (hc : c ∈ text.toList) :
    c ≠ '.' ∧ c ≠ '\x7b' ∧ (isBlank c = true → isAsciiBlank c = true) := by
  rcases exists_digit_of_decodeBase64 h hc with hblank | ⟨digit, hdigit, rfl⟩
  · refine ⟨?_, ?_, fun _ => hblank⟩
    · rintro rfl
      exact absurd hblank (by decide)
    · rintro rfl
      exact absurd hblank (by decide)
  · obtain ⟨hdot, hbrace⟩ := Base64Url.char_ne hdigit
    refine ⟨hdot, hbrace, fun hblank => ?_⟩
    rw [Base64Url.isBlank_char hdigit] at hblank
    cases hblank

namespace Body

/-- A text begins like a document, and there are no blanks around it. -/
structure IsPlain (text : String) : Prop where
  brace : text.toList.head? = some '\x7b'
  trimmed : Text.trim text = text

/-- A compact token has a text for its payload, and nothing is wrong with its other parts: one
    says the header, the other is the signature. -/
inductive Wraps (text : String) (head : Header) (stamp : ByteArray) : String → Prop where
  | intro {header payload signature : String} (saysHeader : Says Header.record.read header head)
      (spells : decodeBase64 payload = .ok text.toUTF8)
      (decodes : decodeBase64 signature = .ok stamp) :
      Wraps text head stamp (header ++ "." ++ payload ++ "." ++ signature)

variable {text token : String} {head : Header} {stamp : ByteArray}

/-- A text that begins like a document is read as a whole. -/
theorem read_plain (h : IsPlain text) :
    Body.read text.toUTF8 =
      ((Json.parse Claims.record.read text.toUTF8.data.toList).map .plain).mapError .document := by
  have htrim := Text.trimChars_of_trim_eq h.trimmed
  rw [Body.read, Utf8.decode_toUTF8]
  simp only [Except.mapError, bind, Except.bind, htrim, readTrimmed, if_pos h.brace,
    String.ofList_toList]
  cases Json.parse Claims.record.read text.toUTF8.data.toList <;> rfl

/-- A part that is a text with ASCII blanks put in or left out is read as the text is. -/
theorem decodeBase64_of_filter_eq {part : List Char} {segment : String} {bytes : ByteArray}
    (h : part.filter counts = segment.toList.filter counts)
    (hsegment : decodeBase64 segment = .ok bytes) : decodeBase64 (.ofList part) = .ok bytes := by
  rw [← hsegment]
  exact decodeBase64_congr (by rw [String.toList_ofList]; exact h)

theorem dot_not_mem_of_decodeBase64 {segment : String} {bytes : ByteArray}
    (h : decodeBase64 segment = .ok bytes) : '.' ∉ segment.toList.filter counts :=
  fun hmem => (of_mem_of_decodeBase64 h (List.mem_of_mem_filter hmem)).1 rfl

section

variable {header payload signature : String} {first second : ByteArray}
  (hheader : decodeBase64 header = .ok first) (hpayload : decodeBase64 payload = .ok second)
  (hsignature : decodeBase64 signature = .ok stamp)

include hheader hpayload hsignature

/-- Three parts that are read as base64url have no brace in them when they are put together, and
    no blanks but ASCII blanks. -/
theorem of_mem_joined {c : Char} (hc : c ∈ (header ++ "." ++ payload ++ "." ++ signature).toList) :
    c ≠ '\x7b' ∧ (isBlank c = true → isAsciiBlank c = true) := by
  rw [toList_joined, List.mem_append, List.mem_cons, List.mem_append, List.mem_cons] at hc
  rcases hc with hc | rfl | hc | rfl | hc
  · exact (of_mem_of_decodeBase64 hheader hc).2
  · decide
  · exact (of_mem_of_decodeBase64 hpayload hc).2
  · decide
  · exact (of_mem_of_decodeBase64 hsignature hc).2

/-- Trimming takes nothing but ASCII blanks off the first and the last part. -/
theorem filter_trimChars_joined :
    (trimChars (header ++ "." ++ payload ++ "." ++ signature).toList).filter counts =
      header.toList.filter counts ++ '.' ::
        (payload.toList.filter counts ++ '.' :: signature.toList.filter counts) := by
  have hblank : ∀ c ∈ (header ++ "." ++ payload ++ "." ++ signature).toList,
      isBlank c = true → counts c = false := fun c hc hblank => by
    rw [counts, (of_mem_joined hheader hpayload hsignature hc).2 hblank]
    rfl
  have hdot : counts '.' = true := by decide
  rw [Text.filter_trimChars hblank, toList_joined, List.filter_append,
    List.filter_cons_of_pos hdot, List.filter_append, List.filter_cons_of_pos hdot]

/-- Where the first and the last part are in order, it is the payload that decides how a text
    with these three parts is read, whatever ASCII blanks are put into it or left out. -/
theorem exists_readCompact_of_filter (hhead : Json.parse Header.record.read first.data.toList =
    .ok head) {cs : List Char} (h : cs.filter counts = header.toList.filter counts ++ '.' ::
      (payload.toList.filter counts ++ '.' :: signature.toList.filter counts)) :
    ∃ input, readCompact cs =
      ((Json.parse Claims.record.read second.data.toList).map
        (.compact ⟨head, input, stamp⟩)).mapError (.content .payload) := by
  obtain ⟨a, b, c, -, hparts, -, ha, hb, hc⟩ := exists_three_parts h
    (dot_not_mem_of_decodeBase64 hheader) (dot_not_mem_of_decodeBase64 hpayload)
    (dot_not_mem_of_decodeBase64 hsignature)
  have hsegment : readSegment .header Header.record.read (.ofList a) = .ok head :=
    readSegment_eq_ok_iff.2 ⟨first, decodeBase64_of_filter_eq ha hheader, hhead⟩
  have hclaims : readSegment .payload Claims.record.read (.ofList b) =
      (Json.parse Claims.record.read second.data.toList).mapError (.content .payload) := by
    rw [readSegment, decodeSegment, decodeBase64_of_filter_eq hb hpayload]
    rfl
  have hstamp : decodeSegment .signature (.ofList c) = .ok stamp :=
    decodeSegment_eq_ok_iff.2 (decodeBase64_of_filter_eq hc hsignature)
  refine ⟨(String.ofList a ++ "." ++ String.ofList b).toUTF8, ?_⟩
  simp only [readCompact, hparts, hsegment, hclaims, hstamp, bind, Except.bind, pure, Except.pure]
  cases Json.parse Claims.record.read second.data.toList <;> rfl

end

/-- Of a compact token the payload is read, and that like a text by itself. -/
theorem exists_read_of_wraps (h : Wraps text head stamp token) :
    ∃ input, Body.read token.toUTF8 =
      ((Json.parse Claims.record.read text.toUTF8.data.toList).map
        (.compact ⟨head, input, stamp⟩)).mapError (.content .payload) := by
  obtain @⟨header, payload, signature, ⟨first, hheader, hhead⟩, hpayload, hsignature⟩ := h
  have hbrace : (trimChars (header ++ "." ++ payload ++ "." ++ signature).toList).head? ≠
      some '\x7b' := by
    intro hbegins
    have hmem := Text.mem_of_mem_trimChars (List.mem_of_mem_head? hbegins)
    exact (of_mem_joined hheader hpayload hsignature hmem).1 rfl
  obtain ⟨input, hread⟩ := exists_readCompact_of_filter hheader hpayload hsignature hhead
    (filter_trimChars_joined hheader hpayload hsignature)
  refine ⟨input, ?_⟩
  rw [← hread, Body.read, Utf8.decode_toUTF8]
  exact if_neg hbrace

end Body

/-! ## Tokens -/

namespace Token

/-- Whoever decides on a compact token accepts what he is shown of it. -/
def Accepts (verifier : Option Verifier) (bytes : ByteArray) : Prop :=
  ∀ verify ∈ verifier, ∀ check ∈ (readLogged verifier bytes).2, verify check = .ok ()

/-- How a text by itself and a compact token with this text are read. -/
inductive ReadAlike (verifier : Option Verifier) (plain compact : ByteArray) (head : Header) :
    Prop where
  /-- Both are read, with the same claims, and come to the same document, if to any. -/
  | read {claims : Claims} (hplain : read verifier plain = .ok ⟨none, claims⟩)
    (hcompact : read verifier compact = .ok ⟨some head, claims⟩)
    (hdocument : Document.read verifier plain = Document.read verifier compact) :
    ReadAlike verifier plain compact head
  /-- Both are malformed, for the same fault, and come to no document. -/
  | malformed {fault : Json.Fault}
    (hplain : read verifier plain = .error (.malformedToken (.document fault)) ∧
      Document.read verifier plain = .error (.malformedToken (.document fault)))
    (hcompact : read verifier compact = .error (.malformedToken (.content .payload fault)) ∧
      Document.read verifier compact = .error (.malformedToken (.content .payload fault))) :
    ReadAlike verifier plain compact head

theorem toDocument_congr {token token' : Token}
    (h : token.claims.statusList = token'.claims.statusList) :
    token.toDocument = token'.toDocument := by
  rw [toDocument, toDocument, h]

theorem document_read_of_read {verifier : Option Verifier} {bytes : ByteArray} {token : Token}
    (h : read verifier bytes = .ok token) : Document.read verifier bytes = token.toDocument := by
  rw [Document.read, h]
  rfl

/-- Only the list claim has a part in the document of a body. -/
theorem document_of_list_claim {verifier verifier' : Option Verifier} {bytes bytes' : ByteArray}
    {token token' : Token} (h : read verifier bytes = .ok token)
    (h' : read verifier' bytes' = .ok token')
    (hclaim : token.claims.statusList = token'.claims.statusList) :
    Document.read verifier bytes = Document.read verifier' bytes' := by
  rw [document_read_of_read h, document_read_of_read h', toDocument_congr hclaim]

theorem read_of_body_error {bytes : ByteArray} {cause : Malformed}
    (h : Body.read bytes = .error cause) (verifier : Option Verifier) :
    read verifier bytes = .error (.malformedToken cause) ∧
      Document.read verifier bytes = .error (.malformedToken cause) := by
  have hread : read verifier bytes = .error (.malformedToken cause) := by rw [read, readLogged, h]
  refine ⟨hread, ?_⟩
  rw [Document.read, hread]
  rfl

theorem read_of_accepts {verifier : Option Verifier} {bytes : ByteArray} {check : Check}
    {claims : Claims} (h : Body.read bytes = .ok (.compact check claims))
    (haccepts : Accepts verifier bytes) :
    read verifier bytes = .ok ⟨some check.header, claims⟩ := by
  cases verifier with
  | none =>
    rw [read, readLogged, h]
    rfl
  | some verify =>
    have hlog := readLogged_of_isToken (Body.read_eq_compact_iff.1 h) verify
    have hverify : verify check = .ok () :=
      haccepts verify rfl check (by rw [hlog]; exact List.mem_singleton_self check)
    rw [read, hlog, hverify]
    rfl

/-- A text by itself and a compact token with this text are read alike, if the token is
    accepted. -/
theorem readAlike_of_wraps {text token : String} {head : Header} {stamp : ByteArray}
    {verifier : Option Verifier} (hplain : Body.IsPlain text)
    (hwraps : Body.Wraps text head stamp token) (haccepts : Accepts verifier token.toUTF8) :
    ReadAlike verifier text.toUTF8 token.toUTF8 head := by
  have hbody := Body.read_plain hplain
  obtain ⟨input, hbody'⟩ := Body.exists_read_of_wraps hwraps
  cases hparse : Json.parse Claims.record.read text.toUTF8.data.toList with
  | ok claims =>
    rw [hparse] at hbody hbody'
    have hread : read verifier text.toUTF8 = .ok ⟨none, claims⟩ := by
      rw [read, readLogged, hbody]
      rfl
    have hread' := read_of_accepts hbody' haccepts
    exact .read hread hread' (document_of_list_claim hread hread' rfl)
  | error fault =>
    rw [hparse] at hbody hbody'
    exact .malformed (read_of_body_error hbody verifier) (read_of_body_error hbody' verifier)

/-- A text by itself and a compact token with this text are read alike, if the token is
    accepted; and any two bodies with the same list claim come to the same document. -/
theorem plain_and_compact_agree :
    (∀ (text token : String) (head : Header) (stamp : ByteArray) (verifier : Option Verifier),
      Body.IsPlain text → Body.Wraps text head stamp token → Accepts verifier token.toUTF8 →
        ReadAlike verifier text.toUTF8 token.toUTF8 head) ∧
    (∀ (verifier verifier' : Option Verifier) (bytes bytes' : ByteArray) (token token' : Token),
      read verifier bytes = .ok token → read verifier' bytes' = .ok token' →
        token.claims.statusList = token'.claims.statusList →
          Document.read verifier bytes = Document.read verifier' bytes') :=
  ⟨fun _ _ _ _ _ => readAlike_of_wraps, fun _ _ _ _ _ _ => document_of_list_claim⟩

/-- A document, a compact token that has it for its payload, and a document of another issuer
    that has expired, all with one list. -/
theorem plain_and_compact_with_one_list_agree :
    let claims : Claims := ⟨"i", "s", 1, none, none, ⟨.one, "eNrbuRgAAhcBXQ", none⟩⟩
    let other : Claims := ⟨"j", "s", 1, some 2, none, ⟨.one, "eNrbuRgAAhcBXQ", none⟩⟩
    let head : Header := ⟨"ES256", none, none⟩
    let token := compact head claims "sig".toUTF8
    let verify : Verifier := fun check =>
      if check.header = head then .ok () else .error (.signatureRejected "unknown")
    Body.Wraps claims.toJson.compact head "sig".toUTF8 token ∧
    ReadAlike (some verify) claims.toJson.compact.toUTF8 token.toUTF8 head ∧
    read none other.toJson.compact.toUTF8 = .ok ⟨none, other⟩ ∧
    Document.read (some verify) claims.toJson.compact.toUTF8 =
      Document.read none other.toJson.compact.toUTF8 := by
  intro claims other head token verify
  have hplain : Body.IsPlain claims.toJson.compact := ⟨by decide +kernel, by decide +kernel⟩
  have hother : Body.IsPlain other.toJson.compact := ⟨by decide +kernel, by decide +kernel⟩
  have hwraps : Body.Wraps claims.toJson.compact head "sig".toUTF8 token :=
    .intro ⟨_, decodeBase64_encodeBase64 _, head.parse_compact⟩ (decodeBase64_encodeBase64 _)
      (decodeBase64_encodeBase64 _)
  have haccepts : Accepts (some verify) token.toUTF8 := by
    intro verify' hverify check hcheck
    obtain rfl := Option.some.inj hverify
    have haccept : ∀ verify' ∈ some verify, verify' (checkOf head "sig".toUTF8 token) = .ok () :=
      fun verify' h => Option.some.inj h ▸ if_pos rfl
    have hlog := readLogged_of_spaced head claims "sig".toUTF8 (spaced_compact ..) haccept
    rw [hlog] at hcheck
    obtain rfl := List.mem_singleton.1 hcheck
    exact if_pos rfl
  have hread : read (some verify) claims.toJson.compact.toUTF8 = .ok ⟨none, claims⟩ := by
    rw [read, readLogged, Body.read_plain hplain, claims.parse_compact]
    rfl
  have hread' : read none other.toJson.compact.toUTF8 = .ok ⟨none, other⟩ := by
    rw [read, readLogged, Body.read_plain hother, other.parse_compact]
    rfl
  exact ⟨hwraps, plain_and_compact_agree.1 _ _ _ _ _ hplain hwraps haccepts, hread',
    plain_and_compact_agree.2 _ _ _ _ _ _ hread hread' rfl⟩

end Token

end StatusList
