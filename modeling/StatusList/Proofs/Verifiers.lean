import StatusList.Proofs.CompactTokens

/-!
# Verifiers

A verifier stands between a compact token and whoever reads it. It is asked at most once, and
only about a body in which everything else is in order; nothing is read as a compact token
that it has not accepted, and where it refuses, its refusal is what the reader gets, word for
word. A body that begins like a document never gets to it (`Token.readLogged_gated`).

What it was shown settles what is read: two bodies with the same signing input are read as
the same token, whatever their signatures and the blanks around them are
(`Token.eq_of_signingInput_eq`), because no part of a token has a dot in it, so that header and
payload are found again in the signing input (`Body.IsToken.eq_of_same_input`).

Both rest on what a compact token is, apart from how one is read: text in three parts, each
of which says something (`Body.IsToken`, `Body.read_eq_compact_iff`).
-/

namespace StatusList

open Text (trimChars)

namespace Body

/-! ## Parts and back -/

/-- The parts of a text, put together again with dots between them, are the text, and no dot
    is left in any of them. -/
theorem exists_splitDots (done : List (List Char)) (current text : List Char) :
    ∃ first rest, splitDots done current text =
        done.reverse ++ (current.reverse ++ first) :: rest ∧
      ['.'].intercalate (first :: rest) = text ∧ ∀ part ∈ first :: rest, '.' ∉ part := by
  -- `first` is what the text adds to the part that has been begun, so that it is the first
  -- part of the text itself, and the parts that are done stay as they are.
  induction text generalizing done current with
  | nil => exact ⟨[], [], by simp [splitDots], rfl, by simp⟩
  | cons c text ih =>
    rw [splitDots]
    split
    · next hc =>
      obtain ⟨first, rest, hsplit, hjoin, hdots⟩ := ih (current.reverse :: done) []
      refine ⟨[], first :: rest, ?_, ?_, List.forall_mem_cons.2 ⟨List.not_mem_nil, hdots⟩⟩
      · simp [hsplit]
      · rw [List.intercalate_cons_cons, hjoin, hc, List.nil_append, List.singleton_append]
    · next hc =>
      obtain ⟨first, rest, hsplit, hjoin, hdots⟩ := ih done (c :: current)
      obtain ⟨hfirst, hrest⟩ := List.forall_mem_cons.1 hdots
      refine ⟨c :: first, rest, ?_, ?_, List.forall_mem_cons.2 ⟨?_, hrest⟩⟩
      · simp [hsplit]
      · rw [← hjoin]
        cases rest with
        | nil => rw [List.intercalate_singleton, List.intercalate_singleton]
        | cons part rest =>
          rw [List.intercalate_cons_cons, List.intercalate_cons_cons, List.cons_append,
            List.cons_append]
      · simp [hfirst, Ne.symm hc]

/-- A text has three parts if there are two dots in it, with the parts around them. -/
theorem splitDots_eq_three_iff {text a b c : List Char} :
    splitDots [] [] text = [a, b, c] ↔
      text = a ++ '.' :: (b ++ '.' :: c) ∧ '.' ∉ a ∧ '.' ∉ b ∧ '.' ∉ c := by
  constructor
  · intro h
    obtain ⟨first, rest, hsplit, hjoin, hdots⟩ := exists_splitDots [] [] text
    have hparts : first :: rest = [a, b, c] := hsplit.symm.trans h
    rw [hparts] at hjoin hdots
    refine ⟨?_, ?_⟩
    · rw [← hjoin, List.intercalate_cons_cons, List.intercalate_cons_cons,
        List.intercalate_singleton]
      simp only [List.append_assoc, List.singleton_append]
    · simpa only [List.forall_mem_cons, List.not_mem_nil, false_implies, implies_true,
        and_true] using hdots
  · rintro ⟨rfl, ha, hb, hc⟩
    exact splitDots_three ha hb hc

/-! ## What a compact token is -/

/-- The text of a byte string, if it is text, without the blanks around it. -/
def trimmed? (bytes : ByteArray) : Option String := (Utf8.decode bytes).toOption.map Text.trim

/-- A part is the base64url of JSON that is read as a value. -/
def Says {α : Type} (reader : Json.Reader α) (part : String) (value : α) : Prop :=
  ∃ bytes, decodeBase64 part = .ok bytes ∧ Json.parse reader bytes.data.toList = .ok value

/-- A byte string is a compact token with some claims, and a check is what there is to decide
    on: without the blanks around it, it does not begin like a document and has three parts,
    of which the first says the header and the second the claims, and the third is the
    signature. The signing input is the first two as they were sent. -/
inductive IsToken (bytes : ByteArray) : Check → Claims → Prop where
  | intro {header payload signature : String} {head : Header} {claims : Claims}
      {stamp : ByteArray}
      (trimmed : trimmed? bytes = some (header ++ "." ++ payload ++ "." ++ signature))
      (noBrace : (header ++ "." ++ payload ++ "." ++ signature).toList.head? ≠ some '\x7b')
      (noDot : '.' ∉ header.toList ∧ '.' ∉ payload.toList ∧ '.' ∉ signature.toList)
      (saysHeader : Says Header.record.read header head)
      (saysClaims : Says Claims.record.read payload claims)
      (decodes : decodeBase64 signature = .ok stamp) :
      IsToken bytes ⟨head, (header ++ "." ++ payload).toUTF8, stamp⟩ claims

theorem trimmed?_eq_some_iff {bytes : ByteArray} {trimmed : String} :
    trimmed? bytes = some trimmed ↔
      ∃ text, Utf8.decode bytes = .ok text ∧ trimChars text.toList = trimmed.toList := by
  have htrim : ∀ text, Text.trim text = trimmed ↔ trimChars text.toList = trimmed.toList :=
    fun text => by rw [Text.trim, ← String.toList_inj, String.toList_ofList]
  rw [trimmed?]
  cases Utf8.decode bytes with
  | error fault => simp [Except.toOption]
  | ok text => simp [Except.toOption, htrim]

theorem toList_joined (header payload signature : String) :
    (header ++ "." ++ payload ++ "." ++ signature).toList =
      header.toList ++ '.' :: (payload.toList ++ '.' :: signature.toList) := by
  simp only [String.toList_append, List.append_assoc, toList_dot, List.cons_append,
    List.nil_append]

theorem decodeSegment_eq_ok_iff {segment : Segment} {part : String} {bytes : ByteArray} :
    decodeSegment segment part = .ok bytes ↔ decodeBase64 part = .ok bytes :=
  mapError_eq_ok_iff

theorem readSegment_eq_ok_iff {α : Type} {segment : Segment} {reader : Json.Reader α}
    {part : String} {value : α} :
    readSegment segment reader part = .ok value ↔ Says reader part value := by
  simp only [readSegment, bind_eq_ok_iff, decodeSegment_eq_ok_iff, mapError_eq_ok_iff, Says]

/-- A text is read as a compact token if it has three parts that say what belongs there. -/
theorem readCompact_eq_ok_iff {cs : List Char} {body : Body} :
    readCompact cs = .ok body ↔
      ∃ header payload signature : String, ∃ head claims stamp,
        cs = (header ++ "." ++ payload ++ "." ++ signature).toList ∧
        ('.' ∉ header.toList ∧ '.' ∉ payload.toList ∧ '.' ∉ signature.toList) ∧
        Says Header.record.read header head ∧ Says Claims.record.read payload claims ∧
        decodeBase64 signature = .ok stamp ∧
        .compact ⟨head, (header ++ "." ++ payload).toUTF8, stamp⟩ claims = body := by
  constructor
  · intro h
    rw [readCompact] at h
    split at h
    · next a b c hparts =>
      obtain ⟨hcs, hdots⟩ := splitDots_eq_three_iff.1 hparts
      simp only [bind_eq_ok_iff, readSegment_eq_ok_iff, decodeSegment_eq_ok_iff, pure,
        Except.pure, Except.ok.injEq] at h
      obtain ⟨head, hhead, claims, hclaims, stamp, hstamp, hbody⟩ := h
      refine ⟨.ofList a, .ofList b, .ofList c, head, claims, stamp, ?_, ?_, hhead, hclaims, hstamp,
        hbody⟩
      · simpa only [toList_joined, String.toList_ofList] using hcs
      · simpa only [String.toList_ofList] using hdots
    · cases h
  · rintro ⟨header, payload, signature, head, claims, stamp, rfl, ⟨hheader, hpayload, hsignature⟩,
      hhead, hclaims, hstamp, rfl⟩
    rw [readCompact, toList_joined, splitDots_three hheader hpayload hsignature]
    simp only [String.ofList_toList, bind_eq_ok_iff, readSegment_eq_ok_iff,
      decodeSegment_eq_ok_iff, pure, Except.pure]
    exact ⟨head, hhead, claims, hclaims, stamp, hstamp, rfl⟩

/-- A text is read as a compact token only if it does not begin like a document. -/
theorem readTrimmed_eq_compact_iff {cs : List Char} {check : Check} {claims : Claims} :
    readTrimmed cs = .ok (.compact check claims) ↔
      cs.head? ≠ some '\x7b' ∧ readCompact cs = .ok (.compact check claims) := by
  rw [readTrimmed]
  split
  · next hbrace =>
    cases Json.parse Claims.record.read (String.ofList cs).toUTF8.data.toList <;> simp [hbrace]
  · next hbrace => simp [hbrace]

/-- A byte string is read as a compact token if it is one. -/
theorem read_eq_compact_iff {bytes : ByteArray} {check : Check} {claims : Claims} :
    Body.read bytes = .ok (.compact check claims) ↔ IsToken bytes check claims := by
  simp only [Body.read, bind_eq_ok_iff, mapError_eq_ok_iff, readTrimmed_eq_compact_iff,
    readCompact_eq_ok_iff]
  constructor
  · rintro ⟨text, htext, hbrace, header, payload, signature, head, claims, stamp, hcs, hdots,
      hhead, hclaims, hstamp, hbody⟩
    cases hbody
    exact .intro (trimmed?_eq_some_iff.2 ⟨text, htext, hcs⟩) (hcs ▸ hbrace) hdots hhead hclaims
      hstamp
  · rintro ⟨htrimmed, hbrace, hdots, hhead, hclaims, hstamp⟩
    obtain ⟨text, htext, hcs⟩ := trimmed?_eq_some_iff.1 htrimmed
    exact ⟨text, htext, hcs ▸ hbrace, _, _, _, _, _, _, hcs, hdots, hhead, hclaims, hstamp, rfl⟩

/-- There is one thing to decide on in a compact token, and one set of claims. -/
theorem IsToken.unique {bytes : ByteArray} {check check' : Check} {claims claims' : Claims}
    (h : IsToken bytes check claims) (h' : IsToken bytes check' claims') :
    check = check' ∧ claims = claims' := by
  have hread := (read_eq_compact_iff.2 h).symm.trans (read_eq_compact_iff.2 h')
  simpa only [Except.ok.injEq, Body.compact.injEq] using hread

/-- A compact token does not begin like a document. -/
theorem IsToken.head?_ne {bytes : ByteArray} {check : Check} {claims : Claims}
    (h : IsToken bytes check claims) {text : String} (htext : trimmed? bytes = some text) :
    text.toList.head? ≠ some '\x7b' := by
  obtain ⟨htrimmed, hbrace⟩ := h
  rwa [Option.some.inj (htext.symm.trans htrimmed)]

theorem Says.unique {α : Type} {reader : Json.Reader α} {part : String} {value value' : α}
    (h : Says reader part value) (h' : Says reader part value') : value = value' := by
  obtain ⟨bytes, hbytes, hvalue⟩ := h
  obtain ⟨bytes', hbytes', hvalue'⟩ := h'
  obtain rfl : bytes = bytes' := Except.ok.inj (hbytes.symm.trans hbytes')
  exact Except.ok.inj (hvalue.symm.trans hvalue')

/-- Two parts without dots are found again in what they make with a dot between them. -/
theorem eq_of_dotted_eq {first second first' second' : String}
    (hdots : '.' ∉ first.toList ∧ '.' ∉ second.toList)
    (hdots' : '.' ∉ first'.toList ∧ '.' ∉ second'.toList)
    (h : (first ++ "." ++ second).toUTF8 = (first' ++ "." ++ second').toUTF8) :
    first = first' ∧ second = second' := by
  have hparts : ∀ a b : String, '.' ∉ a.toList → '.' ∉ b.toList →
      splitDots [] [] (a ++ "." ++ b).toList = [a.toList, b.toList] := by
    intro a b ha hb
    rw [String.toList_append, String.toList_append, toList_dot, List.append_assoc,
      List.singleton_append, splitDots_append ha, splitDots_last hb]
    rfl
  have htext : first ++ "." ++ second = first' ++ "." ++ second' := by
    have hdecode := congrArg Utf8.decode h
    rw [Utf8.decode_toUTF8, Utf8.decode_toUTF8] at hdecode
    exact Except.ok.inj hdecode
  have hsplit := hparts first second hdots.1 hdots.2
  rw [htext, hparts first' second' hdots'.1 hdots'.2] at hsplit
  simp only [List.cons.injEq, String.toList_inj, and_true] at hsplit
  exact ⟨hsplit.1.symm, hsplit.2.symm⟩

/-- The signing input of a compact token settles its header and its claims. -/
theorem IsToken.eq_of_same_input {bytes bytes' : ByteArray} {check check' : Check}
    {claims claims' : Claims} (h : IsToken bytes check claims)
    (h' : IsToken bytes' check' claims') (hinput : check.signingInput = check'.signingInput) :
    check.header = check'.header ∧ claims = claims' := by
  obtain ⟨-, -, ⟨hheader, hpayload, -⟩, hhead, hclaims, -⟩ := h
  obtain ⟨-, -, ⟨hheader', hpayload', -⟩, hhead', hclaims', -⟩ := h'
  obtain ⟨rfl, rfl⟩ := eq_of_dotted_eq ⟨hheader, hpayload⟩ ⟨hheader', hpayload'⟩ hinput
  exact ⟨hhead.unique hhead', hclaims.unique hclaims'⟩

end Body

/-! ## What a verifier is asked -/

namespace Token

/-- What there is to decide on in a compact token is shown, and decided. -/
theorem readLogged_of_isToken {bytes : ByteArray} {check : Check} {claims : Claims}
    (h : Body.IsToken bytes check claims) (verify : Verifier) :
    readLogged (some verify) bytes =
      ((verify check).map fun _ => ⟨some check.header, claims⟩, [check]) := by
  simp only [readLogged, Body.read_eq_compact_iff.2 h, ofBody]

/-- Where there is no compact token nobody is asked, and no header is read. -/
theorem readLogged_of_not_isToken {bytes : ByteArray}
    (h : ∀ check claims, ¬Body.IsToken bytes check claims) (verifier : Option Verifier) :
    (readLogged verifier bytes).2 = [] ∧
      ∀ token, read verifier bytes = .ok token → token.header = none := by
  rw [read, readLogged]
  cases hbody : Body.read bytes with
  | error cause => simp
  | ok body =>
    cases body with
    | plain claims => simp [ofBody]
    | compact check claims => exact absurd (Body.read_eq_compact_iff.1 hbody) (h check claims)

section

variable {verify : Verifier} {bytes : ByteArray} {check : Check}

/-- A verifier is asked about what there is to decide on in a compact token, and about
    nothing else. -/
theorem checks_eq_singleton_iff :
    (readLogged (some verify) bytes).2 = [check] ↔ ∃ claims, Body.IsToken bytes check claims := by
  by_cases htoken : ∃ check claims, Body.IsToken bytes check claims
  · obtain ⟨shown, claims, htoken⟩ := htoken
    rw [readLogged_of_isToken htoken]
    constructor
    · intro h
      exact ⟨claims, (List.singleton_inj.1 h) ▸ htoken⟩
    · rintro ⟨claims', htoken'⟩
      exact congrArg (fun shown => [shown]) (htoken.unique htoken').1
  · have hnone : ∀ check claims, ¬Body.IsToken bytes check claims :=
      fun check claims h => htoken ⟨check, claims, h⟩
    rw [(readLogged_of_not_isToken hnone _).1]
    simp [hnone]

/-- A verifier is asked once or not at all. -/
theorem checks_eq_nil_or (verify : Verifier) (bytes : ByteArray) :
    (readLogged (some verify) bytes).2 = [] ∨
      ∃ check, (readLogged (some verify) bytes).2 = [check] := by
  by_cases htoken : ∃ check claims, Body.IsToken bytes check claims
  · obtain ⟨check, htoken⟩ := htoken
    exact .inr ⟨check, checks_eq_singleton_iff.2 htoken⟩
  · exact .inl (readLogged_of_not_isToken (fun check claims h => htoken ⟨check, claims, h⟩) _).1

theorem mem_checks_iff :
    check ∈ (readLogged (some verify) bytes).2 ↔ ∃ claims, Body.IsToken bytes check claims := by
  rw [← @checks_eq_singleton_iff verify]
  obtain h | ⟨shown, h⟩ := checks_eq_nil_or verify bytes
  · simp [h]
  · simp [h, eq_comm]

/-- The header of a token is one that the verifier was shown, and accepted. -/
theorem exists_check_of_header {token : Token} {header : Header}
    (hread : read (some verify) bytes = .ok token) (hheader : token.header = some header) :
    ∃ check ∈ (readLogged (some verify) bytes).2,
      verify check = .ok () ∧ check.header = header := by
  by_cases htoken : ∃ check claims, Body.IsToken bytes check claims
  · obtain ⟨check, claims, htoken⟩ := htoken
    refine ⟨check, mem_checks_iff.2 ⟨claims, htoken⟩, ?_⟩
    rw [read, readLogged_of_isToken htoken] at hread
    cases hverify : verify check with
    | error cause => simp [hverify, Except.map] at hread
    | ok =>
      simp only [hverify, Except.map, Except.ok.injEq] at hread
      subst hread
      exact ⟨rfl, Option.some.inj hheader⟩
  · have hnone := (readLogged_of_not_isToken (fun check claims h => htoken ⟨check, claims, h⟩)
      (some verify)).2 token hread
    rw [hnone] at hheader
    cases hheader

/-- What a verifier refuses is refused with its words. -/
theorem read_of_refused {cause : Error} (hcheck : check ∈ (readLogged (some verify) bytes).2)
    (hverify : verify check = .error cause) : read (some verify) bytes = .error cause := by
  obtain ⟨claims, htoken⟩ := mem_checks_iff.1 hcheck
  rw [read, readLogged_of_isToken htoken, hverify]
  rfl

end

/-- A verifier is asked at most once, about what there is to decide on in a compact token
    and about nothing else. No header is read unless the verifier was shown it and accepted;
    where the verifier refuses, its refusal is the answer, for the token and for the document.
    Where the text begins like a document, nobody is asked and no header is read. -/
theorem readLogged_gated (verify : Verifier) (bytes : ByteArray) :
    let checks := (readLogged (some verify) bytes).2
    let answer := read (some verify) bytes
    checks.length ≤ 1 ∧
    (∀ check, check ∈ checks ↔ ∃ claims, Body.IsToken bytes check claims) ∧
    (∀ token header, answer = .ok token → token.header = some header →
      ∃ check ∈ checks, verify check = .ok () ∧ check.header = header) ∧
    (∀ check ∈ checks, ∀ cause, verify check = .error cause →
      answer = .error cause ∧ Document.read (some verify) bytes = .error cause) ∧
    (∀ text, Body.trimmed? bytes = some text → text.toList.head? = some '\x7b' →
      checks = [] ∧ ∀ token, answer = .ok token → token.header = none) := by
  intro checks answer
  refine ⟨?_, fun _ => mem_checks_iff, fun _ _ => exists_check_of_header, ?_, ?_⟩
  · obtain h | ⟨check, h⟩ := checks_eq_nil_or verify bytes <;> simp [checks, h]
  · intro check hcheck cause hverify
    have hrefused := read_of_refused hcheck hverify
    refine ⟨hrefused, ?_⟩
    rw [Document.read, hrefused]
    rfl
  · intro text htext hbrace
    exact readLogged_of_not_isToken (fun _ _ htoken => htoken.head?_ne htext hbrace) (some verify)

/-- A token that is refused: the verifier is shown it, and its refusal is the answer. -/
theorem readLogged_refused :
    let header : Header := ⟨"none", none, none⟩
    let claims : Claims := ⟨"i", "s", 1, none, none, ⟨.two, "eNo76fITAAPfAgc", none⟩⟩
    let bytes := (compact header claims "sig".toUTF8).toUTF8
    let refuse : Verifier := fun check => .error (.signatureRejected check.header.alg)
    ∃ check ∈ (readLogged (some refuse) bytes).2,
      refuse check = .error (.signatureRejected "none") ∧
      read (some refuse) bytes = .error (.signatureRejected "none") ∧
      Document.read (some refuse) bytes = .error (.signatureRejected "none") := by
  intro header claims bytes refuse
  let check := checkOf header "sig".toUTF8 (compact header claims "sig".toUTF8)
  let accept : Verifier := fun _ => .ok ()
  have haccept : ∀ verify ∈ some accept, verify check = .ok () := by
    intro verify hverify
    rw [← Option.some.inj hverify]
  have hlog := readLogged_of_spaced header claims "sig".toUTF8 (spaced_compact ..) haccept
  -- Which token is shown does not depend on who is asked, so any verifier will do to see it.
  have hcheck : check ∈ (readLogged (some refuse) bytes).2 :=
    mem_checks_iff.2 (checks_eq_singleton_iff.1 (congrArg Prod.snd hlog))
  obtain ⟨hanswer, hdocument⟩ := (readLogged_gated refuse bytes).2.2.2.1 _ hcheck _ rfl
  exact ⟨_, hcheck, rfl, hanswer, hdocument⟩

/-! ## What a verifier was shown -/

theorem exists_isToken_of_readLogged {verify : Verifier} {bytes : ByteArray} {token : Token}
    {check : Check} (h : readLogged (some verify) bytes = (.ok token, [check])) :
    ∃ claims, Body.IsToken bytes check claims ∧ token = ⟨some check.header, claims⟩ := by
  obtain ⟨claims, htoken⟩ := checks_eq_singleton_iff.1 (congrArg Prod.snd h)
  refine ⟨claims, htoken, ?_⟩
  have hanswer := congrArg Prod.fst ((readLogged_of_isToken htoken verify).symm.trans h)
  cases hverify : verify check with
  | error cause => simp [hverify, Except.map] at hanswer
  | ok =>
    simp only [hverify, Except.map, Except.ok.injEq] at hanswer
    exact hanswer.symm

/-- Two compact tokens that are accepted, and of which the verifier was shown the same signing
    input, are the same token with the same document. The verifiers need not be the same:
    one that remembers may decide in another way the second time. -/
theorem eq_of_signingInput_eq {verify₁ verify₂ : Verifier} {bytes₁ bytes₂ : ByteArray}
    {token₁ token₂ : Token} {check₁ check₂ : Check}
    (h₁ : readLogged (some verify₁) bytes₁ = (.ok token₁, [check₁]))
    (h₂ : readLogged (some verify₂) bytes₂ = (.ok token₂, [check₂]))
    (hinput : check₁.signingInput = check₂.signingInput) :
    token₁ = token₂ ∧
      Document.read (some verify₁) bytes₁ = Document.read (some verify₂) bytes₂ := by
  obtain ⟨claims₁, htoken₁, rfl⟩ := exists_isToken_of_readLogged h₁
  obtain ⟨claims₂, htoken₂, rfl⟩ := exists_isToken_of_readLogged h₂
  obtain ⟨hheader, rfl⟩ := htoken₁.eq_of_same_input htoken₂ hinput
  have htoken : (⟨some check₁.header, claims₁⟩ : Token) = ⟨some check₂.header, claims₁⟩ := by
    rw [hheader]
  have hread₁ := congrArg Prod.fst h₁
  have hread₂ := congrArg Prod.fst h₂
  refine ⟨htoken, ?_⟩
  rw [Document.read, Document.read, read, read, hread₁, hread₂, htoken]

/-- The same token with two signatures, once between blanks. -/
theorem eq_of_signingInput_eq_between_blanks :
    let header : Header := ⟨"ES256", none, some "key-1"⟩
    let claims : Claims := ⟨"i", "s", 1, none, none, ⟨.two, "eNo76fITAAPfAgc", none⟩⟩
    let first := compact header claims "sig".toUTF8
    let second := "\n" ++ compact header claims "gis".toUTF8 ++ " "
    let verify : Verifier := fun _ => .ok ()
    ∃ token₁ token₂ check₁ check₂,
      readLogged (some verify) first.toUTF8 = (.ok token₁, [check₁]) ∧
      readLogged (some verify) second.toUTF8 = (.ok token₂, [check₂]) ∧
      check₁.signature ≠ check₂.signature ∧
      check₁.signingInput = check₂.signingInput ∧ token₁ = token₂ ∧
      Document.read (some verify) first.toUTF8 = Document.read (some verify) second.toUTF8 := by
  intro header claims first second verify
  have hblank : ∀ b : Char, Text.isBlank b = true → ∀ c ∈ [b], Text.isBlank c = true :=
    fun b hb c hc => List.mem_singleton.1 hc ▸ hb
  have hline : ∀ c ∈ "\n".toList, Text.isBlank c = true := hblank '\n' (by decide)
  have hspace : ∀ c ∈ " ".toList, Text.isBlank c = true := hblank ' ' (by decide)
  have haccept : ∀ (check : Check), ∀ verify' ∈ some verify, verify' check = .ok () := by
    intro check verify' hverify'
    rw [← Option.some.inj hverify']
  have h₁ := readLogged_of_spaced header claims "sig".toUTF8 (spaced_compact ..)
    (haccept (checkOf header "sig".toUTF8 first))
  have h₂ := readLogged_of_spaced header claims "gis".toUTF8
    (spaced_append header claims "gis".toUTF8 hline hspace)
    (haccept (checkOf header "gis".toUTF8 second))
  have hinput : (checkOf header "sig".toUTF8 first).signingInput =
      (checkOf header "gis".toUTF8 second).signingInput := by
    have htrim : trimChars second.toList =
        trimChars (compact header claims "gis".toUTF8).toList := by
      rw [String.toList_append, String.toList_append, Text.trimChars_append_right hspace,
        Text.trimChars_append_left hline]
    have hshown : (checkOf header "gis".toUTF8 second).signingInput =
        (checkOf header "gis".toUTF8 (compact header claims "gis".toUTF8)).signingInput := by
      simp only [checkOf, htrim]
    rw [hshown, checkOf_compact, checkOf_compact]
  have hsame := eq_of_signingInput_eq h₁ h₂ hinput
  exact ⟨_, _, _, _, h₁, h₂, by decide, hinput, hsame⟩

end Token

end StatusList
