import StatusList.Proofs.Lookup.Resolving

/-!
# The lengths of segments

The path of a URL over HTTP is cut out of its text, somewhere behind the colon of the scheme
(`exists_path_of_parse`), and each of its segments out of the path. So no segment is as long as
the text would be if it was encoded as one segment as a whole (`length_lt_of_mem_segments`).

That is what becomes of a text that is put behind a base. Therefore what is below a base is never
the URL that the text itself is (`ne_of_urlBelow`).
-/

namespace StatusList.Url

variable {kind : Kind} {segments : List (List Char)} {text : List Char}

/-! ## Encoded lengths -/

theorem encodeChar_ne_nil (set : EncodeSet) (c : Char) : encodeChar set c ≠ [] := by
  obtain h | ⟨rest, h⟩ := encodeChar_eq_or set c
  · rw [h]
    exact List.cons_ne_nil _ _
  · rw [h]
    exact List.cons_ne_nil _ _

/-- The more is encoded, the longer it gets. -/
theorem length_encode_le {set set' : EncodeSet} (h : ∀ c, set c = true → set' c = true)
    (text : List Char) : (encode set text).length ≤ (encode set' text).length := by
  have hchar : ∀ c, (encodeChar set c).length ≤ (encodeChar set' c).length := by
    intro c
    rw [encodeChar, encodeChar]
    by_cases hc : set c = true
    · rw [hc, h c hc]
    · split
      · exact List.length_pos_iff.2 (encodeChar_ne_nil set' c)
      · next hplain =>
        rw [if_neg fun hascii => hplain ⟨hascii.1, by simp [hc]⟩]
  induction text with
  | nil => exact Nat.le_refl _
  | cons c text ih =>
    simp only [encode, List.flatMap_cons, List.length_append]
    exact Nat.add_le_add (hchar c) ih

/-- What is encoded of a part behind a mark is shorter than what is encoded of the whole. -/
theorem length_encode_lt {set set' : EncodeSet} (h : ∀ c, set c = true → set' c = true)
    {part front rest : List Char} {mark : Char} (hpart : part.Sublist rest) :
    (encode set part).length < (encode set' (front ++ mark :: rest)).length := by
  have hmark := List.length_pos_iff.2 (encodeChar_ne_nil set' mark)
  have hrest : (encode set' part).length ≤ (encode set' rest).length :=
    (hpart.flatMap (encodeChar set')).length_le
  have hwhole : (encode set' (front ++ mark :: rest)).length =
      (encode set' front).length + ((encodeChar set' mark).length + (encode set' rest).length) := by
    rw [encode, List.flatMap_append, List.flatMap_cons, List.length_append, List.length_append]
    rfl
  have hmore := length_encode_le h part
  omega

/-! ## Segments out of a text -/

/-- A piece is a part of the text. -/
theorem sublist_of_mem_pieces {piece : List Char} (h : piece ∈ pieces kind text) :
    piece.Sublist text := by
  rw [pieces] at h
  induction text generalizing piece with
  | nil =>
    rw [List.mem_singleton.1 h]
  | cons c text ih =>
    simp only [List.foldr_cons] at h
    generalize List.foldr _ _ text = rest at h ih
    split at h
    · rcases List.mem_cons.1 h with rfl | h
      · exact List.nil_sublist _
      · exact (ih h).cons c
    · cases rest with
      | nil =>
        rw [List.mem_singleton.1 h]
        exact List.singleton_sublist.2 List.mem_cons_self
      | cons first rest =>
        rcases List.mem_cons.1 h with rfl | h
        · exact (ih List.mem_cons_self).cons_cons c
        · exact (ih (List.mem_cons_of_mem _ h)).cons c

/-- Where there are no drives, a segment after one more piece was there before, or it is empty,
    or it is the piece, encoded. -/
theorem mem_follow (hkind : kind ≠ .file) {set : EncodeSet} {last : Bool} {segment : List Char}
    (h : segment ∈ follow kind set last segments text) :
    segment ∈ segments ∨ segment = [] ∨ segment = encode set (counted text) := by
  simp only [follow, hkind, false_and, if_false] at h
  have hslash : ∀ {init : List (List Char)}, init ⊆ segments →
      segment ∈ init ++ (if last then [[]] else []) →
      segment ∈ segments ∨ segment = [] ∨ segment = encode set (counted text) := by
    intro init hinit h
    rcases List.mem_append.1 h with h | h
    · exact .inl (hinit h)
    · split at h
      · exact .inr (.inl (List.mem_singleton.1 h))
      · exact absurd h List.not_mem_nil
  split at h
  · exact hslash (back_subset segments) h
  · split at h
    · exact hslash (List.Subset.refl segments) h
    · rcases List.mem_append.1 h with h | h
      · exact .inl h
      · exact .inr (.inr (List.mem_singleton.1 h))

theorem mem_followAll (hkind : kind ≠ .file) {pieces : List (List Char)} {segment : List Char}
    (h : segment ∈ followAll kind segments pieces) :
    segment ∈ segments ∨ segment = [] ∨
      ∃ piece ∈ pieces, segment = encode EncodeSet.path (counted piece) := by
  induction pieces generalizing segments with
  | nil => exact .inl h
  | cons piece pieces ih =>
    rw [followAll] at h
    rcases ih h with h | h | ⟨piece', hpiece', h⟩
    · rcases mem_follow hkind h with h | h | h
      · exact .inl h
      · exact .inr (.inl h)
      · exact .inr (.inr ⟨piece, List.mem_cons_self, h⟩)
    · exact .inr (.inl h)
    · exact .inr (.inr ⟨piece', List.mem_cons_of_mem _ hpiece', h⟩)

/-- A segment of a path is empty, or a part of the text, encoded. -/
theorem mem_readRooted {segment : List Char} (h : segment ∈ readRooted .special text) :
    segment = [] ∨ ∃ part, part.Sublist text ∧ segment = encode EncodeSet.path (counted part) := by
  have hslash : (withoutSlash .special text).Sublist text := by
    cases text with
    | nil => exact List.Sublist.refl _
    | cons c text =>
      rw [withoutSlash]
      split
      · exact List.sublist_cons_self c text
      · exact List.Sublist.refl _
  have hpieces : readRooted .special text =
      followAll .special [] (pieces .special (withoutSlash .special text)) := rfl
  rw [hpieces] at h
  rcases mem_followAll (by decide) h with h | h | ⟨piece, hpiece, h⟩
  · exact absurd h List.not_mem_nil
  · exact .inl h
  · exact .inr ⟨piece, (sublist_of_mem_pieces hpiece).trans hslash, h⟩

/-! ## The path of a text -/

theorem cut_fst_sublist (mark : Char) (text : List Char) : (cut mark text).1.Sublist text := by
  rw [cut]
  split
  · exact List.Sublist.refl _
  · exact List.takeWhile_sublist _

/-- What stands before a mark, the mark, and what follows it. -/
theorem eq_append_of_cut {mark : Char} {front rest : List Char}
    (h : cut mark text = (front, some rest)) : text = front ++ mark :: rest := by
  rw [cut] at h
  split at h
  · cases h
  · next c rest' hrest =>
    cases h
    have hmark : c = mark := by
      have hnot := List.head?_dropWhile_not (· ≠ mark) text
      rw [hrest] at hnot
      simpa using hnot
    rw [← hmark, ← hrest, hmark, List.takeWhile_append_dropWhile]

theorem cutTail_fst_sublist (kind : Kind) (text : List Char) :
    (cutTail kind text).1.Sublist text :=
  (cut_fst_sublist '?' _).trans (cut_fst_sublist '#' text)

theorem cutPort_snd_sublist (inBrackets : Bool) (text : List Char) :
    (cutPort inBrackets text).2.Sublist text := by
  induction text generalizing inBrackets with
  | nil => exact List.Sublist.refl _
  | cons c text ih =>
    rw [cutPort]
    split
    · exact List.Sublist.refl _
    · exact (ih _).cons c

theorem cutUser_snd_sublist (text : List Char) : (cutUser text).2.Sublist text := by
  have hhost : (text.reverse.takeWhile (· ≠ '@')).reverse.Sublist text := by
    have h := (List.takeWhile_sublist (· ≠ '@') (l := text.reverse)).reverse
    rwa [List.reverse_reverse] at h
  rw [cutUser]
  split
  · exact List.Sublist.refl _
  · exact hhost

theorem sublist_of_readHost {scheme : String} {rest : List Char} {host : Host} {port : Option Nat}
    (h : readHost scheme text = .ok (host, port, rest)) : rest.Sublist text := by
  have hport := cutPort_snd_sublist false text
  rw [readHost] at h
  simp only [guarded_eq_ok_iff] at h
  obtain ⟨-, h⟩ := h
  generalize (cutPort false text).2 = behind at h hport
  -- The host is read in one of two ways, after which they go on alike.
  split at h
  all_goals
    obtain ⟨host', -, h⟩ := bind_eq_ok_iff.1 h
    cases behind with
    | nil =>
      cases h
      exact List.nil_sublist _
    | cons c behind =>
      simp only [guarded_eq_ok_iff, bind_eq_ok_iff] at h
      obtain ⟨-, -, port', -, h⟩ := h
      cases h
      exact (List.dropWhile_sublist _).trans ((List.sublist_cons_self c behind).trans hport)

theorem sublist_of_readAuthority {scheme : String} {rest : List Char} {authority : Authority}
    (h : readAuthority scheme text = .ok (authority, rest)) : rest.Sublist text := by
  rw [readAuthority] at h
  simp only [guarded_eq_ok_iff, bind_eq_ok_iff] at h
  obtain ⟨-, ⟨host, port, behind⟩, hhost, -, h⟩ := h
  cases h
  have hbehind := (sublist_of_readHost hhost).trans (cutUser_snd_sublist _)
  have hall := hbehind.append (List.Sublist.refl (List.dropWhile
    (fun c => !endsAuthority (Kind.ofScheme scheme) c) text))
  rwa [List.takeWhile_append_dropWhile] at hall

theorem eq_append_of_readScheme {scheme : String} {behind : List Char}
    (h : readScheme text = .ok (scheme, behind)) : ∃ front, text = front ++ ':' :: behind := by
  rw [readScheme] at h
  split at h
  · next hcut =>
    split at h
    · cases h
      exact ⟨_, eq_append_of_cut hcut⟩
    · cases h
  · cases h

/-- The path of a URL over HTTP is read from a part of what stands behind the colon of its
    scheme. -/
theorem exists_path_of_parse {text : String} {url : Url} (h : parse text = .ok url)
    (hhttp : url.isHttp = true) :
    ∃ front behind part, counted (trimmed text.toList) = front ++ ':' :: behind ∧
      part.Sublist behind ∧ url.path = .rooted (readRooted .special part) := by
  have hkind := kind_of_isHttp hhttp
  simp only [parse, bind_eq_ok_iff] at h
  obtain ⟨⟨scheme, behind⟩, hscheme, h⟩ := h
  obtain ⟨front, hfront⟩ := eq_append_of_readScheme hscheme
  split at h
  · next hfile =>
    obtain ⟨file, -, h⟩ := bind_eq_ok_iff.1 h
    cases h
    cases hfile.symm.trans hkind
  · obtain ⟨⟨authority, rest⟩, hauthority, h⟩ := bind_eq_ok_iff.1 h
    cases h
    have hrest := (sublist_of_readAuthority hauthority).trans (List.dropWhile_sublist _)
    exact ⟨front, behind, _, hfront, (cutTail_fst_sublist .special rest).trans hrest, rfl⟩
  · next hother =>
    split at h
    · obtain ⟨authority, -, h⟩ := bind_eq_ok_iff.1 h
      cases h
      cases hother.symm.trans hkind
    · cases h
      cases hother.symm.trans hkind

/-! ## What is below a base -/

theorem counted_trimmed_sublist (text : List Char) :
    (counted (trimmed text)).Sublist (counted text) := by
  refine List.Sublist.filter _ ?_
  have hback : ∀ (skip : Char → Bool) (cs : List Char),
      (cs.reverse.dropWhile skip).reverse.Sublist cs := fun skip cs => by
    have h := (List.dropWhile_sublist skip (l := cs.reverse)).reverse
    rwa [List.reverse_reverse] at h
  exact (hback _ _).trans (List.dropWhile_sublist _)

/-- A URL over HTTP has a colon in its text. -/
theorem colon_mem_counted {text : String} {url : Url} (h : parse text = .ok url)
    (hhttp : url.isHttp = true) : ':' ∈ counted text.toList := by
  obtain ⟨front, behind, -, htext, -⟩ := exists_path_of_parse h hhttp
  refine (counted_trimmed_sublist text.toList).subset ?_
  rw [htext]
  exact List.mem_append_right _ List.mem_cons_self

/-- No segment of a URL over HTTP is as long as its text, encoded as one segment. -/
theorem length_lt_of_mem_segments {text : String} {url : Url} (h : parse text = .ok url)
    (hhttp : url.isHttp = true) (hpath : url.path = .rooted segments) {segment : List Char}
    (hsegment : segment ∈ segments) :
    segment.length < (encode EncodeSet.specialSegment (counted text.toList)).length := by
  obtain ⟨front, behind, part, htext, hpart, hroot⟩ := exists_path_of_parse h hhttp
  cases hpath.symm.trans hroot
  rcases mem_readRooted hsegment with rfl | ⟨piece, hpiece, rfl⟩
  · refine List.length_pos_iff.2 fun hnil => ?_
    have hcolon := colon_mem_counted h hhttp
    rw [eq_nil_of_encode hnil] at hcolon
    exact List.not_mem_nil hcolon
  · have hset : ∀ c, EncodeSet.path c = true → EncodeSet.specialSegment c = true := fun c hc => by
      simp [EncodeSet.specialSegment, EncodeSet.segment, hc]
    have hbehind : (counted piece).Sublist behind :=
      List.filter_sublist.trans (hpiece.trans hpart)
    have hlt : (encode EncodeSet.path (counted piece)).length <
        (encode EncodeSet.specialSegment (front ++ ':' :: behind)).length :=
      length_encode_lt hset hbehind
    rw [← htext] at hlt
    have hwhole := (counted_trimmed_sublist text.toList).flatMap
      (encodeChar EncodeSet.specialSegment)
    exact hlt.trans_le hwhole.length_le

/-- What a text becomes behind a base is not the URL that the text itself is. -/
theorem ne_of_urlBelow {base own url : Url} {text : String} (hown : parse text = .ok own)
    (hhttp : own.isHttp = true) (hurl : urlBelow base text = .ok url) : own ≠ url := by
  rintro rfl
  have hcolon := colon_mem_counted hown hhttp
  have hdots : ∀ dots : List Char, ':' ∉ counted dots → text.toList ≠ dots :=
    fun dots hnone heq => hnone (heq ▸ hcolon)
  have hcounted : ∀ dots : List Char, ':' ∉ dots → counted text.toList ≠ dots :=
    fun dots hnone heq => hnone (heq ▸ hcolon)
  have hkind : base.kind = .special := kind_of_isHttp (by rw [← isHttp_of_urlBelow hurl, hhttp])
  -- The text is no step, so it is the last segment as a whole.
  have hlast : ∀ segments, encode EncodeSet.specialSegment (counted text.toList) ∈
      extend base.kind segments text.toList := fun segments => by
    rw [hkind, extend_eq (by decide) ⟨hdots _ (by decide), hdots _ (by decide)⟩,
      if_neg (hcounted _ (by decide)), if_neg (hcounted _ (by decide))]
    exact List.mem_append_right _ (List.mem_singleton_self _)
  obtain ⟨rooted, hrooted⟩ := exists_rooted_of_parse? (parse?_eq_some_iff.2 hown) hhttp
  rw [urlBelow, appendSegment?] at hurl
  cases hpath : base.path with
  | rootless rest => simp [hpath] at hurl
  | rooted segments =>
    simp only [hpath, Except.ok.injEq] at hurl
    have hroot : own.path = .rooted (extend base.kind segments text.toList) := by rw [← hurl]
    exact absurd (length_lt_of_mem_segments hown hhttp hroot (hlast segments)) (Nat.lt_irrefl _)
  | guarded segments =>
    simp only [hpath, Except.ok.injEq] at hurl
    rw [← hurl] at hrooted
    cases hrooted

end StatusList.Url
