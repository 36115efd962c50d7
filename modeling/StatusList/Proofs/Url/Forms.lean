import StatusList.Proofs.Basic
import StatusList.Proofs.Text.Utf8
import StatusList.Proofs.Url.Encoding
import StatusList.Url.Form

/-!
# Forms round trip

A form reads back as it was written (`read_write`). No byte is written with one that ends
something (`not_mem_spelling`), so that the entries come apart where they were put together;
and a byte is read off the front of what was written for it, whatever stands behind that
(`decodeOnto_spelling`). It takes two passes to do so, of which the first makes spaces of
plus signs: a plus sign that is meant is not written as one.
-/

namespace StatusList.Url

namespace Form

/-! ## Written bytes -/

/-- The bytes that end something: a query, an entry and a name. -/
def delimiters : List UInt8 := [35, 38, 61]

/-- The bytes that mean something where they stand. -/
def marks : List UInt8 := 37 :: 43 :: delimiters

theorem hexByte_not_mem_marks {n : Nat} (h : n < 16) : hexByte n ∉ marks := by
  decide +revert

/-- A byte that stands for a space where it is a plus sign. -/
def spaced (b : UInt8) : UInt8 := if b = 43 then 32 else b

/-- A byte that is written as it is means nothing else. -/
theorem not_mem_marks {b : UInt8} (h : isPlain b = true) : b.toNat < 128 ∧ b ∉ marks := by
  constructor
  · simp only [isPlain, decide_eq_true_eq, UInt8.le_iff_toNat_le, ← UInt8.toNat_inj,
      UInt8.reduceToNat] at h
    omega
  · intro hmem
    simp only [marks, delimiters, List.mem_cons, List.not_mem_nil, or_false] at hmem
    rcases hmem with rfl | rfl | rfl | rfl | rfl <;> revert h <;> decide

/-- The bytes with which a byte is written. -/
def spelling (b : UInt8) : List UInt8 := Utf8.encode (writeByte b)

/-- What the bytes are with which a byte is written. -/
theorem spelling_cases (b : UInt8) :
    (isPlain b = true ∧ spelling b = [b]) ∨ (b = 32 ∧ spelling b = [43]) ∨
      spelling b = [37, hexByte (b.toNat / 16), hexByte (b.toNat % 16)] := by
  rw [spelling, writeByte]
  split
  · next h =>
    have hascii : b.toNat < 128 := (not_mem_marks h).1
    have hvalid : b.toNat.isValidChar := .inl (by omega)
    have hchar : (Char.ofNat b.toNat).toNat = b.toNat := by rw [Char.toNat_ofNat, if_pos hvalid]
    refine .inl ⟨h, ?_⟩
    rw [Utf8.encode_cons, Utf8.utf8EncodeChar_of_lt (by omega), hchar, Utf8.encode_nil,
      List.append_nil]
    exact congrArg ([·]) UInt8.ofNat_toNat
  · split
    · next h => exact .inr (.inl ⟨h, by decide⟩)
    · exact .inr (.inr (encode_encodeByte b))

/-- Nothing that is written for a byte ends anything. -/
theorem not_mem_spelling (b : UInt8) {mark : UInt8} (h : mark ∈ delimiters) :
    mark ∉ spelling b := by
  have hmark : mark ∈ marks := List.mem_cons_of_mem _ (List.mem_cons_of_mem _ h)
  obtain ⟨hplain, hb⟩ | ⟨-, hb⟩ | hb := spelling_cases b <;> rw [hb]
  · rw [List.mem_singleton]
    rintro rfl
    exact (not_mem_marks hplain).2 hmark
  · rw [List.mem_singleton]
    rintro rfl
    revert h
    decide
  · obtain ⟨hhigh, hlow⟩ := digits_lt b
    simp only [List.mem_cons, List.not_mem_nil, or_false]
    rintro (rfl | rfl | rfl)
    · revert h
      decide
    · exact hexByte_not_mem_marks hhigh hmark
    · exact hexByte_not_mem_marks hlow hmark

/-- A byte is read off the front of what is written for it. -/
theorem decodeOnto_spelling (b : UInt8) (done rest : List UInt8) :
    decodeOnto done ((spelling b).map spaced ++ rest) = decodeOnto (b :: done) rest := by
  have hspaced : ∀ {b : UInt8}, b ∉ marks → spaced b = b := by
    intro b hb
    exact if_neg (List.ne_of_not_mem_cons (List.not_mem_of_not_mem_cons hb))
  obtain ⟨hplain, h⟩ | ⟨rfl, h⟩ | h := spelling_cases b <;> rw [h]
  · have hmarks := (not_mem_marks hplain).2
    rw [List.map_singleton, hspaced hmarks]
    exact decodeOnto_of_ne (List.ne_of_not_mem_cons hmarks) done rest
  · exact decodeOnto_of_ne (by decide) done rest
  · obtain ⟨hhigh, hlow⟩ := digits_lt b
    simp only [List.map_cons, List.map_nil, hspaced (hexByte_not_mem_marks hhigh),
      hspaced (hexByte_not_mem_marks hlow)]
    exact decodeOnto_encodeByte b done rest

/-! ## Written texts -/

/-- The bytes with which a text is written. -/
theorem encode_writeText (text : String) :
    Utf8.encode (writeText text) = (Utf8.encode text.toList).flatMap spelling := by
  rw [writeText, Utf8.toList_toUTF8, Utf8.encode, List.flatMap_assoc]
  rfl

theorem decodeOnto_flatMap_spelling (bytes done : List UInt8) :
    decodeOnto done ((bytes.flatMap spelling).map spaced) = done.reverse ++ bytes := by
  -- The bytes that have been read stay open: each step puts one more to them.
  induction bytes generalizing done with
  | nil => rw [List.flatMap_nil, List.map_nil, decodeOnto, List.append_nil]
  | cons b bytes ih =>
    rw [List.flatMap_cons, List.map_append, decodeOnto_spelling, ih, List.reverse_cons,
      List.append_assoc, List.singleton_append]

/-- A text reads back as it was written. -/
theorem readText_writeText (text : String) : readText (Utf8.encode (writeText text)) = text := by
  have hbytes : decode ((Utf8.encode (writeText text)).map spaced) = Utf8.encode text.toList := by
    rw [encode_writeText, decode, decodeOnto_flatMap_spelling, List.reverse_nil, List.nil_append]
  change Utf8.decodeLossy (decode ((Utf8.encode (writeText text)).map spaced)) = text
  rw [hbytes, Utf8.decodeLossy_encode, String.ofList_toList]

theorem not_mem_writeText (text : String) {mark : UInt8} (h : mark ∈ delimiters) :
    mark ∉ Utf8.encode (writeText text) := by
  rw [encode_writeText]
  intro hmem
  obtain ⟨b, -, hb⟩ := List.mem_flatMap.1 hmem
  exact not_mem_spelling b h hb

/-! ## Written entries -/

/-- The characters with which an entry is written. -/
def writeEntry (entry : String × String) : List Char :=
  writeText entry.1 ++ '=' :: writeText entry.2

theorem encode_writeEntry (entry : String × String) :
    Utf8.encode (writeEntry entry) =
      Utf8.encode (writeText entry.1) ++ 61 :: Utf8.encode (writeText entry.2) := by
  have hmark : String.utf8EncodeChar '=' = [61] := by decide
  rw [writeEntry, Utf8.encode_append, Utf8.encode_cons, hmark, List.singleton_append]

theorem readEntry_writeEntry (entry : String × String) :
    readEntry (Utf8.encode (writeEntry entry)) = entry := by
  have hname := all_ne_of_not_mem (not_mem_writeText entry.1 (by decide : 61 ∈ delimiters))
  rw [encode_writeEntry, readEntry, List.takeWhile_append_of_pos hname,
    List.dropWhile_append_of_pos hname]
  simp [readText_writeText]

/-- Nothing in an entry ends anything but its name. -/
theorem not_mem_writeEntry (entry : String × String) {mark : UInt8} (h : mark ∈ delimiters)
    (hname : mark ≠ 61) : mark ∉ Utf8.encode (writeEntry entry) := by
  rw [encode_writeEntry, List.mem_append, List.mem_cons]
  rintro (hmem | rfl | hmem)
  · exact not_mem_writeText entry.1 h hmem
  · exact hname rfl
  · exact not_mem_writeText entry.2 h hmem

/-! ## Written forms -/

theorem split_append {mark : UInt8} {part : List UInt8} (h : mark ∉ part) (rest : List UInt8) :
    split mark (part ++ mark :: rest) = part :: split mark rest := by
  induction part with
  | nil => rw [List.nil_append, split, List.foldr_cons, if_pos rfl, split]
  | cons b part ih =>
    obtain ⟨hb, hpart⟩ := List.ne_and_not_mem_of_not_mem_cons h
    have hrest := ih hpart
    rw [split] at hrest ⊢
    rw [List.cons_append, List.foldr_cons, hrest, if_neg (Ne.symm hb)]

theorem split_of_not_mem {mark : UInt8} {part : List UInt8} (h : mark ∉ part) :
    split mark part = [part] := by
  induction part with
  | nil => rfl
  | cons b part ih =>
    obtain ⟨hb, hpart⟩ := List.ne_and_not_mem_of_not_mem_cons h
    have hrest := ih hpart
    rw [split] at hrest ⊢
    rw [List.foldr_cons, hrest, if_neg (Ne.symm hb)]

/-- A form comes apart where its entries were put together. -/
theorem split_write (entry : String × String) (entries : List (String × String)) :
    split 38 (Utf8.encode (['&'].intercalate ((entry :: entries).map writeEntry))) =
      (entry :: entries).map fun entry => Utf8.encode (writeEntry entry) := by
  have hmark : String.utf8EncodeChar '&' = [38] := by decide
  have hentry : ∀ entry, 38 ∉ Utf8.encode (writeEntry entry) := fun entry =>
    not_mem_writeEntry entry (by decide) (by decide)
  induction entries generalizing entry with
  | nil =>
    rw [List.map_singleton, List.intercalate_singleton, List.map_singleton]
    exact split_of_not_mem (hentry entry)
  | cons next entries ih =>
    rw [List.map_cons, List.map_cons, List.intercalate_cons_cons, List.append_assoc,
      Utf8.encode_append, List.singleton_append, Utf8.encode_cons, hmark, List.singleton_append,
      split_append (hentry entry), ← List.map_cons, ih]
    rfl

/-- A form reads back as it was written. -/
theorem read_write (entries : List (String × String)) : read (write entries) = entries := by
  have hbytes : (write entries).toUTF8.data.toList =
      Utf8.encode (['&'].intercalate (entries.map writeEntry)) := by
    rw [Utf8.toList_toUTF8, write, String.toList_ofList]
    rfl
  rw [read, hbytes]
  cases entries with
  | nil => rfl
  | cons entry entries =>
    have hsome : ∀ bytes ∈ (entry :: entries).map fun entry => Utf8.encode (writeEntry entry),
        (bytes ≠ [] : Bool) = true := by
      refine List.forall_mem_map.2 fun entry _ => ?_
      rw [decide_eq_true_iff, encode_writeEntry]
      exact List.append_ne_nil_of_right_ne_nil _ (List.cons_ne_nil _ _)
    rw [split_write, List.filter_eq_self.2 hsome, List.map_map]
    exact (List.map_congr_left fun entry _ => readEntry_writeEntry entry).trans (List.map_id _)

end Form

end StatusList.Url
