import StatusList.Proofs.Flate.Grammar
import StatusList.Proofs.Flate.Taking

/-!
# The symbols of a block

What is taken in a coded block are symbols of its two codes, and what they stand for is added to
the output, if there is room for it (`takes_takeCoded`).

The window of the grammar is the one of the longest distance: a copy may reach as far back as a
distance goes, and takes zeros from before the beginning of the output (`copyBack_eq_ok_iff`).
-/

namespace StatusList.Flate

open BitSource (bitsOf)

variable {limit : Nat} {s : BitSource} {out : ByteArray}

/-- The longest distance that a copy can go back. -/
def longestDistance : Nat := 32768

/-! ## Places -/

theorem left_skip {front : List Bool} (h : front <+: s.bits) :
    (s.skip front.length).left + front.length = s.left := by
  have hle := h.length_le
  rw [BitSource.length_bits] at hle
  simp only [BitSource.left, BitSource.skip] at hle ⊢
  omega

/-- A source of which bits have been taken that were there is not exhausted. -/
theorem taken_skip_le {front : List Bool} (hs : s.taken ≤ 8 * s.bytes.size)
    (h : front <+: s.bits) :
    (s.skip front.length).taken ≤ 8 * (s.skip front.length).bytes.size := by
  have hle := h.length_le
  rw [BitSource.length_bits] at hle
  simp only [BitSource.left, BitSource.skip] at hle ⊢
  omega

/-! ## Copies -/

theorem length_windowed (window : Nat) (out : List UInt8) :
    (windowed window out).length = window + out.length := by
  rw [windowed, List.length_append, List.length_replicate]

/-- The byte that a copy begins with is the one that far back, or a zero. -/
theorem getElem?_windowed (out : ByteArray) {distance : Nat} (hpos : 0 < distance)
    (hle : distance ≤ longestDistance) :
    distance ≤ (windowed longestDistance out.data.toList).length ∧
      (windowed longestDistance out.data.toList)[
        (windowed longestDistance out.data.toList).length - distance]? =
          some (byteBack out distance) := by
  have hsize : out.data.toList.length = out.size := rfl
  rw [length_windowed, hsize]
  refine ⟨by omega, ?_⟩
  rw [windowed, byteBack]
  by_cases h : distance ≤ out.size ∧ 0 < distance
  · have hindex : longestDistance + out.size - distance =
        (List.replicate longestDistance (0 : UInt8)).length + (out.size - distance) := by
      rw [List.length_replicate]
      omega
    rw [dif_pos h, hindex, List.getElem?_append_right (Nat.le_add_right _ _),
      Nat.add_sub_cancel_left]
    exact List.getElem?_eq_getElem (by omega)
  · have hindex : longestDistance + out.size - distance < longestDistance := by omega
    rw [dif_neg h, List.getElem?_append_left (by rwa [List.length_replicate]),
      List.getElem?_replicate, if_pos hindex]

/-- A copy begins with the byte that far back and goes on as a copy behind that. -/
theorem isCopy_cons_iff {before new : List UInt8} {distance : Nat} {byte : UInt8}
    (hpos : 0 < distance) (hle : distance ≤ before.length) :
    IsCopy before distance (byte :: new) ↔
      before[before.length - distance]? = some byte ∧ IsCopy (before ++ [byte]) distance new := by
  have hindex : before.length - distance < before.length := by omega
  constructor
  · rintro ⟨-, hnew⟩
    refine ⟨?_, by rw [List.length_append]; omega, fun i hi => ?_⟩
    · have hfirst := hnew 0 (Nat.succ_pos _)
      rw [Nat.add_zero, List.getElem?_append_left hindex] at hfirst
      exact hfirst.symm
    · have hnext := hnew (i + 1) (Nat.succ_lt_succ hi)
      rw [List.getElem?_cons_succ] at hnext
      rw [hnext, List.append_assoc, List.length_append, List.length_singleton,
        Nat.add_right_comm before.length 1 i]
      rfl
  · rintro ⟨hfirst, -, hnew⟩
    refine ⟨hle, fun i hi => ?_⟩
    cases i with
    | zero =>
      rw [Nat.add_zero, List.getElem?_append_left hindex, hfirst]
      rfl
    | succ i =>
      have hnext := hnew i (Nat.lt_of_succ_lt_succ hi)
      rw [List.append_assoc, List.length_append, List.length_singleton,
        Nat.add_right_comm before.length 1 i] at hnext
      exact hnext

/-- What is copied back is a copy. -/
theorem copyBack_eq_ok_iff {distance length : Nat} {out' : ByteArray} (hpos : 0 < distance)
    (hle : distance ≤ longestDistance) (hout : out.size ≤ limit) :
    copyBack limit distance length out = .ok out' ↔ Extends limit out
      (fun new => new.length = length ∧
        IsCopy (windowed longestDistance out.data.toList) distance new) out' := by
  induction length generalizing out with
  | zero =>
    rw [copyBack, Except.ok.injEq]
    constructor
    · rintro rfl
      exact ⟨hout, [], ⟨rfl, (getElem?_windowed out hpos hle).1,
        fun i hi => absurd hi (Nat.not_lt_zero i)⟩, ByteArray.append_empty.symm⟩
    · rintro ⟨-, new, ⟨hnew, -⟩, rfl⟩
      rw [List.length_eq_zero_iff.1 hnew]
      exact ByteArray.append_empty.symm
  | succ length ih =>
    obtain ⟨hback, hbyte⟩ := getElem?_windowed out hpos hle
    have hrest : ∀ out₁ : ByteArray, emit limit out (byteBack out distance) = .ok out₁ →
        (copyBack limit distance length out₁ = .ok out' ↔ Extends limit out₁ (fun new =>
          new.length = length ∧ IsCopy (windowed longestDistance out₁.data.toList) distance new)
            out') := fun out₁ h => ih (emit_eq_ok_iff.1 h).1
    rw [copyBack, bind_eq_ok_iff, exists_congr fun out₁ => and_congr_right (hrest out₁)]
    simp only [emit_eq_ok_iff]
    rw [exists_extends_iff (P := fun out new =>
      new.length = length ∧ IsCopy (windowed longestDistance out) distance new)]
    refine Extends.congr fun new => ?_
    have hwindowed : windowed longestDistance (out.data.toList ++ [byteBack out distance]) =
        windowed longestDistance out.data.toList ++ [byteBack out distance] :=
      (List.append_assoc _ _ _).symm
    constructor
    · rintro ⟨_, new, rfl, ⟨rfl, hcopy⟩, rfl⟩
      rw [hwindowed] at hcopy
      exact ⟨rfl, (isCopy_cons_iff hpos hback).2 ⟨hbyte, hcopy⟩⟩
    · rintro ⟨hnew, hcopy⟩
      obtain ⟨byte, new, rfl⟩ := List.exists_cons_of_length_eq_add_one hnew
      obtain ⟨hfirst, hcopy⟩ := (isCopy_cons_iff hpos hback).1 hcopy
      obtain rfl : byteBack out distance = byte := Option.some.inj (hbyte.symm.trans hfirst)
      rw [← hwindowed] at hcopy
      exact ⟨_, new, rfl, ⟨Nat.succ.inj hnew, hcopy⟩, rfl⟩

/-! ## Symbols -/

theorem takes_takeRanged (ranges : Array (Nat × Nat)) (symbol : Nat) :
    Takes (takeRanged ranges symbol) s (IsExtra ranges symbol) := by
  unfold takeRanged
  split
  · next least extra hrange =>
    refine ((takes_takeBits extra).bind fun more _ _ _ => Takes.pure (least + more)).congr
      fun bits value _ => ?_
    constructor
    · rintro ⟨more, _, _, rfl, ⟨hmore, rfl⟩, rfl, rfl⟩
      exact ⟨least, extra, more, hrange, hmore, List.append_nil _, rfl⟩
    · rintro ⟨least', extra', more, hrange', hmore, rfl, rfl⟩
      cases hrange.symm.trans hrange'
      exact ⟨more, _, [], (List.append_nil _).symm, ⟨hmore, rfl⟩, rfl, rfl⟩
  · next hnone =>
    refine (Takes.throw .corrupt).congr fun bits value _ => (iff_false_intro ?_).symm
    rintro ⟨least, extra, more, hrange, -⟩
    cases hnone.symm.trans hrange

/-- A distance is at least one and at most the longest. -/
theorem distance_of_isExtra {symbol distance : Nat} {bits : List Bool}
    (h : IsExtra distanceRanges symbol bits distance) :
    0 < distance ∧ distance ≤ longestDistance := by
  have htable : ∀ i : Fin distanceRanges.size, 0 < distanceRanges[i].1 ∧
      distanceRanges[i].1 + 2 ^ distanceRanges[i].2 ≤ longestDistance + 1 := by decide
  obtain ⟨least, extra, more, hrange, hmore, -, rfl⟩ := h
  obtain ⟨hsymbol, hentry⟩ := Array.getElem?_eq_some_iff.1 hrange
  have hbounds := htable ⟨symbol, hsymbol⟩
  simp only [Fin.getElem_fin, hentry] at hbounds
  omega

/-- The strings in a tree. -/
def Tree.strings (t : Tree) : Code := fun symbol bits => t.Leads bits symbol

/-- Bits come after a symbol of a block, up to its end, and stand with it for `new`. -/
inductive Follows (window : Nat) (literals distances : Code) (out : List UInt8) :
    (symbol : Nat) → (bits : List Bool) → (new : List UInt8) → Prop where
  | stop : Follows window literals distances out endOfBlock [] []
  | literal {byte : UInt8} {bits : List Bool} {new : List UInt8}
      (hrest : AreSymbols window literals distances (out ++ [byte]) bits new) :
      Follows window literals distances out byte.toNat bits (byte :: new)
  | copy {copied new : List UInt8} {length symbol distance : Nat}
      {extra string extra' bits : List Bool}
      (hlength : IsExtra lengthRanges length extra copied.length) (h : distances symbol string)
      (hdistance : IsExtra distanceRanges symbol extra' distance)
      (hcopy : IsCopy (windowed window out) distance copied)
      (hrest : AreSymbols window literals distances (out ++ copied) bits new) :
      Follows window literals distances out (endOfBlock + 1 + length)
        (extra ++ (string ++ (extra' ++ bits))) (copied ++ new)

/-- Symbols are one of them and what follows it. -/
theorem areSymbols_iff {window : Nat} {literals distances : Code} {out new : List UInt8}
    {bits : List Bool} :
    AreSymbols window literals distances out bits new ↔ ∃ symbol string rest,
      bits = string ++ rest ∧ literals symbol string ∧
        Follows window literals distances out symbol rest new := by
  constructor
  · intro h
    cases h with
    | stop h => exact ⟨_, _, [], (List.append_nil _).symm, h, .stop⟩
    | literal h hrest => exact ⟨_, _, _, rfl, h, .literal hrest⟩
    | copy h hlength h' hdistance hcopy hrest =>
      exact ⟨_, _, _, rfl, h, .copy hlength h' hdistance hcopy hrest⟩
  · rintro ⟨symbol, string, rest, rfl, h, hfollows⟩
    cases hfollows with
    | stop =>
      rw [List.append_nil]
      exact .stop h
    | literal hrest => exact .literal h hrest
    | copy hlength h' hdistance hcopy hrest => exact .copy h hlength h' hdistance hcopy hrest

/-- At the beginning of the output there is nothing that could be copied. -/
theorem not_areSymbols_of_length {literals distances : Code} (length : Nat) {bits : List Bool}
    {new : List UInt8} (hfirst : ∀ symbol string, literals symbol string → string <+: bits →
      symbol = endOfBlock + 1 + length) : ¬AreSymbols 0 literals distances [] bits new := by
  intro h
  obtain ⟨symbol, string, rest, rfl, hsymbol, hfollows⟩ := areSymbols_iff.1 h
  have heq := hfirst symbol string hsymbol (List.prefix_append _ _)
  cases hfollows with
  | stop => omega
  | @literal byte =>
    have hbyte : byte.toNat < endOfBlock := byte.toNat_lt
    omega
  | copy _ _ hdistance hcopy => exact Nat.not_lt.2 hcopy.1 (distance_of_isExtra hdistance).1

section

variable {window : Nat} {literals distances : Code} {out new : List UInt8} {bits : List Bool}

theorem follows_end_iff :
    Follows window literals distances out endOfBlock bits new ↔ bits = [] ∧ new = [] := by
  constructor
  · generalize hsymbol : endOfBlock = symbol
    intro h
    cases h with
    | stop => exact ⟨rfl, rfl⟩
    | @literal byte =>
      have hbyte : byte.toNat < endOfBlock := byte.toNat_lt
      omega
    | copy => omega
  · rintro ⟨rfl, rfl⟩
    exact .stop

theorem follows_literal_iff {byte : UInt8} :
    Follows window literals distances out byte.toNat bits new ↔
      ∃ rest, AreSymbols window literals distances (out ++ [byte]) bits rest ∧
        new = byte :: rest := by
  have hbyte : byte.toNat < endOfBlock := byte.toNat_lt
  constructor
  · generalize hsymbol : byte.toNat = symbol at hbyte
    intro h
    cases h with
    | stop => exact absurd hbyte (Nat.lt_irrefl _)
    | literal hrest =>
      obtain rfl := UInt8.toNat_inj.1 hsymbol
      exact ⟨_, hrest, rfl⟩
    | copy => omega
  · rintro ⟨rest, hrest, rfl⟩
    exact .literal hrest

theorem follows_length_iff {length : Nat} :
    Follows window literals distances out (endOfBlock + 1 + length) bits new ↔
      ∃ (copied rest : List UInt8) (symbol distance : Nat) (extra string extra' bits' : List Bool),
        IsExtra lengthRanges length extra copied.length ∧ distances symbol string ∧
        IsExtra distanceRanges symbol extra' distance ∧
        IsCopy (windowed window out) distance copied ∧
        AreSymbols window literals distances (out ++ copied) bits' rest ∧
        bits = extra ++ (string ++ (extra' ++ bits')) ∧ new = copied ++ rest := by
  constructor
  · generalize hsymbol : endOfBlock + 1 + length = symbol
    intro h
    cases h with
    | stop => omega
    | @literal byte =>
      have hbyte : byte.toNat < endOfBlock := byte.toNat_lt
      omega
    | copy hlength h hdistance hcopy hrest =>
      obtain rfl := Nat.add_left_cancel hsymbol
      exact ⟨_, _, _, _, _, _, _, _, hlength, h, hdistance, hcopy, hrest, rfl, rfl⟩
  · rintro ⟨_, _, _, _, _, _, _, _, hlength, h, hdistance, hcopy, hrest, rfl, rfl⟩
    exact .copy hlength h hdistance hcopy hrest

end

section

variable {fuel : Nat} {literals : Code} {distances : Tree} {next : ByteArray → Decoder ByteArray}

theorem takes_after_literal (out : ByteArray)
    (hnext : ∀ (s : BitSource) (out : ByteArray), s.left < fuel → out.size ≤ limit →
      Takes (next out) s (Adds limit out
        (AreSymbols longestDistance literals distances.strings out.data.toList)))
    (byte : UInt8) (hleft : s.left < fuel) :
    Takes ((liftM (emit limit out byte) : Decoder ByteArray) >>= next) s (Adds limit out
      (Follows longestDistance literals distances.strings out.data.toList byte.toNat)) := by
  refine (takes_adding (fun _ => emit_eq_ok_iff) fun out₁ hsize =>
    hnext s out₁ hleft hsize).adds_congr fun bits new => ?_
  rw [follows_literal_iff, exists_comm]
  simp only [exists_eq_left, List.singleton_append]

theorem takes_after_length
    (hnext : ∀ (s : BitSource) (out : ByteArray), s.left < fuel → out.size ≤ limit →
      Takes (next out) s (Adds limit out
        (AreSymbols longestDistance literals distances.strings out.data.toList)))
    (k : Nat) (hleft : s.left < fuel) (hout : out.size ≤ limit) :
    Takes (do
      let length ← takeRanged lengthRanges k
      let distance ← takeRanged distanceRanges (← distances.decode)
      next (← copyBack limit distance length out)) s (Adds limit out
        (Follows longestDistance literals distances.strings out.data.toList
          (endOfBlock + 1 + k))) := by
  refine ((takes_takeRanged lengthRanges k).bind fun length extra hextra _ =>
    (takes_decode distances).bind fun symbol string hstring _ =>
    (takes_takeRanged distanceRanges symbol).bind fun distance extra' hextra' hdistance =>
    takes_adding (fun out₁ => copyBack_eq_ok_iff (distance_of_isExtra hdistance).1
      (distance_of_isExtra hdistance).2 hout) fun out₁ hsize => hnext _ out₁ ?_ hsize).congr
    fun bits out' _ => ?_
  · have h₁ := left_skip hextra
    have h₂ := left_skip hstring
    have h₃ := left_skip hextra'
    omega
  · rw [Adds, Extends.congr fun new => follows_length_iff]
    constructor
    · rintro ⟨_, extra, _, rfl, hlength, symbol, string, _, rfl, hsymbol, distance, extra', bits',
        rfl, hdistance, hsize, _, ⟨copied, new, ⟨rfl, hcopy⟩, hrest, rfl⟩, rfl⟩
      exact ⟨hsize, _, ⟨copied, new, symbol, distance, extra, string, extra', bits', hlength,
        hsymbol, hdistance, hcopy, hrest, rfl, rfl⟩, rfl⟩
    · rintro ⟨hsize, _, ⟨copied, new, symbol, distance, extra, string, extra', bits', hlength,
        hsymbol, hdistance, hcopy, hrest, rfl, rfl⟩, rfl⟩
      exact ⟨_, extra, _, rfl, hlength, symbol, string, _, rfl, hsymbol, distance, extra', bits',
        rfl, hdistance, hsize, _, ⟨copied, new, ⟨rfl, hcopy⟩, hrest, rfl⟩, rfl⟩

end

/-- What the symbols of a coded block take, up to its end. -/
theorem takes_takeSymbols {codes : Codes} {fuel : Nat}
    (hstrings : ∀ symbol, ¬codes.literals.strings symbol []) (hfuel : s.left < fuel)
    (hout : out.size ≤ limit) :
    Takes (takeSymbols limit codes fuel out) s (Adds limit out
      (AreSymbols longestDistance codes.literals.strings codes.distances.strings
        out.data.toList)) := by
  induction fuel generalizing s out with
  | zero => exact absurd hfuel (Nat.not_lt_zero _)
  | succ fuel ih =>
    have hnext : ∀ (s : BitSource) (out : ByteArray), s.left < fuel → out.size ≤ limit →
        Takes (takeSymbols limit codes fuel out) s (Adds limit out
          (AreSymbols longestDistance codes.literals.strings codes.distances.strings
            out.data.toList)) := fun s out hleft hsize => ih hleft hsize
    -- The symbol and what follows it are split off first: the cases are those of the symbol.
    have hbind : Takes (takeSymbols limit codes (fuel + 1) out) s fun bits out' =>
        ∃ symbol string rest, bits = string ++ rest ∧ codes.literals.Leads string symbol ∧
          Adds limit out (Follows longestDistance codes.literals.strings codes.distances.strings
            out.data.toList symbol) rest out' := by
      rw [takeSymbols]
      refine (takes_decode codes.literals).bind fun symbol string hstring hsymbol => ?_
      -- A symbol takes a bit at least.
      have hleft : (s.skip string.length).left < fuel := by
        have hskip := left_skip hstring
        have hpos : 0 < string.length := List.length_pos_iff.2 fun hnil =>
          hstrings symbol (hnil ▸ hsymbol)
        omega
      split
      · next hlt =>
        have hbyte : symbol.toUInt8.toNat = symbol := by
          rw [Nat.toUInt8_eq, UInt8.toNat_ofNat', Nat.mod_eq_of_lt (by exact hlt)]
        have hliteral := takes_after_literal out hnext symbol.toUInt8 hleft
        rwa [hbyte] at hliteral
      · next hge =>
        split
        · next heq =>
          rw [heq]
          exact takes_nothing hout fun _ _ => follows_end_iff
        · next hne =>
          have hlength := takes_after_length hnext (symbol - 257) hleft hout
          have hsum : endOfBlock + 1 + (symbol - 257) = symbol := by
            have : endOfBlock = 256 := rfl
            omega
          rwa [hsum] at hlength
    refine hbind.congr fun bits out' _ => ?_
    constructor
    · rintro ⟨symbol, string, rest, rfl, hsymbol, hsize, new, hfollows, rfl⟩
      exact ⟨hsize, new, areSymbols_iff.2 ⟨symbol, string, rest, rfl, hsymbol, hfollows⟩, rfl⟩
    · rintro ⟨hsize, new, h, rfl⟩
      obtain ⟨symbol, string, rest, rfl, hsymbol, hfollows⟩ := areSymbols_iff.1 h
      exact ⟨symbol, string, rest, rfl, hsymbol, hsize, new, hfollows, rfl⟩

/-! ## Codes -/

/-- The trees are those of two codes. -/
def Codes.Of (codes : Codes) (literals distances : List Nat) : Prop :=
  codes.literals.strings = IsString literals ∧ codes.distances.strings = IsString distances

theorem Tree.strings_ofLengths? {lengths : List Nat} {t : Tree} (hshort : ∀ l ∈ lengths, l ≤ 15)
    (h : ofLengths? lengths = some t) : t.strings = IsString lengths :=
  funext fun _ => funext fun _ => propext (leads_ofLengths? hshort h)

/-- There are the trees of two codes, and no others. -/
theorem Codes.ofLengths_eq_ok_iff {literals distances : List Nat} {codes : Codes} :
    ofLengths literals distances = .ok codes ↔
      Tree.ofLengths? literals = some codes.literals ∧
        Tree.ofLengths? distances = some codes.distances := by
  rw [ofLengths]
  cases Tree.ofLengths? distances with
  | none => simp
  | some d =>
    cases Tree.ofLengths? literals with
    | none => simp
    | some l =>
      cases codes
      simp

theorem Codes.of_ofLengths {literals distances : List Nat} {codes : Codes}
    (hliterals : ∀ l ∈ literals, l ≤ 15) (hdistances : ∀ l ∈ distances, l ≤ 15)
    (h : ofLengths literals distances = .ok codes) :
    IsCode literals ∧ IsCode distances ∧ codes.Of literals distances := by
  obtain ⟨hl, hd⟩ := ofLengths_eq_ok_iff.1 h
  exact ⟨(Tree.ofLengths?_eq_some_iff.1 hl).1, (Tree.ofLengths?_eq_some_iff.1 hd).1,
    Tree.strings_ofLengths? hliterals hl, Tree.strings_ofLengths? hdistances hd⟩

theorem Tree.exists_ofLengths? {lengths : List Nat} (h : IsCode lengths) :
    ∃ t, ofLengths? lengths = some t := ⟨_, ofLengths?_eq_some_iff.2 ⟨h, rfl⟩⟩

theorem Codes.exists_ofLengths {literals distances : List Nat} (hliterals : IsCode literals)
    (hdistances : IsCode distances) : ∃ codes, ofLengths literals distances = .ok codes := by
  obtain ⟨l, hl⟩ := Tree.exists_ofLengths? hliterals
  obtain ⟨d, hd⟩ := Tree.exists_ofLengths? hdistances
  exact ⟨⟨l, d⟩, ofLengths_eq_ok_iff.2 ⟨hl, hd⟩⟩

theorem not_isString_nil (lengths : List Nat) (symbol : Nat) : ¬IsString lengths symbol [] := by
  rintro ⟨hpos, hnil⟩
  have hlength := congrArg List.length hnil
  rw [stringOf, length_highestFirst, List.length_nil] at hlength
  omega

/-- What a coded block takes. -/
theorem takes_takeCoded {codes : Codes} {literals distances : List Nat}
    (h : codes.Of literals distances) (hout : out.size ≤ limit) :
    Takes (takeCoded limit codes out) s (Adds limit out
      (AreSymbols longestDistance (IsString literals) (IsString distances) out.data.toList)) := by
  obtain ⟨hliterals, hdistances⟩ := h
  have hstrings : ∀ symbol, ¬codes.literals.strings symbol [] := by
    rw [hliterals]
    exact not_isString_nil literals
  have hsymbols : Takes (takeSymbols limit codes (s.left + 1) out) s _ :=
    takes_takeSymbols hstrings (Nat.lt_succ_self s.left) hout
  rw [hliterals, hdistances] at hsymbols
  have hstep : takeCoded limit codes out s = takeSymbols limit codes (s.left + 1) out s := rfl
  exact hsymbols.of_eq hstep

end StatusList.Flate
