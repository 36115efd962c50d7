import StatusList.Json.Value
import StatusList.Proofs.Text.Utf8

/-!
# Numerals in a text

A numeral is a sign, digits, perhaps a point with digits after it, and perhaps a power of ten
(`Spells`). It is scanned as it stands in a text (`Spells.scan_append`), up to a byte that cannot
go on with a number (`Ends`).

An integer is written as its numeral (`spells_toString`), and that has the integer as its value
if it fits into 64 bits with or without a sign (`value_ofInt`).
-/

namespace StatusList.Json.Numeral

/-! ## Digits -/

/-- The decimal digits of a number, the highest first. -/
def decimals (n : Nat) : List Nat :=
  if n < 10 then [n] else decimals (n / 10) ++ [n % 10]

theorem decimals_of_lt {n : Nat} (h : n < 10) : decimals n = [n] := by
  rw [decimals, if_pos h]

theorem decimals_of_not_lt {n : Nat} (h : ¬ n < 10) :
    decimals n = decimals (n / 10) ++ [n % 10] := by
  rw [decimals, if_neg h]

theorem decimals_ne_nil (n : Nat) : decimals n ≠ [] := by
  rw [decimals]
  split <;> simp

theorem lt_of_mem_decimals {n d : Nat} (h : d ∈ decimals n) : d < 10 := by
  induction n using decimals.induct with
  | case1 n hn =>
    rw [decimals_of_lt hn, List.mem_singleton] at h
    omega
  | case2 n hn ih =>
    rw [decimals_of_not_lt hn, List.mem_append, List.mem_singleton] at h
    rcases h with h | rfl
    · exact ih h
    · exact Nat.mod_lt _ (by decide)

/-- The digits give the number. -/
theorem ofDigits_decimals (n : Nat) : ofDigits (decimals n) = n := by
  induction n using decimals.induct with
  | case1 n hn => rw [decimals_of_lt hn, ofDigits, List.foldl_cons, List.foldl_nil]; omega
  | case2 n hn ih =>
    rw [ofDigits] at ih
    rw [decimals_of_not_lt hn, ofDigits, List.foldl_append, ih, List.foldl_cons, List.foldl_nil]
    omega

/-- Only zero begins with the digit zero. -/
theorem eq_zero_of_head?_decimals {n : Nat} (h : (decimals n).head? = some 0) : n = 0 := by
  induction n using decimals.induct with
  | case1 n hn =>
    rw [decimals_of_lt hn] at h
    exact Option.some.inj h
  | case2 n hn ih =>
    rw [decimals_of_not_lt hn, List.head?_append_of_ne_nil _ (decimals_ne_nil _)] at h
    have := ih h
    omega

theorem toDigits_eq_decimals (n : Nat) : Nat.toDigits 10 n = (decimals n).map Nat.digitChar := by
  induction n using decimals.induct with
  | case1 n hn => rw [Nat.toDigits_of_lt_base hn, decimals_of_lt hn, List.map_singleton]
  | case2 n hn ih =>
    rw [Nat.toDigits_of_base_le (by decide) (Nat.not_lt.1 hn), ih, decimals_of_not_lt hn,
      List.map_append, List.map_singleton]

/-- The byte of a digit. -/
def digitByte (d : Nat) : UInt8 := (48 + d).toUInt8

theorem isDigit_digitByte {d : Nat} (h : d < 10) :
    isDigit (digitByte d) = true ∧ (digitByte d).toNat - 48 = d := by
  decide +revert

/-- The bytes of a number. -/
theorem encode_repr (n : Nat) : Utf8.encode n.repr.toList = (decimals n).map digitByte := by
  have hdigit : ∀ d < 10, String.utf8EncodeChar d.digitChar = [digitByte d] := by decide
  rw [Nat.toList_repr, toDigits_eq_decimals, Utf8.encode, List.flatMap_map]
  have hall := fun d (h : d ∈ decimals n) => hdigit d (lt_of_mem_decimals h)
  generalize decimals n = ds at hall
  induction ds with
  | nil => rfl
  | cons d ds ih =>
    obtain ⟨hd, hds⟩ := List.forall_mem_cons.1 hall
    rw [List.flatMap_cons, ih hds, hd, List.map_cons, List.singleton_append]

/-! ## Numerals in a text -/

/-- Digits as they stand in a numeral. -/
structure AreDigits (ds : List Nat) : Prop where
  ne_nil : ds ≠ []
  lt_ten : ∀ d ∈ ds, d < 10

/-- The bytes of digits. -/
def digitBytes (ds : List Nat) : List UInt8 := ds.map digitByte

/-- What stands for the digits after the point: nothing, or a point and the digits. -/
inductive SpellsFraction : Option (List Nat) → List UInt8 → Prop where
  | absent : SpellsFraction none []
  | digits {ds : List Nat} (h : AreDigits ds) : SpellsFraction (some ds) (46 :: digitBytes ds)

/-- What stands for the power of ten: nothing, or the letter e in either case, perhaps a sign,
    and the digits. -/
inductive SpellsPower : Option (Bool × List Nat) → List UInt8 → Prop where
  | absent : SpellsPower none []
  | unsigned {e : UInt8} {ds : List Nat} (he : e = 101 ∨ e = 69) (h : AreDigits ds) :
    SpellsPower (some (false, ds)) (e :: digitBytes ds)
  | plus {e : UInt8} {ds : List Nat} (he : e = 101 ∨ e = 69) (h : AreDigits ds) :
    SpellsPower (some (false, ds)) (e :: 43 :: digitBytes ds)
  | minus {e : UInt8} {ds : List Nat} (he : e = 101 ∨ e = 69) (h : AreDigits ds) :
    SpellsPower (some (true, ds)) (e :: 45 :: digitBytes ds)

/-- What stands for a sign. -/
def signBytes (negative : Bool) : List UInt8 := if negative then [45] else []

/-- A text is a numeral. Its digits before the point begin with zero only if there is no
    other. -/
inductive Spells : Numeral → List UInt8 → Prop where
  | mk {whole : List Nat} {fraction : Option (List Nat)} {power : Option (Bool × List Nat)}
    {after behind : List UInt8} (negative : Bool) (hwhole : AreDigits whole)
    (hzero : whole.head? = some 0 → whole = [0]) (hfraction : SpellsFraction fraction after)
    (hpower : SpellsPower power behind) :
    Spells ⟨negative, whole, fraction, power⟩
      (signBytes negative ++ (digitBytes whole ++ (after ++ behind)))

/-! ## Scanning -/

/-- What follows does not go on with digits. -/
def EndsDigits (rest : List UInt8) : Prop := ∀ b ∈ rest.head?, isDigit b = false

/-- What follows does not go on with a number. -/
def Ends (rest : List UInt8) : Prop :=
  ∀ b ∈ rest.head?, isDigit b = false ∧ b ≠ 46 ∧ b ≠ 101 ∧ b ≠ 69

theorem Ends.endsDigits {rest : List UInt8} (h : Ends rest) : EndsDigits rest :=
  fun b hb => (h b hb).1

theorem endsDigits_cons {b : UInt8} (h : isDigit b = false) (rest : List UInt8) :
    EndsDigits (b :: rest) := by
  intro b' hb'
  rwa [← Option.some.inj hb']

/-- The first byte of digits is one of a digit. -/
theorem AreDigits.exists_cons {ds : List Nat} (h : AreDigits ds) :
    ∃ b text, digitBytes ds = b :: text ∧ isDigit b = true := by
  obtain ⟨d, ds, rfl⟩ := List.exists_cons_of_ne_nil h.ne_nil
  exact ⟨_, _, rfl, (isDigit_digitByte (h.lt_ten d List.mem_cons_self)).1⟩

/-- Digits are scanned up to what does not go on with them. -/
theorem AreDigits.someDigits_append {ds : List Nat} (h : AreDigits ds) {rest : List UInt8}
    (hrest : EndsDigits rest) : someDigits (digitBytes ds ++ rest) = .ok (ds, rest) := by
  have hall : ∀ b ∈ digitBytes ds, isDigit b = true := by
    intro b hb
    obtain ⟨d, hd, rfl⟩ := List.mem_map.1 hb
    exact (isDigit_digitByte (h.lt_ten d hd)).1
  have hstop : rest.takeWhile isDigit = [] ∧ rest.dropWhile isDigit = rest := by
    cases rest with
    | nil => exact ⟨rfl, rfl⟩
    | cons b rest =>
      have hb := hrest b rfl
      exact ⟨by rw [List.takeWhile_cons, hb]; rfl, by rw [List.dropWhile_cons, hb]; rfl⟩
  have hvalues : (digitBytes ds).map (fun b => b.toNat - 48) = ds := by
    rw [digitBytes, List.map_map]
    exact (List.map_congr_left fun d hd => (isDigit_digitByte (h.lt_ten d hd)).2).trans
      (List.map_id ds)
  rw [someDigits, digits, List.takeWhile_append_of_pos hall, List.dropWhile_append_of_pos hall,
    hstop.1, hstop.2, List.append_nil, hvalues]
  obtain ⟨d, ds, rfl⟩ := List.exists_cons_of_ne_nil h.ne_nil
  rfl

theorem scanWhole_append {ds : List Nat} (h : AreDigits ds)
    (hzero : ds.head? = some 0 → ds = [0]) {rest : List UInt8} (hrest : EndsDigits rest) :
    scanWhole (digitBytes ds ++ rest) = .ok (ds, rest) := by
  rw [scanWhole, h.someDigits_append hrest]
  split
  · next heq =>
    obtain ⟨rfl, -⟩ := Prod.mk.inj (Except.ok.inj heq)
    cases hzero rfl
  · rfl

theorem SpellsFraction.scan_append {fraction : Option (List Nat)} {text : List UInt8}
    (h : SpellsFraction fraction text) {rest : List UInt8} (hrest : EndsDigits rest)
    (hpoint : ∀ b ∈ rest.head?, b ≠ 46) : scanFraction (text ++ rest) = .ok (fraction, rest) := by
  cases h with
  | absent =>
    rw [List.nil_append]
    unfold scanFraction
    split
    · exact absurd rfl (hpoint 46 rfl)
    · rfl
  | digits hds =>
    rw [List.cons_append, scanFraction, hds.someDigits_append hrest]
    rfl

theorem AreDigits.splitSign_append {ds : List Nat} (h : AreDigits ds) (rest : List UInt8) :
    splitMinus (digitBytes ds ++ rest) = (false, digitBytes ds ++ rest) ∧
      splitSign (digitBytes ds ++ rest) = (false, digitBytes ds ++ rest) := by
  obtain ⟨b, text, hbytes, hb⟩ := h.exists_cons
  have hminus : b ≠ 45 := fun heq => absurd (heq ▸ hb) (by decide)
  have hplus : b ≠ 43 := fun heq => absurd (heq ▸ hb) (by decide)
  have hsplit : splitMinus (b :: (text ++ rest)) = (false, b :: (text ++ rest)) := by
    rw [splitMinus]
    rintro _ heq
    exact absurd (List.cons.inj heq).1 hminus
  rw [hbytes, List.cons_append]
  refine ⟨hsplit, ?_⟩
  rw [splitSign, hsplit]
  rintro _ heq
  exact absurd (List.cons.inj heq).1 hplus

theorem SpellsPower.scan_append {power : Option (Bool × List Nat)} {text : List UInt8}
    (h : SpellsPower power text) {rest : List UInt8} (hrest : Ends rest) :
    scanPower (text ++ rest) = .ok (power, rest) := by
  cases h with
  | absent =>
    rw [List.nil_append]
    cases rest with
    | nil => rfl
    | cons b rest =>
      obtain ⟨-, -, hsmall, hlarge⟩ := hrest b rfl
      exact if_neg (not_or.2 ⟨hsmall, hlarge⟩)
  | unsigned he hds =>
    rw [List.cons_append, scanPower, if_pos he, (hds.splitSign_append rest).2,
      hds.someDigits_append hrest.endsDigits]
    rfl
  | plus he hds =>
    rw [List.cons_append, List.cons_append, scanPower, if_pos he, splitSign,
      hds.someDigits_append hrest.endsDigits]
    rfl
  | minus he hds =>
    have hsign : ∀ text : List UInt8, splitSign (45 :: text) = (true, text) := fun _ => rfl
    rw [List.cons_append, List.cons_append, scanPower, if_pos he, hsign,
      hds.someDigits_append hrest.endsDigits]
    rfl

/-- What stands for a power of ten does not go on with what is before the power. -/
theorem SpellsPower.head? {power : Option (Bool × List Nat)} {text : List UInt8}
    (h : SpellsPower power text) {rest : List UInt8} (hrest : Ends rest) :
    ∀ b ∈ (text ++ rest).head?, isDigit b = false ∧ b ≠ 46 := by
  have hletter : ∀ {e : UInt8}, e = 101 ∨ e = 69 → isDigit e = false ∧ e ≠ 46 := by
    rintro e (rfl | rfl) <;> decide
  cases h with
  | absent => exact fun b hb => ⟨(hrest b hb).1, (hrest b hb).2.1⟩
  | unsigned he | plus he | minus he =>
    intro b hb
    obtain rfl := Option.some.inj hb
    exact hletter he

/-- A numeral is scanned up to what does not go on with it. -/
theorem Spells.scan_append {numeral : Numeral} {text : List UInt8} (h : Spells numeral text)
    {rest : List UInt8} (hrest : Ends rest) : scan (text ++ rest) = .ok (numeral, rest) := by
  obtain ⟨negative, hwhole, hzero, hfraction, hpower⟩ := h
  rename_i whole fraction power after behind
  have hbehind := hpower.head? hrest
  have hafter : EndsDigits (after ++ (behind ++ rest)) := by
    cases hfraction with
    | absent => exact fun b hb => (hbehind b hb).1
    | digits => exact endsDigits_cons (by decide) _
  have hsign : splitMinus (signBytes negative ++ (digitBytes whole ++ (after ++ (behind ++ rest))))
      = (negative, digitBytes whole ++ (after ++ (behind ++ rest))) := by
    cases negative with
    | false => exact (hwhole.splitSign_append _).1
    | true => rfl
  simp only [List.append_assoc]
  rw [scan, hsign]
  simp only [scanWhole_append hwhole hzero hafter,
    hfraction.scan_append (fun b hb => (hbehind b hb).1) (fun b hb => (hbehind b hb).2),
    hpower.scan_append hrest, bind, Except.bind, pure, Except.pure]

/-- A numeral begins with a digit or with its sign. -/
theorem Spells.exists_cons {numeral : Numeral} {text : List UInt8} (h : Spells numeral text) :
    ∃ b rest, text = b :: rest ∧ (b = 45 ∨ isDigit b = true) := by
  obtain ⟨negative, hwhole, -, -, -⟩ := h
  cases negative with
  | false =>
    obtain ⟨b, bytes, hbytes, hb⟩ := hwhole.exists_cons
    exact ⟨b, _, by rw [hbytes]; rfl, .inr hb⟩
  | true => exact ⟨45, _, rfl, .inl rfl⟩

/-! ## Integers -/

/-- The numeral of an integer. -/
def ofInt (n : Int) : Numeral := ⟨n < 0, decimals n.natAbs, none, none⟩

/-- An integer is written as its numeral. -/
theorem spells_toString (n : Int) : Spells (ofInt n) (Utf8.encode (toString n).toList) := by
  have hdigits : ∀ n : Nat, AreDigits (decimals n) := fun n =>
    ⟨decimals_ne_nil n, fun d hd => lt_of_mem_decimals hd⟩
  have hzero : ∀ n : Nat, (decimals n).head? = some 0 → decimals n = [0] := by
    intro n hn
    rw [eq_zero_of_head?_decimals hn, decimals_of_lt (by decide)]
  have hspells : ∀ (negative : Bool) (n : Nat), Spells ⟨negative, decimals n, none, none⟩
      (signBytes negative ++ digitBytes (decimals n)) := by
    intro negative n
    have h := Spells.mk negative (hdigits n) (hzero n) .absent .absent
    rwa [List.append_nil, List.append_nil] at h
  cases n with
  | ofNat n =>
    have htext : Utf8.encode (toString (Int.ofNat n)).toList = digitBytes (decimals n) :=
      encode_repr n
    have hsign : ¬ Int.ofNat n < 0 := Int.not_lt.2 (Int.natCast_nonneg n)
    rw [htext, ofInt, decide_eq_false hsign]
    exact hspells false n
  | negSucc n =>
    have htext : (toString (Int.negSucc n)).toList = '-' :: (n + 1).repr.toList :=
      String.toList_append
    have hminus : String.utf8EncodeChar '-' = [45] := by decide
    rw [htext, Utf8.encode_cons, encode_repr, hminus, ofInt,
      decide_eq_true (Int.negSucc_lt_zero n)]
    exact hspells true (n + 1)

/-! ## Values -/

/-- An integer that fits into 64 bits, with or without a sign, is the value of its
    numeral. -/
theorem value_ofInt {n : Int} (hleast : -2 ^ 63 ≤ n) (hmost : n < 2 ^ 64) :
    (ofInt n).value = .ok (.integer n) := by
  have hbeyond : beyond = 2 ^ 64 := rfl
  simp only [value, ofInt, ofDigits_decimals, Option.isNone_none, and_self, if_true]
  rcases lt_or_ge n 0 with hneg | hpos
  · have habs : 0 < n.natAbs ∧ n.natAbs ≤ 0x8000000000000000 := by omega
    have hvalue : -(n.natAbs : Int) = n := by omega
    rw [if_neg (by simp [hneg]), if_pos ⟨by simpa using hneg, habs⟩, hvalue]
  · have hnot : ¬ n < 0 := Int.not_lt.2 hpos
    have habs : n.natAbs < beyond := by omega
    have hvalue : (n.natAbs : Int) = n := by omega
    rw [if_pos ⟨by simpa using hnot, habs⟩, hvalue]

end StatusList.Json.Numeral
