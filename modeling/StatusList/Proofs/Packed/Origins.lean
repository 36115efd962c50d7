import StatusList.Cbor.Claim
import StatusList.Command.Entries
import StatusList.Proofs.Packed.Counted
import StatusList.Proofs.Packed.Filled

/-!
# How lists come about

A list is made with as many entries as it is asked for, of bytes that are packed already, or of
values that are put into it (`Origin`). Where the entries are asked for, the bytes are counted by
them, and where there are bytes, the entries are counted by these; both ways, the count that is
kept is the number of entries that the bytes have room for (`Origin.make_cases`). As calls keep it,
it is right in every list that there can be, and every such list is safe
(`counted_lists_are_safe`).
-/

namespace StatusList

namespace Counted

/-! ## Making lists -/

/-- The list of `entries` zeros. -/
def zeros (w : Width) (entries : Nat) : Except Stop Counted :=
  if entries = 0 ∨ entries % w.perByte ≠ 0 then
    .error (.refused (.invalidSize entries w.perByte))
  else .ok ⟨w, entries, Packed.fill 0 (entries / w.perByte) .empty⟩

/-- The list of `entries` times `value`. -/
def replicate (w : Width) (entries : Nat) (value : UInt8) : Except Stop Counted := do
  let p ← zeros w entries
  Packed.checkValue w value
  return { p with bytes := Packed.fill (Packed.spread w value) p.bytes.size .empty }

/-- The list of bytes that are packed already. -/
def ofBytes (w : Width) (raw : ByteArray) : Except Stop Counted := do
  return ⟨w, ← Guarded.mul raw.size w.perByte, raw⟩

/-- Put values into a list, the first of them at `index`. -/
def putAll (p : Counted) (index : Nat) : List UInt8 → Except Stop Counted
  | [] => .ok p
  | value :: values => do (← p.set index value).putAll (index + 1) values

/-- The number of bytes that `n` values take, at least one. -/
def bytesFor (w : Width) (n : Nat) : Nat := max 1 ((n + w.perByte - 1) / w.perByte)

/-- The list of values, with zeros after them up to a whole byte. -/
def ofValues (w : Width) (values : List UInt8) : Except Stop Counted := do
  let p ← zeros w (← Guarded.mul (bytesFor w values.length) w.perByte)
  p.putAll 0 values

end Counted

/-- How a list comes about. -/
inductive Origin where
  /-- With entries that are zero. -/
  | zeros (w : Width) (entries : Nat)
  /-- With entries of one value. -/
  | replicate (w : Width) (entries : Nat) (value : UInt8)
  /-- Of packed bytes. -/
  | bytes (w : Width) (raw : ByteArray)
  /-- Of an encoded list. -/
  | encoded (w : Width) (text : String)
  /-- Of a binary claim. -/
  | claim (c : BinaryClaim)
  /-- Of the bytes of a document. -/
  | document (w : Width) (raw : ByteArray) (aggregationUri : Option String)
  /-- Of values that are put into it by hand. -/
  | values (w : Width) (entries : List UInt8)

namespace Origin

/-- The list that comes about. -/
def packed : Origin → Except Error Packed
  | zeros w entries => Packed.zeros w entries
  | replicate w entries value => Packed.replicate w entries value
  | bytes w raw => .ok ⟨w, raw⟩
  | encoded w text => Packed.ofEncoded w text
  | claim c => c.toPacked
  | document w raw aggregationUri => (Document.ofPacked w raw aggregationUri).map Document.list
  | values w entries => (Command.packValues w entries).mapError Command.EntryError.cause

/-- The list that comes about in memory. -/
def make : Origin → Except Stop Counted
  | zeros w entries => Counted.zeros w entries
  | replicate w entries value => Counted.replicate w entries value
  | bytes w raw => Counted.ofBytes w raw
  | encoded w text => do Counted.ofBytes w (← decodePacked text)
  | claim c => do Counted.ofBytes c.width (← inflate c.lst)
  | document w raw _ => do
    let p ← Counted.ofBytes w raw
    if p.count < entryLimit then return p
    else throw (.refused (.malformedToken (.tooManyEntries p.count)))
  | values w entries => Counted.ofValues w entries

/-- The bytes that are taken over as they are, if the list is made of bytes. -/
def adopted? : Origin → Option ByteArray
  | bytes _ raw | document _ raw _ => some raw
  | encoded _ text => (decodePacked text).toOption
  | claim c => (inflate c.lst).toOption
  | zeros .. | replicate .. | values .. => none

end Origin

/-! ## Counts of new lists -/

namespace Counted

variable {w : Width}

theorem zeros_eq_packed (w : Width) (entries : Nat) :
    zeros w entries = ((Packed.zeros w entries).map ofPacked).mapError .refused := by
  by_cases h : entries = 0 ∨ entries % w.perByte ≠ 0
  · rw [zeros, Packed.zeros, if_pos h, if_pos h]
    rfl
  · have hmade : Packed.zeros w entries = .ok ⟨w, Packed.fill 0 (entries / w.perByte) .empty⟩ :=
      if_neg h
    rw [zeros, if_neg h, hmade]
    -- The bytes are the entries divided; multiplied again they are the entries, as none was left.
    exact congrArg (fun count => Except.ok (Counted.mk w count _)) (Packed.size_of_zeros hmade).symm

theorem replicate_eq_packed (w : Width) (entries : Nat) (value : UInt8) :
    replicate w entries value =
      ((Packed.replicate w entries value).map ofPacked).mapError .refused := by
  rw [replicate, zeros_eq_packed, Packed.replicate, Packed.zeros_eq]
  split
  · cases Packed.checkValue w value with
    | error e => rfl
    | ok _ =>
      refine congrArg (fun count => Except.ok (Counted.mk w count _)) ?_
      simp only [Packed.size, ofPacked, Packed.size_fill_empty]
  · rfl

/-- If a word does not count the entries of some bytes, there are very many bytes. -/
theorem le_of_mul_perByte {bytes : Nat} (h : 2 ^ 64 ≤ bytes * w.perByte) : 2 ^ 61 ≤ bytes := by
  have hper : bytes * w.perByte ≤ bytes * 8 := Nat.mul_le_mul_left _ (Nat.div_le_self 8 _)
  omega

/-- Bytes are counted by their entries, as long as a word counts these. -/
theorem ofBytes_cases (w : Width) (raw : ByteArray) :
    Tracks (ofBytes w raw) (.ok ⟨w, raw⟩)
      (∀ p, (.ok ⟨w, raw⟩ : Except Error Packed) = .ok p → 2 ^ 61 ≤ p.bytes.size) := by
  rcases Nat.lt_or_ge (raw.size * w.perByte) (2 ^ 64) with h | h
  · left
    rw [ofBytes, Guarded.mul_of_lt h]
    rfl
  · rw [ofBytes, Guarded.mul_of_le h]
    refine .inr ⟨rfl, ?_⟩
    rintro p ⟨⟩
    exact le_of_mul_perByte h

/-- Values are put into a list in memory as they are put into the list. -/
theorem putAll_cases {p : Counted} (hs : p.Sound) (index : Nat) (values : List UInt8) :
    Tracks (p.putAll index values)
      ((Command.putAll p.packed index values).mapError Command.EntryError.cause)
      (2 ^ 61 ≤ p.bytes.size) := by
  induction values generalizing p index with
  | nil => exact .inl (congrArg Except.ok hs.eq)
  | cons value values ih =>
    rw [putAll, Command.putAll]
    rcases set_cases hs index value with h | ⟨h, hlarge⟩
    · rw [h]
      cases hset : p.packed.set index value with
      | error e => exact .inl rfl
      | ok r =>
        have hbytes : r.bytes.size = p.bytes.size := (Packed.set_keeps hset).2
        exact hbytes ▸ ih (sound_ofPacked r) (index + 1)
    · rw [h]
      exact .inr ⟨rfl, hlarge⟩

theorem bytesFor_pos (w : Width) (n : Nat) : 0 < bytesFor w n := by
  rw [bytesFor]
  omega

theorem size_bytes_roomFor (w : Width) (n : Nat) :
    (Command.roomFor w n).bytes.size = bytesFor w n := Packed.size_fill_empty 0 _

/-- The room for values is a list of zeros. -/
theorem zeros_bytesFor (w : Width) (n : Nat) :
    Packed.zeros w (bytesFor w n * w.perByte) = .ok (Command.roomFor w n) := by
  rw [Packed.zeros_eq, if_pos ⟨Nat.mul_pos (bytesFor_pos w n) w.perByte_pos, Nat.dvd_mul_left _ _⟩,
    Nat.mul_div_cancel _ w.perByte_pos]
  rfl

/-- Packing values counts more entries than a word counts only if they take very many bytes. -/
theorem ofValues_cases (w : Width) (values : List UInt8) :
    Tracks (ofValues w values)
      ((Command.packValues w values).mapError Command.EntryError.cause)
      (2 ^ 61 ≤ (Command.roomFor w values.length).bytes.size) := by
  rw [ofValues, Command.packValues]
  rcases Nat.lt_or_ge (bytesFor w values.length * w.perByte) (2 ^ 64) with h | h
  · rw [Guarded.mul_of_lt h]
    change Tracks (zeros w (bytesFor w values.length * w.perByte) >>= (·.putAll 0 values)) _ _
    rw [zeros_eq_packed, zeros_bytesFor]
    exact putAll_cases (sound_ofPacked _) 0 values
  · rw [Guarded.mul_of_le h, size_bytes_roomFor]
    exact .inr ⟨rfl, le_of_mul_perByte h⟩

end Counted

namespace Command

theorem putAll_keeps {p q : Packed} {index : Nat} {values : List UInt8}
    (h : putAll p index values = .ok q) : q.bytes.size = p.bytes.size := by
  induction values generalizing p index with
  | nil =>
    cases h
    rfl
  | cons value values ih =>
    rw [putAll] at h
    cases hset : p.set index value with
    | error e =>
      rw [hset] at h
      cases h
    | ok r =>
      rw [hset] at h
      exact (ih h).trans (Packed.set_keeps hset).2

end Command

namespace Origin

/-- However a list comes about, it comes about in memory with the entries counted, or it has very
    many bytes. -/
theorem make_cases (o : Origin) :
    Counted.Tracks o.make o.packed (∀ p, o.packed = .ok p → 2 ^ 61 ≤ p.bytes.size) := by
  cases o with
  | zeros w entries => exact .inl (Counted.zeros_eq_packed w entries)
  | replicate w entries value => exact .inl (Counted.replicate_eq_packed w entries value)
  | bytes w raw => exact Counted.ofBytes_cases w raw
  | encoded w text =>
    rw [make, packed, Packed.ofEncoded]
    cases decodePacked text with
    | error e => exact .inl rfl
    | ok raw => exact Counted.ofBytes_cases w raw
  | claim c =>
    rw [make, packed, BinaryClaim.toPacked]
    cases inflate c.lst with
    | error e => exact .inl rfl
    | ok raw => exact Counted.ofBytes_cases c.width raw
  | document w raw aggregationUri =>
    rw [make, packed, Document.ofPacked]
    rcases Counted.ofBytes_cases w raw with h | ⟨h, hlarge⟩
    · left
      rw [h]
      by_cases hlimit : (Packed.mk w raw).size < entryLimit
      · rw [dif_pos hlimit]
        exact if_pos hlimit
      · rw [dif_neg hlimit]
        exact if_neg hlimit
    · rw [h]
      -- A document refuses as many entries, too, but the machine stops before it is asked.
      refine .inr ⟨rfl, fun p hp => ?_⟩
      split at hp
      · exact hlarge p hp
      · cases hp
  | values w entries =>
    refine (Counted.ofValues_cases w entries).imp_right fun h => ⟨h.1, fun p hp => ?_⟩
    exact h.2.trans_eq (Command.putAll_keeps (mapError_eq_ok_iff.1 hp)).symm

theorem size_fill_pos (byte : UInt8) {w : Width} {entries : Nat}
    (h : 0 < entries ∧ w.perByte ∣ entries) :
    0 < (Packed.fill byte (entries / w.perByte) .empty).size := by
  rw [Packed.size_fill_empty]
  exact Nat.div_pos (Nat.le_of_dvd h.1 h.2) w.perByte_pos

/-- A list takes over its bytes, or it has at least one. -/
theorem adopted?_cases {o : Origin} {p : Packed} (h : o.packed = .ok p) :
    o.adopted? = some p.bytes ∨ o.adopted? = none ∧ 0 < p.bytes.size := by
  cases o with
  | zeros w entries =>
    rw [packed, Packed.zeros_eq] at h
    split at h
    · next hsize =>
      cases h
      exact .inr ⟨rfl, size_fill_pos 0 hsize⟩
    · cases h
  | replicate w entries value =>
    rw [packed, Packed.replicate_eq] at h
    split at h
    · next hsize =>
      split at h
      · cases h
      · cases h
        exact .inr ⟨rfl, size_fill_pos _ hsize⟩
    · cases h
  | bytes w raw =>
    cases h
    exact .inl rfl
  | encoded w text =>
    obtain ⟨raw, hraw, hp⟩ := bind_eq_ok_iff.1 h
    cases hp
    exact .inl (toOption_eq_some_iff.2 hraw)
  | claim c =>
    obtain ⟨raw, hraw, hp⟩ := bind_eq_ok_iff.1 h
    cases hp
    exact .inl (toOption_eq_some_iff.2 hraw)
  | document w raw aggregationUri =>
    rw [packed, Document.ofPacked] at h
    split at h
    · cases h
      exact .inl rfl
    · cases h
  | values w entries =>
    refine .inr ⟨rfl, ?_⟩
    rw [Command.putAll_keeps (mapError_eq_ok_iff.1 h), Counted.size_bytes_roomFor]
    exact Counted.bytesFor_pos w _

/-- Only bytes that there are none of make a list without entries. -/
theorem size_eq_zero_iff {o : Origin} {p : Packed} (h : o.packed = .ok p) :
    p.size = 0 ↔ o.adopted? = some .empty := by
  have hsize : p.size = 0 ↔ p.bytes.size = 0 := by
    rw [Packed.size, Nat.mul_eq_zero]
    exact or_iff_left p.width.perByte_pos.ne'
  rw [hsize]
  rcases adopted?_cases h with hsome | ⟨hnone, hpos⟩
  · rw [hsome, Option.some.injEq, ByteArray.size_eq_zero_iff]
  · rw [hnone]
    exact iff_of_false hpos.ne' (Option.some_ne_none _).symm

end Origin

/-! ## The whole -/

/-- A list in memory is counted rightly, whatever it has come from and whatever has been done
    with it, and so it is safe.

    Every list that can be made is made in memory as well, if it has fewer than `2 ^ 61` bytes.
    What is made in memory is such a list, with no entries just if it has taken over no bytes.
    Calls on it are calls on the list: whether they succeed or not, they keep the width and the
    count, and the count is the number of entries that the bytes have room for. With fewer than
    `2 ^ 61` bytes no guard fails in any of these lists. -/
theorem counted_lists_are_safe (o : Origin) :
    (∀ p, o.packed = .ok p → p.bytes.size < 2 ^ 61 → o.make = .ok (.ofPacked p)) ∧
    ∀ p, o.make = .ok p →
      o.packed = .ok p.packed ∧ (p.count = 0 ↔ o.adopted? = some .empty) ∧
      ∀ calls answers q, p.run calls = .ok (answers, q) →
        (answers, q.packed) = p.packed.run calls ∧
        q.count = q.bytes.size * (8 / q.width.bits) ∧ q.width = p.width ∧ q.count = p.count ∧
        (q.bytes.size < 2 ^ 61 → q.Safe) := by
  refine ⟨fun p hp hbytes => ?_, fun p hp => ?_⟩
  · rw [o.make_cases.eq fun hlarge => Nat.not_lt.2 (hlarge p hp) hbytes, hp]
    rfl
  · obtain ⟨hpacked, hs⟩ := (hp ▸ o.make_cases).of_ok
    refine ⟨hpacked, ?_, fun calls answers q hrun => ?_⟩
    · rw [hs]
      exact Origin.size_eq_zero_iff hpacked
    · rcases Counted.run_cases hs calls with h | ⟨h, -⟩
      · cases hrun.symm.trans h
        obtain ⟨hwidth, hbytes⟩ := Packed.run_keeps p.packed calls
        have hcount := ((Packed.size_eq_iff hwidth).2 hbytes).trans hs.symm
        have hq := Counted.sound_ofPacked (p.packed.run calls).2
        exact ⟨rfl, hq, hwidth, hcount, hq.safe⟩
      · cases hrun.symm.trans h

/-- Five values of two bits in two bytes, and four calls on them: past the end, of a value that
    fits, of one that does not, and of the last entry. -/
theorem counted_list_of_five_is_safe :
    let o : Origin := .values .two [1, 2, 0, 3, 3]
    let p : Counted := ⟨.two, 8, [0xC9, 0x03].toByteArray⟩
    let q : Counted := ⟨.two, 8, [0xCA, 0x03].toByteArray⟩
    let calls : List Call := [.set 8 1, .set 0 2, .set 1 4, .get 7]
    let answers : List Answer :=
      [.error (.outOfRange 8 8), .ok none, .error (.valueTooLarge 4 3), .ok (some 0)]
    o.packed = .ok p.packed ∧ p.bytes.size < 2 ^ 61 ∧ o.make = .ok p ∧
    (p.count = 0 ↔ o.adopted? = some .empty) ∧ p.run calls = .ok (answers, q) ∧
    (answers, q.packed) = p.packed.run calls ∧ q.bytes.size < 2 ^ 61 ∧ q.Safe := by
  intro o p q calls answers
  have hpacked : o.packed = .ok p.packed := rfl
  have hrun : p.run calls = .ok (answers, q) := by cbv
  obtain ⟨hmade, hmakes⟩ := counted_lists_are_safe o
  have hsound : p.Sound := (by decide : p.count = p.packed.size)
  have hmake : o.make = .ok p := by
    rw [hmade p.packed hpacked (by decide), ← hsound.eq]
  obtain ⟨-, hempty, hcalls⟩ := hmakes p hmake
  obtain ⟨hsame, -, -, -, hsafe⟩ := hcalls calls answers q hrun
  exact ⟨hpacked, by decide, hmake, hempty, hrun, hsame, by decide, hsafe (by decide)⟩

end StatusList
