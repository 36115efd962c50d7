import StatusList.Flate.Zlib
import StatusList.Proofs.Flate.PrefixCodes
import StatusList.Proofs.Flate.Reading

/-!
# Taking bits

A step on a source is told by the bits that it takes: which bits it may take, and which value goes
with them (`Takes`). A step takes the bits that are allowed where the source begins with such bits,
and fails where it does not; a sequence of steps takes the bits of one after those of the other
(`Takes.bind`).

This is said here of the fields of a stream, of stored bytes, and of the tree of a code, which
takes the strings of the symbols (`takes_decode`).
-/

namespace StatusList.Flate

namespace BitSource

/-! ## The bits to come -/

theorem bitsOf_cons (byte : UInt8) (bytes : List UInt8) :
    bitsOf (byte :: bytes) = lowestFirst 8 byte.toNat ++ bitsOf bytes := rfl

theorem bitsOf_append (bytes bytes' : List UInt8) :
    bitsOf (bytes ++ bytes') = bitsOf bytes ++ bitsOf bytes' := List.flatMap_append

@[simp] theorem length_bitsOf (bytes : List UInt8) : (bitsOf bytes).length = 8 * bytes.length := by
  induction bytes with
  | nil => rfl
  | cons byte bytes ih =>
    rw [bitsOf_cons, List.length_append, ih, length_lowestFirst, List.length_cons]
    omega

/-- The bit at an index is one of the byte that it is in. -/
theorem getElem?_bitsOf (bytes : List UInt8) (k : Nat) :
    (bitsOf bytes)[k]? = bytes[k / 8]?.map fun byte => byte.toNat.testBit (k % 8) := by
  induction bytes generalizing k with
  | nil => simp [bitsOf]
  | cons byte bytes ih =>
    rw [bitsOf_cons, List.getElem?_append, length_lowestFirst]
    split
    · next hk =>
      rw [Nat.div_eq_of_lt hk, Nat.mod_eq_of_lt hk]
      simp [lowestFirst, hk]
    · next hk =>
      obtain ⟨k, rfl⟩ := Nat.exists_eq_add_of_le (Nat.le_of_not_lt hk)
      rw [ih, Nat.add_sub_cancel_left, Nat.add_mod_left, Nat.add_div_left k (by decide)]
      rfl

theorem bits_skip (s : BitSource) (n : Nat) : (s.skip n).bits = s.bits.drop n := by
  rw [bits, bits, skip, List.drop_drop]

@[simp] theorem length_bits (s : BitSource) : s.bits.length = s.left := by
  rw [bits, List.length_drop, length_bitsOf, left, Nat.mul_comm]
  rfl

/-- The next bit is the first of the bits to come. -/
theorem next?_eq_head? (s : BitSource) : s.next? = s.bits.head?.map fun bit => (bit, s.skip 1) := by
  rw [bits, List.head?_drop, getElem?_bitsOf, next?]
  split
  · next h =>
    have hbyte : s.bytes.data.toList[s.taken / 8]? = some (s.bytes.get (s.taken / 8) h) :=
      List.getElem?_eq_getElem h
    rw [hbyte]
    rfl
  · next h =>
    have hnone : s.bytes.data.toList[s.taken / 8]? = none :=
      List.getElem?_eq_none (Nat.le_of_not_lt h)
    rw [hnone]
    rfl

end BitSource

open BitSource (bitsOf)

/-! ## Steps -/

variable {α β : Type} {s : BitSource}

/-- At a source, a step takes bits that `P` allows and gives the value that goes with them. -/
def Takes (step : Decoder α) (s : BitSource) (P : List Bool → α → Prop) : Prop :=
  ∀ a s', step s = .ok (a, s') ↔ ∃ bits, bits <+: s.bits ∧ s' = s.skip bits.length ∧ P bits a

namespace Takes

variable {step : Decoder α} {next : α → Decoder β} {P Q : List Bool → α → Prop}
  {R : List Bool → α → List Bool → β → Prop}

theorem congr (h : Takes step s P) (hPQ : ∀ bits a, bits <+: s.bits → (P bits a ↔ Q bits a)) :
    Takes step s Q := by
  intro a s'
  rw [h]
  refine exists_congr fun bits => ?_
  constructor
  · rintro ⟨hbits, hs, hP⟩
    exact ⟨hbits, hs, (hPQ bits a hbits).1 hP⟩
  · rintro ⟨hbits, hs, hQ⟩
    exact ⟨hbits, hs, (hPQ bits a hbits).2 hQ⟩

theorem of_eq {step' : Decoder α} (h : Takes step s P) (heq : step' s = step s) :
    Takes step' s P := by
  intro a s'
  rw [heq]
  exact h a s'

theorem pure (a : α) : Takes (pure a) s fun bits b => bits = [] ∧ b = a := by
  intro b s'
  constructor
  · intro h
    cases h
    exact ⟨[], List.nil_prefix, rfl, rfl, rfl⟩
  · rintro ⟨bits, -, rfl, rfl, rfl⟩
    rfl

theorem throw (fault : Fault) : Takes (throw fault : Decoder α) s fun _ _ => False := by
  intro a s'
  refine iff_of_false (by rintro ⟨⟩) ?_
  rintro ⟨bits, -, -, h⟩
  exact h

/-- What needs no bits takes none. -/
theorem lift (attempt : Except Fault α) :
    Takes (liftM attempt) s fun bits a => bits = [] ∧ attempt = .ok a := by
  cases attempt with
  | error fault => exact (throw fault).congr fun bits a _ => by simp
  | ok a => exact (pure a).congr fun bits b _ => by simp [eq_comm]

/-- A step after another takes the bits that come after those of the other. -/
theorem bind (h : Takes step s P)
    (hnext : ∀ a front, front <+: s.bits → P front a →
      Takes (next a) (s.skip front.length) (R front a)) :
    Takes (step >>= next) s fun bits b =>
      ∃ a front back, bits = front ++ back ∧ P front a ∧ R front a back b := by
  intro b s'
  constructor
  · intro hb
    obtain ⟨a, t, ha, hb⟩ := bind_eq_ok hb
    obtain ⟨front, hfront, rfl, hP⟩ := (h a t).1 ha
    obtain ⟨back, hback, rfl, hR⟩ := (hnext a front hfront hP b s').1 hb
    refine ⟨front ++ back, ?_, ?_, a, front, back, rfl, hP, hR⟩
    · obtain ⟨rest, hrest⟩ := hfront
      rw [BitSource.bits_skip, ← hrest, List.drop_left] at hback
      rw [← hrest]
      exact (List.prefix_append_right_inj front).2 hback
    · rw [BitSource.skip_skip, List.length_append]
  · rintro ⟨bits, hbits, rfl, a, front, back, rfl, hP, hR⟩
    have hfront := (List.prefix_append front back).trans hbits
    have hback : back <+: (s.skip front.length).bits := by
      obtain ⟨rest, hrest⟩ := hbits
      rw [BitSource.bits_skip, ← hrest, List.append_assoc, List.drop_left]
      exact List.prefix_append back rest
    rw [bind_of_ok ((h a _).2 ⟨front, hfront, rfl, hP⟩)]
    refine (hnext a front hfront hP b _).2 ⟨back, hback, ?_, hR⟩
    rw [BitSource.skip_skip, List.length_append]

end Takes

/-- A step that goes on unless `p` takes what it takes when it goes on. -/
theorem takes_guard {p : Prop} [Decidable p] {P : List Bool → α → Prop} (fault : Fault)
    {next : Unit → Decoder α} (h : ¬p → Takes (next ()) s P) :
    Takes (if p then throw fault >>= next else next ()) s fun bits a => ¬p ∧ P bits a := by
  by_cases hp : p
  · rw [if_pos hp]
    exact (Takes.throw fault).congr fun bits a _ => iff_of_false id fun hP => hP.1 hp
  · rw [if_neg hp]
    exact (h hp).congr fun bits a _ => (and_iff_right hp).symm

/-! ## Fields -/

theorem takes_takeBit : Takes takeBit s fun bits bit => bits = [bit] := by
  intro bit s'
  rw [takeBit, BitSource.next?_eq_head?]
  cases hbits : s.bits with
  | nil =>
    refine iff_of_false (by rintro ⟨⟩) ?_
    rintro ⟨bits, hbegin, -, rfl⟩
    cases hbegin.length_le
  | cons first rest =>
    constructor
    · intro h
      cases h
      exact ⟨[bit], ⟨rest, rfl⟩, rfl, rfl⟩
    · rintro ⟨bits, hbegin, rfl, rfl⟩
      obtain ⟨rfl, -⟩ := List.cons_prefix_cons.1 hbegin
      rfl

theorem lowestFirst_succ (n : Nat) (bit : Bool) (high : Nat) :
    lowestFirst (n + 1) (bit.toNat + 2 * high) = bit :: lowestFirst n high := by
  have hlow : lowestFirst 1 (bit.toNat + 2 * high) = [bit] := by
    rw [lowestFirst, List.range_one, List.map_singleton, Nat.testBit_zero,
      Nat.add_mul_mod_self_left]
    cases bit <;> rfl
  have hhigh : (bit.toNat + 2 * high) / 2 ^ 1 = high := by
    cases bit <;> simp only [Bool.toNat_false, Bool.toNat_true] <;> omega
  rw [Nat.add_comm n, lowestFirst_add, hlow, hhigh]
  rfl

/-- A field is a number with the lowest bit first. -/
theorem takes_takeBits (n : Nat) :
    Takes (takeBits n) s fun bits value => value < 2 ^ n ∧ bits = lowestFirst n value := by
  induction n generalizing s with
  | zero =>
    refine (Takes.pure 0).congr fun bits value _ => ?_
    rw [pow_zero, Nat.lt_one_iff]
    exact and_comm
  | succ n ih =>
    rw [takeBits]
    refine (takes_takeBit.bind fun bit front _ _ => ih.bind fun high middle _ _ =>
      Takes.pure (bit.toNat + 2 * high)).congr fun bits value _ => ?_
    constructor
    · rintro ⟨bit, _, _, rfl, rfl, high, _, _, rfl, ⟨hhigh, rfl⟩, rfl, rfl⟩
      rw [lowestFirst_succ, List.append_nil]
      refine ⟨?_, rfl⟩
      have hbit := bit.toNat_lt
      rw [pow_succ]
      omega
    · rintro ⟨hvalue, rfl⟩
      have hvalue' : value = (value.testBit 0).toNat + 2 * (value / 2) := by
        rw [Nat.testBit_zero]
        rcases Nat.mod_two_eq_zero_or_one value with h | h <;> simp [h] <;> omega
      rw [hvalue', lowestFirst_succ]
      refine ⟨_, [_], lowestFirst n (value / 2), rfl, rfl, value / 2, _, [],
        (List.append_nil _).symm, ⟨?_, rfl⟩, rfl, ?_⟩
      · rw [pow_succ] at hvalue
        omega
      · rw [← hvalue']

theorem bitsOf_fourBytes (n : Nat) :
    bitsOf (fourBytes n) = lowestFirst 8 (n / 2 ^ 24 % 256) ++ (lowestFirst 8 (n / 2 ^ 16 % 256) ++
      (lowestFirst 8 (n / 2 ^ 8 % 256) ++ (lowestFirst 8 (n % 256) ++ []))) := by
  simp only [fourBytes, BitSource.bitsOf_cons, Nat.toUInt8_eq, UInt8.toNat_ofNat',
    Nat.shiftRight_eq_div_pow]
  rfl

/-- Four bytes are one number, the highest of them first. -/
theorem takes_takeBytes_four :
    Takes (takeBytes 4) s fun bits value => value < 2 ^ 32 ∧ bits = bitsOf (fourBytes value) := by
  have hfields : takeBytes 4 = do
      let a ← takeBits 8
      let b ← takeBits 8
      let c ← takeBits 8
      let d ← takeBits 8
      return ((a * 256 + b) * 256 + c) * 256 + d := by
    have hrange : List.range 4 = [0, 1, 2, 3] := rfl
    simp only [takeBytes, hrange, List.foldlM_cons, List.foldlM_nil, bind_assoc, pure_bind,
      Nat.zero_mul, Nat.zero_add]
  rw [hfields]
  refine ((takes_takeBits 8).bind fun a _ _ _ => (takes_takeBits 8).bind fun b _ _ _ =>
    (takes_takeBits 8).bind fun c _ _ _ => (takes_takeBits 8).bind fun d _ _ _ =>
      Takes.pure (((a * 256 + b) * 256 + c) * 256 + d)).congr fun bits value _ => ?_
  constructor
  · rintro ⟨a, _, _, rfl, ⟨ha, rfl⟩, b, _, _, rfl, ⟨hb, rfl⟩, c, _, _, rfl, ⟨hc, rfl⟩, d, _, _, rfl,
      ⟨hd, rfl⟩, rfl, rfl⟩
    have ha' : (((a * 256 + b) * 256 + c) * 256 + d) / 2 ^ 24 % 256 = a := by omega
    have hb' : (((a * 256 + b) * 256 + c) * 256 + d) / 2 ^ 16 % 256 = b := by omega
    have hc' : (((a * 256 + b) * 256 + c) * 256 + d) / 2 ^ 8 % 256 = c := by omega
    have hd' : (((a * 256 + b) * 256 + c) * 256 + d) % 256 = d := by omega
    rw [bitsOf_fourBytes, ha', hb', hc', hd']
    exact ⟨by omega, rfl⟩
  · rintro ⟨hvalue, rfl⟩
    rw [bitsOf_fourBytes]
    exact ⟨value / 2 ^ 24 % 256, _, _, rfl, ⟨by omega, rfl⟩, value / 2 ^ 16 % 256, _, _, rfl,
      ⟨by omega, rfl⟩, value / 2 ^ 8 % 256, _, _, rfl, ⟨by omega, rfl⟩, value % 256, _, _, rfl,
      ⟨by omega, rfl⟩, rfl, by omega⟩

/-- What is skipped up to the next byte is less than a byte. -/
theorem takes_align (hs : s.taken ≤ 8 * s.bytes.size) :
    Takes align s fun bits _ => bits.length < 8 ∧ 8 ∣ s.taken + bits.length := by
  have halign : align s = .ok ((), s.aligned) := rfl
  rintro ⟨⟩ s'
  rw [halign]
  constructor
  · intro h
    cases h
    have hleft : (s.taken + 7) / 8 * 8 - s.taken ≤ s.bits.length := by
      rw [BitSource.length_bits, BitSource.left]
      omega
    refine ⟨s.bits.take ((s.taken + 7) / 8 * 8 - s.taken), List.take_prefix _ _, ?_, ?_⟩
    · rw [List.length_take_of_le hleft, BitSource.aligned, BitSource.skip]
      congr 1
      omega
    · change (s.bits.take _).length < 8 ∧ 8 ∣ s.taken + (s.bits.take _).length
      rw [List.length_take_of_le hleft]
      omega
  · rintro ⟨bits, -, rfl, hlt, hdvd⟩
    rw [BitSource.aligned, BitSource.skip]
    congr 3
    omega

/-! ## Output -/

/-- At the boundary between two bytes, the bits to come are those of the bytes to come. -/
theorem bits_of_boundary {k : Nat} (h : s.taken = 8 * k) :
    s.bits = bitsOf (s.bytes.data.toList.drop k) := by
  rw [BitSource.bits, h]
  rcases Nat.lt_or_ge s.bytes.data.toList.length k with hk | hk
  · rw [List.drop_eq_nil_of_le (Nat.le_of_lt hk), List.drop_eq_nil_of_le]
    · rfl
    · rw [BitSource.length_bitsOf]
      omega
  · conv_lhs => rw [← List.take_append_drop k s.bytes.data.toList, BitSource.bitsOf_append]
    rw [List.drop_left']
    rw [BitSource.length_bitsOf, List.length_take_of_le hk]

/-- The next byte, at the boundary between two bytes. -/
def takeByte : Decoder UInt8 := fun s =>
  if h : s.byteIndex < s.bytes.size then .ok (s.bytes.get s.byteIndex h, s.skip 8)
  else .error .truncated

theorem takes_takeByte (hs : 8 ∣ s.taken) :
    Takes takeByte s fun bits byte => bits = lowestFirst 8 byte.toNat := by
  obtain ⟨k, hk⟩ := hs
  have hindex : s.byteIndex = k := by
    rw [BitSource.byteIndex, hk, Nat.mul_div_cancel_left k (by decide)]
  intro byte s'
  rw [bits_of_boundary hk, takeByte]
  by_cases h : s.byteIndex < s.bytes.size
  · have hcons : s.bytes.data.toList.drop k =
        s.bytes.get s.byteIndex h :: s.bytes.data.toList.drop (k + 1) := by
      rw [List.drop_eq_getElem_cons (hindex ▸ h)]
      simp only [hindex]
      rfl
    rw [dif_pos h, hcons, BitSource.bitsOf_cons]
    constructor
    · intro hbyte
      cases hbyte
      exact ⟨_, List.prefix_append _ _, by rw [length_lowestFirst], rfl⟩
    · rintro ⟨bits, ⟨rest, hrest⟩, rfl, rfl⟩
      have hbits := (List.append_inj hrest (by simp)).1
      rw [UInt8.toNat_inj.1 (lowestFirst_inj byte.toNat_lt (UInt8.toNat_lt _) hbits),
        length_lowestFirst]
  · rw [dif_neg h]
    refine iff_of_false (by rintro ⟨⟩) ?_
    rintro ⟨bits, hbegin, -, rfl⟩
    have hlength := hbegin.length_le
    rw [BitSource.length_bitsOf, length_lowestFirst, List.length_drop] at hlength
    have : s.bytes.data.toList.length = s.bytes.size := rfl
    omega

/-- What `out` becomes when bytes that `N` allows are put behind it and there is room for them. -/
def Extends (limit : Nat) (out : ByteArray) (N : List UInt8 → Prop) (out' : ByteArray) : Prop :=
  out'.size ≤ limit ∧ ∃ new, N new ∧ out' = out ++ new.toByteArray

/-- A step adds bytes to the output `out`, which the bits that it takes stand for, if there is
    room for them. -/
def Adds (limit : Nat) (out : ByteArray) (P : List Bool → List UInt8 → Prop) :
    List Bool → ByteArray → Prop :=
  fun bits => Extends limit out (P bits)

section

variable {limit : Nat} {out out' : ByteArray} {N : List UInt8 → Prop}

theorem Extends.congr {N' : List UInt8 → Prop} (h : ∀ new, N new ↔ N' new) :
    Extends limit out N out' ↔ Extends limit out N' out' :=
  and_congr_right fun _ => exists_congr fun new => and_congr_left fun _ => h new

theorem Takes.adds_congr {step : Decoder ByteArray} {P Q : List Bool → List UInt8 → Prop}
    (h : Takes step s (Adds limit out P)) (hPQ : ∀ bits new, P bits new ↔ Q bits new) :
    Takes step s (Adds limit out Q) :=
  h.congr fun bits _ _ => Extends.congr (hPQ bits)

/-- Nothing is taken where no bits stand for anything, and for nothing. -/
theorem takes_nothing {P : List Bool → List UInt8 → Prop} (hout : out.size ≤ limit)
    (hP : ∀ bits new, P bits new ↔ bits = [] ∧ new = []) :
    Takes (pure out) s (Adds limit out P) := by
  refine (Takes.pure out).congr fun bits out' _ => ?_
  constructor
  · rintro ⟨rfl, rfl⟩
    exact ⟨hout, [], (hP [] []).2 ⟨rfl, rfl⟩, ByteArray.append_empty.symm⟩
  · rintro ⟨-, new, hnew, rfl⟩
    obtain ⟨rfl, rfl⟩ := (hP bits new).1 hnew
    exact ⟨rfl, ByteArray.append_empty⟩

theorem toList_append_toByteArray (out : ByteArray) (new : List UInt8) :
    (out ++ new.toByteArray).data.toList = out.data.toList ++ new := by
  rw [ByteArray.data_append, Array.toList_append, List.data_toByteArray]

/-- Bytes are put behind others that have been put there. -/
theorem exists_extends_iff {P : List UInt8 → List UInt8 → Prop} :
    (∃ out₁, Extends limit out N out₁ ∧ Extends limit out₁ (P out₁.data.toList) out') ↔
      Extends limit out
        (fun new => ∃ new₁ new₂, N new₁ ∧ P (out.data.toList ++ new₁) new₂ ∧ new = new₁ ++ new₂)
        out' := by
  constructor
  · rintro ⟨_, ⟨-, new₁, hnew₁, rfl⟩, hsize, new₂, hnew₂, rfl⟩
    rw [toList_append_toByteArray] at hnew₂
    refine ⟨hsize, new₁ ++ new₂, ⟨new₁, new₂, hnew₁, hnew₂, rfl⟩, ?_⟩
    rw [List.toByteArray_append, ByteArray.append_assoc]
  · rintro ⟨hsize, _, ⟨new₁, new₂, hnew₁, hnew₂, rfl⟩, rfl⟩
    rw [List.toByteArray_append, ← ByteArray.append_assoc] at hsize ⊢
    have hsize₁ : (out ++ new₁.toByteArray).size ≤ limit := by
      rw [ByteArray.size_append] at hsize
      omega
    refine ⟨_, ⟨hsize₁, new₁, hnew₁, rfl⟩, hsize, new₂, ?_, rfl⟩
    rwa [toList_append_toByteArray]

/-- A byte is added if there is room for it. -/
theorem emit_eq_ok_iff {byte : UInt8} :
    emit limit out byte = .ok out' ↔ Extends limit out (· = [byte]) out' := by
  rw [emit, Extends, exists_eq_left, ByteArray.append_toByteArray_singleton]
  split
  · next h =>
    rw [Except.ok.injEq, eq_comm]
    refine (and_iff_right_of_imp ?_).symm
    rintro rfl
    rwa [ByteArray.size_push]
  · next h =>
    refine iff_of_false (by rintro ⟨⟩) ?_
    rintro ⟨hsize, rfl⟩
    rw [ByteArray.size_push] at hsize
    exact h hsize

/-- A step that adds bytes comes after an attempt that adds some. -/
theorem takes_adding {attempt : Except Fault ByteArray} {next : ByteArray → Decoder ByteArray}
    {P : List UInt8 → List Bool → List UInt8 → Prop}
    (hattempt : ∀ out₁, attempt = .ok out₁ ↔ Extends limit out N out₁)
    (hnext : ∀ out₁ : ByteArray, out₁.size ≤ limit →
      Takes (next out₁) s (Adds limit out₁ (P out₁.data.toList))) :
    Takes (liftM attempt >>= next) s (Adds limit out fun bits new =>
      ∃ new₁ new₂, N new₁ ∧ P (out.data.toList ++ new₁) bits new₂ ∧ new = new₁ ++ new₂) := by
  have hbind : Takes (liftM attempt >>= next) s fun bits out' => ∃ out₁ front back,
      bits = front ++ back ∧ (front = [] ∧ attempt = .ok out₁) ∧
        Adds limit out₁ (P out₁.data.toList) back out' := by
    refine (Takes.lift attempt).bind fun out₁ front _ hfront => ?_
    rw [hfront.1]
    exact hnext out₁ ((hattempt out₁).1 hfront.2).1
  refine hbind.congr fun bits out' _ => ?_
  rw [Adds, ← exists_extends_iff (P := fun out => P out bits)]
  refine exists_congr fun out₁ => ?_
  constructor
  · rintro ⟨_, _, rfl, ⟨rfl, hout₁⟩, hadds⟩
    exact ⟨(hattempt out₁).1 hout₁, hadds⟩
  · rintro ⟨hout₁, hadds⟩
    exact ⟨[], bits, rfl, ⟨rfl, (hattempt out₁).2 hout₁⟩, hadds⟩

end

/-- Stored bytes are taken as they are, from the boundary between two bytes. -/
theorem takes_copyStored {limit : Nat} (n : Nat) {out : ByteArray} (hs : 8 ∣ s.taken)
    (hout : out.size ≤ limit) :
    Takes (copyStored limit n out) s
      (Adds limit out fun bits new => new.length = n ∧ bits = bitsOf new) := by
  induction n generalizing s out with
  | zero =>
    refine takes_nothing hout fun bits new => ?_
    rw [List.length_eq_zero_iff]
    constructor
    · rintro ⟨rfl, rfl⟩
      exact ⟨rfl, rfl⟩
    · rintro ⟨rfl, rfl⟩
      exact ⟨rfl, rfl⟩
  | succ n ih =>
    -- A byte is taken whole here, so that the next one begins at a boundary again.
    have hstep : copyStored limit (n + 1) out = takeByte >>= fun byte =>
        (liftM (emit limit out byte) : Decoder ByteArray) >>= copyStored limit n := by
      funext s
      simp only [copyStored, takeByte, bind, StateT.bind]
      split
      · simp only [Except.bind]
        cases emit limit out _ <;> rfl
      · rfl
    rw [hstep]
    refine ((takes_takeByte hs).bind fun byte front _ hfront =>
      takes_adding (P := fun _ bits new => new.length = n ∧ bits = bitsOf new)
        (fun _ => emit_eq_ok_iff) fun out₁ hsize => ih ?_ hsize).congr fun bits out' _ => ?_
    · rw [hfront, length_lowestFirst]
      change 8 ∣ s.taken + 8
      omega
    · constructor
      · rintro ⟨byte, _, _, rfl, rfl, hsize, _, ⟨_, new, rfl, ⟨rfl, rfl⟩, rfl⟩, rfl⟩
        exact ⟨hsize, byte :: new, ⟨rfl, rfl⟩, rfl⟩
      · rintro ⟨hsize, new, ⟨hnew, rfl⟩, rfl⟩
        obtain ⟨byte, new, rfl⟩ := List.exists_cons_of_length_eq_add_one hnew
        exact ⟨byte, _, bitsOf new, rfl, rfl, hsize, _,
          ⟨[byte], new, rfl, ⟨Nat.succ.inj hnew, rfl⟩, rfl⟩, rfl⟩

/-! ## Codes -/

theorem decode_node (zero one : Tree) :
    (Tree.node zero one).decode = takeBit >>= fun bit => (cond bit one zero).decode := by
  funext s
  rw [Tree.decode]
  simp only [bind, StateT.bind, takeBit]
  cases s.next? with
  | none => rfl
  | some r =>
    obtain ⟨bit, s'⟩ := r
    cases bit <;> rfl

/-- The tree of a code takes the paths to its symbols. -/
theorem takes_decode (t : Tree) : Takes t.decode s fun bits symbol => t.Leads bits symbol := by
  induction t generalizing s with
  | vacant => exact (Takes.throw .corrupt).congr fun bits symbol _ => (iff_false_intro
      Tree.not_leads_vacant).symm
  | leaf a => exact (Takes.pure a).congr fun bits symbol _ => Tree.leads_leaf_iff.symm
  | node zero one ihzero ihone =>
    -- The first bit of a path picks the tree that the others lead through.
    rw [decode_node]
    have hnext : ∀ bit s, Takes (cond bit one zero).decode s
        fun bits symbol => (cond bit one zero).Leads bits symbol := by
      intro bit s
      cases bit with
      | false => exact ihzero
      | true => exact ihone
    refine (takes_takeBit.bind fun bit _ _ _ => hnext bit _).congr fun bits symbol _ => ?_
    constructor
    · rintro ⟨bit, _, path, rfl, rfl, h⟩
      exact Tree.leads_node_cons_iff.2 h
    · intro h
      cases bits with
      | nil => exact absurd h Tree.not_leads_node_nil
      | cons bit path => exact ⟨bit, [bit], path, rfl, rfl, Tree.leads_node_cons_iff.1 h⟩

end StatusList.Flate
