import StatusList.Proofs.Guarded
import StatusList.Proofs.Packed.Unpacked

/-!
# The rounds of unpacking

Unpacking goes round by round: each round reads one entry from the highest bits down and puts it
at the opposite place of its group. What a round counts with is kept in step with the number of the
round, namely how many bits of the byte have been read (`Walk.next_eq`), so that no round asks for
a bit, a byte or a place that there is not (`rounds_eq`). The places are the numbers of the rounds
in another order, every group turned around, so each place is filled in one round and in no other.

* `unpackGuarded`: unpacking in guarded steps;
* `placesOf`: the places as a permutation of the numbers of the rounds;
* `unpack_fills_each_place`: the rounds are safe and leave no place as it was.
-/

namespace StatusList

variable {w : Width} {raw : ByteArray}

/-! ## Guarded rounds -/

/-- The entry that lies `offset` bits below the highest of a byte. -/
def fieldGuarded (w : Width) (byte : UInt8) (offset : Nat) : Except Trap UInt8 := do
  let below ← Guarded.sub (← Guarded.sub 8 w.bits) offset
  return (← Guarded.shiftRight byte below) &&& w.mask

/-- The place of the entry that comes as number `i`. -/
def placeGuarded (w : Width) (i : Nat) : Except Trap Nat := do
  let first ← Guarded.mul (i / w.perByte) w.perByte
  Guarded.add first (← Guarded.sub (← Guarded.sub w.perByte 1) (i % w.perByte))

/-- The walk through the bytes before one of its rounds. -/
structure Walk where
  /-- The number of the round. -/
  round : Nat
  /-- How many bits of the byte have been read. -/
  offset : Nat
  /-- The entries, as far as they have been put. -/
  out : ByteArray

namespace Walk

/-- The walk before the first round. -/
def start (w : Width) (raw : ByteArray) : Except Trap Walk := do
  return ⟨0, 0, Packed.fill 0 ((← Guarded.mul raw.size 8) / w.bits) .empty⟩

/-- The walk after one round. -/
def next (w : Width) (raw : ByteArray) (s : Walk) : Except Trap Walk := do
  let byte ← Guarded.byteAt raw ((← Guarded.mul s.round w.bits) / 8)
  let entry ← fieldGuarded w byte s.offset
  let out ← Guarded.putByte s.out (← placeGuarded w s.round) entry
  return ⟨s.round + 1, (← Guarded.add s.offset w.bits) % 8, out⟩

/-- The walk after `n` rounds. -/
def rounds (w : Width) (raw : ByteArray) : (n : Nat) → Walk → Except Trap Walk
  | 0, s => .ok s
  | n + 1, s => do rounds w raw n (← s.next w raw)

end Walk

/-- All entries of a byte string, in guarded steps. -/
def unpackGuarded (w : Width) (raw : ByteArray) : Except Trap ByteArray := do
  let s ← Walk.start w raw
  return (← s.rounds w raw s.out.size).out

/-! ## Rounds in step -/

theorem fieldGuarded_eq (byte : UInt8) {offset : Nat} (h : offset + w.bits ≤ 8) :
    fieldGuarded w byte offset = .ok (fieldFromTop w byte offset) := by
  have hpos := w.bits_pos
  rw [fieldGuarded, Guarded.sub_of_le (show w.bits ≤ 8 by omega)]
  simp only [bind, Except.bind, Guarded.sub_of_le (show offset ≤ 8 - w.bits by omega),
    Guarded.shiftRight_of_lt byte (show 8 - w.bits - offset < 8 by omega)]
  rfl

theorem placeGuarded_eq {i : Nat} (h : placeOf w i < 2 ^ 64) :
    placeGuarded w i = .ok (placeOf w i) := by
  have hlast : i % w.perByte ≤ w.perByte - 1 := Nat.le_sub_one_of_lt (Nat.mod_lt _ w.perByte_pos)
  have hfirst : i / w.perByte * w.perByte < 2 ^ 64 := (Nat.le_add_right _ _).trans_lt h
  rw [placeGuarded, Guarded.mul_of_lt hfirst, Guarded.sub_of_le w.perByte_pos]
  simp only [bind, Except.bind, Guarded.sub_of_le hlast]
  exact Guarded.add_of_lt h

/-- There is a round for each entry. -/
theorem lt_size_of_lt {i : Nat} (h : i < raw.size * 8 / w.bits) : i < (Packed.mk w raw).size :=
  h.trans_eq (size_mul_eight_div w raw)

theorem byteIndex_lt_of_lt {i : Nat} (h : i < raw.size * 8 / w.bits) :
    i * w.bits / 8 < raw.size := Packed.byteIndex_lt (lt_size_of_lt h)

theorem placeOf_lt_total {i : Nat} (h : i < raw.size * 8 / w.bits) :
    placeOf w i < raw.size * 8 / w.bits := by
  rw [size_mul_eight_div]
  exact placeOf_lt (Dvd.intro_left raw.size rfl) (lt_size_of_lt h)

/-- One round puts one entry. -/
theorem unpackFrom_succ {i : Nat} (n offset : Nat) {out : ByteArray}
    (hbyte : i * w.bits / 8 < raw.size) (hplace : placeOf w i < out.size) :
    unpackFrom w raw (n + 1) i offset out =
      unpackFrom w raw n (i + 1) ((offset + w.bits) % 8) (out.set (placeOf w i)
        (fieldFromTop w (raw.get (i * w.bits / 8) hbyte) offset) hplace) := by
  rw [unpackFrom, dif_pos hplace, dif_pos hbyte]

namespace Walk

/-- A round goes on to the next one, and how many bits have been read stays in step. -/
theorem next_eq (hraw : raw.size < 2 ^ 61) {i : Nat} (hi : i < raw.size * 8 / w.bits)
    {out : ByteArray} (hplace : placeOf w i < out.size) :
    next w raw ⟨i, Packed.shift w i, out⟩ =
      .ok ⟨i + 1, Packed.shift w (i + 1), out.set (placeOf w i)
        (fieldFromTop w (raw.get (i * w.bits / 8) (byteIndex_lt_of_lt hi)) (Packed.shift w i))
        hplace⟩ := by
  have hbits : i * w.bits + w.bits ≤ raw.size * 8 :=
    Packed.mul_bits_add_bits_le (lt_size_of_lt hi)
  have hroom := Packed.shift_add_bits_le w i
  have hword : placeOf w i < 2 ^ 64 := by
    have := placeOf_lt_total hi
    have := Nat.div_le_self (raw.size * 8) w.bits
    omega
  simp only [next, bind, Except.bind, pure, Except.pure,
    Guarded.mul_of_lt (show i * w.bits < 2 ^ 64 by omega),
    Guarded.byteAt_of_lt (byteIndex_lt_of_lt hi), fieldGuarded_eq _ hroom, placeGuarded_eq hword,
    Guarded.putByte_of_lt _ hplace, shift_succ,
    Guarded.add_of_lt (show Packed.shift w i + w.bits < 2 ^ 64 by omega)]

/-- The rounds go on, and what they have put is what unpacking puts. -/
theorem rounds_eq (hraw : raw.size < 2 ^ 61) {i n : Nat} (hn : i + n ≤ raw.size * 8 / w.bits)
    {out : ByteArray} (hout : out.size = raw.size * 8 / w.bits) :
    rounds w raw n ⟨i, Packed.shift w i, out⟩ =
      .ok ⟨i + n, Packed.shift w (i + n), unpackFrom w raw n i (Packed.shift w i) out⟩ := by
  -- The rounds to come are counted down while the number of the round goes up; the invariant is
  -- that the offset is the shift of the round and that no place has been lost.
  induction n generalizing i out with
  | zero => rfl
  | succ n ih =>
    have hi : i < raw.size * 8 / w.bits := by omega
    have hplace : placeOf w i < out.size := hout ▸ placeOf_lt_total hi
    rw [rounds, next_eq hraw hi hplace, unpackFrom_succ n _ (byteIndex_lt_of_lt hi) hplace,
      ← shift_succ]
    refine (ih (by omega) ((Packed.size_replaced _ _ _ _).trans hout)).trans ?_
    rw [Nat.add_right_comm, Nat.add_assoc]

/-- One round and what it counts with. -/
structure Steps (w : Width) (raw : ByteArray) (i : Nat) (s t : Walk) : Prop where
  round : s.round = i
  /-- How many bits have been read is in step with the number of the round. -/
  offset : s.offset = i * w.bits % 8
  /-- The entry is in the byte, so the subtractions that find it do not go below zero. -/
  room : s.offset + w.bits ≤ 8
  /-- The byte is moved by less than all of its bits. -/
  below : 8 - w.bits - s.offset < 8
  /-- There is such a byte. -/
  inside : i * w.bits / 8 < raw.size
  /-- What has been put is what unpacking has put by then. -/
  out : s.out = unpackFrom w raw i 0 0 (Packed.fill 0 (raw.size * 8 / w.bits) .empty)
  size : s.out.size = raw.size * 8 / w.bits
  /-- There is such a place. -/
  place : placeOf w i < s.out.size
  /-- The entry is put there and nothing else is touched. -/
  puts : t.out = s.out.set (placeOf w i)
    (fieldFromTop w (raw.get (i * w.bits / 8) inside) s.offset) place

theorem start_eq (w : Width) (hraw : raw.size < 2 ^ 61) :
    start w raw = .ok ⟨0, 0, Packed.fill 0 (raw.size * 8 / w.bits) .empty⟩ := by
  rw [start, Guarded.mul_of_lt (show raw.size * 8 < 2 ^ 64 by omega)]
  rfl

theorem rounds_from_start (hraw : raw.size < 2 ^ 61) {i : Nat} (hi : i ≤ raw.size * 8 / w.bits) :
    rounds w raw i ⟨0, 0, Packed.fill 0 (raw.size * 8 / w.bits) .empty⟩ =
      .ok ⟨i, Packed.shift w i,
        unpackFrom w raw i 0 0 (Packed.fill 0 (raw.size * 8 / w.bits) .empty)⟩ := by
  have hrounds := rounds_eq (w := w) (i := 0) (n := i) hraw (by rwa [Nat.zero_add])
    (Packed.size_fill_empty 0 (raw.size * 8 / w.bits))
  rwa [Packed.shift, Nat.zero_mul, Nat.zero_mod, Nat.zero_add] at hrounds

/-- As many rounds may be made as there are entries. -/
theorem exists_steps (w : Width) (hraw : raw.size < 2 ^ 61) :
    ∃ s₀, start w raw = .ok s₀ ∧ ∀ i < raw.size * 8 / w.bits,
      ∃ s t, s₀.rounds w raw i = .ok s ∧ s.next w raw = .ok t ∧ Steps w raw i s t := by
  refine ⟨_, start_eq w hraw, fun i hi => ?_⟩
  have hsize : (unpackFrom w raw i 0 0 (Packed.fill 0 (raw.size * 8 / w.bits) .empty)).size =
      raw.size * 8 / w.bits := (size_unpackFrom _ _ _ _).trans (Packed.size_fill_empty _ _)
  have hplace := hsize ▸ placeOf_lt_total hi
  have hpos := w.bits_pos
  exact ⟨_, _, rounds_from_start hraw hi.le, next_eq hraw hi hplace, {
    round := rfl
    offset := rfl
    room := Packed.shift_add_bits_le w i
    below := by omega
    inside := byteIndex_lt_of_lt hi
    out := rfl
    size := hsize
    place := hplace
    puts := rfl }⟩

end Walk

/-- Unpacking in guarded steps ends, with all entries. -/
theorem unpackGuarded_eq (w : Width) (hraw : raw.size < 2 ^ 61) :
    unpackGuarded w raw = .ok (unpack w raw) := by
  simp only [unpackGuarded, Walk.start_eq w hraw, bind, Except.bind, Packed.size_fill_empty,
    Walk.rounds_from_start hraw le_rfl]
  rfl

/-! ## Each place once -/

/-- The places are the numbers of the rounds in another order. -/
def placesOf (w : Width) (raw : ByteArray) : Equiv.Perm (Fin (raw.size * 8 / w.bits)) :=
  Function.Involutive.toPerm (fun i => ⟨placeOf w i, placeOf_lt_total i.2⟩)
    fun i => Fin.ext (placeOf_placeOf w i)

theorem placeOf_in_group (w : Width) (group : Nat) {k : Nat} (h : k < w.perByte) :
    placeOf w (group * w.perByte + k) = group * w.perByte + (w.perByte - 1 - k) := by
  rw [placeOf, Nat.add_comm _ k, Nat.add_mul_div_right _ _ w.perByte_pos, Nat.div_eq_of_lt h,
    Nat.zero_add, Nat.add_mul_mod_self_right, Nat.mod_eq_of_lt h]

/-- Every group is turned around. -/
theorem map_placeOf_group (w : Width) (group : Nat) :
    (List.range' (group * w.perByte) w.perByte).map (placeOf w) =
      (List.range' (group * w.perByte) w.perByte).reverse := by
  refine List.ext_getElem (by simp) fun k hk _ => ?_
  rw [List.length_map, List.length_range'] at hk
  rw [List.getElem_map, List.getElem_reverse, List.getElem_range', List.getElem_range',
    List.length_range', Nat.one_mul, Nat.one_mul, placeOf_in_group w group hk]

theorem existsUnique_placeOf {place : Nat} (h : place < raw.size * 8 / w.bits) :
    ∃! i, i < raw.size * 8 / w.bits ∧ placeOf w i = place := by
  refine ⟨placeOf w place, ⟨placeOf_lt_total h, placeOf_placeOf w place⟩, ?_⟩
  rintro i ⟨-, rfl⟩
  exact (placeOf_placeOf w i).symm

/-- What was there before is not seen any more once all rounds have been made. -/
theorem unpackFrom_eq_unpack {out : ByteArray} (hout : out.size = raw.size * 8 / w.bits) :
    unpackFrom w raw (raw.size * 8 / w.bits) 0 0 out = unpack w raw := by
  have hoffset : 0 = Packed.shift w 0 := by rw [Packed.shift, Nat.zero_mul]
  have hsize : (unpackFrom w raw (raw.size * 8 / w.bits) 0 0 out).size = raw.size * 8 / w.bits :=
    (size_unpackFrom _ _ _ _).trans hout
  have hunpack : (unpack w raw).size = raw.size * 8 / w.bits :=
    (size_unpackFrom _ _ _ _).trans (Packed.size_fill_empty _ _)
  refine ByteArray.ext (Array.toList_inj.1 (List.ext_getElem? fun k => ?_))
  by_cases hk : k < raw.size * 8 / w.bits
  · have hround : 0 ≤ placeOf w k ∧ placeOf w k < 0 + raw.size * 8 / w.bits :=
      ⟨Nat.zero_le _, (Nat.zero_add _).symm ▸ placeOf_lt_total hk⟩
    rw [unpack, getElem?_unpackFrom hoffset (hout.symm ▸ hk),
      getElem?_unpackFrom hoffset (by rwa [Packed.size_fill_empty]), if_pos hround, if_pos hround]
  · have hbeyond : ∀ entries : ByteArray, entries.size = raw.size * 8 / w.bits →
        entries.data.toList[k]? = none := fun entries h =>
      List.getElem?_eq_none (h.trans_le (Nat.le_of_not_lt hk))
    rw [hbeyond _ hsize, hbeyond _ hunpack]

/-! ## The whole -/

/-- Unpacking goes through its rounds safely and fills each place once.

    The places are the numbers of the rounds in another order, and each group of entries of one
    byte is turned around in it. So each place belongs to one round, and nothing that was there
    before the rounds is left after them. As long as a word counts the bits, no guard fails, and
    every round counts with what belongs to its number, reads a byte that there is, and changes
    the one place that is its own. -/
theorem unpack_fills_each_place (w : Width) (raw : ByteArray) :
    let total := raw.size * 8 / w.bits
    (∃ places : Equiv.Perm (Fin total), ∀ i, (places i : Nat) = placeOf w i) ∧
    (∀ group, (List.range' (group * w.perByte) w.perByte).map (placeOf w) =
      (List.range' (group * w.perByte) w.perByte).reverse) ∧
    (∀ place < total, ∃! i, i < total ∧ placeOf w i = place) ∧
    (∀ out : ByteArray, out.size = total → unpackFrom w raw total 0 0 out = unpack w raw) ∧
    (raw.size < 2 ^ 61 →
      unpackGuarded w raw = .ok (unpack w raw) ∧
      ∃ s₀, Walk.start w raw = .ok s₀ ∧ ∀ i < total,
        ∃ s t, s₀.rounds w raw i = .ok s ∧ s.next w raw = .ok t ∧ Walk.Steps w raw i s t) :=
  ⟨⟨placesOf w raw, fun _ => rfl⟩, map_placeOf_group w, fun _ => existsUnique_placeOf,
    fun _ => unpackFrom_eq_unpack, fun hraw => ⟨unpackGuarded_eq w hraw, Walk.exists_steps w hraw⟩⟩

/-- Two bytes with four entries each: whatever was in the eight places, the entries are there in
    the end, and the sixth round turns to the third place of its group. -/
theorem unpack_of_two_bytes_fills_each_place :
    let raw := [0xC1, 0x08].toByteArray
    let out := Packed.fill 9 8 .empty
    raw.size < 2 ^ 61 ∧ out.size = raw.size * 8 / Width.two.bits ∧
    unpackFrom .two raw 8 0 0 out = [1, 0, 0, 3, 0, 2, 0, 0].toByteArray ∧
    unpackGuarded .two raw = .ok [1, 0, 0, 3, 0, 2, 0, 0].toByteArray ∧
    (∃! i, i < 8 ∧ placeOf .two i = 6) ∧
    ∃ s₀ s t, Walk.start .two raw = .ok s₀ ∧ s₀.rounds .two raw 5 = .ok s ∧
      s.next .two raw = .ok t ∧ s.offset = 2 ∧ placeOf .two 5 = 6 := by
  intro raw out
  have htotal : raw.size * 8 / Width.two.bits = 8 := by decide
  have hunpack : unpack .two raw = [1, 0, 0, 3, 0, 2, 0, 0].toByteArray := by decide
  obtain ⟨-, -, honce, hleft, hsafe⟩ := unpack_fills_each_place .two raw
  obtain ⟨hguarded, s₀, hstart, hrounds⟩ := hsafe (by decide)
  rw [htotal, hunpack] at hleft
  rw [htotal] at honce hrounds
  rw [hunpack] at hguarded
  obtain ⟨s, t, hs, ht, hsteps⟩ := hrounds 5 (by decide)
  exact ⟨by decide, by decide, hleft out (by decide), hguarded, honce 6 (by decide), s₀, s, t,
    hstart, hs, ht, hsteps.offset, by decide⟩

end StatusList
