/-!
# Widths

The *width* of a status list is the number of bits that one entry takes. Only
the divisors of eight are widths, so an entry never straddles two bytes and a
byte holds a whole number of entries.

* `Width.bits_mul_perByte`: the entries of a byte fill it exactly;
* `Width.ofBits?_eq_some_iff`: reading a width accepts exactly what `bits` gives.
-/

namespace StatusList

/-- The number of bits of one entry. -/
inductive Width where
  | one
  | two
  | four
  | eight
  deriving DecidableEq, Repr, Inhabited

namespace Width

/-- All widths, the narrowest first. -/
def all : List Width := [one, two, four, eight]

/-- The width as a number of bits. -/
def bits : Width → Nat
  | one => 1
  | two => 2
  | four => 4
  | eight => 8

/-- The number of entries in one byte. -/
def perByte (w : Width) : Nat := 8 / w.bits

/-- The largest value of an entry; as a byte, the mask of its lowest bits. -/
def mask : Width → UInt8
  | one => 1
  | two => 3
  | four => 15
  | eight => 255

/-- The width of `n` bits, if there is one. -/
def ofBits? : Nat → Option Width
  | 1 => some one
  | 2 => some two
  | 4 => some four
  | 8 => some eight
  | _ => none

instance : ToString Width := ⟨fun w => toString w.bits⟩

theorem bits_pos (w : Width) : 0 < w.bits := by cases w <;> decide

theorem perByte_pos (w : Width) : 0 < w.perByte := by cases w <;> decide

theorem bits_mul_perByte (w : Width) : w.bits * w.perByte = 8 := by cases w <;> decide

theorem ofBits?_bits (w : Width) : ofBits? w.bits = some w := by cases w <;> rfl

theorem ofBits?_eq_some_iff {n : Nat} {w : Width} : ofBits? n = some w ↔ n = w.bits := by
  constructor
  · intro h
    unfold ofBits? at h
    split at h <;> simp_all [bits] <;> subst h <;> rfl
  · rintro rfl
    exact ofBits?_bits w

end Width

end StatusList
