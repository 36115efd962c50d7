/-!
# Shortest decimals

A binary floating-point number is `m * 2 ^ q`. All reals closer to it than to any
other such number *read back* as it. Its shortest decimal is the one with the
fewest digits that reads back, and of those the nearest.

* `Binary.ofBits`: the parts of a number of 64 bits;
* `Binary.shortest`: its shortest decimal.
-/

namespace StatusList

/-- The number `digits * 10 ^ exponent`. -/
structure Decimal where
  /-- The digits as one number. -/
  digits : Nat
  /-- The power of ten. -/
  exponent : Int
  deriving DecidableEq, Repr, Inhabited

/-- The number `mantissa * 2 ^ exponent`, where `atPower` tells whether its lower
    neighbour is half as far as its upper one. -/
structure Binary where
  /-- The factor in front. -/
  mantissa : Nat
  /-- The power of two. -/
  exponent : Int
  /-- Whether the mantissa is the least of its exponent. -/
  atPower : Bool
  deriving DecidableEq, Repr, Inhabited

namespace Binary

/-- A power of ten. -/
def tenTo (n : Nat) : Nat := Nat.pow 10 n

/-- The size of the number whose 64 bits are `bits`. -/
def ofBits (bits : UInt64) : Binary :=
  let fraction : Nat := bits.toNat % (1 <<< 52)
  let exponent : Nat := (bits.toNat >>> 52) % (1 <<< 11)
  if exponent = 0 then ⟨fraction, -1074, false⟩
  else ⟨(1 <<< 52) + fraction, exponent - 1075, fraction = 0 ∧ 1 < exponent⟩

/-- The fraction `n * 2 ^ exponent`. -/
def scale (n : Nat) (exponent : Int) : Nat × Nat :=
  match exponent with
  | .ofNat e => (n <<< e, 1)
  | .negSucc e => (n, 1 <<< (e + 1))

/-- How many digits the fraction `n / d` has before the point; below one, minus
    the number of zeros after it. -/
def magnitude (n d : Nat) : Int :=
  if d ≤ n then ((Nat.toDigits 10 (n / d)).length : Int)
  else -((List.range 400).find? fun zeros => d ≤ n * tenTo (zeros + 1)).getD 0

/-- Whether `c * 10 ^ g` reads back as the number. -/
def readsBack (b : Binary) (c : Nat) (g : Int) : Bool :=
  -- The limits lie halfway to the neighbours; for an even mantissa they read back too.
  let (low, d) := scale (4 * b.mantissa - if b.atPower then 1 else 2) (b.exponent - 2)
  let (high, _) := scale (4 * b.mantissa + 2) (b.exponent - 2)
  let (c, d) := match g with
    | .ofNat g => (c * tenTo g * d, 1)
    | .negSucc g => (c * d, tenTo (g + 1))
  if b.mantissa % 2 = 0 then low * d ≤ c ∧ c ≤ high * d else low * d < c ∧ c < high * d

/-- The decimal nearest to the number among those of `count` digits that read
    back; of two at one distance the even one. -/
def ofCount? (b : Binary) (count : Nat) : Option Decimal :=
  let (n, d) := scale b.mantissa b.exponent
  let g := magnitude n d - count
  let (n, d) := match g with
    | .ofNat g => (n, d * tenTo g)
    | .negSucc g => (n * tenTo (g + 1), d)
  let below := n / d
  let rest := 2 * (n % d)
  match b.readsBack below g, b.readsBack (below + 1) g with
  | true, true =>
    some ⟨if rest < d ∨ (rest = d ∧ below % 2 = 0) then below else below + 1, g⟩
  | true, false => some ⟨below, g⟩
  | false, true => some ⟨below + 1, g⟩
  | false, false => none

/-- The shortest decimal that reads back. -/
def shortest (b : Binary) : Decimal :=
  let found := ((List.range 17).findSome? fun k => b.ofCount? (k + 1)).getD ⟨0, 0⟩
  trimZeros 17 found
where
  /-- The decimal without zeros at its end. -/
  trimZeros : Nat → Decimal → Decimal
    | 0, x => x
    | fuel + 1, x =>
      if x.digits ≠ 0 ∧ x.digits % 10 = 0 then trimZeros fuel ⟨x.digits / 10, x.exponent + 1⟩
      else x

end Binary

end StatusList
