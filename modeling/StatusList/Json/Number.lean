import StatusList.Json.Fault

/-!
# Numerals

A *numeral* is a number as it is written: a sign, the digits before the point,
perhaps some after it, perhaps a power of ten.

* `Numeral.scan`: the numeral at the beginning of a text;
* `Numeral.value`: the number that a numeral stands for.
-/

namespace StatusList.Json

/-- A number as it is written. -/
structure Numeral where
  /-- Whether there is a minus sign. -/
  negative : Bool
  /-- The digits before the point. -/
  whole : List Nat
  /-- The digits after the point, if there is one. -/
  fraction : Option (List Nat)
  /-- Whether the power of ten is negative and its digits, if there is one. -/
  power : Option (Bool × List Nat)
  deriving DecidableEq, Repr, Inhabited

/-- What keeps a text from being read, and what keeps it from being passed over
    where its value does not matter. -/
structure Broken where
  /-- The fault of reading. -/
  reading : Fault
  /-- The fault of passing over. -/
  passing : Fault
  deriving Repr, Inhabited

namespace Numeral

/-! ## Scanning -/

/-- Whether a byte is a digit. -/
def isDigit (b : UInt8) : Bool := 48 ≤ b ∧ b ≤ 57

/-- The digits at the beginning of a text, and the rest. -/
def digits (text : List UInt8) : List Nat × List UInt8 :=
  ((text.takeWhile isDigit).map fun b => b.toNat - 48, text.dropWhile isDigit)

/-- The digits that have to come where a text goes on. -/
def someDigits (text : List UInt8) : Except Broken (List Nat × List UInt8) :=
  match digits text with
  | ([], []) => .error ⟨.ended .value, .invalidNumber⟩
  | ([], _) => .error ⟨.invalidNumber, .invalidNumber⟩
  | found => .ok found

/-- The digits before the point: only a lone zero may begin with zero. -/
def scanWhole (text : List UInt8) : Except Broken (List Nat × List UInt8) :=
  match someDigits text with
  | .ok (0 :: _ :: _, _) => .error ⟨.invalidNumber, .invalidNumber⟩
  | result => result

/-- The point and the digits after it, if there is a point. -/
def scanFraction : List UInt8 → Except Broken (Option (List Nat) × List UInt8)
  | 46 :: rest => do
    let (digits, rest) ← someDigits rest
    return (some digits, rest)
  | text => .ok (none, text)

/-- Whether a minus sign begins a text, and the text without it. -/
def splitMinus : List UInt8 → Bool × List UInt8
  | 45 :: rest => (true, rest)
  | text => (false, text)

/-- Whether a minus sign begins a text, and the text without a sign. -/
def splitSign : List UInt8 → Bool × List UInt8
  | 43 :: rest => (false, rest)
  | text => splitMinus text

/-- The power of ten, if there is one: the letter e, perhaps a sign, digits. -/
def scanPower : List UInt8 → Except Broken (Option (Bool × List Nat) × List UInt8)
  | e :: rest =>
    if e = 101 ∨ e = 69 then do
      let (digits, after) ← someDigits (splitSign rest).2
      return (some ((splitSign rest).1, digits), after)
    else
      .ok (none, e :: rest)
  | [] => .ok (none, [])

/-- The numeral at the beginning of a text, and the rest. -/
def scan (text : List UInt8) : Except Broken (Numeral × List UInt8) := do
  let (whole, rest) ← scanWhole (splitMinus text).2
  let (fraction, rest) ← scanFraction rest
  let (power, rest) ← scanPower rest
  return (⟨(splitMinus text).1, whole, fraction, power⟩, rest)

/-! ## What follows is shorter -/

theorem length_splitMinus (text : List UInt8) : (splitMinus text).2.length ≤ text.length := by
  unfold splitMinus
  split <;> simp

theorem length_splitSign (text : List UInt8) : (splitSign text).2.length ≤ text.length := by
  unfold splitSign
  split
  · simp
  · exact length_splitMinus _

theorem length_of_someDigits {text rest : List UInt8} {found : List Nat}
    (h : someDigits text = .ok (found, rest)) : rest.length < text.length := by
  have hle := (List.dropWhile_sublist isDigit (l := text)).length_le
  unfold someDigits at h
  split at h
  · simp at h
  · simp at h
  · rename_i hne
    cases text with
    | nil => exact absurd rfl (hne _)
    | cons b text =>
      by_cases hb : isDigit b
      · have := (List.dropWhile_sublist isDigit (l := text)).length_le
        simp only [digits, List.dropWhile_cons, hb, ↓reduceIte, Except.ok.injEq,
          Prod.mk.injEq] at h
        simp only [List.length_cons, ← h.2]
        omega
      · simp [digits, hb] at hne

theorem length_of_scanWhole {text rest : List UInt8} {found : List Nat}
    (h : scanWhole text = .ok (found, rest)) : rest.length < text.length := by
  unfold scanWhole at h
  split at h
  · simp at h
  · exact length_of_someDigits h

theorem length_of_scanFraction {text rest : List UInt8} {found : Option (List Nat)}
    (h : scanFraction text = .ok (found, rest)) : rest.length ≤ text.length := by
  unfold scanFraction at h
  split at h
  · rename_i text
    cases hd : someDigits text with
    | error e => simp [hd, bind, Except.bind] at h
    | ok r =>
      have := @length_of_someDigits _ r.2 r.1 hd
      simp only [hd, bind, Except.bind, pure, Except.pure, Except.ok.injEq, Prod.mk.injEq] at h
      simp only [List.length_cons, ← h.2]
      omega
  · simp only [Except.ok.injEq, Prod.mk.injEq] at h
    exact h.2 ▸ Nat.le_refl _

theorem length_of_scanPower {text rest : List UInt8} {found : Option (Bool × List Nat)}
    (h : scanPower text = .ok (found, rest)) : rest.length ≤ text.length := by
  unfold scanPower at h
  split at h
  · rename_i e text
    split at h
    · have hle := length_splitSign text
      cases hd : someDigits (splitSign text).2 with
      | error e => simp [hd, bind, Except.bind] at h
      | ok r =>
        have := @length_of_someDigits _ r.2 r.1 hd
        simp only [hd, bind, Except.bind, pure, Except.pure, Except.ok.injEq, Prod.mk.injEq] at h
        simp only [List.length_cons, ← h.2]
        omega
    · simp only [Except.ok.injEq, Prod.mk.injEq] at h
      exact h.2 ▸ Nat.le_refl _
  · simp only [Except.ok.injEq, Prod.mk.injEq] at h
    exact h.2 ▸ Nat.le_refl _

theorem length_of_scan {text rest : List UInt8} {numeral : Numeral}
    (h : scan text = .ok (numeral, rest)) : rest.length < text.length := by
  have hle := length_splitMinus text
  unfold scan at h
  cases hw : scanWhole (splitMinus text).2 with
  | error e => simp [hw, bind, Except.bind] at h
  | ok w =>
    cases hf : scanFraction w.2 with
    | error e => simp [hw, hf, bind, Except.bind] at h
    | ok f =>
      cases hp : scanPower f.2 with
      | error e => simp [hw, hf, hp, bind, Except.bind] at h
      | ok p =>
        simp only [hw, hf, hp, bind, Except.bind, pure, Except.pure, Except.ok.injEq,
          Prod.mk.injEq] at h
        have h1 := @length_of_scanWhole _ w.2 w.1 hw
        have h2 := @length_of_scanFraction _ f.2 f.1 hf
        have h3 := @length_of_scanPower _ p.2 p.1 hp
        rw [← h.2]
        omega

/-! ## Values -/

/-- One more than the largest integer of 64 bits. -/
def beyond : Nat := UInt64.size

/-- The number that digits give. -/
def ofDigits (digits : List Nat) : Nat := digits.foldl (fun n d => n * 10 + d) 0

/-- Digits gathered as long as they fit into 64 bits, and how many were not. -/
def gather (n : Nat) : List Nat → Nat × List Nat
  | [] => (n, [])
  | d :: rest => if n * 10 + d < beyond then gather (n * 10 + d) rest else (n, d :: rest)

/-- Ten to the power `n`, for `n` up to 308. -/
def tenTo (n : Nat) : Float := .ofScientific 1 false n

/-- The product of a number and a power of ten, rounded once for each factor of
    at most ten to the power 308. -/
def scaled (x : Float) (power : Int) : (fuel : Nat) → Except Fault Float
  | 0 => .ok x
  | fuel + 1 =>
    if power.natAbs ≤ 308 then
      if 0 ≤ power then
        let y := x * tenTo power.natAbs
        if y.isInf then .error .numberOutOfRange else .ok y
      else
        .ok (x / tenTo power.natAbs)
    else if x == 0.0 then .ok x
    else if 0 ≤ power then .error .numberOutOfRange
    else scaled (x / tenTo 308) (power + 308) fuel

/-- The largest power of ten that is told apart from larger ones. -/
def largestPower : Nat := 0x7FFFFFFF

/-- The floating-point number of a numeral. Digits that do not fit into 64 bits
    any more count as zeros before the point and not at all after it. -/
def real (numeral : Numeral) : Except Fault Float := do
  let (n, dropped) := gather 0 numeral.whole
  let (n, kept) := match numeral.fraction with
    | none => (n, 0)
    | some fraction =>
      let (m, left) := gather n fraction
      (m, fraction.length - left.length)
  let shift : Int := (dropped.length : Int) - kept
  let size ← match numeral.power with
    | none => scaled n.toUInt64.toFloat shift (fuel shift)
    | some (negative, digits) =>
      let power := ofDigits digits
      -- With such a power, a number is zero or too large, whatever its digits are.
      if largestPower < power then
        if n ≠ 0 ∧ !negative then throw .numberOutOfRange else pure 0.0
      else
        let power : Int := if negative then shift - power else shift + power
        let power := max (-(largestPower : Int) - 1) (min (largestPower : Int) power)
        scaled n.toUInt64.toFloat power (fuel power)
  return if numeral.negative then -size else size
where
  /-- How often a power of ten can be brought nearer to zero. -/
  fuel (power : Int) : Nat := power.natAbs / 308 + 1

/-- The number that a numeral stands for. -/
def value (numeral : Numeral) : Except Fault Number :=
  let n := ofDigits numeral.whole
  if numeral.fraction.isNone ∧ numeral.power.isNone then
    if !numeral.negative ∧ n < beyond then .ok (.integer n)
    else if numeral.negative ∧ 0 < n ∧ n ≤ 0x8000000000000000 then .ok (.integer (-n))
    else numeral.real.map .real
  else
    numeral.real.map .real

end Numeral

end StatusList.Json
