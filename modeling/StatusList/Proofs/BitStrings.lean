import Mathlib

/-!
# Numbers as bits

A number is written as a *bit string* with the lowest bit first (`lowestFirst`) or with the
highest first (`highestFirst`). A longer bit string is that of the low end and that of what is
above it, one after the other, and no two numbers that fit have the same one.
-/

namespace StatusList

/-- The lowest `n` bits of a number, the lowest first. -/
def lowestFirst (n value : Nat) : List Bool := (List.range n).map value.testBit

/-- The lowest `n` bits of a number, the highest first. -/
def highestFirst (n value : Nat) : List Bool := (lowestFirst n value).reverse

@[simp] theorem length_lowestFirst (n value : Nat) : (lowestFirst n value).length = n := by
  rw [lowestFirst, List.length_map, List.length_range]

@[simp] theorem length_highestFirst (n value : Nat) : (highestFirst n value).length = n := by
  rw [highestFirst, List.length_reverse, length_lowestFirst]

/-- The bits above the low end are those of the number without it. -/
theorem lowestFirst_add (m n value : Nat) :
    lowestFirst (m + n) value = lowestFirst m value ++ lowestFirst n (value / 2 ^ m) := by
  have hhigh : (value / 2 ^ m).testBit = fun k => value.testBit (m + k) := funext fun k => by
    rw [Nat.testBit_div_two_pow, Nat.add_comm]
  rw [lowestFirst, lowestFirst, lowestFirst, hhigh, List.range_add, List.map_append, List.map_map]
  rfl

theorem highestFirst_add (m n value : Nat) :
    highestFirst (m + n) value = highestFirst m (value / 2 ^ n) ++ highestFirst n value := by
  rw [highestFirst, Nat.add_comm, lowestFirst_add, List.reverse_append]
  rfl

/-- Only the low end of a number counts. -/
theorem lowestFirst_mod (n value : Nat) : lowestFirst n (value % 2 ^ n) = lowestFirst n value := by
  refine List.map_congr_left fun k hk => ?_
  rw [Nat.testBit_mod_two_pow, decide_eq_true (List.mem_range.1 hk), Bool.true_and]

theorem highestFirst_mod (n value : Nat) :
    highestFirst n (value % 2 ^ n) = highestFirst n value := by
  rw [highestFirst, lowestFirst_mod, highestFirst]

/-- A number with another one below it has the bits of both. -/
theorem highestFirst_mul_add {n low : Nat} (h : low < 2 ^ n) (m value : Nat) :
    highestFirst (m + n) (value * 2 ^ n + low) = highestFirst m value ++ highestFirst n low := by
  rw [highestFirst_add, Nat.mul_comm, Nat.mul_add_div (Nat.two_pow_pos n), Nat.div_eq_of_lt h,
    Nat.add_zero, ← highestFirst_mod n (2 ^ n * value + low), Nat.mul_add_mod,
    Nat.mod_eq_of_lt h]

theorem highestFirst_zero (n : Nat) : highestFirst n 0 = List.replicate n false := by
  rw [highestFirst, lowestFirst, List.eq_replicate_iff]
  simp

/-- Numbers that fit are told apart by their bits. -/
theorem lowestFirst_inj {n a b : Nat} (ha : a < 2 ^ n) (hb : b < 2 ^ n)
    (h : lowestFirst n a = lowestFirst n b) : a = b := by
  refine Nat.eq_of_testBit_eq fun k => ?_
  rcases Nat.lt_or_ge k n with hk | hk
  · exact List.map_inj_left.1 h k (List.mem_range.2 hk)
  · have hbeyond : ∀ c < 2 ^ n, c.testBit k = false := fun c hc =>
      Nat.testBit_lt_two_pow (hc.trans_le (Nat.pow_le_pow_right (by decide) hk))
    rw [hbeyond a ha, hbeyond b hb]

theorem highestFirst_inj {n a b : Nat} (ha : a < 2 ^ n) (hb : b < 2 ^ n)
    (h : highestFirst n a = highestFirst n b) : a = b :=
  lowestFirst_inj ha hb (List.reverse_injective h)

/-- Numbers written one after the other with the same number of bits are told apart by the
    whole. -/
theorem flatMap_highestFirst_inj {n : Nat} (hn : 0 < n) {as bs : List Nat}
    (has : ∀ a ∈ as, a < 2 ^ n) (hbs : ∀ b ∈ bs, b < 2 ^ n)
    (h : as.flatMap (highestFirst n) = bs.flatMap (highestFirst n)) : as = bs := by
  induction as generalizing bs with
  | nil =>
    cases bs with
    | nil => rfl
    | cons b bs =>
      have hlength := congrArg List.length h
      simp only [List.flatMap_nil, List.flatMap_cons, List.length_append, length_highestFirst,
        List.length_nil] at hlength
      omega
  | cons a as ih =>
    cases bs with
    | nil =>
      have hlength := congrArg List.length h
      simp only [List.flatMap_nil, List.flatMap_cons, List.length_append, length_highestFirst,
        List.length_nil] at hlength
      omega
    | cons b bs =>
      rw [List.forall_mem_cons] at has hbs
      obtain ⟨hfirst, hrest⟩ := List.append_inj h (by simp)
      rw [highestFirst_inj has.1 hbs.1 hfirst, ih has.2 hbs.2 hrest]

end StatusList
