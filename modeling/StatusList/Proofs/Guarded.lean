import StatusList.Packed
import StatusList.Proofs.Basic

/-!
# Guarded steps

A machine does not count as we do: its numbers are words of 64 bits, it moves a byte by less than
the eight bits of the byte, and it finds a byte only before the end of a byte string. A *guarded*
step is one of these with the condition checked, and a *trap* is what it ends in where the
condition fails. So what is computed in guarded steps without a trap is computed without a wrap,
too, and is what the plain numbers give.

* `Guarded.mul_of_lt`, `Guarded.sub_of_le`, ..., `Guarded.putByte_of_lt`: for each step, where it
  goes on and with what.
-/

namespace StatusList

/-- What a machine cannot do. -/
inductive Trap where
  /-- The result takes more than 64 bits. -/
  | overflow
  /-- The result is below zero. -/
  | underflow
  /-- A byte is moved by all of its bits, or more. -/
  | overshift
  /-- There is no such byte. -/
  | outside
  deriving DecidableEq, Repr

namespace Guarded

/-- The sum of two words. -/
def add (m n : Nat) : Except Trap Nat :=
  if m + n < 2 ^ 64 then .ok (m + n) else .error .overflow

/-- The product of two words. -/
def mul (m n : Nat) : Except Trap Nat :=
  if m * n < 2 ^ 64 then .ok (m * n) else .error .overflow

/-- The difference of two words. -/
def sub (m n : Nat) : Except Trap Nat := if n ≤ m then .ok (m - n) else .error .underflow

/-- A byte moved up. -/
def shiftLeft (byte : UInt8) (n : Nat) : Except Trap UInt8 :=
  if n < 8 then .ok (byte <<< n.toUInt8) else .error .overshift

/-- A byte moved down. -/
def shiftRight (byte : UInt8) (n : Nat) : Except Trap UInt8 :=
  if n < 8 then .ok (byte >>> n.toUInt8) else .error .overshift

/-- The byte at an index. -/
def byteAt (bytes : ByteArray) (i : Nat) : Except Trap UInt8 :=
  if h : i < bytes.size then .ok (bytes.get i h) else .error .outside

/-- The byte string with another byte at an index. -/
def putByte (bytes : ByteArray) (i : Nat) (byte : UInt8) : Except Trap ByteArray :=
  if h : i < bytes.size then .ok (bytes.set i byte h) else .error .outside

theorem add_of_lt {m n : Nat} (h : m + n < 2 ^ 64) : add m n = .ok (m + n) := if_pos h

theorem mul_of_lt {m n : Nat} (h : m * n < 2 ^ 64) : mul m n = .ok (m * n) := if_pos h

theorem mul_of_le {m n : Nat} (h : 2 ^ 64 ≤ m * n) : mul m n = .error .overflow :=
  if_neg (Nat.not_lt.2 h)

theorem sub_of_le {m n : Nat} (h : n ≤ m) : sub m n = .ok (m - n) := if_pos h

theorem shiftLeft_of_lt {n : Nat} (byte : UInt8) (h : n < 8) :
    shiftLeft byte n = .ok (byte <<< n.toUInt8) := if_pos h

theorem shiftRight_of_lt {n : Nat} (byte : UInt8) (h : n < 8) :
    shiftRight byte n = .ok (byte >>> n.toUInt8) := if_pos h

theorem byteAt_of_lt {bytes : ByteArray} {i : Nat} (h : i < bytes.size) :
    byteAt bytes i = .ok (bytes.get i h) := dif_pos h

theorem putByte_of_lt {bytes : ByteArray} {i : Nat} (byte : UInt8) (h : i < bytes.size) :
    putByte bytes i byte = .ok (bytes.set i byte h) := dif_pos h

end Guarded

end StatusList
