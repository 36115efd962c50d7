import StatusList.Cbor.Reader
import StatusList.Proofs.Basic
import StatusList.Proofs.Text.Utf8

/-!
# Reading heads and strings

What is written of a head (`takeHead_head`), a byte string (`takeByteString_append`) or a
text (`takeText_encode`) is taken off the beginning of a byte string, whatever follows it.

A long text is taken window by window. The invariant of that (`takeWindows_encode`): what
has been kept of the latest window and what is still to be taken are together the
characters that are missing, and what has been kept only begins the first of them.
-/

namespace StatusList.Cbor

open Utf8 (Begins)

/-! ## Bytes -/

theorem go_append (done bytes rest : List UInt8) :
    splitAt?.go done bytes.length (bytes ++ rest) = some (done.reverse ++ bytes, rest) := by
  induction bytes generalizing done with
  | nil => rw [List.append_nil, List.nil_append, List.length_nil, splitAt?.go]
  | cons b bytes ih =>
    refine (ih (b :: done)).trans ?_
    rw [List.reverse_cons, List.append_assoc, List.singleton_append]

/-- As many bytes as a list has are taken as that list. -/
theorem takeExactly_append (bytes rest : List UInt8) :
    takeExactly bytes.length (bytes ++ rest) = .ok (bytes, rest) := by
  rw [takeExactly, splitAt?, go_append]
  rfl

theorem length_bigEndian (n value : Nat) : (bigEndian n value).length = n := by
  induction n generalizing value with
  | zero => rfl
  | succ n ih => rw [bigEndian, List.length_append, ih, List.length_singleton]

/-- A number is read as it was written if its bytes are enough for it. -/
theorem ofBigEndian_bigEndian {n value : Nat} (h : value < 256 ^ n) :
    ofBigEndian (bigEndian n value) = value := by
  induction n generalizing value with
  | zero =>
    rw [pow_zero, Nat.lt_one_iff] at h
    exact h.symm
  | succ n ih =>
    have hhigh : value / 256 < 256 ^ n := by
      rw [pow_succ, mul_comm] at h
      exact Nat.div_lt_of_lt_mul h
    have hrest := ih hhigh
    rw [ofBigEndian] at hrest
    rw [bigEndian, ofBigEndian, List.foldl_append, hrest]
    simp only [List.foldl_cons, List.foldl_nil, Nat.toUInt8_eq, UInt8.toNat_ofNat']
    omega

/-! ## Heads -/

/-- The first byte of a head has its kind above the five lower bits. -/
theorem takeHead_cons {major low : Nat} (hmajor : major < 8) (hlow : low < 32)
    (rest : List UInt8) :
    takeHead ((major * 32 + low).toUInt8 :: rest) =
      (do Head.of major (← takeArgument low) : Parser Head) rest := by
  have hfirst : ofBigEndian [(major * 32 + low).toUInt8] = major * 32 + low := by
    simp only [ofBigEndian, List.foldl_cons, List.foldl_nil, Nat.toUInt8_eq, UInt8.toNat_ofNat']
    omega
  have htake := takeExactly_append [(major * 32 + low).toUInt8] rest
  have hkind : (major * 32 + low) / 32 = major := by omega
  have hrest : (major * 32 + low) % 32 = low := by omega
  refine (bind_of_ok htake _).trans ?_
  simp only [hfirst, hkind, hrest]

/-- A number that follows the first byte of a head. -/
theorem takeArgument_wide {low width n : Nat} (rest : List UInt8)
    (hlow : (low, width) ∈ [(24, 1), (25, 2), (26, 4), (27, 8)]) (hn : n < 256 ^ width) :
    ∃ argument, Argument.number? argument = some n ∧
      takeArgument low (bigEndian width n ++ rest) = .ok (argument, rest) := by
  refine ⟨.wide (bigEndian width n), congrArg some (ofBigEndian_bigEndian hn), ?_⟩
  have htake := takeExactly_append (bigEndian width n) rest
  rw [length_bigEndian] at htake
  simp only [List.mem_cons, Prod.mk.injEq, List.not_mem_nil, or_false] at hlow
  rcases hlow with ⟨rfl, rfl⟩ | ⟨rfl, rfl⟩ | ⟨rfl, rfl⟩ | ⟨rfl, rfl⟩ <;> exact bind_of_ok htake _

/-- A head is read as it was written. -/
theorem takeHead_head {major n : Nat} (result : Head) (hmajor : major < 7) (hn : n < 2 ^ 64)
    (hhead : ∀ argument, Argument.number? argument = some n → Head.of major argument = .ok result)
    (rest : List UInt8) : takeHead (head major n ++ rest) = .ok (result, rest) := by
  obtain ⟨low, tail, hlow, hcode, argument, hnumber, htail⟩ : ∃ low tail, low < 32 ∧
      head major n = (major * 32 + low).toUInt8 :: tail ∧ ∃ argument,
        Argument.number? argument = some n ∧
          takeArgument low (tail ++ rest) = .ok (argument, rest) := by
    -- The five lower bits are the number itself, or they tell how many bytes it takes.
    rw [head]
    split
    · next h => exact ⟨n, [], by omega, rfl, .small n, rfl, congrFun (if_pos h) _⟩
    split
    · next h => exact ⟨24, _, by decide, rfl, takeArgument_wide rest (by decide) h⟩
    split
    · next h => exact ⟨25, _, by decide, rfl, takeArgument_wide rest (by decide) h⟩
    split
    · next h => exact ⟨26, _, by decide, rfl, takeArgument_wide rest (by decide) h⟩
    · exact ⟨27, _, by decide, rfl, takeArgument_wide rest (by decide) hn⟩
  rw [hcode, List.cons_append, takeHead_cons (by omega) hlow]
  refine (bind_of_ok htail _).trans ?_
  rw [hhead argument hnumber]
  rfl

/-! ## Texts -/

theorem textOf_encode (cs : List Char) : textOf (Utf8.encode cs) = .ok (.ofList cs) := by
  rw [textOf, Utf8.decode_encode]

/-- A window is read up to the beginning of a character that is cut off. -/
theorem readWindow_encode {cs : List Char} {part : List UInt8} {rest : List Char}
    (h : Begins part rest) : readWindow (Utf8.encode cs ++ part) = .ok (.ofList cs, part) := by
  rcases eq_or_ne part [] with rfl | hne
  · rw [List.append_nil, readWindow, Utf8.decode_encode]
  · cases h with
    | nothing => exact absurd rfl hne
    | character h rest =>
      have hshort : ¬ 3 < part.length := Nat.not_lt.2 h.length_le
      rw [readWindow, Utf8.decode_encode_append cs h hne]
      simp only [Utf8.Fault.index, List.splitAt_eq, List.take_left, List.drop_left, if_neg hshort,
        textOf_encode]
      rfl

/-- Once all bytes have been taken, nothing has been kept and no character is missing. -/
theorem takeWindows_zero {kept : List UInt8} {cs : List Char} (hbytes : kept = Utf8.encode cs)
    (hkept : Begins kept cs) (fuel : Nat) (done : String) (rest : List UInt8) :
    takeWindows fuel 0 kept done rest = .ok (done ++ .ofList cs, rest) := by
  obtain rfl := hkept.eq_nil hbytes
  obtain rfl : kept = [] := hbytes
  rw [String.ofList_nil, String.append_empty]
  cases fuel <;> rfl

theorem takeWindows_succ {left : Nat} (h : 0 < left) (fuel : Nat) (kept : List UInt8)
    (done : String) :
    takeWindows (fuel + 1) left kept done = (do
      let taken ← takeExactly (min left (windowSize - kept.length))
      let (text, kept') ← readWindow (kept ++ taken)
      takeWindows fuel (left - min left (windowSize - kept.length)) kept' (done ++ text)) := by
  rw [takeWindows] <;> exact fun hzero => absurd hzero h.ne'

/-- The windows of a text give its characters. -/
theorem takeWindows_encode {fuel : Nat} {kept bytes : List UInt8} {cs : List Char}
    (hbytes : kept ++ bytes = Utf8.encode cs) (hkept : Begins kept cs)
    (hfuel : bytes.length ≤ fuel) (done : String) (rest : List UInt8) :
    takeWindows fuel bytes.length kept done (bytes ++ rest) = .ok (done ++ .ofList cs, rest) := by
  induction fuel generalizing kept bytes cs done with
  | zero =>
    obtain rfl : bytes = [] := List.length_eq_zero_iff.1 (Nat.le_zero.1 hfuel)
    exact takeWindows_zero (by rw [← hbytes, List.append_nil]) hkept 0 done rest
  | succ fuel ih =>
    rcases Nat.eq_zero_or_pos bytes.length with hzero | hpos
    · obtain rfl : bytes = [] := List.length_eq_zero_iff.1 hzero
      exact takeWindows_zero (by rw [← hbytes, List.append_nil]) hkept _ done rest
    · have hroom : kept.length ≤ 3 := hkept.length_le
      obtain ⟨window, bytes, rfl, hcount⟩ : ∃ window bytes', bytes = window ++ bytes' ∧
          min bytes.length (windowSize - kept.length) = window.length :=
        ⟨_, _, (List.take_append_drop (windowSize - kept.length) bytes).symm, by
          rw [List.length_take, Nat.min_comm]⟩
      have hwindow : 0 < window.length := by
        rw [← hcount, windowSize]
        omega
      -- The window holds whole characters and the beginning of the next, which is kept.
      obtain ⟨whole, cs, part, rfl, htaken, hpart⟩ :=
        Utf8.exists_encode_append_of_isPrefix (show kept ++ window <+: Utf8.encode cs from
          ⟨bytes, by rw [← hbytes, List.append_assoc]⟩)
      have hrest : part ++ bytes = Utf8.encode cs := by
        have hall : Utf8.encode whole ++ (part ++ bytes) = Utf8.encode whole ++ Utf8.encode cs := by
          rw [← List.append_assoc, ← htaken, ← Utf8.encode_append, ← hbytes, List.append_assoc]
        exact List.append_cancel_left hall
      have hstep := ih hrest hpart (by rw [List.length_append] at hfuel; omega)
        (done ++ .ofList whole)
      have hread : (readWindow (kept ++ window) : Except Fault _) = .ok (.ofList whole, part) := by
        rw [htaken, readWindow_encode hpart]
      rw [takeWindows_succ hpos, hcount, List.append_assoc]
      refine (bind_of_ok (takeExactly_append window (bytes ++ rest)) _).trans ?_
      rw [hread, List.length_append, Nat.add_sub_cancel_left]
      refine hstep.trans ?_
      rw [String.ofList_append, String.append_assoc]

/-! ## Strings of a stated length -/

theorem takeByteString_append (bytes rest : List UInt8) :
    takeByteString (some bytes.length) (bytes ++ rest) = .ok (bytes, rest) :=
  takeExactly_append bytes rest

/-- A text is taken as it was written. -/
theorem takeText_encode (cs : List Char) (rest : List UInt8) :
    takeText (some (Utf8.encode cs).length) (Utf8.encode cs ++ rest) = .ok (.ofList cs, rest) := by
  rw [takeText]
  split
  · refine (bind_of_ok (takeExactly_append _ _) _).trans ?_
    rw [textOf_encode]
    rfl
  · have htake := takeWindows_encode (List.nil_append _) (Utf8.begins_nil cs) (Nat.le_refl _) ""
      rest
    rwa [String.empty_append] at htake

end StatusList.Cbor
