import StatusList.Proofs.DocumentFaults
import StatusList.Proofs.Flate.Streams

/-!
# Inflating byte strings

A compressed list is inflated if it begins with a whole stream for a list that is not too large.
What follows the stream is not looked at, and where the stream breaks off, or the checksum at its
end is another one, nothing is inflated (`streams_are_inflated_whole`): no part of a list is taken
for a list.

Not all of the streams are valid ones. A copy may reach before the beginning of the output, where
it finds zeros, and such a stream is inflated as well (`stray_copy_is_inflated`).
-/

namespace StatusList

open Flate
open BitSource (bitsOf)

/-- Bytes begin with a stream for `raw`, of which copies may reach into a window of zeros before the
    output. -/
def BeginsWithStream (window : Nat) (bytes raw : ByteArray) : Prop :=
  ∃ front rest : List UInt8, bytes.data.toList = front ++ rest ∧
    IsStream window front raw.data.toList

variable {bytes raw : ByteArray}

theorem BeginsWithStream.mono {window window' : Nat} (hle : window ≤ window')
    (h : BeginsWithStream window bytes raw) : BeginsWithStream window' bytes raw := by
  obtain ⟨front, rest, hbytes, hstream⟩ := h
  exact ⟨front, rest, hbytes, hstream.mono hle⟩

theorem BeginsWithStream.append {window : Nat} (h : BeginsWithStream window bytes raw)
    (tail : ByteArray) : BeginsWithStream window (bytes ++ tail) raw := by
  obtain ⟨front, rest, hbytes, hstream⟩ := h
  refine ⟨front, rest ++ tail.data.toList, ?_, hstream⟩
  rw [ByteArray.data_append, Array.toList_append, hbytes, List.append_assoc]

/-- Byte strings that begin with a stream are those that are inflated under some limit. -/
theorem inflates_iff : Inflates bytes raw ↔ BeginsWithStream longestDistance bytes raw := by
  constructor
  · rintro ⟨limit, h⟩
    exact (Flate.unpack_eq_ok_iff.1 h).2
  · intro h
    exact ⟨raw.size, Flate.unpack_eq_ok_iff.2 ⟨Nat.le_refl _, h⟩⟩

theorem inflate_eq_ok_iff_begins : inflate bytes = .ok raw ↔
    BeginsWithStream longestDistance bytes raw ∧ raw.size ≤ largestPacked := by
  rw [inflate_eq_ok_iff, inflates_iff]

/-- A list that is too large is not cut off. -/
theorem inflate_eq_full (h : BeginsWithStream longestDistance bytes raw)
    (hsize : largestPacked < raw.size) : inflate bytes = .error (.notInflated .full) := by
  obtain ⟨limit, hunpack⟩ := inflates_iff.2 h
  rw [inflate, Flate.unpack_of_unpack hunpack, if_neg (Nat.not_le.2 hsize)]
  rfl

theorem exists_fault_of_ne_ok (h : ∀ raw, inflate bytes ≠ .ok raw) :
    ∃ fault, inflate bytes = .error (.notInflated fault) := by
  cases hinflate : inflate bytes with
  | ok raw => exact absurd hinflate (h raw)
  | error cause =>
    obtain ⟨fault, rfl⟩ := exists_fault_of_inflate hinflate
    exact ⟨fault, rfl⟩

/-- A stream that breaks off is not inflated, wherever it does. -/
theorem exists_fault_of_prefix {stream raw : List UInt8} (h : IsStream longestDistance stream raw)
    (hcut : bytes.data.toList <+: stream) (hne : bytes.data.toList ≠ stream) :
    ∃ fault, inflate bytes = .error (.notInflated fault) := by
  refine exists_fault_of_ne_ok fun raw' hok => ?_
  obtain ⟨⟨front, rest, hbytes, hfront⟩, -⟩ := inflate_eq_ok_iff_begins.1 hok
  have hbegin : front <+: bytes.data.toList := ⟨rest, hbytes.symm⟩
  -- The stream would begin with another one.
  obtain ⟨rfl, -⟩ := hfront.eq_of_prefix h (hbegin.trans hcut) (List.prefix_refl _)
  exact hne (hcut.eq_of_length_le hbegin.length_le)

/-- A byte string is inflated if and only if it begins with a stream for a list that is not too
    large, and to that list. A valid stream is inflated, with anything after it. A stream that
    breaks off is not, nor is one for too large a list, and the error tells of inflating. Only valid
    streams are inflated unless some copy reaches before the beginning of the output. -/
theorem streams_are_inflated_whole (bytes : ByteArray) :
    (∀ raw, inflate bytes = .ok raw ↔
      BeginsWithStream longestDistance bytes raw ∧ raw.size ≤ largestPacked) ∧
    (∀ raw, BeginsWithStream 0 bytes raw → raw.size ≤ largestPacked → inflate bytes = .ok raw) ∧
    (∀ raw, BeginsWithStream longestDistance bytes raw → largestPacked < raw.size →
      inflate bytes = .error (.notInflated .full)) ∧
    (∀ raw tail, inflate bytes = .ok raw → inflate (bytes ++ tail) = .ok raw) ∧
    (∀ stream raw : List UInt8, IsStream longestDistance stream raw →
      bytes.data.toList <+: stream → bytes.data.toList ≠ stream →
        ∃ fault, inflate bytes = .error (.notInflated fault)) ∧
    ((∀ raw, inflate bytes ≠ .ok raw) → ∃ fault, inflate bytes = .error (.notInflated fault)) ∧
    ((∀ raw, inflate bytes = .ok raw ↔ BeginsWithStream 0 bytes raw ∧ raw.size ≤ largestPacked) ↔
      ∀ raw, BeginsWithStream longestDistance bytes raw → raw.size ≤ largestPacked →
        BeginsWithStream 0 bytes raw) := by
  refine ⟨fun raw => inflate_eq_ok_iff_begins, ?valid, fun raw => inflate_eq_full, ?tail,
    fun stream raw => exists_fault_of_prefix, exists_fault_of_ne_ok, ?onlyValid⟩
  case valid =>
    intro raw h hsize
    exact inflate_eq_ok_iff_begins.2 ⟨h.mono (Nat.zero_le _), hsize⟩
  case tail =>
    intro raw tail h
    obtain ⟨hbegins, hsize⟩ := inflate_eq_ok_iff_begins.1 h
    exact inflate_eq_ok_iff_begins.2 ⟨hbegins.append tail, hsize⟩
  case onlyValid =>
    simp only [inflate_eq_ok_iff_begins]
    constructor
    · intro h raw hbegins hsize
      exact ((h raw).1 ⟨hbegins, hsize⟩).1
    · intro h raw
      refine and_congr_left fun hsize => ⟨fun hbegins => h raw hbegins hsize, fun hvalid => ?_⟩
      exact hvalid.mono (Nat.zero_le _)

/-- The stream of a single byte that is stored. -/
def storedByte : ByteArray :=
  ⟨#[0x78, 0x01, 0x01, 0x01, 0x00, 0xFE, 0xFF, 0x61, 0x00, 0x62, 0x00, 0x62]⟩

theorem stored_byte_is_inflated_whole :
    BeginsWithStream 0 storedByte ⟨#[0x61]⟩ ∧ inflate storedByte = .ok ⟨#[0x61]⟩ ∧
      inflate (storedByte ++ storedByte) = .ok ⟨#[0x61]⟩ ∧
      ∃ fault, inflate (storedByte.extract 0 11) = .error (.notInflated fault) := by
  have hblock : IsBlock 0 (16 + 3) [] 0 _ [0x61] :=
    @IsBlock.stored 0 _ [] _ (.replicate 5 false) (by decide) (by decide) (by decide)
  have hstream : IsStream 0 storedByte.data.toList [0x61] :=
    ⟨0x78, 0x01, _, [], by decide, .last hblock, by decide, by decide +kernel⟩
  have hbegins : BeginsWithStream 0 storedByte ⟨#[0x61]⟩ :=
    ⟨_, [], (List.append_nil _).symm, hstream⟩
  have hsize : (⟨#[0x61]⟩ : ByteArray).size ≤ largestPacked := by decide
  have hok := (streams_are_inflated_whole storedByte).2.1 _ hbegins hsize
  refine ⟨hbegins, hok, (streams_are_inflated_whole storedByte).2.2.2.1 _ _ hok, ?_⟩
  exact (streams_are_inflated_whole (storedByte.extract 0 11)).2.2.2.2.1 _ _
    (hstream.mono (Nat.zero_le _)) (by decide) (by decide)

/-- A stream of a single block, in which a length of three and a distance of one come first. -/
def strayCopy : ByteArray := ⟨#[0x78, 0x9C, 0x03, 0x02, 0x00, 0x00, 0x03, 0x00, 0x01]⟩

/-- The bits after the header: the mark of the last block, its kind, the length, the distance and
    the end. -/
theorem drop_bitsOf_strayCopy : (bitsOf strayCopy.data.toList).drop 16 =
    true :: (lowestFirst 2 1 ++ (highestFirst 7 1 ++ (highestFirst 5 0 ++ (highestFirst 7 0 ++
      lowestFirst 2 0 ++ bitsOf [0, 3, 0, 1])))) := by
  decide +kernel

theorem stray_copy_is_inflated :
    inflate strayCopy = .ok ⟨#[0, 0, 0]⟩ ∧ ∀ raw, ¬BeginsWithStream 0 strayCopy raw := by
  constructor
  · have hunpack : Flate.unpack largestPacked strayCopy = .ok ⟨#[0, 0, 0]⟩ := by decide +kernel
    rw [inflate, hunpack]
    rfl
  · rintro raw ⟨front, rest, hbytes, method, flags, bits, padding, -, hblocks, -, hbits⟩
    obtain ⟨last, _, more, rfl, _, _, ⟨kind, contents, rfl, hblock⟩, -⟩ := areBlocks_iff.1 hblocks
    have hheader : (bitsOf [method, flags]).length = 16 := BitSource.length_bitsOf _
    have hdrop := drop_bitsOf_strayCopy
    rw [hbytes, BitSource.bitsOf_append, hbits, List.append_assoc, List.drop_left' hheader] at hdrop
    simp only [List.cons_append, List.append_assoc] at hdrop
    obtain ⟨hkind, hcontents⟩ := List.append_inj (List.tail_eq_of_cons_eq hdrop) (by simp)
    obtain rfl := lowestFirst_inj hblock.kind_lt (by decide) hkind
    -- The first symbol is the one of the length.
    have hlength : IsString fixedLiterals (endOfBlock + 1 + 0) (highestFirst 7 1) :=
      (isString_iff_exists fixed_le.1 isCode_fixed.1).2 (by decide +kernel)
    cases hblock with
    | fixed hsymbols =>
      refine not_areSymbols_of_length 0 (fun symbol string hstring hcut => ?_) hsymbols
      exact hstring.eq_of_prefix fixed_le.1 isCode_fixed.1 hlength
        (hcut.trans (List.prefix_append _ _)) ⟨_, hcontents.symm⟩

end StatusList
