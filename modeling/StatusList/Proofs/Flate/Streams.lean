import StatusList.Proofs.Flate.Checksum
import StatusList.Proofs.Flate.Descriptions

/-!
# What is taken off a stream

Each step of inflating takes just the bits that the grammar tells of, and adds what they stand for
(`takes_takeBlock`, `takes_takeBlocks`, `takes_takeStream`). So a byte string is inflated if and
only if it begins with a stream for which there is room, and to what that stands for
(`unpack_eq_ok_iff`).
-/

namespace StatusList.Flate

open BitSource (bitsOf)

variable {limit : Nat} {s : BitSource} {out : ByteArray}

/-! ## Blocks -/

/-- A stored block takes what is left of a byte, the number of bytes twice, and the bytes. -/
theorem takes_takeStored (hs : s.taken ≤ 8 * s.bytes.size) (hout : out.size ≤ limit) :
    Takes (takeStored limit out) s (Adds limit out fun bits new => ∃ rest : List Bool,
      rest.length < 8 ∧ 8 ∣ s.taken + rest.length ∧ new.length < 2 ^ 16 ∧
        bits = rest ++ (lowestFirst 16 new.length ++
          (lowestFirst 16 (2 ^ 16 - 1 - new.length) ++ bitsOf new))) := by
  unfold takeStored
  refine ((takes_align hs).bind fun _ rest _ hrest => (takes_takeBits 16).bind
    fun length front _ hlength => (takes_takeBits 16).bind fun check front' _ hcheck =>
    takes_guard .corrupt fun _ => takes_copyStored length ?_ hout).congr fun bits out' _ => ?_
  · rw [hlength.2, hcheck.2, length_lowestFirst, length_lowestFirst]
    change 8 ∣ s.taken + rest.length + 16 + 16
    omega
  · constructor
    · rintro ⟨_, rest, _, rfl, ⟨hrest, hplace⟩, length, _, _, rfl, ⟨hlength, rfl⟩, check, _, _, rfl,
        ⟨hcheck, rfl⟩, hsum, hsize, new, ⟨rfl, rfl⟩, rfl⟩
      obtain rfl : check = 2 ^ 16 - 1 - new.length := by omega
      exact ⟨hsize, new, ⟨rest, hrest, hplace, hlength, rfl⟩, rfl⟩
    · rintro ⟨hsize, new, ⟨rest, hrest, hplace, hlength, rfl⟩, rfl⟩
      exact ⟨(), rest, _, rfl, ⟨hrest, hplace⟩, _, _, _, rfl, ⟨hlength, rfl⟩, _, _, _, rfl,
        ⟨by omega, rfl⟩, by omega, hsize, new, ⟨rfl, rfl⟩, rfl⟩

/-- A coded block takes what its codes take, and its symbols. -/
theorem takes_codes {codes : Decoder Codes} {D : List Bool → List Nat → List Nat → Prop}
    (hcodes : Takes codes s fun bits codes => ∃ literals distances,
      D bits literals distances ∧ Codes.ofLengths literals distances = .ok codes)
    (hshort : ∀ {bits literals distances}, D bits literals distances →
      (∀ l ∈ literals, l ≤ 15) ∧ ∀ l ∈ distances, l ≤ 15) (hout : out.size ≤ limit) :
    Takes (codes >>= fun codes => takeCoded limit codes out) s (Adds limit out fun bits new =>
      ∃ front back literals distances, bits = front ++ back ∧ D front literals distances ∧
        IsCode literals ∧ IsCode distances ∧ AreSymbols longestDistance (IsString literals)
          (IsString distances) out.data.toList back new) := by
  have hbind : Takes (codes >>= fun codes => takeCoded limit codes out) s fun bits out' =>
      ∃ codes front back, bits = front ++ back ∧ (∃ literals distances,
        D front literals distances ∧ Codes.ofLengths literals distances = .ok codes) ∧
        Adds limit out (AreSymbols longestDistance codes.literals.strings codes.distances.strings
          out.data.toList) back out' := by
    refine hcodes.bind fun codes front _ h => ?_
    obtain ⟨literals, distances, hD, hok⟩ := h
    obtain ⟨hliterals, hdistances⟩ := hshort hD
    obtain ⟨-, -, hof⟩ := Codes.of_ofLengths hliterals hdistances hok
    rw [hof.1, hof.2]
    exact takes_takeCoded hof hout
  refine hbind.congr fun bits out' _ => ?_
  constructor
  · rintro ⟨codes, front, back, rfl, ⟨literals, distances, hD, hok⟩, hsize, new, hsymbols, rfl⟩
    obtain ⟨hliterals, hdistances⟩ := hshort hD
    obtain ⟨hcode, hcode', hof⟩ := Codes.of_ofLengths hliterals hdistances hok
    rw [hof.1, hof.2] at hsymbols
    exact ⟨hsize, new, ⟨front, back, _, _, rfl, hD, hcode, hcode', hsymbols⟩, rfl⟩
  · rintro ⟨hsize, new, ⟨front, back, literals, distances, rfl, hD, hcode, hcode', hsymbols⟩, rfl⟩
    obtain ⟨hliterals, hdistances⟩ := hshort hD
    obtain ⟨codes, hok⟩ := Codes.exists_ofLengths hcode hcode'
    obtain ⟨-, -, hof⟩ := Codes.of_ofLengths hliterals hdistances hok
    rw [← hof.1, ← hof.2] at hsymbols
    exact ⟨codes, front, back, rfl, ⟨literals, distances, hD, hok⟩, hsize, new, hsymbols, rfl⟩

/-- The lengths that need no description are those of two codes. -/
theorem isCode_fixed : IsCode fixedLiterals ∧ IsCode fixedDistances :=
  ⟨.inl (Tree.isComplete_iff.1 (by decide +kernel)),
    .inl (Tree.isComplete_iff.1 (by decide +kernel))⟩

theorem fixed_le : (∀ l ∈ fixedLiterals, l ≤ 15) ∧ ∀ l ∈ fixedDistances, l ≤ 15 := by
  decide +kernel

/-- No bits are taken for the codes that need no description. -/
theorem takes_fixedCodes :
    Takes (liftM fixedCodes) s fun bits codes => ∃ literals distances,
      (bits = [] ∧ literals = fixedLiterals ∧ distances = fixedDistances) ∧
        Codes.ofLengths literals distances = .ok codes := by
  refine (Takes.lift fixedCodes).congr fun bits codes _ => ?_
  constructor
  · rintro ⟨rfl, hcodes⟩
    exact ⟨_, _, ⟨rfl, rfl, rfl⟩, hcodes⟩
  · rintro ⟨_, _, ⟨rfl, rfl, rfl⟩, hcodes⟩
    exact ⟨rfl, hcodes⟩

/-- Add the bytes that a block of a kind holds. -/
def takeContents (limit : Nat) (out : ByteArray) : (kind : Nat) → Decoder ByteArray
  | 0 => takeStored limit out
  | 1 => do takeCoded limit (← fixedCodes) out
  | 2 => do takeCoded limit (← takeCodes) out
  | _ => throw .corrupt

theorem takeBlock_eq (limit : Nat) (out : ByteArray) : takeBlock limit out = takeBit >>= fun last =>
    takeBits 2 >>= fun kind => takeContents limit out kind >>= fun out => pure (last, out) := by
  unfold takeBlock
  refine bind_congr fun last => bind_congr fun kind => ?_
  unfold takeContents
  split <;> simp only [bind_assoc]

/-- What a block of a kind takes. -/
theorem takes_takeContents (kind : Nat) (hs : s.taken ≤ 8 * s.bytes.size)
    (hout : out.size ≤ limit) :
    Takes (takeContents limit out kind) s
      (Adds limit out (IsBlock longestDistance s.taken out.data.toList kind)) := by
  unfold takeContents
  split
  · refine (takes_takeStored hs hout).adds_congr fun bits new => ?_
    constructor
    · rintro ⟨rest, hrest, hplace, hnew, rfl⟩
      exact .stored hrest hplace hnew
    · intro h
      cases h with
      | stored hrest hplace hnew => exact ⟨_, hrest, hplace, hnew, rfl⟩
  · refine (takes_codes takes_fixedCodes ?_ hout).adds_congr fun bits new => ?_
    · rintro _ _ _ ⟨-, rfl, rfl⟩
      exact fixed_le
    · constructor
      · rintro ⟨_, bits, _, _, rfl, ⟨rfl, rfl, rfl⟩, -, -, hsymbols⟩
        exact .fixed hsymbols
      · intro h
        cases h with
        | fixed hsymbols =>
          exact ⟨[], bits, _, _, rfl, ⟨rfl, rfl, rfl⟩, isCode_fixed.1, isCode_fixed.2, hsymbols⟩
  · refine (takes_codes takes_takeCodes Describes.le hout).adds_congr fun bits new => ?_
    constructor
    · rintro ⟨front, back, literals, distances, rfl, h, hcode, hcode', hsymbols⟩
      exact .described h hcode hcode' hsymbols
    · intro h
      cases h with
      | described h hcode hcode' hsymbols =>
        exact ⟨_, _, _, _, rfl, h, hcode, hcode', hsymbols⟩
  · next h0 h1 h2 =>
    refine (Takes.throw .corrupt).congr fun bits out' _ => (iff_false_intro ?_).symm
    rintro ⟨-, new, hblock, -⟩
    cases hblock with
    | stored => exact h0 rfl
    | fixed => exact h1 rfl
    | described => exact h2 rfl

theorem IsBlock.kind_lt {window place kind : Nat} {out new : List UInt8} {bits : List Bool}
    (h : IsBlock window place out kind bits new) : kind < 2 ^ 2 := by
  cases h <;> decide

/-- A block takes the bit that tells whether it is the last, its kind, and what it holds. -/
theorem takes_takeBlock (hs : s.taken ≤ 8 * s.bytes.size) (hout : out.size ≤ limit) :
    Takes (takeBlock limit out) s fun bits r =>
      Adds limit out (IsMarked longestDistance s.taken out.data.toList r.1) bits r.2 := by
  rw [takeBlock_eq]
  refine (takes_takeBit.bind fun last front hfront hlast => (takes_takeBits 2).bind
    fun kind front' hfront' hkind => (takes_takeContents kind ?_ hout).bind fun out' _ _ _ =>
      Takes.pure (last, out')).congr fun bits r _ => ?_
  · exact taken_skip_le (taken_skip_le hs hfront) hfront'
  · constructor
    · rintro ⟨last, _, _, rfl, rfl, kind, _, _, rfl, ⟨-, rfl⟩, out', rest, _, rfl,
        ⟨hsize, new, hblock, hnew⟩, rfl, rfl⟩
      rw [List.append_nil]
      exact ⟨hsize, new, ⟨kind, rest, rfl, hblock⟩, hnew⟩
    · rintro ⟨hsize, new, ⟨kind, rest, rfl, hblock⟩, hnew⟩
      exact ⟨r.1, [r.1], _, rfl, rfl, kind, _, _, rfl, ⟨hblock.kind_lt, rfl⟩, r.2, rest, [],
        (List.append_nil _).symm, ⟨hsize, new, hblock, hnew⟩, rfl, rfl⟩

/-- What the blocks take, up to the last one. -/
theorem takes_takeBlocks {fuel : Nat} (hfuel : s.left < fuel) (hs : s.taken ≤ 8 * s.bytes.size)
    (hout : out.size ≤ limit) :
    Takes (takeBlocks limit fuel out) s
      (Adds limit out (AreBlocks longestDistance s.taken out.data.toList)) := by
  induction fuel generalizing s out with
  | zero => exact absurd hfuel (Nat.not_lt_zero _)
  | succ fuel ih =>
    rw [takeBlocks]
    refine ((takes_takeBlock hs hout).bind
      (R := fun front r => Adds limit r.2
        (AreOthers longestDistance (s.taken + front.length) r.2.data.toList r.1))
      fun r front hfront hblock => ?_).congr fun bits out' _ => ?_
    · obtain ⟨last, out₁⟩ := r
      obtain ⟨hsize, _, ⟨kind, rest, hbits, -⟩, -⟩ := hblock
      cases last with
      | true => exact takes_nothing hsize fun _ _ => Iff.rfl
      | false =>
        -- A block takes a bit at least.
        have hleft : (s.skip front.length).left < fuel := by
          have hskip := left_skip hfront
          have hpos : 0 < front.length := by
            rw [hbits]
            exact Nat.succ_pos _
          omega
        exact ih hleft (taken_skip_le hs hfront) hsize
    · constructor
      · rintro ⟨⟨last, out₁⟩, front, back, rfl, hblock, hothers⟩
        obtain ⟨hsize, _, ⟨new₁, new₂, hnew₁, hnew₂, rfl⟩, rfl⟩ := (exists_extends_iff
          (P := fun done => AreOthers longestDistance (s.taken + front.length) done last back)).1
          ⟨out₁, hblock, hothers⟩
        exact ⟨hsize, _, areBlocks_iff.2 ⟨last, front, back, rfl, new₁, new₂, hnew₁, hnew₂, rfl⟩,
          rfl⟩
      · rintro ⟨hsize, new, hblocks, rfl⟩
        obtain ⟨last, front, back, rfl, hnew⟩ := areBlocks_iff.1 hblocks
        obtain ⟨out₁, hblock, hothers⟩ := (exists_extends_iff
          (P := fun done => AreOthers longestDistance (s.taken + front.length) done last back)).2
          ⟨hsize, new, hnew, rfl⟩
        exact ⟨(last, out₁), front, back, rfl, hblock, hothers⟩

/-! ## Streams -/

/-- What the blocks take of which the output begins with nothing. -/
theorem takes_inflate (hs : s.taken ≤ 8 * s.bytes.size) :
    Takes (inflate limit) s fun bits raw => raw.size ≤ limit ∧
      AreBlocks longestDistance s.taken [] bits raw.data.toList := by
  have hstep : inflate limit s = takeBlocks limit (s.left + 1) .empty s := rfl
  refine ((takes_takeBlocks (Nat.lt_succ_self s.left) hs (Nat.zero_le limit)).of_eq hstep).congr
    fun bits raw _ => and_congr_right fun _ => ?_
  constructor
  · rintro ⟨new, hblocks, rfl⟩
    rw [toList_append_toByteArray]
    exact hblocks
  · intro hblocks
    exact ⟨_, hblocks, by rw [ByteArray.empty_append, toByteArray_toList]⟩

/-- A byte is a field of eight bits. -/
theorem exists_byte_iff {value : Nat} {bits : List Bool} :
    value < 2 ^ 8 ∧ bits = lowestFirst 8 value ↔
      ∃ byte : UInt8, value = byte.toNat ∧ bits = bitsOf [byte] := by
  constructor
  · rintro ⟨hvalue, rfl⟩
    exact ⟨UInt8.ofNatLT value hvalue, rfl, (List.append_nil _).symm⟩
  · rintro ⟨byte, rfl, rfl⟩
    exact ⟨byte.toNat_lt, List.append_nil _⟩

/-- What is taken for a stream: a header, blocks, what is left of a byte, and the checksum. -/
theorem takes_takeStream (stream : ByteArray) :
    Takes (takeStream limit) (.ofBytes stream) fun bits raw => raw.size ≤ limit ∧
      ∃ (method flags : UInt8) (blocks rest : List Bool),
        isHeader method.toNat flags.toNat = true ∧
        AreBlocks longestDistance 16 [] blocks raw.data.toList ∧ rest.length < 8 ∧
        8 ∣ 16 + blocks.length + rest.length ∧ bits = bitsOf [method, flags] ++
          (blocks ++ (rest ++ bitsOf (fourBytes (checksum raw.data.toList)))) := by
  have hstart : (BitSource.ofBytes stream).taken ≤ 8 * (BitSource.ofBytes stream).bytes.size :=
    Nat.zero_le _
  unfold takeStream
  refine ((takes_takeBits 8).bind fun method front hfront hmethod => (takes_takeBits 8).bind
    fun flags front' hfront' hflags => takes_guard .corrupt fun hheader =>
    (takes_inflate ?_).bind fun raw blocks hblocks _ => (takes_align ?_).bind fun _ rest _ _ =>
    takes_takeBytes_four.bind fun value _ _ _ => takes_guard .corrupt fun hsum =>
    Takes.pure raw).congr fun bits raw _ => ?_
  · exact taken_skip_le (taken_skip_le hstart hfront) hfront'
  · exact taken_skip_le (taken_skip_le (taken_skip_le hstart hfront) hfront') hblocks
  · constructor
    · rintro ⟨_, _, _, rfl, hmethod, _, _, _, rfl, hflags, hheader, raw', blocks, _, rfl,
        ⟨hsize, hblocks⟩, _, rest, _, rfl, ⟨hrest, hplace⟩, value, _, _, rfl, ⟨-, rfl⟩, hsum, rfl,
        rfl⟩
      obtain ⟨method, rfl, rfl⟩ := exists_byte_iff.1 hmethod
      obtain ⟨flags, rfl, rfl⟩ := exists_byte_iff.1 hflags
      obtain rfl : value = checksum raw.data.toList := by
        rw [← adler32_eq]
        exact not_not.1 hsum
      refine ⟨hsize, method, flags, blocks, rest, ?_, hblocks, hrest, hplace, ?_⟩
      · simpa using hheader
      · rw [List.append_nil]
        rfl
    · rintro ⟨hsize, method, flags, blocks, rest, hheader, hblocks, hrest, hplace, rfl⟩
      refine ⟨method.toNat, bitsOf [method], bitsOf [flags] ++ _, rfl,
        exists_byte_iff.2 ⟨method, rfl, rfl⟩, flags.toNat, bitsOf [flags], _, rfl,
        exists_byte_iff.2 ⟨flags, rfl, rfl⟩, ?_, raw, blocks, _, rfl, ⟨hsize, hblocks⟩, (), rest, _,
        rfl, ⟨hrest, hplace⟩, _, _, [], (List.append_nil _).symm, ⟨checksum_lt _, rfl⟩, ?_, rfl,
        rfl⟩
      · simpa using hheader
      · exact not_not.2 (adler32_eq raw).symm

/-- A whole number of bytes begins a byte string if their bits begin its bits. -/
theorem exists_of_prefix_bitsOf {bits : List Bool} {bytes : List UInt8}
    (h : bits <+: bitsOf bytes) (hwhole : 8 ∣ bits.length) :
    ∃ front rest, bytes = front ++ rest ∧ bitsOf front = bits := by
  obtain ⟨k, hk⟩ := hwhole
  have hle := h.length_le
  rw [BitSource.length_bitsOf, hk] at hle
  refine ⟨bytes.take k, bytes.drop k, (List.take_append_drop k bytes).symm, ?_⟩
  have htake : (bitsOf bytes).take (8 * k) = bitsOf (bytes.take k) := by
    conv_lhs => rw [← List.take_append_drop k bytes, BitSource.bitsOf_append]
    rw [List.take_left']
    rw [BitSource.length_bitsOf, List.length_take_of_le (by omega)]
  rw [← htake, ← hk, ← List.prefix_iff_eq_take.1 h]

/-- A stream is taken if and only if a byte string begins with one for which there is room. -/
theorem takeStream_eq_ok_iff {stream raw : ByteArray} :
    takeStream limit (.ofBytes stream) = .ok (raw, s) ↔ raw.size ≤ limit ∧
      ∃ front rest : List UInt8, stream.data.toList = front ++ rest ∧
        IsStream longestDistance front raw.data.toList ∧
        s = (BitSource.ofBytes stream).skip (8 * front.length) := by
  have hbits : (BitSource.ofBytes stream).bits = bitsOf stream.data.toList := rfl
  rw [takes_takeStream stream raw s]
  constructor
  · rintro ⟨bits, hbegin, rfl, hsize, method, flags, blocks, rest, hheader, hblocks, hrest, hplace,
      hfront⟩
    have hwhole : 8 ∣ bits.length := by
      simp only [hfront, List.length_append, BitSource.length_bitsOf, List.length_cons,
        List.length_nil, fourBytes]
      omega
    obtain ⟨front, back, hstream, rfl⟩ := exists_of_prefix_bitsOf hbegin hwhole
    refine ⟨hsize, front, back, hstream,
      ⟨method, flags, blocks, rest, hheader, hblocks, hrest, hfront⟩, ?_⟩
    rw [BitSource.length_bitsOf]
  · rintro ⟨hsize, front, back, hstream,
      ⟨method, flags, blocks, rest, hheader, hblocks, hrest, hfront⟩, rfl⟩
    refine ⟨bitsOf front, ?_, by rw [BitSource.length_bitsOf], hsize, method, flags, blocks, rest,
      hheader, hblocks, hrest, ?_, hfront⟩
    · rw [hbits, hstream, BitSource.bitsOf_append]
      exact List.prefix_append _ _
    · have hlength := congrArg List.length hfront
      simp only [List.length_append, BitSource.length_bitsOf, List.length_cons, List.length_nil,
        fourBytes] at hlength
      omega

/-- A byte string is inflated if and only if it begins with a stream for which there is room, and
    to what that stands for. -/
theorem unpack_eq_ok_iff {stream raw : ByteArray} :
    unpack limit stream = .ok raw ↔ raw.size ≤ limit ∧ ∃ front rest : List UInt8,
      stream.data.toList = front ++ rest ∧ IsStream longestDistance front raw.data.toList := by
  have hunpack : unpack limit stream = .ok raw ↔
      ∃ s, takeStream limit (.ofBytes stream) = .ok (raw, s) := by
    rw [unpack, StateT.run']
    cases takeStream limit (.ofBytes stream) with
    | error fault => simp [Functor.map, Except.map]
    | ok r =>
      obtain ⟨out, s⟩ := r
      simp [Functor.map, Except.map]
  rw [hunpack]
  constructor
  · rintro ⟨s, htake⟩
    obtain ⟨hsize, front, rest, hstream, hfront, -⟩ := takeStream_eq_ok_iff.1 htake
    exact ⟨hsize, front, rest, hstream, hfront⟩
  · rintro ⟨hsize, front, rest, hstream, hfront⟩
    exact ⟨_, takeStream_eq_ok_iff.2 ⟨hsize, front, rest, hstream, hfront, rfl⟩⟩

/-- A byte string begins with one stream at most, which stands for one byte string: no stream is
    the beginning of another. -/
theorem IsStream.eq_of_prefix {bytes stream stream' raw raw' : List UInt8}
    (h : IsStream longestDistance stream raw) (h' : IsStream longestDistance stream' raw')
    (hbegin : stream <+: bytes) (hbegin' : stream' <+: bytes) :
    stream = stream' ∧ raw = raw' := by
  have htake : ∀ {stream raw : List UInt8}, IsStream longestDistance stream raw →
      stream <+: bytes → ∀ limit, raw.length ≤ limit →
        takeStream limit (.ofBytes bytes.toByteArray) = .ok (raw.toByteArray,
          (BitSource.ofBytes bytes.toByteArray).skip (8 * stream.length)) := by
    rintro stream raw h ⟨rest, rfl⟩ limit hlimit
    refine takeStream_eq_ok_iff.2 ⟨?_, stream, rest, ?_, ?_, rfl⟩
    · rwa [List.size_toByteArray]
    · rw [List.data_toByteArray]
    · rwa [List.data_toByteArray]
  -- The same bytes are taken with the same result, so both streams are what has been taken.
  have hboth := (htake h hbegin (max raw.length raw'.length) (Nat.le_max_left _ _)).symm.trans
    (htake h' hbegin' _ (Nat.le_max_right _ _))
  simp only [Except.ok.injEq, Prod.mk.injEq, BitSource.skip, BitSource.mk.injEq] at hboth
  obtain ⟨hraw, -, hlength⟩ := hboth
  refine ⟨?_, ?_⟩
  · rw [List.prefix_iff_eq_take.1 hbegin, List.prefix_iff_eq_take.1 hbegin']
    congr 1
    omega
  · have hdata := congrArg (fun raw : ByteArray => raw.data.toList) hraw
    simpa only [List.data_toByteArray] using hdata

end StatusList.Flate
