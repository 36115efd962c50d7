import Mathlib
import StatusList.Proofs.ExitCodes
import StatusList.Proofs.Packed.Layout
import StatusList.Proofs.Packed.Runs
import StatusList.Proofs.WireForms
import StatusList.Proofs.WrittenRecords

/-!
# Packing by hand

At the command line, values are packed into a list that gets zeros at its end. The list is the
smallest that there may be of that width: its size is the least positive multiple of the entries
of a byte that is not below the number of values (`isLeast_size_roomFor`). One value after the
other is put into it, and what has been put stays there (`putAll_of_fit`), so that the list has
the values and then the zeros that it was made of (`packValues_of_fit`); the first value that
does not fit is the one that the error names (`packValues_of_unfit`).

Packing and unpacking are inverse to each other. On the one side the entries of a list that has
been packed are the values and the zeros; on the other side the entries of any bytes, packed
again, give these bytes. The commands inherit this: what is printed by one is read by the other.
-/

namespace StatusList

open Packed (get_plain)

namespace Command

/-! ## The room for values -/

theorem size_roomFor (w : Width) (n : Nat) :
    (roomFor w n).size = max 1 ((n + w.perByte - 1) / w.perByte) * w.perByte := by
  rw [roomFor, Packed.size, Packed.size_fill_empty]

/-- The room is the least that a list may have and that is enough for `n` entries. -/
theorem isLeast_size_roomFor (w : Width) (n : Nat) :
    IsLeast {size | 0 < size ∧ w.perByte ∣ size ∧ n ≤ size} (roomFor w n).size := by
  rw [size_roomFor]
  constructor
  · refine ⟨?_, Nat.dvd_mul_left _ _, ?_⟩
    · have := w.perByte_pos
      positivity
    · cases w <;> simp only [Width.perByte, Width.bits] <;> omega
  · rintro size ⟨hpos, ⟨bytes, rfl⟩, hle⟩
    rw [Nat.mul_comm]
    refine Nat.mul_le_mul_left _ (max_le (Nat.pos_of_mul_pos_left hpos) ?_)
    cases w <;> simp only [Width.perByte, Width.bits] at hle ⊢ <;> omega

theorem le_size_roomFor (w : Width) (n : Nat) : n ≤ (roomFor w n).size :=
  (isLeast_size_roomFor w n).1.2.2

/-- All entries of the room are zero. -/
theorem toList_roomFor (w : Width) (n : Nat) :
    (roomFor w n).toList = .replicate (roomFor w n).size 0 := by
  refine List.ext_getElem (by simp) fun i h _ => ?_
  rw [Packed.getElem_toList, List.getElem_replicate, Packed.entry]
  have hbyte : ∀ j (hj : j < (roomFor w n).bytes.size), (roomFor w n).bytes.get j hj = 0 := by
    intro j hj
    have hlist : (roomFor w n).bytes.data.toList = .replicate _ 0 :=
      Packed.toList_fill 0 (max 1 ((n + w.perByte - 1) / w.perByte)) .empty
    exact (List.getElem_of_eq hlist hj).trans (List.getElem_replicate _)
  rw [hbyte, Packed.field, UInt8.zero_shiftRight, UInt8.zero_and]

/-! ## Putting values in -/

/-- A value fits if it is an entry of that width. -/
def Fit (w : Width) (value : UInt8) : Prop := value.toNat ≤ 2 ^ w.bits - 1

variable {w : Width} {p : Packed} {index : Nat} {values : List UInt8}

theorem fit_iff_le_mask {value : UInt8} : Fit w value ↔ value ≤ w.mask := by
  rw [Fit, UInt8.le_iff_toNat_le, Packed.mask_eq]

/-- Values that fit are put into the entries from `index` on, and all other entries are kept. -/
theorem putAll_of_fit (p : Packed) (index : Nat) (hfit : ∀ value ∈ values, Fit p.width value)
    (hroom : index + values.length ≤ p.size) :
    ∃ q, putAll p index values = .ok q ∧ q.width = p.width ∧
      q.toList = p.toList.take index ++ values ++ p.toList.drop (index + values.length) := by
  induction values generalizing p index with
  | nil =>
    refine ⟨p, rfl, rfl, ?_⟩
    rw [List.length_nil, Nat.add_zero, List.append_nil, List.take_append_drop]
  | cons value values ih =>
    obtain ⟨hvalue, hvalues⟩ := List.forall_mem_cons.1 hfit
    rw [List.length_cons] at hroom
    have hindex : index < p.size := by omega
    have hset : p.set index value = .ok (p.put index hindex value) := by
      rw [Packed.set_eq, dif_pos hindex, if_neg (Nat.not_lt.2 hvalue)]
    obtain ⟨q, hq, hwidth, hlist⟩ := ih (p.put index hindex value) (index + 1) hvalues
      (by rw [Packed.size_put]; omega)
    refine ⟨q, by rw [putAll, hset]; exact hq, hwidth, ?_⟩
    -- The value stands right before the entries into which the others are put.
    have hlength : index < p.toList.length := by rwa [Packed.length_toList]
    rw [hlist, Packed.toList_put hindex (fit_iff_le_mask.1 hvalue), List.drop_set_of_lt (by omega),
      List.take_add_one, List.take_set_of_le (Nat.le_refl index), List.getElem?_set_self hlength,
      List.length_cons, Nat.add_right_comm, Nat.add_assoc index]
    simp only [Option.toList_some, List.append_assoc, List.singleton_append]

/-- The first value that does not fit is refused under its index. -/
theorem putAll_of_unfit (p : Packed) (index : Nat) {value : UInt8} (rest : List UInt8)
    (hfit : ∀ value ∈ values, Fit p.width value) (hunfit : ¬Fit p.width value)
    (hroom : index + values.length < p.size) :
    putAll p index (values ++ value :: rest) =
      .error (.notPut (index + values.length) (.valueTooLarge value p.width.mask)) := by
  induction values generalizing p index with
  | nil =>
    have hset : p.set index value = .error (.valueTooLarge value p.width.mask) := by
      rw [Packed.set, dif_pos (Nat.lt_of_le_of_lt (Nat.le_add_right _ _) hroom), Packed.checkValue,
        if_pos (UInt8.not_le.1 fun h => hunfit (fit_iff_le_mask.2 h))]
      rfl
    rw [List.nil_append, putAll, hset]
    rfl
  | cons first values ih =>
    obtain ⟨hfirst, hvalues⟩ := List.forall_mem_cons.1 hfit
    rw [List.length_cons] at hroom
    have hindex : index < p.size := by omega
    have hset : p.set index first = .ok (p.put index hindex first) := by
      rw [Packed.set_eq, dif_pos hindex, if_neg (Nat.not_lt.2 hfirst)]
    have hrest := ih (p.put index hindex first) (index + 1) hvalues hunfit
      (by rw [Packed.size_put]; omega)
    rw [List.cons_append, putAll, hset, List.length_cons, Nat.add_comm values.length,
      ← Nat.add_assoc]
    exact hrest

/-! ## Packing -/

/-- A list is what values are packed into: the smallest list of that width with the values, and
    with zeros behind them. -/
structure IsPacked (w : Width) (values : List UInt8) (p : Packed) : Prop where
  /-- The list has that width. -/
  width : p.width = w
  /-- The size is the least positive multiple of the entries of a byte that is enough. -/
  size : IsLeast {size | 0 < size ∧ w.perByte ∣ size ∧ values.length ≤ size} p.size
  /-- The entries are the values and then zeros. -/
  entries : p.toList = values ++ .replicate (p.size - values.length) 0

/-- There is but one such list. -/
theorem IsPacked.unique {q : Packed} (hp : IsPacked w values p) (hq : IsPacked w values q) :
    p = q := by
  refine Packed.eq_iff_toList.2 ⟨hp.width.trans hq.width.symm, ?_⟩
  rw [hp.entries, hq.entries, hp.size.unique hq.size]

/-- The values of which a list is made fit. -/
theorem IsPacked.fit (h : IsPacked w values p) : ∀ value ∈ values, Fit w value := by
  intro value hvalue
  have hmem : value ∈ p.toList := h.entries ▸ List.mem_append_left _ hvalue
  obtain ⟨i, hi, rfl⟩ := List.getElem_of_mem hmem
  rw [Packed.getElem_toList, fit_iff_le_mask, ← h.width]
  exact Packed.entry_le_mask _

/-- Values that fit are packed. -/
theorem packValues_of_fit (hfit : ∀ value ∈ values, Fit w value) :
    ∃ p, packValues w values = .ok p ∧ IsPacked w values p := by
  have hroom := le_size_roomFor w values.length
  obtain ⟨p, hp, hwidth, hlist⟩ := putAll_of_fit (roomFor w values.length) 0 hfit
    (by omega)
  rw [toList_roomFor, List.take_zero, List.nil_append, Nat.zero_add, List.drop_replicate] at hlist
  have hsize : p.size = (roomFor w values.length).size := by
    rw [← Packed.length_toList, hlist, List.length_append, List.length_replicate]
    omega
  exact ⟨p, hp, hwidth, hsize ▸ isLeast_size_roomFor w values.length, hsize ▸ hlist⟩

/-- If a value does not fit, the first of these is refused. -/
theorem packValues_of_unfit {value : UInt8} {rest : List UInt8}
    (hfit : ∀ value ∈ values, Fit w value) (hunfit : ¬Fit w value) :
    packValues w (values ++ value :: rest) =
      .error (.notPut values.length (.valueTooLarge value w.mask)) := by
  have hroom := le_size_roomFor w (values ++ value :: rest).length
  rw [List.length_append, List.length_cons] at hroom
  have herror := putAll_of_unfit (roomFor w (values ++ value :: rest).length) 0 rest hfit hunfit
    (by rw [List.length_append, List.length_cons]; omega)
  rwa [Nat.zero_add] at herror

/-- Values fit, or one of them is the first that does not. -/
theorem fit_or_first_unfit (w : Width) (values : List UInt8) :
    (∀ value ∈ values, Fit w value) ∨
      ∃ fits value rest, values = fits ++ value :: rest ∧ (∀ value ∈ fits, Fit w value) ∧
        ¬Fit w value := by
  induction values with
  | nil => exact .inl (List.forall_mem_nil _)
  | cons value values ih =>
    by_cases hvalue : Fit w value
    · rcases ih with hfit | ⟨fits, unfit, rest, rfl, hfits, hunfit⟩
      · exact .inl (List.forall_mem_cons.2 ⟨hvalue, hfit⟩)
      · exact .inr ⟨value :: fits, unfit, rest, rfl,
          List.forall_mem_cons.2 ⟨hvalue, hfits⟩, hunfit⟩
    · exact .inr ⟨[], value, values, rfl, List.forall_mem_nil _, hvalue⟩

theorem packValues_eq_ok_iff : packValues w values = .ok p ↔ IsPacked w values p := by
  constructor
  · intro h
    rcases fit_or_first_unfit w values with hfit | ⟨fits, value, rest, rfl, hfits, hunfit⟩
    · obtain ⟨q, hq, hpacked⟩ := packValues_of_fit hfit
      cases h.symm.trans hq
      exact hpacked
    · cases h.symm.trans (packValues_of_unfit hfits hunfit)
  · intro h
    obtain ⟨q, hq, hpacked⟩ := packValues_of_fit h.fit
    rw [hq, hpacked.unique h]

theorem packValues_eq_error_iff {e : EntryError} :
    packValues w values = .error e ↔
      ∃ fits value rest, values = fits ++ value :: rest ∧ (∀ value ∈ fits, Fit w value) ∧
        ¬Fit w value ∧ e = .notPut fits.length (.valueTooLarge value w.mask) := by
  constructor
  · intro h
    rcases fit_or_first_unfit w values with hfit | ⟨fits, value, rest, rfl, hfits, hunfit⟩
    · obtain ⟨q, hq, -⟩ := packValues_of_fit hfit
      cases h.symm.trans hq
    · cases h.symm.trans (packValues_of_unfit hfits hunfit)
      exact ⟨fits, value, rest, rfl, hfits, hunfit, rfl⟩
  · rintro ⟨fits, value, rest, rfl, hfits, hunfit, rfl⟩
    exact packValues_of_unfit hfits hunfit

/-- Bytes are what their entries are packed into. -/
theorem isPacked_unpack (w : Width) {raw : ByteArray} (h : 0 < raw.size) :
    IsPacked w (unpack w raw).data.toList ⟨w, raw⟩ := by
  rw [unpack_eq_toList]
  refine ⟨rfl, ?_, ?_⟩
  · rw [Packed.length_toList]
    exact ⟨⟨Nat.mul_pos h w.perByte_pos, Nat.dvd_mul_left _ _, Nat.le_refl _⟩,
      fun size hsize => hsize.2.2⟩
  · rw [Packed.length_toList, Nat.sub_self, List.replicate_zero, List.append_nil]

/-! ## The commands -/

variable {env : Environment} {files : Files} {t : Transport} {source : Source} {encoded : String}

/-- The values of an encoded list are the entries of the list. -/
theorem unpackValues_of_ofEncoded (h : Packed.ofEncoded w encoded = .ok p) :
    ∃ values, unpackValues w encoded = .ok values ∧ values.data.toList = p.toList := by
  obtain ⟨raw, hraw, hp⟩ := bind_eq_ok_iff.1 h
  cases hp
  refine ⟨unpack w raw, ?_, unpack_eq_toList w raw⟩
  rw [unpackValues, decodeUnpacked, hraw]
  rfl

/-- What is no encoded list has no values. -/
theorem unpackValues_of_not_ofEncoded {e : Error} (h : Packed.ofEncoded w encoded = .error e) :
    unpackValues w encoded = .error (.notDecoded e) := by
  rw [unpackValues, decodeUnpacked]
  rw [Packed.ofEncoded] at h
  cases hraw : decodePacked encoded with
  | error e' =>
    rw [hraw] at h
    cases h
    rfl
  | ok raw =>
    rw [hraw] at h
    cases h

/-- A list that is no longer than a list may be is found in its encoded form. -/
theorem ofEncoded_of_size_le (h : p.bytes.size ≤ largestPacked) :
    Packed.ofEncoded p.width p.toEncoded = .ok p := by
  rw [Packed.ofEncoded_toEncoded, inflate_deflate, if_pos h]
  rfl

/-- All entries of a list are shown between brackets, with commas between them. -/
theorem run_decode (hread : source.read files = .ok encoded)
    (h : Packed.ofEncoded w encoded = .ok p) :
    ((decode w source none).run env files).run t =
      ⟨0, "[" ++ ",".intercalate ((p.toList.map UInt8.toNat).map toString) ++ "]" ++ "\n",
        none⟩ := by
  obtain ⟨values, hvalues, hlist⟩ := unpackValues_of_ofEncoded h
  have hjson : valuesJson values = p.toJson := by rw [valuesJson, hlist, Packed.toJson]
  rw [(Ends.values hread hvalues).run_eq, Ending.report, hjson, Packed.compact_toJson]

/-- An entry that the list has is shown. -/
theorem run_decode_of_get {index : Nat} {value : UInt8} (hread : source.read files = .ok encoded)
    (h : Packed.ofEncoded w encoded = .ok p) (hget : p.get index = .ok value) :
    ((decode w source (some index)).run env files).run t = ⟨0, toString value ++ "\n", none⟩ := by
  obtain ⟨values, hvalues, hlist⟩ := unpackValues_of_ofEncoded h
  have hindex : index < p.size := by
    by_contra hout
    rw [Packed.get, dif_neg hout] at hget
    cases hget
  have hlength : index < values.data.toList.length := by rwa [hlist, Packed.length_toList]
  have hvalue : values.get index hlength = value := by
    rw [Packed.get, dif_pos hindex] at hget
    have hentry := (List.getElem_of_eq hlist hlength).trans (Packed.getElem_toList p _)
    exact hentry.trans (Except.ok.inj hget)
  rw [(Ends.value hread hvalues hlength).run_eq, Ending.report, hvalue]

/-- Where there is no such entry, nothing is shown. -/
theorem run_decode_of_not_get {index : Nat} (hread : source.read files = .ok encoded)
    (h : ¬∃ p value, Packed.ofEncoded w encoded = .ok p ∧ p.get index = .ok value) :
    ∃ complaint, ((decode w source (some index)).run env files).run t =
      ⟨1, "", some complaint⟩ := by
  cases hlist : Packed.ofEncoded w encoded with
  | error e =>
    exact ⟨_, (Ends.undecoded hread (unpackValues_of_not_ofEncoded hlist)).run_eq⟩
  | ok p =>
    obtain ⟨values, hvalues, hentries⟩ := unpackValues_of_ofEncoded hlist
    have hout : ¬index < values.size := by
      intro hindex
      have hlength : index < p.size := by
        rw [← Packed.length_toList, ← hentries]
        exact hindex
      exact h ⟨p, _, hlist, by rw [Packed.get, dif_pos hlength]⟩
    exact ⟨_, (Ends.outside hread hvalues hout).run_eq⟩

theorem toString_inj {value value' : UInt8} (h : toString value = toString value') :
    value = value' := UInt8.toNat_inj.1 (Nat.repr_injective h)

/-- The claim with the packed values is shown, and read back from what is shown. -/
theorem run_encode (aggregationUri : Option String) (h : packValues w values = .ok p) :
    ∃ output, ((encode w values aggregationUri).run env files).run t = ⟨0, output, none⟩ ∧
      Json.parse ListClaim.record.read output.toUTF8.data.toList =
        .ok (p.toClaim aggregationUri) := by
  refine ⟨_, (Ends.claim h).run_eq, ?_⟩
  rw [Json.parse_pretty_line _ (ListClaim.exact_toJson _), ListClaim.read_toJson]

/-- Packing by hand and decoding are inverse to each other.

    Values are packed just if all of them fit, and otherwise the error names the first that does
    not; what they are packed into is the smallest list that has them, with zeros behind them.
    Bytes, if there are any, are what their own entries are packed into.

    What is printed of packed values is a claim with a list that decoding shows as these values
    and zeros, if it is no longer than a list may be; and whatever the list, decoding with an
    index prints a value and succeeds just if the list can be decoded and has the value there,
    and otherwise it fails and prints nothing. -/
theorem packing_inverts_decoding (env : Environment) (files : Files) (t : Transport) (w : Width)
    (aggregationUri : Option String) :
    let report : Command → Report := fun c => (c.run env files).run t
    (∀ values,
      ((∃ p, packValues w values = .ok p) ↔ ∀ value ∈ values, value.toNat ≤ 2 ^ w.bits - 1) ∧
      (∀ p, packValues w values = .ok p ↔ IsPacked w values p) ∧
      (∀ e, packValues w values = .error e ↔
        ∃ fits value rest, values = fits ++ value :: rest ∧
          (∀ value ∈ fits, value.toNat ≤ 2 ^ w.bits - 1) ∧ 2 ^ w.bits - 1 < value.toNat ∧
          e = .notPut fits.length (.valueTooLarge value w.mask)) ∧
      (∀ e, packValues w values = .error e →
        report (.encode w values aggregationUri) =
          ⟨1, "", some (Failure.badEntries e).message⟩)) ∧
    (∀ raw : ByteArray, 0 < raw.size →
      packValues w (unpack w raw).data.toList = .ok ⟨w, raw⟩) ∧
    (∀ values p, packValues w values = .ok p → p.bytes.size ≤ largestPacked →
      ∃ output claim, report (.encode w values aggregationUri) = ⟨0, output, none⟩ ∧
        Json.parse ListClaim.record.read output.toUTF8.data.toList = .ok claim ∧
        claim.width = w ∧ claim.aggregationUri = aggregationUri ∧
        ∀ source, source.read files = .ok claim.lst →
          report (.decode w source none) =
            ⟨0, "[" ++ ",".intercalate (((values ++ .replicate (p.size - values.length) 0).map
              UInt8.toNat).map toString) ++ "]" ++ "\n", none⟩) ∧
    (∀ source encoded, source.read files = .ok encoded → ∀ index,
      (∀ value, report (.decode w source (some index)) = ⟨0, toString value ++ "\n", none⟩ ↔
        ∃ p, Packed.ofEncoded w encoded = .ok p ∧ p.get index = .ok value) ∧
      ((¬∃ value p, Packed.ofEncoded w encoded = .ok p ∧ p.get index = .ok value) →
        ∃ complaint, report (.decode w source (some index)) = ⟨1, "", some complaint⟩)) := by
  intro report
  refine ⟨fun values => ⟨?_, fun p => packValues_eq_ok_iff, fun e => ?_, fun e h => ?_⟩,
    fun raw hraw => packValues_eq_ok_iff.2 (isPacked_unpack w hraw), fun values p h hsize => ?_,
    fun source encoded hread index => ⟨fun value => ⟨fun hreport => ?_, ?_⟩, fun hnone => ?_⟩⟩
  · exact ⟨fun ⟨p, hp⟩ => (packValues_eq_ok_iff.1 hp).fit,
      fun hfit => (packValues_of_fit hfit).imp fun p hp => hp.1⟩
  · simp only [packValues_eq_error_iff, Fit, Nat.not_le]
  · exact (Ends.unfit h).run_eq
  · have hpacked := packValues_eq_ok_iff.1 h
    obtain ⟨output, hreport, hparse⟩ : ∃ output,
        report (.encode w values aggregationUri) = ⟨0, output, none⟩ ∧ _ :=
      run_encode aggregationUri h
    refine ⟨output, _, hreport, hparse, hpacked.width, rfl, fun source hread => ?_⟩
    rw [← hpacked.entries]
    exact run_decode hread (hpacked.width ▸ ofEncoded_of_size_le hsize)
  · by_contra hnone
    by_cases hsome : ∃ p value, Packed.ofEncoded w encoded = .ok p ∧ p.get index = .ok value
    · -- Another entry is shown, and another text for it.
      obtain ⟨p, value', hlist, hget⟩ := hsome
      have hshown := (run_decode_of_get hread hlist hget).symm.trans hreport
      have hvalue : value' = value :=
        toString_inj ((String.append_left_inj _).1 (congrArg Report.output hshown))
      exact hnone ⟨p, hlist, hvalue ▸ hget⟩
    · obtain ⟨complaint, hfails⟩ : ∃ complaint,
          report (.decode w source (some index)) = ⟨1, "", some complaint⟩ :=
        run_decode_of_not_get hread hsome
      cases hfails.symm.trans hreport
  · rintro ⟨p, hlist, hget⟩
    exact run_decode_of_get hread hlist hget
  · exact run_decode_of_not_get hread fun ⟨p, value, h⟩ => hnone ⟨value, p, h⟩

/-- Five entries of two bits take two bytes, and decoding shows three zeros behind them. -/
theorem packing_of_five_inverts_decoding :
    let env : Environment := fun _ => none
    let files : Files := fun _ => .error .missing
    let t : Transport := fun url => .error (.unreachable url "refused")
    let p : Packed := ⟨.two, [0xC9, 0x03].toByteArray⟩
    packValues .two [1, 2, 0, 3, 3] = .ok p ∧ p.bytes.size ≤ largestPacked ∧
    (0 < p.bytes.size ∧ packValues .two (unpack .two p.bytes).data.toList = .ok p) ∧
    (∃ output claim,
      ((encode .two [1, 2, 0, 3, 3] none).run env files).run t = ⟨0, output, none⟩ ∧
      Json.parse ListClaim.record.read output.toUTF8.data.toList = .ok claim ∧
      ((decode .two (.given claim.lst) none).run env files).run t =
        ⟨0, "[1,2,0,3,3,0,0,0]\n", none⟩) ∧
    ((decode .two (.given p.toEncoded) (some 3)).run env files).run t = ⟨0, "3\n", none⟩ ∧
    ∃ complaint, ((decode .two (.given p.toEncoded) (some 8)).run env files).run t =
      ⟨1, "", some complaint⟩ := by
  intro env files t p
  have hpack : packValues .two [1, 2, 0, 3, 3] = .ok p := rfl
  have hlist : Packed.ofEncoded .two p.toEncoded = .ok p := ofEncoded_of_size_le (by decide)
  have hget : p.get 3 = .ok 3 := by
    rw [Packed.get, dif_pos (by decide)]
    exact congrArg Except.ok (by decide)
  obtain ⟨-, hunpack, hprinted, hindexed⟩ := packing_inverts_decoding env files t .two none
  obtain ⟨output, claim, hencode, hparse, -, -, hdecode⟩ := hprinted _ p hpack (by decide)
  have htext : "[" ++ ",".intercalate (((([1, 2, 0, 3, 3] : List UInt8) ++
      List.replicate (p.size - 5) 0).map UInt8.toNat).map toString) ++ "]" ++ "\n" =
      "[1,2,0,3,3,0,0,0]\n" := by
    decide
  refine ⟨hpack, by decide, ⟨by decide, hunpack p.bytes (by decide)⟩, ⟨output, claim, hencode,
    hparse, (hdecode (.given claim.lst) rfl).trans (congrArg (Report.mk 0 · none) htext)⟩,
    ((hindexed (.given p.toEncoded) _ rfl 3).1 3).2 ⟨p, hlist, hget⟩,
    (hindexed (.given p.toEncoded) _ rfl 8).2 ?_⟩
  rintro ⟨value, q, hq, hget⟩
  cases hlist.symm.trans hq
  rw [Packed.get, dif_neg (by decide)] at hget
  cases hget

end Command

end StatusList
