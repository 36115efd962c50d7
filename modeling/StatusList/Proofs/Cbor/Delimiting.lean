import StatusList.Proofs.Cbor.Claim
import StatusList.Proofs.Cbor.Sizes

/-!
# Binary claims delimit themselves

The end of a binary claim is seen from the claim itself. Whatever follows it, the claim is read
as it was written, so that no written form begins another one, and two claims are never written
alike (`BinaryClaim.eq_of_toCbor_append`).

Lengths are written in heads, and there is a head for every length that is less than 2 ^ 64
(`BinaryClaim.Fits`). All that is read from something shorter than that can be written again:
the strings of a claim have been taken off what it is read from (`BinaryClaim.fits_of_ofCbor`),
though the claim may have been written there in another way, with other keys in it, its own keys
in another order or more than once, or its strings in pieces.
-/

namespace StatusList.BinaryClaim

open Cbor

/-! ## Claims that are read -/

/-- The strings of a draft have so many bytes at most. -/
structure Draft.Within (n : Nat) (d : Draft) : Prop where
  lst : ∀ lst ∈ d.lst, lst.length ≤ n
  uri : ∀ uri ∈ d.aggregationUri, uri.utf8ByteSize ≤ n

variable {n : Nat} {c c' : BinaryClaim}

theorem Draft.Within.put {d d' : Draft} {key value : Item} (h : d.Within n)
    (hvalue : value.size ≤ n) (hput : d.put key value = .ok d') : d'.Within n := by
  unfold Draft.put at hput
  split at hput
  · obtain ⟨width, -, hdraft⟩ := bind_eq_ok_iff.1 hput
    obtain rfl := Except.ok.inj hdraft
    exact ⟨h.lst, h.uri⟩
  · cases hput
  · obtain rfl := Except.ok.inj hput
    rw [Item.size] at hvalue
    exact ⟨fun lst hlst => Option.some.inj hlst ▸ hvalue, h.uri⟩
  · cases hput
  · obtain rfl := Except.ok.inj hput
    rw [Item.size] at hvalue
    exact ⟨h.lst, fun uri huri => Option.some.inj huri ▸ hvalue⟩
  · cases hput
  · obtain rfl := Except.ok.inj hput
    exact h

/-- No entry brings more than there is. -/
theorem Draft.Within.foldlM {d d' : Draft} {entries : List (Item × Item)} (h : d.Within n)
    (hentries : ∀ e ∈ entries, e.2.size ≤ n)
    (hput : entries.foldlM (fun (d : Draft) (key, value) => d.put key value) d = .ok d') :
    d'.Within n := by
  induction entries generalizing d with
  | nil =>
    obtain rfl := Except.ok.inj hput
    exact h
  | cons e entries ih =>
    obtain ⟨he, hentries⟩ := List.forall_mem_cons.1 hentries
    rw [List.foldlM_cons] at hput
    obtain ⟨d₁, hput₁, hput⟩ := bind_eq_ok_iff.1 hput
    exact ih (h.put he hput₁) hentries hput

theorem size_le_of_ofItem {item : Item} (h : ofItem item = .ok c) :
    c.lst.size ≤ item.size ∧ ∀ uri ∈ c.aggregationUri, uri.utf8ByteSize ≤ item.size := by
  unfold ofItem at h
  split at h
  · next entries =>
    obtain ⟨draft, hdraft, hfinish⟩ := bind_eq_ok_iff.1 h
    have hwithin : draft.Within (Item.map entries).size := by
      refine Draft.Within.foldlM ⟨by simp, by simp⟩ (fun e he => ?_) hdraft
      rw [Item.size, Item.sizeEntries_eq]
      exact (Nat.le_add_left _ e.1.size).trans (List.le_sum_of_mem (List.mem_map.2 ⟨e, he, rfl⟩))
    unfold Draft.finish at hfinish
    split at hfinish
    · cases hfinish
    · cases hfinish
    · next width lst hwidth hlst =>
      obtain rfl := Except.ok.inj hfinish
      exact ⟨by simpa using hwithin.lst lst hlst, hwithin.uri⟩
  · cases h

/-- What is read can be written. -/
theorem fits_of_ofCbor {bytes : ByteArray} (hsize : bytes.size < 2 ^ 64)
    (h : ofCbor bytes = .ok c) : c.Fits := by
  unfold ofCbor at h
  split at h
  · next item hread =>
    have hitem : item.size ≤ bytes.size := Item.size_le_of_read hread
    obtain ⟨hlst, huri⟩ := size_le_of_ofItem h
    exact ⟨by omega, fun uri hmem => by have := huri uri hmem; omega⟩
  · cases h

/-! ## Claims that are written -/

/-- No written form begins another one. -/
theorem eq_of_toCbor_append {rest : ByteArray} (h : c.Fits) (h' : c'.Fits)
    (hbytes : c.toCbor ++ rest = c'.toCbor) : c = c' ∧ rest = .empty := by
  have hread := ofCbor_toCbor_append h rest
  have hread' := ofCbor_toCbor_append h' .empty
  rw [ByteArray.append_empty, ← hbytes, hread] at hread'
  obtain rfl := Except.ok.inj hread'
  have hsize := congrArg ByteArray.size hbytes
  rw [ByteArray.size_append, Nat.add_eq_left] at hsize
  exact ⟨rfl, ByteArray.size_eq_zero_iff.1 hsize⟩

/-- Whatever follows a claim, the claim is read as it was written. No claim is written like
    another, or like the beginning of another. And what is read from something, in whatever way
    it is written there, is read again from its own written form. -/
theorem toCbor_delimits :
    (∀ (c : BinaryClaim) (rest : ByteArray), c.Fits → ofCbor (c.toCbor ++ rest) = .ok c) ∧
    (∀ (c c' : BinaryClaim) (rest : ByteArray), c.Fits → c'.Fits →
      c.toCbor ++ rest = c'.toCbor → c = c' ∧ rest = .empty) ∧
    ∀ (bytes : ByteArray) (c : BinaryClaim), bytes.size < 2 ^ 64 → ofCbor bytes = .ok c →
      c.Fits ∧ ofCbor c.toCbor = .ok c := by
  refine ⟨fun c rest h => ofCbor_toCbor_append h rest, fun c c' rest => eq_of_toCbor_append,
    fun bytes c hsize h => ?_⟩
  have hfits := fits_of_ofCbor hsize h
  have hread := ofCbor_toCbor_append hfits .empty
  rw [ByteArray.append_empty] at hread
  exact ⟨hfits, hread⟩

/-- A claim in front of a byte, and the same claim in a map of unstated length that begins with
    the list, in two pieces, and has a key more. -/
theorem toCbor_delimits_before_a_break :
    let c : BinaryClaim := ⟨.two, [1, 2, 3].toByteArray, none⟩
    let bytes : ByteArray := [0xBF, 0x63, 0x6C, 0x73, 0x74, 0x5F, 0x41, 1, 0x42, 2, 3, 0xFF,
      0x64, 0x62, 0x69, 0x74, 0x73, 2, 0x61, 0x78, 0xF6, 0xFF].toByteArray
    c.Fits ∧ ofCbor (c.toCbor ++ [0xFF].toByteArray) = .ok c ∧
    (c.toCbor ++ .empty = c.toCbor → c = c ∧ ByteArray.empty = .empty) ∧
    bytes.size < 2 ^ 64 ∧ ofCbor bytes = .ok c ∧ ofCbor c.toCbor = .ok c := by
  intro c bytes
  have hfits : c.Fits := ⟨by decide, by simp [c]⟩
  have hread : ofCbor bytes = .ok c := rfl
  have hsize : bytes.size < 2 ^ 64 := by decide
  exact ⟨hfits, toCbor_delimits.1 c _ hfits, toCbor_delimits.2.1 c c _ hfits hfits, hsize, hread,
    (toCbor_delimits.2.2 bytes c hsize hread).2⟩

end StatusList.BinaryClaim
