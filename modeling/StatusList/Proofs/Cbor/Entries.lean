import StatusList.Cbor.Claim
import StatusList.Proofs.Basic

/-!
# Entries of a binary claim

A binary claim is read off a map entry by entry, and what comes of it is told of the whole list of
entries, whatever they are and however often a key occurs (`BinaryClaim.Says`). The first entry
that no claim can have is the error (`BinaryClaim.Refuses`). If there is none, the last value of
each key counts, and the width is missed before the list is.

A *draft* is what has been gathered from the entries so far: of each key the last value
(`Draft.Gathers`). Each entry is put into it or refused, and which it is does not depend on the
draft (`Draft.put_cases`). So nothing counts but the values that each known key has, in their
order (`entries_decide`). That is of maps that can be read (`IsMap`): a byte string with an entry
that is nested too deep, or with a simple value that is not assigned, is refused as a whole.
-/

namespace StatusList.BinaryClaim

open Cbor (Item)

/-! ## Entries -/

/-- The keys of a claim. -/
def keys : List String := ["bits", "lst", "aggregation_uri"]

/-- Whether an entry has one of the keys of a claim. -/
def isKnown : Item × Item → Bool
  | (.text key, _) => key ∈ keys
  | _ => false

/-- The value of an entry with that key. -/
def valueFor (key : String) : Item × Item → Option Item
  | (.text name, value) => if name = key then some value else none
  | _ => none

/-- The values that a key has, in the order of the entries. -/
def valuesOf (key : String) (entries : List (Item × Item)) : List Item :=
  entries.filterMap (valueFor key)

/-- No claim has this entry, and the error for it. -/
inductive Refuses (e : Item × Item) : Error → Prop where
  /-- The width is no integer. -/
  | bits (hkey : e.1 = .text "bits") (hvalue : ∀ n, e.2 ≠ .integer n) :
      Refuses e (.badClaim (.wrongType "bits"))
  /-- The width is an integer of more than eight bits, or below zero. -/
  | range {n : Int} (hkey : e.1 = .text "bits") (hvalue : e.2 = .integer n)
      (h : n < 0 ∨ 255 < n) : Refuses e (.badClaim .widthOutOfRange)
  /-- The width is a number of eight bits, but none of the four widths. -/
  | width {n : Nat} (hkey : e.1 = .text "bits") (hvalue : e.2 = .integer n) (h : n ≤ 255)
      (hnone : n ∉ [1, 2, 4, 8]) : Refuses e (.invalidWidth n)
  /-- The list is no byte string. -/
  | lst (hkey : e.1 = .text "lst") (hvalue : ∀ bytes, e.2 ≠ .bytes bytes) :
      Refuses e (.badClaim (.wrongType "lst"))
  /-- The place where the list is gathered is no text. -/
  | uri (hkey : e.1 = .text "aggregation_uri") (hvalue : ∀ uri, e.2 ≠ .text uri) :
      Refuses e (.badClaim (.wrongType "aggregation_uri"))

/-- No entry is refused. -/
def Accepts (entries : List (Item × Item)) : Prop := ∀ e ∈ entries, ∀ cause, ¬Refuses e cause

/-- What a map of these entries says: a claim, or why it is none. -/
inductive Says (entries : List (Item × Item)) : Except Error BinaryClaim → Prop where
  /-- An entry is refused, and none before it. -/
  | refused {front back : List (Item × Item)} {e : Item × Item} {cause : Error}
      (hentries : entries = front ++ e :: back) (hfront : Accepts front) (h : Refuses e cause) :
      Says entries (.error cause)
  /-- There is no width. -/
  | noBits (h : Accepts entries) (hbits : valuesOf "bits" entries = []) :
      Says entries (.error (.badClaim (.missing "bits")))
  /-- There is a width and no list. -/
  | noLst (h : Accepts entries) (hbits : valuesOf "bits" entries ≠ [])
      (hlst : valuesOf "lst" entries = []) :
      Says entries (.error (.badClaim (.missing "lst")))
  /-- The last width and the last list make a claim, with the last place that is told, if any. -/
  | claim {width : Width} {lst : List UInt8} {uri : Option String} (h : Accepts entries)
      (hbits : (valuesOf "bits" entries).getLast? = some (.integer width.bits))
      (hlst : (valuesOf "lst" entries).getLast? = some (.bytes lst))
      (huri : (valuesOf "aggregation_uri" entries).getLast? = uri.map .text) :
      Says entries (.ok ⟨width, lst.toByteArray, uri⟩)

/-! ## One entry -/

variable {d d' : Draft} {e : Item × Item} {entries entries' front back : List (Item × Item)}
  {cause : Error} {c : BinaryClaim} {r r' : Except Error BinaryClaim}

/-- The draft after an entry that is not refused. -/
inductive Draft.Puts (d : Draft) (e : Item × Item) : Draft → Prop where
  | width {w : Width} (hkey : e.1 = .text "bits") (hvalue : e.2 = .integer w.bits) :
      Puts d e { d with width := some w }
  | lst {lst : List UInt8} (hkey : e.1 = .text "lst") (hvalue : e.2 = .bytes lst) :
      Puts d e { d with lst := some lst }
  | uri {uri : String} (hkey : e.1 = .text "aggregation_uri") (hvalue : e.2 = .text uri) :
      Puts d e { d with aggregationUri := some uri }
  | other (h : isKnown e = false) : Puts d e d

theorem Refuses.isKnown (h : Refuses e cause) : isKnown e = true := by
  obtain ⟨key, value⟩ := e
  cases h with
  | bits hkey | range hkey | width hkey | lst hkey | uri hkey =>
    subst hkey
    rfl

theorem Draft.Puts.not_refuses (h : d.Puts e d') : ¬Refuses e cause := by
  intro hrefuses
  cases h with
  | @width w hkey hvalue =>
    cases hrefuses with
    | bits _ h => exact h _ hvalue
    | range _ hvalue' h =>
      obtain rfl := Item.integer.inj (hvalue.symm.trans hvalue')
      cases w <;> simp only [Width.bits] at h <;> omega
    | width _ hvalue' _ hnone =>
      have hn := Int.ofNat.inj (Item.integer.inj (hvalue.symm.trans hvalue'))
      subst hn
      cases w <;> exact hnone (by decide)
    | lst hkey' | uri hkey' => simp [hkey] at hkey'
  | lst hkey hvalue =>
    cases hrefuses with
    | lst _ h => exact h _ hvalue
    | bits hkey' | range hkey' | width hkey' | uri hkey' => simp [hkey] at hkey'
  | uri hkey hvalue =>
    cases hrefuses with
    | uri _ h => exact h _ hvalue
    | bits hkey' | range hkey' | width hkey' | lst hkey' => simp [hkey] at hkey'
  | other h => rw [hrefuses.isKnown] at h; cases h

theorem Draft.put_bits (d : Draft) (n : Int) :
    d.put (.text "bits") (.integer n) = widthOf n >>= fun w => .ok { d with width := some w } :=
  rfl

/-- An entry that no claim has is refused by every draft. -/
theorem Refuses.put_eq (h : Refuses e cause) (d : Draft) : d.put e.1 e.2 = .error cause := by
  obtain ⟨key, value⟩ := e
  cases h with
  | bits hkey hvalue =>
    subst hkey
    cases value with
    | integer n => exact absurd rfl (hvalue n)
    | _ => rfl
  | @range n hkey hvalue h =>
    subst hkey hvalue
    have hwidth : widthOf n = .error (.badClaim .widthOutOfRange) := if_neg (by omega)
    rw [Draft.put_bits, hwidth]
    rfl
  | @width n hkey hvalue h hnone =>
    subst hkey hvalue
    have hbits : Width.ofBits? n = none := by
      unfold Width.ofBits?
      split <;> simp_all
    have hrange : 0 ≤ (n : Int) ∧ (n : Int) < 256 := by omega
    have hwidth : widthOf n = .error (.invalidWidth n) := by
      simp only [widthOf, hrange, and_self, ↓reduceIte, Int.toNat_natCast, hbits]
    rw [Draft.put_bits, hwidth]
    rfl
  | lst hkey hvalue =>
    subst hkey
    cases value with
    | bytes lst => exact absurd rfl (hvalue lst)
    | _ => rfl
  | uri hkey hvalue =>
    subst hkey
    cases value with
    | text uri => exact absurd rfl (hvalue uri)
    | _ => rfl

/-- The width of an integer, if it is the one of an entry that is not refused. -/
theorem widthOf_cases {n : Int} (hkey : e.1 = .text "bits") (hvalue : e.2 = .integer n) :
    (∃ cause, Refuses e cause) ∨ ∃ w : Width, n = w.bits ∧ widthOf n = .ok w := by
  by_cases h : 0 ≤ n ∧ n < 256
  · obtain ⟨n, rfl⟩ := Int.eq_ofNat_of_zero_le h.1
    cases hw : Width.ofBits? n with
    | some w =>
      refine .inr ⟨w, congrArg _ (Width.ofBits?_eq_some_iff.1 hw), ?_⟩
      rw [widthOf, if_pos h, Int.toNat_natCast, hw]
    | none =>
      refine .inl ⟨_, .width hkey hvalue (by omega) fun hmem => ?_⟩
      simp only [List.mem_cons, List.not_mem_nil, or_false] at hmem
      rcases hmem with rfl | rfl | rfl | rfl <;> cases hw
  · exact .inl ⟨_, .range hkey hvalue (by omega)⟩

/-- An entry is refused, or it is put into the draft; which it is does not depend on the draft. -/
theorem Draft.put_cases (d : Draft) (e : Item × Item) :
    (∃ cause, Refuses e cause) ∨ ∃ d', d.Puts e d' ∧ d.put e.1 e.2 = .ok d' := by
  unfold Draft.put
  split
  · next n hkey hvalue =>
    rcases widthOf_cases hkey hvalue with hrefuses | ⟨w, rfl, hwidth⟩
    · exact .inl hrefuses
    · exact .inr ⟨_, .width hkey hvalue, by rw [hwidth]; rfl⟩
  · next hkey hvalue => exact .inl ⟨_, .bits hkey hvalue⟩
  · next lst hkey hvalue => exact .inr ⟨_, .lst hkey hvalue, rfl⟩
  · next hkey hvalue => exact .inl ⟨_, .lst hkey hvalue⟩
  · next uri hkey hvalue => exact .inr ⟨_, .uri hkey hvalue, rfl⟩
  · next hkey hvalue => exact .inl ⟨_, .uri hkey hvalue⟩
  · next hbits hlst huri _ _ _ =>
    refine .inr ⟨d, .other ?_, rfl⟩
    obtain ⟨key, value⟩ := e
    cases key with
    | text key =>
      have hne : ∀ name, Item.text key ≠ .text name → key ≠ name := fun _ h heq => h (heq ▸ rfl)
      simpa [isKnown, keys] using ⟨hne _ hbits, hne _ hlst, hne _ huri⟩
    | _ => rfl

/-! ## Values of a key -/

theorem valueFor_eq_some_iff {key : String} {value : Item} :
    valueFor key e = some value ↔ e = (.text key, value) := by
  obtain ⟨name, value'⟩ := e
  cases name with
  | text name =>
    rw [valueFor, Option.ite_none_right_eq_some, Option.some.injEq, Prod.mk.injEq,
      Item.text.injEq]
  | _ => exact iff_of_false (by rintro ⟨⟩) fun h => by cases congrArg Prod.fst h

theorem mem_valuesOf_iff {key : String} {value : Item} :
    value ∈ valuesOf key entries ↔ (.text key, value) ∈ entries := by
  simp only [valuesOf, List.mem_filterMap, valueFor_eq_some_iff, exists_eq_right]

theorem valuesOf_append (key : String) (front back : List (Item × Item)) :
    valuesOf key (front ++ back) = valuesOf key front ++ valuesOf key back :=
  List.filterMap_append

theorem valuesOf_of_key {key : String} (h : e.1 = .text key) : valuesOf key [e] = [e.2] :=
  List.filterMap_cons_some (valueFor_eq_some_iff.2 (Prod.ext h rfl))

theorem valuesOf_of_ne {key : String} (h : e.1 ≠ .text key) : valuesOf key [e] = [] := by
  refine List.eq_nil_iff_forall_not_mem.2 fun value hvalue => h ?_
  rw [mem_valuesOf_iff, List.mem_singleton] at hvalue
  exact hvalue ▸ rfl

/-! ## All entries -/

/-- The draft has the last value of each key, if the key occurs. -/
structure Draft.Gathers (d : Draft) (entries : List (Item × Item)) : Prop where
  bits : (valuesOf "bits" entries).getLast? = d.width.map fun w => .integer w.bits
  lst : (valuesOf "lst" entries).getLast? = d.lst.map .bytes
  uri : (valuesOf "aggregation_uri" entries).getLast? = d.aggregationUri.map .text

theorem isKnown_of_key {key : String} (hkey : e.1 = .text key) (h : key ∈ keys) :
    isKnown e = true := by
  obtain ⟨name, value⟩ := e
  subst hkey
  exact decide_eq_true h

/-- Another entry takes the place of earlier ones with its key. -/
theorem Draft.Gathers.put (h : d.Gathers front) (hput : d.Puts e d') :
    d'.Gathers (front ++ [e]) := by
  have hlast : ∀ {key : String} {values : List Item}, valuesOf key [e] = values →
      (valuesOf key (front ++ [e])).getLast? = values.getLast?.or (valuesOf key front).getLast? :=
    fun hvalues => by rw [valuesOf_append, hvalues, List.getLast?_append]
  have hkeep : ∀ {key name : String}, e.1 = .text name → name ≠ key →
      (valuesOf key (front ++ [e])).getLast? = (valuesOf key front).getLast? := by
    intro key name hname hne
    exact hlast (valuesOf_of_ne fun hkey => hne (Item.text.inj (hname.symm.trans hkey)))
  have hnew : ∀ {key : String}, e.1 = .text key →
      (valuesOf key (front ++ [e])).getLast? = some e.2 := fun hkey => hlast (valuesOf_of_key hkey)
  cases hput with
  | width hkey hvalue =>
    exact ⟨(hnew hkey).trans (congrArg some hvalue), (hkeep hkey (by decide)).trans h.lst,
      (hkeep hkey (by decide)).trans h.uri⟩
  | lst hkey hvalue =>
    exact ⟨(hkeep hkey (by decide)).trans h.bits, (hnew hkey).trans (congrArg some hvalue),
      (hkeep hkey (by decide)).trans h.uri⟩
  | uri hkey hvalue =>
    exact ⟨(hkeep hkey (by decide)).trans h.bits, (hkeep hkey (by decide)).trans h.lst,
      (hnew hkey).trans (congrArg some hvalue)⟩
  | other hunknown =>
    have hother : ∀ key ∈ keys,
        (valuesOf key (front ++ [e])).getLast? = (valuesOf key front).getLast? := fun key hmem =>
      hlast (valuesOf_of_ne fun hkey => by
        rw [isKnown_of_key hkey hmem] at hunknown
        cases hunknown)
    exact ⟨(hother _ (by decide)).trans h.bits, (hother _ (by decide)).trans h.lst,
      (hother _ (by decide)).trans h.uri⟩

/-- The draft after entries, as the reader makes it. -/
def Draft.putAll (d : Draft) (entries : List (Item × Item)) : Except Error Draft :=
  entries.foldlM (fun d (key, value) => d.put key value) d

theorem Draft.putAll_cons (d : Draft) (e : Item × Item) (entries : List (Item × Item)) :
    d.putAll (e :: entries) = d.put e.1 e.2 >>= fun d' => d'.putAll entries :=
  List.foldlM_cons

/-- Entries of which none is refused leave the last values of all that there were. -/
theorem Draft.Gathers.putAll (h : d.Gathers front) (haccepts : Accepts entries) :
    ∃ d', d.putAll entries = .ok d' ∧ d'.Gathers (front ++ entries) := by
  induction entries generalizing d front with
  | nil => exact ⟨d, rfl, by rwa [List.append_nil]⟩
  | cons e entries ih =>
    obtain ⟨he, hentries⟩ := List.forall_mem_cons.1 haccepts
    rcases d.put_cases e with ⟨cause, hrefuses⟩ | ⟨d₁, hputs, hput⟩
    · exact absurd hrefuses (he cause)
    · obtain ⟨d', hall, hgathers⟩ := ih (h.put hputs) hentries
      rw [List.append_assoc, List.singleton_append] at hgathers
      exact ⟨d', by rw [putAll_cons, hput]; exact hall, hgathers⟩

theorem Draft.gathers_nil : (Draft.mk none none none).Gathers [] := ⟨rfl, rfl, rfl⟩

theorem Draft.Gathers.finish (h : d.Gathers entries) (haccepts : Accepts entries) :
    Says entries d.finish := by
  obtain ⟨width, lst, uri⟩ := d
  cases width with
  | none => exact .noBits haccepts (List.getLast?_eq_none_iff.1 h.bits)
  | some width =>
    have hbits : valuesOf "bits" entries ≠ [] := fun hnone => by
      have hlast := h.bits
      rw [hnone] at hlast
      cases hlast
    cases lst with
    | none => exact .noLst haccepts hbits (List.getLast?_eq_none_iff.1 h.lst)
    | some lst => exact .claim haccepts h.bits h.lst h.uri

/-- If not all entries are accepted, one is refused and none before it. -/
theorem exists_first_refused (h : ¬Accepts entries) :
    ∃ front e back cause, entries = front ++ e :: back ∧ Accepts front ∧ Refuses e cause := by
  induction entries with
  | nil => exact absurd (List.forall_mem_nil _) h
  | cons e entries ih =>
    by_cases he : ∃ cause, Refuses e cause
    · obtain ⟨cause, hcause⟩ := he
      exact ⟨[], e, entries, cause, rfl, List.forall_mem_nil _, hcause⟩
    · have he : ∀ cause, ¬Refuses e cause := not_exists.1 he
      obtain ⟨front, e', back, cause, rfl, hfront, hcause⟩ :=
        ih fun hentries => h (List.forall_mem_cons.2 ⟨he, hentries⟩)
      exact ⟨e :: front, e', back, cause, rfl, List.forall_mem_cons.2 ⟨he, hfront⟩, hcause⟩

theorem ofItem_map (entries : List (Item × Item)) :
    ofItem (.map entries) = (Draft.mk none none none).putAll entries >>= Draft.finish := rfl

/-- The first entry that is refused ends the reading. -/
theorem ofItem_of_refused (hfront : Accepts front) (h : Refuses e cause) :
    ofItem (.map (front ++ e :: back)) = .error cause := by
  obtain ⟨d, hd, -⟩ := Draft.gathers_nil.putAll hfront
  have hall : (Draft.mk none none none).putAll (front ++ e :: back) =
      (Draft.mk none none none).putAll front >>= fun d => d.putAll (e :: back) :=
    List.foldlM_append
  rw [ofItem_map, hall, hd, bind_eq_error_iff]
  left
  change d.putAll (e :: back) = .error cause
  rw [Draft.putAll_cons, h.put_eq]
  rfl

theorem ofItem_of_accepts (h : Accepts entries) :
    ∃ d : Draft, d.Gathers entries ∧ ofItem (.map entries) = d.finish := by
  obtain ⟨d, hd, hgathers⟩ := Draft.gathers_nil.putAll h
  exact ⟨d, hgathers, by rw [ofItem_map, hd]; rfl⟩

/-- What is read off a map is what it says. -/
theorem says_ofItem (entries : List (Item × Item)) : Says entries (ofItem (.map entries)) := by
  by_cases haccepts : Accepts entries
  · obtain ⟨d, hgathers, hread⟩ := ofItem_of_accepts haccepts
    exact hread ▸ hgathers.finish haccepts
  · obtain ⟨front, e, back, cause, rfl, hfront, hcause⟩ := exists_first_refused haccepts
    rw [ofItem_of_refused hfront hcause]
    exact .refused rfl hfront hcause

/-- A map says one thing. -/
theorem Says.ofItem_eq (h : Says entries r) : ofItem (.map entries) = r := by
  cases h with
  | refused hentries hfront hrefuses =>
    subst hentries
    exact ofItem_of_refused hfront hrefuses
  | noBits haccepts hbits =>
    obtain ⟨⟨width, lst, uri⟩, hgathers, hread⟩ := ofItem_of_accepts haccepts
    have hwidth := hgathers.bits
    rw [hbits] at hwidth
    obtain rfl := Option.map_eq_none_iff.1 hwidth.symm
    exact hread
  | noLst haccepts hbits hlst =>
    obtain ⟨⟨width, lst, uri⟩, hgathers, hread⟩ := ofItem_of_accepts haccepts
    have hwidth := hgathers.bits
    have hbytes := hgathers.lst
    rw [hlst] at hbytes
    obtain rfl := Option.map_eq_none_iff.1 hbytes.symm
    cases width with
    | none => exact absurd (List.getLast?_eq_none_iff.1 hwidth) hbits
    | some width => exact hread
  | @claim width lst uri haccepts hbits hlst huri =>
    obtain ⟨⟨width', lst', uri'⟩, hgathers, hread⟩ := ofItem_of_accepts haccepts
    obtain ⟨w, rfl, hw⟩ := Option.map_eq_some_iff.1 (hgathers.bits.symm.trans hbits)
    obtain ⟨bytes, rfl, hbytes⟩ := Option.map_eq_some_iff.1 (hgathers.lst.symm.trans hlst)
    have huri' : uri' = uri := Option.map_injective (fun _ _ h => Item.text.inj h)
      (hgathers.uri.symm.trans huri)
    have hwidth : w = width := by
      have h := congrArg Width.ofBits? (Int.ofNat.inj (Item.integer.inj hw))
      rw [Width.ofBits?_bits, Width.ofBits?_bits] at h
      exact Option.some.inj h
    rw [hread, hwidth, Item.bytes.inj hbytes, huri']
    rfl

theorem ofItem_eq_iff : ofItem (.map entries) = r ↔ Says entries r :=
  ⟨fun h => h ▸ says_ofItem entries, Says.ofItem_eq⟩

/-! ## What does not count -/

/-- Entries with other keys could as well not be there. -/
theorem putAll_filter (d : Draft) (entries : List (Item × Item)) :
    d.putAll (entries.filter isKnown) = d.putAll entries := by
  induction entries generalizing d with
  | nil => rfl
  | cons e entries ih =>
    by_cases he : isKnown e = true
    · rw [List.filter_cons_of_pos he, Draft.putAll_cons, Draft.putAll_cons]
      exact congrArg _ (funext ih)
    · rw [List.filter_cons_of_neg he, Draft.putAll_cons, ih]
      rcases d.put_cases e with ⟨cause, hrefuses⟩ | ⟨d', hputs, hput⟩
      · exact absurd hrefuses.isKnown he
      · cases hputs with
        | other => rw [hput]; rfl
        | width hkey | lst hkey | uri hkey => exact absurd (isKnown_of_key hkey (by decide)) he

theorem ofItem_congr (h : entries.filter isKnown = entries'.filter isKnown) :
    ofItem (.map entries) = ofItem (.map entries') := by
  rw [ofItem_map, ofItem_map, ← putAll_filter, h, putAll_filter]

/-- A claim is that of all entries with the same values of each key. -/
theorem ofItem_eq_ok_congr (h : ∀ key ∈ keys, valuesOf key entries = valuesOf key entries')
    (hread : ofItem (.map entries) = .ok c) : ofItem (.map entries') = .ok c := by
  have haccepts' : Accepts entries → Accepts entries' := by
    intro haccepts e he cause hrefuses
    obtain ⟨key, hkey, hmem⟩ : ∃ key, e.1 = .text key ∧ key ∈ keys := by
      cases hrefuses with
      | bits hkey | range hkey | width hkey | lst hkey | uri hkey => exact ⟨_, hkey, by decide⟩
    obtain ⟨name, value⟩ := e
    subst hkey
    rw [← mem_valuesOf_iff, ← h key hmem, mem_valuesOf_iff] at he
    exact haccepts _ he cause hrefuses
  rw [ofItem_eq_iff] at hread ⊢
  cases hread with
  | claim haccepts hbits hlst huri =>
    rw [h _ (by decide)] at hbits hlst huri
    exact .claim (haccepts' haccepts) hbits hlst huri

/-- If no known key occurs twice, the order of the entries makes no difference to a claim. -/
theorem ofItem_eq_ok_of_perm (hperm : entries.Perm entries')
    (hkeys : (entries.filter isKnown).Pairwise fun e e' => e.1 ≠ e'.1)
    (hread : ofItem (.map entries) = .ok c) : ofItem (.map entries') = .ok c := by
  refine ofItem_eq_ok_congr (fun key hmem => ?_) hread
  have hvalues : (valuesOf key entries).Perm (valuesOf key entries') := hperm.filterMap _
  -- Two values of one key would be of two entries with that key.
  have hsingle : (valuesOf key entries).Pairwise fun _ _ => False := by
    rw [valuesOf, List.pairwise_filterMap]
    rw [List.pairwise_filter] at hkeys
    refine hkeys.imp fun {e e'} hne value hvalue value' hvalue' => ?_
    have he : e.1 = .text key := congrArg Prod.fst (valueFor_eq_some_iff.1 hvalue)
    have he' : e'.1 = .text key := congrArg Prod.fst (valueFor_eq_some_iff.1 hvalue')
    exact hne (isKnown_of_key he hmem) (isKnown_of_key he' hmem) (he.trans he'.symm)
  match h : valuesOf key entries, hsingle with
  | [], _ => rw [h] at hvalues; exact hvalues.nil_eq
  | [value], _ => rw [h] at hvalues; exact hvalues.singleton_eq
  | value :: value' :: values, hnone =>
    exact (List.rel_of_pairwise_cons hnone List.mem_cons_self).elim

/-! ## Byte strings -/

/-- A byte string begins with a map of these entries. -/
def IsMap (bytes : ByteArray) (entries : List (Item × Item)) : Prop :=
  Item.read bytes.data.toList = .ok (.map entries)

variable {bytes : ByteArray}

theorem IsMap.ofCbor_eq (h : IsMap bytes entries) : ofCbor bytes = ofItem (.map entries) := by
  rw [ofCbor, h]

/-- What is not a map is refused for that, if it is anything. -/
theorem ofCbor_of_not_isMap (h : ∀ entries, ¬IsMap bytes entries) :
    (∃ item, Item.read bytes.data.toList = .ok item ∧
      ofCbor bytes = .error (.badClaim .notAMap)) ∨
    ∃ fault, Item.read bytes.data.toList = .error fault ∧
      ofCbor bytes = .error (.badClaim (.unreadable fault)) := by
  unfold IsMap at h
  rw [ofCbor]
  cases hread : Item.read bytes.data.toList with
  | error fault => exact .inr ⟨fault, rfl, rfl⟩
  | ok item =>
    refine .inl ⟨item, rfl, ?_⟩
    cases item with
    | map entries => exact absurd hread (h entries)
    | _ => rfl

/-- What is read off a byte string that begins with a map is what the entries of the map say, and
    anything else is refused. A map has to be one that can be read as CBOR, which its entries have
    a part in whatever their keys are: they may not be nested too deep, for instance, and their
    simple values have to be assigned ones. Of two maps that can be read, the entries with other
    keys make no difference at all, wherever they stand and however many there are. To a claim it
    makes no difference how the values of one key stand to those of another, so that the entries
    may have any order if no known key occurs twice. -/
theorem entries_decide :
    (∀ (bytes : ByteArray) (entries : List (Item × Item)) (r : Except Error BinaryClaim),
      IsMap bytes entries → (ofCbor bytes = r ↔ Says entries r)) ∧
    (∀ bytes : ByteArray, (∀ entries, ¬IsMap bytes entries) →
      (∃ item, Item.read bytes.data.toList = .ok item ∧
        ofCbor bytes = .error (.badClaim .notAMap)) ∨
      ∃ fault, Item.read bytes.data.toList = .error fault ∧
        ofCbor bytes = .error (.badClaim (.unreadable fault))) ∧
    (∀ (bytes bytes' : ByteArray) (entries entries' : List (Item × Item)),
      IsMap bytes entries → IsMap bytes' entries' →
        (entries.filter isKnown = entries'.filter isKnown → ofCbor bytes = ofCbor bytes') ∧
        ∀ c, ofCbor bytes = .ok c →
          ((∀ key ∈ keys, valuesOf key entries = valuesOf key entries') →
            ofCbor bytes' = .ok c) ∧
          (entries.Perm entries' → ((entries.filter isKnown).Pairwise fun e e' => e.1 ≠ e'.1) →
            ofCbor bytes' = .ok c)) ∧
    (Error.badClaim (.wrongType "bits")).message = "cbor error: bits has the wrong type" ∧
    (Error.badClaim .widthOutOfRange).message = "cbor error: bits out of range" ∧
    (Error.badClaim (.missing "bits")).message = "cbor error: missing bits" ∧
    (Error.badClaim (.missing "lst")).message = "cbor error: missing lst" := by
  refine ⟨fun bytes entries r h => ?_, fun bytes => ofCbor_of_not_isMap,
    fun bytes bytes' entries entries' h h' => ?_, by decide, by decide, by decide, by decide⟩
  · rw [h.ofCbor_eq]
    exact ofItem_eq_iff
  · rw [h.ofCbor_eq, h'.ofCbor_eq]
    exact ⟨ofItem_congr, fun c hread => ⟨fun hvalues => ofItem_eq_ok_congr hvalues hread,
      fun hperm hkeys => ofItem_eq_ok_of_perm hperm hkeys hread⟩⟩

/-- A map with a key that no claim has and with two widths, of which the last counts; the same
    with the list in front of it all; and no map. -/
theorem entries_decide_of_two_widths :
    let bytes := [0xA4, 0x61, 0x78, 0xF6, 0x64, 0x62, 0x69, 0x74, 0x73, 0x08, 0x63, 0x6C, 0x73,
      0x74, 0x41, 0x07, 0x64, 0x62, 0x69, 0x74, 0x73, 0x02].toByteArray
    let bytes' := [0xA3, 0x63, 0x6C, 0x73, 0x74, 0x41, 0x07, 0x64, 0x62, 0x69, 0x74, 0x73, 0x08,
      0x64, 0x62, 0x69, 0x74, 0x73, 0x02].toByteArray
    let list : Item × Item := (.text "lst", .bytes [7])
    let eight : Item × Item := (.text "bits", .integer 8)
    let two : Item × Item := (.text "bits", .integer 2)
    IsMap bytes [(.text "x", .null), eight, list, two] ∧
    IsMap bytes' [list, eight, two] ∧
    ofCbor bytes = .ok ⟨.two, [7].toByteArray, none⟩ ∧
    ofCbor bytes' = .ok ⟨.two, [7].toByteArray, none⟩ ∧
    ofCbor [0xF6].toByteArray = .error (.badClaim .notAMap) := by
  intro bytes bytes' list eight two
  obtain ⟨hmeans, hother, hsame, -⟩ := entries_decide
  have hmap : IsMap bytes [(.text "x", .null), eight, list, two] := rfl
  have hmap' : IsMap bytes' [list, eight, two] := rfl
  have hnull : Item.read [0xF6].toByteArray.data.toList = .ok .null := rfl
  have haccepts : Accepts [(.text "x", .null), eight, list, two] := by
    have hput : ∀ {e d'}, (Draft.mk none none none).Puts e d' → ∀ cause, ¬Refuses e cause :=
      fun h _ => h.not_refuses
    simp only [Accepts, List.forall_mem_cons]
    exact ⟨hput (.other rfl), hput (.width (w := .eight) rfl rfl), hput (.lst rfl rfl),
      hput (.width (w := .two) rfl rfl), List.forall_mem_nil _⟩
  have hread : ofCbor bytes = .ok ⟨.two, [7].toByteArray, none⟩ :=
    (hmeans _ _ _ hmap).2 (.claim haccepts rfl rfl rfl)
  refine ⟨hmap, hmap', hread, ((hsame _ _ _ _ hmap hmap').2 _ hread).1 ?_, ?_⟩
  · simp only [keys, List.forall_mem_cons]
    exact ⟨rfl, rfl, rfl, List.forall_mem_nil _⟩
  · have hnone : ∀ entries, ¬IsMap [0xF6].toByteArray entries := fun entries h => by
      cases hnull.symm.trans h
    rcases hother _ hnone with ⟨_, _, h⟩ | ⟨fault, h, _⟩
    · exact h
    · cases hnull.symm.trans h

end StatusList.BinaryClaim
