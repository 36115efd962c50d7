import StatusList.Document
import StatusList.Proofs.Guarded
import StatusList.Proofs.Packed.Runs

/-!
# Counted lists

In memory, a list keeps the number of its entries beside its bytes, and whoever looks for an entry
looks at that number alone before the bytes are touched. As long as the number is right
(`Sound`), an entry is found where it is in the list, so that reading and writing in memory is
reading and writing the list (`get_cases`, `set_cases`); what else can happen is that a bit is
counted which a word does not count, and that takes `2 ^ 61` bytes. The number is never written,
and calls leave it right (`run_cases`).

* `Counted`: a list in memory, read and written in guarded steps;
* `Counted.Safe`: none of the guards fails;
* `Counted.Sound.safe`: a list that is counted rightly is safe.
-/

namespace StatusList

/-- Steps that all go on give what each of them gives. -/
theorem mapM_eq_ok {ε α β : Type} {step : α → Except ε β} {value : α → β} {l : List α}
    (h : ∀ a ∈ l, step a = .ok (value a)) : l.mapM step = .ok (l.map value) := by
  induction l with
  | nil => rfl
  | cons a l ih =>
    rw [List.mapM_cons, h a List.mem_cons_self, ih fun b hb => h b (List.mem_cons_of_mem _ hb)]
    rfl

/-! ## Guarded lists -/

/-- Why there is no result. -/
inductive Stop where
  /-- The machine cannot go on. -/
  | trapped (trap : Trap)
  /-- The caller is told of an error. -/
  | refused (error : Error)

-- Guarded steps, and steps that may refuse, stand among steps that may do both.
instance : MonadLift (Except Trap) (Except Stop) := ⟨fun step => step.mapError .trapped⟩

instance : MonadLift (Except Error) (Except Stop) := ⟨fun step => step.mapError .refused⟩

/-- A packed list as it lies in memory. -/
structure Counted where
  /-- The width of every entry. -/
  width : Width
  /-- The number of entries. -/
  count : Nat
  /-- The bytes that hold the entries. -/
  bytes : ByteArray

namespace Counted

/-- The list, with the entries counted. -/
def ofPacked (p : Packed) : Counted := ⟨p.width, p.size, p.bytes⟩

/-- The list, whatever the count. -/
def packed (p : Counted) : Packed := ⟨p.width, p.bytes⟩

/-- The byte of the entry at `index`, and how many bits of that byte are below it. -/
def locate (p : Counted) (index : Nat) : Except Stop (Nat × Nat) :=
  if p.count ≤ index then .error (.refused (.outOfRange index p.count))
  else do
    let bit ← Guarded.mul index p.width.bits
    return (bit / 8, bit % 8)

/-- The entry that lies `shift` bits above the lowest of a byte. -/
def fieldAt (p : Counted) (place shift : Nat) : Except Trap UInt8 := do
  return (← Guarded.shiftRight (← Guarded.byteAt p.bytes place) shift) &&& p.width.mask

/-- The entry at `index`. -/
def get (p : Counted) (index : Nat) : Except Stop UInt8 := do
  let (place, shift) ← p.locate index
  let value ← p.fieldAt place shift
  return value

/-- The list with `value` at `index`. -/
def set (p : Counted) (index : Nat) (value : UInt8) : Except Stop Counted := do
  let (place, shift) ← p.locate index
  Packed.checkValue p.width value
  let mask ← Guarded.shiftLeft p.width.mask shift
  let byte ← Guarded.byteAt p.bytes place
  let moved ← Guarded.shiftLeft value shift
  return { p with bytes := ← Guarded.putByte p.bytes place ((byte &&& ~~~mask) ||| moved) }

/-- All entries. -/
def toList (p : Counted) : Except Trap (List UInt8) :=
  (List.range p.count).mapM fun index => do
    p.fieldAt ((← Guarded.mul index p.width.bits) / 8) ((← Guarded.mul index p.width.bits) % 8)

/-- The JSON of the list. -/
def toJson (p : Counted) : Except Trap Json := do
  return .array ((← p.toList).map fun value => .ofNat value.toNat)

/-! ## Finding entries -/

/-- The count is right. -/
def Sound (p : Counted) : Prop := p.count = p.packed.size

theorem sound_ofPacked (p : Packed) : (ofPacked p).Sound := rfl

theorem Sound.eq {p : Counted} (h : p.Sound) : p = ofPacked p.packed := by
  cases p
  exact congrArg (Counted.mk _ · _) h

variable {p : Counted} {index : Nat}

/-- An entry that is one of the list is found in its bytes. -/
theorem fieldAt_entry (h : index < p.packed.size) :
    p.fieldAt (Packed.byteIndex p.width index) (Packed.shift p.width index) =
      .ok (p.packed.entry index h) := by
  have hbyte : Packed.byteIndex p.width index < p.bytes.size := Packed.byteIndex_lt h
  have hroom := Packed.shift_add_bits_le p.width index
  have hpos := p.width.bits_pos
  rw [fieldAt, Guarded.byteAt_of_lt hbyte]
  simp only [bind, Except.bind,
    Guarded.shiftRight_of_lt _ (show Packed.shift p.width index < 8 by omega)]
  rfl

/-- Looking for an entry overflows only in a list of very many bytes. -/
theorem mul_bits_lt (hs : p.Sound) (hbytes : p.bytes.size < 2 ^ 61) (h : index < p.count) :
    index * p.width.bits < 2 ^ 64 := by
  have hbits : index * p.width.bits + p.width.bits ≤ p.bytes.size * 8 :=
    Packed.mul_bits_add_bits_le (hs ▸ h : index < p.packed.size)
  omega

/-- An index is refused, or its entry is found, or a word does not count the bits before it, for
    which there have to be very many bytes. -/
theorem locate_cases (hs : p.Sound) (index : Nat) :
    (p.packed.size ≤ index ∧
      p.locate index = .error (.refused (.outOfRange index p.packed.size))) ∨
    (index < p.packed.size ∧
      p.locate index = .ok (Packed.byteIndex p.width index, Packed.shift p.width index)) ∨
    p.locate index = .error (.trapped .overflow) ∧ 2 ^ 61 ≤ p.bytes.size := by
  rw [locate, ← hs]
  rcases Nat.lt_or_ge index p.count with h | h
  · rw [if_neg (Nat.not_le.2 h)]
    rcases Nat.lt_or_ge (index * p.width.bits) (2 ^ 64) with hword | hword
    · rw [Guarded.mul_of_lt hword]
      exact .inr (.inl ⟨h, rfl⟩)
    · rw [Guarded.mul_of_le hword]
      exact .inr (.inr ⟨rfl, Nat.le_of_not_lt fun hbytes =>
        Nat.not_lt.2 hword (mul_bits_lt hs hbytes h)⟩)
  · exact .inl ⟨h, if_pos h⟩

/-! ## Reading and writing -/

/-- What is made in memory is the list that is made, with its entries counted; or else a number
    has overflowed, which does not happen unless something is `large`. -/
def Tracks (made : Except Stop Counted) (result : Except Error Packed) (large : Prop) : Prop :=
  made = (result.map ofPacked).mapError .refused ∨ made = .error (.trapped .overflow) ∧ large

theorem Tracks.eq {made : Except Stop Counted} {result : Except Error Packed} {large : Prop}
    (h : Tracks made result large) (hsmall : ¬large) :
    made = (result.map ofPacked).mapError .refused :=
  h.resolve_right fun hlarge => hsmall hlarge.2

theorem Tracks.of_ok {result : Except Error Packed} {large : Prop}
    (h : Tracks (.ok p) result large) : result = .ok p.packed ∧ p.Sound := by
  rcases h with h | ⟨h, -⟩
  · cases result with
    | error e => cases h
    | ok r =>
      cases h
      exact ⟨rfl, sound_ofPacked r⟩
  · cases h

/-- Reading an entry in memory. -/
theorem get_cases (hs : p.Sound) (index : Nat) :
    p.get index = (p.packed.get index).mapError .refused ∨
      p.get index = .error (.trapped .overflow) ∧ 2 ^ 61 ≤ p.bytes.size := by
  rcases locate_cases hs index with ⟨h, hlocate⟩ | ⟨h, hlocate⟩ | ⟨hlocate, hlarge⟩
  · left
    rw [get, hlocate, Packed.get, dif_neg (Nat.not_lt.2 h)]
    rfl
  · left
    rw [get, hlocate, Packed.get, dif_pos h]
    simp only [bind, Except.bind, fieldAt_entry h]
    rfl
  · right
    rw [get, hlocate]
    exact ⟨rfl, hlarge⟩

/-- An entry that is found is written as in the list. -/
theorem set_of_located (hs : p.Sound) (h : index < p.packed.size)
    (hlocate : p.locate index =
      .ok (Packed.byteIndex p.width index, Packed.shift p.width index)) (value : UInt8) :
    p.set index value = ((p.packed.set index value).map ofPacked).mapError .refused := by
  have hroom := Packed.shift_add_bits_le p.width index
  have hpos := p.width.bits_pos
  have hshift : Packed.shift p.width index < 8 := by omega
  have hbyte : Packed.byteIndex p.width index < p.bytes.size := Packed.byteIndex_lt h
  rw [set, hlocate, Packed.set, dif_pos h]
  simp only [bind, Except.bind, Guarded.shiftLeft_of_lt _ hshift, Guarded.byteAt_of_lt hbyte,
    Guarded.putByte_of_lt _ hbyte]
  -- No guard is left; what can still be refused is the value, on both sides by the same check.
  change _ = Except.mapError Stop.refused (Except.map ofPacked
    (Except.map (fun _ => p.packed.put index h value) (Packed.checkValue p.width value)))
  cases Packed.checkValue p.width value with
  | error e => rfl
  | ok _ =>
    have hcount : p.count = (p.packed.put index h value).size :=
      Eq.trans hs (Packed.size_put p.packed index h value).symm
    exact congrArg (fun count => Except.ok (Counted.mk p.width count _)) hcount

/-- Writing an entry in memory. -/
theorem set_cases (hs : p.Sound) (index : Nat) (value : UInt8) :
    Tracks (p.set index value) (p.packed.set index value) (2 ^ 61 ≤ p.bytes.size) := by
  rcases locate_cases hs index with ⟨h, hlocate⟩ | ⟨h, hlocate⟩ | ⟨hlocate, hlarge⟩
  · left
    rw [set, hlocate, Packed.set, dif_neg (Nat.not_lt.2 h)]
    rfl
  · exact .inl (set_of_located hs h hlocate value)
  · right
    rw [set, hlocate]
    exact ⟨rfl, hlarge⟩

/-! ## Runs -/

/-- The answer to a call, and the list after it. A call that is refused leaves the list alone. -/
def step (p : Counted) : Call → Except Trap (Answer × Counted)
  | .get index =>
    match p.get index with
    | .ok value => .ok (.ok (some value), p)
    | .error (.refused e) => .ok (.error e, p)
    | .error (.trapped t) => .error t
  | .set index value =>
    match p.set index value with
    | .ok q => .ok (.ok none, q)
    | .error (.refused e) => .ok (.error e, p)
    | .error (.trapped t) => .error t

/-- The answers to calls, and the list after them. -/
def run (p : Counted) : List Call → Except Trap (List Answer × Counted)
  | [] => .ok ([], p)
  | call :: calls => do
    let (answer, q) ← p.step call
    let (answers, r) ← q.run calls
    return (answer :: answers, r)

/-- One call on a list in memory is that call on the list. -/
theorem step_cases (hs : p.Sound) (call : Call) :
    p.step call = .ok ((p.packed.step call).1, ofPacked (p.packed.step call).2) ∨
      p.step call = .error .overflow ∧ 2 ^ 61 ≤ p.bytes.size := by
  cases call with
  | get index =>
    rcases get_cases hs index with h | ⟨h, hlarge⟩
    · left
      rw [step, h, Packed.step]
      cases p.packed.get index with
      | error e => exact congrArg (fun q => Except.ok (_, q)) hs.eq
      | ok value => exact congrArg (fun q => Except.ok (_, q)) hs.eq
    · right
      rw [step, h]
      exact ⟨rfl, hlarge⟩
  | set index value =>
    rcases set_cases hs index value with h | ⟨h, hlarge⟩
    · left
      rw [step, h, Packed.step]
      cases p.packed.set index value with
      | error e => exact congrArg (fun q => Except.ok (_, q)) hs.eq
      | ok q => rfl
    · right
      rw [step, h]
      exact ⟨rfl, hlarge⟩

end Counted

namespace Packed

/-- Writing an entry changes neither the width nor the number of bytes. -/
theorem set_keeps {p q : Packed} {index : Nat} {value : UInt8} (h : p.set index value = .ok q) :
    q.width = p.width ∧ q.bytes.size = p.bytes.size := by
  rw [set] at h
  by_cases hindex : index < p.size
  · rw [dif_pos hindex] at h
    cases hvalue : checkValue p.width value with
    | error e =>
      rw [hvalue] at h
      cases h
    | ok _ =>
      rw [hvalue] at h
      cases h
      exact ⟨rfl, size_replaced _ _ _ _⟩
  · rw [dif_neg hindex] at h
    cases h

theorem step_keeps (p : Packed) (call : Call) :
    (p.step call).2.width = p.width ∧ (p.step call).2.bytes.size = p.bytes.size := by
  cases call with
  | get index => exact ⟨rfl, rfl⟩
  | set index value =>
    rw [step]
    cases h : p.set index value with
    | error e => exact ⟨rfl, rfl⟩
    | ok q => exact set_keeps h

theorem run_keeps (p : Packed) (calls : List Call) :
    (p.run calls).2.width = p.width ∧ (p.run calls).2.bytes.size = p.bytes.size := by
  induction calls generalizing p with
  | nil => exact ⟨rfl, rfl⟩
  | cons call calls ih =>
    obtain ⟨hwidth, hbytes⟩ := step_keeps p call
    exact (ih (p.step call).2).imp (·.trans hwidth) (·.trans hbytes)

end Packed

namespace Counted

variable {p : Counted}

/-- Calls on a list in memory are these calls on the list. -/
theorem run_cases (hs : p.Sound) (calls : List Call) :
    p.run calls = .ok ((p.packed.run calls).1, ofPacked (p.packed.run calls).2) ∨
      p.run calls = .error .overflow ∧ 2 ^ 61 ≤ p.bytes.size := by
  induction calls generalizing p with
  | nil => exact .inl (congrArg (fun q => Except.ok ([], q)) hs.eq)
  | cons call calls ih =>
    rcases step_cases hs call with h | ⟨h, hlarge⟩
    · rw [run, h]
      -- A later call overflows only if there are very many bytes then, and there are no more
      -- bytes then than now.
      have hbytes := (Packed.step_keeps p.packed call).2
      rcases ih (sound_ofPacked (p.packed.step call).2) with h | ⟨h, hlarge⟩
      · left
        simp only [bind, Except.bind, h]
        rfl
      · refine .inr ⟨?_, hlarge.trans_eq hbytes⟩
        simp only [bind, Except.bind, h]
    · right
      rw [run, h]
      exact ⟨rfl, hlarge⟩

/-! ## Safety -/

/-- There is an entry to be read and written wherever the count says so, and no guard fails: what
    is done with the list in memory is what is done with the list. -/
structure Safe (p : Counted) : Prop where
  /-- A word counts the bits before every entry. -/
  word : ∀ index < p.count, index * p.width.bits < 2 ^ 64
  /-- The byte of an entry is one of the bytes. -/
  inside : ∀ index < p.count, index * p.width.bits / 8 < p.bytes.size
  /-- All of the entry is in that byte. -/
  room : ∀ index < p.count, index * p.width.bits % 8 + p.width.bits ≤ 8
  /-- The mask, and a value that fits, lose no bit where they are moved to an entry. -/
  whole : ∀ index < p.count, ∀ value ≤ p.width.mask,
    (value <<< (index * p.width.bits % 8).toUInt8).toNat =
      value.toNat * 2 ^ (index * p.width.bits % 8)
  get : ∀ index, p.get index = (p.packed.get index).mapError .refused
  set : ∀ index value,
    p.set index value = ((p.packed.set index value).map ofPacked).mapError .refused
  run : ∀ calls, p.run calls = .ok ((p.packed.run calls).1, ofPacked (p.packed.run calls).2)
  toList : p.toList = .ok p.packed.toList
  /-- There are as many entries as the count announces. -/
  announced : p.packed.toList.length = p.count
  toJson : p.toJson = .ok p.packed.toJson

/-- All entries are found in the bytes. -/
theorem toList_eq (hs : p.Sound) (hbytes : p.bytes.size < 2 ^ 61) :
    p.toList = .ok p.packed.toList := by
  have hentry : ∀ index ∈ List.range p.count, (do
      p.fieldAt ((← Guarded.mul index p.width.bits) / 8)
        ((← Guarded.mul index p.width.bits) % 8) : Except Trap UInt8) =
      .ok (if h : index < p.packed.size then p.packed.entry index h else 0) := by
    intro index hindex
    have h : index < p.count := List.mem_range.1 hindex
    have hsize : index < p.packed.size := hs ▸ h
    rw [dif_pos hsize, Guarded.mul_of_lt (mul_bits_lt hs hbytes h)]
    exact fieldAt_entry hsize
  rw [toList, mapM_eq_ok hentry]
  refine congrArg Except.ok (List.ext_getElem ?_ fun index h _ => ?_)
  · rw [List.length_map, List.length_range, Packed.length_toList, hs]
  · rw [List.length_map, List.length_range, hs] at h
    rw [List.getElem_map, Packed.getElem_toList, List.getElem_range, dif_pos h]

theorem Sound.safe (hs : p.Sound) (hbytes : p.bytes.size < 2 ^ 61) : p.Safe where
  word _ := mul_bits_lt hs hbytes
  inside _ h := Packed.byteIndex_lt (hs ▸ h : _ < p.packed.size)
  room index _ := Packed.shift_add_bits_le p.width index
  whole index _ _ hv := Packed.toNat_shiftLeft_of_le_mask (Packed.shift_add_bits_le _ index) hv
  get index := (get_cases hs index).resolve_right fun h => Nat.not_lt.2 h.2 hbytes
  set index value := (set_cases hs index value).eq (Nat.not_le.2 hbytes)
  run calls := (run_cases hs calls).resolve_right fun h => Nat.not_lt.2 h.2 hbytes
  toList := toList_eq hs hbytes
  announced := p.packed.length_toList.trans hs.symm
  toJson := by
    rw [toJson, toList_eq hs hbytes]
    rfl

end Counted

end StatusList
