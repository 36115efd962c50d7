import StatusList.Proofs.Packed.Entries

/-!
# Runs on packed lists

A *call* reads or writes one entry and gets an *answer*. A packed list answers a
sequence of calls exactly as a *plain* list does, which keeps its entries side by side
and knows only how wide they may be: a call that fails changes nothing, and a call that
writes changes the entry at its index and no other.

* `Packed.plain_step`: one call on a packed list is that call on its plain list;
* `runWith_map`: what commutes with one call commutes with a run;
* `Packed.run_refines_plain`: the two together, with what each call can answer.
-/

namespace StatusList

/-- A call on a list of entries. -/
inductive Call where
  | get (index : Nat)
  | set (index : Nat) (value : UInt8)
  deriving DecidableEq, Repr

/-- The answer to a call: the entry that was read, or nothing for a write. -/
abbrev Answer := Except Error (Option UInt8)

/-- Make calls one after the other; the answers are in the order of the calls. -/
def runWith {σ : Type} (step : σ → Call → Answer × σ) : σ → List Call → List Answer × σ
  | s, [] => ([], s)
  | s, call :: calls =>
    let rest := runWith step (step s call).2 calls
    ((step s call).1 :: rest.1, rest.2)

/-- What commutes with one call commutes with a run. -/
theorem runWith_map {σ τ : Type} {step : σ → Call → Answer × σ} {step' : τ → Call → Answer × τ}
    {f : σ → τ} (h : ∀ s call, step' (f s) call = ((step s call).1, f (step s call).2)) (s : σ)
    (calls : List Call) :
    runWith step' (f s) calls = ((runWith step s calls).1, f (runWith step s calls).2) := by
  induction calls generalizing s with
  | nil => rfl
  | cons call calls ih => rw [runWith, runWith, h, ih]

/-! ## Plain lists -/

/-- Entries side by side, with the width that they have to fit into. -/
structure Plain where
  /-- The width of every entry. -/
  width : Width
  /-- The entries. -/
  entries : List UInt8

namespace Plain

/-- The entry at an index. -/
def get (l : Plain) (index : Nat) : Except Error UInt8 :=
  if h : index < l.entries.length then .ok l.entries[index]
  else .error (.outOfRange index l.entries.length)

/-- The list with another entry at an index. -/
def set (l : Plain) (index : Nat) (value : UInt8) : Except Error Plain :=
  if l.entries.length ≤ index then .error (.outOfRange index l.entries.length)
  else if 2 ^ l.width.bits - 1 < value.toNat then
    .error (.valueTooLarge value (.ofNat (2 ^ l.width.bits - 1)))
  else .ok ⟨l.width, l.entries.set index value⟩

/-- The answer to a call, and the list after it. -/
def step (l : Plain) : Call → Answer × Plain
  | .get index => ((l.get index).map some, l)
  | .set index value =>
    match l.set index value with
    | .ok l' => (.ok none, l')
    | .error e => (.error e, l)

/-- The answers to calls, and the list after them. -/
def run (l : Plain) (calls : List Call) : List Answer × Plain := runWith step l calls

end Plain

/-! ## Packed lists -/

namespace Packed

/-- The answer to a call, and the list after it. -/
def step (p : Packed) : Call → Answer × Packed
  | .get index => ((p.get index).map some, p)
  | .set index value =>
    match p.set index value with
    | .ok q => (.ok none, q)
    | .error e => (.error e, p)

/-- The answers to calls, and the list after them. -/
def run (p : Packed) (calls : List Call) : List Answer × Packed := runWith step p calls

/-- The plain list of a packed one. -/
def plain (p : Packed) : Plain := ⟨p.width, p.toList⟩

theorem get_plain (p : Packed) (index : Nat) : p.plain.get index = p.get index := by
  unfold Plain.get get
  by_cases h : index < p.size
  · rw [dif_pos h, dif_pos (by rw [plain, length_toList]; exact h)]
    exact congrArg _ (getElem_toList p _)
  · rw [dif_neg h, dif_neg (by rw [plain, length_toList]; exact h), plain, length_toList]

theorem checkValue_eq (w : Width) (value : UInt8) :
    checkValue w value = if 2 ^ w.bits - 1 < value.toNat then
      .error (.valueTooLarge value (.ofNat (2 ^ w.bits - 1))) else .ok () := by
  have hmask : w.mask = .ofNat (2 ^ w.bits - 1) := by cases w <;> rfl
  rw [checkValue, ← hmask, ← mask_eq]
  rfl

/-- Writing fails first for an index beyond the list and then for a value that does not
    fit, and otherwise gives the list with that entry. -/
theorem set_eq (p : Packed) (index : Nat) (value : UInt8) :
    p.set index value =
      if h : index < p.size then
        if 2 ^ p.width.bits - 1 < value.toNat then
          .error (.valueTooLarge value (.ofNat (2 ^ p.width.bits - 1)))
        else .ok (p.put index h value)
      else .error (.outOfRange index p.size) := by
  unfold set
  split
  · rw [checkValue_eq]
    split <;> rfl
  · rfl

theorem set_plain (p : Packed) (index : Nat) (value : UInt8) :
    p.plain.set index value = (p.set index value).map plain := by
  rw [set_eq, Plain.set, plain, length_toList]
  by_cases h : index < p.size
  · rw [dif_pos h, if_neg (by omega)]
    by_cases hv : 2 ^ p.width.bits - 1 < value.toNat
    · rw [if_pos hv, if_pos hv]
      rfl
    · have hle : value ≤ p.width.mask := by rw [UInt8.le_iff_toNat_le, mask_eq]; omega
      rw [if_neg hv, if_neg hv, Except.map, plain, toList_put h hle]
      rfl
  · rw [dif_neg h, if_pos (by omega)]
    rfl

/-- One call on a packed list is that call on its plain list. -/
theorem plain_step (p : Packed) (call : Call) :
    p.plain.step call = ((p.step call).1, (p.step call).2.plain) := by
  cases call with
  | get index => rw [Plain.step, get_plain, step]
  | set index value =>
    rw [Plain.step, step, set_plain]
    cases p.set index value <;> rfl

/-- A call that fails leaves every byte as it was. -/
theorem step_of_error {p : Packed} {call : Call} {e : Error} (h : (p.step call).1 = .error e) :
    (p.step call).2 = p := by
  cases call with
  | get index => rfl
  | set index value =>
    rw [step] at h ⊢
    cases hs : p.set index value with
    | error e => rfl
    | ok q => rw [hs] at h; exact absurd h (by simp)

theorem step_set_of_size_le {p : Packed} {index : Nat} (h : p.size ≤ index) (value : UInt8) :
    p.step (.set index value) = (.error (.outOfRange index p.size), p) := by
  rw [step, set_eq, dif_neg (by omega)]

theorem step_set_of_mask_lt {p : Packed} {index : Nat} (h : index < p.size) {value : UInt8}
    (hv : 2 ^ p.width.bits - 1 < value.toNat) :
    p.step (.set index value) =
      (.error (.valueTooLarge value (.ofNat (2 ^ p.width.bits - 1))), p) := by
  rw [step, set_eq, dif_pos h, if_pos hv]

theorem step_set_of_le_mask {p : Packed} {index : Nat} (h : index < p.size) {value : UInt8}
    (hv : value.toNat ≤ 2 ^ p.width.bits - 1) :
    p.step (.set index value) = (.ok none, p.put index h value) := by
  rw [step, set_eq, dif_pos h, if_neg (by omega)]

/-- A write is answered without an error exactly if its index is in the list and its
    value fits. -/
theorem step_set_eq_ok_iff {p : Packed} {index : Nat} {value : UInt8} :
    (p.step (.set index value)).1 = .ok none ↔
      index < p.size ∧ value.toNat ≤ 2 ^ p.width.bits - 1 := by
  rcases Nat.lt_or_ge index p.size with h | h
  · rcases Nat.lt_or_ge (2 ^ p.width.bits - 1) value.toNat with hv | hv
    · rw [step_set_of_mask_lt h hv]
      exact iff_of_false (by simp) (by omega)
    · rw [step_set_of_le_mask h hv]
      exact iff_of_true rfl ⟨h, hv⟩
  · rw [step_set_of_size_le h]
    exact iff_of_false (by simp) (by omega)

/-- A write changes no entry but its own. -/
theorem step_set_frame {p : Packed} {index j : Nat} {value : UInt8} (hj : j ≠ index) :
    (p.step (.set index value)).2.toList[j]? = p.toList[j]? := by
  have h := congrArg (fun r : Answer × Plain => r.2.entries[j]?) (plain_step p (.set index value))
  refine h.symm.trans ?_
  rw [Plain.step, Plain.set]
  split_ifs
  · rfl
  · rfl
  · exact List.getElem?_set_ne hj.symm

/-- A packed list is a plain list of fixed length. Any sequence of calls gets the
    answers of the plain list and leaves the list that the calls leave of it. A write
    succeeds exactly if its index is in the list and its value fits, the index is
    looked at first, a call that fails changes nothing at all, and a write changes no
    entry but its own. Packed lists are equal exactly if their plain lists are. -/
theorem run_refines_plain (p : Packed) :
    (∀ calls, (p.run calls).1 = (p.plain.run calls).1 ∧
      (p.run calls).2.plain = (p.plain.run calls).2) ∧
    (∀ index value, (p.step (.set index value)).1 = .ok none ↔
      index < p.size ∧ value.toNat ≤ 2 ^ p.width.bits - 1) ∧
    (∀ index value, p.size ≤ index →
      (p.step (.set index value)).1 = .error (.outOfRange index p.size)) ∧
    (∀ index value, index < p.size → 2 ^ p.width.bits - 1 < value.toNat →
      (p.step (.set index value)).1 =
        .error (.valueTooLarge value (.ofNat (2 ^ p.width.bits - 1)))) ∧
    (∀ call e, (p.step call).1 = .error e → (p.step call).2 = p) ∧
    (∀ index value j, j ≠ index →
      (p.step (.set index value)).2.toList[j]? = p.toList[j]?) ∧
    (∀ q : Packed, p = q ↔ p.width = q.width ∧ p.toList = q.toList) := by
  refine ⟨fun calls => ?_, fun _ _ => step_set_eq_ok_iff, fun _ _ h => ?_, fun _ _ h hv => ?_,
    fun _ _ => step_of_error, fun _ _ _ => step_set_frame, fun _ => eq_iff_toList⟩
  · rw [run, Plain.run, runWith_map plain_step]
    exact ⟨rfl, rfl⟩
  · rw [step_set_of_size_le h]
  · rw [step_set_of_mask_lt h hv]

/-- Writes on a list of eight entries of one bit: past its end, of a value that does not
    fit, and of one that does. -/
theorem run_of_eight_refines_plain :
    let p : Packed := ⟨.one, [0xB9].toByteArray⟩
    (p.step (.set 8 2)).1 = .error (.outOfRange 8 8) ∧
    (p.step (.set 8 2)).2 = p ∧
    (p.step (.set 0 2)).1 = .error (.valueTooLarge 2 1) ∧
    (p.step (.set 0 0)).1 = .ok none ∧
    (p.step (.set 0 0)).2.toList[1]? = p.toList[1]? := by
  intro p
  obtain ⟨-, hok, hrange, hvalue, hfailed, hframe, -⟩ := run_refines_plain p
  have hsize : p.size = 8 := by decide
  have hpast := hrange 8 2 (Nat.le_of_eq hsize)
  rw [hsize] at hpast
  exact ⟨hpast, hfailed _ _ hpast, hvalue 0 2 (by omega) (by decide),
    (hok 0 0).2 ⟨by omega, by decide⟩, hframe 0 0 1 (by decide)⟩

end Packed

end StatusList
