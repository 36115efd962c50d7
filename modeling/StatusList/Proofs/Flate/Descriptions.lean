import StatusList.Proofs.Flate.Symbols

/-!
# The description of two codes

What is taken before the symbols of a block whose codes are described is the description of the
lengths of two codes, and the codes are those of these lengths (`takes_takeCodes`). The lengths
themselves are taken as symbols of one more code, of which one may stand for many lengths
(`takes_takeLengths`); the lengths of that code are taken as they are (`takes_given`).
-/

namespace StatusList.Flate

open BitSource (bitsOf)

variable {limit : Nat} {s : BitSource} {out : ByteArray}

/-! ## Lengths -/

/-- The lengths that have been read, if they are as many as there have to be. -/
def checkedLengths (count : Nat) (read : List Nat) : Decoder (List Nat) :=
  if read.length ≠ count then throw .corrupt else pure read.reverse

/-- Lengths are as many as there have to be, and bits stand for those that have not been read. -/
def Completes (count : Nat) (read : List Nat) (P : List Bool → List Nat → Prop) :
    List Bool → List Nat → Prop :=
  fun bits lengths => lengths.length = count ∧ ∃ new, P bits new ∧ lengths = read.reverse ++ new

theorem Takes.completes_congr {step : Decoder (List Nat)} {count : Nat} {read : List Nat}
    {P Q : List Bool → List Nat → Prop} (h : Takes step s (Completes count read P))
    (hPQ : ∀ bits new, P bits new ↔ Q bits new) : Takes step s (Completes count read Q) :=
  h.congr fun bits _ _ => and_congr_right fun _ => exists_congr fun new =>
    and_congr_left fun _ => hPQ bits new

theorem AreRuns.eq_nil {code : Code} {read : List Nat} {bits : List Bool}
    (h : AreRuns code read bits []) : bits = [] := by
  generalize hnew : ([] : List Nat) = new at h
  cases h with
  | nil => rfl
  | length => cases hnew
  | again | none | noneOfMany =>
    have hlength := congrArg List.length hnew
    simp only [List.length_nil, List.length_append, List.length_replicate] at hlength
    omega

/-- The lengths that bits stand for are those of short strings. -/
theorem AreRuns.lt {code : Code} {read new : List Nat} {bits : List Bool}
    (h : AreRuns code read bits new) (hread : ∀ l ∈ read, l < 16) : ∀ l ∈ read ++ new, l < 16 := by
  have hrun : ∀ (read : List Nat) (n l : Nat), (∀ l ∈ read, l < 16) → l < 16 →
      ∀ a ∈ read ++ List.replicate n l, a < 16 := fun read n l hread hl =>
    List.forall_mem_append.2 ⟨hread, fun a ha => List.eq_of_mem_replicate ha ▸ hl⟩
  induction h with
  | nil => rwa [List.append_nil]
  | @length read new l _ _ hl _ _ ih =>
    rw [← List.singleton_append, ← List.append_assoc]
    exact ih (hrun read 1 l hread hl)
  | again _ hlatest _ _ ih =>
    rw [← List.append_assoc]
    exact ih (hrun _ _ _ hread (hread _ (List.mem_of_getLast? hlatest)))
  | none | noneOfMany =>
    rename_i ih
    rw [← List.append_assoc]
    exact ih (hrun _ _ _ hread (by decide))

/-- When as many lengths have been read as there have to be, no more bits are taken. -/
theorem takes_checkedLengths {code : Code} {count : Nat} {read : List Nat}
    (h : count ≤ read.length) :
    Takes (checkedLengths count read) s (Completes count read (AreRuns code read.reverse)) := by
  unfold checkedLengths
  by_cases heq : read.length = count
  · rw [if_neg (not_not_intro heq)]
    refine (Takes.pure read.reverse).congr fun bits lengths _ => ?_
    constructor
    · rintro ⟨rfl, rfl⟩
      exact ⟨by rwa [List.length_reverse], [], .nil _, (List.append_nil _).symm⟩
    · rintro ⟨hlength, new, hruns, rfl⟩
      rw [List.length_append, List.length_reverse] at hlength
      obtain rfl : new = [] := List.length_eq_zero_iff.1 (by omega)
      exact ⟨hruns.eq_nil, List.append_nil _⟩
  · rw [if_pos heq]
    refine (Takes.throw .corrupt).congr fun bits lengths _ => (iff_false_intro ?_).symm
    rintro ⟨hlength, new, -, rfl⟩
    rw [List.length_append, List.length_reverse] at hlength
    omega

/-- Bits come after a symbol of the code of lengths and stand with it for the lengths `new`. -/
inductive RunsFollow (code : Code) (read : List Nat) :
    (symbol : Nat) → (bits : List Bool) → (new : List Nat) → Prop where
  | length {l : Nat} {bits : List Bool} {new : List Nat} (hl : l < 16)
      (hrest : AreRuns code (read ++ [l]) bits new) : RunsFollow code read l bits (l :: new)
  | again {latest more : Nat} {bits : List Bool} {new : List Nat}
      (hlatest : read.getLast? = some latest) (hmore : more < 2 ^ 2)
      (hrest : AreRuns code (read ++ .replicate (3 + more) latest) bits new) :
      RunsFollow code read 16 (lowestFirst 2 more ++ bits) (.replicate (3 + more) latest ++ new)
  | none {more : Nat} {bits : List Bool} {new : List Nat} (hmore : more < 2 ^ 3)
      (hrest : AreRuns code (read ++ .replicate (3 + more) 0) bits new) :
      RunsFollow code read 17 (lowestFirst 3 more ++ bits) (.replicate (3 + more) 0 ++ new)
  | noneOfMany {more : Nat} {bits : List Bool} {new : List Nat} (hmore : more < 2 ^ 7)
      (hrest : AreRuns code (read ++ .replicate (11 + more) 0) bits new) :
      RunsFollow code read 18 (lowestFirst 7 more ++ bits) (.replicate (11 + more) 0 ++ new)

theorem RunsFollow.ne_nil {code : Code} {read new : List Nat} {symbol : Nat} {bits : List Bool}
    (h : RunsFollow code read symbol bits new) : new ≠ [] := by
  cases h with
  | length => exact List.cons_ne_nil _ _
  | again | none | noneOfMany =>
    intro hnil
    have hlength := congrArg List.length hnil
    simp only [List.length_nil, List.length_append, List.length_replicate] at hlength
    omega

/-- Lengths that are there come from a symbol and what follows it. -/
theorem areRuns_iff {code : Code} {read new : List Nat} {bits : List Bool} (hnew : new ≠ []) :
    AreRuns code read bits new ↔ ∃ symbol string rest, bits = string ++ rest ∧
      code symbol string ∧ RunsFollow code read symbol rest new := by
  constructor
  · intro h
    cases h with
    | nil => exact absurd rfl hnew
    | length hl h hrest => exact ⟨_, _, _, rfl, h, .length hl hrest⟩
    | again h hlatest hmore hrest => exact ⟨_, _, _, rfl, h, .again hlatest hmore hrest⟩
    | none h hmore hrest => exact ⟨_, _, _, rfl, h, .none hmore hrest⟩
    | noneOfMany h hmore hrest => exact ⟨_, _, _, rfl, h, .noneOfMany hmore hrest⟩
  · rintro ⟨symbol, string, rest, rfl, h, hfollow⟩
    cases hfollow with
    | length hl hrest => exact .length hl h hrest
    | again hlatest hmore hrest => exact .again h hlatest hmore hrest
    | none hmore hrest => exact .none h hmore hrest
    | noneOfMany hmore hrest => exact .noneOfMany h hmore hrest

/-- If lengths have not been read, the bits for them begin with a symbol. -/
theorem completes_areRuns_iff {code : Code} {count : Nat} {read lengths : List Nat}
    {bits : List Bool} (hread : read.length < count) :
    Completes count read (AreRuns code read.reverse) bits lengths ↔ ∃ symbol string rest,
      bits = string ++ rest ∧ code symbol string ∧
        Completes count read (RunsFollow code read.reverse symbol) rest lengths := by
  constructor
  · rintro ⟨hcount, new, h, rfl⟩
    have hnew : new ≠ [] := by
      rintro rfl
      rw [List.append_nil, List.length_reverse] at hcount
      omega
    obtain ⟨symbol, string, rest, rfl, hsymbol, hfollow⟩ := (areRuns_iff hnew).1 h
    exact ⟨symbol, string, rest, rfl, hsymbol, hcount, new, hfollow, rfl⟩
  · rintro ⟨symbol, string, rest, rfl, hsymbol, hcount, new, hfollow, rfl⟩
    exact ⟨hcount, new, (areRuns_iff hfollow.ne_nil).2 ⟨symbol, string, rest, rfl, hsymbol,
      hfollow⟩, rfl⟩

/-- Bits tell how many times more than `least` the length `l` comes, and what they end with stands
    for the lengths after it. -/
def IsRun (code : Code) (read : List Nat) (k least l : Nat) (bits : List Bool) (new : List Nat) :
    Prop :=
  ∃ more rest new', more < 2 ^ k ∧ bits = lowestFirst k more ++ rest ∧
    AreRuns code (read ++ .replicate (least + more) l) rest new' ∧
    new = .replicate (least + more) l ++ new'

section

variable {code : Code} {read new : List Nat} {symbol : Nat} {bits : List Bool}

theorem runsFollow_iff_of_lt (hl : symbol < 16) : RunsFollow code read symbol bits new ↔
    ∃ new', AreRuns code (read ++ [symbol]) bits new' ∧ new = symbol :: new' := by
  constructor
  · intro h
    cases h with
    | length _ hrest => exact ⟨_, hrest, rfl⟩
    | again | none | noneOfMany => exact absurd hl (by decide)
  · rintro ⟨new', hrest, rfl⟩
    exact .length hl hrest

theorem runsFollow_again_iff : RunsFollow code read 16 bits new ↔
    ∃ latest, read.getLast? = some latest ∧ IsRun code read 2 3 latest bits new := by
  constructor
  · intro h
    cases h with
    | length hl => exact absurd hl (Nat.lt_irrefl 16)
    | again hlatest hmore hrest => exact ⟨_, hlatest, _, _, _, hmore, rfl, hrest, rfl⟩
  · rintro ⟨latest, hlatest, more, rest, new', hmore, rfl, hrest, rfl⟩
    exact .again hlatest hmore hrest

theorem runsFollow_none_iff :
    RunsFollow code read 17 bits new ↔ IsRun code read 3 3 0 bits new := by
  constructor
  · intro h
    cases h with
    | length hl => exact absurd hl (by decide)
    | none hmore hrest => exact ⟨_, _, _, hmore, rfl, hrest, rfl⟩
  · rintro ⟨more, rest, new', hmore, rfl, hrest, rfl⟩
    exact .none hmore hrest

theorem runsFollow_noneOfMany_iff :
    RunsFollow code read 18 bits new ↔ IsRun code read 7 11 0 bits new := by
  constructor
  · intro h
    cases h with
    | length hl => exact absurd hl (by decide)
    | noneOfMany hmore hrest => exact ⟨_, _, _, hmore, rfl, hrest, rfl⟩
  · rintro ⟨more, rest, new', hmore, rfl, hrest, rfl⟩
    exact .noneOfMany hmore hrest

end

/-- A run of one length takes the number of times that it comes, and what is read after it. -/
theorem takes_run {code : Tree} {count fuel k least l : Nat} {read : List Nat}
    (hnext : ∀ more (s : BitSource),
      Takes (takeLengths code count fuel (.replicate (least + more) l ++ read) >>=
        checkedLengths count) s (Completes count (.replicate (least + more) l ++ read)
          (AreRuns code.strings (List.replicate (least + more) l ++ read).reverse))) :
    Takes ((takeBits k >>= fun more =>
        takeLengths code count fuel (.replicate (least + more) l ++ read)) >>=
          checkedLengths count) s
      (Completes count read (IsRun code.strings read.reverse k least l)) := by
  have hreverse : ∀ more, (List.replicate (least + more) l ++ read).reverse =
      read.reverse ++ .replicate (least + more) l := fun more => by
    rw [List.reverse_append, List.reverse_replicate]
  rw [bind_assoc]
  refine ((takes_takeBits k).bind fun more front _ _ => hnext more _).congr fun bits lengths _ => ?_
  constructor
  · rintro ⟨more, _, rest, rfl, ⟨hmore, rfl⟩, hcount, new', hrest, rfl⟩
    rw [hreverse] at hrest hcount ⊢
    exact ⟨hcount, _, ⟨more, rest, new', hmore, rfl, hrest, rfl⟩, List.append_assoc _ _ _⟩
  · rintro ⟨hcount, _, ⟨more, rest, new', hmore, rfl, hrest, rfl⟩, rfl⟩
    refine ⟨more, _, rest, rfl, ⟨hmore, rfl⟩, hcount, new', ?_, ?_⟩
    · rwa [hreverse]
    · rw [hreverse, List.append_assoc]

/-- A length that comes once takes no more than what is read after it. -/
theorem takes_once {code : Tree} {count fuel symbol : Nat} {read : List Nat} (hl : symbol < 16)
    (hnext : Takes (takeLengths code count fuel (symbol :: read) >>= checkedLengths count) s
      (Completes count (symbol :: read) (AreRuns code.strings (symbol :: read).reverse))) :
    Takes (takeLengths code count fuel (symbol :: read) >>= checkedLengths count) s
      (Completes count read (RunsFollow code.strings read.reverse symbol)) := by
  refine hnext.congr fun bits lengths _ => and_congr_right fun _ => ?_
  simp only [runsFollow_iff_of_lt hl, List.reverse_cons]
  constructor
  · rintro ⟨new, hrest, rfl⟩
    exact ⟨symbol :: new, ⟨new, hrest, rfl⟩, (List.append_cons _ _ _).symm⟩
  · rintro ⟨_, ⟨new, hrest, rfl⟩, rfl⟩
    exact ⟨new, hrest, List.append_cons _ _ _⟩

/-- What the lengths take of which there have to be `count`, after those that have been read. -/
theorem takes_takeLengths {code : Tree} {count fuel : Nat} {read : List Nat}
    (hcode : ∀ symbol bits, code.strings symbol bits → symbol < 19)
    (hfuel : count ≤ read.length + fuel) :
    Takes (takeLengths code count fuel read >>= checkedLengths count) s
      (Completes count read (AreRuns code.strings read.reverse)) := by
  induction fuel generalizing s read with
  | zero =>
    rw [Nat.add_zero] at hfuel
    rw [takeLengths, if_pos hfuel, pure_bind]
    exact takes_checkedLengths hfuel
  | succ fuel ih =>
    by_cases hread : count ≤ read.length
    · rw [takeLengths, if_pos hread, pure_bind]
      exact takes_checkedLengths hread
    · have hrun : ∀ (k least l : Nat) (s : BitSource), 0 < least →
          Takes ((takeBits k >>= fun more =>
              takeLengths code count fuel (.replicate (least + more) l ++ read)) >>=
                checkedLengths count) s
            (Completes count read (IsRun code.strings read.reverse k least l)) := by
        refine fun k least l s hleast => takes_run fun more s => ih ?_
        rw [List.length_append, List.length_replicate]
        omega
      rw [takeLengths, if_neg hread, bind_assoc]
      refine ((takes_decode code).bind (R := fun _ symbol =>
        Completes count read (RunsFollow code.strings read.reverse symbol))
        fun symbol string _ hsymbol => ?_).congr fun bits lengths _ =>
          (completes_areRuns_iff (Nat.lt_of_not_le hread)).symm
      have hlt := hcode symbol string hsymbol
      split
      · refine (Takes.throw .corrupt).congr fun bits lengths _ => (iff_false_intro ?_).symm
        rintro ⟨-, new, h, -⟩
        obtain ⟨latest, hlatest, -⟩ := runsFollow_again_iff.1 h
        cases hlatest
      · next latest tail =>
        refine (hrun 2 3 latest _ (by decide)).completes_congr fun bits new => ?_
        rw [runsFollow_again_iff, List.getLast?_reverse]
        simp only [List.head?_cons, Option.some.injEq, exists_eq_left']
      · exact (hrun 3 3 0 _ (by decide)).completes_congr fun bits new => runsFollow_none_iff.symm
      · exact (hrun 7 11 0 _ (by decide)).completes_congr fun bits new =>
          runsFollow_noneOfMany_iff.symm
      · next h17 h18 h16 h16' =>
        have hne : symbol ≠ 16 ∧ symbol ≠ 17 ∧ symbol ≠ 18 := by
          refine ⟨fun heq => ?_, h17, h18⟩
          cases read with
          | nil => exact h16 heq rfl
          | cons latest tail => exact h16' latest tail heq rfl
        refine takes_once (by omega) (ih ?_)
        rw [List.length_cons]
        omega

/-- The lengths of the code of lengths are fields of three bits. -/
theorem takes_given (symbols : List Nat) :
    Takes (symbols.mapM fun symbol => return (symbol, ← takeBits 3)) s fun bits pairs =>
      ∃ given : List Nat, given.length = symbols.length ∧ (∀ l ∈ given, l < 2 ^ 3) ∧
        bits = given.flatMap (lowestFirst 3) ∧ pairs = symbols.zip given := by
  induction symbols generalizing s with
  | nil =>
    refine (Takes.pure []).congr fun bits pairs _ => ?_
    constructor
    · rintro ⟨rfl, rfl⟩
      exact ⟨[], rfl, by simp, rfl, rfl⟩
    · rintro ⟨given, hgiven, -, rfl, rfl⟩
      rw [List.length_eq_zero_iff.1 hgiven]
      exact ⟨rfl, rfl⟩
  | cons symbol symbols ih =>
    rw [List.mapM_cons, bind_assoc]
    refine ((takes_takeBits 3).bind fun l _ _ _ => ih.bind fun pairs _ _ _ =>
      Takes.pure ((symbol, l) :: pairs)).congr fun bits pairs _ => ?_
    constructor
    · rintro ⟨l, _, _, rfl, ⟨hl, rfl⟩, _, _, _, rfl, ⟨given, hlength, hgiven, rfl, rfl⟩, rfl, rfl⟩
      refine ⟨l :: given, congrArg (· + 1) hlength, List.forall_mem_cons.2 ⟨hl, hgiven⟩, ?_, rfl⟩
      rw [List.append_nil, List.flatMap_cons]
    · rintro ⟨given, hlength, hgiven, rfl, rfl⟩
      obtain ⟨l, given, rfl⟩ := List.exists_cons_of_length_eq_add_one hlength
      obtain ⟨hl, hgiven⟩ := List.forall_mem_cons.1 hgiven
      exact ⟨l, _, given.flatMap (lowestFirst 3), rfl, ⟨hl, rfl⟩, _, _, [],
        (List.append_nil _).symm, ⟨given, Nat.succ.inj hlength, hgiven, rfl, rfl⟩, rfl, rfl⟩

/-- What is looked up among pairs is where its place is. -/
theorem getD_lookup_zip (symbols given : List Nat) (hle : given.length ≤ symbols.length)
    (symbol : Nat) :
    ((symbols.zip given).lookup symbol).getD 0 = given.getD (symbols.idxOf symbol) 0 := by
  induction symbols generalizing given with
  | nil =>
    rw [List.length_eq_zero_iff.1 (Nat.le_zero.1 hle)]
    rfl
  | cons first symbols ih =>
    cases given with
    | nil => rfl
    | cons l given =>
      rw [List.zip_cons_cons, List.lookup_cons, List.idxOf_cons]
      by_cases h : symbol = first
      · simp [h]
      · have hne : (symbol == first) = false := by simpa using h
        have hne' : (first == symbol) = false := by simpa using Ne.symm h
        simp only [hne, hne', cond_false, List.getD_cons_succ]
        exact ih given (Nat.le_of_succ_le_succ hle)

/-- The bits of a description that come after the lengths of the code of lengths. -/
def takeCodesIn (literals distances : Nat) (lengths : List Nat) : Decoder Codes := do
  if !Tree.isComplete lengths then
    throw .corrupt
  let some code := Tree.ofLengths? lengths | throw .corrupt
  let read ← takeLengths code (literals + distances) (literals + distances) [] >>=
    checkedLengths (literals + distances)
  Codes.ofLengths (read.take literals) (read.drop literals)

/-- A description consists of three numbers, the lengths of the code of lengths, and the lengths in
    that code. -/
theorem takeCodes_eq : takeCodes = (do
    let literals ← takeBits 5
    let distances ← takeBits 5
    let given ← takeBits 4
    if 286 < 257 + literals ∨ 30 < 1 + distances then
      throw .corrupt
    let pairs ← (lengthOrder.take (4 + given)).mapM fun symbol => return (symbol, ← takeBits 3)
    takeCodesIn (257 + literals) (1 + distances)
      ((List.range 19).map fun symbol => (pairs.lookup symbol).getD 0)) := by
  unfold takeCodes
  refine bind_congr fun literals => bind_congr fun distances => bind_congr fun given => ?_
  refine if_congr Iff.rfl rfl (bind_congr fun pairs => ?_)
  unfold takeCodesIn
  refine if_congr Iff.rfl rfl ?_
  change (match Tree.ofLengths? _ with | some code => _ | _ => _) = _
  split
  · rw [bind_assoc]
    refine bind_congr fun read => ?_
    unfold checkedLengths
    split
    · rfl
    · rw [pure_bind]
  · rfl

theorem takes_takeCodesIn {literals distances : Nat} {lengths : List Nat}
    (hlength : lengths.length = 19) (hshort : ∀ l ∈ lengths, l ≤ 15) :
    Takes (takeCodesIn literals distances lengths) s fun bits codes => IsComplete lengths ∧
      ∃ ls ds : List Nat, ls.length = literals ∧ ds.length = distances ∧
        AreRuns (IsString lengths) [] bits (ls ++ ds) ∧ Codes.ofLengths ls ds = .ok codes := by
  rw [takeCodesIn]
  by_cases hcomplete : Tree.isComplete lengths = true
  · have hcode : IsComplete lengths := Tree.isComplete_iff.1 hcomplete
    obtain ⟨code, hof⟩ := Tree.exists_ofLengths? (.inl hcode)
    have hstrings := Tree.strings_ofLengths? hshort hof
    have hsymbols : ∀ symbol bits, code.strings symbol bits → symbol < 19 := by
      rw [hstrings, ← hlength]
      exact fun symbol bits h => lt_length_of_lengthOf_pos h.1
    simp only [hcomplete, hof, Bool.not_true, Bool.false_eq_true, if_false]
    refine ((takes_takeLengths hsymbols (Nat.le_add_left _ _)).bind fun read front _ _ =>
      Takes.lift _).congr fun bits codes _ => ?_
    rw [hstrings]
    constructor
    · rintro ⟨read, front, _, rfl, ⟨hcount, new, hruns, rfl⟩, rfl, hcodes⟩
      refine ⟨hcode, _, _, ?_, ?_, ?_, hcodes⟩
      · rw [List.length_take, hcount]
        omega
      · rw [List.length_drop, hcount]
        omega
      · rw [List.append_nil, List.take_append_drop]
        exact hruns
    · rintro ⟨-, ls, ds, rfl, rfl, hruns, hcodes⟩
      refine ⟨ls ++ ds, bits, [], (List.append_nil _).symm,
        ⟨List.length_append, ls ++ ds, hruns, rfl⟩, rfl, ?_⟩
      rwa [List.take_left, List.drop_left]
  · have hincomplete : ¬IsComplete lengths := fun h => hcomplete (Tree.isComplete_iff.2 h)
    simp only [hcomplete, Bool.not_false, if_true]
    exact (Takes.throw .corrupt).congr fun bits codes _ =>
      iff_of_false id fun h => hincomplete h.1

theorem le_of_mem_lengthsOfGiven {given : List Nat} (h : ∀ l ∈ given, l < 2 ^ 3) :
    ∀ l ∈ lengthsOfGiven given, l ≤ 15 := by
  intro l hl
  obtain ⟨symbol, -, rfl⟩ := List.mem_map.1 hl
  rw [List.getD_eq_getElem?_getD]
  cases hget : given[lengthOrder.idxOf symbol]? with
  | none => exact Nat.zero_le 15
  | some l => exact (Nat.le_of_lt (h l (List.mem_of_getElem? hget))).trans (by decide)

/-- The lengths that are given come in their order, and those that are not are zero. -/
theorem map_lookup_eq {given : List Nat} (hgiven : given.length ≤ 19) :
    (List.range 19).map (fun symbol =>
      (((lengthOrder.take given.length).zip given).lookup symbol).getD 0) =
        lengthsOfGiven given := by
  have hzip : (lengthOrder.take given.length).zip given = lengthOrder.zip given := by
    have hmin : min lengthOrder.length given.length = given.length := Nat.min_eq_right hgiven
    rw [@List.zip_eq_zip_take_min _ _ lengthOrder given, hmin, List.take_length]
  rw [hzip]
  exact List.map_congr_left fun symbol _ => getD_lookup_zip lengthOrder given hgiven symbol

/-- The lengths of the code of lengths are taken, and the codes that come after them. -/
theorem takes_takeGiven (literals distances : Nat) {n : Nat} (hn : n ≤ 19) :
    Takes ((lengthOrder.take n).mapM (fun symbol => return (symbol, ← takeBits 3)) >>= fun pairs =>
        takeCodesIn literals distances
          ((List.range 19).map fun symbol => (pairs.lookup symbol).getD 0)) s
      fun bits codes => ∃ given runs, bits = given.flatMap (lowestFirst 3) ++ runs ∧
        given.length = n ∧ (∀ l ∈ given, l < 2 ^ 3) ∧ IsComplete (lengthsOfGiven given) ∧
        ∃ ls ds : List Nat, ls.length = literals ∧ ds.length = distances ∧
          AreRuns (IsString (lengthsOfGiven given)) [] runs (ls ++ ds) ∧
          Codes.ofLengths ls ds = .ok codes := by
  have htake : (lengthOrder.take n).length = n := List.length_take_of_le hn
  refine ((takes_given _).bind fun pairs _ _ hpairs => takes_takeCodesIn (by simp) ?_).congr
    fun bits codes _ => ?_
  · obtain ⟨given, hlength, hgiven, -, rfl⟩ := hpairs
    rw [htake] at hlength
    subst hlength
    rw [map_lookup_eq hn]
    exact le_of_mem_lengthsOfGiven hgiven
  · constructor
    · rintro ⟨_, _, runs, rfl, ⟨given, hlength, hgiven, rfl, rfl⟩, hcodes⟩
      rw [htake] at hlength
      subst hlength
      rw [map_lookup_eq hn] at hcodes
      exact ⟨given, runs, rfl, rfl, hgiven, hcodes⟩
    · rintro ⟨given, runs, rfl, rfl, hgiven, hcodes⟩
      rw [← map_lookup_eq hn] at hcodes
      exact ⟨_, _, runs, rfl, ⟨given, htake.symm, hgiven, rfl, rfl⟩, hcodes⟩

/-- The description of two codes is taken, and gives the codes. -/
theorem takes_takeCodes : Takes takeCodes s fun bits codes => ∃ literals distances,
    Describes bits literals distances ∧ Codes.ofLengths literals distances = .ok codes := by
  rw [takeCodes_eq]
  refine ((takes_takeBits 5).bind fun literals _ _ _ => (takes_takeBits 5).bind
    fun distances _ _ _ => (takes_takeBits 4).bind fun given _ _ hgiven =>
    takes_guard .corrupt fun _ =>
      takes_takeGiven (257 + literals) (1 + distances) (by omega)).congr fun bits codes _ => ?_
  constructor
  · rintro ⟨nl, _, _, rfl, ⟨hnl, rfl⟩, nd, _, _, rfl, ⟨hnd, rfl⟩, ng, _, _, rfl, ⟨hng, rfl⟩, h⟩
    obtain ⟨hfew, given, runs, rfl, hlength, hgiven, hcomplete, ls, ds, hls, hds, hruns, hcodes⟩ :=
      h
    refine ⟨ls, ds, .intro (by omega) (by omega) ⟨by omega, by omega, hgiven⟩ hcomplete hruns ?_,
      hcodes⟩
    rw [hls, hds, hlength, Nat.add_sub_cancel_left, Nat.add_sub_cancel_left,
      Nat.add_sub_cancel_left]
  · rintro ⟨ls, ds, ⟨hls, hds, ⟨hleast, hmost, hgiven⟩, hcomplete, hruns, rfl⟩, hcodes⟩
    refine ⟨_, _, _, rfl, ⟨by omega, rfl⟩, _, _, _, rfl, ⟨by omega, rfl⟩, _, _, _, rfl,
      ⟨by omega, rfl⟩, by omega, ?_⟩
    exact ⟨_, _, rfl, by omega, hgiven, hcomplete, ls, ds, by omega, by omega, hruns, hcodes⟩

/-- The lengths of a description are those of short strings. -/
theorem Describes.le {bits : List Bool} {literals distances : List Nat}
    (h : Describes bits literals distances) :
    (∀ l ∈ literals, l ≤ 15) ∧ ∀ l ∈ distances, l ≤ 15 := by
  obtain ⟨-, -, -, -, hruns, -⟩ := h
  have hlt := hruns.lt (List.forall_mem_nil _)
  rw [List.nil_append, List.forall_mem_append] at hlt
  exact ⟨fun l hl => Nat.le_of_lt_succ (hlt.1 l hl), fun l hl => Nat.le_of_lt_succ (hlt.2 l hl)⟩

end StatusList.Flate
