import Mathlib
import StatusList.Flate.Huffman
import StatusList.Proofs.BitStrings

/-!
# Prefix codes of lengths

The lengths of a code give each symbol its string of bits, by the canonical rule: shorter strings
come before longer ones, and of strings of one length those of smaller symbols come first. Each
string takes up a *share* of all strings of fifteen bits, the ones that begin with it, and a
string begins where the shares of all strings before it end (`codeOf`, `stringOf`). So the shares
of two strings do not meet, and none is the beginning of another (`apart_stringOf`), as long as
all of them together make up no more than the whole.

The tree of a code is put together by inserting one string after the other. In it, the strings of
the symbols are the paths to them (`leads_ofLengths?`).
-/

namespace StatusList.Flate

/-! ## The strings of a code -/

/-- The length of the string of a symbol in the code of `lengths`, zero if it has none. -/
def lengthOf (lengths : List Nat) (symbol : Nat) : Nat := lengths.getD symbol 0

/-- The string of a symbol comes before that of another: it is shorter, or as long and of a
    smaller symbol. -/
def ComesBefore (lengths : List Nat) (a b : Nat) : Prop :=
  0 < lengthOf lengths a ∧ (lengthOf lengths a < lengthOf lengths b ∨
    lengthOf lengths a = lengthOf lengths b ∧ a < b)

instance (lengths : List Nat) (a b : Nat) : Decidable (ComesBefore lengths a b) :=
  inferInstanceAs (Decidable (_ ∧ _))

/-- The number of a string among the strings of its length: those come first that begin with a
    string that comes before it. -/
def codeOf (lengths : List Nat) (symbol : Nat) : Nat :=
  ∑ a ∈ Finset.range lengths.length with ComesBefore lengths a symbol,
    2 ^ (lengthOf lengths symbol - lengthOf lengths a)

/-- The string of a symbol. -/
def stringOf (lengths : List Nat) (symbol : Nat) : List Bool :=
  highestFirst (lengthOf lengths symbol) (codeOf lengths symbol)

/-- Bits are the string that a symbol has. -/
def IsString (lengths : List Nat) (symbol : Nat) (bits : List Bool) : Prop :=
  0 < lengthOf lengths symbol ∧ bits = stringOf lengths symbol

/-- The number of strings of fifteen bits that begin with the strings of the symbols. -/
def share (lengths : List Nat) : Nat :=
  (lengths.map fun l => if l = 0 then 0 else 2 ^ (15 - l)).sum

/-- The strings of the symbols make up the whole: there is no room for another one. -/
def IsComplete (lengths : List Nat) : Prop := share lengths = 2 ^ 15

/-- Lengths are those of a code: it is complete, or it has no strings, or a single one of one
    bit. -/
def IsCode (lengths : List Nat) : Prop :=
  IsComplete lengths ∨ lengths.filter (· ≠ 0) = [] ∨ lengths.filter (· ≠ 0) = [1]

variable {lengths : List Nat} {a b symbol : Nat}

/-! ## Shares -/

theorem lt_length_of_lengthOf_pos (h : 0 < lengthOf lengths symbol) : symbol < lengths.length := by
  by_contra hout
  rw [lengthOf, List.getD_eq_default _ _ (Nat.le_of_not_lt hout)] at h
  exact Nat.lt_irrefl 0 h

theorem lengthOf_le (hshort : ∀ l ∈ lengths, l ≤ 15) (symbol : Nat) :
    lengthOf lengths symbol ≤ 15 := by
  rcases Nat.lt_or_ge symbol lengths.length with h | h
  · rw [lengthOf, List.getD_eq_getElem _ _ h]
    exact hshort _ (List.getElem_mem h)
  · rw [lengthOf, List.getD_eq_default _ _ h]
    exact Nat.zero_le _

theorem sum_map_eq_sum_lengthOf (f : Nat → Nat) (lengths : List Nat) :
    (lengths.map f).sum = ∑ a ∈ Finset.range lengths.length, f (lengthOf lengths a) := by
  rw [Finset.sum_range, ← Fin.sum_univ_fun_getElem]
  exact Finset.sum_congr rfl fun i _ => by rw [lengthOf, List.getD_eq_getElem _ _ i.2]

theorem used_eq_share (lengths : List Nat) : Tree.used lengths = share lengths := by
  have hfold : ∀ total, lengths.foldl
      (fun total l => if l = 0 then total else total + 1 <<< (maxCodeLength - l)) total =
        total + share lengths := by
    induction lengths with
    | nil => intro total; rfl
    | cons l lengths ih =>
      intro total
      rw [List.foldl_cons, ih, share, share, List.map_cons, List.sum_cons]
      split
      · rw [Nat.zero_add]
      · rw [Nat.one_shiftLeft, Nat.add_assoc]
        rfl
  rw [Tree.used, hfold, Nat.zero_add]

/-- Where the share of a string begins. -/
def startOf (lengths : List Nat) (symbol : Nat) : Nat :=
  ∑ a ∈ Finset.range lengths.length with ComesBefore lengths a symbol, 2 ^ (15 - lengthOf lengths a)

theorem codeOf_mul (hshort : ∀ l ∈ lengths, l ≤ 15) (symbol : Nat) :
    codeOf lengths symbol * 2 ^ (15 - lengthOf lengths symbol) = startOf lengths symbol := by
  rw [codeOf, startOf, Finset.sum_mul]
  refine Finset.sum_congr rfl fun a ha => ?_
  have hle : lengthOf lengths a ≤ lengthOf lengths symbol := by
    rcases (Finset.mem_filter.1 ha).2.2 with hlt | ⟨heq, -⟩
    · exact Nat.le_of_lt hlt
    · exact Nat.le_of_eq heq
  have hmost := lengthOf_le hshort symbol
  rw [← pow_add]
  congr 1
  omega

/-- A share ends before the share of a later string begins. -/
theorem startOf_add_le_of_comesBefore (h : ComesBefore lengths a b) :
    startOf lengths a + 2 ^ (15 - lengthOf lengths a) ≤ startOf lengths b := by
  have hnot : a ∉ {x ∈ Finset.range lengths.length | ComesBefore lengths x a} := by
    rintro hmem
    rcases (Finset.mem_filter.1 hmem).2.2 with hlt | ⟨-, hlt⟩
    · exact Nat.lt_irrefl _ hlt
    · exact Nat.lt_irrefl _ hlt
  rw [startOf, startOf, Nat.add_comm,
    ← Finset.sum_insert (f := fun x => 2 ^ (15 - lengthOf lengths x)) hnot]
  refine Finset.sum_le_sum_of_subset fun x hx => ?_
  rcases Finset.mem_insert.1 hx with rfl | hx
  · exact Finset.mem_filter.2 ⟨Finset.mem_range.2 (lt_length_of_lengthOf_pos h.1), h⟩
  · obtain ⟨hrange, hpos, hbefore⟩ := Finset.mem_filter.1 hx
    refine Finset.mem_filter.2 ⟨hrange, hpos, ?_⟩
    have := h.2
    omega

/-- No share goes beyond the whole. -/
theorem startOf_add_le_share (h : 0 < lengthOf lengths symbol) :
    startOf lengths symbol + 2 ^ (15 - lengthOf lengths symbol) ≤ share lengths := by
  have hnot : symbol ∉ {x ∈ Finset.range lengths.length | ComesBefore lengths x symbol} := by
    rintro hmem
    rcases (Finset.mem_filter.1 hmem).2.2 with hlt | ⟨-, hlt⟩
    · exact Nat.lt_irrefl _ hlt
    · exact Nat.lt_irrefl _ hlt
  rw [share, sum_map_eq_sum_lengthOf, startOf, Nat.add_comm,
    ← Finset.sum_insert (f := fun x => 2 ^ (15 - lengthOf lengths x)) hnot]
  have hsum : ∀ x ∈ insert symbol
      {x ∈ Finset.range lengths.length | ComesBefore lengths x symbol},
      2 ^ (15 - lengthOf lengths x) =
        if lengthOf lengths x = 0 then 0 else 2 ^ (15 - lengthOf lengths x) := by
    intro x hx
    have hpos : 0 < lengthOf lengths x := by
      rcases Finset.mem_insert.1 hx with rfl | hx
      · exact h
      · exact (Finset.mem_filter.1 hx).2.1
    rw [if_neg (Nat.ne_of_gt hpos)]
  rw [Finset.sum_congr rfl hsum]
  refine Finset.sum_le_sum_of_subset fun x hx => ?_
  rcases Finset.mem_insert.1 hx with rfl | hx
  · exact Finset.mem_range.2 (lt_length_of_lengthOf_pos h)
  · exact (Finset.mem_filter.1 hx).1

/-- Strings are in an order. -/
theorem comesBefore_or (ha : 0 < lengthOf lengths a) (hb : 0 < lengthOf lengths b) (hne : a ≠ b) :
    ComesBefore lengths a b ∨ ComesBefore lengths b a := by
  unfold ComesBefore
  omega

/-! ## No string begins another -/

/-- Neither of two bit strings is the beginning of the other. -/
def Apart (bits bits' : List Bool) : Prop := ¬bits <+: bits' ∧ ¬bits' <+: bits

/-- Strings have room among those of their length. -/
theorem codeOf_lt (hshort : ∀ l ∈ lengths, l ≤ 15) (hshare : share lengths ≤ 2 ^ 15)
    (h : 0 < lengthOf lengths symbol) : codeOf lengths symbol < 2 ^ lengthOf lengths symbol := by
  have hend := (startOf_add_le_share h).trans hshare
  have hwhole : 2 ^ 15 = 2 ^ lengthOf lengths symbol * 2 ^ (15 - lengthOf lengths symbol) := by
    rw [← pow_add, Nat.add_sub_cancel' (lengthOf_le hshort symbol)]
  rw [← codeOf_mul hshort, ← Nat.succ_mul, hwhole] at hend
  exact Nat.le_of_mul_le_mul_right hend (Nat.two_pow_pos _)

/-- What begins with a string has its number among those of the share of the string. -/
theorem startOf_le_of_prefix (hshort : ∀ l ∈ lengths, l ≤ 15) (hshare : share lengths ≤ 2 ^ 15)
    (ha : 0 < lengthOf lengths a) (hb : 0 < lengthOf lengths b)
    (h : stringOf lengths a <+: stringOf lengths b) :
    startOf lengths a ≤ startOf lengths b ∧
      startOf lengths b < startOf lengths a + 2 ^ (15 - lengthOf lengths a) := by
  have hle : lengthOf lengths a ≤ lengthOf lengths b := by
    simpa [stringOf] using h.length_le
  have hmost := lengthOf_le hshort b
  obtain ⟨d, hd⟩ := Nat.exists_eq_add_of_le hle
  obtain ⟨rest, hrest⟩ := h
  rw [stringOf, stringOf, hd, highestFirst_add] at hrest
  obtain ⟨hfront, -⟩ := List.append_inj hrest (by simp)
  -- The number of the longer string, cut to the length of the shorter, is that of the shorter.
  have hlt := codeOf_lt hshort hshare hb
  rw [hd, pow_add] at hlt
  have hcode := highestFirst_inj (codeOf_lt hshort hshare ha)
    (Nat.div_lt_of_lt_mul (Nat.mul_comm _ _ ▸ hlt)) hfront
  have hbelow := Nat.div_mul_le_self (codeOf lengths b) (2 ^ d)
  have habove := Nat.lt_mul_div_succ (codeOf lengths b) (Nat.two_pow_pos d)
  have hpow : 2 ^ (15 - lengthOf lengths a) = 2 ^ d * 2 ^ (15 - lengthOf lengths b) := by
    rw [← pow_add, hd]
    congr 1
    omega
  rw [← codeOf_mul hshort a, ← codeOf_mul hshort b, hpow, ← Nat.mul_assoc, ← Nat.add_mul, hcode]
  refine ⟨Nat.mul_le_mul_right _ hbelow, Nat.mul_lt_mul_of_pos_right ?_ (Nat.two_pow_pos _)⟩
  rwa [Nat.mul_comm, Nat.succ_mul] at habove

/-- Strings of different symbols are apart. -/
theorem apart_stringOf (hshort : ∀ l ∈ lengths, l ≤ 15) (hshare : share lengths ≤ 2 ^ 15)
    (ha : 0 < lengthOf lengths a) (hb : 0 < lengthOf lengths b) (hne : a ≠ b) :
    Apart (stringOf lengths a) (stringOf lengths b) := by
  have hnot : ∀ {a b}, 0 < lengthOf lengths a → 0 < lengthOf lengths b → a ≠ b →
      ¬stringOf lengths a <+: stringOf lengths b := by
    intro a b ha hb hne h
    obtain ⟨hfrom, hto⟩ := startOf_le_of_prefix hshort hshare ha hb h
    rcases comesBefore_or ha hb hne with hbefore | hbefore
    · exact absurd (startOf_add_le_of_comesBefore hbefore) (Nat.not_le.2 hto)
    · have hend := (startOf_add_le_of_comesBefore hbefore).trans hfrom
      have hpos := Nat.two_pow_pos (15 - lengthOf lengths b)
      omega
  exact ⟨hnot ha hb hne, hnot hb ha hne.symm⟩

/-! ## The canonical order -/

/-- The number of the first string of a length that is left when the shorter ones are given. -/
def firstCode (lengths : List Nat) (length : Nat) : Nat :=
  ∑ a ∈ Finset.range lengths.length,
    if 0 < lengthOf lengths a ∧ lengthOf lengths a < length then
      2 ^ (length - lengthOf lengths a)
    else 0

/-- Twice as many strings are left when they get a bit longer. -/
theorem firstCode_succ (lengths : List Nat) (length : Nat) (h : 0 < length) :
    firstCode lengths (length + 1) =
      (firstCode lengths length + Nat.count (lengthOf lengths · = length) lengths.length) * 2 := by
  rw [Nat.count_eq_card_filter_range, Finset.card_filter, firstCode, firstCode,
    ← Finset.sum_add_distrib, Finset.sum_mul]
  refine Finset.sum_congr rfl fun a _ => ?_
  by_cases hlt : lengthOf lengths a < length
  · rw [if_neg (Nat.ne_of_lt hlt), Nat.add_zero]
    by_cases hpos : 0 < lengthOf lengths a
    · rw [if_pos ⟨hpos, hlt.trans (Nat.lt_succ_self _)⟩, if_pos ⟨hpos, hlt⟩]
      rw [add_zero, ← pow_succ]
      congr 1
      omega
    · rw [if_neg fun h => hpos h.1, if_neg fun h => hpos h.1, Nat.zero_mul]
  · by_cases heq : lengthOf lengths a = length
    · rw [if_pos ⟨heq ▸ h, heq ▸ Nat.lt_succ_self _⟩, if_neg fun h => hlt h.2, if_pos heq, heq,
        Nat.add_sub_cancel_left, pow_one, Nat.zero_add, Nat.one_mul]
    · rw [if_neg fun h => by omega, if_neg fun h => hlt h.2, if_neg heq, Nat.add_zero,
        Nat.zero_mul]

/-- A string comes after the shorter ones and after those of its length of smaller symbols. -/
theorem codeOf_eq (h : 0 < lengthOf lengths symbol) :
    codeOf lengths symbol = firstCode lengths (lengthOf lengths symbol) +
      Nat.count (lengthOf lengths · = lengthOf lengths symbol) symbol := by
  have hlt := lt_length_of_lengthOf_pos h
  have hsame : {a ∈ Finset.range symbol | lengthOf lengths a = lengthOf lengths symbol} =
      {a ∈ Finset.range lengths.length |
        lengthOf lengths a = lengthOf lengths symbol ∧ a < symbol} := by
    ext a
    simp only [Finset.mem_filter, Finset.mem_range]
    omega
  rw [Nat.count_eq_card_filter_range, hsame, Finset.card_filter, codeOf, Finset.sum_filter,
    firstCode, ← Finset.sum_add_distrib]
  refine Finset.sum_congr rfl fun a _ => ?_
  have hbefore : ComesBefore lengths a symbol ↔
      (0 < lengthOf lengths a ∧ lengthOf lengths a < lengthOf lengths symbol) ∨
        lengthOf lengths a = lengthOf lengths symbol ∧ a < symbol := by
    unfold ComesBefore
    omega
  by_cases hshorter : 0 < lengthOf lengths a ∧ lengthOf lengths a < lengthOf lengths symbol
  · rw [if_pos (hbefore.2 (.inl hshorter)), if_pos hshorter, if_neg (by omega), Nat.add_zero]
  · rw [if_neg hshorter, Nat.zero_add]
    by_cases hsame : lengthOf lengths a = lengthOf lengths symbol ∧ a < symbol
    · rw [if_pos (hbefore.2 (.inr hsame)), if_pos hsame, hsame.1, Nat.sub_self, pow_zero]
    · rw [if_neg fun h => (hbefore.1 h).elim hshorter hsame, if_neg hsame]

/-- The members of a range of which something holds come in order. -/
theorem mem_zipIdx_filter_range (p : Nat → Prop) [DecidablePred p] (n : Nat) :
    ((List.range n).filter p).length = Nat.count p n ∧
      ∀ x i, (x, i) ∈ ((List.range n).filter p).zipIdx ↔ x < n ∧ p x ∧ i = Nat.count p x := by
  induction n with
  | zero => simp
  | succ n ih =>
    obtain ⟨hlength, hmem⟩ := ih
    rw [List.range_succ, List.filter_append, List.length_append, hlength, Nat.count_succ]
    by_cases hp : p n
    · refine ⟨by simp [hp], fun x i => ?_⟩
      rw [List.zipIdx_append, List.mem_append, hmem, hlength]
      simp only [hp, decide_true, List.filter_cons_of_pos, List.filter_nil, List.zipIdx_cons,
        List.zipIdx_nil, List.mem_singleton, Prod.mk.injEq, Nat.zero_add]
      constructor
      · rintro (⟨hlt, hpx, rfl⟩ | ⟨rfl, rfl⟩)
        · exact ⟨hlt.trans (Nat.lt_succ_self n), hpx, rfl⟩
        · exact ⟨Nat.lt_succ_self x, hp, rfl⟩
      · rintro ⟨hlt, hpx, rfl⟩
        rcases Nat.lt_succ_iff_lt_or_eq.1 hlt with hlt | rfl
        · exact .inl ⟨hlt, hpx, rfl⟩
        · exact .inr ⟨rfl, rfl⟩
    · refine ⟨by simp [hp], fun x i => ?_⟩
      have hnone : [n].filter (fun x => decide (p x)) = [] := by simp [hp]
      rw [hnone, List.append_nil, hmem]
      constructor
      · rintro ⟨hlt, hpx, rfl⟩
        exact ⟨hlt.trans (Nat.lt_succ_self n), hpx, rfl⟩
      · rintro ⟨hlt, hpx, rfl⟩
        have hne : x ≠ n := fun h => hp (h ▸ hpx)
        exact ⟨by omega, hpx, rfl⟩

theorem symbolsOfLength_eq (lengths : List Nat) (length : Nat) :
    Tree.symbolsOfLength lengths length =
      (List.range lengths.length).filter (lengthOf lengths · = length) := by
  have hzip : lengths.zipIdx =
      (List.range lengths.length).map fun symbol => (lengthOf lengths symbol, symbol) := by
    refine List.ext_getElem (by simp) fun i h _ => ?_
    rw [List.length_zipIdx] at h
    simp [lengthOf, h]
  rw [Tree.symbolsOfLength, hzip, List.filterMap_map, ← List.filterMap_eq_filter]
  refine List.filterMap_congr fun symbol _ => ?_
  simp [Option.guard]

/-- The strings of one more length. -/
def canonicalStep (lengths : List Nat) : List (Nat × Nat × Nat) × Nat → Nat →
    List (Nat × Nat × Nat) × Nat :=
  fun (codes, next) k =>
    let symbols := Tree.symbolsOfLength lengths (k + 1)
    (codes ++ symbols.zipIdx.map fun (symbol, i) => (symbol, next + i, k + 1),
      (next + symbols.length) * 2)

/-- After the strings of up to `k` bits have been given, those of one bit more are next. -/
theorem canonicalStep_foldl (lengths : List Nat) (k : Nat) :
    ((List.range k).foldl (canonicalStep lengths) ([], 0)).2 = firstCode lengths (k + 1) ∧
      ∀ e, e ∈ ((List.range k).foldl (canonicalStep lengths) ([], 0)).1 ↔
        ∃ symbol, 0 < lengthOf lengths symbol ∧ lengthOf lengths symbol ≤ k ∧
          e = (symbol, codeOf lengths symbol, lengthOf lengths symbol) := by
  induction k with
  | zero =>
    refine ⟨(Finset.sum_eq_zero fun a _ => if_neg (by omega)).symm, fun e => ?_⟩
    refine iff_of_false List.not_mem_nil ?_
    rintro ⟨symbol, hpos, hle, -⟩
    omega
  | succ k ih =>
    obtain ⟨hnext, hmem⟩ := ih
    obtain ⟨hlength, hzip⟩ :=
      mem_zipIdx_filter_range (lengthOf lengths · = k + 1) lengths.length
    rw [List.range_succ, List.foldl_append, List.foldl_cons, List.foldl_nil]
    refine ⟨?_, fun e => ?_⟩
    · rw [firstCode_succ lengths (k + 1) (Nat.succ_pos k), ← hnext, ← hlength,
        ← symbolsOfLength_eq]
      rfl
    · change e ∈ _ ++ _ ↔ _
      rw [List.mem_append, hmem, symbolsOfLength_eq, List.mem_map, hnext]
      constructor
      · rintro (⟨symbol, hpos, hle, rfl⟩ | ⟨⟨symbol, i⟩, hentry, rfl⟩)
        · exact ⟨symbol, hpos, hle.trans (Nat.le_succ k), rfl⟩
        · obtain ⟨-, hsymbol, rfl⟩ := (hzip symbol i).1 hentry
          refine ⟨symbol, by omega, by omega, ?_⟩
          rw [codeOf_eq (by omega), hsymbol]
      · rintro ⟨symbol, hpos, hle, rfl⟩
        rcases Nat.lt_or_ge k (lengthOf lengths symbol) with hlong | hshort
        · have hsymbol : lengthOf lengths symbol = k + 1 := by omega
          refine .inr ⟨(symbol, _), (hzip symbol _).2
            ⟨lt_length_of_lengthOf_pos hpos, hsymbol, rfl⟩, ?_⟩
          rw [codeOf_eq hpos, hsymbol]
        · exact .inl ⟨symbol, hpos, hshort, rfl⟩

theorem mem_canonical_iff (hshort : ∀ l ∈ lengths, l ≤ 15) {e : Nat × Nat × Nat} :
    e ∈ Tree.canonical lengths ↔ ∃ symbol, 0 < lengthOf lengths symbol ∧
      e = (symbol, codeOf lengths symbol, lengthOf lengths symbol) := by
  refine ((canonicalStep_foldl lengths 15).2 e).trans (exists_congr fun symbol => ?_)
  exact and_congr_right fun _ => and_iff_right (lengthOf_le hshort symbol)

/-! ## Trees -/

namespace Tree

/-- A path in a tree leads to a symbol. -/
inductive Leads : Tree → List Bool → Nat → Prop where
  | leaf (symbol : Nat) : Leads (leaf symbol) [] symbol
  | zero {zero one : Tree} {path : List Bool} {symbol : Nat} (h : Leads zero path symbol) :
      Leads (node zero one) (false :: path) symbol
  | one {zero one : Tree} {path : List Bool} {symbol : Nat} (h : Leads one path symbol) :
      Leads (node zero one) (true :: path) symbol

variable {t zero one : Tree} {path : List Bool} {code depth : Nat}

theorem not_leads_vacant : ¬vacant.Leads path symbol := nofun

theorem leads_leaf_iff : (leaf a).Leads path symbol ↔ path = [] ∧ symbol = a := by
  constructor
  · rintro ⟨⟩
    exact ⟨rfl, rfl⟩
  · rintro ⟨rfl, rfl⟩
    exact .leaf symbol

theorem not_leads_node_nil : ¬(node zero one).Leads [] symbol := nofun

/-- A path begins with the way that it goes at a node. -/
theorem leads_node_cons_iff {bit : Bool} :
    (node zero one).Leads (bit :: path) symbol ↔ (cond bit one zero).Leads path symbol := by
  constructor
  · rintro (_ | h | h)
    · exact h
    · exact h
  · intro h
    cases bit with
    | false => exact .zero h
    | true => exact .one h

/-- Whether a path leads to a symbol is seen by following it. -/
instance decidableLeads : (t : Tree) → (path : List Bool) → (symbol : Nat) →
    Decidable (t.Leads path symbol)
  | vacant, _, _ => .isFalse not_leads_vacant
  | leaf _, _, _ => decidable_of_iff _ leads_leaf_iff.symm
  | node _ _, [], _ => .isFalse not_leads_node_nil
  | node zero one, bit :: path, symbol =>
    have := decidableLeads (cond bit one zero) path symbol
    decidable_of_iff _ leads_node_cons_iff.symm

theorem not_leads_vacants : ¬(node vacant vacant).Leads path symbol := by
  intro h
  cases path with
  | nil => exact not_leads_node_nil h
  | cons bit rest =>
    rw [leads_node_cons_iff] at h
    cases bit <;> exact not_leads_vacant h

theorem highestFirst_succ (n value : Nat) :
    highestFirst (n + 1) value = value.testBit n :: highestFirst n value := by
  rw [Nat.add_comm, highestFirst_add]
  simp only [highestFirst, lowestFirst, List.range_one, List.map_cons, List.map_nil,
    Nat.testBit_div_two_pow, Nat.zero_add]
  rfl

theorem apart_cons_iff {bit bit' : Bool} {bits bits' : List Bool} :
    Apart (bit :: bits) (bit' :: bits') ↔ bit ≠ bit' ∨ Apart bits bits' := by
  rw [Apart, Apart, List.cons_prefix_cons, List.cons_prefix_cons, eq_comm (a := bit')]
  tauto

/-- A symbol that is inserted is at the end of its string, and what is apart from the string is
    as before. -/
theorem leads_insert (t : Tree) :
    (t.insert a code depth).Leads path symbol ↔
      (path = highestFirst depth code ∧ symbol = a) ∨
        (t.Leads path symbol ∧ Apart (highestFirst depth code) path) := by
  induction depth generalizing t path with
  | zero =>
    rw [insert, leads_leaf_iff]
    refine ⟨.inl, ?_⟩
    rintro (h | ⟨-, hapart⟩)
    · exact h
    · exact absurd List.nil_prefix hapart.1
  | succ depth ih =>
    -- Below a node, the symbol goes on where the next bit leads.
    have hnode : ∀ zero one : Tree,
        (if code.testBit depth then node zero (one.insert a code depth)
          else node (zero.insert a code depth) one).Leads path symbol ↔
        (path = highestFirst (depth + 1) code ∧ symbol = a) ∨
          ((node zero one).Leads path symbol ∧ Apart (highestFirst (depth + 1) code) path) := by
      intro zero one
      rw [highestFirst_succ]
      cases path with
      | nil =>
        refine iff_of_false ?_ ?_
        · split <;> exact not_leads_node_nil
        · rintro (⟨h, -⟩ | ⟨h, -⟩)
          · cases h
          · exact not_leads_node_nil h
      | cons bit rest =>
        rw [apart_cons_iff, leads_node_cons_iff, List.cons.injEq]
        cases code.testBit depth <;> cases bit <;> simp [leads_node_cons_iff, ih]
    -- What is no node has no path that is apart from the string.
    have hvacant : ∀ {P : Prop}, (node vacant vacant).Leads path symbol ∧ P ↔ False :=
      iff_false_intro fun h => not_leads_vacants h.1
    cases t with
    | node zero one => exact hnode zero one
    | vacant =>
      refine (hnode vacant vacant).trans (or_congr_right (hvacant.trans ?_))
      exact (iff_false_intro fun h => not_leads_vacant h.1).symm
    | leaf b =>
      refine (hnode vacant vacant).trans (or_congr_right (hvacant.trans ?_))
      refine (iff_false_intro ?_).symm
      rintro ⟨h, hapart⟩
      rw [(leads_leaf_iff.1 h).1] at hapart
      exact hapart.2 List.nil_prefix

/-- Symbols that are inserted at strings that are apart from each other are at the ends of these,
    and what is apart from all of them is as before. -/
theorem leads_foldl_insert {entries : List (Nat × Nat × Nat)} (t : Tree)
    (h : ∀ e ∈ entries, ∀ e' ∈ entries, e = e' ∨
      Apart (highestFirst e.2.2 e.2.1) (highestFirst e'.2.2 e'.2.1)) :
    (entries.foldl (fun t (symbol, code, length) => t.insert symbol code length) t).Leads
        path symbol ↔
      (∃ e ∈ entries, path = highestFirst e.2.2 e.2.1 ∧ symbol = e.1) ∨
        (t.Leads path symbol ∧ ∀ e ∈ entries, Apart (highestFirst e.2.2 e.2.1) path) := by
  induction entries generalizing t with
  | nil => simp
  | cons e entries ih =>
    rw [List.foldl_cons, ih _ fun e₁ h₁ e₂ h₂ =>
      h e₁ (List.mem_cons_of_mem _ h₁) e₂ (List.mem_cons_of_mem _ h₂), leads_insert]
    constructor
    · rintro (⟨e', he', hpath⟩ | ⟨hpath | ⟨ht, hapart⟩, hall⟩)
      · exact .inl ⟨e', List.mem_cons_of_mem _ he', hpath⟩
      · exact .inl ⟨e, List.mem_cons_self, hpath⟩
      · exact .inr ⟨ht, List.forall_mem_cons.2 ⟨hapart, hall⟩⟩
    · rintro (⟨e', he', hpath⟩ | ⟨ht, hall⟩)
      · by_cases hmem : e' ∈ entries
        · exact .inl ⟨e', hmem, hpath⟩
        · -- The string of the first is apart from those of all others.
          obtain rfl : e' = e := (List.mem_cons.1 he').resolve_right hmem
          refine .inr ⟨.inl hpath, fun e₁ h₁ => ?_⟩
          rw [hpath.1]
          exact (h e₁ (List.mem_cons_of_mem _ h₁) e' he').resolve_left fun heq => hmem (heq ▸ h₁)
      · obtain ⟨hapart, hall⟩ := List.forall_mem_cons.1 hall
        exact .inr ⟨.inr ⟨ht, hapart⟩, hall⟩

theorem isComplete_iff : isComplete lengths = true ↔ IsComplete lengths := by
  rw [isComplete, decide_eq_true_iff, used_eq_share]
  exact Iff.rfl

/-- There is a tree of the lengths of a code, and of no others. -/
theorem ofLengths?_eq_some_iff :
    ofLengths? lengths = some t ↔ IsCode lengths ∧
      (canonical lengths).foldl (fun t (symbol, code, length) => t.insert symbol code length)
        (node vacant vacant) = t := by
  rw [ofLengths?, Option.ite_none_right_eq_some, Option.some.injEq]
  refine and_congr_left fun _ => ?_
  simp only [List.mem_cons, List.not_mem_nil, or_false, isComplete_iff]
  exact or_comm

/-- A lone symbol at one bit, and at two. -/
example : (ofLengths? [0, 1]).isSome = true ∧ (ofLengths? [0, 2]).isSome = false := by decide

/-- Symbols without a string have no share. -/
theorem share_filter (lengths : List Nat) : share (lengths.filter (· ≠ 0)) = share lengths := by
  induction lengths with
  | nil => rfl
  | cons l lengths ih =>
    unfold share at *
    by_cases hl : l = 0
    · rw [List.filter_cons_of_neg (by simp [hl]), ih, List.map_cons, List.sum_cons, if_pos hl,
        Nat.zero_add]
    · rw [List.filter_cons_of_pos (by simp [hl]), List.map_cons, List.sum_cons, ih, List.map_cons,
        List.sum_cons]

/-- The shares of a code make up no more than the whole. -/
theorem share_le_of_isCode (h : IsCode lengths) : share lengths ≤ 2 ^ 15 := by
  rcases h with h | h | h
  · exact Nat.le_of_eq h
  · rw [← share_filter, h]
    decide
  · rw [← share_filter, h]
    decide

/-- In the tree of a code, the strings are the paths to their symbols. -/
theorem leads_ofLengths? (hshort : ∀ l ∈ lengths, l ≤ 15) (h : ofLengths? lengths = some t) :
    t.Leads path symbol ↔ IsString lengths symbol path := by
  obtain ⟨hcode, rfl⟩ := ofLengths?_eq_some_iff.1 h
  have hshare := share_le_of_isCode hcode
  have hapart : ∀ e ∈ canonical lengths, ∀ e' ∈ canonical lengths, e = e' ∨
      Apart (highestFirst e.2.2 e.2.1) (highestFirst e'.2.2 e'.2.1) := by
    intro e he e' he'
    obtain ⟨a, ha, rfl⟩ := (mem_canonical_iff hshort).1 he
    obtain ⟨b, hb, rfl⟩ := (mem_canonical_iff hshort).1 he'
    by_cases hne : a = b
    · exact .inl (by rw [hne])
    · exact .inr (apart_stringOf hshort hshare ha hb hne)
  rw [leads_foldl_insert _ hapart]
  constructor
  · rintro (⟨e, he, rfl, rfl⟩ | ⟨hnode, -⟩)
    · obtain ⟨a, ha, rfl⟩ := (mem_canonical_iff hshort).1 he
      exact ⟨ha, rfl⟩
    · exact absurd hnode not_leads_vacants
  · rintro ⟨hpos, rfl⟩
    exact .inl ⟨_, (mem_canonical_iff hshort).2 ⟨symbol, hpos, rfl⟩, rfl, rfl⟩

end Tree

/-- No two strings of a code are the beginning of the same bits. -/
theorem IsString.eq_of_prefix {path path' bits : List Bool} (hshort : ∀ l ∈ lengths, l ≤ 15)
    (hcode : IsCode lengths) (h : IsString lengths a path) (h' : IsString lengths b path')
    (hbegin : path <+: bits) (hbegin' : path' <+: bits) : a = b := by
  by_contra hne
  obtain ⟨ha, rfl⟩ := h
  obtain ⟨hb, rfl⟩ := h'
  have hapart := apart_stringOf hshort (Tree.share_le_of_isCode hcode) ha hb hne
  rcases List.prefix_or_prefix_of_prefix hbegin hbegin' with h | h
  · exact hapart.1 h
  · exact hapart.2 h

/-- The strings of a code are the paths in its tree. -/
theorem isString_iff_exists {bits : List Bool} (hshort : ∀ l ∈ lengths, l ≤ 15)
    (hcode : IsCode lengths) :
    IsString lengths symbol bits ↔ ∃ t ∈ Tree.ofLengths? lengths, t.Leads bits symbol := by
  have ht := Tree.ofLengths?_eq_some_iff.2 ⟨hcode, rfl⟩
  simp only [ht, Option.mem_some_iff, exists_eq_left', Tree.leads_ofLengths? hshort ht]

end StatusList.Flate
