import Mathlib
import StatusList.Text.Blank

/-!
# Trimming

Trimming takes blanks off both ends and nothing else: blanks around a text make no
difference (`trimChars_append_left`, `trimChars_append_right`), nor does it to trim once more
(`trimChars_trimChars`), and what a filter keeps of a text that keeps no blank of it
(`filter_trimChars`) is kept of the trimmed text too. Nothing is left just of a text that has
nothing but blanks (`trim_eq_empty_iff`).
-/

namespace StatusList.Text

/-- There is nothing but blanks in a text. -/
def Blank (text : String) : Prop := ∀ c ∈ text.toList, isBlank c = true

theorem trimChars_append_left {blanks : List Char} (h : ∀ c ∈ blanks, isBlank c = true)
    (cs : List Char) : trimChars (blanks ++ cs) = trimChars cs := by
  rw [trimChars, List.dropWhile_append_of_pos h, trimChars]

theorem trimChars_append_right {blanks : List Char} (h : ∀ c ∈ blanks, isBlank c = true)
    (cs : List Char) : trimChars (cs ++ blanks) = trimChars cs := by
  have hreverse : ∀ c ∈ blanks.reverse, isBlank c = true :=
    fun c hc => h c (List.mem_reverse.1 hc)
  rw [trimChars, trimChars, List.dropWhile_append]
  split
  · next hempty =>
    -- There is nothing but blanks on either side.
    have hnil : blanks.dropWhile isBlank = [] := List.dropWhile_eq_nil_iff.2 h
    rw [hnil, List.isEmpty_iff.1 hempty]
  · rw [List.reverse_append, List.dropWhile_append_of_pos hreverse]

/-- A text without blanks is its trimmed form. -/
theorem trimChars_eq_self {cs : List Char} (h : ∀ c ∈ cs, isBlank c = false) :
    trimChars cs = cs := by
  have hdrop : ∀ {cs : List Char}, (∀ c ∈ cs, isBlank c = false) → cs.dropWhile isBlank = cs := by
    intro cs hcs
    cases cs with
    | nil => rfl
    | cons c cs => rw [List.dropWhile_cons, hcs c (List.mem_cons_self ..), if_neg (by decide)]
  rw [trimChars, hdrop h, hdrop fun c hc => h c (List.mem_reverse.1 hc), List.reverse_reverse]

/-- Trimming takes nothing off what is trimmed. -/
theorem trimChars_trimChars (cs : List Char) : trimChars (trimChars cs) = trimChars cs := by
  have hfront : ∀ {cs : List Char}, (trimChars cs).dropWhile isBlank = trimChars cs := by
    intro cs
    -- What is left of the front of the text begins as it did before its end was cut off.
    have hbegins : trimChars cs <+: cs.dropWhile isBlank := List.rdropWhile_prefix isBlank _
    rw [List.dropWhile_eq_self_iff]
    intro hlength
    rw [hbegins.getElem hlength]
    exact List.dropWhile_get_zero_not isBlank cs (hlength.trans_le hbegins.length_le)
  rw [trimChars, hfront]
  have hback : (trimChars cs).reverse = (cs.dropWhile isBlank).reverse.dropWhile isBlank := by
    rw [trimChars, List.reverse_reverse]
  rw [hback, List.dropWhile_idempotent, trimChars]

theorem trim_eq_empty_iff {text : String} : trim text = "" ↔ Blank text := by
  have hdrop : ∀ {cs : List Char}, cs.dropWhile isBlank = [] ↔ ∀ c ∈ cs, isBlank c = true :=
    List.dropWhile_eq_nil_iff
  rw [trim, ← String.toList_inj, String.toList_ofList, String.toList_empty, trimChars,
    List.reverse_eq_nil_iff, hdrop, Blank]
  constructor
  · intro h
    rw [← hdrop]
    -- What is left of the front would begin with something that is no blank.
    by_contra hsome
    have hfirst := List.head_dropWhile_not isBlank hsome
    exact absurd (h _ (List.mem_reverse.2 (List.head_mem hsome))) (by simp [hfirst])
  · intro h
    rw [hdrop.2 h]
    exact List.forall_mem_nil _

instance (text : String) : Decidable (Blank text) :=
  decidable_of_iff _ trim_eq_empty_iff

theorem trim_trim (text : String) : trim (trim text) = trim text := by
  rw [trim, trim, String.toList_ofList, trimChars_trimChars]

theorem trimChars_of_trim_eq {text : String} (h : trim text = text) :
    trimChars text.toList = text.toList := by
  rw [← String.toList_ofList (l := trimChars text.toList)]
  exact congrArg String.toList h

theorem mem_of_mem_trimChars {c : Char} {cs : List Char} (h : c ∈ trimChars cs) : c ∈ cs := by
  rw [trimChars, List.mem_reverse] at h
  have hmem := (List.dropWhile_sublist isBlank).subset h
  exact (List.dropWhile_sublist isBlank).subset (List.mem_reverse.1 hmem)

/-- No blank is left at the front of what is trimmed. -/
theorem isBlank_eq_false_of_trimChars_eq {c : Char} {cs : List Char}
    (h : trimChars (c :: cs) = c :: cs) : isBlank c = false := by
  by_contra hblank
  rw [Bool.not_eq_false] at hblank
  have hlength : (trimChars cs).length ≤ cs.length := by
    rw [trimChars, List.length_reverse]
    refine (List.dropWhile_sublist isBlank).length_le.trans ?_
    rw [List.length_reverse]
    exact (List.dropWhile_sublist isBlank).length_le
  rw [← List.singleton_append, trimChars_append_left (List.forall_mem_singleton.2 hblank)] at h
  rw [h] at hlength
  exact absurd hlength (Nat.not_succ_le_self _)

theorem filter_dropWhile {keep : Char → Bool} {cs : List Char}
    (h : ∀ c ∈ cs, isBlank c = true → keep c = false) :
    (cs.dropWhile isBlank).filter keep = cs.filter keep := by
  induction cs with
  | nil => rfl
  | cons c cs ih =>
    obtain ⟨hc, hcs⟩ := List.forall_mem_cons.1 h
    rw [List.dropWhile_cons]
    split
    · next hblank => rw [ih hcs, List.filter_cons_of_neg (by rw [hc hblank]; decide)]
    · rfl

/-- Trimming takes away nothing that a filter keeps which keeps no blank. -/
theorem filter_trimChars {keep : Char → Bool} {cs : List Char}
    (h : ∀ c ∈ cs, isBlank c = true → keep c = false) :
    (trimChars cs).filter keep = cs.filter keep := by
  have hback : ∀ c ∈ (cs.dropWhile isBlank).reverse, isBlank c = true → keep c = false :=
    fun c hc => h c ((List.dropWhile_sublist isBlank).subset (List.mem_reverse.1 hc))
  rw [trimChars, List.filter_reverse, filter_dropWhile hback, List.filter_reverse,
    List.reverse_reverse, filter_dropWhile h]

end StatusList.Text
