import StatusList.Proofs.Cbor.Strings

/-!
# What is read is no longer than what it is read from

The strings of an item have been taken off the byte string that it is read from, so that there
are no more bytes in them than in that (`Item.size_le_of_read`), and the same holds of a binary
claim (`BinaryClaim.fits_of_ofCbor`).

A step `Spends` what it takes: what it gives has no more bytes than what it has been given and
what it has taken together. Steps are put together as a budget is handed on: what the first gives
is there for the second to spend.
-/

namespace StatusList.Cbor

/-! ## Sizes -/

namespace Item

mutual

/-- The number of bytes in the strings of an item. -/
def size : Item → Nat
  | bytes value => value.length
  | text value => value.utf8ByteSize
  | array items => sizeItems items
  | map entries => sizeEntries entries
  | tag _ item => size item
  | integer _ | boolean _ | null | real _ => 0

/-- The number of bytes in the strings of items. -/
def sizeItems : List Item → Nat
  | [] => 0
  | item :: items => size item + sizeItems items

/-- The number of bytes in the strings of keys and values. -/
def sizeEntries : List (Item × Item) → Nat
  | [] => 0
  | (key, value) :: entries => size key + size value + sizeEntries entries

end

theorem sizeItems_eq (items : List Item) : sizeItems items = (items.map size).sum := by
  induction items with
  | nil => rfl
  | cons item items ih => rw [sizeItems, ih, List.map_cons, List.sum_cons]

theorem sizeEntries_eq (entries : List (Item × Item)) :
    sizeEntries entries = (entries.map fun e => size e.1 + size e.2).sum := by
  induction entries with
  | nil => rfl
  | cons e entries ih => rw [sizeEntries, ih, List.map_cons, List.sum_cons]

end Item

/-! ## Budgets -/

/-- With so many bytes in hand, a step gives no more bytes than it has in hand and takes. -/
structure Spends {α : Type} (size : α → Nat) (budget : Nat) (step : Parser α) : Prop where
  le : ∀ {s a s'}, step s = .ok (a, s') → size a + s'.length ≤ budget + s.length

namespace Spends

variable {α β : Type} {size : α → Nat} {size' : β → Nat} {budget budget' : Nat}

theorem pure {a : α} (h : size a ≤ budget) : Spends size budget (pure a) where
  le hs := by
    cases hs
    exact Nat.add_le_add_right h _

theorem throw (fault : Fault) : Spends size budget (throw fault) where
  le hs := nomatch hs

theorem mono {step : Parser α} (h : Spends size budget step) (hle : budget ≤ budget') :
    Spends size budget' step where
  le hs := (h.le hs).trans (Nat.add_le_add_right hle _)

/-- What the first step gives is in hand for the second. -/
theorem bind {first : Parser β} {next : β → Parser α} (hfirst : Spends size' 0 first)
    (hnext : ∀ b, Spends size (budget + size' b) (next b)) :
    Spends size budget (first >>= next) where
  le hs := by
    obtain ⟨b, t, hfirst', hnext'⟩ := bind_eq_ok hs
    have := hfirst.le hfirst'
    have := (hnext b).le hnext'
    omega

theorem lift {attempt : Except Fault α} (h : ∀ a, attempt = .ok a → size a ≤ budget) :
    Spends size budget (liftM attempt) where
  le hs := by
    cases attempt with
    | error fault => cases hs
    | ok value =>
      cases hs
      exact Nat.add_le_add_right (h _ rfl) _

/-- An attempt takes nothing. -/
theorem attempt {attempt : Except Fault β} {next : β → Parser α}
    (h : ∀ b, attempt = .ok b → Spends size budget (next b)) :
    Spends size budget (liftM attempt >>= next) where
  le hs := by
    cases attempt with
    | error fault => cases hs
    | ok b => exact (h b rfl).le hs

/-- To look at the bytes to come takes none of them. -/
theorem get {next : List UInt8 → Parser α} (h : ∀ bytes, Spends size budget (next bytes)) :
    Spends size budget (MonadState.get >>= next) where
  le hs := (h _).le hs

end Spends

/-! ## Heads -/

theorem length_of_splitAt? {n : Nat} {done text bytes rest : List UInt8}
    (h : splitAt?.go done n text = some (bytes, rest)) :
    bytes.length + rest.length = done.length + text.length := by
  induction n generalizing done text with
  | zero =>
    rw [splitAt?.go, Option.some.injEq, Prod.mk.injEq] at h
    rw [← h.1, ← h.2, List.length_reverse]
  | succ n ih =>
    cases text with
    | nil => cases h
    | cons b text =>
      have := ih h
      simp only [List.length_cons] at this ⊢
      omega

theorem spends_takeExactly (n : Nat) : Spends List.length 0 (takeExactly n) where
  le {s bytes s'} hs := by
    rw [takeExactly] at hs
    split at hs
    · next result hsplit =>
      obtain rfl := Except.ok.inj hs
      exact Nat.le_of_eq (length_of_splitAt? hsplit)
    · cases hs

/-- Nothing that a head tells counts. -/
theorem spends_takeArgument (low : Nat) : Spends (fun _ => 0) 0 (takeArgument low) := by
  have hwide : ∀ n, Spends (fun _ => 0) 0 (do return .wide (← takeExactly n) : Parser Argument) :=
    fun n => (spends_takeExactly n).bind fun _ => .pure (Nat.zero_le _)
  unfold takeArgument
  split
  · exact .pure (Nat.zero_le _)
  · split
    · exact hwide 1
    · exact hwide 2
    · exact hwide 4
    · exact hwide 8
    · exact .pure (Nat.zero_le _)
    · exact .throw _

theorem spends_takeHead : Spends (fun _ => 0) 0 takeHead :=
  (spends_takeExactly 1).bind fun first =>
    (spends_takeArgument _).bind fun argument => by
      exact .lift fun _ _ => Nat.zero_le _

/-! ## Strings -/

/-- Pieces are taken one after the other. -/
theorem spends_takePieces {α : Type} {size : α → Nat} (length? : Head → Option (Option Nat))
    {take : Nat → Parser α} (htake : ∀ n, Spends size 0 (take n)) (fuel depth : Nat)
    (done : List α) :
    Spends (fun pieces => (pieces.map size).sum) (done.map size).sum
      (takePieces length? take fuel depth done) := by
  induction fuel generalizing depth done with
  | zero => exact .throw _
  | succ fuel ih =>
    unfold takePieces
    refine spends_takeHead.bind fun head => ?_
    split
    · split
      · refine .pure (Nat.le_of_eq ?_)
        rw [List.map_reverse, List.sum_reverse, Nat.add_zero]
      · exact ih _ _
    · split
      · exact .throw _
      · exact ih _ _
      · refine (htake _).bind fun piece => (ih _ _).mono (Nat.le_of_eq ?_)
        rw [List.map_cons, List.sum_cons, Nat.add_zero, Nat.add_comm]

theorem size_of_textOf {bytes : List UInt8} {text : String} (h : textOf bytes = .ok text) :
    text.utf8ByteSize = bytes.length := by
  rw [textOf] at h
  split at h
  · next decoded hdecode =>
    obtain rfl := Except.ok.inj h
    have hsize := congrArg ByteArray.size (Utf8.toUTF8_of_decode hdecode)
    rwa [List.size_toByteArray] at hsize
  · cases h

/-- The text of a window and what is kept of it are the bytes of the window. -/
theorem size_of_readWindow {bytes kept : List UInt8} {text : String}
    (h : readWindow bytes = .ok (text, kept)) : text.utf8ByteSize + kept.length = bytes.length := by
  rw [readWindow] at h
  split at h
  · next decoded hdecode =>
    have hsize := congrArg ByteArray.size (Utf8.toUTF8_of_decode hdecode)
    rw [List.size_toByteArray] at hsize
    cases h
    exact hsize
  · next fault hdecode =>
    simp only [List.splitAt_eq] at h
    split at h
    · cases h
    · obtain ⟨start, hstart, hpair⟩ := bind_eq_ok_iff.1 h
      cases hpair
      rw [size_of_textOf hstart, ← List.length_append, List.take_append_drop]

theorem spends_takeWindows (fuel left : Nat) (kept : List UInt8) (done : String) :
    Spends String.utf8ByteSize (kept.length + done.utf8ByteSize)
      (takeWindows fuel left kept done) := by
  have hover : ∀ fuel (kept : List UInt8) (done : String),
      Spends String.utf8ByteSize (kept.length + done.utf8ByteSize)
        (takeWindows fuel 0 kept done) := by
    intro fuel kept done
    cases fuel <;> cases kept <;> first | exact .pure (Nat.le_add_left ..) | exact .throw _
  induction fuel generalizing left kept done with
  | zero =>
    cases left with
    | zero => exact hover 0 kept done
    | succ => exact .throw _
  | succ fuel ih =>
    rcases Nat.eq_zero_or_pos left with rfl | hleft
    · exact hover _ kept done
    · rw [takeWindows_succ hleft]
      refine (spends_takeExactly _).bind fun taken => .attempt fun ⟨text, kept'⟩ hread => ?_
      -- What is in hand is the window, cut into its text and what is kept of it.
      have hsize := size_of_readWindow hread
      refine (ih _ _ _).mono ?_
      rw [List.length_append] at hsize
      rw [String.utf8ByteSize_append]
      omega

theorem spends_takeByteString (length : Option Nat) :
    Spends List.length 0 (takeByteString length) := by
  cases length with
  | some n => exact spends_takeExactly n
  | none =>
    refine .get fun bytes => (spends_takePieces _ spends_takeExactly _ 0 []).bind fun pieces => ?_
    refine .pure (Nat.le_of_eq ?_)
    rw [List.length_flatten, Nat.zero_add]

theorem size_join (pieces : List String) :
    (String.join pieces).utf8ByteSize = (pieces.map String.utf8ByteSize).sum := by
  induction pieces with
  | nil => rfl
  | cons piece pieces ih =>
    rw [String.join_cons, String.utf8ByteSize_append, ih, List.map_cons, List.sum_cons]

theorem spends_takeText (length : Option Nat) :
    Spends String.utf8ByteSize 0 (takeText length) := by
  have hwindows : ∀ n, Spends String.utf8ByteSize 0 (takeWindows n n [] "") :=
    fun n => spends_takeWindows n n [] ""
  cases length with
  | some n =>
    rw [takeText]
    split
    · refine (spends_takeExactly n).bind fun bytes => .lift fun text htext => ?_
      exact Nat.le_of_eq ((size_of_textOf htext).trans (Nat.zero_add _).symm)
    · exact hwindows n
  | none =>
    refine .get fun bytes => (spends_takePieces _ hwindows _ 0 []).bind fun pieces => ?_
    refine .pure (Nat.le_of_eq ?_)
    rw [size_join, Nat.zero_add]

/-! ## Items -/

section

variable {α : Type} {size : α → Nat} {take : Head → Parser α}

theorem spends_takeCounted {take : Parser α} (htake : Spends size 0 take) (n : Nat)
    (done : List α) :
    Spends (fun values => (values.map size).sum) (done.map size).sum
      (takeCounted take n done) := by
  induction n generalizing done with
  | zero =>
    refine .pure (Nat.le_of_eq ?_)
    rw [List.map_reverse, List.sum_reverse]
  | succ n ih =>
    refine htake.bind fun value => (ih _).mono (Nat.le_of_eq ?_)
    rw [List.map_cons, List.sum_cons, Nat.add_comm]

theorem spends_takeUntilStop (htake : ∀ head, Spends size 0 (take head)) (fuel : Nat)
    (done : List α) :
    Spends (fun values => (values.map size).sum) (done.map size).sum
      (takeUntilStop take fuel done) := by
  induction fuel generalizing done with
  | zero => exact .throw _
  | succ fuel ih =>
    unfold takeUntilStop
    refine spends_takeHead.bind fun head => ?_
    split
    · refine .pure (Nat.le_of_eq ?_)
      rw [List.map_reverse, List.sum_reverse, Nat.add_zero]
    · refine (htake _).bind fun value => (ih _).mono (Nat.le_of_eq ?_)
      rw [List.map_cons, List.sum_cons, Nat.add_zero, Nat.add_comm]

/-- A series has what its values have. -/
theorem spends_takeSeries (htake : ∀ head, Spends size 0 (take head)) (length : Option Nat) :
    Spends (fun values => (values.map size).sum) 0 (takeSeries take length) := by
  cases length with
  | some n => exact spends_takeCounted (spends_takeHead.bind htake) n []
  | none => exact .get fun bytes => spends_takeUntilStop htake _ []

end

namespace Item

theorem size_of_ofTagged {tag : Nat} {value : List UInt8} {item : Item}
    (h : ofTagged tag value = .ok item) : item.size ≤ value.length := by
  rw [ofTagged] at h
  split_ifs at h
  all_goals
    obtain rfl := Except.ok.inj h
    simp [size]

theorem spends_takeTagged {tag : Nat} {take : Head → Parser Item}
    (htake : ∀ head, Spends size 0 (take head)) : Spends size 0 (takeTagged tag take) := by
  refine spends_takeHead.bind fun head => ?_
  split
  · refine (spends_takeExactly _).bind fun value => .lift fun item hitem => ?_
    exact (size_of_ofTagged hitem).trans (Nat.le_add_left _ _)
  · refine (htake head).bind fun item => .pure ?_
    rw [size]
    exact Nat.le_add_left _ _

theorem size_of_ofSimple {number : Nat} {item : Item} (h : ofSimple number = .ok item) :
    item.size = 0 := by
  unfold ofSimple at h
  split at h <;> cases h <;> rw [size]

/-- The strings of an item are taken off the text. -/
theorem spends_takeItem (depth : Nat) (head : Head) : Spends size 0 (takeItem depth head) := by
  cases head with
  | positive | negative | real => cases depth <;> exact .pure (Nat.zero_le _)
  | simple number =>
    have hsimple : Spends size 0 (liftM (ofSimple number) : Parser Item) :=
      .lift fun item hitem => Nat.le_of_eq (size_of_ofSimple hitem)
    cases depth <;> exact hsimple
  | stop => cases depth <;> exact .throw _
  | bytes length =>
    have hbytes : Spends size 0 (do return .bytes (← takeByteString length) : Parser Item) :=
      (spends_takeByteString length).bind fun value => .pure (by rw [size, Nat.zero_add])
    cases depth <;> exact hbytes
  | text length =>
    have htext : Spends size 0 (do return .text (← takeText length) : Parser Item) :=
      (spends_takeText length).bind fun value => .pure (by rw [size, Nat.zero_add])
    cases depth <;> exact htext
  | tag number =>
    cases depth with
    | zero => exact spends_takeTagged fun _ => .throw _
    | succ depth => exact spends_takeTagged (spends_takeItem depth)
  | array length =>
    cases depth with
    | zero => exact .throw _
    | succ depth =>
      refine (spends_takeSeries (spends_takeItem depth) length).bind fun items => .pure ?_
      rw [size, sizeItems_eq, Nat.zero_add]
  | map length =>
    cases depth with
    | zero => exact .throw _
    | succ depth =>
      -- The head of a key has been taken already, the head of its value has not.
      have hentry : ∀ head, Spends (fun e : Item × Item => e.1.size + e.2.size) 0 (do
          let key ← takeItem depth head
          return (key, ← takeItem depth (← takeHead)) : Parser (Item × Item)) := fun head =>
        (spends_takeItem depth head).bind fun key => spends_takeHead.bind fun head =>
          (spends_takeItem depth head).bind fun value => .pure (by
            rw [Nat.zero_add, Nat.add_zero])
      refine (spends_takeSeries hentry length).bind fun entries => .pure ?_
      rw [size, sizeEntries_eq, Nat.zero_add]

/-- There are no more bytes in the strings of an item than in what it is read from. -/
theorem size_le_of_read {text : List UInt8} {item : Item} (h : Item.read text = .ok item) :
    item.size ≤ text.length := by
  have hspends : Spends size 0 (do takeItem deepest (← takeHead)) :=
    spends_takeHead.bind (spends_takeItem deepest)
  rw [read, StateT.run'] at h
  cases hstep : (do takeItem deepest (← takeHead) : Parser Item) text with
  | error fault =>
    rw [hstep] at h
    cases h
  | ok result =>
    obtain ⟨taken, rest⟩ := result
    rw [hstep] at h
    obtain rfl := Except.ok.inj h
    change taken.size ≤ text.length
    have := hspends.le hstep
    omega

end Item

end StatusList.Cbor
