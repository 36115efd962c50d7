import StatusList.Proofs.Json.Members

/-!
# Arrays in the place of objects

A record takes more than objects: an array of the values of its members, in their order, is read
in the place of an object that has them under their names (`Record.read_eq_ok_iff`). Only members
at the end may be missing of the array, and only such as are not required; nothing may follow the
last (`Record.Fits`).

Both are read value by value into a draft (`Record.putItems_eq_ok_iff`,
`Record.putMembers_zip`). That the names are different matters for the object alone, since
the values of an array are put without a look at names.
-/

namespace StatusList.Json

/-- The members of an object, or those that an array has in its place under the names. -/
def Node.membersAs (names : List String) : Node → List (Literal × Node)
  | object members _ => members
  | array items _ => (names.map .ok).zip items
  | _ => []

namespace Record

variable {δ α : Type} {r : Record δ α}

/-- A node is an object, or an array that may be in its place. -/
inductive Fits (r : Record δ α) : Node → Prop where
  | object {members : List (Literal × Node)} : Fits r (.object members .closed)
  /-- What is missing of the array is not required. -/
  | array {items : List Node} (hlength : items.length ≤ r.fields.length)
    (hmissing : ∀ field ∈ r.fields.drop items.length, field.required = false) :
    Fits r (.array items .closed)

/-- Values put into a draft, each as the next of some fields. -/
def putAll (draft : δ) (fields : List (Field δ)) (items : List Node) : Except Fault δ :=
  (fields.zip items).foldlM (fun draft pair => pair.1.put draft pair.2) draft

/-- The items of an array are put if there is a field for each of them, and no field without an
    item is required. -/
theorem putItems_eq_ok_iff {fields : List (Field δ)} {items : List Node} {count : Nat}
    {draft result : δ} :
    r.putItems .closed count draft fields items = .ok (result, []) ↔
      items.length ≤ fields.length ∧
        (∀ field ∈ fields.drop items.length, field.required = false) ∧
        putAll draft fields items = .ok result := by
  induction fields generalizing items count draft with
  | nil =>
    cases items with
    | nil => simp [putItems, putAll, pure, Except.pure]
    | cons item items => simp [putItems]
  | cons field fields ih =>
    cases items with
    | nil =>
      have hput : putAll draft fields [] = putAll draft (field :: fields) [] := by
        rw [putAll, putAll, List.zip_nil_right, List.zip_nil_right]
      have hraise : Reader.raise (Reader.arrayFault? .closed) = .ok () := rfl
      rw [putItems, hraise]
      cases hrequired : field.required with
      | true =>
        refine iff_of_false ?_ fun h => ?_
        · simp [bind, Except.bind, throw, throwThe, MonadExceptOf.throw]
        · cases hrequired.symm.trans (h.2.1 field List.mem_cons_self)
      | false =>
        have hrest := @ih [] (count + 1) draft
        rw [List.length_nil, List.drop_zero] at hrest
        rw [List.length_nil, List.drop_zero, List.forall_mem_cons, hrequired, ← hput]
        simp only [Nat.zero_le, true_and] at hrest ⊢
        exact hrest
    | cons item items =>
      have hput : putAll draft (field :: fields) (item :: items) =
          (field.put draft item >>= fun draft => putAll draft fields items) := rfl
      rw [putItems, hput]
      simp only [bind_eq_ok_iff, ih, List.length_cons, Nat.add_le_add_iff_right,
        List.drop_succ_cons]
      exact ⟨fun ⟨middle, hitem, hlength, hmissing, hrest⟩ =>
          ⟨hlength, hmissing, middle, hitem, hrest⟩,
        fun ⟨hlength, hmissing, middle, hitem, hrest⟩ =>
          ⟨middle, hitem, hlength, hmissing, hrest⟩⟩

/-- Members that come under the names of fields are put as the values of these. -/
theorem putMembers_zip {fields : List (Field δ)} (hnames : (fields.map (·.name)).Nodup)
    (hfind : ∀ field ∈ fields, r.fields.find? (·.name = field.name) = some field)
    {seen : List String} (hseen : ∀ field ∈ fields, field.name ∉ seen) (items : List Node)
    (draft : δ) :
    r.putMembers seen draft (((fields.map (·.name)).map .ok).zip items) =
      putAll draft fields items := by
  induction fields generalizing items seen draft with
  | nil => rfl
  | cons field fields ih =>
    cases items with
    | nil => rfl
    | cons item items =>
      obtain ⟨hfield, hfields⟩ := List.forall_mem_cons.1 hfind
      obtain ⟨hnew, hnews⟩ := List.forall_mem_cons.1 hseen
      obtain ⟨hname, hnames⟩ := List.nodup_cons.1 hnames
      have hseen' : ∀ field' ∈ fields, field'.name ∉ field.name :: seen := by
        intro field' hmem
        rw [List.mem_cons, not_or]
        exact ⟨fun heq => hname (List.mem_map.2 ⟨field', hmem, heq⟩), hnews field' hmem⟩
      have hput : putAll draft (field :: fields) (item :: items) =
          (field.put draft item >>= fun draft => putAll draft fields items) := rfl
      simp only [List.map_cons, List.zip_cons_cons, putMembers, hput]
      simp only [bind, Except.bind, hfield, hnew, if_false]
      cases field.put draft item with
      | error fault => rfl
      | ok middle => exact ih hnames hfields hseen' items middle

/-- A field is found by its name. -/
theorem find?_of_mem (hnames : r.names.Nodup) {field : Field δ} (h : field ∈ r.fields) :
    r.fields.find? (·.name = field.name) = some field := by
  cases hfind : r.fields.find? (·.name = field.name) with
  | none => exact absurd (List.mem_map_of_mem h) (find?_eq_none_iff.1 hfind)
  | some field' =>
    obtain ⟨hmem, hname⟩ := of_find?_eq_some hfind
    rw [List.inj_on_of_nodup_map hnames hmem h hname]

/-- A node is an object that is read as a value, or an array in the place of one. -/
structure Takes (r : Record δ α) (node : Node) (value : α) : Prop where
  fits : r.Fits node
  read : r.read (.object (node.membersAs r.names) .closed) = .ok value

/-- A record reads objects, arrays like the objects in whose place they are, and nothing else. -/
theorem read_eq_ok_iff (hnames : r.names.Nodup) {node : Node} {value : α} :
    r.read node = .ok value ↔ r.Takes node value := by
  cases node with
  | object members close =>
    constructor
    · intro h
      have hclose : close = .closed := by
        simp only [read, bind_eq_ok_iff, Reader.raise_eq_ok_iff,
          Reader.objectFault?_eq_none_iff] at h
        obtain ⟨_, -, _, hclose, -⟩ := h
        exact hclose
      subst hclose
      exact ⟨.object, h⟩
    · rintro ⟨⟨⟩, h⟩
      exact h
  | array items close =>
    have hmembers : r.putMembers [] r.blank ((r.names.map .ok).zip items) =
        putAll r.blank r.fields items :=
      putMembers_zip hnames (fun _ => find?_of_mem hnames) (fun _ _ => List.not_mem_nil) items _
    simp only [read, bind_eq_ok_iff, Reader.raise_eq_ok_iff, Reader.endFault?_eq_none_iff]
    constructor
    · rintro ⟨⟨draft, rest⟩, hput, value', hvalue, -, ⟨rfl, rfl⟩, hsame⟩
      cases hsame
      obtain ⟨hlength, hmissing, hall⟩ := putItems_eq_ok_iff.1 hput
      exact ⟨.array hlength hmissing,
        read_object_eq_ok_iff.2 ⟨draft, hmembers.trans hall, hvalue⟩⟩
    · rintro ⟨⟨⟩ | ⟨hlength, hmissing⟩, hread⟩
      obtain ⟨draft, hput, hvalue⟩ := read_object_eq_ok_iff.1 hread
      have hall : putAll r.blank r.fields items = .ok draft := hmembers.symm.trans hput
      exact ⟨(draft, []), putItems_eq_ok_iff.2 ⟨hlength, hmissing, hall⟩, value, hvalue, (),
        ⟨rfl, rfl⟩, rfl⟩
  | null | boolean | number | string | broken =>
    refine iff_of_false (fun h => ?_) fun h => ?_
    · cases h
    · cases h.fits

end Record

end StatusList.Json
