import StatusList.Json.Reader
import StatusList.Proofs.Basic

/-!
# What readers accept

A reader that succeeds tells what the node was that it has read: a string is read from a literal
that is in order and from nothing else (`Reader.string_eq_ok_iff`), an array has to be closed
and each of its items read (`Reader.list_eq_ok_iff`), and a text has to be one value with
nothing after it (`parse_eq_ok_iff`).

A record passes over members that it does not know and refuses to meet one of its own twice
(`Record.putMembers_cons_eq_ok_iff`). If it has one member, an object that it reads has that
member once, or not at all (`Record.putMembers_of_single`).
-/

namespace StatusList.Json

/-- The array of texts. -/
def Node.ofStrings (values : List String) : Node :=
  .array (values.map fun value => .string (.ok value)) .closed

theorem Node.ofStrings_injective : Function.Injective ofStrings := by
  intro values values' h
  have hitem : Function.Injective fun value : String => string (.ok value) := fun _ _ heq =>
    Except.ok.inj (string.inj heq)
  exact List.map_injective_iff.2 hitem (array.inj h).1

namespace Reader

theorem raise_eq_ok_iff {fault : Option Fault} {u : Unit} :
    raise fault = .ok u ↔ fault = none := by
  cases fault <;> simp [raise]

theorem arrayFault?_eq_none_iff {close : Close} : arrayFault? close = none ↔ close = .closed := by
  cases close <;> simp [arrayFault?]

theorem objectFault?_eq_none_iff {close : Close} :
    objectFault? close = none ↔ close = .closed := by
  cases close <;> simp [objectFault?]

theorem endFault?_eq_none_iff {items : List Node} {close : Close} :
    endFault? items close = none ↔ items = [] ∧ close = .closed := by
  cases items <;> cases close <;> simp [endFault?, arrayFault?]

theorem string_eq_ok_iff {node : Node} {value : String} :
    string node = .ok value ↔ node = .string (.ok value) := by
  cases node <;> simp [string]

theorem list_eq_ok_iff {α : Type} {reader : Reader α} {node : Node} {values : List α} :
    list reader node = .ok values ↔
      ∃ items, node = .array items .closed ∧ items.mapM reader = .ok values := by
  cases node <;>
    simp [list, bind_eq_ok_iff, raise_eq_ok_iff, arrayFault?_eq_none_iff, pure, Except.pure,
      and_comm]

theorem mapM_string_eq_ok_iff {items : List Node} {values : List String} :
    items.mapM string = .ok values ↔ items = values.map fun value => .string (.ok value) := by
  induction items generalizing values with
  | nil => cases values <;> simp [pure, Except.pure]
  | cons item items ih =>
    rw [List.mapM_cons]
    simp only [bind_eq_ok_iff, string_eq_ok_iff, ih, pure, Except.pure, Except.ok.injEq]
    cases values <;> simp

/-- The one node that is read as these texts is the array of them. -/
theorem list_string_eq_ok_iff {node : Node} {values : List String} :
    list string node = .ok values ↔ node = .ofStrings values := by
  simp only [list_eq_ok_iff, mapM_string_eq_ok_iff, Node.ofStrings]
  exact ⟨fun ⟨_, hnode, hitems⟩ => hitems ▸ hnode, fun hnode => ⟨_, hnode, rfl⟩⟩

end Reader

/-- A text is read if it is one value, and that value is. -/
theorem parse_eq_ok_iff {α : Type} {reader : Reader α} {text : List UInt8} {value : α} :
    parse reader text = .ok value ↔
      ∃ node, Node.ofTokens (Token.ofText text) = (node, false) ∧ reader node = .ok value := by
  rw [parse]
  obtain ⟨node, more⟩ := Node.ofTokens (Token.ofText text)
  cases more <;> simp [bind_eq_ok_iff, pure, Except.pure, throw, throwThe, MonadExceptOf.throw]

/-- The values of the members of a name. -/
def valuesNamed (name : String) (members : List (Literal × Node)) : List Node :=
  members.filterMap fun
    | (.ok key, value) => if key = name then some value else none
    | (.error _, _) => none

theorem valuesNamed_cons (name key : String) (value : Node) (members : List (Literal × Node)) :
    valuesNamed name ((.ok key, value) :: members) =
      if key = name then value :: valuesNamed name members else valuesNamed name members := by
  by_cases h : key = name <;> simp [valuesNamed, h]

namespace Record

variable {δ α : Type} {r : Record δ α} {field : Field δ}

/-- The names that a record knows. -/
def names (r : Record δ α) : List String := r.fields.map (·.name)

theorem find?_eq_none_iff {name : String} :
    r.fields.find? (·.name = name) = none ↔ name ∉ r.names := by
  simp [names]

/-- What is found under a name is a field of that name. -/
theorem of_find?_eq_some {name : String} (h : r.fields.find? (·.name = name) = some field) :
    field ∈ r.fields ∧ field.name = name := by
  have hname := List.find?_some h
  rw [decide_eq_true_iff] at hname
  exact ⟨List.mem_of_find?_eq_some h, hname⟩

/-- A member is passed over if its name is unknown, and else put into the draft unless one of
    its name has been before. -/
theorem putMembers_cons_eq_ok_iff {key : Literal} {value : Node} {members : List (Literal × Node)}
    {seen : List String} {draft result : δ} :
    r.putMembers seen draft ((key, value) :: members) = .ok result ↔
      ∃ name, key = .ok name ∧
        ((r.fields.find? (·.name = name) = none ∧ value.pass? = none ∧
          r.putMembers seen draft members = .ok result) ∨
        ∃ field middle, r.fields.find? (·.name = name) = some field ∧ name ∉ seen ∧
          field.put draft value = .ok middle ∧
          r.putMembers (name :: seen) middle members = .ok result) := by
  rw [putMembers, bind_eq_ok_iff]
  refine exists_congr fun name => and_congr_right fun _ => ?_
  cases hfind : r.fields.find? (·.name = name) with
  | none => simp [bind_eq_ok_iff, Reader.raise_eq_ok_iff]
  | some field =>
    by_cases hseen : name ∈ seen
    · simp [hseen, bind_eq_ok_iff, throw, throwThe, MonadExceptOf.throw]
    · simp [hseen, bind_eq_ok_iff]

/-- Where a known name has been seen, no other member may have it. -/
theorem valuesNamed_eq_nil_of_seen {name : String} (hname : name ∈ r.names)
    {members : List (Literal × Node)} {seen : List String} (hseen : name ∈ seen)
    {draft result : δ} (h : r.putMembers seen draft members = .ok result) :
    valuesNamed name members = [] := by
  induction members generalizing seen draft with
  | nil => rfl
  | cons member members ih =>
    obtain ⟨key, value⟩ := member
    obtain ⟨name', rfl, hcases⟩ := putMembers_cons_eq_ok_iff.1 h
    rcases hcases with ⟨hnone, -, hrest⟩ | ⟨field, middle, -, hnew, -, hrest⟩
    · have hne : name' ≠ name := fun heq => find?_eq_none_iff.1 hnone (heq ▸ hname)
      rw [valuesNamed_cons, if_neg hne, ih hseen hrest]
    · have hne : name' ≠ name := fun heq => hnew (heq ▸ hseen)
      rw [valuesNamed_cons, if_neg hne, ih (List.mem_cons_of_mem _ hseen) hrest]

/-- Where there is one known member, members are put if it is not among them, or among them
    once. -/
theorem putMembers_of_single (hfields : r.fields = [field]) {members : List (Literal × Node)}
    {seen : List String} {draft result : δ} (h : r.putMembers seen draft members = .ok result) :
    valuesNamed field.name members = [] ∧ result = draft ∨
      ∃ value, valuesNamed field.name members = [value] ∧ field.put draft value = .ok result := by
  have hnames : r.names = [field.name] := by rw [names, hfields, List.map_singleton]
  induction members generalizing seen draft with
  | nil =>
    rw [putMembers, Except.ok.injEq] at h
    exact .inl ⟨rfl, h.symm⟩
  | cons member members ih =>
    obtain ⟨key, value⟩ := member
    obtain ⟨name, rfl, ⟨hnone, -, hrest⟩ | ⟨field', middle, hfind, hnew, hput, hrest⟩⟩ :=
      putMembers_cons_eq_ok_iff.1 h
    · rw [find?_eq_none_iff, hnames, List.mem_singleton] at hnone
      rw [valuesNamed_cons, if_neg hnone]
      exact ih hrest
    · obtain ⟨hmem, rfl⟩ := of_find?_eq_some hfind
      rw [hfields, List.mem_singleton] at hmem
      subst hmem
      have hnil : valuesNamed field'.name members = [] := by
        refine valuesNamed_eq_nil_of_seen ?_ List.mem_cons_self hrest
        rw [hnames]
        exact List.mem_singleton_self _
      rw [valuesNamed_cons, if_pos rfl, hnil]
      obtain ⟨-, rfl⟩ | ⟨value', hvalue, -⟩ := ih hrest
      · exact .inr ⟨value, rfl, hput⟩
      · rw [hnil] at hvalue
        cases hvalue

end Record

end StatusList.Json
