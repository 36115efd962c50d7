import StatusList.Json.Value
import StatusList.Proofs.Json.Nodes
import StatusList.Proofs.Json.Numerals

/-!
# Writing values

A value is written after what is there already and leaves that alone (`push_append`), so
that a written array or object is the written forms of its parts, one after the other,
with marks between them (`push_array`, `push_object`).

The node that should be found in a written value is `toNode`. It is whole
(`whole_toNode`), if there are no other numbers in the value than integers (`Exact`).
-/

namespace StatusList.Json

/-! ## Parts of what is written -/

theorem pushChars_eq (out : String) (cs : List Char) : pushChars out cs = out ++ .ofList cs := by
  induction cs generalizing out with
  | nil =>
    rw [String.ofList_nil, String.append_empty]
    rfl
  | cons c cs ih =>
    refine (ih (out.push c)).trans (String.toList_inj.1 ?_)
    simp only [String.toList_append, String.toList_push, String.toList_ofList, List.append_assoc,
      List.singleton_append]

theorem pushString_eq (out s : String) :
    pushString out s = out ++ .ofList ('"' :: s.toList.flatMap escape ++ ['"']) := by
  have hfold : ∀ (cs : List Char) (out : String),
      cs.foldl (fun out c => pushChars out (escape c)) out =
        out ++ .ofList (cs.flatMap escape) := by
    intro cs
    induction cs with
    | nil =>
      intro out
      rw [List.flatMap_nil, String.ofList_nil, String.append_empty]
      rfl
    | cons c cs ih =>
      intro out
      rw [List.foldl_cons, ih, pushChars_eq, List.flatMap_cons, String.ofList_append,
        String.append_assoc]
  apply String.toList_inj.1
  rw [pushString, hfold]
  simp only [String.toList_append, String.toList_push, String.toList_ofList, List.append_assoc,
    List.cons_append, List.nil_append]

mutual

/-- A value is written after what is there already. -/
theorem push_append (layout : Layout) (depth : Nat) (out out' : String) : ∀ value : Json,
    push layout depth (out ++ out') value = out ++ push layout depth out' value
  | .null => by rw [push, push, String.append_assoc]
  | .boolean _ => by rw [push, push, String.append_assoc]
  | .number (.integer _) => by rw [push, push, pushNumber, pushNumber, String.append_assoc]
  | .number (.real _) => by rw [push, push, pushNumber, pushNumber, String.append_assoc]
  | .string _ => by rw [push, push, pushString_eq, pushString_eq, String.append_assoc]
  | .array [] => by rw [push, push, String.append_assoc]
  | .array (item :: items) => by
    rw [push, push]
    simp only [String.append_assoc, push_append layout (depth + 1) out _ item,
      pushItems_append layout (depth + 1) out _ items]
  | .object [] => by rw [push, push, String.append_assoc]
  | .object ((key, value) :: members) => by
    rw [push, push]
    simp only [pushString_eq, String.append_assoc, push_append layout (depth + 1) out _ value,
      pushMembers_append layout (depth + 1) out _ members]

theorem pushItems_append (layout : Layout) (depth : Nat) (out out' : String) :
    ∀ items : List Json,
      pushItems layout depth (out ++ out') items = out ++ pushItems layout depth out' items
  | [] => by rw [pushItems, pushItems]
  | item :: items => by
    rw [pushItems, pushItems]
    simp only [String.append_assoc, push_append layout depth out _ item,
      pushItems_append layout depth out _ items]

theorem pushMembers_append (layout : Layout) (depth : Nat) (out out' : String) :
    ∀ members : List (String × Json),
      pushMembers layout depth (out ++ out') members = out ++ pushMembers layout depth out' members
  | [] => by rw [pushMembers, pushMembers]
  | (key, value) :: members => by
    rw [pushMembers, pushMembers]
    simp only [pushString_eq, String.append_assoc, push_append layout depth out _ value,
      pushMembers_append layout depth out _ members]

end

theorem push_eq (layout : Layout) (depth : Nat) (out : String) (value : Json) :
    push layout depth out value = out ++ push layout depth "" value := by
  rw [← push_append, String.append_empty]

theorem pushItems_eq (layout : Layout) (depth : Nat) (out : String) (items : List Json) :
    pushItems layout depth out items = out ++ pushItems layout depth "" items := by
  rw [← pushItems_append, String.append_empty]

theorem pushMembers_eq (layout : Layout) (depth : Nat) (out : String)
    (members : List (String × Json)) :
    pushMembers layout depth out members = out ++ pushMembers layout depth "" members := by
  rw [← pushMembers_append, String.append_empty]

/-- The literal of a string. -/
def quoted (s : String) : String := .ofList ('"' :: s.toList.flatMap escape ++ ['"'])

/-- What is written of an array. -/
theorem push_array (layout : Layout) (depth : Nat) (item : Json) (items : List Json) :
    push layout depth "" (.array (item :: items)) =
      "[" ++ (layout.newline (depth + 1) ++ (push layout (depth + 1) "" item
        ++ (pushItems layout (depth + 1) "" items ++ (layout.newline depth ++ "]")))) := by
  rw [push, pushItems_eq, push_eq, String.empty_append]
  simp only [String.append_assoc]

theorem pushItems_cons (layout : Layout) (depth : Nat) (item : Json) (items : List Json) :
    pushItems layout depth "" (item :: items) =
      "," ++ (layout.newline depth ++ (push layout depth "" item
        ++ pushItems layout depth "" items)) := by
  rw [pushItems, pushItems_eq, push_eq, String.empty_append]
  simp only [String.append_assoc]

/-- What is written of an object. -/
theorem push_object (layout : Layout) (depth : Nat) (key : String) (value : Json)
    (members : List (String × Json)) :
    push layout depth "" (.object ((key, value) :: members)) =
      "\x7b" ++ (layout.newline (depth + 1) ++ (quoted key ++ (layout.colon
        ++ (push layout (depth + 1) "" value
          ++ (pushMembers layout (depth + 1) "" members
            ++ (layout.newline depth ++ "\x7d")))))) := by
  rw [push, pushMembers_eq, push_eq, pushString_eq, String.empty_append]
  simp only [String.append_assoc, quoted]

theorem pushMembers_cons (layout : Layout) (depth : Nat) (key : String) (value : Json)
    (members : List (String × Json)) :
    pushMembers layout depth "" ((key, value) :: members) =
      "," ++ (layout.newline depth ++ (quoted key ++ (layout.colon
        ++ (push layout depth "" value ++ pushMembers layout depth "" members)))) := by
  rw [pushMembers, pushMembers_eq, push_eq, pushString_eq, String.empty_append]
  simp only [String.append_assoc, quoted]

/-! ## Nodes of values -/

mutual

/-- The node of a value. A real number, of which nothing is said here, has any. -/
def toNode : Json → Node
  | null => .null
  | boolean value => .boolean value
  | number (.integer n) => .number (.ofInt n)
  | number (.real _) => .number default
  | string value => .string (.ok value)
  | array items => .array (itemNodes items) .closed
  | object members => .object (memberNodes members) .closed

/-- The nodes of items. -/
def itemNodes : List Json → List Node
  | [] => []
  | item :: items => toNode item :: itemNodes items

/-- The keys and nodes of members. -/
def memberNodes : List (String × Json) → List (Literal × Node)
  | [] => []
  | (key, value) :: members => (.ok key, toNode value) :: memberNodes members

end

theorem itemNodes_eq (items : List Json) : itemNodes items = items.map toNode := by
  induction items with
  | nil => rfl
  | cons item items ih => rw [itemNodes, ih, List.map_cons]

theorem memberNodes_eq (members : List (String × Json)) :
    memberNodes members = members.map fun member => (.ok member.1, member.2.toNode) := by
  induction members with
  | nil => rfl
  | cons member members ih =>
    obtain ⟨key, value⟩ := member
    rw [memberNodes, ih, List.map_cons]

/-- All numbers in the value are integers. -/
inductive Exact : Json → Prop where
  | null : Exact null
  | boolean (value : Bool) : Exact (boolean value)
  | integer (n : Int) : Exact (number (.integer n))
  | string (value : String) : Exact (string value)
  | array {items : List Json} (h : ∀ item ∈ items, Exact item) : Exact (array items)
  | object {members : List (String × Json)} (h : ∀ member ∈ members, Exact member.2) :
    Exact (object members)

/-- What holds of every member that there is holds of the members of a record. -/
theorem forall_mem_record {P : Json → Prop} {members : List (String × Option Json)}
    (h : ∀ member ∈ members, ∀ value ∈ member.2, P value) :
    ∀ member ∈ members.filterMap fun (key, value) => value.map (key, ·), P member.2 := by
  intro member hmem
  obtain ⟨⟨key, value?⟩, hlisted, hpresent⟩ := List.mem_filterMap.1 hmem
  obtain ⟨value, hvalue, rfl⟩ := Option.map_eq_some_iff.1 hpresent
  exact h _ hlisted value hvalue

theorem whole_toNode {value : Json} (h : Exact value) : value.toNode.Whole := by
  induction h with
  | null => rw [toNode]; exact .null
  | boolean value => rw [toNode]; exact .boolean value
  | integer n => rw [toNode]; exact .number _
  | string value => rw [toNode]; exact .string _
  | array _ ih =>
    rw [toNode, itemNodes_eq]
    exact .array (List.forall_mem_map.2 ih)
  | object _ ih =>
    rw [toNode, memberNodes_eq]
    exact .object (List.forall_mem_map.2 ih)

end StatusList.Json
