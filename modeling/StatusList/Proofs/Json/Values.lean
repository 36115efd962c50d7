import StatusList.Proofs.Json.Texts

/-!
# Values round trip

A value reads back as it was written, in either layout and also as a line of its own
(`ofText_push_append`), if all numbers in it are integers that fit into 64 bits
(`Fits`). What is read has the members in the order in which they were written.
-/

namespace StatusList.Json

/-- All numbers in the value are integers of 64 bits, with or without a sign. -/
inductive Fits : Json → Prop where
  | null : Fits null
  | boolean (value : Bool) : Fits (boolean value)
  | integer {n : Int} (hleast : -2 ^ 63 ≤ n) (hmost : n < 2 ^ 64) : Fits (number (.integer n))
  | string (value : String) : Fits (string value)
  | array {items : List Json} (h : ∀ item ∈ items, Fits item) : Fits (array items)
  | object {members : List (String × Json)} (h : ∀ member ∈ members, Fits member.2) :
    Fits (object members)

theorem Fits.exact {value : Json} (h : Fits value) : Exact value := by
  induction h with
  | null => exact .null
  | boolean value => exact .boolean value
  | integer => exact .integer _
  | string value => exact .string value
  | array _ ih => exact .array ih
  | object _ ih => exact .object ih

theorem Fits.ofNat {n : Nat} (h : n < 2 ^ 64) : Fits (ofNat n) :=
  .integer (by omega) (by omega)

theorem Fits.record {members : List (String × Option Json)}
    (h : ∀ member ∈ members, ∀ value ∈ member.2, Fits value) : Fits (record members) :=
  .object (forall_mem_record h)

/-! ## Values of nodes -/

theorem ofNodes_itemNodes {items : List Json} (h : ∀ item ∈ items, ofNode item.toNode = .ok item) :
    ofNodes (itemNodes items) = .ok items := by
  induction items with
  | nil => rw [itemNodes, ofNodes]
  | cons item items ih =>
    obtain ⟨hitem, hitems⟩ := List.forall_mem_cons.1 h
    rw [itemNodes, ofNodes, hitem, ih hitems]
    rfl

theorem ofMembers_memberNodes {members : List (String × Json)}
    (h : ∀ member ∈ members, ofNode member.2.toNode = .ok member.2) :
    ofMembers (memberNodes members) = .ok members := by
  induction members with
  | nil => rw [memberNodes, ofMembers]
  | cons member members ih =>
    obtain ⟨key, value⟩ := member
    obtain ⟨hvalue, hmembers⟩ := List.forall_mem_cons.1 h
    rw [memberNodes, ofMembers, hvalue, ih hmembers]
    rfl

/-- A value is that of its node. -/
theorem ofNode_toNode {value : Json} (h : Fits value) : ofNode value.toNode = .ok value := by
  induction h with
  | null => rw [toNode, ofNode]
  | boolean value => rw [toNode, ofNode]
  | integer hleast hmost => rw [toNode, ofNode, Numeral.value_ofInt hleast hmost]; rfl
  | string value => rw [toNode, ofNode]; rfl
  | array _ ih => rw [toNode, ofNode, ofNodes_itemNodes ih]; rfl
  | object _ ih => rw [toNode, ofNode, ofMembers_memberNodes ih]; rfl

/-! ## Values of texts -/

/-- A value reads back as it was written, also where white space comes after it. -/
theorem ofText_push_append {value : Json} (h : Fits value) (layout : Layout) {spaces : String}
    (hspaces : ∀ b ∈ bytes spaces, Token.isSpace b = true) :
    ofText (push layout 0 "" value ++ spaces) = .ok value := by
  have hbytes : (push layout 0 "" value ++ spaces).toUTF8.data.toList =
      bytes (push layout 0 "" value) ++ bytes spaces := by
    rw [Utf8.toList_toUTF8, String.toList_append, Utf8.encode_append]
    rfl
  rw [ofText, hbytes, parse_push_append ofNode h.exact layout 0 hspaces, ofNode_toNode h]

theorem ofText_compact {value : Json} (h : Fits value) : ofText value.compact = .ok value := by
  have hnothing : ∀ b ∈ bytes "", Token.isSpace b = true := List.forall_mem_nil _
  rw [← ofText_push_append h .compact hnothing, String.append_empty, compact]

/-- A value reads back from the lines that its pretty form takes. -/
theorem ofText_pretty_line {value : Json} (h : Fits value) :
    ofText (value.pretty ++ "\n") = .ok value := by
  refine ofText_push_append h .pretty fun b hb => ?_
  obtain rfl := List.mem_singleton.1 hb
  decide

end StatusList.Json
