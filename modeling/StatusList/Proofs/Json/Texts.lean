import StatusList.Proofs.Json.Grammar
import StatusList.Proofs.Json.Writing

/-!
# Written values

A written value is a text of its node, in either layout (`isText_push`), and so every reader
finds the node there (`parse_push`).

What is written of a value is put together of what is written of its parts, of marks and of
white space, and each of these pieces is laid out by itself (`laidOut_append`).
-/

namespace StatusList

namespace Json

open Token (LaidOut laidOut_spells)

/-- The bytes of a text. -/
def bytes (text : String) : List UInt8 := Utf8.encode text.toList

theorem bytes_append (text text' : String) : bytes (text ++ text') = bytes text ++ bytes text' := by
  rw [bytes, String.toList_append, Utf8.encode_append]
  rfl

/-! ## Pieces -/

theorem laidOut_append {text text' : String} {tokens tokens' : List Token}
    (h : LaidOut tokens (bytes text)) (h' : LaidOut tokens' (bytes text')) :
    LaidOut (tokens ++ tokens') (bytes (text ++ text')) := by
  rw [bytes_append]
  exact h.append h'

theorem laidOut_empty : LaidOut [] (bytes "") := .nil (List.forall_mem_nil _)

/-- The marks that stand between parts, with their tokens. -/
inductive Mark : String → Token → Prop where
  | openBracket : Mark "[" .openBracket
  | closeBracket : Mark "]" .closeBracket
  | openBrace : Mark "\x7b" .openBrace
  | closeBrace : Mark "\x7d" .closeBrace
  | comma : Mark "," .comma
  | colon : Mark ":" .colon

theorem laidOut_mark {mark : String} {token : Token} (h : Mark mark token) :
    LaidOut [token] (bytes mark) := by
  cases h with
  | openBracket => exact laidOut_spells .openBracket
  | closeBracket => exact laidOut_spells .closeBracket
  | openBrace => exact laidOut_spells .openBrace
  | closeBrace => exact laidOut_spells .closeBrace
  | comma => exact laidOut_spells .comma
  | colon => exact laidOut_spells .colon

/-- What stands before a part is white space. -/
theorem laidOut_newline (layout : Layout) (depth : Nat) :
    LaidOut [] (bytes (layout.newline depth)) := by
  cases layout with
  | compact => exact laidOut_empty
  | pretty =>
    refine .nil fun b hb => ?_
    rw [Layout.newline, bytes_append, List.mem_append] at hb
    rcases hb with hb | hb
    · obtain rfl := List.mem_singleton.1 hb
      decide
    · rw [bytes, String.toList_ofList] at hb
      obtain ⟨c, hc, hb⟩ := List.mem_flatMap.1 hb
      obtain rfl := List.eq_of_mem_replicate hc
      obtain rfl := List.mem_singleton.1 hb
      decide

theorem laidOut_colon (layout : Layout) : LaidOut [.colon] (bytes layout.colon) := by
  cases layout with
  | compact => exact laidOut_mark .colon
  | pretty =>
    have hspace : LaidOut [] (bytes " ") := .nil fun b hb => by
      obtain rfl := List.mem_singleton.1 hb
      decide
    exact laidOut_append (laidOut_mark .colon) hspace

theorem laidOut_quoted (s : String) : LaidOut [.atom (.string (.ok s))] (bytes (quoted s)) := by
  rw [bytes, quoted, String.toList_ofList]
  exact laidOut_spells (.string (Literal.spells_escaped s))

/-! ## What is written -/

/-- A value at some depth is laid out as the tokens of its node. -/
def LaidOutAt (layout : Layout) (depth : Nat) (value : Json) : Prop :=
  LaidOut value.toNode.tokens (bytes (push layout depth "" value))

/-- Items after the first are laid out if each item is. -/
theorem laidOut_pushItems {layout : Layout} {depth : Nat} {items : List Json}
    (h : ∀ item ∈ items, LaidOutAt layout depth item) :
    LaidOut (Node.itemTokens (itemNodes items)) (bytes (pushItems layout depth "" items)) := by
  induction items with
  | nil =>
    rw [pushItems]
    exact laidOut_empty
  | cons item items ih =>
    obtain ⟨hitem, hitems⟩ := List.forall_mem_cons.1 h
    have hlaid := laidOut_append (laidOut_mark .comma)
      (laidOut_append (laidOut_newline layout depth) (laidOut_append hitem (ih hitems)))
    rwa [← pushItems_cons] at hlaid

/-- Members after the first are laid out if the value of each is. -/
theorem laidOut_pushMembers {layout : Layout} {depth : Nat} {members : List (String × Json)}
    (h : ∀ member ∈ members, LaidOutAt layout depth member.2) :
    LaidOut (Node.memberTokens (memberNodes members))
      (bytes (pushMembers layout depth "" members)) := by
  induction members with
  | nil =>
    rw [pushMembers]
    exact laidOut_empty
  | cons member members ih =>
    obtain ⟨key, value⟩ := member
    obtain ⟨hvalue, hmembers⟩ := List.forall_mem_cons.1 h
    have hlaid := laidOut_append (laidOut_mark .comma)
      (laidOut_append (laidOut_newline layout depth) (laidOut_append (laidOut_quoted key)
        (laidOut_append (laidOut_colon layout) (laidOut_append hvalue (ih hmembers)))))
    rwa [← pushMembers_cons] at hlaid

/-- A value is laid out as the tokens of its node. -/
theorem laidOut_push {value : Json} (h : Exact value) (layout : Layout) (depth : Nat) :
    LaidOutAt layout depth value := by
  induction h generalizing depth with
  | null =>
    rw [LaidOutAt, push, toNode, Node.tokens]
    exact laidOut_spells .null
  | boolean value =>
    rw [LaidOutAt, push, toNode, Node.tokens]
    cases value with
    | true => exact laidOut_spells .true
    | false => exact laidOut_spells .false
  | integer n =>
    rw [LaidOutAt, push, toNode, Node.tokens, pushNumber, String.empty_append]
    exact laidOut_spells (.number (Numeral.spells_toString n))
  | string value =>
    rw [LaidOutAt, push, toNode, Node.tokens, pushString_eq, String.empty_append]
    exact laidOut_quoted value
  | @array items h ih =>
    have hclose := laidOut_mark .closeBracket
    cases items with
    | nil =>
      rw [LaidOutAt, push, toNode, itemNodes, Node.tokens, String.empty_append]
      exact (laidOut_append (laidOut_mark .openBracket) hclose :)
    | cons item items =>
      obtain ⟨hitem, hitems⟩ := List.forall_mem_cons.1 ih
      have hrest := laidOut_pushItems fun i hi => hitems i hi (depth + 1)
      have hlaid := laidOut_append (laidOut_mark .openBracket)
        (laidOut_append (laidOut_newline layout (depth + 1)) (laidOut_append (hitem (depth + 1))
          (laidOut_append hrest (laidOut_append (laidOut_newline layout depth) hclose))))
      rw [← push_array] at hlaid
      rw [LaidOutAt, toNode, itemNodes, Node.tokens, List.append_assoc]
      exact hlaid
  | @object members h ih =>
    have hclose := laidOut_mark .closeBrace
    cases members with
    | nil =>
      rw [LaidOutAt, push, toNode, memberNodes, Node.tokens, String.empty_append]
      exact (laidOut_append (laidOut_mark .openBrace) hclose :)
    | cons member members =>
      obtain ⟨key, value⟩ := member
      obtain ⟨hvalue, hmembers⟩ := List.forall_mem_cons.1 ih
      have hrest := laidOut_pushMembers fun i hi => hmembers i hi (depth + 1)
      have hlaid := laidOut_append (laidOut_mark .openBrace)
        (laidOut_append (laidOut_newline layout (depth + 1)) (laidOut_append (laidOut_quoted key)
          (laidOut_append (laidOut_colon layout) (laidOut_append (hvalue (depth + 1))
            (laidOut_append hrest (laidOut_append (laidOut_newline layout depth) hclose))))))
      rw [← push_object] at hlaid
      rw [LaidOutAt, toNode, memberNodes, Node.tokens, List.append_assoc]
      exact hlaid

/-- What is written of a value is a text of its node, also where white space comes after it. -/
theorem isText_push {value : Json} (h : Exact value) (layout : Layout) (depth : Nat)
    {spaces : List UInt8} (hspaces : ∀ b ∈ spaces, Token.isSpace b = true) :
    value.toNode.IsText (bytes (push layout depth "" value) ++ spaces) := by
  have hlaid := (laidOut_push h layout depth).append (.nil hspaces)
  rw [List.append_nil] at hlaid
  exact ⟨whole_toNode h, hlaid⟩

/-! ## Reading what is written -/

/-- Every reader finds the node of a value in its written form, also where white space comes
    after that. -/
theorem parse_push_append {α : Type} (reader : Reader α) {value : Json} (h : Exact value)
    (layout : Layout) (depth : Nat) {spaces : List UInt8}
    (hspaces : ∀ b ∈ spaces, Token.isSpace b = true) :
    parse reader (bytes (push layout depth "" value) ++ spaces) = reader value.toNode :=
  (isText_push h layout depth hspaces).parse_eq reader

theorem isText_compact {value : Json} (h : Exact value) :
    value.toNode.IsText value.compact.toUTF8.data.toList := by
  have htext := isText_push h .compact 0 (List.forall_mem_nil _)
  rwa [List.append_nil, bytes, ← Utf8.toList_toUTF8] at htext

theorem parse_compact {α : Type} (reader : Reader α) {value : Json} (h : Exact value) :
    parse reader value.compact.toUTF8.data.toList = reader value.toNode :=
  (isText_compact h).parse_eq reader

theorem parse_pretty_line {α : Type} (reader : Reader α) {value : Json} (h : Exact value) :
    parse reader (value.pretty ++ "\n").toUTF8.data.toList = reader value.toNode := by
  have hbytes : (value.pretty ++ "\n").toUTF8.data.toList =
      bytes (push .pretty 0 "" value) ++ bytes "\n" := by
    rw [Utf8.toList_toUTF8, String.toList_append, Utf8.encode_append]
    rfl
  rw [hbytes]
  refine parse_push_append reader h .pretty 0 fun b hb => ?_
  obtain rfl := List.mem_singleton.1 hb
  decide

end Json

end StatusList
