import StatusList.Json.Reader
import StatusList.Proofs.Json.Literals
import StatusList.Proofs.Json.Nodes
import StatusList.Proofs.Json.Numerals

/-!
# The grammar of JSON texts

A JSON text is the tokens of a value, in order, with any white space between them, before the
first and behind the last (`LaidOut`, `IsText`). A token stands in a text as a mark, a word, a
numeral or a literal does (`Token.Spells`).

Every reader finds the node of a text in it (`IsText.parse_eq`). For that, the text is cut where
its tokens end (`LaidOut.ofText_eq`). A numeral alone does not tell where that is, so no two
numbers may stand next to each other; in the tokens of a node they never do (`Whole.apart`).
-/

namespace StatusList.Json

namespace Token

/-! ## Tokens in a text -/

/-- A text is a token. -/
inductive Spells : Token → List UInt8 → Prop where
  | openBracket : Spells .openBracket [91]
  | closeBracket : Spells .closeBracket [93]
  | openBrace : Spells .openBrace [123]
  | closeBrace : Spells .closeBrace [125]
  | comma : Spells .comma [44]
  | colon : Spells .colon [58]
  | null : Spells (.atom .null) [110, 117, 108, 108]
  | true : Spells (.atom (.boolean true)) [116, 114, 117, 101]
  | false : Spells (.atom (.boolean false)) [102, 97, 108, 115, 101]
  | number {numeral : Numeral} {text : List UInt8} (h : numeral.Spells text) :
    Spells (.atom (.number numeral)) text
  | string {literal : Literal} {text : List UInt8} (h : Literal.Spells literal text) :
    Spells (.atom (.string literal)) text

/-- A text is white space and tokens. -/
inductive LaidOut : List Token → List UInt8 → Prop where
  | nil {spaces : List UInt8} (h : ∀ b ∈ spaces, isSpace b = true) : LaidOut [] spaces
  | cons {spaces text rest : List UInt8} {token : Token} {tokens : List Token}
    (hspaces : ∀ b ∈ spaces, isSpace b = true) (htoken : Spells token text)
    (hrest : LaidOut tokens rest) : LaidOut (token :: tokens) (spaces ++ (text ++ rest))

theorem LaidOut.append {tokens tokens' : List Token} {text text' : List UInt8}
    (h : LaidOut tokens text) (h' : LaidOut tokens' text') :
    LaidOut (tokens ++ tokens') (text ++ text') := by
  induction h with
  | @nil spaces hspaces =>
    cases h' with
    | nil hspaces' => exact .nil (List.forall_mem_append.2 ⟨hspaces, hspaces'⟩)
    | cons hspaces' htoken hrest =>
      rw [List.nil_append, ← List.append_assoc]
      exact .cons (List.forall_mem_append.2 ⟨hspaces, hspaces'⟩) htoken hrest
  | cons hspaces htoken _ ih =>
    rw [List.append_assoc, List.append_assoc]
    exact .cons hspaces htoken ih

theorem laidOut_spells {token : Token} {text : List UInt8} (h : Spells token text) :
    LaidOut [token] text := by
  have hnothing : ∀ b ∈ ([] : List UInt8), isSpace b = true := List.forall_mem_nil _
  have hlaid := LaidOut.cons hnothing h (.nil hnothing)
  rwa [List.nil_append, List.append_nil] at hlaid

/-! ## Where tokens end -/

/-- Whether a token is a number. -/
def isNumber : Token → Bool
  | .atom (.number _) => Bool.true
  | _ => Bool.false

/-- Of two tokens next to each other at most one is a number. -/
def Apart (token token' : Token) : Prop :=
  token.isNumber = Bool.false ∨ token'.isNumber = Bool.false

theorem ends_of_isSpace {b : UInt8} (h : isSpace b = true) (rest : List UInt8) :
    Numeral.Ends (b :: rest) := by
  intro b' hb'
  obtain rfl := Option.some.inj hb'
  rw [isSpace, decide_eq_true_iff] at h
  rcases h with rfl | rfl | rfl | rfl <;> decide

/-- Other tokens do not begin like something that goes on with a number. -/
theorem Spells.ends {token : Token} {text : List UInt8} (h : Spells token text)
    (htoken : token.isNumber = Bool.false) (rest : List UInt8) : Numeral.Ends (text ++ rest) := by
  intro b hb
  cases h with
  | number => cases htoken
  | string h =>
    obtain ⟨hbody⟩ := h
    obtain rfl := Option.some.inj hb
    decide
  | _ =>
    obtain rfl := Option.some.inj hb
    decide

theorem LaidOut.ends {tokens : List Token} {text : List UInt8} (h : LaidOut tokens text)
    (htokens : ∀ token ∈ tokens.head?, token.isNumber = Bool.false) : Numeral.Ends text := by
  cases h with
  | nil hspaces =>
    cases text with
    | nil => exact fun b hb => nomatch hb
    | cons b spaces => exact ends_of_isSpace (hspaces b List.mem_cons_self) spaces
  | @cons spaces text rest token tokens hspaces htoken =>
    cases spaces with
    | nil => exact htoken.ends (htokens token rfl) rest
    | cons b spaces => exact ends_of_isSpace (hspaces b List.mem_cons_self) _

/-! ## Cutting a text -/

/-- A minus sign and a digit begin a number. -/
theorem next_of_isDigit {b : UInt8} (h : b = 45 ∨ Numeral.isDigit b = true) (text : List UInt8) :
    next b text = ofNumber (b :: text) := by
  rw [next, if_pos h]
  all_goals
    rintro rfl
    revert h
    decide

/-- A token is the next one where it stands in a text. -/
theorem Spells.next_eq {token : Token} {text : List UInt8} (h : Spells token text)
    {rest : List UInt8} (hrest : token.isNumber = Bool.true → Numeral.Ends rest) :
    ∃ b text', text = b :: text' ∧ isSpace b = Bool.false ∧
      next b (text' ++ rest) = (token, rest) := by
  cases h with
  | @number numeral text h =>
    have hscan := h.scan_append (hrest rfl)
    obtain ⟨b, text, rfl, hfirst⟩ := h.exists_cons
    refine ⟨b, text, rfl, ?_, ?_⟩
    · rw [isSpace, decide_eq_false_iff_not]
      rintro (rfl | rfl | rfl | rfl) <;> revert hfirst <;> decide
    · rw [next_of_isDigit hfirst, ofNumber, ← List.cons_append, hscan]
  | string h =>
    obtain ⟨hbody⟩ := h
    refine ⟨_, _, rfl, by decide, ?_⟩
    change ofString _ = _
    rw [List.append_assoc, List.singleton_append, ofString, hbody.pass_append, hbody.read_append]
  | _ => exact ⟨_, _, rfl, by decide, rfl⟩

theorem ofTextOnto_spaces {spaces : List UInt8} (h : ∀ b ∈ spaces, isSpace b = true)
    (done : List Token) (rest : List UInt8) :
    ofTextOnto done (spaces ++ rest) = ofTextOnto done rest := by
  induction spaces with
  | nil => rfl
  | cons b spaces ih =>
    obtain ⟨hb, hspaces⟩ := List.forall_mem_cons.1 h
    rw [List.cons_append, ofTextOnto, if_pos hb, ih hspaces]

/-- A text is cut into its tokens. -/
theorem LaidOut.ofTextOnto_eq {tokens : List Token} {text : List UInt8} (h : LaidOut tokens text)
    (hapart : tokens.IsChain Apart) (done : List Token) :
    ofTextOnto done text = tokens.reverse ++ done := by
  induction h generalizing done with
  | @nil spaces hspaces =>
    rw [← List.append_nil spaces, ofTextOnto_spaces hspaces, ofTextOnto]
    rfl
  | @cons spaces text rest token tokens hspaces htoken hrest ih =>
    have hends : token.isNumber = Bool.true → Numeral.Ends rest := by
      refine fun hnumber => hrest.ends fun token' htoken' => ?_
      have hor : Apart token token' := (List.isChain_cons.1 hapart).1 token' htoken'
      exact hor.resolve_left (by rw [hnumber]; decide)
    obtain ⟨b, text, rfl, hb, hnext⟩ := htoken.next_eq hends
    rw [ofTextOnto_spaces hspaces, List.cons_append, ofTextOnto, if_neg (by rw [hb]; decide), hnext,
      ih hapart.tail, List.reverse_cons, List.append_assoc]
    rfl

theorem LaidOut.ofText_eq {tokens : List Token} {text : List UInt8} (h : LaidOut tokens text)
    (hapart : tokens.IsChain Apart) : ofText text = tokens := by
  rw [ofText, h.ofTextOnto_eq hapart, List.append_nil, List.reverse_reverse]

end Token

/-! ## Texts of nodes -/

namespace Node

open Token (Apart LaidOut)

/-- Tokens that may stand behind any others: numbers in them are apart, and none is first. -/
structure Trails (tokens : List Token) : Prop where
  apart : tokens.IsChain Apart
  head : ∀ token ∈ tokens.head?, token.isNumber = false

theorem isChain_append {tokens rest : List Token} (h : tokens.IsChain Apart)
    (hrest : Trails rest) : (tokens ++ rest).IsChain Apart :=
  List.isChain_append.2 ⟨h, hrest.apart, fun _ _ token htoken => .inr (hrest.head token htoken)⟩

/-- A token that is no number may stand between any others. -/
theorem trails_cons {token : Token} (h : token.isNumber = false) {tokens : List Token}
    (htokens : tokens.IsChain Apart) : Trails (token :: tokens) := by
  refine ⟨List.isChain_cons.2 ⟨fun _ _ => .inl h, htokens⟩, fun token' htoken' => ?_⟩
  rwa [← Option.some.inj htoken']

theorem trails_itemTokens {items : List Node} (h : ∀ item ∈ items, item.tokens.IsChain Apart) :
    Trails (itemTokens items ++ [Token.closeBracket]) := by
  induction items with
  | nil => exact trails_cons rfl .nil
  | cons item items ih =>
    obtain ⟨hitem, hitems⟩ := List.forall_mem_cons.1 h
    rw [itemTokens, List.cons_append, List.cons_append, List.append_assoc]
    exact trails_cons rfl (isChain_append hitem (ih hitems))

theorem trails_memberTokens {members : List (Literal × Node)}
    (h : ∀ member ∈ members, member.2.tokens.IsChain Apart) :
    Trails (memberTokens members ++ [Token.closeBrace]) := by
  induction members with
  | nil => exact trails_cons rfl .nil
  | cons member members ih =>
    obtain ⟨key, value⟩ := member
    obtain ⟨hvalue, hmembers⟩ := List.forall_mem_cons.1 h
    rw [memberTokens, List.cons_append, List.cons_append, List.cons_append, List.cons_append,
      List.append_assoc]
    exact trails_cons rfl (trails_cons rfl (trails_cons rfl
      (isChain_append hvalue (ih hmembers))).apart).apart

/-- In the tokens of a node no two numbers stand next to each other. -/
theorem Whole.apart {node : Node} (h : Whole node) : node.tokens.IsChain Apart := by
  induction h with
  | null | boolean | number | string =>
    rw [tokens]
    exact .singleton _
  | @array items _ ih =>
    cases items with
    | nil =>
      rw [tokens]
      exact (trails_cons rfl (.singleton _)).apart
    | cons item items =>
      obtain ⟨hitem, hitems⟩ := List.forall_mem_cons.1 ih
      rw [tokens, List.cons_append, List.cons_append, List.append_assoc]
      exact (trails_cons rfl (isChain_append hitem (trails_itemTokens hitems))).apart
  | @object members _ ih =>
    cases members with
    | nil =>
      rw [tokens]
      exact (trails_cons rfl (.singleton _)).apart
    | cons member members =>
      obtain ⟨key, value⟩ := member
      obtain ⟨hvalue, hmembers⟩ := List.forall_mem_cons.1 ih
      rw [tokens, List.cons_append, List.cons_append, List.cons_append, List.cons_append,
        List.append_assoc]
      exact (trails_cons rfl (trails_cons rfl (trails_cons rfl
        (isChain_append hvalue (trails_memberTokens hmembers))).apart).apart).apart

/-- A text is one of the node: nothing is missing in the node, and the text is its tokens with
    white space anywhere between them. -/
structure IsText (node : Node) (text : List UInt8) : Prop where
  whole : Whole node
  laidOut : LaidOut node.tokens text

/-- The node of a text is found in it, and nothing follows it. -/
theorem IsText.ofTokens_eq {node : Node} {text : List UInt8} (h : IsText node text) :
    ofTokens (Token.ofText text) = (node, false) := by
  rw [h.laidOut.ofText_eq h.whole.apart, ofTokens_tokens h.whole]

/-- What is read from a text is read from its node. -/
theorem IsText.parse_eq {α : Type} {node : Node} {text : List UInt8} (h : IsText node text)
    (reader : Reader α) : parse reader text = reader node := by
  rw [parse, h.ofTokens_eq]
  simp only
  cases reader node <;> rfl

end Node

end StatusList.Json
