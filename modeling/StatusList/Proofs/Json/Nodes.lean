import StatusList.Json.Node
import StatusList.Proofs.Basic

/-!
# Nodes from tokens

A node in which nothing is missing is made of its own tokens again (`ofTokens_tokens`).

The tokens are met one by one, with a frame for every array and object that is open. The
invariant is that the tokens of one node lead from a state where a value has to come to
the state after that node, inside any frames (`Whole.foldl_tokens`).
-/

namespace StatusList.Json.Node

/-! ## Tokens of a node -/

mutual

/-- The tokens of a node, in order. -/
def tokens : Node → List Token
  | null => [.atom .null]
  | boolean value => [.atom (.boolean value)]
  | number numeral => [.atom (.number numeral)]
  | string literal => [.atom (.string literal)]
  | array [] _ => [.openBracket, .closeBracket]
  | array (item :: items) _ => .openBracket :: tokens item ++ itemTokens items ++ [.closeBracket]
  | object [] _ => [.openBrace, .closeBrace]
  | object ((key, value) :: members) _ =>
    .openBrace :: .atom (.string key) :: .colon :: tokens value
      ++ memberTokens members ++ [.closeBrace]
  | broken _ => []

/-- The tokens of items after the first. -/
def itemTokens : List Node → List Token
  | [] => []
  | item :: items => .comma :: tokens item ++ itemTokens items

/-- The tokens of members after the first. -/
def memberTokens : List (Literal × Node) → List Token
  | [] => []
  | (key, value) :: members =>
    .comma :: .atom (.string key) :: .colon :: tokens value ++ memberTokens members

end

/-- Every array and object in the node is closed, and nothing in it is broken. -/
inductive Whole : Node → Prop where
  | null : Whole null
  | boolean (value : Bool) : Whole (boolean value)
  | number (numeral : Numeral) : Whole (number numeral)
  | string (literal : Literal) : Whole (string literal)
  | array {items : List Node} (h : ∀ item ∈ items, Whole item) : Whole (array items .closed)
  | object {members : List (Literal × Node)} (h : ∀ member ∈ members, Whole member.2) :
    Whole (object members .closed)

/-! ## States after tokens -/

open State

/-- The token begins a value. -/
def Begins : Token → Prop
  | .atom _ | .openBracket | .openBrace => True
  | _ => False

/-- Where an item may come, a token that begins a value begins an item. -/
theorem step_opened {token : Token} (h : Begins token) (frames : List Frame) :
    step (.opened frames) token = step (.value (.array [] :: frames)) token := by
  cases token <;> first | rfl | exact absurd h id

theorem step_item {token : Token} (h : Begins token) (items : List Node) (frames : List Frame) :
    step (.item items frames) token = step (.value (.array items :: frames)) token := by
  cases token <;> first | rfl | exact absurd h id

/-- The tokens of a whole node begin a value. -/
theorem Whole.exists_tokens {node : Node} (h : Whole node) :
    ∃ token rest, node.tokens = token :: rest ∧ Begins token := by
  cases h with
  | null => exact ⟨.atom .null, [], by rw [tokens], trivial⟩
  | boolean value => exact ⟨.atom (.boolean value), [], by rw [tokens], trivial⟩
  | number numeral => exact ⟨.atom (.number numeral), [], by rw [tokens], trivial⟩
  | string literal => exact ⟨.atom (.string literal), [], by rw [tokens], trivial⟩
  | @array items _ =>
    cases items with
    | nil => exact ⟨.openBracket, _, by rw [tokens], trivial⟩
    | cons item items => exact ⟨.openBracket, _, by rw [tokens, List.cons_append]; rfl, trivial⟩
  | @object members _ =>
    cases members with
    | nil => exact ⟨.openBrace, _, by rw [tokens], trivial⟩
    | cons member members =>
      obtain ⟨key, value⟩ := member
      exact ⟨.openBrace, _, by rw [tokens, List.cons_append]; rfl, trivial⟩

/-- What the tokens of a node do where a value has to come, whatever is open. -/
def Settles (node : Node) : Prop :=
  ∀ frames, node.tokens.foldl step (.value frames) = .after node frames

theorem foldl_itemTokens {items : List Node} (h : ∀ item ∈ items, Whole item ∧ Settles item)
    (latest : Node) (done : List Node) (frames : List Frame) :
    (itemTokens items ++ [Token.closeBracket]).foldl step (.after latest (.array done :: frames)) =
      .after (.array ((latest :: done).reverse ++ items) .closed) frames := by
  induction items generalizing latest done with
  | nil =>
    rw [itemTokens, List.append_nil]
    rfl
  | cons item items ih =>
    obtain ⟨⟨hwhole, hsettles⟩, hitems⟩ := List.forall_mem_cons.1 h
    obtain ⟨token, rest, htokens, hbegins⟩ := hwhole.exists_tokens
    have hitem : item.tokens.foldl step (.item (latest :: done) frames) =
        .after item (.array (latest :: done) :: frames) := by
      rw [← hsettles, htokens, List.foldl_cons, List.foldl_cons, step_item hbegins]
    -- The comma puts the latest item to those that are done.
    have hcomma : step (.after latest (.array done :: frames)) .comma =
        .item (latest :: done) frames := rfl
    rw [itemTokens, List.cons_append, List.cons_append, List.append_assoc, List.foldl_cons, hcomma,
      List.foldl_append, hitem, ih hitems, List.reverse_cons, List.append_assoc,
      List.singleton_append]

theorem foldl_memberTokens {members : List (Literal × Node)}
    (h : ∀ member ∈ members, Settles member.2) (key : Literal) (latest : Node)
    (done : List (Literal × Node)) (frames : List Frame) :
    (memberTokens members ++ [Token.closeBrace]).foldl step
        (.after latest (.object done key :: frames)) =
      .after (.object (((key, latest) :: done).reverse ++ members) .closed) frames := by
  induction members generalizing key latest done with
  | nil =>
    rw [memberTokens, List.append_nil]
    rfl
  | cons member members ih =>
    obtain ⟨key', value⟩ := member
    obtain ⟨hsettles, hmembers⟩ := List.forall_mem_cons.1 h
    have hkey : [Token.comma, .atom (.string key'), .colon].foldl step
        (.after latest (.object done key :: frames)) =
          .value (.object ((key, latest) :: done) key' :: frames) := rfl
    have htokens : memberTokens ((key', value) :: members) ++ [Token.closeBrace] =
        [Token.comma, .atom (.string key'), .colon] ++
          (value.tokens ++ (memberTokens members ++ [Token.closeBrace])) := by
      rw [memberTokens, List.append_assoc]
      rfl
    rw [htokens, List.foldl_append, hkey, List.foldl_append, hsettles, ih hmembers,
      List.reverse_cons, List.append_assoc, List.singleton_append]

/-- The tokens of a whole node lead from where a value has to come to the state after
    the node. -/
theorem Whole.foldl_tokens {node : Node} (h : Whole node) : Settles node := by
  induction h with
  | null | boolean | number | string => exact fun frames => by rw [tokens]; rfl
  | @array items h ih =>
    intro frames
    cases items with
    | nil =>
      rw [tokens]
      rfl
    | cons item items =>
      obtain ⟨hitem, hitems⟩ := List.forall_mem_cons.1 h
      obtain ⟨hsettles, hrest⟩ := List.forall_mem_cons.1 ih
      obtain ⟨token, rest, htokens, hbegins⟩ := hitem.exists_tokens
      have hfirst : item.tokens.foldl step (.opened frames) =
          .after item (.array [] :: frames) := by
        rw [← hsettles, htokens, List.foldl_cons, List.foldl_cons, step_opened hbegins]
      have hopen : step (.value frames) .openBracket = .opened frames := rfl
      rw [tokens, List.cons_append, List.cons_append, List.append_assoc, List.foldl_cons, hopen,
        List.foldl_append, hfirst]
      exact foldl_itemTokens (fun i hi => ⟨hitems i hi, hrest i hi⟩) item [] frames
  | @object members h ih =>
    intro frames
    cases members with
    | nil =>
      rw [tokens]
      rfl
    | cons member members =>
      obtain ⟨key, value⟩ := member
      obtain ⟨hsettles, hrest⟩ := List.forall_mem_cons.1 ih
      have hkey : [Token.openBrace, .atom (.string key), .colon].foldl step (.value frames) =
          .value (.object [] key :: frames) := rfl
      have htokens : tokens (.object ((key, value) :: members) .closed) =
          [Token.openBrace, .atom (.string key), .colon] ++
            (value.tokens ++ (memberTokens members ++ [Token.closeBrace])) := by
        rw [tokens, List.append_assoc]
        rfl
      rw [htokens, List.foldl_append, hkey, List.foldl_append, hsettles]
      exact foldl_memberTokens hrest key value [] frames

/-- A whole node is made of its tokens, and nothing follows it. -/
theorem ofTokens_tokens {node : Node} (h : Whole node) : ofTokens node.tokens = (node, false) := by
  rw [ofTokens, h.foldl_tokens]
  rfl

end StatusList.Json.Node
