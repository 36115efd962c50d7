import StatusList.Proofs.Json.Grammar

/-!
# Texts that hold objects or arrays

A text holds an object if the first byte of it that is no white space is an opening brace, and
only then, whatever else is right or wrong with it (`holdsObject_iff`). With an opening bracket it
holds an array in the same way (`opening?_ofText_eq_some_iff`).

What the tokens of a text make is settled by the first of them. Everything after it goes into
what that token has begun: a *begun* state is never left for one where nothing has been begun,
and the outermost thing that is open stays what it is (`State.Begun.step`), also where the text
ends too early and what is open is never closed (`Node.opening?_fill`).
-/

namespace StatusList.Json

/-- The byte that opens an array or an object. -/
def Token.opening? : Token → Option UInt8
  | openBracket => some 91
  | openBrace => some 123
  | _ => none

/-! ## What is made -/

namespace Node

/-- Whether a node is an object, whole or not. -/
def isObject : Node → Bool
  | object .. => true
  | _ => false

/-- The byte that opens a node, if it is an array or an object, whole or not. -/
def opening? : Node → Option UInt8
  | array .. => some 91
  | object .. => some 123
  | _ => none

theorem isObject_iff {node : Node} : node.isObject = true ↔ node.opening? = some 123 := by
  cases node <;> simp [isObject, opening?]

/-- The byte that opens what a frame is of. -/
def Frame.opening? : Frame → Option UInt8
  | array .. => some 91
  | object .. => some 123

/-- The byte that opens the outermost of some frames, or else what they are around. -/
def outermost (inner : Option UInt8) : List Frame → Option UInt8
  | [] => inner
  | frame :: frames => outermost frame.opening? frames

theorem opening?_fill (node : Node) (frames : List Frame) :
    (fill node frames).opening? = outermost node.opening? frames := by
  induction frames generalizing node with
  | nil => rfl
  | cons frame frames ih =>
    cases frame with
    | array items => exact ih (arrayOf (node :: items) .missing)
    | object members key => exact ih (objectOf ((key, node) :: members) .missing)

namespace State

/-- The byte that opens what has been begun. -/
def opening? : State → Option UInt8
  | value frames => outermost none frames
  | opened frames | item _ frames => outermost (some 91) frames
  | openedObject frames | key _ frames | colon _ _ frames => outermost (some 123) frames
  | after node frames => outermost node.opening? frames
  | settled node _ => node.opening?

/-- Something has been begun. -/
def Begun (state : State) : Prop := state ≠ .value []

variable {state : State}

theorem begun_stop (node : Node) (frames : List Frame) :
    Begun (stop node frames) ∧ (stop node frames).opening? = outermost node.opening? frames :=
  ⟨State.noConfusion, opening?_fill node frames⟩

/-- A value that is begun inside a frame leaves what is outermost as it is. -/
theorem begun_stepValue (frame : Frame) (frames : List Frame) (token : Token) :
    Begun (stepValue (frame :: frames) token) ∧
      (stepValue (frame :: frames) token).opening? = outermost frame.opening? frames := by
  cases token with
  | atom | openBracket | openBrace => exact ⟨State.noConfusion, rfl⟩
  | _ => exact begun_stop _ (frame :: frames)

theorem begun_stepKey (members : List (Literal × Node)) (frames : List Frame) (token : Token) :
    Begun (stepKey members frames token) ∧
      (stepKey members frames token).opening? = outermost (some 123) frames := by
  rw [stepKey.eq_def]
  split
  · exact ⟨State.noConfusion, rfl⟩
  all_goals exact begun_stop _ _

/-- A token goes into what has been begun. -/
theorem Begun.step (h : Begun state) (token : Token) :
    Begun (state.step token) ∧ (state.step token).opening? = state.opening? := by
  cases state with
  | value frames =>
    cases frames with
    | nil => exact absurd rfl h
    | cons frame frames => exact begun_stepValue frame frames token
  | opened frames =>
    have hvalue := begun_stepValue (.array []) frames token
    cases token with
    | closeBracket => exact ⟨State.noConfusion, rfl⟩
    | _ => exact hvalue
  | item items frames =>
    have hvalue := begun_stepValue (.array items) frames token
    cases token with
    | closeBracket => exact begun_stop _ _
    | _ => exact hvalue
  | openedObject frames =>
    have hkey := begun_stepKey [] frames token
    cases token with
    | closeBrace => exact ⟨State.noConfusion, rfl⟩
    | _ => exact hkey
  | key members frames =>
    have hkey := begun_stepKey members frames token
    cases token with
    | closeBrace => exact begun_stop _ _
    | _ => exact hkey
  | colon members key frames =>
    cases token with
    | colon => exact ⟨fun hvalue => List.cons_ne_nil _ _ (State.value.inj hvalue), rfl⟩
    | _ => exact begun_stop _ _
  | after node frames =>
    rcases frames with _ | ⟨⟨items⟩ | ⟨members, key⟩, frames⟩
    · exact ⟨State.noConfusion, rfl⟩
    · cases token with
      | comma | closeBracket => exact ⟨State.noConfusion, rfl⟩
      | _ => exact begun_stop _ _
    · cases token with
      | comma | closeBrace => exact ⟨State.noConfusion, rfl⟩
      | _ => exact begun_stop _ _
  | settled node more => exact ⟨State.noConfusion, rfl⟩

/-- All tokens go into what has been begun. -/
theorem Begun.foldl (h : Begun state) (tokens : List Token) :
    (tokens.foldl State.step state).opening? = state.opening? := by
  induction tokens generalizing state with
  | nil => rfl
  | cons token tokens ih =>
    obtain ⟨hbegun, hopening⟩ := h.step token
    rw [List.foldl_cons, ih hbegun, hopening]

theorem opening?_finish (state : State) : state.finish.opening? = state.opening? := by
  rw [finish.eq_def]
  split <;> first | rfl | exact opening?_fill _ _

/-- The first token settles what is made. -/
theorem begun_stepValue_nil (token : Token) :
    Begun (stepValue [] token) ∧ (stepValue [] token).opening? = token.opening? := by
  cases token with
  | atom atom => cases atom <;> exact ⟨State.noConfusion, rfl⟩
  | _ => exact ⟨State.noConfusion, rfl⟩

end State

/-- Tokens make what the first of them opens. -/
theorem opening?_ofTokens (tokens : List Token) :
    (ofTokens tokens).1.opening? = tokens.head?.bind Token.opening? := by
  rw [ofTokens, State.opening?_finish]
  cases tokens with
  | nil => rfl
  | cons token tokens =>
    obtain ⟨hbegun, hopening⟩ := State.begun_stepValue_nil token
    exact (hbegun.foldl tokens).trans hopening

end Node

/-! ## Which token is first -/

namespace Token

/-- The tokens so far stay where they are, and the next is put before them. -/
theorem ofTextOnto_append (text : List UInt8) (done earlier : List Token) :
    ofTextOnto (done ++ earlier) text = ofTextOnto done text ++ earlier := by
  induction done, text using ofTextOnto.induct with
  | case1 done => simp only [ofTextOnto]
  | case2 done b text hspace ih => rw [ofTextOnto, if_pos hspace, ofTextOnto, if_pos hspace, ih]
  | case3 done b text hspace _ ih =>
    rw [ofTextOnto, if_neg hspace, ofTextOnto, if_neg hspace, ← ih, List.cons_append]

theorem ofText_spaces {spaces : List UInt8} (h : ∀ b ∈ spaces, isSpace b = true)
    (text : List UInt8) : ofText (spaces ++ text) = ofText text := by
  rw [ofText, ofTextOnto_spaces h, ofText]

theorem head?_ofText_cons {b : UInt8} (h : isSpace b = false) (text : List UInt8) :
    (ofText (b :: text)).head? = some (next b text).1 := by
  have hne : ¬isSpace b = true := by rw [h]; decide
  have hdone := ofTextOnto_append (next b text).2 [] [(next b text).1]
  rw [List.nil_append] at hdone
  rw [ofText, ofTextOnto, if_neg hne, hdone, List.reverse_append]
  rfl

/-- Only an opening bracket or brace is read as one. -/
theorem opening?_next (b : UInt8) (text : List UInt8) :
    (next b text).1.opening? = if b ∈ [91, 123] then some b else none := by
  have hword : ∀ letters atom, (ofWord letters atom text).1.opening? = none := by
    intro letters atom
    unfold ofWord
    split <;> rfl
  unfold next
  split
  any_goals rfl
  · unfold ofString
    split
    · rfl
    · split <;> rfl
  · exact hword _ _
  · exact hword _ _
  · exact hword _ _
  · next hbracket _ hbrace _ _ _ _ _ _ _ =>
    have hnone : b ∉ [91, 123] := by
      rw [List.mem_pair, not_or]
      exact ⟨hbracket, hbrace⟩
    rw [if_neg hnone]
    split
    · unfold ofNumber
      split <;> rfl
    · rfl

end Token

/-- A text holds an array or an object if it begins with the byte that opens it, after white
    space. -/
theorem opening?_ofText_eq_some_iff {text : List UInt8} {b : UInt8} :
    (Node.ofTokens (Token.ofText text)).1.opening? = some b ↔
      b ∈ [91, 123] ∧
        ∃ spaces rest, (∀ s ∈ spaces, Token.isSpace s = true) ∧ text = spaces ++ b :: rest := by
  rw [Node.opening?_ofTokens]
  constructor
  · intro h
    induction text with
    | nil =>
      rw [Token.ofText, Token.ofTextOnto] at h
      cases h
    | cons b' text ih =>
      cases hb : Token.isSpace b' with
      | true =>
        rw [← List.singleton_append, Token.ofText_spaces (List.forall_mem_singleton.2 hb)] at h
        obtain ⟨hopening, spaces, rest, hspaces, rfl⟩ := ih h
        exact ⟨hopening, b' :: spaces, rest, List.forall_mem_cons.2 ⟨hb, hspaces⟩, rfl⟩
      | false =>
        rw [Token.head?_ofText_cons hb, Option.bind_some, Token.opening?_next,
          Option.ite_none_right_eq_some, Option.some.injEq] at h
        obtain ⟨hopening, rfl⟩ := h
        exact ⟨hopening, [], text, List.forall_mem_nil _, rfl⟩
  · rintro ⟨hopening, spaces, rest, hspaces, rfl⟩
    have hspace : Token.isSpace b = false := by
      rcases List.mem_pair.1 hopening with rfl | rfl <;> rfl
    rw [Token.ofText_spaces hspaces, Token.head?_ofText_cons hspace, Option.bind_some,
      Token.opening?_next, if_pos hopening]

/-- What a text holds is an object, whole or not. -/
def HoldsObject (text : List UInt8) : Prop := (Node.ofTokens (Token.ofText text)).1.isObject = true

/-- A text holds an object if it begins with an opening brace after white space. -/
theorem holdsObject_iff {text : List UInt8} :
    HoldsObject text ↔
      ∃ spaces rest, (∀ b ∈ spaces, Token.isSpace b = true) ∧ text = spaces ++ 123 :: rest := by
  rw [HoldsObject, Node.isObject_iff, opening?_ofText_eq_some_iff]
  exact and_iff_right (by decide)

end StatusList.Json
