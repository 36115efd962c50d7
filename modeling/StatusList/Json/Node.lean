import StatusList.Json.Token

/-!
# Nodes

A *node* is what a JSON text holds, as far as it can be made out. Where the text
stops being JSON the node has a *broken* part, so that a reader that walks the
node in order meets the first fault of the text where the text has it, after the
values before it have been looked at.

* `Node.ofTokens`: the node of a sequence of tokens, and whether anything follows.
-/

namespace StatusList.Json

/-- How an array or an object ends. -/
inductive Close where
  /-- With its closing bracket or brace. -/
  | closed
  /-- Not at all: the text ends. -/
  | missing
  /-- With something else than a comma or the closing bracket or brace. -/
  | stray
  /-- With a comma before its closing bracket or brace. -/
  | afterComma
  /-- Where the key of a member should be. -/
  | badKey (broken : Broken)
  deriving Inhabited

/-- What a JSON text holds. -/
inductive Node where
  | null
  | boolean (value : Bool)
  | number (numeral : Numeral)
  | string (literal : Literal)
  | array (items : List Node) (close : Close)
  | object (members : List (Literal × Node)) (close : Close)
  /-- The text stops being JSON here. -/
  | broken (broken : Broken)
  deriving Inhabited

/-- The node of a value that is one token. -/
def Atom.toNode : Atom → Node
  | null => .null
  | boolean value => .boolean value
  | number numeral => .number numeral
  | string literal => .string literal

namespace Node

/-- The node where a fault is met by reading and by passing over alike. -/
def fault (fault : Fault) : Node := .broken ⟨fault, fault⟩

/-- An array or object that is not closed yet; its parts are kept with the
    latest first. -/
inductive Frame where
  /-- An array with the items so far. -/
  | array (items : List Node)
  /-- An object with the members so far and the key of the next. -/
  | object (members : List (Literal × Node)) (key : Literal)
  deriving Inhabited

/-- The array of the items `latest`. -/
def arrayOf (latest : List Node) (close : Close) : Node := .array latest.reverse close

/-- The object of the members `latest`. -/
def objectOf (latest : List (Literal × Node)) (close : Close) : Node :=
  .object latest.reverse close

/-- The node of frames around `node` that will never be closed. -/
def fill (node : Node) : List Frame → Node
  | [] => node
  | .array items :: frames => fill (arrayOf (node :: items) .missing) frames
  | .object members key :: frames => fill (objectOf ((key, node) :: members) .missing) frames

/-! ## Tokens to nodes -/

/-- What has been made of the tokens so far. -/
inductive State where
  /-- A value has to come. -/
  | value (frames : List Frame)
  /-- An array has been opened. -/
  | opened (frames : List Frame)
  /-- An item has to come after a comma. -/
  | item (items : List Node) (frames : List Frame)
  /-- An object has been opened. -/
  | openedObject (frames : List Frame)
  /-- A key has to come after a comma. -/
  | key (members : List (Literal × Node)) (frames : List Frame)
  /-- A colon has to come after a key. -/
  | colon (members : List (Literal × Node)) (key : Literal) (frames : List Frame)
  /-- A value has been read. -/
  | after (node : Node) (frames : List Frame)
  /-- Nothing more matters; `more` tells whether a whole value is followed by
      something. -/
  | settled (node : Node) (more : Bool)
  deriving Inhabited

namespace State

/-- The text stops being JSON in the node. -/
def stop (node : Node) (frames : List Frame) : State := .settled (node.fill frames) false

/-- The state after a token where a value has to come. -/
def stepValue (frames : List Frame) : Token → State
  | .atom atom => .after atom.toNode frames
  | .openBracket => .opened frames
  | .openBrace => .openedObject frames
  | .broken fault => stop (.broken fault) frames
  | .brokenString fault => stop (.broken fault) frames
  | _ => stop (.fault .expectedValue) frames

/-- The state after a token where a key has to come. -/
def stepKey (members : List (Literal × Node)) (frames : List Frame) : Token → State
  | .atom (.string literal) => .colon members literal frames
  | .brokenString fault => stop (objectOf members (.badKey fault)) frames
  | _ => stop (objectOf members (.badKey ⟨.keyNotString, .keyNotString⟩)) frames

/-- The state after a token. -/
def step : State → Token → State
  | value frames, token => stepValue frames token
  | opened frames, .closeBracket => after (.array [] .closed) frames
  | opened frames, token => stepValue (.array [] :: frames) token
  | item items frames, .closeBracket => stop (arrayOf items .afterComma) frames
  | item items frames, token => stepValue (.array items :: frames) token
  | openedObject frames, .closeBrace => after (.object [] .closed) frames
  | openedObject frames, token => stepKey [] frames token
  | key members frames, .closeBrace => stop (objectOf members .afterComma) frames
  | key members frames, token => stepKey members frames token
  | colon members k frames, .colon => value (.object members k :: frames)
  | colon members k frames, _ =>
    stop (objectOf ((k, .fault .expectedColon) :: members) .missing) frames
  | after node [], _ => settled node true
  | after node (.array items :: frames), .comma => item (node :: items) frames
  | after node (.array items :: frames), .closeBracket =>
    after (arrayOf (node :: items) .closed) frames
  | after node (.array items :: frames), _ => stop (arrayOf (node :: items) .stray) frames
  | after node (.object members k :: frames), .comma => key ((k, node) :: members) frames
  | after node (.object members k :: frames), .closeBrace =>
    after (objectOf ((k, node) :: members) .closed) frames
  | after node (.object members k :: frames), _ =>
    stop (objectOf ((k, node) :: members) .stray) frames
  | settled node more, _ => settled node more

/-- The node of a text that ends here. -/
def finish : State → Node
  | value frames => fill (.fault (.ended .value)) frames
  | opened frames => fill (.array [] .missing) frames
  | item items frames => fill (arrayOf (.fault (.ended .value) :: items) .missing) frames
  | openedObject frames => fill (.object [] .missing) frames
  | key members frames =>
    fill (objectOf members (.badKey ⟨.ended .value, .ended .object⟩)) frames
  | colon members k frames =>
    fill (objectOf ((k, .fault (.ended .object)) :: members) .missing) frames
  | after node [] => node
  | after node (.array items :: frames) => fill (arrayOf (node :: items) .missing) frames
  | after node (.object members k :: frames) =>
    fill (objectOf ((k, node) :: members) .missing) frames
  | settled node _ => node

/-- Whether something follows a whole value. -/
def hasMore : State → Bool
  | settled _ more => more
  | _ => false

end State

/-- The node of a sequence of tokens, and whether anything follows it. -/
def ofTokens (tokens : List Token) : Node × Bool :=
  let state := tokens.foldl State.step (.value [])
  (state.finish, state.hasMore)

/-! ## Passing over -/

/-- The fault of passing over the end of an array. -/
def Close.passArray? : Close → Option Fault
  | .closed => none
  | .missing => some (.ended .list)
  | .stray => some .expectedListEnd
  | .afterComma => some .expectedValue
  | .badKey fault => some fault.passing

/-- The fault of passing over the end of an object. -/
def Close.passObject? : Close → Option Fault
  | .closed => none
  | .missing => some (.ended .object)
  | .stray => some .expectedObjectEnd
  | .afterComma => some .keyNotString
  | .badKey fault => some fault.passing

mutual

/-- The first fault that is met where the value does not matter. -/
def pass? : Node → Option Fault
  | broken fault => some fault.passing
  | array items close => (passItems? items).or (Close.passArray? close)
  | object members close => (passMembers? members).or (Close.passObject? close)
  | _ => none

/-- The first fault that is met in items that do not matter. -/
def passItems? : List Node → Option Fault
  | [] => none
  | item :: items => (pass? item).or (passItems? items)

/-- The first fault that is met in members that do not matter. -/
def passMembers? : List (Literal × Node) → Option Fault
  | [] => none
  | (_, value) :: members => (pass? value).or (passMembers? members)

end

end Node

end StatusList.Json
