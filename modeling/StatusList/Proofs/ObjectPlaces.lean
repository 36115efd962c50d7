import StatusList.Proofs.Json.Arrays
import StatusList.Proofs.Stages

/-!
# Where objects should be

A body has up to three places in which an object should be: the header, if it is a compact token,
the claims, and in these the list claim (`Places`). In each of them the body may as well have an
array, of the values of the object in the order in which they are written, and is accepted like
one with the object (`Places.Filled`). Only a document has to be an object itself, because what
does not begin with a brace is no document.

What has anything else in one of its places is malformed, whatever else is wrong with it and
whoever would be asked about it. So only objects are accepted, but for the bodies that are in order
and have an array in one of their places (`Token.arrays_in_all_places`).

* `Token.objects_only_iff`: when only objects are accepted, and what is accepted at all.
-/

namespace StatusList

open Json (Literal Node Reader Record Field valuesNamed)

namespace Json.Node

/-- The node of a text, if it is one value. -/
def ofText? (text : ByteArray) : Option Node :=
  match ofTokens (Token.ofText text.data.toList) with
  | (node, false) => some node
  | (_, true) => none

/-- A node is an object that ends with its brace. -/
def ClosedObject (node : Node) : Prop := ∃ members, node = object members .closed

/-- A node is an array that ends with its bracket. -/
def ClosedArray (node : Node) : Prop := ∃ items, node = array items .closed

theorem ClosedObject.not_closedArray {node : Node} (h : node.ClosedObject) :
    ¬node.ClosedArray := by
  obtain ⟨members, rfl⟩ := h
  rintro ⟨items, ⟨⟩⟩

theorem ofText?_eq_some_iff {text : ByteArray} {node : Node} :
    ofText? text = some node ↔ ofTokens (Token.ofText text.data.toList) = (node, false) := by
  rw [ofText?]
  obtain ⟨node', _ | _⟩ := ofTokens (Token.ofText text.data.toList) <;> simp

end Json.Node

/-- What is read of a text is read of its node. -/
theorem Json.parse_eq_ok_iff_ofText? {α : Type} {reader : Reader α} {text : ByteArray} {value : α} :
    Json.parse reader text.data.toList = .ok value ↔
      ∃ node, Node.ofText? text = some node ∧ reader node = .ok value := by
  simp only [Json.parse_eq_ok_iff, Node.ofText?_eq_some_iff]

theorem Json.Record.Fits.closed {δ α : Type} {r : Record δ α} {node : Node} (h : r.Fits node) :
    node.ClosedObject ∨ node.ClosedArray := by
  cases h with
  | object => exact .inl ⟨_, rfl⟩
  | array => exact .inr ⟨_, rfl⟩

/-! ## Records -/

/-- The list claim is read of the one member that has it. -/
theorem Claims.keepsPart :
    record.KeepsPart "status_list" ListClaim.record.read Draft.statusList := by
  refine Record.keepsPart_of_set rfl rfl (fun _ _ => rfl) ?_
  simp only [record, List.forall_mem_cons, List.not_mem_nil, IsEmpty.forall_iff, implies_true,
    and_true]
  refine ⟨?_, ?_, ?_, ?_, ?_, fun h => absurd rfl h⟩
  all_goals exact fun _ => Field.leaves_of_set rfl fun _ _ => rfl

/-- The algorithm is read of the one member that has it. -/
theorem Header.keepsPart : record.KeepsPart "alg" Reader.string Draft.alg := by
  refine Record.keepsPart_of_set rfl rfl (fun _ _ => rfl) ?_
  simp only [record, List.forall_mem_cons, List.not_mem_nil, IsEmpty.forall_iff, implies_true,
    and_true]
  refine ⟨fun h => absurd rfl h, ?_, ?_⟩
  all_goals exact fun _ => Field.leaves_of_set rfl fun _ _ => rfl

theorem Json.need_eq_ok_iff {α : Type} {name : String} {value? : Option α} {value : α} :
    Json.need name value? = .ok value ↔ value? = some value := by
  cases value? <;> simp [Json.need]

/-- Claims that are taken have one list claim, which is taken. -/
theorem Claims.exists_list {node : Node} {claims : Claims} (h : record.Takes node claims) :
    ∃ list, valuesNamed "status_list" (node.membersAs record.names) = [list] ∧
      ListClaim.record.Takes list claims.statusList := by
  obtain ⟨draft, hput, hfinish⟩ := Record.read_object_eq_ok_iff.1 h.read
  have hlist : draft.statusList = some claims.statusList := by
    simp only [record, bind_eq_ok_iff, Json.need_eq_ok_iff] at hfinish
    obtain ⟨iss, -, sub, -, iat, -, list, hlist, hclaims⟩ := hfinish
    rw [hlist, ← Except.ok.inj hclaims]
  obtain ⟨list, hone, hread⟩ := keepsPart.exists_value hput rfl hlist
  exact ⟨list, hone, (Record.read_eq_ok_iff (by decide)).1 hread⟩

/-- A header that is taken has one algorithm, and it is a string. -/
theorem Header.valuesNamed_alg {node : Node} {head : Header} (h : record.Takes node head) :
    valuesNamed "alg" (node.membersAs record.names) = [.string (.ok head.alg)] := by
  obtain ⟨draft, hput, hfinish⟩ := Record.read_object_eq_ok_iff.1 h.read
  have halg : draft.alg = some head.alg := by
    simp only [record, bind_eq_ok_iff, Json.need_eq_ok_iff] at hfinish
    obtain ⟨alg, halg, hhead⟩ := hfinish
    rw [halg, ← Except.ok.inj hhead]
  obtain ⟨value, hone, hread⟩ := keepsPart.exists_value hput rfl halg
  rw [hone, Reader.string_eq_ok_iff.1 hread]

/-! ## Places -/

/-- What is where a body should have objects, as far as it is JSON. -/
inductive Places where
  /-- In a document. -/
  | document (claims : Option Node)
  /-- In the first two of three parts, with the bytes of the third. -/
  | token (header claims : Option Node) (signature : Option ByteArray)

namespace Places

/-- What is where the header should be. -/
def header? : Places → Option Node
  | document _ => none
  | token header _ _ => header

/-- What is where the claims should be. -/
def claims? : Places → Option Node
  | document claims => claims
  | token _ claims _ => claims

/-- What is where the claims should have a list claim. -/
def lists (p : Places) : List Node :=
  p.claims?.toList.flatMap fun node =>
    valuesNamed "status_list" (node.membersAs Claims.record.names)

/-- What is in any of the places. -/
def nodes (p : Places) : List Node := p.header?.toList ++ p.claims?.toList ++ p.lists

/-- The places of a body, which is a document if it begins like one and else has three parts. -/
inductive Of (bytes : ByteArray) : Places → Prop where
  | document {text : String} (trimmed : Body.trimmed? bytes = some text)
    (brace : text.toList.head? = some '\x7b') : Of bytes (.document (Node.ofText? text.toUTF8))
  | token {header payload signature : String} (parts : Body.Parts bytes header payload signature) :
    Of bytes (.token ((decodeBase64 header).toOption.bind Node.ofText?)
      ((decodeBase64 payload).toOption.bind Node.ofText?) (decodeBase64 signature).toOption)

/-- There are objects in the places, as there should be. -/
structure AreObjects (p : Places) : Prop where
  claims : ∃ node, p.claims? = some node ∧ node.ClosedObject
  list : ∃ node, p.lists = [node] ∧ node.ClosedObject
  /-- A header has one algorithm, which is a string. -/
  header : ∀ node ∈ p.header?, ∃ members alg,
    node = .object members .closed ∧ valuesNamed "alg" members = [.string (.ok alg)]

/-- What is in the places makes a token, be it objects or arrays. -/
inductive Filled : Places → Token → Prop where
  /-- A document has to be an object itself. -/
  | document {node : Node} {claims : Claims} (hobject : node.ClosedObject)
    (hclaims : Claims.record.Takes node claims) : Filled (.document (some node)) ⟨none, claims⟩
  | token {first second : Node} {head : Header} {claims : Claims} {stamp : ByteArray}
    (hhead : Header.record.Takes first head) (hclaims : Claims.record.Takes second claims) :
    Filled (.token (some first) (some second) (some stamp)) ⟨some head, claims⟩

variable {bytes : ByteArray} {p : Places} {token : Token}

theorem Filled.exists_claims (h : p.Filled token) :
    ∃ node, p.claims? = some node ∧ Claims.record.Takes node token.claims := by
  cases h with
  | document _ hclaims => exact ⟨_, rfl, hclaims⟩
  | token _ hclaims => exact ⟨_, rfl, hclaims⟩

/-- There is one list claim in the claims. -/
theorem Filled.exists_list (h : p.Filled token) :
    ∃ list, p.lists = [list] ∧ ListClaim.record.Takes list token.claims.statusList := by
  obtain ⟨node, hnode, hclaims⟩ := h.exists_claims
  obtain ⟨list, hlist, htakes⟩ := Claims.exists_list hclaims
  refine ⟨list, ?_, htakes⟩
  rw [lists, hnode, Option.toList_some, List.flatMap_singleton, hlist]

theorem Filled.exists_header (h : p.Filled token) {node : Node} (hnode : node ∈ p.header?) :
    ∃ head, Header.record.Takes node head := by
  cases h with
  | document => cases hnode
  | token hhead =>
    obtain rfl := Option.some.inj hnode
    exact ⟨_, hhead⟩

theorem mem_nodes_iff {claims list : Node} (hclaims : p.claims? = some claims)
    (hlist : p.lists = [list]) {node : Node} :
    node ∈ p.nodes ↔ node ∈ p.header? ∨ node = claims ∨ node = list := by
  rw [nodes, hclaims, hlist]
  simp

/-- In each of the places there is an object or an array. -/
theorem Filled.closed (h : p.Filled token) {node : Node} (hnode : node ∈ p.nodes) :
    node.ClosedObject ∨ node.ClosedArray := by
  obtain ⟨claims, hclaims, htakes⟩ := h.exists_claims
  obtain ⟨list, hlist, hlisttakes⟩ := h.exists_list
  rcases (mem_nodes_iff hclaims hlist).1 hnode with hheader | rfl | rfl
  · obtain ⟨head, hhead⟩ := h.exists_header hheader
    exact hhead.fits.closed
  · exact htakes.fits.closed
  · exact hlisttakes.fits.closed

/-- There are objects in the places just if there is no array in any of them. -/
theorem Filled.areObjects_iff (h : p.Filled token) :
    p.AreObjects ↔ ∀ node ∈ p.nodes, ¬node.ClosedArray := by
  obtain ⟨claims, hclaims, -⟩ := h.exists_claims
  obtain ⟨list, hlist, -⟩ := h.exists_list
  constructor
  · intro hobjects node hnode
    rcases (mem_nodes_iff hclaims hlist).1 hnode with hheader | rfl | rfl
    · obtain ⟨members, alg, hobject, -⟩ := hobjects.header node hheader
      exact Node.ClosedObject.not_closedArray ⟨members, hobject⟩
    · obtain ⟨node', hsome, hobject⟩ := hobjects.claims
      obtain rfl := Option.some.inj (hclaims.symm.trans hsome)
      exact hobject.not_closedArray
    · obtain ⟨node', hone, hobject⟩ := hobjects.list
      obtain rfl := List.singleton_inj.1 (hlist.symm.trans hone)
      exact hobject.not_closedArray
  · intro hnone
    have hobject : ∀ node ∈ p.nodes, node.ClosedObject := fun node hnode =>
      (h.closed hnode).resolve_right (hnone node hnode)
    refine ⟨⟨claims, hclaims, hobject claims ?_⟩, ⟨list, hlist, hobject list ?_⟩,
      fun node hheader => ?_⟩
    · exact (mem_nodes_iff hclaims hlist).2 (.inr (.inl rfl))
    · exact (mem_nodes_iff hclaims hlist).2 (.inr (.inr rfl))
    · obtain ⟨head, hhead⟩ := h.exists_header hheader
      obtain ⟨members, rfl⟩ := hobject node ((mem_nodes_iff hclaims hlist).2 (.inl hheader))
      exact ⟨members, head.alg, rfl, Header.valuesNamed_alg hhead⟩

end Places

/-! ## Bodies -/

namespace Body

variable {bytes : ByteArray}

/-- A text that begins with a brace holds an object, whatever follows. -/
theorem holdsObject_of_brace {text : String} (h : text.toList.head? = some '\x7b') :
    Json.HoldsObject text.toUTF8.data.toList := by
  obtain ⟨cs, hcs⟩ := List.head?_eq_some_iff.1 h
  refine Json.holdsObject_iff.2 ⟨[], Utf8.encode cs, List.forall_mem_nil _, ?_⟩
  rw [Utf8.toList_toUTF8, hcs, Utf8.encode_cons]
  rfl

/-- What is taken of a text that begins with a brace is an object. -/
theorem closedObject_of_brace {text : String} (h : text.toList.head? = some '\x7b') {node : Node}
    (hnode : Node.ofText? text.toUTF8 = some node) {δ α : Type} {r : Record δ α} {value : α}
    (htakes : r.Takes node value) : node.ClosedObject := by
  refine htakes.fits.closed.resolve_right ?_
  rintro ⟨items, rfl⟩
  have hobject := holdsObject_of_brace h
  rw [Json.HoldsObject, Node.ofText?_eq_some_iff.1 hnode] at hobject
  cases hobject

/-- A part says what is read of the node in it. -/
theorem says_iff {α : Type} {reader : Json.Reader α} {part : String} {value : α} :
    Says reader part value ↔
      ∃ node, (decodeBase64 part).toOption.bind Node.ofText? = some node ∧
        reader node = .ok value := by
  rw [Says]
  cases decodeBase64 part with
  | error cause => simp [Except.toOption]
  | ok text => simp [Except.toOption, Json.parse_eq_ok_iff_ofText?]

/-- There is only one way to cut a body in three parts. -/
theorem Parts.unique {header payload signature header' payload' signature' : String}
    (h : Parts bytes header payload signature) (h' : Parts bytes header' payload' signature') :
    header = header' ∧ payload = payload' ∧ signature = signature' := by
  have htext := congrArg String.toList (Option.some.inj (h.trimmed.symm.trans h'.trimmed))
  rw [toList_joined, toList_joined] at htext
  have hparts := splitDots_three h.noDot.1 h.noDot.2.1 h.noDot.2.2
  rw [htext, splitDots_three h'.noDot.1 h'.noDot.2.1 h'.noDot.2.2] at hparts
  simp only [List.cons.injEq, String.toList_inj, and_true] at hparts
  exact ⟨hparts.1.symm, hparts.2.1.symm, hparts.2.2.symm⟩

end Body

namespace Places

variable {bytes : ByteArray} {p p' : Places} {token : Token} {verifier : Option Verifier}

/-- No body has its places in two ways. -/
theorem Of.unique (h : Of bytes p) (h' : Of bytes p') : p = p' := by
  cases h with
  | document htrimmed hbrace =>
    cases h' with
    | document htrimmed' => rw [Option.some.inj (htrimmed.symm.trans htrimmed')]
    | token hparts =>
      obtain rfl := Option.some.inj (htrimmed.symm.trans hparts.trimmed)
      exact absurd hbrace hparts.noBrace
  | token hparts =>
    cases h' with
    | document htrimmed hbrace =>
      obtain rfl := Option.some.inj (htrimmed.symm.trans hparts.trimmed)
      exact absurd hbrace hparts.noBrace
    | token hparts' =>
      obtain ⟨rfl, rfl, rfl⟩ := hparts.unique hparts'
      rfl

/-- The places of a document are filled with its claims. -/
theorem exists_filled_of_isDocument {claims : Claims} (h : Body.IsDocument bytes claims) :
    ∃ p, Of bytes p ∧ p.Filled ⟨none, claims⟩ := by
  obtain ⟨htrimmed, hbrace, hclaims⟩ := h
  obtain ⟨node, hnode, hread⟩ := Json.parse_eq_ok_iff_ofText?.1 hclaims
  have htakes := (Record.read_eq_ok_iff (by decide)).1 hread
  refine ⟨_, .document htrimmed hbrace, ?_⟩
  rw [hnode]
  exact .document (Body.closedObject_of_brace hbrace hnode htakes) htakes

/-- The places of a compact token are filled with its header and its claims. -/
theorem exists_filled_of_isToken {check : Check} {claims : Claims}
    (h : Body.IsToken bytes check claims) :
    ∃ p, Of bytes p ∧ p.Filled ⟨some check.header, claims⟩ := by
  obtain ⟨htrimmed, hbrace, hdots, hheader, hclaims, hstamp⟩ := h
  obtain ⟨first, hfirst, hreadfirst⟩ := Body.says_iff.1 hheader
  obtain ⟨second, hsecond, hreadsecond⟩ := Body.says_iff.1 hclaims
  refine ⟨_, .token ⟨htrimmed, hbrace, hdots⟩, ?_⟩
  rw [hfirst, hsecond, hstamp]
  exact .token ((Record.read_eq_ok_iff (by decide)).1 hreadfirst)
    ((Record.read_eq_ok_iff (by decide)).1 hreadsecond)

/-- Where the places of a body are filled, it is accepted. -/
theorem Filled.read_eq (h : p.Filled token) (hp : Of bytes p) :
    Token.read none bytes = .ok token := by
  cases hp with
  | document htrimmed hbrace =>
    generalize hnode : Node.ofText? _ = node at h
    cases h with
    | document _ hclaims =>
      have hread := (Record.read_eq_ok_iff (by decide)).2 hclaims
      have hdocument : Body.IsDocument bytes _ :=
        .intro htrimmed hbrace (Json.parse_eq_ok_iff_ofText?.2 ⟨_, hnode, hread⟩)
      rw [Token.read, Token.readLogged_eq_iff.2 (.document hdocument)]
  | @token header payload signature hparts =>
    generalize hfirst : (decodeBase64 header).toOption.bind Node.ofText? = first at h
    generalize hsecond : (decodeBase64 payload).toOption.bind Node.ofText? = second at h
    generalize hstamp : (decodeBase64 signature).toOption = stamp at h
    cases h with
    | token hhead hclaims =>
      have hreadfirst := (Record.read_eq_ok_iff (by decide)).2 hhead
      have hreadsecond := (Record.read_eq_ok_iff (by decide)).2 hclaims
      have htoken : Body.IsToken bytes ⟨_, _, _⟩ _ :=
        .intro hparts.trimmed hparts.noBrace hparts.noDot
          (Body.says_iff.2 ⟨_, hfirst, hreadfirst⟩) (Body.says_iff.2 ⟨_, hsecond, hreadsecond⟩)
          (toOption_eq_some_iff.1 hstamp)
      rw [Token.read, Token.readLogged_eq_iff.2 (.unchecked rfl htoken)]

/-- The places of a body that is accepted are filled. -/
theorem exists_filled (h : Token.read verifier bytes = .ok token) :
    ∃ p, Of bytes p ∧ p.Filled token := by
  have hstaged : ∃ checks, Token.Staged verifier bytes (.ok token) checks :=
    ⟨_, Token.readLogged_eq_iff.1 (Prod.ext h rfl)⟩
  obtain ⟨checks, hstaged⟩ := hstaged
  cases hstaged with
  | document hdocument => exact exists_filled_of_isDocument hdocument
  | unchecked _ htoken => exact exists_filled_of_isToken htoken
  | accepted _ htoken => exact exists_filled_of_isToken htoken

/-- A body whose places are not filled is malformed, whoever would be asked about it. -/
theorem Of.malformed (hp : Of bytes p) (h : ∀ token, ¬p.Filled token)
    (verifier : Option Verifier) :
    ∃ cause, Token.readLogged verifier bytes = (.error (.malformedToken cause), []) := by
  cases hbody : Body.read bytes with
  | error cause => exact ⟨cause, by rw [Token.readLogged, hbody]⟩
  | ok body =>
    have hread : ∃ token, Token.read none bytes = .ok token := by
      rw [Token.read, Token.readLogged, hbody]
      cases body with
      | plain claims => exact ⟨_, rfl⟩
      | compact check claims => exact ⟨_, rfl⟩
    obtain ⟨token, hread⟩ := hread
    obtain ⟨p', hp', hfilled⟩ := exists_filled hread
    exact absurd (hp'.unique hp ▸ hfilled) (h token)

/-- A body whose places are filled is not malformed. -/
theorem Filled.not_malformed (h : p.Filled token) (hp : Of bytes p) (cause : Malformed) :
    Token.readLogged verifier bytes ≠ (.error (.malformedToken cause), []) := by
  intro hlogged
  have hread := h.read_eq hp
  cases Token.readLogged_eq_iff.1 hlogged with
  | malformed hstops =>
    rw [Token.read, Token.readLogged, Body.read_eq_error_iff.2 ⟨_, hstops⟩] at hread
    cases hread

end Places

/-! ## Tokens -/

namespace Token

/-- Where a body should have objects it has, if it is accepted, and with anything else there it is
    malformed. -/
structure ObjectsOnly (verifier : Option Verifier) (bytes : ByteArray) : Prop where
  accepted : ∀ token, read verifier bytes = .ok token → ∃ p, Places.Of bytes p ∧ p.AreObjects
  malformed : ∀ p, Places.Of bytes p → ∀ node ∈ p.nodes, ¬node.ClosedObject →
    ∃ cause, readLogged verifier bytes = (.error (.malformedToken cause), [])

/-- Only objects are accepted in the places of a body just if it is not one whose places are
    filled, with an array in one of them. The bodies whose places are filled are those that are
    accepted, if nobody is asked about them. What is neither an object nor an array makes a body
    malformed in any case. -/
theorem objects_only_iff (verifier : Option Verifier) (bytes : ByteArray) :
    (ObjectsOnly verifier bytes ↔
      ∀ p token, Places.Of bytes p → p.Filled token → ∀ node ∈ p.nodes, ¬node.ClosedArray) ∧
    (∀ token, read none bytes = .ok token ↔ ∃ p, Places.Of bytes p ∧ p.Filled token) ∧
    ∀ p, Places.Of bytes p → ∀ node ∈ p.nodes, ¬node.ClosedObject → ¬node.ClosedArray →
      ∃ cause, readLogged verifier bytes = (.error (.malformedToken cause), []) := by
  refine ⟨⟨fun h p token hp hfilled node hnode harray => ?_, fun h => ⟨fun token hread => ?_, ?_⟩⟩,
    fun token => ⟨Places.exists_filled, fun ⟨p, hp, hfilled⟩ => hfilled.read_eq hp⟩, ?_⟩
  · have hobject : ¬node.ClosedObject := fun hobject => hobject.not_closedArray harray
    obtain ⟨cause, hlogged⟩ := h.malformed p hp node hnode hobject
    exact hfilled.not_malformed hp cause hlogged
  · obtain ⟨p, hp, hfilled⟩ := Places.exists_filled hread
    exact ⟨p, hp, hfilled.areObjects_iff.2 (h p token hp hfilled)⟩
  · intro p hp node hnode hobject
    refine hp.malformed (fun token hfilled => ?_) verifier
    exact (hfilled.closed hnode).elim hobject (h p token hp hfilled node hnode)
  · intro p hp node hnode hobject harray
    refine hp.malformed (fun token hfilled => ?_) verifier
    exact (hfilled.closed hnode).elim hobject harray

/-- A compact token is accepted that has an array in each of the places. -/
theorem arrays_in_all_places :
    let text := encodeBase64 "[\"ES256\"]".toUTF8 ++ "." ++
      encodeBase64 "[\"i\",\"s\",1,null,null,[1,\"eNrbuRgAAhcBXQ\"]]".toUTF8 ++ "." ++
      encodeBase64 "sig".toUTF8
    read none text.toUTF8 =
      .ok ⟨some ⟨"ES256", none, none⟩,
        ⟨"i", "s", 1, none, none, ⟨.one, "eNrbuRgAAhcBXQ", none⟩⟩⟩ ∧
    ∃ header claims list stamp p, Places.Of text.toUTF8 p ∧
      p = .token (some header) (some claims) stamp ∧ p.lists = [list] ∧
      header.ClosedArray ∧ claims.ClosedArray ∧ list.ClosedArray ∧ ¬p.AreObjects ∧
      ¬ObjectsOnly none text.toUTF8 := by
  intro text
  let one : Node := .number ⟨false, [1], none, none⟩
  let header : Node := .array [.string (.ok "ES256")] .closed
  let list : Node := .array [one, .string (.ok "eNrbuRgAAhcBXQ")] .closed
  let claims : Node :=
    .array [.string (.ok "i"), .string (.ok "s"), one, .null, .null, list] .closed
  have hparts : Body.Parts text.toUTF8 (encodeBase64 "[\"ES256\"]".toUTF8)
      (encodeBase64 "[\"i\",\"s\",1,null,null,[1,\"eNrbuRgAAhcBXQ\"]]".toUTF8)
      (encodeBase64 "sig".toUTF8) := by
    refine ⟨?_, by decide +kernel, dot_not_mem_encodeBase64 _, dot_not_mem_encodeBase64 _,
      dot_not_mem_encodeBase64 _⟩
    rw [Body.trimmed?_of_decode (Utf8.decode_toUTF8 text)]
    decide +kernel
  have hheader : Node.ofText? "[\"ES256\"]".toUTF8 = some header := by cbv
  have hclaims : Node.ofText? "[\"i\",\"s\",1,null,null,[1,\"eNrbuRgAAhcBXQ\"]]".toUTF8 =
      some claims := by
    cbv
  have hhead : Header.record.Takes header ⟨"ES256", none, none⟩ :=
    (Record.read_eq_ok_iff (by decide)).1 rfl
  have htaken : Claims.record.Takes claims
      ⟨"i", "s", 1, none, none, ⟨.one, "eNrbuRgAAhcBXQ", none⟩⟩ :=
    (Record.read_eq_ok_iff (by decide)).1 (by cbv)
  have hplaces := Places.Of.token hparts
  simp only [decodeBase64_encodeBase64, Except.toOption, Option.bind_some, hheader,
    hclaims] at hplaces
  have hnone : ¬(Places.token (some header) (some claims) (some "sig".toUTF8)).AreObjects := by
    rintro ⟨⟨node, hnode, hobject⟩, -, -⟩
    obtain rfl := Option.some.inj hnode
    exact hobject.not_closedArray ⟨_, rfl⟩
  refine ⟨(Places.Filled.token hhead htaken).read_eq hplaces, header, claims, list, _, _, hplaces,
    rfl, rfl, ⟨_, rfl⟩, ⟨_, rfl⟩, ⟨_, rfl⟩, hnone, fun honly => ?_⟩
  obtain ⟨p, hp, hobjects⟩ :=
    honly.accepted _ ((Places.Filled.token hhead htaken).read_eq hplaces)
  exact hnone (hp.unique hplaces ▸ hobjects)

end Token

end StatusList
