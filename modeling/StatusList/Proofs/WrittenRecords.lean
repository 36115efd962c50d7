import StatusList.Proofs.Json.Readers
import StatusList.Proofs.Json.Records
import StatusList.Service.Response

/-!
# Records as they are written

What is written of a record is its *members that are there*, in the order of their declaration;
of a member that is absent there is nothing in the text, not even a null. So the names that are
found in a text, at every depth (`Node.keys`), tell which members there are.

A value is read back from its text (`ReadsBack`). Therefore a text that is read may look
otherwise than the one that is written of its value, but once it has been *rewritten* it stays
as it is.

* `records_read_back`: list claims, claims, headers, aggregations, references and the two kinds
  of responses are read back, whatever their members are.
-/

namespace StatusList

namespace Json

/-! ## Names in a text -/

namespace Node

mutual

/-- The keys of all members in a node, those of members inside others too, in the order of
    the text. -/
def keys : Node → List Literal
  | array items _ => itemKeys items
  | object members _ => memberKeys members
  | _ => []

/-- The keys of all members in items. -/
def itemKeys : List Node → List Literal
  | [] => []
  | item :: items => keys item ++ itemKeys items

/-- The keys of members and of all members in their values. -/
def memberKeys : List (Literal × Node) → List Literal
  | [] => []
  | (key, value) :: members => key :: keys value ++ memberKeys members

end

/-- There are no keys in items that have none. -/
theorem itemKeys_eq_nil {items : List Node} (h : ∀ item ∈ items, item.keys = []) :
    itemKeys items = [] := by
  induction items with
  | nil => rw [itemKeys]
  | cons item items ih =>
    obtain ⟨hitem, hitems⟩ := List.forall_mem_cons.1 h
    rw [itemKeys, hitem, ih hitems, List.append_nil]

end Node

/-- The keys of an array of which no item has keys. -/
theorem keys_array {items : List Json} (h : ∀ item ∈ items, item.toNode.keys = []) :
    (Json.array items).toNode.keys = [] := by
  rw [toNode, Node.keys, itemNodes_eq]
  exact Node.itemKeys_eq_nil (List.forall_mem_map.2 h)

/-- Of members, each of which is there or not, the keys of those that are there. -/
def keysThere (members : List (String × Bool)) : List Literal :=
  (members.filter (·.2)).map fun member => .ok member.1

/-! ## Reading back -/

/-- A text as it is written of the value that is read from it. -/
def rewritten {α : Type} (reader : Reader α) (toJson : α → Json) (text : List UInt8) :
    Except Fault String :=
  (parse reader text).map fun value => (toJson value).compact

/-- Values of a kind are read back from what is written of them; `members` tells which
    members a value has, those of members inside others too, and whether each is there. -/
structure ReadsBack {α : Type} (reader : Reader α) (toJson : α → Json)
    (members : α → List (String × Bool)) : Prop where
  /-- A value is read from its text. -/
  read : ∀ value, parse reader (toJson value).compact.toUTF8.data.toList = .ok value
  /-- In the text of a value there are the names of the members that are there, each once and
      in order, and no other names. -/
  names : ∀ value,
    (Node.ofTokens (Token.ofText (toJson value).compact.toUTF8.data.toList)).1.keys =
      keysThere (members value)
  /-- A text that has been rewritten is not changed by being rewritten again. -/
  settles : ∀ text text', rewritten reader toJson text = .ok text' →
    rewritten reader toJson text'.toUTF8.data.toList = .ok text'

/-- Values are read back if they are read from their nodes, and these have the right keys. -/
theorem readsBack_of_toNode {α : Type} {reader : Reader α} {toJson : α → Json}
    {members : α → List (String × Bool)} (hexact : ∀ value, Exact (toJson value))
    (hread : ∀ value, reader (toJson value).toNode = .ok value)
    (hkeys : ∀ value, (toJson value).toNode.keys = keysThere (members value)) :
    ReadsBack reader toJson members := by
  have hback : ∀ value, parse reader (toJson value).compact.toUTF8.data.toList = .ok value :=
    fun value => by rw [parse_compact reader (hexact value), hread]
  refine ⟨hback, fun value => ?_, fun text text' htext => ?_⟩
  · -- The reader that gives the node itself shows which node the text has.
    have hnode := parse_compact (fun node => .ok node) (hexact value)
    obtain ⟨node, hnode, heq⟩ := parse_eq_ok_iff.1 hnode
    rw [hnode, Except.ok.inj heq, hkeys]
  · rw [rewritten] at htext
    cases hvalue : parse reader text with
    | error fault =>
      rw [hvalue] at htext
      cases htext
    | ok value =>
      rw [hvalue] at htext
      rw [← Except.ok.inj htext, rewritten, hback]
      rfl

/-! ## Numbers and lists -/

namespace Reader

theorem read_byte (n : UInt8) : byte (ofNat n.toNat).toNode = .ok n := by
  have hlt := n.toNat_lt
  rw [byte, ofNat, read_integer "u8" (by omega) (by omega) (by omega) (by omega)]
  exact congrArg Except.ok UInt8.ofNat_toNat

theorem read_word (n : UInt32) : word (ofNat n.toNat).toNode = .ok n := by
  have hlt := n.toNat_lt
  rw [word, ofNat, read_integer "u32" (by omega) (by omega) (by omega) (by omega)]
  exact congrArg Except.ok UInt32.ofNat_toNat

/-- A list is read if what is written of each of its items is. -/
theorem read_list {α : Type} {reader : Reader α} {f : α → Json}
    (h : ∀ a, reader (f a).toNode = .ok a) (values : List α) :
    list reader (Json.array (values.map f)).toNode = .ok values := by
  have hitems : ((values.map f).map toNode).mapM reader = .ok values := by
    induction values with
    | nil => rfl
    | cons value values ih =>
      rw [List.map_cons, List.map_cons, List.mapM_cons, h, ih]
      rfl
  rw [toNode, itemNodes_eq, list_eq_ok_iff]
  exact ⟨_, rfl, hitems⟩

end Reader

end Json

open Json (Exact ReadsBack Reader Record exact_record keys_array readsBack_of_toNode)

/-! ## The records -/

/-- The members of a list claim. -/
def ListClaim.members (c : ListClaim) : List (String × Bool) :=
  [("bits", true), ("lst", true), ("aggregation_uri", c.aggregationUri.isSome)]

/-- The members of claims, with those of the list claim among them. -/
def Claims.members (c : Claims) : List (String × Bool) :=
  [("iss", true), ("sub", true), ("iat", true), ("exp", c.exp.isSome), ("ttl", c.ttl.isSome),
    ("status_list", true)] ++ c.statusList.members

/-- The members of a header. -/
def Header.members (h : Header) : List (String × Bool) :=
  [("alg", true), ("typ", h.typ.isSome), ("kid", h.kid.isSome)]

theorem ListClaim.keys_toJson (c : ListClaim) :
    c.toJson.toNode.keys = Json.keysThere c.members := by
  obtain ⟨width, lst, uri⟩ := c
  cases uri <;> rfl

theorem Claims.keys_toJson (c : Claims) :
    c.toJson.toNode.keys = Json.keysThere c.members := by
  obtain ⟨iss, sub, iat, exp, ttl, width, lst, uri⟩ := c
  cases exp <;> cases ttl <;> cases uri <;> rfl

theorem Header.keys_toJson (h : Header) :
    h.toJson.toNode.keys = Json.keysThere h.members := by
  obtain ⟨alg, typ, kid⟩ := h
  cases typ <;> cases kid <;> rfl

namespace Aggregation

theorem exact_toJson (a : Aggregation) : Exact a.toJson := by
  refine exact_record fun member hmem value hvalue => ?_
  obtain rfl := List.mem_singleton.1 hmem
  obtain rfl := Option.some.inj hvalue
  exact .array (List.forall_mem_map.2 fun uri _ => .string uri)

/-- An aggregation is read from what is written of it, whatever its kind is called. -/
theorem read_toJson (name : String) (a : Aggregation) :
    (recordNamed name).read a.toJson.toNode = .ok a := by
  have hputs : (recordNamed name).Puts (recordNamed name).blank
      [("status_lists", some (.array (a.uris.map .string)))] (some a.uris) := by
    have huris : Reader.list Reader.string (Json.array (a.uris.map .string)).toNode = .ok a.uris :=
      Reader.read_list (fun uri => (Reader.read_string uri).2) a.uris
    refine .required (fun uris => some uris) rfl rfl huris ?_
    exact .nil _
  rw [toJson, hputs.read (List.nodup_singleton _)]
  rfl

theorem keys_toJson (a : Aggregation) :
    a.toJson.toNode.keys = Json.keysThere [("status_lists", true)] := by
  have huris : (Json.array (a.uris.map .string)).toNode.keys = [] :=
    keys_array (List.forall_mem_map.2 fun _ _ => rfl)
  change .ok "status_lists" :: (Json.array (a.uris.map .string)).toNode.keys ++ [] = _
  rw [huris]
  rfl

theorem readsBack (name : String) :
    ReadsBack (recordNamed name).read toJson fun _ => [("status_lists", true)] :=
  readsBack_of_toNode exact_toJson (read_toJson name) keys_toJson

end Aggregation

namespace Reference

theorem exact_toJson (r : Reference) : Exact r.toJson := by
  refine exact_record fun member hmem value hvalue => ?_
  simp only [List.mem_cons, List.not_mem_nil, or_false] at hmem
  rcases hmem with rfl | rfl
  · obtain rfl := Option.some.inj hvalue
    exact .string _
  · obtain rfl := Option.some.inj hvalue
    exact .integer _

theorem read_toJson (r : Reference) : record.read r.toJson.toNode = .ok r := by
  have hputs : record.Puts record.blank [("uri", some (.string r.uri)),
      ("idx", some (.ofNat r.index.toNat))] ⟨some r.uri, some r.index⟩ := by
    refine .required (fun uri => ⟨some uri, none⟩) rfl rfl (Reader.read_string _).2 ?_
    refine .required (fun index => ⟨some r.uri, some index⟩) rfl rfl (Reader.read_word _) ?_
    exact .nil _
  rw [toJson, hputs.read (show ["uri", "idx"].Nodup by decide)]
  rfl

end Reference

namespace Service.ListResponse

/-- The members of a response. -/
def members (r : ListResponse) : List (String × Bool) :=
  [("statusList", true), ("bitsPerStatus", true), ("totalStatuses", true),
    ("aggregationUri", r.aggregationUri.isSome)]

theorem exact_toJson (r : ListResponse) : Exact r.toJson := by
  refine exact_record fun member hmem value hvalue => ?_
  simp only [List.mem_cons, List.not_mem_nil, or_false] at hmem
  rcases hmem with rfl | rfl | rfl | rfl
  · obtain rfl := Option.some.inj hvalue
    exact .array (List.forall_mem_map.2 fun value _ => .integer _)
  · obtain rfl := Option.some.inj hvalue
    exact .integer _
  · obtain rfl := Option.some.inj hvalue
    exact .integer _
  · obtain ⟨uri, -, rfl⟩ := Option.map_eq_some_iff.1 hvalue
    exact .string uri

theorem read_toJson (r : ListResponse) : record.read r.toJson.toNode = .ok r := by
  have hputs : record.Puts record.blank
      [("statusList", some (.array (r.statusList.map fun value => .ofNat value.toNat))),
        ("bitsPerStatus", some (.ofNat r.bitsPerStatus.toNat)),
        ("totalStatuses", some (.ofNat r.totalStatuses.toNat)),
        ("aggregationUri", r.aggregationUri.map .string)]
      ⟨some r.statusList, some r.bitsPerStatus, some r.totalStatuses, r.aggregationUri⟩ := by
    refine .required (fun list => ⟨some list, none, none, none⟩) rfl rfl
      (Reader.read_list Reader.read_byte r.statusList) ?_
    refine .required (fun bits => ⟨some r.statusList, some bits, none, none⟩) rfl rfl
      (Reader.read_byte _) ?_
    refine .required (fun total => ⟨some r.statusList, some r.bitsPerStatus, some total, none⟩)
      rfl rfl (Reader.read_word _) ?_
    refine .optional
      (fun uri => ⟨some r.statusList, some r.bitsPerStatus, some r.totalStatuses, uri⟩)
      r.aggregationUri rfl rfl Reader.read_string rfl ?_
    exact .nil _
  rw [toJson, hputs.read (show ["statusList", "bitsPerStatus", "totalStatuses",
    "aggregationUri"].Nodup by decide)]
  rfl

theorem keys_toJson (r : ListResponse) :
    r.toJson.toNode.keys = Json.keysThere r.members := by
  obtain ⟨list, bits, total, uri⟩ := r
  have hlist : (Json.array (list.map fun value => .ofNat value.toNat)).toNode.keys = [] :=
    keys_array (List.forall_mem_map.2 fun _ _ => rfl)
  cases uri with
  | none =>
    change .ok "statusList" :: (Json.array (list.map _)).toNode.keys ++ _ = _
    rw [hlist]
    rfl
  | some uri =>
    change .ok "statusList" :: (Json.array (list.map _)).toNode.keys ++ _ = _
    rw [hlist]
    rfl

end Service.ListResponse

/-- Every record is read back from its text, in which there is nothing of absent members, and
    a text that has been rewritten stays as it is. -/
theorem records_read_back :
    ReadsBack ListClaim.record.read ListClaim.toJson ListClaim.members ∧
    ReadsBack Claims.record.read Claims.toJson Claims.members ∧
    ReadsBack Header.record.read Header.toJson Header.members ∧
    ReadsBack Aggregation.record.read Aggregation.toJson (fun _ => [("status_lists", true)]) ∧
    ReadsBack Reference.record.read Reference.toJson
      (fun _ => [("uri", true), ("idx", true)]) ∧
    ReadsBack Service.ListResponse.record.read Service.ListResponse.toJson
      Service.ListResponse.members ∧
    ReadsBack Service.aggregationRecord.read Aggregation.toJson
      (fun _ => [("status_lists", true)]) := by
  refine ⟨?_, ?_, ?_, ?_, ?_, ?_, ?_⟩
  · exact readsBack_of_toNode ListClaim.exact_toJson ListClaim.read_toJson ListClaim.keys_toJson
  · exact readsBack_of_toNode Claims.exact_toJson Claims.read_toJson Claims.keys_toJson
  · exact readsBack_of_toNode Header.exact_toJson Header.read_toJson Header.keys_toJson
  · exact Aggregation.readsBack "AggregationDocument"
  · exact readsBack_of_toNode Reference.exact_toJson Reference.read_toJson fun _ => rfl
  · exact readsBack_of_toNode Service.ListResponse.exact_toJson Service.ListResponse.read_toJson
      Service.ListResponse.keys_toJson
  · exact Aggregation.readsBack "AggregationResponse"

end StatusList
