import StatusList.Claims
import StatusList.Proofs.Json.Texts

/-!
# Records round trip

A record is read from the JSON that is written of it: header (`Header.read_toJson`), list
claim (`ListClaim.read_toJson`) and claims (`Claims.read_toJson`), and with them their
texts (`Header.parse_compact`, `Claims.parse_compact`).

What they share is the order of events: the members that there are come one by one, each
is put into the draft by the field of its name, and members that are absent change
nothing (`Record.Puts`).
-/

namespace StatusList

namespace Json

/-! ## Scalars -/

namespace Reader

theorem read_integer (expected : String) {least most n : Int} (hleast : least ≤ n)
    (hmost : n ≤ most) (hlow : -2 ^ 63 ≤ n) (hhigh : n < 2 ^ 64) :
    integer expected least most (ofInt n).toNode = .ok n := by
  rw [ofInt, toNode, integer, Numeral.value_ofInt hlow hhigh]
  exact if_pos ⟨hleast, hmost⟩

theorem read_signed (n : Int64) :
    (ofInt n.toInt).toNode ≠ .null ∧ signed (ofInt n.toInt).toNode = .ok n := by
  refine ⟨nofun, ?_⟩
  have hlow := n.le_toInt
  have hhigh := n.toInt_lt
  rw [signed, read_integer "i64" (by omega) (by omega) hlow (by omega)]
  exact congrArg Except.ok (Int64.ofInt_toInt n)

theorem read_longWord (n : UInt64) :
    (ofNat n.toNat).toNode ≠ .null ∧ longWord (ofNat n.toNat).toNode = .ok n := by
  refine ⟨nofun, ?_⟩
  have hlt := n.toNat_lt
  rw [longWord, ofNat, read_integer "u64" (by omega) (by omega) (by omega) (by omega)]
  exact congrArg Except.ok (UInt64.ofNat_toNat)

theorem read_string (s : String) :
    (Json.string s).toNode ≠ .null ∧ string (Json.string s).toNode = .ok s :=
  ⟨nofun, rfl⟩

/-- What is there of an option is read as an option. -/
theorem read_option {α : Type} {reader : Reader α} {f : α → Json}
    (h : ∀ a, (f a).toNode ≠ .null ∧ reader (f a).toNode = .ok a) (value? : Option α) :
    ∀ json ∈ value?.map f, option reader json.toNode = .ok value? := by
  intro json hjson
  obtain ⟨a, rfl, rfl⟩ := Option.map_eq_some_iff.1 hjson
  obtain ⟨hnull, hread⟩ := h a
  rw [option, hread]
  · rfl
  · exact hnull

end Reader

/-! ## Members -/

namespace Record

variable {δ α : Type} {r : Record δ α}

/-- Putting the members that there are into the draft `draft` gives `result`. -/
inductive Puts (r : Record δ α) : δ → List (String × Option Json) → δ → Prop where
  | nil (draft : δ) : Puts r draft [] draft
  | member {draft result : δ} (middle : δ) {key : String} {value? : Option Json}
    {members : List (String × Option Json)} {field : Field δ}
    (hfind : r.fields.find? (·.name = key) = some field)
    (hput : ∀ value ∈ value?, field.put draft value.toNode = .ok middle)
    (hskip : value? = none → middle = draft) (hrest : Puts r middle members result) :
    Puts r draft ((key, value?) :: members) result

/-- The members that there are of a record. -/
def present (members : List (String × Option Json)) : List (String × Json) :=
  members.filterMap fun (key, value) => value.map (key, ·)

/-- A member that is always there. -/
theorem Puts.required {β : Type} {reader : Reader β} {draft result : δ} (set : β → δ) {b : β}
    {key : String} {value : Json} {members : List (String × Option Json)} {field : Field δ}
    (hfind : r.fields.find? (·.name = key) = some field)
    (hput : field.put draft = fun node => do return set (← reader node))
    (hread : reader value.toNode = .ok b) (hrest : Puts r (set b) members result) :
    Puts r draft ((key, some value) :: members) result := by
  refine .member (set b) hfind (fun value' hvalue => ?_) (fun hnone => nomatch hnone) hrest
  rw [← Option.some.inj hvalue, hput]
  simp only [hread]
  rfl

/-- A member that may be absent, for which the draft has an option. -/
theorem Puts.optional {β : Type} {reader : Reader β} {f : β → Json} {draft result : δ}
    (set : Option β → δ) {key : String} (value? : Option β)
    {members : List (String × Option Json)} {field : Field δ}
    (hfind : r.fields.find? (·.name = key) = some field)
    (hput : field.put draft = fun node => do return set (← Reader.option reader node))
    (hread : ∀ a, (f a).toNode ≠ .null ∧ reader (f a).toNode = .ok a) (hnone : set none = draft)
    (hrest : Puts r (set value?) members result) :
    Puts r draft ((key, value?.map f) :: members) result := by
  refine .member (set value?) hfind (fun value hvalue => ?_) (fun habsent => ?_) hrest
  · rw [hput]
    simp only [Reader.read_option hread value? value hvalue]
    rfl
  · rw [Option.map_eq_none_iff.1 habsent, hnone]

theorem Puts.putMembers {draft result : δ} {members : List (String × Option Json)}
    (h : Puts r draft members result) (hkeys : (members.map Prod.fst).Nodup) {seen : List String}
    (hseen : ∀ key ∈ members.map Prod.fst, key ∉ seen) :
    r.putMembers seen draft (memberNodes (present members)) = .ok result := by
  induction h generalizing seen with
  | nil draft => rfl
  | @member draft result middle key value? members field hfind hput hskip _ ih =>
    obtain ⟨hkey, hkeys'⟩ := List.nodup_cons.1 hkeys
    obtain ⟨hnew, hseen'⟩ := List.forall_mem_cons.1 hseen
    cases value? with
    | none =>
      rw [← hskip rfl]
      exact ih hkeys' hseen'
    | some value =>
      -- The keys that are still to come have not been seen, nor are they this one.
      have hrest : ∀ key' ∈ members.map Prod.fst, key' ∉ key :: seen := by
        intro key' hmem hcons
        rcases List.mem_cons.1 hcons with rfl | hold
        · exact hkey hmem
        · exact hseen' key' hmem hold
      have hpresent : memberNodes (present ((key, some value) :: members)) =
          (.ok key, value.toNode) :: memberNodes (present members) := rfl
      rw [hpresent, Record.putMembers]
      simp only [bind, Except.bind, hfind, hput value rfl, if_neg hnew]
      exact ih hkeys' hrest

/-- A record is read from what is written of its members. -/
theorem Puts.read {result : δ} {members : List (String × Option Json)}
    (h : Puts r r.blank members result) (hkeys : (members.map Prod.fst).Nodup) :
    r.read (record members).toNode = r.finish result := by
  have hputs : r.putMembers [] r.blank (memberNodes (present members)) = .ok result :=
    h.putMembers hkeys fun _ _ => List.not_mem_nil
  have hnode : (record members).toNode = .object (memberNodes (present members)) .closed := rfl
  rw [hnode, Record.read, hputs]
  rfl

end Record

/-- The JSON of a record has no other numbers than its members have. -/
theorem exact_record {members : List (String × Option Json)}
    (h : ∀ member ∈ members, ∀ value ∈ member.2, Exact value) : Exact (record members) :=
  .object (forall_mem_record h)

end Json

open Json (Reader Record Exact exact_record)

/-! ## Headers -/

namespace Header

theorem exact_toJson (h : Header) : Exact h.toJson := by
  refine exact_record fun member hmem value hvalue => ?_
  simp only [List.mem_cons, List.not_mem_nil, or_false] at hmem
  rcases hmem with rfl | rfl | rfl
  · obtain rfl := Option.some.inj hvalue
    exact .string _
  · obtain ⟨s, -, rfl⟩ := Option.map_eq_some_iff.1 hvalue
    exact .string s
  · obtain ⟨s, -, rfl⟩ := Option.map_eq_some_iff.1 hvalue
    exact .string s

theorem read_toJson (h : Header) : record.read h.toJson.toNode = .ok h := by
  have hputs : record.Puts record.blank [("alg", some (.string h.alg)), ("typ", h.typ.map .string),
      ("kid", h.kid.map .string)] ⟨some h.alg, h.typ, h.kid⟩ := by
    refine .required (fun alg => ⟨some alg, none, none⟩) rfl rfl (Reader.read_string _).2 ?_
    refine .optional (fun typ => ⟨some h.alg, typ, none⟩) h.typ rfl rfl Reader.read_string rfl ?_
    refine .optional (fun kid => ⟨some h.alg, h.typ, kid⟩) h.kid rfl rfl Reader.read_string rfl ?_
    exact .nil _
  rw [toJson, hputs.read (show ["alg", "typ", "kid"].Nodup by decide)]
  rfl

theorem parse_compact (h : Header) :
    Json.parse record.read h.toJson.compact.toUTF8.data.toList = .ok h := by
  rw [Json.parse_compact _ h.exact_toJson, read_toJson]

end Header

/-! ## List claims -/

theorem Width.read_toJson (w : Width) : Width.reader w.toJson.toNode = .ok w := by
  have hbyte : Reader.byte w.toJson.toNode = .ok w.bits.toUInt8 := by
    have hleast : (0 : Int) ≤ w.bits := Int.natCast_nonneg _
    have hmost : (w.bits : Int) ≤ 8 := by cases w <;> decide
    rw [Reader.byte, Width.toJson, Json.ofNat, Reader.read_integer "u8" hleast (by omega)
      (by omega) (by omega)]
    rfl
  rw [Width.reader, hbyte]
  cases w <;> rfl

namespace ListClaim

theorem exact_toJson (c : ListClaim) : Exact c.toJson := by
  refine exact_record fun member hmem value hvalue => ?_
  simp only [List.mem_cons, List.not_mem_nil, or_false] at hmem
  rcases hmem with rfl | rfl | rfl
  · obtain rfl := Option.some.inj hvalue
    exact .integer _
  · obtain rfl := Option.some.inj hvalue
    exact .string _
  · obtain ⟨s, -, rfl⟩ := Option.map_eq_some_iff.1 hvalue
    exact .string s

theorem read_toJson (c : ListClaim) : record.read c.toJson.toNode = .ok c := by
  have hputs : record.Puts record.blank [("bits", some c.width.toJson),
      ("lst", some (.string c.lst)), ("aggregation_uri", c.aggregationUri.map .string)]
      ⟨some c.width, some c.lst, c.aggregationUri⟩ := by
    refine .required (fun width => ⟨some width, none, none⟩) rfl rfl c.width.read_toJson ?_
    refine .required (fun lst => ⟨some c.width, some lst, none⟩) rfl rfl (Reader.read_string _).2 ?_
    refine .optional (fun uri => ⟨some c.width, some c.lst, uri⟩) c.aggregationUri rfl rfl
      Reader.read_string rfl ?_
    exact .nil _
  rw [toJson, hputs.read (show ["bits", "lst", "aggregation_uri"].Nodup by decide)]
  rfl

end ListClaim

/-! ## Claims -/

namespace Claims

theorem exact_toJson (c : Claims) : Exact c.toJson := by
  refine exact_record fun member hmem value hvalue => ?_
  simp only [List.mem_cons, List.not_mem_nil, or_false] at hmem
  rcases hmem with rfl | rfl | rfl | rfl | rfl | rfl
  · obtain rfl := Option.some.inj hvalue
    exact .string _
  · obtain rfl := Option.some.inj hvalue
    exact .string _
  · obtain rfl := Option.some.inj hvalue
    exact .integer _
  · obtain ⟨t, -, rfl⟩ := Option.map_eq_some_iff.1 hvalue
    exact .integer _
  · obtain ⟨t, -, rfl⟩ := Option.map_eq_some_iff.1 hvalue
    exact .integer _
  · obtain rfl := Option.some.inj hvalue
    exact c.statusList.exact_toJson

theorem read_toJson (c : Claims) : record.read c.toJson.toNode = .ok c := by
  have hputs : record.Puts record.blank [("iss", some (.string c.iss)),
      ("sub", some (.string c.sub)), ("iat", some (.ofInt c.iat.toInt)),
      ("exp", c.exp.map fun t => .ofInt t.toInt), ("ttl", c.ttl.map fun t => .ofNat t.toNat),
      ("status_list", some c.statusList.toJson)]
      ⟨some c.iss, some c.sub, some c.iat, c.exp, c.ttl, some c.statusList⟩ := by
    refine .required (fun iss => ⟨some iss, none, none, none, none, none⟩) rfl rfl
      (Reader.read_string _).2 ?_
    refine .required (fun sub => ⟨some c.iss, some sub, none, none, none, none⟩) rfl rfl
      (Reader.read_string _).2 ?_
    refine .required (fun iat => ⟨some c.iss, some c.sub, some iat, none, none, none⟩) rfl rfl
      (Reader.read_signed _).2 ?_
    refine .optional (fun exp => ⟨some c.iss, some c.sub, some c.iat, exp, none, none⟩) c.exp rfl
      rfl Reader.read_signed rfl ?_
    refine .optional (fun ttl => ⟨some c.iss, some c.sub, some c.iat, c.exp, ttl, none⟩) c.ttl rfl
      rfl Reader.read_longWord rfl ?_
    refine .required
      (fun claim => ⟨some c.iss, some c.sub, some c.iat, c.exp, c.ttl, some claim⟩) rfl rfl
      c.statusList.read_toJson ?_
    exact .nil _
  rw [toJson, hputs.read
    (show ["iss", "sub", "iat", "exp", "ttl", "status_list"].Nodup by decide)]
  rfl

theorem parse_compact (c : Claims) :
    Json.parse record.read c.toJson.compact.toUTF8.data.toList = .ok c := by
  rw [Json.parse_compact _ c.exact_toJson, read_toJson]

end Claims

end StatusList
