import StatusList.Proofs.Json.Nodes
import StatusList.Proofs.Json.Readers

/-!
# Members in any arrangement

The members of an object may be *rearranged* without any loss: be put in another order, have
members of unknown names among them, have a null where an optional member is absent, and be
rearranged inside their values (`Rearranged`). A record makes the same of an object before and
after (`Record.Arrangeable.read_rearranged`), but nothing of one that has a member twice
(`Record.not_repeats_of_read`).

Two members of different names change different parts of the draft (`Field.Commutes`), so they
may be swapped where they stand next to each other, and swaps make every order. The keys that
have been seen matter only for members that are still to come (`Record.putMembers_of_seen_iff`).

What has been read into a part of the draft tells of the member that it comes from
(`Record.KeepsPart.exists_value`).
-/

namespace StatusList.Json

/-! ## Passing over -/

namespace Node

theorem passItems?_eq_none {items : List Node} (h : ∀ item ∈ items, item.pass? = none) :
    passItems? items = none := by
  induction items with
  | nil => rw [passItems?]
  | cons item items ih =>
    obtain ⟨hitem, hitems⟩ := List.forall_mem_cons.1 h
    rw [passItems?, hitem, Option.none_or, ih hitems]

theorem passMembers?_eq_none {members : List (Literal × Node)}
    (h : ∀ member ∈ members, member.2.pass? = none) : passMembers? members = none := by
  induction members with
  | nil => rw [passMembers?]
  | cons member members ih =>
    obtain ⟨key, value⟩ := member
    obtain ⟨hvalue, hmembers⟩ := List.forall_mem_cons.1 h
    rw [passMembers?, hvalue, Option.none_or, ih hmembers]

/-- There is no fault in a node in which nothing is missing. -/
theorem Whole.pass?_eq_none {node : Node} (h : Whole node) : node.pass? = none := by
  induction h with
  | null => rfl
  | boolean => rfl
  | number => rfl
  | string => rfl
  | @array items _ ih =>
    rw [pass?, passItems?_eq_none ih]
    rfl
  | @object members _ ih =>
    rw [pass?, passMembers?_eq_none ih]
    rfl

end Node

/-! ## Arrangements -/

/-- Members rearranged, where a record knows the `names`, of which the `optional` ones may be
    absent; `Inside` tells which value may take the place of which in the member of a name. -/
inductive Rearranged (names optional : List String) (Inside : String → Node → Node → Prop) :
    List (Literal × Node) → List (Literal × Node) → Prop where
  /-- The members come in another order. -/
  | order {members members' : List (Literal × Node)} (h : members.Perm members') :
    Rearranged names optional Inside members members'
  /-- A member of an unknown name is added, with any value. -/
  | unknown {name : String} {value : Node} {members : List (Literal × Node)}
    (hname : name ∉ names) (hvalue : value.Whole) :
    Rearranged names optional Inside members ((.ok name, value) :: members)
  /-- An optional member that is absent becomes a null. -/
  | null {name : String} {members : List (Literal × Node)} (hname : name ∈ optional)
    (habsent : valuesNamed name members = []) :
    Rearranged names optional Inside members ((.ok name, .null) :: members)
  /-- The value of a member is rearranged. -/
  | inside {name : String} {value value' : Node} {members : List (Literal × Node)}
    (h : Inside name value value') :
    Rearranged names optional Inside ((.ok name, value) :: members) ((.ok name, value') :: members)
  /-- One rearrangement comes after another. -/
  | trans {members members' members'' : List (Literal × Node)}
    (h : Rearranged names optional Inside members members')
    (h' : Rearranged names optional Inside members' members'') :
    Rearranged names optional Inside members members''

/-- A known name occurs more than once among members. -/
def Repeats (names : List String) (members : List (Literal × Node)) : Prop :=
  ∃ name ∈ names, 2 ≤ (valuesNamed name members).length

/-! ## Fields -/

/-- Two members may be put into a draft in either order. -/
def Field.Commutes {δ : Type} (field field' : Field δ) : Prop :=
  ∀ draft value value' result,
    (∃ middle, field.put draft value = .ok middle ∧ field'.put middle value' = .ok result) ↔
    ∃ middle, field'.put draft value' = .ok middle ∧ field.put middle value = .ok result

instance Field.symm_commutes {δ : Type} : Std.Symm (@Field.Commutes δ) where
  symm _ _ h draft value' value result := (h draft value value' result).symm

/-- A member has nothing to do with a part of the draft. -/
def Field.Leaves {δ γ : Type} (field : Field δ) (part : δ → γ) : Prop :=
  ∀ draft value middle, field.put draft value = .ok middle → part middle = part draft

theorem Field.leaves_of_set {δ β γ : Type} {field : Field δ} {reader : Reader β} {set : δ → β → δ}
    {part : δ → γ} (h : field.put = fun draft node => do return set draft (← reader node))
    (hset : ∀ draft b, part (set draft b) = part draft) : field.Leaves part := by
  intro draft value middle hput
  rw [h] at hput
  obtain ⟨b, -, hb⟩ := bind_eq_ok_iff.1 hput
  rw [← Except.ok.inj hb, hset]

/-- Members that set different parts of the draft may be put in either order. -/
theorem Field.commutes_of_set {δ β β' : Type} {field field' : Field δ} {reader : Reader β}
    {reader' : Reader β'} {set : δ → β → δ} {set' : δ → β' → δ}
    (h : field.put = fun draft node => do return set draft (← reader node))
    (h' : field'.put = fun draft node => do return set' draft (← reader' node))
    (hset : ∀ draft b b', set' (set draft b) b' = set (set' draft b') b) :
    field.Commutes field' := by
  intro draft value value' result
  rw [h, h']
  simp only [bind_eq_ok_iff, pure, Except.pure, Except.ok.injEq]
  constructor
  · rintro ⟨_, ⟨b, hb, rfl⟩, b', hb', rfl⟩
    exact ⟨_, ⟨b', hb', rfl⟩, b, hb, (hset draft b b').symm⟩
  · rintro ⟨_, ⟨b', hb', rfl⟩, b, hb, rfl⟩
    exact ⟨_, ⟨b, hb, rfl⟩, b', hb', hset draft b b'⟩

namespace Record

variable {δ α : Type} {r : Record δ α}

/-! ## Putting members -/

/-- Keys that have been seen matter only for members that are still to come. -/
theorem putMembers_of_seen_iff {members : List (Literal × Node)} {seen seen' : List String}
    (hseen : ∀ name, valuesNamed name members ≠ [] → (name ∈ seen ↔ name ∈ seen'))
    {draft result : δ} (h : r.putMembers seen draft members = .ok result) :
    r.putMembers seen' draft members = .ok result := by
  induction members generalizing seen seen' draft with
  | nil => exact h
  | cons member members ih =>
    obtain ⟨key, value⟩ := member
    obtain ⟨name, rfl, hcases⟩ := putMembers_cons_eq_ok_iff.1 h
    have hname : name ∈ seen ↔ name ∈ seen' := by
      refine hseen name ?_
      rw [valuesNamed_cons, if_pos rfl]
      exact List.cons_ne_nil _ _
    have hrest : ∀ name', valuesNamed name' members ≠ [] → (name' ∈ seen ↔ name' ∈ seen') := by
      refine fun name' hname' => hseen name' ?_
      rw [valuesNamed_cons]
      split
      · exact List.cons_ne_nil _ _
      · exact hname'
    refine putMembers_cons_eq_ok_iff.2 ⟨name, rfl, ?_⟩
    rcases hcases with ⟨hnone, hpass, h⟩ | ⟨field, middle, hfind, hnew, hput, h⟩
    · exact .inl ⟨hnone, hpass, ih hrest h⟩
    · refine .inr ⟨field, middle, hfind, fun hold => hnew (hname.2 hold), hput, ih ?_ h⟩
      intro name' hname'
      rw [List.mem_cons, List.mem_cons, hrest name' hname']

/-- What it takes for a record to make the same of rearranged members. -/
structure Arrangeable (r : Record δ α) (optional : List String)
    (Inside : String → Node → Node → Prop) : Prop where
  /-- Members may be put in either order. -/
  commutes : r.fields.Pairwise Field.Commutes
  /-- A null in the place of an optional member leaves the blank draft as it is. -/
  optional : ∀ name ∈ optional, ∃ field, r.fields.find? (·.name = name) = some field ∧
    field.put r.blank .null = .ok r.blank
  /-- A rearranged value is put like the value before. -/
  inside : ∀ name value value', Inside name value value' →
    ∃ field, r.fields.find? (·.name = name) = some field ∧
      ∀ draft result, field.put draft value = .ok result → field.put draft value' = .ok result

variable {optional : List String} {Inside : String → Node → Node → Prop}

/-- Members of different names may be put in either order. -/
theorem Arrangeable.commutes_of_find? (hr : r.Arrangeable optional Inside) {name name' : String}
    (hne : name ≠ name') {field field' : Field δ}
    (h : r.fields.find? (·.name = name) = some field)
    (h' : r.fields.find? (·.name = name') = some field') : field.Commutes field' := by
  obtain ⟨hmem, hname⟩ := of_find?_eq_some h
  obtain ⟨hmem', hname'⟩ := of_find?_eq_some h'
  refine hr.commutes.forall hmem hmem' ?_
  rintro rfl
  exact hne (hname.symm.trans hname')

/-- Two members next to each other may be swapped. -/
theorem Arrangeable.putMembers_swap (hr : r.Arrangeable optional Inside)
    {member member' : Literal × Node} {members : List (Literal × Node)} {seen : List String}
    {draft result : δ} (h : r.putMembers seen draft (member :: member' :: members) = .ok result) :
    r.putMembers seen draft (member' :: member :: members) = .ok result := by
  obtain ⟨key, value⟩ := member
  obtain ⟨key', value'⟩ := member'
  obtain ⟨name, rfl, ⟨hnone, hpass, h'⟩ | ⟨field, middle, hfind, hnew, hput, h'⟩⟩ :=
    putMembers_cons_eq_ok_iff.1 h
  · -- The first member is passed over, also where it comes second.
    have hfirst : ∀ {seen draft}, r.putMembers seen draft members = .ok result →
        r.putMembers seen draft ((.ok name, value) :: members) = .ok result :=
      fun hrest => putMembers_cons_eq_ok_iff.2 ⟨name, rfl, .inl ⟨hnone, hpass, hrest⟩⟩
    obtain ⟨name', rfl, hcases⟩ := putMembers_cons_eq_ok_iff.1 h'
    refine putMembers_cons_eq_ok_iff.2 ⟨name', rfl, ?_⟩
    rcases hcases with ⟨hnone', hpass', hrest⟩ | ⟨field', middle', hfind', hnew', hput', hrest⟩
    · exact .inl ⟨hnone', hpass', hfirst hrest⟩
    · exact .inr ⟨field', middle', hfind', hnew', hput', hfirst hrest⟩
  · obtain ⟨name', rfl, hcases⟩ := putMembers_cons_eq_ok_iff.1 h'
    refine putMembers_cons_eq_ok_iff.2 ⟨name', rfl, ?_⟩
    rcases hcases with ⟨hnone', hpass', hrest⟩ | ⟨field', middle', hfind', hnew', hput', hrest⟩
    · exact .inl ⟨hnone', hpass', putMembers_cons_eq_ok_iff.2
        ⟨name, rfl, .inr ⟨field, middle, hfind, hnew, hput, hrest⟩⟩⟩
    · obtain ⟨hne, hnew'⟩ := not_or.1 (mt List.mem_cons.2 hnew')
      have hcommutes := hr.commutes_of_find? (Ne.symm hne) hfind hfind'
      obtain ⟨middle'', hput'', hput⟩ :=
        (hcommutes draft value value' middle').1 ⟨middle, hput, hput'⟩
      have hnew : name ∉ name' :: seen := mt List.mem_cons.1 (not_or.2 ⟨Ne.symm hne, hnew⟩)
      have hrest : r.putMembers (name :: name' :: seen) middle' members = .ok result :=
        putMembers_of_seen_iff (fun _ _ => by simp only [List.mem_cons, or_left_comm]) hrest
      exact .inr ⟨field', middle'', hfind', hnew', hput'', putMembers_cons_eq_ok_iff.2
        ⟨name, rfl, .inr ⟨field, middle', hfind, hnew, hput, hrest⟩⟩⟩

/-- Members may be put in any order. -/
theorem Arrangeable.putMembers_perm (hr : r.Arrangeable optional Inside)
    {members members' : List (Literal × Node)} (hperm : members.Perm members')
    {seen : List String} {draft result : δ} (h : r.putMembers seen draft members = .ok result) :
    r.putMembers seen draft members' = .ok result := by
  induction hperm generalizing seen draft with
  | nil => exact h
  | cons member _ ih =>
    obtain ⟨key, value⟩ := member
    obtain ⟨name, rfl, hcases⟩ := putMembers_cons_eq_ok_iff.1 h
    refine putMembers_cons_eq_ok_iff.2 ⟨name, rfl, ?_⟩
    rcases hcases with ⟨hnone, hpass, hrest⟩ | ⟨field, middle, hfind, hnew, hput, hrest⟩
    · exact .inl ⟨hnone, hpass, ih hrest⟩
    · exact .inr ⟨field, middle, hfind, hnew, hput, ih hrest⟩
  | swap => exact hr.putMembers_swap h
  | trans _ _ ih ih' => exact ih' (ih h)

/-- Rearranged members are put as before. -/
theorem Arrangeable.putMembers_rearranged (hr : r.Arrangeable optional Inside)
    {members members' : List (Literal × Node)}
    (hmembers : Rearranged r.names optional Inside members members') {result : δ}
    (h : r.putMembers [] r.blank members = .ok result) :
    r.putMembers [] r.blank members' = .ok result := by
  induction hmembers with
  | order hperm => exact hr.putMembers_perm hperm h
  | @unknown name value members hname hvalue =>
    exact putMembers_cons_eq_ok_iff.2
      ⟨name, rfl, .inl ⟨find?_eq_none_iff.2 hname, hvalue.pass?_eq_none, h⟩⟩
  | @null name members hname habsent =>
    obtain ⟨field, hfind, hput⟩ := hr.optional name hname
    have hrest : r.putMembers [name] r.blank members = .ok result := by
      refine putMembers_of_seen_iff (fun name' hname' => ?_) h
      have hne : name' ≠ name := fun heq => hname' (heq ▸ habsent)
      simp [hne]
    exact putMembers_cons_eq_ok_iff.2
      ⟨name, rfl, .inr ⟨field, r.blank, hfind, List.not_mem_nil, hput, hrest⟩⟩
  | @inside name value value' members hvalue =>
    obtain ⟨field, hfind, hinside⟩ := hr.inside name value value' hvalue
    obtain ⟨_, heq, hcases⟩ := putMembers_cons_eq_ok_iff.1 h
    obtain rfl := Except.ok.inj heq
    rcases hcases with ⟨hnone, -⟩ | ⟨_, middle, hfind', hnew, hput, hrest⟩
    · exact absurd (hfind.symm.trans hnone) nofun
    · obtain rfl := Option.some.inj (hfind.symm.trans hfind')
      exact putMembers_cons_eq_ok_iff.2
        ⟨name, rfl, .inr ⟨field, middle, hfind, hnew, hinside _ _ hput, hrest⟩⟩
  | trans _ _ ih ih' => exact ih' (ih h)

/-! ## Members that repeat -/

/-- The value of every member of a known name is put. -/
theorem exists_put {name : String} {field : Field δ}
    (hfind : r.fields.find? (·.name = name) = some field) {members : List (Literal × Node)}
    {value : Node} (hvalue : value ∈ valuesNamed name members) {seen : List String}
    {draft result : δ} (h : r.putMembers seen draft members = .ok result) :
    ∃ draft middle, field.put draft value = .ok middle := by
  induction members generalizing seen draft with
  | nil => exact absurd hvalue List.not_mem_nil
  | cons member members ih =>
    obtain ⟨key, value'⟩ := member
    obtain ⟨name', rfl, hcases⟩ := putMembers_cons_eq_ok_iff.1 h
    rw [valuesNamed_cons] at hvalue
    rcases hcases with ⟨hnone, -, hrest⟩ | ⟨field', middle, hfind', -, hput, hrest⟩
    · have hne : name' ≠ name := by
        rintro rfl
        exact nomatch hnone.symm.trans hfind
      rw [if_neg hne] at hvalue
      exact ih hvalue hrest
    · split at hvalue
      · next heq =>
        subst heq
        obtain rfl := Option.some.inj (hfind.symm.trans hfind')
        rcases List.mem_cons.1 hvalue with rfl | hvalue
        · exact ⟨draft, middle, hput⟩
        · exact ih hvalue hrest
      · exact ih hvalue hrest

/-- No known name occurs twice among members that are put. -/
theorem length_valuesNamed_le_one {name : String} (hname : name ∈ r.names)
    {members : List (Literal × Node)} {seen : List String} {draft result : δ}
    (h : r.putMembers seen draft members = .ok result) :
    (valuesNamed name members).length ≤ 1 := by
  induction members generalizing seen draft with
  | nil => exact Nat.zero_le 1
  | cons member members ih =>
    obtain ⟨key, value⟩ := member
    obtain ⟨name', rfl, hcases⟩ := putMembers_cons_eq_ok_iff.1 h
    rw [valuesNamed_cons]
    split
    · next heq =>
      subst heq
      rcases hcases with ⟨hnone, -⟩ | ⟨field, middle, -, -, -, hrest⟩
      · exact absurd hname (find?_eq_none_iff.1 hnone)
      · rw [valuesNamed_eq_nil_of_seen hname List.mem_cons_self hrest]
        exact Nat.le_refl 1
    · rcases hcases with ⟨-, -, hrest⟩ | ⟨field, middle, -, -, -, hrest⟩
      · exact ih hrest
      · exact ih hrest

/-! ## Parts of the draft -/

/-- A part of the draft is what is read of the value of one member, and no other member has to
    do with it. -/
structure KeepsPart {β : Type} (r : Record δ α) (name : String) (reader : Reader β)
    (part : δ → Option β) : Prop where
  one : ∃ field, r.fields.find? (·.name = name) = some field ∧
    ∀ draft value middle, field.put draft value = .ok middle →
      ∃ b, reader value = .ok b ∧ part middle = some b
  others : ∀ field ∈ r.fields, field.name ≠ name → field.Leaves part

variable {β : Type} {name : String} {reader : Reader β} {part : δ → Option β}

theorem keepsPart_of_set {field : Field δ} {set : δ → β → δ}
    (hfind : r.fields.find? (·.name = name) = some field)
    (hput : field.put = fun draft node => do return set draft (← reader node))
    (hset : ∀ draft b, part (set draft b) = some b)
    (hothers : ∀ field ∈ r.fields, field.name ≠ name → field.Leaves part) :
    r.KeepsPart name reader part where
  one := by
    refine ⟨field, hfind, fun draft value middle h => ?_⟩
    rw [hput] at h
    obtain ⟨b, hread, hb⟩ := bind_eq_ok_iff.1 h
    exact ⟨b, hread, by rw [← Except.ok.inj hb, hset]⟩
  others := hothers

/-- Without the member the part stays what it is. -/
theorem KeepsPart.eq_of_putMembers (hpart : r.KeepsPart name reader part)
    {members : List (Literal × Node)} (hnone : valuesNamed name members = [])
    {seen : List String} {draft result : δ} (h : r.putMembers seen draft members = .ok result) :
    part result = part draft := by
  induction members generalizing seen draft with
  | nil =>
    rw [putMembers, Except.ok.injEq] at h
    rw [h]
  | cons member members ih =>
    obtain ⟨key, value⟩ := member
    obtain ⟨name', rfl, hcases⟩ := putMembers_cons_eq_ok_iff.1 h
    rw [valuesNamed_cons] at hnone
    split at hnone
    · cases hnone
    · next hne =>
      rcases hcases with ⟨-, -, hrest⟩ | ⟨field, middle, hfind, -, hput, hrest⟩
      · exact ih hnone hrest
      · obtain ⟨hfield, hname⟩ := of_find?_eq_some hfind
        rw [ih hnone hrest, hpart.others field hfield (hname.trans_ne hne) _ _ _ hput]

/-- Where the part is there in the end and was not before, there is one such member, and the part
    is what is read of its value. -/
theorem KeepsPart.exists_value (hpart : r.KeepsPart name reader part)
    {members : List (Literal × Node)} {seen : List String} {draft result : δ}
    (h : r.putMembers seen draft members = .ok result) (hblank : part draft = none) {b : β}
    (hsome : part result = some b) :
    ∃ value, valuesNamed name members = [value] ∧ reader value = .ok b := by
  obtain ⟨field, hfield, hone⟩ := hpart.one
  induction members generalizing seen draft with
  | nil =>
    rw [putMembers, Except.ok.injEq] at h
    rw [← h, hblank] at hsome
    cases hsome
  | cons member members ih =>
    obtain ⟨key, value⟩ := member
    obtain ⟨name', rfl, ⟨hnone, -, hrest⟩ | ⟨field', middle, hfind, -, hput, hrest⟩⟩ :=
      putMembers_cons_eq_ok_iff.1 h
    · have hne : name' ≠ name := by
        rintro rfl
        cases hnone.symm.trans hfield
      rw [valuesNamed_cons, if_neg hne]
      exact ih hrest hblank
    · rw [valuesNamed_cons]
      split
      · next heq =>
        subst heq
        obtain rfl := Option.some.inj (hfield.symm.trans hfind)
        have hnone := valuesNamed_eq_nil_of_seen (List.mem_map.2 ⟨field, of_find?_eq_some hfind⟩)
          List.mem_cons_self hrest
        obtain ⟨b', hread, hmiddle⟩ := hone _ _ _ hput
        rw [hpart.eq_of_putMembers hnone hrest, hmiddle, Option.some.injEq] at hsome
        exact ⟨value, by rw [hnone], hsome ▸ hread⟩
      · next hne =>
        obtain ⟨hfield', hname⟩ := of_find?_eq_some hfind
        refine ih hrest ?_
        rw [hpart.others field' hfield' (hname.trans_ne hne) _ _ _ hput, hblank]

/-! ## Objects -/

theorem read_object_eq_ok_iff {members : List (Literal × Node)} {value : α} :
    r.read (.object members .closed) = .ok value ↔
      ∃ draft, r.putMembers [] r.blank members = .ok draft ∧ r.finish draft = .ok value := by
  rw [read, bind_eq_ok_iff]
  rfl

/-- What is read from an object is read from it rearranged. -/
theorem Arrangeable.read_rearranged (hr : r.Arrangeable optional Inside)
    {members members' : List (Literal × Node)}
    (hmembers : Rearranged r.names optional Inside members members') {value : α}
    (h : r.read (.object members .closed) = .ok value) :
    r.read (.object members' .closed) = .ok value := by
  obtain ⟨draft, hput, hfinish⟩ := read_object_eq_ok_iff.1 h
  exact read_object_eq_ok_iff.2 ⟨draft, hr.putMembers_rearranged hmembers hput, hfinish⟩

/-- No object is read in which a known name repeats. -/
theorem not_repeats_of_read {members : List (Literal × Node)} {value : α}
    (h : r.read (.object members .closed) = .ok value) : ¬Repeats r.names members := by
  rintro ⟨name, hname, htwice⟩
  obtain ⟨draft, hput, -⟩ := read_object_eq_ok_iff.1 h
  have honce := length_valuesNamed_le_one hname hput
  omega

end Record

end StatusList.Json
