import StatusList.Cbor.Claim
import StatusList.Proofs.Cbor.Strings

/-!
# Binary claims round trip

A binary claim is read as it was written, and what follows it is left alone
(`BinaryClaim.ofCbor_toCbor_append`).

An item is `Taken` if it is read off the beginning of every byte string that begins with
its written form. Integers, byte strings and texts are, and a map is if its keys and
values are.
-/

namespace StatusList

namespace Cbor.Item

/-! ## Items -/

/-- The item is read as it was written, whatever follows, with at most `depth` arrays,
    maps and tags inside one another. -/
def Taken (depth : Nat) (item : Item) : Prop :=
  ∀ rest, (do takeItem depth (← takeHead) : Parser Item) (item.encode ++ rest) = .ok (item, rest)

theorem taken_integer (depth : Nat) {n : Nat} (h : n < 2 ^ 64) : Taken depth (.integer n) := by
  intro rest
  have hhead := takeHead_head (n := n) (.positive n) (by decide : 0 < 7) h
    (fun argument hargument => by simp only [Head.of, hargument]) rest
  refine (bind_of_ok hhead _).trans ?_
  cases depth <;> rfl

theorem taken_bytes (depth : Nat) {value : List UInt8} (h : value.length < 2 ^ 64) :
    Taken depth (.bytes value) := by
  intro rest
  have hhead := takeHead_head (n := value.length) (.bytes (some value.length))
    (by decide : 2 < 7) h (fun argument hargument => by rw [Head.of, hargument]) (value ++ rest)
  rw [encode, List.append_assoc]
  refine (bind_of_ok hhead _).trans ?_
  have htake := bind_of_ok (takeByteString_append value rest) fun taken => pure (Item.bytes taken)
  cases depth <;> exact htake

theorem taken_text (depth : Nat) {value : String} (h : value.utf8ByteSize < 2 ^ 64) :
    Taken depth (.text value) := by
  intro rest
  have hbytes : value.toUTF8.data.toList = Utf8.encode value.toList := Utf8.toList_toUTF8 value
  have hlength : value.toUTF8.size = (Utf8.encode value.toList).length :=
    congrArg List.length hbytes
  have hsize : value.toUTF8.size < 2 ^ 64 := h
  rw [hlength] at hsize
  have hhead := takeHead_head (.text (some (Utf8.encode value.toList).length))
    (by decide : 3 < 7) hsize (fun argument hargument => by rw [Head.of, hargument])
    (Utf8.encode value.toList ++ rest)
  rw [encode, List.append_assoc, hlength, hbytes]
  refine (bind_of_ok hhead _).trans ?_
  have htake := bind_of_ok (takeText_encode value.toList rest) fun taken => pure (Item.text taken)
  rw [String.ofList_toList] at htake
  cases depth <;> exact htake

/-- Entries are taken one after the other if their keys and values are. -/
theorem takeCounted_entries {depth : Nat} {take : Parser (Item × Item)}
    (htake : take = do
      let key ← (do takeItem depth (← takeHead))
      let value ← (do takeItem depth (← takeHead))
      return (key, value))
    {entries : List (Item × Item)} (h : ∀ e ∈ entries, Taken depth e.1 ∧ Taken depth e.2)
    (done : List (Item × Item)) (rest : List UInt8) :
    takeCounted take entries.length done (encodeEntries entries ++ rest) =
      .ok (done.reverse ++ entries, rest) := by
  induction entries generalizing done with
  | nil =>
    rw [List.append_nil]
    rfl
  | cons e entries ih =>
    obtain ⟨key, value⟩ := e
    obtain ⟨⟨hkey, hvalue⟩, hrest⟩ := List.forall_mem_cons.1 h
    have hentry : take (encode key ++ (encode value ++ (encodeEntries entries ++ rest))) =
        .ok ((key, value), encodeEntries entries ++ rest) := by
      rw [htake]
      exact (bind_of_ok (hkey _) _).trans (bind_of_ok (hvalue _) _)
    rw [encodeEntries, List.append_assoc, List.append_assoc, List.length_cons]
    refine (bind_of_ok hentry _).trans ((ih hrest _).trans ?_)
    rw [List.reverse_cons, List.append_assoc, List.singleton_append]

theorem taken_map {depth : Nat} {entries : List (Item × Item)} (hlength : entries.length < 2 ^ 64)
    (h : ∀ e ∈ entries, Taken depth e.1 ∧ Taken depth e.2) : Taken (depth + 1) (.map entries) := by
  intro rest
  have hhead := takeHead_head (n := entries.length) (.map (some entries.length))
    (by decide : 5 < 7) hlength (fun argument hargument => by rw [Head.of, hargument])
    (encodeEntries entries ++ rest)
  rw [encode, List.append_assoc]
  refine (bind_of_ok hhead _).trans ?_
  refine (bind_of_ok (takeCounted_entries ?_ h [] rest) _).trans rfl
  simp only [bind_assoc]

/-- What is taken from the beginning of a byte string is what is read from it. -/
theorem read_of_taken {item : Item} (h : Taken deepest item) (rest : List UInt8) :
    Item.read (item.encode ++ rest) = .ok item :=
  congrArg (Except.map Prod.fst) (h rest)

end Cbor.Item

namespace BinaryClaim

open Cbor

/-! ## Claims -/

/-- The lengths of the list and of the text of a claim can be written in a head. -/
def Fits (c : BinaryClaim) : Prop :=
  c.lst.size < 2 ^ 64 ∧ ∀ uri ∈ c.aggregationUri, uri.utf8ByteSize < 2 ^ 64

theorem taken_toItem {c : BinaryClaim} (h : c.Fits) : Item.Taken deepest c.toItem := by
  have hbits := Item.taken_integer 255 (n := c.width.bits) (by cases c.width <;> decide)
  have hlst := Item.taken_bytes 255 (show c.lst.data.toList.length < 2 ^ 64 from h.1)
  have hkey : ∀ key ∈ ["bits", "lst", "aggregation_uri"], Item.Taken 255 (.text key) :=
    fun key hmem => Item.taken_text 255 (by
      simp only [List.mem_cons, List.not_mem_nil, or_false] at hmem
      rcases hmem with rfl | rfl | rfl <;> decide)
  have hentries : ∀ e ∈ [(Item.text "bits", Item.integer c.width.bits),
      (.text "lst", .bytes c.lst.data.toList)] ++
        (c.aggregationUri.map fun uri => (Item.text "aggregation_uri", Item.text uri)).toList,
      Item.Taken 255 e.1 ∧ Item.Taken 255 e.2 := by
    intro e hmem
    simp only [List.mem_append, List.mem_cons, List.not_mem_nil, or_false, Option.mem_toList,
      Option.map_eq_some_iff] at hmem
    rcases hmem with (rfl | rfl) | ⟨uri, huri, rfl⟩
    · exact ⟨hkey _ (by decide), hbits⟩
    · exact ⟨hkey _ (by decide), hlst⟩
    · exact ⟨hkey _ (by decide), Item.taken_text 255 (h.2 uri huri)⟩
  refine Item.taken_map ?_ hentries
  cases c.aggregationUri <;> simp

/-- The item of a claim says what the claim says. -/
theorem ofItem_toItem (c : BinaryClaim) : ofItem c.toItem = .ok c := by
  obtain ⟨width, lst, uri⟩ := c
  have hwidth : widthOf (width.bits : Int) = .ok width := by cases width <;> rfl
  have hlst := toByteArray_toList lst
  cases uri <;>
    simp only [toItem, ofItem, Option.map_none, Option.map_some, Option.toList_none,
      Option.toList_some, List.append_nil, List.cons_append, List.nil_append, List.foldlM_cons,
      List.foldlM_nil, Draft.put, hwidth, bind, Except.bind, pure, Except.pure,
      Draft.finish, hlst]

/-- A claim is read as it was written, whatever follows it. -/
theorem ofCbor_toCbor_append {c : BinaryClaim} (h : c.Fits) (rest : ByteArray) :
    ofCbor (c.toCbor ++ rest) = .ok c := by
  have hread := Item.read_of_taken (taken_toItem h) rest.data.toList
  rw [ofCbor, ByteArray.data_append, Array.toList_append, toCbor, List.data_toByteArray, hread]
  exact ofItem_toItem c

end BinaryClaim

end StatusList
