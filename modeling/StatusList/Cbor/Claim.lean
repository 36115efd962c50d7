import StatusList.Packed

/-!
# Binary claims

The list claim in CBOR: a map with the width, the compressed list and perhaps
the place where the list is gathered with others. Other keys are ignored, and
of a key that occurs twice the last value counts.
-/

namespace StatusList

open Cbor (Item)

/-- The list claim of a binary token. -/
structure BinaryClaim where
  /-- The width of every entry. -/
  width : Width
  /-- The compressed list. -/
  lst : ByteArray
  /-- Where the list is gathered with others. -/
  aggregationUri : Option String
  deriving DecidableEq

namespace BinaryClaim

/-! ## Lists -/

/-- The claim of a packed list. -/
def ofPacked (p : Packed) (aggregationUri : Option String) : BinaryClaim :=
  ⟨p.width, p.toCompressed, aggregationUri⟩

/-- The packed list of a claim. -/
def toPacked (c : BinaryClaim) : Except Error Packed := do
  return ⟨c.width, ← inflate c.lst⟩

/-! ## Writing -/

/-- The item of a claim. -/
def toItem (c : BinaryClaim) : Item :=
  .map ([(.text "bits", .integer c.width.bits), (.text "lst", .bytes c.lst.data.toList)]
    ++ (c.aggregationUri.map fun uri => (Item.text "aggregation_uri", Item.text uri)).toList)

/-- The written form of a claim. -/
def toCbor (c : BinaryClaim) : ByteArray := c.toItem.encode.toByteArray

/-! ## Reading -/

/-- A claim of which members may be missing yet. -/
structure Draft where
  width : Option Width
  lst : Option (List UInt8)
  aggregationUri : Option String

/-- The width of an integer. -/
def widthOf (n : Int) : Except Error Width :=
  if 0 ≤ n ∧ n < 256 then
    match Width.ofBits? n.toNat with
    | some width => .ok width
    | none => .error (.invalidWidth n.toNat)
  else
    .error (.badClaim .widthOutOfRange)

/-- The draft after one more entry of the map. -/
def Draft.put (d : Draft) (key value : Item) : Except Error Draft :=
  match key, value with
  | .text "bits", .integer n => return { d with width := some (← widthOf n) }
  | .text "bits", _ => .error (.badClaim (.wrongType "bits"))
  | .text "lst", .bytes lst => .ok { d with lst := some lst }
  | .text "lst", _ => .error (.badClaim (.wrongType "lst"))
  | .text "aggregation_uri", .text uri => .ok { d with aggregationUri := some uri }
  | .text "aggregation_uri", _ => .error (.badClaim (.wrongType "aggregation_uri"))
  | _, _ => .ok d

/-- The claim of a draft, or the first member that it lacks. -/
def Draft.finish (d : Draft) : Except Error BinaryClaim :=
  match d.width, d.lst with
  | none, _ => .error (.badClaim (.missing "bits"))
  | some _, none => .error (.badClaim (.missing "lst"))
  | some width, some lst => .ok ⟨width, lst.toByteArray, d.aggregationUri⟩

/-- The claim of an item. -/
def ofItem : Item → Except Error BinaryClaim
  | .map entries => do
    let draft ← entries.foldlM (fun (d : Draft) (key, value) => d.put key value) ⟨none, none, none⟩
    draft.finish
  | _ => .error (.badClaim .notAMap)

/-- The claim at the beginning of a byte string. -/
def ofCbor (bytes : ByteArray) : Except Error BinaryClaim :=
  match Item.read bytes.data.toList with
  | .ok item => ofItem item
  | .error fault => .error (.badClaim (.unreadable fault))

end BinaryClaim

end StatusList
