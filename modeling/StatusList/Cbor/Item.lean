/-!
# CBOR items

An *item* is a value of the binary format CBOR. Every item is written with the
shortest head: a byte with its kind and either a small number or how many bytes
of a number follow.

* `Item.encode`: the written form of an item.
-/

namespace StatusList.Cbor

/-- A value. -/
inductive Item where
  | integer (value : Int)
  | bytes (value : List UInt8)
  | text (value : String)
  | array (items : List Item)
  | map (entries : List (Item × Item))
  | tag (number : Nat) (item : Item)
  | boolean (value : Bool)
  | null
  /-- A floating-point number of two, four or eight bytes. -/
  | real (value : List UInt8)
  deriving Inhabited

/-! ## Heads -/

/-- The last `n` bytes of a number, the highest first. -/
def bigEndian : (n : Nat) → Nat → List UInt8
  | 0, _ => []
  | n + 1, value => bigEndian n (value / 256) ++ [value.toUInt8]

/-- The head of an item of kind `major` with the number `n`, which has at most
    64 bits. -/
def head (major n : Nat) : List UInt8 :=
  if n < 24 then [(major * 32 + n).toUInt8]
  else if n < UInt8.size then (major * 32 + 24).toUInt8 :: bigEndian 1 n
  else if n < UInt16.size then (major * 32 + 25).toUInt8 :: bigEndian 2 n
  else if n < UInt32.size then (major * 32 + 26).toUInt8 :: bigEndian 4 n
  else (major * 32 + 27).toUInt8 :: bigEndian 8 n

/-- The head of a floating-point number of `n` bytes. -/
def realHead (n : Nat) : UInt8 := if n = 2 then 0xF9 else if n = 4 then 0xFA else 0xFB

namespace Item

mutual

/-- The written form. -/
def encode : Item → List UInt8
  | integer (.ofNat n) => head 0 n
  | integer (.negSucc n) => head 1 n
  | bytes value => head 2 value.length ++ value
  | text value => head 3 value.toUTF8.size ++ value.toUTF8.data.toList
  | array items => head 4 items.length ++ encodeItems items
  | map entries => head 5 entries.length ++ encodeEntries entries
  | tag number item => head 6 number ++ encode item
  | boolean value => [if value then 0xF5 else 0xF4]
  | null => [0xF6]
  | real value => realHead value.length :: value

/-- The written forms of items, one after the other. -/
def encodeItems : List Item → List UInt8
  | [] => []
  | item :: items => encode item ++ encodeItems items

/-- The written forms of keys and values, one after the other. -/
def encodeEntries : List (Item × Item) → List UInt8
  | [] => []
  | (key, value) :: entries => encode key ++ encode value ++ encodeEntries entries

end

end Item

end StatusList.Cbor
