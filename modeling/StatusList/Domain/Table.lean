/-!
# Tables of letters

What is known about letters is kept as text. A *table* is a list of entries with
blanks between them, in the order of the letters. The entry `@` with a number
goes on to the letter of that number, and a value is about the next letter. After
a value, `~` and a number say how many letters it is about; with `*` in the place
of `~` the value grows along with the letter; with `/` it does so too, and only
every second letter counts. Numbers are written in base sixteen.

* `Table.ofText`: the table of a text;
* `Table.find?`: what a table says about a letter.
-/

namespace StatusList.Domain

/-- Letters that one entry of a table is about. -/
structure Run (α : Type) where
  /-- The number of the first letter. -/
  first : Nat
  /-- How many letters there are. -/
  count : Nat
  /-- How far they are apart. -/
  step : Nat
  /-- Whether the value grows along with the letter. -/
  grows : Bool
  /-- The value for the first letter. -/
  value : α
  deriving Repr, Inhabited

/-- What is known about letters, in the order of the letters. -/
structure Table (α : Type) where
  /-- The entries. -/
  runs : Array (Run α)
  deriving Repr, Inhabited

namespace Table

variable {α : Type}

/-! ## From text -/

/-- The value of a digit in base sixteen. -/
def digit (c : Char) : Nat := if c.isDigit then c.toNat - 48 else c.toNat - 55

/-- The number that digits in base sixteen give. -/
def number (digits : List Char) : Nat := digits.foldl (fun n c => n * 16 + digit c) 0

/-- The run of an entry about the letter `first`. -/
def readRun (read : List Char → α) (first : Nat) (entry : List Char) : Run α :=
  let isMark := fun c : Char => c ∈ ['~', '*', '/']
  let value := read (entry.takeWhile fun c => !isMark c)
  match entry.dropWhile fun c => !isMark c with
  | [] => ⟨first, 1, 1, false, value⟩
  | mark :: count => ⟨first, number count, if mark = '/' then 2 else 1, mark ≠ '~', value⟩

/-- Add an entry to the runs of a table, given with the number of the letter that the
    entry is about. -/
def addEntry (read : List Char → α) : Nat × Array (Run α) → List Char → Nat × Array (Run α)
  | (_, runs), '@' :: letter => (number letter, runs)
  | (next, runs), entry =>
    let run := readRun read next entry
    (next + (run.count - 1) * run.step + 1, runs.push run)

/-- The entries of a text. -/
def entries (text : List Char) : List (List Char) :=
  (text.foldr
    (fun c (entries : List (List Char)) => match entries with
      | entry :: rest => if c = ' ' ∨ c = '\n' then [] :: entry :: rest else (c :: entry) :: rest
      | [] => if c = ' ' ∨ c = '\n' then [] else [[c]])
    []).filter (· ≠ [])

/-- The table of a text. -/
def ofText (read : List Char → α) (text : String) : Table α :=
  ⟨((entries text.toList).foldl (addEntry read) (0, #[])).2⟩

/-! ## Looking up -/

/-- The latest of the runs from `low` up to `high`, which is not included, that
    does not begin after the letter `n`. The fuel bounds the number of halvings. -/
def latest? (runs : Array (Run α)) (n : Nat) : (fuel low high : Nat) → Option (Run α)
  | 0, _, _ => none
  | fuel + 1, low, high =>
    let middle := (low + high) / 2
    match runs[middle]? with
    | none => none
    | some run =>
      if high ≤ low then none
      else if n < run.first then latest? runs n fuel low middle
      else (latest? runs n fuel (middle + 1) high).or (some run)

/-- The value for the letter `n`, and how far it has grown. -/
def Run.find? (run : Run α) (n : Nat) : Option (α × Nat) :=
  let distance := n - run.first
  if distance % run.step = 0 ∧ distance / run.step < run.count then
    some (run.value, if run.grows then distance else 0)
  else none

/-- What a table says about a letter: the value, and how far it has grown. -/
def find? (table : Table α) (c : Char) : Option (α × Nat) :=
  (latest? table.runs c.toNat (table.runs.size + 1) 0 table.runs.size).bind (Run.find? · c.toNat)

/-- The value that a table has for a letter. -/
def value? (table : Table α) (c : Char) : Option α := (table.find? c).map Prod.fst

end Table

end StatusList.Domain
