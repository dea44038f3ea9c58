import LossRelay.Json.Skip

/-!
# Readers of typed values

Readers for words, texts, choices, lists and records.  Where a value of another kind stands, the
value is named in the message; a number or a literal is read to its end for that, so that a broken
one is reported as broken.
-/

namespace LossRelay.Json

/-- What is wrong with a value of the wrong kind that starts with the given text. -/
def wrongKind (expected : String) (s : List Char) : Error :=
  let named (found : Found) : Error := .mismatch (.wrongType found expected)
  let after {α : Type} (r : Except Error α) (found : α → Found) : Error :=
    match r with
    | .ok a => named (found a)
    | .error e => e
  match s with
  | [] => .unfinished .value
  | c :: r =>
    if c = 'n' then after (word ['u', 'l', 'l'] r) fun _ => .null
    else if c = 't' then after (word ['r', 'u', 'e'] r) fun _ => .boolean true
    else if c = 'f' then after (word ['a', 'l', 's', 'e'] r) fun _ => .boolean false
    else if c = '-' ∨ c.isDigit then after (number (c :: r)) fun n => n.1.found
    else if c = '"' then after (string r) fun t => .string t.1
    else if c = '[' then named .list
    else if c = '\x7b' then named .object
    else .malformed .valueWanted

/-- A natural number up to `bound`; `kind` is its name in messages. -/
def natural (kind : String) (bound : Nat) : Reader UInt64 := fun s =>
  match skipBlanks s with
  | [] => unfinished .value
  | c :: r =>
    if c = '-' ∨ c.isDigit then do
      let (n, t) ← number (c :: r)
      match n with
      | .natural n =>
        if n.toNat ≤ bound then .ok (n, t)
        else mismatch (.wrongValue (.integer n.toNat) kind)
      | .negative n => mismatch (.wrongValue (.integer n) kind)
      | .real x => mismatch (.wrongType (.real x) kind)
    else .error (wrongKind kind (c :: r))

def natural64 : Reader UInt64 := natural "u64" greatestWord

/-- A size: a natural number that fits a 64 bit word, with a name of its own in messages. -/
def size : Reader UInt64 := natural "usize" greatestWord

def natural32 : Reader UInt32 := fun s => do
  let (n, r) ← natural "u32" 4294967295 s
  .ok (n.toUInt32, r)

/-- A string; `kind` is the name of what it should hold. -/
def text (kind : String) : Reader String := fun s =>
  match skipBlanks s with
  | [] => unfinished .value
  | '"' :: r => string r
  | c :: r => .error (wrongKind kind (c :: r))

/-! ### Choices -/

/-- One of two named values. -/
structure Choice (α : Type) where
  firstName : String
  first : α
  secondName : String
  second : α

def Choice.pick {α : Type} (choice : Choice α) (name : String) : Except Error α :=
  if name = choice.firstName then .ok choice.first
  else if name = choice.secondName then .ok choice.second
  else mismatch (.unknownVariant name choice.firstName choice.secondName)

/-- Nothing, written `null`. -/
def nothing (s : List Char) : Except Error (List Char) :=
  match skipBlanks s with
  | [] => unfinished .value
  | 'n' :: r => word ['u', 'l', 'l'] r
  | c :: r => .error (wrongKind "unit" (c :: r))

/-- A choice: its name, or an object with its name as the only key and `null` as the value. -/
def Choice.read {α : Type} (choice : Choice α) : Reader α := fun s =>
  match skipBlanks s with
  | [] => unfinished .value
  | '"' :: r => do
    let (name, t) ← string r
    let a ← choice.pick name
    .ok (a, t)
  | '\x7b' :: r => do
    match ← nextKey true r with
    | none => malformed .valueWanted
    | some t =>
      let (name, t) ← string t
      let a ← choice.pick name
      let t ← colon t
      let t ← nothing t
      match skipBlanks t with
      | [] => unfinished .object
      | '\x7d' :: u => .ok (a, u)
      | _ :: _ => malformed .valueWanted
  | _ :: _ => malformed .valueWanted

/-! ### Lists -/

/-- The items up to the closing bracket, at most `fuel` of them. -/
def items {α : Type} (item : Reader α) (fuel : Nat) (first : Bool) (s : List Char) :
    Except Error (List α × List Char) :=
  match fuel with
  | 0 => unfinished .list
  | fuel + 1 => do
    match ← nextItem first s with
    | none => .ok ([], s)
    | some r =>
      let (a, r) ← item r
      let (as, r) ← items item fuel false r
      .ok (a :: as, r)

def list {α : Type} (item : Reader α) : Reader (List α) := fun s =>
  match skipBlanks s with
  | [] => unfinished .value
  | '[' :: r => do
    let (as, r) ← items item (r.length + 1) true r
    let r ← closeList r
    .ok (as, r)
  | c :: r => .error (wrongKind "a sequence" (c :: r))

/-! ### Records -/

/-- A field of a record: its name, and the reader of its value, which stores it. -/
structure Field (α : Type) where
  name : String
  read : α → Reader α

/-- A record: its fields in order of declaration, the values they have before reading, and whether
every field has to be given. -/
structure Record (α : Type) where
  title : String
  fields : List (Field α)
  start : α
  complete : Bool

namespace Record

variable {α : Type}

/-- The name of the record in messages. -/
def kind (rec : Record α) : String := "struct " ++ rec.title

/-- The name of the record with its number of fields. -/
def kindWithSize (rec : Record α) : String :=
  rec.kind ++ " with " ++ Numeral.text rec.fields.length ++ " elements"

/-- The values of the fields in order, from the given field on. -/
def readItems (rec : Record α) (fields : List (Field α)) (count : Nat) (a : α) : Reader α :=
  match fields with
  | [] => fun s => .ok (a, s)
  | f :: fs => fun s => do
    match ← nextItem (count == 0) s with
    | none =>
      if rec.complete then mismatch (.wrongLength count rec.kindWithSize) else .ok (a, s)
    | some r =>
      let (a, r) ← f.read a r
      rec.readItems fs (count + 1) a r

/-- The members up to the closing brace, at most `fuel` of them, with the names of the fields that
have been given. -/
def readMembers (rec : Record α) (fuel : Nat) (seen : List String) (first : Bool) (a : α) :
    Reader (α × List String) := fun s =>
  match fuel with
  | 0 => unfinished .object
  | fuel + 1 => do
    match ← nextKey first s with
    | none => .ok ((a, seen), s)
    | some r =>
      let (key, r) ← string r
      match rec.fields.find? fun f => f.name == key with
      | some f =>
        if seen.contains key then mismatch (.duplicateField key)
        else
          let r ← colon r
          let (a, r) ← f.read a r
          rec.readMembers fuel (key :: seen) false a r
      | none =>
        let r ← colon r
        let r ← skip r
        rec.readMembers fuel seen false a r

/-- The first field, in order of declaration, that has not been given. -/
def firstMissing (rec : Record α) (seen : List String) : Option String :=
  (rec.fields.map Field.name).find? fun name => !seen.contains name

/-- A record: an object of its fields in any order, or a list of their values in order. -/
def read (rec : Record α) : Reader α := fun s =>
  match skipBlanks s with
  | [] => unfinished .value
  | '[' :: r => do
    let (a, r) ← rec.readItems rec.fields 0 rec.start r
    let r ← closeList r
    .ok (a, r)
  | '\x7b' :: r => do
    let ((a, seen), r) ← rec.readMembers (r.length + 1) [] true rec.start r
    match rec.firstMissing seen with
    | some name => if rec.complete then mismatch (.missingField name) else do
        let r ← closeObject r
        .ok (a, r)
    | none =>
      let r ← closeObject r
      .ok (a, r)
  | c :: r => .error (wrongKind rec.kind (c :: r))

end Record

end LossRelay.Json
