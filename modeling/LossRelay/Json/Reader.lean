import LossRelay.Json.Error

/-!
# Readers

A reader takes a value off the front of a text and returns what is left, or the first thing wrong.
Here are the blanks of the format, the fixed words, and the punctuation of lists and objects.
-/

namespace LossRelay.Json

/-- A reader of values: the value and the rest of the text, or the first thing wrong. -/
abbrev Reader (α : Type) := List Char → Except Error (α × List Char)

/-- The four characters that may stand between tokens. -/
def isBlank (c : Char) : Bool := c == ' ' || c == '\n' || c == '\t' || c == '\r'

/-- The text from its next token on. -/
def skipBlanks (s : List Char) : List Char := s.dropWhile isBlank

def unfinished {α : Type} (inside : Place) : Except Error α := .error (.unfinished inside)

def malformed {α : Type} (fault : Fault) : Except Error α := .error (.malformed fault)

def mismatch {α : Type} (cause : Mismatch) : Except Error α := .error (.mismatch cause)

def word : List Char → List Char → Except Error (List Char)
  | [], s => .ok s
  | _ :: _, [] => unfinished .value
  | w :: ws, c :: s => if c = w then word ws s else malformed .wordWanted

/-! ### Punctuation -/

def colon (s : List Char) : Except Error (List Char) :=
  match skipBlanks s with
  | ':' :: r => .ok r
  | [] => unfinished .object
  | _ :: _ => malformed .colonWanted

/-- Where the next item of a list starts, or `none` in front of the closing bracket.  The comma in
front of an item is taken unless the item is the first. -/
def nextItem (first : Bool) (s : List Char) : Except Error (Option (List Char)) :=
  match skipBlanks s with
  | [] => unfinished .list
  | ']' :: _ => .ok none
  | c :: r =>
    if first then .ok (some (c :: r))
    else if c = ',' then
      match skipBlanks r with
      | [] => unfinished .value
      | ']' :: _ => malformed .trailingComma
      | d :: t => .ok (some (d :: t))
    else malformed .listEndWanted

/-- The closing bracket of a list whose items have all been read. -/
def closeList (s : List Char) : Except Error (List Char) :=
  match skipBlanks s with
  | [] => unfinished .list
  | ']' :: r => .ok r
  | ',' :: r =>
    match skipBlanks r with
    | ']' :: _ => malformed .trailingComma
    | _ => malformed .trailingText
  | _ :: _ => malformed .trailingText

/-- The text after the opening quote of the next key of an object, or `none` in front of the
closing brace.  The comma in front of a key is taken unless the key is the first. -/
def nextKey (first : Bool) (s : List Char) : Except Error (Option (List Char)) :=
  match skipBlanks s with
  | [] => unfinished .object
  | '\x7d' :: _ => .ok none
  | c :: r =>
    if first then
      if c = '"' then .ok (some r) else malformed .keyNotString
    else if c = ',' then
      match skipBlanks r with
      | [] => unfinished .value
      | '"' :: t => .ok (some t)
      | '\x7d' :: _ => malformed .trailingComma
      | _ :: _ => malformed .keyNotString
    else malformed .objectEndWanted

/-- The closing brace of an object whose members have all been read. -/
def closeObject (s : List Char) : Except Error (List Char) :=
  match skipBlanks s with
  | [] => unfinished .object
  | '\x7d' :: r => .ok r
  | ',' :: _ => malformed .trailingComma
  | _ :: _ => malformed .trailingText

/-- The value of a whole document: nothing but blanks may follow it. -/
def document {α : Type} (read : Reader α) (text : String) : Except Error α := do
  let (a, r) ← read text.toList
  match skipBlanks r with
  | [] => .ok a
  | _ :: _ => malformed .trailingText

end LossRelay.Json
