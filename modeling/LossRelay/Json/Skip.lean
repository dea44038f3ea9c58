import LossRelay.Json.Number
import LossRelay.Json.Text

/-!
# Values that are passed over

The value of an unknown key is checked against the grammar and thrown away.  Values may be nested
to any depth: the lists and objects that are open are kept on a stack, innermost first.  Each step
takes at least one character, so the length of the text bounds the number of steps.
-/

namespace LossRelay.Json

inductive Bracket where
  | list | object
  deriving DecidableEq

/-- The text after a value without parts, given its first character and what follows. -/
def skipPlain (c : Char) (r : List Char) : Except Error (List Char) :=
  if c = 'n' then word ['u', 'l', 'l'] r
  else if c = 't' then word ['r', 'u', 'e'] r
  else if c = 'f' then word ['a', 'l', 's', 'e'] r
  else if c = '-' then skipNumber r
  else if c.isDigit then skipNumber (c :: r)
  else if c = '"' then skipString r
  else malformed .valueWanted

/-- The text after the key of a member and its colon; the key may stand behind blanks. -/
def skipKey (s : List Char) : Except Error (List Char) :=
  match skipBlanks s with
  | [] => unfinished .object
  | '"' :: r => do
    let t ← skipString r
    colon t
  | _ :: _ => malformed .keyNotString

/-- What follows a value: the brackets that still are open and the text in front of the next value,
or the text after the outermost value, which no bracket encloses. -/
def afterValue : List Bracket → List Char → Except Error (List Bracket × List Char)
  | [], s => .ok ([], s)
  | .list :: stack, s =>
    match skipBlanks s with
    | [] => unfinished .list
    | ',' :: r => .ok (.list :: stack, r)
    | ']' :: r => afterValue stack r
    | _ :: _ => malformed .listEndWanted
  | .object :: stack, s =>
    match skipBlanks s with
    | [] => unfinished .object
    | ',' :: r => do
      let t ← skipKey r
      .ok (.object :: stack, t)
    | '\x7d' :: r => afterValue stack r
    | _ :: _ => malformed .objectEndWanted

/-- One value, up to the next place where a value stands or to the end of the outermost value. -/
def skipStep (stack : List Bracket) (s : List Char) :
    Except Error (List Bracket × List Char × Bool) :=
  let leave (stack : List Bracket) (r : List Char) :
      Except Error (List Bracket × List Char × Bool) := do
    let (stack, r) ← afterValue stack r
    .ok (stack, r, stack.isEmpty)
  match skipBlanks s with
  | [] => unfinished .value
  | '[' :: r =>
    match skipBlanks r with
    | [] => unfinished .list
    | ']' :: t => leave stack t
    | _ :: _ => .ok (.list :: stack, r, false)
  | '\x7b' :: r =>
    match skipBlanks r with
    | [] => unfinished .object
    | '\x7d' :: t => leave stack t
    | _ :: _ => do
      let t ← skipKey r
      .ok (.object :: stack, t, false)
  | c :: r => do
    let t ← skipPlain c r
    leave stack t

/-- The text after a value inside the given brackets, and after all of them. -/
def skipAll (fuel : Nat) (stack : List Bracket) (s : List Char) : Except Error (List Char) :=
  match fuel with
  | 0 => unfinished .value
  | fuel + 1 => do
    let (stack, r, done) ← skipStep stack s
    if done then .ok r else skipAll fuel stack r

def skip (s : List Char) : Except Error (List Char) := skipAll (s.length + 1) [] s

end LossRelay.Json
