import LossRelay.Decimal.Notation
import LossRelay.Text.Quoted

/-!
# What is wrong with a document

A document is read from left to right and the first thing wrong with it is reported.  It may end
too early (`unfinished`), break the grammar (`malformed`), or be well formed so far and hold
something else than what is wanted (`mismatch`).
-/

namespace LossRelay.Json

/-- What a document was inside of when it ended. -/
inductive Place where
  | list | object | string | value
  deriving DecidableEq

/-- How a document breaks the grammar. -/
inductive Fault where
  | colonWanted | listEndWanted | objectEndWanted | wordWanted | valueWanted
  | badEscape | badNumber | numberRange | controlCharacter | keyNotString
  | loneSurrogate | trailingComma | trailingText | surrogateCut
  deriving DecidableEq

/-- A value by its kind, as a message names it. -/
inductive Found where
  | null | boolean (b : Bool) | integer (n : Int) | real (x : Float) | string (s : String)
  | list | object

/-- What a well formed part of a document holds instead of what is wanted. -/
inductive Mismatch where
  | wrongType (found : Found) (expected : String)
  | wrongValue (found : Found) (expected : String)
  | wrongLength (length : Nat) (expected : String)
  | unknownVariant (name first second : String)
  | duplicateField (name : String)
  | missingField (name : String)
  | notAnAddress

/-- The first thing wrong with a document. -/
inductive Error where
  | unfinished (inside : Place)
  | malformed (fault : Fault)
  | mismatch (cause : Mismatch)

/-! ### Messages -/

/-- Real numbers in messages: positional while the leading digit stands for a power of ten from
`10 ^ -5` to `10 ^ 15`, and an exponent with its sign otherwise. -/
def realLayout : Decimal.Layout := ⟨-5, 15, ['+']⟩

def ticked (s : String) : String := "`" ++ s ++ "`"

def integerText : Int → String
  | .ofNat n => Numeral.text n
  | .negSucc n => "-" ++ Numeral.text (n + 1)

def Found.phrase : Found → String
  | .null => "null"
  | .boolean b => "boolean " ++ ticked (if b then "true" else "false")
  | .integer n => "integer " ++ ticked (integerText n)
  | .real x => "floating point " ++ ticked (realLayout.write x)
  | .string s => "string " ++ Text.quote s
  | .list => "sequence"
  | .object => "map"

def Mismatch.message : Mismatch → String
  | .wrongType found expected => "invalid type: " ++ found.phrase ++ ", expected " ++ expected
  | .wrongValue found expected => "invalid value: " ++ found.phrase ++ ", expected " ++ expected
  | .wrongLength length expected =>
    "invalid length " ++ Numeral.text length ++ ", expected " ++ expected
  | .unknownVariant name first second =>
    "unknown variant " ++ ticked name ++ ", expected " ++ ticked first ++ " or " ++ ticked second
  | .duplicateField name => "duplicate field " ++ ticked name
  | .missingField name => "missing field " ++ ticked name
  | .notAnAddress => "invalid socket address syntax"

def Fault.message : Fault → String
  | .colonWanted => "expected `:`"
  | .listEndWanted => "expected `,` or `]`"
  | .objectEndWanted => "expected `,` or `\x7d`"
  | .wordWanted => "expected ident"
  | .valueWanted => "expected value"
  | .badEscape => "invalid escape"
  | .badNumber => "invalid number"
  | .numberRange => "number out of range"
  | .controlCharacter => "control character (\\u0000-\\u001F) found while parsing a string"
  | .keyNotString => "key must be a string"
  | .loneSurrogate => "lone leading surrogate in hex escape"
  | .trailingComma => "trailing comma"
  | .trailingText => "trailing characters"
  | .surrogateCut => "unexpected end of hex escape"

def Place.message : Place → String
  | .list => "EOF while parsing a list"
  | .object => "EOF while parsing an object"
  | .string => "EOF while parsing a string"
  | .value => "EOF while parsing a value"

def Error.message : Error → String
  | .unfinished inside => inside.message
  | .malformed fault => fault.message
  | .mismatch cause => cause.message

end LossRelay.Json
