import LossRelay.Text.Blank
import LossRelay.Text.Unprintable

/-!
# Quoted text

A text between double quotes, in which the quote, the backslash and four control characters have
an escape of one letter, and every other unprintable character is written by its code point.
-/

namespace LossRelay.Text

/-- A character is shown as itself inside quotes. -/
def isPrintable (c : Char) : Bool := !inRanges unprintableRanges c.toNat

/-- A code point in braces, in lowercase hexadecimal digits. -/
def codePoint (n : Nat) : List Char :=
  ['\\', 'u', '\x7b'] ++ Nat.toDigits 16 n ++ ['\x7d']

def quoteChar (c : Char) : List Char :=
  if c = '\x00' then ['\\', '0']
  else if c = '\t' then ['\\', 't']
  else if c = '\r' then ['\\', 'r']
  else if c = '\n' then ['\\', 'n']
  else if c = '\\' then ['\\', '\\']
  else if c = '"' then ['\\', '"']
  else if isPrintable c then [c]
  else codePoint c.toNat

def quote (s : String) : String :=
  String.ofList ('"' :: s.toList.flatMap quoteChar ++ ['"'])

end LossRelay.Text
