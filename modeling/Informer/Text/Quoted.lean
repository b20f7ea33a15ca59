import Informer.Text.Printable

/-!
# Quoted text

The written form of a string inside a message: double quotes around it, a backslash before a quote
or a backslash, short forms for NUL, tab, line feed and carriage return, and the code point in
hexadecimal for every other character that is not printable. An apostrophe is left alone.
-/

namespace Informer.Text

/-- The written form of one character. -/
def escape (c : Char) : String :=
  if c = '"' then "\\\""
  else if c = '\\' then "\\\\"
  else if c = '\n' then "\\n"
  else if c = '\r' then "\\r"
  else if c = '\t' then "\\t"
  else if c.toNat = 0 then "\\0"
  else if isPrintable c then String.singleton c
  else "\\u\x7b" ++ String.ofList (Nat.toDigits 16 c.toNat) ++ "\x7d"

/-- The written form of a string. -/
def quote (s : String) : String :=
  "\"" ++ String.join (s.toList.map escape) ++ "\""

/-- The written form of a list of strings. -/
def quoteList (items : List String) : String :=
  "[" ++ ", ".intercalate (items.map quote) ++ "]"

end Informer.Text
