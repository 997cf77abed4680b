import Regroup.Text.Invisible

/-!
# Quoted text

Text between double quotes, with the characters that would not be readable there escaped.

## Main definitions

* `Regroup.Text.hexDigits` — a number in lower-case hexadecimal, without leading zeros.
* `Regroup.Text.escape` — how one character is written between the quotes.
* `Regroup.Text.quoted` — a whole text, quotes included.
-/

namespace Regroup.Text

/-- A number in lower-case hexadecimal, without leading zeros. -/
def hexDigits (n : Nat) : String := String.ofList (Nat.toDigits 16 n)

/-- How a character is written between double quotes: the quote and the backslash behind a
backslash, the common control characters by a letter, every other invisible one by its number. -/
def escape (c : Char) : String :=
  if c = '"' then "\\\""
  else if c = '\\' then "\\\\"
  else if c = '\n' then "\\n"
  else if c = '\r' then "\\r"
  else if c = '\t' then "\\t"
  else if c = '\x00' then "\\0"
  else if isInvisible c then "\\u\x7b" ++ hexDigits c.toNat ++ "\x7d"
  else String.singleton c

/-- The text between double quotes, escaped. -/
def quoted (s : String) : String := "\"" ++ String.join (s.toList.map escape) ++ "\""

example : quoted "a\"b\n\x07" = "\"a\\\"b\\n\\u\x7b7\x7d\"" := by decide +kernel

end Regroup.Text
