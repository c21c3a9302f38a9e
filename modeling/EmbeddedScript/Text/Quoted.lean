import EmbeddedScript.Text.Unprintable

/-!
# Quoted texts

Diagnostic texts show a string between double quotes. A quote, a backslash and
the four controls with a short name are written with a backslash, any other
unprintable character by its code point, and everything else as itself – the
single quote included, which needs no protection here.
-/

namespace EmbeddedScript.Quoted

/-- A code point in lower-case hexadecimal, without leading zeros. -/
def codePoint (c : Char) : List Char :=
  ['\\', 'u', '{'] ++ Nat.toDigits 16 c.toNat ++ ['}']

/-- One character as it stands between the quotes. -/
def encodeChar (c : Char) : List Char :=
  if c = '\"' then ['\\', '\"']
  else if c = '\\' then ['\\', '\\']
  else if c = '\n' then ['\\', 'n']
  else if c = '\r' then ['\\', 'r']
  else if c = '\t' then ['\\', 't']
  else if c = '\x00' then ['\\', '0']
  else if isUnprintable c then codePoint c
  else [c]

/-- **The quoted form of a text.** -/
def encode (s : String) : String :=
  "\"" ++ String.ofList (s.toList.flatMap encodeChar) ++ "\""

end EmbeddedScript.Quoted
