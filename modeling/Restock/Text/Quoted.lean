import Restock.Text.Unprintable

/-! Quoted text.

A quoted text stands between double quotes. A quote and a backslash are escaped
by a backslash, a tab, a line feed, a carriage return and a null by their
letters, and every other control or unprintable character by its code in
hexadecimal; a single quote and printable characters beyond ASCII stand for
themselves. `quotedList` writes a list of quoted texts between brackets. -/
namespace Restock.Text

/-- A number in hexadecimal, in lower case and without leading zeros. -/
def hex (n : Nat) : String :=
  String.ofList (Nat.toDigits 16 n)

/-- Characters that a quoted text gives by their code. -/
def isControl (c : Char) : Bool :=
  c.toNat < 0x20 || c.toNat == 0x7F || isUnprintable c

def quoteChar (c : Char) : String :=
  match c with
  | '"' => "\\\""
  | '\\' => "\\\\"
  | '\t' => "\\t"
  | '\n' => "\\n"
  | '\r' => "\\r"
  | '\x00' => "\\0"
  | c => if isControl c then "\\u\x7b" ++ hex c.toNat ++ "\x7d" else c.toString

def quoted (s : String) : String :=
  "\"" ++ String.join (s.toList.map quoteChar) ++ "\""

def quotedList (texts : List String) : String :=
  "[" ++ String.intercalate ", " (texts.map quoted) ++ "]"

end Restock.Text
