import Restock.Json.Value
import Restock.Decimal.Layout

/-! Compact JSON text.

Nothing stands between the tokens. Floats always show a point or an exponent:
they are positional from `1e-5` to below `1e16`. Quotes, backslashes and control
characters below U+0020 are escaped, the common ones by letter; all other
characters stand for themselves. -/
namespace Restock.Json

/-- A float keeps `.0`, is positional from `1e-5` to below `1e16`, and ties
between decimals go to even. -/
def numberLayout : Decimal.Layout := ⟨.toEven, some (-5), some 15, true⟩

def floatText (x : Float) : String := numberLayout.write x

def hexDigit (n : Nat) : Char :=
  if n < 10 then Char.ofNat ('0'.toNat + n) else Char.ofNat ('a'.toNat + (n - 10))

def escapeChar (c : Char) : List Char :=
  match c with
  | '"' => ['\\', '"']
  | '\\' => ['\\', '\\']
  | '\n' => ['\\', 'n']
  | '\r' => ['\\', 'r']
  | '\t' => ['\\', 't']
  | '\x08' => ['\\', 'b']
  | '\x0c' => ['\\', 'f']
  | c =>
    if c.toNat < 0x20 then
      ['\\', 'u', '0', '0', hexDigit (c.toNat / 16), hexDigit (c.toNat % 16)]
    else [c]

def stringText (s : String) : String :=
  "\"" ++ String.ofList (s.toList.flatMap escapeChar) ++ "\""

mutual

def text : Json → String
  | .null => "null"
  | .bool true => "true"
  | .bool false => "false"
  | .int n => toString n
  | .float x => if x.isFinite then floatText x else "null"
  | .string s => stringText s
  | .array items => "[" ++ itemsText items ++ "]"
  | .object members => "\x7b" ++ membersText members ++ "\x7d"

def itemsText : List Json → String
  | [] => ""
  | [v] => v.text
  | v :: w :: rest => v.text ++ "," ++ itemsText (w :: rest)

def membersText : List (String × Json) → String
  | [] => ""
  | [(k, v)] => stringText k ++ ":" ++ v.text
  | (k, v) :: m :: rest => stringText k ++ ":" ++ v.text ++ "," ++ membersText (m :: rest)

end

end Restock.Json
