import Restock.Proofs.Json.RoundTrip

/-! Strings as text.

Every character of a string is read back from the way in which it is escaped
(`scanString_escapeChar`), so the text of a string is one token, and what is written of a
string is read as that string (`legible_string`). -/
namespace Restock.Json

theorem hexValue?_hexDigit : ∀ d < 16, hexValue? (hexDigit d) = some d := by decide

theorem hexCode?_hexDigit {n : Nat} (h : n < 256) :
    hexCode? '0' '0' (hexDigit (n / 16)) (hexDigit (n % 16)) = some n := by
  have zero : hexValue? '0' = some 0 := hexValue?_hexDigit 0 (by decide)
  have high := hexValue?_hexDigit (n / 16) (by omega)
  have low := hexValue?_hexDigit (n % 16) (by omega)
  simp only [hexCode?, zero, high, low, Option.bind_eq_bind, Option.bind_some, Option.pure_def]
  congr 1
  omega

/-- A character that is written into a string is the next one that is read. -/
theorem scanString_escapeChar (c : Char) (read rest : List Char) :
    scanString (.ok read) none (escapeChar c ++ rest) = scanString (.ok (c :: read)) none rest := by
  unfold escapeChar
  split
  case h_8 =>
    split
    case isTrue control =>
      have code : hexCode? '0' '0' (hexDigit (c.toNat / 16)) (hexDigit (c.toNat % 16)) =
          some c.toNat := hexCode?_hexDigit (by omega)
      have low : isLowSurrogate c.toNat = false := by simp [isLowSurrogate]; omega
      have high : isHighSurrogate c.toNat = false := by simp [isHighSurrogate]; omega
      simp only [List.cons_append, List.nil_append, scanString, code, Draft.pushCode, low, high]
      simp [Draft.settle, Draft.push, Except.map, Char.ofNat_toNat]
    case isFalse plain =>
      -- Neither a quote nor a backslash, for those have a case of their own.
      rw [List.singleton_append, scanString]
      · simp [plain, Draft.settle, Draft.push, Except.map]
      all_goals simp_all
  all_goals simp [scanString, simpleEscape?, Draft.settle, Draft.push, Except.map]

theorem scanString_flatMap (s read rest : List Char) :
    scanString (.ok read) none (s.flatMap escapeChar ++ '"' :: rest) =
      (.string (.ok (String.ofList (read.reverse ++ s))), rest) := by
  induction s generalizing read with
  | nil => simp [scanString, Draft.settle, Except.map]
  | cons c s ih =>
    rw [List.flatMap_cons, List.append_assoc, scanString_escapeChar, ih]
    simp

theorem scan_stringText (s : String) : Token.scan (stringText s).toList = [.string (.ok s)] := by
  have read := scanString_flatMap s.toList [] []
  rw [List.reverse_nil, List.nil_append, String.ofList_toList] at read
  rw [toList_stringText, stringChars, Token.scan]
  simp [isSpace, scanToken, read, Token.isBroken, Token.scan]

/-- What is written of a string is read as that string. -/
theorem legible_string (s : String) : (Json.string s).Legible := by
  rw [Legible, text, Document.ofText, scan_stringText]
  rfl

theorem decodeText_string (s : String) : decodeText decodeString (Json.string s).text = .ok s :=
  decodeText_text (legible_string s) decodeString

end Restock.Json
