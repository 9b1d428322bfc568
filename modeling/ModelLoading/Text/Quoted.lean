import ModelLoading.Text.Printable

/-!
# Quoted texts

A quoted text stands between double quotes. The quote, the backslash and five control characters
have a short escape; every other character that is not printable is written by its code point in
hexadecimal digits. A single quote stands for itself.
-/

namespace ModelLoading.Text

/-- A character inside a quoted text. -/
def quoteChar (c : Char) : List Char :=
  match c with
  | '\x00' => ['\\', '0']
  | '\t' => ['\\', 't']
  | '\n' => ['\\', 'n']
  | '\r' => ['\\', 'r']
  | '"' => ['\\', '"']
  | '\\' => ['\\', '\\']
  | c =>
    if isPrintable c then [c]
    else "\\u\x7b".toList ++ Nat.toDigits 16 c.toNat ++ ['\x7d']

/-- A text in double quotes. -/
def quoted (s : String) : String :=
  String.ofList ('"' :: s.toList.flatMap quoteChar ++ ['"'])

/-- A list of quoted texts in brackets. -/
def quotedList (l : List String) : String :=
  "[" ++ ", ".intercalate (l.map quoted) ++ "]"

end ModelLoading.Text
