/-! # White space and quotes

The characters with the Unicode property White_Space, and texts stripped of them at their ends.
Messages show texts in double quotes: a quote, a backslash and the characters that cannot be shown
are written as escapes, the latter by their code point in braces where they have no short form.
-/

namespace Clickstream.Text

/-! ## White space -/

/-- The characters of the property White_Space. -/
def isBlank (c : Char) : Bool :=
  let n := c.toNat
  (9 ≤ n ∧ n ≤ 13) ∨ n = 0x20 ∨ n = 0x85 ∨ n = 0xA0 ∨ n = 0x1680 ∨ (0x2000 ≤ n ∧ n ≤ 0x200A)
    ∨ n = 0x2028 ∨ n = 0x2029 ∨ n = 0x202F ∨ n = 0x205F ∨ n = 0x3000

/-- Characters without the white space before and after them. -/
def trimmed (cs : List Char) : List Char :=
  ((cs.dropWhile isBlank).reverse.dropWhile isBlank).reverse

/-! ## Quoted texts -/

/-- A code point in braces. -/
def codeEscape (c : Char) : List Char :=
  '\\' :: 'u' :: '\x7b' :: Nat.toDigits 16 c.toNat ++ ['\x7d']

/-- Characters that are shown by their code point: controls, format characters, spaces other than
the plain one, those left to private use, and marks that would join the character before them. -/
def isHidden (c : Char) : Bool :=
  let n := c.toNat
  n < 0x20 ∨ (0x7F ≤ n ∧ n ≤ 0xA0) ∨ n = 0xAD ∨ (0x300 ≤ n ∧ n ≤ 0x36F) ∨ n = 0x1680
    ∨ (0x2000 ≤ n ∧ n ≤ 0x200F) ∨ (0x2028 ≤ n ∧ n ≤ 0x202F) ∨ (0x205F ≤ n ∧ n ≤ 0x206F)
    ∨ (0x20D0 ≤ n ∧ n ≤ 0x20F0) ∨ n = 0x3000 ∨ (0xE000 ≤ n ∧ n ≤ 0xF8FF)
    ∨ (0xFE00 ≤ n ∧ n ≤ 0xFE0F) ∨ n = 0xFEFF ∨ (0xFFF0 ≤ n ∧ n ≤ 0xFFFB) ∨ 0xFFFE ≤ n ∧ n ≤ 0xFFFF
    ∨ 0xE0000 ≤ n

def shown (c : Char) : List Char :=
  match c with
  | '"' => ['\\', '"']
  | '\\' => ['\\', '\\']
  | '\n' => ['\\', 'n']
  | '\r' => ['\\', 'r']
  | '\t' => ['\\', 't']
  | '\x00' => ['\\', '0']
  | c => if isHidden c then codeEscape c else [c]

def quoted (s : String) : String := String.ofList ('"' :: s.toList.flatMap shown ++ ['"'])

def quotedList (texts : List String) : String := "[" ++ ", ".intercalate (texts.map quoted) ++ "]"

end Clickstream.Text
