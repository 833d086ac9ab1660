import Clickstream.Decimal.Numeral

/-! # Log filters

Which lines of the log are wanted, as a configuration says it: directives with commas between them.
A directive is a level, or a target with an optional span in brackets and an optional level behind
an equals sign; fields of the span stand in braces.
-/

namespace Clickstream.Cli.LogFilter

/-- Whether a text names a level, by a word in any case or by a number up to five. -/
def isLevel (cs : List Char) : Bool :=
  ["error", "warn", "info", "debug", "trace", "off"].contains
    (String.ofList (cs.map Char.toLower)) || (Decimal.count? cs).any (· ≤ 5)

/-- Whether a target can start with a character. -/
def startsTarget (c : Char) : Bool :=
  c.isAlphanum || c.toNat ≥ 0x80 || c = '-' || c = ':' || c = '_'

/-- What may follow a span: nothing, or a level that may be left open. -/
def isTail : List Char → Bool
  | [] => true
  | '=' :: level => level.isEmpty || isLevel level
  | _ => false

/-- The inside of a span and what follows it. -/
def isSpan (cs : List Char) : Bool :=
  match cs.dropWhile fun c => c ≠ ']' ∧ c ≠ '\x7b' with
  | ']' :: rest => isTail rest
  | '\x7b' :: rest =>
    match rest.takeWhile (· ≠ '\x7d'), rest.dropWhile (· ≠ '\x7d') with
    | _ :: _, '\x7d' :: ']' :: rest => isTail rest
    | _, _ => false
  | _ => false

/-- Whether a text is a directive. -/
def isDirective : List Char → Bool
  | '[' :: rest => isSpan rest
  | c :: rest =>
    startsTarget c &&
      match rest.dropWhile fun c => c ≠ '=' ∧ c ≠ '[' with
      | [] => true
      | '[' :: rest => isSpan rest
      | rest => isTail rest
  | [] => false

/-- Whether a text is a filter. -/
def isValid (filter : String) : Bool :=
  (filter.splitOn ",").all fun directive => directive.isEmpty || isDirective directive.toList

end Clickstream.Cli.LogFilter
