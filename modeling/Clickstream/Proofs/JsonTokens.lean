import Clickstream.Json.Reader
import Clickstream.Json.Writer

/-! # The tokens of texts that are written

A quoted text is one token, and so is a number that is read back from its text. Either is found where
it stands in a longer text as it is found by itself: a quote ends a text, and a number ends where
nothing follows that it could go on with.
-/

namespace Clickstream.Json

/-! ## Quoted texts -/

theorem unit?_control : ∀ n < 0x20,
    unit? '0' '0' (Nat.digitChar (n / 16)) (Nat.digitChar (n % 16)) = some n := by
  decide

theorem units?_escaped {c : Char} {rest : List Char} :
    units? (escaped c ++ rest) =
      (units? rest).map fun (units, rest) => (.char c :: units, rest) := by
  unfold escaped
  split
  iterate 7 cases h : units? rest <;> simp [units?, h]
  next notQuote notSlash _ _ _ _ _ =>
    split
    · next control =>
      have small : ¬ 0xD800 ≤ c.toNat ∧ ¬ 0xDC00 ≤ c.toNat := by omega
      cases h : units? rest <;>
        simp [units?, unit?_control _ control, TextUnit.ofNat, small, h, Char.ofNat_toNat]
    · next shown =>
      have one : units? (c :: rest) =
          (units? rest).map fun (units, rest) => (.char c :: units, rest) := by
        rw [units?.eq_def]
        cases h : units? rest <;> simp_all
      exact one

theorem units?_quoted {cs rest : List Char} :
    units? (cs.flatMap escaped ++ '"' :: rest) = some (cs.map TextUnit.char, rest) := by
  induction cs with
  | nil => rfl
  | cons c cs ih => rw [List.flatMap_cons, List.append_assoc, units?_escaped, ih]; rfl

theorem joined?_map_char {cs : List Char} : joined? (cs.map TextUnit.char) = some cs := by
  induction cs with
  | nil => rfl
  | cons c cs ih => rw [List.map_cons, joined?, ih]; rfl

theorem token?_quoted {s : String} {rest : List Char} :
    token? ((quoted s).toList ++ rest) = some (.text (some s), rest) := by
  have chars : (quoted s).toList ++ rest = '"' :: (s.toList.flatMap escaped ++ '"' :: rest) := by
    simp [quoted]
  rw [chars]
  simp [token?, units?_quoted, joined?_map_char]

/-! ## Where a number ends -/

/-- What follows a number and is no part of it. -/
def Ends (cs : List Char) : Prop :=
  ∀ c ∈ cs.head?, c.isDigit = false ∧ c ≠ '.' ∧ c ≠ 'e' ∧ c ≠ 'E'

section

variable {cs rest more : List Char} {d plain : Document} {e : Int} {c : Char} {minus : Bool}
  {m : Mantissa}

theorem Ends.takeWhile_append (ends : Ends more) :
    (cs ++ more).takeWhile Char.isDigit = cs.takeWhile Char.isDigit := by
  induction cs with
  | nil =>
    cases more with
    | nil => rfl
    | cons c more => simp [(ends c rfl).1]
  | cons c cs ih => rw [List.cons_append, List.takeWhile_cons, List.takeWhile_cons, ih]

theorem Ends.dropWhile_append (ends : Ends more) :
    (cs ++ more).dropWhile Char.isDigit = cs.dropWhile Char.isDigit ++ more := by
  induction cs with
  | nil =>
    cases more with
    | nil => rfl
    | cons c more => simp [(ends c rfl).1]
  | cons c cs ih =>
    rw [List.cons_append, List.dropWhile_cons, List.dropWhile_cons, ih]
    split <;> rfl

/-- The digits of an exponent after its sign. -/
def exponentDigits? (minus : Bool) (cs : List Char) : Option (Int × List Char) :=
  let ds := cs.takeWhile Char.isDigit
  if ds.isEmpty then none
  else
    let n := ds.foldl (fun n c => 10 * n + (c.toNat - '0'.toNat)) 0
    some (if minus then -(n : Int) else n, cs.dropWhile Char.isDigit)

theorem exponentDigits?_append (ends : Ends more)
    (h : exponentDigits? minus cs = some (e, rest)) :
    exponentDigits? minus (cs ++ more) = some (e, rest ++ more) := by
  simp only [exponentDigits?, ends.takeWhile_append, ends.dropWhile_append] at h ⊢
  split at h
  · cases h
  · next digits =>
    rw [if_neg digits]
    cases h
    rfl

theorem exponent?_minus : exponent? ('-' :: cs) = exponentDigits? true cs := rfl

theorem exponent?_plus : exponent? ('+' :: cs) = exponentDigits? false cs := rfl

theorem exponent?_other (notMinus : c ≠ '-') (notPlus : c ≠ '+') :
    exponent? (c :: cs) = exponentDigits? false (c :: cs) := by
  rw [exponent?.eq_def]
  split
  next minus cs' signed =>
    split at signed
    · next same => cases same; exact absurd rfl notMinus
    · next same => cases same; exact absurd rfl notPlus
    · cases signed; rfl

theorem exponent?_append (ends : Ends more) (h : exponent? cs = some (e, rest)) :
    exponent? (cs ++ more) = some (e, rest ++ more) := by
  cases cs with
  | nil => cases h
  | cons c cs =>
    rw [List.cons_append]
    by_cases isMinus : c = '-'
    · subst isMinus
      rw [exponent?_minus] at h ⊢
      exact exponentDigits?_append ends h
    · by_cases isPlus : c = '+'
      · subst isPlus
        rw [exponent?_plus] at h ⊢
        exact exponentDigits?_append ends h
      · rw [exponent?_other isMinus isPlus] at h ⊢
        exact exponentDigits?_append ends h

/-- A mantissa with the exponent that follows it, if one does. -/
def scaled? (minus : Bool) (m : Mantissa) (cs : List Char) (plain : Document) :
    Option (Document × List Char) :=
  match cs with
  | 'e' :: rest => (exponent? rest).map fun (e, rest) => (m.double minus e, rest)
  | 'E' :: rest => (exponent? rest).map fun (e, rest) => (m.double minus e, rest)
  | cs => some (plain, cs)

theorem scaled?_append (ends : Ends more) (h : scaled? minus m cs plain = some (d, rest)) :
    scaled? minus m (cs ++ more) plain = some (d, rest ++ more) := by
  unfold scaled? at h
  split at h
  · obtain ⟨⟨e, rest⟩, isExponent, same⟩ := Option.map_eq_some_iff.1 h
    cases same
    rw [List.cons_append, scaled?, exponent?_append ends isExponent]
    rfl
  · obtain ⟨⟨e, rest⟩, isExponent, same⟩ := Option.map_eq_some_iff.1 h
    cases same
    rw [List.cons_append, scaled?, exponent?_append ends isExponent]
    rfl
  · next small great =>
    cases h
    unfold scaled?
    split
    · next same =>
      cases cs with
      | nil => exact absurd rfl (ends 'e' (by rw [← List.nil_append more, same]; rfl)).2.2.1
      | cons c cs => cases same; exact absurd rfl (small cs)
    · next same =>
      cases cs with
      | nil => exact absurd rfl (ends 'E' (by rw [← List.nil_append more, same]; rfl)).2.2.2
      | cons c cs => cases same; exact absurd rfl (great cs)
    · rfl

/-- A mantissa with the fraction and the exponent that follow it. -/
def fraction? (minus : Bool) (m : Mantissa) (cs : List Char) : Option (Document × List Char) :=
  match cs with
  | '.' :: rest =>
    let fs := rest.takeWhile Char.isDigit
    if fs.isEmpty then none
    else
      let m := fs.foldl Mantissa.fraction { m with full := false }
      scaled? minus m (rest.dropWhile Char.isDigit) (m.double minus 0)
  | rest => scaled? minus m rest (m.integer minus)

theorem fraction?_append (ends : Ends more) (h : fraction? minus m cs = some (d, rest)) :
    fraction? minus m (cs ++ more) = some (d, rest ++ more) := by
  unfold fraction? at h
  split at h
  · simp only [List.cons_append, fraction?, ends.takeWhile_append, ends.dropWhile_append] at h ⊢
    split at h
    · cases h
    · next digits =>
      rw [if_neg digits]
      exact scaled?_append ends h
  · next point =>
    unfold fraction?
    split
    · next same =>
      cases cs with
      | nil => exact absurd rfl (ends '.' (by rw [← List.nil_append more, same]; rfl)).2.1
      | cons c cs => cases same; exact absurd rfl (point cs)
    · exact scaled?_append ends h

/-- The digits of a whole part: a zero stands alone. -/
def wholeDigits (cs : List Char) : List Char :=
  match cs with
  | '0' :: _ => ['0']
  | cs => cs.takeWhile Char.isDigit

theorem wholeDigits_append (ends : Ends more) : wholeDigits (cs ++ more) = wholeDigits cs := by
  cases cs with
  | nil =>
    unfold wholeDigits
    split
    · next same =>
      have zero := (ends '0' (by rw [← List.nil_append more, same]; rfl)).1
      cases zero
    · exact ends.takeWhile_append
  | cons c cs =>
    by_cases zero : c = '0'
    · subst zero
      rfl
    · have plain (cs : List Char) : wholeDigits (c :: cs) = (c :: cs).takeWhile Char.isDigit := by
        unfold wholeDigits
        split
        · next same => cases same; exact absurd rfl zero
        · rfl
      rw [List.cons_append, plain, plain, ← List.cons_append, ends.takeWhile_append]

theorem length_wholeDigits_le : (wholeDigits cs).length ≤ cs.length := by
  unfold wholeDigits
  split
  · simp
  · exact (List.takeWhile_sublist _).length_le

/-- A number after its sign. -/
def unsigned? (minus : Bool) (cs : List Char) : Option (Document × List Char) :=
  let ds := wholeDigits cs
  if ds.isEmpty then none
  else fraction? minus (ds.foldl Mantissa.whole ⟨0, 0, false⟩) (cs.drop ds.length)

theorem unsigned?_append (ends : Ends more) (h : unsigned? minus cs = some (d, rest)) :
    unsigned? minus (cs ++ more) = some (d, rest ++ more) := by
  simp only [unsigned?, wholeDigits_append ends, List.drop_append_of_le_length length_wholeDigits_le]
    at h ⊢
  split at h
  · cases h
  · next digits =>
    rw [if_neg digits]
    exact fraction?_append ends h

theorem numeral?_minus : numeral? ('-' :: cs) = unsigned? true cs := rfl

theorem numeral?_other (notMinus : c ≠ '-') : numeral? (c :: cs) = unsigned? false (c :: cs) := by
  rw [numeral?.eq_def]
  split
  next minus cs' signed =>
    split at signed
    · next same => cases same; exact absurd rfl notMinus
    · cases signed; rfl

theorem numeral?_append (ends : Ends more) (h : numeral? cs = some (d, rest)) :
    numeral? (cs ++ more) = some (d, rest ++ more) := by
  cases cs with
  | nil => cases h
  | cons c cs =>
    rw [List.cons_append]
    by_cases isMinus : c = '-'
    · subst isMinus
      rw [numeral?_minus] at h ⊢
      exact unsigned?_append ends h
    · rw [numeral?_other isMinus] at h ⊢
      exact unsigned?_append ends h

end

/-! ## Tokens in place -/

section

variable {cs cs' rest more : List Char} {d : Document} {c : Char} {token : Token}
  {found found' : List Token} {rounds rounds' : Nat}

/-- More rounds than enough change nothing. -/
theorem tokens?_mono (h : tokens? rounds cs = some found) (enough : rounds ≤ rounds') :
    tokens? rounds' cs = some found := by
  induction rounds generalizing rounds' cs found with
  | zero =>
    cases cs with
    | nil => cases rounds' <;> exact h
    | cons c cs => cases h
  | succ rounds ih =>
    obtain ⟨rounds', rfl⟩ : ∃ n, rounds' = n + 1 := ⟨rounds' - 1, by omega⟩
    have enough : rounds ≤ rounds' := by omega
    cases cs with
    | nil => exact h
    | cons c cs =>
      rw [tokens?] at h ⊢
      split at h
      · next space =>
        rw [if_pos space]
        exact ih h enough
      · next shown =>
        rw [if_neg shown]
        obtain ⟨⟨token, rest⟩, isToken, h⟩ := Option.bind_eq_some_iff.1 h
        obtain ⟨later, isLater, h⟩ := Option.bind_eq_some_iff.1 h
        rw [isToken]
        simp only [Option.bind_eq_bind, Option.bind_some, ih isLater enough]
        exact h

theorem tokens?_cons (shown : isSpace c = false) (isToken : token? (c :: cs) = some (token, rest))
    (h : tokens? rounds rest = some found) :
    tokens? (rounds + 1) (c :: cs) = some (token :: found) := by
  simp only [tokens?, shown, isToken]
  simp [h]

/-- A text in which no tokens are found is blank. -/
theorem tokens?_blank (blank : tokens? rounds cs = some [])
    (h : tokens? rounds' more = some found) :
    tokens? (rounds' + rounds) (cs ++ more) = some found := by
  induction rounds generalizing cs with
  | zero =>
    cases cs with
    | nil => exact h
    | cons c cs => cases blank
  | succ rounds ih =>
    cases cs with
    | nil => exact tokens?_mono h (by omega)
    | cons c cs =>
      rw [tokens?] at blank
      split at blank
      · next space =>
        rw [List.cons_append, ← Nat.add_assoc, tokens?, if_pos space]
        exact ih blank
      · obtain ⟨⟨token, rest⟩, -, blank⟩ := Option.bind_eq_some_iff.1 blank
        obtain ⟨later, -, blank⟩ := Option.bind_eq_some_iff.1 blank
        cases blank

/-- A text has these tokens wherever it stands, each found within as many rounds as it has
characters. -/
def Spells (cs : List Char) (found : List Token) : Prop :=
  ∀ rounds rest more, Ends rest → tokens? rounds rest = some more →
    tokens? (rounds + cs.length) (cs ++ rest) = some (found ++ more)

namespace Spells

theorem nil : Spells [] [] := fun _ _ _ _ h => h

theorem append (h : Spells cs found) (h' : Spells cs' found')
    (ends : ∀ rest, Ends rest → Ends (cs' ++ rest)) : Spells (cs ++ cs') (found ++ found') := by
  intro rounds rest more stop isRest
  have later := h' rounds rest more stop isRest
  have all := h _ _ _ (ends rest stop) later
  rwa [Nat.add_assoc, Nat.add_comm cs'.length, ← List.length_append, ← List.append_assoc,
    ← List.append_assoc] at all

/-- Nothing that follows a mark belongs to it. -/
theorem cons (shown : isSpace c = false) (mark : ∀ rest, token? (c :: rest) = some (token, rest))
    (h : Spells cs found) : Spells (c :: cs) (token :: found) := by
  intro rounds rest more stop isRest
  exact tokens?_cons shown (mark _) (h rounds rest more stop isRest)

/-- A text of one token. -/
theorem single (shown : isSpace c = false)
    (isToken : ∀ rest, Ends rest → token? (c :: cs ++ rest) = some (token, rest)) :
    Spells (c :: cs) [token] := by
  intro rounds rest more stop isRest
  exact tokens?_cons shown (isToken rest stop) (tokens?_mono isRest (Nat.le_add_right _ _))

theorem quoted {s : String} : Spells (quoted s).toList [.text (some s)] := by
  have starts : (Json.quoted s).toList = '"' :: (Json.quoted s).toList.tail := by
    simp [Json.quoted]
  rw [starts]
  refine single (by decide) fun rest _ => ?_
  rw [← starts]
  exact token?_quoted

end Spells

/-! ## Numbers in place -/

/-- A character that opens no bracket and is no white space. -/
def Bare (c : Char) : Prop := isSpace c = false ∧ c ≠ '[' ∧ c ≠ '\x7b'

/-- The characters of numbers that are no digits but for the first one, and those of `null`. -/
theorem bare_of_mem (h : c ∈ ['0', '.', '-', '+', 'e', 'n', 'u', 'l']) : Bare c := by
  simp only [List.mem_cons, List.not_mem_nil, or_false] at h
  rcases h with rfl | rfl | rfl | rfl | rfl | rfl | rfl | rfl
  all_goals exact ⟨rfl, by decide, by decide⟩

theorem bare_of_isDigit (digit : c.isDigit = true) : Bare c := by
  have other : ∀ c' : Char, c'.isDigit = false → c ≠ c' := by
    rintro c' noDigit rfl
    rw [digit] at noDigit
    cases noDigit
  refine ⟨?_, other _ rfl, other _ rfl⟩
  simp [isSpace, other ' ' rfl, other '\t' rfl, other '\n' rfl, other '\r' rfl]

theorem isDigit_of_mem_shortestFrom {i : Decimal.Interval} {lead : Int} {count tries : Nat}
    (h : c ∈ (Decimal.shortestFrom i lead count tries).digits) : c.isDigit = true := by
  induction tries generalizing count with
  | zero => exact List.mem_singleton.1 h ▸ rfl
  | succ tries ih =>
    rw [Decimal.shortestFrom] at h
    split at h
    · next n _ =>
      have member : c ∈ Nat.toDigits 10 n :=
        List.mem_reverse.1 ((List.dropWhile_sublist _).subset (List.mem_reverse.1 h))
      exact Nat.isDigit_of_mem_toDigits (by decide) (by decide) member
    · exact ih h

theorem bare_of_mem_positional {digits : Decimal.Digits}
    (each : ∀ c ∈ digits.digits, Bare c) (h : c ∈ positional digits) : Bare c := by
  have zero : Bare '0' := bare_of_mem (by simp)
  have point : Bare '.' := bare_of_mem (by simp)
  unfold positional at h
  split at h
  · simp only [List.cons_append, List.mem_cons, List.mem_append, List.mem_replicate] at h
    rcases h with rfl | rfl | ⟨-, rfl⟩ | member
    · exact zero
    · exact point
    · exact zero
    · exact each c member
  · simp only [List.append_assoc, List.mem_append, List.mem_cons, List.mem_replicate] at h
    rcases h with member | ⟨-, rfl⟩ | rfl | member
    · exact each c (List.mem_of_mem_take member)
    · exact zero
    · exact point
    · split at member
      · exact List.mem_singleton.1 member ▸ zero
      · exact each c (List.mem_of_mem_drop member)

theorem bare_of_mem_toDigits {n : Nat} (h : c ∈ Nat.toDigits 10 n) : Bare c :=
  bare_of_isDigit (Nat.isDigit_of_mem_toDigits (by decide) (by decide) h)

theorem bare_of_mem_scientific {digits : Decimal.Digits}
    (each : ∀ c ∈ digits.digits, Bare c) (h : c ∈ scientific digits) : Bare c := by
  simp only [scientific, List.append_assoc, List.mem_append, List.mem_cons] at h
  rcases h with member | member | rfl | rfl | member
  · exact each c (List.mem_of_mem_take member)
  · split at member
    · rcases List.mem_cons.1 member with rfl | member
      · exact bare_of_mem (by simp)
      · exact each c (List.mem_of_mem_drop member)
    · cases member
  · exact bare_of_mem (by simp)
  · split <;> exact bare_of_mem (by simp)
  · exact bare_of_mem_toDigits member

theorem bare_of_mem_numberText {n : Number} (h : c ∈ (numberText n).toList) : Bare c := by
  have minus : Bare '-' := bare_of_mem (by simp)
  have natural {n : Nat} (h : c ∈ (toString n).toList) : Bare c := by
    rw [Nat.toString_eq_repr, Nat.repr, String.toList_ofList] at h
    exact bare_of_mem_toDigits h
  cases n with
  | integer n =>
    cases n with
    | ofNat n => exact natural h
    | negSucc n =>
      have negative : (numberText (.integer (.negSucc n))).toList =
          '-' :: (toString (n + 1)).toList := by
        have written : numberText (.integer (.negSucc n)) = "-" ++ toString (n + 1) := rfl
        rw [written, String.toList_append]
        rfl
      rw [negative] at h
      rcases List.mem_cons.1 h with rfl | h
      · exact minus
      · exact natural h
  | double x =>
    rw [numberText, doubleText] at h
    split at h
    · have null : "null".toList = ['n', 'u', 'l', 'l'] := rfl
      have word : ['n', 'u', 'l', 'l'] ⊆ ['0', '.', '-', '+', 'e', 'n', 'u', 'l'] := by simp
      exact bare_of_mem (word (null ▸ h))
    · have size : ∀ c ∈ (if x == 0.0 then ['0', '.', '0']
          else
            let d := Decimal.shortest x
            if leastPositional ≤ d.exponent ∧ d.exponent < positionalEnd then positional d
            else scientific d), Bare c := by
        intro c h
        split at h
        · have zero : ['0', '.', '0'] ⊆ ['0', '.', '-', '+', 'e', 'n', 'u', 'l'] := by simp
          exact bare_of_mem (zero h)
        · have each (c : Char) (h : c ∈ (Decimal.shortest x).digits) : Bare c :=
            bare_of_isDigit (isDigit_of_mem_shortestFrom h)
          simp only at h
          split at h
          · exact bare_of_mem_positional each h
          · exact bare_of_mem_scientific each h
      rw [String.toList_ofList] at h
      split at h
      · rcases List.mem_cons.1 h with rfl | h
        · exact minus
        · exact size c h
      · exact size c h

/-- The first character of a number. -/
theorem digit_of_numeral? {r : Document × List Char} (h : numeral? (c :: cs) = some r) :
    c = '-' ∨ c.isDigit = true := by
  refine Decidable.byContradiction fun other => ?_
  rw [not_or] at other
  have none : wholeDigits (c :: cs) = [] := by
    unfold wholeDigits
    split
    · next same => cases same; exact absurd rfl other.2
    · rw [List.takeWhile_cons_of_neg other.2]
  rw [numeral?_other other.1, unsigned?, none] at h
  cases h

theorem token?_of_digit (digit : c = '-' ∨ c.isDigit = true) :
    token? (c :: cs) = (numeral? (c :: cs)).map fun (d, rest) => (.scalar d, rest) := by
  unfold token?
  split
  all_goals first
    | rfl
    | next same => cases same; rcases digit with digit | digit <;> cases digit

/-- A word or number is found in its place as it is by itself. -/
theorem token?_append (ends : Ends more) (h : token? cs = some (.scalar d, rest)) :
    token? (cs ++ more) = some (.scalar d, rest ++ more) := by
  unfold token? at h
  split at h
  case h_7 =>
    obtain ⟨_, _, h⟩ := Option.bind_eq_some_iff.1 h
    cases h
  case h_11 =>
    obtain ⟨⟨d, rest⟩, isNumeral, same⟩ := Option.map_eq_some_iff.1 h
    cases same
    cases cs with
    | nil => cases isNumeral
    | cons c cs =>
      have there := numeral?_append ends isNumeral
      rw [List.cons_append] at there ⊢
      rw [token?_of_digit (digit_of_numeral? isNumeral), there]
      rfl
  all_goals
    cases h
    try rfl

end

end Clickstream.Json
