import Clickstream.Proofs.CanonicalForm
import Clickstream.Proofs.JsonTokens

/-! # The compact text of a value is read back

A text that is written compactly is read as the document of its value, if it is not nested too deeply
and if its numbers are read back from their texts. Which numbers are is left open: a double may be
written with more digits than are read exactly.
-/

namespace Clickstream.Json

/-! ## Numbers by themselves -/

variable {text : String} {n : Number} {d : Document} {r : Reading} {token : Token} {room : Nat}

/-- After a value on its own there is nothing that may follow. -/
theorem step_done (none : r.frames = []) (next : r.expecting = .next) :
    r.step token = .none := by
  unfold Reading.step
  rw [next]
  cases token <;> simp [none, Reading.close]

theorem foldlM_done {found : List Token} {final : Reading} (none : r.frames = [])
    (next : r.expecting = .next) (run : found.foldlM Reading.step r = some final) :
    found = [] ∧ final = r := by
  cases found with
  | nil => cases run; exact ⟨rfl, rfl⟩
  | cons token later =>
    rw [List.foldlM_cons, step_done none next] at run
    cases run

theorem eq_of_value?_number (h : d.value? = some (.number n)) : d = .number n := by
  cases d with
  | number m => cases h; rfl
  | array items =>
    obtain ⟨_, -, same⟩ := Option.map_eq_some_iff.1 h
    cases same
  | object fields =>
    obtain ⟨_, -, same⟩ := Option.map_eq_some_iff.1 h
    cases same
  | _ => cases h

/-- Only a bracket is read as one. -/
theorem not_opened {c : Char} {cs rest : List Char} (bare : Bare c)
    (h : token? (c :: cs) = some (token, rest)) : token ≠ .openArray ∧ token ≠ .openObject := by
  unfold token? at h
  split at h
  case h_1 same => cases same; exact absurd rfl bare.2.1
  case h_3 same => cases same; exact absurd rfl bare.2.2
  case h_7 =>
    obtain ⟨_, -, h⟩ := Option.bind_eq_some_iff.1 h
    cases h
    exact ⟨nofun, nofun⟩
  case h_11 =>
    obtain ⟨_, -, h⟩ := Option.map_eq_some_iff.1 h
    cases h
    exact ⟨nofun, nofun⟩
  all_goals
    cases h
    exact ⟨nofun, nofun⟩

/-- A text of bare characters that is read as a number is one token. -/
theorem token?_of_parse? (bare : ∀ c ∈ text.toList, Bare c)
    (h : parse? text = some (.number n)) : ∃ c cs rest, text.toList = c :: cs ∧ isSpace c = false ∧
      token? (c :: cs) = some (.scalar (.number n), rest) ∧ tokens? cs.length rest = some [] := by
  obtain ⟨d, read, isNumber⟩ := Option.bind_eq_some_iff.1 h
  obtain rfl := eq_of_value?_number isNumber
  obtain ⟨found, isFound, read⟩ := Option.bind_eq_some_iff.1 read
  obtain ⟨final, run, result⟩ := Option.bind_eq_some_iff.1 read
  have result : final.result = some (.number n) := by
    split at result
    · exact result
    · cases result
  cases isText : text.toList with
  | nil =>
    rw [isText] at isFound
    cases isFound
    cases run
    cases result
  | cons c cs =>
    rw [isText] at isFound bare
    have bare := bare c List.mem_cons_self
    simp only [List.length_cons, tokens?, bare.1] at isFound
    obtain ⟨⟨token, rest⟩, isToken, isFound⟩ := Option.bind_eq_some_iff.1 isFound
    obtain ⟨later, isLater, isFound⟩ := Option.bind_eq_some_iff.1 isFound
    cases isFound
    rw [List.foldlM_cons] at run
    obtain ⟨between, first, run⟩ := Option.bind_eq_some_iff.1 run
    have opened := not_opened bare isToken
    refine ⟨c, cs, rest, rfl, bare.1, ?_⟩
    cases token with
    | openArray => exact absurd rfl opened.1
    | openObject => exact absurd rfl opened.2
    | scalar d =>
      cases first
      obtain ⟨rfl, rfl⟩ := foldlM_done rfl rfl run
      cases result
      exact ⟨isToken, isLater⟩
    | text s =>
      cases first
      obtain ⟨rfl, rfl⟩ := foldlM_done rfl rfl run
      cases s <;> cases result
    | _ => cases first

theorem spells_number (h : parse? (numberText n) = some (.number n)) :
    Spells (numberText n).toList [.scalar (.number n)] := by
  obtain ⟨c, cs, blank, isText, shown, isToken, isBlank⟩ :=
    token?_of_parse? (fun _ => bare_of_mem_numberText) h
  rw [isText]
  intro rounds rest more stop isRest
  exact tokens?_cons shown (token?_append stop isToken) (tokens?_blank isBlank isRest)

/-! ## What the machine makes of a text -/

/-- Wherever a value may stand with room for some more brackets, a text is read as a document. -/
def ReadsAs (room : Nat) (text : String) (d : Document) : Prop :=
  ∃ found, Spells text.toList found ∧ ∀ (r : Reading) (first : Bool), r.expecting = .item first →
    r.frames.length + room ≤ depthLimit → found.foldlM Reading.step r = r.put d

theorem foldlM_single : [token].foldlM Reading.step r = r.step token := by
  rw [List.foldlM_cons]
  exact bind_pure _

theorem step_scalar {first : Bool} (expecting : r.expecting = .item first) :
    r.step (.scalar d) = r.put d := by
  cases r
  cases expecting
  rfl

theorem step_text {first : Bool} {s : String} (expecting : r.expecting = .item first) :
    r.step (.text (some s)) = r.put (.string s) := by
  cases r
  cases expecting
  rfl

theorem readsAs_scalar (h : Spells text.toList [.scalar d]) : ReadsAs room text d := by
  refine ⟨_, h, fun r first expecting _ => ?_⟩
  rw [foldlM_single, step_scalar expecting]

theorem readsAs_quoted {s : String} : ReadsAs room (quoted s) (.string s) := by
  refine ⟨_, .quoted, fun r first expecting _ => ?_⟩
  rw [foldlM_single, step_text expecting]

/-- A whole text. -/
theorem ReadsAs.read? (h : ReadsAs room text d) (enough : room ≤ depthLimit) :
    read? text = some d := by
  obtain ⟨found, spells, run⟩ := h
  have all := spells 0 [] [] (fun c none => by cases none) rfl
  rw [List.append_nil, List.append_nil, Nat.zero_add] at all
  rw [Json.read?, all]
  have done := run {} false rfl (by simpa using enough)
  simp only [Option.bind_eq_bind, Option.bind_some, done]
  rfl

/-! ## Brackets -/

/-- A kind of brackets: how they are written, and how the machine goes about them. -/
structure Bracket (β : Type) where
  opening : Char
  closing : Char
  opened : Token
  closedBy : Token
  /-- The bracket while it is open, the last entry first. -/
  frame : List β → Frame
  /-- What is expected where an entry may stand. -/
  entry : Bool → Expecting
  document : List β → Document
  starts : isSpace opening = false ∧ ∀ rest, token? (opening :: rest) = some (opened, rest)
  stops : isSpace closing = false ∧ ∀ rest, token? (closing :: rest) = some (closedBy, rest)
  ends : ∀ rest, Ends (closing :: rest)
  opens : ∀ (r : Reading) first, r.expecting = .item first →
    r.step opened = some { r with frames := frame [] :: r.frames, expecting := entry true }
  comma : ∀ (r : Reading) held outer, r.frames = frame held :: outer → r.expecting = .next →
    r.step .comma = some { r with expecting := entry false }
  closes : ∀ (r : Reading) held outer, r.frames = frame held :: outer →
    r.expecting = .next ∨ r.expecting = entry true →
    r.step closedBy = ({ r with frames := outer }).put (closed outer.length (document held.reverse))

theorem ends_of_mem {c : Char} {cs : List Char} (mark : c ∈ [',', ':', ']', '\x7d']) :
    Ends (c :: cs) := by
  have each : ∀ c ∈ [',', ':', ']', '\x7d'],
      c.isDigit = false ∧ c ≠ '.' ∧ c ≠ 'e' ∧ c ≠ 'E' := by simp
  intro c' same
  cases same
  exact each c mark

theorem Reading.put_congr {r r' : Reading} (frames : r.frames = r'.frames)
    (result : r.result = r'.result) : r.put d = r'.put d := by
  obtain ⟨held, _, _⟩ := r
  obtain ⟨_, _, _⟩ := r'
  cases frames
  cases result
  cases held with
  | nil => rfl
  | cons frame outer => cases frame <;> rfl

def Bracket.array : Bracket Document where
  opening := '['
  closing := ']'
  opened := .openArray
  closedBy := .closeArray
  frame := .array
  entry := .item
  document := .array
  starts := ⟨rfl, fun _ => rfl⟩
  stops := ⟨rfl, fun _ => rfl⟩
  ends _ := ends_of_mem (by simp)
  opens r first expecting := by
    cases r
    cases expecting
    rfl
  comma r held outer frames expecting := by
    cases r
    cases expecting
    cases frames
    rfl
  closes r held outer frames expecting := by
    cases r
    cases frames
    rcases expecting with expecting | expecting
    all_goals
      cases expecting
      rfl

theorem objectOf_some {fields : List (String × Document)} :
    objectOf (fields.map fun field => (some field.1, field.2)).reverse = .object fields := by
  have named : (fields.map fun field => (some field.1, field.2)).mapM
      (fun field : Option String × Document => field.1.map (·, field.2)) = some fields := by
    induction fields with
    | nil => rfl
    | cons field rest ih => rw [List.map_cons, List.mapM_cons, ih]; rfl
  unfold objectOf
  rw [List.reverse_reverse]
  split
  · next found same => exact congrArg _ (Option.some.inj (same.symm.trans named))
  · next none => cases none.symm.trans named

def Bracket.object : Bracket (Option String × Document) where
  opening := '\x7b'
  closing := '\x7d'
  opened := .openObject
  closedBy := .closeObject
  frame := .object
  entry := .name
  document fields := objectOf fields.reverse
  starts := ⟨rfl, fun _ => rfl⟩
  stops := ⟨rfl, fun _ => rfl⟩
  ends _ := ends_of_mem (by simp)
  opens r first expecting := by
    cases r
    cases expecting
    rfl
  comma r held outer frames expecting := by
    cases r
    cases expecting
    cases frames
    rfl
  closes r held outer frames expecting := by
    cases r
    cases frames
    rcases expecting with expecting | expecting
    all_goals
      cases expecting
      rw [List.reverse_reverse]
      rfl

section

variable {α β : Type} {bracket : Bracket β} {entries : List β}

/-- Inside a bracket with room for some more a text adds entries. -/
def Enters (bracket : Bracket β) (room : Nat) (text : String) (entries : List β) : Prop :=
  ∃ found, Spells text.toList found ∧ ∀ (r : Reading) (first : Bool) (held : List β) outer,
    r.frames = bracket.frame held :: outer → r.expecting = bracket.entry first →
    outer.length + 1 + room ≤ depthLimit → found.foldlM Reading.step r =
      some { r with frames := bracket.frame (entries.reverse ++ held) :: outer, expecting := .next }

/-- Entries with commas between them. -/
theorem Enters.intercalate {a : α} {items : List α} {text : α → String} {entry : α → β}
    (each : ∀ b ∈ a :: items, Enters bracket room (text b) [entry b]) :
    Enters bracket room (",".intercalate ((a :: items).map text)) ((a :: items).map entry) := by
  induction items generalizing a with
  | nil =>
    rw [List.map_singleton, List.map_singleton, String.intercalate_singleton]
    exact each a List.mem_cons_self
  | cons b items ih =>
    obtain ⟨first, spells, enters⟩ := each a List.mem_cons_self
    obtain ⟨later, spells', enters'⟩ := ih fun b member => each b (List.mem_cons_of_mem _ member)
    have parts : (",".intercalate ((a :: b :: items).map text)).toList =
        (text a).toList ++ ',' :: (",".intercalate ((b :: items).map text)).toList := by
      rw [List.map_cons, List.map_cons, String.intercalate_cons_cons]
      simp
    refine ⟨first ++ .comma :: later, ?_, fun r start held outer frames expecting enough => ?_⟩
    · rw [parts]
      exact spells.append (.cons rfl (fun _ => rfl) spells') fun _ _ => ends_of_mem (by simp)
    · rw [List.foldlM_append, enters r start held outer frames expecting enough]
      simp only [Option.bind_eq_bind, Option.bind_some, List.foldlM_cons]
      rw [bracket.comma _ _ _ rfl rfl, Option.bind_some, enters' _ false _ outer rfl rfl enough]
      simp

/-- A text in brackets is read as the document of its entries. -/
theorem readsAs_bracket (bracket : Bracket β) {items : List α} {text : α → String} {entry : α → β}
    (each : ∀ a ∈ items, Enters bracket room (text a) [entry a]) :
    ReadsAs (room + 1) (String.singleton bracket.opening ++ ",".intercalate (items.map text) ++
      String.singleton bracket.closing) (bracket.document (items.map entry)) := by
  have parts : (String.singleton bracket.opening ++ ",".intercalate (items.map text) ++
      String.singleton bracket.closing).toList =
      bracket.opening :: ((",".intercalate (items.map text)).toList ++ [bracket.closing]) := by
    simp
  have closing : Spells [bracket.closing] [bracket.closedBy] :=
    .cons bracket.stops.1 bracket.stops.2 .nil
  have closes (r : Reading) (held : List β) (outer : List Frame)
      (room : outer.length + (room + 1) ≤ depthLimit) (frames : r.frames = bracket.frame held :: outer)
      (expecting : r.expecting = .next ∨ r.expecting = bracket.entry true) :
      [bracket.closedBy].foldlM Reading.step r =
        ({ r with frames := outer }).put (bracket.document held.reverse) := by
    have enough : outer.length < depthLimit := by omega
    rw [foldlM_single, bracket.closes r held outer frames expecting, closed, if_pos enough]
  cases items with
  | nil =>
    refine ⟨[bracket.opened, bracket.closedBy], ?_, fun r first expecting enough => ?_⟩
    · rw [parts]
      exact .cons bracket.starts.1 bracket.starts.2 closing
    · rw [List.foldlM_cons, bracket.opens r first expecting]
      simp only [Option.bind_eq_bind, Option.bind_some]
      rw [closes _ [] r.frames enough rfl (.inr rfl)]
      exact Reading.put_congr rfl rfl
  | cons a items =>
    obtain ⟨found, spells, enters⟩ := Enters.intercalate each
    refine ⟨bracket.opened :: (found ++ [bracket.closedBy]), ?_, fun r first expecting enough => ?_⟩
    · rw [parts]
      exact .cons bracket.starts.1 bracket.starts.2
        (spells.append closing fun _ _ => bracket.ends _)
    · rw [List.foldlM_cons, bracket.opens r first expecting]
      simp only [Option.bind_eq_bind, Option.bind_some, List.foldlM_append]
      rw [enters _ true [] r.frames rfl rfl (by omega), Option.bind_some,
        closes _ _ r.frames enough rfl (.inl rfl)]
      simp only [List.append_nil, List.reverse_reverse]
      exact Reading.put_congr rfl rfl

theorem ReadsAs.enters (h : ReadsAs room text d) : Enters .array room text [d] := by
  obtain ⟨found, spells, run⟩ := h
  refine ⟨found, spells, fun r first held outer frames expecting enough => ?_⟩
  rw [run r first expecting (by rw [frames]; exact enough), Reading.put]
  split
  · next none => rw [frames] at none; cases none
  · next same => rw [frames] at same; cases same; rfl
  · next same => rw [frames] at same; cases same
  · next same => rw [frames] at same; cases same

/-- A name and a value. -/
theorem ReadsAs.enters_field {name : String} (h : ReadsAs room text d) :
    Enters .object room (quoted name ++ ":" ++ text) [(some name, d)] := by
  obtain ⟨found, spells, run⟩ := h
  have parts : (quoted name ++ ":" ++ text).toList = (quoted name).toList ++ ':' :: text.toList := by
    simp
  refine ⟨.text (some name) :: .colon :: found, ?_,
    fun r first held outer frames expecting enough => ?_⟩
  · rw [parts]
    exact Spells.quoted.append (.cons rfl (fun _ => rfl) spells) fun _ _ => ends_of_mem (by simp)
  · have named : r.step (.text (some name)) =
        some { r with frames := .named held (some name) :: outer, expecting := .colon } := by
      cases r
      cases expecting
      cases frames
      rfl
    rw [List.foldlM_cons, named]
    simp only [Option.bind_eq_bind, Option.bind_some, List.foldlM_cons]
    exact run _ false rfl (by simpa using enough)

end

/-! ## Values -/

/-- A value with no number that its text does not tell, and some brackets around another at most. -/
inductive Tells : Nat → Json → Prop where
  | null {room : Nat} : Tells room .null
  | bool {room : Nat} {b : Bool} : Tells room (.bool b)
  | string {room : Nat} {s : String} : Tells room (.string s)
  | number {room : Nat} {n : Number} : parse? (numberText n) = some (.number n) →
      Tells room (.number n)
  | array {room : Nat} {items : List Json} : (∀ item ∈ items, Tells room item) →
      Tells (room + 1) (.array items)
  | object {room : Nat} {fields : List (String × Json)} : (∀ field ∈ fields, Tells room field.2) →
      Tells (room + 1) (.object fields)

theorem compactItems_eq_map {items : List Json} : compactItems items = items.map compact := by
  induction items with
  | nil => rfl
  | cons item rest ih => rw [compactItems, ih, List.map_cons]

theorem compactFields_eq_map {fields : List (String × Json)} :
    compactFields fields = fields.map fun field => quoted field.1 ++ ":" ++ compact field.2 := by
  induction fields with
  | nil => rfl
  | cons field rest ih => rw [compactFields, ih, List.map_cons]

theorem readsAs_compact {value : Json} (h : Tells room value) :
    ReadsAs room value.compact (.ofJson value) := by
  have word {c : Char} {cs : List Char} {d : Document} (shown : isSpace c = false)
      (isToken : ∀ rest, token? (c :: cs ++ rest) = some (.scalar d, rest)) :
      Spells (c :: cs) [.scalar d] := .single shown fun rest _ => isToken rest
  induction h with
  | null =>
    rw [compact, Document.ofJson]
    exact readsAs_scalar (word rfl fun _ => rfl)
  | @bool _ b =>
    rw [compact, Document.ofJson]
    cases b <;> exact readsAs_scalar (word rfl fun _ => rfl)
  | string =>
    rw [compact, Document.ofJson]
    exact readsAs_quoted
  | number told =>
    rw [compact, Document.ofJson]
    exact readsAs_scalar (spells_number told)
  | array _ ih =>
    rw [compact, Document.ofJson, Document.ofItems_eq_map, compactItems_eq_map]
    exact readsAs_bracket .array fun item member => (ih item member).enters
  | @object _ fields _ ih =>
    have entries := @objectOf_some (Fields.mapValues .ofJson fields)
    rw [Fields.mapValues, List.map_map] at entries
    rw [compact, Document.ofJson, Document.ofFields_eq_map, compactFields_eq_map, Fields.mapValues,
      ← entries]
    exact readsAs_bracket .object fun field member => (ih field member).enters_field

/-- A compact text is read as its value. -/
theorem read?_compact {value : Json} (h : Tells depthLimit value) :
    read? value.compact = some (.ofJson value) :=
  (readsAs_compact h).read? (Nat.le_refl _)

end Clickstream.Json
