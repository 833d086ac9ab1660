import Clickstream.Item
import Clickstream.Proofs.JsonTokens

/-! # The text of an item

The text of an item begins with its id and its type. Whatever follows, a text with this beginning is
read as an item of that id and that type or not at all: the two fields stay the first ones of the
outermost object until it closes, and an item that names its id or its type again is none. Numbers
and nested values further on may well be read as something else than was written.
-/

namespace Clickstream

namespace Json

/-! ## Tokens -/

/-- Whatever the tokens of a text are, some stand first, and those of the rest follow. -/
def Lexes (cs : List Char) (first : List Token) (rest : List Char) : Prop :=
  ∀ rounds found, tokens? rounds cs = some found →
    ∃ rounds' more, tokens? rounds' rest = some more ∧ found = first ++ more

variable {cs between rest : List Char} {first second : List Token}

theorem Lexes.trans (h : Lexes cs first between) (h' : Lexes between second rest) :
    Lexes cs (first ++ second) rest := by
  intro rounds found isFound
  obtain ⟨rounds', later, isLater, rfl⟩ := h rounds found isFound
  obtain ⟨rounds'', more, isMore, rfl⟩ := h' rounds' later isLater
  exact ⟨rounds'', more, isMore, (List.append_assoc ..).symm⟩

theorem lexes_space {c : Char} (space : isSpace c = true) : Lexes (c :: rest) [] rest := by
  intro rounds found isFound
  cases rounds with
  | zero => simp [tokens?] at isFound
  | succ rounds =>
    rw [tokens?, if_pos space] at isFound
    exact ⟨rounds, found, isFound, rfl⟩

theorem lexes_token {c : Char} {token : Token} (shown : isSpace c = false)
    (h : token? (c :: cs) = some (token, rest)) : Lexes (c :: cs) [token] rest := by
  intro rounds found isFound
  cases rounds with
  | zero => simp [tokens?] at isFound
  | succ rounds =>
    simp only [tokens?, shown, h] at isFound
    obtain ⟨more, isMore, same⟩ := Option.bind_eq_some_iff.1 isFound
    cases same
    exact ⟨rounds, more, isMore, rfl⟩

theorem lexes_quoted {s : String} : Lexes ((quoted s).toList ++ rest) [.text (some s)] rest := by
  have starts : (quoted s).toList ++ rest = '"' :: ((quoted s).toList.tail ++ rest) := by
    simp [quoted]
  have isToken := @token?_quoted s rest
  rw [starts] at isToken ⊢
  exact lexes_token (by decide) isToken

/-- A field of an object on a line of its own. -/
theorem lexes_field {name s : String} :
    Lexes ((quoted name ++ ": " ++ quoted s).toList ++ rest)
      [.text (some name), .colon, .text (some s)] rest := by
  have chars : (quoted name ++ ": " ++ quoted s).toList ++ rest =
      (quoted name).toList ++ ':' :: ' ' :: ((quoted s).toList ++ rest) := by simp
  rw [chars]
  have colon : Lexes (':' :: ' ' :: ((quoted s).toList ++ rest)) [.colon] _ :=
    lexes_token (by decide) rfl
  exact lexes_quoted.trans (colon.trans ((lexes_space (by decide)).trans lexes_quoted))

/-! ## The outermost object -/

/-- The outermost of the open brackets is an object that began with some fields, given last one
first. -/
inductive Roots (start : List (Option String × Document)) : List Frame → Prop
  | object {fields} : start <:+ fields → Roots start [.object fields]
  | named {fields name} : start <:+ fields → Roots start [.named fields name]
  | inner {frame frames} : Roots start frames → Roots start (frame :: frames)

/-- The text so far is an object that began with some fields, open or closed. -/
inductive Begins (start : List (Option String × Document)) (r : Reading) : Prop
  | opened : Roots start r.frames → Begins start r
  | closed {fields} : r.frames = [] → r.expecting = .next → start <:+ fields →
    r.result = some (objectOf fields) → Begins start r

variable {start : List (Option String × Document)} {r r' : Reading} {token : Token}

theorem Roots.ne_nil {frames : List Frame} (h : Roots start frames) : frames ≠ [] := by
  cases h <;> exact List.cons_ne_nil _ _

theorem Roots.put {d : Document} (h : Roots start r.frames) (done : r.put d = some r') :
    Roots start r'.frames := by
  unfold Reading.put at done
  split at done
  · next none => exact absurd none h.ne_nil
  · next items outer same =>
    cases done
    rw [same] at h
    cases h with
    | inner h => exact .inner h
  · next fields name outer same =>
    cases done
    rw [same] at h
    cases h with
    | named begins => exact .object (begins.trans (List.suffix_cons _ _))
    | inner h => exact .inner h
  · cases done

theorem Roots.close (h : Roots start r.frames) (done : r.close token = some r') :
    Begins start r' := by
  unfold Reading.close at done
  split at done
  · next items outer same =>
    rw [same] at h
    cases h with
    | inner h => exact .opened (h.put done)
  · next fields outer same =>
    rw [same] at h
    cases h with
    -- The outermost bracket closes, and its object is the document of the whole text.
    | object begins => cases done; exact .closed rfl rfl begins rfl
    | inner h => exact .opened (h.put done)
  · cases done

theorem Roots.step (h : Roots start r.frames) (done : r.step token = some r') :
    Begins start r' := by
  unfold Reading.step at done
  split at done
  · cases done; exact .opened (.inner h)
  · cases done; exact .opened (.inner h)
  · exact .opened (h.put done)
  · exact .opened (h.put done)
  · exact h.close done
  · split at done
    · next fields outer same =>
      cases done
      rw [same] at h
      cases h with
      | object begins => exact .opened (.named begins)
      | inner h => exact .opened (.inner h)
    · cases done
  · exact h.close done
  · cases done; exact .opened h
  · split at done
    · cases done; exact .opened h
    · cases done; exact .opened h
    · cases done
  · exact h.close done
  · exact h.close done
  · cases done

/-- Nothing may follow the object once it is closed. -/
theorem Begins.step (h : Begins start r) (done : r.step token = some r') : Begins start r' := by
  cases h with
  | opened h => exact h.step done
  | closed none next begins result =>
    unfold Reading.step at done
    rw [next] at done
    cases token <;> simp [none, Reading.close] at done

theorem Begins.foldlM {tokens : List Token} (h : Begins start r)
    (run : tokens.foldlM Reading.step r = some r') : Begins start r' := by
  induction tokens generalizing r with
  | nil => cases run; exact h
  | cons token rest ih =>
    rw [List.foldlM_cons] at run
    obtain ⟨between, first, later⟩ := Option.bind_eq_some_iff.1 run
    exact ih (h.step first) later

/-- A text that begins with an object and some fields in it is such an object or no document. -/
theorem exists_of_read? {text : String} {tokens : List Token} {rest : List Char} {d : Document}
    (lexes : Lexes text.toList tokens rest) (begun : tokens.foldlM Reading.step {} = some r)
    (h : Begins start r) (read : read? text = some d) :
    ∃ fields, start <:+ fields ∧ d = objectOf fields := by
  obtain ⟨found, isFound, read⟩ := Option.bind_eq_some_iff.1 read
  obtain ⟨rounds, more, -, same⟩ := lexes _ _ isFound
  obtain ⟨final, run, result⟩ := Option.bind_eq_some_iff.1 read
  rw [same, List.foldlM_append, begun] at run
  have ends : Begins start final := h.foldlM run
  split at result
  · next none =>
    cases ends with
    | opened isOpen => exact absurd none isOpen.ne_nil
    | closed _ _ begins isResult =>
      rw [isResult] at result
      cases result
      exact ⟨_, begins, rfl⟩
  · cases result

theorem mem_of_mapM {α β : Type} {f : α → Option β} {l : List α} {found : List β} {a : α} {b : β}
    (h : l.mapM f = some found) (member : a ∈ l) (isB : f a = some b) : b ∈ found := by
  induction l generalizing found with
  | nil => cases member
  | cons first rest ih =>
    rw [List.mapM_cons] at h
    obtain ⟨b', isFirst, h⟩ := Option.bind_eq_some_iff.1 h
    obtain ⟨others, isRest, h⟩ := Option.bind_eq_some_iff.1 h
    cases h
    rcases List.mem_cons.1 member with rfl | member
    · rw [isB] at isFirst
      cases isFirst
      exact List.mem_cons_self
    · exact List.mem_cons_of_mem _ (ih isRest member)

theorem mem_of_objectOf {fields : List (Option String × Document)}
    {found : List (String × Document)} {name : String} {d : Document}
    (h : objectOf fields = .object found) (member : (some name, d) ∈ fields) :
    (name, d) ∈ found := by
  unfold objectOf at h
  split at h
  · next named =>
    cases h
    exact mem_of_mapM named (List.mem_reverse.2 member) rfl
  · cases h

end Json

/-! ## Items -/

namespace Item

variable {item item' : Item}

/-- A name that a record has once already may not come again. -/
theorem eq_of_pick? {fields : List (String × Document)} {name : String} {d : Document}
    {part : Option Document} (member : (name, d) ∈ fields)
    (picked : Record.pick? fields [name] = some part) : part = some d := by
  have named : (name, d) ∈ fields.filter fun field => [name].contains field.1 :=
    List.mem_filter.2 ⟨member, by simp⟩
  rw [Record.pick?] at picked
  split at picked
  · next none => rw [none] at named; cases named
  · next field one =>
    rw [one, List.mem_singleton] at named
    cases picked
    rw [← named]
  · cases picked

/-- An item has the id and the type that its document names. -/
theorem eq_of_ofDocument? {fields : List (String × Document)} {id type : String}
    (isId : ("itemId", .string id) ∈ fields) (isType : ("itemType", .string type) ∈ fields)
    (read : ofDocument? (.object fields) = some item) : item.id = id ∧ item.type = type := by
  obtain ⟨texts, picked, read⟩ := Option.bind_eq_some_iff.1 read
  obtain ⟨rest, -, read⟩ := Option.bind_eq_some_iff.1 read
  simp only [Record.ofFields?, List.mapM_cons, List.mapM_nil, Option.bind_eq_bind,
    Option.pure_def, Option.bind_some] at picked
  obtain ⟨first, pickedId, picked⟩ := Option.bind_eq_some_iff.1 picked
  obtain ⟨_, others, picked⟩ := Option.bind_eq_some_iff.1 picked
  obtain ⟨second, pickedType, others⟩ := Option.bind_eq_some_iff.1 others
  obtain rfl := eq_of_pick? isId pickedId
  obtain rfl := eq_of_pick? isType pickedType
  cases others
  cases picked
  cases read
  exact ⟨rfl, rfl⟩

theorem exists_intercalate_cons {separator text : String} {others : List String} :
    ∃ rest, separator.intercalate (text :: others) = text ++ rest := by
  cases others with
  | nil => exact ⟨"", by simp⟩
  | cons other others =>
    rw [String.intercalate_cons_cons, String.append_assoc]
    exact ⟨_, rfl⟩

/-- The text of an item begins with its id and its type, on a line each. -/
theorem exists_pretty_eq : ∃ rest, item.toJson.pretty.toList = '\x7b' :: '\n' :: ' ' :: ' ' ::
    ((Json.quoted "itemId" ++ ": " ++ Json.quoted item.id).toList ++
      ',' :: '\n' :: ' ' :: ' ' ::
        ((Json.quoted "itemType" ++ ": " ++ Json.quoted item.type).toList ++ rest)) := by
  obtain ⟨rest, same⟩ := @exists_intercalate_cons (",\n  ")
    (Json.quoted "itemType" ++ ": " ++ Json.quoted item.type) (Json.indentedFields 1 item.body)
  have none : "".pushn ' ' 0 = "" := rfl
  have two : "".pushn ' ' 2 = "  " := by decide
  have between : "," ++ ("\n" ++ "  ") = ",\n  " := by decide
  refine ⟨(rest ++ "\n\x7d").toList, ?_⟩
  simp only [toJson, Json.pretty, Json.indented, Json.indentedFields, Json.block, Nat.zero_add,
    Nat.mul_one, Nat.mul_zero, none, two, between]
  rw [String.intercalate_cons_cons, same]
  simp

theorem lexes_pretty : ∃ rest, Json.Lexes item.toJson.pretty.toList
    [.openObject, .text (some "itemId"), .colon, .text (some item.id), .comma,
      .text (some "itemType"), .colon, .text (some item.type)] rest := by
  obtain ⟨rest, same⟩ := @exists_pretty_eq item
  have newLine {cs : List Char} : Json.Lexes ('\n' :: ' ' :: ' ' :: cs) [] cs :=
    (Json.lexes_space rfl).trans ((Json.lexes_space rfl).trans (Json.lexes_space rfl))
  have opening {cs : List Char} : Json.Lexes ('\x7b' :: cs) [.openObject] cs :=
    Json.lexes_token rfl rfl
  have comma {cs : List Char} : Json.Lexes (',' :: cs) [.comma] cs := Json.lexes_token rfl rfl
  refine ⟨rest, same ▸ ?_⟩
  exact opening.trans <| newLine.trans <| Json.lexes_field.trans <| comma.trans <|
    newLine.trans Json.lexes_field

/-- What the text of an item is read as has its id and its type. -/
theorem eq_of_read? (read : (Json.read? item.toJson.pretty).bind ofDocument? = some item') :
    item'.id = item.id ∧ item'.type = item.type := by
  obtain ⟨d, read, isItem⟩ := Option.bind_eq_some_iff.1 read
  obtain ⟨rest, lexes⟩ := @lexes_pretty item
  obtain ⟨fields, begins, rfl⟩ := Json.exists_of_read? lexes rfl
    (.opened (.object List.suffix_rfl)) read
  cases isObject : Json.objectOf fields with
  | object found =>
    rw [isObject] at isItem
    have kept {name : String} {d : Document} := @Json.mem_of_objectOf fields found name d isObject
    exact eq_of_ofDocument? (kept (begins.subset (by simp))) (kept (begins.subset (by simp))) isItem
  | _ => rw [isObject] at isItem; cases isItem

end Item

end Clickstream
