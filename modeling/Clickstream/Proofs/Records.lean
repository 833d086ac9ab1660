import Clickstream.Proofs.CanonicalForm

/-! # Records that are written and read back

A record is written as an object that has a field for each part that is there, under the first name
that its reader knows the part by. In a text the fields are in the order of their declaration, in a
value they are in the order of their names. A reader looks for its fields by name, so it finds the
same parts either way.
-/

namespace Clickstream

namespace Fields

variable {V : Type} {fields : Fields V} {name : String} {value : V}

theorem perm_insert (absent : fields.get? name = none) :
    (fields.insert name value).Perm ((name, value) :: fields) := by
  induction fields with
  | nil => exact List.Perm.refl _
  | cons head rest ih =>
    rw [get?_cons] at absent
    split at absent
    · cases absent
    · next other =>
      rw [insert, if_neg other]
      split
      · exact List.Perm.refl _
      · exact ((ih absent).cons head).trans (List.Perm.swap _ _ _)

theorem perm_sorted (nodup : (fields.map Prod.fst).Nodup) : fields.sorted.Perm fields := by
  -- The pairs are put in from the front, so the claim is made for all that are in already.
  have step : ∀ (pairs acc : Fields V), ((acc ++ pairs).map Prod.fst).Nodup →
      (pairs.foldl (fun acc pair => acc.insert pair.1 pair.2) acc).Perm (acc ++ pairs) := by
    intro pairs
    induction pairs with
    | nil => exact fun acc _ => by rw [List.append_nil]; exact List.Perm.refl _
    | cons pair rest ih =>
      intro acc nodup
      have moved : (pair :: (acc ++ rest)).Perm (acc ++ pair :: rest) :=
        List.perm_middle.symm
      have unique := (moved.map Prod.fst).nodup_iff.2 nodup
      have absent : get? acc pair.1 = none := by
        refine get?_eq_none.2 fun other member same => (List.nodup_cons.1 unique).1 ?_
        exact List.mem_map.2 ⟨other, List.mem_append_left rest member, same⟩
      have inserted : (acc.insert pair.1 pair.2 ++ rest).Perm (acc ++ pair :: rest) :=
        ((perm_insert absent).append_right rest).trans moved
      exact (ih _ ((inserted.map Prod.fst).nodup_iff.2 nodup)).trans inserted
  exact step fields [] nodup

theorem nodup_names (h : fields.Ascending) : (fields.map Prod.fst).Nodup := by
  refine List.pairwise_map.2 (List.Pairwise.imp ?_ h)
  intro a b less same
  exact String.lt_irrefl _ (same ▸ less)

/-- Only one order is that of the names. -/
theorem Ascending.eq_of_perm {other : Fields V} (h : fields.Ascending) (h' : other.Ascending)
    (same : fields.Perm other) : fields = other :=
  h.ext h' fun _ => Option.ext fun _ => by rw [← h.mem_iff, ← h'.mem_iff, same.mem_iff]

end Fields

/-! ## Fields by name -/

namespace Record

variable {α β : Type} {fields others : List (String × α)} {group : List String}
  {names : List (List String)}

theorem pick?_perm (same : fields.Perm others) : pick? fields group = pick? others group := by
  have found := same.filter fun field => group.contains field.1
  rw [pick?, pick?]
  generalize fields.filter (fun field => group.contains field.1) = first at found ⊢
  generalize others.filter (fun field => group.contains field.1) = second at found ⊢
  match first, found with
  | [], found => rw [List.nil_perm.1 found]
  | [field], found => rw [List.singleton_perm.1 found]
  | a :: b :: rest, found =>
    match second, found.length_eq with
    | c :: d :: others, _ => rfl

theorem ofFields?_perm (same : fields.Perm others) :
    ofFields? names fields = ofFields? names others := by
  have picks : pick? fields = pick? others := funext fun _ => pick?_perm same
  rw [ofFields?, ofFields?, picks]

theorem pick?_mapValues {f : α → β} :
    pick? (Fields.mapValues f fields) group = (pick? fields group).map (Option.map f) := by
  rw [pick?, pick?, Fields.mapValues, List.filter_map]
  have kept : fields.filter ((fun field => group.contains field.1) ∘
      fun pair => (pair.1, f pair.2)) = fields.filter fun field => group.contains field.1 := rfl
  rw [kept]
  generalize fields.filter (fun field => group.contains field.1) = found
  match found with
  | [] => rfl
  | [field] => rfl
  | a :: b :: rest => rfl

theorem ofFields?_mapValues {f : α → β} : ofFields? names (Fields.mapValues f fields) =
    (ofFields? names fields).map (List.map (Option.map f)) := by
  rw [ofFields?, ofFields?]
  induction names with
  | nil => rfl
  | cons group rest ih =>
    rw [List.mapM_cons, List.mapM_cons, pick?_mapValues, ih]
    cases pick? fields group with
    | none => rfl
    | some part => cases rest.mapM (pick? fields) <;> rfl

/-- Fields of other names do not matter. -/
theorem pick?_append (other : ∀ field ∈ others, field.1 ∉ group) :
    pick? (others ++ fields) group = pick? fields group := by
  have skipped : others.filter (fun field => group.contains field.1) = [] := by
    rw [List.filter_eq_nil_iff]
    intro field member
    simpa using other field member
  rw [pick?, pick?, List.filter_append, skipped, List.nil_append]

theorem ofFields?_append (other : ∀ field ∈ others, ∀ group ∈ names, field.1 ∉ group) :
    ofFields? names (others ++ fields) = ofFields? names fields := by
  rw [ofFields?, ofFields?]
  induction names with
  | nil => rfl
  | cons group rest ih =>
    have later := ih fun field member group listed => other field member group
      (List.mem_cons_of_mem _ listed)
    have here : pick? (others ++ fields) group = pick? fields group :=
      pick?_append fun field member => other field member group List.mem_cons_self
    rw [List.mapM_cons, List.mapM_cons, here, later]

/-- The fields of the parts that are there, each under its first name. -/
def written : List (List String) → List (Option Json) → Fields Json
  | group :: names, part :: parts => Json.optionalField (group.headD "") part ++ written names parts
  | _, _ => []

/-- Every part has a name, and no two parts share one. -/
def Apart (names : List (List String)) : Prop :=
  [] ∉ names ∧ names.Pairwise fun group other => ∀ name ∈ group, name ∉ other

instance : Decidable (Apart names) := inferInstanceAs (Decidable (_ ∧ _))

theorem Apart.tail (apart : Apart (group :: names)) : Apart names :=
  ⟨fun empty => apart.1 (List.mem_cons_of_mem _ empty), (List.pairwise_cons.1 apart.2).2⟩

theorem Apart.not_mem (apart : Apart (group :: names)) {other : List String} {name : String}
    (member : other ∈ names) (named : name ∈ group) : name ∉ other :=
  (List.pairwise_cons.1 apart.2).1 other member name named

theorem Apart.head_mem (apart : Apart (group :: names)) : group.headD "" ∈ group := by
  cases group with
  | nil => exact absurd List.mem_cons_self apart.1
  | cons name rest => exact List.mem_cons_self

theorem eq_of_mem_optionalField {name : String} {part : Option Json} {field : String × Json}
    (h : field ∈ Json.optionalField name part) : field.1 = name := by
  cases part with
  | none => cases h
  | some value => rw [List.mem_singleton.1 h]

theorem mem_written {parts : List (Option Json)} {field : String × Json}
    (apart : Apart names) (h : field ∈ written names parts) : ∃ group ∈ names, field.1 ∈ group := by
  induction names generalizing parts with
  | nil => cases parts <;> cases h
  | cons group rest ih =>
    cases parts with
    | nil => cases h
    | cons part parts =>
      rcases List.mem_append.1 h with here | later
      · exact ⟨group, List.mem_cons_self, eq_of_mem_optionalField here ▸ apart.head_mem⟩
      · obtain ⟨other, member, named⟩ := ih apart.tail later
        exact ⟨other, List.mem_cons_of_mem _ member, named⟩

theorem nodup_written {parts : List (Option Json)} (apart : Apart names) :
    ((written names parts).map Prod.fst).Nodup := by
  induction names generalizing parts with
  | nil => cases parts <;> exact List.nodup_nil
  | cons group rest ih =>
    cases parts with
    | nil => exact List.nodup_nil
    | cons part parts =>
      rw [written]
      cases part with
      | none => exact ih apart.tail
      | some value =>
        refine List.nodup_cons.2 ⟨fun repeated => ?_, ih apart.tail⟩
        obtain ⟨field, member, same⟩ := List.mem_map.1 repeated
        obtain ⟨other, listed, named⟩ := mem_written apart.tail member
        rw [same] at named
        exact apart.not_mem listed apart.head_mem named

/-- Every part is found again. -/
theorem ofFields?_written {parts : List (Option Json)} (apart : Apart names)
    (length : names.length = parts.length) :
    ofFields? names (written names parts) = some parts := by
  induction names generalizing parts with
  | nil =>
    cases parts with
    | nil => rfl
    | cons part parts => cases length
  | cons group rest ih =>
    cases parts with
    | nil => cases length
    | cons part parts =>
      have others : (written rest parts).filter (fun field => group.contains field.1) = [] := by
        rw [List.filter_eq_nil_iff]
        intro field member named
        obtain ⟨other, listed, also⟩ := mem_written apart.tail member
        exact apart.not_mem listed (List.contains_iff_mem.1 named) also
      have here : pick? (written (group :: rest) (part :: parts)) group = some part := by
        rw [pick?, written, List.filter_append, others, List.append_nil]
        cases part with
        | none => rfl
        | some value =>
          rw [Json.optionalField, List.filter_cons_of_pos (by simpa using apart.head_mem)]
          rfl
      have later : ofFields? rest (written (group :: rest) (part :: parts)) = some parts := by
        rw [written, ofFields?_append, ih apart.tail (Nat.succ.inj length)]
        intro field member other listed
        rw [eq_of_mem_optionalField member]
        exact apart.not_mem listed apart.head_mem
      rw [ofFields?] at later ⊢
      rw [List.mapM_cons, here, later]
      rfl

end Record

/-! ## Layouts -/

/-- How a value is laid out. -/
inductive Layout where
  /-- With all fields in the order in which they are held, as in a text. -/
  | held
  /-- With all fields in the order of their names, as in another value. -/
  | byName

namespace Layout

/-- The document of a value. -/
def document : Layout → Json → Document
  | .held, value => .ofJson value
  | .byName, value => .ofJson value.canonical

variable {layout : Layout}

@[simp] theorem document_string {s : String} : layout.document (.string s) = .string s := by
  cases layout <;> simp only [document, Json.canonical, Document.ofJson]

@[simp] theorem document_bool {b : Bool} : layout.document (.bool b) = .bool b := by
  cases layout <;> simp only [document, Json.canonical, Document.ofJson]

@[simp] theorem document_number {n : Number} : layout.document (.number n) = .number n := by
  cases layout <;> simp only [document, Json.canonical, Document.ofJson]

@[simp] theorem document_array {items : List Json} :
    layout.document (.array items) = .array (items.map layout.document) := by
  cases layout with
  | held =>
    rw [document, Document.ofJson, Document.ofItems_eq_map]
    rfl
  | byName =>
    rw [document, Json.canonical, Document.ofJson, Json.canonicalItems_eq_map,
      Document.ofItems_eq_map, List.map_map]
    rfl

/-- The fields of an object keep their names and come in some order. -/
theorem document_object (layout : Layout) {fields : Fields Json}
    (nodup : (fields.map Prod.fst).Nodup) :
    ∃ laidOut, layout.document (.object fields) = .object laidOut ∧
      laidOut.Perm (fields.mapValues layout.document) := by
  cases layout with
  | held =>
    refine ⟨_, by rw [document, Document.ofJson], ?_⟩
    rw [Document.ofFields_eq_map]
    exact List.Perm.refl _
  | byName =>
    refine ⟨_, by rw [document, Json.canonical, Document.ofJson], ?_⟩
    have canonical : (Json.canonicalFields fields).map Prod.fst = fields.map Prod.fst := by
      rw [Json.canonicalFields_eq_map, Fields.mapValues, List.map_map]
      rfl
    have sorted := (Fields.perm_sorted (canonical.symm ▸ nodup)).map fun field =>
      (field.1, Document.ofJson field.2)
    have composed : (Json.canonicalFields fields).map (fun field =>
        (field.1, Document.ofJson field.2)) = fields.mapValues (document .byName) := by
      rw [Json.canonicalFields_eq_map, Fields.mapValues, List.map_map]
      rfl
    rw [composed] at sorted
    rw [Document.ofFields_eq_map]
    exact sorted

/-- A record that was written has its parts. -/
theorem record?_written {names : List (List String)} {parts : List (Option Json)}
    (apart : Record.Apart names) (length : names.length = parts.length) :
    (layout.document (.object (Record.written names parts))).record? names =
      some (parts.map (Option.map layout.document)) := by
  obtain ⟨laidOut, isObject, perm⟩ := layout.document_object (Record.nodup_written apart)
  rw [isObject, Document.record?, Record.ofFields?_perm perm, Record.ofFields?_mapValues,
    Record.ofFields?_written apart length, Option.map_some]

/-- Free-form values come back in canonical form. -/
@[simp] theorem value?_document {value : Json} :
    (layout.document value).value? = some value.canonical := by
  cases layout with
  | held => exact Document.value?_ofJson value
  | byName => rw [document, Document.value?_ofJson, Json.canonical_canonical]

@[simp] theorem fields?_document {fields : Fields Json} :
    (layout.document (.object fields)).fields? = some (Json.ordered fields) := by
  rw [Document.fields?, value?_document]
  exact congrArg some rfl

@[simp] theorem document_comp_string : layout.document ∘ Json.string = Document.string :=
  funext fun _ => document_string

end Layout

/-! ## Parts -/

namespace Document

variable {α β : Type} {layout : Layout} {read : Document → Option α}

@[simp] theorem required_some {d : Document} : required read (some d) = read d := rfl

@[simp] theorem defaulting_some {default : α} {d : Document} :
    defaulting default read (some d) = read d := rfl

@[simp] theorem string?_string {s : String} : string? (.string s) = some s := rfl

@[simp] theorem bool?_bool {b : Bool} : bool? (.bool b) = some b := rfl

@[simp] theorem double?_double {x : Float} : double? (.number (.double x)) = some x := rfl

/-- A part that may be missing is found as it is read, unless it reads from `null`. -/
theorem optional_map (null : read .null = none) {write : β → Document} {kept : β → α}
    (found : ∀ b, read (write b) = some (kept b)) {part : Option β} :
    optional read (part.map write) = some (part.map kept) := by
  cases part with
  | none => rfl
  | some b =>
    rw [Option.map_some, Option.map_some, ← found b, optional.eq_def]
    split
    · next missing => cases missing
    · next isNull =>
      have read := found b
      rw [Option.some.inj isNull, null] at read
      cases read
    · next d _ same => rw [← Option.some.inj same, found]; rfl

@[simp] theorem optional_string {part : Option String} :
    optional string? (part.map .string) = some part := by
  have found : ∀ s, string? (.string s) = some (id s) := fun _ => rfl
  rw [optional_map rfl found, Option.map_id]
  rfl

theorem list?_map {write : β → Document} {kept : β → α}
    (found : ∀ b, read (write b) = some (kept b)) {items : List β} :
    list? read (.array (items.map write)) = some (items.map kept) := by
  rw [list?]
  induction items with
  | nil => rfl
  | cons item rest ih => rw [List.map_cons, List.mapM_cons, found, ih]; rfl

@[simp] theorem list?_string {texts : List String} :
    list? string? (layout.document (Json.ofStrings texts)) = some texts := by
  have found : ∀ s, string? (.string s) = some (id s) := fun _ => rfl
  rw [Json.ofStrings, Layout.document_array, List.map_map, Layout.document_comp_string,
    list?_map found, List.map_id]

@[simp] theorem idSet?_ofStrings {ids : IdSet} :
    idSet? (layout.document (Json.ofStrings ids.toList)) = some ids := by
  rw [idSet?, list?_string, Option.map_some]
  exact congrArg some (IdSet.ext fun id => by rw [IdSet.mem_ofList, IdSet.mem_toList])

private theorem map_eq_of_mapM {ds : List Document} {items : List α} {f : α → α}
    (fixed : ∀ d a, read d = some a → f a = a) (h : ds.mapM read = some items) :
    items.map f = items := by
  induction ds generalizing items with
  | nil => cases h; rfl
  | cons d rest ih =>
    rw [List.mapM_cons] at h
    simp only [Option.pure_def, Option.bind_eq_bind, Option.bind_eq_some_iff,
      Option.some.injEq] at h
    obtain ⟨a, one, others, more, rfl⟩ := h
    rw [List.map_cons, fixed d a one, ih more]

/-- What leaves everything alone that is read leaves the items of a list alone. -/
theorem map_eq_of_list? {d : Document} {items : List α} {f : α → α}
    (fixed : ∀ d a, read d = some a → f a = a) (h : list? read d = some items) :
    items.map f = items := by
  rw [list?.eq_def] at h
  split at h
  · exact map_eq_of_mapM fixed h
  · cases h

theorem map_eq_of_defaulting_list? {field : Option Document} {items : List α} {f : α → α}
    (fixed : ∀ d a, read d = some a → f a = a)
    (h : defaulting [] (list? read) field = some items) : items.map f = items := by
  cases field with
  | none => cases h; rfl
  | some d => exact map_eq_of_list? fixed h

end Document

end Clickstream
