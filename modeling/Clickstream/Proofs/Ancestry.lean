import Mathlib.Data.List.Chain
import Mathlib.Data.List.Nodup
import Mathlib.Data.List.Perm.Subperm
import Mathlib.Logic.Relation
import Clickstream.Proofs.Tables
import Clickstream.Taxonomy

/-! # The forest of tags

Whatever parents tags declare, missing ones, empty ones and circles among them, the links in effect
after a rebuild are the declared ones to registered tags, but for the smallest id of every circle.
They make a forest: no tag is above itself.
-/

namespace Clickstream.Taxonomy

open Relation

/-! ## What the links should be -/

/-- A tag declares a parent that is registered. -/
def Declares (tags : Table Tag) (child parent : String) : Prop :=
  ∃ t, tags.get? child = some t ∧ t.parent? = some parent ∧ tags.contains parent = true

/-- The smallest id of a circle of declared parents. -/
structure IsVictim (tags : Table Tag) (id : String) : Prop where
  around : TransGen (Declares tags) id id
  least : ∀ other, TransGen (Declares tags) id other → id ≤ other

/-- The parent of a tag in effect: the declared one, unless it is unknown or the tag the victim of a
circle. -/
def Parent (tags : Table Tag) (child parent : String) : Prop :=
  Declares tags child parent ∧ ¬ IsVictim tags child

/-- A tag is listed among the children of another. -/
def IsSubTag (taxonomy : Taxonomy) (child parent : String) : Prop :=
  ∃ t ∈ taxonomy.subTags parent, t.id = child

/-! ## Walks -/

/-- A step leads from one id to another. -/
def Leads (step : String → Option String) (a b : String) : Prop := step a = some b

/-- Ids that lead from each to each and to no other. -/
structure IsCircle (step : String → Option String) (ids : List String) : Prop where
  nonempty : ids ≠ []
  connected : ∀ a ∈ ids, ∀ b ∈ ids, TransGen (Leads step) a b
  closed : ∀ a ∈ ids, ∀ b, Leads step a b → b ∈ ids

section

variable {step : String → Option String} {id other : String} {path circle : List String}

theorem Leads.unique {a b c : String} (first : Leads step a b) (second : Leads step a c) : b = c :=
  Option.some.inj (first.symm.trans second)

theorem rightUnique_leads : Relator.RightUnique (Leads step) :=
  fun _ _ _ first second => first.unique second

/-- On a chain every id but the last is followed by one on the chain. -/
private theorem exists_next {l : List String} {last a : String}
    (chain : (l ++ [last]).IsChain (Leads step)) (member : a ∈ l) :
    ∃ b, Leads step a b ∧ (b ∈ l ∨ b = last) := by
  induction l with
  | nil => cases member
  | cons head rest ih =>
    rcases List.mem_cons.1 member with rfl | member
    · cases rest with
      | nil => exact ⟨last, List.IsChain.rel chain, .inr rfl⟩
      | cons second rest => exact ⟨second, List.IsChain.rel chain, .inl (by simp)⟩
    · obtain ⟨b, leads, place⟩ := ih chain.tail member
      exact ⟨b, leads, place.imp_left (List.mem_cons_of_mem _)⟩

/-- A walk that comes back to an id has gone round since it was there. -/
theorem exists_round (walked : (path ++ [id]).IsChain (Leads step)) (member : id ∈ path) :
    ∃ rest, path.dropWhile (· ≠ id) = id :: rest ∧
      (id :: (rest ++ [id])).IsChain (Leads step) := by
  obtain ⟨before, after, rfl, first⟩ := List.eq_append_cons_of_mem member
  refine ⟨after, ?_, ?_⟩
  · rw [List.dropWhile_append_of_pos fun a inside => by
      simpa using fun same : a = id => first (same ▸ inside)]
    simp
  · rw [List.append_assoc] at walked
    exact walked.right_of_append

/-- A walk goes on along a link. -/
theorem isChain_step {parent : String} (walked : (path ++ [id]).IsChain (Leads step))
    (leads : step id = some parent) : ((path ++ [id]) ++ [parent]).IsChain (Leads step) := by
  refine List.IsChain.append walked (.singleton _) ?_
  intro a isLast b isFirst
  simp only [List.getLast?_concat, Option.mem_some_iff, List.head?_cons] at isLast isFirst
  exact isLast ▸ isFirst ▸ leads

/-- A round is a circle. -/
theorem isCircle_of_round {rest : List String}
    (round : (id :: (rest ++ [id])).IsChain (Leads step)) : IsCircle step (id :: rest) := by
  have later : ((id :: rest) ++ [id]).Pairwise (TransGen (Leads step)) :=
    (List.IsChain.imp (fun _ _ leads => TransGen.single leads) round).pairwise
  obtain ⟨onward, -, back⟩ := List.pairwise_append.1 later
  refine ⟨List.cons_ne_nil _ _, fun a inA b inB => ?_, fun a inA b leads => ?_⟩
  · have toId : TransGen (Leads step) a id := back a inA id (List.mem_singleton_self id)
    rcases List.mem_cons.1 inB with rfl | inB
    · exact toId
    · exact toId.trans ((List.pairwise_cons.1 onward).1 b inB)
  · obtain ⟨c, next, place⟩ := exists_next (l := id :: rest) round inA
    obtain rfl := leads.unique next
    rcases place with inside | rfl
    · exact inside
    · exact List.mem_cons_self

theorem isCircle_of_circleFrom {steps : Nat} (walked : (path ++ [id]).IsChain (Leads step))
    (h : circleFrom step steps path id = some circle) : IsCircle step circle := by
  induction steps generalizing path id with
  | zero => cases h
  | succ steps ih =>
    rw [circleFrom] at h
    split at h
    · next member =>
      cases h
      obtain ⟨rest, dropped, round⟩ := exists_round walked member
      exact dropped ▸ isCircle_of_round round
    · split at h
      · cases h
      · next parent leads => exact ih (isChain_step walked leads) h

theorem reached_of_circleFrom {steps : Nat} {start : String}
    (walked : ∀ a ∈ path, ReflTransGen (Leads step) start a)
    (here : ReflTransGen (Leads step) start id)
    (h : circleFrom step steps path id = some circle) :
    ∀ a ∈ circle, ReflTransGen (Leads step) start a := by
  induction steps generalizing path id with
  | zero => cases h
  | succ steps ih =>
    rw [circleFrom] at h
    split at h
    · cases h
      exact fun a member => walked a ((List.dropWhile_sublist _).subset member)
    · split at h
      · cases h
      · next parent leads =>
        refine ih (fun a member => ?_) (here.tail leads) h
        rcases List.mem_append.1 member with before | single
        · exact walked a before
        · exact List.mem_singleton.1 single ▸ here

/-- A walk that never ends, over ids of which there are less than steps, finds a circle. -/
theorem exists_circleFrom (ids : List String) (onWay : String → Prop) {steps : Nat}
    (goesOn : ∀ a, onWay a → a ∈ ids ∧ ∃ b, Leads step a b ∧ onWay b)
    (fresh : path.Nodup) (inIds : path ⊆ ids) (enough : ids.length < path.length + steps)
    (here : onWay id) : ∃ circle, circleFrom step steps path id = some circle := by
  induction steps generalizing path id with
  | zero =>
    -- More different ids were passed than there are.
    have := (fresh.subperm inIds).length_le
    omega
  | succ steps ih =>
    obtain ⟨listed, next, leads, onward⟩ := goesOn id here
    rw [circleFrom]
    split
    · exact ⟨_, rfl⟩
    · next new =>
      rw [show step id = some next from leads]
      refine ih ?_ ?_ ?_ onward
      · rw [← List.concat_eq_append]
        exact List.Nodup.concat new fresh
      · exact List.append_subset.2 ⟨inIds, by simpa using listed⟩
      · rw [List.length_append, List.length_singleton]
        omega

end

/-- Where every id leads to one at most, one that is met from a circle lies on it, also if the circle
needs fewer links than there are. -/
theorem returns {α : Type} {all some : α → α → Prop} {x y : α}
    (unique : Relator.RightUnique all) (fewer : ∀ a b, some a b → all a b)
    (around : TransGen some x x) (met : ReflTransGen all x y) : TransGen some y x := by
  induction met with
  | refl => exact around
  | tail _ leads ih =>
    obtain ⟨next, first, rest⟩ := TransGen.head'_iff.1 ih
    obtain rfl := unique leads (fewer _ _ first)
    exact TransGen.trans_right rest around

/-! ## Opening circles -/

variable {tags : Table Tag} {detached : IdSet} {id child parent : String}

theorem link_eq_some :
    link tags detached child = some parent ↔ child ∉ detached ∧ Declares tags child parent := by
  rw [link, Declares]
  split
  · next cut => simp [IdSet.contains_iff.1 cut]
  · next kept =>
    rw [Option.filter_eq_some_iff, Option.bind_eq_some_iff]
    simp only [IdSet.contains_iff] at kept
    grind

theorem Declares.unique {a b c : String} (first : Declares tags a b) (second : Declares tags a c) :
    b = c := by
  obtain ⟨t, found, isParent, -⟩ := first
  obtain ⟨t', found', isParent', -⟩ := second
  obtain rfl := Option.some.inj (found.symm.trans found')
  exact Option.some.inj (isParent.symm.trans isParent')

theorem rightUnique_declares : Relator.RightUnique (Declares tags) :=
  fun _ _ _ first second => first.unique second

theorem Declares.mem_keys {a b : String} (h : Declares tags a b) : a ∈ tags.keys := by
  obtain ⟨t, found, -⟩ := h
  exact Table.mem_keys.2 (Table.contains_iff.2 ⟨t, found⟩)

theorem declares_of_leads {a b : String} (h : Leads (link tags detached) a b) : Declares tags a b :=
  (link_eq_some.1 h).2

/-- Cutting more links adds none. -/
theorem leads_of_subset {more : IdSet} (subset : ∀ id ∈ detached, id ∈ more) {a b : String}
    (h : Leads (link tags more) a b) : Leads (link tags detached) a b := by
  obtain ⟨kept, declared⟩ := link_eq_some.1 h
  exact link_eq_some.2 ⟨fun cut => kept (subset a cut), declared⟩

theorem least?_eq_some {ids : List String} {least : String} (h : least? ids = some least) :
    least ∈ ids ∧ ∀ other ∈ ids, least ≤ other := by
  obtain ⟨rest, isList⟩ : ∃ rest, (IdSet.ofList ids).toList = least :: rest := by
    rw [least?] at h
    exact List.head?_eq_some_iff.1 h
  have order := isList ▸ (IdSet.ofList ids).ascending
  refine ⟨IdSet.mem_ofList.1 (IdSet.mem_toList.1 (by rw [isList]; exact List.mem_cons_self)), ?_⟩
  intro other member
  have inside : other ∈ least :: rest := isList ▸ IdSet.mem_toList.2 (IdSet.mem_ofList.2 member)
  rcases List.mem_cons.1 inside with rfl | inside
  · exact String.le_refl _
  · exact String.not_lt.1 (String.lt_asymm ((List.pairwise_cons.1 order).1 other inside))

theorem exists_least? {ids : List String} (h : ids ≠ []) : ∃ least, least? ids = some least := by
  obtain ⟨id, member⟩ := List.exists_mem_of_ne_nil ids h
  have inside : id ∈ (IdSet.ofList ids).toList := IdSet.mem_toList.2 (IdSet.mem_ofList.2 member)
  rw [least?, ← Option.isSome_iff_exists, List.isSome_head?]
  exact List.ne_nil_of_mem inside

/-- The smallest id of a circle that is found is a victim, whatever was cut before. -/
theorem isVictim_of_isCircle {circle : List String} {victim : String}
    (h : IsCircle (link tags detached) circle) (isLeast : least? circle = some victim) :
    IsVictim tags victim := by
  obtain ⟨member, least⟩ := least?_eq_some isLeast
  have fewer : Leads (link tags detached) ≤ Declares tags := fun _ _ => declares_of_leads
  have around := TransGen.mono fewer _ _ (h.connected victim member victim member)
  refine ⟨around, fun other reached => least other ?_⟩
  -- What the victim leads to by declared links it leads to on the circle.
  induction reached with
  | single leads =>
    obtain ⟨next, first, -⟩ := TransGen.head'_iff.1 (h.connected victim member victim member)
    obtain rfl := leads.unique (declares_of_leads first)
    exact h.closed _ member _ first
  | tail _ leads ih =>
    obtain ⟨next, first, -⟩ := TransGen.head'_iff.1 (h.connected _ ih _ ih)
    obtain rfl := leads.unique (declares_of_leads first)
    exact h.closed _ ih _ first

/-- A walk that finds a circle has its victim cut off. -/
theorem openCircle_of_circleFrom {acc : IdSet × List (List String)} {circle : List String}
    (found : circleFrom (link tags acc.1) (tags.size + 1) [] id = some circle) :
    IsCircle (link tags acc.1) circle ∧ ∃ victim, least? circle = some victim ∧
      (openCircle tags acc id).1 = acc.1.insert victim := by
  have isCircle : IsCircle (link tags acc.1) circle := isCircle_of_circleFrom (.singleton id) found
  obtain ⟨victim, isLeast⟩ := exists_least? isCircle.nonempty
  refine ⟨isCircle, victim, isLeast, ?_⟩
  simp only [openCircle, found, isLeast]

/-- A walk that ends changes nothing. -/
theorem openCircle_of_none {acc : IdSet × List (List String)}
    (ends : circleFrom (link tags acc.1) (tags.size + 1) [] id = none) :
    openCircle tags acc id = acc := by
  simp only [openCircle, ends]

theorem subset_openCircle {acc : IdSet × List (List String)} {cut : String} (h : cut ∈ acc.1) :
    cut ∈ (openCircle tags acc id).1 := by
  cases found : circleFrom (link tags acc.1) (tags.size + 1) [] id with
  | none => rw [openCircle_of_none found]; exact h
  | some circle =>
    obtain ⟨-, victim, -, same⟩ := openCircle_of_circleFrom found
    exact same ▸ IdSet.mem_insert.2 (.inr h)

theorem subset_openCircles {ids : List String} {acc : IdSet × List (List String)} {cut : String}
    (h : cut ∈ acc.1) : cut ∈ (ids.foldl (openCircle tags) acc).1 := by
  induction ids generalizing acc with
  | nil => exact h
  | cons id rest ih => exact ih (subset_openCircle h)

/-- Only victims are cut off. -/
theorem isVictim_of_mem_openCircles (h : id ∈ (openCircles tags).1) : IsVictim tags id := by
  have all : ∀ (ids : List String) (acc : IdSet × List (List String)),
      (∀ cut ∈ acc.1, IsVictim tags cut) →
      ∀ cut ∈ (ids.foldl (openCircle tags) acc).1, IsVictim tags cut := by
    intro ids
    induction ids with
    | nil => exact fun _ victims => victims
    | cons start rest ih =>
      intro acc victims
      refine ih _ fun cut member => ?_
      cases found : circleFrom (link tags acc.1) (tags.size + 1) [] start with
      | none => exact victims cut (openCircle_of_none found ▸ member)
      | some circle =>
        obtain ⟨isCircle, victim, isLeast, same⟩ := openCircle_of_circleFrom found
        rcases IdSet.mem_insert.1 (same ▸ member) with rfl | member
        · exact isVictim_of_isCircle isCircle isLeast
        · exact victims cut member
  exact all tags.keys (IdSet.empty, []) (fun _ none => absurd none IdSet.not_mem_empty) id h

/-- A walk over tags has more steps than there are tags. -/
theorem keys_length_lt : tags.keys.length < ([] : List String).length + (tags.size + 1) := by
  simp only [Table.keys, Table.size, List.length_map, List.length_nil]
  omega

/-- From a tag on a circle the walk finds a circle. -/
theorem exists_circleFrom_of_around (around : TransGen (Leads (link tags detached)) id id) :
    ∃ circle, circleFrom (link tags detached) (tags.size + 1) [] id = some circle := by
  refine exists_circleFrom tags.keys (ReflTransGen (Leads (link tags detached)) id)
    (fun a reached => ?_) List.nodup_nil (List.nil_subset _) keys_length_lt .refl
  have back := returns rightUnique_leads (fun _ _ same => same) around reached
  obtain ⟨next, first, -⟩ := TransGen.head'_iff.1 back
  exact ⟨(declares_of_leads first).mem_keys, next, first, reached.tail first⟩

/-- No circle is left when the walk from every tag has been taken. -/
theorem not_around_openCircles :
    ¬ TransGen (Leads (link tags (openCircles tags).1)) id id := by
  have none : ∀ (ids : List String) (acc : IdSet × List (List String)), id ∈ ids →
      ¬ TransGen (Leads (link tags (ids.foldl (openCircle tags) acc).1)) id id := by
    intro ids
    induction ids with
    | nil => exact fun _ member => absurd member List.not_mem_nil
    | cons start rest ih =>
      intro acc member around
      rcases List.mem_cons.1 member with rfl | later
      -- The circle that is left was there when the walk from this id was taken, so the walk found it
      -- and its victim was cut off; but on a circle nothing is cut off.
      · have fewer : ∀ a b, Leads (link tags ((id :: rest).foldl (openCircle tags) acc).1) a b →
            Leads (link tags acc.1) a b :=
          fun _ _ => leads_of_subset fun cut inside => subset_openCircles inside
        have before : TransGen (Leads (link tags acc.1)) id id := TransGen.mono fewer _ _ around
        obtain ⟨circle, found⟩ := exists_circleFrom_of_around before
        obtain ⟨-, victim, isLeast, same⟩ := openCircle_of_circleFrom found
        have met := reached_of_circleFrom (by simp) .refl found victim (least?_eq_some isLeast).1
        have back := returns rightUnique_leads fewer around met
        obtain ⟨next, first, -⟩ := TransGen.head'_iff.1 back
        have cut : victim ∈ (rest.foldl (openCircle tags) (openCircle tags acc id)).1 :=
          subset_openCircles (same ▸ IdSet.mem_insert.2 (.inl rfl))
        exact (link_eq_some.1 first).1 cut
      · exact ih _ later around
  intro around
  obtain ⟨next, first, -⟩ := TransGen.head'_iff.1 around
  exact none tags.keys _ (declares_of_leads first).mem_keys around

/-- Exactly the victims are cut off. -/
theorem mem_openCircles : id ∈ (openCircles tags).1 ↔ IsVictim tags id := by
  refine ⟨isVictim_of_mem_openCircles, fun victim => ?_⟩
  by_contra kept
  -- Some tag of the victim's circle was cut off, or the circle would be left.
  have opened : ∃ cut, ReflTransGen (Declares tags) id cut ∧ cut ∈ (openCircles tags).1 := by
    by_contra whole
    push Not at whole
    have links : ∀ {a : String}, TransGen (Declares tags) id a →
        TransGen (Leads (link tags (openCircles tags).1)) id a := by
      intro a reached
      induction reached with
      | single leads => exact .single (link_eq_some.2 ⟨whole id .refl, leads⟩)
      | tail before leads ih =>
        exact ih.tail (link_eq_some.2 ⟨whole _ before.to_reflTransGen, leads⟩)
    exact not_around_openCircles (links victim.around)
  obtain ⟨cut, reached, isCut⟩ := opened
  -- Either is the least on the same circle.
  have back := returns rightUnique_declares (fun _ _ same => same) victim.around reached
  have forth := TransGen.trans_left victim.around reached
  have same : id = cut := String.le_antisymm (victim.least cut forth)
    ((isVictim_of_mem_openCircles isCut).least id back)
  exact kept (same ▸ isCut)

theorem link_openCircles : link tags (openCircles tags).1 child = some parent ↔
    Parent tags child parent := by
  rw [link_eq_some, Parent, mem_openCircles, and_comm]

/-! ## The forest -/

theorem Parent.unique {a b c : String} (first : Parent tags a b) (second : Parent tags a c) :
    b = c :=
  first.1.unique second.1

/-- No tag is above itself. -/
theorem not_parent_around : ¬ TransGen (Parent tags) id id := by
  have same : Parent tags = Leads (link tags (openCircles tags).1) := by
    funext a b
    exact propext link_openCircles.symm
  exact same ▸ not_around_openCircles

theorem Parent.contains {a b : String} (h : Parent tags a b) :
    tags.contains a = true ∧ tags.contains b = true := by
  obtain ⟨⟨t, found, -, registered⟩, -⟩ := h
  exact ⟨Table.contains_iff.2 ⟨t, found⟩, registered⟩

/-- A tag whose chain leads to a registered one, or from one, is registered. -/
theorem contains_of_reached {a b : String} (h : ReflTransGen (Parent tags) a b) :
    tags.contains a = true ↔ tags.contains b = true := by
  induction h with
  | refl => rfl
  | tail _ leads ih => simp only [ih, leads.contains.1, leads.contains.2]

theorem get?_addChild {children : Table IdSet} {key : String} :
    ((addChild children parent id).get? key).getD .empty =
      if key = parent then ((children.get? key).getD .empty).insert id
      else (children.get? key).getD .empty := by
  rw [addChild, Table.get?_insert]
  split
  · next same => subst same; rfl
  · rfl

/-- What a walk over tags notes of the children of a tag. -/
private theorem mem_foldl_addChild {ids : List String} {parentOf : String → Option String}
    {children : Table IdSet} :
    child ∈ ((ids.foldl (fun acc id => match parentOf id with
      | some parent => addChild acc parent id
      | none => acc) children).get? parent).getD .empty ↔
    child ∈ ids ∧ parentOf child = some parent ∨ child ∈ (children.get? parent).getD .empty := by
  induction ids generalizing children with
  | nil => simp
  | cons head rest ih =>
    rw [List.foldl_cons, ih]
    cases leads : parentOf head with
    | none => simp only [List.mem_cons]; grind
    | some above =>
      simp only [get?_addChild, List.mem_cons]
      split
      · next same => subst same; rw [IdSet.mem_insert]; grind
      · grind

theorem mem_childIds :
    child ∈ (({ tags } : Taxonomy).rebuild).1.childIds parent ↔ Parent tags child parent := by
  have noted := @mem_foldl_addChild child parent tags.keys (link tags (openCircles tags).1) .empty
  rw [Table.get?_empty, Option.getD_none, link_openCircles] at noted
  refine (IdSet.mem_toList.trans noted).trans ⟨fun h => ?_, fun leads => ?_⟩
  · exact (h.resolve_right IdSet.not_mem_empty).2
  · exact .inl ⟨leads.1.mem_keys, leads⟩

theorem isSubTag_iff (keyed : ∀ key t, tags.get? key = some t → t.id = key) :
    (({ tags } : Taxonomy).rebuild).1.IsSubTag child parent ↔ Parent tags child parent := by
  have same : (({ tags } : Taxonomy).rebuild).1.tags = tags := rfl
  simp only [IsSubTag, subTags, ordered, List.mem_mergeSort, List.mem_filterMap, mem_childIds,
    get?, same]
  constructor
  · rintro ⟨t, ⟨key, leads, found⟩, rfl⟩
    exact keyed key t found ▸ leads
  · intro leads
    obtain ⟨t, found, -⟩ := leads.1
    exact ⟨t, ⟨child, leads, found⟩, keyed child t found⟩

end Clickstream.Taxonomy
