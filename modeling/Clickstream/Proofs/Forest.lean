import Mathlib.Data.List.Cycle
import Clickstream.Proofs.Ancestry
import Clickstream.Proofs.Indexing

/-! # Rebuilding the forest

A rebuild walks from every tag along the links, cuts a circle that it runs into and walks again,
with no bound on how often. That ends: the circle that one walk finds is the only one that its tag
leads into, so the second walk from a tag always comes to a root. What is reported are the circles
of declared parents, one for each victim and each once, and what is left is a forest of all tags.
-/

namespace Clickstream.Taxonomy

open Relation

/-! ## Circles in parent order -/

/-- Different tags, each of which declares the next one as its parent, and the last one the first. -/
structure IsCircuit (tags : Table Tag) (circle : Cycle String) : Prop where
  nonempty : circle ≠ Cycle.nil
  nodup : circle.Nodup
  chain : circle.Chain (Declares tags)

/-- Ids that differ, of which each leads to the next one and the last to the first. -/
structure Rounds (step : String → Option String) (ids : List String) : Prop where
  nodup : ids.Nodup
  round : ∃ first rest, ids = first :: rest ∧ (first :: (rest ++ [first])).IsChain (Leads step)

section

variable {step : String → Option String} {id other : String} {path circle : List String}

theorem rounds_of_circleFrom {steps : Nat} (fresh : path.Nodup)
    (walked : (path ++ [id]).IsChain (Leads step))
    (h : circleFrom step steps path id = some circle) : Rounds step circle := by
  induction steps generalizing path id with
  | zero => cases h
  | succ steps ih =>
    rw [circleFrom] at h
    split at h
    · next member =>
      cases h
      obtain ⟨rest, dropped, round⟩ := exists_round walked member
      exact ⟨fresh.sublist (List.dropWhile_sublist _), id, rest, dropped, round⟩
    · next new =>
      split at h
      · cases h
      · next parent leads =>
        refine ih ?_ (isChain_step walked leads) h
        rw [← List.concat_eq_append]
        exact List.Nodup.concat new fresh

theorem Rounds.isCircle (h : Rounds step circle) : IsCircle step circle := by
  obtain ⟨first, rest, rfl, round⟩ := h.round
  exact isCircle_of_round round

theorem IsCircle.mem_of_reached (h : IsCircle step circle) (member : id ∈ circle)
    (reached : ReflTransGen (Leads step) id other) : other ∈ circle := by
  induction reached with
  | refl => exact member
  | tail _ leads ih => exact h.closed _ ih _ leads

end

variable {tags : Table Tag} {detached : IdSet} {id : String} {ids : List String}
  {circle circle' : Cycle String}

/-- With nothing cut off the links are the declared ones. -/
theorem leads_empty : Leads (link tags .empty) = Declares tags := by
  funext a b
  rw [Leads, link_eq_some]
  simp

theorem Rounds.isCircuit (h : Rounds (link tags detached) ids) : IsCircuit tags ids := by
  obtain ⟨first, rest, rfl, round⟩ := h.round
  refine ⟨?_, Cycle.nodup_coe_iff.2 h.nodup, ?_⟩
  · rw [Ne, Cycle.coe_eq_nil]
    exact List.cons_ne_nil _ _
  · exact (Cycle.chain_coe_cons _ _ _).2 (round.imp fun _ _ => declares_of_leads)

namespace IsCircuit

/-- A circle can be listed from any tag on it. -/
theorem exists_cons (h : IsCircuit tags circle) (member : id ∈ circle) :
    ∃ rest, circle = (id :: rest : List String) ∧ id ∉ rest ∧
      (id :: (rest ++ [id])).IsChain (Declares tags) := by
  induction circle using Quotient.inductionOn' with
  | h ids =>
    obtain ⟨before, after, rfl⟩ := List.append_of_mem (Cycle.mem_coe_iff.1 member)
    have same : ((before ++ id :: after : List String) : Cycle String) =
        (id :: (after ++ before) : List String) :=
      Cycle.coe_eq_coe.2 List.isRotated_append
    change IsCircuit tags ((before ++ id :: after : List String) : Cycle String) at h
    rw [same] at h
    exact ⟨after ++ before, same, (List.nodup_cons.1 (Cycle.nodup_coe_iff.1 h.nodup)).1,
      (Cycle.chain_coe_cons _ _ _).1 h.chain⟩

/-- From one tag there is one way round. -/
private theorem rest_unique {first last : String} {rest rest' : List String}
    (round : (first :: (rest ++ [last])).IsChain (Declares tags))
    (round' : (first :: (rest' ++ [last])).IsChain (Declares tags))
    (fresh : last ∉ rest) (fresh' : last ∉ rest') : rest = rest' := by
  induction rest generalizing first rest' with
  | nil =>
    cases rest' with
    | nil => rfl
    | cons next rest' =>
      obtain rfl := (List.IsChain.rel round).unique (List.IsChain.rel round')
      exact absurd List.mem_cons_self fresh'
  | cons next rest ih =>
    cases rest' with
    | nil =>
      obtain rfl := (List.IsChain.rel round).unique (List.IsChain.rel round')
      exact absurd List.mem_cons_self fresh
    | cons next' rest' =>
      obtain rfl := (List.IsChain.rel round).unique (List.IsChain.rel round')
      rw [ih round.tail round'.tail (fun later => fresh (List.mem_cons_of_mem _ later))
        fun later => fresh' (List.mem_cons_of_mem _ later)]

/-- A tag is on one circle at most. -/
theorem unique (h : IsCircuit tags circle) (h' : IsCircuit tags circle') (member : id ∈ circle)
    (member' : id ∈ circle') : circle = circle' := by
  obtain ⟨rest, rfl, fresh, round⟩ := h.exists_cons member
  obtain ⟨rest', rfl, fresh', round'⟩ := h'.exists_cons member'
  rw [rest_unique round round' fresh fresh']

/-- The tags that one on a circle leads to are those on the circle. -/
theorem mem_iff (h : IsCircuit tags circle) (member : id ∈ circle) {other : String} :
    other ∈ circle ↔ TransGen (Declares tags) id other := by
  obtain ⟨rest, rfl, -, round⟩ := h.exists_cons member
  have isCircle : IsCircle (link tags .empty) (id :: rest) :=
    isCircle_of_round (leads_empty ▸ round)
  rw [Cycle.mem_coe_iff, ← leads_empty]
  refine ⟨isCircle.connected id List.mem_cons_self other, fun reached => ?_⟩
  exact isCircle.mem_of_reached List.mem_cons_self reached.to_reflTransGen

end IsCircuit

/-- A tag that is above itself is on a circle. -/
theorem exists_isCircuit (around : TransGen (Declares tags) id id) :
    ∃ circle, IsCircuit tags circle ∧ id ∈ circle := by
  rw [← leads_empty] at around
  obtain ⟨circle, found⟩ := exists_circleFrom_of_around around
  have rounds := rounds_of_circleFrom List.nodup_nil (.singleton id) found
  obtain ⟨first, rest, isList, -⟩ := rounds.round
  have member : first ∈ circle := isList ▸ List.mem_cons_self
  have met := reached_of_circleFrom (by simp) .refl found first member
  have back := returns rightUnique_leads (fun _ _ same => same) around met
  exact ⟨circle, rounds.isCircuit, Cycle.mem_coe_iff.2
    (rounds.isCircle.mem_of_reached member back.to_reflTransGen)⟩

/-- The victims are the smallest ids of the circles. -/
theorem isVictim_iff : IsVictim tags id ↔
    ∃ circle, IsCircuit tags circle ∧ id ∈ circle ∧ ∀ other ∈ circle, id ≤ other := by
  constructor
  · intro victim
    obtain ⟨circle, isCircuit, member⟩ := exists_isCircuit victim.around
    exact ⟨circle, isCircuit, member,
      fun other inside => victim.least other ((isCircuit.mem_iff member).1 inside)⟩
  · rintro ⟨circle, isCircuit, member, least⟩
    exact ⟨(isCircuit.mem_iff member).1 member,
      fun other reached => least other ((isCircuit.mem_iff member).2 reached)⟩

/-! ## Walking on until nothing is left to cut -/

/-- How a walk along links ends: on the circle that it runs into, or at an id that leads nowhere. -/
inductive Walks (step : String → Option String) :
    List String → String → Option (List String) → Prop where
  | returns {path : List String} {id : String} : id ∈ path →
      Walks step path id (some (path.dropWhile (· ≠ id)))
  | ends {path : List String} {id : String} : id ∉ path → step id = none → Walks step path id none
  | goes {path : List String} {id parent : String} {found : Option (List String)} : id ∉ path →
      step id = some parent → Walks step (path ++ [id]) parent found → Walks step path id found

/-- Cut off the smallest id of a circle and list the circle. -/
def cutCircle (acc : IdSet × List (List String)) (circle : List String) :
    IdSet × List (List String) :=
  (match least? circle with
    | some victim => acc.1.insert victim
    | none => acc.1, acc.2 ++ [circle])

/-- Walk from a tag and cut the circle that it leads into, until it leads into none. -/
inductive Reopens (tags : Table Tag) (id : String) :
    IdSet × List (List String) → IdSet × List (List String) → Prop where
  | ends {acc : IdSet × List (List String)} : Walks (link tags acc.1) [] id none →
      Reopens tags id acc acc
  | cuts {acc acc' : IdSet × List (List String)} {circle : List String} :
      Walks (link tags acc.1) [] id (some circle) → Reopens tags id (cutCircle acc circle) acc' →
      Reopens tags id acc acc'

/-- Do so from one tag after the other. -/
inductive ReopensAll (tags : Table Tag) :
    List String → IdSet × List (List String) → IdSet × List (List String) → Prop where
  | nil {acc : IdSet × List (List String)} : ReopensAll tags [] acc acc
  | cons {id : String} {ids : List String} {acc between acc' : IdSet × List (List String)} :
      Reopens tags id acc between → ReopensAll tags ids between acc' →
      ReopensAll tags (id :: ids) acc acc'

section

variable {step : String → Option String} {path : List String} {parent : String}
  {found : Option (List String)}

theorem walks_of_mem (member : id ∈ path) :
    Walks step path id found ↔ some (path.dropWhile (· ≠ id)) = found := by
  constructor
  · rintro (_ | ⟨new, -⟩ | ⟨new, -, -⟩)
    · rfl
    · exact absurd member new
    · exact absurd member new
  · rintro rfl
    exact .returns member

theorem walks_of_none (new : id ∉ path) (leads : step id = none) :
    Walks step path id found ↔ none = found := by
  constructor
  · rintro (member | _ | ⟨-, leads', -⟩)
    · exact absurd member new
    · rfl
    · rw [leads] at leads'
      cases leads'
  · rintro rfl
    exact .ends new leads

theorem walks_of_some (new : id ∉ path) (leads : step id = some parent) :
    Walks step path id found ↔ Walks step (path ++ [id]) parent found := by
  refine ⟨?_, .goes new leads⟩
  rintro (member | ⟨-, leads'⟩ | ⟨-, leads', walks⟩)
  · exact absurd member new
  · rw [leads] at leads'
    cases leads'
  · rw [leads] at leads'
    cases leads'
    exact walks

/-- A walk over ids of which there are less than steps is over before the steps are. -/
theorem walks_iff (listed : List String) {steps : Nat}
    (goesOn : ∀ a b, Leads step a b → a ∈ listed) (fresh : path.Nodup) (passed : path ⊆ listed)
    (enough : listed.length < path.length + steps) :
    Walks step path id found ↔ circleFrom step steps path id = found := by
  induction steps generalizing path id with
  | zero =>
    -- More different ids were passed than there are.
    have := (fresh.subperm passed).length_le
    omega
  | succ steps ih =>
    rw [circleFrom]
    split
    · next member => exact walks_of_mem member
    · next new =>
      split
      · next leads => exact walks_of_none new leads
      · next parent leads =>
        refine (walks_of_some new leads).trans (ih ?_ ?_ ?_)
        · rw [← List.concat_eq_append]
          exact List.Nodup.concat new fresh
        · exact List.append_subset.2 ⟨passed, by simpa using goesOn id parent leads⟩
        · rw [List.length_append, List.length_singleton]
          omega

end

variable {acc acc' : IdSet × List (List String)}

theorem walks_link_iff {found : Option (List String)} :
    Walks (link tags detached) [] id found ↔
      circleFrom (link tags detached) (tags.size + 1) [] id = found := by
  refine walks_iff tags.keys (fun _ _ leads => (declares_of_leads leads).mem_keys) List.nodup_nil
    (List.nil_subset _) keys_length_lt

theorem openCircle_of_some {ids : List String}
    (found : circleFrom (link tags acc.1) (tags.size + 1) [] id = some ids) :
    openCircle tags acc id = cutCircle acc ids := by
  rw [openCircle, found]
  rfl

/-- A tag leads into one circle at most: once that is cut, the walk ends. -/
theorem circleFrom_cutCircle {ids : List String}
    (found : circleFrom (link tags acc.1) (tags.size + 1) [] id = some ids) :
    circleFrom (link tags (cutCircle acc ids).1) (tags.size + 1) [] id = none := by
  obtain ⟨isCircle, victim, isLeast, cut⟩ := openCircle_of_circleFrom found
  rw [← openCircle_of_some found, cut]
  have fewer : ∀ a b, Leads (link tags (acc.1.insert victim)) a b → Leads (link tags acc.1) a b :=
    fun _ _ => leads_of_subset fun _ inside => IdSet.mem_insert.2 (.inr inside)
  by_contra again
  obtain ⟨ids', found'⟩ := Option.ne_none_iff_exists'.1 again
  have isCircle' := isCircle_of_circleFrom (.singleton id) found'
  obtain ⟨other, member'⟩ := List.exists_mem_of_ne_nil ids' isCircle'.nonempty
  have around := isCircle'.connected other member' other member'
  -- Whichever of the two circles is met first, the other one leads to the victim.
  have member := (least?_eq_some isLeast).1
  have toVictim : ReflTransGen (Leads (link tags acc.1)) other victim := by
    have met := reached_of_circleFrom (by simp) .refl found victim member
    have met' := ReflTransGen.mono fewer _ _
      (reached_of_circleFrom (by simp) .refl found' other member')
    rcases ReflTransGen.total_of_right_unique rightUnique_leads met met' with onward | onward
    · have inside := isCircle.mem_of_reached member onward
      exact (isCircle.connected other inside victim member).to_reflTransGen
    · exact onward
  have back := returns rightUnique_leads fewer around toVictim
  obtain ⟨next, first, -⟩ := TransGen.head'_iff.1 back
  exact (link_eq_some.1 first).1 (IdSet.mem_insert.2 (.inl rfl))

theorem reopens_iff : Reopens tags id acc acc' ↔ openCircle tags acc id = acc' := by
  cases found : circleFrom (link tags acc.1) (tags.size + 1) [] id with
  | none =>
    rw [openCircle_of_none found]
    constructor
    · rintro (_ | ⟨walks, -⟩)
      · rfl
      · rw [walks_link_iff, found] at walks
        cases walks
    · rintro rfl
      exact .ends (walks_link_iff.2 found)
  | some ids =>
    rw [openCircle_of_some found]
    have ends : Walks (link tags (cutCircle acc ids).1) [] id none :=
      walks_link_iff.2 (circleFrom_cutCircle found)
    constructor
    · rintro (walks | ⟨walks, again⟩)
      · rw [walks_link_iff, found] at walks
        cases walks
      · rw [walks_link_iff, found] at walks
        cases walks
        rcases again with _ | ⟨walks, -⟩
        · rfl
        · rw [walks_link_iff] at ends walks
          rw [ends] at walks
          cases walks
    · rintro rfl
      exact .cuts (walks_link_iff.2 found) (.ends ends)

/-- Cutting until no walk finds a circle ends, with what one walk from every tag finds. -/
theorem reopensAll_iff {ids : List String} :
    ReopensAll tags ids acc acc' ↔ ids.foldl (openCircle tags) acc = acc' := by
  induction ids generalizing acc with
  | nil =>
    constructor
    · rintro ⟨⟩
      rfl
    · rintro rfl
      exact .nil
  | cons id ids ih =>
    rw [List.foldl_cons, ← ih]
    constructor
    · rintro (_ | ⟨reopens, rest⟩)
      exact reopens_iff.1 reopens ▸ rest
    · exact .cons (reopens_iff.2 rfl)

/-! ## The circles that are listed -/

/-- What holds of the ids that are cut off and the circles that are listed, after any walks. -/
structure Listing (tags : Table Tag) (acc : IdSet × List (List String)) : Prop where
  circuits : ∀ ids ∈ acc.2, IsCircuit tags ids
  /-- Every circle is listed with an id on it cut off. -/
  opened : ∀ ids ∈ acc.2, ∃ cut ∈ acc.1, cut ∈ ids
  /-- Nothing is cut off elsewhere. -/
  onCircle : ∀ cut ∈ acc.1, ∃ ids ∈ acc.2, cut ∈ ids
  once : (acc.2.map fun ids : List String => (ids : Cycle String)).Nodup

theorem listing_openCircle (h : Listing tags acc) : Listing tags (openCircle tags acc id) := by
  cases found : circleFrom (link tags acc.1) (tags.size + 1) [] id with
  | none =>
    rw [openCircle_of_none found]
    exact h
  | some ids =>
    obtain ⟨isCircle, victim, isLeast, cut⟩ := openCircle_of_circleFrom found
    have isCircuit := (rounds_of_circleFrom List.nodup_nil (.singleton id) found).isCircuit
    rw [openCircle_of_some found] at cut ⊢
    have list : (cutCircle acc ids).2 = acc.2 ++ [ids] := rfl
    -- Links lead on from every id on the new circle, but not from the one cut off on a listed circle.
    have new : ∀ listed ∈ acc.2, (listed : Cycle String) ≠ ids := by
      intro listed member same
      obtain ⟨out, isCut, onListed⟩ := h.opened listed member
      have inside : out ∈ ids := Cycle.mem_coe_iff.1 (same ▸ Cycle.mem_coe_iff.2 onListed)
      obtain ⟨next, leads, -⟩ := TransGen.head'_iff.1 (isCircle.connected out inside out inside)
      exact (link_eq_some.1 leads).1 isCut
    refine ⟨fun listed member => ?_, fun listed member => ?_, fun out isCut => ?_, ?_⟩
    · rcases List.mem_append.1 (list ▸ member) with member | single
      · exact h.circuits listed member
      · exact List.mem_singleton.1 single ▸ isCircuit
    · rcases List.mem_append.1 (list ▸ member) with member | single
      · obtain ⟨out, isCut, onListed⟩ := h.opened listed member
        exact ⟨out, cut ▸ IdSet.mem_insert.2 (.inr isCut), onListed⟩
      · obtain rfl := List.mem_singleton.1 single
        exact ⟨victim, cut ▸ IdSet.mem_insert.2 (.inl rfl), (least?_eq_some isLeast).1⟩
    · rw [list]
      rcases IdSet.mem_insert.1 (cut ▸ isCut) with rfl | isCut
      · exact ⟨ids, by simp, (least?_eq_some isLeast).1⟩
      · obtain ⟨listed, member, onListed⟩ := h.onCircle out isCut
        exact ⟨listed, List.mem_append_left _ member, onListed⟩
    · rw [list, List.map_append, List.map_singleton, ← List.concat_eq_append]
      refine List.Nodup.concat (fun again => ?_) h.once
      obtain ⟨listed, member, same⟩ := List.mem_map.1 again
      exact new listed member same

theorem listing_openCircles : Listing tags (openCircles tags) := by
  have all : ∀ (ids : List String) (acc : IdSet × List (List String)), Listing tags acc →
      Listing tags (ids.foldl (openCircle tags) acc) := by
    intro ids
    induction ids with
    | nil => exact fun _ listing => listing
    | cons id ids ih => exact fun acc listing => ih _ (listing_openCircle listing)
  refine all tags.keys _ ⟨by simp, by simp, fun cut inside => ?_, List.nodup_nil⟩
  exact absurd inside IdSet.not_mem_empty

/-- Exactly the circles of declared parents are listed. -/
theorem mem_circles : circle ∈ (openCircles tags).2.map (fun ids : List String => (ids : Cycle String)) ↔
    IsCircuit tags circle := by
  rw [List.mem_map]
  constructor
  · rintro ⟨ids, member, rfl⟩
    exact listing_openCircles.circuits ids member
  · intro isCircuit
    -- The smallest id of the circle was cut off, and so is on a circle that is listed.
    obtain ⟨victim, onCircle, isVictim⟩ : ∃ victim ∈ circle, IsVictim tags victim := by
      induction circle using Quotient.inductionOn' with
      | h ids =>
        change IsCircuit tags (ids : Cycle String) at isCircuit
        obtain ⟨least, isLeast⟩ :=
          exists_least? fun none : ids = [] => isCircuit.nonempty ((Cycle.coe_eq_nil _).2 none)
        obtain ⟨member, least⟩ := least?_eq_some isLeast
        exact ⟨_, Cycle.mem_coe_iff.2 member,
          isVictim_iff.2 ⟨ids, isCircuit, Cycle.mem_coe_iff.2 member, least⟩⟩
    obtain ⟨ids, member, onListed⟩ := listing_openCircles.onCircle victim (mem_openCircles.2 isVictim)
    exact ⟨ids, member, (listing_openCircles.circuits ids member).unique isCircuit
      (Cycle.mem_coe_iff.2 onListed) onCircle⟩

/-! ## The forest that is left -/

variable {taxonomy : Taxonomy} {child parent : String}

/-- A tag of a table, with the parent that it declares. -/
theorem declares_iff {t : Tag} (found : tags.get? child = some t) :
    Declares tags child parent ↔ t.parent? = some parent ∧ tags.contains parent = true := by
  constructor
  · rintro ⟨t', found', declared⟩
    obtain rfl := Option.some.inj (found.symm.trans found')
    exact declared
  · exact fun declared => ⟨t, found, declared⟩

theorem mem_roots : id ∈ taxonomy.rebuild.1.roots ↔
    taxonomy.tags.contains id = true ∧ ∀ parent, ¬ Parent taxonomy.tags id parent := by
  have same : taxonomy.rebuild.1.roots = .ofList (taxonomy.tags.keys.filter fun id =>
    (link taxonomy.tags (openCircles taxonomy.tags).1 id).isNone) := rfl
  rw [same, IdSet.mem_ofList, List.mem_filter, Table.mem_keys, Option.isNone_iff_eq_none,
    Option.eq_none_iff_forall_ne_some]
  simp only [ne_eq, link_openCircles]

/-- A tag has no parent in effect if it declares none, an unknown one, or is the smallest on a
circle. -/
theorem not_parent_iff {t : Tag} (found : tags.get? id = some t) :
    (∀ parent, ¬ Parent tags id parent) ↔ t.parent? = none ∨
      (∃ parent, t.parent? = some parent ∧ tags.contains parent = false) ∨ IsVictim tags id := by
  simp only [Parent, declares_iff found]
  cases t.parent? with
  | none => simp
  | some parent =>
    cases registered : tags.contains parent with
    | true => simp [registered]
    | false => simp [registered]

theorem mem_edges : (child, parent) ∈ taxonomy.edges ↔ child ∈ taxonomy.childIds parent := by
  rw [edges, List.mem_mergeSort, List.mem_flatMap]
  constructor
  · rintro ⟨⟨key, ids⟩, entry, member⟩
    obtain ⟨id, inside, same⟩ := List.mem_map.1 member
    cases same
    rw [childIds, Table.mem_entries.1 entry]
    exact inside
  · intro member
    rw [childIds] at member
    cases found : taxonomy.children.get? parent with
    | none => rw [found] at member; cases member
    | some ids =>
      rw [found] at member
      exact ⟨(parent, ids), Table.mem_entries.2 found, List.mem_map.2 ⟨child, member, rfl⟩⟩

/-- From every registered tag the parents in effect lead up to one that has none. -/
theorem exists_top (registered : tags.contains id = true) :
    ∃ top, ReflTransGen (Parent tags) id top ∧ tags.contains top = true ∧
      ∀ parent, ¬ Parent tags top parent := by
  by_contra endless
  push Not at endless
  -- A walk that never ends runs into a circle, and none is left.
  obtain ⟨ids, found⟩ : ∃ ids,
      circleFrom (link tags (openCircles tags).1) (tags.size + 1) [] id = some ids := by
    refine exists_circleFrom tags.keys
      (fun a => ReflTransGen (Parent tags) id a ∧ tags.contains a = true) (fun a onWay => ?_)
      List.nodup_nil (List.nil_subset _) keys_length_lt ⟨.refl, registered⟩
    obtain ⟨above, leads⟩ := endless a onWay.1 onWay.2
    exact ⟨Table.mem_keys.2 onWay.2, above, link_openCircles.2 leads, onWay.1.tail leads,
      leads.contains.2⟩
  have isCircle := isCircle_of_circleFrom (.singleton id) found
  obtain ⟨first, member⟩ := List.exists_mem_of_ne_nil ids isCircle.nonempty
  exact not_around_openCircles (isCircle.connected first member first member)

/-- What a rebuild should make of tags, whatever parents they declare. -/
structure IsForest (tags : Table Tag) (taxonomy : Taxonomy) (report : TaxonomyReport) :
    Prop where
  kept : taxonomy.tags = tags
  /-- Walking and cutting comes to an end, with what is detached and reported. -/
  ends : ∀ found, ReopensAll tags tags.keys (.empty, []) found ↔
    (taxonomy.detached, report.cycles) = found
  /-- The registered tags, and no others, are roots or children. -/
  placed : ∀ id, tags.contains id = true ↔
    id ∈ taxonomy.roots ∨ ∃ parent, (id, parent) ∈ taxonomy.edges
  /-- No tag is both. -/
  apart : ∀ id parent, (id, parent) ∈ taxonomy.edges → id ∉ taxonomy.roots
  /-- A child is one of the parent that it declares. -/
  declared : ∀ child parent, (child, parent) ∈ taxonomy.edges → Declares tags child parent
  children : ∀ child parent, child ∈ taxonomy.childIds parent ↔ (child, parent) ∈ taxonomy.edges
  /-- The parents of a tag lead up to a root. -/
  grounded : ∀ id, tags.contains id = true → ∃ root ∈ taxonomy.roots,
    ReflTransGen (fun child parent => (child, parent) ∈ taxonomy.edges) id root
  acyclic : ∀ id, ¬ TransGen (fun child parent => (child, parent) ∈ taxonomy.edges) id id
  /-- A root declares no parent, or one that is not registered, or is the smallest id on a circle. -/
  roots : ∀ id, id ∈ taxonomy.roots ↔ ∃ t, tags.get? id = some t ∧ (t.parent? = none ∨
    (∃ parent, t.parent? = some parent ∧ tags.contains parent = false) ∨
    ∃ circle, IsCircuit tags circle ∧ id ∈ circle ∧ ∀ other ∈ circle, id ≤ other)
  /-- The circles of declared parents are reported. -/
  circles : ∀ circle, circle ∈ report.cycles.map (fun ids : List String => (ids : Cycle String)) ↔
    IsCircuit tags circle
  /-- No circle is reported twice, from wherever on it. -/
  once : (report.cycles.map fun ids : List String => (ids : Cycle String)).Nodup
  orphans : ∀ id, id ∈ report.orphans ↔ ∃ t parent, tags.get? id = some t ∧
    t.parent? = some parent ∧ tags.contains parent = false
  ascending : report.orphans.Pairwise (· < ·)

theorem mem_edges_rebuild : (child, parent) ∈ taxonomy.rebuild.1.edges ↔
    Parent taxonomy.tags child parent :=
  mem_edges.trans mem_childIds

/-- A tag that was detached declares a registered parent, so an orphan is never one of those. -/
theorem isOrphan_iff {t : Tag} (found : tags.get? t.id = some t) :
    isOrphan tags (openCircles tags).1 t = true ↔
      ∃ parent, t.parent? = some parent ∧ tags.contains parent = false := by
  simp only [isOrphan, Bool.and_eq_true, Bool.not_eq_true', ← Bool.not_eq_true, IdSet.contains_iff,
    mem_openCircles, Option.any_eq_true]
  refine ⟨fun h => h.2, fun unknown => ⟨fun victim => ?_, unknown⟩⟩
  obtain ⟨parent, isParent, missing⟩ := unknown
  obtain ⟨above, leads, -⟩ := TransGen.head'_iff.1 victim.around
  obtain ⟨isAbove, registered⟩ := (declares_iff found).1 leads
  obtain rfl := Option.some.inj (isParent.symm.trans isAbove)
  exact missing registered

/-- Values that are listed under their own ids are listed in the order of their ids. -/
theorem pairwise_values (keyed : tags.KeyedBy Tag.id) :
    tags.values.Pairwise fun a b => a.id < b.id := by
  refine List.pairwise_map.2 (List.Pairwise.imp_of_mem ?_ tags.ascending)
  intro a b inA inB before
  rwa [keyed a.1 a.2 (Table.mem_entries.1 inA), keyed b.1 b.2 (Table.mem_entries.1 inB)]

/-- Whatever parents the tags declare, a rebuild ends and leaves a forest of them. -/
theorem isForest_rebuild (keyed : taxonomy.tags.KeyedBy Tag.id) :
    IsForest taxonomy.tags taxonomy.rebuild.1 taxonomy.rebuild.2 where
  kept := rfl
  ends found := reopensAll_iff
  placed id := by
    simp only [mem_edges_rebuild, mem_roots]
    constructor
    · intro registered
      by_cases child : ∃ parent, Parent taxonomy.tags id parent
      · exact .inr child
      · exact .inl ⟨registered, not_exists.1 child⟩
    · rintro (⟨registered, -⟩ | ⟨parent, leads⟩)
      · exact registered
      · exact leads.contains.1
  apart id parent edge root := (mem_roots.1 root).2 parent (mem_edges_rebuild.1 edge)
  declared child parent edge := (mem_edges_rebuild.1 edge).1
  children child parent := mem_edges.symm
  grounded id registered := by
    obtain ⟨top, reached, known, last⟩ := exists_top registered
    simp only [mem_edges_rebuild]
    exact ⟨top, mem_roots.2 ⟨known, last⟩, reached⟩
  acyclic id := by
    simp only [mem_edges_rebuild]
    exact not_parent_around
  roots id := by
    rw [mem_roots, Table.contains_iff]
    simp only [← isVictim_iff]
    constructor
    · rintro ⟨⟨t, found⟩, last⟩
      exact ⟨t, found, (not_parent_iff found).1 last⟩
    · rintro ⟨t, found, why⟩
      exact ⟨⟨t, found⟩, (not_parent_iff found).2 why⟩
  circles circle := mem_circles
  once := listing_openCircles.once
  orphans id := by
    have same : taxonomy.rebuild.2.orphans = (taxonomy.tags.values.filter
      (isOrphan taxonomy.tags (openCircles taxonomy.tags).1)).map (·.id) := rfl
    simp only [same, List.mem_map, List.mem_filter, Table.mem_values]
    constructor
    · rintro ⟨t, ⟨⟨key, found⟩, orphan⟩, rfl⟩
      obtain rfl := keyed key t found
      obtain ⟨parent, isParent, missing⟩ := (isOrphan_iff found).1 orphan
      exact ⟨t, parent, found, isParent, missing⟩
    · rintro ⟨t, parent, found, isParent, missing⟩
      obtain rfl := keyed id t found
      exact ⟨t, ⟨⟨_, found⟩, (isOrphan_iff found).2 ⟨parent, isParent, missing⟩⟩, rfl⟩
  ascending := List.pairwise_map.2 ((pairwise_values keyed).filter _)

/-- Tags put in one after the other are listed under their own ids. -/
theorem keyed_foldl_insert (list : List Tag) (keyed : taxonomy.tags.KeyedBy Tag.id) :
    (list.foldl insert taxonomy).tags.KeyedBy Tag.id := by
  induction list generalizing taxonomy with
  | nil => exact keyed
  | cons t list ih =>
    refine ih fun key value found => ?_
    rw [insert, Table.get?_insert] at found
    split at found
    · next same => cases found; exact same.symm
    · exact keyed key value found

/-- A circle of three with a tail, a tag that is its own parent, one of an unknown parent, one of an
empty parent and one of none. -/
def tangled : Taxonomy :=
  [{ id := "a", parentId := some "c" }, { id := "b", parentId := some "c" },
    { id := "c", parentId := some "d" }, { id := "d", parentId := some "b" },
    { id := "e", parentId := some "e" }, { id := "f", parentId := some "z" },
    { id := "g", parentId := some "" }, { id := "h" }].foldl insert {}

theorem isForest_rebuild_tangled : tangled.tags.KeyedBy Tag.id ∧
    IsForest tangled.tags tangled.rebuild.1 tangled.rebuild.2 ∧
    tangled.rebuild.2 = { orphans := ["f"], cycles := [["c", "d", "b"], ["e"]] } ∧
    tangled.rebuild.1.roots.toList = ["b", "e", "f", "g", "h"] := by
  have keyed : tangled.tags.KeyedBy Tag.id :=
    keyed_foldl_insert _ fun _ _ found => absurd found (by simp)
  exact ⟨keyed, isForest_rebuild keyed, by decide +kernel, by decide +kernel⟩

end Clickstream.Taxonomy
