import Mathlib.Data.List.Basic
import Mathlib.Data.Set.Card
import Mathlib.Order.WellFoundedSet
import Clickstream.Cli.Tags
import Clickstream.Proofs.Descendants
import Clickstream.Proofs.Forest
import Clickstream.Proofs.TagOrder

/-! # The printed tree of tags

The tree is printed by a walk with a stack that remembers nothing of where it was. That the walk ends
and comes by every tag once is due to the links in effect: they make a forest of the registered tags,
whatever parents these declare. On the stack there are always the later siblings of the tags on the
way to the present one, so a tag is followed by everything below it.
-/

namespace Clickstream.Taxonomy

open Relation

/-! ## The way up and the way down -/

variable {tags : Table Tag} {id child parent a b x y : String}

/-- The tags above a tag. -/
def above (tags : Table Tag) (id : String) : Set String := {a | TransGen (Parent tags) id a}

/-- Tags of one parent, or tags without any. -/
def Siblings (tags : Table Tag) (a b : String) : Prop :=
  ∀ parent, Parent tags a parent ↔ Parent tags b parent

theorem rightUnique_parent : Relator.RightUnique (Parent tags) :=
  fun _ _ _ first second => first.unique second

theorem finite_registered : {id | tags.contains id = true}.Finite :=
  (List.finite_toSet tags.keys).subset fun _ registered => Table.mem_keys.2 registered

/-- The way down from a tag ends. -/
theorem wellFounded_parent : WellFounded (Parent tags) := by
  have : IsStrictOrder String (TransGen (Parent tags)) :=
    { irrefl := fun _ => not_parent_around, trans := fun _ _ _ => TransGen.trans }
  have ends := (@finite_registered tags).wellFoundedOn (r := TransGen (Parent tags))
  rw [Set.wellFoundedOn_iff] at ends
  refine Subrelation.wf ?_ ends
  intro child parent leads
  exact ⟨.single leads, leads.contains⟩

theorem finite_above : (above tags id).Finite := by
  refine (@finite_registered tags).subset fun a reached => ?_
  obtain ⟨_, -, leads⟩ := TransGen.tail'_iff.1 reached
  exact leads.contains.2

/-- A child has one tag more above it than its parent. -/
theorem ncard_above (leads : Parent tags child parent) :
    (above tags child).ncard = (above tags parent).ncard + 1 := by
  have more : above tags child = Insert.insert parent (above tags parent) := by
    ext a
    rw [Set.mem_insert_iff]
    constructor
    · intro reached
      obtain ⟨next, first, rest⟩ := TransGen.head'_iff.1 reached
      obtain rfl := first.unique leads
      exact reflTransGen_iff_eq_or_transGen.1 rest
    · rintro (rfl | reached)
      · exact .single leads
      · exact .head leads reached
  have new : parent ∉ above tags parent := not_parent_around
  rw [more, Set.ncard_insert_of_notMem new finite_above]

theorem above_of_not_parent (last : ∀ parent, ¬ Parent tags id parent) : above tags id = ∅ := by
  refine Set.eq_empty_of_forall_notMem fun a reached => ?_
  obtain ⟨parent, leads, -⟩ := TransGen.head'_iff.1 reached
  exact last parent leads

namespace Siblings

theorem symm (h : Siblings tags a b) : Siblings tags b a := fun parent => (h parent).symm

/-- No sibling of a tag is at or above it but itself. -/
theorem eq_of_reached (h : Siblings tags a b) (reached : ReflTransGen (Parent tags) a b) : a = b := by
  rcases ReflTransGen.cases_head reached with same | ⟨parent, leads, rest⟩
  · exact same
  · exact absurd (TransGen.head' ((h parent).1 leads) rest) not_parent_around

/-- A tag is below one of several siblings at most. -/
theorem unique (h : Siblings tags a b) (first : ReflTransGen (Parent tags) x a)
    (second : ReflTransGen (Parent tags) x b) : a = b := by
  rcases ReflTransGen.total_of_right_unique rightUnique_parent first second with reached | reached
  · exact h.eq_of_reached reached
  · exact (h.symm.eq_of_reached reached).symm

/-- Siblings that stand below different siblings are those themselves. -/
theorem eq_of_below (h : Siblings tags a b) (other : a ≠ b) (siblings : Siblings tags x y)
    (first : ReflTransGen (Parent tags) x a) (second : ReflTransGen (Parent tags) y b) : x = a := by
  rcases ReflTransGen.cases_head first with same | ⟨parent, leads, rest⟩
  · exact same
  · exact absurd (h.unique (.head ((siblings parent).1 leads) rest) second) other

end Siblings

/-- A tag is no sibling of one below it. -/
theorem not_siblings_of_below (below : TransGen (Parent tags) x id) : ¬ Siblings tags id x := by
  intro siblings
  obtain ⟨parent, leads, rest⟩ := TransGen.head'_iff.1 below
  exact not_parent_around (TransGen.head' ((siblings parent).2 leads) rest)

/-! ## A tag and everything below it -/

/-- The forest that a rebuild makes of tags. -/
abbrev forest (tags : Table Tag) : Taxonomy := (({ tags } : Taxonomy).rebuild).1

/-- The lines of a tag and of everything below it. -/
def branch (tags : Table Tag) (depth : Nat) (id : String) : List (Nat × String) :=
  (forest tags).outlineFrom (forest tags).children.size depth id

/-- Of two siblings the one that is listed first. -/
structure Ahead (tags : Table Tag) (s t : Tag) : Prop where
  first : tags.get? s.id = some s
  second : tags.get? t.id = some t
  siblings : Siblings tags s.id t.id
  precedes : s.Precedes t

theorem Ahead.other {s t : Tag} (h : Ahead tags s t) : s.id ≠ t.id := by
  intro same
  have found := h.first
  rw [same, h.second] at found
  cases found
  exact h.precedes.irrefl

section

variable {depth k levels : Nat} {passed : List String} {t : Tag}

theorem mem_subTags (keyed : tags.KeyedBy Tag.id) : t ∈ (forest tags).subTags id ↔
    tags.get? t.id = some t ∧ Parent tags t.id id := by
  rw [subTags, mem_ordered]
  constructor
  · rintro ⟨child, isChild, found⟩
    obtain rfl := keyed child t found
    exact ⟨found, mem_childIds.1 isChild⟩
  · rintro ⟨found, leads⟩
    exact ⟨t.id, mem_childIds.2 leads, found⟩

theorem mem_rootTags (keyed : tags.KeyedBy Tag.id) : t ∈ (forest tags).rootTags ↔
    tags.get? t.id = some t ∧ ∀ parent, ¬ Parent tags t.id parent := by
  rw [rootTags, mem_ordered]
  constructor
  · rintro ⟨root, isRoot, found⟩
    obtain rfl := keyed root t found
    exact ⟨found, (mem_roots.1 (IdSet.mem_toList.1 isRoot)).2⟩
  · rintro ⟨found, last⟩
    exact ⟨t.id, mem_roots.2 ⟨Table.contains_iff.2 ⟨t, found⟩, last⟩, found⟩

theorem pairwise_subTags (keyed : tags.KeyedBy Tag.id) :
    ((forest tags).subTags id).Pairwise (Ahead tags) := by
  refine List.Pairwise.imp_of_mem ?_ (pairwise_ordered keyed IdSet.nodup_toList)
  intro s t inS inT precedes
  obtain ⟨first, ofS⟩ := (mem_subTags keyed).1 inS
  obtain ⟨second, ofT⟩ := (mem_subTags keyed).1 inT
  refine ⟨first, second, fun parent => ⟨fun leads => ?_, fun leads => ?_⟩, precedes⟩
  · exact ofS.unique leads ▸ ofT
  · exact ofT.unique leads ▸ ofS

theorem pairwise_rootTags (keyed : tags.KeyedBy Tag.id) :
    (forest tags).rootTags.Pairwise (Ahead tags) := by
  refine List.Pairwise.imp_of_mem ?_ (pairwise_ordered keyed IdSet.nodup_toList)
  intro s t inS inT precedes
  obtain ⟨first, lastS⟩ := (mem_rootTags keyed).1 inS
  obtain ⟨second, lastT⟩ := (mem_rootTags keyed).1 inT
  exact ⟨first, second, fun parent => iff_of_false (lastS parent) (lastT parent), precedes⟩

/-- One level more changes nothing once there are as many as tags with children, but for those already
passed on the way down. -/
private theorem outlineFrom_levels (keyed : tags.KeyedBy Tag.id) (onWay : Passed tags passed id)
    (enough : (forest tags).children.size ≤ passed.length + levels) :
    (forest tags).outlineFrom (levels + 1) depth id =
      (forest tags).outlineFrom levels depth id := by
  induction levels generalizing passed depth id with
  | zero =>
    have none : (forest tags).subTags id = [] := by
      refine List.eq_nil_iff_forall_not_mem.2 fun t child => ?_
      exact Nat.not_le_of_gt (onWay.length_lt ((mem_subTags keyed).1 child).2) enough
    rw [outlineFrom, outlineFrom, none, List.flatMap_nil]
  | succ levels ih =>
    rw [outlineFrom, outlineFrom]
    refine congrArg _ (List.flatMap_congr fun t child => ?_)
    refine ih (onWay.step ((mem_subTags keyed).1 child).2) ?_
    rw [List.length_cons]
    omega

/-- The line of a tag is followed by the branches of its children. -/
theorem branch_eq (keyed : tags.KeyedBy Tag.id) : branch tags depth id =
    (depth, id) :: ((forest tags).subTags id).flatMap fun t => branch tags (depth + 1) t.id := by
  have more := @outlineFrom_levels tags id depth (forest tags).children.size [] keyed .nil (by simp)
  rw [outlineFrom] at more
  exact more.symm

/-- A branch has a line for every tag that leads to its top, indented once more for every tag that is
passed. -/
theorem mem_branch (keyed : tags.KeyedBy Tag.id) : (k, x) ∈ branch tags depth id ↔
    ReflTransGen (Parent tags) x id ∧
      k + (above tags id).ncard = depth + (above tags x).ncard := by
  induction id using (@wellFounded_parent tags).induction generalizing depth with
  | _ id ih =>
    rw [branch_eq keyed, List.mem_cons, List.mem_flatMap]
    constructor
    · rintro (same | ⟨t, child, line⟩)
      · cases same
        exact ⟨.refl, rfl⟩
      · have leads := ((mem_subTags keyed).1 child).2
        obtain ⟨reached, indented⟩ := (ih t.id leads).1 line
        rw [ncard_above leads] at indented
        exact ⟨reached.tail leads, by omega⟩
    · rintro ⟨reached, indented⟩
      rcases ReflTransGen.cases_tail reached with rfl | ⟨child, reached, leads⟩
      · left
        rw [Nat.add_right_cancel indented]
      · obtain ⟨t, found⟩ := Table.contains_iff.1 leads.contains.1
        obtain rfl := keyed child t found
        refine .inr ⟨t, (mem_subTags keyed).2 ⟨found, leads⟩, (ih t.id leads).2 ⟨reached, ?_⟩⟩
        rw [ncard_above leads]
        omega

theorem reached_of_mem_branch (keyed : tags.KeyedBy Tag.id) {line : Nat × String}
    (h : line ∈ branch tags depth id) : ReflTransGen (Parent tags) line.2 id :=
  ((mem_branch keyed).1 h).1

/-- What the order of lines says: they are of different tags, siblings in the order of their ranks. -/
def Apart (tags : Table Tag) (a b : Nat × String) : Prop :=
  a.2 ≠ b.2 ∧ (Siblings tags a.2 b.2 → ∃ s t, tags.get? a.2 = some s ∧ tags.get? b.2 = some t ∧
    s.Precedes t)

/-- The branches of siblings have no tag in common, and no siblings but themselves. -/
theorem pairwise_flatMap_branch (keyed : tags.KeyedBy Tag.id) {row : List Tag}
    (ahead : row.Pairwise (Ahead tags))
    (each : ∀ t ∈ row, (branch tags depth t.id).Pairwise (Apart tags)) :
    (row.flatMap fun t => branch tags depth t.id).Pairwise (Apart tags) := by
  refine List.pairwise_flatMap.2 ⟨each, ahead.imp ?_⟩
  intro s t ahead a inS b inT
  have first := reached_of_mem_branch keyed inS
  have second := reached_of_mem_branch keyed inT
  refine ⟨fun same => ahead.other (ahead.siblings.unique first (same ▸ second)), fun siblings => ?_⟩
  have isS := ahead.siblings.eq_of_below ahead.other siblings first second
  have isT := ahead.siblings.symm.eq_of_below ahead.other.symm siblings.symm second first
  exact ⟨s, t, isS ▸ ahead.first, isT ▸ ahead.second, ahead.precedes⟩

theorem pairwise_branch (keyed : tags.KeyedBy Tag.id) :
    (branch tags depth id).Pairwise (Apart tags) := by
  induction id using (@wellFounded_parent tags).induction generalizing depth with
  | _ id ih =>
    rw [branch_eq keyed]
    refine List.pairwise_cons.2 ⟨fun line later => ?_, ?_⟩
    · obtain ⟨t, child, line⟩ := List.mem_flatMap.1 later
      have below := TransGen.tail' (reached_of_mem_branch keyed line) ((mem_subTags keyed).1 child).2
      refine ⟨fun same => ?_, fun siblings => absurd siblings (not_siblings_of_below below)⟩
      exact not_parent_around (same ▸ below)
    · exact pairwise_flatMap_branch keyed (pairwise_subTags keyed)
        fun t child => ih t.id ((mem_subTags keyed).1 child).2

/-- The branch of a tag is part of every branch that the tag is in. -/
theorem branch_within (keyed : tags.KeyedBy Tag.id) (line : (k, x) ∈ branch tags depth id) :
    branch tags k x <:+: branch tags depth id := by
  induction id using (@wellFounded_parent tags).induction generalizing depth with
  | _ id ih =>
    rw [branch_eq keyed] at line
    rcases List.mem_cons.1 line with same | later
    · cases same
      exact List.infix_rfl
    · obtain ⟨t, child, line⟩ := List.mem_flatMap.1 later
      have part := ih t.id ((mem_subTags keyed).1 child).2 line
      rw [@branch_eq tags id depth keyed]
      have inside := List.infix_of_mem_flatten
        (List.mem_map_of_mem (f := fun t : Tag => branch tags (depth + 1) t.id) child)
      exact (part.trans inside).trans (List.suffix_cons _ _).isInfix

theorem mem_map_branch (keyed : tags.KeyedBy Tag.id) :
    x ∈ (branch tags depth id).map Prod.snd ↔ ReflTransGen (Parent tags) x id := by
  rw [List.mem_map]
  constructor
  · rintro ⟨line, member, rfl⟩
    exact reached_of_mem_branch keyed member
  · intro reached
    have higher : (above tags id).ncard ≤ (above tags x).ncard :=
      Set.ncard_le_ncard (fun _ rest => TransGen.trans_right reached rest) finite_above
    refine ⟨(depth + (above tags x).ncard - (above tags id).ncard, x), ?_, rfl⟩
    exact (mem_branch keyed).2 ⟨reached, by omega⟩

/-- What follows the line of a tag in its branch are the tags below it. -/
theorem mem_map_inside (keyed : tags.KeyedBy Tag.id) :
    x ∈ (((forest tags).subTags id).flatMap fun t => branch tags depth t.id).map Prod.snd ↔
      TransGen (Parent tags) x id := by
  rw [List.map_flatMap, List.mem_flatMap, TransGen.tail'_iff]
  simp only [mem_map_branch keyed, mem_subTags keyed]
  constructor
  · rintro ⟨t, ⟨-, leads⟩, reached⟩
    exact ⟨t.id, reached, leads⟩
  · rintro ⟨child, reached, leads⟩
    obtain ⟨t, found⟩ := Table.contains_iff.1 leads.contains.1
    obtain rfl := keyed child t found
    exact ⟨t, ⟨found, leads⟩, reached⟩

/-! ## All tags -/

theorem outline_eq : (forest tags).outline =
    (forest tags).rootTags.flatMap fun root => branch tags 0 root.id := rfl

theorem mem_outline (keyed : tags.KeyedBy Tag.id) : (k, x) ∈ (forest tags).outline ↔
    tags.contains x = true ∧ k = (above tags x).ncard := by
  rw [outline_eq, List.mem_flatMap]
  constructor
  · rintro ⟨root, isRoot, line⟩
    obtain ⟨found, last⟩ := (mem_rootTags keyed).1 isRoot
    obtain ⟨reached, indented⟩ := (mem_branch keyed).1 line
    rw [above_of_not_parent last, Set.ncard_empty] at indented
    exact ⟨(contains_of_reached reached).2 (Table.contains_iff.2 ⟨root, found⟩), by omega⟩
  · rintro ⟨registered, rfl⟩
    obtain ⟨top, reached, known, last⟩ := exists_top registered
    obtain ⟨root, found⟩ := Table.contains_iff.1 known
    obtain rfl := keyed top root found
    refine ⟨root, (mem_rootTags keyed).2 ⟨found, last⟩, (mem_branch keyed).2 ⟨reached, ?_⟩⟩
    rw [above_of_not_parent last, Set.ncard_empty]
    omega

theorem pairwise_outline (keyed : tags.KeyedBy Tag.id) :
    (forest tags).outline.Pairwise (Apart tags) :=
  pairwise_flatMap_branch keyed (pairwise_rootTags keyed) fun _ _ => pairwise_branch keyed

/-- The branch of a tag stands behind its line, wherever that is. -/
theorem exists_inside (keyed : tags.KeyedBy Tag.id) {before after : List (Nat × String)}
    (split : (forest tags).outline = before ++ (k, x) :: after) :
    ∃ inside rest, after = inside ++ rest ∧
      ∀ y, y ∈ inside.map Prod.snd ↔ TransGen (Parent tags) y x := by
  have line : (k, x) ∈ (forest tags).outline := by simp [split]
  have part : branch tags k x <:+: (forest tags).outline := by
    obtain ⟨root, isRoot, line⟩ := List.mem_flatMap.1 line
    exact (branch_within keyed line).trans (List.infix_of_mem_flatten
      (List.mem_map_of_mem (f := fun root : Tag => branch tags 0 root.id) isRoot))
  obtain ⟨before', rest, same⟩ := part
  rw [branch_eq keyed, split, List.append_assoc, List.cons_append] at same
  -- The line is there once, so both ways to part the lines at it are the same.
  have once : (before ++ (k, x) :: after).Nodup := by
    rw [← split]
    exact (pairwise_outline keyed).imp fun apart again => apart.1 (congrArg Prod.snd again)
  have fresh := List.nodup_middle.1 once
  rw [List.nodup_cons, List.mem_append, not_or] at fresh
  obtain ⟨-, -, isAfter⟩ := (List.append_cons_inj_of_notMem fresh.1.1 fresh.1.2).1 same.symm
  exact ⟨_, rest, isAfter, fun y => mem_map_inside keyed⟩

end

/-! ## The walk with a stack -/

/-- What a walk prints that starts with some tags on the stack, the topmost first. The topmost tag is
printed and makes way for its children, of which the first is then the topmost. -/
inductive Prints (taxonomy : Taxonomy) : List (Nat × String) → List (Nat × String) → Prop where
  | done : Prints taxonomy [] []
  | pops {depth : Nat} {id : String} {stack lines : List (Nat × String)} :
      Prints taxonomy (((taxonomy.subTags id).map fun t => (depth + 1, t.id)) ++ stack) lines →
      Prints taxonomy ((depth, id) :: stack) ((depth, id) :: lines)

/-- What is on the stack is printed branch by branch. -/
theorem prints_iff (keyed : tags.KeyedBy Tag.id) {stack found : List (Nat × String)} :
    Prints (forest tags) stack found ↔
      (stack.flatMap fun line => branch tags line.1 line.2) = found := by
  have popped (depth : Nat) (id : String) (stack : List (Nat × String)) :
      (((depth, id) :: stack).flatMap fun line => branch tags line.1 line.2) = (depth, id) ::
        ((((forest tags).subTags id).map fun t => (depth + 1, t.id)) ++ stack).flatMap
          fun line => branch tags line.1 line.2 := by
    rw [List.flatMap_cons, branch_eq keyed, List.flatMap_append, List.flatMap_map, List.cons_append]
  constructor
  · intro prints
    induction prints with
    | done => rfl
    | pops _ ih => rw [popped, ih]
  · intro same
    induction found generalizing stack with
    | nil =>
      match stack with
      | [] => exact .done
      | (depth, id) :: stack =>
        rw [popped] at same
        cases same
    | cons line found ih =>
      match stack with
      | [] => cases same
      | (depth, id) :: stack =>
        rw [popped] at same
        cases same
        exact .pops (ih rfl)

/-- What the tree of some tags should show. -/
structure IsOutline (tags : Table Tag) (taxonomy : Taxonomy) (lines : List (Nat × String)) :
    Prop where
  /-- The walk from the roots comes to an end, with these lines. -/
  ends : ∀ found, Prints taxonomy (taxonomy.rootTags.map fun root => (0, root.id)) found ↔
    lines = found
  /-- The registered tags, and no others, are printed. -/
  registered : ∀ id, id ∈ lines.map Prod.snd ↔ tags.contains id = true
  once : (lines.map Prod.snd).Nodup
  /-- A tag is indented once for every tag above it. -/
  indented : ∀ depth id, (depth, id) ∈ lines → (depth : ℕ∞) =
    {a | TransGen (fun child parent => (child, parent) ∈ taxonomy.edges) id a}.encard
  /-- The line of a tag is followed by those of all tags below it, and after these there are none. -/
  subtree : ∀ before depth id after, lines = before ++ (depth, id) :: after →
    ∃ inside rest, after = inside ++ rest ∧ ∀ other, other ∈ inside.map Prod.snd ↔
      TransGen (fun child parent => (child, parent) ∈ taxonomy.edges) other id
  /-- The children of a tag come in the order of their ranks and ids, and so do the roots. -/
  siblings : lines.Pairwise fun a b =>
    (∀ parent, (a.2, parent) ∈ taxonomy.edges ↔ (b.2, parent) ∈ taxonomy.edges) →
    ∃ s t, tags.get? a.2 = some s ∧ tags.get? b.2 = some t ∧ s.Precedes t

/-- The tree shows every registered tag once, with everything below it behind it. -/
theorem isOutline_tagTree (calls : List Registry.Call) :
    ∃ lines, Cli.tagTree (Registry.after calls).taxonomy =
        lines.map (fun line => "".pushn ' ' (2 * line.1) ++ line.2) ∧
      IsOutline (Registry.after calls).definitions.tags (Registry.after calls).taxonomy lines := by
  have indexed := Registry.Indexed.after calls
  have keyed := indexed.keyed.tags
  have built : (Registry.after calls).taxonomy = forest (Registry.after calls).definitions.tags := by
    rw [Registry.taxonomy, indexed.index]
    rfl
  generalize (Registry.after calls).definitions.tags = tags at keyed built
  rw [built]
  have leads (a b : String) : (a, b) ∈ (forest tags).edges ↔ Parent tags a b := mem_edges_rebuild
  have apart := pairwise_outline keyed
  refine ⟨(forest tags).outline, rfl, ⟨fun found => ?_, fun id => ?_, ?_, ?_, ?_, ?_⟩⟩
  · rw [prints_iff keyed, List.flatMap_map]
    rfl
  · rw [List.mem_map]
    constructor
    · rintro ⟨line, member, rfl⟩
      exact ((mem_outline keyed).1 member).1
    · exact fun registered => ⟨(_, id), (mem_outline keyed).2 ⟨registered, rfl⟩, rfl⟩
  · exact List.pairwise_map.2 (apart.imp fun apart => apart.1)
  · intro depth id line
    simp only [leads]
    rw [((mem_outline keyed).1 line).2]
    exact finite_above.cast_ncard_eq
  · intro before depth id after split
    simp only [leads]
    exact exists_inside keyed split
  · simp only [leads]
    exact apart.imp fun apart => apart.2

end Clickstream.Taxonomy
