import Clickstream.Tag

/-! # The tag taxonomy

Tags with the parent links that are in effect. Declared links may name unknown tags and may run in
circles; rebuilding makes a forest of them: a tag of an unknown parent becomes a root, and so does
the smallest id of every circle. A walk along declared links can end in one circle at most, so one
walk from every tag finds them all.

Inserting and dropping tags leaves the links as they are until the next rebuild.
-/

namespace Clickstream

/-- What a rebuild had to mend. -/
structure TaxonomyReport where
  /-- The tags of an unknown parent, by id. -/
  orphans : List String := []
  /-- The circles of declared links, each from the tag where the walk met it. -/
  cycles : List (List String) := []
  deriving DecidableEq

def TaxonomyReport.toJson (r : TaxonomyReport) : Json :=
  .object [("orphans", Json.ofStrings r.orphans), ("cycles", .array (r.cycles.map Json.ofStrings))]

/-- Tags and the links between them. -/
structure Taxonomy where
  tags : Table Tag := {}
  /-- The children of every tag that has some. -/
  children : Table IdSet := {}
  /-- The tags without a parent in effect. -/
  roots : IdSet := {}
  /-- The tags whose link was cut to open a circle. -/
  detached : IdSet := {}

namespace Taxonomy

instance : Inhabited Taxonomy := ⟨{}⟩

/-- The declared parent of a tag if that is registered and the link is not cut. -/
def link (tags : Table Tag) (detached : IdSet) (id : String) : Option String :=
  if detached.contains id then none
  else ((tags.get? id).bind Tag.parent?).filter tags.contains

/-- Walk along links; the circle that the walk runs into, if any, within a number of steps. -/
def circleFrom (step : String → Option String) (steps : Nat) (path : List String) (id : String) :
    Option (List String) :=
  match steps with
  | 0 => none
  | steps + 1 =>
    if id ∈ path then some (path.dropWhile (· ≠ id))
    else match step id with
      | none => none
      | some parent => circleFrom step steps (path ++ [id]) parent

/-- The smallest id of a list. -/
def least? (ids : List String) : Option String := (IdSet.ofList ids).toList.head?

/-- Cut the circle that a tag leads into. -/
def openCircle (tags : Table Tag) (acc : IdSet × List (List String)) (id : String) :
    IdSet × List (List String) :=
  match circleFrom (link tags acc.1) (tags.size + 1) [] id with
  | none => acc
  | some circle =>
    (match least? circle with
      | some victim => acc.1.insert victim
      | none => acc.1, acc.2 ++ [circle])

/-- The tags to detach, and the circles. -/
def openCircles (tags : Table Tag) : IdSet × List (List String) :=
  tags.keys.foldl (openCircle tags) (IdSet.empty, [])

/-- Whether a tag declares a parent that is not registered. -/
def isOrphan (tags : Table Tag) (detached : IdSet) (t : Tag) : Bool :=
  !detached.contains t.id && (t.parent?.any fun parent => !tags.contains parent)

/-- Note a child of a tag. -/
def addChild (children : Table IdSet) (parent id : String) : Table IdSet :=
  children.insert parent (((children.get? parent).getD .empty).insert id)

/-- Work out all links again. -/
def rebuild (taxonomy : Taxonomy) : Taxonomy × TaxonomyReport :=
  let tags := taxonomy.tags
  let (detached, cycles) := openCircles tags
  let parentOf := link tags detached
  let ids := tags.keys
  ({ tags
     children := ids.foldl (fun acc id =>
       match parentOf id with
       | some parent => addChild acc parent id
       | none => acc) .empty
     roots := .ofList (ids.filter fun id => (parentOf id).isNone)
     detached },
   { orphans := (tags.values.filter (isOrphan tags detached)).map (·.id)
     cycles })

/-- Put in a tag, in place of one with the same id. -/
def insert (taxonomy : Taxonomy) (t : Tag) : Taxonomy :=
  { taxonomy with tags := taxonomy.tags.insert t.id t }

/-- Drop the tags that fail a test. -/
def retain (taxonomy : Taxonomy) (keep : Tag → Bool) : Taxonomy :=
  { taxonomy with tags := taxonomy.tags.filter fun _ t => keep t }

/-- The taxonomy of tags; of two with one id the later stays. -/
def ofTags (tags : List Tag) : Taxonomy × TaxonomyReport :=
  (tags.foldl insert {}).rebuild

/-- The tag of an id. -/
def get? (taxonomy : Taxonomy) (id : String) : Option Tag := taxonomy.tags.get? id

/-- Whether an id is registered. -/
def contains (taxonomy : Taxonomy) (id : String) : Bool := taxonomy.tags.contains id

/-- The registered tags of some ids, by rank and id. -/
def ordered (taxonomy : Taxonomy) (ids : List String) : List Tag :=
  (ids.filterMap taxonomy.get?).mergeSort Tag.le

/-- All tags, by rank and id. -/
def all (taxonomy : Taxonomy) : List Tag := taxonomy.ordered taxonomy.tags.keys

/-- The root tags, by rank and id. -/
def rootTags (taxonomy : Taxonomy) : List Tag := taxonomy.ordered taxonomy.roots.toList

/-- The ids of the children of a tag. -/
def childIds (taxonomy : Taxonomy) (id : String) : List String :=
  ((taxonomy.children.get? id).getD .empty).toList

/-- The children of a tag, by rank and id. -/
def subTags (taxonomy : Taxonomy) (id : String) : List Tag :=
  taxonomy.ordered (taxonomy.childIds id)

/-- The ids at or below a tag, down to a depth. -/
def below (taxonomy : Taxonomy) (depth : Nat) (id : String) : List String :=
  match depth with
  | 0 => [id]
  | depth + 1 => id :: (taxonomy.childIds id).flatMap (taxonomy.below depth)

/-- A registered tag and all tags below it. -/
def descendantsAndSelf (taxonomy : Taxonomy) (id : String) : IdSet :=
  if taxonomy.contains id then .ofList (taxonomy.below taxonomy.children.size id) else .empty

/-- The links in effect, from child to parent, by child. -/
def edges (taxonomy : Taxonomy) : List (String × String) :=
  let pairs := taxonomy.children.entries.flatMap fun (parent, ids) =>
    ids.toList.map fun child => (child, parent)
  pairs.mergeSort fun a b => a.1 < b.1 ∨ (a.1 = b.1 ∧ a.2 ≤ b.2)

end Taxonomy

end Clickstream
