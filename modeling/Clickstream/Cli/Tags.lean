import Clickstream.Cli.Program

/-! # Printing the tree of tags

One line for every tag: a parent before its children, these indented below it and ordered by rank
and id, as the roots are.
-/

namespace Clickstream

namespace Taxonomy

/-- A tag and all tags below it with their depths, down to a number of levels. -/
def outlineFrom (taxonomy : Taxonomy) (levels depth : Nat) (id : String) : List (Nat × String) :=
  match levels with
  | 0 => [(depth, id)]
  | levels + 1 =>
    (depth, id) ::
      (taxonomy.subTags id).flatMap fun child =>
        taxonomy.outlineFrom levels (depth + 1) child.id

/-- All tags with their depths. -/
def outline (taxonomy : Taxonomy) : List (Nat × String) :=
  taxonomy.rootTags.flatMap fun root => taxonomy.outlineFrom taxonomy.children.size 0 root.id

end Taxonomy

namespace Cli

def tagLine (depth : Nat) (id : String) : String := "".pushn ' ' (2 * depth) ++ id

def tagTree (taxonomy : Taxonomy) : List String :=
  taxonomy.outline.map fun (depth, id) => tagLine depth id

def printTags (config : ServerConfig) : Program Unit := do
  Program.openServer config
  let taxonomy := (← get).engine.registry.taxonomy
  match tagTree taxonomy with
  | [] => Program.printLine "No tags registered."
  | tree =>
    Program.print (lines tree)
    Program.print ("\n" ++ toString taxonomy.all.length ++ " tag(s) total.\n")

end Cli

end Clickstream
