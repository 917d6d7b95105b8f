import RemoteModels.Registry

/-!
# The tree of models

Models are shown below their parents.  Models without a parent come first; then those whose parent
is no model, below its name; and last those whose parents lead in a circle.

Parents are names, and nothing rules out that a name is no model's, that a model is its own
ancestor, or that a model is called like the sign for no parent.

* `TreeLine` — a line of the tree.
* `Registry.tree` — all lines in order.
-/

set_option autoImplicit false

namespace RemoteModels

/-- A line of the tree: a model at a depth, the name of a parent that is no model, or a model whose
parents lead in a circle. -/
inductive TreeLine where
  | model (depth : Nat) (g : Gateway)
  | outside (parent : String)
  | cyclic (g : Gateway)
deriving DecidableEq

/-- A line as it is shown, two spaces for each level. -/
def TreeLine.text : TreeLine → String
  | .model depth g =>
    String.ofList (List.replicate (2 * depth) ' ') ++ g.modelName ++ " [" ++
      ", ".intercalate (g.descriptor.fields.map fun f => f.name ++ ": " ++ f.type) ++ "]"
  | .outside parent => parent ++ " (not a model)"
  | .cyclic g => g.modelName ++ " (cyclic parent " ++ g.parentName ++ ")"

/-- The lines so far, and the models among them. -/
structure TreeWalk where
  lines : List TreeLine := []
  seen : List String := []

namespace Registry

/-- Adds a model and everything below it.  The first argument bounds the depth: no model is entered
twice, so the number of models is enough. -/
def walk (r : Registry) : Nat → Nat → TreeWalk → Gateway → TreeWalk
  | 0, _, w, _ => w
  | fuel + 1, depth, w, g =>
    if w.seen.contains g.modelName then w
    else
      (r.childrenOf g.modelName).foldl (r.walk fuel (depth + 1))
        { lines := w.lines ++ [.model depth g], seen := g.modelName :: w.seen }

/-- Enough depth for every walk. -/
def walkFuel (r : Registry) : Nat := r.size + 1

/-- The names of parents that are no models, in order. -/
def outsideParents (r : Registry) : List String :=
  (((r.gateways.map (·.parentName)).filter fun p => p ≠ noParent && !r.contains p).mergeSort
    fun a b => decide (a ≤ b)).eraseDups

/-- Adds a parent that is no model, and everything below it. -/
def walkOutside (r : Registry) (w : TreeWalk) (parent : String) : TreeWalk :=
  (r.childrenOf parent).foldl (r.walk r.walkFuel 1)
    { w with lines := w.lines ++ [.outside parent] }

/-- The lines of the tree. -/
def tree (r : Registry) : List TreeLine :=
  let w := r.roots.foldl (r.walk r.walkFuel 0) {}
  let w := r.outsideParents.foldl r.walkOutside w
  let left := r.gateways.filter fun g => !w.seen.contains g.modelName
  w.lines ++ left.map .cyclic

end Registry
end RemoteModels
