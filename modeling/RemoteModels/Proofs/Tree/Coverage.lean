import Mathlib.Data.List.Nodup
import RemoteModels.Proofs.Tree.Drawing

/-!
# What the tree shows

Models are drawn in three passes: from those without a parent, from the parents that are no models,
and last whatever has not been drawn.  The passes share their marks, so that a model which two of
them come upon, or one of them twice, is drawn by the first; and the last pass draws all that are
left.  Hence there is one line for each model, and one for each parent that is no model.

* `Registry.nodup_names_tree`, `Registry.mem_gateways_tree` — no model twice, and none lost.
* `Registry.outsides_tree` — the parents that are no models.
* `Registry.tree_complete` — the lines of the tree, all told.
-/

set_option autoImplicit false

namespace RemoteModels

namespace TreeLine

/-- A line shows a model, or a parent that is none. -/
theorem length_eq (lines : List TreeLine) :
    lines.length = (gateways lines).length + (outsides lines).length := by
  induction lines with
  | nil => rfl
  | cons l lines ih =>
    rw [List.length_cons, ih]
    cases l <;> simp [gateways, outsides, List.filterMap_cons, gateway?, outside?] <;> omega

theorem gateways_append (l m : List TreeLine) : gateways (l ++ m) = gateways l ++ gateways m :=
  List.filterMap_append

theorem outsides_append (l m : List TreeLine) : outsides (l ++ m) = outsides l ++ outsides m :=
  List.filterMap_append

theorem gateways_map_cyclic (gs : List Gateway) : gateways (gs.map .cyclic) = gs := by
  rw [gateways, List.filterMap_map]
  exact List.filterMap_some

theorem names_map_cyclic (gs : List Gateway) :
    names (gs.map .cyclic) = gs.map (·.modelName) := by
  rw [names, gateways_map_cyclic]

/-- A model is shown at a depth, or as cyclic. -/
theorem mem_gateways {lines : List TreeLine} {g : Gateway} :
    g ∈ gateways lines ↔ (∃ depth, .model depth g ∈ lines) ∨ .cyclic g ∈ lines := by
  rw [gateways, List.mem_filterMap]
  constructor
  · rintro ⟨l, hl, hg⟩
    cases l with
    | model depth h => exact .inl ⟨depth, Option.some.inj hg ▸ hl⟩
    | outside p => cases hg
    | cyclic h => exact .inr (Option.some.inj hg ▸ hl)
  · rintro (⟨depth, hl⟩ | hl)
    · exact ⟨_, hl, rfl⟩
    · exact ⟨_, hl, rfl⟩

end TreeLine

namespace Registry

variable {r : Registry} {depth : Nat} {gs : List Gateway} {parents : List String}
  {seen seen' : List String} {lines : List TreeLine}

/-! ## Models

The marks of the first two passes are the models they have drawn, and the third pass takes what has
no mark. -/

/-- What has no mark. -/
theorem mem_unmarked {g : Gateway} :
    g ∈ r.unmarked seen ↔ g ∈ r.gateways ∧ g.modelName ∉ seen := by
  simp [unmarked]

/-- **No model has two lines.** -/
theorem nodup_names_tree (r : Registry) : (TreeLine.names r.tree).Nodup := by
  obtain ⟨trees, seen, below, seen', htrees, hbelow, htree⟩ := r.exists_tree_eq
  have hseen : seen' = (TreeLine.names (trees ++ below)).reverse := by
    rw [hbelow.seen_eq, htrees.seen_eq]
    simp
  have hdrawn : (TreeLine.names (trees ++ below)).Nodup := by
    have hnodup := hbelow.nodup_seen (htrees.nodup_seen List.nodup_nil)
    rwa [hseen, List.nodup_reverse] at hnodup
  have hrest : ((r.unmarked seen').map (·.modelName)).Nodup :=
    r.nodup_names.sublist (List.filter_sublist.map _)
  rw [htree, TreeLine.names_append, TreeLine.names_map_cyclic]
  refine hdrawn.append hrest fun name hname hleft => ?_
  obtain ⟨g, hg, rfl⟩ := List.mem_map.1 hleft
  have hnew := (mem_unmarked.1 hg).2
  rw [hseen, List.mem_reverse] at hnew
  exact hnew hname

/-- **The tree shows the models of the registry, and all of them.** -/
theorem mem_gateways_tree {g : Gateway} : g ∈ TreeLine.gateways r.tree ↔ g ∈ r.gateways := by
  obtain ⟨trees, seen, below, seen', htrees, hbelow, htree⟩ := r.exists_tree_eq
  have hroots : ∀ g ∈ r.roots, g ∈ r.gateways := mem_of_mem_childrenOf
  have hdrawn : ∀ g ∈ TreeLine.gateways (trees ++ below), g ∈ r.gateways := by
    intro g hg
    obtain ⟨l, hl, hlg⟩ := List.mem_filterMap.1 hg
    rcases List.mem_append.1 hl with hl | hl
    · obtain ⟨k, h, -, hh, rfl⟩ := htrees.exists_model hroots l hl
      exact Option.some.inj hlg ▸ hh
    · rcases hbelow.exists_line l hl with ⟨p, -, rfl⟩ | ⟨k, h, -, hh, rfl⟩
      · cases hlg
      · exact Option.some.inj hlg ▸ hh
  rw [htree, TreeLine.gateways_append, TreeLine.gateways_map_cyclic, List.mem_append, mem_unmarked]
  constructor
  · rintro (hg | ⟨hg, -⟩)
    · exact hdrawn g hg
    · exact hg
  · intro hg
    by_cases hmark : g.modelName ∈ seen'
    · -- A mark comes from a line, and there is one model of that name.
      rw [hbelow.seen_eq, htrees.seen_eq] at hmark
      have hname : g.modelName ∈ TreeLine.names (trees ++ below) := by
        simpa [or_comm] using hmark
      obtain ⟨h, hh, hhg⟩ := List.mem_map.1 hname
      exact .inl (eq_of_modelName_eq (hdrawn h hh) hg hhg ▸ hh)
    · exact .inr ⟨hg, hmark⟩

/-! ## Parents that are no models

The second pass names each of them in front of its children, and walks never name one. -/

/-- A walk draws models only. -/
theorem Draws.outsides_eq (h : r.Draws depth gs seen lines seen') :
    TreeLine.outsides lines = [] := by
  induction h with
  | nil => rfl
  | skip _ _ ih => exact ih
  | enter _ _ _ ihbelow ihrest =>
    show TreeLine.outsides (_ ++ _) = []
    rw [TreeLine.outsides_append, ihbelow, ihrest]
    rfl

/-- Each of the parents is named once. -/
theorem DrawsOutside.outsides_eq (h : r.DrawsOutside parents seen lines seen') :
    TreeLine.outsides lines = parents := by
  induction h with
  | nil => rfl
  | @cons p _ _ _ _ _ _ hbelow _ ih =>
    show p :: TreeLine.outsides (_ ++ _) = _
    rw [TreeLine.outsides_append, hbelow.outsides_eq, ih]
    rfl

/-- **The tree names the parents that are no models, in their order.** -/
theorem outsides_tree (r : Registry) : TreeLine.outsides r.tree = r.outsideParents := by
  obtain ⟨trees, seen, below, seen', htrees, hbelow, htree⟩ := r.exists_tree_eq
  have hcyclic : TreeLine.outsides ((r.unmarked seen').map .cyclic) = [] := by
    simp [TreeLine.outsides, TreeLine.outside?]
  rw [htree, TreeLine.outsides_append, TreeLine.outsides_append, htrees.outsides_eq,
    hbelow.outsides_eq, hcyclic]
  simp

/-! ## All lines

The counts are put together: the lines are the models and the parents that are none. -/

/-- **What the tree shows**, whatever the parents refer to.  The rules of drawing, which put no
bound on a walk, come to an end with these lines and with no others.  They show each model of the
registry once; they name, once each, the parents that are neither a model nor the sign for no
parent; and there are no other lines. -/
theorem tree_complete (r : Registry) :
    (∀ lines, r.Drawn lines ↔ lines = r.tree) ∧
    (TreeLine.gateways r.tree).Perm r.gateways ∧
    (TreeLine.names r.tree).Nodup ∧
    (TreeLine.outsides r.tree).Nodup ∧
    (∀ p, p ∈ TreeLine.outsides r.tree ↔
      p ≠ noParent ∧ r.contains p = false ∧ ∃ g ∈ r.gateways, g.parentName = p) ∧
    r.tree.length = r.size + (TreeLine.outsides r.tree).length := by
  have hperm : (TreeLine.gateways r.tree).Perm r.gateways :=
    (List.perm_ext_iff_of_nodup r.nodup_names_tree.of_map r.nodup_gateways).2
      fun _ => mem_gateways_tree
  refine ⟨fun _ => drawn_iff, hperm, r.nodup_names_tree, ?_, fun p => ?_, ?_⟩
  · rw [outsides_tree]
    exact r.pairwise_outsideParents.imp String.ne_of_lt
  · rw [outsides_tree, mem_outsideParents, IsOutside, contains_eq_false_iff]
  · rw [TreeLine.length_eq, hperm.length_eq]
    rfl

end Registry

/-! ## A tree with all kinds of lines

A model may be named like the sign for no parent.  Models without a parent are then its children
too, and one of them is drawn there if the walk comes by before its own turn. -/

namespace MixedTree

/-- A model without fields. -/
def model (fullName localName parent : String) : Gateway := ⟨⟨fullName, localName, parent, []⟩⟩

/-- It has no parent, and is found below the model named `none`. -/
def underNone : Gateway := model "Weed" "Weed" noParent

/-- Its parent is one of two models that are each other's parents. -/
def belowCycle : Gateway := model "farm.Chick" "Chick" "Hen"

/-- Models below one that is named `none`, a model whose parent is no model, two models that are
each other's parents, and one below them. -/
def registry : Registry :=
  (Registry.ofDescriptors ([model "Tree" "Tree" noParent, model "Branch" "Branch" "Tree",
    model "none" "none" "Branch", underNone, model "lake.Reed" "Reed" "lake",
    model "Hen" "Hen" "Egg", model "Egg" "Egg" "Hen", belowCycle].map (·.descriptor))).1

-- The model `Weed` has no parent, but the model named `none` takes it before its turn comes.
example : registry.tree.map TreeLine.text
    = ["Tree []", "  Branch []", "    none []", "      Weed []", "lake (not a model)", "  Reed []",
      "Chick (cyclic parent Hen)", "Egg (cyclic parent Hen)", "Hen (cyclic parent Egg)"] := by
  decide +kernel

end MixedTree
end RemoteModels
