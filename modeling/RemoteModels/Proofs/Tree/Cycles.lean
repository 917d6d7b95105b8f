import Mathlib.Data.Finset.Card
import RemoteModels.Proofs.Tree.Coverage

/-!
# Parents that lead in a circle

From a model one can follow the names of parents: to that of its parent, to that of its parent's
parent, and so on.  Either this comes to the name for no parent or to a name that is no model's, and
there it ends; or it goes on for ever, and since there are finitely many models it then goes round
in a circle.  The walks start from where the names end and go the other way, so they come upon
exactly the models of the first kind.  Those of the second kind are left: the models in a circle,
and those below one.

* `Registry.ancestor` — the name so many steps above a model; `Registry.IsTop` — a name at which the
  way up ends.
* `Registry.mem_seen_of_isTop` — every model from which the way up ends is marked in the end.
* `Registry.exists_isTop_of_mem_tree` — only such models are drawn at a depth.
* `Registry.cyclic_iff` — which models are shown as cyclic.
-/

set_option autoImplicit false

namespace RemoteModels
namespace Registry

variable {r : Registry} {depth : Nat} {gs : List Gateway} {parents : List String}
  {seen seen' : List String} {lines : List TreeLine} {g h : Gateway}

/-! ## The way up

Above a name that is no model's there is nothing, and the way up stays where it is. -/

/-- The name of the parent of the model with this name; the name itself, if it is no model's. -/
def parentOf (r : Registry) (name : String) : String :=
  ((r.get? name).map (·.parentName)).getD name

/-- The name that is reached from a model by following the names of parents: its parent's name, and
from there so many steps further up. -/
def ancestor (r : Registry) (g : Gateway) : Nat → String
  | 0 => g.parentName
  | n + 1 => r.parentOf (r.ancestor g n)

/-- A name at which the way up ends: the one for no parent, or one that is no model's. -/
def IsTop (r : Registry) (name : String) : Prop := name = noParent ∨ r.contains name = false

/-- Where the way up goes on, there is a model. -/
theorem get?_of_not_isTop {name : String} (h : ¬ r.IsTop name) : ∃ p, r.get? name = some p := by
  have hcontains : r.contains name = true := by
    simpa using fun h' => h (.inr h')
  exact Option.isSome_iff_exists.1 hcontains

/-- One step further up from a model is one step less from its parent. -/
theorem ancestor_succ_of_get? (hp : r.get? g.parentName = some h) (n : Nat) :
    r.ancestor g (n + 1) = r.ancestor h n := by
  induction n with
  | zero => simp [ancestor, parentOf, hp]
  | succ n ih => rw [ancestor, ih, ancestor]

/-! ## Models from which the way up ends

Marks go down and the way up goes up.  A marked model has its children marked, and this is carried
along the way by induction on its length. -/

/-- With a model its children are marked. -/
theorem Draws.mem_seen_of_names (h : r.Draws depth gs seen lines seen') {name : String}
    (hname : name ∈ TreeLine.names lines) {c : Gateway} (hc : c ∈ r.childrenOf name) :
    c.modelName ∈ seen' := by
  induction h with
  | nil => cases hname
  | skip _ _ ih => exact ih hname
  | enter _ hbelow hrest ihbelow ihrest =>
    rw [TreeLine.names_model, TreeLine.names_append, List.mem_cons, List.mem_append] at hname
    rcases hname with rfl | hname | hname
    · exact hrest.subset_seen (hbelow.mem_seen hc)
    · exact hrest.subset_seen (ihbelow hname)
    · exact ihrest hname

/-- The same below parents that are no models. -/
theorem DrawsOutside.mem_seen_of_names (h : r.DrawsOutside parents seen lines seen') {name : String}
    (hname : name ∈ TreeLine.names lines) {c : Gateway} (hc : c ∈ r.childrenOf name) :
    c.modelName ∈ seen' := by
  induction h with
  | nil => cases hname
  | cons hbelow hrest ih =>
    rw [TreeLine.names_outside, TreeLine.names_append, List.mem_append] at hname
    rcases hname with hname | hname
    · exact hrest.subset_seen (hbelow.mem_seen_of_names hname hc)
    · exact ih hname

/-- With a parent that is no model its children are marked. -/
theorem DrawsOutside.mem_seen (h : r.DrawsOutside parents seen lines seen') {p : String}
    (hp : p ∈ parents) {c : Gateway} (hc : c ∈ r.childrenOf p) : c.modelName ∈ seen' := by
  induction h with
  | nil => cases hp
  | cons hbelow hrest ih =>
    rcases List.mem_cons.1 hp with rfl | hp
    · exact hrest.subset_seen (hbelow.mem_seen hc)
    · exact ih hp

/-- **Every model from which the way up ends is marked in the end.** -/
theorem mem_seen_of_isTop {trees below : List TreeLine} (htrees : r.Draws 0 r.roots [] trees seen)
    (hbelow : r.DrawsOutside r.outsideParents seen below seen') (hg : g ∈ r.gateways) {n : Nat}
    (htop : r.IsTop (r.ancestor g n)) : g.modelName ∈ seen' := by
  have hparent : ∀ g ∈ r.gateways, r.IsTop g.parentName → g.modelName ∈ seen' := by
    intro g hg htop
    by_cases hnone : g.parentName = noParent
    · exact hbelow.subset_seen (htrees.mem_seen (mem_childrenOf.2 ⟨hg, hnone⟩))
    · have hget := contains_eq_false_iff.1 (htop.resolve_left hnone)
      have houtside : g.parentName ∈ r.outsideParents :=
        mem_outsideParents.2 ⟨hnone, hget, g, hg, rfl⟩
      exact hbelow.mem_seen houtside (mem_childrenOf.2 ⟨hg, rfl⟩)
  induction n generalizing g with
  | zero => exact hparent g hg htop
  | succ n ih =>
    by_cases hfirst : r.IsTop g.parentName
    · exact hparent g hg hfirst
    · obtain ⟨p, hp⟩ := get?_of_not_isTop hfirst
      have hname := modelName_of_get? hp
      rw [ancestor_succ_of_get? hp] at htop
      have hmark := ih (mem_iff_get?.2 (hname ▸ hp)) htop
      have hchild : g ∈ r.childrenOf p.modelName := mem_childrenOf.2 ⟨hg, hname.symm⟩
      -- The parent's mark comes from a line of one of the two passes.
      rw [hbelow.seen_eq, List.mem_append, List.mem_reverse] at hmark
      rcases hmark with hmark | hmark
      · exact hbelow.mem_seen_of_names hmark hchild
      · rw [htrees.seen_eq, List.append_nil, List.mem_reverse] at hmark
        exact hbelow.subset_seen (htrees.mem_seen_of_names hmark hchild)

/-! ## Only these are drawn at a depth

The other way round: what is drawn at a depth is a root, or stands below a parent that is no model,
or below a model for which this is known. -/

/-- Where the way up ends for all models that are to be drawn, it ends for all that are drawn. -/
theorem Draws.exists_isTop (h : r.Draws depth gs seen lines seen')
    (hgs : ∀ g ∈ gs, g ∈ r.gateways) (htop : ∀ g ∈ gs, ∃ n, r.IsTop (r.ancestor g n)) :
    ∀ k g, .model k g ∈ lines → ∃ n, r.IsTop (r.ancestor g n) := by
  induction h with
  | nil => simp
  | skip _ _ ih =>
    exact ih (fun g hg => hgs g (List.mem_cons_of_mem _ hg))
      fun g hg => htop g (List.mem_cons_of_mem _ hg)
  | @enter _ g _ _ _ _ _ _ _ _ _ ihbelow ihrest =>
    obtain ⟨hg, hgs⟩ := List.forall_mem_cons.1 hgs
    obtain ⟨⟨n, hn⟩, htop⟩ := List.forall_mem_cons.1 htop
    have hchildren : ∀ c ∈ r.childrenOf g.modelName, ∃ n, r.IsTop (r.ancestor c n) := by
      intro c hc
      rw [← ancestor_succ_of_get? (get?_parentName_of_mem hg hc)] at hn
      exact ⟨n + 1, hn⟩
    intro k h hh
    rcases List.mem_cons.1 hh with heq | hh
    · cases heq
      exact ⟨n, hn⟩
    rcases List.mem_append.1 hh with hh | hh
    · exact ihbelow mem_of_mem_childrenOf hchildren k h hh
    · exact ihrest hgs htop k h hh

/-- Below a parent that is no model, the way up ends there. -/
theorem DrawsOutside.exists_isTop (h : r.DrawsOutside parents seen lines seen')
    (hparents : ∀ p ∈ parents, r.IsOutside p) :
    ∀ k g, .model k g ∈ lines → ∃ n, r.IsTop (r.ancestor g n) := by
  induction h with
  | nil => simp
  | cons hbelow _ ih =>
    obtain ⟨hp, hparents⟩ := List.forall_mem_cons.1 hparents
    intro k g hg
    rcases List.mem_cons.1 hg with heq | hg
    · cases heq
    rcases List.mem_append.1 hg with hg | hg
    · refine hbelow.exists_isTop mem_of_mem_childrenOf (fun c hc => ⟨0, ?_⟩) k g hg
      rw [ancestor, (mem_childrenOf.1 hc).2]
      exact .inr (contains_eq_false_iff.2 hp.2.1)
    · exact ih hparents k g hg

/-- **Only models from which the way up ends are drawn at a depth.** -/
theorem exists_isTop_of_mem_tree (hg : .model depth g ∈ r.tree) :
    ∃ n, r.IsTop (r.ancestor g n) := by
  obtain ⟨trees, seen, below, seen', htrees, hbelow, htree⟩ := r.exists_tree_eq
  rw [htree, List.mem_append, List.mem_append] at hg
  rcases hg with (hg | hg) | hg
  · exact htrees.exists_isTop mem_of_mem_childrenOf
      (fun g hg => ⟨0, .inl (mem_childrenOf.1 hg).2⟩) _ g hg
  · exact hbelow.exists_isTop (fun p hp => mem_outsideParents.1 hp) _ g hg
  · obtain ⟨_, -, heq⟩ := List.mem_map.1 hg
    cases heq

/-- A model that is shown as cyclic has no mark, so the way up from it does not end. -/
theorem not_isTop_of_cyclic_mem (hg : .cyclic g ∈ r.tree) (n : Nat) :
    ¬ r.IsTop (r.ancestor g n) := by
  obtain ⟨trees, seen, below, seen', htrees, hbelow, htree⟩ := r.exists_tree_eq
  have hroots : ∀ g ∈ r.roots, g ∈ r.gateways := mem_of_mem_childrenOf
  rw [htree, List.mem_append, List.mem_append] at hg
  rcases hg with (hg | hg) | hg
  · obtain ⟨_, _, -, -, heq⟩ := htrees.exists_model hroots _ hg
    cases heq
  · rcases hbelow.exists_line _ hg with ⟨_, -, heq⟩ | ⟨_, _, -, -, heq⟩ <;> cases heq
  · obtain ⟨_, hleft, heq⟩ := List.mem_map.1 hg
    cases heq
    obtain ⟨hmem, hmark⟩ := mem_unmarked.1 hleft
    exact fun htop => hmark (mem_seen_of_isTop htrees hbelow hmem htop)

/-! ## Circles

There are finitely many names, so a way up that does not end comes to some name twice; from there on
it repeats itself. -/

/-- What comes after a name depends on the name alone. -/
theorem ancestor_add_of_eq {n k : Nat} (h : r.ancestor g (n + k) = r.ancestor g n) (m : Nat) :
    r.ancestor g (n + k + m) = r.ancestor g (n + m) := by
  induction m with
  | zero => exact h
  | succ m ih => rw [← Nat.add_assoc, ← Nat.add_assoc, ancestor, ancestor, ih]

/-- **A way up that does not end goes round in a circle**, and one that has gone round once does not
end. -/
theorem forall_not_isTop_iff : (∀ n, ¬ r.IsTop (r.ancestor g n)) ↔
    ∃ n k, 0 < k ∧ r.ancestor g (n + k) = r.ancestor g n ∧
      ∀ m < n + k, ¬ r.IsTop (r.ancestor g m) := by
  constructor
  · intro hnever
    have hmem : ∀ n ∈ Finset.range (r.size + 1), r.ancestor g n ∈ r.names.toFinset := by
      intro n _
      exact List.mem_toFinset.2 (mem_names_iff.2 (get?_of_not_isTop (hnever n)))
    have hcard : r.names.toFinset.card < (Finset.range (r.size + 1)).card := by
      have hle := r.names.toFinset_card_le
      rw [names, List.length_map] at hle
      rw [Finset.card_range]
      exact Nat.lt_succ_of_le hle
    obtain ⟨a, -, b, -, hne, heq⟩ := Finset.exists_ne_map_eq_of_card_lt_of_maps_to hcard hmem
    rcases Nat.lt_or_gt_of_ne hne with hab | hab
    · exact ⟨a, b - a, by omega, by rw [Nat.add_sub_of_le hab.le, heq], fun m _ => hnever m⟩
    · exact ⟨b, a - b, by omega, by rw [Nat.add_sub_of_le hab.le, heq], fun m _ => hnever m⟩
  · rintro ⟨n, k, hk, hcircle, hbefore⟩ m
    induction m using Nat.strongRecOn with
    | _ m ih =>
      by_cases hm : m < n + k
      · exact hbefore m hm
      · obtain ⟨j, rfl⟩ := Nat.exists_eq_add_of_le (Nat.not_lt.1 hm)
        rw [ancestor_add_of_eq hcircle]
        exact ih (n + j) (by omega)

/-- **Which models are shown as cyclic**: those from which the names of parents never come to the
one for no parent, nor to one that is no model's, so that they go round in a circle.  Every other
model is shown at a depth. -/
theorem cyclic_iff (hg : g ∈ r.gateways) :
    (.cyclic g ∈ r.tree ↔
      ∀ n, r.ancestor g n ≠ noParent ∧ r.contains (r.ancestor g n) = true) ∧
    (.cyclic g ∈ r.tree ↔ ∃ n k, 0 < k ∧ r.ancestor g (n + k) = r.ancestor g n ∧
      ∀ m < n + k, r.ancestor g m ≠ noParent ∧ r.contains (r.ancestor g m) = true) ∧
    ((∃ depth, .model depth g ∈ r.tree) ↔
      ∃ n, r.ancestor g n = noParent ∨ r.contains (r.ancestor g n) = false) := by
  have hshown : (∃ depth, .model depth g ∈ r.tree) ∨ .cyclic g ∈ r.tree :=
    TreeLine.mem_gateways.1 (mem_gateways_tree.2 hg)
  have hcyclic : .cyclic g ∈ r.tree ↔ ∀ n, ¬ r.IsTop (r.ancestor g n) := by
    refine ⟨not_isTop_of_cyclic_mem, fun hnever => hshown.resolve_left ?_⟩
    rintro ⟨depth, hmodel⟩
    obtain ⟨n, hn⟩ := exists_isTop_of_mem_tree hmodel
    exact hnever n hn
  have hmodel : (∃ depth, .model depth g ∈ r.tree) ↔ ∃ n, r.IsTop (r.ancestor g n) := by
    refine ⟨fun ⟨depth, h⟩ => exists_isTop_of_mem_tree h, fun ⟨n, hn⟩ => hshown.resolve_right ?_⟩
    exact fun h => hcyclic.1 h n hn
  have hopen : ∀ name, ¬ r.IsTop name ↔ name ≠ noParent ∧ r.contains name = true := by
    simp [IsTop]
  refine ⟨?_, ?_, hmodel⟩
  · simpa only [hopen] using hcyclic
  · simpa only [hopen] using hcyclic.trans forall_not_isTop_iff

end Registry

namespace MixedTree

/-- A model below a circle is in none itself, but its parents come to one.  A model below the one
named `none` is shown at a depth. -/
theorem belowCycle_cyclic : belowCycle ∈ registry.gateways ∧ underNone ∈ registry.gateways ∧
    .cyclic belowCycle ∈ registry.tree ∧
    (∀ n, registry.ancestor belowCycle n ≠ noParent ∧
      registry.contains (registry.ancestor belowCycle n) = true) ∧
    (∀ n, registry.ancestor belowCycle n ≠ belowCycle.modelName) ∧
    .cyclic underNone ∉ registry.tree := by
  have hbelow : belowCycle ∈ registry.gateways := by decide +kernel
  have hunder : underNone ∈ registry.gateways := by decide +kernel
  have hshown : .cyclic belowCycle ∈ registry.tree := by decide +kernel
  have hround : ∀ n,
      registry.ancestor belowCycle n = "Hen" ∨ registry.ancestor belowCycle n = "Egg" := by
    intro n
    induction n with
    | zero => exact .inl rfl
    | succ n ih =>
      rw [Registry.ancestor]
      rcases ih with ih | ih
      · rw [ih]
        exact .inr (by decide +kernel)
      · rw [ih]
        exact .inl (by decide +kernel)
  refine ⟨hbelow, hunder, hshown, (Registry.cyclic_iff hbelow).1.1 hshown, fun n => ?_, fun h => ?_⟩
  · rcases hround n with h | h <;> rw [h] <;> decide
  · exact ((Registry.cyclic_iff hunder).1.1 h 0).1 rfl

end MixedTree
end RemoteModels
