import RemoteModels.Proofs.Registry.Lookup
import RemoteModels.Proofs.Text.Sorting
import RemoteModels.Tree

/-!
# How the tree is drawn

A walk draws a model, marks it, and goes on with its children, unless the model has been marked
before.  `Registry.walk` carries a bound on its depth; the rules of this file have none.  Each model
is entered once at most, so a walk ends however the parents refer to each other, and it ends before
the bound is reached: the lines of `Registry.tree` are the lines that the rules give, and the only
ones.

* `Registry.Draws`, `Registry.DrawsOutside`, `Registry.Drawn` — the rules of the walk, for models at
  a depth, for parents that are no models, and for the whole tree.
* `Registry.drawn_iff` — the rules draw the tree and nothing else.
* `Registry.Draws.seen_eq`, `Registry.Draws.nodup_seen` — the marks are the models with a line, each
  of them once.
* `Registry.mem_outsideParents`, `Registry.pairwise_outsideParents` — the parents that are no
  models.
-/

set_option autoImplicit false

namespace RemoteModels

namespace TreeLine

/-- The model that a line shows. -/
def gateway? : TreeLine → Option Gateway
  | .model _ g => some g
  | .outside _ => none
  | .cyclic g => some g

/-- The parent that a line names as no model. -/
def outside? : TreeLine → Option String
  | .outside p => some p
  | .model _ _ => none
  | .cyclic _ => none

/-- The models that lines show, in order. -/
def gateways (lines : List TreeLine) : List Gateway := lines.filterMap gateway?

/-- The names of these models. -/
def names (lines : List TreeLine) : List String := (gateways lines).map (·.modelName)

/-- The parents that lines name as no models, in order. -/
def outsides (lines : List TreeLine) : List String := lines.filterMap outside?

@[simp] theorem names_nil : names [] = [] := rfl

@[simp] theorem names_model (depth : Nat) (g : Gateway) (lines : List TreeLine) :
    names (.model depth g :: lines) = g.modelName :: names lines := rfl

@[simp] theorem names_outside (p : String) (lines : List TreeLine) :
    names (.outside p :: lines) = names lines := rfl

@[simp] theorem names_append (l m : List TreeLine) : names (l ++ m) = names l ++ names m := by
  rw [names, gateways, List.filterMap_append, List.map_append]
  rfl

end TreeLine

namespace Registry

variable {r : Registry} {depth : Nat} {gs : List Gateway} {parents : List String}
  {seen seen' : List String} {lines : List TreeLine}

/-! ## The rules

They are those of the walk, without a bound.  What they draw is a matter of derivation, and that
there is something to derive has to be shown. -/

/-- `r.Draws depth gs seen lines seen'`: with the models `seen` marked, drawing the models `gs` at a
depth, each with what is below it, gives `lines`, and then the models `seen'` are marked. -/
inductive Draws (r : Registry) :
    Nat → List Gateway → List String → List TreeLine → List String → Prop
  | nil {depth : Nat} {seen : List String} : Draws r depth [] seen [] seen
  | skip {depth : Nat} {g : Gateway} {gs : List Gateway} {seen seen' : List String}
      {lines : List TreeLine} (hseen : g.modelName ∈ seen)
      (hrest : Draws r depth gs seen lines seen') : Draws r depth (g :: gs) seen lines seen'
  | enter {depth : Nat} {g : Gateway} {gs : List Gateway} {seen seen' seen'' : List String}
      {below lines : List TreeLine} (hnew : g.modelName ∉ seen)
      (hbelow : Draws r (depth + 1) (r.childrenOf g.modelName) (g.modelName :: seen) below seen')
      (hrest : Draws r depth gs seen' lines seen'') :
      Draws r depth (g :: gs) seen (.model depth g :: (below ++ lines)) seen''

/-- The same for parents that are no models, each with its children. -/
inductive DrawsOutside (r : Registry) :
    List String → List String → List TreeLine → List String → Prop
  | nil {seen : List String} : DrawsOutside r [] seen [] seen
  | cons {p : String} {parents seen seen' seen'' : List String} {below lines : List TreeLine}
      (hbelow : r.Draws 1 (r.childrenOf p) seen below seen')
      (hrest : DrawsOutside r parents seen' lines seen'') :
      DrawsOutside r (p :: parents) seen (.outside p :: (below ++ lines)) seen''

/-- The models without a mark. -/
def unmarked (r : Registry) (seen : List String) : List Gateway :=
  r.gateways.filter fun g => !seen.contains g.modelName

/-- The lines of the whole tree: models without a parent, parents that are no models, and the models
that have no mark after these. -/
inductive Drawn (r : Registry) : List TreeLine → Prop
  | intro {trees below : List TreeLine} {seen seen' : List String}
      (htrees : r.Draws 0 r.roots [] trees seen)
      (hbelow : r.DrawsOutside r.outsideParents seen below seen') :
      Drawn r (trees ++ below ++ (r.unmarked seen').map .cyclic)

/-! ## Marks

Marks are what keeps a walk from going round in a circle.  They are only ever added, in the order of
the lines. -/

/-- **The new marks are the models with a line.** -/
theorem Draws.seen_eq (h : r.Draws depth gs seen lines seen') :
    seen' = (TreeLine.names lines).reverse ++ seen := by
  induction h with
  | nil => rfl
  | skip _ _ ih => exact ih
  | enter _ _ _ ihbelow ihrest => simp [ihrest, ihbelow]

/-- **No model is marked twice.** -/
theorem Draws.nodup_seen (h : r.Draws depth gs seen lines seen') (hseen : seen.Nodup) :
    seen'.Nodup := by
  induction h with
  | nil => exact hseen
  | skip _ _ ih => exact ih hseen
  | enter hnew _ _ ihbelow ihrest => exact ihrest (ihbelow (List.nodup_cons.2 ⟨hnew, hseen⟩))

/-- Marks are kept. -/
theorem Draws.subset_seen (h : r.Draws depth gs seen lines seen') : seen ⊆ seen' := by
  rw [h.seen_eq]
  exact List.subset_append_right _ _

/-- All models that were to be drawn are marked. -/
theorem Draws.mem_seen (h : r.Draws depth gs seen lines seen') {g : Gateway} (hg : g ∈ gs) :
    g.modelName ∈ seen' := by
  induction h with
  | nil => cases hg
  | skip hseen hrest ih =>
    rcases List.mem_cons.1 hg with rfl | hg
    · exact hrest.subset_seen hseen
    · exact ih hg
  | enter _ hbelow hrest _ ihrest =>
    rcases List.mem_cons.1 hg with rfl | hg
    · exact hrest.subset_seen (hbelow.subset_seen List.mem_cons_self)
    · exact ihrest hg

/-- The same for parents that are no models. -/
theorem DrawsOutside.seen_eq (h : r.DrawsOutside parents seen lines seen') :
    seen' = (TreeLine.names lines).reverse ++ seen := by
  induction h with
  | nil => rfl
  | cons hbelow _ ih => simp [ih, hbelow.seen_eq]

theorem DrawsOutside.nodup_seen (h : r.DrawsOutside parents seen lines seen')
    (hseen : seen.Nodup) : seen'.Nodup := by
  induction h with
  | nil => exact hseen
  | cons hbelow _ ih => exact ih (hbelow.nodup_seen hseen)

theorem DrawsOutside.subset_seen (h : r.DrawsOutside parents seen lines seen') :
    seen ⊆ seen' := by
  rw [h.seen_eq]
  exact List.subset_append_right _ _

/-! ## Lines

Only models of the registry are drawn, and the depth says which pass drew them. -/

/-- Every line is that of a model of the registry, at the depth of the walk or below. -/
theorem Draws.exists_model (h : r.Draws depth gs seen lines seen')
    (hgs : ∀ g ∈ gs, g ∈ r.gateways) :
    ∀ l ∈ lines, ∃ k g, depth ≤ k ∧ g ∈ r.gateways ∧ l = .model k g := by
  induction h with
  | nil => simp
  | skip _ _ ih => exact ih fun g hg => hgs g (List.mem_cons_of_mem _ hg)
  | @enter depth g _ _ _ _ _ _ _ _ _ ihbelow ihrest =>
    intro l hl
    rcases List.mem_cons.1 hl with rfl | hl
    · exact ⟨depth, g, Nat.le_refl _, hgs g List.mem_cons_self, rfl⟩
    rcases List.mem_append.1 hl with hl | hl
    · obtain ⟨k, c, hk, hc, rfl⟩ := ihbelow mem_of_mem_childrenOf l hl
      exact ⟨k, c, by omega, hc, rfl⟩
    · exact ihrest (fun g hg => hgs g (List.mem_cons_of_mem _ hg)) l hl

/-- Every line is a parent's own or that of a model of the registry, which is not at depth 0. -/
theorem DrawsOutside.exists_line (h : r.DrawsOutside parents seen lines seen') :
    ∀ l ∈ lines, (∃ p ∈ parents, l = .outside p) ∨
      ∃ k g, 1 ≤ k ∧ g ∈ r.gateways ∧ l = .model k g := by
  induction h with
  | nil => simp
  | cons hbelow _ ih =>
    intro l hl
    rcases List.mem_cons.1 hl with rfl | hl
    · exact .inl ⟨_, List.mem_cons_self, rfl⟩
    rcases List.mem_append.1 hl with hl | hl
    · exact .inr (hbelow.exists_model mem_of_mem_childrenOf l hl)
    · refine (ih l hl).imp_left ?_
      rintro ⟨p, hp, rfl⟩
      exact ⟨p, List.mem_cons_of_mem _ hp, rfl⟩

/-! ## One outcome

The rules leave no choice: whether a model is entered depends on the marks. -/

/-- The lines of a walk are determined. -/
theorem Draws.unique {lines₂ : List TreeLine} {seen₂ : List String}
    (h : r.Draws depth gs seen lines seen') (h₂ : r.Draws depth gs seen lines₂ seen₂) :
    lines = lines₂ ∧ seen' = seen₂ := by
  induction h generalizing lines₂ seen₂ with
  | nil =>
    cases h₂
    exact ⟨rfl, rfl⟩
  | skip hseen _ ih =>
    cases h₂ with
    | skip _ hrest₂ => exact ih hrest₂
    | enter hnew₂ _ _ => exact absurd hseen hnew₂
  | enter hnew _ _ ihbelow ihrest =>
    cases h₂ with
    | skip hseen₂ _ => exact absurd hseen₂ hnew
    | enter _ hbelow₂ hrest₂ =>
      obtain ⟨rfl, rfl⟩ := ihbelow hbelow₂
      obtain ⟨rfl, rfl⟩ := ihrest hrest₂
      exact ⟨rfl, rfl⟩

/-- So are those below parents that are no models. -/
theorem DrawsOutside.unique {lines₂ : List TreeLine} {seen₂ : List String}
    (h : r.DrawsOutside parents seen lines seen')
    (h₂ : r.DrawsOutside parents seen lines₂ seen₂) : lines = lines₂ ∧ seen' = seen₂ := by
  induction h generalizing lines₂ seen₂ with
  | nil =>
    cases h₂
    exact ⟨rfl, rfl⟩
  | cons hbelow _ ih =>
    cases h₂ with
    | cons hbelow₂ hrest₂ =>
      obtain ⟨rfl, rfl⟩ := hbelow.unique hbelow₂
      obtain ⟨rfl, rfl⟩ := ih hrest₂
      exact ⟨rfl, rfl⟩

/-- **The rules draw one tree.** -/
theorem Drawn.unique {lines₂ : List TreeLine} (h : r.Drawn lines) (h₂ : r.Drawn lines₂) :
    lines = lines₂ := by
  obtain ⟨htrees, hbelow⟩ := h
  obtain ⟨htrees₂, hbelow₂⟩ := h₂
  obtain ⟨rfl, rfl⟩ := htrees.unique htrees₂
  obtain ⟨rfl, rfl⟩ := hbelow.unique hbelow₂
  rfl

/-! ## The walk ends

What bounds the depth of a walk is the number of models without a mark: each model that is entered
takes one of them away. -/

/-- More marks leave fewer models. -/
theorem length_unmarked_le (r : Registry) (h : seen ⊆ seen') :
    (r.unmarked seen').length ≤ (r.unmarked seen).length := by
  rw [unmarked, unmarked, ← List.countP_eq_length_filter, ← List.countP_eq_length_filter]
  refine List.countP_mono_left fun g _ hg => ?_
  simp only [Bool.not_eq_true', List.contains_eq_mem, decide_eq_false_iff_not] at hg ⊢
  exact fun hseen => hg (h hseen)

/-- Marking a model leaves one less. -/
theorem length_unmarked_lt {g : Gateway} (hg : g ∈ r.gateways) (hnew : g.modelName ∉ seen) :
    (r.unmarked (g.modelName :: seen)).length < (r.unmarked seen).length := by
  have hmem : g ∈ r.unmarked seen := List.mem_filter.2 ⟨hg, by simpa using hnew⟩
  have hfilter : r.unmarked (g.modelName :: seen)
      = (r.unmarked seen).filter fun x => x.modelName ≠ g.modelName := by
    simp [unmarked, List.filter_filter]
  rw [hfilter]
  exact List.length_filter_lt_length_iff_exists.2 ⟨g, hmem, by simp⟩

/-- A model with a mark is passed over. -/
theorem walk_of_mem {g : Gateway} {w : TreeWalk} (h : g.modelName ∈ w.seen) (fuel depth : Nat) :
    r.walk fuel depth w g = w := by
  cases fuel with
  | zero => rfl
  | succ fuel => rw [walk, if_pos (by simpa using h)]

/-- **A walk with enough fuel follows the rules.** -/
theorem exists_draws (fuel depth : Nat) (gs : List Gateway) (w : TreeWalk)
    (hgs : ∀ g ∈ gs, g ∈ r.gateways) (hfuel : (r.unmarked w.seen).length ≤ fuel) :
    ∃ lines seen, r.Draws depth gs w.seen lines seen ∧
      gs.foldl (r.walk fuel depth) w = ⟨w.lines ++ lines, seen⟩ := by
  induction fuel using Nat.strongRecOn generalizing depth gs w with
  | _ fuel ih =>
  -- The children are drawn with less fuel, and the rest of the row with the same.
  induction gs generalizing w with
  | nil => exact ⟨[], w.seen, .nil, by simp⟩
  | cons g gs ihrest =>
    obtain ⟨hg, hgs⟩ := List.forall_mem_cons.1 hgs
    rw [List.foldl_cons]
    by_cases hseen : g.modelName ∈ w.seen
    · obtain ⟨lines, seen, hrest, hfold⟩ := ihrest w hgs hfuel
      exact ⟨lines, seen, .skip hseen hrest, by rw [walk_of_mem hseen, hfold]⟩
    · have hlt := length_unmarked_lt hg hseen
      obtain ⟨fuel, rfl⟩ : ∃ f, fuel = f + 1 := ⟨fuel - 1, by omega⟩
      obtain ⟨below, seen₁, hbelow, hfold₁⟩ := ih fuel (Nat.lt_succ_self _) (depth + 1)
        (r.childrenOf g.modelName) ⟨w.lines ++ [.model depth g], g.modelName :: w.seen⟩
        mem_of_mem_childrenOf (by dsimp only; omega)
      have hle := length_unmarked_le r
        (List.Subset.trans (List.subset_cons_self _ _) hbelow.subset_seen)
      obtain ⟨lines, seen₂, hrest, hfold₂⟩ := ihrest
        ⟨w.lines ++ [.model depth g] ++ below, seen₁⟩ hgs (by dsimp only at hle ⊢; omega)
      refine ⟨.model depth g :: (below ++ lines), seen₂, .enter hseen hbelow hrest, ?_⟩
      have hwalk : r.walk (fuel + 1) depth w g = ⟨w.lines ++ [.model depth g] ++ below, seen₁⟩ := by
        rw [walk, if_neg (by simpa using hseen), hfold₁]
      rw [hwalk, hfold₂]
      simp

theorem length_unmarked_le_walkFuel (r : Registry) (seen : List String) :
    (r.unmarked seen).length ≤ r.walkFuel :=
  Nat.le_succ_of_le (List.length_filter_le _ _)

/-- The second pass follows its rules. -/
theorem exists_drawsOutside (parents : List String) (w : TreeWalk) :
    ∃ lines seen, r.DrawsOutside parents w.seen lines seen ∧
      parents.foldl r.walkOutside w = ⟨w.lines ++ lines, seen⟩ := by
  induction parents generalizing w with
  | nil => exact ⟨[], w.seen, .nil, by simp⟩
  | cons p parents ih =>
    obtain ⟨below, seen₁, hbelow, hfold₁⟩ := exists_draws r.walkFuel 1 (r.childrenOf p)
      { w with lines := w.lines ++ [.outside p] } mem_of_mem_childrenOf
      (r.length_unmarked_le_walkFuel _)
    obtain ⟨lines, seen₂, hrest, hfold₂⟩ := ih ⟨w.lines ++ [.outside p] ++ below, seen₁⟩
    refine ⟨.outside p :: (below ++ lines), seen₂, .cons hbelow hrest, ?_⟩
    rw [List.foldl_cons, walkOutside, hfold₁, hfold₂]
    simp

/-- The tree has the models without a parent, the parents that are no models, and the rest. -/
theorem exists_tree_eq (r : Registry) :
    ∃ trees seen below seen', r.Draws 0 r.roots [] trees seen ∧
      r.DrawsOutside r.outsideParents seen below seen' ∧
      r.tree = trees ++ below ++ (r.unmarked seen').map .cyclic := by
  obtain ⟨trees, seen, htrees, hfold⟩ := exists_draws r.walkFuel 0 r.roots {}
    mem_of_mem_childrenOf (r.length_unmarked_le_walkFuel _)
  obtain ⟨below, seen', hbelow, hfold'⟩ := exists_drawsOutside r.outsideParents
    (r.roots.foldl (r.walk r.walkFuel 0) {})
  rw [hfold] at hbelow hfold'
  refine ⟨trees, seen, below, seen', htrees, hbelow, ?_⟩
  rw [tree, hfold, hfold']
  rfl

/-- The tree is drawn by the rules. -/
theorem drawn_tree (r : Registry) : r.Drawn r.tree := by
  obtain ⟨trees, seen, below, seen', htrees, hbelow, htree⟩ := r.exists_tree_eq
  rw [htree]
  exact .intro htrees hbelow

/-- **The rules draw the tree and nothing else.** -/
theorem drawn_iff : r.Drawn lines ↔ lines = r.tree :=
  ⟨fun h => h.unique r.drawn_tree, fun h => h ▸ r.drawn_tree⟩

/-! ## Parents that are no models

They are computed by sorting all parents and leaving out repetitions, models, and the sign for no
parent. -/

/-- A name that some model has for its parent, and that is neither that of a model nor the one for
no parent. -/
def IsOutside (r : Registry) (p : String) : Prop :=
  p ≠ noParent ∧ r.get? p = none ∧ ∃ g ∈ r.gateways, g.parentName = p

theorem contains_eq_false_iff {name : String} : r.contains name = false ↔ r.get? name = none := by
  rw [contains, ← Bool.not_eq_true, Option.not_isSome_iff_eq_none]

/-- These are the parents that are no models. -/
theorem mem_outsideParents {p : String} : p ∈ r.outsideParents ↔ r.IsOutside p := by
  simp only [outsideParents, List.mem_eraseDups, List.mem_mergeSort, List.mem_filter, List.mem_map,
    Bool.and_eq_true, decide_eq_true_eq, Bool.not_eq_true', contains_eq_false_iff, IsOutside]
  exact ⟨fun ⟨hg, hp, hget⟩ => ⟨hp, hget, hg⟩, fun ⟨hp, hget, hg⟩ => ⟨hg, hp, hget⟩⟩

/-- Without its repetitions a sorted sequence increases. -/
theorem pairwise_eraseDups {l : List String} (h : l.Pairwise (· ≤ ·)) :
    l.eraseDups.Pairwise (· < ·) := by
  induction hn : l.length using Nat.strongRecOn generalizing l with
  | _ n ih =>
  cases l with
  | nil => exact List.Pairwise.nil
  | cons a rest =>
    obtain ⟨hfirst, hrest⟩ := List.pairwise_cons.1 h
    have hlength : (rest.filter fun b => !b == a).length < n :=
      hn ▸ Nat.lt_succ_of_le (List.length_filter_le _ _)
    rw [List.eraseDups_cons]
    refine List.pairwise_cons.2 ⟨fun b hb => ?_, ih _ hlength (hrest.filter _) rfl⟩
    rw [List.mem_eraseDups, List.mem_filter] at hb
    have hne : b ≠ a := by simpa using hb.2
    exact String.not_le.1 fun hle => hne (String.le_antisymm hle (hfirst b hb.1))

/-- They are in order, each of them once. -/
theorem pairwise_outsideParents (r : Registry) : r.outsideParents.Pairwise (· < ·) :=
  pairwise_eraseDups (Text.pairwise_le_mergeSort id _)

end Registry
end RemoteModels
