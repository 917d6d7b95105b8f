import RemoteModels.Proofs.Text.Bytewise
import RemoteModels.Proofs.Tree.Coverage

/-!
# What the indentation says

The lines of the tree are a flat sequence; what is below what is said by their depths alone.  A
reader takes a line to hang under the nearest line before it that is one step less deep.  This finds
the right parent for every model: while the models below a line are drawn, that line stays the
nearest of its depth, because everything that is drawn in between is deeper.

* `TreeLine.HangsUnder` — what a reader takes a line to hang under.
* `Registry.Placed` — a line is in its place, in view of the lines before it.
* `Registry.Draws.allPlaced` — every line of a walk is in its place.
* `Registry.InOrder`, `Registry.tree_inOrder` — the tree as a reader sees it.
-/

set_option autoImplicit false

namespace RemoteModels

open Text (Bytewise)

namespace TreeLine

/-- How far a line is indented. -/
def depth : TreeLine → Nat
  | .model depth _ => depth
  | .outside _ => 0
  | .cyclic _ => 0

/-- Line `j` hangs under line `i`: this is the nearest line before it that is one step less deep. -/
def HangsUnder (lines : List TreeLine) (i j : Nat) : Prop :=
  ∃ a b, lines[i]? = some a ∧ lines[j]? = some b ∧ i < j ∧ b.depth = a.depth + 1 ∧
    ∀ k c, i < k → k < j → lines[k]? = some c → c.depth ≠ a.depth

end TreeLine

open TreeLine (HangsUnder)

namespace Registry

variable {r : Registry} {depth : Nat} {gs : List Gateway} {parents : List String}
  {seen seen' : List String} {before lines : List TreeLine} {g : Gateway}

/-! ## Lines in their places

A line is judged by those in front of it.  This can be carried along a walk: a line that is added
changes nothing for those before it. -/

/-- A line is that of the parent of a model. -/
def IsParentLine (r : Registry) (g : Gateway) (a : TreeLine) : Prop :=
  (∃ p, r.get? g.parentName = some p ∧ a = .model a.depth p) ∨
    r.get? g.parentName = none ∧ a = .outside g.parentName

/-- A line is in its place behind the lines `before`.  A model at depth 0 has no parent; a deeper
one has its parent's line, as the last one of the depth above it.  And of the lines that come before
it in the same row, each has a smaller name. -/
def Placed (r : Registry) (before : List TreeLine) : TreeLine → Prop
  | .model 0 g => g.parentName = noParent ∧ ∀ h, .model 0 h ∈ before → h.modelName < g.modelName
  | .model (d + 1) g => ∃ front a back, before = front ++ a :: back ∧ a.depth = d ∧
      (∀ l ∈ back, l.depth ≠ d) ∧ r.IsParentLine g a ∧
      ∀ h, .model (d + 1) h ∈ back → h.modelName < g.modelName
  | .outside p => ∀ q, .outside q ∈ before → q < p
  | .cyclic g => ∀ h, .cyclic h ∈ before → h.modelName < g.modelName

/-- Lines are in their places, one after the other. -/
def AllPlaced (r : Registry) : List TreeLine → List TreeLine → Prop
  | _, [] => True
  | before, l :: lines => r.Placed before l ∧ r.AllPlaced (before ++ [l]) lines

theorem allPlaced_append {l m : List TreeLine} :
    r.AllPlaced before (l ++ m) ↔ r.AllPlaced before l ∧ r.AllPlaced (before ++ l) m := by
  induction l generalizing before with
  | nil => simp [AllPlaced]
  | cons x l ih => simp [AllPlaced, ih, and_assoc]

/-- Each line is in its place, in view of those before it. -/
theorem AllPlaced.placed (h : r.AllPlaced before lines) {k : Nat} {l : TreeLine}
    (hl : lines[k]? = some l) : r.Placed (before ++ lines.take k) l := by
  induction lines generalizing before k with
  | nil => cases hl
  | cons x lines ih =>
    cases k with
    | zero =>
      cases hl
      simpa using h.1
    | succ k => simpa using ih h.2 hl

/-- A model keeps its place while deeper lines are added, and lines of its own depth with smaller
names. -/
theorem Placed.append {added : List TreeLine} (h : r.Placed before (.model depth g))
    (hdeep : ∀ l ∈ added, depth ≤ l.depth)
    (hrow : ∀ h, .model depth h ∈ added → h.modelName < g.modelName) :
    r.Placed (before ++ added) (.model depth g) := by
  cases depth with
  | zero =>
    refine ⟨h.1, fun x hx => ?_⟩
    rcases List.mem_append.1 hx with hx | hx
    · exact h.2 x hx
    · exact hrow x hx
  | succ d =>
    obtain ⟨front, a, back, rfl, ha, hback, hparent, hsmaller⟩ := h
    refine ⟨front, a, back ++ added, by simp, ha, fun l hl => ?_, hparent, fun x hx => ?_⟩
    · rcases List.mem_append.1 hl with hl | hl
      · exact hback l hl
      · have hle := hdeep l hl
        omega
    · rcases List.mem_append.1 hx with hx | hx
      · exact hsmaller x hx
      · exact hrow x hx

/-! ## Walks keep lines in their places

The induction is over the walk.  What is drawn below a model is deeper than the model, so the models
next to it find their place as before. -/

/-- Children are in the order of their names. -/
theorem increasing_childrenOf (r : Registry) (p : String) : Gateway.Increasing (r.childrenOf p) :=
  r.increasing.filter _

/-- **Every line of a walk is in its place**, if the models to be drawn would be. -/
theorem Draws.allPlaced (h : r.Draws depth gs seen lines seen')
    (hgs : ∀ g ∈ gs, g ∈ r.gateways) (hinc : Gateway.Increasing gs)
    (hplaced : ∀ g ∈ gs, r.Placed before (.model depth g)) : r.AllPlaced before lines := by
  induction h generalizing before with
  | nil => trivial
  | skip _ _ ih =>
    exact ih (List.forall_mem_cons.1 hgs).2 (List.pairwise_cons.1 hinc).2
      (List.forall_mem_cons.1 hplaced).2
  | @enter depth g gs _ _ _ below lines _ hbelow _ ihbelow ihrest =>
    obtain ⟨hg, hgs⟩ := List.forall_mem_cons.1 hgs
    obtain ⟨hfirst, hinc⟩ := List.pairwise_cons.1 hinc
    obtain ⟨hhere, hplaced⟩ := List.forall_mem_cons.1 hplaced
    have hchildren : ∀ c ∈ r.childrenOf g.modelName, c ∈ r.gateways :=
      mem_of_mem_childrenOf
    have hdeep : ∀ l ∈ below, depth + 1 ≤ l.depth := by
      intro l hl
      obtain ⟨k, c, hk, -, rfl⟩ := hbelow.exists_model hchildren l hl
      exact hk
    refine ⟨hhere, allPlaced_append.2 ⟨?_, ?_⟩⟩
    · -- The model's own line is the one that its children hang under.
      refine ihbelow hchildren (r.increasing_childrenOf _) fun c hc => ?_
      have hparent := get?_parentName_of_mem hg hc
      exact ⟨before, .model depth g, [], rfl, rfl, by simp, .inl ⟨g, hparent, rfl⟩, by simp⟩
    · refine ihrest hgs hinc fun x hx => ?_
      rw [List.append_assoc]
      refine (hplaced x hx).append (fun l hl => ?_) (fun y hy => ?_)
      · rcases List.mem_cons.1 hl with rfl | hl
        · exact Nat.le_refl _
        · exact Nat.le_of_succ_le (hdeep l hl)
      · rcases List.mem_cons.1 hy with heq | hy
        · cases heq
          exact hfirst x hx
        · exact absurd (hdeep _ hy) (Nat.not_succ_le_self _)

/-- The same for parents that are no models. -/
theorem DrawsOutside.allPlaced (h : r.DrawsOutside parents seen lines seen')
    (hparents : ∀ p ∈ parents, r.IsOutside p) (hinc : parents.Pairwise (· < ·))
    (hplaced : ∀ p ∈ parents, r.Placed before (.outside p)) : r.AllPlaced before lines := by
  induction h generalizing before with
  | nil => trivial
  | @cons p parents _ _ _ below lines hbelow _ ih =>
    obtain ⟨hp, hparents⟩ := List.forall_mem_cons.1 hparents
    obtain ⟨hfirst, hinc⟩ := List.pairwise_cons.1 hinc
    obtain ⟨hhere, hplaced⟩ := List.forall_mem_cons.1 hplaced
    have hchildren : ∀ c ∈ r.childrenOf p, c ∈ r.gateways := mem_of_mem_childrenOf
    refine ⟨hhere, allPlaced_append.2 ⟨?_, ?_⟩⟩
    · refine hbelow.allPlaced hchildren (r.increasing_childrenOf _) fun c hc => ?_
      have hparent : c.parentName = p := (mem_childrenOf.1 hc).2
      exact ⟨before, .outside p, [], rfl, rfl, by simp, .inr ⟨hparent ▸ hp.2.1, hparent ▸ rfl⟩,
        by simp⟩
    · refine ih hparents hinc fun q hq x hx => ?_
      rw [List.append_assoc] at hx
      rcases List.mem_append.1 hx with hx | hx
      · exact hplaced q hq x hx
      rcases List.mem_cons.1 hx with heq | hx
      · cases heq
        exact hfirst q hq
      · obtain ⟨_, _, -, -, heq⟩ := hbelow.exists_model hchildren _ hx
        cases heq

/-- Models without a mark are in their order. -/
theorem allPlaced_cyclic (hinc : Gateway.Increasing gs)
    (hplaced : ∀ g ∈ gs, r.Placed before (.cyclic g)) :
    r.AllPlaced before (gs.map .cyclic) := by
  induction gs generalizing before with
  | nil => trivial
  | cons g gs ih =>
    obtain ⟨hfirst, hinc⟩ := List.pairwise_cons.1 hinc
    obtain ⟨hhere, hplaced⟩ := List.forall_mem_cons.1 hplaced
    refine ⟨hhere, ih hinc fun x hx y hy => ?_⟩
    rcases List.mem_append.1 hy with hy | hy
    · exact hplaced x hx y hy
    · cases List.mem_singleton.1 hy
      exact hfirst x hx

/-! ## The tree

The three passes are put together; a line of a later pass has those of the earlier ones in front of
it. -/

theorem DrawsOutside.eq_nil_or_cons (h : r.DrawsOutside parents seen lines seen') :
    lines = [] ∨ ∃ p rest, lines = .outside p :: rest := by
  cases h with
  | nil => exact .inl rfl
  | cons _ _ => exact .inr ⟨_, _, rfl⟩

/-- The tree in its sections: the models without a parent with what is below them, the parents that
are no models with what is below these, and the models whose parents lead in a circle. -/
theorem exists_sections (r : Registry) :
    ∃ trees below left, r.tree = trees ++ below ++ left ∧
      (∀ l ∈ trees, ∃ d g, l = .model d g) ∧
      (below = [] ∨ ∃ p rest, below = .outside p :: rest) ∧
      (∀ l ∈ below, (∃ p, l = .outside p) ∨ ∃ d g, l = .model (d + 1) g) ∧
      ∀ l ∈ left, ∃ g, l = .cyclic g := by
  obtain ⟨trees, seen, below, seen', htrees, hbelow, htree⟩ := r.exists_tree_eq
  refine ⟨trees, below, _, htree, fun l hl => ?_, ?_, fun l hl => ?_, fun l hl => ?_⟩
  · obtain ⟨d, g, -, -, rfl⟩ := htrees.exists_model mem_of_mem_childrenOf l hl
    exact ⟨d, g, rfl⟩
  · exact hbelow.eq_nil_or_cons
  · rcases hbelow.exists_line l hl with ⟨p, -, rfl⟩ | ⟨k, g, hk, -, rfl⟩
    · exact .inl ⟨p, rfl⟩
    · exact .inr ⟨k - 1, g, by rw [Nat.sub_add_cancel hk]⟩
  · obtain ⟨g, -, rfl⟩ := List.mem_map.1 hl
    exact ⟨g, rfl⟩

/-- **Every line of the tree is in its place.** -/
theorem allPlaced_tree (r : Registry) : r.AllPlaced [] r.tree := by
  obtain ⟨trees, seen, below, seen', htrees, hbelow, htree⟩ := r.exists_tree_eq
  have hroots : ∀ g ∈ r.roots, g ∈ r.gateways := mem_of_mem_childrenOf
  have hmodels := htrees.exists_model hroots
  rw [htree, allPlaced_append, allPlaced_append, List.nil_append, List.nil_append]
  refine ⟨⟨?_, ?_⟩, ?_⟩
  · exact htrees.allPlaced hroots (r.increasing_childrenOf _)
      fun g hg => ⟨(mem_childrenOf.1 hg).2, by simp⟩
  · refine hbelow.allPlaced (fun p hp => mem_outsideParents.1 hp) r.pairwise_outsideParents
      fun p _ q hq => ?_
    obtain ⟨_, _, -, -, heq⟩ := hmodels _ hq
    cases heq
  · refine allPlaced_cyclic (r.increasing.filter _) fun g _ h hh => ?_
    rcases List.mem_append.1 hh with hh | hh
    · obtain ⟨_, _, -, -, heq⟩ := hmodels _ hh
      cases heq
    · rcases hbelow.exists_line _ hh with ⟨_, -, heq⟩ | ⟨_, _, -, -, heq⟩ <;> cases heq

/-! ## What a reader sees

The nearest line of a depth is a matter of positions, and places are a matter of what is in front.
The first lemmas go from the one to the other. -/

/-- A line at an earlier position is among those in front. -/
theorem mem_take_of_getElem? {j k : Nat} {l : TreeLine} (hjk : j < k) (hl : lines[j]? = some l) :
    l ∈ lines.take k := by
  rw [← List.getElem?_take_of_lt hjk] at hl
  exact List.mem_of_getElem? hl

/-- What stands behind the line `a` and before line `j`. -/
theorem mem_back {front back : List TreeLine} {a c : TreeLine} {j k : Nat}
    (htake : lines.take j = front ++ a :: back) (hk : front.length < k) (hkj : k < j)
    (hc : lines[k]? = some c) : c ∈ back := by
  rw [← List.getElem?_take_of_lt hkj, htake, List.getElem?_append_right (Nat.le_of_lt hk)] at hc
  obtain ⟨m, hm⟩ : ∃ m, k - front.length = m + 1 := ⟨k - front.length - 1, by omega⟩
  rw [hm, List.getElem?_cons_succ] at hc
  exact List.mem_of_getElem? hc

/-- The position of the line `a`. -/
theorem getElem?_front {front back : List TreeLine} {a : TreeLine} {j : Nat}
    (htake : lines.take j = front ++ a :: back) :
    front.length < j ∧ lines[front.length]? = some a := by
  have hlt : front.length < j := by
    have hle := List.length_take_le j lines
    rw [htake, List.length_append, List.length_cons] at hle
    omega
  refine ⟨hlt, ?_⟩
  rw [← List.getElem?_take_of_lt hlt, htake, List.getElem?_append_right (Nat.le_refl _),
    Nat.sub_self, List.getElem?_cons_zero]

/-- A sequence of lines as a reader sees it.  Names are compared by their bytes. -/
structure InOrder (r : Registry) (lines : List TreeLine) : Prop where
  /-- A model at depth 0 has no parent. -/
  root : ∀ g, .model 0 g ∈ lines → g.parentName = noParent
  /-- A deeper model hangs under the line of its parent. -/
  parent : ∀ (j d : Nat) (g : Gateway), lines[j]? = some (.model (d + 1) g) →
    ∃ i, HangsUnder lines i j ∧
      ((∃ p, r.get? g.parentName = some p ∧ lines[i]? = some (.model d p)) ∨
        r.get? g.parentName = none ∧ d = 0 ∧ lines[i]? = some (.outside g.parentName))
  /-- Models that hang under one line are in order. -/
  siblings : ∀ (i j k d e : Nat) (g h : Gateway), HangsUnder lines i j → HangsUnder lines i k →
    j < k → lines[j]? = some (.model d g) → lines[k]? = some (.model e h) →
    Bytewise g.modelName h.modelName
  /-- So are the models at depth 0, -/
  roots : ∀ (j k : Nat) (g h : Gateway), j < k → lines[j]? = some (.model 0 g) →
    lines[k]? = some (.model 0 h) → Bytewise g.modelName h.modelName
  /-- the parents that are no models, -/
  outsides : ∀ (j k : Nat) (p q : String), j < k → lines[j]? = some (.outside p) →
    lines[k]? = some (.outside q) → Bytewise p q
  /-- and the models whose parents lead in a circle. -/
  cyclics : ∀ (j k : Nat) (g h : Gateway), j < k → lines[j]? = some (.cyclic g) →
    lines[k]? = some (.cyclic h) → Bytewise g.modelName h.modelName
  /-- These come one after the other: the trees of the models at depth 0, then the parents that are
  no models with what hangs under them, then the models whose parents lead in a circle. -/
  sections : ∃ trees below left, lines = trees ++ below ++ left ∧
    (∀ l ∈ trees, ∃ d g, l = .model d g) ∧
    (below = [] ∨ ∃ p rest, below = .outside p :: rest) ∧
    (∀ l ∈ below, (∃ p, l = .outside p) ∨ ∃ d g, l = .model (d + 1) g) ∧
    ∀ l ∈ left, ∃ g, l = .cyclic g

/-- The nearest line one step less deep is the parent's. -/
theorem exists_hangsUnder {j d : Nat} (hplaced : r.Placed (lines.take j) (.model (d + 1) g))
    (hj : lines[j]? = some (.model (d + 1) g)) : ∃ i, HangsUnder lines i j ∧
      ((∃ p, r.get? g.parentName = some p ∧ lines[i]? = some (.model d p)) ∨
        r.get? g.parentName = none ∧ d = 0 ∧ lines[i]? = some (.outside g.parentName)) := by
  obtain ⟨front, a, back, htake, hdepth, hback, hparent, -⟩ := hplaced
  obtain ⟨hlt, ha⟩ := getElem?_front htake
  refine ⟨front.length, ⟨a, _, ha, hj, hlt, by rw [hdepth]; rfl, fun k c hk hkj hc => ?_⟩, ?_⟩
  · exact hdepth ▸ hback c (mem_back htake hk hkj hc)
  · rcases hparent with ⟨p, hp, heq⟩ | ⟨hnone, heq⟩
    · exact .inl ⟨p, hp, by rw [ha, heq, ← hdepth]⟩
    · exact .inr ⟨hnone, by rw [← hdepth, heq]; rfl, by rw [ha, heq]⟩

/-- Of two models that hang under one line the first has the smaller name. -/
theorem lt_of_hangsUnder {i j k d e : Nat} {h : Gateway}
    (hplaced : r.Placed (lines.take k) (.model e h)) (hij : HangsUnder lines i j)
    (hik : HangsUnder lines i k) (hjk : j < k) (hj : lines[j]? = some (.model d g))
    (hk : lines[k]? = some (.model e h)) : g.modelName < h.modelName := by
  obtain ⟨a, b, ha, hb, hij, hdepth, -⟩ := hij
  obtain ⟨a', b', ha', hb', -, hdepth', hnearest⟩ := hik
  rw [ha, Option.some.injEq] at ha'
  subst ha'
  rw [hj, Option.some.injEq] at hb
  rw [hk, Option.some.injEq] at hb'
  subst hb hb'
  obtain ⟨rfl, rfl⟩ : d = a.depth + 1 ∧ e = a.depth + 1 := ⟨hdepth, hdepth'⟩
  obtain ⟨front, x, back, htake, hx, hback, -, hsmaller⟩ := hplaced
  obtain ⟨hfront, hget⟩ := getElem?_front htake
  -- The nearest line of that depth is one and the same.
  have hi : front.length = i := by
    rcases Nat.lt_trichotomy front.length i with hlt | heq | hlt
    · exact absurd rfl (hback a (mem_back htake hlt (by omega) ha))
    · exact heq
    · exact absurd hx (hnearest _ x hlt hfront hget)
  exact hsmaller g (mem_back htake (by omega) hjk hj)

/-- **The indentation of the tree says who is below whom.** -/
theorem tree_inOrder (r : Registry) : r.InOrder r.tree := by
  have hplaced : ∀ {k l}, r.tree[k]? = some l → r.Placed (r.tree.take k) l :=
    fun h => r.allPlaced_tree.placed h
  refine ⟨fun g hg => ?_, fun j d g hj => exists_hangsUnder (hplaced hj) hj, ?_, ?_, ?_, ?_,
    r.exists_sections⟩
  · obtain ⟨k, hk⟩ := List.mem_iff_getElem?.1 hg
    exact (hplaced hk).1
  · intro i j k d e g h hij hik hjk hj hk
    exact Text.bytewise_iff_lt.2 (lt_of_hangsUnder (hplaced hk) hij hik hjk hj hk)
  · intro j k g h hjk hj hk
    exact Text.bytewise_iff_lt.2 ((hplaced hk).2 g (mem_take_of_getElem? hjk hj))
  · intro j k p q hjk hj hk
    exact Text.bytewise_iff_lt.2 (hplaced hk p (mem_take_of_getElem? hjk hj))
  · intro j k g h hjk hj hk
    exact Text.bytewise_iff_lt.2 (hplaced hk g (mem_take_of_getElem? hjk hj))

end Registry
end RemoteModels
