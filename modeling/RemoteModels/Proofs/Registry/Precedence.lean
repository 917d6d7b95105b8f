import RemoteModels.Proofs.Registry.Lookup
import RemoteModels.Proofs.Specification.Merge

/-!
# Models of a merged specification

When a later specification is written over an earlier one, two rules meet.  An entry that both have
keeps its place and takes the later declaration; and of several entries with one local name the last
one in the document counts.  So the later specification has its way with declarations, but an entry
that it only declares anew moves to no other place, and may still stand in front of an entry of the
earlier specification with the same local name.

* `Specification.newNamed?` — the last entry with a local name that the later specification adds.
* `Specification.lastNamed?_merge` — which entry of the merged specification counts.
* `Registry.merge_precedence` — which model the merged specification has under a name, and when that
  is the model of the later specification.
* `RedeclaredWidget.merge_overruled` — a model that the later specification declares, but does not
  prevail with.
-/

set_option autoImplicit false

namespace RemoteModels

open Json (Object)

namespace Specification

variable {a b : Specification}

/-! ## The entry that counts

Entries that are new stand behind all others, so the last of them with a local name counts if there
is one. -/

/-- The last entry with a local name among those that `earlier` does not have. -/
def newNamed? (later earlier : Specification) (name : String) : Option (String × Object) :=
  ((later.entries.filter (hasLocalName name)).filter (·.1 ∉ earlier.entries.names)).getLast?

/-- Merging adds no names but those of the two. -/
theorem Acceptable.merge (ha : a.Acceptable) (hb : b.Acceptable) : (a.merge b).Acceptable :=
  fun e he => (Members.mem_merge he).elim (ha e) (hb e)

/-- **A new entry comes last; an old one keeps its place and takes the later declaration.** -/
theorem lastNamed?_merge (a b : Specification) (name : String) :
    (a.merge b).lastNamed? name
      = (b.newNamed? a name).or ((a.lastNamed? name).map b.entries.replaced) := by
  have hentries : (a.merge b).entries = _ := Members.merge_eq a.distinct b.distinct
  have hname : hasLocalName name ∘ b.entries.replaced = hasLocalName name := rfl
  have hnew : (b.entries.filter (·.1 ∉ a.entries.names)).filter (hasLocalName name)
      = (b.entries.filter (hasLocalName name)).filter (·.1 ∉ a.entries.names) := by
    simp only [List.filter_filter, Bool.and_comm]
  rw [lastNamed?, hentries, List.filter_append, List.getLast?_append, List.filter_map, hname,
    List.getLast?_map, hnew, newNamed?, lastNamed?]

theorem lastNamed?_eq_none_iff {s : Specification} {name : String} :
    s.lastNamed? name = none ↔ ∀ e ∈ s.entries, ¬ hasLocalName name e := by
  rw [lastNamed?, List.getLast?_eq_none_iff, List.filter_eq_nil_iff]

theorem mem_of_lastNamed? {s : Specification} {name : String} {e : String × Object}
    (h : s.lastNamed? name = some e) : e ∈ s.entries ∧ hasLocalName name e :=
  List.mem_filter.1 (List.mem_of_getLast? h)

/-- The local name of an entry is that of its full name. -/
theorem not_mem_names {s : Specification} {name : String} {e : String × Object}
    (hs : ∀ e ∈ s.entries, ¬ hasLocalName name e) (he : hasLocalName name e) :
    e.1 ∉ s.entries.names := by
  intro hmem
  obtain ⟨f, hf, hfe⟩ := List.mem_map.1 hmem
  rw [hasLocalName, ← hfe] at he
  exact hs f hf he

theorem not_mem_of_newNamed? {name : String} {e : String × Object}
    (h : b.newNamed? a name = some e) : e.1 ∉ a.entries.names := by
  simpa using (List.mem_filter.1 (List.mem_of_getLast? h)).2

theorem newNamed?_eq_none {name : String} (h : ∀ e ∈ b.entries, ¬ hasLocalName name e) :
    b.newNamed? a name = none := by
  rw [newNamed?, List.filter_eq_nil_iff.2 h]
  rfl

/-- If the entry that counts in the later specification is new, it is the last new one. -/
theorem newNamed?_of_lastNamed? {name : String} {e : String × Object}
    (h : b.lastNamed? name = some e) (hnew : e.1 ∉ a.entries.names) :
    b.newNamed? a name = some e := by
  obtain ⟨front, hfront⟩ := List.getLast?_eq_some_iff.1 h
  rw [newNamed?, hfront, List.filter_append, List.getLast?_append]
  simp [hnew]

end Specification

namespace Registry

variable {a b : Specification} {name : String}

/-! ## The model that counts

From entries to models nothing is lost: two entries give the same gateway only if they have the same
full name. -/

/-- A gateway tells the full name of its entry. -/
theorem fst_eq_of_ofEntry_eq {e f : String × Object}
    (h : Gateway.ofEntry name e = Gateway.ofEntry name f) : e.1 = f.1 :=
  congrArg (·.descriptor.fullName) h

/-- When the merged specification gives the same model as the later one: if the entry that counts
there is new, or if no entry is new and that one counts in the earlier specification too. -/
theorem ofEntry_merge_eq_iff {e : String × Object} (he : b.lastNamed? name = some e) :
    ((b.newNamed? a name).or ((a.lastNamed? name).map b.entries.replaced)).map
        (Gateway.ofEntry name) = some (Gateway.ofEntry name e) ↔
      e.1 ∉ a.entries.names ∨
        b.newNamed? a name = none ∧ (a.lastNamed? name).map Prod.fst = some e.1 := by
  cases hnew : b.newNamed? a name with
  | some new =>
    have hfresh := Specification.not_mem_of_newNamed? hnew
    simp only [Option.some_or, Option.map_some, Option.some.injEq, reduceCtorEq, false_and,
      or_false]
    constructor
    · intro h
      exact fst_eq_of_ofEntry_eq h ▸ hfresh
    · intro h
      rw [Specification.newNamed?_of_lastNamed? he h, Option.some.injEq] at hnew
      rw [hnew]
  | none =>
    -- Nothing is new, so the entry keeps the place that the earlier specification gave it.
    have hold : ¬ e.1 ∉ a.entries.names := fun h => by
      rw [Specification.newNamed?_of_lastNamed? he h] at hnew
      cases hnew
    cases hlast : a.lastNamed? name with
    | none => simp [hold]
    | some old =>
      have hvalue := Members.get?_of_mem b.distinct (Specification.mem_of_lastNamed? he).1
      simp only [Option.none_or, Option.map_some, Option.some.injEq, hold, true_and, false_or]
      constructor
      · intro h
        have hname := fst_eq_of_ofEntry_eq h
        exact hname
      · intro h
        rw [Members.replaced, h, hvalue]
        rfl

/-- **Which model a merged specification has under a name.**  It is that of the last entry with that
local name which the later specification adds; if it adds none, that of the entry which counts in
the earlier one, as the later one declares it, if it does.

So if only one of the two specifications has entries with that local name, its model is taken.  If
the later one has, its model is taken exactly if its entry is new, or if it adds no entry with that
local name and its entry is the one that counts in the earlier specification. -/
theorem merge_precedence (ha : a.Acceptable) (hb : b.Acceptable) :
    ∃ ra rb r la lb l, ofSpecification a = .ok (ra, la) ∧ ofSpecification b = .ok (rb, lb) ∧
      ofSpecification (a.merge b) = .ok (r, l) ∧ ∀ name,
        r.get? name = ((b.newNamed? a name).or
          ((a.lastNamed? name).map b.entries.replaced)).map (Gateway.ofEntry name) ∧
        ((∀ e ∈ b.entries, ¬ hasLocalName name e) → r.get? name = ra.get? name) ∧
        ((∀ e ∈ a.entries, ¬ hasLocalName name e) → r.get? name = rb.get? name) ∧
        (∀ e, b.lastNamed? name = some e → (r.get? name = rb.get? name ↔
          e.1 ∉ a.entries.names ∨
            b.newNamed? a name = none ∧ (a.lastNamed? name).map Prod.fst = some e.1)) := by
  obtain ⟨ra, la, hra⟩ := exists_ofSpecification_iff.2 ha
  obtain ⟨rb, lb, hrb⟩ := exists_ofSpecification_iff.2 hb
  obtain ⟨r, l, hr⟩ := exists_ofSpecification_iff.2 (ha.merge hb)
  refine ⟨ra, rb, r, la, lb, l, hra, hrb, hr, fun name => ?_⟩
  have hmerged := get?_ofSpecification hr name
  rw [Specification.lastNamed?_merge] at hmerged
  refine ⟨hmerged, fun hnone => ?_, fun hnone => ?_, fun e he => ?_⟩
  · rw [hmerged, get?_ofSpecification hra, Specification.newNamed?_eq_none hnone, Option.none_or]
    cases hlast : a.lastNamed? name with
    | none => rfl
    | some old =>
      have hold := Specification.not_mem_names hnone (Specification.mem_of_lastNamed? hlast).2
      rw [Option.map_some, Members.replaced_of_not_mem hold]
  · rw [hmerged, get?_ofSpecification hrb]
    cases hlast : b.lastNamed? name with
    | none =>
      rw [Specification.newNamed?_eq_none (Specification.lastNamed?_eq_none_iff.1 hlast),
        Specification.lastNamed?_eq_none_iff.2 hnone]
      rfl
    | some e =>
      have hnew := Specification.not_mem_names hnone (Specification.mem_of_lastNamed? hlast).2
      exact (ofEntry_merge_eq_iff hlast).2 (.inl hnew)
  · rw [hmerged, get?_ofSpecification hrb, he]
    exact ofEntry_merge_eq_iff he

end Registry

/-! ## A model that is declared anew in vain

Two entries of the earlier specification have one local name, and the later specification declares
only the first of them. -/

namespace RedeclaredWidget

/-- Two widgets, of which the second one counts. -/
def earlier : Specification :=
  .ofEntries [("shop.Widget", [("label", .string "string")]),
    ("store.Widget", [("shelf", .string "int")])]

/-- The first widget, with another field. -/
def later : Specification := .ofEntries [("shop.Widget", [("weight", .string "int")])]

def shopWidgets : Gateway := ⟨⟨"shop.Widget", "Widget", "none", [⟨"weight", "int"⟩]⟩⟩

def storeWidgets : Gateway := ⟨⟨"store.Widget", "Widget", "none", [⟨"shelf", "int"⟩]⟩⟩

theorem earlier_acceptable : earlier.Acceptable := by
  obtain ⟨r, logs, hr, -⟩ := Registry.exists_ofSpecification_of_any earlier (fun _ => true)
    (by decide +kernel)
  exact Registry.exists_ofSpecification_iff.1 ⟨r, logs, hr⟩

theorem later_acceptable : later.Acceptable := by
  obtain ⟨r, logs, hr, -⟩ := Registry.exists_ofSpecification_of_any later (fun _ => true)
    (by decide +kernel)
  exact Registry.exists_ofSpecification_iff.1 ⟨r, logs, hr⟩

/-- The later specification has the shop's widget and no other; written over the earlier one, it
leaves the store's widget in use. -/
theorem merge_overruled : earlier.Acceptable ∧ later.Acceptable ∧
    (∃ e ∈ later.entries, hasLocalName "Widget" e) ∧
    (∃ rb logs, Registry.ofSpecification later = .ok (rb, logs) ∧
      rb.get? "Widget" = some shopWidgets) ∧
    (∃ r logs, Registry.ofSpecification (earlier.merge later) = .ok (r, logs) ∧
      r.get? "Widget" = some storeWidgets) ∧
    shopWidgets ≠ storeWidgets := by
  have hlocal : ∃ e ∈ later.entries, hasLocalName "Widget" e := by
    refine ⟨("shop.Widget", [("weight", .string "int")]), List.mem_singleton.2 rfl, ?_⟩
    decide +kernel
  obtain ⟨rb, lb, hrb, hshop⟩ := Registry.exists_ofSpecification_of_any later
    (fun r => r.get? "Widget" == some shopWidgets) (by decide +kernel)
  obtain ⟨r, l, hr, hstore⟩ := Registry.exists_ofSpecification_of_any (earlier.merge later)
    (fun r => r.get? "Widget" == some storeWidgets) (by decide +kernel)
  exact ⟨earlier_acceptable, later_acceptable, hlocal, ⟨rb, lb, hrb, beq_iff_eq.1 hshop⟩,
    ⟨r, l, hr, beq_iff_eq.1 hstore⟩, by decide⟩

/-- The other way round the store's widget is the later one, and new, so it prevails. -/
theorem merge_precedence_store : later.Acceptable ∧ earlier.Acceptable ∧
    ∃ e ra rb r la lb l, earlier.lastNamed? "Widget" = some e ∧ e.1 ∉ later.entries.names ∧
      Registry.ofSpecification later = .ok (ra, la) ∧
      Registry.ofSpecification earlier = .ok (rb, lb) ∧
      Registry.ofSpecification (later.merge earlier) = .ok (r, l) ∧
      r.get? "Widget" = rb.get? "Widget" := by
  have hlast : (earlier.lastNamed? "Widget").any fun e => e.1 ∉ later.entries.names := by
    decide +kernel
  obtain ⟨e, he, hnew⟩ := (Option.any_eq_true _ _).1 hlast
  obtain ⟨ra, rb, r, la, lb, l, hra, hrb, hr, hget⟩ :=
    Registry.merge_precedence later_acceptable earlier_acceptable
  have hnew : e.1 ∉ later.entries.names := by simpa using hnew
  obtain ⟨-, -, -, hprevails⟩ := hget "Widget"
  exact ⟨later_acceptable, earlier_acceptable, e, ra, rb, r, la, lb, l, he, hnew, hra, hrb, hr,
    (hprevails e he).2 (.inl hnew)⟩

end RedeclaredWidget
end RemoteModels
