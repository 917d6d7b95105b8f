import RemoteModels.Proofs.Registry.Lookup

/-!
# Addresses

A path is put together from names and identities with slashes between them, and none of them is
encoded.  Where a name or an identity has a slash of its own, one path can be put together in more
than one way, and then two targets share it.  This is the only way in which that comes about: the
slash that divides the two parts of one address stands, in the other, further back.

* `Gateway.Shifts` — the dividing slash stands further back.
* `Gateway.joined_eq_iff` — when two joined texts are the same.
* `Registry.addresses` — when two addresses are the same; without slashes in the names, only if the
  targets are, or if the identity of an item spells out a collection below that item.
* `SharedAddresses.addresses_shared` — a registry in which addresses of each kind are shared.
-/

set_option autoImplicit false

namespace RemoteModels

namespace Gateway

/-! ## Two texts with a slash between them

The question is one about words: when is `a/x` the same text as `b/y`?  Cut off at the first place
where they could differ, one of `a` and `b` is an initial part of the other, and what it has more
begins with the slash that divides the shorter one. -/

/-- The slash that divides `a` from `x` stands further back in `b` and `y`: some text that `x`
begins with has gone over to `b`. -/
def Shifts (a x b y : String) : Prop := ∃ text, b = a ++ "/" ++ text ∧ x = text ++ "/" ++ y

/-- A slash that stands further back divides the same text. -/
theorem Shifts.joined_eq {a x b y : String} (h : Shifts a x b y) :
    a ++ "/" ++ x = b ++ "/" ++ y := by
  obtain ⟨text, rfl, rfl⟩ := h
  simp only [String.append_assoc]

/-- The slash can move only to where there is another one. -/
theorem Shifts.slash_mem {a x b y : String} (h : Shifts a x b y) :
    '/' ∈ b.toList ∧ '/' ∈ x.toList := by
  obtain ⟨text, rfl, rfl⟩ := h
  simp

/-- Where the front part of one address begins with that of the other, what it has more begins with
the dividing slash. -/
theorem shifts_of_append {a x b y : String} {more : List Char} (hb : b.toList = a.toList ++ more)
    (hx : '/' :: x.toList = more ++ '/' :: y.toList) : a = b ∧ x = y ∨ Shifts a x b y := by
  cases more with
  | nil =>
    have hab : a = b := String.toList_inj.1 (by simpa using hb.symm)
    have hxy : x = y := String.toList_inj.1 (by simpa using hx)
    exact .inl ⟨hab, hxy⟩
  | cons c text =>
    rw [List.cons_append, List.cons.injEq] at hx
    obtain ⟨rfl, hx⟩ := hx
    refine .inr ⟨String.ofList text, String.toList_inj.1 ?_, String.toList_inj.1 ?_⟩
    · simp [hb]
    · simp [hx]

/-- **Two joined texts are the same** only if their parts are, or if the slash that divides one of
them stands further back in the other. -/
theorem joined_eq_iff {a x b y : String} :
    a ++ "/" ++ x = b ++ "/" ++ y ↔ a = b ∧ x = y ∨ Shifts a x b y ∨ Shifts b y a x := by
  constructor
  · intro h
    have hchars : a.toList ++ '/' :: x.toList = b.toList ++ '/' :: y.toList := by
      simpa using congrArg String.toList h
    rcases List.append_eq_append_iff.1 hchars with ⟨more, hb, hx⟩ | ⟨more, ha, hy⟩
    · exact (shifts_of_append hb hx).imp_right .inl
    · exact (shifts_of_append ha hy).imp (fun h => ⟨h.1.symm, h.2.symm⟩) .inr
  · rintro (⟨rfl, rfl⟩ | h | h)
    · rfl
    · exact h.joined_eq
    · exact h.joined_eq.symm

/-! ## Addresses as joined texts

The address of an item has one slash that matters, between model and identity.  That of a collection
has two, and which of them is compared depends on what it is compared with: with another collection
it is the one in front of the model, with an item it is the one behind the parent. -/

/-- The parent model and the parent record, in front of a collection. -/
def scope (g : Gateway) (parentId : String) : String := g.parentName ++ "/" ++ parentId

/-- The parent record and the collection, behind the parent model. -/
def below (g : Gateway) (parentId : String) : String := parentId ++ "/" ++ g.modelName ++ "s"

theorem slash_mem_below (g : Gateway) (parentId : String) : '/' ∈ (g.below parentId).toList := by
  simp [below]

theorem itemUrl_eq_itemUrl_iff {g h : Gateway} {i j : String} :
    g.itemUrl i = h.itemUrl j ↔ g.modelName ++ "/" ++ i = h.modelName ++ "/" ++ j := by
  simp only [itemUrl, String.append_assoc, String.append_right_inj]

/-- One model gives different identities different addresses, slashes or not. -/
theorem itemUrl_inj (g : Gateway) {i j : String} : g.itemUrl i = g.itemUrl j ↔ i = j := by
  rw [itemUrl, itemUrl, String.append_right_inj]

theorem collectionUrl_eq_collectionUrl_iff {g h : Gateway} {p q : String} :
    g.collectionUrl p = h.collectionUrl q
      ↔ g.scope p ++ "/" ++ g.modelName = h.scope q ++ "/" ++ h.modelName := by
  rw [collectionUrl, collectionUrl, String.append_left_inj]
  simp only [scope, String.append_assoc, String.append_right_inj]

/-- An item and a collection are compared behind the first name. -/
theorem itemUrl_eq_collectionUrl_iff {g h : Gateway} {i p : String} :
    g.itemUrl i = h.collectionUrl p
      ↔ g.modelName ++ "/" ++ i = h.parentName ++ "/" ++ h.below p := by
  simp only [itemUrl, collectionUrl, below, String.append_assoc, String.append_right_inj]

/-- The names of the model and of its parent have no slash in them. -/
def Plain (g : Gateway) : Prop := '/' ∉ g.modelName.toList ∧ '/' ∉ g.parentName.toList

end Gateway

namespace Registry

open Gateway (Shifts)

variable {r : Registry} {g h : Gateway}

/-! ## Shared addresses

In a registry no two models have one name, so where the names agree the gateways do. -/

/-- When two items share an address. -/
theorem itemUrl_eq_iff (hg : g ∈ r.gateways) (hh : h ∈ r.gateways) (i j : String) :
    g.itemUrl i = h.itemUrl j ↔
      g = h ∧ i = j ∨ Shifts g.modelName i h.modelName j ∨ Shifts h.modelName j g.modelName i := by
  have hsame : g.modelName = h.modelName ↔ g = h :=
    ⟨eq_of_modelName_eq hg hh, congrArg Gateway.modelName⟩
  rw [Gateway.itemUrl_eq_itemUrl_iff, Gateway.joined_eq_iff, hsame]

/-- When two collections share an address. -/
theorem collectionUrl_eq_iff (hg : g ∈ r.gateways) (hh : h ∈ r.gateways) (p q : String) :
    g.collectionUrl p = h.collectionUrl q ↔
      g = h ∧ p = q ∨ Shifts (g.scope p) g.modelName (h.scope q) h.modelName ∨
        Shifts (h.scope q) h.modelName (g.scope p) g.modelName := by
  have hsame : g.scope p = h.scope q ∧ g.modelName = h.modelName ↔ g = h ∧ p = q := by
    constructor
    · rintro ⟨hscope, hname⟩
      obtain rfl := eq_of_modelName_eq hg hh hname
      exact ⟨rfl, by simpa [Gateway.scope] using hscope⟩
    · rintro ⟨rfl, rfl⟩
      exact ⟨rfl, rfl⟩
  rw [Gateway.collectionUrl_eq_collectionUrl_iff, Gateway.joined_eq_iff, hsame]

/-- **Two addresses are the same** only if their targets are, or if the slash that divides one of
them stands further back in the other.  What is divided is the model from the identity in the
address of an item, and the parent record from the model in that of a collection.  An item and a
collection share an address also if the identity spells out a collection below the item.

Without slashes in the names of models and parents the dividing slash cannot move.  Then items, and
collections, have addresses of their own, whatever the identities are, and an item has the address
of a collection only if its identity, with a slash in it, spells that collection out. -/
theorem addresses (hg : g ∈ r.gateways) (hh : h ∈ r.gateways) :
    (∀ i j, g.itemUrl i = h.itemUrl j ↔
      g = h ∧ i = j ∨ Shifts g.modelName i h.modelName j ∨ Shifts h.modelName j g.modelName i) ∧
    (∀ p q, g.collectionUrl p = h.collectionUrl q ↔
      g = h ∧ p = q ∨ Shifts (g.scope p) g.modelName (h.scope q) h.modelName ∨
        Shifts (h.scope q) h.modelName (g.scope p) g.modelName) ∧
    (∀ i p, g.itemUrl i = h.collectionUrl p ↔
      g.modelName = h.parentName ∧ i = h.below p ∨ Shifts g.modelName i h.parentName (h.below p) ∨
        Shifts h.parentName (h.below p) g.modelName i) ∧
    (g.Plain → h.Plain →
      (∀ i j, g.itemUrl i = h.itemUrl j → g = h ∧ i = j) ∧
      (∀ p q, g.collectionUrl p = h.collectionUrl q → g = h ∧ p = q) ∧
      (∀ i p, g.itemUrl i = h.collectionUrl p →
        g.modelName = h.parentName ∧ i = h.below p ∧ '/' ∈ i.toList)) := by
  have hmixed : ∀ i p, g.itemUrl i = h.collectionUrl p ↔
      g.modelName = h.parentName ∧ i = h.below p ∨ Shifts g.modelName i h.parentName (h.below p) ∨
        Shifts h.parentName (h.below p) g.modelName i := fun i p => by
    rw [Gateway.itemUrl_eq_collectionUrl_iff, Gateway.joined_eq_iff]
  refine ⟨itemUrl_eq_iff hg hh, collectionUrl_eq_iff hg hh, hmixed, ?_⟩
  -- Every shift needs a slash in a name, and plain names have none.
  rintro ⟨hgm, -⟩ ⟨hhm, hhp⟩
  refine ⟨fun i j hurl => ?_, fun p q hurl => ?_, fun i p hurl => ?_⟩
  · rcases (itemUrl_eq_iff hg hh i j).1 hurl with hsame | hshift | hshift
    · exact hsame
    · exact absurd hshift.slash_mem.1 hhm
    · exact absurd hshift.slash_mem.1 hgm
  · rcases (collectionUrl_eq_iff hg hh p q).1 hurl with hsame | hshift | hshift
    · exact hsame
    · exact absurd hshift.slash_mem.2 hgm
    · exact absurd hshift.slash_mem.2 hhm
  · rcases (hmixed i p).1 hurl with ⟨hname, rfl⟩ | hshift | hshift
    · exact ⟨hname, rfl, h.slash_mem_below p⟩
    · exact absurd hshift.slash_mem.1 hhp
    · exact absurd hshift.slash_mem.1 hgm

end Registry

/-! ## A registry in which addresses are shared

One name has a slash in it, which a specification may declare, and with it each of the three kinds
of address can be shared. -/

namespace SharedAddresses

/-- Parts and spare parts are kept in groups, and there are spares without a group. -/
def specification : Specification :=
  .ofEntries [("group", []), ("spare", []), ("part", [("parent", .string "group")]),
    ("spare/part", [("parent", .string "group")])]

def groups : Gateway := ⟨⟨"group", "group", "none", []⟩⟩

def spares : Gateway := ⟨⟨"spare", "spare", "none", []⟩⟩

def parts : Gateway := ⟨⟨"part", "part", "group", []⟩⟩

def spareParts : Gateway := ⟨⟨"spare/part", "spare/part", "group", []⟩⟩

/-- The registry of these models. -/
theorem exists_registry : ∃ r logs, Registry.ofSpecification specification = .ok (r, logs) ∧
    r.gateways = [groups, parts, spares, spareParts] := by
  obtain ⟨r, logs, hr, hgateways⟩ := Registry.exists_ofSpecification_of_any specification
    (fun r => r.gateways == [groups, parts, spares, spareParts]) (by decide +kernel)
  exact ⟨r, logs, hr, beq_iff_eq.1 hgateways⟩

/-- A spare and a spare part share an address, and so do the parts of one record and the spare parts
of another, and a group and the parts in a group. -/
theorem addresses_shared : ∃ r logs, Registry.ofSpecification specification = .ok (r, logs) ∧
    (∀ g ∈ [groups, parts, spares, spareParts], g ∈ r.gateways) ∧
    (spares.modelName ≠ spareParts.modelName ∧ spares.itemUrl "part/7" = spareParts.itemUrl "7") ∧
    (parts.modelName ≠ spareParts.modelName ∧
      parts.collectionUrl "42/spare" = spareParts.collectionUrl "42") ∧
    groups.itemUrl "42/parts" = parts.collectionUrl "42" := by
  obtain ⟨r, logs, hr, hgateways⟩ := exists_registry
  refine ⟨r, logs, hr, fun g hg => hgateways ▸ hg, ⟨?_, ?_⟩, ⟨?_, ?_⟩, ?_⟩ <;> decide +kernel

/-- A group has the address of some parts only if its identity spells them out. -/
theorem addresses_groups : ∃ r logs, Registry.ofSpecification specification = .ok (r, logs) ∧
    groups ∈ r.gateways ∧ parts ∈ r.gateways ∧ groups.Plain ∧ parts.Plain ∧
    (∀ i p, groups.itemUrl i = parts.collectionUrl p → i = p ++ "/parts") := by
  obtain ⟨r, logs, hr, hgateways⟩ := exists_registry
  have hg : groups ∈ r.gateways := by simp [hgateways]
  have hp : parts ∈ r.gateways := by simp [hgateways]
  have hgp : groups.Plain := ⟨by decide +kernel, by decide +kernel⟩
  have hpp : parts.Plain := ⟨by decide +kernel, by decide +kernel⟩
  refine ⟨r, logs, hr, hg, hp, hgp, hpp, fun i p hurl => ?_⟩
  obtain ⟨-, -, -, hplain⟩ := Registry.addresses hg hp
  obtain ⟨-, hi, -⟩ := (hplain hgp hpp).2.2 i p hurl
  rw [hi, Gateway.below, String.append_assoc, String.append_assoc]
  rfl

end SharedAddresses
end RemoteModels
