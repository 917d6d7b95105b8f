import RemoteModels.Gateway

/-!
# Registries

A registry holds one gateway for each local model name, in the order of the names.  Of several
entries with the same local name the last one counts.

The order of the names is part of what a registry is, so that its views need no sorting and each
name has one place.

* `Registry.put` — adding or replacing a gateway.
* `Registry.ofDescriptors` — a registry with the warnings about replaced entries.
* `Registry.ofSpecification` — the registry of a specification.
* `Registry.get?`, `Registry.names`, `Registry.childrenOf`, `Registry.roots` — its views.
-/

set_option autoImplicit false

namespace RemoteModels

/-- Puts a gateway into a sequence ordered by name, in place of one of the same name. -/
def Gateway.place (g : Gateway) : List Gateway → List Gateway
  | [] => [g]
  | h :: rest =>
    if g.modelName < h.modelName then g :: h :: rest
    else if g.modelName = h.modelName then g :: rest
    else h :: place g rest

/-- Increasing by name. -/
def Gateway.Increasing (l : List Gateway) : Prop :=
  l.Pairwise fun a b => a.modelName < b.modelName

/-- Nothing else comes in. -/
theorem Gateway.mem_place {g x : Gateway} {l : List Gateway} (h : x ∈ g.place l) :
    x = g ∨ x ∈ l := by
  induction l with
  | nil => simpa [place] using h
  | cons y rest ih =>
    simp only [place] at h
    split at h
    · simpa using h
    · split at h
      · rcases List.mem_cons.1 h with h | h
        · exact Or.inl h
        · exact Or.inr (List.mem_cons_of_mem _ h)
      · rcases List.mem_cons.1 h with h | h
        · exact Or.inr (h ▸ List.mem_cons_self)
        · exact (ih h).imp_right (List.mem_cons_of_mem _)

/-- The order of names is kept. -/
theorem Gateway.Increasing.place {l : List Gateway} (h : Increasing l) (g : Gateway) :
    Increasing (g.place l) := by
  induction l with
  | nil => exact List.pairwise_singleton _ _
  | cons y rest ih =>
    have hy := List.pairwise_cons.1 h
    simp only [Gateway.place]
    split
    · rename_i hlt
      refine List.pairwise_cons.2 ⟨fun x hx => ?_, h⟩
      rcases List.mem_cons.1 hx with rfl | hx
      · exact hlt
      · exact String.lt_trans hlt (hy.1 x hx)
    · rename_i hlt
      split
      · rename_i heq
        exact List.pairwise_cons.2 ⟨fun x hx => heq ▸ hy.1 x hx, hy.2⟩
      · rename_i hne
        refine List.pairwise_cons.2 ⟨fun x hx => ?_, ih hy.2⟩
        rcases mem_place hx with rfl | hx
        · exact String.not_le.1 fun hle => hne (String.le_antisymm hle (String.not_lt.1 hlt))
        · exact hy.1 x hx

/-- Gateways in the order of their names. -/
structure Registry where
  gateways : List Gateway
  increasing : Gateway.Increasing gateways

namespace Registry

def empty : Registry := ⟨[], List.Pairwise.nil⟩

instance : Inhabited Registry := ⟨empty⟩

/-- Adds a gateway, in place of one with the same name. -/
def put (r : Registry) (g : Gateway) : Registry := ⟨g.place r.gateways, r.increasing.place g⟩

/-! ## Views

A registry can be asked for a model by name, for all models, and for those below a parent. -/

def get? (r : Registry) (name : String) : Option Gateway :=
  r.gateways.find? (·.modelName = name)

def contains (r : Registry) (name : String) : Bool := (r.get? name).isSome

def names (r : Registry) : List String := r.gateways.map (·.modelName)

def size (r : Registry) : Nat := r.gateways.length

/-- The models whose parent has this name, in the order of their names. -/
def childrenOf (r : Registry) (parent : String) : List Gateway :=
  r.gateways.filter (·.parentName = parent)

/-- The models without a parent. -/
def roots (r : Registry) : List Gateway := r.childrenOf noParent

/-! ## Building

All descriptors are made before the first gateway is put in, so a bad name is noticed before a
warning is given. -/

/-- The warning that an entry takes the place of an earlier one. -/
def replacement (new old : Descriptor) : LogEntry :=
  { level := .warn
    reporter := .factory
    message := "model '" ++ new.localName ++ "' from '" ++ new.fullName ++ "' replaces '" ++
      old.fullName ++ "'" }

/-- Adds models in order, and lists the warnings about those that were replaced. -/
def addAll (r : Registry) : List Descriptor → Registry × List LogEntry
  | [] => (r, [])
  | d :: rest =>
    let warnings := match r.get? d.localName with
      | some old => [replacement d old.descriptor]
      | none => []
    let (r, more) := (r.put ⟨d⟩).addAll rest
    (r, warnings ++ more)

def ofDescriptors (ds : List Descriptor) : Registry × List LogEntry := empty.addAll ds

/-- The report that a registry is complete. -/
def readyReport (r : Registry) : LogEntry :=
  { level := .info
    reporter := .factory
    message := "model factory ready with " ++ toString r.size ++ " gateways" }

/-- The registry of a specification, with what is reported on the way. -/
def ofSpecification (s : Specification) :
    Except SpecificationError (Registry × List LogEntry) := do
  let ds ← s.descriptors
  let (r, warnings) := ofDescriptors ds
  return (r, warnings ++ [r.readyReport])

end Registry
end RemoteModels
