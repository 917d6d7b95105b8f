import RemoteModels.Json.Parser
import RemoteModels.Proofs.Faults
import RemoteModels.Yaml.Document

/-!
# Values that repeat no name

A value is a tree in which the members of an object are a list, so nothing in the type keeps two
members of one object from having the same name.  The readers do: an object is put together by
`Members.ofList`, which keeps one member for each name.

* `Json.Value.Proper` — no object inside the value repeats a name.
* `Json.parse_proper`, `Yaml.parse_proper` — what is read from a text is proper.

Both readers recurse on the depth of containers still allowed, and both proofs follow them: a
reader of items that gives proper values makes the reader of a container give proper values.  For
JSON the argument is made once for every property of this kind (`Json.Compositional`).
-/

set_option autoImplicit false

namespace RemoteModels

/-! ## Members that survive writing

What a list of members is made of is written by someone: each member that is there in the end was
there before or is the one that was written. -/

namespace Members

variable {α : Type}

/-- A member that is there after writing was there before, or is the one written. -/
theorem mem_put {m : Members α} {k : String} {v : α} {e : String × α} (h : e ∈ m.put k v) :
    e = (k, v) ∨ e ∈ m := by
  induction m with
  | nil => simpa [put] using h
  | cons x rest ih =>
    obtain ⟨k', v'⟩ := x
    rw [put] at h
    split at h
    · rename_i hk
      subst hk
      rcases List.mem_cons.1 h with h | h
      · exact Or.inl h
      · exact Or.inr (List.mem_cons_of_mem _ h)
    · rcases List.mem_cons.1 h with h | h
      · exact Or.inr (h ▸ List.mem_cons_self)
      · exact (ih h).imp_right (List.mem_cons_of_mem _)

/-- A member of two lists written over each other is from one of them. -/
theorem mem_merge {m later : Members α} {e : String × α} (h : e ∈ m.merge later) :
    e ∈ m ∨ e ∈ later := by
  induction later generalizing m with
  | nil => exact Or.inl h
  | cons x rest ih =>
    rcases ih h with h | h
    · rcases mem_put h with h | h
      · exact Or.inr (h ▸ List.mem_cons_self)
      · exact Or.inl h
    · exact Or.inr (List.mem_cons_of_mem _ h)

/-- What is left of a list with repeated names was in the list. -/
theorem mem_ofList {l : List (String × α)} {e : String × α} (h : e ∈ ofList l) : e ∈ l :=
  (mem_merge h).resolve_left (by simp)

end Members

namespace Json

/-! ## Proper values

A value is proper if no object in it has two members of one name, at any depth. -/

/-- No object inside the value has two members of one name. -/
inductive Value.Proper : Value → Prop
  | null : Proper .null
  | bool (b : Bool) : Proper (.bool b)
  | number (n : Number) : Proper (.number n)
  | string (s : String) : Proper (.string s)
  | array {items : List Value} (h : ∀ v ∈ items, Proper v) : Proper (.array items)
  | object {members : Object} (hn : members.names.Nodup) (h : ∀ e ∈ members, Proper e.2) :
      Proper (.object members)

theorem Value.Proper.nodup {m : Object} (h : (Value.object m).Proper) : m.names.Nodup := by
  cases h with
  | object hn _ => exact hn

/-- Members with proper values make a proper object once repeated names are gone. -/
theorem Value.Proper.ofList {l : List (String × Value)} (h : ∀ e ∈ l, e.2.Proper) :
    (Value.object (Members.ofList l)).Proper :=
  .object (Members.nodup_names_ofList l) fun e he => h e (Members.mem_ofList he)

/-! ## Reading JSON

A property of values that passes from parts to wholes holds of everything that is read.  The proof
follows the readers from the inside out, with the reader of items as a parameter, and the depth as
the induction. -/

/-- Everything the reader gives has the property. -/
def Reader.Gives {α : Type} (P : α → Prop) (r : Reader α) : Prop :=
  ∀ {c c' : Cursor} {a : α}, r c = .ok (a, c') → P a

/-- The property passes from the parts of a value to what is made of them in reading. -/
structure Compositional (P : Value → Prop) : Prop where
  null : P .null
  bool : ∀ b, P (.bool b)
  string : ∀ s, P (.string s)
  number : Reader.Gives (fun n => P (.number n)) readNumber
  array : ∀ {items : List Value}, (∀ v ∈ items, P v) → P (.array items)
  object : ∀ {l : List (String × Value)}, (∀ e ∈ l, P e.2) → P (.object (Members.ofList l))

section Gives

variable {P : Value → Prop} {item : Reader Value}

/-- The items of an array have the property if the reader of items gives it. -/
theorem readItems_gives (hi : item.Gives P) :
    ∀ {n : Nat} {first : Bool} {c c' : Cursor} {vs : List Value},
      readItems item n first c = .ok (vs, c') → ∀ v ∈ vs, P v := by
  intro n
  induction n with
  | zero => intro first c c' vs h; simp [readItems, failSeen] at h
  | succ n ih =>
    intro first c c' vs h
    rw [readItems] at h
    split at h
    · simp [failSeen] at h
    · cases h
      simp
    · -- Whatever stands in front of the item, it is read the same way from there.
      have key : ∀ start : Cursor, (item start >>= fun r => readItems item n false r.2 >>= fun r' =>
          .ok (r.1 :: r'.1, r'.2)) = .ok (vs, c') → ∀ v ∈ vs, P v := by
        intro start h
        obtain ⟨r, hr, h⟩ := of_bind_eq_ok h
        obtain ⟨r', hr', h⟩ := of_bind_eq_ok h
        cases h
        exact List.forall_mem_cons.2 ⟨hi hr, ih hr'⟩
      simp only at h
      split at h
      · exact key _ h
      · split at h
        · split at h
          · cases h
          · cases h
          · exact key _ h
        · cases h

/-- So have the values of members. -/
theorem readMembers_gives (hi : item.Gives P) :
    ∀ {n : Nat} {first : Bool} {c c' : Cursor} {ms : List (String × Value)},
      readMembers item n first c = .ok (ms, c') → ∀ e ∈ ms, P e.2 := by
  intro n
  induction n with
  | zero => intro first c c' ms h; simp [readMembers, failSeen] at h
  | succ n ih =>
    intro first c c' ms h
    rw [readMembers] at h
    obtain ⟨next, -, h⟩ := of_bind_eq_ok h
    cases next with
    | none =>
      cases h
      simp
    | some c₀ =>
      obtain ⟨⟨name, c₁⟩, -, h⟩ := of_bind_eq_ok h
      obtain ⟨c₂, -, h⟩ := of_bind_eq_ok h
      obtain ⟨⟨v, c₃⟩, hv, h⟩ := of_bind_eq_ok h
      obtain ⟨⟨rest, c₄⟩, hrest, h⟩ := of_bind_eq_ok h
      cases h
      exact List.forall_mem_cons.2 ⟨hi hv, ih hrest⟩

/-- So have arrays and objects. -/
theorem readContainer_gives (hP : Compositional P) (hi : item.Gives P) :
    Reader.Gives P (readContainer item) := by
  intro c c' v h
  rw [readContainer] at h
  split at h
  · obtain ⟨⟨items, c₁⟩, hitems, h⟩ := of_bind_eq_ok h
    cases h
    exact hP.array (readItems_gives hi hitems)
  · obtain ⟨⟨members, c₁⟩, hmembers, h⟩ := of_bind_eq_ok h
    cases h
    exact hP.object (readMembers_gives hi hmembers)

/-- So have values, if containers have it. -/
theorem readValueWith_gives (hP : Compositional P) {container : Reader Value}
    (hc : container.Gives P) : Reader.Gives P (readValueWith container) := by
  intro c c' v h
  simp only [readValueWith] at h
  split at h
  · simp [failSeen] at h
  · obtain ⟨c₁, -, h⟩ := of_bind_eq_ok h
    cases h
    exact hP.null
  · obtain ⟨c₁, -, h⟩ := of_bind_eq_ok h
    cases h
    exact hP.bool true
  · obtain ⟨c₁, -, h⟩ := of_bind_eq_ok h
    cases h
    exact hP.bool false
  · obtain ⟨⟨s, c₁⟩, -, h⟩ := of_bind_eq_ok h
    cases h
    exact hP.string s
  · exact hc h
  · exact hc h
  · split at h
    · obtain ⟨⟨n, c₁⟩, hn, h⟩ := of_bind_eq_ok h
      cases h
      exact hP.number hn
    · simp [failSeen] at h

/-- By induction on the depth, all values have it. -/
theorem readValue_gives (hP : Compositional P) (depth : Nat) :
    Reader.Gives P (readValue depth) := by
  induction depth with
  | zero => exact readValueWith_gives hP fun h => by simp [failSeen] at h
  | succ depth ih => exact readValueWith_gives hP (readContainer_gives hP ih)

/-- **What is read from a text has the property.** -/
theorem parse_gives (hP : Compositional P) {text : String} {v : Value} (h : parse text = .ok v) :
    P v := by
  rw [parse] at h
  obtain ⟨⟨w, c⟩, hw, h⟩ := of_bind_eq_ok h
  obtain ⟨-, -, h⟩ := of_bind_eq_ok h
  cases h
  exact readValue_gives hP maxDepth hw

end Gives

/-- To be proper is such a property. -/
theorem compositional_proper : Compositional Value.Proper where
  null := .null
  bool := .bool
  string := .string
  number := fun _ => .number _
  array := .array
  object := .ofList

/-- **A value read from a JSON text repeats no name.** -/
theorem parse_proper {text : String} {v : Value} (h : parse text = .ok v) : v.Proper :=
  parse_gives compositional_proper h

end Json

/-! ## Reading YAML

The reader of YAML goes through nodes that are already there, and may visit a node more than once,
where an anchor is repeated.  That makes the recursion go over depth and not over the nodes;
otherwise the argument is the same. -/

namespace Yaml

open Json (Value)

theorem FloatValue.value_proper (x : FloatValue) : x.value.Proper := by
  cases x with
  | finite x => exact .number (.real x)
  | infinite => exact .null
  | undefined => exact .null

/-- A plain scalar is no object. -/
theorem plainValue?_proper {text : String} {v : Value} (h : plainValue? text = some v) :
    v.Proper := by
  simp only [plainValue?] at h
  split at h
  · cases h
    exact .null
  · split at h
    · cases h
      exact .bool _
    · split at h
      · cases h
        exact .number _
      · cases h
      · split at h
        · cases h
          exact .string text
        · cases h
          cases float? text.toList with
          | none => exact .string text
          | some x => exact x.value_proper

/-- Neither is a scalar with a tag. -/
theorem taggedValue?_proper {tag text : String} {v : Value} (h : taggedValue? tag text = some v) :
    v.Proper := by
  rw [taggedValue?] at h
  split at h
  · cases h
  · split at h
    · obtain ⟨b, -, rfl⟩ := Option.map_eq_some_iff.1 h
      exact .bool b
    · split at h
      · split at h
        · cases h
          exact .number _
        · cases h
      · split at h
        · obtain ⟨x, -, rfl⟩ := Option.map_eq_some_iff.1 h
          exact x.value_proper
        · split at h
          · split at h
            · cases h
              exact .null
            · cases h
          · cases h
            exact .string text

namespace Compose

/-! ## Nodes

Sequences and mappings take the computation for their items as a parameter, and the induction on the
depth supplies it. -/

theorem scalar?_proper {tag : Option String} {text : String} {style : Style} {v : Value}
    (h : scalar? tag text style = some v) : v.Proper := by
  cases tag with
  | none =>
    rw [scalar?] at h
    split at h
    · exact plainValue?_proper h
    · cases h
      exact .string text
  | some tag => exact taggedValue?_proper h

/-- Every value the computation gives for a node is proper. -/
def GivesProper (item : Labelled → Compose Value) : Prop :=
  ∀ {node : Labelled} {used used' : Nat} {v : Value}, item node used = some (v, used') → v.Proper

/-- The items of a sequence are proper. -/
theorem items_proper {item : Labelled → Compose Value} (hi : GivesProper item)
    {nodes : List Labelled} {used used' : Nat} {vs : List Value}
    (h : items item nodes used = some (vs, used')) : ∀ v ∈ vs, v.Proper := by
  induction nodes generalizing used vs with
  | nil =>
    cases h
    simp
  | cons node rest ih =>
    rw [items] at h
    obtain ⟨⟨v, u₁⟩, hv, h⟩ := Option.bind_eq_some_iff.1 h
    obtain ⟨⟨more, u₂⟩, hmore, h⟩ := Option.bind_eq_some_iff.1 h
    cases h
    exact List.forall_mem_cons.2 ⟨hi hv, ih hmore⟩

theorem members_proper {l : Labels} {item : Labelled → Compose Value} (hi : GivesProper item)
    {entries : List (Labelled × Labelled)} {used used' : Nat} {ms : List (String × Value)}
    (h : members l item entries used = some (ms, used')) : ∀ e ∈ ms, e.2.Proper := by
  induction entries generalizing used ms with
  | nil =>
    cases h
    simp
  | cons entry rest ih =>
    obtain ⟨k, node⟩ := entry
    rw [members] at h
    obtain ⟨⟨name, u₁⟩, -, h⟩ := Option.bind_eq_some_iff.1 h
    obtain ⟨⟨v, u₂⟩, hv, h⟩ := Option.bind_eq_some_iff.1 h
    obtain ⟨⟨more, u₃⟩, hmore, h⟩ := Option.bind_eq_some_iff.1 h
    cases h
    exact List.forall_mem_cons.2 ⟨hi hv, ih hmore⟩

/-- By induction on the depth, all values are proper. -/
theorem value_proper (l : Labels) (depth : Nat) : GivesProper (value l depth) := by
  induction depth with
  | zero =>
    intro node used used' v h
    rw [value] at h
    obtain ⟨⟨node, u₁⟩, -, h⟩ := Option.bind_eq_some_iff.1 h
    cases node with
    | scalar tag text style =>
      obtain ⟨w, hw, h⟩ := Option.bind_eq_some_iff.1 h
      cases h
      exact scalar?_proper hw
    | label | sequence | mapping => cases h
  | succ depth ih =>
    intro node used used' v h
    rw [value] at h
    obtain ⟨⟨node, u₁⟩, -, h⟩ := Option.bind_eq_some_iff.1 h
    cases node with
    | label => cases h
    | scalar tag text style =>
      obtain ⟨w, hw, h⟩ := Option.bind_eq_some_iff.1 h
      cases h
      exact scalar?_proper hw
    | sequence tag nodes =>
      simp only at h
      split at h
      · cases h
      · obtain ⟨⟨vs, u₂⟩, hvs, h⟩ := Option.bind_eq_some_iff.1 h
        cases h
        exact .array (items_proper ih hvs)
    | mapping tag entries =>
      simp only at h
      split at h
      · cases h
      · obtain ⟨⟨ms, u₂⟩, hms, h⟩ := Option.bind_eq_some_iff.1 h
        cases h
        exact .ofList (members_proper ih hms)

end Compose

/-- **A value read from a YAML text repeats no name.** -/
theorem parse_proper {text : String} {v : Value} (h : parse text = some v) : v.Proper := by
  rw [parse] at h
  obtain ⟨tokens, -, h⟩ := Option.bind_eq_some_iff.1 h
  obtain ⟨node, -, h⟩ := Option.bind_eq_some_iff.1 h
  cases node with
  | none =>
    cases h
    exact .null
  | some node =>
    obtain ⟨⟨root, labels⟩, -, h⟩ := Option.bind_eq_some_iff.1 h
    obtain ⟨⟨w, used⟩, hw, h⟩ := Option.bind_eq_some_iff.1 h
    cases h
    exact Compose.value_proper labels maxDepth hw

end Yaml
end RemoteModels
