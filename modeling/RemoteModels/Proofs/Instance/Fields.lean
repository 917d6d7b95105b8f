import RemoteModels.Instance

/-!
# The fields of an instance

An instance keeps its fields as named members, while its descriptor lists which fields there are.
`Instance.get?` and `Instance.set` look at the members, `Instance.toDict` and `Instance.update` go
through the list.  This file says what each operation does to the members, in terms of look-up and
of names, so that later files need not open them.

* `Members.get?_putAll`, `Members.names_putAll` — writing a value for each name of a list.
* `Instance.get?_update` — a record replaces every declared field and no other.
* `Instance.get?_toDict`, `Instance.names_toDict` — the declared fields in declaration order.
* `recordId_ne_empty` — an identity is never the empty text.
-/

set_option autoImplicit false

namespace RemoteModels

open Json (Value Object Number)

/-! ## Look-up and names

Members are a list, in which the first of a name counts.  What matters of it is which names there
are, in which order, and what is found under each. -/

namespace Members

variable {α : Type}

/-- Something is found exactly under the names that are there. -/
theorem isSome_get?_iff {m : Members α} {name : String} :
    (m.get? name).isSome ↔ name ∈ m.names := by
  induction m with
  | nil => simp [get?, names]
  | cons e rest ih =>
    obtain ⟨k, v⟩ := e
    rw [get?, names, List.map_cons, List.mem_cons]
    by_cases hk : k = name
    · simp [hk]
    · rw [if_neg hk, ih]
      exact ⟨Or.inr, fun h => h.resolve_left fun e => hk e.symm⟩

/-- Writing under a name that is there does not move it. -/
theorem names_put_of_mem {m : Members α} {name : String} (h : name ∈ m.names) (v : α) :
    (m.put name v).names = m.names := by
  rw [names_put, if_pos h]

/-- Members that are listed by name, each with a value computed from it. -/
theorem get?_map (f : String → α) (l : List String) (name : String) :
    get? (l.map fun n => (n, f n)) name = if name ∈ l then some (f name) else none := by
  induction l with
  | nil => rfl
  | cons n rest ih =>
    rw [List.map_cons, get?]
    by_cases hn : n = name
    · simp [hn]
    · have hn' : ¬ name = n := fun e => hn e.symm
      simp [hn, hn', ih]

theorem names_map (f : String → α) (l : List String) :
    names (l.map fun n => (n, f n)) = l := by
  rw [names, List.map_map]
  exact List.map_id l

/-! ## Writing a value for each name of a list

A record is taken over by a loop over the declared fields.  Since the value to be written depends on
the name only, it does not matter that a name may be written twice. -/

/-- What is written is found, and the rest is as before. -/
theorem get?_putAll (f : String → α) (l : List String) (m : Members α) (name : String) :
    get? (l.foldl (fun m n => m.put n (f n)) m) name
      = if name ∈ l then some (f name) else m.get? name := by
  induction l generalizing m with
  | nil => rfl
  | cons n rest ih =>
    rw [List.foldl_cons, ih, get?_put]
    by_cases hr : name ∈ rest
    · simp [hr]
    · by_cases hn : n = name
      · simp [hr, hn]
      · have hn' : ¬ name = n := fun e => hn e.symm
        simp [hr, hn, hn']

/-- Writing under names that are there changes no name. -/
theorem names_putAll (f : String → α) {l : List String} {m : Members α}
    (h : ∀ n ∈ l, n ∈ m.names) : names (l.foldl (fun m n => m.put n (f n)) m) = m.names := by
  induction l generalizing m with
  | nil => rfl
  | cons n rest ih =>
    rw [List.forall_mem_cons] at h
    have hput : (m.put n (f n)).names = m.names := names_put_of_mem h.1 _
    rw [List.foldl_cons, ih (hput ▸ h.2), hput]

end Members

/-! ## Identities

An identity is taken from a record as a text or as a number.  The empty text is no identity, and the
text of a number is never empty; so to lack an identity and to have an empty one are not to be told
apart, and the second does not occur. -/

theorem Binary64.Numeral.text_ne_empty (form : Binary64.Layout) (n : Binary64.Numeral) :
    n.text form ≠ "" := by
  rw [Numeral.text, Ne, ← String.toList_inj]
  split
  · split
    · simp
    · split
      · simp
      · simp
  · simp

theorem Binary64.text_ne_empty (x : Binary64) : x.text ≠ "" := by
  rw [Binary64.text]
  split
  · simp [← String.toList_inj]
  · split
    · decide
    · exact Numeral.text_ne_empty _ _

theorem Json.Number.text_ne_empty (n : Number) : n.text ≠ "" := by
  cases n with
  | natural n => simp [Number.text, ← String.toList_inj, Nat.toDigits_ne_nil]
  | negative n => simp [Number.text, ← String.toList_inj]
  | real x => exact x.text_ne_empty

/-- A record carries an identity when its `id` is a text that is not empty, or a number. -/
theorem recordId_isSome_iff {r : Object} :
    (recordId r).isSome ↔
      (∃ s, r.get? "id" = some (.string s) ∧ s ≠ "") ∨ ∃ n, r.get? "id" = some (.number n) := by
  rw [recordId]
  split
  · next s h => by_cases hs : s = "" <;> simp [h, hs]
  · next n h => simp [h]
  · next hs hn =>
    refine ⟨fun h => absurd h (by simp), ?_⟩
    rintro (⟨s, h, -⟩ | ⟨n, h⟩)
    · exact absurd h (hs s)
    · exact absurd h (hn n)

/-- An identity is never the empty text. -/
theorem recordId_ne_empty {r : Object} {id : String} (h : recordId r = some id) : id ≠ "" := by
  rw [recordId] at h
  split at h
  · split at h
    · cases h
    · next hs => exact Option.some.inj h ▸ hs
  · exact Option.some.inj h ▸ Json.Number.text_ne_empty _
  · cases h

/-! ## The fields of an instance

One lemma for each operation, in terms of look-up and names. -/

namespace Instance

variable {i : Instance} {d : Descriptor} {r : Object} {field : String}

/-- A new instance has the declared fields, -/
theorem names_fresh (d : Descriptor) : (fresh d).fields.names = d.fieldNames :=
  Members.names_map _ _

/-- all of them null. -/
theorem get?_fresh (h : field ∈ d.fieldNames) : (fresh d).get? field = some .null := by
  rw [get?, fresh, Members.get?_map, if_pos h]

/-- **Server state wins**: a declared field has the value of the record, null where the record
has none, and no other field is touched. -/
theorem get?_update (i : Instance) (r : Object) (field : String) :
    (i.update r).get? field
      = if field ∈ i.descriptor.fieldNames then some ((r.get? field).getD .null)
        else i.get? field :=
  Members.get?_putAll _ _ _ _

/-- Taking a record over changes no name. -/
theorem names_update (h : i.fields.names = i.descriptor.fieldNames) (r : Object) :
    (i.update r).fields.names = i.descriptor.fieldNames := by
  rw [← h]
  exact Members.names_putAll _ fun n hn => h ▸ hn

theorem names_toDict (i : Instance) : i.toDict.names = i.descriptor.fieldNames :=
  Members.names_map _ _

theorem get?_toDict (h : field ∈ i.descriptor.fieldNames) :
    i.toDict.get? field = some ((i.get? field).getD .null) := by
  rw [toDict, Members.get?_map, if_pos h]

/-- Setting a field succeeds exactly for the fields that are there. -/
theorem set_eq_ok_iff {value : Value} {i' : Instance} :
    i.set field value = .ok i' ↔
      (i.get? field).isSome ∧
        i' = { i with fields := i.fields.put field value, dirty := true } := by
  rw [set]
  cases i.get? field with
  | none => simp
  | some v => simp [eq_comm]

/-- Setting a field fails exactly for those that are not there, and the error names the model and
the field. -/
theorem set_eq_error_iff {value : Value} {e : FieldError} :
    i.set field value = .error e ↔
      i.get? field = none ∧ e = ⟨i.descriptor.localName, field⟩ := by
  rw [set]
  cases i.get? field with
  | none => simp [eq_comm]
  | some v => simp

/-- The instance of a record: its fields are those of the record, and it is on the server exactly
when the record carries an identity. -/
theorem ofRecord_object (d : Descriptor) (r : Object) :
    ofRecord d (.object r) = .ok { (fresh d).update r with
      id := recordId r
      state := if (recordId r).isSome then .synced else .new } := by
  simp only [ofRecord, Value.asObject?]
  cases recordId r with
  | none => rfl
  | some id => rfl

/-- Only an object can be made an instance of. -/
theorem exists_of_ofRecord_eq_ok {v : Value} (h : ofRecord d v = .ok i) : ∃ r, v = .object r := by
  cases v with
  | object r => exact ⟨r, rfl⟩
  | null | bool | number | string | array => cases h

end Instance
end RemoteModels
