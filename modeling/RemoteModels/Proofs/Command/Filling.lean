import RemoteModels.Proofs.Command.Telling
import RemoteModels.Proofs.Instance.Invariant
import RemoteModels.Proofs.Json.Spelling
import RemoteModels.Proofs.Specification.Monoid

/-!
# Filling in fields

A text with the fields of a record may name a field more than once, and may name fields that are not
declared.  Of the first the last value counts; the second are left out, and the user is told of
each.  So each declared field ends up with the last value that the text has for it, or with the
value it had before.

* `Members.last?` — the value that counts.
* `Instance.get?_setAll`, `Instance.setAll_congr` — the fields after members have been set.
* `Descriptor.submitted`, `Descriptor.undeclared` — what a text makes of the fields, and what it
  does not reach.
* `Records.tells_applyJson` — filling in the members of a text.
-/

set_option autoImplicit false

namespace RemoteModels

open Json (Value Object)

/-! ## The value that counts

Members are set one after the other, so a later one overwrites an earlier one with the same name.
The text itself keeps one member for each name already, with the last value; counting the last one
is right both for the text as it stands and for the members that were read from it. -/

namespace Members

variable {α : Type}

/-- The value of the last member with this name. -/
def last? (l : List (String × α)) (name : String) : Option α := Members.get? l.reverse name

theorem isSome_last?_iff {l : List (String × α)} {name : String} :
    (last? l name).isSome ↔ ∃ e ∈ l, e.1 = name := by
  rw [last?, isSome_get?_iff, names, List.map_reverse, List.mem_reverse, List.mem_map]

/-- Reading a text keeps of each name the value that counts. -/
theorem last?_ofList (l : List (String × α)) (name : String) :
    last? (ofList l) name = last? l name := by
  have hself : ofList (ofList l) = ofList l := ofList_of_nodup (nodup_names_ofList l)
  rw [last?, ← get?_ofList, hself, get?_ofList, last?]

end Members

/-! ## Setting many fields

A member is set if its name is declared, and passed over if not.  What comes out of setting them all
in order can be said field by field. -/

namespace Instance

variable {i : Instance} {d : Descriptor}

/-- A field that is there has the last value it is set to. -/
theorem get?_setAll (i : Instance) (l : List (String × Value)) (name : String) :
    (i.setAll l).get? name = (i.get? name).map fun v => (Members.last? l name).getD v := by
  induction l generalizing i with
  | nil => exact Option.map_id'.symm
  | cons e rest ih =>
    rw [setAll, List.foldl_cons, ← setAll, ih, Members.last?, Members.last?, List.reverse_cons]
    simp only [Members.get?_append, Members.get?]
    cases hset : i.set e.1 e.2 with
    | error fault =>
      obtain ⟨hnone, -⟩ := set_eq_error_iff.1 hset
      by_cases hname : e.1 = name
      · simp [Except.toOption, ← hname, hnone]
      · simp [Except.toOption, hname]
    | ok i' =>
      obtain ⟨hsome, rfl⟩ := set_eq_ok_iff.1 hset
      simp only [Except.toOption, Option.getD_some, get?, Members.get?_put]
      by_cases hname : e.1 = name
      · obtain ⟨v, hv⟩ := Option.isSome_iff_exists.1 hsome
        rw [hname] at hv
        rw [show i.fields.get? name = some v from hv]
        cases Members.get? rest.reverse name <;> simp [hname]
      · simp [hname]

/-- Setting members makes no new fields and takes none away. -/
theorem names_setAll (i : Instance) (l : List (String × Value)) :
    (i.setAll l).fields.names = i.fields.names := by
  induction l generalizing i with
  | nil => rfl
  | cons e rest ih =>
    rw [setAll, List.foldl_cons, ← setAll, ih]
    cases hset : i.set e.1 e.2 with
    | error fault => rfl
    | ok i' =>
      obtain ⟨hsome, rfl⟩ := set_eq_ok_iff.1 hset
      exact Members.names_put_of_mem (Members.isSome_get?_iff.1 hsome) e.2

/-- An instance has unsaved changes afterwards if it had them before or a member was set. -/
theorem dirty_setAll (i : Instance) (l : List (String × Value)) :
    (i.setAll l).dirty = (i.dirty || l.any fun e => e.1 ∈ i.fields.names) := by
  induction l generalizing i with
  | nil => simp [setAll]
  | cons e rest ih =>
    rw [setAll, List.foldl_cons, ← setAll, ih, List.any_cons]
    cases hset : i.set e.1 e.2 with
    | error fault =>
      have hnone : e.1 ∉ i.fields.names := by
        rw [← Members.isSome_get?_iff, Option.not_isSome_iff_eq_none]
        exact (set_eq_error_iff.1 hset).1
      rw [decide_eq_false hnone, Bool.false_or]
      rfl
    | ok i' =>
      obtain ⟨hsome, rfl⟩ := set_eq_ok_iff.1 hset
      have hmem : e.1 ∈ i.fields.names := Members.isSome_get?_iff.1 hsome
      simp [Except.toOption, hmem]

/-- Members that agree on the fields that are there set them alike. -/
theorem setAll_congr (hn : i.fields.names.Nodup) {m m' : List (String × Value)}
    (h : ∀ name ∈ i.fields.names, Members.last? m name = Members.last? m' name) :
    i.setAll m = i.setAll m' := by
  have hfields : (i.setAll m).fields = (i.setAll m').fields := by
    refine Members.eq_of_get? ?_ ((i.names_setAll m).trans (i.names_setAll m').symm) fun name => ?_
    · rwa [names_setAll]
    · show (i.setAll m).get? name = (i.setAll m').get? name
      rw [get?_setAll, get?_setAll]
      cases hget : i.get? name with
      | none => rfl
      | some v => rw [h name (Members.isSome_get?_iff.1 (by rw [← get?, hget]; rfl))]
  have hsets : ∀ {m m' : List (String × Value)},
      (∀ name ∈ i.fields.names, Members.last? m name = Members.last? m' name) →
      (m.any fun e => e.1 ∈ i.fields.names) → m'.any fun e => e.1 ∈ i.fields.names := by
    intro m m' h hany
    obtain ⟨e, he, hname⟩ := List.any_eq_true.1 hany
    have hsome : (Members.last? m' e.1).isSome := by
      rw [← h e.1 (of_decide_eq_true hname)]
      exact Members.isSome_last?_iff.2 ⟨e, he, rfl⟩
    obtain ⟨e', he', heq⟩ := Members.isSome_last?_iff.1 hsome
    exact List.any_eq_true.2 ⟨e', he', heq ▸ hname⟩
  have hdirty : (i.setAll m).dirty = (i.setAll m').dirty := by
    rw [dirty_setAll, dirty_setAll,
      Bool.eq_iff_iff.2 ⟨hsets h, hsets fun name hname => (h name hname).symm⟩]
  -- Setting changes the fields and the mark alone.
  obtain ⟨fields, dirty, heq⟩ := i.setAll_eq m
  obtain ⟨fields', dirty', heq'⟩ := i.setAll_eq m'
  rw [heq, heq'] at hfields hdirty ⊢
  cases hfields
  cases hdirty
  rfl

end Instance

/-! ## What becomes of the fields

The last step is to say it in terms of the record that the instance came from, without the instance:
a declared field has the value from the text, or else that of the record, or else null. -/

namespace Descriptor

/-- The declared fields with what a text has for them: the last value in the text, else the value in
the record, else null. -/
def submitted (d : Descriptor) (record : Option Object) (l : List (String × Value)) : Object :=
  d.fieldNames.map fun name =>
    (name, ((Members.last? l name).or (record.bind (·.get? name))).getD .null)

/-- The names in a text that are not declared, each once and in the order of the text. -/
def undeclared (d : Descriptor) (l : List (String × Value)) : List String :=
  (l.map Prod.fst).eraseDups.filter (· ∉ d.fieldNames)

/-- What the user is told of a name that is not declared. -/
def skipLine (d : Descriptor) (name : String) : String :=
  "Skipping " ++ d.localName ++ " has no field '" ++ name ++ "'.\n"

/-- What counts in a text is what counts in its members as they are read. -/
theorem submitted_ofList (d : Descriptor) (record : Option Object) (l : List (String × Value)) :
    d.submitted record (Members.ofList l) = d.submitted record l := by
  simp only [submitted, Members.last?_ofList]

/-- A name that is not declared is told of once, however often the text has it. -/
theorem undeclared_ofList (d : Descriptor) (l : List (String × Value)) :
    d.undeclared (Members.ofList l) = d.undeclared l := by
  have hself : Members.ofList (Members.ofList l) = Members.ofList l :=
    Members.ofList_of_nodup (Members.nodup_names_ofList l)
  rw [undeclared, undeclared, ← Members.names_ofList, hself, Members.names_ofList]

end Descriptor

namespace Instance

variable {i : Instance} {d : Descriptor} {record : Option Object}

/-- Before anything is set, a declared field has the value of the record. -/
theorem Origin.get?_of_mem (h : Origin d i record) {name : String} (hname : name ∈ d.fieldNames) :
    i.get? name = some ((record.bind (·.get? name)).getD .null) := by
  cases h with
  | fresh => exact get?_fresh hname
  | record h =>
    rw [ofRecord_object] at h
    cases h
    exact ((Instance.fresh d).get?_update _ name).trans (if_pos hname)

/-- **The fields that are submitted**, for an instance as it came from a record or was made new. -/
theorem toDict_setAll (h : Origin d i record) (l : List (String × Value)) :
    (i.setAll l).toDict = d.submitted record l := by
  have hd : (i.setAll l).descriptor = d := by
    obtain ⟨fields, dirty, heq⟩ := i.setAll_eq l
    rw [heq]
    exact h.sound.descriptor
  rw [toDict, hd, Descriptor.submitted]
  refine List.map_congr_left fun name hname => ?_
  rw [get?_setAll, h.get?_of_mem hname]
  cases Members.last? l name <;> rfl

end Instance

namespace Records

/-! ## What is told of it

A member that is not declared is passed over with a line to the user.  Apart from these lines
filling is silent, and takes no turn. -/

/-- Every member whose name is not declared is told of, and the others are set. -/
theorem tells_applyMembers {m : List (String × Value)} {i : Instance}
    {post : List Turn → List Saying → Instance → Prop} :
    (applyMembers m i).Tells post ↔
      post [] (((m.map Prod.fst).filter (· ∉ i.fields.names)).map
        fun name => .err (i.descriptor.skipLine name)) (i.setAll m) := by
  -- Setting a field leaves the names alone, so the names that are passed over can be told
  -- beforehand.
  induction m generalizing i post with
  | nil => rfl
  | cons e rest ih =>
    obtain ⟨key, value⟩ := e
    rw [applyMembers, Instance.setAll, List.foldl_cons, ← Instance.setAll]
    cases hset : i.set key value with
    | ok i' =>
      obtain ⟨hsome, rfl⟩ := Instance.set_eq_ok_iff.1 hset
      have hmem : key ∈ i.fields.names := Members.isSome_get?_iff.1 hsome
      rw [List.map_cons, List.filter_cons_of_neg (by simpa using hmem)]
      refine ih.trans ?_
      simp only [Members.names_put_of_mem hmem]
      rfl
    | error fault =>
      obtain ⟨hnone, rfl⟩ := Instance.set_eq_error_iff.1 hset
      have hnot : key ∉ i.fields.names := by
        rw [← Members.isSome_get?_iff, Option.not_isSome_iff_eq_none]
        exact hnone
      have hline : "Skipping " ++ (FieldError.mk i.descriptor.localName key).message ++ ".\n"
          = i.descriptor.skipLine key := by
        simp [FieldError.message, Descriptor.skipLine, String.append_assoc]
      rw [List.map_cons, List.filter_cons_of_pos (by simpa using hnot)]
      dsimp only
      rw [hline]
      exact ih

/-- Filling in the members of a text takes no turn.  The user is told of every name that is not
declared, and of nothing if the text is no object. -/
theorem tells_applyJson {d : Descriptor} {i : Instance} {body : String}
    {post : List Turn → List Saying → Except Failure Instance → Prop} (hi : i.Sound d)
    (hok : ∀ m, Json.parse body = .ok (.object m) →
      post [] ((d.undeclared m).map fun name => .err (d.skipLine name)) (.ok (i.setAll m)))
    (herror : ∀ e, (∀ m, Json.parse body ≠ .ok (.object m)) → post [] [] (.error e)) :
    (applyJson i body).Tells post := by
  refine Attempt.Quiet.tells_bind (quiet_orFail _ _)
    (ensures_orFail (fun v hv => ?_) fun e he => ?_)
  · cases v with
    | object m =>
      have hnodup : (Members.names m).Nodup := (Json.parse_proper hv).nodup
      have hnames : (m.map Prod.fst).eraseDups = m.map Prod.fst := by
        rw [← Members.names_ofList, Members.ofList_of_nodup hnodup]
        rfl
      refine tells_lift (tells_applyMembers.2 ?_)
      rw [hi.names, hi.descriptor, ← hnames]
      exact hok m hv
    | null | bool | number | string | array =>
      refine herror _ fun m hm => ?_
      rw [hv] at hm
      cases hm
  · refine herror _ fun m hm => ?_
    rw [he] at hm
    cases hm

/-- But for what is said, setting members is setting those that are declared. -/
theorem unheard_applyMembers (m : List (String × Value)) (i : Instance) (c : HttpClient)
    (n : Network) :
    (Dialogue.run c n (applyMembers m i)).unheard = { result := i.setAll m, network := n } := by
  induction m generalizing i with
  | nil => rfl
  | cons e rest ih =>
    obtain ⟨key, value⟩ := e
    rw [applyMembers, Instance.setAll, List.foldl_cons, ← Instance.setAll]
    cases i.set key value with
    | ok i' => exact ih i'
    | error fault => exact ih i

theorem unheard_applyJson {body : String} {m : Object} (h : Json.parse body = .ok (.object m))
    (i : Instance) (c : HttpClient) (n : Network) :
    (Dialogue.run c n (applyJson i body).run).unheard
      = { result := .ok (i.setAll m), network := n } := by
  have happly := unheard_applyMembers m i c n
  have hrun : (applyJson i body).run = (applyMembers m i).bind fun i => .done (.ok i) := by
    rw [applyJson, h]
    rfl
  rw [hrun, Dialogue.run_bind]
  generalize Dialogue.run c n (applyMembers m i) = r at happly ⊢
  obtain ⟨result, network, turns, sayings, arrived⟩ := r
  cases happly
  rfl

end Records
end RemoteModels
