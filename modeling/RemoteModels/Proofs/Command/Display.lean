import RemoteModels.Command.Records
import RemoteModels.Proofs.Envelope.RoundTrip
import RemoteModels.Proofs.Faults
import RemoteModels.Proofs.Instance.Invariant
import RemoteModels.Proofs.Specification.Merge

/-!
# Records as they are shown

A record is shown with its identity first and its declared fields behind it.  The two are written
into one sequence of members, so a model that declares a field `id` has its identity overwritten: in
the place of the identity stands the value of the field.  The two agree as long as the field is the
text of the identity, which it need not be even in a record as it comes from the server.

This is how the two statements of this file fit together.  The first says for every record what
stands in the place of the identity; the second says when that is the identity.  They are stated for
instances that a client can come to have, whose fields are those of a model that can be declared,
because only there a declared field is found under its name.

* `Records.recordValue_eq` — the members that are shown.
* `Records.identity_shown_iff` — when the identity is among them.
-/

set_option autoImplicit false

namespace RemoteModels
namespace Records

open Json (Value Object)

variable {d : Descriptor} {i : Instance}

/-- What is shown begins with `id`, which has the value of the field of that name if there is one,
and goes on with the other fields. -/
theorem recordValue_eq (h : i.toDict.names.Nodup) :
    recordValue i = .object
      (("id", (i.toDict.get? "id").getD (Envelope.idValue i.id)) ::
        i.toDict.filter (·.1 ≠ "id")) := by
  have hid : (Members.names [("id", Envelope.idValue i.id)]).Nodup := by simp [Members.names]
  have hvalue : recordValue i
      = .object (Members.merge [("id", Envelope.idValue i.id)] i.toDict) := by
    rw [recordValue]
    cases i.id <;> rfl
  rw [hvalue, Members.merge_eq hid h]
  simp [Members.replaced, Members.names]

/-- **What is shown as the identity.**  In front of the declared fields other than `id` stands the
value of a field `id`, if the model declares one, and otherwise the identity; so it is the identity
exactly if the field has its value. -/
theorem identity_shown_iff (hd : d.Attainable) (hi : i.Reachable d) :
    recordValue i = .object
      (("id", if "id" ∈ d.fieldNames then (i.get? "id").getD .null else Envelope.idValue i.id) ::
        i.toDict.filter (·.1 ≠ "id")) ∧
    (recordValue i = .object
        (("id", Envelope.idValue i.id) :: i.toDict.filter (·.1 ≠ "id")) ↔
      ("id" ∈ d.fieldNames → i.get? "id" = some (Envelope.idValue i.id))) := by
  have hsound : i.Sound d := hi.sound
  have hnodup : i.toDict.names.Nodup := by
    rw [Instance.names_toDict, hsound.descriptor]
    exact hd.nodup_fieldNames
  rw [recordValue_eq hnodup]
  by_cases hfield : "id" ∈ d.fieldNames
  · have hdict : i.toDict.get? "id" = some ((i.get? "id").getD .null) :=
      Instance.get?_toDict (hsound.descriptor ▸ hfield)
    obtain ⟨v, hv⟩ := Option.isSome_iff_exists.1
      ((hsound.get?_iff "id").2 (Descriptor.declares_iff.2 hfield))
    simp [hfield, hdict, hv]
  · have hdict : i.toDict.get? "id" = none := by
      refine Members.get?_of_not_mem ?_
      rwa [Instance.names_toDict, hsound.descriptor]
    simp [hfield, hdict]

/-! ## A model that declares an identity

A field may be named like the identity of a record, and then it is the field that is shown. -/

/-- A model that declares a field `id`. -/
def coinDeclaration : Object := [("id", .string "int"), ("label", .string "string")]

/-- The model of that declaration. -/
def coin : Descriptor := ⟨"Coin", "Coin", "none", [⟨"id", "int"⟩, ⟨"label", "string"⟩]⟩

/-- A specification can declare it. -/
theorem coin_attainable : coin.Attainable := by
  have hbody : (Value.object coinDeclaration).Proper := by
    refine .object (by decide) fun e he => ?_
    simp only [coinDeclaration, List.mem_cons, List.not_mem_nil, or_false] at he
    rcases he with rfl | rfl <;> exact .string _
  have hv : (Value.object [("Coin", .object coinDeclaration)]).Proper := by
    refine .object (by decide) fun e he => ?_
    rw [List.mem_singleton.1 he]
    exact hbody
  have hds : Descriptor.ofEntries [("Coin", coinDeclaration)] = .ok [coin] :=
    eq_ok_of_toOption (by decide +kernel)
  exact Descriptor.attainable_of_mem_descriptors (.ofValue hv rfl) hds List.mem_cons_self

/-- A coin from the server, whose field `id` is then set. -/
def renumberedCoin : Instance :=
  Instance.run
    { descriptor := coin
      id := some "3"
      fields := [("id", .number (.natural 3)), ("label", .string "penny")]
      locals := []
      state := .synced
      dirty := false
      pending := false }
    [.set "id" (.number (.natural 9))]

/-- A client can come to have it: the record is fetched, and the field is set. -/
theorem renumberedCoin_reachable : renumberedCoin.Reachable coin :=
  ⟨_, _, _, .record (r := [("id", .number (.natural 3)), ("label", .string "penny")]) rfl, rfl⟩

/-- An instance that is shown with its identity. -/
theorem identity_shown_bolt :
    widget.Attainable ∧ Instance.bolt.Reachable widget ∧
      recordValue Instance.bolt = .object
        (("id", .string "7") :: Instance.bolt.toDict.filter (·.1 ≠ "id")) :=
  ⟨widget_attainable, Instance.bolt_reachable,
    (identity_shown_iff widget_attainable Instance.bolt_reachable).2.2
      fun h => absurd h (by decide)⟩

/-- The coin has the identity `3`, to which its changes go, and is shown as `9`. -/
theorem identity_hidden :
    coin.Attainable ∧ renumberedCoin.Reachable coin ∧ renumberedCoin.id = some "3" ∧
      recordValue renumberedCoin
        = .object [("id", .number (.natural 9)), ("label", .string "penny")] ∧
      Gateway.target ⟨coin⟩ .put renumberedCoin = .ok "/Coin/3" :=
  ⟨coin_attainable, renumberedCoin_reachable, rfl, rfl, eq_ok_of_toOption (by decide +kernel)⟩

end Records
end RemoteModels
