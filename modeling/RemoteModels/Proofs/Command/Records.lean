import RemoteModels.Command.Records
import RemoteModels.Proofs.Command.Dialogue
import RemoteModels.Proofs.Gateway.Contract
import RemoteModels.Proofs.Session.Register

/-!
# The parts of a command about records

Every command is made of the same few parts: loading the models, looking one of them up, asking for
records, setting the members of a text, and sending a change.  This file says of each part when it
succeeds, in words that are not those of its definition, and what turns it has taken by then.

A rule for a part is stated the way it is used.  It takes what must hold where the part succeeds and
where it fails, and gives the statement about the part; so the proof about a command reads down the
command, one rule for each of its lines, and what is left at the end are the branches on which
something has to be shown.

* `Attempt.Tells`, `Attempt.Ensures` — dialogues that may fail;
  `Attempt.tells_bind`, `Attempt.ensures_bind` — one of them after the other.
* `Gateway.ListsRecords` — the answers that are a list of records.
* `Instance.setAll` — setting every member that is declared.
* `Records.ensures_loadModels`, …, `Records.ensures_send` — the parts.
-/

set_option autoImplicit false

namespace RemoteModels

open Json (Value Object)

/-! ## Dialogues that may fail

An attempt is a dialogue with an `Except` at its end, and its `bind` goes on only where that is a
result.  The rule for two parts in a row therefore has two sides: where the first part succeeds the
second has to lead on, and where it fails the whole has ended. -/

namespace Attempt

variable {α β : Type}

/-- However the attempt is answered, its turns, what the user hears and its end are like this. -/
def Tells (m : Attempt α) (post : List Turn → List Saying → Except Failure α → Prop) : Prop :=
  Dialogue.Tells m.run post

/-- What has to hold at the end of a first part for the second one to lead on to `post`. -/
def Leading (f : α → Attempt β) (post : List Turn → List Saying → Except Failure β → Prop)
    (ts : List Turn) (said : List Saying) : Except Failure α → Prop
  | .ok a => (f a).Tells fun ts' said' r => post (ts ++ ts') (said ++ said') r
  | .error e => post ts said (.error e)

/-- **One part after the other**: the second is tried only where the first has succeeded. -/
theorem tells_bind {m : Attempt α} {f : α → Attempt β}
    {post : List Turn → List Saying → Except Failure β → Prop} (h : m.Tells (Leading f post)) :
    (m >>= f).Tells post := by
  refine Dialogue.tells_bind.2 (Dialogue.Tells.mono (fun ts said r hr => ?_) h)
  cases r with
  | ok a => exact hr
  | error e =>
    have hnil : post (ts ++ []) (said ++ []) (.error e) := by rwa [List.append_nil, List.append_nil]
    exact hnil

/-- However the attempt is answered, its turns and its end are like this, whatever is said. -/
def Ensures (m : Attempt α) (post : List Turn → Except Failure α → Prop) : Prop :=
  m.Tells fun ts _ r => post ts r

/-- What has to hold there if nobody asks what is said. -/
def Before (f : α → Attempt β) (post : List Turn → Except Failure β → Prop) (ts : List Turn) :
    Except Failure α → Prop
  | .ok a => (f a).Ensures fun ts' r => post (ts ++ ts') r
  | .error e => post ts (.error e)

/-- The same with no eye on what is said. -/
theorem ensures_bind {m : Attempt α} {f : α → Attempt β}
    {post : List Turn → Except Failure β → Prop} (h : m.Ensures (Before f post)) :
    (m >>= f).Ensures post := by
  refine tells_bind (Dialogue.Tells.mono (fun ts said r hr => ?_) h)
  cases r with
  | ok a => exact hr
  | error e => exact hr

end Attempt

/-! ## What the parts depend on

Whether a part succeeds is decided by an answer, deep inside the conversion of records to instances.
The conditions are brought to the surface here: an answer is a list of records, or a record, and
nothing more is asked of it. -/

namespace Gateway

variable {g : Gateway}

/-- The answer is a list of records. -/
def ListsRecords (answer : Answer) : Prop :=
  ∃ items, answer = .ok (.array items) ∧ ∀ v ∈ items, ∃ r, v = Value.object r

/-- Every record can be made an instance of, whatever its members are. -/
theorem hydrate_of_object (g : Gateway) (r : Object) : ∃ i, g.hydrate (.object r) = .ok i :=
  ⟨_, Instance.ofRecord_object g.descriptor r⟩

/-- A list of records can be made instances of, one by one. -/
theorem hydrateAll_of_objects {items : List Value} (h : ∀ v ∈ items, ∃ r, v = Value.object r) :
    ∃ is, g.hydrateAll items = .ok is := by
  induction items with
  | nil => exact ⟨[], rfl⟩
  | cons v rest ih =>
    rw [List.forall_mem_cons] at h
    obtain ⟨⟨r, rfl⟩, hrest⟩ := h
    obtain ⟨i, hi⟩ := g.hydrate_of_object r
    obtain ⟨is, his⟩ := ih hrest
    refine ⟨i :: is, ?_⟩
    rw [hydrateAll, hi, his]
    rfl

/-- A value that is no record stops the conversion of the whole list. -/
theorem objects_of_hydrateAll {items : List Value} {is : List Instance}
    (h : g.hydrateAll items = .ok is) : ∀ v ∈ items, ∃ r, v = Value.object r := by
  induction items generalizing is with
  | nil => exact fun v hv => absurd hv List.not_mem_nil
  | cons v rest ih =>
    rw [hydrateAll] at h
    obtain ⟨i, hi, h⟩ := of_bind_eq_ok h
    obtain ⟨is', his, -⟩ := of_bind_eq_ok h
    rw [List.forall_mem_cons]
    exact ⟨Instance.exists_of_ofRecord_eq_ok hi, ih his⟩

/-- A list of records is what a request for a collection asks for. -/
theorem listOf_isOk_iff {url : String} {answer : Answer} :
    (∃ is, g.listOf url answer = .ok is) ↔ ListsRecords answer := by
  constructor
  · rintro ⟨is, h⟩
    cases answer with
    | error e => cases h
    | ok v =>
      cases v with
      | array items => exact ⟨items, rfl, objects_of_hydrateAll h⟩
      | null | bool | number | string | object => cases h
  · rintro ⟨items, rfl, h⟩
    exact hydrateAll_of_objects h

/-- What can be made an instance of is a record. -/
theorem exists_of_itemOf {answer : Answer} {i : Instance} (h : g.itemOf answer = .ok i) :
    ∃ r, answer = .ok (.object r) := by
  cases answer with
  | error e => cases h
  | ok v =>
    obtain ⟨r, rfl⟩ := Instance.exists_of_ofRecord_eq_ok h
    exact ⟨r, rfl⟩

/-- The instance of a record has the identity of the record, and may still be changed. -/
theorem of_hydrate_object {r : Object} {i : Instance} (h : g.hydrate (.object r) = .ok i) :
    i.id = recordId r ∧ i.state ≠ .destroyed := by
  rw [hydrate, Instance.ofRecord_object] at h
  cases h
  cases recordId r with
  | none => exact ⟨rfl, nofun⟩
  | some id => exact ⟨rfl, nofun⟩

end Gateway

namespace Instance

/-- The instance with every member set that it declares. -/
def setAll (i : Instance) (m : List (String × Value)) : Instance :=
  m.foldl (fun i kv => (i.set kv.1 kv.2).toOption.getD i) i

/-- Setting members touches nothing but fields and the mark of unsaved changes. -/
theorem setAll_eq (i : Instance) (m : List (String × Value)) :
    ∃ fields dirty, i.setAll m = { i with fields := fields, dirty := dirty } := by
  induction m generalizing i with
  | nil => exact ⟨i.fields, i.dirty, rfl⟩
  | cons kv rest ih =>
    obtain ⟨fields, dirty, h⟩ := ih ((i.set kv.1 kv.2).toOption.getD i)
    refine ⟨fields, dirty, ?_⟩
    rw [setAll, List.foldl_cons, ← setAll, h]
    cases hset : i.set kv.1 kv.2 with
    | error e => rfl
    | ok i' =>
      obtain ⟨-, rfl⟩ := set_eq_ok_iff.1 hset
      rfl

theorem id_setAll (i : Instance) (m : List (String × Value)) : (i.setAll m).id = i.id := by
  obtain ⟨fields, dirty, h⟩ := i.setAll_eq m
  rw [h]

theorem state_setAll (i : Instance) (m : List (String × Value)) :
    (i.setAll m).state = i.state := by
  obtain ⟨fields, dirty, h⟩ := i.setAll_eq m
  rw [h]

end Instance

/-! ## The parts

Each part takes at most one turn.  What it adds to the turns is written out in the rule, with the
answer as a variable, since the dialogue goes on under every answer. -/

namespace Records

variable {α : Type}

/-- A dialogue that cannot fail, as a part that succeeds. -/
theorem tells_lift {d : Dialogue α} {post : List Turn → List Saying → Except Failure α → Prop}
    (h : d.Tells fun ts said a => post ts said (.ok a)) : (lift d).Tells post := by
  refine Dialogue.tells_bind.2 (Dialogue.Tells.mono (fun ts said a ha => ?_) h)
  have hnil : post (ts ++ []) (said ++ []) (.ok a) := by rwa [List.append_nil, List.append_nil]
  exact hnil

theorem ensures_lift {d : Dialogue α} {post : List Turn → Except Failure α → Prop}
    (h : d.Ensures fun ts a => post ts (.ok a)) : (lift d).Ensures post :=
  tells_lift h

/-- Showing lines takes no turn, and succeeds. -/
theorem ensures_lines {lines : List String} {post : List Turn → Except Failure Unit → Prop}
    (h : post [] (.ok ())) : (lift (Dialogue.outAll lines)).Ensures post :=
  ensures_lift (Dialogue.ensures_outAll.2 h)

/-- A check takes no turn: its fault is the fault of the command. -/
theorem ensures_orFail {ε : Type} {f : ε → Failure} {x : Except ε α}
    {post : List Turn → Except Failure α → Prop} (hok : ∀ a, x = .ok a → post [] (.ok a))
    (herror : ∀ e, x = .error e → post [] (.error (f e))) : (orFail f x).Ensures post := by
  cases x with
  | ok a => exact hok a rfl
  | error e => exact herror e rfl

/-- Loading takes one turn, and succeeds if its answer is a specification. -/
theorem ensures_loadModels {l : Loader} {post : List Turn → Except Failure Registry → Prop}
    (hok : ∀ answer r, l.Builds answer r → post [.text l.path answer] (.ok r))
    (herror : ∀ answer e, (∀ r, ¬ l.Builds answer r) → post [.text l.path answer] (.error e)) :
    (loadModels l).Ensures post := by
  refine Attempt.ensures_bind (ensures_lift fun answer => ?_)
  refine Attempt.ensures_bind (ensures_lift (Dialogue.ensures_logAll.2 ?_))
  refine Attempt.ensures_bind (ensures_orFail (fun r hr => ?_) fun e he => ?_)
  · exact hok answer r (Loader.builds_iff.2 hr)
  · have hbuild : (l.build answer).1 = .error e := he
    refine herror answer _ fun r hr => ?_
    rw [Loader.builds_iff.1 hr] at hbuild
    cases hbuild

/-- Looking a model up takes no turn, and fails for a name that is not declared. -/
theorem ensures_gatewayOf {r : Registry} {model : String}
    {post : List Turn → Except Failure Gateway → Prop}
    (hok : ∀ g, r.get? model = some g → post [] (.ok g))
    (herror : ∀ e, r.get? model = none → post [] (.error e)) :
    (gatewayOf r model).Ensures post := by
  rw [gatewayOf]
  cases hg : r.get? model with
  | some g => exact hok g hg
  | none => exact herror _ hg

/-! ## Requests about records

A request is answered in any way there is.  The rule says which answers lead on, by the conditions
above, and the others are its failures. -/

/-- Asking for a collection takes one turn, and succeeds if its answer is a list of records. -/
theorem ensures_fetchAll {g : Gateway} {parentId : String}
    {post : List Turn → Except Failure (List Instance) → Prop}
    (hok : ∀ answer is, Gateway.ListsRecords answer →
      post [.get (g.collectionUrl parentId) answer] (.ok is))
    (herror : ∀ answer e, ¬ Gateway.ListsRecords answer →
      post [.get (g.collectionUrl parentId) answer] (.error e)) :
    (fetchAll g parentId).Ensures post := by
  refine Attempt.ensures_bind (ensures_lift ?_)
  refine Attempt.ensures_bind (ensures_lift fun answer => ensures_orFail (fun is his => ?_) ?_)
  · exact hok answer is (Gateway.listOf_isOk_iff.1 ⟨is, his⟩)
  · intro e he
    refine herror answer _ fun hlist => ?_
    obtain ⟨is, his⟩ := Gateway.listOf_isOk_iff.2 hlist
    rw [his] at he
    cases he

/-- Asking for a record takes one turn, and succeeds if its answer is one. -/
theorem ensures_fetch {g : Gateway} {id : String}
    {post : List Turn → Except Failure Instance → Prop}
    (hok : ∀ r i, g.hydrate (.object r) = .ok i →
      post [.get (g.itemUrl id) (.ok (.object r))] (.ok i))
    (herror : ∀ answer e, (∀ r, answer ≠ .ok (.object r)) →
      post [.get (g.itemUrl id) answer] (.error e)) :
    (fetch g id).Ensures post := by
  refine Attempt.ensures_bind (ensures_lift ?_)
  refine Attempt.ensures_bind (ensures_lift fun answer => ensures_orFail (fun i hi => ?_) ?_)
  · obtain ⟨r, rfl⟩ := Gateway.exists_of_itemOf hi
    exact hok r i hi
  · intro e he
    refine herror answer _ ?_
    rintro r rfl
    obtain ⟨i, hi⟩ := g.hydrate_of_object r
    rw [Gateway.itemOf, hi] at he
    cases he

/-- Setting members takes no turn and cannot fail: a name that is not declared is passed over. -/
theorem ensures_applyMembers {m : List (String × Value)} {i : Instance}
    {post : List Turn → Instance → Prop} :
    (applyMembers m i).Ensures post ↔ post [] (i.setAll m) := by
  induction m generalizing i with
  | nil => rfl
  | cons kv rest ih =>
    obtain ⟨key, value⟩ := kv
    rw [applyMembers, Instance.setAll, List.foldl_cons, ← Instance.setAll]
    cases i.set key value with
    | ok i' => exact ih
    | error e => exact ih

/-- Setting the members of a text takes no turn, and succeeds if the text is an object. -/
theorem ensures_applyJson {i : Instance} {body : String}
    {post : List Turn → Except Failure Instance → Prop}
    (hok : ∀ m, Json.parse body = .ok (.object m) → post [] (.ok (i.setAll m)))
    (herror : ∀ e, (∀ m, Json.parse body ≠ .ok (.object m)) → post [] (.error e)) :
    (applyJson i body).Ensures post := by
  refine Attempt.ensures_bind (ensures_orFail (fun v hv => ?_) fun e he => ?_)
  · cases v with
    | object m => exact ensures_lift (ensures_applyMembers.2 (hok m hv))
    | null | bool | number | string | array =>
      refine herror _ fun m hm => ?_
      rw [hv] at hm
      cases hm
  · refine herror _ fun m hm => ?_
    rw [he] at hm
    cases hm

/-- Sending a change takes one turn if the change may be sent, and succeeds if the action accepts
its answer. -/
theorem ensures_send {g : Gateway} {a : Action} {i : Instance}
    {post : List Turn → Except Failure Instance → Prop}
    (hok : ∀ url answer i', Gateway.Sends g i a url → a.Accepts answer →
      post [.post url (Gateway.body a i) answer] (.ok i'))
    (herror : ∀ url answer e, Gateway.Sends g i a url → ¬ a.Accepts answer →
      post [.post url (Gateway.body a i) answer] (.error e))
    (hrefused : ∀ e, (∀ url, ¬ Gateway.Sends g i a url) → post [] (.error e)) :
    (send g a i).Ensures post := by
  refine Attempt.ensures_bind (ensures_orFail (fun url hurl => ?_) fun e he => ?_)
  · have hs : Gateway.Sends g i a url := Gateway.target_eq_ok_iff.1 hurl
    refine Attempt.ensures_bind (ensures_lift ?_)
    refine Attempt.ensures_bind (ensures_lift fun answer => ?_)
    have haccepts := Gateway.settle_eq_ok_iff hs answer
    simp only [Dialogue.Tells, Attempt.Before]
    generalize Gateway.settle a url i answer = settled at haccepts ⊢
    obtain ⟨i', result⟩ := settled
    cases result with
    | ok u => exact hok url answer i' hs (haccepts.1 rfl)
    | error e =>
      refine herror url answer _ hs fun ha => ?_
      cases haccepts.2 ha
  · refine hrefused _ fun url hs => ?_
    rw [Gateway.target_eq_ok_iff.2 hs] at he
    cases he

end Records
end RemoteModels
