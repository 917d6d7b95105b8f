import RemoteModels.Command.Program
import RemoteModels.Proofs.Command.Records

/-!
# The plan of a command

A command about records has a plan: the requests it sends if nothing goes wrong.  The plan is told
here as a rule for the next request, given the turns so far (`Plan.Next`).  Each clause of the rule
names the checks that must have passed by then, and mentions only answers that were successful, so
that a request which keeps to the rule is sent neither too early nor in spite of a failure.

A command follows its plan if each of its requests was the next one when it was sent, if it stops
only where there is no next one, and if it succeeds exactly when the plan was carried out to its end
(`Plan.Follows`).  The commands differ in what they do between their requests, and all of them
follow their plans.

* `Plan.Known`, `Plan.Offers` — the model is declared, and the text that was given is an object.
* `Plan.Next`, `Plan.Completed` — the next request, and a plan that was carried out.
* `Plan.follows_models`, …, `Plan.follows_delete` — the commands follow their plans.
* `Plan.requests` — the plan as a list; `Plan.Ordered.begins` says that the requests are a
  prefix of it.
-/

set_option autoImplicit false

namespace RemoteModels

open Json (Value Object)

/-- The model whose records a command is about. -/
def Command.model? : Command → Option String
  | .list model _ => some model
  | .get model _ => some model
  | .create model _ _ _ => some model
  | .update model _ _ => some model
  | .delete model _ _ => some model
  | _ => none

/-- Whether a command talks to a server. -/
def Command.isRemote : Command → Bool
  | .models => true
  | cmd => cmd.model?.isSome

/-- Whether a command takes a text with the fields of a record. -/
def Command.takesText : Command → Bool
  | .create _ _ _ _ => true
  | .update _ _ _ => true
  | _ => false

/-- How and where the request of a turn is sent. -/
def Turn.request (t : Turn) : HttpMethod × String := (t.method, t.path)

namespace Plan

variable {l : Loader} {files : Files} {cmd : Command} {ts : List Turn}

/-! ## The rule

The rule is an inductive relation between turns and the request that may follow them, so it can be
read off clause by clause what has been checked when a request is sent.  It does not say what a
command does when a check fails: then there is no next request, and a command that keeps to the rule
has to stop. -/

/-- The answer is a specification, and it declares the model. -/
def Known (l : Loader) (model : String) (answer : TextAnswer) (g : Gateway) : Prop :=
  ∃ r, l.Builds answer r ∧ r.get? model = some g

/-- A specification declares one model under a name. -/
theorem Known.unique {model : String} {answer : TextAnswer} {g g' : Gateway}
    (h : Known l model answer g) (h' : Known l model answer g') : g = g' := by
  obtain ⟨r, hr, hg⟩ := h
  obtain ⟨r', hr', hg'⟩ := h'
  obtain rfl := hr.unique hr'
  exact Option.some.inj (hg.symm.trans hg')

/-- The command comes with a text that is an object. -/
inductive Offers (files : Files) : Command → Object → Prop
  | create {model parentId body : String} {json file : Option String} {m : Object}
      (hbody : Program.bodyOf files json file = .ok body)
      (hm : Json.parse body = .ok (.object m)) : Offers files (.create model parentId json file) m
  | update {model id body : String} {m : Object} (hm : Json.parse body = .ok (.object m)) :
      Offers files (.update model id body) m

/-- The request that comes next in the plan of a command, after turns that have all succeeded. -/
inductive Next (l : Loader) (files : Files) : Command → List Turn → HttpMethod → String → Prop
  /-- Every plan begins with the specification. -/
  | specification (cmd : Command) : Next l files cmd [] .get l.path
  /-- A list asks for the collection of a model that is declared. -/
  | list {model parentId : String} {answer : TextAnswer} {g : Gateway}
      (h : Known l model answer g) :
      Next l files (.list model parentId) [.text l.path answer] .get (g.collectionUrl parentId)
  /-- A look at a record asks for the record. -/
  | get {model id : String} {answer : TextAnswer} {g : Gateway} (h : Known l model answer g) :
      Next l files (.get model id) [.text l.path answer] .get (g.itemUrl id)
  /-- A creation posts to the collection, once its text has been found to be an object. -/
  | create {model parentId : String} {json file : Option String} {answer : TextAnswer}
      {g : Gateway} {m : Object} (h : Known l model answer g)
      (hm : Offers files (.create model parentId json file) m) :
      Next l files (.create model parentId json file) [.text l.path answer] .post
        (g.collectionUrl parentId)
  /-- An update asks for the record first. -/
  | fetch {model id body : String} {answer : TextAnswer} {g : Gateway}
      (h : Known l model answer g) :
      Next l files (.update model id body) [.text l.path answer] .get (g.itemUrl id)
  /-- Then it posts to the identity that the record carries, once its text has been found to be an
  object. -/
  | update {model id body path target : String} {answer : TextAnswer} {g : Gateway} {r m : Object}
      (h : Known l model answer g) (hid : recordId r = some target)
      (hm : Offers files (.update model id body) m) :
      Next l files (.update model id body) [.text l.path answer, .get path (.ok (.object r))] .post
        (g.itemUrl target)
  /-- A deletion posts to the record, unless the identity is empty. -/
  | delete {model id : String} {yes : Bool} {answer : TextAnswer} {g : Gateway}
      (h : Known l model answer g) (hid : id ≠ "") :
      Next l files (.delete model id yes) [.text l.path answer] .post (g.itemUrl id)

/-- The turns are those of a plan that was carried out to its end, the last answer included. -/
inductive Completed (l : Loader) (files : Files) : Command → List Turn → Prop
  | models {answer : TextAnswer} {r : Registry} (h : l.Builds answer r) :
      Completed l files .models [.text l.path answer]
  | list {model parentId path : String} {first : Turn} {answer : Answer}
      (h : Next l files (.list model parentId) [first] .get path)
      (ha : Gateway.ListsRecords answer) :
      Completed l files (.list model parentId) [first, .get path answer]
  | get {model id path : String} {first : Turn} {r : Object}
      (h : Next l files (.get model id) [first] .get path) :
      Completed l files (.get model id) [first, .get path (.ok (.object r))]
  | create {model parentId path : String} {json file : Option String} {first : Turn} {v : Value}
      {answer : Answer} (h : Next l files (.create model parentId json file) [first] .post path)
      (ha : (Action.post parentId).Accepts answer) :
      Completed l files (.create model parentId json file) [first, .post path v answer]
  | update {model id body path : String} {first second : Turn} {v : Value} {answer : Answer}
      (h : Next l files (.update model id body) [first, second] .post path)
      (ha : Action.put.Accepts answer) :
      Completed l files (.update model id body) [first, second, .post path v answer]
  | delete {model id path : String} {yes : Bool} {first : Turn} {v : Value} {answer : Answer}
      (h : Next l files (.delete model id yes) [first] .post path)
      (ha : Action.delete.Accepts answer) :
      Completed l files (.delete model id yes) [first, .post path v answer]

/-- Each turn stands behind turns of which the rule says that it comes next. -/
def Ordered (l : Loader) (files : Files) (cmd : Command) (ts : List Turn) : Prop :=
  ∀ before t after, ts = before ++ t :: after → Next l files cmd before t.method t.path

theorem ordered_nil : Ordered l files cmd [] := by
  intro before t after h
  exact absurd h.symm (List.append_ne_nil_of_right_ne_nil _ (List.cons_ne_nil _ _))

/-- A turn that comes next may be added. -/
theorem Ordered.concat {t : Turn} (h : Ordered l files cmd ts)
    (ht : Next l files cmd ts t.method t.path) : Ordered l files cmd (ts ++ [t]) := by
  intro before t' after heq
  rcases List.eq_nil_or_concat after with rfl | ⟨after', last, rfl⟩
  · obtain ⟨rfl, hlast⟩ := List.append_inj' heq rfl
    cases hlast
    exact ht
  · rw [List.concat_eq_append, ← List.cons_append, ← List.append_assoc] at heq
    exact h before t' after' (List.append_inj' heq rfl).1

/-- Asking for the specification is always in order. -/
theorem ordered_first (answer : TextAnswer) : Ordered l files cmd [.text l.path answer] :=
  Ordered.concat ordered_nil (.specification cmd)

/-! ## Dialogues that follow the rule

To follow a plan is more than to keep to its order: a dialogue that has ended must have nothing left
to ask, and succeeds exactly if its plan is completed. -/

/-- A command with these turns and this end has followed its plan. -/
structure Follows (l : Loader) (files : Files) (cmd : Command) (ts : List Turn)
    (result : Except Failure Unit) : Prop where
  ordered : Ordered l files cmd ts
  exhausted : ∀ method path, ¬ Next l files cmd ts method path
  completed : result = .ok () ↔ Completed l files cmd ts

/-- A command that succeeds after its plan was carried out has followed it. -/
theorem Follows.of_completed (ho : Ordered l files cmd ts)
    (hx : ∀ method path, ¬ Next l files cmd ts method path) (hc : Completed l files cmd ts) :
    Follows l files cmd ts (.ok ()) :=
  ⟨ho, hx, iff_of_true rfl hc⟩

/-- So has one that fails where there is no next request. -/
theorem Follows.of_not_completed {e : Failure} (ho : Ordered l files cmd ts)
    (hx : ∀ method path, ¬ Next l files cmd ts method path) (hc : ¬ Completed l files cmd ts) :
    Follows l files cmd ts (.error e) :=
  ⟨ho, hx, iff_of_false nofun hc⟩

/-! ## Turns in order

What all commands have in common follows from the rule alone, by its clauses, before any command is
looked at: only the last request changes anything, and every request in front of it has
succeeded. -/

/-- Whatever comes next, it comes after requests that changed nothing and have succeeded. -/
theorem Next.of_mem {method : HttpMethod} {path : String} (h : Next l files cmd ts method path)
    {t : Turn} (ht : t ∈ ts) : t.method = .get ∧ t.Succeeded := by
  have htext : ∀ {model answer g}, Known l model answer g →
      (Turn.text l.path answer).Succeeded := by
    rintro model answer g ⟨r, ⟨response, spec, logs, rfl, -⟩, -⟩
    exact .text l.path response
  cases h with
  | specification => cases ht
  | list h | get h | create h | fetch h | delete h =>
    cases List.mem_singleton.1 ht
    exact ⟨rfl, htext h⟩
  | update h =>
    rcases List.mem_cons.1 ht with rfl | ht
    · exact ⟨rfl, htext h⟩
    · cases List.mem_singleton.1 ht
      exact ⟨rfl, .get _ _⟩

/-- Nothing comes after a post. -/
theorem not_next_post {url path : String} {v : Value} {answer : Answer} {method : HttpMethod} :
    ¬ Next l files cmd (ts ++ [.post url v answer]) method path := by
  intro h
  cases (h.of_mem List.mem_concat_self).1

namespace Ordered

/-- What stands in front of a turn only asked, and was answered. -/
theorem of_mem (h : Ordered l files cmd ts) {before after : List Turn} {t : Turn}
    (heq : ts = before ++ t :: after) : ∀ t' ∈ before, t'.method = .get ∧ t'.Succeeded :=
  fun _ => (h before t after heq).of_mem

/-- **A request that another one follows is no post**, so that there is one post at most, and
nothing after it. -/
theorem pairwise (h : Ordered l files cmd ts) : ts.Pairwise fun t _ => t.method = .get := by
  have hget : ∀ before t after, ts = before ++ t :: after → ∀ t' ∈ before, t'.method = .get :=
    fun _ _ _ heq t' ht' => (h.of_mem heq t' ht').1
  -- The induction is on what `Ordered` says of the methods; the rule itself starts at the front.
  clear h
  induction ts with
  | nil => exact .nil
  | cons t rest ih =>
    refine .cons (fun t' ht' => ?_) (ih fun before t' after heq t'' h => ?_)
    · obtain ⟨before, after, rfl⟩ := List.append_of_mem ht'
      exact hget (t :: before) t' after rfl t List.mem_cons_self
    · exact hget (t :: before) t' after (congrArg _ heq) t'' (List.mem_cons_of_mem _ h)

/-- **A post is sent only for a model that is declared**, and only with a text that is an object
where the command takes one. -/
theorem of_post (h : Ordered l files cmd ts) {t : Turn} (ht : t ∈ ts) (hpost : t.method = .post) :
    (∃ model answer g, cmd.model? = some model ∧ ts.head? = some (.text l.path answer) ∧
      Known l model answer g) ∧ (cmd.takesText → ∃ m, Offers files cmd m) := by
  obtain ⟨before, after, rfl⟩ := List.append_of_mem ht
  have hnext := h before t after rfl
  rw [hpost] at hnext
  generalize t.path = path at hnext
  cases hnext with
  | create hg hm => exact ⟨⟨_, _, _, rfl, rfl, hg⟩, fun _ => ⟨_, hm⟩⟩
  | update hg _ hm => exact ⟨⟨_, _, _, rfl, rfl, hg⟩, fun _ => ⟨_, hm⟩⟩
  | delete hg => exact ⟨⟨_, _, _, rfl, rfl, hg⟩, nofun⟩

end Ordered

/-! ## The requests of a command

Seen as a list of methods and paths, what a command sends is a beginning of one fixed list, with two
unknowns: the gateway, and the identity to aim at. -/

/-- The plan of a command as a list, for a gateway to the model and the identity of the record that
is changed. -/
def requests (l : Loader) (g : Gateway) (target : String) : Command → List (HttpMethod × String)
  | .models => [(.get, l.path)]
  | .list _ parentId => [(.get, l.path), (.get, g.collectionUrl parentId)]
  | .get _ id => [(.get, l.path), (.get, g.itemUrl id)]
  | .create _ parentId _ _ => [(.get, l.path), (.post, g.collectionUrl parentId)]
  | .update _ id _ => [(.get, l.path), (.get, g.itemUrl id), (.post, g.itemUrl target)]
  | .delete _ id _ => [(.get, l.path), (.post, g.itemUrl id)]
  | _ => []

/-- The requests of the turns are the first ones of the plan.  From the second one on they go
through the gateway to the model, and from the third one on to the record that was fetched. -/
structure Begins (l : Loader) (cmd : Command) (ts : List Turn) (g : Gateway) (target : String) :
    Prop where
  isPrefix : ts.map Turn.request <+: requests l g target cmd
  known : 2 ≤ ts.length → ∃ model answer, cmd.model? = some model ∧
    ts.head? = some (.text l.path answer) ∧ Known l model answer g
  fetched : 3 ≤ ts.length → ∃ path r, ts[1]? = some (.get path (.ok (.object r))) ∧
    recordId r = some target

/-- The record is asked for under the identity that was given. -/
theorem Next.path_fetch {model id body path : String} {answer : TextAnswer} {method : HttpMethod}
    {g : Gateway} (h : Next l files (.update model id body) [.text l.path answer] method path)
    (hg : Known l model answer g) : path = g.itemUrl id := by
  cases h with
  | fetch hg' => rw [hg.unique hg']

/-- **The requests are a prefix of the plan.** -/
theorem Ordered.begins (h : Ordered l files cmd ts) (hremote : cmd.isRemote) :
    ∃ g target, Begins l cmd ts g target := by
  -- As long as no answer has declared the model, any gateway will do.
  let anyGateway : Gateway := ⟨⟨"", "", "", []⟩⟩
  rcases List.eq_nil_or_concat ts with rfl | ⟨before, t, rfl⟩
  · exact ⟨anyGateway, "", List.nil_prefix, nofun, nofun⟩
  · rw [List.concat_eq_append] at h ⊢
    have hnext := h before t [] rfl
    have hrequest : t.request = (t.method, t.path) := rfl
    generalize t.method = method, t.path = path at hnext hrequest
    cases hnext with
    | specification =>
      refine ⟨anyGateway, "", ?_, fun h => absurd h (Nat.lt_irrefl 1), nofun⟩
      simp only [List.nil_append, List.map_cons, List.map_nil, hrequest]
      cases cmd with
      | models | list | get | create | update | delete => exact ⟨_, rfl⟩
      | createContext | listContexts | setContext | deleteContext | useContext | version =>
        cases hremote
    | list hg | get hg | create hg | fetch hg | delete hg =>
      refine ⟨_, "", ?_, fun _ => ⟨_, _, rfl, rfl, hg⟩, fun h => absurd h (Nat.lt_irrefl 2)⟩
      simp only [List.cons_append, List.nil_append, List.map_cons, List.map_nil, hrequest]
      exact ⟨_, rfl⟩
    | @update model id body fetched target answer g r _ hg hid =>
      have hfetched : fetched = g.itemUrl id :=
        (h [.text l.path answer] (.get fetched (.ok (.object r))) [t] rfl).path_fetch hg
      refine ⟨g, target, ?_, fun _ => ⟨_, _, rfl, rfl, hg⟩, fun _ => ⟨_, _, rfl, hid⟩⟩
      simp only [List.cons_append, List.nil_append, List.map_cons, List.map_nil, hrequest, hfetched]
      exact ⟨_, rfl⟩

/-! ## The commands

Each command is taken apart into its parts, and the rules for the parts leave the branches on which
it ends.  On each branch the turns are known, so it remains to say whether there is a next request
and whether the plan was carried out; both are decided by the last answer. -/

/-- Loading the models and looking one up, which is how all commands but one begin. -/
theorem ensures_known {α : Type} {model : String} {k : Gateway → Attempt α}
    {post : List Turn → Except Failure α → Prop}
    (hok : ∀ answer g, Known l model answer g →
      (k g).Ensures fun ts r => post (.text l.path answer :: ts) r)
    (herror : ∀ answer e, (∀ g, ¬ Known l model answer g) → post [.text l.path answer] (.error e)) :
    (Records.loadModels l >>= fun r => Records.gatewayOf r model >>= k).Ensures post := by
  refine Attempt.ensures_bind (Records.ensures_loadModels (fun answer r hr => ?_) ?_)
  · refine Attempt.ensures_bind (Records.ensures_gatewayOf (fun g hg => ?_) fun e hg => ?_)
    · exact hok answer g ⟨r, hr, hg⟩
    · refine herror answer e ?_
      rintro g ⟨r', hr', hg'⟩
      obtain rfl := hr.unique hr'
      rw [hg] at hg'
      cases hg'
  · intro answer e hr
    exact herror answer e fun g ⟨r, hbuilds, _⟩ => hr r hbuilds

/-- A command stops at the answer that does not declare its model. -/
theorem follows_of_unknown {model : String} {answer : TextAnswer} {e : Failure}
    (hmodel : cmd.model? = some model) (h : ∀ g, ¬ Known l model answer g) :
    Follows l files cmd [.text l.path answer] (.error e) := by
  refine .of_not_completed (ordered_first answer) (fun method path hnext => ?_) fun hc => ?_
  · cases hnext <;> cases hmodel <;> exact h _ ‹_›
  · cases hc
    cases hmodel

/-- Sending a change, which is how a command ends that makes one. -/
theorem follows_send {g : Gateway} {a : Action} {i : Instance} {k : Instance → Attempt Unit}
    (hk : ∀ i post, post [] (.ok ()) → (k i).Ensures post) (ho : Ordered l files cmd ts)
    (hnext : ∀ method url, Next l files cmd ts method url ↔
      method = .post ∧ Gateway.Sends g i a url)
    (hcompleted : ∀ ts', Completed l files cmd (ts ++ ts') ↔
      ∃ url v answer, ts' = [.post url v answer] ∧ Next l files cmd ts .post url ∧
        a.Accepts answer) :
    (Records.send g a i >>= k).Ensures fun ts' r => Follows l files cmd (ts ++ ts') r := by
  refine Attempt.ensures_bind (Records.ensures_send ?_ ?_ fun e hrefused => ?_)
  · intro url answer i' hsends ha
    have hurl : Next l files cmd ts .post url := (hnext .post url).2 ⟨rfl, hsends⟩
    exact hk i' _ (.of_completed (ho.concat hurl) (fun _ _ => not_next_post)
      ((hcompleted _).2 ⟨_, _, _, rfl, hurl, ha⟩))
  · intro url answer e hsends ha
    have hurl : Next l files cmd ts .post url := (hnext .post url).2 ⟨rfl, hsends⟩
    refine .of_not_completed (ho.concat hurl) (fun _ _ => not_next_post) fun hc => ?_
    obtain ⟨_, _, _, hpost, _, ha'⟩ := (hcompleted _).1 hc
    cases hpost
    exact ha ha'
  · refine .of_not_completed ((List.append_nil ts).symm ▸ ho) (fun method url h => ?_) fun hc => ?_
    · rw [List.append_nil] at h
      exact hrefused url ((hnext method url).1 h).2
    · obtain ⟨_, _, _, hpost, _⟩ := (hcompleted []).1 hc
      cases hpost

/-! ## Command by command

Each proof reads down its command and leaves, for every branch, the question which request is
allowed next. -/

/-- Showing the models is over with the specification. -/
theorem follows_models (l : Loader) (files : Files) (json : Bool) :
    (Records.models l json).Ensures (Follows l files .models) := by
  refine Attempt.ensures_bind (Records.ensures_loadModels (fun answer r hr => ?_) ?_)
  · exact Records.ensures_lines (.of_completed (ordered_first answer) nofun (.models hr))
  · intro answer e hr
    refine .of_not_completed (ordered_first answer) nofun fun hc => ?_
    cases hc with
    | models h => exact hr _ h

/-- Listing asks for the collection, and succeeds if the answer is a list of records. -/
theorem follows_list (l : Loader) (files : Files) (model parentId : String) (json : Bool) :
    (Records.list l model parentId json).Ensures (Follows l files (.list model parentId)) := by
  refine ensures_known (fun answer g hg => ?_) fun answer e h => follows_of_unknown rfl h
  have hnext : Next l files (.list model parentId) [.text l.path answer] .get _ := .list hg
  refine Attempt.ensures_bind (Records.ensures_fetchAll (fun answer' is ha => ?_) ?_)
  · exact Records.ensures_lines
      (.of_completed ((ordered_first answer).concat hnext) nofun (.list hnext ha))
  · intro answer' e ha
    refine .of_not_completed ((ordered_first answer).concat hnext) nofun fun hc => ?_
    cases hc with
    | list _ ha' => exact ha ha'

/-- A look at a record succeeds if the answer is a record. -/
theorem follows_get (l : Loader) (files : Files) (model id : String) (json : Bool) :
    (Records.get l model id json).Ensures (Follows l files (.get model id)) := by
  refine ensures_known (fun answer g hg => ?_) fun answer e h => follows_of_unknown rfl h
  have hnext : Next l files (.get model id) [.text l.path answer] .get _ := .get hg
  refine Attempt.ensures_bind (Records.ensures_fetch (fun r i hi => ?_) ?_)
  · exact Records.ensures_lines
      (.of_completed ((ordered_first answer).concat hnext) nofun (.get hnext))
  · intro answer' e ha
    refine .of_not_completed ((ordered_first answer).concat hnext) nofun fun hc => ?_
    cases hc with
    | get _ => exact ha _ rfl

/-- Creating checks the text before the post, so that a text that is no object costs no request. -/
theorem follows_create {files : Files} {json file : Option String} {body : String}
    (hbody : Program.bodyOf files json file = .ok body) (l : Loader) (model parentId : String) :
    (Records.create l model parentId body).Ensures
      (Follows l files (.create model parentId json file)) := by
  refine ensures_known (fun answer g hg => ?_) fun answer e h => follows_of_unknown rfl h
  refine Attempt.ensures_bind (Records.ensures_applyJson (fun m hm => ?_) fun e hm => ?_)
  · refine follows_send (fun i post h => Records.ensures_lines h)
      (ordered_first answer) (fun method url => ⟨fun h => ?_, ?_⟩) fun ts' => ⟨fun hc => ?_, ?_⟩
    · cases h with
      | create hg' =>
        rw [hg'.unique hg]
        exact ⟨rfl, .post parentId (Instance.state_setAll _ m) (Instance.id_setAll _ m)⟩
    · rintro ⟨rfl, ⟨⟩⟩
      exact .create hg (.create hbody hm)
    · cases hc with
      | create h ha => exact ⟨_, _, _, rfl, h, ha⟩
    · rintro ⟨url, v, answer', rfl, h, ha⟩
      exact .create h ha
  · refine .of_not_completed (ordered_first answer) (fun method path hnext => ?_) nofun
    cases hnext with
    | create _ hoffers =>
      cases hoffers with
      | create hbody' hm' =>
        rw [hbody] at hbody'
        cases hbody'
        exact hm _ hm'

/-- Updating takes the identity to post to from the record that was fetched, not from the command
line. -/
theorem follows_update (l : Loader) (files : Files) (model id body : String) :
    (Records.update l model id body).Ensures (Follows l files (.update model id body)) := by
  refine ensures_known (fun answer g hg => ?_) fun answer e h => follows_of_unknown rfl h
  have hfetch : Next l files (.update model id body) [.text l.path answer] .get _ := .fetch hg
  refine Attempt.ensures_bind (Records.ensures_fetch (fun r i hi => ?_) fun answer' e ha => ?_)
  · have hfetched : Ordered l files (.update model id body)
        [.text l.path answer, .get (g.itemUrl id) (.ok (.object r))] :=
      (ordered_first answer).concat hfetch
    refine Attempt.ensures_bind (Records.ensures_applyJson (fun m hm => ?_) fun e hm => ?_)
    · -- The record that was fetched decides whether the post may be sent, and where it goes.
      obtain ⟨hid, hlive⟩ := Gateway.of_hydrate_object hi
      rw [← Instance.id_setAll i m] at hid
      rw [← Instance.state_setAll i m] at hlive
      refine follows_send (fun i post h => Records.ensures_lines h)
        hfetched (fun method url => ⟨fun h => ?_, ?_⟩) fun ts' => ⟨fun hc => ?_, ?_⟩
      · cases h with
        | update hg' htarget =>
          rw [hg'.unique hg]
          exact ⟨rfl, .put hlive (hid.trans htarget)⟩
      · rintro ⟨rfl, ⟨_, htarget⟩⟩
        exact .update hg (hid.symm.trans htarget) (.update hm)
      · cases hc with
        | update h ha => exact ⟨_, _, _, rfl, h, ha⟩
      · rintro ⟨url, v, answer', rfl, h, ha⟩
        exact .update h ha
    · refine .of_not_completed hfetched (fun method path h => ?_) nofun
      cases h with
      | update _ _ hoffers =>
        cases hoffers with
        | update hm' => exact hm _ hm'
  · refine .of_not_completed ((ordered_first answer).concat hfetch) (fun method path h => ?_) nofun
    cases h with
    | update => exact ha _ rfl

/-- A record that is made up of an identity carries it, unless it is empty. -/
theorem recordId_singleton {id target : String} :
    recordId [("id", .string id)] = some target ↔ id ≠ "" ∧ id = target := by
  have hrecord : recordId [("id", .string id)] = if id = "" then none else some id := rfl
  rw [hrecord]
  by_cases h : id = "" <;> simp [h]

/-- Deleting asks for no record: it makes one up from the identity that was given. -/
theorem follows_delete (l : Loader) (files : Files) (model id : String) (yes : Bool) :
    (Records.delete l model id).Ensures (Follows l files (.delete model id yes)) := by
  refine ensures_known (fun answer g hg => ?_) fun answer e h => follows_of_unknown rfl h
  refine Attempt.ensures_bind (Records.ensures_orFail (fun i hi => ?_) fun e he => ?_)
  · obtain ⟨hid, hlive⟩ := Gateway.of_hydrate_object hi
    refine follows_send (fun i post h => ?_) (ordered_first answer)
      (fun method url => ⟨fun h => ?_, fun h => ?_⟩) fun ts' => ⟨fun hc => ?_, ?_⟩
    · exact Records.ensures_lift h
    · cases h with
      | delete hg' hne =>
        rw [hg'.unique hg]
        exact ⟨rfl, .delete hlive (hid.trans (recordId_singleton.2 ⟨hne, rfl⟩))⟩
    · obtain ⟨rfl, hsends⟩ := h
      cases hsends with
      | delete _ htarget =>
        obtain ⟨hne, rfl⟩ := recordId_singleton.1 (hid.symm.trans htarget)
        exact .delete hg hne
    · cases hc with
      | delete h ha => exact ⟨_, _, _, rfl, h, ha⟩
    · rintro ⟨url, v, answer', rfl, h, ha⟩
      exact .delete h ha
  · obtain ⟨i, hi⟩ := g.hydrate_of_object [("id", .string id)]
    rw [hi] at he
    cases he

end Plan
end RemoteModels
