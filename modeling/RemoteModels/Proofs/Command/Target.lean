import RemoteModels.Proofs.Command.Course
import RemoteModels.Proofs.Gateway.Addresses

/-!
# Which record is updated

To update a record, the command fetches the one that the user named, fills in its fields and posts
them.  The post goes to the identity that the fetched record carries, whatever the user named; the
report names the record as the user did.  So a reported update is one of the named record exactly if
the server keeps to identities, that is, answers a request for a record with one that carries the
identity asked for.

The statement needs no assumption on the server.  What the server does is part of the turns, and the
record that was fetched is found there, so the aim of the post can be compared with the name that
the user gave on every run.

* `Program.Targeted` — where the post of an update goes, and when the update is reported.
* `Program.update_follows_record` — all runs keep to this.
* `Program.update_astray` — a run that reports one record and updates another.
-/

set_option autoImplicit false

namespace RemoteModels

open Json (Value Object)

/-- A change is accepted if the answer is a record, whatever is in it. -/
theorem Action.accepts_put_iff {answer : Answer} :
    Action.put.Accepts answer ↔ ∃ r, answer = .ok (.object r) := by
  constructor
  · rintro ⟨r⟩
    exact ⟨r, rfl⟩
  · rintro ⟨r, rfl⟩
    exact .put r

/-- The user hears every line of output. -/
theorem Saying.out_mem_heard_iff {l : List Saying} {line : String} :
    Saying.out line ∈ l.flatMap Saying.heard ↔ Saying.out line ∈ l := by
  rw [List.mem_flatMap]
  constructor
  · rintro ⟨s, hs, hmem⟩
    cases s with
    | out | err => exact List.mem_singleton.1 hmem ▸ hs
    | log => cases hmem
  · exact fun h => ⟨_, h, List.mem_singleton_self _⟩

namespace Plan

variable {l : Loader} {files : Files} {model id body : String} {ts : List Turn} {said : List Saying}
  {result : Except Failure Unit}

/-! ## What a course says about an update

An update is reported if the post was accepted, and where the post went was settled by the record
that was fetched. -/

/-- A model that is known has the name it was asked for by. -/
theorem Known.modelName_eq {answer : TextAnswer} {g : Gateway} (h : Known l model answer g) :
    g.modelName = model := by
  obtain ⟨r, -, hg⟩ := h
  exact Registry.modelName_of_get? hg

/-- Only a post that is accepted leads to a line of output. -/
theorem Course.exists_accepted (h : Course l files (.update model id body) ts said result)
    {line : String} (hline : Saying.out line ∈ said) :
    ∃ before url v r, ts = before ++ [.post url v (.ok (.object r))] := by
  have hskipped : ∀ g m, Saying.out line ∉ skipped g m := by simp [skipped]
  cases h with
  | early => cases hline
  | refused => exact absurd hline (hskipped _ _)
  | sent hp _ _ hend =>
    cases hend with
    | ok shown haccepts =>
      cases hp with
      | update =>
        obtain ⟨r, rfl⟩ := Action.accepts_put_iff.1 haccepts
        exact ⟨_, _, _, r, rfl⟩
    | error =>
      rw [List.append_nil] at hline
      exact absurd hline (hskipped _ _)

/-- A post that is accepted is reported, under the name that the user gave. -/
theorem Course.reports (h : Course l files (.update model id body) ts said result)
    {before : List Turn} {url : String} {v : Value} {r : Object}
    (hts : ts = before ++ [.post url v (.ok (.object r))]) :
    Saying.out (model ++ " " ++ id ++ " updated.") ∈ said := by
  obtain ⟨-, g, a, record, instid, m, lines, hp, -, -, -, hend, rfl⟩ := h.of_post hts
  refine List.mem_append_right _ ?_
  cases hp with
  | update hg =>
    cases hend with
    | ok shown =>
      rw [doneLine, hg.modelName_eq]
      exact List.mem_cons_self
    | error e hrefused => exact absurd (.put r) hrefused

end Plan

/-! ## Whole updates

The line about success names the identity of the command line, and the post goes to that of the
record.  They are the same where the server answers with the record that was asked for. -/

namespace Program

open Plan (Known)

variable {s : Surroundings} {path model id body : String}

/-- Where the post of an update goes, and when the update is reported. -/
structure Targeted (s : Surroundings) (path model id : String) (r : Report) : Prop where
  /-- A post is the last request, and all before it only read.  It goes to the identity that the
  record fetched for the named one carries, and is about the named one exactly if this is its
  identity. -/
  posted : ∀ before url v answer after, r.turns = before ++ .post url v answer :: after →
    after = [] ∧ ∃ x spec g record target payload, InUse s.files path x ∧
      Known (Records.loaderOf x) model spec g ∧
      before = [.text (Records.loaderOf x).path spec, .get (g.itemUrl id) (.ok (.object record))] ∧
      recordId record = some target ∧ url = g.itemUrl target ∧
      v = Envelope.toValue ⟨some target, .put, payload⟩ ∧ (url = g.itemUrl id ↔ target = id)
  /-- The update of the named record is reported exactly if a post has been accepted. -/
  reported : Saying.out (model ++ " " ++ id ++ " updated.") ∈ r.sayings ↔
    ∃ before url v answer, r.turns = before ++ [.post url v (.ok (.object answer))]

/-- A run with any output had a context in use. -/
theorem exists_inUse_of_out {dialogue : Loader → Attempt Unit} {line : String}
    (h : Saying.out line ∈ (runDialogue s path dialogue).sayings) :
    ∃ x, InUse s.files path x := by
  rw [runDialogue] at h
  cases hc : loadConfig s.files path with
  | error f => simp [hc, quiet] at h
  | ok c =>
    cases hx : c.require with
    | error e => simp [hc, hx, quiet] at h
    | ok x => exact ⟨x, c, hc, Config.require_eq_ok_iff.1 hx⟩

/-- An update is reported exactly if its post was accepted. -/
theorem reported_update (json : Bool) :
    Saying.out (model ++ " " ++ id ++ " updated.")
        ∈ (perform s path json (.update model id body)).sayings ↔
      ∃ before url v answer, (perform s path json (.update model id body)).turns
        = before ++ [.post url v (.ok (.object answer))] := by
  constructor
  · intro hline
    obtain ⟨x, hx⟩ : ∃ x, InUse s.files path x := by
      rw [perform_update] at hline
      exact exists_inUse_of_out hline
    obtain ⟨said, result, hcourse, hsayings, -⟩ := tookCourse_perform rfl .update hx json
    rw [← Saying.out_mem_heard_iff, hsayings, List.mem_append] at hline
    refine hcourse.exists_accepted (hline.resolve_right fun hmem => ?_)
    cases result with
    | ok => cases hmem
    | error => simp [closing] at hmem
  · rintro ⟨before, url, v, answer, hts⟩
    have hsome : (perform s path json (.update model id body)).turns ≠ [] := by simp [hts]
    obtain ⟨x, -, said, result, hcourse, hsayings, -⟩ := exists_tookCourse rfl hsome
    rw [← Saying.out_mem_heard_iff, hsayings]
    exact List.mem_append_left _ (hcourse.reports hts)

/-- The post of an update goes where the fetched record says. -/
theorem targeted_perform (json : Bool) :
    Targeted s path model id (perform s path json (.update model id body)) where
  posted before url v answer after hts := by
    have hsome : (perform s path json (.update model id body)).turns ≠ [] := by simp [hts]
    obtain ⟨x, hx, said, result, hcourse, -⟩ := exists_tookCourse rfl hsome
    obtain ⟨hafter, g, a, record, instid, m, lines, hp, -, ha, rfl, -⟩ := hcourse.of_post hts
    cases hp with
    | update hg =>
      cases ha with
      | put htarget =>
        exact ⟨hafter, x, _, g, _, _, _, hx, hg, rfl, htarget, rfl, rfl, g.itemUrl_inj⟩
  reported := reported_update json

/-- **An update goes where the fetched record says.**  Whatever the files and the network: a command
line that updates a record posts at most once, to the address of the identity that the fetched
record carries and under this identity.  This is the record that the user named exactly if the
server gave it the identity that was asked for. -/
theorem update_follows_record {args : List String} {i : Invocation} (s : Surroundings)
    (hread : Invocation.read args = .ok i) (hcmd : i.command = .update model id body) :
    Targeted s (configPath i s.environment) model id (run args s) := by
  rw [run, hread]
  dsimp only
  rw [hcmd]
  exact targeted_perform i.json

/-! ## Two servers

One answers with the record that was asked for, and the other with its neighbour. -/

/-- The workshop, with a server that keeps to identities. -/
def tidyWorkshop : Surroundings where
  files := workshop.files
  network := .scripted
    [some ⟨200, none, "Widget: \x7bparent: group, label: string\x7d".toUTF8.toList⟩,
      some ⟨200, none, "\x7b\"id\": 7, \"label\": \"nut\"\x7d".toUTF8.toList⟩,
      some ⟨200, none, "\x7b\x7d".toUTF8.toList⟩]

/-- The record carries the number seven, and is the one that is updated. -/
theorem update_follows_record_seven :
    let args := ["--config", "m.toml", "update", "Widget", "7", "--json", "\x7b\"label\": 1\x7d"]
    let command : Command := .update "Widget" "7" "\x7b\"label\": 1\x7d"
    let r := run args tidyWorkshop
    Invocation.read args = .ok ⟨some "m.toml", false, command⟩ ∧
      Targeted tidyWorkshop "m.toml" "Widget" "7" r ∧
      Saying.out "Widget 7 updated." ∈ r.sayings ∧
      r.arrived.getLast?.map (·.url.text) = some "http://here/Widget/7" := by
  intro args command r
  have hread : Invocation.read args = .ok ⟨some "m.toml", false, command⟩ :=
    eq_ok_of_toOption (by decide +kernel)
  exact ⟨hread, update_follows_record tidyWorkshop hread rfl, by decide +kernel⟩

/-- Widget 7 is named and reported, and widget 8 is updated. -/
theorem update_astray :
    let r := run
      ["--config", "m.toml", "update", "Widget", "7", "--json", "\x7b\"label\": 1\x7d"] workshop
    Saying.out "Widget 7 updated." ∈ r.sayings ∧
      (r.arrived.filter (·.method = .post)).map (fun m => (m.url.text, m.body)) = [(
      "http://here/Widget/8",
      "\x7b\"instid\":\"8\",\"method\":\"put\",\"payload\":\"\x7b\\\"label\\\":1\x7d\"\x7d")] := by
  decide +kernel

end Program
end RemoteModels
