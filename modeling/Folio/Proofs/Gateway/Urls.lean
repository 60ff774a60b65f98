import Folio.Proofs.Gateway.Reading
import Folio.Proofs.Gateway.Requests

/-!
# URLs that resolve

Saving answers the path of the document that was saved, and a list answers the paths of
the documents in it.  In every run of requests such a path leads to its document, until
the next write, exactly when the document can be asked for under it.
-/

namespace Folio.Gateway

variable {collection : Collection} {gateway : Gateway Store} {request : Request}

/-! ## What requests do to the documents -/

theorem desk_perform (call : Call) (gateway : Gateway Store) :
    (perform collection call gateway).2.desk = ((run collection call).run gateway.desk).2 := by
  unfold perform
  rcases (run collection call).run gateway.desk with ⟨_ | _, _⟩ <;> rfl

theorem desk_perform_of_reads (serves : collection.Serves gateway.desk.store) {call : Call}
    (asked : call.Asked request) (reads : request.Reads) :
    (perform collection call gateway).2.desk = gateway.desk := by
  rw [desk_perform]
  cases asked with
  | list _ => rw [run_list serves]
  | read _ => rw [run_read serves]
  | create posts _ => exact absurd posts reads.1
  | update puts _ => exact absurd puts reads.2.1
  | delete deletes => exact absurd deletes reads.2.2

/-- A call writes at most once, under a key of the collection. -/
theorem changes_perform (serves : collection.Serves gateway.desk.store) (call : Call) :
    collection.Changes gateway.desk.store (perform collection call gateway).2.desk.store := by
  rw [desk_perform]
  cases call with
  | list parameters =>
      rw [run_list serves]
      exact .nothing
  | read id fields =>
      rw [run_read serves]
      exact .nothing
  | create entry =>
      rw [run, run_saveEntry]
      exact Collection.changes_save entry gateway.desk
  | update id entry =>
      rw [run, run_saveEntry]
      exact Collection.changes_save _ gateway.desk
  | delete id =>
      rw [run, Session.run_bind_pure]
      exact Collection.changes_delete id gateway.desk

/-- A request comes to a call, or leaves what the gateway works on as it was. -/
theorem handle_cases (collection : Collection) (request : Request) (gateway : Gateway Store) :
    (∃ call, Intake.ofRequest collection.config.name request = .call call ∧
      (handle collection request gateway).2 = (perform collection call gateway).2) ∨
    (handle collection request gateway).2.desk = gateway.desk := by
  have left : (handle collection request gateway).2 =
      (respond collection (Intake.ofRequest collection.config.name request) gateway).2 := rfl
  rw [left]
  cases Intake.ofRequest collection.config.name request with
  | call call => exact .inl ⟨call, rfl, rfl⟩
  | preflight => exact .inr rfl
  | health => exact .inr rfl
  | metrics => exact .inr rfl
  | refused status => exact .inr rfl

theorem desk_handle_of_reads (serves : collection.Serves gateway.desk.store)
    (reads : request.Reads) : (handle collection request gateway).2.desk = gateway.desk := by
  rcases handle_cases collection request gateway with ⟨call, intake, same⟩ | unchanged
  · rw [same]
    exact desk_perform_of_reads serves (Intake.asked_of_ofRequest intake) reads
  · exact unchanged

theorem initialised_handle (initialised : collection.Initialised gateway.desk.store)
    (request : Request) :
    collection.Initialised (handle collection request gateway).2.desk.store := by
  rcases handle_cases collection request gateway with ⟨call, _, same⟩ | unchanged
  · rw [same]
    exact initialised.changes (changes_perform initialised.serves call)
  · rwa [unchanged]

theorem initialised_handleAll (initialised : collection.Initialised gateway.desk.store)
    (requests : List Request) :
    collection.Initialised (handleAll collection gateway requests).2.desk.store := by
  induction requests generalizing gateway with
  | nil => exact initialised
  | cons request rest ih => exact ih (initialised_handle initialised request)

theorem desk_handleAll_of_reads (serves : collection.Serves gateway.desk.store)
    {requests : List Request} (reads : ∀ request ∈ requests, request.Reads) :
    (handleAll collection gateway requests).2.desk = gateway.desk := by
  induction requests generalizing gateway with
  | nil => rfl
  | cons request rest ih =>
      rw [List.forall_mem_cons] at reads
      have first := desk_handle_of_reads serves reads.1
      have stillServes : collection.Serves (handle collection request gateway).2.desk.store := by
        rwa [first]
      exact (ih stillServes reads.2).trans first

/-! ## The URLs that are handed out -/

/-- A request saves an entry as a document. -/
def Saves (collection : Collection) (minted : Nat) (request : Request) (id : String)
    (document : Json) : Prop :=
  ∃ call entry, Intake.ofRequest collection.config.name request = .call call ∧
    call.saved? = some entry ∧ collection.SavedAs minted entry id document

/-- A call that saves an entry answers the path under which it is saved. -/
theorem run_of_saved? {call : Call} {entry : Json} (saves : call.saved? = some entry) :
    (run collection call : Session Store Response) = saveEntry collection entry := by
  cases call with
  | create entry =>
      cases saves
      rfl
  | update id entry =>
      cases saves
      rfl
  | list _ => cases saves
  | read _ _ => cases saves
  | delete _ => cases saves

theorem exists_saved?_of_asked {call : Call} (asked : call.Asked request)
    (saves : request.method = .post ∨ request.method = .put) :
    ∃ entry, call.saved? = some entry := by
  cases asked with
  | create _ _ => exact ⟨_, rfl⟩
  | update _ _ => exact ⟨_, rfl⟩
  | list reads => exact absurd saves (by rcases reads with reads | reads <;> simp [reads])
  | read reads => exact absurd saves (by rcases reads with reads | reads <;> simp [reads])
  | delete deletes => exact absurd saves (by simp [deletes])

/-- A request that saves, and succeeds, answers the path of the document that was saved,
which is seen from then on. -/
theorem exists_saves (saves : request.method = .post ∨ request.method = .put)
    (status : (handle collection request gateway).1.status = 200) :
    ∃ id document, (handle collection request gateway).1 =
        jsonResponse 200 (.string (Route.url collection.config.name id)) ∧
      Saves collection gateway.desk.minted request id document ∧
      collection.seen? (handle collection request gateway).2.desk.store id = some document := by
  have notHead : request.method ≠ .head := by
    rcases saves with posts | puts
    · simp [posts]
    · simp [puts]
  rw [handle_of_ne_head notHead] at status ⊢
  rcases Intake.call_or_refused saves with ⟨call, intake⟩ | ⟨refusal, intake⟩
  · rw [intake] at status ⊢
    have asked := Intake.asked_of_ofRequest intake
    rcases exists_saved?_of_asked asked saves with ⟨entry, saved⟩
    have ended := run_of_status status
    rw [run_of_saved? saved, run_saveEntry] at ended
    rcases map_eq_ok_iff.mp ended with ⟨id, ok, answer⟩
    have distinct (members : Fields Json) (object : entry = .object members) :
        (Fields.names members).Nodup :=
      asked.nodup (saved.trans (congrArg some object))
    rcases Collection.exists_savedAs distinct (Prod.ext ok rfl) with ⟨document, savedAs, seen⟩
    refine ⟨id, document, answer.symm, ⟨call, entry, intake, saved, savedAs⟩, ?_⟩
    rw [respond, desk_perform, run_of_saved? saved, run_saveEntry]
    exact seen
  · rw [intake] at status
    exact absurd ((Intake.le_of_refused intake).trans_eq status) (by decide)

/-- The documents that a request for a list asks for, with their ids. -/
def listed (collection : Collection) (store : Store) (request : Request) : List (String × Json) :=
  (collection.seen store).filter fun entry =>
    (Call.queryOf collection.config.schema request.parameters).filters.all (·.admits entry.2)

/-- A request for a list of paths, that succeeds, answers the paths of the documents that
it asks for. -/
theorem response_of_list (serves : collection.Serves gateway.desk.store)
    (reads : request.method = .get)
    (found : Route.find? collection.config.name request.path = some .collection)
    (paths : (Call.queryOf collection.config.schema request.parameters).includeDocuments = false)
    (status : (handle collection request gateway).1.status = 200) :
    (handle collection request gateway).1 = jsonResponse 200
      (.array ((listed collection gateway.desk.store request).map fun entry =>
        .string (Route.url collection.config.name entry.1))) := by
  have intake : Intake.ofRequest collection.config.name request =
      .call (.list request.parameters) := by
    simp only [Intake.ofRequest, reads, found, Call.onCollection]
    rfl
  rw [handle_of_ne_head (by simp [reads]), intake] at status ⊢
  have ended := run_of_status status
  rw [run_list serves] at ended
  rcases map_eq_ok_iff.mp ended with ⟨answer, answered, same⟩
  rcases Collection.exists_answerWith_of_answer answered with ⟨fields, answered⟩
  have ids : answer = .ids ((listed collection gateway.desk.store request).map Prod.fst) := by
    have all : (Call.queryOf collection.config.schema request.parameters).id = none := rfl
    simp only [Collection.answerWith, all, paths, Bool.false_eq_true, if_false] at answered
    exact (Except.ok.inj answered).symm
  rw [respond, ← same, ids, listing, List.map_map]
  rfl

theorem run_find_listed (serves : collection.Serves gateway.desk.store) (request : Request) :
    (collection.find { Call.queryOf collection.config.schema request.parameters with
        fields := none, includeDocuments := true }).run gateway.desk =
      (.ok (.documents ((listed collection gateway.desk.store request).map Prod.snd)),
        gateway.desk) := by
  rw [serves.run_find]
  rfl

/-! ## Runs -/

/-- In every run of requests the path of a document that was saved or listed, asked for
before the next write, leads to that document exactly when the document can be asked for
under it. -/
theorem url_resolves_iff (collection : Collection) {store : Store}
    (initialised : collection.Initialised store) (minted : Nat) (tally : Tally)
    (earlier : List Request) (request : Request) {between : List Request}
    (reading : ∀ other ∈ between, other.Reads) {asked : Request} (gets : asked.method = .get) :
    let before := (handleAll collection ⟨⟨store, minted⟩, tally⟩ earlier).2
    let answer := (handle collection request before).1
    let later := (handleAll collection (handle collection request before).2 between).2
    (request.method = .post ∨ request.method = .put → answer.status = 200 →
      ∃ id document, answer = jsonResponse 200 (.string (Route.url collection.config.name id)) ∧
        Saves collection before.desk.minted request id document ∧
        (asked.target = Route.url collection.config.name id →
          ((handle collection asked later).1 = jsonResponse 200 document ↔
            Route.Addressable collection.config.name id))) ∧
    (request.method = .get → Route.find? collection.config.name request.path = some .collection →
      (Call.queryOf collection.config.schema request.parameters).includeDocuments = false →
      answer.status = 200 →
      ∃ listed : List (String × Json),
        answer = jsonResponse 200 (.array (listed.map fun entry =>
          .string (Route.url collection.config.name entry.1))) ∧
        (collection.find { Call.queryOf collection.config.schema request.parameters with
            fields := none, includeDocuments := true }).run before.desk =
          (.ok (.documents (listed.map Prod.snd)), before.desk) ∧
        ∀ entry ∈ listed, entry.2.stringMember? "id" = some entry.1 ∧
          (asked.target = Route.url collection.config.name entry.1 →
            ((handle collection asked later).1 = jsonResponse 200 entry.2 ↔
              Route.Addressable collection.config.name entry.1))) := by
  intro before answer later
  have setUp : collection.Initialised before.desk.store :=
    initialised_handleAll initialised earlier
  have next : collection.Initialised (handle collection request before).2.desk.store :=
    initialised_handle setUp request
  -- Requests that read change no document, so that what was seen is seen when it is asked for.
  have still : later.desk = (handle collection request before).2.desk :=
    desk_handleAll_of_reads next.serves reading
  have serves : collection.Serves later.desk.store := by
    rw [still]
    exact next.serves
  constructor
  · intro saves status
    rcases exists_saves saves status with ⟨id, document, answered, saved, seen⟩
    refine ⟨id, document, answered, saved, fun target => ?_⟩
    rw [← still] at seen
    exact answered_iff serves seen gets target
  · intro gets' found paths status
    refine ⟨listed collection before.desk.store request,
      response_of_list setUp.serves gets' found paths status,
      run_find_listed setUp.serves request, ?_⟩
    rintro ⟨id, document⟩ member
    have seen := Collection.mem_seen_iff.mp (List.mem_filter.mp member).1
    refine ⟨setUp.serves.stringMember?_id seen, fun target => ?_⟩
    have unchanged : (handle collection request before).2.desk = before.desk :=
      desk_handle_of_reads setUp.serves (by simp [Request.Reads, gets'])
    rw [← unchanged, ← still] at seen
    exact answered_iff serves seen gets target

/-- A note is saved under an id that was minted, asked for once in between, and answered
again under the path that was handed out. -/
theorem url_resolves_of_note :
    let notes : Collection := ⟨{ name := "notes" }, fun _ _ => "first"⟩
    let saving : Request := ⟨.post, "/api/v1/notes", some "application/json",
      "\x7b\"title\":\"Go\"\x7d"⟩
    let asked : Request := ⟨.get, "/api/v1/notes/first", none, ""⟩
    let saved := handle notes saving ⟨notes.prepared, Tally.zero⟩
    notes.Initialised notes.prepared.store ∧ asked.Reads ∧
      saved.1 = jsonResponse 200 (.string "/api/v1/notes/first") ∧
      ∃ document, Saves notes 0 saving "first" document ∧
        (handle notes asked (handleAll notes saved.2 [asked]).2).1 =
          jsonResponse 200 document := by
  intro notes saving asked saved
  have initialised := notes.initialised_prepared
  have reads : asked.Reads := by simp [asked, Request.Reads]
  have reading : ∀ other ∈ [asked], other.Reads := by simpa using reads
  have answer : saved.1 = jsonResponse 200 (.string "/api/v1/notes/first") := by
    dsimp only [saved, saving, notes]
    decide +kernel
  rcases (url_resolves_iff notes initialised 0 Tally.zero [] saving reading
      (rfl : asked.method = .get)).1 (.inl rfl) (congrArg Response.status answer) with
    ⟨id, document, answered, saves, resolves⟩
  have url : Route.url "notes" id = Route.url "notes" "first" :=
    text_eq_of_response_eq (answered.symm.trans answer)
  have same : id = "first" := Route.url_injective url
  subst same
  have addressable : Route.Addressable "notes" "first" :=
    ⟨by decide, by decide, by decide, by decide, by decide,
      Text.percentDecode_eq_self_iff.mp (by decide)⟩
  exact ⟨initialised, reads, answer, document, saves, (resolves rfl).mpr addressable⟩

/-- A page is saved under an id with a slash, and the path that is handed out leads
nowhere. -/
theorem url_of_slashed_id_unresolved :
    let pages : Collection := ⟨{ name := "c" }, fun _ _ => "first"⟩
    let saved := handle pages ⟨.post, "/api/v1/c", some "application/json",
      "\x7b\"id\":\"a/b\"\x7d"⟩ ⟨pages.prepared, Tally.zero⟩
    pages.Initialised pages.prepared.store ∧
      saved.1 = jsonResponse 200 (.string "/api/v1/c/a/b") ∧
      (handle pages ⟨.get, "/api/v1/c/a/b", none, ""⟩ saved.2).1 = ⟨404, none, ""⟩ := by
  dsimp only
  exact ⟨Collection.initialised_prepared _, by decide +kernel, by decide +kernel⟩

end Folio.Gateway
