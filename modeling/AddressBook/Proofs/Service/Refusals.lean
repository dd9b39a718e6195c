import AddressBook.Proofs.Service.Steps
/-!
# What clients are told of failures

A program that talks to the service looks at the code in the body of an answer. Every refusal carries one, and the code
goes with the status. The handlers refuse in no other way, so an answer that is not a success has a code, whatever the
state of the service. The one exception is an upload without the boundary of a form: it is turned away before its handler
is asked, and its answer is a plain text. The answer to a `HEAD` has no body at all.
-/

namespace AddressBook

open Http (MediaType Method Request Response)

/-- The codes that go with a status. -/
def codesOf : Nat → List String
  | 400 => ["bad_request", "missing_required_value", "wrong_type", "invalid_schema"]
  | 404 => ["not_found"]
  | 500 => ["internal_error"]
  | _ => []

/-- The body is an object with a code that goes with the status. -/
def Coded (response : Response) : Prop :=
  ∃ (members : Members) (code : String), response.body = .json (.obj members) ∧
    members.get? "code" = some (.str code) ∧ code ∈ codesOf response.status

/-- The methods of a route that answers with JSON. -/
def Route.jsonMethods : Route → List Method
  | .config => [.get, .head, .put]
  | .layout => [.get, .head]
  | .contacts => [.get, .head, .post]
  | .contact _ => [.put, .delete]
  | .upload => [.post]
  | .health | .file _ => []

/-- A request has the content type of a form with a boundary. -/
def HasBoundary (request : Request) : Prop :=
  ∃ boundary, (MediaType.ofHeader? request.contentType).bind MediaType.boundary? = some boundary

/-! ### Refusals -/

theorem Violation.code_mem (violation : Violation) : violation.code ∈ codesOf 400 := by
  cases violation <;> simp [Violation.code, codesOf]

theorem Violation.exists_toJson (violation : Violation) :
    ∃ members : Members, violation.toJson = .obj members ∧ members.get? "code" = some (.str violation.code) := by
  cases violation <;> exact ⟨_, rfl, rfl⟩

theorem Refusal.code_mem (refusal : Refusal) : refusal.code ∈ codesOf refusal.status := by
  cases refusal with
  | record violation => exact violation.code_mem
  | badRequest | notFound | internal | schema => simp [Refusal.code, Refusal.status, Rejection.code, codesOf]

theorem Refusal.exists_toJson (refusal : Refusal) :
    ∃ members : Members, refusal.toJson = .obj members ∧ members.get? "code" = some (.str refusal.code) := by
  cases refusal with
  | record violation => exact violation.exists_toJson
  | badRequest | notFound | internal | schema => exact ⟨_, rfl, rfl⟩

theorem Refusal.coded (refusal : Refusal) : Coded { status := refusal.status, body := .json refusal.toJson } := by
  obtain ⟨members, hmembers, hcode⟩ := refusal.exists_toJson
  exact ⟨members, refusal.code, congrArg _ hmembers, hcode, refusal.code_mem⟩

namespace Service

variable {service : Service} {occasion : Occasion} {request : Request}

/-! ### Answers -/

theorem coded_respond {result : Except Refusal Json} (hstatus : (respond result).status ≠ 200) :
    Coded (respond result) := by
  cases result with
  | ok value => exact absurd rfl hstatus
  | error refusal => exact refusal.coded

theorem coded_respondEmpty {result : Except Refusal Unit} (hstatus : (respondEmpty result).status ≠ 200) :
    Coded (respondEmpty result) := by
  cases result with
  | ok value => exact absurd rfl hstatus
  | error refusal => exact refusal.coded

theorem coded_get {route : Route} (hmethod : .get ∈ route.jsonMethods)
    (hstatus : (service.get occasion route).status ≠ 200) : Coded (service.get occasion route) := by
  cases route with
  | config | layout | contacts => exact coded_respond hstatus
  | health | file => simp [Route.jsonMethods] at hmethod
  | contact | upload => simp [Route.jsonMethods] at hmethod

theorem coded_upload (hboundary : HasBoundary request) (hstatus : (service.upload occasion request).2.status ≠ 200) :
    Coded (service.upload occasion request).2 := by
  obtain ⟨boundary, hboundary⟩ := hboundary
  unfold upload at hstatus ⊢
  rw [hboundary] at hstatus ⊢
  exact coded_respond hstatus

theorem not_coded_upload (hboundary : ¬ HasBoundary request) : ¬ Coded (service.upload occasion request).2 := by
  have hnone : (MediaType.ofHeader? request.contentType).bind MediaType.boundary? = none :=
    Option.eq_none_iff_forall_ne_some.2 fun boundary hsome => hboundary ⟨boundary, hsome⟩
  unfold upload
  rw [hnone]
  rintro ⟨members, code, hbody, -⟩
  nomatch hbody

theorem coded_dispatch {route : Route} (hmethod : request.method ∈ route.jsonMethods) (hhead : request.method ≠ .head)
    (hboundary : route = .upload → HasBoundary request)
    (hstatus : (service.dispatch occasion request route).2.status ≠ 200) :
    Coded (service.dispatch occasion request route).2 := by
  unfold dispatch at hstatus ⊢
  split at hstatus
  · rename_i hget
    exact coded_get (hget ▸ hmethod) hstatus
  · rename_i hother
    exact absurd hother hhead
  · exact coded_respond hstatus
  · exact coded_respond hstatus
  · exact coded_respond hstatus
  · exact coded_respondEmpty hstatus
  · exact coded_upload (hboundary rfl) hstatus
  · -- the routes support nothing else
    rename_i own _ _ _ _ _ _ _ _ _
    exfalso
    cases own <;> simp_all [Route.jsonMethods]

theorem not_coded_of_head (hhead : request.method = .head) {route : Route} :
    ¬ Coded (service.dispatch occasion request route).2 := by
  unfold dispatch
  rw [hhead]
  rintro ⟨members, code, hbody, -⟩
  nomatch hbody

theorem dispatch_upload (hmethod : request.method ∈ Route.upload.jsonMethods) :
    service.dispatch occasion request .upload = service.upload occasion request := by
  unfold dispatch
  rw [List.mem_singleton.1 hmethod]

/-- A failure is answered with a coded object, unless it has no body or is an upload without a boundary. -/
theorem coded_answer_iff (service : Service) (occasion : Occasion) (request : Request) {route : Route}
    (hroute : Route.ofPath? (Http.Target.path request.target) = some route)
    (hmethod : request.method ∈ route.jsonMethods) (hstatus : (service.answer occasion request).2.status ≠ 200) :
    Coded (service.answer occasion request).2 ↔
      request.method ≠ .head ∧ (route = .upload → HasBoundary request) := by
  have hoptions : request.method ≠ .options := by
    intro hoptions
    rw [hoptions] at hmethod
    cases route <;> simp [Route.jsonMethods] at hmethod
  rw [answer_of_route rfl hoptions hroute] at hstatus ⊢
  constructor
  · intro hcoded
    refine ⟨fun hhead => not_coded_of_head hhead hcoded, ?_⟩
    rintro rfl
    rw [dispatch_upload hmethod] at hcoded
    by_contra hboundary
    exact not_coded_upload hboundary hcoded
  · rintro ⟨hhead, hboundary⟩
    exact coded_dispatch hmethod hhead hboundary hstatus

/-- A contact that is not there is to be deleted. -/
def unknownContact : Turn := sending .delete "/contact/9" []

theorem coded_answer_iff_unknownContact :
    (inEmptyFolder.answer unknownContact.occasion unknownContact.request).2.status ≠ 200 ∧
      Coded (inEmptyFolder.answer unknownContact.occasion unknownContact.request).2 := by
  have hstatus : (inEmptyFolder.answer unknownContact.occasion unknownContact.request).2.status ≠ 200 := by
    decide +kernel
  have hroute : Route.ofPath? (Http.Target.path unknownContact.request.target) = some (.contact ['9']) := by
    decide +kernel
  have hmethod : unknownContact.request.method ∈ (Route.contact ['9']).jsonMethods := by decide
  exact ⟨hstatus, (coded_answer_iff _ _ _ hroute hmethod hstatus).2 ⟨nofun, nofun⟩⟩

/-- An upload that is sent as text. -/
def textUpload : Request := { method := .post, target := "/upload", contentType := some "text/plain", body := [120] }

theorem textUpload_not_coded :
    Route.ofPath? (Http.Target.path textUpload.target) = some .upload ∧
      textUpload.method ∈ Route.upload.jsonMethods ∧
      (inEmptyFolder.answer unknownContact.occasion textUpload).2 =
        { status := 400, body := .text "Invalid `boundary` for `multipart/form-data` request" } ∧
      ¬ Coded (inEmptyFolder.answer unknownContact.occasion textUpload).2 := by
  have hanswer : (inEmptyFolder.answer unknownContact.occasion textUpload).2 =
      { status := 400, body := .text "Invalid `boundary` for `multipart/form-data` request" } := by
    decide +kernel
  refine ⟨by decide +kernel, by decide, hanswer, ?_⟩
  rw [hanswer]
  rintro ⟨members, code, hbody, -⟩
  nomatch hbody

end Service

end AddressBook
