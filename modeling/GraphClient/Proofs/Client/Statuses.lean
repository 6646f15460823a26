import GraphClient.Proofs.Client.Responses

/-!
# What the error of a status keeps of the response

* `ErrorClass.ofStatus`: the class of a status.
* `QueryError.ofStatus_eq`: the error of a status has this class and keeps the address, the status
  and the headers. It keeps the text as well, but not at the status 429: errors about the rate
  have no place for it.
* `Response.data_of_failed`: so does the error of a response, whatever its text.
-/

namespace GraphClient

/-- The class of the errors that stand for a status. -/
def ErrorClass.ofStatus (status : Int) : ErrorClass :=
  if status = 401 ∨ status = 403 then .authentication
  else if status = 404 then .notFound
  else if status = 429 then .rateLimit
  else if 500 ≤ status ∧ status ≤ 599 then .server
  else .http

/-- Such errors refine the general error of a status. -/
theorem ErrorClass.http_mem_ofStatus (status : Int) : .http ∈ (ofStatus status).lineage := by
  unfold ofStatus
  repeat' split
  all_goals decide

/-- What an error keeps of a response. -/
structure Kept where
  status : Value
  headers : Value
  response : Value

/-- What the data of an error keep of a response. An error about the rate is one of the status 429,
and has no text. -/
def ErrorData.kept? : ErrorData → Option Kept
  | http status headers response => some ⟨status, headers, response⟩
  | rateLimit headers _ => some ⟨.int 429, headers, .null⟩
  | _ => none

/-- The text that the error of a status keeps. -/
def keptText (status : Int) (response : Value) : Value := if status = 429 then .null else response

namespace QueryError

/-- The error of a status. -/
structure OfStatus (status : Int) (url : Value) (headers : List (String × Value)) (response : Value)
    (e : QueryError) : Prop where
  cls : e.cls = .ofStatus status
  url : e.url = url
  kept : e.data.kept? = some ⟨.int status, .ofPairs headers, keptText status response⟩

/-- Errors of all statuses but 429 are made alike. -/
theorem OfStatus.http {status : Int} (cls : ErrorClass) (same : cls = .ofStatus status)
    (other : status ≠ 429) (message url response : Value) (headers : List (String × Value)) :
    OfStatus status url headers response
      ⟨cls, message, url, [], .http (.int status) (.ofPairs headers) response, none⟩ where
  cls := same
  url := rfl
  kept := by rw [keptText, if_neg other, ErrorData.kept?]

/-- Every status has its error, if the headers that may tell a time to wait are texts. -/
theorem ofStatus_eq (status : Int) (message : String) (url : Value)
    {headers : List (String × Value)} (response : Value)
    (texts : status = 429 → TextValues headers) :
    ∃ e, ofStatus status message url headers response = .ok e ∧
      e.OfStatus status url headers response := by
  unfold ofStatus
  by_cases unauthorized : status = 401
  · subst unauthorized
    exact ⟨_, rfl, .http _ (by decide) (by decide) ..⟩
  rw [if_neg unauthorized]
  by_cases forbidden : status = 403
  · subst forbidden
    exact ⟨_, rfl, .http _ (by decide) (by decide) ..⟩
  rw [if_neg forbidden]
  by_cases missing : status = 404
  · subst missing
    exact ⟨_, rfl, .http _ (by decide) (by decide) ..⟩
  rw [if_neg missing]
  by_cases limited : status = 429
  · subst limited
    obtain ⟨wait, known⟩ := retryAfter_ok (texts rfl)
    rw [if_pos rfl, known]
    exact ⟨_, rfl, rfl, rfl, rfl⟩
  rw [if_neg limited]
  have classOf : ErrorClass.ofStatus status =
      if 500 ≤ status ∧ status ≤ 599 then .server else .http := by
    rw [ErrorClass.ofStatus, if_neg (by omega), if_neg missing, if_neg limited]
  by_cases server : 500 ≤ status ∧ status < 600
  · rw [if_pos server]
    exact ⟨_, rfl, .http _ (by rw [classOf, if_pos (by omega)]) limited ..⟩
  · rw [if_neg server]
    exact ⟨_, rfl, .http _ (by rw [classOf, if_neg (by omega)]) limited ..⟩

end QueryError

namespace Response

/-- **Errors of statuses.** A response with a status outside of 200 to 399 gives an error, whatever
its text. The status alone decides the class, which refines the general one. The error keeps the
address, the status and the headers; and it keeps the text exactly if the status is not 429. -/
theorem data_of_failed (r : Response) (url : Value) (failed : ¬(200 ≤ r.status ∧ r.status ≤ 399))
    (texts : r.status = 429 → TextValues r.headers) :
    ∃ e kept, r.data url = .error (.query e) ∧ e.cls = .ofStatus r.status ∧
      .http ∈ e.cls.lineage ∧ e.url = url ∧ e.data.kept? = some kept ∧
      kept.status = .int r.status ∧ kept.headers = .ofPairs r.headers ∧
      (kept.response = .text r.text ↔ r.status ≠ 429) := by
  obtain ⟨e, made, cls, same, kept⟩ := QueryError.ofStatus_eq r.status
    ("Received Non-OK status code from server: " ++ toString r.status) url (.text r.text) texts
  refine ⟨e, _, ?_, cls, cls ▸ ErrorClass.http_mem_ofStatus r.status, same, kept, rfl, rfl, ?_⟩
  · have notSuccess : isSuccess r.status = false := by
      rw [isSuccess, ← Bool.decide_and]
      exact decide_eq_false failed
    simp only [data, notSuccess, made]
    rfl
  · rw [keptText]
    split <;> simp [*]

/-- Headers that tell a time to wait. -/
def slowDown : Response := ⟨429, "slow down", [("Retry-After", .text "3")]⟩

theorem data_of_failed_slowDown : ¬(200 ≤ slowDown.status ∧ slowDown.status ≤ 399) ∧
    (slowDown.status = 429 → TextValues slowDown.headers) ∧
    ∃ e, slowDown.data (.text "u") = .error (.query e) ∧ e.cls = .rateLimit ∧ e.url = .text "u" := by
  have failed : ¬(200 ≤ slowDown.status ∧ slowDown.status ≤ 399) := by decide
  have texts : slowDown.status = 429 → TextValues slowDown.headers := fun _ header mem => by
    rw [List.mem_singleton.mp mem]
    exact ⟨"3", rfl⟩
  obtain ⟨e, kept, made, cls, -, same, -⟩ := data_of_failed slowDown (.text "u") failed texts
  exact ⟨failed, texts, e, made, cls, same⟩

/-- The text of a response that limits the rate is lost. -/
theorem data_drops_text : ¬∃ e kept, data ⟨429, "slow down", []⟩ .null = .error (.query e) ∧
    e.data.kept? = some kept ∧ kept.response = .text "slow down" := by
  rintro ⟨e, kept, made, found, same⟩
  cases made
  cases found
  cases same

end Response

end GraphClient
