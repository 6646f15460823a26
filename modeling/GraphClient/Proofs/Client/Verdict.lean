import GraphClient.Proofs.Client.Responses
import GraphClient.Proofs.Json.RoundTrip

/-!
# What the `errors` member of a payload comes to

`Response.verdict` is the contract of a transport: no errors are the `data` member, an array of
errors or a single one is an error of the endpoint, anything else is no proper response.

* `Response.checkErrors_eq`: a member that counts as false is no error, and any other one is judged
  by its type alone.
* `Response.data_eq_verdict`: a response of success keeps the contract exactly when its `errors`
  member is not overlooked. An empty object and a value that counts as false are (`isOverlooked`):
  the response passes as one without errors.
-/

namespace GraphClient

namespace Json

/-- Documents that count as false: null, a falsehood, a zero and whatever is empty. -/
def isFalse : Json → Bool
  | null => true
  | bool b => !b
  | int n => n == 0
  | float x => x.isZero
  | text s => s.isEmpty
  | array items => items.isEmpty
  | object members => members.isEmpty

/-- The member of an object; null if there is none. -/
def member (key : String) (members : List (String × Json)) : Json :=
  (Pairs.get? key members).getD null

theorem isTrue_toValue (document : Json) : document.toValue.isTrue = !document.isFalse := by
  have ofBool (b : Bool) : (Truth.ofBool b == .holds) = b := by cases b <;> rfl
  cases document with
  | null => rfl
  | bool b => simp only [Value.isTrue, toValue, Value.truth, ofBool, isFalse, Bool.not_not]
  | int n => simp only [Value.isTrue, toValue, Value.truth, ofBool, isFalse, bne]
  | float x => simp only [Value.isTrue, toValue, Value.truth, ofBool, isFalse]
  | text s => simp only [Value.isTrue, toValue, Value.truth, ofBool, isFalse]
  | array items =>
    simp only [Value.isTrue, toValue, Value.truth, ofBool, isFalse]
    cases items <;> rfl
  | object members =>
    simp only [Value.isTrue, toValue, Value.truth, ofBool, isFalse]
    cases members <;> rfl

/-- Looking a member up in the entries of an object finds the member as a value. -/
theorem lookup?_toEntries (key : String) (members : List (String × Json)) :
    (Value.lookup? key (toEntries members)).getD .null = (member key members).toValue := by
  unfold Value.lookup? member
  induction members with
  | nil => rfl
  | cons entry members ih =>
    have same : ((Value.text entry.1 : Value) == .text key) = (entry.1 == key) := by
      show Value.sameKey (.text entry.1) (.text key) = _
      rw [Value.sameKey]
    simp only [toEntries, Pairs.get?, same]
    split
    · rfl
    · exact ih

end Json

namespace Response

variable (r : Response) (url : Value)

/-- The message of the first of the errors that were reported, or the usual one. -/
def reportMessage : List Json → Value
  | .object first :: _ =>
    if (Json.member "message" first).isFalse then .text QueryError.defaultRemoteMessage
    else (Json.member "message" first).toValue
  | _ => .text QueryError.defaultRemoteMessage

/-- The error that stands for the errors that were reported. -/
def report (items : List Json) : QueryError :=
  ⟨.remote, reportMessage items, url, [], .remote (.list (Json.toValues items)), none⟩

/-- The failure of a payload whose errors are no array. -/
def malformedErrors (errors : Json) : Failure :=
  .query ⟨.content, .text ("Expected 'errors' to be an array, got " ++ errors.toValue.typeName),
    url, [], .content (.text r.text), none⟩

/-- What a payload has to come to. -/
def verdict (members : List (String × Json)) : Outcome :=
  match Json.member "errors" members with
  | .null | .array [] => .ok (Json.member "data" members).toValue
  | .array items => .error (.query (report url items))
  | .object error => .error (.query (report url [.object error]))
  | errors => .error (r.malformedErrors url errors)

/-- Errors that are no array and count as false. -/
def isOverlooked : Json → Bool
  | .null | .array _ => false
  | errors => errors.isFalse

theorem ofErrors_toValues (first : Json) (rest : List Json) :
    QueryError.ofErrors (.list (Json.toValues (first :: rest))) url =
      .ok (report url (first :: rest)) := by
  have message : (QueryError.firstMessage first.toValue).orElse
      (.text QueryError.defaultRemoteMessage) = .ok (reportMessage (first :: rest)) := by
    cases first with
    | object members =>
      simp only [Json.toValue, QueryError.firstMessage, Json.lookup?_toEntries,
        (Json.decided_toValue _).orElse, Json.isTrue_toValue, reportMessage]
      cases (Json.member "message" members).isFalse <;> rfl
    | _ => rfl
  have holds : (Value.list (Json.toValue first :: Json.toValues rest)).decideTruth = .ok true := rfl
  simp only [QueryError.ofErrors, Json.toValues, holds, Value.first, message, Value.items,
    Value.items?, bind, Except.bind, if_true]
  rfl

/-- Errors that count as false are none; all others are judged by their type. -/
theorem checkErrors_eq (errors : Json) :
    r.checkErrors url errors.toValue =
      if errors.isFalse then .ok ()
      else match errors with
        | .array items => .error (.query (report url items))
        | .object error => .error (.query (report url [.object error]))
        | errors => .error (r.malformedErrors url errors) := by
  have truth := errors.decided_toValue.decideTruth
  rw [Json.isTrue_toValue] at truth
  cases known : errors.isFalse with
  | true =>
    rw [known] at truth
    simp only [checkErrors, truth, bind, Except.bind, Bool.not_true, Bool.not_false, if_true]
    rfl
  | false =>
    rw [known] at truth
    simp only [checkErrors, truth, bind, Except.bind, Bool.not_false, Bool.not_true,
      Bool.false_eq_true, if_false]
    cases errors with
    | array items =>
      cases items with
      | nil => cases known
      | cons first rest =>
        have made := ofErrors_toValues url first rest
        simp only [Json.toValue, made]
        rfl
    | object members =>
      have made := ofErrors_toValues url (.object members) []
      simp only [Json.toValues, Json.toValue] at made
      simp only [Json.toValue, made]
      rfl
    | _ => rfl

/-- A response of success whose text is an object gives the `data` member, or the failure that the
`errors` member stands for. -/
theorem data_of_object {members : List (String × Json)} (success : isSuccess r.status = true)
    (read : Json.load r.text = .ok (.object members)) :
    r.data url = (r.checkErrors url (Json.member "errors" members).toValue).map fun _ =>
      (Json.member "data" members).toValue := by
  simp only [data, success, read, bind, Except.bind, Bool.not_true, Bool.false_eq_true, if_false,
    Json.toValue, Json.lookup?_toEntries]
  cases r.checkErrors url (Json.member "errors" members).toValue <;> rfl

/-- The contract has a failure for whatever is overlooked. -/
theorem verdict_of_overlooked {members : List (String × Json)}
    (overlooked : isOverlooked (Json.member "errors" members) = true) :
    ∃ failure, r.verdict url members = .error failure := by
  unfold verdict
  cases kind : Json.member "errors" members with
  | null | array _ =>
    rw [kind] at overlooked
    cases overlooked
  | _ => exact ⟨_, rfl⟩

/-- A response of success keeps the contract, but for overlooked errors: with them it passes for
one without errors, which the contract never allows. -/
theorem data_eq_verdict {members : List (String × Json)} (success : isSuccess r.status = true)
    (read : Json.load r.text = .ok (.object members)) :
    r.data url = (if isOverlooked (Json.member "errors" members)
      then .ok (Json.member "data" members).toValue else r.verdict url members) ∧
    (r.data url = r.verdict url members ↔ isOverlooked (Json.member "errors" members) = false) := by
  have judged : r.data url = if isOverlooked (Json.member "errors" members)
      then .ok (Json.member "data" members).toValue else r.verdict url members := by
    rw [data_of_object r url success read, checkErrors_eq, verdict]
    generalize Json.member "errors" members = errors
    cases errors with
    | null => rfl
    | array items => cases items <;> rfl
    | object error => cases error <;> rfl
    | _ => exact apply_ite (Except.map _) _ _ _
  refine ⟨judged, ?_⟩
  rw [judged]
  cases overlooked : isOverlooked (Json.member "errors" members) with
  | false => exact iff_of_true rfl rfl
  | true =>
    obtain ⟨failure, fails⟩ := verdict_of_overlooked r url overlooked
    refine iff_of_false (fun same => ?_) Bool.noConfusion
    rw [if_pos rfl, fails] at same
    cases same

/-- A response with a single error in place of an array. -/
def singleError : Response :=
  ⟨200, "\x7b\"errors\": \x7b\"message\": \"boom\"\x7d\x7d", []⟩

/-- A single error with a message is reported by its message. -/
theorem data_eq_verdict_singleError :
    isSuccess singleError.status = true ∧
    Json.load singleError.text =
      .ok (.object [("errors", .object [("message", .text "boom")])]) ∧
    singleError.data .null = .error (.query ⟨.remote, .text "boom", .null, [],
      .remote (.list [.map [(.text "message", .text "boom")]]), none⟩) := by
  have read : Json.load singleError.text =
      .ok (.object [("errors", .object [("message", .text "boom")])]) := by
    have plain : (Json.object [("errors", .object [("message", .text "boom")])]).Plain :=
      .object (by decide) (by simpa using .object (by decide) (by simpa using .text _))
    have written : singleError.text = Json.write .ascii
        (.object [("errors", .object [("message", .text "boom")])]) := by decide +kernel
    exact written ▸ Json.load_write plain rfl .ascii
  exact ⟨rfl, read, (data_eq_verdict singleError .null rfl read).1⟩

/-- A response with data, and an empty object for its errors. -/
def emptyError : Response :=
  ⟨200, "\x7b\"data\": \x7b\"a\": \"b\"\x7d, \"errors\": \x7b\x7d\x7d", []⟩

/-- An empty object for the errors passes for no errors, where the contract has an error with the
usual message. -/
theorem data_passes_emptyError :
    isSuccess emptyError.status = true ∧
    Json.load emptyError.text =
      .ok (.object [("data", .object [("a", .text "b")]), ("errors", .object [])]) ∧
    emptyError.data .null = .ok (.map [(.text "a", .text "b")]) ∧
    emptyError.verdict .null [("data", .object [("a", .text "b")]), ("errors", .object [])] =
      .error (.query ⟨.remote, .text QueryError.defaultRemoteMessage, .null, [],
        .remote (.list [.map []]), none⟩) := by
  have read : Json.load emptyError.text =
      .ok (.object [("data", .object [("a", .text "b")]), ("errors", .object [])]) := by
    have plain : (Json.object
        [("data", .object [("a", .text "b")]), ("errors", .object [])]).Plain :=
      .object (by decide) (by simpa using
        ⟨.object (by decide) (by simpa using .text _), .object (by decide) (by simp)⟩)
    have written : emptyError.text = Json.write .ascii
        (.object [("data", .object [("a", .text "b")]), ("errors", .object [])]) := by
      decide +kernel
    exact written ▸ Json.load_write plain rfl .ascii
  refine ⟨rfl, read, ?_, rfl⟩
  rw [data_of_object emptyError .null rfl read, checkErrors_eq]
  rfl

end Response

end GraphClient
