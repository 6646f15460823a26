import GraphClient.Failure.Status
import GraphClient.Json.Reader

/-!
# Responses

`Response.data` turns a response into the `data` member of its payload, or into the error that
the status, the text or the payload's `errors` member stand for. An integer with too many digits in
the text makes no error of this library.
-/

namespace GraphClient

/-- A response of the endpoint. -/
structure Response where
  status : Int
  text : String
  headers : List (String × Value)

namespace Response

/-- Statuses from 200 to 399 mean success. -/
def isSuccess (status : Int) : Bool := 200 ≤ status && status ≤ 399

/-- The error of a response whose text is not what it should be. -/
def contentError (r : Response) (url : Value) (message : String) (cause : Option Cause) : Failure :=
  .query ⟨.content, .text message, url, [], .content (.text r.text), cause⟩

/-- What the `errors` member of a payload stands for: nothing when it counts as false, otherwise
an error. A single object is taken as the only item of an array. -/
def checkErrors (r : Response) (url errors : Value) : Except Failure Unit := do
  if !(← errors.decideTruth) then return ()
  match errors with
  | .map _ => throw (.query (← QueryError.ofErrors (.list [errors]) url))
  | .list _ => throw (.query (← QueryError.ofErrors errors url))
  | _ => throw (r.contentError url
      ("Expected 'errors' to be an array, got " ++ errors.typeName) none)

/-- The first 200 characters of a text. -/
def excerpt (s : String) : String := String.ofList (s.toList.take 200)

/-- The `data` member of the payload. -/
def data (r : Response) (url : Value) : Outcome := do
  if !isSuccess r.status then
    throw (.query (← QueryError.ofStatus r.status
      ("Received Non-OK status code from server: " ++ toString r.status) url r.headers
      (.text r.text)))
  match Json.load r.text with
  | .error .malformed => throw (r.contentError url ("Invalid JSON response: " ++ excerpt r.text)
      (some .malformedJson))
  | .error (.tooManyDigits digits) => throw (.integerNotRead digits)
  | .ok document =>
    match document.toValue with
    | .map payload =>
      r.checkErrors url ((Value.lookup? "errors" payload).getD .null)
      return (Value.lookup? "data" payload).getD .null
    | _ => throw (r.contentError url "Expected a JSON object response" none)

end Response

end GraphClient
