import GraphClient.Failure.Construction

/-!
# Errors of status codes and of the network

`QueryError.ofStatus` is the error of a status code outside the range of success: the code alone
decides its class. `QueryError.ofFailure` is the error that the transport reports for a failure
of the network.
-/

namespace GraphClient.QueryError

/-- The time that a header asks to wait: the first of the two spellings that has a value. Text
that is no number is ignored. -/
def retryAfter (headers : List (String × Value)) : Except Failure Value := do
  let given (name : String) : Value := (Pairs.get? name headers).getD .null
  let header ← (given "Retry-After").orElse (given "retry-after")
  if !(← header.decideTruth) then return .null
  match header.toDouble with
  | .ok x => return .float x
  | .error (.misuse .value _) => return .null
  | .error e => throw e

/-- The error of a status code. A response that limits the rate is not kept. -/
def ofStatus (status : Int) (message : String) (url : Value) (headers : List (String × Value))
    (response : Value) : Except Failure QueryError :=
  let http (cls : ErrorClass) (lead : String) : QueryError :=
    ⟨cls, .text (lead ++ message), url, [], .http (.int status) (.ofPairs headers) response, none⟩
  if status = 401 then .ok (http .authentication "Authentication required: ")
  else if status = 403 then .ok (http .authentication "Access forbidden: ")
  else if status = 404 then .ok (http .notFound "Endpoint not found: ")
  else if status = 429 then
    (retryAfter headers).map fun wait =>
      ⟨.rateLimit, .text ("Rate limit exceeded: " ++ message), url, [],
        .rateLimit (.ofPairs headers) wait, none⟩
  else if 500 ≤ status ∧ status < 600 then .ok (http .server "Server error: ")
  else .ok (http .http "")

/-- The error that the transport reports for a failure of the network: time limits first, then
the connection, the payload and the status of a response. -/
def ofFailure (f : Failure) (url timeout : Value) : Except Failure QueryError :=
  match f with
  | .fault g@(.general ..) => if g.isTimeout then .ok (timedOut g.text) else .ok (other g.text)
  | .fault g@(.network kind _ report) =>
    if kind.isTimeout then .ok (timedOut g.text)
    else if kind.isConnection then
      .ok (plain .connection (.text ("Connection error: " ++ g.text)) url)
    else if kind = .payload then
      .ok ⟨.content, .text ("Payload error: " ++ g.text), url, [], .content .null, none⟩
    else if kind.isResponse then
      ofStatus report.status g.text url
        ((report.headers.getD []).map fun (k, v) => (k, .text v)) .null
    else .ok (other g.text)
  | f => .ok (other f.text)
where
  /-- The error of a time limit that passed. -/
  timedOut (text : String) : QueryError :=
    ⟨.timeout, .text ("Request timed out: " ++ text), url, [], .timeout timeout, none⟩
  /-- The error of any other failure. -/
  other (text : String) : QueryError :=
    plain .network
      (.text ("An error occurred while attempting to make a request to API: " ++ text)) url

end GraphClient.QueryError
