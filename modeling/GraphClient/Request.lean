import GraphClient.Json.Writer

/-!
# Requests

A `Request` is what travels through the middleware to the transport. Its body is the JSON text of
the query and the variables.
-/

namespace GraphClient

/-- Header names with their values, in order. -/
abbrev Headers := List (String × Value)

/-- A single outgoing request. -/
structure Request where
  url : Value
  query : Value
  headers : Headers
  vars : Value
deriving Inhabited

namespace Request

/-- The payload sent to the endpoint. -/
def payload (r : Request) : Value :=
  .ofPairs [("query", r.query), ("variables", r.vars)]

/-- The payload as JSON text. -/
def body (r : Request) : Except Failure String :=
  (r.payload.toJson .refuse).map (Json.write .ascii)

end Request

end GraphClient
