import GraphClient.Value.Conversion

/-!
# Constructing errors

`ErrorClass.construct` makes an error from positional and named arguments. Every class takes a
message and an address; the general classes keep any other named argument as a detail, the others
have a fixed list of parameters. `QueryError.ofErrors` makes the error of a response that reports
errors.
-/

namespace GraphClient

/-- What an error says when the response gives no better message. -/
def QueryError.defaultRemoteMessage : String :=
  "One or more errors occurred while attempting to process the request"

namespace ErrorClass

/-- Whether a class keeps any other named argument as a detail. -/
def keepsDetails : ErrorClass → Bool
  | base | transport | network | connection => true
  | _ => false

/-- The parameters of a class, in order, with those that may be left out after the mark. -/
def parameters : ErrorClass → List String × List String
  | base | transport | network | connection => (["message"], ["url"])
  | timeout => (["message"], ["url", "timeout_value"])
  | content => (["message"], ["url", "response_text"])
  | http | authentication | notFound | server =>
    (["message", "status_code"], ["url", "headers", "response_text"])
  | rateLimit => (["message"], ["url", "retry_after", "headers"])
  | remote => (["message"], ["url", "errors"])

/-- The failure of arguments that do not fit the parameters. -/
def badArguments : Failure := .misuse .type "the arguments do not fit the parameters"

/-- Gives every parameter its argument. The named arguments that no parameter takes are details,
or a mistake. -/
def bind (cls : ErrorClass) (positional : List Value) (named : List (String × Value)) :
    Except Failure (List (String × Value) × List (String × Value)) :=
  let (required, optional) := cls.parameters
  let names := required ++ optional
  let byPosition := names.zip positional
  let (taken, details) := named.partition fun (k, _) => names.contains k
  if names.length < positional.length
      || taken.any (fun (k, _) => Pairs.contains k byPosition)
      || named.any (fun (k, _) => k == "self")
      || (!cls.keepsDetails && !details.isEmpty)
      || required.any (fun k => !Pairs.contains k (byPosition ++ taken)) then .error badArguments
  else .ok (byPosition ++ taken, details)

/-- What an error of the class carries, given its arguments. -/
def dataOf (cls : ErrorClass) (get : String → Value) : Except Failure ErrorData :=
  match cls with
  | base | transport | network | connection => .ok .plain
  | timeout => .ok (.timeout (get "timeout_value"))
  | content => .ok (.content (get "response_text"))
  | http | authentication | notFound | server =>
    ((get "headers").orElse (.map [])).map fun headers =>
      .http (get "status_code") headers (get "response_text")
  | rateLimit =>
    ((get "headers").orElse (.map [])).map fun headers => .rateLimit headers (get "retry_after")
  | remote => ((get "errors").orElse (.list [])).map .remote

/-- An error of the class, made from positional and named arguments. -/
def construct (cls : ErrorClass) (positional : List Value) (named : List (String × Value)) :
    Except Failure QueryError := do
  let (arguments, details) ← cls.bind positional named
  let get (name : String) : Value := (Pairs.get? name arguments).getD .null
  let data ← cls.dataOf get
  return ⟨cls, get "message", get "url", details, data, none⟩

end ErrorClass

namespace QueryError

/-- The message of the first reported error, if that is a map. -/
def firstMessage : Value → Value
  | .map entries => (Value.lookup? "message" entries).getD .null
  | _ => .null

/-- The error of a response that reports errors. -/
def ofErrors (errors url : Value) : Except Failure QueryError := do
  let first ← if ← errors.decideTruth then errors.first else pure .null
  let message ← (firstMessage first).orElse (.text defaultRemoteMessage)
  let items ← errors.items
  return ⟨.remote, message, url, [], .remote (.list items), none⟩

end QueryError

end GraphClient
