import GraphClient.Middleware.Basic
import GraphClient.Value.Iteration

/-!
# Running scripts

`Script.run` runs the steps of a script with a result that starts as null, and
`Middleware.behaviour` is what each middleware does with the rest of the chain.
-/

namespace GraphClient

namespace Script

variable {M : Type}

/-- A request on one line: its address, its query and its headers. -/
def showRequest (r : Request) : String :=
  r.url.display ++ "|" ++ r.query.display ++ "|"
    ++ ",".intercalate (r.headers.map fun (k, v) => k ++ "=" ++ v.display)

/-- Variables with one more set: those given, or a new map in place of what counts as false. -/
def withVariable (vars : Value) (name : String) (v : Value) : Except Failure Value := do
  let table ← if ← vars.decideTruth then vars.toTable else pure []
  return .map (Pairs.set (.text name) v table)

/-- What a caught failure leaves as result. -/
def caught (e : Failure) : Value :=
  .ofPairs [("caught", .text e.name), ("text", .text e.text)]

/-- The entry of a result that is a map; null if there is none. -/
def pick (key : String) : Value → Value
  | .map entries => (Value.lookup? key entries).getD .null
  | _ => .null

/-- Runs the rest of the chain up to the given number of times until it ends without an error.
The second number counts the attempts made. -/
def retry (name : String) (next : Flow M) (k : Value → Flow M) : Nat → Nat → Value → Flow M
  | 0, _, result => k result
  | left + 1, i, result =>
    next.andThen fun
      | .ok v => k v
      | .error e =>
        if e.isError then
          .perform (.trace (name ++ ":attempt " ++ toString i ++ " " ++ e.name)) fun _ =>
            if left = 0 then .fail e else retry name next k left (i + 1) result
        else .fail e

/-- Changes the request and goes on. -/
def edit (f : Request → Request) (rest : Flow M) : Flow M := .perform (.edit f) fun _ => rest

/-- Runs the steps of a script. -/
def run (name : String) (waits : Bool) (next : Flow Middleware) :
    List Step → Value → Flow Middleware
  | [], result => .ret result
  | step :: steps, result =>
    let rest (result : Value) : Flow Middleware := run name waits next steps result
    match step with
    | .log text => .perform (.trace (name ++ ":" ++ text)) fun _ => rest result
    | .header k v => edit (fun r => { r with headers := Pairs.set k v r.headers }) (rest result)
    | .dropHeader k => edit (fun r => { r with headers := Pairs.erase k r.headers }) (rest result)
    | .query v => edit (fun r => { r with query := v }) (rest result)
    | .url v => edit (fun r => { r with url := v }) (rest result)
    | .vars v => edit (fun r => { r with vars := v }) (rest result)
    | .variable k v => .perform .request fun r =>
      match withVariable r.vars k v with
      | .error e => .fail e
      | .ok vars => edit (fun r => { r with vars := vars }) (rest result)
    | .show => .perform .request fun r =>
      .perform (.trace (name ++ ":" ++ showRequest r)) fun _ => rest result
    | .raise error => .fail error.toFailure
    | .use specs =>
      match (Spec.toArguments specs).bind (Registry.accepted Middleware.inertType?) with
      | .error e => .fail e
      | .ok ms => .perform (.register ms) fun _ => rest result
    | .clientHeader k v => .perform (.updateHeaders (Pairs.set k v)) fun _ => rest result
    | .wrap key => rest (.ofPairs [(key, result)])
    | .pick key => rest (pick key result)
    | .result v => .ret v
    | .next => if waits then next.onValue rest else next
    | .sleep d => .sleep d fun
      | .resumed => rest result
      | .cancelled => .perform (.trace (name ++ ":cancelled")) fun _ => .fail .cancelled
    | .catch => next.andThen fun
      | .ok v => rest v
      | .error e =>
        if e.isError then
          .perform (.trace (name ++ ":caught " ++ e.name)) fun _ => rest (caught e)
        else .fail e
    | .retry count => retry name next rest count 0 result
    | .drop => rest result

end Script

/-- Why a value cannot be called with a request and the rest of a chain. -/
def Middleware.callProblem : Value → String
  | .field _ => "FieldBuilder.__call__() takes from 1 to 2 positional arguments but 3 were given"
  | v => "'" ++ v.typeName ++ "' object is not callable"

/-- What middleware does with the rest of the chain. -/
def Middleware.behaviour : Middleware → Flow Middleware → Flow Middleware
  | header headers, next => Stock.header headers next
  | timeout limit, next => Stock.timeout limit next
  | logging logger level, next => Stock.logging logger level next
  | script name waits steps, next => Script.run name waits next steps .null
  | value v, _ => .fail (.misuse .type (callProblem v))
  | group isTuple, _ => .fail (.misuse .type
      ("'" ++ groupName isTuple ++ "' object is not callable"))

end GraphClient
