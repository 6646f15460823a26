import GraphClient.Client.World
import GraphClient.Text.Blank

/-!
# Stock middleware

Three middleware that need no script: one sets headers, one bounds the rest of the chain by a time
limit, one logs each operation. Each is a function on the routine of the rest of the chain.
-/

namespace GraphClient

/-- A time limit: the value it was given as, and the time above zero that it stands for, none if
it never passes. -/
structure TimeLimit where
  seconds : Value
  limit? : Option Rat
  positive : ∀ q ∈ limit?, 0 < q

namespace TimeLimit

/-- A limit of a known time. -/
def ofRat (seconds : Value) (q : Rat) : Except Failure TimeLimit :=
  if h : q ≤ 0 then .error (.complaint .timeoutNotPositive)
  else .ok ⟨seconds, some q, fun _ e => Option.some.inj e ▸ Rat.not_le.1 h⟩

/-- A time limit is a number above zero. -/
def make (seconds : Value) : Except Failure TimeLimit :=
  match seconds with
  | .int n => ofRat seconds n
  | .bool b => ofRat seconds b.toInt
  | .float x =>
    match x with
    | .infinite true => .error (.complaint .timeoutNotPositive)
    | _ =>
      match x.toRat? with
      | some q => ofRat seconds q
      | none => .ok ⟨seconds, none, nofun⟩
  | v => .error (.misuse .type
      ("'<=' not supported between instances of '" ++ v.typeName ++ "' and 'int'"))

/-- The error of a limit that passed. -/
def expired (t : TimeLimit) (url : Value) : Failure :=
  .query ⟨.timeout, .text ("GraphQL request exceeded " ++ t.seconds.display ++ "s"), url, [],
    .timeout t.seconds, none⟩

end TimeLimit

namespace Stock

variable {M : Type}

/-- Sets headers on the request and goes on. -/
def header (headers : Headers) (next : Flow M) : Flow M :=
  .perform (.edit fun r => { r with headers := Pairs.merge r.headers headers }) fun _ => next

/-- How a time limit goes on after its race: whatever the rest of the chain ended with before
the limit passed is passed on unchanged. -/
def conclude (t : TimeLimit) : RaceEnd → Flow M
  | .settled outcome => .done outcome
  | .cancelled => .fail .cancelled
  | .expired => .perform .request fun r => .fail (t.expired r.url)

/-- Bounds the rest of the chain by a time limit. -/
def timeout (t : TimeLimit) (next : Flow M) : Flow M := .race next t.limit? (conclude t)

/-- The name that a query starts with, before its first brace. -/
def operationName (query : Value) : Except Failure String :=
  match query with
  | .text s =>
    let name := Text.trim (String.ofList (s.toList.takeWhile (· ≠ '{')))
    .ok (if name.isEmpty then "anonymous" else name)
  | .bytes _ => .error (.misuse .type "a bytes-like object is required, not 'str'")
  | v => .error (.misuse .attribute ("'" ++ v.typeName ++ "' object has no attribute 'split'"))

/-- A duration in milliseconds with one place. -/
def milliseconds (duration : Rat) : String :=
  Decimal.fixed 1 ((Binary64.ofRat duration).mul (.ofInt 1000))

/-- The level of warnings. -/
def warningLevel : Int := 30

/-- Logs the start of the operation, and its end or its failure. A cancellation is not logged. -/
def logging (logger : String) (level : Int) (next : Flow M) : Flow M :=
  .perform .request fun r =>
    match operationName r.query with
    | .error e => .fail e
    | .ok name =>
      let log (level : Int) (message : String) (rest : Flow M) : Flow M :=
        .perform (.log ⟨level, logger, "GraphQL " ++ name ++ " " ++ message⟩) fun _ => rest
      .clock fun start =>
        log level ("-> " ++ r.url.display) <|
          next.andThen fun
            | .ok v => .clock fun now =>
              log level ("completed in " ++ milliseconds (now - start) ++ "ms") (.ret v)
            | .error e =>
              if e.isError then .clock fun now =>
                log warningLevel
                  ("failed after " ++ milliseconds (now - start) ++ "ms: " ++ e.text) (.fail e)
              else .fail e

end Stock

end GraphClient
