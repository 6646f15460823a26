import GraphClient.Middleware.Stock

/-!
# Posting

How a request reaches the endpoint. The direct transport hands it over as it is; the pooled one
opens a session when there is none, counts requests and errors, and turns network failures and
responses into data or errors of this library.

* `Pooled.openSession` opens at most one session at a time: the pool is looked at again once the
  lock is held.
* `Pooled.post` counts every request that has a session and every error that it raises itself.
* `Pooled.close` may be called any number of times.
-/

namespace GraphClient

namespace Endpoint

variable {M : Type}

/-- Waits for a delay, if there is one, and goes on. -/
def pause (delay? : Option Rat) (rest : Flow M) : Flow M :=
  match delay? with
  | none => rest
  | some d => Routine.sleepThen d rest

/-- The answer, or the error that it is, as it leaves the coroutine that waits for it. -/
def Answer.toExcept : Answer → Except Failure Answer
  | .refuse error => .error error.toFailure
  | answer => .ok answer

/-- Takes the next answer of the endpoint, once its delay is over. -/
def answerThen (k : Except Failure Answer → Flow M) : Flow M :=
  .perform (.trace "transport") fun _ => .perform .receive fun exchange =>
    match exchange.delay? with
    | none => k (Answer.toExcept exchange.answer)
    | some d => .sleep d fun
      | .resumed => k (Answer.toExcept exchange.answer)
      | .cancelled => .perform (.trace "transport:cancelled") fun _ => k (.error .cancelled)

/-- The value of an answer that needs no reading. -/
def plainOutcome : Except Failure Answer → Outcome
  | .error e => .error e
  | .ok (.data v) => .ok v
  | .ok (.respond r) => .ok (.text r.text)
  | .ok (.refuse error) => .error error.toFailure

/-- Answers without looking at the request. -/
def answer : Flow M := answerThen fun a => .done (plainOutcome a)

/-- Records a call and answers it. -/
def callThen (call : Call) (k : Except Failure Answer → Flow M) : Flow M :=
  .perform (.record call) fun _ => answerThen k

end Endpoint

namespace Pooled

variable {M : Type}

/-- The logger of the transport. -/
def loggerName : String := "gql_fetch.transport"

/-- Logs a message of the transport and goes on. -/
def log (level : Int) (message : String) (rest : Flow M) : Flow M :=
  .perform (.log ⟨level, loggerName, message⟩) fun _ => rest

/-- Goes on with an open session; otherwise makes one first. -/
def unlessOpen (makeSession : Flow M) : Flow M :=
  .perform .pool fun pool => if pool.isClosed then makeSession else .ret .null

/-- Makes a session, which may take some time. -/
def makeSession : Flow M :=
  let made : Flow M := .perform (.updatePool Pool.openSession) fun _ => .ret .null
  .perform .sessionSource fun
    | .network => log 10 "HTTP session created" made
    | .scripted delay? => Endpoint.pause delay? made

/-- Makes sure that there is an open session. -/
def openSession : Flow M := unlessOpen (Routine.withLock (unlessOpen makeSession))

/-- Counts an error and ends with it. -/
def failCounted (e : Failure) : Flow M :=
  .perform (.updatePool Pool.countError) fun _ => .fail e

/-- Ends with the error that stands for a failure of the network. -/
def refuse (url : Value) (f : Fault) : Flow M :=
  .perform (.updatePool Pool.countError) fun _ =>
    log Stock.warningLevel ("GraphQL request to " ++ url.display ++ " failed: " ++ f.shown) <|
      .perform .settings fun settings =>
        match QueryError.ofFailure (.fault f) url (.float settings.timeout) with
        | .ok e => .fail (.query { e with cause := some (.fault f) })
        | .error e => .fail e

/-- Ends with the data of a response, or with the error that it stands for. -/
def read (url : Value) (start : Rat) (r : Response) : Flow M :=
  .clock fun now =>
    log 10 ("POST " ++ url.display ++ " -> " ++ toString r.status ++ " in "
        ++ Stock.milliseconds (now - start) ++ "ms (" ++ toString r.text.length ++ " bytes)") <|
      match r.data url with
      | .ok v => .ret v
      | .error e => failCounted e

/-- Posts a body over a session. -/
def post (url : Value) (headers : Headers) (body : String) : Flow M :=
  openSession.onValue fun _ =>
    .clock fun start =>
      .perform (.updatePool Pool.countRequest) fun _ =>
        Endpoint.callThen ⟨url, headers, body⟩ fun
          | .error (.fault f) => if f.isHandled then refuse url f else .fail (.fault f)
          | .error e => .fail e
          | .ok (.respond r) => read url start r
          | .ok a => .done (Endpoint.plainOutcome (.ok a))

/-- Says what the closed session was used for. -/
def logClosed (rest : Flow M) : Flow M :=
  .perform .pool fun pool =>
    log 10 ("HTTP session closed. Metrics: requests=" ++ toString pool.requestCount
      ++ ", errors=" ++ toString pool.errorCount) rest

/-- Closes the session in use, if it is open, and uses none any more. -/
def close : Flow M :=
  let forget : Flow M := .perform (.updatePool Pool.forget) fun _ => .ret .null
  .perform .pool fun pool =>
    if pool.isClosed then forget
    else
      .perform (.updatePool Pool.closeCurrent) fun _ =>
        .perform .closeDelay fun delay? => Endpoint.pause delay? (logClosed forget)

/-- Opens a session and closes it again; gives whether one was open, whether none is open in the
end, and how many have been made. -/
def visit : Flow M :=
  openSession.onValue fun _ => .perform .pool fun inside =>
    close.onValue fun _ => .perform .pool fun after =>
      .ret (.list [.bool (!inside.isClosed), .bool after.isClosed, .int after.sessions.length])

end Pooled

/-- Posts a request over the transport in use. -/
def Transport.post {M : Type} (url : Value) (headers : Headers) (body : String) : Flow M :=
  .perform .transport fun (transport, _) =>
    match transport with
    | .direct => Endpoint.callThen ⟨url, headers, body⟩ fun a => .done (Endpoint.plainOutcome a)
    | .pooled => Pooled.post url headers body
    | .bare => .ret (.text "bare")

end GraphClient
