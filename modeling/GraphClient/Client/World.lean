import GraphClient.Flow.Loop
import GraphClient.Journal
import GraphClient.Request
import GraphClient.Response
import GraphClient.Settings.Client

/-!
# What routines act on

`World` is what the routines of a client share: the trace and the log, the client's address,
headers and registry, the state of the transport, and the request of every run. `Effect` lists
the operations on it, and `World.handle` says what each does.

A run's own request belongs to its scope: `Effect.request` and `Effect.edit` reach no other.
-/

namespace GraphClient

/-- How the endpoint answers one call. -/
inductive Answer where
  | refuse (error : Raise)
  | data (v : Value)
  | respond (response : Response)

/-- One answer of the endpoint, after some delay if there is one. -/
structure Exchange where
  delay? : Option Rat
  answer : Answer

/-- A call that reached the transport. -/
structure Call where
  url : Value
  headers : Headers
  body : String

/-- The connection pool of the transport: for every session made so far whether it is closed,
which of them is in use, and how many requests and errors there were. -/
structure Pool where
  sessions : List Bool
  current? : Option Nat
  requestCount : Nat
  errorCount : Nat
deriving DecidableEq, Inhabited

namespace Pool

def empty : Pool := ⟨[], none, 0, 0⟩

/-- Whether no session is open for use. -/
def isClosed (p : Pool) : Bool :=
  match p.current? with
  | none => true
  | some i => p.sessions.getD i true

/-- Opens a session and uses it. -/
def openSession (p : Pool) : Pool :=
  { p with sessions := p.sessions ++ [false], current? := some p.sessions.length }

/-- Closes the session in use. -/
def closeCurrent (p : Pool) : Pool :=
  match p.current? with
  | none => p
  | some i => { p with sessions := p.sessions.set i true }

/-- Uses no session any more. -/
def forget (p : Pool) : Pool := { p with current? := none }

def countRequest (p : Pool) : Pool := { p with requestCount := p.requestCount + 1 }

def countError (p : Pool) : Pool := { p with errorCount := p.errorCount + 1 }

/-- The share of requests that ended in an error. -/
def errorRate (p : Pool) : Binary64 :=
  Binary64.ofRatio false p.errorCount (max p.requestCount 1)

/-- The counts as a table. -/
def metrics (p : Pool) : List (String × Value) :=
  [("request_count", .int p.requestCount), ("error_count", .int p.errorCount),
   ("error_rate", .float p.errorRate), ("session_active", .bool (!p.isClosed))]

end Pool

/-- The kinds of transports. -/
inductive Transport where
  /-- Hands every call to the endpoint as it is. -/
  | direct
  /-- Speaks HTTP over pooled sessions. -/
  | pooled
  /-- Answers everything with the same text. -/
  | bare
deriving DecidableEq, Inhabited

/-- Where sessions come from: the network makes them at once and says so, a script after some
delay. -/
inductive SessionSource where
  | network
  | scripted (delay? : Option Rat)
deriving Inhabited

/-- What the routines of a client share. -/
structure World (M : Type) where
  trace : List String
  logs : List LogEntry
  calls : List Call
  /-- The answers to come; the last one repeats. -/
  answers : List Exchange
  url : Value
  headers : Headers
  registry : List M
  transport : Transport
  /-- Whether the client made its transport and so has to close it. -/
  ownsTransport : Bool
  settings : TransportSettings
  sessions : SessionSource
  /-- How long it takes to close a session. -/
  closeDelay? : Option Rat
  pool : Pool
  requests : List (Nat × Request)

/-- The operations on the world. -/
inductive Effect (M : Type) where
  | trace (line : String)
  | log (entry : LogEntry)
  /-- Reads the client's address and headers. -/
  | defaults
  | request
  | edit (f : Request → Request)
  | registry
  | register (ms : List M)
  /-- Changes the client's headers. -/
  | updateHeaders (f : Headers → Headers)
  | record (call : Call)
  | receive
  | transport
  | settings
  | sessionSource
  | closeDelay
  | pool
  | updatePool (f : Pool → Pool)

/-- What each operation answers. -/
def Effect.Reply {M : Type} : Effect M → Type
  | defaults => Value × Headers
  | registry => List M
  | request => Request
  | receive => Exchange
  | transport => Transport × Bool
  | settings => TransportSettings
  | sessionSource => SessionSource
  | closeDelay => Option Rat
  | pool => Pool
  | _ => Unit

/-- The effects of a client whose middleware are of the given type. -/
abbrev effects (M : Type) : Effects := ⟨Effect M, Effect.Reply⟩

/-- A routine of a client. -/
abbrev Flow (M : Type) := Routine (effects M)

/-- The answer when the endpoint was given none. -/
instance : Inhabited Exchange := ⟨⟨none, .data .null⟩⟩

namespace World

variable {M : Type}

/-- The request of a scope. -/
def requestOf (w : World M) (scope : Nat) : Request := (Pairs.get? scope w.requests).getD default

def setRequest (w : World M) (scope : Nat) (r : Request) : World M :=
  { w with requests := Pairs.set scope r w.requests }

/-- What a record adds to the log. Levels of zero and below are never enabled, all others are. -/
def enabled (entry : LogEntry) : List LogEntry := if 0 < entry.level then [entry] else []

/-- The next answer of the endpoint, and the answers after it. -/
def nextAnswer (answers : List Exchange) : Exchange × List Exchange :=
  match answers with
  | [] => (default, [])
  | [last] => (last, [last])
  | first :: rest => (first, rest)

/-- What an operation of a scope does and answers. -/
def handle (scope : Nat) (op : Effect M) (w : World M) : op.Reply × World M :=
  match op with
  | .trace line => ((), { w with trace := w.trace ++ [line] })
  | .log entry => ((), { w with logs := w.logs ++ enabled entry })
  | .defaults => ((w.url, w.headers), w)
  | .request => (w.requestOf scope, w)
  | .edit f => ((), w.setRequest scope (f (w.requestOf scope)))
  | .registry => (w.registry, w)
  | .register ms => ((), { w with registry := w.registry ++ ms })
  | .updateHeaders f => ((), { w with headers := f w.headers })
  | .record call => ((), { w with calls := w.calls ++ [call] })
  | .receive =>
    let (answer, rest) := nextAnswer w.answers
    (answer, { w with answers := rest })
  | .transport => ((w.transport, w.ownsTransport), w)
  | .settings => (w.settings, w)
  | .sessionSource => (w.sessions, w)
  | .closeDelay => (w.closeDelay?, w)
  | .pool => (w.pool, w)
  | .updatePool f => ((), { w with pool := f w.pool })

end World

/-- The event loop of a client. -/
abbrev ClientLoop (M : Type) := Loop (effects M) (World M)

end GraphClient
