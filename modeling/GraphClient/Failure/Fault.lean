import GraphClient.Text.Quoted

/-!
# Faults

A fault is an error that does not come from this library: a general condition raised by code
around it, or a failure of the network. `Fault.text` is what it says and `Fault.shown` how it is
shown in a log line.
-/

namespace GraphClient

/-- General conditions that a program can raise. -/
inductive Condition where
  | value | runtime | lookup | permission | connectionReset | timeout | os | type | cancelled
  | attribute | key | index | overflow | badEncoding | fileExists | isDirectory | notDirectory
deriving DecidableEq, Inhabited

/-- The name of a condition. -/
def Condition.name : Condition → String
  | .value => "ValueError"
  | .runtime => "RuntimeError"
  | .lookup => "LookupError"
  | .permission => "PermissionError"
  | .connectionReset => "ConnectionResetError"
  | .timeout => "TimeoutError"
  | .os => "OSError"
  | .type => "TypeError"
  | .cancelled => "CancelledError"
  | .attribute => "AttributeError"
  | .key => "KeyError"
  | .index => "IndexError"
  | .overflow => "OverflowError"
  | .badEncoding => "UnicodeDecodeError"
  | .fileExists => "FileExistsError"
  | .isDirectory => "IsADirectoryError"
  | .notDirectory => "NotADirectoryError"

/-- Failures of the network below the transport. -/
inductive NetworkFault where
  | serverTimeout | connectionTimeout | socketTimeout
  | connection | os | serverDisconnected | serverConnection | connectionReset
  | payload
  | response | contentType | tooManyRedirects
  | client | invalidUrl
deriving DecidableEq, Inhabited

/-- The name of a network failure. -/
def NetworkFault.name : NetworkFault → String
  | .serverTimeout => "ServerTimeoutError"
  | .connectionTimeout => "ConnectionTimeoutError"
  | .socketTimeout => "SocketTimeoutError"
  | .connection => "ClientConnectionError"
  | .os => "ClientOSError"
  | .serverDisconnected => "ServerDisconnectedError"
  | .serverConnection => "ServerConnectionError"
  | .connectionReset => "ClientConnectionResetError"
  | .payload => "ClientPayloadError"
  | .response => "ClientResponseError"
  | .contentType => "ContentTypeError"
  | .tooManyRedirects => "TooManyRedirects"
  | .client => "ClientError"
  | .invalidUrl => "InvalidURL"

/-- Whether a network failure is a time limit that passed. -/
def NetworkFault.isTimeout : NetworkFault → Bool
  | .serverTimeout | .connectionTimeout | .socketTimeout => true
  | _ => false

/-- Whether a network failure is one of the connection, time limits included. -/
def NetworkFault.isConnection : NetworkFault → Bool
  | .connection | .os | .serverDisconnected | .serverConnection | .connectionReset => true
  | k => k.isTimeout

/-- Whether a network failure reports an HTTP response. -/
def NetworkFault.isResponse : NetworkFault → Bool
  | .response | .contentType | .tooManyRedirects => true
  | _ => false

/-- What a response failure reports: the status, the headers and the address that answered. -/
structure ResponseReport where
  status : Int
  headers : Option (List (String × String))
  url : String
deriving DecidableEq, Inhabited

/-- An error from outside the library, with the text it was raised with, if any. -/
inductive Fault where
  | general (condition : Condition) (text : Option String)
  | network (kind : NetworkFault) (text : Option String) (report : ResponseReport)
deriving DecidableEq, Inhabited

namespace Fault

/-- What the fault says. -/
def text : Fault → String
  | general _ text => text.getD ""
  | network kind text report =>
    if kind.isResponse then
      toString report.status ++ ", message=" ++ Text.quoted (text.getD "") ++ ", url="
        ++ Text.quoted report.url
    else if kind = .serverDisconnected then text.getD "Server disconnected"
    else text.getD ""

/-- The name of the fault without the place it comes from. -/
def name : Fault → String
  | general condition _ => condition.name
  | network kind _ _ => kind.name

/-- The fault as a log line shows it: its name and what it was raised with. -/
def shown : Fault → String
  | general condition text => shownCall condition.name text
  | network kind text _ =>
    shownCall kind.name (if kind = .serverDisconnected then some (text.getD "Server disconnected")
      else text)
where
  /-- A name and its argument in brackets. -/
  shownCall (name : String) (text : Option String) : String :=
    name ++ "(" ++ (text.map Text.quoted).getD "" ++ ")"

/-- Whether the fault ends a task as cancelled and passes by every handler of errors. -/
def isCancellation : Fault → Bool
  | general .cancelled _ => true
  | _ => false

/-- Whether the fault is a time limit of the network that passed. -/
def isTimeout : Fault → Bool
  | general .timeout _ => true
  | general _ _ => false
  | network kind _ _ => kind.isTimeout

/-- Whether the transport turns the fault into an error of its own: every network failure and
every time limit. -/
def isHandled : Fault → Bool
  | general .timeout _ => true
  | general _ _ => false
  | network _ _ _ => true

end Fault

/-- The classes of the library's own errors. -/
inductive ErrorClass where
  | base | transport | network | connection | timeout | content
  | http | rateLimit | authentication | notFound | server | remote
deriving DecidableEq, Inhabited

namespace ErrorClass

/-- The name of a class of errors. -/
def name : ErrorClass → String
  | base => "GqlFetchError"
  | transport => "TransportError"
  | network => "NetworkError"
  | connection => "ConnectionError"
  | timeout => "TimeoutError"
  | content => "ContentError"
  | http => "HTTPError"
  | rateLimit => "RateLimitError"
  | authentication => "AuthenticationError"
  | notFound => "NotFoundError"
  | server => "ServerError"
  | remote => "RemoteQueryError"

/-- A class and those that it refines, the most special first. -/
def lineage : ErrorClass → List ErrorClass
  | base => [base]
  | transport => [transport, base]
  | remote => [remote, base]
  | network => [network, transport, base]
  | connection => [connection, network, transport, base]
  | timeout => [timeout, transport, base]
  | content => [content, transport, base]
  | http => [http, transport, base]
  | rateLimit => [rateLimit, http, transport, base]
  | authentication => [authentication, http, transport, base]
  | notFound => [notFound, http, transport, base]
  | server => [server, http, transport, base]

end ErrorClass

/-- An error to be raised: a fault from outside, one of the library's own with a message, or the
signal that an iteration has ended. -/
inductive Raise where
  | fault (f : Fault)
  | own (cls : ErrorClass) (message : String) (status : Int)
  | stopIteration (text : Option String)
deriving DecidableEq, Inhabited

end GraphClient
