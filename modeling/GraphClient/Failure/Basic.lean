import GraphClient.Decimal.Numeral
import GraphClient.Value.Display

/-!
# Failures

`Failure` is everything that can end a computation in place of a value. Each failure is a cause;
its wording is given by `Failure.text`, its name by `Failure.name`.

* `QueryError` holds the library's own errors, one class refining another (`ErrorClass.lineage`).
* `Complaint` holds the mistakes of a caller that the library words itself.
* `Violation` says what is wrong with one setting of a configuration.
* `Failure.isError` tells errors from cancellations, which no handler of errors sees.
* `Thrown` is what can be raised in a plain computation, and `Thrown.leaving` the failure as which
  it leaves a generator or a coroutine (`Frame`).
-/

namespace GraphClient

/-- What an error was raised in answer to. -/
inductive Cause where
  | fault (f : Fault)
  | malformedJson
deriving DecidableEq, Inhabited

/-- What the classes of errors carry besides a message and an address. -/
inductive ErrorData where
  | plain
  | timeout (limit : Value)
  | content (response : Value)
  | http (status headers response : Value)
  | rateLimit (headers retryAfter : Value)
  | remote (errors : Value)

/-- An error of the library. -/
structure QueryError where
  cls : ErrorClass
  message : Value
  url : Value
  details : List (String × Value)
  data : ErrorData
  cause : Option Cause

/-- What a rule of a setting demands. -/
inductive Violation.Rule where
  | missing | extraForbidden | noSuchAttribute | invalidKey
  | floatType | floatParsing | atLeast
  | intType | intParsing | intFromFloat | finiteNumber
  | boolType | boolParsing
  | stringType | choice | pathType | dictType | modelType
  /-- A rule of this library's own, with its wording. -/
  | custom (message : String)
deriving DecidableEq, Inhabited

/-- The name of a rule. -/
def Violation.Rule.name : Violation.Rule → String
  | missing => "missing"
  | extraForbidden => "extra_forbidden"
  | noSuchAttribute => "no_such_attribute"
  | invalidKey => "invalid_key"
  | floatType => "float_type"
  | floatParsing => "float_parsing"
  | atLeast => "greater_than_equal"
  | intType => "int_type"
  | intParsing => "int_parsing"
  | intFromFloat => "int_from_float"
  | finiteNumber => "finite_number"
  | boolType => "bool_type"
  | boolParsing => "bool_parsing"
  | stringType => "string_type"
  | choice => "enum"
  | pathType => "path_type"
  | dictType => "dict_type"
  | modelType => "model_type"
  | custom _ => "value_error"

/-- A rule that a setting breaks, and where the setting stands. -/
structure Violation where
  location : List Value
  rule : Violation.Rule

/-- The same violation one level further out. -/
def Violation.within (outer : Value) (v : Violation) : Violation :=
  { v with location := outer :: v.location }

/-- Why a configuration file could not be read. -/
inductive UnreadableFile where
  | notOpened
  | malformedJson
deriving DecidableEq, Inhabited

/-- A mistake of the caller. -/
inductive Complaint where
  | middlewareNotCallable (typeName : String)
  | aliasNotText (typeName : String)
  | argumentsGivenAsText
  | timeoutNotPositive
  | unsupportedFormat (suffix : String)
  | noEndpoint
  | unreadableFile (path : String) (reason : UnreadableFile)
deriving DecidableEq, Inhabited

namespace Complaint

/-- The general condition that a mistake is an instance of. -/
def condition : Complaint → Condition
  | middlewareNotCallable _ | aliasNotText _ | argumentsGivenAsText => .type
  | timeoutNotPositive | unsupportedFormat _ | noEndpoint | unreadableFile .. => .value

/-- The wording of a mistake. -/
def text : Complaint → String
  | middlewareNotCallable typeName => "Middleware must be callable, got " ++ typeName
  | aliasNotText typeName => "Field alias must be a string, got " ++ typeName
  | argumentsGivenAsText => "Argument names must be given as a sequence, not a string"
  | timeoutNotPositive => "Timeout must be positive"
  | unsupportedFormat suffix => "Unsupported config file format: " ++ suffix
  | noEndpoint =>
    "No endpoint configured; set GQL_FETCH_ENDPOINT or add 'endpoint' to a config file"
  | unreadableFile path _ => "Failed to parse config file " ++ path ++ ": "

end Complaint

/-- Everything that can end a computation in place of a value. -/
inductive Failure where
  | query (error : QueryError)
  | fault (f : Fault)
  | complaint (c : Complaint)
  /-- An operation that a value does not allow, and why. -/
  | misuse (condition : Condition) (why : String)
  | invalid (violations : List Violation)
  /-- The task was told to stop. -/
  | cancelled

/-- A computation that can be left and gone on with. -/
inductive Frame where
  | generator
  | coroutine
deriving DecidableEq, Inhabited

/-- The word for such a computation. -/
def Frame.name : Frame → String
  | generator => "generator"
  | coroutine => "coroutine"

/-- What a computation ends with. -/
abbrev Outcome := Except Failure Value

namespace QueryError

/-- An error of a class without further data. -/
def plain (cls : ErrorClass) (message url : Value) : QueryError :=
  ⟨cls, message, url, [], .plain, none⟩

/-- An error that a scripted `raise` asks for: only the message is given, and a status where the
class needs one. -/
def ofMessage (cls : ErrorClass) (message : Value) (status : Int) : QueryError :=
  let data : ErrorData := match cls with
    | .base | .transport | .network | .connection => .plain
    | .timeout => .timeout .null
    | .content => .content .null
    | .http | .authentication | .notFound | .server => .http (.int status) (.map []) .null
    | .rateLimit => .rateLimit (.map []) .null
    | .remote => .remote (.list [])
  ⟨cls, message, .null, [], data, none⟩

end QueryError

namespace Failure

/-- The name of a failure's class. -/
def name : Failure → String
  | query e => "gql." ++ e.cls.name
  | fault f@(.general ..) => f.name
  | fault f@(.network ..) => "aiohttp." ++ f.name
  | complaint c => c.condition.name
  | misuse condition _ => condition.name
  | invalid _ => "ValidationError"
  | cancelled => Condition.cancelled.name

/-- What a failure says. -/
def text : Failure → String
  | query e => e.message.display
  | fault f => f.text
  | complaint c => c.text
  | misuse _ why => why
  | invalid violations => toString violations.length ++ " validation errors"
  | cancelled => ""

/-- The failure of a text with an integer of that many digits, which are more than are read. -/
def integerNotRead (digits : Nat) : Failure :=
  .misuse .value ("Exceeds the limit (" ++ toString Decimal.digitLimit
    ++ " digits) for integer string conversion: value has " ++ toString digits
    ++ " digits; use sys.set_int_max_str_digits() to increase the limit")

/-- The failure of writing an integer with more digits than are written. -/
def integerNotWritten : Failure :=
  .misuse .value ("Exceeds the limit (" ++ toString Decimal.digitLimit
    ++ " digits) for integer string conversion; use sys.set_int_max_str_digits()"
    ++ " to increase the limit")

/-- Whether a failure is an error: a cancellation is none. -/
def isError : Failure → Bool
  | fault f => !f.isCancellation
  | cancelled => false
  | _ => true

end Failure

/-- What a plain computation can be left with: a failure, or the signal that an iteration has ended.
A generator or a coroutine cannot, since the signal would be taken for its own end; so the signal is
no failure. -/
inductive Thrown where
  | failure (e : Failure)
  | stopIteration (text : Option String)

namespace Thrown

/-- The name of the class of what is raised. -/
def name : Thrown → String
  | failure e => e.name
  | stopIteration _ => "StopIteration"

/-- What it says. -/
def text : Thrown → String
  | failure e => e.text
  | stopIteration text => text.getD ""

/-- The failure as which it leaves a generator or a coroutine. -/
def leaving (frame : Frame) : Thrown → Failure
  | failure e => e
  | stopIteration _ => .misuse .runtime (frame.name ++ " raised StopIteration")

end Thrown

/-- What a generator or a coroutine ends with, if this is what is done in it ends with. -/
def Outcome.leaving (frame : Frame) (result : Except Thrown Value) : Outcome :=
  result.mapError (Thrown.leaving frame)

/-- An outcome as a result of its own. -/
def Outcome.toResult (o : Outcome) : Except Thrown Value := o.mapError .failure

@[simp] theorem Outcome.leaving_toResult (frame : Frame) (o : Outcome) :
    Outcome.leaving frame o.toResult = o := by
  cases o <;> rfl

/-- What an error is as it is raised. -/
def Raise.toThrown : Raise → Thrown
  | .fault f => .failure (.fault f)
  | .own cls message status => .failure (.query (.ofMessage cls (.text message) status))
  | .stopIteration text => .stopIteration text

/-- The failure of a coroutine in which an error is raised. -/
def Raise.toFailure (error : Raise) : Failure := error.toThrown.leaving .coroutine

end GraphClient
