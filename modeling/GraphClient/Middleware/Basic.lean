import GraphClient.Middleware.Stock

/-!
# Middleware

`Middleware` is what a registry holds: the stock middleware, scripts, and values that cannot be
called as middleware at all. A `Spec` describes one before it is made; making one can fail.

A script is a list of steps on a request and a result. A script that can wait may run the rest of
the chain in the middle; a plain one can only hand the rest back as its own result.
-/

namespace GraphClient

mutual

/-- A description of middleware. -/
inductive Spec where
  | header (headers : Headers)
  | timeout (seconds : Value)
  | logging (logger : String) (level : Int)
  | value (v : Value)
  | group (isTuple : Bool) (items : List Spec)
  | script (name : String) (waits : Bool) (steps : List Step)

/-- A step of a script. -/
inductive Step where
  | log (text : String)
  | header (name : String) (v : Value)
  | dropHeader (name : String)
  | query (v : Value)
  | url (v : Value)
  | vars (v : Value)
  | variable (name : String) (v : Value)
  | show
  | raise (error : Raise)
  | use (specs : List Spec)
  | clientHeader (name : String) (v : Value)
  | wrap (key : String)
  | pick (key : String)
  | result (v : Value)
  | next
  | sleep (duration : Rat)
  | catch
  | retry (count : Nat)
  | drop

end

instance : Inhabited Spec := ⟨.value .null⟩

instance : Inhabited Step := ⟨.next⟩

/-- Middleware as a registry holds it. -/
inductive Middleware where
  | header (headers : Headers)
  | timeout (limit : TimeLimit)
  | logging (logger : String) (level : Int)
  | script (name : String) (waits : Bool) (steps : List Step)
  /-- Some other value. -/
  | value (v : Value)
  /-- A group of middleware in a place where groups are not taken apart. -/
  | group (isTuple : Bool)

namespace Middleware

/-- The name of the type of a group. -/
def groupName (isTuple : Bool) : String := if isTuple then "tuple" else "list"

/-- The name of a script, or of the type of other middleware. -/
def name : Middleware → String
  | header _ => "HeaderMiddleware"
  | timeout _ => "TimeoutMiddleware"
  | logging .. => "LoggingMiddleware"
  | script name .. => name
  | value v => v.typeName
  | group isTuple => groupName isTuple

/-- The type of something that cannot be called; nothing for what can be. -/
def inertType? : Middleware → Option String
  | value v => if v.isCallable then none else some v.typeName
  | group isTuple => some (groupName isTuple)
  | _ => none

end Middleware

/-- An argument of a registration: one middleware, or a group of them. -/
inductive Argument (M : Type) where
  | one (m : M)
  | group (items : List M)

/-- The middleware of an argument. -/
def Argument.items {M : Type} : Argument M → List M
  | one m => [m]
  | group items => items

namespace Spec

mutual

/-- Makes the middleware that a description stands for. -/
def make : Spec → Except Failure Middleware
  | header headers => .ok (.header headers)
  | timeout seconds => (TimeLimit.make seconds).map .timeout
  | logging logger level => .ok (.logging logger level)
  | value v => .ok (.value v)
  | group isTuple items => (makeAll items).map fun _ => .group isTuple
  | script name waits steps => .ok (.script name waits steps)

/-- Makes the middleware of several descriptions, in order. -/
def makeAll : List Spec → Except Failure (List Middleware)
  | [] => .ok []
  | spec :: specs =>
    match make spec with
    | .error e => .error e
    | .ok m => (makeAll specs).map (m :: ·)

end

/-- Makes an argument of a registration: lists and tuples are groups. -/
def toArgument : Spec → Except Failure (Argument Middleware)
  | group _ items => (makeAll items).map .group
  | value (.list items) | value (.tuple items) => .ok (.group (items.map .value))
  | spec => spec.make.map .one

/-- Makes the arguments of a registration, in order. -/
def toArguments : List Spec → Except Failure (List (Argument Middleware))
  | [] => .ok []
  | spec :: specs =>
    match spec.toArgument with
    | .error e => .error e
    | .ok a => (toArguments specs).map (a :: ·)

end Spec

namespace Registry

variable {M : Type}

/-- The middleware of all arguments, groups taken apart by one level. -/
def flatten (arguments : List (Argument M)) : List M := arguments.flatMap Argument.items

/-- Refuses the first of the middleware that cannot be called. -/
def check (inertType? : M → Option String) (ms : List M) : Except Failure Unit :=
  match ms.findSome? inertType? with
  | some typeName => .error (.complaint (.middlewareNotCallable typeName))
  | none => .ok ()

/-- The middleware to be registered for the given arguments: all of them, or none. -/
def accepted (inertType? : M → Option String) (arguments : List (Argument M)) :
    Except Failure (List M) :=
  let ms := flatten arguments
  (check inertType? ms).map fun _ => ms

end Registry

end GraphClient
