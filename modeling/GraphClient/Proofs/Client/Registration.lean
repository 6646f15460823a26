import GraphClient.Client.Basic
import GraphClient.Proofs.Flow.Steps

/-!
# Registering middleware

A call of `use` registers all that it is given, or nothing.

* `Spec.parts`, `Spec.toArguments_eq`: lists and tuples among the arguments are taken apart by one level.
* `Registration.Handled`: a call that is given something which cannot be called raises an error that
  names the type of the first such thing, and leaves the client as it was. Any other call adds what it is
  given at the end of the registry (`Registration.handled`).
* `Registration.registry_after`: after any calls, the registry holds what the successful ones were given.
-/

namespace GraphClient

/-! ## Arguments -/

namespace Spec

/-- What an argument stands for: the items of a list or of a tuple, or the argument itself. -/
def parts : Spec → List Spec
  | group _ items => items
  | value (.list items) | value (.tuple items) => items.map .value
  | spec => [spec]

theorem makeAll_append (specs later : List Spec) : makeAll (specs ++ later) =
    (makeAll specs).bind fun ms => (makeAll later).map (ms ++ ·) := by
  induction specs with
  | nil =>
    rw [List.nil_append, makeAll]
    cases makeAll later <;> rfl
  | cons spec specs ih =>
    rw [List.cons_append, makeAll, makeAll, ih]
    cases make spec with
    | error e => rfl
    | ok m => cases makeAll specs <;> cases makeAll later <;> rfl

theorem makeAll_values (vs : List Value) : makeAll (vs.map .value) = .ok (vs.map .value) := by
  induction vs with
  | nil => rfl
  | cons v vs ih =>
    rw [List.map_cons, makeAll, make, ih]
    rfl

theorem makeAll_one (spec : Spec) : makeAll [spec] = spec.make.map fun m => [m] := by
  rw [makeAll]
  cases make spec <;> rfl

theorem toArgument_eq (spec : Spec) : spec.toArgument.map Argument.items = makeAll spec.parts := by
  have single (made : spec.toArgument = spec.make.map .one) (alone : spec.parts = [spec]) :
      spec.toArgument.map Argument.items = makeAll spec.parts := by
    rw [made, alone, makeAll_one]
    cases make spec <;> rfl
  cases spec with
  | group isTuple items =>
    rw [toArgument, parts]
    cases makeAll items <;> rfl
  | value v =>
    cases v with
    | list items | tuple items => exact (makeAll_values items).symm
    | _ => exact single rfl rfl
  | _ => exact single rfl rfl

/-- Arguments are taken apart by one level. -/
theorem toArguments_eq (specs : List Spec) :
    (toArguments specs).map Registry.flatten = makeAll (specs.flatMap parts) := by
  induction specs with
  | nil => rfl
  | cons spec specs ih =>
    rw [List.flatMap_cons, makeAll_append, ← ih, ← toArgument_eq, toArguments]
    cases toArgument spec with
    | error e => rfl
    | ok argument => cases toArguments specs <;> rfl

end Spec

/-! ## What can be called -/

/-- Whether middleware can be called with a request and the rest of a chain: groups cannot, nor can values
that cannot be called at all. -/
def Middleware.isCallable : Middleware → Bool
  | value v => v.isCallable
  | group _ => false
  | _ => true

theorem Middleware.inertType?_eq (m : Middleware) :
    m.inertType? = if m.isCallable then none else some m.name := by
  cases m <;> rfl

/-- The first that cannot be called is refused. -/
theorem Registry.check_eq (ms : List Middleware) : check Middleware.inertType? ms =
    match ms.find? (!·.isCallable) with
    | some m => .error (.complaint (.middlewareNotCallable m.name))
    | none => .ok () := by
  have first : ms.findSome? Middleware.inertType? = (ms.find? (!·.isCallable)).map Middleware.name := by
    induction ms with
    | nil => rfl
    | cons m ms ih =>
      rw [List.findSome?_cons, List.find?_cons, Middleware.inertType?_eq, ih]
      cases m.isCallable <;> rfl
  rw [check, first]
  cases ms.find? (!·.isCallable) <;> rfl

/-! ## Calls -/

/-- A call of `use`: its arguments, and what they are when lists and tuples are taken apart. -/
structure Registration where
  arguments : List Spec
  items : List Middleware
  made : Spec.makeAll (arguments.flatMap Spec.parts) = .ok items

namespace Registration

variable (call : Registration) (l : ClientLoop Middleware)

/-- What the call does. -/
def routine : Flow Middleware :=
  match Spec.toArguments call.arguments with
  | .error e => .fail e
  | .ok arguments => Client.use Middleware.inertType? arguments

/-- The client after the call, and what the call ended with. -/
def run : ClientLoop Middleware × Option Outcome :=
  l.run World.handle call.routine l.tasks.length

/-- The client after several calls. -/
def after (calls : List Registration) : ClientLoop Middleware :=
  calls.foldl (fun l call => (call.run l).1) l

/-- Whether the call ends without an error. -/
def succeeds : Bool :=
  match (call.run l).2 with
  | some (.ok _) => true
  | _ => false

/-- Those of several calls that end without an error. -/
def successful : ClientLoop Middleware → List Registration → List Registration
  | _, [] => []
  | l, call :: calls =>
    if call.succeeds l then call :: successful (call.run l).1 calls
    else successful (call.run l).1 calls

/-- How a client handles a call. -/
structure Handled : Prop where
  /-- A type error is raised exactly if something cannot be called. -/
  raises : (∃ e, (call.run l).2 = some (.error e) ∧ e.name = "TypeError") ↔
    ∃ m ∈ call.items, m.isCallable = false
  /-- The error names the type of the first that cannot be called, and nothing has changed. -/
  refuses : ∀ m, call.items.find? (!·.isCallable) = some m →
    (∃ e, (call.run l).2 = some (.error e) ∧ e.name = "TypeError" ∧
      e.text = "Middleware must be callable, got " ++ m.name) ∧
    (call.run l).1.world = l.world
  /-- Otherwise everything is registered, in order, and nothing else has changed. -/
  registers : (∀ m ∈ call.items, m.isCallable = true) →
    (call.run l).2 = some (.ok (.bool true)) ∧
    (call.run l).1.world = { l.world with registry := l.world.registry ++ call.items }

theorem routine_eq : call.routine = match call.items.find? (!·.isCallable) with
    | some m => .fail (.complaint (.middlewareNotCallable m.name))
    | none => .perform (.register call.items) fun _ => .ret (.bool true) := by
  have made := call.made
  rw [← Spec.toArguments_eq] at made
  rw [routine]
  cases given : Spec.toArguments call.arguments with
  | error e =>
    rw [given] at made
    cases made
  | ok arguments =>
    rw [given] at made
    have flat : Registry.flatten arguments = call.items := Except.ok.inj made
    dsimp only
    rw [Client.use, Registry.accepted, flat, Registry.check_eq]
    cases call.items.find? (!·.isCallable) <;> rfl

/-- A routine that ends without a wait ends where it starts. -/
theorem run_of_settle {r : Flow Middleware} {l' : ClientLoop Middleware} {o : Outcome}
    (length : l'.tasks.length = l.tasks.length + 1)
    (started : l.started World.handle r l.tasks.length = l'.settle l.tasks.length o) :
    l.run World.handle r l.tasks.length = (l'.settle l.tasks.length o, some o) := by
  obtain ⟨task, there⟩ : ∃ task, l'.tasks[l.tasks.length]? = some task :=
    ⟨_, List.getElem?_eq_getElem (length ▸ Nat.lt_succ_self _)⟩
  rw [Loop.run_eq_some_iff, started]
  exact ⟨.refl _, Loop.outcome?_settle o there⟩

theorem run_of_refused {m : Middleware} (first : call.items.find? (!·.isCallable) = some m) :
    (call.run l).2 = some (.error (.complaint (.middlewareNotCallable m.name))) ∧
      (call.run l).1.world = l.world := by
  have routine := call.routine_eq
  rw [first] at routine
  rw [run, routine, run_of_settle l List.length_append rfl]
  exact ⟨rfl, Loop.world_settle ..⟩

theorem run_of_accepted (none : call.items.find? (!·.isCallable) = none) :
    (call.run l).2 = some (.ok (.bool true)) ∧
      (call.run l).1.world = { l.world with registry := l.world.registry ++ call.items } := by
  have routine := call.routine_eq
  rw [none] at routine
  rw [run, routine, run_of_settle l List.length_append rfl]
  exact ⟨rfl, Loop.world_settle ..⟩

theorem handled : call.Handled l where
  raises := by
    cases first : call.items.find? (!·.isCallable) with
    | some m =>
      have inert : m.isCallable = false := by simpa using List.find?_some first
      exact ⟨fun _ => ⟨m, List.mem_of_find?_eq_some first, inert⟩,
        fun _ => ⟨_, (call.run_of_refused l first).1, rfl⟩⟩
    | none =>
      have callable := List.find?_eq_none.mp first
      constructor
      · rintro ⟨e, raised, -⟩
        cases (call.run_of_accepted l first).1.symm.trans raised
      · rintro ⟨m, mem, inert⟩
        exact absurd (by rw [inert]; rfl) (callable m mem)
  refuses m first :=
    let ⟨raised, same⟩ := call.run_of_refused l first
    ⟨⟨_, raised, rfl, rfl⟩, same⟩
  registers callable := by
    refine call.run_of_accepted l (List.find?_eq_none.mpr fun m mem => ?_)
    simp [callable m mem]

theorem run_of_succeeds (succeeds : call.succeeds l = true) :
    (call.run l).1.world.registry = l.world.registry ++ call.items ∧
      ∀ m ∈ call.items, m.isCallable = true := by
  cases first : call.items.find? (!·.isCallable) with
  | some m =>
    rw [Registration.succeeds, (call.run_of_refused l first).1] at succeeds
    cases succeeds
  | none =>
    rw [(call.run_of_accepted l first).2]
    exact ⟨rfl, fun m mem => by simpa using List.find?_eq_none.mp first m mem⟩

theorem run_of_not_succeeds (fails : call.succeeds l = false) : (call.run l).1.world = l.world := by
  cases first : call.items.find? (!·.isCallable) with
  | some m => exact (call.run_of_refused l first).2
  | none =>
    rw [succeeds, (call.run_of_accepted l first).1] at fails
    cases fails

/-- After any calls, the registry has grown by what the successful ones were given, and by nothing that
cannot be called. -/
theorem registry_after (calls : List Registration) :
    (after l calls).world.registry = l.world.registry ++ (successful l calls).flatMap items ∧
      ∀ call ∈ successful l calls, ∀ m ∈ call.items, m.isCallable = true := by
  induction calls generalizing l with
  | nil => exact ⟨(List.append_nil _).symm, List.forall_mem_nil _⟩
  | cons call calls ih =>
    obtain ⟨later, all⟩ := ih (call.run l).1
    rw [after, List.foldl_cons, ← after, later, successful]
    cases succeeds : call.succeeds l with
    | true =>
      obtain ⟨grown, callable⟩ := call.run_of_succeeds l succeeds
      rw [if_pos rfl, grown, List.flatMap_cons, List.append_assoc]
      exact ⟨rfl, List.forall_mem_cons.mpr ⟨callable, all⟩⟩
    | false =>
      rw [call.run_of_not_succeeds l succeeds, if_neg Bool.false_ne_true]
      exact ⟨rfl, all⟩

/-- Every call of a history is handled as said, wherever it stands, and the registry is made of what the
successful calls were given: middleware that can be called, if the client began with such. -/
theorem registry_of_history (calls : List Registration) :
    (∀ before call later, calls = before ++ call :: later → call.Handled (after l before)) ∧
    (after l calls).world.registry = l.world.registry ++ (successful l calls).flatMap items ∧
    ((∀ m ∈ l.world.registry, m.isCallable = true) →
      ∀ m ∈ (after l calls).world.registry, m.isCallable = true) := by
  obtain ⟨grown, all⟩ := registry_after l calls
  refine ⟨fun before call later _ => call.handled _, grown, fun begun m mem => ?_⟩
  rw [grown, List.mem_append, List.mem_flatMap] at mem
  rcases mem with old | ⟨call, successful, mem⟩
  · exact begun m old
  · exact all call successful m mem

/-- A header and a logger in a list, with something deferred behind it. -/
def sampleGroups : Registration :=
  ⟨[.group false [.header [], .logging "a" 10], .value (.deferred none .null)],
    [.header [], .logging "a" 10, .value (.deferred none .null)], rfl⟩

/-- Of a list in a list only the outer one is taken apart. -/
def sampleNested : Registration :=
  ⟨[.header [], .value (.list [.field "a", .list [.field "b"], .int 5])],
    [.header [], .value (.field "a"), .value (.list [.field "b"]), .value (.int 5)], rfl⟩

/-- The second call is refused for the list in its list, though two items before it can be called. -/
theorem registry_of_history_sampleNested :
    let l : ClientLoop Middleware :=
      .initial (Client.make (.text "https://a") [] .direct .default [] .network)
    let l' := after l [sampleGroups, sampleNested]
    (∃ e, (sampleNested.run (after l [sampleGroups])).2 = some (.error e) ∧ e.name = "TypeError" ∧
      e.text = "Middleware must be callable, got list") ∧
    l'.world.registry = sampleGroups.items ∧ ∀ m ∈ l'.world.registry, m.isCallable = true := by
  intro l l'
  obtain ⟨handled, -, callable⟩ := registry_of_history l [sampleGroups, sampleNested]
  obtain ⟨raised, same⟩ := (handled [sampleGroups] sampleNested [] rfl).refuses _ rfl
  obtain ⟨-, grown⟩ := (handled [] sampleGroups [sampleNested] rfl).registers (by decide)
  refine ⟨raised, ?_, callable (List.forall_mem_nil _)⟩
  calc l'.world.registry = (after l [sampleGroups]).world.registry := congrArg World.registry same
    _ = sampleGroups.items := congrArg World.registry grown

end Registration

end GraphClient
