import GraphClient.Proofs.Json.RoundTrip
import GraphClient.Request

/-!
# What a request's body says

* `Portable` values are those that JSON keeps: none, truth values, integers of any size, texts,
  sequences, and tables with texts as keys, to any depth.
* `Portable.toJson`: a portable value is written as a plain document, which stands for the same value
  with lists for its tuples.
* `Request.body_decodes`: the body of a request says its query and its variables, and no other
  query or variables have that body.
-/

namespace GraphClient

namespace Value

/-- A value all of which has a place in JSON. -/
inductive Portable : Value → Prop where
  | null : Portable null
  | bool (b : Bool) : Portable (bool b)
  | int (n : Int) : Portable (int n)
  | text (s : String) : Portable (text s)
  | list {items : List Value} (all : ∀ v ∈ items, Portable v) : Portable (list items)
  | tuple {items : List Value} (all : ∀ v ∈ items, Portable v) : Portable (tuple items)
  | table {entries : List (String × Value)} (distinct : (entries.map Prod.fst).Nodup)
      (all : ∀ entry ∈ entries, Portable entry.2) : Portable (ofPairs entries)

mutual

/-- A value with lists for its tuples, at every depth. -/
def listed : Value → Value
  | list items | tuple items => .list (listedItems items)
  | map entries => .map (listedEntries entries)
  | v => v

def listedItems : List Value → List Value
  | [] => []
  | v :: vs => listed v :: listedItems vs

def listedEntries : List (Value × Value) → List (Value × Value)
  | [] => []
  | (k, v) :: entries => (k, listed v) :: listedEntries entries

end

variable {limit? : Option Nat} {rule : ForeignRule} {v : Value}

/-- A value has a plain document with integers that fit, which stands for the value with lists for
its tuples. -/
def Documented (limit? : Option Nat) (rule : ForeignRule) (v : Value) : Prop :=
  ∃ d, v.toJson rule = .ok d ∧ (d.Plain ∧ d.fits limit?) ∧ d.toValue = v.listed

theorem toItems_documented {items : List Value} (all : ∀ v ∈ items, Documented limit? rule v) :
    ∃ ds, toItems rule items = .ok ds ∧ (∀ d ∈ ds, d.Plain ∧ d.fits limit?) ∧
      Json.toValues ds = listedItems items := by
  induction items with
  | nil => exact ⟨[], rfl, List.forall_mem_nil _, rfl⟩
  | cons v vs ih =>
    obtain ⟨⟨d, written, plain, same⟩, all⟩ := List.forall_mem_cons.mp all
    obtain ⟨ds, writtenAll, plainAll, sameAll⟩ := ih all
    refine ⟨d :: ds, ?_, List.forall_mem_cons.mpr ⟨plain, plainAll⟩, ?_⟩
    · rw [toItems, written, writtenAll]
      rfl
    · rw [Json.toValues, listedItems, same, sameAll]

theorem toMembers_documented {entries : List (String × Value)}
    (all : ∀ entry ∈ entries, Documented limit? rule entry.2) :
    ∃ ms, toMembers rule (entries.map fun entry => (text entry.1, entry.2)) = .ok ms ∧
      ms.map Prod.fst = entries.map Prod.fst ∧ (∀ m ∈ ms, m.2.Plain ∧ m.2.fits limit?) ∧
      Json.toEntries ms = listedEntries (entries.map fun entry => (text entry.1, entry.2)) := by
  induction entries with
  | nil => exact ⟨[], rfl, rfl, List.forall_mem_nil _, rfl⟩
  | cons entry entries ih =>
    obtain ⟨⟨d, written, plain, same⟩, all⟩ := List.forall_mem_cons.mp all
    obtain ⟨ms, writtenAll, names, plainAll, sameAll⟩ := ih all
    refine ⟨(entry.1, d) :: ms, ?_, congrArg (entry.1 :: ·) names,
      List.forall_mem_cons.mpr ⟨plain, plainAll⟩, ?_⟩
    · rw [List.map_cons, toMembers, written, writtenAll]
      rfl
    · rw [List.map_cons, Json.toEntries, listedEntries, same, sameAll]

theorem documented_single {d : Json} (written : v.toJson rule = .ok d) (plain : d.Plain)
    (fits : d.fits limit?) (same : d.toValue = v.listed) : Documented limit? rule v :=
  ⟨d, written, ⟨plain, fits⟩, same⟩

theorem documented_list {items : List Value} (all : ∀ v ∈ items, Documented limit? rule v) :
    Documented limit? rule (list items) := by
  obtain ⟨ds, written, proper, same⟩ := toItems_documented all
  refine ⟨.array ds, by rw [toJson, written]; rfl,
    ⟨.array fun d mem => (proper d mem).1, ?_⟩, by rw [Json.toValue, listed, same]⟩
  rw [Json.fits_array, List.all_eq_true]
  exact fun d mem => (proper d mem).2

theorem documented_tuple {items : List Value} (all : ∀ v ∈ items, Documented limit? rule v) :
    Documented limit? rule (tuple items) := by
  obtain ⟨d, written, proper, same⟩ := documented_list all
  rw [toJson] at written
  rw [listed] at same
  exact ⟨d, by rw [toJson, written], proper, by rw [listed, same]⟩

theorem documented_table {entries : List (String × Value)}
    (distinct : (entries.map Prod.fst).Nodup)
    (all : ∀ entry ∈ entries, Documented limit? rule entry.2) :
    Documented limit? rule (ofPairs entries) := by
  obtain ⟨ms, written, names, proper, same⟩ := toMembers_documented all
  refine ⟨.object ms, ?_,
    ⟨.object (by rwa [names]) fun m mem => (proper m mem).1, ?_⟩, ?_⟩
  · rw [ofPairs, toJson, written]
    rfl
  · rw [Json.fits_object, List.all_eq_true]
    exact fun m mem => (proper m mem).2
  · rw [Json.toValue, ofPairs, listed, same]

theorem Portable.documented (portable : Portable v) (rule : ForeignRule) :
    Documented none rule v := by
  induction portable with
  | null => exact documented_single rfl .null rfl rfl
  | bool b => exact documented_single rfl (.bool b) rfl rfl
  | int n => exact documented_single rfl (.int n) rfl rfl
  | text s => exact documented_single rfl (.text s) rfl rfl
  | list _ ih => exact documented_list ih
  | tuple _ ih => exact documented_tuple ih
  | table distinct _ ih => exact documented_table distinct ih

end Value

namespace Request

open Value

variable {r : Request} {query : String}

theorem payload_portable (text : r.query = .text query) (portable : r.vars.Portable) :
    r.payload.Portable := by
  have distinct : ["query", "variables"].Nodup := by decide
  refine .table distinct ?_
  intro entry mem
  obtain rfl | rfl := List.mem_pair.mp mem
  · rw [text]
    exact .text query
  · exact portable

/-- The body of a request whose query is a text and whose variables are portable: it is read as an
object of the two, in this order, and the bodies of two requests are the same only if they have the
same query and the same variables, lists and tuples apart. -/
theorem body_decodes (text : r.query = .text query) (portable : r.vars.Portable) :
    ∃ body, r.body = .ok body ∧
      (Json.read? body).map Json.toValue =
        some (.ofPairs [("query", .text query), ("variables", r.vars.listed)]) ∧
      ∀ (r' : Request) (query' : String), r'.query = .text query' → r'.vars.Portable →
        r'.body = .ok body → query' = query ∧ r'.vars.listed = r.vars.listed := by
  have decodes (r : Request) (query : String) (text : r.query = .text query)
      (portable : r.vars.Portable) : ∃ body, r.body = .ok body ∧
        (Json.read? body).map Json.toValue =
          some (.ofPairs [("query", .text query), ("variables", r.vars.listed)]) := by
    obtain ⟨d, written, ⟨plain, -⟩, same⟩ := (payload_portable text portable).documented .refuse
    refine ⟨Json.write .ascii d, by rw [body, written]; rfl, ?_⟩
    rw [Json.read?_write plain, Option.map_some, same, payload, text]
    rfl
  obtain ⟨body, encoded, decoded⟩ := decodes r query text portable
  refine ⟨body, encoded, decoded, fun r' query' text' portable' encoded' => ?_⟩
  obtain ⟨body', encoded'', decoded'⟩ := decodes r' query' text' portable'
  obtain rfl : body' = body := Except.ok.inj (encoded''.symm.trans encoded')
  have both := Option.some.inj (decoded'.symm.trans decoded)
  simp only [ofPairs, List.map_cons, List.map_nil, Value.map.injEq, List.cons.injEq, Prod.mk.injEq,
    Value.text.injEq, true_and, and_true] at both
  exact both

/-- A table with a tuple in a tuple, a large integer, a character beyond the first plane and one
that only an escape shows. -/
def nested : Request where
  url := .null
  query := .text "\u0001 a 😀 b \""
  headers := []
  vars := .ofPairs [("ids", .tuple [.int (-10 ^ 30), .tuple [.text "é\n", .null]]),
    ("on", .ofPairs [("y", .list []), ("x", .bool true)])]

theorem nested_decodes : nested.vars.Portable ∧
    ∃ body, nested.body = .ok body ∧ (Json.read? body).map Json.toValue =
      some (.ofPairs [("query", .text "\u0001 a 😀 b \""),
        ("variables", .ofPairs
          [("ids", .list [.int (-10 ^ 30), .list [.text "é\n", .null]]),
            ("on", .ofPairs [("y", .list []), ("x", .bool true)])])]) := by
  have ids : (Value.tuple [.int (-10 ^ 30), .tuple [.text "é\n", .null]]).Portable :=
    .tuple (by simpa using ⟨.int _, .tuple (by simpa using ⟨.text _, .null⟩)⟩)
  have on : (ofPairs [("y", .list []), ("x", .bool true)]).Portable :=
    .table (by decide) (by simpa using ⟨.list (by simp), .bool true⟩)
  have portable : nested.vars.Portable :=
    .table (by decide) (by simpa using ⟨ids, on⟩)
  have text : nested.query = .text _ := rfl
  obtain ⟨body, encoded, decoded, -⟩ := body_decodes text portable
  exact ⟨portable, body, encoded, decoded⟩

end Request

end GraphClient
