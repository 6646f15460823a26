import GraphClient.Proofs.Pairs
import GraphClient.Proofs.Selection.Parts

/-!
# Ways to build a field

The arguments of a field are given by themselves or in place of an alias, as names or as a map.

* `Arguments.render_names`, `Arguments.render_ofPairs`: names are written as the map that binds each
  of them.
* `FieldBuilder.make_alias`: an alias is written in front of the arguments.
* `FieldBuilder.typeError_iff`: which fields cannot be built.
* `FieldBuilder.ways_agree`: all ways to build a field lead to the same one.
-/

namespace GraphClient

namespace Arguments

/-- One argument of a map without what separates it from the one before. -/
def entryText (k : String) (v : Value) : String :=
  k ++ ":" ++ match v with
    | .text s => if s = bindMark then "$" ++ k else s
    | v => literal v

theorem renderEntry_eq (k : String) (v : Value) (i : Nat) :
    renderEntry (.text k) v i = .ok (Selection.separator i ++ entryText k v) := by
  have key : (Value.text k).display = k := by cbv
  cases v <;> simp only [renderEntry, entryText, key, String.append_assoc]

theorem render_ofPairs (entries : List (String × Value)) :
    render (.ofPairs entries) =
      .ok (",".intercalate (entries.map fun entry => entryText entry.1 entry.2)) := by
  have joined : Selection.joinEntries renderEntry
      (entries.map fun entry => (.text entry.1, entry.2)) =
      .ok (",".intercalate ((entries.map fun entry => (Value.text entry.1, entry.2)).map
        fun entry => entryText entry.1.display entry.2)) := by
    refine Selection.joinEntries_separated fun e mem i => ?_
    obtain ⟨entry, -, rfl⟩ := List.mem_map.1 mem
    exact renderEntry_eq entry.1 entry.2 i
  rw [List.map_map] at joined
  cases entries with
  | nil => rfl
  | cons entry entries => exact joined

/-- A list or a tuple of names. -/
inductive IsNames (names : List String) : Value → Prop
  | list : IsNames names (.list (names.map .text))
  | tuple : IsNames names (.tuple (names.map .text))

/-- Names are written as the entries that bind each of them. -/
theorem render_names {names : List String} {spec : Value} (given : IsNames names spec) :
    render spec =
      .ok (",".intercalate (names.map fun name => entryText name (.text bindMark))) := by
  have bound : (names.map Value.text).map renderName =
      names.map fun name => entryText name (.text bindMark) := by
    rw [List.map_map]
    refine List.map_congr_left fun name _ => ?_
    show name ++ ":$" ++ name = name ++ ":" ++ ("$" ++ name)
    rw [String.append_assoc, String.append_assoc]
    rfl
  rw [← bound]
  cases given <;> cases names <;> rfl

/-- What can specify arguments: nothing, a text by mistake, names, or a map with names as keys. -/
inductive IsSpecification : Value → Prop
  | null : IsSpecification .null
  | text (s : String) : IsSpecification (.text s)
  | names {names : List String} {spec : Value} : IsNames names spec → IsSpecification spec
  | map (entries : List (String × Value)) : IsSpecification (.ofPairs entries)

theorem render_text {s : String} (filled : s ≠ "") :
    render (.text s) = .error (.complaint .argumentsGivenAsText) := by
  have truth : (Value.text s).decideTruth = .ok true := by
    have nonempty : s.isEmpty = false := by simpa using filled
    rw [Value.decideTruth, Value.truth, nonempty]
    rfl
  rw [render, truth]
  rfl

/-- Whatever else specifies arguments can be written. -/
theorem render_cases {spec : Value} (specifies : IsSpecification spec) :
    (∃ s, s ≠ "" ∧ spec = .text s) ∨ ∃ rendered, render spec = .ok rendered := by
  cases specifies with
  | null => exact .inr ⟨"", rfl⟩
  | text s =>
    by_cases empty : s = ""
    · subst empty
      exact .inr ⟨"", rfl⟩
    · exact .inl ⟨s, empty, rfl⟩
  | names given => exact .inr ⟨_, render_names given⟩
  | map entries => exact .inr ⟨_, render_ofPairs entries⟩

end Arguments

namespace FieldBuilder

open Arguments

variable {name spec spec' : Value} {a : String}

/-- Whether a value can be an alias, or stands for none. -/
def IsAlias : Value → Prop
  | .null | .text _ => True
  | _ => False

/-- What specifies the arguments, of the two values that a builder is made of. -/
def specificationOf : Value → Value → Value
  | .null, spec | .text _, spec => spec
  | name, .null => name
  | _, spec => spec

theorem make_of_not_isAlias (other : ¬ IsAlias name) :
    make name .null = ofParts none name := by
  cases name with
  | null | text => exact absurd trivial other
  | _ => rfl

theorem make_of_not_isAlias' (other : ¬ IsAlias name) (given : spec ≠ .null) :
    make name spec = .error (.complaint (.aliasNotText name.typeName)) := by
  cases name with
  | null | text => exact absurd trivial other
  | _ =>
    cases spec with
    | null => exact absurd rfl given
    | _ => rfl

/-- An alias is written in front of the arguments. -/
theorem make_alias (filled : a ≠ "") (spec : Value) : make (.text a) spec =
    (make .null spec).map fun b =>
      { b with alias? := some a, signature := ":" ++ a ++ b.signature } := by
  have isFilled : a.isEmpty = false := by simpa using filled
  show (Arguments.render spec).map _ = ((Arguments.render spec).map _).map _
  cases Arguments.render spec with
  | error e => rfl
  | ok rendered =>
    simp only [Except.map, signatureOf, isFilled, String.empty_append, Bool.false_eq_true, if_false]

/-- Specifications that are written alike lead to the same signature, with every alias. -/
theorem signature_congr (same : Arguments.render spec = Arguments.render spec')
    (given : spec ≠ .null) (given' : spec' ≠ .null) (name : Value) :
    (make name spec).map signature = (make name spec').map signature := by
  have parts (alias? : Option String) :
      (ofParts alias? spec).map signature = (ofParts alias? spec').map signature := by
    rw [ofParts, ofParts, same]
    cases Arguments.render spec' <;> rfl
  by_cases isAlias : IsAlias name
  · cases name with
    | null => exact parts none
    | text a => exact parts (some a)
    | _ => exact absurd isAlias id
  · rw [make_of_not_isAlias' isAlias given, make_of_not_isAlias' isAlias given']

theorem ofParts_typeError_iff (specifies : IsSpecification spec) (alias? : Option String) :
    (∃ e, ofParts alias? spec = .error e ∧ e.name = "TypeError") ↔
      ∃ s, s ≠ "" ∧ spec = .text s := by
  constructor
  · rintro ⟨e, failed, -⟩
    refine (render_cases specifies).resolve_right ?_
    rintro ⟨rendered, done⟩
    rw [ofParts, done] at failed
    cases failed
  · rintro ⟨s, filled, rfl⟩
    refine ⟨.complaint .argumentsGivenAsText, ?_, rfl⟩
    rw [ofParts, render_text filled]
    rfl

/-- A field cannot be built if another value stands for the alias beside a specification, or if the
specification is a text that is not empty. -/
theorem typeError_iff (specifies : IsSpecification (specificationOf name spec)) :
    (∃ e, make name spec = .error e ∧ e.name = "TypeError") ↔
      (¬ IsAlias name ∧ spec ≠ .null) ∨ ∃ s, s ≠ "" ∧ spec = .text s := by
  by_cases isAlias : IsAlias name
  · simp only [isAlias, not_true_eq_false, false_and, false_or]
    cases name with
    | null => exact ofParts_typeError_iff specifies none
    | text a => exact ofParts_typeError_iff specifies (some a)
    | _ => exact absurd isAlias id
  by_cases given : spec = .null
  · subst given
    have own : specificationOf name .null = name := by
      cases name <;> first | rfl | exact absurd trivial isAlias
    rw [own] at specifies
    rw [make_of_not_isAlias isAlias, ofParts_typeError_iff specifies]
    constructor
    · rintro ⟨s, -, rfl⟩
      exact absurd trivial isAlias
    · rintro (⟨-, given⟩ | ⟨s, -, same⟩)
      · exact absurd rfl given
      · cases same
  · rw [make_of_not_isAlias' isAlias given]
    exact ⟨fun _ => .inl ⟨isAlias, given⟩, fun _ => ⟨_, rfl, rfl⟩⟩

/-- All ways to build a field lead to the same one: a specification may be given by itself, an
alias is written in front, names are bound like the entries of a map; and it is known what cannot
be built. -/
theorem ways_agree :
    (∀ spec, ((∀ s, spec ≠ .text s) → make spec .null = make .null spec) ∧
      withArguments spec = make .null spec) ∧
    (∀ a spec, a ≠ "" → aliased (.text a) spec = make (.text a) spec ∧
      make (.text a) spec = (make .null spec).map fun b =>
        { b with alias? := some a, signature := ":" ++ a ++ b.signature }) ∧
    (∀ names : List String, names.Nodup → ∀ spec, IsNames names spec → ∀ name,
      (make name spec).map signature = (make name (.ofPairs
        (Pairs.ofList (names.map fun k => (k, .text bindMark))))).map signature) ∧
    ∀ name spec, IsSpecification (specificationOf name spec) →
      ((∃ e, make name spec = .error e ∧ e.name = "TypeError") ↔
        (¬ IsAlias name ∧ spec ≠ .null) ∨ ∃ s, s ≠ "" ∧ spec = .text s) := by
  refine ⟨fun spec => ⟨fun other => ?_, rfl⟩, fun a spec filled => ⟨rfl, make_alias filled spec⟩,
    fun names distinct spec given name => ?_, fun name spec => typeError_iff⟩
  · cases spec with
    | text s => exact absurd rfl (other s)
    | _ => rfl
  · have keys : ((names.map fun name => (name, Value.text bindMark)).map Prod.fst).Nodup := by
      simpa only [List.map_map, Function.comp_def, List.map_id'] using distinct
    have same : Arguments.render spec =
        Arguments.render (.ofPairs (names.map fun name => (name, .text bindMark))) := by
      rw [render_names given, render_ofPairs, List.map_map]
      rfl
    have filled : spec ≠ .null := by
      rintro rfl
      cases given
    rw [Pairs.ofList_eq_self keys]
    exact signature_congr same filled nofun name

theorem ways_agree_search :
    make (.list [.text "first", .text "term"]) .null =
        make .null (.list [.text "first", .text "term"]) ∧
      (make (.text "me") (.list [.text "first", .text "term"])).map signature =
        .ok ":me(first:$first,term:$term)" ∧
      (make .null (.tuple [.text "first", .text "term"])).map signature =
        (make .null (.ofPairs [("first", .text "$"), ("term", .text "$")])).map signature ∧
      ∃ e, make (.int 5) (.list [.text "first"]) = .error e ∧ e.name = "TypeError" := by
  obtain ⟨alone, named, bound, failing⟩ := ways_agree
  refine ⟨(alone _).1 nofun, ?_, ?_, ?_⟩
  · rw [(named "me" _ (by decide)).2]
    rfl
  · exact bound ["first", "term"] (by decide) _ .tuple .null
  · have names : IsNames ["first"] (.list [.text "first"]) := .list
    exact (failing (.int 5) _ (.names names)).2 (.inl ⟨id, nofun⟩)

end FieldBuilder

end GraphClient
