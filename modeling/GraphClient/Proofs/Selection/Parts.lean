import GraphClient.Proofs.Text
import GraphClient.Selection.Operation

/-!
# The parts of an operation

An operation is written without separators between its name, the declarations of its variables
and its fields. Each part shows where it begins all the same.

* `Operation.Parts.text` writes the parts one after the other, `Parts.read` finds them again.
  `read_text`: they are the same parts, if none holds a character that another begins with.
* `Operation.build_eq`: a schema is written as the text of its parts, wherever in it the
  declarations stand.
* `Operation.read_build`: so its parts are found again in its text.
-/

namespace GraphClient

namespace Recording

theorem run_bind_of_ok {α β : Type} {r : Recording α} {f : α → Recording β} {j j₁ : Journal} {a : α}
    (h : r.run.run j = (.ok a, j₁)) : (r >>= f).run.run j = (f a).run.run j₁ := by
  rw [ExceptT.run_bind, StateT.run_bind, h]
  rfl

/-- A recording in two parts ends well if both of its parts do. -/
theorem run_bind_eq_ok {α β : Type} {r : Recording α} {f : α → Recording β} {j j' : Journal} {b : β}
    (h : (r >>= f).run.run j = (.ok b, j')) :
    ∃ a j₁, r.run.run j = (.ok a, j₁) ∧ (f a).run.run j₁ = (.ok b, j') := by
  rw [ExceptT.run_bind, StateT.run_bind] at h
  rcases eq : r.run.run j with ⟨_ | a, j₁⟩
  · rw [eq] at h
    cases h
  · rw [eq] at h
    exact ⟨a, j₁, rfl, h⟩

theorem run_eq_ok_of_inGenerator {α : Type} {r : Recording α} {j j' : Journal} {a : α}
    (h : r.inGenerator.run.run j = (.ok a, j')) : r.run.run j = (.ok a, j') := by
  rw [run_inGenerator] at h
  rcases eq : r.run.run j with ⟨_ | b, j₁⟩
  · rw [eq] at h
    cases h
  · rw [eq] at h
    exact h

end Recording

namespace Selection

theorem joinEntries_go_cons {combine : Value → Value → Nat → Except Failure String}
    {e : Value × Value} {entries : List (Value × Value)} {f : Value × Value → String}
    (each : ∀ e' ∈ e :: entries, ∀ i, combine e'.1 e'.2 i = .ok (separator i ++ f e')) (i : Nat) :
    joinEntries.go combine i (e :: entries) =
      .ok (separator i ++ ",".intercalate ((e :: entries).map f)) := by
  induction entries generalizing i e with
  | nil =>
    rw [joinEntries.go, each e List.mem_cons_self]
    simp [joinEntries.go, Except.map]
  | cons next entries ih =>
    rw [joinEntries.go, each e List.mem_cons_self]
    simp only
    rw [ih (fun e' mem => each e' (List.mem_cons_of_mem e mem)) (i + 1)]
    simp [separator, Except.map, String.intercalate_cons_cons, String.append_assoc]

/-- Entries that begin with their own separator are joined as texts with commas between them. -/
theorem joinEntries_separated {combine : Value → Value → Nat → Except Failure String}
    {entries : List (Value × Value)} {f : Value × Value → String}
    (each : ∀ e ∈ entries, ∀ i, combine e.1 e.2 i = .ok (separator i ++ f e)) :
    joinEntries combine entries = .ok (",".intercalate (entries.map f)) := by
  cases entries with
  | nil => rfl
  | cons e entries =>
    rw [joinEntries, joinEntries_go_cons each 0, separator, if_neg (Nat.lt_irrefl 0),
      String.empty_append]

end Selection

namespace Operation

/-- The parts of an operation: its name, its variables with their types, and the text of its
fields. -/
structure Parts where
  name : String
  vars : List (String × String)
  fields : String
deriving DecidableEq

namespace Parts

/-- The declaration of a variable. -/
def declaration (d : String × String) : String := "$" ++ d.1 ++ ":" ++ d.2

/-- The parts one after the other, the declarations in brackets. -/
def text (p : Parts) : String :=
  p.name ++ FieldBuilder.inBrackets (",".intercalate (p.vars.map declaration)) ++ p.fields

/-- No part holds a character by which it is told apart from the next one. -/
structure Proper (p : Parts) : Prop where
  name : ∀ c ∈ p.name.toList, c ≠ '(' ∧ c ≠ '\x7b'
  vars : ∀ d ∈ p.vars, ∀ c ∈ d.1.toList, c ≠ ':' ∧ c ≠ ',' ∧ c ≠ ')'
  types : ∀ d ∈ p.vars, ∀ c ∈ d.2.toList, c ≠ ',' ∧ c ≠ ')'
  fields : p.fields = "" ∨ ∃ body, p.fields = "\x7b" ++ body

/-- A character of a name: the declarations and the fields begin with others. -/
def isOfName (c : Char) : Bool := c ≠ '(' && c ≠ '\x7b'

/-- The variable and the type of a declaration. -/
def readDeclaration (chars : List Char) : String × String :=
  let unmarked := chars.drop 1
  (String.ofList (unmarked.takeWhile (· ≠ ':')),
    String.ofList ((unmarked.dropWhile (· ≠ ':')).drop 1))

/-- Finds the parts of an operation in its text. -/
def read (s : String) : Parts :=
  let name := String.ofList (s.toList.takeWhile isOfName)
  match s.toList.dropWhile isOfName with
  | '(' :: rest =>
    ⟨name, ((rest.takeWhile (· ≠ ')')).splitOn ',').map readDeclaration,
      String.ofList ((rest.dropWhile (· ≠ ')')).drop 1)⟩
  | fields => ⟨name, [], String.ofList fields⟩

theorem readDeclaration_declaration {d : String × String} (h : ∀ c ∈ d.1.toList, c ≠ ':') :
    readDeclaration (declaration d).toList = d := by
  obtain ⟨name, type⟩ := d
  have unmarked : (declaration (name, type)).toList.drop 1 =
      name.toList ++ ':' :: type.toList := by simp [declaration]
  have colonFree : ∀ c ∈ name.toList, decide (c ≠ ':') = true := by simpa using h
  obtain ⟨taken, dropped⟩ := Text.span_front (':' :: type.toList) colonFree (by simp)
  rw [readDeclaration, unmarked]
  simp only [taken, dropped, List.drop_one, List.tail_cons, String.ofList_toList]

theorem mem_declaration {d : String × String} {c : Char} (mem : c ∈ (declaration d).toList) :
    c = '$' ∨ c ∈ d.1.toList ∨ c = ':' ∨ c ∈ d.2.toList := by
  simpa [declaration, or_assoc] using mem

/-- The declarations are found between commas. -/
theorem readDeclarations {vars : List (String × String)} (some' : vars ≠ [])
    (names : ∀ d ∈ vars, ∀ c ∈ d.1.toList, c ≠ ':' ∧ c ≠ ',')
    (types : ∀ d ∈ vars, ∀ c ∈ d.2.toList, c ≠ ',') :
    ((",".intercalate (vars.map declaration)).toList.splitOn ',').map readDeclaration =
      vars := by
  have noCommas : ∀ chars ∈ (vars.map declaration).map String.toList, ',' ∉ chars := by
    rw [List.map_map]
    intro chars mem comma
    obtain ⟨d, inside, rfl⟩ := List.mem_map.1 mem
    rcases mem_declaration comma with h | h | h | h
    · exact absurd h (by decide)
    · exact (names d inside _ h).2 rfl
    · exact absurd h (by decide)
    · exact types d inside _ h rfl
  have split : (",".intercalate (vars.map declaration)).toList.splitOn ',' =
      (vars.map declaration).map String.toList := by
    rw [String.toList_intercalate]
    exact List.splitOn_intercalate ',' noCommas (by simpa using some')
  rw [split, List.map_map, List.map_map]
  refine (List.map_congr_left fun d mem => ?_).trans (List.map_id vars)
  exact readDeclaration_declaration fun c inside => (names d mem c inside).1

theorem declarations_ne_empty {vars : List (String × String)} (some' : vars ≠ []) :
    (",".intercalate (vars.map declaration)).isEmpty = false := by
  cases vars with
  | nil => exact absurd rfl some'
  | cons d rest =>
    cases rest <;> simp [declaration, String.intercalate_cons_cons]

theorem not_closing_of_mem {vars : List (String × String)} {c : Char}
    (names : ∀ d ∈ vars, ∀ c ∈ d.1.toList, c ≠ ')')
    (types : ∀ d ∈ vars, ∀ c ∈ d.2.toList, c ≠ ')')
    (mem : c ∈ (",".intercalate (vars.map declaration)).toList) : c ≠ ')' := by
  induction vars with
  | nil => simp at mem
  | cons d rest ih =>
    have ofDeclaration : c ∈ (declaration d).toList → c ≠ ')' := by
      intro inside
      rcases mem_declaration inside with rfl | h | rfl | h
      · decide
      · exact names d List.mem_cons_self c h
      · decide
      · exact types d List.mem_cons_self c h
    cases rest with
    | nil => exact ofDeclaration (by simpa using mem)
    | cons next rest =>
      rw [List.map_cons, List.map_cons, String.intercalate_cons_cons, ← List.map_cons] at mem
      simp only [String.toList_append, List.mem_append] at mem
      rcases mem with (h | comma) | h
      · exact ofDeclaration h
      · obtain rfl : c = ',' := by simpa using comma
        decide
      · exact ih (fun d mem => names d (List.mem_cons_of_mem _ mem))
          (fun d mem => types d (List.mem_cons_of_mem _ mem)) h

/-- The first declaration follows the name. -/
theorem text_of_head? {p : Parts} {d : String × String} (first : d ∈ p.vars.head?) :
    ∃ rest, p.text = p.name ++ "($" ++ d.1 ++ rest := by
  obtain ⟨name, vars, fields⟩ := p
  cases vars with
  | nil => cases first
  | cons e rest =>
    obtain rfl := Option.some.inj first
    have bracketed : (",".intercalate ((e :: rest).map declaration)).isEmpty = false :=
      declarations_ne_empty (List.cons_ne_nil e rest)
    obtain ⟨after, eq⟩ : ∃ after, ",".intercalate ((e :: rest).map declaration) =
        "$" ++ e.1 ++ after := by
      cases rest with
      | nil => exact ⟨":" ++ e.2, by simp [declaration, String.append_assoc]⟩
      | cons next rest =>
        exact ⟨":" ++ e.2 ++ "," ++ ",".intercalate ((next :: rest).map declaration), by
          simp only [List.map_cons, String.intercalate_cons_cons, declaration,
            String.append_assoc]⟩
    refine ⟨after ++ ")" ++ fields, ?_⟩
    rw [text, FieldBuilder.inBrackets, bracketed, eq]
    simp only [Bool.false_eq_true, if_false, String.append_assoc]
    rfl

/-- The parts of an operation are found in its text. -/
theorem read_text {p : Parts} (h : p.Proper) : read p.text = p := by
  obtain ⟨name, vars, fields⟩ := p
  have ofName : ∀ c ∈ name.toList, isOfName c = true := fun c mem => by
    simpa [isOfName] using h.name c mem
  by_cases some' : vars = []
  · subst some'
    have chars : (text ⟨name, [], fields⟩).toList = name.toList ++ fields.toList := by
      simp [text, FieldBuilder.inBrackets]
    obtain ⟨taken, dropped⟩ := Text.span_front fields.toList ofName fun c mem => by
      rcases h.fields with rfl | ⟨body, rfl⟩
      · simp at mem
      · obtain rfl : '{' = c := by simpa using mem
        rfl
    rw [read, chars, taken, dropped]
    have noBracket : ∀ rest, fields.toList ≠ '(' :: rest := by
      rintro rest eq
      rcases h.fields with rfl | ⟨body, rfl⟩ <;> simp at eq
    split
    · exact absurd ‹_› (noBracket _)
    · simp only [String.ofList_toList]
  · let declared := ",".intercalate (vars.map declaration)
    have chars : (text ⟨name, vars, fields⟩).toList =
        name.toList ++ '(' :: (declared.toList ++ ')' :: fields.toList) := by
      simp [text, FieldBuilder.inBrackets, declarations_ne_empty some', declared]
    obtain ⟨taken, dropped⟩ :=
      Text.span_front ('(' :: (declared.toList ++ ')' :: fields.toList)) ofName
      (by simp [isOfName])
    have unclosed : ∀ c ∈ declared.toList, decide (c ≠ ')') = true := fun c mem => by
      simpa using not_closing_of_mem (fun d mem c inside => (h.vars d mem c inside).2.2)
        (fun d mem c inside => (h.types d mem c inside).2) mem
    obtain ⟨inside, after⟩ := Text.span_front (')' :: fields.toList) unclosed (by simp)
    rw [read, chars, taken, dropped]
    simp only [inside, after, String.ofList_toList, List.drop_one, List.tail_cons]
    rw [readDeclarations some' (fun d mem c inside => ⟨(h.vars d mem c inside).1,
      (h.vars d mem c inside).2.1⟩) fun d mem c inside => (h.types d mem c inside).1]

end Parts

/-! ## Schemas -/

/-- The entries of the fields of a schema. -/
def fieldEntries (fields : List (String × Value)) : List (Value × Value) :=
  fields.map fun (k, v) => (.text k, v)

/-- A schema holds some fields in order, and the declarations of its variables at some place among
them. Without variables the declarations may be missing. -/
inductive Declares (vars : List (String × String)) (fields : List (String × Value)) :
    List (Value × Value) → Prop
  | among (front back) : fields = front ++ back →
    Declares vars fields (fieldEntries front ++
      (.text variablesKey, .ofPairs (vars.map fun (n, t) => (n, .text t))) ::
        fieldEntries back)
  | missing : vars = [] → Declares vars fields (fieldEntries fields)

/-- The variables as they are declared: without the marks that their names begin with. -/
def unmarked (vars : List (String × String)) : List (String × String) :=
  vars.map fun (n, t) => (Variables.withoutMarks n, t)

/-- The entries of a table of variables. -/
def variableEntries (vars : List (String × String)) : List (Value × Value) :=
  vars.map fun (n, t) => (.text n, .text t)

/-- Texts are the same key if they are the same text. -/
theorem text_beq_text (k k' : String) : (Value.text k == Value.text k') = (k == k') := rfl

theorem lookup?_cons (key k : String) (v : Value) (entries : List (Value × Value)) :
    Value.lookup? key ((.text k, v) :: entries) =
      if k == key then some v else Value.lookup? key entries := rfl

theorem lookup?_fieldEntries_append {fields : List (String × Value)} (entries : List (Value × Value))
    (other : ∀ f ∈ fields, f.1 ≠ variablesKey) :
    Value.lookup? variablesKey (fieldEntries fields ++ entries) =
      Value.lookup? variablesKey entries := by
  induction fields with
  | nil => rfl
  | cons f fields ih =>
    have differs : (f.1 == variablesKey) = false := beq_false_of_ne (other f List.mem_cons_self)
    calc Value.lookup? variablesKey (fieldEntries (f :: fields) ++ entries)
        = Value.lookup? variablesKey (fieldEntries fields ++ entries) := by
          rw [fieldEntries, List.map_cons, List.cons_append, lookup?_cons, differs,
            if_neg Bool.false_ne_true]
          rfl
      _ = Value.lookup? variablesKey entries :=
        ih fun f mem => other f (List.mem_cons_of_mem _ mem)

theorem selected_fieldEntries {fields : List (String × Value)}
    (other : ∀ f ∈ fields, f.1 ≠ variablesKey) :
    selected (fieldEntries fields) = fieldEntries fields := by
  refine List.filter_eq_self.2 fun e mem => ?_
  obtain ⟨f, inside, rfl⟩ := List.mem_map.1 mem
  have differs : isVariablesKey (.text f.1) = false := by
    rw [isVariablesKey, text_beq_text]
    exact beq_false_of_ne (other f inside).symm
  simp only [differs, Bool.not_false]

section

variable {vars : List (String × String)} {fields : List (String × Value)}
  {schema : List (Value × Value)}

/-- The fields of a schema are what is left without its declarations. -/
theorem Declares.selected_eq (h : Declares vars fields schema)
    (other : ∀ f ∈ fields, f.1 ≠ variablesKey) : selected schema = fieldEntries fields := by
  cases h with
  | missing => exact selected_fieldEntries other
  | among front back eq =>
    subst eq
    have before := selected_fieldEntries fun f mem => other f (List.mem_append_left back mem)
    have after := selected_fieldEntries fun f mem => other f (List.mem_append_right front mem)
    have key : isVariablesKey (.text variablesKey) = true := by
      rw [isVariablesKey, text_beq_text, beq_self_eq_true]
    rw [selected, List.filter_append, List.filter_cons_of_neg (by simp [key])]
    rw [selected] at before after
    rw [before, after, fieldEntries, fieldEntries, fieldEntries, List.map_append]

/-- The table of variables of a schema. -/
theorem Declares.declared_eq (h : Declares vars fields schema)
    (other : ∀ f ∈ fields, f.1 ≠ variablesKey) :
    declared schema = .ok (variableEntries vars) := by
  cases h with
  | missing none' =>
    have found : Value.lookup? variablesKey (fieldEntries fields) = none := by
      have found := lookup?_fieldEntries_append [] other
      rwa [List.append_nil] at found
    rw [declared, found, none']
    rfl
  | among front back eq =>
    subst eq
    have found : Value.lookup? variablesKey (fieldEntries front ++
        (.text variablesKey, .ofPairs (vars.map fun (n, t) => (n, .text t))) ::
          fieldEntries back) = some (.ofPairs (vars.map fun (n, t) => (n, .text t))) := by
      rw [lookup?_fieldEntries_append _ fun f mem => other f (List.mem_append_left back mem),
        lookup?_cons, beq_self_eq_true, if_pos rfl]
    rw [declared, found]
    cases vars with
    | nil => rfl
    | cons d rest =>
      simp [Value.ofPairs, Value.decideTruth, Value.truth, Truth.ofBool, Value.toTable,
        variableEntries, Function.comp_def, bind, Except.bind]

end

theorem renderTable_variableEntries (vars : List (String × String)) :
    Variables.renderTable (variableEntries vars) =
      .ok (FieldBuilder.inBrackets (",".intercalate ((unmarked vars).map Parts.declaration))) := by
  have each : ∀ e ∈ variableEntries vars, ∀ i, Variables.declare e.1 e.2 i =
      .ok (Selection.separator i ++
        Parts.declaration (Variables.withoutMarks e.1.display, e.2.display)) := by
    intro e mem i
    obtain ⟨d, inside, rfl⟩ := List.mem_map.1 mem
    simp only [Variables.declare, Value.display, Parts.declaration, String.append_assoc]
  rw [Variables.renderTable, Selection.joinEntries_separated each]
  simp only [Except.map, variableEntries, unmarked, List.map_map]
  rfl

theorem nameText_ofOption (name : Option String) :
    nameText (.ofOption name) = .ok (name.getD "") := by
  cases name with
  | none => rfl
  | some s =>
    by_cases empty : s = ""
    · subst empty
      rfl
    · simp [nameText, Value.ofOption, Value.decideTruth, Value.truth, Truth.ofBool, empty,
        Value.display, bind, Except.bind, pure, Except.pure]

/-- A schema is written as the text of its parts, if its fields can be written at all. -/
theorem build_eq {vars : List (String × String)} {fields : List (String × Value)}
    {schema : List (Value × Value)} (h : Declares vars fields schema)
    (other : ∀ f ∈ fields, f.1 ≠ variablesKey) (name : Option String) :
    build (.map schema) (.ofOption name) = do
      let s ← Selection.render (.ofPairs fields)
      return Parts.text ⟨name.getD "", unmarked vars, s⟩ := by
  have ofExcept_bind {α β : Type} (a : α) (f : α → Recording β) :
      (Recording.ofExcept (.ok a) >>= f) = f a := rfl
  have table : Value.ofPairs fields = .map (fieldEntries fields) := rfl
  unfold build
  simp only
  rw [h.declared_eq other, ofExcept_bind, nameText_ofOption, ofExcept_bind,
    renderTable_variableEntries, ofExcept_bind, h.selected_eq other, table]
  rfl

/-- The entries of a map begin with the first key. -/
theorem renderEntries_cons_eq_ok {k : String} {v : Value} {entries : List (Value × Value)}
    {j j' : Journal} {s : String}
    (h : (Selection.renderEntries 0 ((.text k, v) :: entries)).run.run j = (.ok s, j')) :
    ∃ below, s = k ++ below := by
  rw [Selection.renderEntries] at h
  obtain ⟨first, j₁, -, h⟩ := Recording.run_bind_eq_ok h
  obtain ⟨rest, j₂, -, h⟩ := Recording.run_bind_eq_ok h
  obtain ⟨same, -⟩ := Prod.mk.inj h
  refine ⟨first ++ rest, ?_⟩
  rw [← Except.ok.inj same]
  simp [Selection.separator, Value.display, String.append_assoc]

/-- The text of some fields is empty or stands between braces, and begins with the first key. -/
theorem render_fields {fields : List (String × Value)} {j j' : Journal} {s : String}
    (h : (Selection.render (.ofPairs fields)).run.run j = (.ok s, j')) :
    (s = "" ∨ ∃ body, s = "\x7b" ++ body) ∧
      ∀ f ∈ fields.head?, f.1 ≠ "" → ∃ below, s = "\x7b" ++ f.1 ++ below := by
  rw [Value.ofPairs, Selection.render] at h
  obtain ⟨body, j₁, rendered, h⟩ := Recording.run_bind_eq_ok h
  replace rendered := Recording.run_eq_ok_of_inGenerator rendered
  obtain ⟨same, -⟩ := Prod.mk.inj h
  obtain rfl := Except.ok.inj same
  refine ⟨?_, fun f mem some' => ?_⟩
  · split
    · exact .inl rfl
    · exact .inr ⟨_, String.append_assoc ..⟩
  · cases fields with
    | nil => cases mem
    | cons g rest =>
      obtain rfl := Option.some.inj mem
      obtain ⟨below, rfl⟩ := renderEntries_cons_eq_ok rendered
      have nonempty : (g.1 ++ below).isEmpty = false := by simp [some']
      rw [nonempty, if_neg Bool.false_ne_true]
      exact ⟨below ++ "\x7d", by simp only [Selection.braces, String.append_assoc]⟩

/-- The parts of a schema are proper. -/
theorem proper_parts {name : Option String} {vars : List (String × String)} {s : String}
    (named : ∀ n ∈ name, ∀ c ∈ n.toList, c ≠ '(' ∧ c ≠ '\x7b')
    (names : ∀ d ∈ vars, ∀ c ∈ d.1.toList, c ≠ ':' ∧ c ≠ ',' ∧ c ≠ ')')
    (types : ∀ d ∈ vars, ∀ c ∈ d.2.toList, c ≠ ',' ∧ c ≠ ')')
    (fields : s = "" ∨ ∃ body, s = "\x7b" ++ body) :
    Parts.Proper ⟨name.getD "", unmarked vars, s⟩ where
  name c mem := by
    cases name with
    | none => simp at mem
    | some n => exact named n rfl c mem
  vars d mem c inside := by
    obtain ⟨d, declared, rfl⟩ := List.mem_map.1 mem
    simp only [Variables.withoutMarks, String.toList_ofList] at inside
    exact names d declared c (List.dropWhile_subset _ inside)
  types d mem := by
    obtain ⟨d, declared, rfl⟩ := List.mem_map.1 mem
    exact types d declared
  fields := fields

/-- An operation is split back into its name, its variables and the text of its fields, and in one
way only. What it is built as depends neither on the place of the declarations in the schema nor
on the marks before the names of variables; no comma stands before the first declaration or the
first field. -/
theorem read_build (name : Option String) (vars : List (String × String))
    (fields : List (String × Value)) (schema : List (Value × Value))
    (named : ∀ n ∈ name, ∀ c ∈ n.toList, c ≠ '(' ∧ c ≠ '\x7b')
    (names : ∀ d ∈ vars, ∀ c ∈ d.1.toList, c ≠ ':' ∧ c ≠ ',' ∧ c ≠ ')')
    (types : ∀ d ∈ vars, ∀ c ∈ d.2.toList, c ≠ ',' ∧ c ≠ ')')
    (keys : ∀ f ∈ fields, f.1 ≠ "" ∧ f.1 ≠ variablesKey)
    (declares : Declares vars fields schema) :
    (build (.map schema) (.ofOption name) = do
      let s ← Selection.render (.ofPairs fields)
      return Parts.text ⟨name.getD "", unmarked vars, s⟩) ∧
    (∀ j s j', (Selection.render (.ofPairs fields)).run.run j = (.ok s, j') →
      let parts : Parts := ⟨name.getD "", unmarked vars, s⟩
      Parts.read parts.text = parts ∧ (∀ p : Parts, p.Proper → p.text = parts.text → p = parts) ∧
      (∀ d ∈ (unmarked vars).head?, ∃ rest, parts.text = parts.name ++ "($" ++ d.1 ++ rest) ∧
      ∀ f ∈ fields.head?, ∃ rest, s = "\x7b" ++ f.1 ++ rest) ∧
    ∀ variables' schema', Declares variables' fields schema' →
      unmarked variables' = unmarked vars →
      build (.map schema') (.ofOption name) = build (.map schema) (.ofOption name) := by
  have other : ∀ f ∈ fields, f.1 ≠ variablesKey := fun f mem => (keys f mem).2
  have built := build_eq declares other name
  refine ⟨built, fun j s j' rendered => ?_, fun variables' schema' declares' same => ?_⟩
  · obtain ⟨brace, first⟩ := render_fields rendered
    have found := Parts.read_text (proper_parts named names types brace)
    refine ⟨found, fun p proper same => ?_, fun d mem => ?_, fun f mem => ?_⟩
    · rw [← Parts.read_text proper, same, found]
    · exact Parts.text_of_head? mem
    · exact first f mem (keys f (List.mem_of_mem_head? mem)).1
  · rw [built, build_eq declares' other name, same]

/-- A schema whose declarations stand between its fields. -/
def sampleSchema : List (Value × Value) :=
  [(.text "user(id:$id)", .list [.text "name"]),
   (.text "$", .map [(.text "$$id", .text "ID!"), (.text "first", .text "Int=10")]),
   (.text "me", .text "")]

theorem read_build_sampleSchema :
    Declares [("$$id", "ID!"), ("first", "Int=10")]
      [("user(id:$id)", .list [.text "name"]), ("me", .text "")] sampleSchema ∧
    ∃ text j', (build (.map sampleSchema) (.text "GetUser")).run.run .empty = (.ok text, j') ∧
      Parts.read text =
        ⟨"GetUser", [("id", "ID!"), ("first", "Int=10")], "\x7buser(id:$id)\x7bname\x7d,me\x7d"⟩ := by
  have declares : Declares [("$$id", "ID!"), ("first", "Int=10")]
      [("user(id:$id)", .list [.text "name"]), ("me", .text "")] sampleSchema :=
    .among [("user(id:$id)", .list [.text "name"])] [("me", .text "")] rfl
  obtain ⟨built, found, -⟩ := read_build (some "GetUser") [("$$id", "ID!"), ("first", "Int=10")]
    [("user(id:$id)", .list [.text "name"]), ("me", .text "")] sampleSchema
    (by simp) (by simp) (by simp) (by simp [variablesKey]) declares
  have rendered : (Selection.render (.ofPairs [("user(id:$id)", .list [.text "name"]),
      ("me", .text "")])).run.run .empty =
        (.ok "\x7buser(id:$id)\x7bname\x7d,me\x7d", .empty) := by rfl
  have names : unmarked [("$$id", "ID!"), ("first", "Int=10")] =
      [("id", "ID!"), ("first", "Int=10")] := by rfl
  refine ⟨declares, _, .empty, ?_, (found _ _ _ rendered).1.trans ?_⟩
  · exact (congrArg (fun r => r.run.run .empty) built).trans (Recording.run_bind_of_ok rendered)
  · rw [names]
    rfl

end Operation

end GraphClient
