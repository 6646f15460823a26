import GraphClient.Middleware.Script
import GraphClient.Proofs.Pairs

/-!
# Middleware that edit the request and reshape the result

* `Edit`: setting or dropping a header, another address, query or variables. `Edit.header_all` and
  its siblings: of the edits of one item the last one counts.
* `Reshapes`: middleware that makes edits, runs the rest of the chain once, and turns its value into
  something else. The stock middleware for headers is so, and scripts of such steps
  (`Stock.reshapes_header`, `Script.reshapes`).
-/

namespace GraphClient

/-- An edit of a request. -/
inductive Edit where
  | setHeader (name : String) (v : Value)
  | dropHeader (name : String)
  | url (v : Value)
  | query (v : Value)
  | vars (v : Value)

namespace Edit

/-- Makes an edit. -/
def apply : Edit → Request → Request
  | setHeader name v, r => { r with headers := Pairs.set name v r.headers }
  | dropHeader name, r => { r with headers := Pairs.erase name r.headers }
  | url v, r => { r with url := v }
  | query v, r => { r with query := v }
  | vars v, r => { r with vars := v }

/-- Makes several edits, in order. -/
def all (edits : List Edit) (r : Request) : Request := edits.foldl (fun r edit => edit.apply r) r

/-- What an edit leaves in a header, if it is one of that header: a value, or none. -/
def header? (name : String) : Edit → Option (Option Value)
  | setHeader name' v => if name' = name then some (some v) else none
  | dropHeader name' => if name' = name then some none else none
  | _ => none

def url? : Edit → Option Value
  | url v => some v
  | _ => none

def query? : Edit → Option Value
  | query v => some v
  | _ => none

def vars? : Edit → Option Value
  | vars v => some v
  | _ => none

/-- The last edit of an item. -/
def last? {α : Type} (item : Edit → Option α) (edits : List Edit) : Option α :=
  edits.reverse.findSome? item

variable {edits : List Edit} {r : Request}

theorem all_append (edits more : List Edit) (r : Request) :
    all (edits ++ more) r = all more (all edits r) :=
  List.foldl_append

theorem all_concat (edits : List Edit) (edit : Edit) (r : Request) :
    all (edits ++ [edit]) r = edit.apply (all edits r) :=
  List.foldl_concat ..

theorem last?_concat {α : Type} (item : Edit → Option α) (edits : List Edit) (edit : Edit) :
    last? item (edits ++ [edit]) = (item edit).or (last? item edits) := by
  rw [last?, List.reverse_concat, List.findSome?_cons]
  cases item edit <;> rfl

/-- An item that every edit leaves alone but those of its own is what the last of these made it. -/
theorem item_all {α : Type} {item : Edit → Option α} {shown : Request → α}
    (edited : ∀ edit r, shown (edit.apply r) = (item edit).getD (shown r)) (edits : List Edit)
    (r : Request) : shown (all edits r) = (last? item edits).getD (shown r) := by
  induction edits using List.reverseRecOn with
  | nil => rfl
  | append_singleton edits edit ih =>
    rw [all_concat, edited, ih, last?_concat]
    cases item edit <;> rfl

theorem url_all (edits : List Edit) (r : Request) :
    (all edits r).url = (last? url? edits).getD r.url :=
  item_all (fun edit _ => by cases edit <;> rfl) edits r

theorem query_all (edits : List Edit) (r : Request) :
    (all edits r).query = (last? query? edits).getD r.query :=
  item_all (fun edit _ => by cases edit <;> rfl) edits r

theorem vars_all (edits : List Edit) (r : Request) :
    (all edits r).vars = (last? vars? edits).getD r.vars :=
  item_all (fun edit _ => by cases edit <;> rfl) edits r

/-- Edits repeat no header. -/
theorem nodup_apply (edit : Edit) (distinct : (r.headers.map Prod.fst).Nodup) :
    ((edit.apply r).headers.map Prod.fst).Nodup := by
  cases edit with
  | setHeader name v => exact Pairs.nodup_set distinct v
  | dropHeader name => exact ((Pairs.erase_sublist name r.headers).map Prod.fst).nodup distinct
  | _ => exact distinct

theorem get?_apply (edit : Edit) (distinct : (r.headers.map Prod.fst).Nodup) (name : String) :
    Pairs.get? name (edit.apply r).headers =
      (header? name edit).getD (Pairs.get? name r.headers) := by
  cases edit with
  | setHeader name' v =>
    rw [apply, header?]
    split
    · rename_i same
      rw [same]
      exact Pairs.get?_set_self name v r.headers
    · rename_i other
      exact Pairs.get?_set_of_ne (Ne.symm other) v r.headers
  | dropHeader name' =>
    rw [apply, header?]
    split
    · rename_i same
      rw [same]
      exact Pairs.get?_erase_self distinct
    · rename_i other
      exact Pairs.get?_erase_of_ne (Ne.symm other) r.headers
  | _ => rfl

theorem header_all (distinct : (r.headers.map Prod.fst).Nodup) (name : String) (edits : List Edit) :
    Pairs.get? name (all edits r).headers =
      (last? (header? name) edits).getD (Pairs.get? name r.headers) := by
  have both : ((all edits r).headers.map Prod.fst).Nodup ∧
      Pairs.get? name (all edits r).headers =
        (last? (header? name) edits).getD (Pairs.get? name r.headers) := by
    induction edits using List.reverseRecOn with
    | nil => exact ⟨distinct, rfl⟩
    | append_singleton edits edit ih =>
      rw [all_concat, get?_apply edit ih.1, ih.2, last?_concat]
      refine ⟨nodup_apply edit ih.1, ?_⟩
      cases header? name edit <;> rfl
  exact both.2

end Edit

/-! ## Middleware -/

/-- What a middleware adds to a run: edits of the request, and what it makes of the value of the
rest of the chain. -/
structure Link where
  edits : List Edit
  result : Value → Outcome

namespace Link

/-- What several middleware make of a value, the last one first. -/
def results (links : List Link) (v : Value) : Outcome :=
  links.foldr (fun link outcome => outcome.bind link.result) (.ok v)

/-- The edits of several middleware, in their order. -/
def allEdits (links : List Link) : List Edit := links.flatMap Link.edits

end Link

variable {M : Type}

/-- A routine that makes edits, runs the rest of the chain once and makes something of its value. -/
inductive Reshaping (next : Flow M) (result : Value → Outcome) : List Edit → Flow M → Prop where
  | next : Reshaping next result [] (next.onValue fun v => .done (result v))
  | edit {later : List Edit} {r : Flow M} (edits : List Edit)
      (rest : Reshaping next result later r) :
      Reshaping next result (edits ++ later) (.perform (.edit (Edit.all edits)) fun _ => r)

/-- Middleware that does so, whatever the rest of the chain is. -/
def Reshapes (behaviour : M → Flow M → Flow M) (m : M) (link : Link) : Prop :=
  ∀ next, Reshaping next link.result link.edits (behaviour m next)

theorem Routine.onValue_ret {E : Effects} (r : Routine E) : r.onValue .ret = r := by
  refine (congrArg r.andThen (funext fun outcome => ?_)).trans (Routine.andThen_done r)
  cases outcome <;> rfl

theorem Reshaping.unchanged (next : Flow M) : Reshaping next .ok [] next := by
  have run : Reshaping next .ok [] (next.onValue fun v => .done (.ok v)) := .next
  rwa [show next.onValue (fun v => .done (.ok v)) = next from Routine.onValue_ret next] at run

/-- The edits that set headers. -/
def Edit.headers (headers : Headers) : List Edit :=
  headers.map fun header => .setHeader header.1 header.2

theorem Edit.all_headers (headers : Headers) (r : Request) :
    Edit.all (Edit.headers headers) r = { r with headers := Pairs.merge r.headers headers } := by
  induction headers generalizing r with
  | nil => rfl
  | cons header headers ih => exact ih _

/-- The stock middleware for headers sets them and passes the value on. -/
theorem Stock.reshapes_header (headers : Headers) :
    Reshapes Middleware.behaviour (.header headers) ⟨Edit.headers headers, .ok⟩ := by
  intro next
  have merged := funext (Edit.all_headers headers)
  have run := Reshaping.edit (Edit.headers headers) (Reshaping.unchanged next)
  rw [List.append_nil, merged] at run
  exact run

namespace Script

/-- The step that makes an edit. -/
def stepOf : Edit → Step
  | .setHeader name v => .header name v
  | .dropHeader name => .dropHeader name
  | .url v => .url v
  | .query v => .query v
  | .vars v => .vars v

/-- A step that makes something of a value. -/
def Shapes : Step → Prop
  | .wrap _ | .pick _ | .result _ | .drop => True
  | _ => False

/-- What steps make of a value. -/
def shape : List Step → Value → Value
  | [], v => v
  | .wrap key :: steps, v => shape steps (.ofPairs [(key, v)])
  | .pick key :: steps, v => shape steps (pick key v)
  | .result v :: _, _ => v
  | _ :: steps, v => shape steps v

theorem run_shaping {name : String} {next : Flow Middleware} {steps : List Step}
    (shaping : ∀ step ∈ steps, Shapes step) (v : Value) :
    run name true next steps v = .done (.ok (shape steps v)) := by
  induction steps generalizing v with
  | nil => rfl
  | cons step steps ih =>
    obtain ⟨here, later⟩ := List.forall_mem_cons.1 shaping
    cases step with
    | wrap | pick | «drop» => exact ih later _
    | result => rfl
    | _ => exact here.elim

/-- A script of edits, the rest of the chain and steps that make something of its value. -/
theorem reshapes (name : String) (edits : List Edit) {steps : List Step}
    (shaping : ∀ step ∈ steps, Shapes step) :
    Reshapes Middleware.behaviour (.script name true (edits.map stepOf ++ .next :: steps))
      ⟨edits, fun v => .ok (shape steps v)⟩ := by
  intro next
  show Reshaping next _ edits (run name true next (edits.map stepOf ++ .next :: steps) .null)
  induction edits with
  | nil =>
    have last : run name true next (.next :: steps) .null =
        next.onValue fun v => .done (.ok (shape steps v)) :=
      congrArg next.onValue (funext (run_shaping shaping))
    exact last ▸ .next
  | cons edit edits ih =>
    have one : Reshaping next _ ([edit] ++ edits) _ := .edit [edit] ih
    cases edit <;> exact one

end Script

end GraphClient
