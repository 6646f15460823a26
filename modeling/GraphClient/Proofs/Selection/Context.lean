import Mathlib.Data.List.Forall2
import GraphClient.Proofs.Selection.Rendering

/-!
# Parts of selections in place of their texts

* `Selection.Alike`: recordings that come to the same wherever they start with the same counts of
  stepped values. What was noted before is not seen (`Alike.note`).
* `Selection.Context`: a selection with a hole. Parts that are rendered alike can stand in it for
  one another (`RenderAlike.fill`).
* `Selection.Steady`: a selection that gives the same text whenever it is rendered (`Steady.alike`).
* `Selection.standsFor_text`: so a steady part and its text can stand for one another, anywhere.
-/

namespace GraphClient.Selection

/-- What rendering a selection comes to as things stand. -/
def rendered (j : Journal) (v : Value) : Except Thrown String := ((render v).run.run j).1

/-- Two recordings come to the same and count the same, if they start with the same counts. -/
def Alike {α : Type} (r r' : Recording α) : Prop :=
  ∀ j k : Journal, j.counts = k.counts →
    (r.run.run j).1 = (r'.run.run k).1 ∧ (r.run.run j).2.counts = (r'.run.run k).2.counts

namespace Alike

variable {α β : Type} {r r' r'' : Recording α}

theorem symm (alike : Alike r r') : Alike r' r := fun j k same =>
  ⟨(alike k j same.symm).1.symm, (alike k j same.symm).2.symm⟩

theorem trans (first : Alike r r') (second : Alike r' r'') : Alike r r'' := fun j k same =>
  ⟨(first j j rfl).1.trans (second j k same).1, (first j j rfl).2.trans (second j k same).2⟩

theorem pure (a : α) : Alike (Pure.pure a) (Pure.pure a) := fun _ _ same => ⟨rfl, same⟩

theorem throw (e : Thrown) : Alike (throw e : Recording α) (throw e) :=
  fun _ _ same => ⟨rfl, same⟩

/-- A note is not seen. -/
theorem note (note : Journal → Journal) (keeps : ∀ j, (note j).counts = j.counts) :
    Alike (modify note : Recording Unit) (Pure.pure ()) :=
  fun j _ same => ⟨rfl, (keeps j).trans same⟩

theorem countUp (slot : Nat) : Alike (Recording.countUp slot) (Recording.countUp slot) := by
  intro j k same
  have count : j.count slot = k.count slot := by rw [Journal.count, Journal.count, same]
  refine ⟨congrArg Except.ok count, ?_⟩
  show Pairs.set slot (j.count slot + 1) j.counts = Pairs.set slot (k.count slot + 1) k.counts
  rw [count, same]

theorem bind {f f' : α → Recording β} (first : Alike r r')
    (later : ∀ a, Alike (f a) (f' a)) : Alike (r >>= f) (r' >>= f') := by
  intro j k same
  obtain ⟨result, counts⟩ := first j k same
  rcases run : r.run.run j with ⟨e | a, j₁⟩ <;> rcases run' : r'.run.run k with ⟨e' | a', k₁⟩ <;>
    rw [run, run'] at result counts
  · rw [Recording.run_bind_of_error run, Recording.run_bind_of_error run', Except.error.inj result]
    exact ⟨rfl, counts⟩
  · cases result
  · cases result
  · rw [Recording.run_bind_of_ok run, Recording.run_bind_of_ok run', ← Except.ok.inj result]
    exact later a j₁ k₁ counts

theorem inGenerator (alike : Alike r r') : Alike r.inGenerator r'.inGenerator := by
  intro j k same
  obtain ⟨result, counts⟩ := alike j k same
  rw [Recording.run_inGenerator, Recording.run_inGenerator, result]
  exact ⟨rfl, counts⟩

end Alike

/-! ## Selections that are rendered alike -/

/-- Two selections that are rendered alike. -/
def RenderAlike (v w : Value) : Prop := Alike (render v) (render w)

namespace RenderAlike

/-- Groups whose members are rendered alike, one by one. -/
theorem items {vs ws : List Value} (each : List.Forall₂ RenderAlike vs ws) :
    Alike (renderItems vs) (renderItems ws) := by
  induction each with
  | nil => exact .pure []
  | cons first _ later =>
    rw [renderItems, renderItems]
    exact first.bind fun s => later.bind fun rest => .pure (s :: rest)

theorem list {vs ws : List Value} (each : List.Forall₂ RenderAlike vs ws) :
    RenderAlike (.list vs) (.list ws) := by
  rw [RenderAlike, render, render]
  exact (items each).inGenerator.bind fun _ => .pure _

theorem tuple {vs ws : List Value} (each : List.Forall₂ RenderAlike vs ws) :
    RenderAlike (.tuple vs) (.tuple ws) := by
  rw [RenderAlike, render, render]
  exact (items each).inGenerator.bind fun _ => .pure _

/-- Entries with the same keys, and below them what is rendered alike. -/
theorem entries {es fs : List (Value × Value)}
    (each : List.Forall₂ (fun e f => e.1 = f.1 ∧ RenderAlike e.2 f.2) es fs) (i : Nat) :
    Alike (renderEntries i es) (renderEntries i fs) := by
  induction each generalizing i with
  | nil => exact .pure ""
  | cons first _ later =>
    obtain ⟨key, below⟩ := first
    rw [renderEntries, renderEntries, key]
    exact below.bind fun s => (later (i + 1)).bind fun rest => .pure _

theorem map {es fs : List (Value × Value)}
    (each : List.Forall₂ (fun e f => e.1 = f.1 ∧ RenderAlike e.2 f.2) es fs) :
    RenderAlike (.map es) (.map fs) := by
  rw [RenderAlike, render, render]
  exact (entries each 0).inGenerator.bind fun _ => .pure _

theorem traceLabel (label : Option String) : Alike (traceLabel label) (Pure.pure ()) := by
  cases label with
  | none => exact .pure ()
  | some label => exact .note (.addTrace ("thunk:" ++ label)) fun _ => rfl

/-- A computed value is rendered like what it gives. -/
theorem deferred {v w : Value} (label : Option String) (below : RenderAlike v w) :
    RenderAlike (.deferred label v) w := by
  rw [RenderAlike, render]
  exact (traceLabel label).bind fun _ => below

theorem stepped {vs ws : List Value} (slot : Nat)
    (each : ∀ n, RenderAlike (resultAt n vs) (resultAt n ws)) :
    RenderAlike (.stepped slot vs) (.stepped slot ws) := by
  rw [RenderAlike, render_stepped, render_stepped]
  exact (Alike.countUp slot).bind each

/-- Results that are rendered alike, one by one, are so whichever is due. -/
theorem resultAt {vs ws : List Value} (null : RenderAlike .null .null)
    (each : List.Forall₂ RenderAlike vs ws) (n : Nat) :
    RenderAlike (resultAt n vs) (resultAt n ws) := by
  induction each generalizing n with
  | nil => cases n <;> exact null
  | cons first later ih =>
    cases later with
    | nil => cases n <;> exact first
    | cons next rest =>
      cases n with
      | zero => exact first
      | succ n => exact ih n

/-- Values that are no text and hold nothing are rendered like an empty text. -/
theorem of_isOther {v : Value} (other : isOther v = true) : RenderAlike v (.text "") := by
  rw [RenderAlike, render_of_isOther other, render]
  split
  · exact .pure ""
  · exact (Alike.note (.addLog _) fun _ => rfl).bind fun _ => .pure ""

/-- What a selection comes to depends on the counts only. -/
theorem refl (v : Value) : RenderAlike v v := by
  induction v using induction with
  | list items ih => exact .list (List.forall₂_same.mpr ih)
  | tuple items ih => exact .tuple (List.forall₂_same.mpr ih)
  | map entries ih => exact .map (List.forall₂_same.mpr fun e mem => ⟨rfl, ih e mem⟩)
  | deferred label result ih =>
    have once := deferred label ih
    exact once.trans once.symm
  | stepped slot results ih => exact .stepped slot ih
  | failing error =>
    rw [RenderAlike, render]
    exact .throw _
  | field s =>
    rw [RenderAlike, render]
    exact .pure s
  | text s =>
    rw [RenderAlike, render]
    exact .pure s
  | other v other => exact (of_isOther other).trans (of_isOther other).symm

end RenderAlike

/-! ## Contexts -/

/-- A selection with a hole: in a group, below a key, or in what a computed value gives. -/
inductive Context where
  | hole
  | list (front : List Value) (inner : Context) (back : List Value)
  | tuple (front : List Value) (inner : Context) (back : List Value)
  | map (front : List (Value × Value)) (key : Value) (inner : Context)
      (back : List (Value × Value))
  | deferred (label : Option String) (inner : Context)
  | stepped (slot : Nat) (front : List Value) (inner : Context) (back : List Value)

/-- The selection that has a value in the place of the hole. -/
def Context.fill (v : Value) : Context → Value
  | hole => v
  | list front inner back => .list (front ++ inner.fill v :: back)
  | tuple front inner back => .tuple (front ++ inner.fill v :: back)
  | map front key inner back => .map (front ++ (key, inner.fill v) :: back)
  | deferred label inner => .deferred label (inner.fill v)
  | stepped slot front inner back => .stepped slot (front ++ inner.fill v :: back)

/-- Lists that are related at one place, and the same everywhere else, are related at all places. -/
theorem forall₂_middle {α : Type} {R : α → α → Prop} (refl : ∀ a, R a a) {a b : α} (here : R a b)
    (front back : List α) : List.Forall₂ R (front ++ a :: back) (front ++ b :: back) :=
  List.rel_append (List.forall₂_same.mpr fun a _ => refl a)
    (.cons here (List.forall₂_same.mpr fun a _ => refl a))

/-- Parts that are rendered alike can stand for one another. -/
theorem RenderAlike.fill {v w : Value} (alike : RenderAlike v w) (C : Context) :
    RenderAlike (C.fill v) (C.fill w) := by
  induction C with
  | hole => exact alike
  | list front inner back ih => exact .list (forall₂_middle refl ih front back)
  | tuple front inner back ih => exact .tuple (forall₂_middle refl ih front back)
  | map front key inner back ih =>
    exact .map (forall₂_middle (fun e => ⟨rfl, refl e.2⟩) ⟨rfl, ih⟩ front back)
  | deferred label inner ih =>
    exact (deferred label ih).trans (deferred label (refl _)).symm
  | stepped slot front inner back ih =>
    exact .stepped slot (.resultAt (refl _) (forall₂_middle refl ih front back))

/-! ## Steady selections -/

/-- A selection in which computed values give the same every time, and raise no errors. -/
inductive Steady : Value → Prop where
  | other {v : Value} : isOther v = true → Steady v
  | text (s : String) : Steady (.text s)
  | field (s : String) : Steady (.field s)
  | list {items : List Value} : (∀ v ∈ items, Steady v) → Steady (.list items)
  | tuple {items : List Value} : (∀ v ∈ items, Steady v) → Steady (.tuple items)
  | map {entries : List (Value × Value)} : (∀ e ∈ entries, Steady e.2) → Steady (.map entries)
  | deferred (label : Option String) {result : Value} :
      Steady result → Steady (.deferred label result)

/-- Members that are rendered like texts, one by one. -/
theorem alike_items_texts {items : List Value}
    (each : ∀ v ∈ items, ∃ s, RenderAlike v (.text s)) :
    ∃ texts, Alike (renderItems items) (pure texts) := by
  induction items with
  | nil => exact ⟨[], .pure []⟩
  | cons v items ih =>
    obtain ⟨⟨s, first⟩, each⟩ := List.forall_mem_cons.mp each
    obtain ⟨texts, later⟩ := ih each
    refine ⟨s :: texts, ?_⟩
    rw [renderItems]
    exact first.bind fun s => later.bind fun texts => .pure (s :: texts)

theorem alike_entries_text {entries : List (Value × Value)}
    (each : ∀ e ∈ entries, ∃ s, RenderAlike e.2 (.text s)) (i : Nat) :
    ∃ body, Alike (renderEntries i entries) (pure body) := by
  induction entries generalizing i with
  | nil => exact ⟨"", .pure ""⟩
  | cons e entries ih =>
    obtain ⟨⟨s, first⟩, each⟩ := List.forall_mem_cons.mp each
    obtain ⟨body, later⟩ := ih each (i + 1)
    refine ⟨separator i ++ e.1.display ++ s ++ body, ?_⟩
    rw [renderEntries]
    exact first.bind fun s => later.bind fun body => .pure _

/-- A steady selection is rendered like a text. -/
theorem Steady.alike {v : Value} (steady : Steady v) : ∃ s, RenderAlike v (.text s) := by
  induction steady with
  | other other => exact ⟨"", .of_isOther other⟩
  | text s => exact ⟨s, .refl _⟩
  | field s => exact ⟨s, .pure s⟩
  | list _ ih =>
    obtain ⟨texts, alike⟩ := alike_items_texts ih
    refine ⟨braces (",".intercalate (texts.filter (!·.isEmpty))), ?_⟩
    rw [RenderAlike, render, render]
    exact alike.inGenerator.bind fun _ => .pure _
  | tuple _ ih =>
    obtain ⟨texts, alike⟩ := alike_items_texts ih
    refine ⟨braces (",".intercalate (texts.filter (!·.isEmpty))), ?_⟩
    rw [RenderAlike, render, render]
    exact alike.inGenerator.bind fun _ => .pure _
  | map _ ih =>
    obtain ⟨body, alike⟩ := alike_entries_text ih 0
    refine ⟨if body.isEmpty then "" else braces body, ?_⟩
    rw [RenderAlike, render, render]
    exact alike.inGenerator.bind fun _ => .pure _
  | deferred label _ ih =>
    obtain ⟨s, alike⟩ := ih
    exact ⟨s, .deferred label alike⟩

/-! ## Parts and their texts -/

/-- A part of a selection gives a text, and can be replaced by it wherever it stands. -/
structure StandsFor (v : Value) (s : String) : Prop where
  alone : ∀ j, rendered j v = .ok s
  inside : ∀ (C : Context) j, rendered j (C.fill v) = rendered j (C.fill (.text s))

theorem rendered_text (j : Journal) (s : String) : rendered j (.text s) = .ok s := by
  rw [rendered, render]
  rfl

theorem RenderAlike.standsFor {v : Value} {s : String} (alike : RenderAlike v (.text s)) :
    StandsFor v s where
  alone j := (alike j j rfl).1.trans (rendered_text j s)
  inside C j := (alike.fill C j j rfl).1

/-- What a field with a selection below it comes to. -/
theorem run_render_field {d : Value} {s : String} (alike : RenderAlike d (.text s))
    (b : FieldBuilder) (j : Journal) :
    ((b.render d).run.run j).1 = .ok (b.signature ++ s) := by
  have made : Alike (b.render d) (pure (b.signature ++ s)) := by
    rw [RenderAlike, render] at alike
    exact alike.bind fun s => .pure (b.signature ++ s)
  exact (made j j rfl).1

/-- **Substitution.** A steady selection stands for its text, in every context; so the text of a
selection, rendered again, is itself. A field in place of a selection stands for its signature,
and what a field gives for a selection below it stands for the signature and the text of that
selection. -/
theorem standsFor_text {d : Value} (steady : Steady d) :
    ∃ s, StandsFor d s ∧ (∀ v j t, rendered j v = .ok t → ∀ k, rendered k (.text t) = .ok t) ∧
      ∀ b : FieldBuilder, StandsFor b.toValue b.signature ∧
        ∀ j, ∃ t, ((b.render d).run.run j).1 = .ok t ∧ StandsFor (.text t) (b.signature ++ s) := by
  obtain ⟨s, alike⟩ := steady.alike
  refine ⟨s, alike.standsFor, fun _ _ t _ k => rendered_text k t, fun b => ⟨?_, fun j => ?_⟩⟩
  · have field : RenderAlike b.toValue (.text b.signature) := .pure b.signature
    exact field.standsFor
  · exact ⟨_, run_render_field alike b j, (RenderAlike.refl _).standsFor⟩

/-- A group with a computed member, one that cannot be rendered and one that selects nothing, below
a key in a stepped value. -/
def sampleContext : Context :=
  .stepped 0 [.text "first"] (.map [(.text "me", .null)] (.text "user(id:$id)") .hole []) []

def samplePart : Value :=
  .list [.text "name", .deferred (some "a") (.map [(.text "posts", .list [])]), .int 7, .text ""]

theorem standsFor_text_samplePart : Steady samplePart ∧
    rendered ⟨[], [], [(0, 5)]⟩ (sampleContext.fill samplePart) =
      .ok "\x7bme,user(id:$id)\x7bname,\x7bposts\x7b\x7d\x7d\x7d\x7d" := by
  have posts : Steady (.map [(.text "posts", .list [])]) :=
    .map (by simpa using Steady.list (by simp))
  have steady : Steady samplePart :=
    .list (by simpa using ⟨.text _, .deferred _ posts, .other rfl, .text _⟩)
  obtain ⟨s, stands, -⟩ := standsFor_text steady
  have text : Except.ok s = .ok "\x7bname,\x7bposts\x7b\x7d\x7d\x7d" :=
    (stands.alone .empty).symm.trans rfl
  refine ⟨steady, (stands.inside sampleContext _).trans ?_⟩
  rw [Except.ok.inj text]
  rfl

end GraphClient.Selection
