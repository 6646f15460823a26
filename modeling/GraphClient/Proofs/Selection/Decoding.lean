import GraphClient.Proofs.Selection.Tree

/-!
# The text of a selection determines its tree

* `Selection.treeOf`: the tree of a selection, computed values standing for what they compute. A
  stepped value counts its computations, so the tree is computed along with the counts.
* `Legible`: the selections whose labels can be told apart in a text.
* `writes_render`: a legible selection renders as the text of its tree.
* `read_render`: reading the text gives the tree back, so two legible selections have the same
  text exactly if they have the same tree.
-/

namespace GraphClient.Selection

/-- How often each stepped value has been computed. -/
abbrev Counts := List (Nat × Nat)

/-- Counts one more computation of a slot and gives the number of those before. -/
def countUp (slot : Nat) : StateM Counts Nat := do
  let before := (Pairs.get? slot (← get)).getD 0
  modify (Pairs.set slot (before + 1))
  return before

/-- The items of a map; an empty one selects nothing. -/
def Tree.ofItems : List Item → Tree
  | [] => nothing
  | items => group items

mutual

/-- What a selection asks for. -/
def treeOf : Value → StateM Counts Tree
  | .list items | .tuple items => return .group ((← treesOf items).flatMap Tree.members)
  | .text s | .field s => return .ofText s
  | .map entries => return .ofItems (← itemsOf entries)
  | .deferred _ result => treeOf result
  | .stepped slot results => do stepOf (← countUp slot) results
  | _ => return .nothing

/-- What the members of a list ask for, one by one. -/
def treesOf : List Value → StateM Counts (List Tree)
  | [] => return []
  | v :: vs => do
    let t ← treeOf v
    return t :: (← treesOf vs)

/-- What the entries of a map ask for: each key, and the selection below it. -/
def itemsOf : List (Value × Value) → StateM Counts (List Item)
  | [] => return []
  | (k, v) :: entries => do
    let t ← treeOf v
    return t.under k.display :: (← itemsOf entries)

/-- What the result with the given number asks for, or the last one if there are fewer. -/
def stepOf : Nat → List Value → StateM Counts Tree
  | _, [] => return .nothing
  | _, [v] => treeOf v
  | 0, v :: _ => treeOf v
  | n + 1, _ :: rest => stepOf n rest

end

/-- Selections whose fields and keys are labels, the keys not empty. -/
inductive Legible : Value → Prop
  | empty {v : Value} : kindOf v = .empty → Legible v
  | unsupported {v : Value} : kindOf v = .unsupported → Legible v
  | text {s : String} : IsLabel s → Legible (.text s)
  | field {s : String} : IsLabel s → Legible (.field s)
  | list {items : List Value} : (∀ v ∈ items, Legible v) → Legible (.list items)
  | tuple {items : List Value} : (∀ v ∈ items, Legible v) → Legible (.tuple items)
  | map {entries : List (Value × Value)} :
      (∀ e ∈ entries, e.1.display ≠ "" ∧ IsLabel e.1.display) →
      (∀ e ∈ entries, Legible e.2) → Legible (.map entries)
  | deferred {label : Option String} {result : Value} :
      Legible result → Legible (.deferred label result)
  | stepped {slot : Nat} {results : List Value} :
      (∀ v ∈ results, Legible v) → Legible (.stepped slot results)

/-! ## Recordings beside computations on the counts -/

/-- A recording ends well and keeps the counts as a computation does; what it gives is written by
`f` from the result of that, which satisfies `Q`. -/
def Writes {α β : Type} (r : Recording α) (c : StateM Counts β) (f : β → α) (Q : β → Prop) :
    Prop :=
  ∀ j : Journal, Q (c.run j.counts).1 ∧
    ∃ j', r.run.run j = (.ok (f (c.run j.counts).1), j') ∧ j'.counts = (c.run j.counts).2

namespace Writes

variable {α β γ δ : Type} {f : β → α} {Q : β → Prop}

theorem pure {a : α} {b : β} (h : a = f b) (hQ : Q b) :
    Writes (Pure.pure a) (Pure.pure b) f Q :=
  fun j => ⟨hQ, j, by rw [h]; rfl, rfl⟩

theorem bind {r : Recording α} {c : StateM Counts β} {g : α → Recording γ}
    {d : β → StateM Counts δ} {f' : δ → γ} {Q' : δ → Prop} (h : Writes r c f Q)
    (h' : ∀ b, Q b → Writes (g (f b)) (d b) f' Q') : Writes (r >>= g) (c >>= d) f' Q' := by
  intro j
  obtain ⟨hQ, j₁, hr, hc⟩ := h j
  obtain ⟨hQ', j₂, hr', hc'⟩ := h' _ hQ j₁
  rw [hc] at hQ' hr' hc'
  refine ⟨hQ', j₂, ?_, hc'⟩
  rw [ExceptT.run_bind, StateT.run_bind, hr]
  exact hr'

/-- What is only noted leaves the counts alone. -/
theorem note (note : Journal → Journal) (hnote : ∀ j, (note j).counts = j.counts)
    {r : Recording α} {c : StateM Counts β} (h : Writes r c f Q) :
    Writes (do modify note; r) c f Q := by
  intro j
  have := h (note j)
  rw [hnote] at this
  exact this

/-- Nothing fails that a generator could change. -/
theorem inGenerator {r : Recording α} {c : StateM Counts β} (h : Writes r c f Q) :
    Writes r.inGenerator c f Q := by
  intro j
  obtain ⟨hQ, j₁, hr, hc⟩ := h j
  refine ⟨hQ, j₁, ?_, hc⟩
  rw [Recording.run_inGenerator, hr]
  rfl

end Writes

theorem writes_countUp (slot : Nat) :
    Writes (Recording.countUp slot) (countUp slot) id fun _ => True :=
  fun _ => ⟨trivial, _, rfl, rfl⟩

theorem writes_traceLabel (label : Option String) {r : Recording String}
    {c : StateM Counts Tree} (h : Writes r c Tree.text Tree.Proper) :
    Writes (do traceLabel label; r) c Tree.text Tree.Proper := by
  cases label with
  | none => exact h
  | some label => exact h.note (.addTrace ("thunk:" ++ label)) fun _ => rfl

/-! ## Rendering -/

theorem writes_nothing : Writes (pure "") (pure .nothing) Tree.text Tree.Proper :=
  .pure rfl (by simp [Tree.Proper, Tree.members])

theorem writes_of_empty {v : Value} (h : kindOf v = .empty) :
    Writes (render v) (treeOf v) Tree.text Tree.Proper := by
  have he : isEmpty v = true := by
    by_contra hne
    cases v <;> simp_all [kindOf, Value.isCallable]
  cases v with
  | text s =>
    have : s = "" := by simpa [isEmpty, Value.truth, Truth.ofBool] using he
    subst this
    exact writes_nothing
  | map entries =>
    have : entries = [] := by simpa [isEmpty, Value.truth, Truth.ofBool] using he
    subst this
    exact writes_nothing
  | list items => simp [kindOf] at h
  | tuple items => simp [kindOf] at h
  | deferred label result => simp [isEmpty, Value.truth] at he
  | stepped slot results => simp [isEmpty, Value.truth] at he
  | failing error => simp [isEmpty, Value.truth] at he
  | field s => simp [isEmpty, Value.truth] at he
  | _ =>
    rw [render, treeOf, if_pos he]
    all_goals first | exact writes_nothing | simp

theorem writes_of_unsupported {v : Value} (h : kindOf v = .unsupported) :
    Writes (render v) (treeOf v) Tree.text Tree.Proper := by
  have he : ¬isEmpty v = true := by
    intro he
    cases v <;> simp_all [kindOf]
  cases v with
  | text s => simp [kindOf, he] at h
  | map entries => simp [kindOf, he] at h
  | list items => simp [kindOf] at h
  | tuple items => simp [kindOf] at h
  | deferred label result => simp [kindOf, he, Value.isCallable] at h
  | stepped slot results => simp [kindOf, he, Value.isCallable] at h
  | failing error => simp [kindOf, he, Value.isCallable] at h
  | field s => simp [kindOf, he, Value.isCallable] at h
  | _ =>
    rw [render, treeOf, if_neg he]
    all_goals first | exact writes_nothing.note (.addLog _) fun _ => rfl | simp

/-- The members of a list, of which those that render to nothing are left out. -/
theorem filter_texts {trees : List Tree} (h : ∀ t ∈ trees, t.Proper) :
    (trees.map Tree.text).filter (!·.isEmpty) = texts (trees.flatMap Tree.members) := by
  induction trees with
  | nil => rfl
  | cons t trees ih =>
    have hrest := ih fun t ht => h t (List.mem_cons_of_mem _ ht)
    have hkeep : ∀ item ∈ t.members, item.text ≠ "" := fun item hi =>
      (h t (List.mem_cons_self ..) item hi).text_ne_empty
    rw [List.map_cons, List.filter_cons, hrest]
    cases t <;> simp_all [Tree.text, Tree.members]

theorem writes_renderItems {items : List Value}
    (h : ∀ v ∈ items, Writes (render v) (treeOf v) Tree.text Tree.Proper) :
    Writes (renderItems items) (treesOf items) (List.map Tree.text)
      fun trees => ∀ t ∈ trees, t.Proper := by
  induction items with
  | nil =>
    rw [renderItems, treesOf]
    exact .pure rfl (by simp)
  | cons v vs ih =>
    rw [renderItems, treesOf]
    refine (h v (List.mem_cons_self ..)).bind fun t ht => ?_
    refine (ih fun v hv => h v (List.mem_cons_of_mem _ hv)).bind fun trees htrees => ?_
    exact .pure rfl (List.forall_mem_cons.mpr ⟨ht, htrees⟩)

/-- A list renders as the group of what its members ask for. -/
theorem writes_group {items : List Value}
    (h : ∀ v ∈ items, Writes (render v) (treeOf v) Tree.text Tree.Proper) :
    Writes
      (do
        let texts ← (renderItems items).inGenerator
        return braces (",".intercalate (texts.filter (!·.isEmpty))))
      (do return .group ((← treesOf items).flatMap Tree.members)) Tree.text Tree.Proper := by
  refine (writes_renderItems h).inGenerator.bind fun trees htrees => ?_
  refine .pure ?_ (Tree.proper_group fun item hi => ?_)
  · rw [filter_texts htrees, Tree.text_group]
  · obtain ⟨t, ht, hi⟩ := List.mem_flatMap.mp hi
    exact htrees t ht item hi

/-- Items with a comma before each, except for the first item of the map. -/
def joined (i : Nat) : List Item → String
  | [] => ""
  | item :: items => separator i ++ item.text ++ joined (i + 1) items

theorem joined_succ (i : Nat) (item : Item) (items : List Item) :
    joined (i + 1) (item :: items) = "," ++ ",".intercalate (texts (item :: items)) := by
  induction items generalizing i item with
  | nil => simp [joined, separator]
  | cons next items ih =>
    rw [joined, ih]
    simp [separator, String.intercalate_cons_cons, String.append_assoc]

theorem joined_zero (items : List Item) : joined 0 items = ",".intercalate (texts items) := by
  match items with
  | [] => rfl
  | [item] => simp [joined, separator]
  | item :: next :: items =>
    rw [joined, joined_succ]
    simp [separator, String.intercalate_cons_cons, String.append_assoc]

theorem writes_renderEntries {entries : List (Value × Value)}
    (hkeys : ∀ e ∈ entries, e.1.display ≠ "" ∧ IsLabel e.1.display)
    (h : ∀ e ∈ entries, Writes (render e.2) (treeOf e.2) Tree.text Tree.Proper) (i : Nat) :
    Writes (renderEntries i entries) (itemsOf entries) (joined i)
      fun items => ∀ item ∈ items, item.Proper := by
  induction entries generalizing i with
  | nil =>
    rw [renderEntries, itemsOf]
    exact .pure rfl (by simp)
  | cons e entries ih =>
    obtain ⟨k, v⟩ := e
    obtain ⟨hne, hk⟩ := hkeys _ (List.mem_cons_self ..)
    rw [renderEntries, itemsOf]
    refine (h _ (List.mem_cons_self ..)).bind fun t ht => ?_
    refine (ih (fun e he => hkeys e (List.mem_cons_of_mem _ he))
      (fun e he => h e (List.mem_cons_of_mem _ he)) (i + 1)).bind fun items hitems => ?_
    refine .pure ?_ (List.forall_mem_cons.mpr ⟨ht.under hne hk, hitems⟩)
    simp only [joined, Tree.text_under, String.append_assoc]

/-- A map renders as its items between braces, and as nothing when it is empty. -/
theorem text_ofItems {items : List Item} (h : ∀ item ∈ items, item.Proper) :
    (Tree.ofItems items).text =
      if (joined 0 items).isEmpty then "" else braces (joined 0 items) := by
  cases items with
  | nil => rfl
  | cons item items =>
    have hne := (h item (List.mem_cons_self ..)).text_ne_empty
    have : (joined 0 (item :: items)).isEmpty = false := by simp [joined, separator, hne]
    rw [this, joined_zero, Tree.ofItems, Tree.text_group]
    · rfl
    · simp

theorem writes_renderStep {results : List Value}
    (h : ∀ v ∈ results, Writes (render v) (treeOf v) Tree.text Tree.Proper) (n : Nat) :
    Writes (renderStep n results) (stepOf n results) Tree.text Tree.Proper := by
  induction results generalizing n with
  | nil => exact .pure rfl (by simp [Tree.Proper, Tree.members])
  | cons v rest ih =>
    have hv := h v (List.mem_cons_self ..)
    cases rest with
    | nil => exact hv
    | cons next rest =>
      cases n with
      | zero => exact hv
      | succ n => exact ih (fun v hv => h v (List.mem_cons_of_mem _ hv)) n

/-- A legible selection renders as the text of its tree. -/
theorem writes_render {v : Value} (h : Legible v) :
    Writes (render v) (treeOf v) Tree.text Tree.Proper := by
  induction h with
  | empty h => exact writes_of_empty h
  | unsupported h => exact writes_of_unsupported h
  | text hs => exact .pure (Tree.text_ofText _).symm (Tree.proper_ofText hs)
  | field hs => exact .pure (Tree.text_ofText _).symm (Tree.proper_ofText hs)
  | list _ ih => rw [render, treeOf]; exact writes_group ih
  | tuple _ ih => rw [render, treeOf]; exact writes_group ih
  | map hkeys _ ih =>
    rw [render, treeOf]
    refine (writes_renderEntries hkeys ih 0).inGenerator.bind fun items hitems => ?_
    refine .pure (text_ofItems hitems).symm ?_
    cases items with
    | nil => simp [Tree.ofItems, Tree.Proper, Tree.members]
    | cons item items => exact Tree.proper_group hitems
  | deferred _ ih => rw [render, treeOf]; exact writes_traceLabel _ ih
  | stepped _ ih =>
    rw [render, treeOf]
    exact (writes_countUp _).bind fun n _ => writes_renderStep ih n

/-- The tree of a selection that is rendered as things stand. -/
def treeAt (j : Journal) (v : Value) : Tree := ((treeOf v).run j.counts).1

/-- **Decoding.** A legible selection renders, and reading its text gives its tree back. Two
legible selections have the same text exactly if they have the same tree. -/
theorem read_render {v : Value} (hv : Legible v) (j : Journal) :
    ∃ s j', (render v).run.run j = (.ok s, j') ∧ Tree.read s = treeAt j v ∧
      ∀ w, Legible w → ∀ k, ∃ t k', (render w).run.run k = (.ok t, k') ∧
        (s = t ↔ treeAt j v = treeAt k w) := by
  obtain ⟨hproper, j', hrender, -⟩ := writes_render hv j
  refine ⟨_, j', hrender, Tree.read_text hproper, fun w hw k => ?_⟩
  obtain ⟨hproper', k', hrender', -⟩ := writes_render hw k
  refine ⟨_, k', hrender', fun htext => ?_, fun htree => congrArg Tree.text htree⟩
  rw [treeAt, treeAt, ← Tree.read_text hproper, htext, Tree.read_text hproper']

/-- A selection with arguments, an alias, members that select nothing, and a computed group. -/
def sampleSelection : Value :=
  .map [(.text "user(id:$id,first:(1,2))", .list [.text "name", .null, .int 7, .text "",
      .map [(.text "posts", .deferred none (.tuple [])), (.text "n", .map [])]]),
    (.text "me", .stepped 0 [.text ":alias(a:1)", .list []])]

theorem read_render_sampleSelection : Legible sampleSelection ∧
    ∃ s j', (render sampleSelection).run.run .empty = (.ok s, j') ∧ Tree.read s =
      .group [.branch "user(id:$id,first:(1,2))" [.leaf "name",
          .branch "" [.branch "posts" [], .leaf "n"]],
        .leaf "me:alias(a:1)"] := by
  have hposts : Legible (.map [(.text "posts", .deferred none (.tuple [])), (.text "n", .map [])]) :=
    .map (by decide) (by simpa using ⟨.deferred (.tuple (by simp)), .empty rfl⟩)
  have huser : Legible (.list [.text "name", .null, .int 7, .text "",
      .map [(.text "posts", .deferred none (.tuple [])), (.text "n", .map [])]]) :=
    .list (by simpa using
      ⟨.text (by decide), .empty rfl, .unsupported rfl, .empty rfl, hposts⟩)
  have hme : Legible (.stepped 0 [.text ":alias(a:1)", .list []]) :=
    .stepped (by simpa using ⟨.text (by decide), .list (by simp)⟩)
  have h : Legible sampleSelection := .map (by decide) (by simpa using ⟨huser, hme⟩)
  obtain ⟨s, j', hs, hread, -⟩ := read_render h .empty
  exact ⟨h, s, j', hs, hread.trans rfl⟩

end GraphClient.Selection
