import Mathlib.Data.List.Infix
import GraphClient.Selection.Render

/-!
# Selection trees

What a selection asks for, apart from how it is written: nothing, one label, or a group of items,
each of them a label with an optional group below it.

* `Tree.text` writes a tree in compact form, `Tree.read` reads a text back in one pass over its
  characters. `read_text`: reading a proper tree's text gives the tree.
* `foldl_step_label`: the reader takes a label whole, whatever commas stand between its brackets.
-/

namespace GraphClient

/-- A text that can name a field, with its alias and arguments: no braces, brackets balanced and
never closed before they are opened, and commas between brackets only. -/
structure IsLabel (s : String) : Prop where
  noOpeningBrace : '{' ∉ s.toList
  noClosingBrace : '}' ∉ s.toList
  opened : ∀ p q, s.toList = p ++ q → p.count ')' ≤ p.count '('
  closed : s.toList.count ')' = s.toList.count '('
  commas : ∀ p q, s.toList = p ++ ',' :: q → p.count ')' < p.count '('

namespace IsLabel

theorem iff_inits {s : String} : IsLabel s ↔
    '{' ∉ s.toList ∧ '}' ∉ s.toList ∧ s.toList.count ')' = s.toList.count '(' ∧
      ∀ p ∈ s.toList.inits, p.count ')' ≤ p.count '(' ∧
        (p ++ [','] <+: s.toList → p.count ')' < p.count '(') := by
  constructor
  · rintro ⟨h1, h2, h3, h4, h5⟩
    refine ⟨h1, h2, h4, fun p hp => ⟨?_, ?_⟩⟩
    · obtain ⟨q, hq⟩ := (List.mem_inits _ _).mp hp
      exact h3 p q hq.symm
    · rintro ⟨q, hq⟩
      exact h5 p q (by rw [← hq, List.append_assoc, List.singleton_append])
  · rintro ⟨h1, h2, h4, h⟩
    refine ⟨h1, h2, fun p q hp => ?_, h4, fun p q hp => ?_⟩
    · exact (h p ((List.mem_inits _ _).mpr ⟨q, hp.symm⟩)).1
    · refine (h p ((List.mem_inits _ _).mpr ⟨',' :: q, hp.symm⟩)).2 ⟨q, ?_⟩
      rw [hp, List.append_assoc, List.singleton_append]

instance (s : String) : Decidable (IsLabel s) := decidable_of_iff _ iff_inits.symm

theorem empty : IsLabel "" := by decide

/-- Labels written one after the other are a label. -/
theorem append {s t : String} (hs : IsLabel s) (ht : IsLabel t) : IsLabel (s ++ t) := by
  have hsc := hs.closed
  have htc := ht.closed
  refine ⟨?_, ?_, fun p q hp => ?_, ?_, fun p q hp => ?_⟩
  · simp [hs.noOpeningBrace, ht.noOpeningBrace]
  · simp [hs.noClosingBrace, ht.noClosingBrace]
  · rw [String.toList_append] at hp
    rcases List.append_eq_append_iff.mp hp with ⟨r, rfl, hr⟩ | ⟨r, hr, -⟩
    · have := ht.opened r q hr
      simp only [List.count_append]
      omega
    · exact hs.opened p r hr
  · simp only [String.toList_append, List.count_append, hsc, htc]
  · rw [String.toList_append] at hp
    rcases List.append_eq_append_iff.mp hp with ⟨r, rfl, hr⟩ | ⟨r, hr, hq⟩
    · have := ht.commas r q hr
      simp only [List.count_append]
      omega
    · cases r with
      | nil => exact absurd (ht.commas [] q hq.symm) (by simp)
      | cons c r =>
        obtain ⟨rfl, -⟩ := List.cons.inj hq
        exact hs.commas p r hr

end IsLabel

namespace Selection

/-- An item of a group: a label, or a label with a group below it. -/
inductive Item where
  | leaf (label : String)
  | branch (label : String) (below : List Item)

/-- What a selection asks for. -/
inductive Tree where
  | nothing
  | label (s : String)
  | group (items : List Item)

/-- Labels are labels, and an item without a group below it has one that is not empty. -/
inductive Item.Proper : Item → Prop
  | leaf {s : String} : s ≠ "" → IsLabel s → Proper (leaf s)
  | branch {s : String} {below : List Item} :
      IsLabel s → (∀ item ∈ below, item.Proper) → Proper (branch s below)

mutual

/-- An item in compact form. -/
def Item.text : Item → String
  | .leaf s => s
  | .branch s below => s ++ braces (",".intercalate (texts below))

/-- The items of a group in compact form, one by one. -/
def texts : List Item → List String
  | [] => []
  | item :: items => item.text :: texts items

end

@[simp] theorem texts_eq_map (items : List Item) : texts items = items.map Item.text := by
  induction items with
  | nil => rfl
  | cons item items ih => rw [texts, ih, List.map_cons]

theorem Item.Proper.text_ne_empty {item : Item} (h : item.Proper) : item.text ≠ "" := by
  cases h with
  | leaf hne _ => exact hne
  | branch _ _ =>
    intro h
    have := congrArg String.toList h
    simp [Item.text, braces] at this

namespace Tree

/-- A text that is a label, or nothing. -/
def ofText (s : String) : Tree := if s.isEmpty then nothing else label s

/-- A tree as an item of a group; nothing is none. -/
def members : Tree → List Item
  | nothing => []
  | label s => [.leaf s]
  | group items => [.branch "" items]

/-- A tree below a key. -/
def under (key : String) : Tree → Item
  | nothing => .leaf key
  | label s => .leaf (key ++ s)
  | group items => .branch key items

/-- The tree that is alone in a group. -/
def ofMembers : List Item → Tree
  | .leaf s :: _ => label s
  | .branch _ items :: _ => group items
  | [] => nothing

theorem ofMembers_members (t : Tree) : ofMembers t.members = t := by
  cases t <;> rfl

/-- A tree in compact form. -/
def text (t : Tree) : String := ",".intercalate (texts t.members)

def Proper (t : Tree) : Prop := ∀ item ∈ t.members, item.Proper

theorem text_group (items : List Item) :
    (group items).text = braces (",".intercalate (texts items)) := by
  simp [text, members, Item.text]

theorem text_under (key : String) (t : Tree) : (t.under key).text = key ++ t.text := by
  cases t <;> simp [under, text, members, Item.text]

theorem text_ofText (s : String) : (ofText s).text = s := by
  unfold ofText
  split
  · simp_all [text, members]
  · simp [text, members, Item.text]

theorem proper_ofText {s : String} (h : IsLabel s) : (ofText s).Proper := by
  unfold ofText
  split
  · simp [Proper, members]
  · rename_i hne
    have : s ≠ "" := by simpa using hne
    simpa [Proper, members] using Item.Proper.leaf this h

theorem proper_group {items : List Item} (h : ∀ item ∈ items, item.Proper) :
    (group items).Proper := by
  simpa [Proper, members] using Item.Proper.branch IsLabel.empty h

theorem Proper.under {key : String} {t : Tree} (ht : t.Proper) (hne : key ≠ "")
    (hk : IsLabel key) : (t.under key).Proper := by
  cases t with
  | nothing => exact .leaf hne hk
  | label s =>
    cases ht (.leaf s) (List.mem_singleton_self _) with
    | leaf _ hs => exact .leaf (by simp [hne]) (hk.append hs)
  | group items =>
    cases ht (.branch "" items) (List.mem_singleton_self _) with
    | branch _ hitems => exact .branch hk hitems

end Tree

/-! ## Reading a text back -/

/-- A text read in part: the groups that are still open, each with its items so far and the label
it stands below; the items of the innermost one; the label being read, and how many of its
brackets are open. -/
structure Reading where
  outer : List (List Item × List Char)
  items : List Item
  label : List Char
  depth : Nat

namespace Reading

def start : Reading := ⟨[], [], [], 0⟩

/-- Whether a new item may begin. -/
structure AtItem (r : Reading) : Prop where
  label : r.label = []
  depth : r.depth = 0

/-- Ends the label being read; without one there is no item. -/
def endItem (r : Reading) : Reading :=
  if r.label = [] then r
  else { r with items := r.items ++ [.leaf (String.ofList r.label)], label := [] }

/-- Ends the innermost group. -/
def closeGroup (r : Reading) : Reading :=
  match r.outer with
  | [] => r
  | (items, label) :: outer =>
    ⟨outer, items ++ [.branch (String.ofList label) r.items], [], 0⟩

def push (c : Char) (r : Reading) : Reading := { r with label := r.label ++ [c] }

/-- Reads one more character. -/
def step (r : Reading) (c : Char) : Reading :=
  if c = '{' then ⟨(r.items, r.label) :: r.outer, [], [], 0⟩
  else if c = '}' then r.endItem.closeGroup
  else if c = ',' then if r.depth = 0 then r.endItem else r.push c
  else if c = '(' then { r.push c with depth := r.depth + 1 }
  else if c = ')' then { r.push c with depth := r.depth - 1 }
  else r.push c

end Reading

/-- The tree of a text in compact form. -/
def Tree.read (s : String) : Tree :=
  .ofMembers (s.toList.foldl Reading.step .start).endItem.items

namespace Reading

theorem endItem_of_label_nil {r : Reading} (h : r.label = []) : r.endItem = r := if_pos h

/-- A label is read whole: the characters up to any point of it are added to the label, and the
count of open brackets is that of the brackets among them. -/
theorem foldl_step_front {s : String} (hs : IsLabel s) (r : Reading) (hr : r.depth = 0)
    (p : List Char) : ∀ q, s.toList = p ++ q → p.foldl step r =
      { r with label := r.label ++ p, depth := p.count '(' - p.count ')' } := by
  induction p using List.reverseRecOn with
  | nil =>
    intro q _
    simp [← hr]
  | append_singleton p c ih =>
    intro q hq
    rw [List.append_assoc] at hq
    rw [List.foldl_append, ih _ hq, List.foldl_cons, List.foldl_nil]
    have hc : c ∈ s.toList := by rw [hq]; simp
    have h1 : c ≠ '{' := fun h => hs.noOpeningBrace (h ▸ hc)
    have h2 : c ≠ '}' := fun h => hs.noClosingBrace (h ▸ hc)
    by_cases h3 : c = ','
    · -- A comma stands between brackets, so it ends no item.
      subst h3
      have hopen := hs.commas p q hq
      simp [step, push, List.count_append, Nat.sub_ne_zero_of_lt hopen]
    by_cases h4 : c = '('
    · subst h4
      have := hs.opened p _ hq
      simp [step, push, List.count_append]
      omega
    by_cases h5 : c = ')'
    · subst h5
      simp [step, push, List.count_append]
      omega
    simp [step, push, List.count_append, h1, h2, h3, h4, h5]

theorem foldl_step_label {s : String} (hs : IsLabel s) {r : Reading} (hr : r.AtItem) :
    s.toList.foldl step r = { r with label := s.toList } := by
  rw [foldl_step_front hs r hr.depth s.toList [] (List.append_nil _).symm, hr.label,
    List.nil_append, hs.closed, Nat.sub_self, ← hr.depth]

/-- What reading an item comes to: the item is added to those before it. -/
def Takes (chars : List Char) (items : List Item) : Prop :=
  ∀ r : Reading, r.AtItem → (chars.foldl step r).depth = 0 ∧
    (chars.foldl step r).endItem = { r with items := r.items ++ items }

theorem Takes.nil : Takes [] [] := fun r hr =>
  ⟨hr.depth, by simp [endItem_of_label_nil hr.label]⟩

theorem Takes.comma {cs ds : List Char} {item : Item} {items : List Item} (h : Takes cs [item])
    (hs : Takes ds items) : Takes (cs ++ ',' :: ds) (item :: items) := by
  intro r hr
  obtain ⟨hd, he⟩ := h r hr
  have hcomma : step (cs.foldl step r) ',' = { r with items := r.items ++ [item] } := by
    simp [step, hd, he]
  have hnext := hs { r with items := r.items ++ [item] } ⟨hr.label, hr.depth⟩
  rw [List.foldl_append, List.foldl_cons, hcomma]
  simpa using hnext

/-- Items that are read one by one are read when commas stand between them. -/
theorem Takes.intercalate {items : List Item}
    (h : ∀ item ∈ items, Takes item.text.toList [item]) :
    Takes (",".intercalate (texts items)).toList items := by
  induction items with
  | nil => simpa using Takes.nil
  | cons item items ih =>
    have hitem := h item (List.mem_cons_self ..)
    have hrest := ih fun i hi => h i (List.mem_cons_of_mem _ hi)
    cases items with
    | nil => simpa using hitem
    | cons next items =>
      have := hitem.comma hrest
      simpa [String.intercalate_cons_cons] using this

/-- A group is read between its braces, below the label before them. -/
theorem Takes.branch {s : String} {below : List Item} (hs : IsLabel s)
    (h : Takes (",".intercalate (texts below)).toList below) :
    Takes (Item.branch s below).text.toList [.branch s below] := by
  intro r hr
  let inner : Reading := ⟨(r.items, s.toList) :: r.outer, [], [], 0⟩
  obtain ⟨-, he⟩ := h inner ⟨rfl, rfl⟩
  have hopen : step { r with label := s.toList } '{' = inner := by simp [step, inner]
  have hclose : step ((",".intercalate (texts below)).toList.foldl step inner) '}' =
      { r with items := r.items ++ [.branch s below] } := by
    rw [step, if_neg (by decide), if_pos rfl, he]
    simp [closeGroup, inner, hr.label, hr.depth]
  have hfold : (Item.branch s below).text.toList.foldl step r =
      { r with items := r.items ++ [.branch s below] } := by
    simp only [Item.text, braces, String.toList_append, List.foldl_append,
      foldl_step_label hs hr]
    simpa [hopen] using hclose
  rw [hfold]
  exact ⟨hr.depth, endItem_of_label_nil hr.label⟩

theorem takes_text {item : Item} (h : item.Proper) : Takes item.text.toList [item] := by
  induction h with
  | leaf hne hs =>
    intro r hr
    rw [Item.text, foldl_step_label hs hr]
    refine ⟨hr.depth, ?_⟩
    simp [endItem, hne, hr.label]
  | branch hs _ ih => exact Takes.branch hs (Takes.intercalate ih)

end Reading

/-- Reading the text of a tree gives the tree. -/
theorem Tree.read_text {t : Tree} (h : t.Proper) : Tree.read t.text = t := by
  have htakes := Reading.Takes.intercalate fun item hi => Reading.takes_text (h item hi)
  rw [Tree.read, Tree.text, (htakes .start ⟨rfl, rfl⟩).2]
  exact Tree.ofMembers_members t

end Selection

end GraphClient
