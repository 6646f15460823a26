import Mathlib.Data.List.Pairwise
import GraphClient.Client.Basic
import GraphClient.Proofs.Pairs

/-!
# The names of headers

The protocol compares names of headers without regard to the case of their letters. The tables of
headers compare them letter by letter.

* `SameHeader`: two spellings of one name. `Headers.Distinct` and `Headers.valueOf?` are about
  headers whose names are compared so.
* `Headers.Merged`: headers that come from several sources, where the last one to set a spelling
  counts (`Merged.merge`).
* `Merged.distinct_iff`: no name is there twice exactly if the sources spell every name alike.
  `Merged.valueOf?_eq`: if they do, the last source to set a name counts.
-/

namespace GraphClient

/-- Two spellings of one name: the case of their letters does not count. -/
def SameHeader (a b : String) : Prop := a.toList.map Char.toLower = b.toList.map Char.toLower

instance (a b : String) : Decidable (SameHeader a b) := inferInstanceAs (Decidable (_ = _))

namespace SameHeader

variable {a b c : String}

theorem refl (a : String) : SameHeader a a := rfl

theorem of_eq (h : a = b) : SameHeader a b := h ▸ refl a

theorem symm (h : SameHeader a b) : SameHeader b a := Eq.symm h

theorem trans (h : SameHeader a b) (h' : SameHeader b c) : SameHeader a c := Eq.trans h h'

instance : Std.Symm fun a b => ¬SameHeader a b := ⟨fun _ _ apart same => apart same.symm⟩

end SameHeader

namespace Headers

/-- No name is there twice. -/
def Distinct (headers : Headers) : Prop :=
  headers.Pairwise fun header header' => ¬SameHeader header.1 header'.1

/-- The value of a name. -/
def valueOf? (name : String) (headers : Headers) : Option Value :=
  (headers.find? fun header => SameHeader header.1 name).map Prod.snd

/-- The value of a name in the last source that has it. -/
def lastOf? (name : String) (sources : List Headers) : Option Value :=
  sources.reverse.findSome? (valueOf? name)

/-- The spellings in several sources. -/
def spellings (sources : List Headers) : List String := sources.flatMap (List.map Prod.fst)

/-- The sources spell every name alike. -/
def Uniform (sources : List Headers) : Prop :=
  ∀ a ∈ spellings sources, ∀ b ∈ spellings sources, SameHeader a b → a = b

variable {headers changes : Headers} {sources : List Headers} {a name : String}

theorem mem_spellings : a ∈ spellings sources ↔ ∃ source ∈ sources, a ∈ source.map Prod.fst :=
  List.mem_flatMap

theorem Distinct.nodup (distinct : headers.Distinct) : (headers.map Prod.fst).Nodup := by
  refine List.pairwise_map.2 (List.Pairwise.imp ?_ distinct)
  exact fun apart same => apart (.of_eq same)

theorem distinct_iff (nodup : (headers.map Prod.fst).Nodup) :
    headers.Distinct ↔
      ∀ a ∈ headers.map Prod.fst, ∀ b ∈ headers.map Prod.fst, SameHeader a b → a = b := by
  have mapped : headers.Distinct ↔ (headers.map Prod.fst).Pairwise fun a b => ¬SameHeader a b :=
    (List.pairwise_map (R := fun a b => ¬SameHeader a b)).symm
  rw [mapped]
  constructor
  · intro distinct a ma b mb same
    by_contra ne
    exact distinct.forall ma mb ne same
  · exact fun alike => nodup.pairwise_of_forall_ne fun a ma b mb ne same => ne (alike a ma b mb same)

/-- Where a name has one spelling, its value is that of the spelling. -/
theorem valueOf?_eq_get? (same : SameHeader a name)
    (only : ∀ b ∈ headers.map Prod.fst, SameHeader b name → b = a) :
    valueOf? name headers = Pairs.get? a headers := by
  induction headers with
  | nil => rfl
  | cons header headers ih =>
    obtain ⟨here, later⟩ := List.forall_mem_cons.1 only
    rw [valueOf?, List.find?_cons, Pairs.get?]
    by_cases spelled : header.1 = a
    · simp only [spelled, same, decide_true, BEq.rfl, if_true, Option.map_some]
    · have other : ¬SameHeader header.1 name := fun h => spelled (here h)
      simp only [other, decide_false, beq_iff_eq, spelled, if_false]
      exact ih later

/-- The sources have no two spellings of one name. -/
theorem Uniform.exists_spelling (uniform : Uniform sources) (name : String) :
    ∃ a, SameHeader a name ∧ ∀ b ∈ spellings sources, SameHeader b name → b = a := by
  by_cases given : ∃ a ∈ spellings sources, SameHeader a name
  · obtain ⟨a, mem, same⟩ := given
    exact ⟨a, same, fun b mem' same' => uniform b mem' a mem (same'.trans same.symm)⟩
  · exact ⟨name, .refl name, fun b mem same => absurd ⟨b, mem, same⟩ given⟩

theorem lastOf?_eq (same : SameHeader a name)
    (only : ∀ b ∈ spellings sources, SameHeader b name → b = a) :
    lastOf? name sources = sources.reverse.findSome? (Pairs.get? a) := by
  have each : sources.reverse.map (valueOf? name) = sources.reverse.map (Pairs.get? a) :=
    List.map_congr_left fun source mem => valueOf?_eq_get? same fun b there =>
      only b (mem_spellings.2 ⟨source, List.mem_reverse.1 mem, there⟩)
  rw [lastOf?, ← Function.id_comp (valueOf? name), ← List.findSome?_map, each, List.findSome?_map,
    Function.id_comp]

/-! ## Headers from several sources -/

/-- Headers come from several sources: they repeat no spelling, and of each one they have the value
in the last source that has it. -/
structure Merged (sources : List Headers) (headers : Headers) : Prop where
  nodup : (headers.map Prod.fst).Nodup
  get? : ∀ name, Pairs.get? name headers = sources.reverse.findSome? (Pairs.get? name)

namespace Merged

theorem single (nodup : (headers.map Prod.fst).Nodup) : Merged [headers] headers :=
  ⟨nodup, fun name => by
    rw [List.reverse_singleton, List.findSome?_singleton]⟩

/-- Headers that are set afterwards are one more source. -/
theorem merge (merged : Merged sources headers) (nodup : (changes.map Prod.fst).Nodup) :
    Merged (sources ++ [changes]) (Pairs.merge headers changes) where
  nodup := Pairs.nodup_merge merged.nodup changes
  get? name := by
    rw [Pairs.get?_merge, Pairs.ofList_eq_self nodup, merged.get?, List.reverse_concat,
      List.findSome?_cons]
    cases Pairs.get? name changes <;> rfl

theorem mergeAll (merged : Merged sources headers) {sets : List Headers}
    (nodup : ∀ set ∈ sets, (set.map Prod.fst).Nodup) :
    Merged (sources ++ sets) (sets.foldl Pairs.merge headers) := by
  induction sets generalizing sources headers with
  | nil => rwa [List.append_nil]
  | cons set sets ih =>
    obtain ⟨here, later⟩ := List.forall_mem_cons.1 nodup
    rw [List.append_cons]
    exact ih (merged.merge here) later

/-- The spellings are those of the sources. -/
theorem mem_names_iff (merged : Merged sources headers) :
    a ∈ headers.map Prod.fst ↔ a ∈ spellings sources := by
  rw [← not_iff_not, ← Pairs.get?_eq_none_iff, merged.get?, List.findSome?_eq_none_iff,
    mem_spellings]
  simp only [List.mem_reverse, Pairs.get?_eq_none_iff]
  push Not
  rfl

/-- No name is there twice exactly if the sources spell every name alike. -/
theorem distinct_iff (merged : Merged sources headers) : headers.Distinct ↔ Uniform sources := by
  rw [Headers.distinct_iff merged.nodup]
  simp only [merged.mem_names_iff]
  rfl

/-- If the sources spell every name alike, each name has the value in the last source that has it. -/
theorem valueOf?_eq (merged : Merged sources headers) (uniform : Uniform sources) (name : String) :
    valueOf? name headers = lastOf? name sources := by
  obtain ⟨a, same, only⟩ := uniform.exists_spelling name
  rw [lastOf?_eq same only, ← merged.get?]
  exact valueOf?_eq_get? same fun b there => only b (merged.mem_names_iff.1 there)

end Merged

end Headers

end GraphClient
