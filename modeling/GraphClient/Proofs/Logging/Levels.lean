import GraphClient.Proofs.Logging.Setup

/-!
# Levels of loggers

* `Loggers.ancestors_below`, `Loggers.ancestors_of_notMem`: the names above a name whose parts are
  not empty are its beginnings, the nearest first.
* `LogManager.own_leveled`: a set-up gives a component the level that the settings give it last, and
  leaves all others.
* `LogManager.effective_leveled`: on loggers without levels, a name gets what the settings say
  (`LoggingSettings.levelFor`).
-/

namespace GraphClient

theorem LogLevel.number_pos (level : LogLevel) : 0 < level.number := by
  cases level <;> decide

theorem LogLevel.number_ne_zero (level : LogLevel) : level.number ≠ 0 := by
  cases level <;> decide

/-! ## The names above a name -/

namespace Loggers

/-- Whether a dot was passed does not matter at a part of a name. -/
theorem above_append {cs : List Char} (plain : '.' ∉ cs) (nonempty : cs ≠ []) (passed : Bool)
    (rest : List Char) : above passed (cs ++ rest) = above false rest := by
  induction cs generalizing passed with
  | nil => exact absurd rfl nonempty
  | cons c cs ih =>
    rw [List.mem_cons, not_or] at plain
    rw [List.cons_append, above, if_neg (by simp [Ne.symm plain.1])]
    by_cases last : cs = []
    · rw [last, List.nil_append]
    · exact ih plain.2 last false

/-- No name is above one without dots. -/
theorem ancestors_of_notMem {name : String} (plain : '.' ∉ name.toList) : ancestors name = [] := by
  by_cases nonempty : name.toList.reverse = []
  · rw [ancestors, nonempty, above]
  · have all := above_append (mt List.mem_reverse.1 plain) nonempty false []
    rwa [List.append_nil, above] at all

/-- Above a name stands what precedes its last part, and what is above that. -/
theorem ancestors_below {parent part : String} (plain : '.' ∉ part.toList) (nonempty : part ≠ "")
    {c : Char} (ends : parent.toList.getLast? = some c) (closed : c ≠ '.') :
    ancestors (parent ++ "." ++ part) = parent :: ancestors parent := by
  obtain ⟨front, last⟩ := List.getLast?_eq_some_iff.1 ends
  have reversed : parent.toList.reverse = c :: front.reverse := by
    rw [last, List.reverse_append]
    rfl
  have split : (parent ++ "." ++ part).toList.reverse =
      part.toList.reverse ++ '.' :: parent.toList.reverse := by
    rw [String.toList_append, String.toList_append, List.reverse_append, List.reverse_append]
    rfl
  have some : part.toList.reverse ≠ [] := by
    rw [Ne, List.reverse_eq_nil_iff, String.toList_eq_nil_iff]
    exact nonempty
  have other : '.' ∉ [c] := fun mem => closed (List.mem_singleton.1 mem).symm
  rw [ancestors, split, above_append (mt List.mem_reverse.1 plain) some, above,
    if_pos (by simp [reversed]), List.reverse_reverse, String.ofList_toList, ancestors, reversed]
  -- The last character of what precedes is no dot, so that one was passed makes no difference.
  exact congrArg _ ((above_append other nofun true front.reverse).trans
    (above_append other nofun false front.reverse).symm)

theorem isRoot_iff {name : String} : isRoot name = true ↔ name = "" ∨ name = rootName := by
  rw [isRoot, Bool.or_eq_true, String.isEmpty_iff, decide_eq_true_iff]

/-- The name of the root is above others at most as the last one. -/
theorem pairwise_above (passed : Bool) (cs : List Char) :
    (above passed cs).Pairwise fun name _ => isRoot name = false := by
  fun_induction above passed cs with
  | case1 => exact List.Pairwise.nil
  | case2 passed c rest begins ih =>
    refine List.pairwise_cons.2 ⟨fun name mem => Bool.eq_false_iff.2 fun root => ?_, ih⟩
    rcases isRoot_iff.1 root with empty | same
    · rw [String.ofList_eq_empty_iff, List.reverse_eq_nil_iff] at empty
      rw [empty] at mem
      cases mem
    · have letters : rest = ['t', 'o', 'o', 'r'] := by
        rw [← List.reverse_reverse rest, ← String.toList_ofList (l := rest.reverse), same]
        rfl
      rw [letters] at mem
      cases mem
  | case3 passed c rest _ ih => exact ih

/-! ## Giving levels -/

theorem own_setLevel_self {name : String} (named : isRoot name = false) (level : Int)
    (l : Loggers) : (l.setLevel name level).own name = level := by
  rw [setLevel, own, named]
  simp only [Bool.false_eq_true, if_false, Pairs.get?_set_self, Option.getD_some]

theorem own_setLevel_of_ne {name other : String} (named : isRoot name = false)
    (ne : name ≠ other) (level : Int) (l : Loggers) :
    (l.setLevel other level).own name = l.own name := by
  simp only [setLevel, own, named, Bool.false_eq_true, if_false]
  split
  · rfl
  · rw [Pairs.get?_set_of_ne ne]

theorem root_setLevel {other : String} (named : isRoot other = false) (level : Int)
    (l : Loggers) : (l.setLevel other level).root = l.root := by
  rw [setLevel, named]
  rfl

end Loggers

namespace LogManager

theorem leveled_concat (components : List (String × LogLevel)) (component : String × LogLevel)
    (l : Loggers) : leveled (components ++ [component]) l =
      (leveled components l).setLevel component.1 component.2.number :=
  List.foldl_concat ..

/-- A component has the level that it was given last, and where none was given that of before. -/
theorem own_leveled {name : String} (named : Loggers.isRoot name = false)
    (components : List (String × LogLevel)) (l : Loggers) :
    (leveled components l).own name =
      (Pairs.get? name (Pairs.ofList components)).elim (l.own name) LogLevel.number := by
  induction components using List.reverseRecOn with
  | nil => rfl
  | append_singleton components component ih =>
    rw [leveled_concat, Pairs.ofList_concat]
    by_cases same : name = component.1
    · subst same
      rw [Loggers.own_setLevel_self named, Pairs.get?_set_self, Option.elim_some]
    · rw [Loggers.own_setLevel_of_ne named same, ih, Pairs.get?_set_of_ne same]

theorem root_leveled {components : List (String × LogLevel)}
    (named : ∀ c ∈ components, Loggers.isRoot c.1 = false) (l : Loggers) :
    (leveled components l).root = l.root := by
  induction components using List.reverseRecOn with
  | nil => rfl
  | append_singleton components component ih =>
    rw [leveled_concat, Loggers.root_setLevel (named component (by simp)),
      ih fun c mem => named c (List.mem_append_left _ mem)]

end LogManager

/-- The level that settings give to a name: that of the nearest component above, itself included,
and where none is listed the general one. -/
def LoggingSettings.levelFor (settings : LoggingSettings) (name : String) : Int :=
  ((name :: Loggers.ancestors name).findSome?
    (Pairs.get? · (Pairs.ofList settings.componentLevels))).elim
      settings.level.number LogLevel.number

namespace LogManager

/-- Of some names the first one with a level counts. -/
theorem find_leveled {settings : LoggingSettings} {l : Loggers} {names : List String}
    (above : names.Pairwise fun name _ => Loggers.isRoot name = false)
    (own : ∀ name, Loggers.isRoot name = false → l.own name =
      (Pairs.get? name (Pairs.ofList settings.componentLevels)).elim 0 LogLevel.number)
    (root : l.root = settings.level.number)
    (unlisted : ∀ name, Loggers.isRoot name = true →
      Pairs.get? name (Pairs.ofList settings.componentLevels) = none) :
    ((names.map l.own).find? (· ≠ 0)).getD l.root =
      (names.findSome? (Pairs.get? · (Pairs.ofList settings.componentLevels))).elim
        settings.level.number LogLevel.number := by
  induction names with
  | nil => exact root
  | cons name names ih =>
    obtain ⟨last, above⟩ := List.pairwise_cons.1 above
    rw [List.map_cons, List.find?_cons, List.findSome?_cons]
    cases named : Loggers.isRoot name with
    | true =>
      -- The root has a level, and nothing comes after it.
      have none : names = [] := List.eq_nil_iff_forall_not_mem.2 fun other mem =>
        Bool.false_ne_true ((last other mem).symm.trans named)
      have given : l.own name = settings.level.number := (if_pos named).trans root
      rw [given, unlisted name named, none]
      simp only [ne_eq, LogLevel.number_ne_zero, not_false_eq_true, decide_true, Option.getD_some,
        List.findSome?_nil, Option.elim_none]
    | false =>
      rw [own name named]
      cases Pairs.get? name (Pairs.ofList settings.componentLevels) with
      | none => exact ih above
      | some level =>
        simp only [Option.elim_some, ne_eq, LogLevel.number_ne_zero, not_false_eq_true, decide_true,
          Option.getD_some]

/-- On loggers without levels a name gets what the settings say, if they do not name the root. -/
theorem effective_leveled {settings : LoggingSettings}
    (named : ∀ c ∈ settings.componentLevels, Loggers.isRoot c.1 = false) (name : String) :
    (leveled settings.componentLevels ⟨settings.level.number, []⟩).effective name =
      settings.levelFor name := by
  have root := root_leveled named ⟨settings.level.number, []⟩
  have unlisted : ∀ name, Loggers.isRoot name = true →
      Pairs.get? name (Pairs.ofList settings.componentLevels) = none := fun name root =>
    Pairs.get?_ofList_eq_none fun c mem same =>
      Bool.false_ne_true ((named c mem).symm.trans (same ▸ root))
  unfold Loggers.effective
  split
  · rename_i isRoot
    have top : Loggers.ancestors name = [] := by
      rcases Loggers.isRoot_iff.1 isRoot with rfl | rfl
      · exact Loggers.ancestors_of_notMem (by decide)
      · exact Loggers.ancestors_of_notMem (by decide)
    rw [root, LoggingSettings.levelFor, top, List.findSome?_cons, unlisted name isRoot,
      List.findSome?_nil, Option.elim_none]
  · rename_i isNamed
    have below := Bool.eq_false_iff.2 isNamed
    refine find_leveled (List.pairwise_cons.2 ⟨fun _ _ => below, Loggers.pairwise_above ..⟩)
      (fun name named => ?_) root unlisted
    rw [own_leveled named, Loggers.own, named]
    rfl

end LogManager

end GraphClient
