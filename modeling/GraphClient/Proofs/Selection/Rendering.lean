import GraphClient.Proofs.Selection.Parts

/-!
# Rendering, value by value

* `Selection.induction`: induction over everything that rendering can come to inside a value.
* `Selection.render_of_isOther`: values that are neither text nor hold selections are skipped or noted.
* `Selection.renderStep_eq`: a stepped value stands for the result with its number.
-/

namespace GraphClient

theorem Recording.run_bind_of_error {α β : Type} {r : Recording α} {f : α → Recording β}
    {j j₁ : Journal} {e : Thrown} (h : r.run.run j = (.error e, j₁)) :
    (r >>= f).run.run j = (.error e, j₁) := by
  rw [ExceptT.run_bind, StateT.run_bind, h]
  rfl

namespace Selection

/-- Values that are no text and hold nothing to be rendered. -/
def isOther : Value → Bool
  | .null | .bool _ | .int _ | .float _ | .bytes _ | .set _ | .path _ | .foreign .. => true
  | _ => false

/-- Such a value selects nothing, or is noted as one that cannot be rendered. -/
theorem render_of_isOther {v : Value} (other : isOther v = true) :
    render v = if isEmpty v then pure "" else ignore v := by
  cases v with
  | list | tuple | map | text | deferred | stepped | failing | field => cases other
  | _ =>
    rw [render]
    all_goals simp

/-- The result with the given number, or the last one if there are fewer. -/
def resultAt (n : Nat) (results : List Value) : Value := results.getD n (results.getLastD .null)

theorem renderStep_eq (n : Nat) (results : List Value) :
    renderStep n results = render (resultAt n results) := by
  induction results generalizing n with
  | nil => rfl
  | cons v rest ih =>
    cases rest with
    | nil => cases n <;> rfl
    | cons next rest =>
      cases n with
      | zero => rfl
      | succ n => exact ih n

theorem resultAt_mem {results : List Value} (some' : results ≠ []) (n : Nat) :
    resultAt n results ∈ results := by
  unfold resultAt
  rw [List.getD_eq_getElem?_getD]
  cases found : results[n]? with
  | some v => exact List.mem_of_getElem? found
  | none =>
    rw [Option.getD_none, List.getLastD_eq_getLast?, List.getLast?_eq_some_getLast some']
    exact List.getLast_mem some'

/-- A stepped value stands for the result with the number of the computations before. -/
theorem render_stepped (slot : Nat) (results : List Value) :
    render (.stepped slot results) =
      Recording.countUp slot >>= fun n => render (resultAt n results) := by
  rw [render]
  exact congrArg _ (funext fun n => renderStep_eq n results)

/-- Induction over what is rendered inside a value: the members of groups, what stands below keys,
and what computed values give. -/
theorem induction {motive : Value → Prop}
    (list : ∀ items, (∀ v ∈ items, motive v) → motive (.list items))
    (tuple : ∀ items, (∀ v ∈ items, motive v) → motive (.tuple items))
    (map : ∀ entries : List (Value × Value), (∀ e ∈ entries, motive e.2) → motive (.map entries))
    (deferred : ∀ label result, motive result → motive (.deferred label result))
    (stepped : ∀ slot results, (∀ n, motive (resultAt n results)) → motive (.stepped slot results))
    (failing : ∀ error, motive (.failing error)) (field : ∀ s, motive (.field s))
    (text : ∀ s, motive (.text s)) (other : ∀ v, isOther v = true → motive v) (v : Value) :
    motive v := by
  induction size : sizeOf v using Nat.strongRecOn generalizing v with
  | ind n ih =>
    subst size
    cases v with
    | list items =>
      refine list items fun v mem => ih _ ?_ v rfl
      have := List.sizeOf_lt_of_mem mem
      simp only [Value.list.sizeOf_spec]
      omega
    | tuple items =>
      refine tuple items fun v mem => ih _ ?_ v rfl
      have := List.sizeOf_lt_of_mem mem
      simp only [Value.tuple.sizeOf_spec]
      omega
    | map entries =>
      refine map entries fun e mem => ih _ ?_ e.2 rfl
      have := List.sizeOf_lt_of_mem mem
      have : sizeOf e.2 < sizeOf e := by
        rw [Prod.mk.sizeOf_spec]
        omega
      simp only [Value.map.sizeOf_spec]
      omega
    | deferred label result =>
      refine deferred label result (ih _ ?_ result rfl)
      simp only [Value.deferred.sizeOf_spec]
      omega
    | stepped slot results =>
      refine stepped slot results fun n => ?_
      by_cases none : results = []
      · rw [none]
        exact other _ rfl
      · refine ih _ ?_ _ rfl
        have := List.sizeOf_lt_of_mem (resultAt_mem none n)
        simp only [Value.stepped.sizeOf_spec]
        omega
    | failing error => exact failing error
    | field s => exact field s
    | text s => exact text s
    | _ => exact other _ rfl

end Selection

end GraphClient
