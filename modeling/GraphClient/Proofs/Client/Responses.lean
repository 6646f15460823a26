import GraphClient.Proofs.Pairs
import GraphClient.Response

/-!
# What responses and failures of the network stand for

`QueryError.Concerns url e`: the error is one of the transport, or of the endpoint itself, and
carries the address of the request.

* `QueryError.ofStatus_concerns`, `QueryError.ofFailure_concerns`: every status and every fault has
  such an error. Making it does not fail, if the headers are texts.
* `Response.data_spec`: a response gives the `data` member of its payload, or such an error, unless
  an integer in its text is too long to be read (`Response.LongInteger`).
-/

namespace GraphClient

/-- The error is one of the transport or one that the endpoint reports, and carries the address. -/
structure QueryError.Concerns (url : Value) (e : QueryError) : Prop where
  cls : .transport ∈ e.cls.lineage ∨ e.cls = .remote
  url : e.url = url

/-- All classes but the most general one and that of reported errors are classes of the transport. -/
theorem ErrorClass.transport_mem (cls : ErrorClass) (notBase : cls ≠ .base)
    (notRemote : cls ≠ .remote) : .transport ∈ cls.lineage := by
  cases cls <;> first | contradiction | decide

/-- An error of a class of the transport concerns its address. -/
theorem QueryError.Concerns.ofClass {e : QueryError} {url : Value} (same : e.url = url)
    (notBase : e.cls ≠ .base) (notRemote : e.cls ≠ .remote) : e.Concerns url :=
  ⟨.inl (ErrorClass.transport_mem e.cls notBase notRemote), same⟩

/-- The values of headers are texts. -/
def TextValues (headers : List (String × Value)) : Prop := ∀ header ∈ headers, ∃ s, header.2 = .text s

/-! ## Values whose truth is known -/

namespace Value

/-- Asking the value for its truth does not fail. -/
def Decided (v : Value) : Prop := v.truth ≠ .undecided

theorem Decided.decideTruth {v : Value} (h : v.Decided) : v.decideTruth = .ok v.isTrue := by
  unfold Value.decideTruth isTrue
  cases known : v.truth with
  | undecided => exact absurd known h
  | _ => rfl

theorem decided_ofBool (b : Bool) : Truth.ofBool b ≠ .undecided := by cases b <;> nofun

theorem Decided.orElse {v : Value} (h : v.Decided) (fallback : Value) :
    v.orElse fallback = .ok (if v.isTrue then v else fallback) := by
  rw [Value.orElse, h.decideTruth]
  rfl

theorem decided_text (s : String) : (text s).Decided := decided_ofBool _

theorem decided_null : null.Decided := nofun

end Value

namespace Json

theorem decided_toValue (document : Json) : document.toValue.Decided := by
  cases document with
  | null => nofun
  | _ => exact Value.decided_ofBool _

/-- An entry of an object, or null, is a document. -/
theorem getD_toEntries (key : String) (members : List (String × Json)) :
    ∃ document : Json, (Value.lookup? key (toEntries members)).getD .null = document.toValue := by
  unfold Value.lookup?
  induction members with
  | nil => exact ⟨null, rfl⟩
  | cons member members ih =>
    rw [toEntries, Pairs.get?]
    split
    · exact ⟨member.2, rfl⟩
    · exact ih

end Json

namespace QueryError

/-! ## Statuses and faults -/

theorem retryAfter_ok {headers : List (String × Value)} (texts : TextValues headers) :
    ∃ wait, retryAfter headers = .ok wait := by
  have given (name : String) : (∃ s, (Pairs.get? name headers).getD .null = .text s) ∨
      (Pairs.get? name headers).getD .null = .null := by
    cases found : Pairs.get? name headers with
    | none => exact .inr rfl
    | some v =>
      obtain ⟨header, mem, rfl⟩ := Pairs.exists_mem_of_get? found
      exact .inl (texts header mem)
  have plain (v : Value) (h : (∃ s, v = .text s) ∨ v = .null) : v.Decided := by
    rcases h with ⟨s, rfl⟩ | rfl
    · exact Value.decided_text s
    · exact Value.decided_null
  -- The first spelling with a value counts.
  obtain ⟨header, chosen, kind⟩ : ∃ header, ((Pairs.get? "Retry-After" headers).getD .null).orElse
      ((Pairs.get? "retry-after" headers).getD .null) = .ok header ∧
      ((∃ s, header = .text s) ∨ header = .null) := by
    refine ⟨_, (plain _ (given "Retry-After")).orElse _, ?_⟩
    split
    · exact given "Retry-After"
    · exact given "retry-after"
  simp only [retryAfter, chosen, (plain header kind).decideTruth, bind, Except.bind]
  split
  · exact ⟨_, rfl⟩
  · rcases kind with ⟨s, rfl⟩ | rfl
    · simp only [Value.toDouble, Value.textToDouble]
      cases Decimal.readFloat? s with
      | some x => exact ⟨_, rfl⟩
      | none => exact ⟨_, rfl⟩
    · contradiction

/-- Every status has an error. -/
theorem ofStatus_concerns (status : Int) (message : String) (url : Value)
    {headers : List (String × Value)} (response : Value) (texts : TextValues headers) :
    ∃ e, ofStatus status message url headers response = .ok e ∧ e.Concerns url := by
  obtain ⟨wait, known⟩ := retryAfter_ok texts
  unfold ofStatus
  simp only [known, Except.map]
  repeat' split
  all_goals exact ⟨_, rfl, .ofClass rfl nofun nofun⟩

/-- Every fault has an error. -/
theorem ofFailure_concerns (f : Fault) (url timeout : Value) :
    ∃ e, ofFailure (.fault f) url timeout = .ok e ∧ e.Concerns url := by
  cases f with
  | general condition text =>
    simp only [ofFailure]
    split <;> exact ⟨_, rfl, .ofClass rfl nofun nofun⟩
  | network kind text report =>
    simp only [ofFailure]
    split
    · exact ⟨_, rfl, .ofClass rfl nofun nofun⟩
    split
    · exact ⟨_, rfl, .ofClass rfl nofun nofun⟩
    split
    · exact ⟨_, rfl, .ofClass rfl nofun nofun⟩
    split
    · refine ofStatus_concerns _ _ _ _ fun header mem => ?_
      obtain ⟨pair, -, rfl⟩ := List.mem_map.1 mem
      exact ⟨pair.2, rfl⟩
    · exact ⟨_, rfl, .ofClass rfl nofun nofun⟩

/-! ## Reported errors -/

/-- Errors reported as a list of documents, of which there is at least one, make one error. -/
theorem ofErrors_concerns (first : Json) (rest : List Value) (url : Value) :
    ∃ e, ofErrors (.list (first.toValue :: rest)) url = .ok e ∧ e.Concerns url := by
  have message : (firstMessage first.toValue).Decided := by
    cases first with
    | object members =>
      obtain ⟨document, found⟩ := Json.getD_toEntries "message" members
      rw [Json.toValue, firstMessage, found]
      exact document.decided_toValue
    | _ => exact Value.decided_null
  have holds : (Value.list (first.toValue :: rest)).decideTruth = .ok true := rfl
  simp only [ofErrors, holds, Value.first, message.orElse, Value.items, Value.items?, bind,
    Except.bind, if_true]
  exact ⟨_, rfl, .inr rfl, rfl⟩

end QueryError

namespace Response

/-- A value is the `data` member of the payload of a response, which is an object; it is null if
there is none. -/
def HasData (r : Response) (v : Value) : Prop :=
  ∃ document payload, Json.load r.text = .ok document ∧ document.toValue = .map payload ∧
    v = (Value.lookup? "data" payload).getD .null

/-- The first part of the text of a response that is not read is an integer of that many digits. -/
def LongInteger (r : Response) (digits : Nat) : Prop :=
  Json.load r.text = .error (.tooManyDigits digits)

theorem contentError_concerns (r : Response) (url : Value) (message : String) (cause : Option Cause) :
    ∃ e, r.contentError url message cause = .query e ∧ e.Concerns url :=
  ⟨_, rfl, .ofClass rfl nofun nofun⟩

/-- The `errors` member of a payload is nothing to report, or stands for an error. -/
theorem checkErrors_spec (r : Response) (url : Value) (errors : Json) :
    r.checkErrors url errors.toValue = .ok () ∨
      ∃ e, r.checkErrors url errors.toValue = .error (.query e) ∧ e.Concerns url := by
  have truth := errors.decided_toValue.decideTruth
  cases holds : errors.toValue.isTrue with
  | false =>
    left
    simp only [checkErrors, truth, holds, bind, Except.bind, Bool.not_false, if_true]
    rfl
  | true =>
    right
    simp only [checkErrors, truth, holds, bind, Except.bind, Bool.not_true, Bool.false_eq_true,
      if_false]
    cases errors with
    | object members =>
      obtain ⟨e, made, concerns⟩ := QueryError.ofErrors_concerns (.object members) [] url
      refine ⟨e, ?_, concerns⟩
      rw [Json.toValue] at made ⊢
      simp only [made]
      rfl
    | array items =>
      cases items with
      | nil => cases holds
      | cons first rest =>
        obtain ⟨e, made, concerns⟩ := QueryError.ofErrors_concerns first (Json.toValues rest) url
        refine ⟨e, ?_, concerns⟩
        rw [Json.toValue, Json.toValues]
        simp only [made]
        rfl
    | _ =>
      obtain ⟨e, made, concerns⟩ := r.contentError_concerns url
        ("Expected 'errors' to be an array, got " ++ (Json.toValue _).typeName) none
      exact ⟨e, congrArg Except.error made, concerns⟩

theorem data_of_longInteger (r : Response) {digits : Nat} (success : isSuccess r.status = true)
    (long : r.LongInteger digits) (url : Value) : r.data url = .error (.integerNotRead digits) := by
  simp only [data, success, bind, Except.bind, Bool.not_true, Bool.false_eq_true, if_false]
  rw [long]
  rfl

/-- A response gives the `data` member of its payload, or an error about the address, or the failure
of reading an integer. -/
theorem data_spec (r : Response) (url : Value) (texts : TextValues r.headers) :
    (∃ v, r.data url = .ok v ∧ isSuccess r.status = true ∧ r.HasData v) ∨
      (∃ e, r.data url = .error (.query e) ∧ e.Concerns url) ∨
      ∃ digits, r.data url = .error (.integerNotRead digits) ∧ isSuccess r.status = true ∧
        r.LongInteger digits := by
  cases success : isSuccess r.status with
  | false =>
    refine .inr (.inl ?_)
    obtain ⟨e, made, concerns⟩ := QueryError.ofStatus_concerns r.status
      ("Received Non-OK status code from server: " ++ toString r.status) url (.text r.text) texts
    refine ⟨e, ?_, concerns⟩
    simp only [data, success, made, bind, Except.bind, Bool.not_false, if_true]
    rfl
  | true =>
    simp only [data, success, bind, Except.bind, Bool.not_true, Bool.false_eq_true, if_false]
    have unexpected (message : String) (cause : Option Cause) : ∃ e : QueryError,
        (throw (r.contentError url message cause) : Outcome) = .error (.query e) ∧
          e.Concerns url := by
      obtain ⟨e, made, concerns⟩ := r.contentError_concerns url message cause
      exact ⟨e, congrArg Except.error made, concerns⟩
    cases document? : Json.load r.text with
    | error refusal =>
      cases refusal with
      | malformed => exact .inr (.inl (unexpected _ _))
      | tooManyDigits digits => exact .inr (.inr ⟨digits, rfl, trivial, document?⟩)
    | ok document =>
      cases document with
      | object members =>
        obtain ⟨errors, found⟩ := Json.getD_toEntries "errors" members
        simp only [Json.toValue, found]
        rcases r.checkErrors_spec url errors with fine | ⟨e, reported, concerns⟩
        · rw [fine]
          exact .inl ⟨_, rfl, trivial, .object members, _, document?, rfl, rfl⟩
        · rw [reported]
          exact .inr (.inl ⟨e, rfl, concerns⟩)
      | _ => exact .inr (.inl (unexpected _ _))

end Response

end GraphClient
