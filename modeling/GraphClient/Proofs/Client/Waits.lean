import GraphClient.Proofs.Client.HeaderNames
import GraphClient.Proofs.Client.Responses
import GraphClient.Proofs.Numerals
import GraphClient.Proofs.Rounding

/-!
# Responses that ask to wait

A response with the status 429 may tell in a header how long to wait. The name of the header counts
without regard to the case of its letters; only two of its spellings are looked up.

* `QueryError.retryAfter_absent`, `QueryError.retryAfter_single`: what is found where no header has
  the name, and where a single one has it.
* `Decimal.toRat?_readFloat?_digits`: up to fifteen digits are read exactly.
* `Response.data_limited`: the error of such a response, and when it has the time to wait.
-/

namespace GraphClient

/-- Up to fifteen digits are read as the number that they denote. -/
theorem Decimal.toRat?_readFloat?_digits {s : String} (filled : s.toList ≠ [])
    (short : s.length ≤ 15) (digits : Digits s.toList) :
    ∃ x, readFloat? s = some x ∧ x.toRat? = some (Nat.ofDigitChars 10 s.toList 0 : Rat) := by
  refine ⟨_, readFloat?_digits filled digits, ?_⟩
  have small : digitsValue s.toList < 2 ^ 53 :=
    calc digitsValue s.toList < 10 ^ s.toList.length := digitsValue_lt digits
      _ ≤ 10 ^ 15 := Nat.pow_le_pow_right (by decide) (String.length_toList ▸ short)
      _ < 2 ^ 53 := by decide
  rw [← digitsValue_eq]
  exact Binary64.ofRatio_whole small

/-- The header that asks to wait, in any spelling. -/
abbrev AsksToWait (header : String × Value) : Prop := SameHeader header.1 "retry-after"

/-- A spelling that is looked up. -/
abbrev IsLookedUp (name : String) : Prop := name = "Retry-After" ∨ name = "retry-after"

namespace QueryError

variable {headers : List (String × Value)} {name s : String}

/-- The time that a text asks to wait: the number that it is the text of. -/
def waitOf (s : String) : Value :=
  match Decimal.readFloat? s with
  | some x => .float x
  | none => .null

theorem waitOf_ne_null_iff : waitOf s ≠ .null ↔ Decimal.IsNumeral s := by
  rw [← Decimal.isSome_readFloat?_iff, waitOf]
  cases Decimal.readFloat? s with
  | none => simp
  | some x => simp

theorem waitOf_empty : waitOf "" = .null := rfl

/-- What is found of a header that is a text or missing. -/
def headerText (text? : Option String) : Value := (text?.map .text).getD .null

theorem decided_headerText (text? : Option String) : (headerText text?).Decided := by
  cases text? with
  | none => exact Value.decided_null
  | some s => exact Value.decided_text s

theorem isTrue_headerText (text? : Option String) :
    (headerText text?).isTrue = decide (text?.getD "" ≠ "") := by
  cases text? with
  | none => rfl
  | some s =>
    by_cases empty : s = "" <;> simp [headerText, Value.isTrue, Value.truth, Truth.ofBool, empty]

/-- Of two headers, the second one counts if the first one is empty. -/
theorem orElse_headerText (upper lower : Option String) :
    (headerText upper).orElse (headerText lower) =
      .ok (headerText (if upper.getD "" ≠ "" then upper else lower)) := by
  rw [(decided_headerText upper).orElse, isTrue_headerText, ← apply_ite headerText]
  simp only [decide_eq_true_eq]

/-- What two headers tell, each of them a text or missing. -/
theorem retryAfter_eq {upper lower : Option String}
    (capitalized : Pairs.get? "Retry-After" headers = upper.map .text)
    (small : Pairs.get? "retry-after" headers = lower.map .text) :
    retryAfter headers =
      .ok (waitOf ((if upper.getD "" ≠ "" then upper else lower).getD "")) := by
  have found := orElse_headerText upper lower
  generalize (if upper.getD "" ≠ "" then upper else lower) = chosen at found ⊢
  have tested := (decided_headerText chosen).decideTruth
  rw [isTrue_headerText] at tested
  rw [headerText, ← capitalized, headerText, ← small] at found
  rw [retryAfter]
  simp only [bind, Except.bind, found, tested]
  cases chosen with
  | none => rfl
  | some s =>
    rw [Option.getD_some]
    by_cases empty : s = ""
    · subst empty
      rfl
    · simp only [empty, ne_eq, not_false_eq_true, decide_true, Bool.not_true, Bool.false_eq_true,
        if_false, headerText, Option.map_some, Option.getD_some, Value.toDouble,
        Value.textToDouble, waitOf]
      cases Decimal.readFloat? s <;> rfl

/-- Without such a header, no time is told. -/
theorem retryAfter_absent (absent : ∀ header ∈ headers, ¬AsksToWait header) :
    retryAfter headers = .ok .null := by
  have none' {key : String} (spelled : SameHeader key "retry-after") :
      Pairs.get? key headers = (none : Option String).map .text :=
    Pairs.get?_of_notMem fun mem => by
      obtain ⟨header, there, rfl⟩ := List.mem_map.1 mem
      exact absent header there spelled
  exact retryAfter_eq (none' (by decide)) (none' (by decide))

/-- A single header counts if it is spelled as it is looked up. -/
theorem retryAfter_single
    (single : headers.filter (fun header => AsksToWait header) = [(name, .text s)]) :
    retryAfter headers = .ok (if IsLookedUp name then waitOf s else .null) := by
  have found {key : String} (spelled : SameHeader key "retry-after") :
      Pairs.get? key headers = (if name = key then some s else none).map .text := by
    have kept := Pairs.get?_filter (p := fun key => SameHeader key "retry-after")
      (decide_eq_true spelled) headers
    rw [single, Pairs.get?, Pairs.get?] at kept
    rw [← kept]
    by_cases same : name = key <;> simp [same]
  rw [retryAfter_eq (found (by decide)) (found (by decide))]
  by_cases upper : name = "Retry-After"
  · subst upper
    by_cases empty : s = "" <;> simp [empty, waitOf_empty]
  · by_cases lower : name = "retry-after" <;> simp [upper, lower, waitOf_empty]

end QueryError

namespace Response

/-- A response gives the error of a limited rate, with the headers and with a time to wait. -/
def Limits (r : Response) (url wait : Value) : Prop :=
  ∃ e, r.data url = .error (.query e) ∧ e.cls = .rateLimit ∧
    e.data = .rateLimit (.ofPairs r.headers) wait

variable {text : String} {headers : List (String × Value)}

/-- The error of the status 429 has the time that the headers tell. -/
theorem limits_of_retryAfter {wait : Value} (told : QueryError.retryAfter headers = .ok wait)
    (text : String) (url : Value) : Limits ⟨429, text, headers⟩ url wait := by
  have notSuccess : isSuccess 429 = false := rfl
  refine ⟨⟨.rateLimit, .text ("Rate limit exceeded: " ++
      ("Received Non-OK status code from server: " ++ toString (429 : Int))), url, [],
    .rateLimit (.ofPairs headers) wait, none⟩, ?_, rfl, rfl⟩
  simp only [data, notSuccess, QueryError.ofStatus, told, Except.map]
  rfl

/-- **Responses that limit the rate.** A response with the status 429 gives the error of a limited
rate, whatever its text and its other headers. It has no time to wait if no header asks to wait in
any spelling. If a single header does, with a text, the error has a time exactly if the text is that
of a number and the name is spelled in one of the two ways that are looked up; and a text of one to
fifteen digits is told as the number that it denotes exactly for these two spellings. -/
theorem data_limited (text : String) (headers : List (String × Value)) (url : Value) :
    ((∀ header ∈ headers, ¬AsksToWait header) → Limits ⟨429, text, headers⟩ url .null) ∧
    ∀ name s, headers.filter (fun header => AsksToWait header) = [(name, .text s)] →
      ∃ wait, Limits ⟨429, text, headers⟩ url wait ∧
        (wait ≠ .null ↔ Decimal.IsNumeral s ∧ IsLookedUp name) ∧
        (s.toList ≠ [] → s.length ≤ 15 → Decimal.Digits s.toList →
          ((∃ x, wait = .float x ∧ x.toRat? = some (Nat.ofDigitChars 10 s.toList 0 : Rat)) ↔
            IsLookedUp name)) := by
  refine ⟨fun absent => limits_of_retryAfter (QueryError.retryAfter_absent absent) text url,
    fun name s single => ⟨_, limits_of_retryAfter (QueryError.retryAfter_single single) text url,
      ?_, fun filled short digits => ?_⟩⟩
  · split
    · rename_i known
      rw [QueryError.waitOf_ne_null_iff, and_iff_left known]
    · rename_i unknown
      exact iff_of_false (fun ne => ne rfl) fun h => unknown h.2
  · split
    · rename_i known
      obtain ⟨x, read, value⟩ := Decimal.toRat?_readFloat?_digits filled short digits
      refine iff_of_true ⟨x, ?_, value⟩ known
      rw [QueryError.waitOf, read]
    · rename_i unknown
      exact iff_of_false (fun ⟨_, same, _⟩ => nomatch same) unknown

/-- Headers that ask to wait for two minutes, among others. -/
def twoMinutes : List (String × Value) :=
  [("X-Limit", .int 5), ("retry-after", .text "120"), ("Retry", .text "1")]

theorem data_limited_twoMinutes :
    ((∀ header ∈ [("X-Limit", Value.int 5)], ¬AsksToWait header) ∧
      Limits ⟨429, "", [("X-Limit", .int 5)]⟩ .null .null) ∧
    (twoMinutes.filter (fun header => AsksToWait header) = [("retry-after", .text "120")] ∧
      "120".toList ≠ [] ∧ "120".length ≤ 15 ∧ Decimal.Digits "120".toList) ∧
    ∃ x : Binary64, Limits ⟨429, "slow down", twoMinutes⟩ (.text "u") (.float x) ∧
      x.toRat? = some 120 := by
  have absent : ∀ header ∈ [("X-Limit", Value.int 5)], ¬AsksToWait header :=
    List.forall_mem_singleton.2 (by decide)
  have single : twoMinutes.filter (fun header => AsksToWait header) =
    [("retry-after", .text "120")] := rfl
  have digits : Decimal.Digits "120".toList :=
    List.all_eq_true.1 (show "120".toList.all Decimal.isPlainDigit = true from rfl)
  obtain ⟨wait, limits, -, number⟩ :=
    (data_limited "slow down" twoMinutes (.text "u")).2 "retry-after" "120" single
  obtain ⟨x, rfl, value⟩ := (number (by decide) (by decide) digits).2 (.inr rfl)
  exact ⟨⟨absent, (data_limited "" _ .null).1 absent⟩, ⟨single, by decide, by decide, digits⟩, x,
    limits, value⟩

/-- In capitals, the header is not found. -/
theorem data_misses_capitals :
    let headers : List (String × Value) := [("RETRY-AFTER", .text "5")]
    headers.filter (fun header => AsksToWait header) = [("RETRY-AFTER", .text "5")] ∧
      ¬∃ x : Binary64, Limits ⟨429, "", headers⟩ .null (.float x) ∧ x.toRat? = some 5 := by
  refine ⟨rfl, ?_⟩
  rintro ⟨x, ⟨e, made, -, same⟩, -⟩
  cases made
  cases same

end Response

end GraphClient
