import GraphClient.Proofs.Json.Tokens
import GraphClient.Proofs.Logging.Attributes
import GraphClient.Proofs.Logging.Emission
import GraphClient.Proofs.Masking.Bearer

/-!
# Bearer tokens in what is written of a record

A handler masks the message of a record and then writes the record. A token in the message does not
come out. A token in an attribute that a caller attached is masked by nobody: it comes out exactly
if the attribute is shown.

* `Presentation.lineOf_congr_message`, `Presentation.lineOf_of_not_shows`: what the line does not
  depend on.
* `Json.eq_of_quote`: a JSON string tells the token in it.
* `Presentation.lineOf_bearer_token`: all of it, for the presentations that settings lead to.
-/

namespace GraphClient

open Secret Mask

/-! ## Tokens in JSON -/

namespace Json

/-- The characters of a token are shown as they are. -/
theorem escape_credential {t : String} (credential : IsCredential t) :
    t.toList.flatMap (fun c => (escapeChar .unicode c).toList) = t.toList := by
  have shown : ∀ c ∈ t.toList, (escapeChar .unicode c).toList = [c] :=
    credential.forall (by decide)
  rw [List.flatMap_congr shown]
  exact List.flatMap_singleton' _

/-- What is in no token is shown as something that is in no token. -/
theorem head_escapeChar {c : Char} (other : isTokenChar c = false) :
    ∃ d ds, (escapeChar .unicode c).toList = d :: ds ∧ isTokenChar d = false := by
  unfold escapeChar
  split_ifs with quote backslash newline carriage tab backspace feed control shown
  · exact ⟨'\\', ['"'], rfl, by decide⟩
  · exact ⟨'\\', ['\\'], rfl, by decide⟩
  · exact ⟨'\\', ['n'], rfl, by decide⟩
  · exact ⟨'\\', ['r'], rfl, by decide⟩
  · exact ⟨'\\', ['t'], rfl, by decide⟩
  · exact ⟨'\\', ['b'], rfl, by decide⟩
  · exact ⟨'\\', ['f'], rfl, by decide⟩
  · exact ⟨'\\', _, by rw [unitEscape, String.toList_append]; rfl, by decide⟩
  · exact ⟨c, [], String.toList_singleton c, other⟩
  · exact absurd rfl shown

theorem startsOutside_escape {post : List Char} (outside : StartsOutside post) (later : List Char) :
    StartsOutside (post.flatMap (fun c => (escapeChar .unicode c).toList) ++ '"' :: later) := by
  cases post with
  | nil =>
    rintro c ⟨⟩
    decide
  | cons c post =>
    obtain ⟨d, ds, shown, other⟩ := head_escapeChar (outside c rfl)
    rw [List.flatMap_cons, shown]
    rintro _ ⟨⟩
    exact other

/-- A text that goes on outside of tokens tells the token that it begins with. -/
theorem eq_of_append {t t' x x' : List Char} (tokens : ∀ c ∈ t, isTokenChar c = true)
    (tokens' : ∀ c ∈ t', isTokenChar c = true) (outside : StartsOutside x)
    (outside' : StartsOutside x') (same : t ++ x = t' ++ x') : t = t' := by
  rw [← (Text.span_front x tokens outside).1, same, (Text.span_front x' tokens' outside').1]

/-- A JSON string tells the token that stands in it. -/
theorem eq_of_quote {t t' pre post x x' : String} (credential : IsCredential t)
    (credential' : IsCredential t') (behind : StartsOutside post.toList)
    (same : quote .unicode (pre ++ "Bearer " ++ t ++ post) ++ x =
      quote .unicode (pre ++ "Bearer " ++ t' ++ post) ++ x') : t = t' := by
  have lists := congrArg String.toList same
  simp only [String.toList_append, toList_quote, List.flatMap_append,
    escape_credential credential, escape_credential credential', List.append_assoc,
    List.cons_append, List.cons.injEq, true_and, List.nil_append,
    List.append_cancel_left_eq] at lists
  have tokens := eq_of_append (fun c mem => (credential.tokens c mem).1)
    (fun c mem => (credential'.tokens c mem).1) (startsOutside_escape behind _)
    (startsOutside_escape behind _) lists
  exact String.toList_inj.1 tokens

end Json

/-! ## Tokens in records -/

/-- A text with a bearer token. -/
def bearerText (pre t post : String) : String := pre ++ "Bearer " ++ t ++ post

namespace LogRecord

theorem masked_eq {r m : LogRecord} (masked : r.masked = .ok m) : ∃ s, m = r.withMessage s := by
  rw [LogRecord.masked] at masked
  cases message : r.message with
  | error e =>
    rw [message] at masked
    cases masked
  | ok s =>
    rw [message] at masked
    cases masked
    exact ⟨_, rfl⟩

/-- An attached attribute is there when the message was replaced. -/
theorem get?_withMessage {name : String} (free : name ∉ reserved) (v : Value) (r : LogRecord)
    (s : String) : Pairs.get? name ((r.attach name v).withMessage s).extra = some v := by
  have other : name ≠ "args" := by
    rintro rfl
    exact free (by decide)
  have other' : name ≠ "msg" := by
    rintro rfl
    exact free (by decide)
  show Pairs.get? name (Pairs.erase "args" (Pairs.erase "msg" (Pairs.set name v r.extra))) = some v
  rw [Pairs.get?_erase_of_ne other, Pairs.get?_erase_of_ne other', Pairs.get?_set_self]

theorem nodup_withMessage {r : LogRecord} (distinct : (r.extra.map Prod.fst).Nodup) (name : String)
    (v : Value) (s : String) :
    (((r.attach name v).withMessage s).extra.map Prod.fst).Nodup :=
  (Pairs.nodup_set distinct v).sublist
    (((Pairs.erase_sublist "args" _).trans (Pairs.erase_sublist "msg" _)).map Prod.fst)

end LogRecord

namespace Presentation

variable {t₁ t₂ pre post : String} {p : Presentation} {name : String} {r r' : LogRecord}

/-- A line of a record depends on its message through the masked one only. -/
theorem lineOf_congr_message {message message' : String}
    (same : ∀ s, r.withMessage s = r'.withMessage s) (tells : r.message = .ok message)
    (tells' : r'.message = .ok message') (masked : Mask.apply message = Mask.apply message') :
    p.lineOf (.ok r) = p.lineOf (.ok r') := by
  have records : r.masked = r'.masked := by
    rw [LogRecord.masked, LogRecord.masked, tells, tells']
    show Except.ok (r.withMessage _) = Except.ok (r'.withMessage _)
    rw [masked, same]
  simp only [lineOf, Except.bind, records]

/-- A line does not depend on an attribute that is not shown. -/
theorem lineOf_of_not_shows (hidden : ¬ p.Shows name) (free : name ∉ LogRecord.reserved)
    {v v' : Value} (exchanged : LogRecord.Exchanged name v v' r r') :
    p.lineOf (.ok r) = p.lineOf (.ok r') := by
  simp only [lineOf, Except.bind]
  rcases exchanged.masked free with ⟨e, failed, failed'⟩ | ⟨m, m', masked, masked', later⟩
  · rw [failed, failed']
  · simp only [masked, masked', render_of_not_shows hidden free later]

/-- JSON objects that differ in an attached attribute are both not written, or tell the tokens in
it. -/
theorem lineOf_structured_cases (pre : String) (credential₁ : IsCredential t₁)
    (credential₂ : IsCredential t₂) (behind : StartsOutside post.toList)
    (free : name ∉ LogRecord.reserved) (distinct : (r.extra.map Prod.fst).Nodup) :
    ∃ written written' : Except Failure String,
      structured.lineOf (.ok (r.attach name (.text (bearerText pre t₁ post)))) =
        LogHandler.lineOf written ∧
      structured.lineOf (.ok (r.attach name (.text (bearerText pre t₂ post)))) =
        LogHandler.lineOf written' ∧
      ((∃ e, written = .error e ∧ written' = .error e) ∨
        ∃ line line', written = .ok line ∧ written' = .ok line' ∧ (line = line' → t₁ = t₂)) := by
  refine ⟨_, _, rfl, rfl, ?_⟩
  rcases (LogRecord.exchanged_attach name (.text (bearerText pre t₁ post))
    (.text (bearerText pre t₂ post)) r).masked free with
    ⟨e, failed, failed'⟩ | ⟨m, m', masked, masked', exchanged⟩
  · exact .inl ⟨e, by rw [Except.bind, failed]; rfl, by rw [Except.bind, failed']; rfl⟩
  obtain ⟨s, rfl⟩ := LogRecord.masked_eq masked
  obtain ⟨s', rfl⟩ := LogRecord.masked_eq masked'
  simp only [Except.bind, masked, masked', render]
  rcases exchanged.structured free (LogRecord.nodup_withMessage distinct _ _ _)
    (LogRecord.nodup_withMessage distinct _ _ _) (LogRecord.get?_withMessage free _ r s)
    (LogRecord.get?_withMessage free _ r s') with failed | ⟨line, line', written, written', tells⟩
  · exact .inl failed
  · refine .inr ⟨line, line', written, written', fun same => ?_⟩
    obtain ⟨x, x', quotes⟩ := tells same
    exact Json.eq_of_quote credential₁ credential₂ behind quotes

/-- A JSON object tells a token in an attached attribute, if it is written. -/
theorem lineOf_structured_iff (credential₁ : IsCredential t₁) (credential₂ : IsCredential t₂)
    (behind : StartsOutside post.toList) (free : name ∉ LogRecord.reserved)
    (distinct : (r.extra.map Prod.fst).Nodup) :
    structured.lineOf (.ok (r.attach name (.text (bearerText pre t₁ post)))) =
        structured.lineOf (.ok (r.attach name (.text (bearerText pre t₂ post)))) ↔
      t₁ = t₂ ∨ structured.lineOf (.ok (r.attach name (.text (bearerText pre t₁ post)))) = "" := by
  obtain ⟨written, written', here, here', ⟨e, rfl, rfl⟩ | ⟨line, line', rfl, rfl, tells⟩⟩ :=
    lineOf_structured_cases pre credential₁ credential₂ behind free distinct
  · rw [here, here']
    exact ⟨fun _ => .inr rfl, fun _ => rfl⟩
  · rw [here, here', LogHandler.lineOf, LogHandler.lineOf, String.append_left_inj]
    constructor
    · exact fun same => .inl (tells same)
    · rintro (rfl | empty)
      · exact (String.append_left_inj _).1 (here.symm.trans here')
      · have lists := congrArg String.toList empty
        simp at lists

/-- A token in the message does not come out, and one in an attached attribute only where the
attribute is shown: as a member of a JSON object, or by a directive of a format. The end of a token in the
message must not be taken for a key word with a value behind it. -/
theorem lineOf_bearer_token {settings : LoggingSettings} {console? : Option Bool}
    (presented : LogManager.presentation settings console? = .ok p) (credential₁ : IsCredential t₁)
    (credential₂ : IsCredential t₂) (before : EndsOutside pre.toList)
    (behind : StartsOutside post.toList) :
    (∀ r r' : LogRecord, (∀ s, r.withMessage s = r'.withMessage s) →
      r.message = .ok (bearerText pre t₁ post) → r'.message = .ok (bearerText pre t₂ post) →
      ((∀ c ∈ (post.toList.dropWhile isFiller).head?, isSeparator c = false) ∨
        (EndsInWord key.words t₁.toList ↔ EndsInWord key.words t₂.toList)) →
      p.lineOf (.ok r) = p.lineOf (.ok r')) ∧
    ∀ (r : LogRecord) (name : String), name ∉ LogRecord.reserved →
      (r.extra.map Prod.fst).Nodup →
      (¬ p.Shows name →
        p.lineOf (.ok (r.attach name (.text (bearerText pre t₁ post)))) =
          p.lineOf (.ok (r.attach name (.text (bearerText pre t₂ post))))) ∧
      (settings.enableStructured = true →
        (p.lineOf (.ok (r.attach name (.text (bearerText pre t₁ post)))) =
            p.lineOf (.ok (r.attach name (.text (bearerText pre t₂ post)))) ↔
          t₁ = t₂ ∨ p.lineOf (.ok (r.attach name (.text (bearerText pre t₁ post)))) = "")) := by
  refine ⟨fun r r' same tells tells' ends => ?_, fun r name free distinct => ⟨fun hidden => ?_,
    fun isStructured => ?_⟩⟩
  · refine lineOf_congr_message same tells tells' ?_
    refine apply_eq_of_behindToken credential₁ credential₂ before behind ?_
    rcases ends with apart | ends
    · rw [behindToken_eq apart, behindToken_eq apart]
    · simp only [behindToken, ends]
  · exact lineOf_of_not_shows hidden free (LogRecord.exchanged_attach name _ _ r)
  · rw [LogManager.presentation, if_pos isStructured] at presented
    cases presented
    exact lineOf_structured_iff credential₁ credential₂ behind free distinct

/-- A record of nothing. -/
def quietRecord : LogRecord :=
  ⟨"gql_fetch.client", 20, ⟨"/app/mod.py", 42, some "fn", Binary64.ofInt 0⟩, .text "", .tuple [],
    none, []⟩

/-- A record of a message. -/
def recordOfText (message : String) : LogRecord := { quietRecord with template := .text message }

theorem message_recordOfText (s : String) : (recordOfText s).message = .ok s := rfl

theorem lineOf_bearer_token_default : ∃ p, LogManager.presentation .default none = .ok p ∧
    IsCredential "abcdefghijklmnopqrst" ∧ IsCredential "0123456789+/._-token" ∧
      p.lineOf (.ok (recordOfText (bearerText "sent " "abcdefghijklmnopqrst" " again"))) =
        p.lineOf (.ok (recordOfText (bearerText "sent " "0123456789+/._-token" " again"))) ∧
      ¬ p.Shows "auth" ∧
      p.lineOf (.ok (quietRecord.attach "auth"
          (.text (bearerText "sent " "abcdefghijklmnopqrst" " again")))) =
        p.lineOf (.ok (quietRecord.attach "auth"
          (.text (bearerText "sent " "0123456789+/._-token" " again")))) := by
  have presented : LogManager.presentation .default none =
      .ok (.line ⟨"%(asctime)s - %(name)s - %(levelname)s - %(message)s", none⟩) := by
    have field : LineFormat.hasField LoggingSettings.default.format.toList = true := by
      decide +kernel
    have filled : LoggingSettings.default.format.isEmpty = false := by decide +kernel
    simp only [LogManager.presentation, LineFormat.make, filled]
    rfl
  have before : EndsOutside "sent ".toList := by decide
  have behind : StartsOutside " again".toList := by decide
  have hidden : ¬ (line
      ⟨"%(asctime)s - %(name)s - %(levelname)s - %(message)s", none⟩).Shows "auth" := by
    decide +kernel
  obtain ⟨messages, attributes⟩ :=
    lineOf_bearer_token presented isCredential_letters isCredential_signs before behind
  refine ⟨_, presented, isCredential_letters, isCredential_signs, ?_, hidden, ?_⟩
  · exact messages _ _ (fun _ => rfl) (message_recordOfText _) (message_recordOfText _)
      (.inl (by decide +kernel))
  · exact (attributes quietRecord "auth" (by decide) List.nodup_nil).1 hidden

/-- An attached attribute of a record that is written as JSON tells the token. -/
theorem lineOf_attached_token :
    LogManager.presentation (LogManager.jsonLines []) (some false) = .ok structured ∧
      IsCredential "abcdefghijklmnopqrst" ∧ IsCredential "0123456789+/._-token" ∧
      structured.lineOf (.ok (quietRecord.attach "auth" (.text "Bearer abcdefghijklmnopqrst"))) ≠
        structured.lineOf
          (.ok (quietRecord.attach "auth" (.text "Bearer 0123456789+/._-token"))) := by
  refine ⟨rfl, isCredential_letters, isCredential_signs, ?_⟩
  decide +kernel

end Presentation

end GraphClient
