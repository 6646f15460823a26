import GraphClient.Logging.Filter
import GraphClient.Proofs.Masking.Hiding
import GraphClient.Proofs.Pairs

/-!
# What masking leaves as it is

A message without a word for a secret has nothing to mask. A record keeps all attributes but its
message, which is text from then on and takes no arguments, so that a percent sign in it stands for
itself.

* `Mask.apply_of_harmless`: no pass finds anything.
* `LogRecord.value?_withMessage`, `LogRecord.message_withMessage`: a record with another message.
* `LogRecord.masked_only_secrets`: both.
-/

namespace GraphClient

namespace Mask

open Secret

/-- No word for a secret and no scheme of an address stands in a message, whatever the case of its
letters. -/
def IsHarmless (message : String) : Prop :=
  ∀ secret, ∀ w ∈ words secret, ¬ w.toList <:+: message.toList.map Text.smallLetter

theorem free_of_no_word {secret : Secret} {cs : List Char}
    (none : ∀ w ∈ secret.words, ¬ w.toList <:+: cs.map Text.smallLetter) : secret.Free cs := by
  intro o within
  obtain ⟨w, listed, small⟩ := o.word
  refine none w listed (small ▸ ?_)
  exact (o.name_prefix_body.isInfix.trans within).map Text.smallLetter

theorem apply_of_harmless {message : String} (harmless : IsHarmless message) :
    Mask.apply message = message := by
  have kept (secret : Secret) : hide message.toList secret = message.toList :=
    hide_of_free (free_of_no_word (harmless secret))
  rw [Mask.apply, List.foldl_fixed' kept, String.ofList_toList]

end Mask

namespace LogRecord

variable {r : LogRecord} {name : String}

/-- Another message is seen at no other attribute. -/
theorem value?_withMessage (other : name ≠ "msg") (other' : name ≠ "args") (s : String)
    (r : LogRecord) : (r.withMessage s).value? name = r.value? name := by
  have attached : Pairs.get? name (r.withMessage s).extra = Pairs.get? name r.extra :=
    (Pairs.get?_erase_of_ne other' _).trans (Pairs.get?_erase_of_ne other _)
  have standard : Pairs.get? name (r.withMessage s).standard = Pairs.get? name r.standard := by
    have apart : ("msg" == name) = false ∧ ("args" == name) = false := by
      simp only [beq_eq_false_iff_ne]
      exact ⟨other.symm, other'.symm⟩
    simp only [LogRecord.standard, withMessage, Pairs.get?, apart, Bool.false_eq_true, if_false]
  rw [value?, value?, attached, standard]

theorem value?_args_withMessage (distinct : (r.extra.map Prod.fst).Nodup) (s : String) :
    (r.withMessage s).value? "args" = some (.tuple []) := by
  have absent : Pairs.get? "args" (r.withMessage s).extra = none :=
    Pairs.get?_erase_self (distinct.sublist ((Pairs.erase_sublist "msg" r.extra).map Prod.fst))
  rw [value?, absent]
  rfl

theorem value?_msg_withMessage (distinct : (r.extra.map Prod.fst).Nodup) (s : String) :
    (r.withMessage s).value? "msg" = some (.text s) := by
  have absent : Pairs.get? "msg" (r.withMessage s).extra = none :=
    Pairs.get?_erase_eq_none (Pairs.get?_erase_self distinct)
  rw [value?, absent]
  rfl

/-- A message that was put in is not filled once more. -/
theorem message_withMessage (distinct : (r.extra.map Prod.fst).Nodup) (s : String) :
    (r.withMessage s).message = .ok s := by
  simp only [message, value, value?_args_withMessage distinct, value?_msg_withMessage distinct]
  rfl

/-- Masking changes secrets only: a message without a word for one stays as it is, and of a record
only the message changes, which has no arguments any more. -/
theorem masked_only_secrets :
    (∀ message, Mask.IsHarmless message → Mask.apply message = message) ∧
    ∀ r : LogRecord, (r.extra.map Prod.fst).Nodup →
      (∀ e, r.message = .error e → r.masked = .error e) ∧
      ∀ message, r.message = .ok message → ∃ r', r.masked = .ok r' ∧
        r'.value "args" = .tuple [] ∧ r'.message = .ok (Mask.apply message) ∧
        r'.error? = r.error? ∧
        ∀ name, name ≠ "msg" → name ≠ "args" → r'.value? name = r.value? name := by
  refine ⟨fun _ => Mask.apply_of_harmless, fun r distinct => ⟨fun e failed => ?_,
    fun message tells => ?_⟩⟩
  · rw [LogRecord.masked, failed]
    rfl
  · refine ⟨r.withMessage (Mask.apply message), ?_, ?_, message_withMessage distinct _, rfl,
      fun name other other' => value?_withMessage other other' _ r⟩
    · rw [LogRecord.masked, tells]
      rfl
    · rw [value, value?_args_withMessage distinct]
      rfl

/-- A record of a template with two percent signs in one and an argument with another. -/
def percentRecord : LogRecord :=
  ⟨"gql_fetch.client", 20, ⟨"/app/mod.py", 42, some "fn", Binary64.ofInt 0⟩,
    .text "pwd: %s at %%s", .tuple [.text "%d"], none, [("msec", .int 5)]⟩

theorem masked_only_secrets_percent :
    Mask.IsHarmless "100% of %s done" ∧
      Mask.apply "100% of %s done" = "100% of %s done" ∧
      (percentRecord.extra.map Prod.fst).Nodup ∧
      percentRecord.message = .ok "pwd: %d at %s" ∧
      ∃ r', percentRecord.masked = .ok r' ∧ r'.value "args" = .tuple [] ∧
        r'.message = .ok "pwd: ***MASKED*** at %s" := by
  have harmless : Mask.IsHarmless "100% of %s done" := by
    intro secret
    cases secret <;> (unfold Secret.words; decide)
  have distinct : (percentRecord.extra.map Prod.fst).Nodup := by decide
  have filled : percentRecord.message.toOption = some "pwd: %d at %s" := by decide +kernel
  have tells : percentRecord.message = .ok "pwd: %d at %s" := by
    cases message : percentRecord.message with
    | error e =>
      rw [message] at filled
      cases filled
    | ok s =>
      rw [message] at filled
      cases filled
      rfl
  obtain ⟨r', masked, given, final, -⟩ :=
    (masked_only_secrets.2 percentRecord distinct).2 _ tells
  have written : Mask.apply "pwd: %d at %s" = "pwd: ***MASKED*** at %s" := by decide +kernel
  exact ⟨harmless, masked_only_secrets.1 _ harmless, distinct, tells, r', masked, given,
    written ▸ final⟩

end LogRecord

end GraphClient
