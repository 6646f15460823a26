import GraphClient.Logging.Manager
import GraphClient.Proofs.Pairs

/-!
# What logging a record leaves alone

* `LogSystem.Written`: only the console and the files changed. So it is however a record is
  delivered (`LogSystem.written_log`).
* `LogRecord.Plain`: a record without arguments. Masking it never fails, and neither does delivering
  it (`LogSystem.deliver_plain`), so a text without arguments is always logged
  (`LogSystem.log_plain`).
-/

namespace GraphClient

namespace LogSystem

/-- Only what was written changed. -/
def Written (s s' : LogSystem) : Prop :=
  ∃ console files, s' = { s with console := console, files := files }

namespace Written

variable {s s' s'' : LogSystem}

theorem refl (s : LogSystem) : Written s s := ⟨s.console, s.files, rfl⟩

theorem trans (h : Written s s') (h' : Written s' s'') : Written s s'' := by
  obtain ⟨_, _, rfl⟩ := h
  obtain ⟨console, files, rfl⟩ := h'
  exact ⟨console, files, rfl⟩

theorem loggers (h : Written s s') : s'.loggers = s.loggers := by
  obtain ⟨_, _, rfl⟩ := h
  rfl

theorem handlers (h : Written s s') : s'.handlers = s.handlers := by
  obtain ⟨_, _, rfl⟩ := h
  rfl

theorem attached (h : Written s s') : s'.attached = s.attached := by
  obtain ⟨_, _, rfl⟩ := h
  rfl

theorem site (h : Written s s') : s'.site = s.site := by
  obtain ⟨_, _, rfl⟩ := h
  rfl

end Written

theorem written_write (target : LogTarget) (line : String) (s : LogSystem) :
    Written s (s.write target line) := by
  cases target with
  | console => exact ⟨s.console ++ line, s.files, rfl⟩
  | file f => exact ⟨s.console, f.write line s.files, rfl⟩

theorem written_handle (h : LogHandler) (r : LogRecord) (s : LogSystem) :
    Written s (s.handle h r).2 := by
  unfold handle
  dsimp only
  split
  · exact written_write h.target _ s
  · exact Written.refl s

theorem written_deliver (places : List Nat) (r : LogRecord) (s : LogSystem) :
    Written s (deliver r s places).2 := by
  induction places generalizing r s with
  | nil => exact Written.refl s
  | cons n rest ih =>
    rw [deliver]
    split
    · exact ih r s
    · rename_i h _
      split
      · exact ih r s
      · split
        · exact Written.refl s
        · rename_i masked _
          exact (written_handle h masked s).trans (ih _ _)

theorem written_log (logger : String) (level : Int) (template arguments : Value) (s : LogSystem) :
    Written s (s.log logger level template arguments).2 := by
  unfold log
  split
  · dsimp only
    split
    · exact Written.refl s
    · exact written_deliver _ _ s
  · exact Written.refl s

end LogSystem

/-! ## Records without arguments -/

namespace LogRecord

/-- The record has no arguments, and nobody attached any. -/
structure Plain (r : LogRecord) : Prop where
  arguments : r.arguments = .tuple []
  unattached : Pairs.get? "args" r.extra = none

theorem Plain.attach {r : LogRecord} (h : r.Plain) {name : String} (other : name ≠ "args")
    (v : Value) : (r.attach name v).Plain where
  arguments := h.arguments
  unattached := (Pairs.get?_set_of_ne other.symm v r.extra).trans h.unattached

theorem Plain.message {r : LogRecord} (h : r.Plain) :
    r.message = .ok (r.value "msg").display := by
  have given : r.value "args" = .tuple [] := by
    simp only [value, value?, h.unattached, standard, h.arguments]
    rfl
  simp only [LogRecord.message, given]
  rfl

/-- Masking does not fail. -/
theorem Plain.masked {r : LogRecord} (h : r.Plain) : ∃ r', r.masked = .ok r' ∧ r'.Plain := by
  refine ⟨_, by rw [LogRecord.masked, h.message]; rfl, rfl, ?_⟩
  exact Pairs.get?_erase_eq_none (Pairs.get?_erase_eq_none h.unattached)

end LogRecord

theorem LineFormat.plain_render (f : LineFormat) {r : LogRecord} (h : r.Plain) :
    (f.render r).2.Plain := by
  have named : (r.attach "message" (.text (r.value "msg").display)).Plain := h.attach (by decide) _
  unfold render
  rw [h.message]
  dsimp only
  split
  · exact named
  · rename_i r' timed
    have plain : r'.Plain := by
      split at timed
      · cases time : f.timeText _ with
        | error e => rw [time] at timed; cases timed
        | ok text =>
          rw [time] at timed
          cases timed
          exact named.attach (by decide) _
      · cases timed
        exact named
    split
    · exact plain
    · unfold withReport
      split
      · split
        · exact plain
        · exact plain.attach (by decide) _
      · exact plain

theorem Presentation.plain_render (p : Presentation) {r : LogRecord} (h : r.Plain) :
    (p.render r).2.Plain := by
  cases p with
  | structured => exact h
  | line format => exact format.plain_render h
  | console format colors => exact format.plain_render h

namespace LogSystem

theorem plain_handle (h : LogHandler) {r : LogRecord} (plain : r.Plain) (s : LogSystem) :
    (s.handle h r).1.Plain := by
  have kept := h.presentation.plain_render plain
  unfold handle
  dsimp only
  split <;> exact kept

/-- Delivering a record without arguments does not fail. -/
theorem deliver_plain (places : List Nat) {r : LogRecord} (plain : r.Plain) (s : LogSystem) :
    (deliver r s places).1 = .ok () := by
  induction places generalizing r s with
  | nil => rfl
  | cons n rest ih =>
    rw [deliver]
    split
    · exact ih plain s
    · split
      · exact ih plain s
      · -- The next handler gets the record with what this one attached to it.
        obtain ⟨r', masked, plain'⟩ := plain.masked
        simp only [masked]
        exact ih (plain_handle _ plain' s) _

/-- A text without arguments is logged. -/
theorem log_plain (logger : String) (level : Int) (text : String) (s : LogSystem) :
    (s.log logger level (.text text) (.tuple [])).1 = .ok () := by
  unfold log
  split
  · exact deliver_plain _ ⟨rfl, rfl⟩ s
  · rfl

end LogSystem

end GraphClient
