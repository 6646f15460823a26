import GraphClient.Json.Writer
import GraphClient.Logging.Record
import GraphClient.Text.Letter

/-!
# How log records are written

A `Presentation` is a JSON object on one line, or a line made from a template, on a terminal with
the level in colour. Below a line stand the error and the stack of the record.

* `LineFormat.make` refuses a template that names no attribute.
* `Presentation.render` also gives the record back, since writing a line attaches the message,
  the time and the report of the error to it.
-/

namespace GraphClient

/-! ## JSON -/

namespace LogRecord

/-- The time of the record, to the millionth of a second if it has any. -/
def isoTime (r : LogRecord) : Except Failure String :=
  match r.time with
  | .error e => .error e
  | .ok t =>
    match Timestamp.split? t with
    | none => .error (noMoment t)
    | some (seconds, millionths) =>
      let moment := Moment.ofSeconds seconds
      if 1 ≤ moment.year ∧ moment.year ≤ 9999 then .ok (moment.iso millionths)
      else .error (.misuse .value "year is out of range")

/-- The members of the JSON object: the standard ones, the error if there is one, and the
attributes attached by the caller, each in its place if it has the name of one before. -/
def members (r : LogRecord) : Except Failure (List (String × Value)) :=
  match r.isoTime with
  | .error e => .error e
  | .ok time =>
    r.message.map fun message =>
      let known : List (String × Value) :=
        [("timestamp", .text time), ("level", r.value "levelname"),
         ("logger", r.value "name"), ("message", .text message),
         ("module", r.value "module"), ("function", r.value "funcName"),
         ("line", r.value "lineno")]
      let error : List (String × Value) := match r.error? with
        | some e => [("exception", .text e.report)]
        | none => []
      Pairs.merge (known ++ error) (r.extra.filter fun (name, _) => !reserved.contains name)

/-- The record as JSON on one line. -/
def structured (r : LogRecord) : Except Failure String :=
  match r.members with
  | .error e => .error e
  | .ok members => ((Value.ofPairs members).toJson .display).bind (Json.dump .unicode)

end LogRecord

/-! ## Lines -/

/-- A template for lines and a pattern for times. -/
structure LineFormat where
  template : String
  timePattern? : Option String
deriving DecidableEq, Inhabited

namespace LineFormat

/-- Whether a character can stand in the name of an attribute: letters, digits and the underscore
of ASCII, and everything printable beyond. -/
def isNameChar (c : Char) : Bool :=
  if c.toNat < 0x80 then c.isAlphanum || c = '_' else Text.isPrintable c

/-- A text behind a number or an asterisk, if it begins with one. -/
def afterAmount? : List Char → Option (List Char)
  | '*' :: cs => some cs
  | cs =>
    if (cs.takeWhile (Text.digitValue? · |>.isSome)).isEmpty then none
    else some (cs.dropWhile (Text.digitValue? · |>.isSome))

/-- A text behind a point and an amount, if it begins with them. -/
def afterPrecision (cs : List Char) : List Char :=
  match cs with
  | '.' :: rest => (afterAmount? rest).getD cs
  | _ => cs

/-- Whether a text begins with a directive for an attribute. -/
def beginsWithField : List Char → Bool
  | '%' :: '(' :: cs =>
    let name := cs.takeWhile isNameChar
    match cs.dropWhile isNameChar with
    | ')' :: rest =>
      let rest := rest.dropWhile Template.isFlag
      let rest := afterPrecision ((afterAmount? rest).getD rest)
      !name.isEmpty && match rest.head? with
        | some c => "diouxefgcrsa%".toList.contains (Text.smallLetter c)
        | none => false
    | _ => false
  | _ => false

/-- Whether a directive for an attribute stands anywhere in a text. -/
def hasField : List Char → Bool
  | [] => false
  | c :: cs => beginsWithField (c :: cs) || hasField cs

/-- A format from a template and a pattern. An empty template is the message alone, an empty
pattern none. -/
def make (template : String) (timePattern? : Option String) : Except Failure LineFormat :=
  let template := if template.isEmpty then "%(message)s" else template
  if hasField template.toList then .ok ⟨template, timePattern?.filter (!·.isEmpty)⟩
  else .error (.misuse .value ("Invalid format " ++ Text.quoted template))

/-- Whether a word stands anywhere in a text. -/
def mentions (word : List Char) : List Char → Bool
  | [] => word.isEmpty
  | c :: cs => word.isPrefixOf (c :: cs) || mentions word cs

/-- Whether the time is written. -/
def usesTime (f : LineFormat) : Bool := mentions "%(asctime)".toList f.template.toList

/-- The time of a record in the pattern, or else with its thousandths of a second. -/
def timeText (f : LineFormat) (r : LogRecord) : Except Failure String :=
  match r.time with
  | .error e => .error e
  | .ok t =>
    match Timestamp.floor? t with
    | none => .error (LogRecord.noMoment t)
    | some seconds =>
      let moment := Moment.ofSeconds seconds
      match f.timePattern? with
      | some pattern => .ok (moment.format pattern)
      | none => Template.fill "%s,%03d"
          (.tuple [.text (moment.format "%Y-%m-%d %H:%M:%S"), r.value "msecs"])

/-- The template filled with the attributes of a record. An attribute that is not there is a
wrong value of the template. -/
def fill (f : LineFormat) (r : LogRecord) : Except Failure String :=
  let attributes := Pairs.merge r.standard r.extra
  match Template.fill f.template (.ofPairs attributes) with
  | .error (.misuse .key why) =>
    .error (.misuse .value ("Formatting field not found in record: " ++ why))
  | filled => filled

/-- A block below a line. -/
def below (line : String) (block : Value) : Except Failure String :=
  match block.decideTruth with
  | .error e => .error e
  | .ok false => .ok line
  | .ok true =>
    match block with
    | .text s => .ok (if line.toList.getLast? = some '\n' then line ++ s else line ++ "\n" ++ s)
    | _ => .error (.misuse .type "can only concatenate str")

/-- The record with the report of its error, unless it has one already. -/
def withReport (r : LogRecord) : LogRecord :=
  match r.error? with
  | some e => if (r.value "exc_text").isTrue then r else r.attach "exc_text" (.text e.report)
  | none => r

/-- A line with the report of the error and the stack below. -/
def withBlocks (line : String) (r : LogRecord) : Except Failure String :=
  (below line (r.value "exc_text")).bind fun line => below line (r.value "stack_info")

/-- The line of a record, and the record with what was attached on the way. -/
def render (f : LineFormat) (r : LogRecord) : Except Failure String × LogRecord :=
  match r.message with
  | .error e => (.error e, r)
  | .ok message =>
    let r := r.attach "message" (.text message)
    match (if f.usesTime then (f.timeText r).map fun time => r.attach "asctime" (.text time)
      else .ok r) with
    | .error e => (.error e, r)
    | .ok r =>
      match f.fill r with
      | .error e => (.error e, r)
      | .ok line => (withBlocks line (withReport r), withReport r)

end LineFormat

/-! ## Colours -/

namespace Palette

/-- What switches a terminal to the colour of a level. -/
def color? (level : String) : Option String :=
  match level with
  | "DEBUG" => some "\x1b[36m"
  | "INFO" => some "\x1b[32m"
  | "WARNING" => some "\x1b[33m"
  | "ERROR" => some "\x1b[31m"
  | "CRITICAL" => some "\x1b[35m"
  | _ => none

/-- The name of a level in bold and its colour. -/
def paint (color level : String) : String := color ++ "\x1b[1m" ++ level ++ "\x1b[0m"

/-- A text with the first occurrence of a word replaced. -/
def replaceFirst (word new : List Char) : List Char → List Char
  | [] => if word.isEmpty then new else []
  | c :: cs =>
    if word.isPrefixOf (c :: cs) then new ++ (c :: cs).drop word.length
    else c :: replaceFirst word new cs

/-- A line with the first occurrence of the record's level in colour. -/
def apply (r : LogRecord) (line : String) : String :=
  match r.value "levelname" with
  | .text level =>
    match color? level with
    | some color =>
      String.ofList (replaceFirst level.toList (paint color level).toList line.toList)
    | none => line
  | _ => line

end Palette

/-! ## Presentations -/

/-- How records are written. -/
inductive Presentation where
  | structured
  | line (format : LineFormat)
  /-- A line for a console, which may show colours. -/
  | console (format : LineFormat) (colors : Bool)
deriving DecidableEq, Inhabited

namespace Presentation

/-- The text of a record, and the record with what was attached on the way. -/
def render (p : Presentation) (r : LogRecord) : Except Failure String × LogRecord :=
  match p with
  | structured => (r.structured, r)
  | line format => format.render r
  | console format colors =>
    let (written, r) := format.render r
    (if colors then written.map (Palette.apply r) else written, r)

end Presentation

end GraphClient
