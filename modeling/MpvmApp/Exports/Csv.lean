import MpvmApp.Sql.Text

/-!
# Reading exported CSV texts

The reader of the standard library as `csv_dict_reader` uses it: a dialect
without escape character, minimal quoting and no strict mode.  A text is read
line by line; the end of a line is a symbol of its own, so that a quoted field can
span lines.

What the library guesses or looks up in tables is a parameter: the dialect that the
sniffer finds, the classes of the characters outside ASCII, and the addresses that
`ipaddress` accepts.

Main definitions:

- `readRecords`: the records of a text.
- `csvDictReader`: the rows of a text, each a list of columns under the names of the
  first record.
-/

namespace MpvmApp
namespace Exports

open Sql

/-- The exceptions of an export. -/
inductive Failure where
  | remote (message : String)
  | http (message : String)
  | csv (message : String)
  | storage (message : String)
deriving DecidableEq, Repr

/-- The parameters of a CSV dialect. -/
structure Dialect where
  delimiter : Char
  quotechar : Char
  doublequote : Bool
  skipinitialspace : Bool
deriving DecidableEq, Repr

/-- The dialect `csv.excel`. -/
def Dialect.excel : Dialect where
  delimiter := ','
  quotechar := Char.ofNat 34
  doublequote := true
  skipinitialspace := false

/-- What the standard library guesses or looks up. -/
structure Runtime where
  /-- `csv.Sniffer().sniff` with the delimiters comma, semicolon and tab. -/
  sniff : String → Option Dialect
  /-- `str.isalnum` of a character outside ASCII. -/
  alnum : Char → Bool
  /-- `str.casefold` of a character outside ASCII. -/
  casefold : Char → List Char
  /-- `str.isprintable` of a character outside ASCII. -/
  printable : Char → Bool
  /-- `str(ipaddress.ip_address(x))`, or none for a `ValueError`. -/
  ipAddress : String → Option String

/-! ## Records -/

/-- The states of the parser; the escape states need an escape character. -/
inductive ParseState where
  | startRecord
  | startField
  | inField
  | inQuotedField
  | quoteInQuotedField
  | eatCrnl
deriving DecidableEq, Repr

/-- The parser: its state, the field and the record being read, and the records read. -/
structure Reader where
  state : ParseState := .startRecord
  field : List Char := []
  fields : List String := []
  records : List (List String) := []

/-- `csv.field_size_limit()`. -/
def fieldLimit : Nat :=
  131072

/-- Append a character to the field. -/
def Reader.addChar (r : Reader) (c : Char) : Except Failure Reader :=
  if fieldLimit ≤ r.field.length then .error (.csv "field larger than field limit (131072)")
  else .ok { r with field := r.field ++ [c] }

/-- Complete the field. -/
def Reader.saveField (r : Reader) : Reader :=
  { r with field := [], fields := r.fields ++ [String.ofList r.field] }

/-- Complete the record. -/
def Reader.saveRecord (r : Reader) : Reader :=
  { r with state := .startRecord, fields := [], records := r.records ++ [r.fields] }

/-- A character that ends an unquoted field and the record. -/
def isNewline (c : Char) : Bool :=
  c == '\n' || c == '\r'

/-- One character at the start of a field. -/
def Reader.startField (d : Dialect) (r : Reader) (c : Char) : Except Failure Reader :=
  if isNewline c then .ok { r.saveField with state := .eatCrnl }
  else if c = d.quotechar then .ok { r with state := .inQuotedField }
  else if c = ' ' ∧ d.skipinitialspace = true then .ok { r with state := .startField }
  else if c = d.delimiter then .ok { r.saveField with state := .startField }
  else { r with state := .inField }.addChar c

/-- One character of a line. -/
def Reader.processChar (d : Dialect) (r : Reader) (c : Char) : Except Failure Reader :=
  match r.state with
  | .startRecord => if isNewline c then .ok { r with state := .eatCrnl } else r.startField d c
  | .startField => r.startField d c
  | .inField =>
      if isNewline c then .ok { r.saveField with state := .eatCrnl }
      else if c = d.delimiter then .ok { r.saveField with state := .startField }
      else r.addChar c
  | .inQuotedField =>
      if c = d.quotechar then
        .ok { r with state := if d.doublequote then .quoteInQuotedField else .inField }
      else r.addChar c
  | .quoteInQuotedField =>
      if c = d.quotechar then { r with state := .inQuotedField }.addChar c
      else if c = d.delimiter then .ok { r.saveField with state := .startField }
      else if isNewline c then .ok { r.saveField with state := .eatCrnl }
      else { r with state := .inField }.addChar c
  | .eatCrnl =>
      if isNewline c then .ok r
      else .error (.csv "new-line character seen in unquoted field")

/-- The end of a line; a quoted field goes on in the next line. -/
def Reader.endLine (r : Reader) : Reader :=
  match r.state with
  | .startRecord | .eatCrnl => r.saveRecord
  | .startField | .inField | .quoteInQuotedField => r.saveField.saveRecord
  | .inQuotedField => r

/-- The end of the text. -/
def Reader.finish (r : Reader) : List (List String) :=
  if r.field ≠ [] ∨ r.state = .inQuotedField then r.saveField.saveRecord.records else r.records

/-- The lines of a text with their line feeds. -/
def splitLines : List Char → List (List Char)
  | [] => []
  | c :: cs =>
      if c = '\n' then [c] :: splitLines cs
      else
        match splitLines cs with
        | [] => [[c]]
        | line :: lines => (c :: line) :: lines

/-- One line of a text. -/
def Reader.processLine (d : Dialect) (r : Reader) (line : List Char) : Except Failure Reader := do
  let r ← line.foldlM (Reader.processChar d) r
  return r.endLine

/-- The records of a text. -/
def readRecords (d : Dialect) (text : String) : Except Failure (List (List String)) := do
  let r ← (splitLines text.toList).foldlM (Reader.processLine d) {}
  return r.finish

/-! ## Rows -/

/-- The value of a column: a text, none for a missing field, or the surplus fields. -/
inductive Cell where
  | text (value : String)
  | missing
  | rest (values : List String)
deriving DecidableEq, Repr

/-- A row: its columns in order.  The surplus fields have no name. -/
abbrev Row := List (Option String × Cell)

/-- Assign a column; a known name keeps its place. -/
def Row.set (row : Row) (name : Option String) (cell : Cell) : Row :=
  if row.any fun column => decide (column.1 = name) then
    row.map fun column => if column.1 = name then (name, cell) else column
  else
    row ++ [(name, cell)]

/-- The row of one record under the field names. -/
def dictRow (fieldnames record : List String) : Row :=
  let row := (fieldnames.zip record).foldl
    (fun (row : Row) column => row.set (some column.1) (.text column.2)) []
  if fieldnames.length < record.length then
    row.set none (.rest (record.drop fieldnames.length))
  else
    (fieldnames.drop record.length).foldl
      (fun (row : Row) name => row.set (some name) .missing) row

/-- The rows under the first record; empty records are skipped. -/
def dictRows : List (List String) → List Row
  | [] => []
  | fieldnames :: records =>
      (records.filter fun record => !record.isEmpty).map (dictRow fieldnames)

/-- The dialect of a text: what the sniffer finds in its beginning, or the default. -/
def dialectOf (rt : Runtime) (text : String) : Dialect :=
  (rt.sniff (String.ofList (text.toList.take 4096))).getD .excel

/-- The rows of an exported text. -/
def csvDictReader (rt : Runtime) (csvText : String) : Except Failure (List Row) :=
  if isBlank (some csvText) then .ok []
  else do
    let records ← readRecords (dialectOf rt csvText) csvText
    return dictRows records

/-! ## Texts of cells -/

/-- A number in hexadecimal with a fixed width. -/
def hexText (width n : Nat) : List Char :=
  (List.range width).reverse.map fun i => (Nat.digitChar (n / 16 ^ i % 16))

/-- One character inside the literal that `repr` prints. -/
def reprChar (rt : Runtime) (mark c : Char) : List Char :=
  let escape := Char.ofNat 92
  let n := c.toNat
  if c = mark ∨ c = escape then [escape, c]
  else if n = 9 then [escape, 't']
  else if n = 10 then [escape, 'n']
  else if n = 13 then [escape, 'r']
  else if n < 32 ∨ n = 127 then escape :: 'x' :: hexText 2 n
  else if n < 127 ∨ rt.printable c = true then [c]
  else if n < 256 then escape :: 'x' :: hexText 2 n
  else if n < 65536 then escape :: 'u' :: hexText 4 n
  else escape :: 'U' :: hexText 8 n

/-- `repr` of a text. -/
def reprText (rt : Runtime) (s : String) : String :=
  let single := Char.ofNat 39
  let double := Char.ofNat 34
  let mark := if single ∈ s.toList ∧ double ∉ s.toList then double else single
  String.ofList (mark :: s.toList.flatMap (reprChar rt mark) ++ [mark])

/-- `str(value)`, none for a missing field. -/
def Cell.str (rt : Runtime) : Cell → Option String
  | .text value => some value
  | .missing => none
  | .rest values => some ("[" ++ String.intercalate ", " (values.map (reprText rt)) ++ "]")

end Exports
end MpvmApp
