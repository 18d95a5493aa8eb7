import FogDispatch.Number.Notation
import FogDispatch.Text.Bytes

/-!
# Records

Tables as text: fields separated by commas, records by line ends.  A field in quotes may hold commas
and line ends, and writes a quote twice.  Reading skips blank lines and accepts records of any
length; writing quotes a field only where it has to.
-/

namespace FogDispatch

/-- Where a reader of records stands. -/
inductive RecordPhase where
  | recordStart
  | fieldStart
  | plain
  | quoted
  /-- After a quote inside a field in quotes. -/
  | quoteSeen
  deriving DecidableEq, Repr

/-- What a reader of records has read; everything is held back to front. -/
structure RecordReader where
  phase : RecordPhase
  field : List UInt8
  fields : List (List UInt8)
  records : List (List (List UInt8))

namespace RecordReader

def start : RecordReader := ⟨.recordStart, [], [], []⟩

def push (r : RecordReader) (b : UInt8) (phase : RecordPhase) : RecordReader :=
  { r with phase := phase, field := b :: r.field }

def endField (r : RecordReader) : RecordReader :=
  { r with phase := .fieldStart, field := [], fields := r.field.reverse :: r.fields }

def endRecord (r : RecordReader) : RecordReader :=
  ⟨.recordStart, [], [], (r.field.reverse :: r.fields).reverse :: r.records⟩

def isLineEnd (b : UInt8) : Bool := b == 0x0a || b == 0x0d

def quote : UInt8 := 0x22

def comma : UInt8 := 0x2c

/-- A byte that stands in no quotes, where a field goes on or ends. -/
def outside (r : RecordReader) (b : UInt8) : RecordReader :=
  if b == comma then r.endField
  else if isLineEnd b then r.endRecord
  else r.push b .plain

def step (r : RecordReader) (b : UInt8) : RecordReader :=
  match r.phase with
  | .recordStart =>
    if isLineEnd b then r
    else if b == quote then { r with phase := .quoted }
    else r.outside b
  | .fieldStart => if b == quote then { r with phase := .quoted } else r.outside b
  | .plain => r.outside b
  | .quoted => if b == quote then { r with phase := .quoteSeen } else r.push b .quoted
  | .quoteSeen => if b == quote then r.push b .quoted else r.outside b

/-- The records at the end of a table.  Quotes that are still open close here. -/
def finish (r : RecordReader) : List (List (List UInt8)) :=
  match r.phase with
  | .recordStart => r.records.reverse
  | _ => r.endRecord.records.reverse

end RecordReader

/-- The records of a table, without a byte order mark at its start. -/
def readRecords (bytes : List UInt8) : List (List (List UInt8)) :=
  let bytes := match bytes with
    | 0xef :: 0xbb :: 0xbf :: rest => rest
    | bytes => bytes
  (bytes.foldl RecordReader.step RecordReader.start).finish

/-- The records of a table below its header, if all of them are valid text.  The header itself is
not looked at. -/
def readRows? (bytes : List UInt8) : Option (List (List String)) :=
  (readRecords bytes).tail.mapM fun record => record.mapM textOf?

def needsQuotes (field : List Char) : Bool :=
  field.any fun c => c == ',' || c == '"' || c == '\r' || c == '\n'

def writeField (field : List Char) : List Char :=
  if needsQuotes field then
    '"' :: (field.flatMap (fun c => if c = '"' then ['"', '"'] else [c]) ++ ['"'])
  else field

def writeFields : List (List Char) → List Char
  | [] => []
  | [field] => writeField field
  | field :: rest => writeField field ++ ',' :: writeFields rest

/-- A record with its line end.  A record of one empty field is quoted, so that it is no blank
line. -/
def writeRecord (fields : List String) : String :=
  let line := match fields with
    | [""] => ['"', '"']
    | fields => writeFields (fields.map String.toList)
  String.ofList (line ++ ['\n'])

end FogDispatch
