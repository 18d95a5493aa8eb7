import FogDispatch.Number.Hexadecimal
import FogDispatch.Settings.Moment
import FogDispatch.Settings.Value
import FogDispatch.Text.Split

/-!
# Settings documents

The reader of settings files in the TOML format.  A document is a list of lines: pairs of a dotted
key and a value, and headers that open a table or append a table to a list of tables.  A table is
defined once: neither a second header, nor a pair, nor a dotted key may reopen what another one has
made.
-/

namespace FogDispatch.Settings.Toml

/-! ## Characters and blanks -/

/-- Line ends of two characters count as one. -/
def foldLineEnds : List Char → List Char
  | '\r' :: '\n' :: rest => '\n' :: foldLineEnds rest
  | c :: rest => c :: foldLineEnds rest
  | [] => []

/-- Whether a character may stand in a bare key or a number. -/
def isBare (c : Char) : Bool :=
  ('a' ≤ c && c ≤ 'z') || ('A' ≤ c && c ≤ 'Z') || isDigit c || c == '_' || c == '-'

/-- The text without spaces and tabs at its start. -/
def skipGap (cs : List Char) : List Char := cs.dropWhile Path.isGap

/-- The text after a comment, if one starts here; the comment ends before the line does. -/
def skipComment (cs : List Char) : List Char :=
  match cs with
  | '#' :: rest => rest.dropWhile fun c => c == '\t' || 0x20 ≤ c.toNat
  | _ => cs

/-- The text after the end of a line, which may follow blanks and a comment. -/
def endLine? (cs : List Char) : Option (List Char) :=
  match skipComment (skipGap cs) with
  | [] => some []
  | '\n' :: rest => some rest
  | _ => none

/-- The text after blanks, comments and line ends; the first argument bounds the number of lines. -/
def skipLines : Nat → List Char → List Char
  | 0, cs => cs
  | bound + 1, cs =>
    match skipComment (skipGap cs) with
    | '\n' :: rest => skipLines bound rest
    | rest => rest

/-! ## Strings -/

/-- Whether a character may stand in a string as it is. -/
def isPlain (c : Char) : Bool := c == '\t' || (0x20 ≤ c.toNat && c.toNat != 0x7f)

/-- The character of a code point in hexadecimal digits. -/
def codePoint? (cs : List Char) : Option Char := do
  let digits ← cs.mapM hexValue?
  let n := digits.foldl (fun n d => 16 * n + d) 0
  if n.isValidChar then return Char.ofNat n else none

def simpleEscape? : Char → Option Char
  | '"' => some '"'
  | '\\' => some '\\'
  | 'b' => some '\x08'
  | 'f' => some '\x0c'
  | 'n' => some '\n'
  | 'r' => some '\r'
  | 't' => some '\t'
  | _ => none

/-- Where a reader of a string stands. -/
inductive StringPhase where
  | plain
  /-- After a backslash and blanks, before the line end that they lead to. -/
  | lineEnd
  /-- In the blanks and line ends that a backslash at a line end swallows. -/
  | gap
  deriving DecidableEq

/-- The rest of a string in double quotes, and what follows it.  A string of several lines ends at
three quotes, of which two more may belong to the string. -/
def readBasic (multi : Bool) (phase : StringPhase) : List Char → Option (List Char × List Char)
  | [] => none
  | c :: rest =>
    if phase = .lineEnd then
      if c = '\n' then readBasic multi .gap rest
      else if Path.isGap c then readBasic multi .lineEnd rest
      else none
    else if phase = .gap ∧ (Path.isGap c ∨ c = '\n') then readBasic multi .gap rest
    else if c = '"' then
      if multi then
        match rest with
        | '"' :: '"' :: '"' :: '"' :: rest => some (['"', '"'], rest)
        | '"' :: '"' :: '"' :: rest => some (['"'], rest)
        | '"' :: '"' :: rest => some ([], rest)
        | rest => (readBasic multi .plain rest).map fun (cs, rest) => ('"' :: cs, rest)
      else some ([], rest)
    else if c = '\\' then
      match rest with
      | 'u' :: a :: b :: c :: d :: rest => do
        let c ← codePoint? [a, b, c, d]
        let (cs, rest) ← readBasic multi .plain rest
        return (c :: cs, rest)
      | 'U' :: a :: b :: c :: d :: e :: f :: g :: h :: rest => do
        let c ← codePoint? [a, b, c, d, e, f, g, h]
        let (cs, rest) ← readBasic multi .plain rest
        return (c :: cs, rest)
      | e :: rest =>
        match simpleEscape? e with
        | some c => (readBasic multi .plain rest).map fun (cs, rest) => (c :: cs, rest)
        | none =>
          if multi ∧ e = '\n' then readBasic multi .gap rest
          else if multi ∧ Path.isGap e then readBasic multi .lineEnd rest
          else none
      | [] => none
    else if isPlain c ∨ (multi ∧ c = '\n') then
      (readBasic multi .plain rest).map fun (cs, rest) => (c :: cs, rest)
    else none

/-- The rest of a string in single quotes, and what follows it. -/
def readLiteral (multi : Bool) : List Char → Option (List Char × List Char)
  | [] => none
  | c :: rest =>
    if c = '\'' then
      if multi then
        match rest with
        | '\'' :: '\'' :: '\'' :: '\'' :: rest => some (['\'', '\''], rest)
        | '\'' :: '\'' :: '\'' :: rest => some (['\''], rest)
        | '\'' :: '\'' :: rest => some ([], rest)
        | rest => (readLiteral multi rest).map fun (cs, rest) => ('\'' :: cs, rest)
      else some ([], rest)
    else if isPlain c ∨ (multi ∧ c = '\n') then
      (readLiteral multi rest).map fun (cs, rest) => (c :: cs, rest)
    else none

/-- A string of several lines does not hold the line end right after its opening quotes. -/
def dropFirstLineEnd : List Char → List Char
  | '\n' :: rest => rest
  | cs => cs

/-- A string, whether it has several lines, and what follows it. -/
def readString? (cs : List Char) : Option (Bool × String × List Char) :=
  let read (multi : Bool) (body : Option (List Char × List Char)) :=
    body.map fun (cs, rest) => (multi, String.ofList cs, rest)
  match cs with
  | '"' :: '"' :: '"' :: rest => read true (readBasic true .plain (dropFirstLineEnd rest))
  | '"' :: rest => read false (readBasic false .plain rest)
  | '\'' :: '\'' :: '\'' :: rest => read true (readLiteral true (dropFirstLineEnd rest))
  | '\'' :: rest => read false (readLiteral false rest)
  | _ => none

/-! ## Keys -/

/-- A key, bare or in quotes, and what follows it. -/
def readKey? (cs : List Char) : Option (String × List Char) :=
  let bare := cs.takeWhile isBare
  if bare.isEmpty then
    match readString? cs with
    | some (false, key, rest) => some (key, rest)
    | _ => none
  else some (String.ofList bare, cs.dropWhile isBare)

/-- The keys of a dotted key, with the blanks after it skipped. -/
def readDotted? : Nat → List Char → Option (List String × List Char)
  | 0, _ => none
  | bound + 1, cs => do
    let (key, rest) ← readKey? cs
    match skipGap rest with
    | '.' :: rest =>
      let (keys, rest) ← readDotted? bound (skipGap rest)
      return (key :: keys, rest)
    | rest => return ([key], rest)

/-! ## Numbers -/

/-- Where a reader of digits stands. -/
structure DigitPhase where
  /-- No digit was read yet. -/
  first : Bool
  /-- The first digit was a zero. -/
  zero : Bool
  /-- The last character was an underscore. -/
  underscore : Bool

/-- The digits at the start of a text, without the underscores between them, and what follows. -/
def scanDigits (isRadixDigit : Char → Bool) (allowZeros : Bool) (phase : DigitPhase) :
    List Char → Option (List Char × List Char)
  | [] => if phase.first ∨ phase.underscore then none else some ([], [])
  | c :: rest =>
    if c = '0' ∧ phase.first then
      (scanDigits isRadixDigit allowZeros { phase with first := false, zero := true } rest).map
        fun (digits, rest) => (c :: digits, rest)
    else if isRadixDigit c then
      if !phase.first ∧ phase.zero ∧ !allowZeros then none
      else
        (scanDigits isRadixDigit allowZeros
          { phase with first := false, underscore := false } rest).map
          fun (digits, rest) => (c :: digits, rest)
    else if c = '_' ∧ phase.first then none
    else if c = '_' ∧ !phase.underscore then
      scanDigits isRadixDigit allowZeros { phase with underscore := true } rest
    else if phase.first ∨ phase.underscore then none
    else some ([], c :: rest)

/-- Decimal digits, with a sign where one is allowed: whether there is a minus sign, the digits, and
what follows. -/
def scanDecimal (allowSign allowZeros : Bool) (cs : List Char) :
    Option (Bool × List Char × List Char) :=
  let (negative, digits) := match allowSign, cs with
    | true, '-' :: rest => (true, rest)
    | true, '+' :: rest => (false, rest)
    | _, rest => (false, rest)
  (scanDigits isDigit allowZeros ⟨true, false, false⟩ digits).map
    fun (digits, rest) => (negative, digits, rest)

def boundedWhole (n : Int) : Option Value :=
  if -(Whole.maxSigned : Int) - 1 ≤ n ∧ n ≤ Whole.maxSigned then some (.whole n) else none

/-- A whole number in another radix, after its mark. -/
def radixWhole? (radix : Nat) (cs : List Char) : Option Value := do
  let value? (c : Char) := (hexValue? c).filter (· < radix)
  let (digits, rest) ← scanDigits (fun c => (value? c).isSome) true ⟨true, false, false⟩ cs
  if rest.isEmpty then
    boundedWhole (digits.foldl (fun n c => radix * n + (value? c).getD 0) 0 : Nat)
  else none

/-- The exponent of a real number: its value, and what follows it.  A plus sign stands apart from
the bare text that ends in `e`. -/
def readExponent? (suffix rest : List Char) : Option (Int × List Char) := do
  match suffix with
  | [] => return (0, rest)
  | e :: suffix =>
    if e ≠ 'e' ∧ e ≠ 'E' then none
    else
      let (digits, allowSign, rest) :=
        if suffix.isEmpty then
          let rest := match rest with
            | '+' :: rest => rest
            | rest => rest
          (rest.takeWhile isBare, false, rest.dropWhile isBare)
        else (suffix, true, rest)
      let (negative, digits, stray) ← scanDecimal allowSign true digits
      if stray.isEmpty then
        return (if negative then -(digitsValue digits : Int) else digitsValue digits, rest)
      else none

def finiteReal? (negative : Bool) (digits : List Char) (exponent : Int) : Option Value :=
  let a := Binary64.ofLiteral (.finite negative (digitsValue digits) exponent)
  if a.isInfinite then none else some (.real a)

/-- A real number out of the bare text before its point, the bare text after it if there is a point,
and what follows. -/
def readReal? (whole : List Char) (fraction : Option (List Char)) (rest : List Char) :
    Option (Value × List Char) := do
  let (negative, digits, suffix) ← scanDecimal true false whole
  match fraction with
  | none =>
    let (exponent, rest) ← readExponent? suffix rest
    return (← finiteReal? negative digits exponent, rest)
  | some after =>
    if suffix.isEmpty then
      let (_, places, suffix) ← scanDecimal false true after
      let (exponent, rest) ← readExponent? suffix rest
      return (← finiteReal? negative (digits ++ places) (exponent - places.length), rest)
    else none

def readNumber? (bare rest : List Char) : Option (Value × List Char) :=
  match bare with
  | '0' :: 'x' :: digits => (radixWhole? 16 digits).map (·, rest)
  | '0' :: 'o' :: digits => (radixWhole? 8 digits).map (·, rest)
  | '0' :: 'b' :: digits => (radixWhole? 2 digits).map (·, rest)
  | _ =>
    if bare.contains 'e' ∨ bare.contains 'E' then readReal? bare none rest
    else match rest with
      | '.' :: rest => readReal? bare (some (rest.takeWhile isBare)) (rest.dropWhile isBare)
      | _ =>
        if bare = "inf".toList then some (.real (Binary64.infinity false), rest)
        else if bare = "-inf".toList then some (.real (Binary64.infinity true), rest)
        else if bare = "nan".toList then
          some (.real (Binary64.ofLiteral (.undefined false)), rest)
        else if bare = "-nan".toList then
          some (.real (Binary64.ofLiteral (.undefined true)), rest)
        else do
          let (negative, digits, stray) ← scanDecimal true false bare
          let value ← boundedWhole (if negative then -(digitsValue digits : Int)
            else digitsValue digits)
          if stray.isEmpty then return (value, rest) else none

/-! ## Dates -/

/-- A bare text at the start, which must not be empty: the text and what follows it. -/
def bareText? (cs : List Char) : Option (List Char × List Char) :=
  let bare := cs.takeWhile isBare
  if bare.isEmpty then none else some (bare, cs.dropWhile isBare)

/-- The bare text after a mark, the mark included, or nothing if the mark is not there. -/
def markedText? (mark : Char) (cs : List Char) : Option (List Char × List Char) :=
  match cs with
  | c :: rest =>
    if c = mark then (bareText? rest).map fun (bare, rest) => (mark :: bare, rest)
    else some ([], cs)
  | [] => some ([], [])

/-- The minutes and all that follows them in a date. -/
def clockTail? (cs : List Char) : Option (List Char × List Char) := do
  let (minutes, cs) ← bareText? cs
  match cs with
  | ':' :: cs =>
    let (seconds, cs) ← bareText? cs
    let (fraction, cs) ← markedText? '.' cs
    let (ahead, cs) ← markedText? '+' cs
    let (offset, cs) ← markedText? ':' cs
    return (':' :: minutes ++ ':' :: seconds ++ fraction ++ ahead ++ offset, cs)
  | _ => none

/-- A date that starts with a bare text.  One space may separate the time of day. -/
def readMoment? (bare rest : List Char) : Option (Value × List Char) := do
  let (joined, rest) := match rest with
    | ' ' :: next =>
      match bareText? next with
      | some (hour, rest) => (bare ++ ' ' :: hour, rest)
      | none => (bare, rest)
    | rest => (bare, rest)
  let (text, rest) ← match rest with
    | ':' :: rest => (clockTail? rest).map fun (tail, rest) => (joined ++ tail, rest)
    | rest => some (joined, rest)
  let moment ← Moment.read? text
  return (.text (String.ofList moment), rest)

/-- Whether a bare text is the start of a date. -/
def looksLikeMoment (bare : List Char) : Bool :=
  bare.contains 'T' || bare.contains 't' ||
    (bare.tail.contains '-' && !isPartOf "e-".toList bare && !isPartOf "E-".toList bare)

/-- A number or a date that starts with a bare text. -/
def readNumberOrMoment? (bare rest : List Char) : Option (Value × List Char) :=
  if looksLikeMoment bare then readMoment? bare rest
  else match rest with
    | ':' :: tail => do
      let (clock, rest) ← clockTail? tail
      let moment ← Moment.read? (bare ++ clock)
      return (.text (String.ofList moment), rest)
    | _ => readNumber? bare rest

def readBare? (bare rest : List Char) : Option (Value × List Char) :=
  if bare = "true".toList then some (.flag true, rest)
  else if bare = "false".toList then some (.flag false, rest)
  else if bare = "inf".toList ∨ bare = "nan".toList then readNumberOrMoment? bare rest
  else match bare with
    | c :: _ => if c = '-' ∨ isDigit c then readNumberOrMoment? bare rest else none
    | [] => none

/-! ## Tables under construction -/

/-- A setting under construction.  Dotted keys, headers and lists of tables each extend only what
they have made themselves. -/
inductive Draft where
  | value (v : Value)
  | dotted (entries : List (String × Draft))
  | table (defined : Bool) (entries : List (String × Draft))
  | tables (elements : List (List (String × Draft)))

abbrev Drafts := Association Draft

namespace Drafts

def addDotted (value : Value) : List String → Drafts → Option Drafts
  | [], _ => none
  | [key], drafts =>
    match drafts.get? key with
    | none => some (drafts.put key (.value value))
    | some _ => none
  | key :: keys, drafts =>
    match drafts.get? key with
    | none => (addDotted value keys []).map fun inner => drafts.put key (.dotted inner)
    | some (.dotted inner) =>
      (addDotted value keys inner).map fun inner => drafts.put key (.dotted inner)
    | some _ => none

def addAll (drafts : Drafts) : Drafts → Option Drafts
  | [] => some drafts
  | (name, draft) :: rest =>
    match drafts.get? name with
    | none => addAll (drafts.put name draft) rest
    | some _ => none

/-- Opens the table of a header with the entries below the header. -/
def openTable (body : Drafts) : List String → Drafts → Option Drafts
  | [], _ => none
  | [key], drafts =>
    match drafts.get? key with
    | none => some (drafts.put key (.table true body))
    | some (.table false entries) =>
      (addAll entries body).map fun entries => drafts.put key (.table true entries)
    | some _ => none
  | key :: keys, drafts =>
    match drafts.get? key with
    | none => (openTable body keys []).map fun inner => drafts.put key (.table false inner)
    | some (.table defined entries) =>
      (openTable body keys entries).map fun inner => drafts.put key (.table defined inner)
    | some (.tables elements) => do
      let last ← elements.getLast?
      let inner ← openTable body keys last
      return drafts.put key (.tables (elements.dropLast ++ [inner]))
    | some _ => none

/-- Appends the entries below a header to its list of tables. -/
def appendTable (body : Drafts) : List String → Drafts → Option Drafts
  | [], _ => none
  | [key], drafts =>
    match drafts.get? key with
    | none => some (drafts.put key (.tables [body]))
    | some (.tables elements) => some (drafts.put key (.tables (elements ++ [body])))
    | some _ => none
  | key :: keys, drafts =>
    match drafts.get? key with
    | none => (appendTable body keys []).map fun inner => drafts.put key (.table false inner)
    | some (.table defined entries) =>
      (appendTable body keys entries).map fun inner => drafts.put key (.table defined inner)
    | some (.tables elements) => do
      let last ← elements.getLast?
      let inner ← appendTable body keys last
      return drafts.put key (.tables (elements.dropLast ++ [inner]))
    | some _ => none

end Drafts

mutual

def Draft.finish : Draft → Value
  | .value v => v
  | .dotted entries => .table (finishEntries entries)
  | .table _ entries => .table (finishEntries entries)
  | .tables elements => .list (finishTables elements)

def finishEntries : List (String × Draft) → List (String × Value)
  | [] => []
  | (name, draft) :: rest => (name, draft.finish) :: finishEntries rest

def finishTables : List (List (String × Draft)) → List Value
  | [] => []
  | entries :: rest => .table (finishEntries entries) :: finishTables rest

end

/-! ## Values -/

mutual

/-- A value and what follows it.  The first argument bounds the depth and length of what is read. -/
def readValue? : Nat → List Char → Option (Value × List Char)
  | 0, _ => none
  | bound + 1, cs =>
    match cs with
    | '[' :: rest => readItems? bound [] (skipLines rest.length rest)
    | '\x7b' :: rest =>
      match skipGap rest with
      | '\x7d' :: rest => some (.table [], rest)
      | rest => readInline? bound [] rest
    | '+' :: rest => do
      let (bare, rest) ← bareText? rest
      readNumber? bare rest
    | c :: rest =>
      if c = '"' ∨ c = '\'' then
        (readString? (c :: rest)).map fun (_, text, rest) => (.text text, rest)
      else readBare? ((c :: rest).takeWhile isBare) ((c :: rest).dropWhile isBare)
    | [] => none

/-- The items of a list up to its closing bracket, after the ones already read. -/
def readItems? : Nat → List Value → List Char → Option (Value × List Char)
  | 0, _, _ => none
  | bound + 1, items, cs =>
    match cs with
    | ']' :: rest => some (.list items, rest)
    | _ => do
      let (item, rest) ← readValue? bound cs
      match skipLines rest.length rest with
      | ',' :: rest => readItems? bound (items ++ [item]) (skipLines rest.length rest)
      | ']' :: rest => return (.list (items ++ [item]), rest)
      | _ => none

/-- The pairs of a table in braces up to its closing brace, after the ones already read. -/
def readInline? : Nat → Drafts → List Char → Option (Value × List Char)
  | 0, _, _ => none
  | bound + 1, drafts, cs => do
    let (keys, rest) ← readDotted? cs.length cs
    match rest with
    | '=' :: rest =>
      let (value, rest) ← readValue? bound (skipGap rest)
      let drafts ← Drafts.addDotted value keys drafts
      match skipGap rest with
      | '\x7d' :: rest => return (.table (finishEntries drafts), rest)
      | ',' :: rest => readInline? bound drafts (skipGap rest)
      | _ => none
    | _ => none

end

/-! ## Documents -/

/-- The pairs of a table, up to the next header or the end of the document. -/
def readPairs? : Nat → Drafts → List Char → Option (Drafts × List Char)
  | 0, _, _ => none
  | bound + 1, drafts, cs =>
    match skipLines cs.length cs with
    | [] => some (drafts, [])
    | '[' :: rest => some (drafts, '[' :: rest)
    | cs => do
      let (keys, rest) ← readDotted? cs.length cs
      match rest with
      | '=' :: rest =>
        let (value, rest) ← readValue? (rest.length + 1) (skipGap rest)
        let drafts ← Drafts.addDotted value keys drafts
        readPairs? bound drafts (← endLine? rest)
      | _ => none

/-- A header: whether it appends to a list of tables, its keys, and what follows its line. -/
def readHeader? (cs : List Char) : Option (Bool × List String × List Char) := do
  match cs with
  | '[' :: '[' :: rest =>
    let (keys, rest) ← readDotted? rest.length (skipGap rest)
    match rest with
    | ']' :: ']' :: rest => return (true, keys, ← endLine? rest)
    | _ => none
  | '[' :: rest =>
    let (keys, rest) ← readDotted? rest.length (skipGap rest)
    match rest with
    | ']' :: rest => return (false, keys, ← endLine? rest)
    | _ => none
  | _ => none

/-- The tables of a document after the pairs at its start. -/
def readTables? : Nat → Drafts → List Char → Option Drafts
  | 0, _, _ => none
  | _ + 1, drafts, [] => some drafts
  | bound + 1, drafts, cs => do
    let (append, keys, rest) ← readHeader? cs
    let (body, rest) ← readPairs? (rest.length + 1) [] rest
    let drafts ←
      if append then Drafts.appendTable body keys drafts else Drafts.openTable body keys drafts
    readTables? bound drafts rest

/-- The settings of a document, if it is well formed. -/
def read? (text : String) : Option Entries := do
  let cs := match text.toList with
    | '\ufeff' :: rest => rest
    | cs => cs
  let cs := foldLineEnds cs
  let (drafts, rest) ← readPairs? (cs.length + 1) [] cs
  let drafts ← readTables? (cs.length + 1) drafts rest
  return finishEntries drafts

end FogDispatch.Settings.Toml
