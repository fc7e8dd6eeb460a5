/-
# TOML documents

Configuration files are TOML: tables of keys and values, written under headers, with dotted keys or
inline. The reader keeps what a configuration asks for (texts, integers, tables) and knows of the
other values only that they are well-formed.

A table is defined once. A header may reopen a table that only other headers implied; a dotted key may
extend what dotted keys of the same table began; an inline table is closed.

Key definitions: `Toml`, `Toml.value?`, `Toml.Entries.define?`, `Toml.parse?`.
-/
import ExperimentKpi.DateTime

namespace ExperimentKpi

/-- How a table came to be, which decides what may still be added to it. -/
inductive TableOrigin where
  /-- Implied by a header of a table inside it. -/
  | implied
  /-- Defined by a header. -/
  | header
  /-- Begun by a dotted key. -/
  | dotted
  /-- Written inline. -/
  | inline
deriving DecidableEq

/-- A TOML value. -/
inductive Toml where
  | text (s : String)
  | integer (z : Int)
  | boolean (b : Bool)
  /-- A float, whose value is not needed. -/
  | float
  /-- A date, a time or both, whose value is not needed. -/
  | dateTime
  | array (items : List Toml)
  /-- The tables of a header in double brackets. -/
  | tables (items : List (List (String × Toml)))
  | table (origin : TableOrigin) (entries : List (String × Toml))

namespace Toml

/-- The entries of a table. -/
abbrev Entries := List (String × Toml)

/-- A reader of something at the head of a text. -/
abbrev Reader (α : Type) := List Char → Option (α × List Char)

/-- A text without the blanks and tabs at its head. -/
def skipBlanks (s : List Char) : List Char :=
  s.dropWhile fun c => c == ' ' || c == '\t'

/-- Whether a character may stand in a comment or a text that ends with its line. -/
def isLineChar (c : Char) : Bool :=
  c == '\t' || (0x20 ≤ c.toNat && c.toNat != 0x7f)

/-- A comment, if one starts here, up to the end of the line. -/
def skipComment? : List Char → Option (List Char)
  | '#' :: r =>
    match r.dropWhile isLineChar with
    | [] => some []
    | '\n' :: r' => some ('\n' :: r')
    | '\r' :: '\n' :: r' => some ('\r' :: '\n' :: r')
    | _ => none
  | s => some s

/-- The text after a line end. -/
def lineEnd? : List Char → Option (List Char)
  | '\n' :: r => some r
  | '\r' :: '\n' :: r => some r
  | _ => none

/-- A text without the blanks, line ends and comments at its head. -/
def skipLines? : Nat → List Char → Option (List Char)
  | 0, s => some s
  | fuel + 1, s =>
    match skipComment? (skipBlanks s) with
    | none => none
    | some s =>
      match lineEnd? s with
      | some r => skipLines? fuel r
      | none => some s

/-- The value of a hexadecimal digit. -/
def hexValue? (c : Char) : Option Nat :=
  if '0' ≤ c ∧ c ≤ '9' then some (c.toNat - '0'.toNat)
  else if 'a' ≤ c ∧ c ≤ 'f' then some (c.toNat - 'a'.toNat + 10)
  else if 'A' ≤ c ∧ c ≤ 'F' then some (c.toNat - 'A'.toNat + 10)
  else none

/-- The character whose code is written in exactly `n` hexadecimal digits. -/
def coded? (n : Nat) : Reader Char := fun s => do
  let digits := s.take n
  guard (digits.length = n)
  let code ← digits.foldlM (fun m c => (hexValue? c).map fun d => 16 * m + d) 0
  guard (code < 0xd800 ∨ 0xdfff < code ∧ code < 0x110000)
  return (Char.ofNat code, s.drop n)

/-- The character of an escape after its backslash. -/
def escape? : Reader Char
  | 'b' :: r => some ('\x08', r)
  | 't' :: r => some ('\t', r)
  | 'n' :: r => some ('\n', r)
  | 'f' :: r => some ('\x0c', r)
  | 'r' :: r => some ('\r', r)
  | '"' :: r => some ('"', r)
  | '\\' :: r => some ('\\', r)
  | 'u' :: r => coded? 4 r
  | 'U' :: r => coded? 8 r
  | _ => none

/-- A text in double quotes, after the opening quote. -/
def basic? : Nat → Reader (List Char)
  | 0, _ => none
  | _ + 1, '"' :: r => some ([], r)
  | fuel + 1, '\\' :: r => do
    let (c, r) ← escape? r
    let (cs, r) ← basic? fuel r
    return (c :: cs, r)
  | fuel + 1, c :: r => do
    guard (isLineChar c)
    let (cs, r) ← basic? fuel r
    return (c :: cs, r)
  | _ + 1, [] => none

/-- A text in single quotes, after the opening quote. -/
def literal? : Reader (List Char)
  | '\'' :: r => some ([], r)
  | c :: r => do
    guard (isLineChar c)
    let (cs, r) ← literal? r
    return (c :: cs, r)
  | [] => none

/-- A text over several lines, after its three opening quotes `q` and a line end. Up to two quotes
may stand before the three closing ones. In double quotes a backslash at the end of a line passes over
the blanks and line ends after it. -/
def multiline? (q : Char) : Nat → Reader (List Char)
  | 0, _ => none
  | fuel + 1, s =>
    match s with
    | [] => none
    | c :: r =>
      if c = q then
        let run := (s.takeWhile (· == q)).length
        if 3 ≤ run then
          if run ≤ 5 then some (List.replicate (run - 3) q, s.drop run) else none
        else do
          let (cs, r) ← multiline? q fuel r
          return (c :: cs, r)
      else if c = '\\' ∧ q = '"' then
        match lineEnd? (skipBlanks r) with
        | some r =>
          multiline? q fuel (r.dropWhile fun c => c == ' ' || c == '\t' || c == '\n' || c == '\r')
        | none => do
          let (c, r) ← escape? r
          let (cs, r) ← multiline? q fuel r
          return (c :: cs, r)
      else
        match lineEnd? s with
        | some r => do
          let (cs, r) ← multiline? q fuel r
          return ('\n' :: cs, r)
        | none => do
          guard (isLineChar c)
          let (cs, r) ← multiline? q fuel r
          return (c :: cs, r)

/-- A text after a line end right behind its opening quotes. -/
def afterFirstLine (s : List Char) : List Char :=
  (lineEnd? s).getD s

/-- A quoted text of any of the four forms. -/
def text? : Reader (List Char)
  | '"' :: '"' :: '"' :: r => multiline? '"' (r.length + 1) (afterFirstLine r)
  | '\'' :: '\'' :: '\'' :: r => multiline? '\'' (r.length + 1) (afterFirstLine r)
  | '"' :: r => basic? (r.length + 1) r
  | '\'' :: r => literal? r
  | _ => none

/-- The characters of bare keys. -/
def isBareKey (c : Char) : Bool :=
  ('a' ≤ c && c ≤ 'z') || ('A' ≤ c && c ≤ 'Z') || Text.isDigit c || c == '_' || c == '-'

/-- One part of a key: bare, or quoted on one line. -/
def keyPart? : Reader String
  | '"' :: r => (basic? (r.length + 1) r).map fun (cs, rest) => (String.ofList cs, rest)
  | '\'' :: r => (literal? r).map fun (cs, rest) => (String.ofList cs, rest)
  | s =>
    let key := s.takeWhile isBareKey
    if key.isEmpty then none else some (String.ofList key, s.dropWhile isBareKey)

/-- A key of parts with dots between them. -/
def key? : Nat → Reader (List String)
  | 0, _ => none
  | fuel + 1, s => do
    let (part, r) ← keyPart? (skipBlanks s)
    match skipBlanks r with
    | '.' :: r => do
      let (parts, r) ← key? fuel r
      return (part :: parts, r)
    | r => return ([part], r)

/-- Whether single underscores stand only between digits. -/
def underscoresProper (isDigit : Char → Bool) : List Char → Bool
  | [] => true
  | [c] => isDigit c
  | c :: d :: r =>
    if c == '_' then isDigit d && underscoresProper isDigit (d :: r)
    else isDigit c && underscoresProper isDigit (d :: r)

/-- The number that digits of a base spell, underscores between them passed over. -/
def digitsOf? (base : Nat) (s : List Char) : Option Nat :=
  let isDigit (c : Char) : Bool := (hexValue? c).any (· < base)
  if (s.head?.any isDigit) && underscoresProper isDigit s then
    some ((s.filter (· != '_')).foldl (fun n c => base * n + (hexValue? c).getD 0) 0)
  else none

/-- An integer of 64 bits. -/
def integer? (s : List Char) : Option Int :=
  let decimal (digits : List Char) : Option Nat :=
    if digits.head? == some '0' && digits.length != 1 then none else digitsOf? 10 digits
  let value : Option Int := match s with
    | '0' :: 'x' :: r => (digitsOf? 16 r).map Int.ofNat
    | '0' :: 'o' :: r => (digitsOf? 8 r).map Int.ofNat
    | '0' :: 'b' :: r => (digitsOf? 2 r).map Int.ofNat
    | '+' :: r => (decimal r).map Int.ofNat
    | '-' :: r => (decimal r).map fun n => -Int.ofNat n
    | _ => (decimal s).map Int.ofNat
  value.filter fun z => decide (IsInt64 z)

/-- Whether a text is a float. -/
def isFloat (s : List Char) : Bool :=
  let body := match s with
    | '+' :: r => r
    | '-' :: r => r
    | _ => s
  if body = ['i', 'n', 'f'] ∨ body = ['n', 'a', 'n'] then true
  else
    let isDigitChar (c : Char) : Bool := Text.isDigit c || c == '_'
    let whole := body.takeWhile isDigitChar
    let rest := body.dropWhile isDigitChar
    let proper (digits : List Char) : Bool := (digitsOf? 10 digits).isSome
    let exponent (s : List Char) : Bool :=
      match s with
      | [] => true
      | e :: '+' :: r => (e == 'e' || e == 'E') && proper r
      | e :: '-' :: r => (e == 'e' || e == 'E') && proper r
      | e :: r => (e == 'e' || e == 'E') && proper r
    let wholeProper := proper whole && (whole.head? != some '0' || whole.length == 1)
    match rest with
    | '.' :: r =>
      wholeProper && proper (r.takeWhile isDigitChar) && exponent (r.dropWhile isDigitChar)
    | [] => false
    | r => wholeProper && exponent r

/-- Whether a text has the digits and signs of a pattern, in which `0` stands for any digit. -/
def fits : List Char → List Char → Bool
  | [], [] => true
  | p :: ps, c :: cs => (if p == '0' then Text.isDigit c else p == c) && fits ps cs
  | _, _ => false

/-- The number that the two digits at a place of a text spell. -/
def twoDigits (s : List Char) (place : Nat) : Nat :=
  Text.digitsValue ((s.drop place).take 2)

/-- Whether a text is a calendar date. -/
def isDate (s : List Char) : Bool :=
  let year := Text.digitsValue (s.take 4)
  let month := twoDigits s 5
  let day := twoDigits s 8
  fits "0000-00-00".toList s &&
    decide (1 ≤ month ∧ month ≤ 12 ∧ 1 ≤ day ∧ day ≤ DateTime.daysIn year month)

/-- Whether a text is an hour and a minute. -/
def isClock (s : List Char) : Bool :=
  fits "00:00".toList s && decide (twoDigits s 0 < 24 ∧ twoDigits s 3 < 60)

/-- Whether a text is a time of day; second 60 is a leap second. -/
def isTime (s : List Char) : Bool :=
  isClock (s.take 5) && fits ":00".toList ((s.drop 5).take 3) && decide (twoDigits s 6 ≤ 60) &&
    match s.drop 8 with
    | [] => true
    | '.' :: r => !r.isEmpty && r.all Text.isDigit
    | _ => false

/-- Whether a text is an offset from universal time. -/
def isOffset : List Char → Bool
  | [z] => z == 'Z' || z == 'z'
  | sign :: r => (sign == '+' || sign == '-') && isClock r
  | [] => false

/-- Whether a text is a date, a time or both, and then with or without an offset. -/
def isDateTime (s : List Char) : Bool :=
  isTime s ||
    (isDate (s.take 10) &&
      match s.drop 10 with
      | [] => true
      | sep :: r =>
        let isTimeChar (c : Char) : Bool := Text.isDigit c || c == ':' || c == '.'
        let offset := r.dropWhile isTimeChar
        (sep == 'T' || sep == 't' || sep == ' ') && isTime (r.takeWhile isTimeChar) &&
          (offset.isEmpty || isOffset offset))

/-- The characters of a value that is neither quoted nor bracketed. -/
def isPlain (c : Char) : Bool :=
  isBareKey c || c == '+' || c == '.' || c == ':'

/-- A boolean, a number or a date. -/
def plain? (s : List Char) : Option (Toml × List Char) :=
  let word := s.takeWhile isPlain
  let rest := s.dropWhile isPlain
  let (word, rest) :=
    match rest with
    | ' ' :: r =>
      if fits "0000-00-00".toList word && fits "00:00:00".toList ((r.takeWhile isPlain).take 8) then
        (word ++ ' ' :: r.takeWhile isPlain, r.dropWhile isPlain)
      else (word, rest)
    | _ => (word, rest)
  if word = "true".toList then some (.boolean true, rest)
  else if word = "false".toList then some (.boolean false, rest)
  else
    match integer? word with
    | some z => some (.integer z, rest)
    | none =>
      if isFloat word then some (.float, rest)
      else if isDateTime word then some (.dateTime, rest)
      else none

namespace Entries

/-- Entries with a value at a key, in place. -/
def put (key : String) (v : Toml) : Entries → Entries
  | [] => [(key, v)]
  | (k, w) :: r => if k = key then (k, v) :: r else (k, w) :: put key v r

/-- Entries with a value at a dotted key that is not defined yet. The table that the value goes into has
to be begun by a dotted key itself; on the way to it a dotted key may pass through tables that headers
implied and through the last table of a row. -/
def define? : Entries → List String → Toml → Option Entries
  | _, [], _ => none
  | es, [key], v => if (es.lookup key).isSome then none else some (es ++ [(key, v)])
  | es, key :: next :: rest, v =>
    match es.lookup key with
    | none => (define? [] (next :: rest) v).map fun inner => es ++ [(key, .table .dotted inner)]
    | some (.table .dotted inner) =>
      (define? inner (next :: rest) v).map fun inner => es.put key (.table .dotted inner)
    | some (.table .implied inner) =>
      if rest.isEmpty then none
      else (define? inner (next :: rest) v).map fun inner => es.put key (.table .implied inner)
    | some (.tables items) =>
      match items.reverse with
      | last :: before =>
        if rest.isEmpty then none
        else (define? last (next :: rest) v).map fun last =>
          es.put key (.tables (last :: before).reverse)
      | [] => none
    | some _ => none

/-- Entries with `change` applied to the entries of the table at a path; tables on the way are
implied where they do not exist, and of a row of tables the last one is meant. -/
def within? (change : Entries → Option Entries) : Entries → List String → Option Entries
  | es, [] => change es
  | es, key :: rest =>
    match es.lookup key with
    | none => (within? change [] rest).map fun inner => es ++ [(key, .table .implied inner)]
    | some (.table .inline _) => none
    | some (.table origin inner) =>
      (within? change inner rest).map fun inner => es.put key (.table origin inner)
    | some (.tables items) =>
      match items.reverse with
      | last :: before =>
        (within? change last rest).map fun last =>
          es.put key (.tables (last :: before).reverse)
      | [] => none
    | some _ => none

/-- Entries in which a header has opened the table at a key. -/
def openTable? (key : String) (es : Entries) : Option Entries :=
  match es.lookup key with
  | none => some (es ++ [(key, .table .header [])])
  | some (.table .implied inner) => some (es.put key (.table .header inner))
  | some _ => none

/-- Entries in which a header in double brackets has opened one table more at a key. -/
def openRow? (key : String) (es : Entries) : Option Entries :=
  match es.lookup key with
  | none => some (es ++ [(key, .tables [[]])])
  | some (.tables items) => some (es.put key (.tables (items ++ [[]])))
  | some _ => none

end Entries

mutual

/-- A value. -/
def value? : Nat → List Char → Option (Toml × List Char)
  | 0, _ => none
  | fuel + 1, s =>
    match s with
    | '[' :: r => do
      let r ← skipLines? fuel r
      let (items, r) ← items? fuel r
      return (.array items, r)
    | '{' :: r =>
      match skipBlanks r with
      | '}' :: r => some (.table .inline [], r)
      | r => do
        let (entries, r) ← pairs? fuel [] r
        return (.table .inline entries, r)
    | c :: _ =>
      if c = '"' ∨ c = '\'' then (text? s).map fun (cs, r) => (.text (String.ofList cs), r)
      else plain? s
    | [] => none

/-- The items of an array up to its closing bracket; a comma may stand behind the last one. -/
def items? : Nat → List Char → Option (List Toml × List Char)
  | 0, _ => none
  | _ + 1, ']' :: r => some ([], r)
  | fuel + 1, s => do
    let (v, r) ← value? fuel s
    let r ← skipLines? fuel r
    match r with
    | ',' :: r => do
      let r ← skipLines? fuel r
      let (vs, r) ← items? fuel r
      return (v :: vs, r)
    | ']' :: r => return ([v], r)
    | _ => none

/-- The entries of an inline table up to its closing brace, after some entries. -/
def pairs? : Nat → Entries → List Char → Option (Entries × List Char)
  | 0, _, _ => none
  | fuel + 1, es, s => do
    let (key, r) ← key? fuel s
    match skipBlanks r with
    | '=' :: r => do
      let (v, r) ← value? fuel (skipBlanks r)
      let es ← Entries.define? es key v
      match skipBlanks r with
      | ',' :: r => pairs? fuel es r
      | '}' :: r => return (es, r)
      | _ => none
    | _ => none

end

/-- The rest of a line that holds nothing but a comment, up to the next line. -/
def finishLine? (s : List Char) : Option (List Char) :=
  match skipComment? (skipBlanks s) with
  | some [] => some []
  | some r => lineEnd? r
  | none => none

/-- The statements of a document, after entries, where `path` leads to the open table. -/
def statements? : Nat → Entries → List String → List Char → Option Entries
  | 0, _, _, _ => none
  | fuel + 1, es, path, s => do
    let s ← skipLines? fuel s
    match s with
    | [] => return es
    | '[' :: '[' :: r => do
      let (key, r) ← key? fuel r
      match r with
      | ']' :: ']' :: r => do
        let es ← Entries.within? (Entries.openRow? (key.getLast?.getD "")) es key.dropLast
        statements? fuel es key (← finishLine? r)
      | _ => none
    | '[' :: r => do
      let (key, r) ← key? fuel r
      match r with
      | ']' :: r => do
        let es ← Entries.within? (Entries.openTable? (key.getLast?.getD "")) es key.dropLast
        statements? fuel es key (← finishLine? r)
      | _ => none
    | s => do
      let (key, r) ← key? fuel s
      match r with
      | '=' :: r => do
        let (v, r) ← value? fuel (skipBlanks r)
        let es ← Entries.within? (fun inner => Entries.define? inner key v) es path
        statements? fuel es path (← finishLine? r)
      | _ => none

/-- The entries of a document, which may begin with a byte order mark. -/
def parse? (s : String) : Option Entries :=
  let text := match s.toList with
    | c :: r => if c.toNat = 0xfeff then r else c :: r
    | [] => []
  statements? (text.length + 2) [] [] text

end Toml

end ExperimentKpi
