import DoorAccess.Json.Parser

/-!
Quoted texts: in double quotes with escapes, in single quotes as they stand, and both over several
lines between quotes written three times.
-/
namespace DoorAccess.Toml

/-- Characters that may stand in a comment or a quoted text: no controls but the tab. -/
def isPrintable (c : Char) : Bool := c == '\t' || (0x20 ≤ c.toNat && c.toNat ≠ 0x7F)

def newline? : List Char → Option (List Char)
  | '\n' :: cs => some cs
  | '\r' :: '\n' :: cs => some cs
  | _ => none

def isSpace (c : Char) : Bool := c == ' ' || c == '\t'

/-- The character of a number of hexadecimal digits, and what follows them. -/
def readCode (count : Nat) (cs : List Char) : Option (Char × List Char) := do
  let digits := cs.take count
  if digits.length < count then none
  let code ← digits.foldlM (fun n c => (Json.hexDigit? c).map (16 * n + ·)) 0
  if h : code.isValidChar then return (Char.ofNatAux code h, cs.drop count) else none

def readEscape : List Char → Option (Char × List Char)
  | 'b' :: cs => some (Char.ofNat 8, cs)
  | 't' :: cs => some ('\t', cs)
  | 'n' :: cs => some ('\n', cs)
  | 'f' :: cs => some (Char.ofNat 12, cs)
  | 'r' :: cs => some ('\r', cs)
  | 'e' :: cs => some (Char.ofNat 27, cs)
  | '"' :: cs => some ('"', cs)
  | '\\' :: cs => some ('\\', cs)
  | 'x' :: cs => readCode 2 cs
  | 'u' :: cs => readCode 4 cs
  | 'U' :: cs => readCode 8 cs
  | _ => none

/-- A text behind its opening double quote, and what follows its closing one. -/
def readBasic : Nat → List Char → Option (List Char × List Char)
  | 0, _ => none
  | _ + 1, [] => none
  | _ + 1, '"' :: cs => some ([], cs)
  | fuel + 1, '\\' :: cs => do
    let (c, cs) ← readEscape cs
    let (text, rest) ← readBasic fuel cs
    return (c :: text, rest)
  | fuel + 1, c :: cs =>
    if isPrintable c then (readBasic fuel cs).map fun (text, rest) => (c :: text, rest) else none

/-- A text behind its opening single quote, and what follows its closing one. -/
def readLiteral : List Char → Option (List Char × List Char)
  | [] => none
  | '\'' :: cs => some ([], cs)
  | c :: cs =>
    if isPrintable c then (readLiteral cs).map fun (text, rest) => (c :: text, rest) else none

def skipLines : List Char → List Char
  | '\r' :: '\n' :: cs => skipLines cs
  | c :: cs => if isSpace c || c == '\n' then skipLines cs else c :: cs
  | [] => []

/-- What stands behind the blanks at the end of a line, if the line ends there. -/
def afterLineEnd? (cs : List Char) : Option (List Char) := newline? (cs.dropWhile isSpace)

/-- The end of a text in quotes written three times: up to two more quotes belong to the text. -/
def closing? (quote : Char) : List Char → Option (List Char × List Char)
  | a :: b :: c :: cs =>
    if a = quote ∧ b = quote ∧ c = quote then
      let extra := min 2 (cs.takeWhile (· = quote)).length
      some (List.replicate extra quote, cs.drop extra)
    else none
  | _ => none

def readBasicLines : Nat → List Char → Option (List Char × List Char)
  | 0, _ => none
  | fuel + 1, cs =>
    match closing? '"' cs with
    | some end_ => some end_
    | none =>
      match cs with
      | [] => none
      | '\\' :: cs =>
        match afterLineEnd? cs with
        | some cs => readBasicLines fuel (skipLines cs)
        | none => do
          let (c, cs) ← readEscape cs
          let (text, rest) ← readBasicLines fuel cs
          return (c :: text, rest)
      | '\r' :: '\n' :: cs =>
        (readBasicLines fuel cs).map fun (text, rest) => ('\r' :: '\n' :: text, rest)
      | c :: cs =>
        if isPrintable c || c == '\n' then
          (readBasicLines fuel cs).map fun (text, rest) => (c :: text, rest)
        else none

def readLiteralLines : Nat → List Char → Option (List Char × List Char)
  | 0, _ => none
  | fuel + 1, cs =>
    match closing? '\'' cs with
    | some end_ => some end_
    | none =>
      match cs with
      | [] => none
      | '\r' :: '\n' :: cs =>
        (readLiteralLines fuel cs).map fun (text, rest) => ('\r' :: '\n' :: text, rest)
      | c :: cs =>
        if isPrintable c || c == '\n' then
          (readLiteralLines fuel cs).map fun (text, rest) => (c :: text, rest)
        else none

def dropFirstBreak (cs : List Char) : List Char := (newline? cs).getD cs

def readQuoted (cs : List Char) : Option (String × List Char) :=
  let fuel := cs.length + 1
  let read :=
    match cs with
    | '"' :: '"' :: '"' :: cs => readBasicLines fuel (dropFirstBreak cs)
    | '\'' :: '\'' :: '\'' :: cs => readLiteralLines fuel (dropFirstBreak cs)
    | '"' :: cs => readBasic fuel cs
    | '\'' :: cs => readLiteral cs
    | _ => none
  read.map fun (text, rest) => (String.ofList text, rest)

end DoorAccess.Toml
