import DoorAccess.Toml.Quoted
import DoorAccess.Toml.Scalar

/-!
Reading TOML text: a document is a list of lines, each a comment, a header or a key with its
value. Arrays and tables between braces may run over several lines and end in a comma.
-/
namespace DoorAccess.Toml

/-- Arrays and tables between braces are nested no deeper than this. -/
def maxDepth : Nat := 80

/-- Skips blanks, line breaks and comments. The flag says whether a comment has begun. -/
def skipGap : Bool → List Char → Option (List Char)
  | _, [] => some []
  | _, '\n' :: cs => skipGap false cs
  | _, '\r' :: '\n' :: cs => skipGap false cs
  | true, c :: cs => if isPrintable c then skipGap true cs else none
  | false, c :: cs =>
    if isSpace c then skipGap false cs
    else if c = '#' then skipGap true cs
    else some (c :: cs)

/-- What follows the end of a line, given what stands behind its last word. -/
def endLine? (cs : List Char) : Option (List Char) :=
  match cs.dropWhile isSpace with
  | '#' :: cs => finish (cs.dropWhile isPrintable)
  | cs => finish cs
where
  finish : List Char → Option (List Char)
    | [] => some []
    | cs => newline? cs

def isKeyChar (c : Char) : Bool := c.isAlphanum || c == '_' || c == '-'

/-- One name of a key. It is quoted in one line or made of plain characters. -/
def readName (cs : List Char) : Option (String × List Char) :=
  match cs with
  | '"' :: rest => (readBasic cs.length rest).map fun (text, rest) => (String.ofList text, rest)
  | '\'' :: rest => (readLiteral rest).map fun (text, rest) => (String.ofList text, rest)
  | cs =>
    match cs.takeWhile isKeyChar with
    | [] => none
    | name => some (String.ofList name, cs.dropWhile isKeyChar)

/-- The names of a key with dots between them: all but the last, the last, and what follows the
blanks behind it. -/
def readKey : Nat → List Char → Option (List String × String × List Char)
  | 0, _ => none
  | fuel + 1, cs => do
    let (name, cs) ← readName cs
    match cs.dropWhile isSpace with
    | '.' :: cs =>
      let (path, key, rest) ← readKey fuel (cs.dropWhile isSpace)
      return (name :: path, key, rest)
    | cs => return ([], name, cs)

def isWordChar (c : Char) : Bool := c.isAlphanum || c ∈ ['_', '-', '+', '.', ':']

/-- A word. A date goes on behind one blank if a digit follows. -/
def readWord (cs : List Char) : List Char × List Char :=
  let word := cs.takeWhile isWordChar
  match cs.dropWhile isWordChar with
  | ' ' :: c :: cs =>
    if c.isDigit ∧ afterDate? word = some [] then
      (word ++ ' ' :: (c :: cs).takeWhile isWordChar, (c :: cs).dropWhile isWordChar)
    else (word, ' ' :: c :: cs)
  | cs => (word, cs)

mutual

def readValue : Nat → Nat → List Char → Option (Value × List Char)
  | 0, _, _ => none
  | fuel + 1, depth, cs =>
    match cs with
    | '[' :: cs =>
      if depth = 0 then none
      else (readItems fuel (depth - 1) cs).map fun (items, rest) => (.array items, rest)
    | '{' :: cs =>
      if depth = 0 then none
      else (readMembers fuel (depth - 1) [] cs).map fun (entries, rest) =>
        (.table .inline entries, rest)
    | cs =>
      match cs.head? with
      | some '"' | some '\'' => (readQuoted cs).map fun (s, rest) => (.string s, rest)
      | _ =>
        let (word, rest) := readWord cs
        (scalar? word).map (·, rest)

/-- Items up to the bracket that closes the array. -/
def readItems : Nat → Nat → List Char → Option (List Value × List Char)
  | 0, _, _ => none
  | fuel + 1, depth, cs => do
    match ← skipGap false cs with
    | ']' :: cs => return ([], cs)
    | cs =>
      let (v, cs) ← readValue fuel depth cs
      match ← skipGap false cs with
      | ',' :: cs =>
        let (vs, rest) ← readItems fuel depth cs
        return (v :: vs, rest)
      | ']' :: cs => return ([v], cs)
      | _ => none

/-- Members up to the brace that closes the table, added to those before them. -/
def readMembers : Nat → Nat → Entries → List Char → Option (Entries × List Char)
  | 0, _, _, _ => none
  | fuel + 1, depth, entries, cs => do
    match ← skipGap false cs with
    | '}' :: cs => return (entries, cs)
    | cs =>
      let (path, key, cs) ← readKey cs.length cs
      let '=' :: cs := cs | none
      let (v, cs) ← readValue fuel depth (cs.dropWhile isSpace)
      let entries ← entries.assign path key v
      match ← skipGap false cs with
      | ',' :: cs => readMembers fuel depth entries cs
      | '}' :: cs => return (entries, cs)
      | _ => none

end

/-- One line that is not blank, and the lines behind it. -/
def readStatement (cs : List Char) : Option (Statement × List Char) := do
  match cs with
  | '[' :: '[' :: cs =>
    let (path, key, cs) ← readKey cs.length (cs.dropWhile isSpace)
    let ']' :: ']' :: cs := cs | none
    return (.nextHeader path key, ← endLine? cs)
  | '[' :: cs =>
    let (path, key, cs) ← readKey cs.length (cs.dropWhile isSpace)
    let ']' :: cs := cs | none
    return (.header path key, ← endLine? cs)
  | cs =>
    let (path, key, cs) ← readKey cs.length cs
    let '=' :: cs := cs | none
    let (v, cs) ← readValue (2 * cs.length + 1) maxDepth (cs.dropWhile isSpace)
    return (.assign path key v, ← endLine? cs)

def readStatements : Nat → List Char → Option (List Statement)
  | 0, _ => none
  | fuel + 1, cs => do
    match ← skipGap false cs with
    | [] => return []
    | cs =>
      let (statement, cs) ← readStatement cs
      return statement :: (← readStatements fuel cs)

/-- The table of a document. A byte order mark in front of it does not count. -/
def parse? (text : String) : Option Entries := do
  let cs := text.toList
  let cs := if cs.head? = some (Char.ofNat 0xFEFF) then cs.drop 1 else cs
  ofStatements? (← readStatements (cs.length + 1) cs)

end DoorAccess.Toml
