import PokerHand.Settings.Literal
import PokerHand.Settings.Table

/-!
# Statements of a settings file

A line holds nothing, a value for a dotted key, or the header of the table that the keys below it
belong to; a comment may follow. Values are texts, integers, tables in braces and empty lists.
No setting takes a value of another kind (a fraction, a truth value, a date, a list with items), so
a file that holds one is refused where it stands.
-/
namespace PokerHand.SettingsFile

/-- The text behind blanks, line breaks and comments. A character that no comment may hold is left
in front, where nothing can be read from it. -/
def skipGap : Bool → List Char → List Char
  | _, [] => []
  | _, '\r' :: '\n' :: rest => skipGap false rest
  | inComment, c :: rest =>
      if c == '\n' then skipGap false rest
      else if inComment && isPlain c then skipGap true rest
      else if !inComment && isBlank c then skipGap false rest
      else if !inComment && c == '#' then skipGap true rest
      else c :: rest

/-- The text behind the blanks, the comment and the end of a line. -/
def finishLine (cs : List Char) : Option (List Char) :=
  let rest := match skipBlanks cs with
    | '#' :: rest => rest.dropWhile isPlain
    | rest => rest
  if rest.isEmpty then some [] else lineBreak rest

/-! ## Keys -/

/-- Characters of a bare key. -/
def isBare (c : Char) : Bool := c.isAlphanum || c == '-' || c == '_'

/-- Reads one name of a key. -/
def name (cs : List Char) : Option (String × List Char) :=
  let read := match cs with
    | '"' :: rest => quoted (rest.length + 1) rest
    | '\'' :: rest => literal rest
    | _ =>
        let bare := cs.takeWhile isBare
        if bare.isEmpty then none else some (bare, cs.dropWhile isBare)
  read.map fun r => (String.ofList r.1, r.2)

/-- Reads a key: names parted by dots, at most `n` of them. -/
def key : Nat → List Char → Option (List String × List Char)
  | 0, _ => none
  | n + 1, cs => do
      let (first, rest) ← name cs
      match skipBlanks rest with
      | '.' :: rest =>
          let (more, rest) ← key n (skipBlanks rest)
          return (first :: more, rest)
      | rest => return ([first], rest)

/-! ## Values -/

/-- Characters of an integer. -/
def isNumeric (c : Char) : Bool := isBare c || c == '+' || c == '.'

mutual

/-- Reads a value, at most `n` parts of it. -/
def value : Nat → List Char → Option (Node × List Char)
  | 0, _ => none
  | n + 1, cs =>
      match cs with
      | '[' :: rest =>
          match skipGap false rest with
          | ']' :: rest => some (.emptyList, rest)
          | _ => none
      | '\x7b' :: rest => (entries n [] (skipGap false rest)).map fun r => (.table .value r.1, r.2)
      | '"' :: _ | '\'' :: _ => (text cs).map fun r => (.text r.1, r.2)
      | _ => (integer? (cs.takeWhile isNumeric)).map fun i => (.integer i, cs.dropWhile isNumeric)

/-- Reads the entries of a table in braces behind those in `es`; a comma may follow the last one. -/
def entries : Nat → Entries → List Char → Option (Entries × List Char)
  | 0, _, _ => none
  | n + 1, es, cs =>
      match cs with
      | '\x7d' :: rest => some (es, rest)
      | _ => do
          let (path, rest) ← key (cs.length + 1) cs
          let '=' :: rest := skipGap false rest | none
          let (node, rest) ← value n (skipGap false rest)
          let es ← es.assign node path
          match skipGap false rest with
          | ',' :: rest => entries n es (skipGap false rest)
          | '\x7d' :: rest => some (es, rest)
          | _ => none

end

/-! ## Statements -/

inductive Statement where
  | header (path : List String)
  | entry (path : List String) (node : Node)

/-- Reads a statement with the end of its line. -/
def statement (cs : List Char) : Option (Statement × List Char) :=
  match cs with
  | '[' :: rest => do
      let (path, rest) ← key (rest.length + 1) (skipBlanks rest)
      let ']' :: rest := skipBlanks rest | none
      return (.header path, ← finishLine rest)
  | _ => do
      let (path, rest) ← key (cs.length + 1) cs
      let '=' :: rest := skipBlanks rest | none
      let (node, rest) ← value (rest.length + 1) (skipBlanks rest)
      return (.entry path node, ← finishLine rest)

/-- Reads statements to the end of the text, at most `n` lines. Each line is shorter than the text,
so a text never has more lines than characters. -/
def statements : Nat → List Char → Option (List Statement)
  | _, [] => some []
  | 0, _ => none
  | n + 1, cs =>
      match finishLine cs with
      | some rest => statements n rest
      | none => do
          let (s, rest) ← statement (skipBlanks cs)
          return s :: (← statements n rest)

/-- What a file says so far, and the path of the table that its last header opened. -/
structure Draft where
  root : Entries
  path : List String

def Draft.add (d : Draft) : Statement → Option Draft
  | .header path => (d.root.openTable path).map fun root => ⟨root, path⟩
  | .entry path node =>
      (d.root.within (fun es => es.assign node path) d.path).map fun root => ⟨root, d.path⟩

/-- The entries that a text describes; a byte order mark in front does not count. -/
def entriesOf (text : String) : Option Entries := do
  let cs := match text.toList with
    | '\ufeff' :: rest => rest
    | cs => cs
  let draft ← (← statements (cs.length + 1) cs).foldlM Draft.add ⟨[], []⟩
  return draft.root

end PokerHand.SettingsFile
