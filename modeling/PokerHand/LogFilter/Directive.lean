import PokerHand.LogFilter.Field
import PokerHand.LogFilter.Level

/-!
# Directives of a log filter

A directive is a level, or a scope with a level after `=`. A scope is a target, a span in brackets
or both; the span may ask for a field in braces. A level that is left out is the most talkative
one.

Blanks around a directive are no part of it, but its parts are cut out of the whole text, from the
bytes where they begin to the bytes where they end in the directive without blanks: a blank in
front moves all of them. Only the ends of the parts have to lie between characters.
-/
namespace PokerHand.LogFilter

structure Directive where
  target : Option (List Char)
  span : Option (List Char)
  field : Option Field
  level : Level
  deriving DecidableEq

namespace Directive

/-! ## Reading -/

/-- Whether a target may begin with `c`. -/
def mayStart (c : Char) : Bool :=
  c == '-' || c == ':' || c == '_' || Text.Alphanumeric.isAlphanumeric c

/-- The number of bytes of a text. -/
def byteLength : List Char → Nat
  | [] => 0
  | c :: cs => c.utf8Size + byteLength cs

/-- Cuts a text after `count` bytes, which may not be inside a character. -/
def cut : Nat → List Char → Option (List Char × List Char)
  | 0, cs => some ([], cs)
  | _ + 1, [] => none
  | count + 1, c :: cs =>
      if c.utf8Size ≤ count + 1 then
        (cut (count + 1 - c.utf8Size) cs).map fun r => (c :: r.1, r.2)
      else none

/-- The text behind the first `start` bytes. -/
def behind (start : Nat) (text : List Char) : Option (List Char) :=
  (cut start text).map fun r => r.2

/-- The text from the byte `start` up to the byte `stop`. -/
def slice (start stop : Nat) (text : List Char) : Option (List Char) := do
  return (← cut (stop - start) (← behind start text)).1

/-- Reads the level after an equals sign. -/
def levelOf? (cs : List Char) : Option Level :=
  if cs.isEmpty then some .trace else Level.ofText? cs

/-- Reads what comes after a scope that ends at the byte `stop`: `shown` is what lies there. -/
def ending? (text : List Char) (stop : Nat) (shown : List Char) : Option Level :=
  match shown with
  | [] => some .trace
  | '=' :: _ => do levelOf? (← behind (stop + 1) text)
  | _ => none

/-- Reads the rest of a directive behind the bracket that opens a span and ends before the byte
`start`. -/
def spanned? (target : Option (List Char)) (text : List Char) (start : Nat)
    (shown : List Char) : Option Directive := do
  let isEnd (c : Char) := c == ']' || c == '\x7b'
  let stop := start + byteLength (shown.takeWhile fun c => !isEnd c)
  let span ← slice start stop text
  match shown.dropWhile fun c => !isEnd c with
  | ']' :: shown => return ⟨target, some span, none, ← ending? text (stop + 1) shown⟩
  | _ :: shown =>
      let isPart (c : Char) := c != '\x7d'
      let start := stop + 1
      let stop := start + byteLength (shown.takeWhile isPart)
      let field ← slice start stop text
      if field.isEmpty then none
      match shown.dropWhile isPart with
      | '\x7d' :: ']' :: shown =>
          return ⟨target, if span.isEmpty then none else some span, some (← Field.ofText? field),
            ← ending? text (stop + 2) shown⟩
      | _ => none
  | [] => none

/-- Reads a directive. -/
def ofText? (text : List Char) : Option Directive := do
  let shown := Text.trim text
  let first ← shown.head?
  if first = '[' then spanned? none text 1 shown.tail
  else if mayStart first then
    let isEnd (c : Char) := c == '=' || c == '['
    let stop := byteLength (shown.takeWhile fun c => !isEnd c)
    match shown.dropWhile fun c => !isEnd c with
    | [] =>
        match Level.ofText? text with
        | some l => return ⟨none, none, none, l⟩
        | none => return ⟨some text, none, none, .trace⟩
    | '[' :: shown => spanned? (some (← slice 0 stop text)) text (stop + 1) shown
    | _ => return ⟨some (← slice 0 stop text), none, none, ← levelOf? (← behind (stop + 1) text)⟩
  else none

/-! ## Writing -/

/-- What a directive says of the events it is about. -/
def scope (d : Directive) : List Char :=
  let field := match d.field with
    | none => []
    | some f => '\x7b' :: f.text ++ ['\x7d']
  d.target.getD [] ++
    if d.span.isSome || d.field.isSome then '[' :: d.span.getD [] ++ field ++ [']'] else []

/-- The written form of a directive. -/
def text (d : Directive) : String :=
  let isGlobal := d.target.isNone && d.span.isNone && d.field.isNone
  if isGlobal then d.level.name else String.ofList (d.scope ++ ['=']) ++ d.level.name

/-! ## What is looked up first -/

/-- Whether a directive depends on the span that an event happens in. -/
def isDynamic (d : Directive) : Bool := d.span.isSome || d.field.isSome

/-- What can be said of an event without its span: its target and the names of its fields. -/
def static? (d : Directive) : Option Directive :=
  if d.span.isSome || d.field.any (fun f => f.value.isSome) then none
  else some d

/-- How specific a directive is: a longer target, a span and a field each make it more so; the
texts decide between equals. -/
def order (d e : Directive) : Ordering :=
  (orderOptions compare (d.target.map byteLength) (e.target.map byteLength)).then <|
    (compare d.span.isSome.toNat e.span.isSome.toNat).then <|
      (compare d.field.isSome.toNat e.field.isSome.toNat).then <|
        (orderOptions orderTexts d.target e.target).then <|
          (orderOptions orderTexts d.span e.span).then <|
            orderOptions Field.order d.field e.field

/-- Puts a directive among others, the most specific one first; it takes the place of one that
says the same of the events. -/
def insert (d : Directive) : List Directive → List Directive
  | [] => [d]
  | e :: es =>
      match d.order e with
      | .gt => d :: e :: es
      | .eq => d :: es
      | .lt => e :: insert d es

end Directive

end PokerHand.LogFilter
