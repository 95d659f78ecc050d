/-
Documents: texts with nested brackets, written on one line or spread over lines. Both forms hold
the same words in the same order; spread out, every item stands on a line of its own, indented by
its depth and followed by a comma.
-/
namespace SceneScript.Text

/-- The pairs of brackets. -/
inductive Bracket where
  | square
  | round
  | curly
deriving Repr, DecidableEq

namespace Bracket

/-- The mark that opens a pair; a curly one stands apart from what it follows. -/
def opening : Bracket → List Char
  | square => ['[']
  | round => ['(']
  | curly => [' ', '\x7b']

/-- The mark that closes a pair. -/
def closing : Bracket → Char
  | square => ']'
  | round => ')'
  | curly => '\x7d'

/-- What stands between a mark and the items when all is on one line. -/
def padding : Bracket → List Char
  | curly => [' ']
  | _ => []

end Bracket

mutual
/-- A document. -/
inductive Document where
  /-- A text without brackets. -/
  | plain (text : List Char)
  /-- Items between brackets, behind a name that may be empty. -/
  | block (name : List Char) (bracket : Bracket) (items : Items)
/-- The items of a block, each with a label that may be empty. -/
inductive Items where
  | nil
  | cons (label : List Char) (value : Document) (rest : Items)
end

/-- Items from a list of labels and values. -/
def Items.ofList : List (List Char × Document) → Items
  | [] => .nil
  | (label, value) :: rest => .cons label value (ofList rest)

/-- There are no items. -/
def Items.isEmpty : Items → Bool
  | .nil => true
  | .cons _ _ _ => false

namespace Document

/-- A record: its name, and its fields in order. -/
def record (name : String) (fields : List (String × Document)) : Document :=
  .block name.toList .curly (.ofList (fields.map fun f => (f.1.toList, f.2)))

/-- A name applied to values. -/
def call (name : String) (values : List Document) : Document :=
  .block name.toList .round (.ofList (values.map fun v => ([], v)))

/-- A list of values. -/
def list (values : List Document) : Document :=
  .block [] .square (.ofList (values.map fun v => ([], v)))

end Document

/-- A label and the mark between it and its value. -/
def labelText (label : List Char) : List Char :=
  if label = [] then [] else label ++ [':', ' ']

/-- The blanks before a line of a depth. -/
def indent (depth : Nat) : List Char := List.replicate (4 * depth) ' '

/-! ## On one line -/

mutual
/-- A document on one line. -/
def Document.compact : Document → List Char
  | .plain text => text
  | .block name bracket items =>
    name ++ bracket.opening ++
      (if items.isEmpty then [] else bracket.padding ++ items.compact ++ bracket.padding) ++
      [bracket.closing]
/-- Items one behind the other, a comma between any two. -/
def Items.compact : Items → List Char
  | .nil => []
  | .cons label value rest =>
    labelText label ++ value.compact ++
      (if rest.isEmpty then [] else ',' :: ' ' :: rest.compact)
end

/-! ## Spread over lines -/

mutual
/-- A document spread over lines; those after the first belong to a block at a depth. -/
def Document.spread (depth : Nat) : Document → List Char
  | .plain text => text
  | .block name bracket items =>
    name ++ bracket.opening ++
      (if items.isEmpty then [] else '\n' :: items.spread (depth + 1) ++ indent depth) ++
      [bracket.closing]
/-- Items one below the other, a comma behind each. -/
def Items.spread (depth : Nat) : Items → List Char
  | .nil => []
  | .cons label value rest =>
    indent depth ++ labelText label ++ value.spread depth ++ ',' :: '\n' :: rest.spread depth
end

end SceneScript.Text
