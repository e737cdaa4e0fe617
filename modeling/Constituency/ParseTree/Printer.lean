import Constituency.ParseTree.Basic
import Constituency.Text.Basic

/-!
# Printing a tree

A leaf is printed as its word, and a branch as its label and its children
between parentheses.  The children stand on the line of the label if they are
all leaves, or if there is only one and it takes a single line itself.
Otherwise each of them begins a line of its own, and all their lines are
indented by two spaces.
-/

namespace Constituency

namespace ParseTree

def joinSpaced : List (List Char) → List Char
  | [] => []
  | [text] => text
  | text :: rest => text ++ ' ' :: joinSpaced rest

/-- A line feed, two spaces and a line, for every line of a text. -/
def indent (text : List Char) : List Char :=
  (Text.lines text).flatMap fun line => '\n' :: ' ' :: ' ' :: line

/-- Whether the children of a branch stand on the line of its label. -/
def fitsOnLine (children : List ParseTree) (printed : List (List Char)) :
    Bool :=
  match printed with
  | [child] => !child.contains '\n' || children.all isLeaf
  | _ => children.all isLeaf

mutual

def print : ParseTree → List Char
  | .leaf word _ => word.toList
  | .branch label _ children =>
      let printed := printList children
      if fitsOnLine children printed then
        '(' :: (label.toList ++ ' ' :: (joinSpaced printed ++ [')']))
      else
        '(' :: (label.toList ++ (printed.flatMap indent ++ [')']))

def printList : List ParseTree → List (List Char)
  | [] => []
  | tree :: rest => tree.print :: printList rest

end

instance : ToString ParseTree :=
  ⟨fun tree => String.ofList tree.print⟩

end ParseTree

end Constituency
