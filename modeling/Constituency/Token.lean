import Constituency.Text.Lowercase
import Constituency.Text.Word

/-!
# Tokens of a sentence

The tokens of a sentence are its words in lower case.  A word is a run of word
characters.  An apostrophe or a hyphen between two word characters joins the
runs on its sides into one word, as in `well-worn`.  Words without any of the
letters from a to z, such as plain numbers, are no tokens.
-/

namespace Constituency

namespace Token

open Text

/-- Whether a character joins the parts of a word. -/
def isJoiner (c : Char) : Bool :=
  c == '\x27' || c == '’' || c == '-'

/-- Splits off what continues a word: word characters, and joiners with a word
character on their right. -/
def splitWord : List Char → List Char × List Char
  | [] => ([], [])
  | c :: rest =>
      if isWordChar c || isJoiner c && (rest.head?.any isWordChar) then
        let (word, after) := splitWord rest
        (c :: word, after)
      else
        ([], c :: rest)

theorem length_splitWord_le (text : List Char) :
    (splitWord text).2.length ≤ text.length := by
  fun_induction splitWord text with
  | case1 => simp
  | case2 c rest continues word after split ih =>
      simp only [List.length_cons]
      simp only [split] at ih
      omega
  | case3 => simp

/-- The words of a text, from left to right. -/
def words : List Char → List (List Char)
  | [] => []
  | c :: rest =>
      if isWordChar c then
        (c :: (splitWord rest).1) :: words (splitWord rest).2
      else
        words rest
termination_by text => text.length
decreasing_by
  · have := length_splitWord_le rest
    simp only [List.length_cons]
    omega
  · simp

end Token

/-- The tokens of a sentence, from left to right. -/
def tokenize (sentence : String) : List String :=
  ((Token.words (Text.lowercase sentence.toList)).filter
    (·.any Char.isLower)).map String.ofList

end Constituency
