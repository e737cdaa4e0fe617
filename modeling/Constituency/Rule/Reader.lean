import Constituency.Rule.Basic

/-!
# Reading a rule from a line

A rule is written on one line, such as `S -> NP VP | S Conj S` or
`N -> "pipe" | "door"`.  Names are runs of letters, digits, hyphens and
underscores, words stand between double quotes, and spaces and tabs may stand
between any two of them.  Everything from `//` on is a comment.

The reader returns the rule, or the first fault of the line together with the
text at which it was met.  A hyphen belongs to the name before it, so a space
has to stand between the left-hand side and the arrow.
-/

namespace Constituency

namespace Rule

def isNameChar (c : Char) : Bool :=
  c.isAlphanum || c == '-' || c == '_'

def isSeparator (c : Char) : Bool :=
  c == ' ' || c == '\t'

def skipSeparators (line : List Char) : List Char :=
  line.dropWhile isSeparator

def dropComment : List Char → List Char
  | [] => []
  | '/' :: '/' :: _ => []
  | c :: rest => c :: dropComment rest

/-- Reads the symbol that begins a line, and returns it with what follows it.
There is none at the end of the line and before a bar. -/
def readSymbol (line : List Char) :
    Except RuleFault (Option (Symbol × List Char)) :=
  match line with
  | [] => .ok none
  | '|' :: _ => .ok none
  | '"' :: rest =>
      match rest.takeWhile (· != '"'), rest.dropWhile (· != '"') with
      | _, [] => .error (.unclosedWord (String.ofList line))
      | [], _ :: _ => .error .emptyWord
      | letters, _ :: after =>
          .ok (some (.terminal (String.ofList letters), after))
  | c :: _ =>
      if isNameChar c then
        .ok (some (.nonterminal (String.ofList (line.takeWhile isNameChar)),
          line.dropWhile isNameChar))
      else
        .error (.missingName (String.ofList line))

theorem length_dropWhile_le (keep : Char → Bool) (text : List Char) :
    (text.dropWhile keep).length ≤ text.length :=
  (List.dropWhile_suffix keep).length_le

theorem length_lt_of_readSymbol {line rest : List Char} {symbol : Symbol}
    (found : readSymbol line = .ok (some (symbol, rest))) :
    rest.length < line.length := by
  unfold readSymbol at found
  split at found
  · simp at found
  · simp at found
  · rename_i tail
    have bound := length_dropWhile_le (· != '"') tail
    split at found
    · simp at found
    · simp at found
    · rename_i closing _
      simp only [Except.ok.injEq, Option.some.injEq, Prod.mk.injEq] at found
      rw [closing] at bound
      simp only [List.length_cons] at bound ⊢
      rw [← found.2]
      omega
  · rename_i c tail _ _
    split at found
    · rename_i isName
      simp only [Except.ok.injEq, Option.some.injEq, Prod.mk.injEq] at found
      rw [← found.2, List.dropWhile_cons_of_pos isName]
      exact Nat.lt_succ_of_le (length_dropWhile_le isNameChar tail)
    · simp at found

/-- Reads the symbols of one alternative, up to a bar or the end of the line,
and returns them with the rest of the line. -/
def readSymbols (line : List Char) :
    Except RuleFault (List Symbol × List Char) :=
  match _step : readSymbol (skipSeparators line) with
  | .error fault => .error fault
  | .ok none => .ok ([], skipSeparators line)
  | .ok (some (symbol, rest)) =>
      (readSymbols rest).map fun (symbols, remaining) =>
        (symbol :: symbols, remaining)
termination_by line.length
decreasing_by
  exact Nat.lt_of_lt_of_le (length_lt_of_readSymbol _step)
    (length_dropWhile_le isSeparator line)

theorem length_le_of_readSymbols {line remaining : List Char}
    {symbols : List Symbol}
    (found : readSymbols line = .ok (symbols, remaining)) :
    remaining.length ≤ line.length := by
  fun_induction readSymbols line generalizing symbols remaining with
  | case1 => simp at found
  | case2 line =>
      simp only [Except.ok.injEq, Prod.mk.injEq] at found
      rw [← found.2]
      exact length_dropWhile_le isSeparator line
  | case3 line symbol rest step ih =>
      cases inner : readSymbols rest with
      | error fault => simp [inner, Except.map] at found
      | ok pair =>
          simp only [inner, Except.map, Except.ok.injEq, Prod.mk.injEq] at found
          have shorter := length_lt_of_readSymbol step
          have skipped := length_dropWhile_le isSeparator line
          have bound := ih inner
          rw [← found.2]
          simp only [skipSeparators] at shorter
          omega

/-- Reads the alternatives of a rule, which bars stand between. -/
def readAlternatives (line : List Char) :
    Except RuleFault (List (List Symbol)) :=
  match _read : readSymbols line with
  | .error fault => .error fault
  | .ok ([], _) => .error .emptyAlternative
  | .ok (symbols, '|' :: rest) =>
      (readAlternatives rest).map (symbols :: ·)
  | .ok (symbols, _) => .ok [symbols]
termination_by line.length
decreasing_by
  have := length_le_of_readSymbols _read
  simp only [List.length_cons] at this
  omega

/-- Reads a rule: its left-hand side, the arrow and the alternatives. -/
def read (line : List Char) : Except RuleFault Rule :=
  let line := skipSeparators line
  match line.takeWhile isNameChar with
  | [] => .error (.missingLhs (String.ofList line))
  | name =>
      match skipSeparators (line.dropWhile isNameChar) with
      | '-' :: '>' :: rest =>
          (readAlternatives rest).map (Rule.mk (String.ofList name))
      | rest => .error (.missingArrow (String.ofList rest))

end Rule

end Constituency
