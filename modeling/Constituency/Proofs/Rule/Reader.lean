import Constituency.Proofs.Failure
import Constituency.Proofs.Text.Line
import Constituency.Rule.Reader
import Mathlib.Data.List.Infix
import Mathlib.Data.List.TakeWhile

/-!
# What can be read from a line, and what can be written to one

A production can be expressed in writing if its names are runs of name
characters, its words can stand between quotes outside of a comment, and it has
symbols on the right.  Just these productions are read from lines: every
production that is read can be expressed, and the written form of a production
that can be expressed is read as that production.
-/

namespace Constituency

namespace Rule

/-- One or more letters, digits, hyphens and underscores. -/
structure IsName (text : String) : Prop where
  nonempty : text.toList ≠ []
  nameChars : ∀ c ∈ text.toList, isNameChar c = true

/-- A word that can stand between quotes on one line, and begins no comment. -/
structure IsQuotable (word : String) : Prop where
  nonempty : word.toList ≠ []
  no_quote : '"' ∉ word.toList
  no_lineFeed : '\n' ∉ word.toList
  no_comment : ¬ ['/', '/'] <:+: word.toList

end Rule

/-- Whether a symbol can be read in a rule. -/
def Symbol.Expressible : Symbol → Prop
  | .terminal word => Rule.IsQuotable word
  | .nonterminal name => Rule.IsName name

/-- A production that can be read from a line. -/
structure Production.Expressible (production : Production) : Prop where
  lhs : Rule.IsName production.lhs
  rhs_nonempty : production.rhs ≠ []
  symbols : ∀ symbol ∈ production.rhs, symbol.Expressible

namespace Rule

variable {c : Char} {line rest text : List Char} {symbol : Symbol}
variable {symbols : List Symbol} {production : Production}

section Comments

theorem dropComment_cons (notComment : c = '/' → rest.head? ≠ some '/') :
    dropComment (c :: rest) = c :: dropComment rest := by
  rw [dropComment]
  rintro after rfl rfl
  exact notComment rfl rfl

/-- A comment begins in what follows a text without one, unless it is split
between them. -/
theorem dropComment_append (noComment : ¬ ['/', '/'] <:+: text)
    (notSlash : rest.head? ≠ some '/') :
    dropComment (text ++ rest) = text ++ dropComment rest := by
  induction text with
  | nil => rfl
  | cons c tail ih =>
      have tailNoComment : ¬ ['/', '/'] <:+: tail := fun within =>
        noComment (within.trans (List.suffix_cons c tail).isInfix)
      rw [List.cons_append, dropComment_cons, ih tailNoComment, List.cons_append]
      rintro rfl head
      cases tail with
      | nil => exact notSlash head
      | cons d tail =>
          obtain rfl : d = '/' := by simpa using head
          exact noComment ⟨[], tail, rfl⟩

theorem isPrefix_dropComment (line : List Char) : dropComment line <+: line := by
  fun_induction dropComment line with
  | case1 => exact List.prefix_refl _
  | case2 rest => exact List.nil_prefix
  | case3 c rest notComment ih => exact (List.prefix_cons_inj c).mpr ih

theorem no_comment_dropComment (line : List Char) :
    ¬ ['/', '/'] <:+: dropComment line := by
  fun_induction dropComment line with
  | case1 => simp
  | case2 rest => simp
  | case3 c rest notComment ih =>
      rw [List.infix_cons_iff]
      rintro (here | within)
      · obtain ⟨after, split⟩ := here
        obtain ⟨rfl, restEq⟩ := List.cons.inj split
        obtain ⟨more, rest_eq⟩ := isPrefix_dropComment rest
        rw [← restEq] at rest_eq
        exact notComment _ rfl rest_eq.symm
      · exact ih within

/-- A text has no comment just if nothing is dropped from it. -/
theorem dropComment_eq_self_iff :
    dropComment text = text ↔ ¬ ['/', '/'] <:+: text := by
  constructor
  · intro kept
    rw [← kept]
    exact no_comment_dropComment text
  · intro noComment
    simpa [dropComment] using @dropComment_append [] text noComment (by simp)

/-- What is left of a line to read. -/
structure Clean (line : List Char) : Prop where
  no_lineFeed : '\n' ∉ line
  no_comment : ¬ ['/', '/'] <:+: line

theorem Clean.of_infix {part : List Char} (clean : Clean line)
    (within : part <:+: line) : Clean part :=
  ⟨fun member => clean.no_lineFeed (within.subset member),
    fun comment => clean.no_comment (comment.trans within)⟩

theorem clean_dropComment (noFeed : '\n' ∉ line) : Clean (dropComment line) :=
  ⟨fun member => noFeed ((isPrefix_dropComment line).subset member),
    no_comment_dropComment line⟩

end Comments

section Reading

/-- A name ends where no name character follows. -/
def Ends (rest : List Char) : Prop :=
  ∀ c ∈ rest.head?, isNameChar c = false

theorem ends_dropWhile (text : List Char) : Ends (text.dropWhile isNameChar) := by
  intro c first
  have := List.head?_dropWhile_not isNameChar text
  rw [Option.mem_def] at first
  simpa [first] using this

theorem not_mem_takeWhile_quote (text : List Char) :
    '"' ∉ text.takeWhile (· != '"') := fun quote => by
  simpa using List.mem_takeWhile_imp quote

theorem takeWhile_append_quote {last : Char} {after : List Char}
    (closing : text.dropWhile (· != '"') = last :: after) :
    text.takeWhile (· != '"') ++ '"' :: after = text := by
  have first := List.head?_dropWhile_not (· != '"') text
  rw [closing] at first
  obtain rfl : last = '"' := by simpa using first
  rw [← closing, List.takeWhile_append_dropWhile]

/-- A symbol that is read is a name that ends where the rest of the line begins, or
a word between quotes. -/
theorem readSymbol_cases
    (found : readSymbol line = .ok (some (symbol, rest))) :
    (∃ name, symbol = .nonterminal name ∧ IsName name ∧ Ends rest ∧
        line = name.toList ++ rest) ∨
      ∃ word, symbol = .terminal word ∧ word.toList ≠ [] ∧
        '"' ∉ word.toList ∧ line = '"' :: (word.toList ++ '"' :: rest) := by
  unfold readSymbol at found
  split at found
  · simp at found
  · simp at found
  · rename_i tail
    split at found
    · simp at found
    · simp at found
    · rename_i last after closing nonempty
      simp only [Except.ok.injEq, Option.some.injEq, Prod.mk.injEq] at found
      obtain ⟨rfl, rfl⟩ := found
      refine .inr ⟨_, rfl, ?_, ?_, ?_⟩
      · rwa [String.toList_ofList]
      · rw [String.toList_ofList]
        exact not_mem_takeWhile_quote tail
      · rw [String.toList_ofList, takeWhile_append_quote closing]
  · rename_i c tail _ _
    split at found
    · rename_i isName
      simp only [Except.ok.injEq, Option.some.injEq, Prod.mk.injEq] at found
      obtain ⟨rfl, rfl⟩ := found
      refine .inl ⟨_, rfl, ⟨?_, ?_⟩, ends_dropWhile _, ?_⟩
      · simp [List.takeWhile_cons_of_pos isName]
      · rw [String.toList_ofList]
        exact fun c member => List.mem_takeWhile_imp member
      · rw [String.toList_ofList, List.takeWhile_append_dropWhile]
    · simp at found

theorem expressible_of_readSymbol (clean : Clean line)
    (found : readSymbol line = .ok (some (symbol, rest))) :
    symbol.Expressible ∧ rest <:+ line := by
  rcases readSymbol_cases found with
    ⟨name, rfl, isName, _, rfl⟩ | ⟨word, rfl, nonempty, noQuote, rfl⟩
  · exact ⟨isName, List.suffix_append _ _⟩
  · have letters : Clean word.toList :=
      clean.of_infix ⟨['"'], '"' :: rest, by simp⟩
    exact ⟨⟨nonempty, noQuote, letters.no_lineFeed, letters.no_comment⟩,
      '"' :: (word.toList ++ ['"']), by simp⟩

theorem expressible_of_readSymbols {remaining : List Char} (clean : Clean line)
    (found : readSymbols line = .ok (symbols, remaining)) :
    (∀ symbol ∈ symbols, symbol.Expressible) ∧ remaining <:+ line := by
  fun_induction readSymbols line generalizing symbols remaining with
  | case1 => simp at found
  | case2 line =>
      simp only [Except.ok.injEq, Prod.mk.injEq] at found
      obtain ⟨rfl, rfl⟩ := found
      exact ⟨by simp, List.dropWhile_suffix _⟩
  | case3 line symbol rest step ih =>
      obtain ⟨_, inner, splitEq⟩ := map_eq_ok_iff.mp found
      obtain ⟨rfl, rfl⟩ := Prod.mk.inj splitEq
      have skipped : skipSeparators line <:+ line := List.dropWhile_suffix _
      obtain ⟨expressible, restSuffix⟩ :=
        expressible_of_readSymbol (clean.of_infix skipped.isInfix) step
      have suffix := restSuffix.trans skipped
      obtain ⟨others, remainingSuffix⟩ :=
        ih (clean.of_infix suffix.isInfix) inner
      exact ⟨List.forall_mem_cons.mpr ⟨expressible, others⟩,
        remainingSuffix.trans suffix⟩

theorem expressible_of_readAlternatives {alternatives : List (List Symbol)}
    (clean : Clean line)
    (found : readAlternatives line = .ok alternatives) :
    ∀ alternative ∈ alternatives, alternative ≠ [] ∧
      ∀ symbol ∈ alternative, symbol.Expressible := by
  fun_induction readAlternatives line generalizing alternatives with
  | case1 => simp at found
  | case2 => simp at found
  | case3 line symbols rest nonempty step ih =>
      obtain ⟨expressible, suffix⟩ := expressible_of_readSymbols clean step
      obtain ⟨others, inner, rfl⟩ := map_eq_ok_iff.mp found
      have restSuffix := (List.suffix_cons _ _).trans suffix
      refine List.forall_mem_cons.mpr ⟨⟨nonempty, expressible⟩, ?_⟩
      exact ih (clean.of_infix restSuffix.isInfix) inner
  | case4 line symbols remaining nonempty _ step =>
      obtain ⟨expressible, _⟩ := expressible_of_readSymbols clean step
      obtain rfl := Except.ok.inj found
      simpa using ⟨nonempty, expressible⟩

theorem expressible_of_read {rule : Rule} (clean : Clean line)
    (found : read line = .ok rule) :
    ∀ production ∈ rule.productions, production.Expressible := by
  unfold read at found
  dsimp only at found
  split at found
  · simp at found
  · rename_i nonempty
    split at found
    · rename_i rest arrow
      obtain ⟨alternatives, inner, rfl⟩ := map_eq_ok_iff.mp found
      have isName : IsName (String.ofList
          ((skipSeparators line).takeWhile isNameChar)) := by
        refine ⟨by simpa using nonempty, fun c member => ?_⟩
        rw [String.toList_ofList] at member
        exact List.mem_takeWhile_imp member
      have restSuffix : rest <:+ line :=
        calc rest
            <:+ '-' :: '>' :: rest := List.suffix_append ['-', '>'] rest
          _ <:+ (skipSeparators line).dropWhile isNameChar :=
            arrow ▸ List.dropWhile_suffix _
          _ <:+ skipSeparators line := List.dropWhile_suffix _
          _ <:+ line := List.dropWhile_suffix _
      have expressible := expressible_of_readAlternatives
        (clean.of_infix restSuffix.isInfix) inner
      intro production member
      obtain ⟨alternative, listed, rfl⟩ := List.mem_map.mp member
      obtain ⟨alternativeNonempty, symbols⟩ := expressible alternative listed
      exact ⟨isName, alternativeNonempty, symbols⟩
    · simp at found

end Reading

section Writing

theorem IsName.takeWhile_append {name : String} (isName : IsName name)
    (ends : Ends rest) :
    (name.toList ++ rest).takeWhile isNameChar = name.toList := by
  rw [List.takeWhile_append_of_pos isName.nameChars]
  cases rest with
  | nil => simp
  | cons c tail => simp [ends c rfl]

theorem IsName.dropWhile_append {name : String} (isName : IsName name)
    (ends : Ends rest) :
    (name.toList ++ rest).dropWhile isNameChar = rest := by
  rw [List.dropWhile_append_of_pos isName.nameChars]
  cases rest with
  | nil => simp
  | cons c tail => simp [ends c rfl]

theorem IsName.exists_head {name : String} (isName : IsName name) :
    ∃ c tail, name.toList = c :: tail ∧ isNameChar c = true := by
  obtain ⟨c, tail, letters⟩ := List.exists_cons_of_ne_nil isName.nonempty
  exact ⟨c, tail, letters, isName.nameChars c (by simp [letters])⟩

theorem readSymbol_of_isName {name : String} (isName : IsName name)
    (ends : Ends rest) :
    readSymbol (name.toList ++ rest) =
      .ok (some (.nonterminal name, rest)) := by
  have taken := isName.takeWhile_append ends
  have dropped := isName.dropWhile_append ends
  obtain ⟨c, tail, letters, isNameChar⟩ := isName.exists_head
  have notBar : c ≠ '|' := by
    rintro rfl
    exact absurd isNameChar (by decide)
  have notQuote : c ≠ '"' := by
    rintro rfl
    exact absurd isNameChar (by decide)
  rw [letters, List.cons_append] at taken dropped ⊢
  rw [readSymbol, if_pos isNameChar, taken, dropped, ← letters,
    String.ofList_toList]
  · exact notBar
  · exact notQuote

theorem readSymbol_of_no_quote {word : String} (nonempty : word.toList ≠ [])
    (noQuote : '"' ∉ word.toList) (rest : List Char) :
    readSymbol ('"' :: (word.toList ++ '"' :: rest)) =
      .ok (some (.terminal word, rest)) := by
  have letters : ∀ c ∈ word.toList, (c != '"') = true := by
    intro c member
    exact bne_iff_ne.mpr fun same => noQuote (same ▸ member)
  have taken : (word.toList ++ '"' :: rest).takeWhile (· != '"') =
      word.toList := by
    rw [List.takeWhile_append_of_pos letters]
    simp
  have dropped : (word.toList ++ '"' :: rest).dropWhile (· != '"') =
      '"' :: rest := by
    rw [List.dropWhile_append_of_pos letters]
    simp
  rw [readSymbol, taken, dropped]
  split
  · rename_i unclosed
    simp at unclosed
  · rename_i empty _
    exact absurd empty nonempty
  · rename_i split _
    rw [String.ofList_toList, (List.cons.inj split).2]

theorem readSymbol_written (expressible : symbol.Expressible)
    (ends : Ends rest) :
    readSymbol (symbol.written ++ rest) = .ok (some (symbol, rest)) := by
  cases symbol with
  | terminal word =>
      have quotable : IsQuotable word := expressible
      simpa [Symbol.written] using
        readSymbol_of_no_quote quotable.nonempty quotable.no_quote rest
  | nonterminal name => exact readSymbol_of_isName expressible ends

theorem isSeparator_of_isNameChar (isName : isNameChar c = true) :
    isSeparator c = false := by
  rw [← Bool.not_eq_true, isSeparator, Bool.or_eq_true, beq_iff_eq, beq_iff_eq]
  rintro (rfl | rfl)
  · exact absurd isName (by decide)
  · exact absurd isName (by decide)

theorem skipSeparators_cons (notSeparator : isSeparator c = false) :
    skipSeparators (c :: rest) = c :: rest :=
  List.dropWhile_cons_of_neg (by simp [notSeparator])

theorem skipSeparators_name {name : String} (isName : IsName name)
    (rest : List Char) :
    skipSeparators (name.toList ++ rest) = name.toList ++ rest := by
  obtain ⟨c, tail, letters, nameChar⟩ := isName.exists_head
  rw [letters, List.cons_append,
    skipSeparators_cons (isSeparator_of_isNameChar nameChar)]

theorem skipSeparators_written (expressible : symbol.Expressible)
    (rest : List Char) :
    skipSeparators (symbol.written ++ rest) = symbol.written ++ rest := by
  cases symbol with
  | terminal word => exact skipSeparators_cons (by decide)
  | nonterminal name => exact skipSeparators_name expressible rest

theorem readSymbols_of_readSymbol
    (found : readSymbol (skipSeparators line) = .ok (some (symbol, rest))) :
    readSymbols line = (readSymbols rest).map fun (symbols, remaining) =>
      (symbol :: symbols, remaining) := by
  rw [readSymbols]
  split <;> simp_all

theorem ends_written (symbols : List Symbol) :
    Ends (symbols.flatMap fun symbol => ' ' :: symbol.written) := by
  cases symbols with
  | nil => simp [Ends]
  | cons symbol others =>
      simp only [Ends, List.flatMap_cons, List.cons_append, List.head?_cons,
        Option.mem_some, forall_eq']
      decide

theorem readSymbols_written
    (expressible : ∀ symbol ∈ symbols, symbol.Expressible) :
    readSymbols (symbols.flatMap fun symbol => ' ' :: symbol.written) =
      .ok (symbols, []) := by
  induction symbols with
  | nil =>
      rw [readSymbols]
      rfl
  | cons symbol others ih =>
      obtain ⟨first, othersExpressible⟩ := List.forall_mem_cons.mp expressible
      rw [List.flatMap_cons, List.cons_append, readSymbols_of_readSymbol,
        ih othersExpressible]
      · rfl
      · calc readSymbol (skipSeparators (' ' :: (symbol.written ++ _)))
            = readSymbol (symbol.written ++ _) :=
              congrArg readSymbol (skipSeparators_written first _)
          _ = _ := readSymbol_written first (ends_written others)

theorem readAlternatives_of_readSymbols (nonempty : symbols ≠ [])
    (found : readSymbols line = .ok (symbols, [])) :
    readAlternatives line = .ok [symbols] := by
  rw [readAlternatives]
  split <;> simp_all

theorem read_of_isName {name : String} (isName : IsName name)
    (ends : Ends rest) (arrow : skipSeparators rest = '-' :: '>' :: text) :
    read (name.toList ++ rest) =
      (readAlternatives text).map (Rule.mk name) := by
  rw [read, skipSeparators_name isName, isName.takeWhile_append ends,
    isName.dropWhile_append ends, arrow]
  split
  · rename_i empty
    exact absurd empty isName.nonempty
  · change (readAlternatives text).map (Rule.mk (String.ofList name.toList)) = _
    rw [String.ofList_toList]

/-- The written form of a production that can be expressed is read as just that
production. -/
theorem read_written (expressible : production.Expressible) :
    read production.written = .ok ⟨production.lhs, [production.rhs]⟩ := by
  obtain ⟨isName, nonempty, symbols⟩ := expressible
  have ends : Ends (' ' :: '-' :: '>' ::
      production.rhs.flatMap fun symbol => ' ' :: symbol.written) := by
    simp only [Ends, List.head?_cons, Option.mem_some, forall_eq']
    decide
  have alternatives := readAlternatives_of_readSymbols nonempty
    (readSymbols_written symbols)
  rw [Production.written, read_of_isName isName ends rfl, alternatives]
  rfl

theorem IsName.not_mem {name : String} (isName : IsName name)
    (notNameChar : isNameChar c = false) : c ∉ name.toList := by
  intro member
  rw [isName.nameChars c member] at notNameChar
  cases notNameChar

theorem IsName.no_comment {name : String} (isName : IsName name) :
    ¬ ['/', '/'] <:+: name.toList := fun comment =>
  isName.not_mem (by decide) (comment.subset (List.mem_cons_self ..))

theorem dropComment_symbol (expressible : symbol.Expressible)
    (notSlash : rest.head? ≠ some '/') :
    dropComment (symbol.written ++ rest) =
      symbol.written ++ dropComment rest := by
  cases symbol with
  | terminal word =>
      have quotable : IsQuotable word := expressible
      have inner : dropComment (word.toList ++ '"' :: rest) =
          word.toList ++ '"' :: dropComment rest := by
        rw [dropComment_append quotable.no_comment (by simp),
          dropComment_cons (by simp)]
      simp [Symbol.written, dropComment_cons, inner]
  | nonterminal name =>
      have isName : IsName name := expressible
      exact dropComment_append isName.no_comment notSlash

theorem dropComment_symbols
    (expressible : ∀ symbol ∈ symbols, symbol.Expressible) :
    dropComment (symbols.flatMap fun symbol => ' ' :: symbol.written) =
      symbols.flatMap fun symbol => ' ' :: symbol.written := by
  induction symbols with
  | nil => rfl
  | cons symbol others ih =>
      obtain ⟨first, othersExpressible⟩ := List.forall_mem_cons.mp expressible
      have notSlash : (others.flatMap fun symbol =>
          ' ' :: symbol.written).head? ≠ some '/' := by
        cases others <;> simp
      rw [List.flatMap_cons, List.cons_append, dropComment_cons (by simp),
        dropComment_symbol first notSlash, ih othersExpressible]

theorem dropComment_written (expressible : production.Expressible) :
    dropComment production.written = production.written := by
  rw [Production.written,
    dropComment_append expressible.lhs.no_comment (by simp),
    dropComment_cons (by simp), dropComment_cons (by simp),
    dropComment_cons (by simp), dropComment_symbols expressible.symbols]

theorem no_lineFeed_symbol (expressible : symbol.Expressible) :
    '\n' ∉ symbol.written := by
  cases symbol with
  | terminal word =>
      have quotable : IsQuotable word := expressible
      simpa [Symbol.written] using quotable.no_lineFeed
  | nonterminal name => exact IsName.not_mem expressible (by decide)

theorem getLast?_symbol_ne_return (expressible : symbol.Expressible) :
    symbol.written.getLast? ≠ some '\r' := by
  cases symbol with
  | terminal word =>
      rw [Symbol.written, ← List.cons_append, List.getLast?_concat]
      decide
  | nonterminal name =>
      exact fun last => IsName.not_mem expressible (by decide)
        (List.mem_of_getLast? last)

theorem symbol_written_ne_nil (expressible : symbol.Expressible) :
    symbol.written ≠ [] := by
  cases symbol with
  | terminal word => simp [Symbol.written]
  | nonterminal name => exact expressible.nonempty

theorem plain_written (expressible : production.Expressible) :
    Text.Plain production.written := by
  obtain ⟨isName, nonempty, symbols⟩ := expressible
  constructor
  · simp only [Production.written, List.mem_append, List.mem_cons,
      List.mem_flatMap]
    rintro (inName | space | hyphen | angle | ⟨symbol, listed, space | inside⟩)
    · exact isName.not_mem (by decide) inName
    · exact absurd space (by decide)
    · exact absurd hyphen (by decide)
    · exact absurd angle (by decide)
    · exact absurd space (by decide)
    · exact no_lineFeed_symbol (symbols symbol listed) inside
  · -- A line ends as its last symbol does.
    obtain ⟨before, last, rhsEq⟩ :=
      (List.eq_nil_or_concat' production.rhs).resolve_left nonempty
    have lastExpressible := symbols last (by simp [rhsEq])
    have written : production.written = (production.lhs.toList ++
        ' ' :: '-' :: '>' :: (before.flatMap fun symbol =>
          ' ' :: symbol.written) ++ [' ']) ++ last.written := by
      simp [Production.written, rhsEq]
    rw [written,
      List.getLast?_append_of_ne_nil _ (symbol_written_ne_nil lastExpressible)]
    exact getLast?_symbol_ne_return lastExpressible

end Writing

instance (text : String) : Decidable (IsName text) :=
  decidable_of_iff
    (text.toList ≠ [] ∧ text.toList.all isNameChar = true)
    ⟨fun ⟨nonempty, all⟩ => ⟨nonempty, List.all_eq_true.mp all⟩,
      fun ⟨nonempty, nameChars⟩ => ⟨nonempty, List.all_eq_true.mpr nameChars⟩⟩

instance (word : String) : Decidable (IsQuotable word) :=
  decidable_of_iff
    (word.toList ≠ [] ∧ '"' ∉ word.toList ∧ '\n' ∉ word.toList ∧
      dropComment word.toList = word.toList)
    ⟨fun ⟨nonempty, noQuote, noFeed, kept⟩ =>
        ⟨nonempty, noQuote, noFeed, dropComment_eq_self_iff.mp kept⟩,
      fun ⟨nonempty, noQuote, noFeed, noComment⟩ =>
        ⟨nonempty, noQuote, noFeed, dropComment_eq_self_iff.mpr noComment⟩⟩

end Rule

instance : (symbol : Symbol) → Decidable symbol.Expressible
  | .terminal word => inferInstanceAs (Decidable (Rule.IsQuotable word))
  | .nonterminal name => inferInstanceAs (Decidable (Rule.IsName name))

instance (production : Production) : Decidable production.Expressible :=
  decidable_of_iff
    (Rule.IsName production.lhs ∧ production.rhs ≠ [] ∧
      ∀ symbol ∈ production.rhs, symbol.Expressible)
    ⟨fun ⟨lhs, nonempty, symbols⟩ => ⟨lhs, nonempty, symbols⟩,
      fun ⟨lhs, nonempty, symbols⟩ => ⟨lhs, nonempty, symbols⟩⟩

/-- A word may have a bar, a space or a single slash in it, but not two slashes in
a row. -/
example : Production.Expressible ⟨"N", [.terminal "either | or / both"]⟩ ∧
    ¬ Production.Expressible ⟨"N", [.terminal "either//or"]⟩ := by
  decide +kernel

end Constituency
