import Constituency.Proofs.Rule.Reader

/-!
# The form of a rule

What a line looks like that is a rule is said here by the text itself: how names
and words are spelt, that an alternative is a sequence of these, and that
alternatives stand after an arrow with bars between them.  The reader reads just
the lines of this form, each as the rule that it spells, and refuses all others.
-/

namespace Constituency

namespace Rule

def NameChar (c : Char) : Prop :=
  ('a' ≤ c ∧ c ≤ 'z') ∨ ('A' ≤ c ∧ c ≤ 'Z') ∨ ('0' ≤ c ∧ c ≤ '9') ∨
    c = '-' ∨ c = '_'

def Separator (c : Char) : Prop :=
  c = ' ' ∨ c = '\t'

/-- A run of name characters that cannot be longer, as no name character follows
it. -/
structure WholeName (name : String) (following : List Char) : Prop where
  nonempty : name.toList ≠ []
  nameChars : ∀ c ∈ name.toList, NameChar c
  ends : ∀ c ∈ following.head?, ¬ NameChar c

/-- The text spells the symbols, with spaces and tabs around any of them. -/
inductive SpellsSymbols : List Char → List Symbol → Prop
  | nil : SpellsSymbols [] []
  | separator {c : Char} {text : List Char} {symbols : List Symbol}
      (separator : Separator c) (following : SpellsSymbols text symbols) :
      SpellsSymbols (c :: text) symbols
  | name {name : String} {text : List Char} {symbols : List Symbol}
      (whole : WholeName name text) (following : SpellsSymbols text symbols) :
      SpellsSymbols (name.toList ++ text) (.nonterminal name :: symbols)
  | word {word : String} {text : List Char} {symbols : List Symbol}
      (nonempty : word.toList ≠ []) (noQuote : '"' ∉ word.toList)
      (following : SpellsSymbols text symbols) :
      SpellsSymbols ('"' :: (word.toList ++ '"' :: text))
        (.terminal word :: symbols)

/-- The text spells the alternatives, each of one or more symbols, with bars
between them. -/
inductive SpellsAlternatives : List Char → List (List Symbol) → Prop
  | last {text : List Char} {symbols : List Symbol}
      (spells : SpellsSymbols text symbols) (nonempty : symbols ≠ []) :
      SpellsAlternatives text [symbols]
  | cons {text rest : List Char} {symbols : List Symbol}
      {others : List (List Symbol)} (spells : SpellsSymbols text symbols)
      (nonempty : symbols ≠ []) (following : SpellsAlternatives rest others) :
      SpellsAlternatives (text ++ '|' :: rest) (symbols :: others)

/-- The line spells the rule: a name, an arrow and alternatives, with spaces and
tabs before the name and before the arrow. -/
inductive Spells : List Char → Rule → Prop
  | mk {before between text : List Char} {rule : Rule}
      (indented : ∀ c ∈ before, Separator c)
      (whole : WholeName rule.lhs (between ++ '-' :: '>' :: text))
      (spaced : ∀ c ∈ between, Separator c)
      (spells : SpellsAlternatives text rule.alternatives) :
      Spells (before ++ (rule.lhs.toList ++ (between ++ '-' :: '>' :: text)))
        rule

variable {c : Char} {line text rest remaining : List Char} {name : String}
variable {symbol : Symbol} {symbols : List Symbol}
variable {alternatives : List (List Symbol)} {rule : Rule}

section Characters

theorem isNameChar_iff : isNameChar c = true ↔ NameChar c := by
  have upper : c.isUpper = true ↔ 'A' ≤ c ∧ c ≤ 'Z' := decide_eq_true_iff
  have lower : c.isLower = true ↔ 'a' ≤ c ∧ c ≤ 'z' := by
    change (decide ('a' ≤ c) && decide (c ≤ 'z')) = true ↔ _
    rw [Bool.and_eq_true, decide_eq_true_eq, decide_eq_true_eq]
  have digit : c.isDigit = true ↔ '0' ≤ c ∧ c ≤ '9' := by
    change (decide ('0' ≤ c) && decide (c ≤ '9')) = true ↔ _
    rw [Bool.and_eq_true, decide_eq_true_eq, decide_eq_true_eq]
  have letterOrDigit : c.isAlphanum = (c.isUpper || c.isLower || c.isDigit) := rfl
  rw [isNameChar, letterOrDigit, NameChar, or_left_comm]
  simp only [Bool.or_eq_true, beq_iff_eq, upper, lower, digit, or_assoc]

theorem isSeparator_iff : isSeparator c = true ↔ Separator c := by
  rw [isSeparator, Separator, Bool.or_eq_true, beq_iff_eq, beq_iff_eq]

theorem wholeName_iff : WholeName name rest ↔ IsName name ∧ Ends rest := by
  have ends_iff : Ends rest ↔ ∀ c ∈ rest.head?, ¬ NameChar c := by
    simp only [Ends, ← isNameChar_iff, Bool.not_eq_true]
  constructor
  · rintro ⟨nonempty, nameChars, ends⟩
    refine ⟨⟨nonempty, fun c member => ?_⟩, ends_iff.mpr ends⟩
    exact isNameChar_iff.mpr (nameChars c member)
  · rintro ⟨⟨nonempty, nameChars⟩, ends⟩
    refine ⟨nonempty, fun c member => ?_, ends_iff.mp ends⟩
    exact isNameChar_iff.mp (nameChars c member)

theorem Ends.of_append (ends : Ends (text ++ rest)) : Ends text := by
  intro c first
  apply ends c
  rw [List.head?_append, Option.mem_def.mp first]
  rfl

end Characters

section Separators

theorem skipSeparators_separator (separator : Separator c) (line : List Char) :
    skipSeparators (c :: line) = skipSeparators line :=
  List.dropWhile_cons_of_pos (isSeparator_iff.mpr separator)

theorem skipSeparators_append {before : List Char}
    (separators : ∀ c ∈ before, Separator c) (line : List Char) :
    skipSeparators (before ++ line) = skipSeparators line :=
  List.dropWhile_append_of_pos fun c member =>
    isSeparator_iff.mpr (separators c member)

theorem exists_separators (line : List Char) :
    ∃ before, line = before ++ skipSeparators line ∧
      ∀ c ∈ before, Separator c := by
  refine ⟨line.takeWhile isSeparator, ?_, fun c member => ?_⟩
  · exact List.takeWhile_append_dropWhile.symm
  · exact isSeparator_iff.mp (List.mem_takeWhile_imp member)

theorem SpellsSymbols.append_separators {before : List Char}
    (separators : ∀ c ∈ before, Separator c)
    (spells : SpellsSymbols text symbols) :
    SpellsSymbols (before ++ text) symbols := by
  induction before with
  | nil => exact spells
  | cons c before ih =>
      obtain ⟨first, others⟩ := List.forall_mem_cons.mp separators
      exact .separator first (ih others)

end Separators

section Symbols

/-- An alternative ends at a bar or at the end of the line. -/
def Stops (rest : List Char) : Prop :=
  rest = [] ∨ ∃ after, rest = '|' :: after

theorem readSymbol_eq_none_iff : readSymbol line = .ok none ↔ Stops line := by
  constructor
  · intro found
    unfold readSymbol at found
    split at found
    · exact .inl rfl
    · exact .inr ⟨_, rfl⟩
    · split at found <;> simp at found
    · split at found <;> simp at found
  · rintro (rfl | ⟨after, rfl⟩)
    · rfl
    · rfl

theorem Stops.ends (stops : Stops rest) : Ends rest := by
  rcases stops with rfl | ⟨after, rfl⟩
  · simp [Ends]
  · simp only [Ends, List.head?_cons, Option.mem_some, forall_eq']
    decide

theorem Stops.skipSeparators_eq (stops : Stops rest) :
    skipSeparators rest = rest := by
  rcases stops with rfl | ⟨after, rfl⟩
  · rfl
  · exact skipSeparators_cons (by decide)

theorem exists_spells_of_readSymbols
    (found : readSymbols line = .ok (symbols, remaining)) :
    Stops remaining ∧
      ∃ text, line = text ++ remaining ∧ SpellsSymbols text symbols := by
  fun_induction readSymbols line generalizing symbols with
  | case1 => simp at found
  | case2 line atEnd =>
      simp only [Except.ok.injEq, Prod.mk.injEq] at found
      obtain ⟨rfl, rfl⟩ := found
      obtain ⟨before, lineEq, separators⟩ := exists_separators line
      refine ⟨readSymbol_eq_none_iff.mp atEnd, before, lineEq, ?_⟩
      simpa using SpellsSymbols.nil.append_separators separators
  | case3 line symbol rest step ih =>
      obtain ⟨⟨others, _⟩, inner, same⟩ := map_eq_ok_iff.mp found
      obtain ⟨rfl, rfl⟩ := Prod.mk.inj same
      obtain ⟨stops, text, rfl, spells⟩ := ih inner
      obtain ⟨before, lineEq, separators⟩ := exists_separators line
      rcases readSymbol_cases step with
        ⟨name, rfl, isName, ends, skipped⟩ |
        ⟨word, rfl, nonempty, noQuote, skipped⟩
      · refine ⟨stops, before ++ (name.toList ++ text), ?_, ?_⟩
        · rw [lineEq, skipped]
          simp
        · have whole := wholeName_iff.mpr ⟨isName, ends.of_append⟩
          exact (SpellsSymbols.name whole spells).append_separators separators
      · refine ⟨stops, before ++ '"' :: (word.toList ++ '"' :: text), ?_, ?_⟩
        · rw [lineEq, skipped]
          simp
        · exact (SpellsSymbols.word nonempty noQuote spells).append_separators
            separators

theorem readSymbols_of_skipSeparators
    (same : skipSeparators line = skipSeparators rest) :
    readSymbols line = readSymbols rest := by
  rw [readSymbols, readSymbols, same]

theorem readSymbols_of_spells (spells : SpellsSymbols text symbols)
    (stops : Stops remaining) :
    readSymbols (text ++ remaining) = .ok (symbols, remaining) := by
  induction spells with
  | nil =>
      have atEnd : readSymbol (skipSeparators remaining) = .ok none := by
        rw [stops.skipSeparators_eq]
        exact readSymbol_eq_none_iff.mpr stops
      rw [List.nil_append, readSymbols]
      split <;> simp_all [stops.skipSeparators_eq]
  | separator separator _ ih =>
      rw [List.cons_append, readSymbols_of_skipSeparators
        (skipSeparators_separator separator _), ih]
  | @name name text symbols whole _ ih =>
      obtain ⟨isName, ends⟩ := wholeName_iff.mp whole
      have endsThere : Ends (text ++ remaining) := by
        cases text with
        | nil => exact stops.ends
        | cons c text => exact ends
      rw [List.append_assoc, readSymbols_of_readSymbol, ih]
      · rfl
      · rw [skipSeparators_name isName, readSymbol_of_isName isName endsThere]
  | @word word text symbols nonempty noQuote _ ih =>
      have skipped : skipSeparators
          ('"' :: (word.toList ++ '"' :: (text ++ remaining))) =
          '"' :: (word.toList ++ '"' :: (text ++ remaining)) :=
        skipSeparators_cons (by decide)
      rw [List.cons_append, List.append_assoc, List.cons_append,
        readSymbols_of_readSymbol, ih]
      · rfl
      · rw [skipped, readSymbol_of_no_quote nonempty noQuote]

theorem readSymbols_eq_ok_iff :
    readSymbols line = .ok (symbols, remaining) ↔
      Stops remaining ∧
        ∃ text, line = text ++ remaining ∧ SpellsSymbols text symbols := by
  constructor
  · exact exists_spells_of_readSymbols
  · rintro ⟨stops, text, rfl, spells⟩
    exact readSymbols_of_spells spells stops

end Symbols

section Alternatives

theorem spellsAlternatives_of_read
    (found : readAlternatives line = .ok alternatives) :
    SpellsAlternatives line alternatives := by
  fun_induction readAlternatives line generalizing alternatives with
  | case1 => simp at found
  | case2 => simp at found
  | case3 line symbols rest nonempty step ih =>
      obtain ⟨others, inner, rfl⟩ := map_eq_ok_iff.mp found
      obtain ⟨_, text, rfl, spells⟩ := readSymbols_eq_ok_iff.mp step
      exact .cons spells nonempty (ih inner)
  | case4 line symbols remaining nonempty notBar step =>
      obtain rfl := Except.ok.inj found
      obtain ⟨stops, text, rfl, spells⟩ := readSymbols_eq_ok_iff.mp step
      rcases stops with rfl | ⟨after, rfl⟩
      · rw [List.append_nil]
        exact .last spells nonempty
      · exact absurd rfl (notBar after)

theorem readAlternatives_cons (nonempty : symbols ≠ [])
    (found : readSymbols line = .ok (symbols, '|' :: rest)) :
    readAlternatives line = (readAlternatives rest).map (symbols :: ·) := by
  rw [readAlternatives]
  split <;> simp_all

theorem readAlternatives_eq_ok_iff :
    readAlternatives line = .ok alternatives ↔
      SpellsAlternatives line alternatives := by
  constructor
  · exact spellsAlternatives_of_read
  · intro spells
    induction spells with
    | @last text symbols spells nonempty =>
        apply readAlternatives_of_readSymbols nonempty
        exact readSymbols_eq_ok_iff.mpr ⟨.inl rfl, text, by simp, spells⟩
    | @cons text rest symbols others spells nonempty _ ih =>
        rw [readAlternatives_cons nonempty (readSymbols_eq_ok_iff.mpr
          ⟨.inr ⟨rest, rfl⟩, text, rfl, spells⟩), ih]
        rfl

end Alternatives

section Lines

theorem spells_of_read (found : read line = .ok rule) : Spells line rule := by
  unfold read at found
  dsimp only at found
  split at found
  · simp at found
  · rename_i nonempty
    split at found
    · rename_i text arrow
      obtain ⟨alternatives, inner, rfl⟩ := map_eq_ok_iff.mp found
      obtain ⟨before, lineEq, indented⟩ := exists_separators line
      obtain ⟨between, restEq, spaced⟩ := exists_separators
        ((skipSeparators line).dropWhile isNameChar)
      rw [arrow] at restEq
      obtain ⟨name, letters⟩ : ∃ name : String,
          name.toList = (skipSeparators line).takeWhile isNameChar :=
        ⟨_, String.toList_ofList⟩
      have whole : WholeName name (between ++ '-' :: '>' :: text) := by
        rw [wholeName_iff, ← restEq]
        refine ⟨⟨letters ▸ nonempty, fun c member => ?_⟩, ends_dropWhile _⟩
        exact List.mem_takeWhile_imp (letters ▸ member)
      have spelt : line =
          before ++ (name.toList ++ (between ++ '-' :: '>' :: text)) := by
        rw [letters, ← restEq, List.takeWhile_append_dropWhile, ← lineEq]
      rw [← letters, String.ofList_toList, spelt]
      have spells := readAlternatives_eq_ok_iff.mp inner
      exact @Spells.mk before between text ⟨name, alternatives⟩ indented whole
        spaced spells
    · simp at found

theorem read_of_skipSeparators
    (same : skipSeparators line = skipSeparators rest) :
    read line = read rest := by
  rw [read, read, same]

/-- The rule that is read is that which the line spells. -/
theorem read_eq_ok_iff : read line = .ok rule ↔ Spells line rule := by
  constructor
  · exact spells_of_read
  · rintro ⟨indented, whole, spaced, spells⟩
    rename_i before between text
    obtain ⟨isName, ends⟩ := wholeName_iff.mp whole
    have arrow : skipSeparators (between ++ '-' :: '>' :: text) =
        '-' :: '>' :: text := by
      rw [skipSeparators_append spaced]
      exact skipSeparators_cons (by decide)
    rw [read_of_skipSeparators (skipSeparators_append indented _),
      read_of_isName isName ends arrow, readAlternatives_eq_ok_iff.mpr spells]
    rfl

end Lines

end Rule

end Constituency
