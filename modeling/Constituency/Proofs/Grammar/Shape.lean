import Constituency.Proofs.Grammar.Build

/-!
# Shapes of productions

A production is well shaped if it has one word or one or more nonterminals on
the right, and every other shape is one of three faults.  Going through
productions ends at the first fault, and otherwise keeps the first occurrence of
every production.
-/

namespace Constituency

theorem Symbol.exists_words {symbols : List Symbol}
    (noName : ∀ name, .nonterminal name ∉ symbols) :
    ∃ words : List String, symbols = words.map .terminal := by
  induction symbols with
  | nil => exact ⟨[], rfl⟩
  | cons symbol rest ih =>
      obtain ⟨words, rfl⟩ := ih fun name member => noName name (by simp [member])
      cases symbol with
      | terminal word => exact ⟨word :: words, rfl⟩
      | nonterminal name => exact absurd (by simp) (noName name)

theorem Symbol.exists_names {symbols : List Symbol}
    (noWord : ∀ word, .terminal word ∉ symbols) :
    ∃ names : List String, symbols = names.map .nonterminal := by
  induction symbols with
  | nil => exact ⟨[], rfl⟩
  | cons symbol rest ih =>
      obtain ⟨names, rfl⟩ := ih fun word member => noWord word (by simp [member])
      cases symbol with
      | terminal word => exact absurd (by simp) (noWord word)
      | nonterminal name => exact ⟨name :: names, rfl⟩

namespace Production

/-- There is one word on the right, or one or more nonterminals. -/
def WellShaped (production : Production) : Prop :=
  (∃ word, production.rhs = [.terminal word]) ∨
    ∃ names, names ≠ [] ∧ production.rhs = names.map .nonterminal

/-- A defect in the shape of a production. -/
inductive ShapeFault : Production → GrammarError → Prop
  | emptyRhs (lhs : String) : ShapeFault ⟨lhs, []⟩ (.emptyRhs lhs)
  | severalWords (lhs : String) {words : List String}
      (several : 2 ≤ words.length) :
      ShapeFault ⟨lhs, words.map .terminal⟩
        (.severalWords ⟨lhs, words.map .terminal⟩)
  | mixedRhs {production : Production} {word name : String}
      (wordListed : .terminal word ∈ production.rhs)
      (nameListed : .nonterminal name ∈ production.rhs) :
      ShapeFault production (.mixedRhs production)

variable {production : Production} {error : GrammarError}

theorem WellShaped.rhs_ne_nil (shaped : production.WellShaped) :
    production.rhs ≠ [] := by
  rcases shaped with ⟨word, rhsEq⟩ | ⟨names, nonempty, rhsEq⟩
  · simp [rhsEq]
  · simpa [rhsEq] using nonempty

theorem shapeError?_eq_none_iff :
    production.shapeError? = none ↔ production.WellShaped := by
  constructor
  · exact shape_cases
  · obtain ⟨lhs, rhs⟩ := production
    rintro (⟨word, rfl⟩ | ⟨names, nonempty, rfl⟩)
    · rfl
    · have syntacticRhs : isSyntactic ⟨lhs, names.map .nonterminal⟩ = true := by
        simp [isSyntactic, nonempty, Symbol.isNonterminal]
      simp [shapeError?, isEmpty, nonempty, syntacticRhs]

instance (production : Production) : Decidable production.WellShaped :=
  decidable_of_iff _ shapeError?_eq_none_iff

theorem ShapeFault.shapeError?_eq (fault : production.ShapeFault error) :
    production.shapeError? = some error := by
  cases fault with
  | emptyRhs lhs => rfl
  | @severalWords lhs words several =>
      rcases words with _ | ⟨first, _ | ⟨second, rest⟩⟩
      · simp at several
      · simp at several
      · simp [shapeError?, isEmpty, isLexical, isSyntactic,
          Symbol.isNonterminal, Symbol.isTerminal]
  | mixedRhs wordListed nameListed =>
      have nonempty : production.rhs ≠ [] := List.ne_nil_of_mem wordListed
      have notLexical : production.isLexical = false := by
        rw [isLexical]
        split
        · rename_i symbol rhsEq
          rw [rhsEq, List.mem_singleton] at wordListed nameListed
          exact absurd (wordListed.trans nameListed.symm) (by simp)
        · rfl
      have notSyntactic : production.isSyntactic = false := by
        rw [isSyntactic, Bool.and_eq_false_iff, List.all_eq_false]
        exact .inr ⟨_, wordListed, by simp [Symbol.isNonterminal]⟩
      have notWords : production.rhs.all Symbol.isTerminal = false := by
        rw [List.all_eq_false]
        exact ⟨_, nameListed, by simp [Symbol.isTerminal]⟩
      simp [shapeError?, isEmpty, nonempty, notLexical, notSyntactic, notWords]

theorem wellShaped_or_shapeFault (production : Production) :
    production.WellShaped ∨ ∃ error, production.ShapeFault error := by
  obtain ⟨lhs, rhs⟩ := production
  by_cases hasWord : ∃ word, Symbol.terminal word ∈ rhs
  · obtain ⟨word, wordListed⟩ := hasWord
    by_cases hasName : ∃ name, Symbol.nonterminal name ∈ rhs
    · obtain ⟨name, nameListed⟩ := hasName
      have fault : ShapeFault ⟨lhs, rhs⟩ (.mixedRhs ⟨lhs, rhs⟩) :=
        .mixedRhs wordListed nameListed
      exact .inr ⟨_, fault⟩
    · obtain ⟨words, rfl⟩ := Symbol.exists_words (not_exists.mp hasName)
      rcases words with _ | ⟨first, _ | ⟨second, rest⟩⟩
      · simp at wordListed
      · exact .inl (.inl ⟨first, rfl⟩)
      · exact .inr ⟨_, .severalWords lhs (by simp)⟩
  · obtain ⟨names, rfl⟩ := Symbol.exists_names (not_exists.mp hasWord)
    by_cases empty : names = []
    · subst empty
      exact .inr ⟨_, .emptyRhs lhs⟩
    · exact .inl (.inr ⟨names, empty, rfl⟩)

end Production

/-- The first production that is not well shaped has this defect. -/
def FirstShapeFault (productions : List Production) (error : GrammarError) :
    Prop :=
  ∃ before production after, productions = before ++ production :: after ∧
    (∀ earlier ∈ before, earlier.WellShaped) ∧ production.ShapeFault error

theorem wellShaped_or_firstShapeFault (productions : List Production) :
    (∀ production ∈ productions, production.WellShaped) ∨
      ∃ error, FirstShapeFault productions error := by
  induction productions with
  | nil => exact .inl (by simp)
  | cons production rest ih =>
      rcases production.wellShaped_or_shapeFault with shaped | ⟨error, fault⟩
      · rcases ih with allShaped |
          ⟨error, before, faulty, after, rfl, shapedBefore, fault⟩
        · exact .inl (List.forall_mem_cons.mpr ⟨shaped, allShaped⟩)
        · exact .inr ⟨error, production :: before, faulty, after, rfl,
            List.forall_mem_cons.mpr ⟨shaped, shapedBefore⟩, fault⟩
      · exact .inr ⟨error, [], production, rest, rfl, by simp, fault⟩

namespace Grammar

variable {productions : List Production} {error : GrammarError}

/-- Of well-shaped productions the first occurrence of each new one is kept. -/
theorem keepFirst_of_wellShaped (seen : List Production)
    (shaped : ∀ production ∈ productions, production.WellShaped) :
    (keepFirst seen productions).2 =
      .ok (productions.filter (· ∉ seen)).eraseDups := by
  induction productions generalizing seen with
  | nil => rfl
  | cons production rest ih =>
      obtain ⟨firstShaped, restShaped⟩ := List.forall_mem_cons.mp shaped
      rw [keepFirst, Production.shapeError?_eq_none_iff.mpr firstShaped]
      dsimp only
      split
      · rename_i known
        rw [List.filter_cons_of_neg (by simpa using known)]
        exact ih seen restShaped
      · rename_i new
        rw [List.filter_cons_of_pos (by simpa using new), List.eraseDups_cons]
        dsimp only
        rw [ih (production :: seen) restShaped, List.filter_filter]
        have narrowed : rest.filter (· ∉ production :: seen) =
            rest.filter fun other =>
              !(other == production) && decide (other ∉ seen) := by
          apply List.filter_congr
          intro other _
          rw [Bool.eq_iff_iff]
          simp [not_or]
        rw [narrowed]
        rfl

theorem keepFirst_of_firstShapeFault (seen : List Production)
    (first : FirstShapeFault productions error) :
    (keepFirst seen productions).2 = .error error := by
  obtain ⟨before, faulty, after, rfl, shaped, fault⟩ := first
  induction before generalizing seen with
  | nil => rw [List.nil_append, keepFirst, fault.shapeError?_eq]
  | cons production before ih =>
      obtain ⟨firstShaped, restShaped⟩ := List.forall_mem_cons.mp shaped
      rw [List.cons_append, keepFirst,
        Production.shapeError?_eq_none_iff.mpr firstShaped]
      dsimp only
      split
      · exact ih seen restShaped
      · dsimp only
        rw [ih (production :: seen) restShaped]
        rfl

end Grammar

end Constituency
