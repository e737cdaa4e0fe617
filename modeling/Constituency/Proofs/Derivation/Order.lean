import Constituency.Proofs.Derivation.Basic
import Mathlib.Data.List.Lex

/-!
# The order of derivations

Two trees of one nonterminal over the same words are compared at their roots
first: by the number of the production used there, then by the places at which
their children end.  If both agree, the first children that differ are compared
in the same way.  On the trees that derive given words from a nonterminal this is
a strict total order.
-/

namespace Constituency

namespace BareTree

def productionNumber (grammar : Grammar) (label : String)
    (children : List BareTree) : Nat :=
  grammar.productions.toList.idxOf ⟨label, children.map symbol⟩

/-- The places at which neighbouring trees end, if the first of them begins at
the given place. -/
def splitPoints (start : Nat) : List BareTree → List Nat
  | [] => []
  | tree :: rest =>
      (start + tree.words.length) ::
        splitPoints (start + tree.words.length) rest

/-- The order of the trees that a nonterminal has over given words. -/
inductive Precedes (grammar : Grammar) : BareTree → BareTree → Prop
  /-- The production used at the root is declared earlier. -/
  | production {label : String} {first second : List BareTree}
      (lower : productionNumber grammar label first <
        productionNumber grammar label second) :
      Precedes grammar (.branch label first) (.branch label second)
  /-- The production is the same, and at the first difference between the split
  points the left part is shorter. -/
  | split {label : String} {first second : List BareTree}
      (same : productionNumber grammar label first =
        productionNumber grammar label second)
      (shorter : splitPoints 0 first < splitPoints 0 second) :
      Precedes grammar (.branch label first) (.branch label second)
  /-- Production and split points are the same, and the first of the children
  that differ are in order. -/
  | child {label : String} {before first second : List BareTree}
      {left right : BareTree}
      (same : productionNumber grammar label (before ++ left :: first) =
        productionNumber grammar label (before ++ right :: second))
      (level : splitPoints 0 (before ++ left :: first) =
        splitPoints 0 (before ++ right :: second))
      (lower : Precedes grammar left right) :
      Precedes grammar (.branch label (before ++ left :: first))
        (.branch label (before ++ right :: second))

theorem Precedes.ne {grammar : Grammar} {first second : BareTree}
    (precedes : Precedes grammar first second) : first ≠ second := by
  induction precedes with
  | production lower =>
      intro equal
      injection equal with _ childrenEqual
      exact absurd (childrenEqual ▸ lower) (Nat.lt_irrefl _)
  | split same shorter =>
      intro equal
      injection equal with _ childrenEqual
      exact absurd (childrenEqual ▸ shorter) (List.lt_irrefl _)
  | child same level lower ih =>
      intro equal
      injection equal with _ childrenEqual
      have tails := List.append_cancel_left childrenEqual
      injection tails with headsEqual
      exact ih headsEqual

private theorem append_cons_cases {α : Type} {before before' rest rest' : List α}
    {element element' : α}
    (same : before ++ element :: rest = before' ++ element' :: rest') :
    before = before' ∧ element = element' ∧ rest = rest' ∨
      (∃ between, before' = before ++ element :: between ∧
        rest = between ++ element' :: rest') ∨
      ∃ between, before = before' ++ element' :: between ∧
        rest' = between ++ element :: rest := by
  rcases List.append_eq_append_iff.mp same with
    ⟨between, rfl, tails⟩ | ⟨between, rfl, tails⟩
  · rcases between with _ | ⟨_, between⟩
    · exact .inl ⟨by simp, List.cons.inj tails⟩
    · obtain ⟨rfl, rfl⟩ := List.cons.inj tails
      exact .inr (.inl ⟨between, rfl, rfl⟩)
  · rcases between with _ | ⟨_, between⟩
    · obtain ⟨elementEq, restEq⟩ := List.cons.inj tails
      exact .inl ⟨by simp, elementEq.symm, restEq.symm⟩
    · obtain ⟨rfl, rfl⟩ := List.cons.inj tails
      exact .inr (.inr ⟨between, rfl, rfl⟩)

theorem Precedes.trans {grammar : Grammar} {first second third : BareTree}
    (precedes : Precedes grammar first second)
    (precedes' : Precedes grammar second third) :
    Precedes grammar first third := by
  induction precedes generalizing third with
  | production lower =>
      cases precedes' with
      | production lower' => exact .production (Nat.lt_trans lower lower')
      | split same => exact .production (same ▸ lower)
      | child same => exact .production (same ▸ lower)
  | split same shorter =>
      cases precedes' with
      | production lower => exact .production (same ▸ lower)
      | split same' shorter' =>
          exact .split (same.trans same') (List.lt_trans shorter shorter')
      | child same' level => exact .split (same.trans same') (level ▸ shorter)
  | @child label before rest middleRest left right same level lower ih =>
      generalize middle : BareTree.branch label (before ++ right :: middleRest) =
        second at precedes'
      cases precedes' with
      | production lower' =>
          injection middle with sameLabel children
          subst sameLabel children
          exact .production (same ▸ lower')
      | split same' shorter =>
          injection middle with sameLabel children
          subst sameLabel children
          exact .split (same.trans same') (level ▸ shorter)
      | @child _ before' middleRest' lastRest left' right' same' level' lower' =>
          injection middle with sameLabel children
          subst sameLabel
          have sameNumber := (children ▸ same).trans same'
          have samePoints := (children ▸ level).trans level'
          -- The first of the two differences decides, and if both are at one
          -- place the trees there are compared by induction.
          rcases append_cons_cases children with ⟨rfl, rfl, rfl⟩ |
            ⟨between, rfl, rfl⟩ | ⟨between, rfl, rfl⟩
          · exact .child sameNumber samePoints (ih lower')
          · simp only [List.append_assoc, List.cons_append]
              at sameNumber samePoints ⊢
            exact .child sameNumber samePoints lower
          · simp only [List.append_assoc, List.cons_append]
              at sameNumber samePoints ⊢
            exact .child sameNumber samePoints lower'

instance (grammar : Grammar) : Std.Irrefl (Precedes grammar) :=
  ⟨fun _ precedes => precedes.ne rfl⟩

instance (grammar : Grammar) : Std.Antisymm (Precedes grammar) :=
  ⟨fun _ _ precedes precedes' => absurd rfl (precedes.trans precedes').ne⟩

/-- Where neighbouring trees begin has no influence on how their split points
compare. -/
theorem splitPoints_lt_iff (start other : Nat) (first second : List BareTree) :
    splitPoints start first < splitPoints start second ↔
      splitPoints other first < splitPoints other second := by
  induction first generalizing start other second with
  | nil => cases second <;> simp [splitPoints]
  | cons left first ih =>
      cases second with
      | nil => simp [splitPoints]
      | cons right second =>
          simp only [splitPoints, List.cons_lt_cons_iff]
          by_cases level : left.words.length = right.words.length
          · simp only [level, Nat.lt_irrefl, false_or, true_and]
            exact ih ..
          · have startApart : start + left.words.length ≠
                start + right.words.length := by omega
            have otherApart : other + left.words.length ≠
                other + right.words.length := by omega
            simp only [startApart, otherApart, false_and, or_false]
            omega

theorem splitPoints_eq_iff (start : Nat) (first second : List BareTree) :
    splitPoints start first = splitPoints start second ↔
      first.map (·.words.length) = second.map (·.words.length) := by
  induction first generalizing start second with
  | nil => cases second <;> simp [splitPoints]
  | cons left first ih =>
      cases second with
      | nil => simp [splitPoints]
      | cons right second =>
          simp only [splitPoints, List.map_cons, List.cons.injEq,
            Nat.add_left_cancel_iff]
          by_cases level : left.words.length = right.words.length
          · simp only [level, true_and]
            exact ih ..
          · simp only [level, false_and]

/-- Trees side by side that have the same symbols, the same numbers of words and
together the same words have the same words each. -/
theorem words_forall₂_of_words_eq {first second : List BareTree}
    (symbols : first.map symbol = second.map symbol)
    (lengths : first.map (·.words.length) = second.map (·.words.length))
    (sentence : first.flatMap words = second.flatMap words) :
    List.Forall₂ (fun left right =>
      left.symbol = right.symbol ∧ left.words = right.words) first second := by
  induction first generalizing second with
  | nil =>
      cases second with
      | nil => exact .nil
      | cons => simp at symbols
  | cons left first ih =>
      cases second with
      | nil => simp at symbols
      | cons right second =>
          simp only [List.map_cons, List.cons.injEq] at symbols lengths
          simp only [List.flatMap_cons] at sentence
          have parts := List.append_inj sentence lengths.1
          exact .cons ⟨symbols.1, parts.1⟩ (ih symbols.2 lengths.2 parts.2)

private theorem exists_first_difference
    {related : BareTree → BareTree → Prop} {first second : List BareTree}
    (sideBySide : List.Forall₂ related first second) :
    first = second ∨ ∃ before left right firstRest secondRest,
      first = before ++ left :: firstRest ∧
      second = before ++ right :: secondRest ∧
      left ≠ right ∧ related left right := by
  induction sideBySide with
  | nil => exact .inl rfl
  | @cons left right first second heads tails ih =>
      by_cases equal : left = right
      · subst right
        rcases ih with rfl |
          ⟨before, left', right', firstRest, secondRest, rfl, rfl, apart⟩
        · exact .inl rfl
        · exact .inr ⟨left :: before, left', right', firstRest, secondRest,
            rfl, rfl, apart⟩
      · exact .inr ⟨[], left, right, first, second, rfl, rfl, equal, heads⟩

/-- Of two trees of a grammar with the same root over the same words, one
precedes the other unless they are equal. -/
theorem precedes_trichotomy {grammar : Grammar} {first second : BareTree}
    (firstConforms : first.Conforms grammar)
    (secondConforms : second.Conforms grammar)
    (symbols : first.symbol = second.symbol)
    (sentence : first.words = second.words) :
    first = second ∨ Precedes grammar first second ∨
      Precedes grammar second first := by
  induction firstConforms generalizing second with
  | leaf word =>
      cases secondConforms with
      | leaf word' =>
          simp only [symbol, Symbol.terminal.injEq] at symbols
          exact .inl (by rw [symbols])
      | branch => simp [symbol] at symbols
  | @branch label children listed below ih =>
      cases secondConforms with
      | leaf => simp [symbol] at symbols
      | @branch label' children' listed' below' =>
          simp only [symbol, Symbol.nonterminal.injEq] at symbols
          subst label'
          simp only [words_branch] at sentence
          rcases Nat.lt_trichotomy (productionNumber grammar label children)
            (productionNumber grammar label children') with
            lower | same | higher
          · exact .inr (.inl (.production lower))
          · rcases lt_trichotomy (splitPoints 0 children)
              (splitPoints 0 children') with shorter | level | longer
            · exact .inr (.inl (.split same shorter))
            · have production :=
                (List.idxOf_inj (Array.mem_toList_iff.mpr listed)).mp same
              simp only [Production.mk.injEq, true_and] at production
              have sideBySide := words_forall₂_of_words_eq production
                ((splitPoints_eq_iff ..).mp level) sentence
              rcases exists_first_difference sideBySide with rfl |
                ⟨before, left, right, firstRest, secondRest, rfl, rfl, apart,
                  sameSymbol, sameWords⟩
              · exact .inl rfl
              · rcases ih left (by simp) (below' right (by simp)) sameSymbol
                  sameWords with equal | lower | higher
                · exact absurd equal apart
                · exact .inr (.inl (.child same level lower))
                · exact .inr (.inr (.child same.symm level.symm higher))
            · exact .inr (.inr (.split same.symm longer))
          · exact .inr (.inr (.production higher))

end BareTree

end Constituency
