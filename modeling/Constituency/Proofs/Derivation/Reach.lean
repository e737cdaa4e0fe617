import Constituency.Proofs.Derivation.Basic
import Constituency.Proofs.Derivation.Yield
import Mathlib.Logic.Relation

/-!
# Reachable nonterminals

A nonterminal is reached from another one through the right-hand sides of
productions.  Productions are pruned if only those are left whose nonterminals
can be reached from the start symbol.  As a derivation meets no other
nonterminals, it is left as it is.
-/

namespace Constituency

def Uses (productions : List Production) (name other : String) : Prop :=
  ∃ production ∈ productions, production.lhs = name ∧
    .nonterminal other ∈ production.rhs

/-- The second nonterminal can be reached from the first one. -/
def Reaches (productions : List Production) : String → String → Prop :=
  Relation.ReflTransGen (Uses productions)

/-- Of the productions those are left that can be reached from the start
symbol. -/
def Prunes (pruned productions : List Production) (start : String) : Prop :=
  ∀ production, production ∈ pruned ↔
    production ∈ productions ∧ Reaches productions start production.lhs

variable {pruned productions : List Production} {start name : String}
variable {symbols : List Symbol} {production : Production}

theorem Reaches.of_mem (reached : Reaches productions start production.lhs)
    (listed : production ∈ productions)
    (member : .nonterminal name ∈ production.rhs) :
    Reaches productions start name :=
  reached.tail ⟨production, listed, rfl, member⟩

namespace Prunes

variable (prunes : Prunes pruned productions start)

include prunes

theorem subset : pruned ⊆ productions := fun production member =>
  ((prunes production).mp member).1

theorem reaches_iff :
    Reaches pruned start name ↔ Reaches productions start name := by
  constructor
  · intro reached
    refine reached.lift id ?_
    rintro first second ⟨production, listed, lhsEq, member⟩
    exact ⟨production, prunes.subset listed, lhsEq, member⟩
  · intro reached
    induction reached with
    | refl => exact .refl
    | tail before step ih =>
        obtain ⟨production, listed, rfl, member⟩ := step
        exact ih.of_mem ((prunes production).mpr ⟨listed, before⟩) member

theorem yields {sentence : List String}
    (yields : Yields productions symbols sentence)
    (reached : ∀ name, .nonterminal name ∈ symbols →
      Reaches productions start name) :
    Yields pruned symbols sentence := by
  induction yields with
  | nil => exact .nil
  | terminal word _ ih =>
      exact .terminal word (ih fun name member => reached name (by simp [member]))
  | @nonterminal production rest first second listed _ _ bodyIh tailIh =>
      have lhsReached := reached production.lhs (by simp)
      refine .nonterminal ((prunes production).mpr ⟨listed, lhsReached⟩) ?_ ?_
      · exact bodyIh fun name member => lhsReached.of_mem listed member
      · exact tailIh fun name member => reached name (by simp [member])

end Prunes

namespace BareTree

theorem Conforms.mono {grammar other : Grammar} {tree : BareTree}
    (included : grammar.productions.toList ⊆ other.productions.toList)
    (conforms : tree.Conforms grammar) : tree.Conforms other := by
  induction conforms with
  | leaf word => exact .leaf word
  | branch listed _ ih =>
      have kept := included (Array.mem_toList_iff.mpr listed)
      exact .branch (Array.mem_toList_iff.mp kept) ih

/-- A tree of a reached nonterminal does not need the other productions. -/
theorem Conforms.of_prunes {grammar other : Grammar} {tree : BareTree}
    (prunes : Prunes other.productions.toList grammar.productions.toList start)
    (conforms : tree.Conforms grammar)
    (reached : ∀ name, tree.symbol = .nonterminal name →
      Reaches grammar.productions.toList start name) :
    tree.Conforms other := by
  induction conforms with
  | leaf word => exact .leaf word
  | @branch label children listed below ih =>
      have labelReached := reached label rfl
      rw [← Array.mem_toList_iff] at listed
      refine .branch ?_ fun child member => ih child member fun name root => ?_
      · rw [← Array.mem_toList_iff]
        exact (prunes _).mpr ⟨listed, labelReached⟩
      · have used : .nonterminal name ∈ children.map symbol :=
          List.mem_map.mpr ⟨child, member, root⟩
        exact @Reaches.of_mem _ _ _ ⟨label, children.map symbol⟩ labelReached
          listed used

/-- The derivations from the start symbol are the same for pruned
productions. -/
theorem derives_iff_of_prunes {grammar other : Grammar}
    (prunes : Prunes other.productions.toList grammar.productions.toList start)
    {sentence : List String} {tree : BareTree} :
    tree.Derives other start sentence ↔ tree.Derives grammar start sentence := by
  constructor
  · rintro ⟨conforms, root, sentenceEq⟩
    exact ⟨conforms.mono prunes.subset, root, sentenceEq⟩
  · rintro ⟨conforms, root, sentenceEq⟩
    refine ⟨conforms.of_prunes prunes fun name root' => ?_, root, sentenceEq⟩
    obtain rfl := Symbol.nonterminal.inj (root.symm.trans root')
    exact .refl

end BareTree

end Constituency
