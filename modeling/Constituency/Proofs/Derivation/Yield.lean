import Constituency.Production

/-!
# What productions derive

Symbols yield a sentence if every word among them stands for itself, and every
nonterminal is replaced by what the right-hand side of one of its productions
yields.  No grammar has to be built from the productions for this, so it can be
asked of productions that no grammar can be built from.
-/

namespace Constituency

/-- The symbols derive the sentence by the productions. -/
inductive Yields (productions : List Production) :
    List Symbol → List String → Prop
  | nil : Yields productions [] []
  | terminal (word : String) {rest : List Symbol} {sentence : List String}
      (tail : Yields productions rest sentence) :
      Yields productions (.terminal word :: rest) (word :: sentence)
  | nonterminal {production : Production} {rest : List Symbol}
      {first second : List String} (listed : production ∈ productions)
      (body : Yields productions production.rhs first)
      (tail : Yields productions rest second) :
      Yields productions (.nonterminal production.lhs :: rest) (first ++ second)

/-- The nonterminal derives some sentence. -/
def Productive (productions : List Production) (name : String) : Prop :=
  ∃ sentence, Yields productions [.nonterminal name] sentence

variable {productions others : List Production} {symbols : List Symbol}

theorem Yields.mono {sentence : List String} (included : productions ⊆ others)
    (yields : Yields productions symbols sentence) :
    Yields others symbols sentence := by
  induction yields with
  | nil => exact .nil
  | terminal word _ ih => exact .terminal word ih
  | nonterminal listed _ _ bodyIh tailIh =>
      exact .nonterminal (included listed) bodyIh tailIh

/-- Where nothing is derived from nothing, a sentence has at least a word for
every symbol. -/
theorem Yields.length_le {sentence : List String}
    (nonempty : ∀ production ∈ productions, production.rhs ≠ [])
    (yields : Yields productions symbols sentence) :
    symbols.length ≤ sentence.length := by
  induction yields with
  | nil => exact Nat.le_refl 0
  | terminal word _ ih => exact Nat.succ_le_succ ih
  | nonterminal listed _ _ bodyIh tailIh =>
      have bodyWords := List.length_pos_iff.mpr (nonempty _ listed)
      rw [List.length_append, List.length_cons]
      omega

theorem productive_of_yields {production : Production} {sentence : List String}
    (listed : production ∈ productions)
    (body : Yields productions production.rhs sentence) :
    Productive productions production.lhs :=
  ⟨_, .nonterminal listed body .nil⟩

theorem exists_yields_of_productive
    (each : ∀ name, .nonterminal name ∈ symbols → Productive productions name) :
    ∃ sentence, Yields productions symbols sentence := by
  induction symbols with
  | nil => exact ⟨[], .nil⟩
  | cons symbol rest ih =>
      obtain ⟨second, tail⟩ := ih fun name member => each name (by simp [member])
      cases symbol with
      | terminal word => exact ⟨word :: second, .terminal word tail⟩
      | nonterminal name =>
          obtain ⟨sentence, yields⟩ := each name (by simp)
          cases yields with
          | nonterminal listed body _ => exact ⟨_, .nonterminal listed body tail⟩

end Constituency
