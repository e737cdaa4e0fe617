import Constituency.Proofs.Derivation.Order

/-!
# The order of derivations among fewer productions

Leaving out productions changes the numbers of the others, but not which of two
has the lower number.  So trees that do not need the productions that were left
out are ordered as before.
-/

namespace Constituency

theorem idxOf_filter_lt_iff {α : Type} [DecidableEq α] {keep : α → Bool}
    {first second : α} (firstKept : keep first = true)
    (secondKept : keep second = true) (elements : List α) :
    (elements.filter keep).idxOf first < (elements.filter keep).idxOf second ↔
      elements.idxOf first < elements.idxOf second := by
  induction elements with
  | nil => simp
  | cons element rest ih =>
      by_cases atFirst : element = first
      · subst element
        by_cases same : first = second
        · simp [same]
        · simp [firstKept, same]
      · by_cases atSecond : element = second
        · subst element
          simp [secondKept]
        · by_cases kept : keep element = true
          · simp [kept, atFirst, atSecond, ih]
          · simp [kept, atFirst, atSecond, ih]

namespace BareTree

variable {grammar other : Grammar} {keep : Production → Bool}

/-- Trees are ordered among all productions as they are among those that were
kept. -/
theorem Precedes.of_filter
    (productionsEq : other.productions.toList =
      grammar.productions.toList.filter keep)
    {first second : BareTree} (firstConforms : first.Conforms other)
    (secondConforms : second.Conforms other)
    (precedes : Precedes other first second) :
    Precedes grammar first second := by
  have kept : ∀ {label : String} {children : List BareTree},
      (branch label children).Conforms other →
      ⟨label, children.map symbol⟩ ∈ other.productions.toList ∧
        keep ⟨label, children.map symbol⟩ = true := by
    intro label children conforms
    cases conforms with
    | branch listed _ =>
        rw [← Array.mem_toList_iff] at listed
        exact ⟨listed, (List.mem_filter.mp (productionsEq ▸ listed)).2⟩
  have sameNumber : ∀ {label : String} {children children' : List BareTree},
      (branch label children).Conforms other →
      productionNumber other label children =
        productionNumber other label children' →
      productionNumber grammar label children =
        productionNumber grammar label children' := by
    intro label children children' conforms same
    have sameProduction := (List.idxOf_inj (kept conforms).1).mp same
    rw [productionNumber, productionNumber, sameProduction]
  induction precedes with
  | @production label first second lower =>
      refine .production ?_
      unfold productionNumber at lower ⊢
      rw [productionsEq, idxOf_filter_lt_iff (kept firstConforms).2
        (kept secondConforms).2] at lower
      exact lower
  | split same shorter =>
      exact .split (sameNumber firstConforms same) shorter
  | child same level _ ih =>
      refine .child (sameNumber firstConforms same) level ?_
      cases firstConforms with
      | branch _ firstBelow =>
          cases secondConforms with
          | branch _ secondBelow =>
              exact ih (firstBelow _ (by simp)) (secondBelow _ (by simp))

end BareTree

end Constituency
