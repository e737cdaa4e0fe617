import Constituency.Proofs.Chart.Fill

/-!
# The arena while a chart is filled

After any step of the filling, every derivation in the chart is built from cells
that the chart has, and none is listed twice.  The cells lie in the arena in the
order of their spans, since a step opens cells on one span only, and before it
there are no cells on later spans.
-/

namespace Constituency

namespace Chart

variable {chart later final : Chart} {span : Span} {symbol number : Nat}

def spans (chart : Chart) : List Span :=
  chart.cells.toList.map (·.span)

/-- The later chart has new cells on the span, all of them at the end of the
arena. -/
def Appends (chart later : Chart) (span : Span) : Prop :=
  ∃ count, later.spans = chart.spans ++ List.replicate count span

section Spans

theorem getElem?_spans (chart : Chart) (number : Nat) :
    chart.spans[number]? = chart.cells[number]?.map (·.span) := by
  rw [spans, List.getElem?_map, Array.getElem?_toList]

theorem mem_spans {other : Span} :
    other ∈ chart.spans ↔
      ∃ (number : Nat) (cell : Cell),
        chart.cells[number]? = some cell ∧ cell.span = other := by
  simp only [List.mem_iff_getElem?, getElem?_spans, Option.map_eq_some_iff]

theorem Appends.refl (chart : Chart) (span : Span) : chart.Appends chart span :=
  ⟨0, by simp⟩

theorem Appends.trans (first : chart.Appends later span)
    (second : later.Appends final span) : chart.Appends final span := by
  obtain ⟨count, laterEq⟩ := first
  obtain ⟨more, finalEq⟩ := second
  refine ⟨count + more, ?_⟩
  rw [finalEq, laterEq, List.append_assoc, List.replicate_append_replicate]

theorem Appends.of_spans_eq (same : later.spans = chart.spans) (span : Span) :
    chart.Appends later span :=
  ⟨0, by simp [same]⟩

theorem Appends.eq_or_mem {other : Span} (appends : chart.Appends later span)
    (member : other ∈ later.spans) : other = span ∨ other ∈ chart.spans := by
  obtain ⟨count, laterEq⟩ := appends
  rw [laterEq, List.mem_append] at member
  rcases member with earlier | new
  · exact .inr earlier
  · exact .inl (List.eq_of_mem_replicate new)

theorem spans_changeCell (chart : Chart) (number : Nat)
    (change : List Derivation → List Derivation) :
    (chart.changeCell number change).spans = chart.spans :=
  map_changeCell chart number change fun _ => rfl

theorem spans_openCell (chart : Chart) (span : Span) (symbol : Nat)
    (derivation : Derivation) :
    (chart.openCell span symbol derivation).spans = chart.spans ++ [span] := by
  simp [spans, openCell]

theorem appends_add (chart : Chart) (span : Span) (symbol : Nat)
    (derivation : Derivation) :
    chart.Appends (chart.add span symbol derivation) span := by
  cases found : chart.cellAt? span symbol with
  | none =>
      rw [add_eq_openCell found]
      exact ⟨1, spans_openCell ..⟩
  | some number =>
      rw [add_eq_changeCell found]
      exact .of_spans_eq (spans_changeCell ..) span

theorem appends_addAll (chart : Chart) (span : Span)
    (entries : List (Nat × Derivation)) :
    chart.Appends (chart.addAll span entries) span := by
  induction entries generalizing chart with
  | nil => exact .refl chart span
  | cons entry rest ih => exact (appends_add ..).trans (ih _)

theorem spans_sortCell (chart : Chart) (span : Span) (symbol : Nat) :
    (chart.sortCell span symbol).spans = chart.spans := by
  cases found : chart.cellAt? span symbol with
  | none => rw [sortCell_eq_self found]
  | some number => rw [sortCell_eq_changeCell found, spans_changeCell]

theorem spans_sortCells (chart : Chart) (span : Span) :
    (chart.sortCells span).spans = chart.spans := by
  rw [sortCells]
  generalize List.range chart.grammar.symbolCount = symbols
  induction symbols generalizing chart with
  | nil => rfl
  | cons symbol rest ih => rw [List.foldl_cons, ih, spans_sortCell]

end Spans

/-- The derivations of a chart are built from its cells, and each is listed once.
The cells are in the order of their spans. -/
structure WellArranged (chart : Chart) : Prop where
  indexed : chart.Indexed
  nodup : ∀ {span : Span} {symbol : Nat}, chart.Admits span symbol →
    (chart.derivationsAt span symbol).Nodup
  builds : ∀ {span : Span} {symbol : Nat} {derivation : Derivation},
    chart.Admits span symbol → derivation ∈ chart.derivationsAt span symbol →
    chart.Builds span symbol derivation
  ordered : chart.spans.Pairwise Span.NotAfter

namespace WellArranged

theorem extend (arranged : chart.WellArranged)
    (wellFormed : chart.grammar.WellFormed)
    (extended : chart.Extends later span) (appends : chart.Appends later span)
    (last : ∀ other ∈ chart.spans, other.NotAfter span)
    (nodup : ∀ symbol, chart.Admits span symbol →
      (later.derivationsAt span symbol).Nodup)
    (builds : ∀ symbol derivation, chart.Admits span symbol →
      derivation ∈ later.derivationsAt span symbol →
      later.Builds span symbol derivation) : later.WellArranged := by
  refine ⟨extended.indexed, ?_, ?_, ?_⟩
  · intro other symbol admitted
    have admitted := extended.admits_iff.mp admitted
    by_cases same : other = span
    · exact same ▸ nodup symbol (same ▸ admitted)
    · rw [extended.derivationsAt_elsewhere admitted same]
      exact arranged.nodup admitted
  · intro other symbol derivation admitted member
    have admitted := extended.admits_iff.mp admitted
    by_cases same : other = span
    · subst other
      exact builds symbol derivation admitted member
    · rw [extended.derivationsAt_elsewhere admitted same] at member
      exact (arranged.builds admitted member).extend wellFormed extended
        admitted.stop_le
  · obtain ⟨count, laterEq⟩ := appends
    rw [laterEq]
    refine List.pairwise_append.mpr ⟨arranged.ordered, ?_, ?_⟩
    · exact List.pairwise_replicate.mpr (.inr (.refl span))
    · intro other member new replicated
      obtain rfl := List.eq_of_mem_replicate replicated
      exact last other member

theorem vacant (arranged : chart.WellArranged)
    (last : ∀ other ∈ chart.spans, other.Before span) : chart.Vacant span := by
  intro symbol admitted
  cases found : chart.cellAt? span symbol with
  | none => rfl
  | some number =>
      obtain ⟨cell, opened, spanEq, _⟩ :=
        arranged.indexed.exists_cell admitted found
      have before := last span (mem_spans.mpr ⟨number, cell, opened, spanEq⟩)
      exact absurd rfl before.ne

section Steps

variable (arranged : chart.WellArranged) (wellFormed : chart.grammar.WellFormed)
variable (proper : span.start < span.stop)
variable (within : span.stop ≤ chart.words.size)

include arranged wellFormed within

theorem addAll {entries : List (Nat × Derivation)}
    (last : ∀ other ∈ chart.spans, other.Before span)
    (opens : chart.Opens span entries) :
    (chart.addAll span entries).WellArranged := by
  have extended := extends_addAll arranged.indexed opens.admits
  have listed : ∀ symbol, chart.Admits span symbol →
      (chart.addAll span entries).derivationsAt span symbol =
        entriesFor symbol entries := by
    intro symbol admitted
    have none := arranged.vacant last symbol admitted
    rw [derivationsAt_addAll arranged.indexed opens.admits admitted,
      derivationsAt_of_cellAt?_eq_none none, List.nil_append]
  refine arranged.extend wellFormed extended (appends_addAll ..)
    (fun other member => (last other member).notAfter) ?_ ?_
  · intro symbol admitted
    rw [listed symbol admitted]
    exact (pairwise_entriesFor opens.pairwise symbol).imp Earlier.ne
  · intro symbol derivation admitted member
    rw [listed symbol admitted, mem_entriesFor] at member
    obtain ⟨builds, _⟩ := (opens.mem_iff symbol derivation).mp member
    exact builds.extend wellFormed extended within

include proper

theorem addUnits {units : List (Nat × Derivation)}
    (last : ∀ other ∈ chart.spans, other.NotAfter span)
    (added : chart.UnitExtension later span units) : later.WellArranged := by
  have extended := added.extended arranged.indexed
  have appends : chart.Appends later span :=
    added.later_eq ▸ appends_addAll ..
  refine arranged.extend wellFormed extended appends last ?_ ?_
  · intro symbol admitted
    rw [added.derivationsAt_eq arranged.indexed admitted]
    refine List.nodup_append'.mpr ⟨arranged.nodup admitted, ?_, ?_⟩
    · refine (added.pairwise_entriesFor symbol).imp ?_
      rintro first second apart rfl
      exact apart rfl
    · intro derivation listed new
      exact added.fresh (mem_entriesFor.mp new) listed
  · intro symbol derivation admitted member
    rw [added.derivationsAt_eq arranged.indexed admitted, List.mem_append,
      mem_entriesFor] at member
    rcases member with listed | new
    · exact (arranged.builds admitted listed).extend wellFormed extended within
    · exact (added.builds_of_mem arranged.indexed proper new).1

theorem sortCells (last : ∀ other ∈ chart.spans, other.NotAfter span) :
    (chart.sortCells span).WellArranged := by
  have ordered := Nat.le_of_lt proper
  have extended := extends_sortCells arranged.indexed ordered within
  refine arranged.extend wellFormed extended
    (.of_spans_eq (spans_sortCells chart span) span) last ?_ ?_
  · intro symbol admitted
    rw [derivationsAt_sortCells arranged.indexed ordered within admitted]
    exact (perm_sortByProduction _).nodup_iff.mpr (arranged.nodup admitted)
  · intro symbol derivation admitted member
    rw [derivationsAt_sortCells arranged.indexed ordered within admitted,
      mem_sortByProduction] at member
    exact (arranged.builds admitted member).extend wellFormed extended within

theorem closeUnits (last : ∀ other ∈ chart.spans, other.NotAfter span) :
    (chart.closeUnits span).WellArranged ∧
      chart.Extends (chart.closeUnits span) span ∧
      chart.Appends (chart.closeUnits span) span := by
  have ordered := Nat.le_of_lt proper
  obtain ⟨_, closed, units, _, _, closedEq, added, _⟩ :=
    exists_unitExtension_closed arranged.indexed wellFormed.symbolsKnown ordered
      within
  have extended := added.extended arranged.indexed
  have appends : chart.Appends closed span :=
    added.later_eq ▸ appends_addAll ..
  have closedArranged := arranged.addUnits wellFormed proper within last added
  have closedWithin : span.stop ≤ closed.words.size :=
    extended.words_eq ▸ within
  have closedLast : ∀ other ∈ closed.spans, other.NotAfter span := by
    intro other member
    rcases appends.eq_or_mem member with rfl | earlier
    · exact .refl other
    · exact last other earlier
  rw [Chart.closeUnits, closedEq]
  refine ⟨?_, ?_, ?_⟩
  · exact closedArranged.sortCells (extended.grammar_eq ▸ wellFormed) proper
      closedWithin closedLast
  · exact extended.trans (extends_sortCells closedArranged.indexed ordered
      closedWithin)
  · exact appends.trans (.of_spans_eq (spans_sortCells closed span) span)

theorem openStep (last : ∀ other ∈ chart.spans, other.Before span) :
    (chart.step (Chart.openStep span)).WellArranged ∧
      chart.Extends (chart.step (Chart.openStep span)) span ∧
      chart.Appends (chart.step (Chart.openStep span)) span := by
  obtain ⟨entries, stepEq, opens⟩ :=
    exists_opens_openStep arranged.indexed wellFormed proper within
  rw [stepEq]
  exact ⟨arranged.addAll wellFormed within last opens,
    extends_addAll arranged.indexed opens.admits, appends_addAll ..⟩

end Steps

end WellArranged

theorem wellArranged_empty (grammar : Grammar) (words : Array String) :
    (empty grammar words).WellArranged := by
  refine ⟨(filledUpTo_empty grammar words).indexed, ?_, ?_, ?_⟩
  · intro span symbol _
    rw [derivationsAt_of_cellAt?_eq_none (cellAt?_empty ..)]
    exact .nil
  · intro span symbol derivation _ member
    rw [derivationsAt_of_cellAt?_eq_none (cellAt?_empty ..)] at member
    simp at member
  · exact .nil

/-- The chart is well arranged after any number of steps on spans that come after
those of its cells. -/
theorem WellArranged.run {spans : List Span} {steps : List FillStep}
    (arranged : chart.WellArranged) (wellFormed : chart.grammar.WellFormed)
    (proper : ∀ span ∈ spans,
      span.start < span.stop ∧ span.stop ≤ chart.words.size)
    (ordered : spans.Pairwise Span.Before)
    (last : ∀ span ∈ spans, ∀ other ∈ chart.spans, other.Before span)
    (reached : steps <+:
      spans.flatMap fun span => [Chart.openStep span, .closeUnits span]) :
    (steps.foldl step chart).WellArranged ∧
      (steps.foldl step chart).grammar = chart.grammar ∧
      (steps.foldl step chart).words = chart.words := by
  induction spans generalizing chart steps with
  | nil =>
      obtain rfl : steps = [] := List.prefix_nil.mp reached
      exact ⟨arranged, rfl, rfl⟩
  | cons span rest ih =>
      obtain ⟨⟨spanProper, spanWithin⟩, restProper⟩ :=
        List.forall_mem_cons.mp proper
      obtain ⟨before, restOrdered⟩ := List.pairwise_cons.mp ordered
      obtain ⟨spanLast, restLast⟩ := List.forall_mem_cons.mp last
      obtain ⟨opened, extended, appends⟩ :=
        arranged.openStep wellFormed spanProper spanWithin spanLast
      -- No step has been made, or one, or both steps on the first span.
      rw [List.flatMap_cons, List.cons_append, List.prefix_cons_iff] at reached
      obtain rfl | ⟨steps, rfl, reached⟩ := reached
      · exact ⟨arranged, rfl, rfl⟩
      rw [List.cons_append, List.prefix_cons_iff] at reached
      obtain rfl | ⟨steps, rfl, reached⟩ := reached
      · exact ⟨opened, extended.grammar_eq, extended.words_eq⟩
      have openedLast : ∀ other ∈ (chart.step (Chart.openStep span)).spans,
          other.NotAfter span := by
        intro other member
        rcases appends.eq_or_mem member with rfl | earlier
        · exact .refl other
        · exact (spanLast other earlier).notAfter
      obtain ⟨closed, closedExtends, closedAppends⟩ :=
        opened.closeUnits (extended.grammar_eq ▸ wellFormed) spanProper
          (extended.words_eq ▸ spanWithin) openedLast
      have both := extended.trans closedExtends
      have closedLast : ∀ later ∈ rest,
          ∀ other ∈ ((chart.step (Chart.openStep span)).closeUnits span).spans,
            other.Before later := by
        intro later later_mem other member
        rcases (appends.trans closedAppends).eq_or_mem member with
          rfl | earlier
        · exact before later later_mem
        · exact restLast later later_mem other earlier
      obtain ⟨final, grammarEq, wordsEq⟩ := ih closed
        (both.grammar_eq ▸ wellFormed)
        (fun later member => both.words_eq ▸ restProper later member)
        restOrdered closedLast reached
      exact ⟨final, grammarEq.trans both.grammar_eq,
        wordsEq.trans both.words_eq⟩

/-- The chart is well arranged after every step of its filling. -/
theorem wellArranged_of_isPrefix {grammar : Grammar}
    (wellFormed : grammar.WellFormed) (words : Array String)
    {steps : List FillStep} (reached : steps <+: fillSteps words.size) :
    (steps.foldl step (empty grammar words)).WellArranged ∧
      (steps.foldl step (empty grammar words)).grammar = grammar ∧
      (steps.foldl step (empty grammar words)).words = words := by
  rw [fillSteps_eq] at reached
  exact (wellArranged_empty grammar words).run wellFormed
    (fun span member => mem_fillSpans.mp member)
    (pairwise_fillSpans words.size) (by simp [spans, empty]) reached

section Cells

variable {cell : Cell} {derivation : Derivation}

theorem WellArranged.nodup_cell (arranged : chart.WellArranged)
    (opened : chart.cells[number]? = some cell) :
    cell.derivations.toList.Nodup := by
  have listed := arranged.nodup (arranged.indexed.admits opened)
  rwa [derivationsAt_of_cellAt? (arranged.indexed.cellAt?_eq opened) opened]
    at listed

theorem WellArranged.builds_cell (arranged : chart.WellArranged)
    (opened : chart.cells[number]? = some cell)
    (member : derivation ∈ cell.derivations.toList) :
    chart.Builds cell.span cell.symbol derivation := by
  refine arranged.builds (arranged.indexed.admits opened) ?_
  rwa [derivationsAt_of_cellAt? (arranged.indexed.cellAt?_eq opened) opened]

theorem WellArranged.notAfter_of_le (arranged : chart.WellArranged)
    {number' : Nat} {cell' : Cell} (le : number ≤ number')
    (opened : chart.cells[number]? = some cell)
    (opened' : chart.cells[number']? = some cell') :
    cell.span.NotAfter cell'.span := by
  rcases Nat.lt_or_eq_of_le le with lower | rfl
  · have first : chart.spans[number]? = some cell.span := by
      rw [getElem?_spans, opened, Option.map_some]
    have second : chart.spans[number']? = some cell'.span := by
      rw [getElem?_spans, opened', Option.map_some]
    obtain ⟨inside, firstEq⟩ := List.getElem?_eq_some_iff.mp first
    obtain ⟨inside', secondEq⟩ := List.getElem?_eq_some_iff.mp second
    have := List.pairwise_iff_getElem.mp arranged.ordered number number' inside
      inside' lower
    rwa [firstEq, secondEq] at this
  · obtain rfl := Option.some.inj (opened.symm.trans opened')
    exact .refl cell.span

/-- A derivation with two children or more has only cells below its own. -/
theorem WellArranged.child_lt (arranged : chart.WellArranged)
    (wellFormed : chart.grammar.WellFormed)
    (opened : chart.cells[number]? = some cell)
    (member : derivation ∈ cell.derivations.toList)
    (several : 2 ≤ derivation.children.length) {child : Nat}
    (isChild : child ∈ derivation.children) : child < number := by
  have admitted := arranged.indexed.admits opened
  cases arranged.builds_cell opened member with
  | lexical => simp at isChild
  | @syntactic production rhs children numbered nonempty tiled =>
      obtain ⟨start, stop, symbol, startLe, properPart, stopLe, room, listed,
        found⟩ := tiled.exists_of_mem isChild
      have childAdmitted : chart.Admits ⟨start, stop⟩ symbol :=
        admits_of_within (Nat.le_of_lt properPart)
          (Nat.le_trans stopLe admitted.stop_le)
          ((wellFormed.known numbered).2 symbol listed)
      obtain ⟨childCell, childOpened, childSpan, _⟩ :=
        arranged.indexed.exists_cell childAdmitted found
      have lengthEq := tiled.length_eq
      dsimp only at several
      -- The other children leave fewer words for this one than the cell has.
      have shorter : childCell.span.length < cell.span.length := by
        rw [childSpan, Span.length]
        dsimp only
        omega
      by_contra notLower
      rcases arranged.notAfter_of_le (Nat.le_of_not_lt notLower) opened
        childOpened with less | ⟨same, _⟩
      · omega
      · omega

end Cells

end Chart

end Constituency
