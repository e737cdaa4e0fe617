import Constituency.Proofs.Parse.Chart

/-!
# The enumeration of splits

Backtracking lists just the sequences of cells that tile a span, by increasing
split points, and leaves the chosen cells as they were.  As it always leaves a word
for each nonterminal that remains, it never runs out of words.
-/

namespace Constituency

namespace Chart

variable {chart : Chart} {span : Span} {rhs places cells : List Nat}

/-- Cells for the given nonterminals on neighbouring spans, which end at the given
places, the last of them at the end of the whole span. -/
structure SplitAt (chart : Chart) (rhs : List Nat) (span : Span)
    (places cells : List Nat) : Prop where
  length_places : places.length = rhs.length
  length_cells : cells.length = rhs.length
  increasing : (span.start :: places).Pairwise (· < ·)
  getLast?_eq : (span.start :: places).getLast? = some span.stop
  found : ∀ (index : Nat) {start stop symbol cell : Nat},
    (span.start :: places)[index]? = some start →
    places[index]? = some stop → rhs[index]? = some symbol →
    cells[index]? = some cell → chart.cellAt? ⟨start, stop⟩ symbol = some cell

theorem splitAt_nil (chart : Chart) {span : Span} (same : span.start = span.stop) :
    chart.SplitAt [] span [] [] where
  length_places := rfl
  length_cells := rfl
  increasing := List.pairwise_singleton ..
  getLast?_eq := congrArg some same
  found _ _ _ _ _ _ missing := by simp at missing

theorem SplitAt.nil_cases (split : chart.SplitAt [] span places cells) :
    places = [] ∧ cells = [] ∧ span.start = span.stop := by
  obtain rfl := List.eq_nil_of_length_eq_zero split.length_places
  exact ⟨rfl, List.eq_nil_of_length_eq_zero split.length_cells,
    Option.some.inj split.getLast?_eq⟩

theorem SplitAt.cons {start middle stop symbol cell : Nat} (proper : start < middle)
    (found : chart.cellAt? ⟨start, middle⟩ symbol = some cell)
    (below : chart.SplitAt rhs ⟨middle, stop⟩ places cells) :
    chart.SplitAt (symbol :: rhs) ⟨start, stop⟩ (middle :: places)
      (cell :: cells) where
  length_places := congrArg (· + 1) below.length_places
  length_cells := congrArg (· + 1) below.length_cells
  increasing := by
    refine List.pairwise_cons.mpr ⟨fun place member => ?_, below.increasing⟩
    rcases List.mem_cons.mp member with rfl | member
    · exact proper
    · exact Nat.lt_trans proper
        ((List.pairwise_cons.mp below.increasing).1 place member)
  getLast?_eq := below.getLast?_eq
  found := by
    rintro (_ | index) start' stop' symbol' cell' startAt stopAt symbolAt cellAt
    · obtain rfl := Option.some.inj startAt
      obtain rfl := Option.some.inj stopAt
      obtain rfl := Option.some.inj symbolAt
      obtain rfl := Option.some.inj cellAt
      exact found
    · exact below.found index startAt stopAt symbolAt cellAt

theorem SplitAt.cons_cases {symbol : Nat}
    (split : chart.SplitAt (symbol :: rhs) span places cells) :
    ∃ middle laterPlaces cell laterCells, places = middle :: laterPlaces ∧
      cells = cell :: laterCells ∧ span.start < middle ∧
      chart.cellAt? ⟨span.start, middle⟩ symbol = some cell ∧
      chart.SplitAt rhs ⟨middle, span.stop⟩ laterPlaces laterCells := by
  obtain ⟨lengthPlaces, lengthCells, increasing, last, found⟩ := split
  obtain ⟨middle, laterPlaces, rfl⟩ :=
    List.exists_cons_of_length_eq_add_one lengthPlaces
  obtain ⟨cell, laterCells, rfl⟩ :=
    List.exists_cons_of_length_eq_add_one lengthCells
  obtain ⟨before, laterIncreasing⟩ := List.pairwise_cons.mp increasing
  refine ⟨middle, laterPlaces, cell, laterCells, rfl, rfl,
    before middle (by simp), found 0 rfl rfl rfl rfl, ?_⟩
  exact ⟨Nat.succ.inj lengthPlaces, Nat.succ.inj lengthCells, laterIncreasing,
    last, fun index => found (index + 1)⟩

def placeAt? (chart : Chart) (span : Span) (symbol : Nat) : Option Nat :=
  (chart.cellAt? span symbol).map fun _ => span.stop

/-- The cells of a split tile the span, and so do the places at which they end. -/
theorem SplitAt.tiled (split : chart.SplitAt rhs span places cells) :
    Tiled chart.cellAt? rhs span cells ∧
      Tiled chart.placeAt? rhs span places := by
  induction rhs generalizing span places cells with
  | nil =>
      obtain ⟨start, stop⟩ := span
      obtain ⟨rfl, rfl, same⟩ := split.nil_cases
      dsimp only at same
      subst stop
      exact ⟨.nil start, .nil start⟩
  | cons symbol rest ih =>
      obtain ⟨middle, laterPlaces, cell, laterCells, rfl, rfl, proper, found,
        below⟩ := split.cons_cases
      obtain ⟨cellsTiled, placesTiled⟩ := ih below
      refine ⟨.cons proper found cellsTiled, .cons proper ?_ placesTiled⟩
      rw [placeAt?, found]
      rfl

theorem Tiled.exists_splitAt (tiled : Tiled chart.cellAt? rhs span cells) :
    ∃ places, chart.SplitAt rhs span places cells := by
  induction tiled with
  | nil place => exact ⟨[], splitAt_nil chart rfl⟩
  | cons proper found _ ih =>
      obtain ⟨places, below⟩ := ih
      exact ⟨_, below.cons proper found⟩

theorem forall₂_tilings (chart : Chart) (rhs : List Nat) (span : Span) :
    List.Forall₂ (chart.SplitAt rhs span) (tilings chart.placeAt? rhs span)
      (tilings chart.cellAt? rhs span) := by
  induction rhs generalizing span with
  | nil =>
      rw [tilings, tilings]
      split
      · rename_i same
        exact .cons (splitAt_nil chart same) .nil
      · exact .nil
  | cons symbol rest ih =>
      rw [tilings, tilings]
      refine List.rel_flatMap
        (R := fun middle middle' => middle = middle' ∧ span.start < middle)
        (List.forall₂_same.mpr fun middle member => ⟨rfl, ?_⟩) ?_
      · exact Nat.lt_of_succ_le (List.mem_range'_1.mp member).1
      · rintro middle _ ⟨rfl, proper⟩
        dsimp only [placeAt?]
        cases found : chart.cellAt? ⟨span.start, middle⟩ symbol with
        | none => exact .nil
        | some cell =>
            refine List.rel_map ?_ (ih ⟨middle, span.stop⟩)
            intro places cells below
            exact below.cons proper found

theorem pairwise_places (chart : Chart) (rhs : List Nat) (span : Span) :
    (tilings chart.placeAt? rhs span).Pairwise (· < ·) := by
  have keyed : (tilings chart.placeAt? rhs span).Pairwise fun first second =>
      first.map id < second.map id := by
    refine pairwise_tilings fun start stop symbol place _ _ _ found => ?_
    obtain ⟨_, _, rfl⟩ := Option.map_eq_some_iff.mp found
    rfl
  simpa using keyed

private theorem lt_of_concat_lt_concat {first second : List Nat} {place : Nat}
    (sameLength : first.length = second.length)
    (lower : first ++ [place] < second ++ [place]) : first < second := by
  induction first generalizing second with
  | nil =>
      obtain rfl := List.eq_nil_of_length_eq_zero sameLength.symm
      exact absurd lower (List.lt_irrefl _)
  | cons head tail ih =>
      cases second with
      | nil => simp at sameLength
      | cons head' tail' =>
          rw [List.cons_append, List.cons_append, List.cons_lt_cons_iff] at lower
          refine List.cons_lt_cons_iff.mpr (lower.imp_right ?_)
          exact fun rest => ⟨rest.1, ih (Nat.succ.inj sameLength) rest.2⟩

/-- As all splits end at the same place, they differ before it. -/
theorem SplitAt.dropLast_lt {laterPlaces laterCells : List Nat}
    (split : chart.SplitAt rhs span places cells)
    (later : chart.SplitAt rhs span laterPlaces laterCells) (nonempty : rhs ≠ [])
    (lower : places < laterPlaces) : places.dropLast < laterPlaces.dropLast := by
  have ends : ∀ {places cells : List Nat}, chart.SplitAt rhs span places cells →
      places.dropLast ++ [span.stop] = places := by
    intro places cells split
    refine List.dropLast_append_getLast? _ ?_
    have last := split.getLast?_eq
    cases places with
    | nil =>
        have := List.length_pos_of_ne_nil nonempty
        have := split.length_places
        simp at this
        omega
    | cons place places => rwa [List.getLast?_cons_cons] at last
  rw [← ends split, ← ends later] at lower
  refine lt_of_concat_lt_concat ?_ lower
  rw [List.length_dropLast, List.length_dropLast, split.length_places,
    later.length_places]

/-- Splits with one or more nonterminals, and a word for each of them, are listed
exactly, each of them once, in the order of their inner places.  Backtracking adds
them to what has been found, keeps the chosen cells, and never runs out of words. -/
theorem splits_exact (chart : Chart) (nonempty : rhs ≠ [])
    (room : rhs.length ≤ span.length) :
    (∀ (chosen : Array Nat) (found : Array (List Nat)),
      collect (fun span symbol => some (chart.cellAt? span symbol)) rhs span
          chosen found =
        some (chosen, found ++
          ((chart.splits rhs span).map (chosen.toList ++ ·)).toArray)) ∧
    (∀ cells, cells ∈ chart.splits rhs span ↔
      ∃ places, chart.SplitAt rhs span places cells) ∧
    (∃ listed : List (List Nat),
      List.Forall₂ (chart.SplitAt rhs span) listed (chart.splits rhs span) ∧
      (∀ places cells, chart.SplitAt rhs span places cells → places ∈ listed) ∧
      (listed.map List.dropLast).Pairwise (· < ·)) ∧
    (chart.Indexed → span.stop ≤ chart.words.size →
      (∀ symbol ∈ rhs, symbol < chart.grammar.symbolCount) →
      (chart.splits rhs span).Nodup) := by
  have listed := chart.forall₂_tilings rhs span
  rw [splits_eq_tilings]
  refine ⟨fun chosen found => ?_, fun cells => ?_, ?_, ?_⟩
  · have := List.length_pos_of_ne_nil nonempty
    rw [Span.length] at room
    exact collect_eq_some (by omega) (fun _ _ _ _ _ _ _ => rfl) chosen found
  · rw [mem_tilings]
    constructor
    · exact Tiled.exists_splitAt
    · rintro ⟨places, split⟩
      exact split.tiled.1
  · refine ⟨_, listed,
      fun places cells split => mem_tilings.mpr split.tiled.2, ?_⟩
    have exists_cells : ∀ places ∈ tilings chart.placeAt? rhs span,
        ∃ cells, chart.SplitAt rhs span places cells := by
      intro places member
      obtain ⟨index, known, rfl⟩ := List.mem_iff_getElem.mp member
      exact ⟨_, (List.forall₂_iff_get.mp listed).2 index known
        (listed.length_eq ▸ known)⟩
    refine List.pairwise_map.mpr
      ((chart.pairwise_places rhs span).imp_of_mem ?_)
    intro first second member member' lower
    obtain ⟨cells, split⟩ := exists_cells first member
    obtain ⟨cells', split'⟩ := exists_cells second member'
    exact split.dropLast_lt split' nonempty lower
  · intro indexed within known
    rw [← splits_eq_tilings]
    refine (pairwise_splits indexed within known).imp ?_
    rintro first second lower rfl
    exact List.lt_irrefl _ lower

/-- The two ways to split three words, of which the first cell is that of one word
and that of two. -/
theorem splits_exact_sequences :
    collect (fun span symbol =>
        some ((fill Grammar.sequences #["x", "x", "x"]).cellAt? span symbol))
      [0, 0] ⟨0, 3⟩ #[9] #[] = some (#[9], #[[9, 1, 7], [9, 6, 5]]) ∧
    ∃ places, (fill Grammar.sequences #["x", "x", "x"]).SplitAt [0, 0] ⟨0, 3⟩
      places [6, 5] := by
  have nonempty : [0, 0] ≠ ([] : List Nat) := by decide
  have room : [0, 0].length ≤ (⟨0, 3⟩ : Span).length := by decide
  have splits : (fill Grammar.sequences #["x", "x", "x"]).splits [0, 0] ⟨0, 3⟩ =
      [[1, 7], [6, 5]] := by
    decide +kernel
  obtain ⟨listed, mem_iff, _⟩ :=
    splits_exact (fill Grammar.sequences #["x", "x", "x"]) nonempty room
  constructor
  · rw [listed, splits]
    rfl
  · exact (mem_iff [6, 5]).mp (by rw [splits]; decide)

end Chart

end Constituency
