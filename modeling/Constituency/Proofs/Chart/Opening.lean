import Constituency.Proofs.Chart.Extension
import Constituency.Proofs.Chart.Split
import Constituency.Proofs.Grammar.WellFormed

/-!
# Opening the cells of a span

The first step on a span adds every derivation on it that is not by a unit
production: a single word is scanned, and a longer span is combined from its
splits.  Both add each derivation once, in the order of productions and, for one
production, of split points.
-/

namespace Constituency

namespace Chart

/-- The order in which the derivations of a cell are listed: by their
productions, and for one production by the places at which the children end. -/
def Earlier (chart : Chart) (first second : Derivation) : Prop :=
  first.production < second.production ∨
    first.production = second.production ∧
      chart.splitPoints first.children < chart.splitPoints second.children

theorem Earlier.ne {chart : Chart} {first second : Derivation}
    (earlier : chart.Earlier first second) : first ≠ second := by
  rintro rfl
  rcases earlier with lower | ⟨_, shorter⟩
  · exact Nat.lt_irrefl _ lower
  · exact List.lt_irrefl _ shorter

/-- A way for a nonterminal to derive the words of a span from cells of the
chart. -/
inductive Builds (chart : Chart) (span : Span) (symbol : Nat) :
    Derivation → Prop
  /-- The span is a single word, and the production has this word on the
  right. -/
  | lexical {production : Nat} {word : String}
      (numbered : chart.grammar.numbered[production]? = some ⟨symbol, []⟩)
      (listed : production ∈ chart.grammar.lexicalFor word)
      (placed : chart.words[span.start]? = some word)
      (single : span.stop = span.start + 1) :
      Builds chart span symbol ⟨production, []⟩
  /-- Cells for the nonterminals on the right tile the span. -/
  | syntactic {production : Nat} {rhs children : List Nat}
      (numbered : chart.grammar.numbered[production]? = some ⟨symbol, rhs⟩)
      (nonempty : rhs ≠ [])
      (tiled : Tiled chart.cellAt? rhs span children) :
      Builds chart span symbol ⟨production, children⟩

def IsUnit (chart : Chart) (derivation : Derivation) : Prop :=
  ∃ lhs target, chart.grammar.numbered[derivation.production]? =
    some ⟨lhs, [target]⟩

/-- The derivations on a span other than by unit productions, each with its
nonterminal, in the order in which cells list them. -/
structure Opens (chart : Chart) (span : Span)
    (entries : List (Nat × Derivation)) : Prop where
  admits : ∀ entry ∈ entries, chart.Admits span entry.1
  pairwise : entries.Pairwise fun first second =>
    chart.Earlier first.2 second.2
  mem_iff : ∀ symbol derivation, (symbol, derivation) ∈ entries ↔
    chart.Builds span symbol derivation ∧ ¬ chart.IsUnit derivation

def lexicalEntries (grammar : Grammar) (productions : List Nat) :
    List (Nat × Derivation) :=
  productions.filterMap fun production =>
    grammar.numbered[production]?.map fun numbered =>
      (numbered.lhs, ⟨production, []⟩)

private theorem foldl_add_eq_addAll_lexicalEntries (chart : Chart)
    (span : Span) (productions : List Nat) :
    productions.foldl
      (fun chart production =>
        match chart.grammar.numbered[production]? with
        | none => chart
        | some numbered => chart.add span numbered.lhs ⟨production, []⟩)
      chart =
      chart.addAll span (lexicalEntries chart.grammar productions) := by
  induction productions generalizing chart with
  | nil => rfl
  | cons production rest ih =>
      rw [List.foldl_cons, ih]
      cases found : chart.grammar.numbered[production]? with
      | none => simp [lexicalEntries, found]
      | some numbered => simp [lexicalEntries, found]

theorem scan_eq_addAll {chart : Chart} {position : Nat} {word : String}
    (placed : chart.words[position]? = some word) :
    chart.scan position = chart.addAll ⟨position, position + 1⟩
      (lexicalEntries chart.grammar (chart.grammar.lexicalFor word)) := by
  rw [scan, placed]
  exact foldl_add_eq_addAll_lexicalEntries ..

theorem mem_lexicalEntries {grammar : Grammar} {productions : List Nat}
    {symbol : Nat} {derivation : Derivation} :
    (symbol, derivation) ∈ lexicalEntries grammar productions ↔
      ∃ production ∈ productions, ∃ rhs,
        grammar.numbered[production]? = some ⟨symbol, rhs⟩ ∧
        derivation = ⟨production, []⟩ := by
  simp only [lexicalEntries, List.mem_filterMap, Option.map_eq_some_iff,
    Prod.mk.injEq]
  constructor
  · rintro ⟨production, member, ⟨lhs, rhs⟩, found, rfl, rfl⟩
    exact ⟨production, member, rhs, found, rfl⟩
  · rintro ⟨production, member, rhs, found, rfl⟩
    exact ⟨production, member, _, found, rfl, rfl⟩

theorem opens_lexicalEntries {chart : Chart}
    (wellFormed : chart.grammar.WellFormed) {position : Nat} {word : String}
    (placed : chart.words[position]? = some word) :
    chart.Opens ⟨position, position + 1⟩
      (lexicalEntries chart.grammar (chart.grammar.lexicalFor word)) := by
  have within : position < chart.words.size :=
    (Array.getElem?_eq_some_iff.mp placed).1
  refine ⟨?_, ?_, ?_⟩
  · rintro ⟨symbol, derivation⟩ member
    obtain ⟨production, _, rhs, found, _⟩ := mem_lexicalEntries.mp member
    exact ⟨Nat.le_of_lt within, within, (wellFormed.known found).1⟩
  · have increasing : (chart.grammar.lexicalFor word).Pairwise (· < ·) := by
      rw [wellFormed.lexicalFor_eq]
      exact List.pairwise_findIdxs
    refine List.Pairwise.filterMap _ ?_ increasing
    intro first second lower entry member entry' member'
    obtain ⟨_, _, rfl⟩ := Option.map_eq_some_iff.mp member
    obtain ⟨_, _, rfl⟩ := Option.map_eq_some_iff.mp member'
    exact .inl lower
  · intro symbol derivation
    rw [mem_lexicalEntries]
    constructor
    · rintro ⟨production, listed, rhs, found, rfl⟩
      obtain ⟨lhs, _, found', _⟩ := wellFormed.mem_lexicalFor_iff.mp listed
      obtain ⟨_, rfl⟩ := Grammar.numbered_inj found found'
      refine ⟨.lexical found listed placed rfl, ?_⟩
      rintro ⟨_, _, unit⟩
      simp [found] at unit
    · rintro ⟨builds, notUnit⟩
      cases builds with
      | @lexical production word' numbered listed placed' _ =>
          have : word' = word := Option.some.inj (placed'.symm.trans placed)
          exact ⟨production, this ▸ listed, [], numbered, rfl⟩
      | @syntactic production rhs children numbered nonempty tiled =>
          have room := tiled.length_le
          rcases rhs with _ | ⟨target, _ | ⟨second, rest⟩⟩
          · exact absurd rfl nonempty
          · exact absurd ⟨symbol, target, numbered⟩ notUnit
          · simp only [List.length_cons] at room
            omega

def productionEntries (chart : Chart) (span : Span) (production : Nat) :
    List (Nat × Derivation) :=
  match chart.grammar.numbered[production]? with
  | none => []
  | some numbered =>
      if 2 ≤ numbered.rhs.length ∧ numbered.rhs.length ≤ span.length then
        (chart.splits numbered.rhs span).map fun children =>
          (numbered.lhs, ⟨production, children⟩)
      else
        []

theorem combineProduction_eq_addAll (chart : Chart) (span : Span)
    (production : Nat) :
    chart.combineProduction span production =
      chart.addAll span (chart.productionEntries span production) := by
  unfold combineProduction productionEntries
  cases chart.grammar.numbered[production]? with
  | none => rfl
  | some numbered =>
      dsimp only
      split
      · rw [addAll, List.foldl_map]
      · rfl

theorem mem_productionEntries {chart : Chart} {span : Span}
    {production symbol : Nat} {derivation : Derivation} :
    (symbol, derivation) ∈ chart.productionEntries span production ↔
      ∃ rhs children, chart.grammar.numbered[production]? = some ⟨symbol, rhs⟩ ∧
        2 ≤ rhs.length ∧ Tiled chart.cellAt? rhs span children ∧
        derivation = ⟨production, children⟩ := by
  unfold productionEntries
  split
  · rename_i unnumbered
    simp [unnumbered]
  · rename_i numbered found
    obtain ⟨lhs, rhs⟩ := numbered
    split
    · rename_i long
      simp only [List.mem_map, mem_splits, Prod.mk.injEq]
      constructor
      · rintro ⟨children, tiled, rfl, rfl⟩
        exact ⟨rhs, children, found, long.1, tiled, rfl⟩
      · rintro ⟨rhs', children, found', _, tiled, rfl⟩
        obtain ⟨rfl, rfl⟩ := Grammar.numbered_inj found found'
        exact ⟨children, tiled, rfl, rfl⟩
    · rename_i short
      simp only [List.not_mem_nil, false_iff]
      rintro ⟨rhs', children, found', long, tiled, _⟩
      obtain ⟨rfl, rfl⟩ := Grammar.numbered_inj found found'
      have room := tiled.length_le
      refine short ⟨long, ?_⟩
      rw [Span.length]
      dsimp only
      omega

def combineEntries (chart : Chart) (span : Span) : List (Nat × Derivation) :=
  (List.range chart.grammar.numbered.size).flatMap
    (chart.productionEntries span)

theorem mem_combineEntries {chart : Chart} {span : Span} {symbol : Nat}
    {derivation : Derivation} :
    (symbol, derivation) ∈ chart.combineEntries span ↔
      ∃ production rhs children,
        chart.grammar.numbered[production]? = some ⟨symbol, rhs⟩ ∧
        2 ≤ rhs.length ∧ Tiled chart.cellAt? rhs span children ∧
        derivation = ⟨production, children⟩ := by
  simp only [combineEntries, List.mem_flatMap, List.mem_range,
    mem_productionEntries]
  constructor
  · rintro ⟨production, _, rhs, children, found⟩
    exact ⟨production, rhs, children, found⟩
  · rintro ⟨production, rhs, children, found, rest⟩
    exact ⟨production, (Array.getElem?_eq_some_iff.mp found).1, rhs, children,
      found, rest⟩

/-- What has been added on a span has no influence on how longer productions
split the span. -/
theorem Extends.productionEntries_eq {chart later : Chart} {span : Span}
    (extended : chart.Extends later span)
    (wellFormed : chart.grammar.WellFormed)
    (within : span.stop ≤ chart.words.size) (production : Nat) :
    later.productionEntries span production =
      chart.productionEntries span production := by
  unfold productionEntries
  rw [extended.grammar_eq]
  cases found : chart.grammar.numbered[production]? with
  | none => rfl
  | some numbered =>
      dsimp only
      split
      · rename_i long
        rw [splits_congr]
        intro start stop symbol startLe proper stopLe room member
        have known := (wellFormed.known found).2 symbol member
        refine extended.cellAt?_elsewhere (admits_of_within
          (Nat.le_of_lt proper) (Nat.le_trans stopLe within) known) ?_
        rintro rfl
        simp only [Span.length] at room
        omega
      · rfl

theorem combine_eq_addAll {chart : Chart} {span : Span}
    (indexed : chart.Indexed) (wellFormed : chart.grammar.WellFormed)
    (ordered : span.start ≤ span.stop)
    (within : span.stop ≤ chart.words.size) :
    chart.combine span = chart.addAll span (chart.combineEntries span) := by
  -- Productions are applied to a chart that grows, but they read only spans
  -- that stay as they are.
  have run : ∀ (productions : List Nat) {later : Chart},
      chart.Extends later span →
      productions.foldl
        (fun chart production => chart.combineProduction span production)
        later =
        later.addAll span
          (productions.flatMap (chart.productionEntries span)) := by
    intro productions
    induction productions with
    | nil => exact fun _ => rfl
    | cons production rest ih =>
        intro later extended
        have admitted : ∀ entry ∈ chart.productionEntries span production,
            later.Admits span entry.1 := by
          rintro ⟨symbol, derivation⟩ member
          obtain ⟨rhs, children, found, _⟩ := mem_productionEntries.mp member
          exact extended.admits_iff.mpr
            (admits_of_within ordered within (wellFormed.known found).1)
        rw [List.foldl_cons, combineProduction_eq_addAll,
          extended.productionEntries_eq wellFormed within,
          ih (extended.trans (extends_addAll extended.indexed admitted)),
          List.flatMap_cons, addAll_append]
  exact run _ (.refl indexed span)

theorem opens_combineEntries {chart : Chart} {span : Span}
    (indexed : chart.Indexed) (wellFormed : chart.grammar.WellFormed)
    (long : span.start + 2 ≤ span.stop)
    (within : span.stop ≤ chart.words.size) :
    chart.Opens span (chart.combineEntries span) := by
  refine ⟨?_, ?_, ?_⟩
  · rintro ⟨symbol, derivation⟩ member
    obtain ⟨production, rhs, children, found, _⟩ :=
      mem_combineEntries.mp member
    exact ⟨by omega, within, (wellFormed.known found).1⟩
  · refine List.pairwise_flatMap.mpr ⟨fun production _ => ?_, ?_⟩
    · unfold productionEntries
      cases found : chart.grammar.numbered[production]? with
      | none => exact .nil
      | some numbered =>
          dsimp only
          split
          · refine List.Pairwise.map _ (fun first second lower => ?_)
              (pairwise_splits indexed within (wellFormed.known found).2)
            exact .inr ⟨rfl, lower⟩
          · exact .nil
    · apply List.pairwise_lt_range.imp
      rintro first second lower ⟨symbol, derivation⟩ member
        ⟨symbol', derivation'⟩ member'
      obtain ⟨_, _, _, _, _, rfl⟩ := mem_productionEntries.mp member
      obtain ⟨_, _, _, _, _, rfl⟩ := mem_productionEntries.mp member'
      exact .inl lower
  · intro symbol derivation
    rw [mem_combineEntries]
    constructor
    · rintro ⟨production, rhs, children, found, longer, tiled, rfl⟩
      refine ⟨.syntactic found ?_ tiled, ?_⟩
      · rintro rfl
        simp at longer
      · rintro ⟨lhs, target, unit⟩
        obtain ⟨_, rfl⟩ := Grammar.numbered_inj found unit
        simp at longer
    · rintro ⟨builds, notUnit⟩
      cases builds with
      | lexical numbered listed placed single => omega
      | @syntactic production rhs children numbered nonempty tiled =>
          rcases rhs with _ | ⟨target, _ | ⟨second, rest⟩⟩
          · exact absurd rfl nonempty
          · exact absurd ⟨symbol, target, numbered⟩ notUnit
          · exact ⟨production, _, children, numbered, by simp, tiled, rfl⟩

end Chart

end Constituency
