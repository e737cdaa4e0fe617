import Constituency.Chart.Fill
import Constituency.Proofs.Chart.Arena
import Mathlib.Data.List.Basic

/-!
# The splits of a span

Cells tile a span for a sequence of nonterminals if there is one cell for each
of them, in this order, and their spans are not empty, lie side by side and fill
the span.  The enumeration of splits lists exactly these sequences of cells, by
increasing split points.
-/

namespace Constituency

namespace Chart

/-- Cells for the given symbols that tile a span from left to right.  What is
found for a symbol on a span is its cell there. -/
inductive Tiled {α : Type} (find : Span → α → Option Nat) :
    List α → Span → List Nat → Prop
  | nil (place : Nat) : Tiled find [] ⟨place, place⟩ []
  | cons {start middle stop cell : Nat} {symbol : α} {rest : List α}
      {cells : List Nat} (proper : start < middle)
      (found : find ⟨start, middle⟩ symbol = some cell)
      (below : Tiled find rest ⟨middle, stop⟩ cells) :
      Tiled find (symbol :: rest) ⟨start, stop⟩ (cell :: cells)

/-- The place at which the words of a cell end. -/
def cellStop (chart : Chart) (number : Nat) : Nat :=
  match chart.cells[number]? with
  | none => 0
  | some cell => cell.span.stop

/-- The places at which the words of neighbouring cells end. -/
def splitPoints (chart : Chart) (children : List Nat) : List Nat :=
  children.map chart.cellStop

theorem Indexed.cellStop_eq {chart : Chart} (indexed : chart.Indexed)
    {span : Span} {symbol number : Nat} (admitted : chart.Admits span symbol)
    (found : chart.cellAt? span symbol = some number) :
    chart.cellStop number = span.stop := by
  obtain ⟨cell, opened, rfl, _⟩ := indexed.exists_cell admitted found
  simp [cellStop, opened]

namespace Tiled

variable {α : Type} {find other : Span → α → Option Nat} {rhs : List α}
variable {span : Span} {cells : List Nat}

theorem length_eq (tiled : Tiled find rhs span cells) :
    cells.length = rhs.length := by
  induction tiled with
  | nil => rfl
  | cons _ _ _ ih => simp [ih]

theorem length_le (tiled : Tiled find rhs span cells) :
    span.start + rhs.length ≤ span.stop := by
  induction tiled with
  | nil => simp
  | cons proper found below ih =>
      simp only [List.length_cons] at ih ⊢
      omega

/-- Cells still tile the span if each is still found, as long as it lies within the
span and leaves a word for each of the other symbols. -/
theorem mono (tiled : Tiled find rhs span cells)
    (kept : ∀ (start stop cell : Nat) (symbol : α), span.start ≤ start →
      start < stop → stop ≤ span.stop →
      stop - start + rhs.length ≤ span.length + 1 → symbol ∈ rhs →
      find ⟨start, stop⟩ symbol = some cell →
      other ⟨start, stop⟩ symbol = some cell) :
    Tiled other rhs span cells := by
  induction tiled with
  | nil => exact .nil _
  | @cons start middle stop cell symbol rest cells proper found below ih =>
      have room := below.length_le
      simp only [Span.length, List.length_cons] at kept ih room
      refine .cons proper ?_ (ih fun start' stop' cell' symbol' startLe proper'
        stopLe room' member => ?_)
      · exact kept start middle cell symbol (Nat.le_refl _) proper (by omega)
          (by omega) (by simp) found
      · exact kept start' stop' cell' symbol' (by omega) proper' stopLe
          (by omega) (by simp [member])

/-- Every cell that takes part has a span within the tiled one, and leaves a word
for each of the others. -/
theorem exists_of_mem (tiled : Tiled find rhs span cells) {cell : Nat}
    (member : cell ∈ cells) :
    ∃ (start stop : Nat) (symbol : α), span.start ≤ start ∧ start < stop ∧
      stop ≤ span.stop ∧ stop - start + rhs.length ≤ span.length + 1 ∧
      symbol ∈ rhs ∧ find ⟨start, stop⟩ symbol = some cell := by
  induction tiled with
  | nil => simp at member
  | @cons start middle stop first symbol rest cells proper found below ih =>
      have room := below.length_le
      simp only [Span.length, List.length_cons] at ih room ⊢
      rcases List.mem_cons.mp member with rfl | member
      · exact ⟨start, middle, symbol, by omega, proper, by omega, by omega,
          by simp, found⟩
      · obtain ⟨start', stop', symbol', startLe, proper', stopLe, room', member',
          found'⟩ := ih member
        exact ⟨start', stop', symbol', by omega, proper', stopLe, by omega,
          by simp [member'], found'⟩

end Tiled

variable {chart later : Chart} {span : Span} {rhs children : List Nat}

/-- The splits of a span without backtracking: of each cell for the first nonterminal,
with every split of what remains. -/
def tilings (find : Span → Nat → Option Nat) : List Nat → Span → List (List Nat)
  | [], span => if span.start = span.stop then [[]] else []
  | symbol :: rest, span =>
      (List.range' (span.start + 1)
          (span.stop - rest.length - span.start)).flatMap fun middle =>
        match find ⟨span.start, middle⟩ symbol with
        | none => []
        | some cell =>
            (tilings find rest ⟨middle, span.stop⟩).map (cell :: ·)

theorem mem_tilings {find : Span → Nat → Option Nat} :
    children ∈ tilings find rhs span ↔ Tiled find rhs span children := by
  induction rhs generalizing span children with
  | nil =>
      obtain ⟨start, stop⟩ := span
      rw [tilings]
      constructor
      · intro member
        split at member
        · rename_i same
          dsimp only at same
          subst stop
          obtain rfl := List.mem_singleton.mp member
          exact .nil start
        · simp at member
      · intro tiled
        cases tiled
        simp
  | cons symbol rest ih =>
      obtain ⟨start, stop⟩ := span
      simp only [tilings, List.mem_flatMap, List.mem_range'_1]
      constructor
      · rintro ⟨middle, ⟨proper, _⟩, member⟩
        split at member
        · simp at member
        · rename_i cell found
          obtain ⟨cells, member', rfl⟩ := List.mem_map.mp member
          exact .cons (by omega) found (ih.mp member')
      · intro tiled
        rcases tiled with _ | ⟨proper, found, below⟩
        rename_i middle cell cells
        have room := below.length_le
        dsimp only at room
        refine ⟨middle, by omega, ?_⟩
        rw [found]
        exact List.mem_map.mpr ⟨cells, ih.mpr below, rfl⟩

/-- If what is found on a span has a key that tells where the span ends, tilings are
listed by increasing keys. -/
theorem pairwise_tilings {find : Span → Nat → Option Nat} {key : Nat → Nat}
    (ends : ∀ (start stop symbol cell : Nat), start < stop → stop ≤ span.stop →
      symbol ∈ rhs → find ⟨start, stop⟩ symbol = some cell → key cell = stop) :
    (tilings find rhs span).Pairwise fun first second =>
      first.map key < second.map key := by
  induction rhs generalizing span with
  | nil =>
      rw [tilings]
      split
      · exact List.pairwise_singleton ..
      · exact .nil
  | cons symbol rest ih =>
      obtain ⟨start, stop⟩ := span
      dsimp only at ends
      rw [tilings]
      refine List.pairwise_flatMap.mpr ⟨fun middle member => ?_, ?_⟩
      · split
        · exact .nil
        · refine List.Pairwise.map _ (fun first second lower => ?_)
            (ih fun start' stop' symbol' cell' proper stopLe member' =>
              ends start' stop' symbol' cell' proper stopLe (by simp [member']))
          rw [List.map_cons, List.map_cons, List.cons_lt_cons_iff]
          exact .inr ⟨rfl, lower⟩
      · refine List.Pairwise.imp_of_mem (fun {middle middle'} member member' lower
          first firstMember second secondMember => ?_) List.pairwise_lt_range'
        simp only [List.mem_range'_1] at member member'
        split at firstMember
        · simp at firstMember
        · rename_i cell found
          split at secondMember
          · simp at secondMember
          · rename_i cell' found'
            obtain ⟨cells, _, rfl⟩ := List.mem_map.mp firstMember
            obtain ⟨cells', _, rfl⟩ := List.mem_map.mp secondMember
            rw [List.map_cons, List.map_cons, List.cons_lt_cons_iff,
              ends start middle symbol cell (by omega) (by omega) (by simp) found,
              ends start middle' symbol cell' (by omega) (by omega) (by simp)
                found']
            exact .inl lower

/-- If every step of a loop lists some sequences after the chosen cells, and gives back
all others, so does the loop. -/
private theorem foldlM_listing {chosen : Array Nat}
    {step : Array Nat × Array (List Nat) → Nat →
      Option (Array Nat × Array (List Nat))}
    {parts : Nat → List (List Nat)} {middles : List Nat}
    (lists : ∀ middle ∈ middles, ∀ found, step (chosen, found) middle =
      some (chosen, found ++
        ((parts middle).map (chosen.toList ++ ·)).toArray))
    (found : Array (List Nat)) :
    middles.foldlM step (chosen, found) = some (chosen, found ++
      ((middles.flatMap parts).map (chosen.toList ++ ·)).toArray) := by
  induction middles generalizing found with
  | nil => simp
  | cons middle rest ih =>
      rw [List.foldlM_cons, lists middle (by simp)]
      refine (ih (fun middle member => lists middle (by simp [member])) _).trans ?_
      simp

/-- Where no look-up fails and there is a word for each nonterminal, backtracking
lists the tilings after the chosen cells, and keeps these as they are. -/
theorem collect_eq_some {find : Span → Nat → Option (Option Nat)}
    {cellOf : Span → Nat → Option Nat}
    (room : span.start + rhs.length ≤ span.stop)
    (finds : ∀ (start stop symbol : Nat), span.start ≤ start → start < stop →
      stop ≤ span.stop → symbol ∈ rhs →
      find ⟨start, stop⟩ symbol = some (cellOf ⟨start, stop⟩ symbol))
    (chosen : Array Nat) (found : Array (List Nat)) :
    collect find rhs span chosen found = some (chosen, found ++
      ((tilings cellOf rhs span).map (chosen.toList ++ ·)).toArray) := by
  induction rhs generalizing span chosen found with
  | nil =>
      rw [collect, tilings]
      split <;> simp
  | cons symbol rest ih =>
      obtain ⟨start, stop⟩ := span
      simp only [List.length_cons] at room finds
      have enough : difference? stop rest.length = some (stop - rest.length) :=
        if_pos (by omega)
      rw [collect, enough, Option.bind_some, tilings]
      refine foldlM_listing (fun middle member found => ?_) found
      rw [List.mem_range'_1] at member
      dsimp only at member ⊢
      rw [finds start middle symbol (Nat.le_refl _) (by omega) (by omega)
        (by simp), Option.bind_some]
      cases cellOf ⟨start, middle⟩ symbol with
      | none => simp
      | some cell =>
          dsimp only
          rw [ih (by dsimp only; omega)
            fun start' stop' symbol' startLe proper stopLe member' =>
              finds start' stop' symbol' (by dsimp only at startLe; omega) proper
                stopLe (by simp [member'])]
          simp [Function.comp_def]

/-- The splits of a span are its tilings, also where words are too few. -/
theorem splits_eq_tilings (chart : Chart) (rhs : List Nat) (span : Span) :
    chart.splits rhs span = tilings chart.cellAt? rhs span := by
  by_cases room : span.start + rhs.length ≤ span.stop
  · have listed : collect (fun span symbol => some (chart.cellAt? span symbol))
        rhs span #[] #[] = some (#[], #[] ++ ((tilings chart.cellAt? rhs
          span).map ((#[] : Array Nat).toList ++ ·)).toArray) :=
      collect_eq_some room (fun _ _ _ _ _ _ _ => rfl) _ _
    simp [splits, listed]
  · cases rhs with
    | nil =>
        by_cases same : span.start = span.stop
        · simp [splits, collect, tilings, same]
        · simp [splits, collect, tilings, same]
    | cons symbol rest =>
        simp only [List.length_cons, Nat.not_le] at room
        have empty : span.stop - rest.length - span.start = 0 := by omega
        by_cases enough : rest.length ≤ span.stop
        · simp [splits, collect, tilings, difference?, enough, empty]
        · simp [splits, collect, tilings, difference?, enough, empty]

theorem mem_splits :
    children ∈ chart.splits rhs span ↔
      Tiled chart.cellAt? rhs span children := by
  rw [splits_eq_tilings, mem_tilings]

/-- The splits depend only on the cells within the span that leave a word for
each of the other nonterminals. -/
theorem splits_congr
    (agree : ∀ (start stop symbol : Nat), span.start ≤ start → start < stop →
      stop ≤ span.stop → stop - start + rhs.length ≤ span.length + 1 →
      symbol ∈ rhs →
      later.cellAt? ⟨start, stop⟩ symbol = chart.cellAt? ⟨start, stop⟩ symbol) :
    later.splits rhs span = chart.splits rhs span := by
  rw [splits_eq_tilings, splits_eq_tilings]
  induction rhs generalizing span with
  | nil => rw [tilings, tilings]
  | cons symbol rest ih =>
      obtain ⟨start, stop⟩ := span
      simp only [Span.length, List.length_cons] at agree ih
      rw [tilings, tilings]
      apply List.flatMap_congr
      intro middle member
      simp only [List.mem_range'_1] at member
      rw [agree start middle symbol (Nat.le_refl _) (by omega) (by omega)
        (by omega) (by simp)]
      rw [ih fun start' stop' symbol' startLe proper stopLe room member' =>
        agree start' stop' symbol' (by dsimp only at startLe; omega) proper
          stopLe (by dsimp only at room; omega) (by simp [member'])]

theorem pairwise_splits (indexed : chart.Indexed)
    (stopLe : span.stop ≤ chart.words.size)
    (known : ∀ symbol ∈ rhs, symbol < chart.grammar.symbolCount) :
    (chart.splits rhs span).Pairwise fun first second =>
      chart.splitPoints first < chart.splitPoints second := by
  rw [splits_eq_tilings]
  exact pairwise_tilings fun start stop symbol cell proper within member found =>
    indexed.cellStop_eq (admits_of_within (Nat.le_of_lt proper)
      (Nat.le_trans within stopLe) (known symbol member)) found

end Chart

end Constituency
