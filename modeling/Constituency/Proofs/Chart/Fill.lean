import Constituency.Proofs.Chart.Exact

/-!
# Filled charts

The spans of a sentence are filled from short to long.  No span is filled after
one that it lies within, so every span stays exact once it has been filled.  At
the end all spans are exact, and the empty spans have no cells.
-/

namespace Constituency

namespace Chart

/-- The spans of a sentence in the order in which they are filled. -/
def fillSpans (count : Nat) : List Span :=
  (List.range' 1 count).flatMap fun length =>
    (List.range (count + 1 - length)).map fun start => ⟨start, start + length⟩

def openStep (span : Span) : FillStep :=
  if span.length = 1 then .scan span.start else .combine span

def fillSpan (chart : Chart) (span : Span) : Chart :=
  (chart.step (openStep span)).step (.closeUnits span)

theorem fillSteps_eq (count : Nat) :
    fillSteps count =
      (fillSpans count).flatMap fun span =>
        [openStep span, .closeUnits span] := by
  cases count with
  | zero => rfl
  | succ count =>
      rw [fillSteps, fillSpans, List.range'_succ, List.flatMap_cons,
        List.flatMap_append, List.flatMap_map, Nat.add_sub_cancel,
        Nat.add_sub_cancel, List.flatMap_assoc]
      congr 1
      · simp [openStep, Span.length]
      · apply List.flatMap_congr
        intro length member
        have long : length ≠ 1 := by
          have := (List.mem_range'_1.mp member).1
          omega
        simp [List.flatMap_map, openStep, Span.length, long]

theorem fill_eq (grammar : Grammar) (words : Array String) :
    fill grammar words =
      (fillSpans words.size).foldl fillSpan (empty grammar words) := by
  rw [fill, fillSteps_eq, List.foldl_flatMap]
  rfl

theorem mem_fillSpans {count : Nat} {span : Span} :
    span ∈ fillSpans count ↔ span.start < span.stop ∧ span.stop ≤ count := by
  obtain ⟨start, stop⟩ := span
  simp only [fillSpans, List.mem_flatMap, List.mem_range'_1, List.mem_map,
    List.mem_range, Span.mk.injEq]
  constructor
  · rintro ⟨length, _, start', _, rfl, rfl⟩
    omega
  · rintro ⟨proper, within⟩
    exact ⟨stop - start, by omega, start, by omega, rfl, by omega⟩

/-- Spans are filled from short to long, and those of one length from left to
right. -/
theorem pairwise_fillSpans (count : Nat) :
    (fillSpans count).Pairwise Span.Before := by
  refine List.pairwise_flatMap.mpr ⟨fun length _ => ?_, ?_⟩
  · refine List.Pairwise.map _ ?_ List.pairwise_lt_range
    intro start start' lower
    exact .inr ⟨by simp [Span.length], lower⟩
  · refine List.Pairwise.imp ?_ List.pairwise_lt_range'
    rintro length length' shorter first member second member'
    obtain ⟨start, _, rfl⟩ := List.mem_map.mp member
    obtain ⟨start', _, rfl⟩ := List.mem_map.mp member'
    exact .inl (by simpa [Span.length] using shorter)

/-- No span is filled after one that it lies within. -/
theorem outside_fillSpans (count : Nat) :
    (fillSpans count).Pairwise fun first second => ¬ second.Within first := by
  refine (pairwise_fillSpans count).imp_of_mem ?_
  intro first second _ member before
  exact before.not_within (mem_fillSpans.mp member).1

variable {grammar : Grammar} {words : Array String} {chart : Chart}
variable {span : Span} {filled : List Span}

/-- The first step on a span adds the derivations on it that are not by unit
productions. -/
theorem exists_opens_openStep (indexed : chart.Indexed)
    (wellFormed : chart.grammar.WellFormed)
    (proper : span.start < span.stop) (within : span.stop ≤ chart.words.size) :
    ∃ entries, chart.step (openStep span) = chart.addAll span entries ∧
      chart.Opens span entries := by
  rw [openStep]
  split
  · rename_i single
    obtain ⟨start, stop⟩ := span
    obtain rfl : stop = start + 1 := by
      simp only [Span.length] at single
      omega
    obtain ⟨word, placed⟩ : ∃ word, chart.words[start]? = some word :=
      ⟨_, Array.getElem?_eq_getElem (Nat.lt_of_succ_le within)⟩
    exact ⟨_, scan_eq_addAll placed, opens_lexicalEntries wellFormed placed⟩
  · rename_i notSingle
    rw [Span.length] at notSingle
    exact ⟨_, combine_eq_addAll indexed wellFormed (Nat.le_of_lt proper) within,
      opens_combineEntries indexed wellFormed (by omega) within⟩

/-- The given spans of the sentence are exact, and all others have no cells. -/
structure FilledUpTo (grammar : Grammar) (words : Array String)
    (filled : List Span) (chart : Chart) : Prop where
  grammar_eq : chart.grammar = grammar
  words_eq : chart.words = words
  indexed : chart.Indexed
  exact : ∀ span ∈ filled, chart.Exact span
  vacant : ∀ span, span ∉ filled → chart.Vacant span

theorem cellAt?_empty (grammar : Grammar) (words : Array String) (span : Span)
    (symbol : Nat) : (empty grammar words).cellAt? span symbol = none := by
  rw [cellAt?, empty, Array.getD_eq_getD_getElem?, Array.getElem?_replicate]
  split <;> rfl

theorem filledUpTo_empty (grammar : Grammar) (words : Array String) :
    FilledUpTo grammar words [] (empty grammar words) where
  grammar_eq := rfl
  words_eq := rfl
  indexed := by
    refine ⟨by simp [empty], ?_, ?_, ?_, ?_⟩
    · intro number cell found
      simp [empty] at found
    · intro number cell found
      simp [empty] at found
    · intro number cell found
      simp [empty] at found
    · intro span symbol number _ found
      simp [cellAt?_empty] at found
  exact := by simp
  vacant span _ symbol _ := cellAt?_empty grammar words span symbol

theorem FilledUpTo.fillSpan (wellFormed : grammar.WellFormed)
    (upTo : FilledUpTo grammar words filled chart)
    (sentence : ∀ earlier ∈ filled, earlier.stop ≤ words.size)
    (proper : span.start < span.stop) (within : span.stop ≤ words.size)
    (outside : ∀ earlier ∈ filled, ¬ span.Within earlier) :
    FilledUpTo grammar words (span :: filled) (chart.fillSpan span) := by
  obtain ⟨rfl, rfl, indexed, exact, vacant⟩ := upTo
  have notFilled : span ∉ filled := fun member =>
    outside span member ⟨Nat.le_refl _, Nat.le_refl _⟩
  obtain ⟨entries, opened, opens⟩ :=
    exists_opens_openStep indexed wellFormed proper within
  obtain ⟨extended, spanExact⟩ := exact_closeUnits indexed wellFormed proper
    within (vacant span notFilled) opens
  rw [Chart.fillSpan, opened, step]
  refine ⟨extended.grammar_eq, extended.words_eq, extended.indexed, ?_, ?_⟩
  · intro earlier member
    rcases List.mem_cons.mp member with rfl | member
    · exact spanExact
    · exact (exact earlier member).extend indexed wellFormed extended
        (sentence earlier member) (outside earlier member)
  · intro other notMember symbol admitted
    simp only [List.mem_cons, not_or] at notMember
    have admitted := extended.admits_iff.mp admitted
    rw [extended.cellAt?_elsewhere admitted notMember.1]
    exact vacant other notMember.2 symbol admitted

/-- Filling spans one after the other, none after one that it lies within. -/
theorem FilledUpTo.foldl_fillSpan (wellFormed : grammar.WellFormed)
    (upTo : FilledUpTo grammar words filled chart) (spans : List Span)
    (sentence : ∀ earlier ∈ filled, earlier.stop ≤ words.size)
    (proper : ∀ span ∈ spans, span.start < span.stop ∧ span.stop ≤ words.size)
    (outside : ∀ span ∈ spans, ∀ earlier ∈ filled, ¬ span.Within earlier)
    (ordered : spans.Pairwise fun first second => ¬ second.Within first) :
    ∃ all, (∀ span, span ∈ all ↔ span ∈ spans ∨ span ∈ filled) ∧
      FilledUpTo grammar words all (spans.foldl Chart.fillSpan chart) := by
  induction spans generalizing chart filled with
  | nil => exact ⟨filled, by simp, upTo⟩
  | cons span rest ih =>
      obtain ⟨before, restOrdered⟩ := List.pairwise_cons.mp ordered
      obtain ⟨spanProper, spanWithin⟩ := proper span (by simp)
      have next := upTo.fillSpan wellFormed sentence spanProper spanWithin
        (outside span (by simp))
      obtain ⟨all, mem_iff, final⟩ := ih next
        (by
          intro earlier member
          rcases List.mem_cons.mp member with rfl | member
          · exact spanWithin
          · exact sentence earlier member)
        (fun other member => proper other (by simp [member]))
        (by
          intro other member earlier member'
          rcases List.mem_cons.mp member' with rfl | member'
          · exact before other member
          · exact outside other (by simp [member]) earlier member')
        restOrdered
      refine ⟨all, fun other => ?_, final⟩
      rw [mem_iff, List.mem_cons, List.mem_cons, or_left_comm, or_assoc]

/-- A chart in which every span is exact, and empty spans have no cells. -/
structure Filled (chart : Chart) : Prop where
  wellFormed : chart.grammar.WellFormed
  indexed : chart.Indexed
  exact : ∀ span, span.start < span.stop → span.stop ≤ chart.words.size →
    chart.Exact span
  vacant : ∀ span, span.stop ≤ span.start → chart.Vacant span

section Fill

variable (wellFormed : grammar.WellFormed) (words : Array String)

include wellFormed

private theorem exists_filledUpTo_fill :
    ∃ all, (∀ span, span ∈ all ↔
        span.start < span.stop ∧ span.stop ≤ words.size) ∧
      FilledUpTo grammar words all (fill grammar words) := by
  obtain ⟨all, mem_iff, final⟩ := (filledUpTo_empty grammar words).foldl_fillSpan
    wellFormed (fillSpans words.size) (by simp)
    (fun span member => mem_fillSpans.mp member) (by simp)
    (outside_fillSpans words.size)
  refine ⟨all, fun span => ?_, fill_eq grammar words ▸ final⟩
  rw [mem_iff, mem_fillSpans]
  simp

theorem grammar_fill : (fill grammar words).grammar = grammar := by
  obtain ⟨all, _, final⟩ := exists_filledUpTo_fill wellFormed words
  exact final.grammar_eq

theorem words_fill : (fill grammar words).words = words := by
  obtain ⟨all, _, final⟩ := exists_filledUpTo_fill wellFormed words
  exact final.words_eq

/-- At the end of the filling every span is exact. -/
theorem filled_fill : (fill grammar words).Filled := by
  obtain ⟨all, mem_iff, final⟩ := exists_filledUpTo_fill wellFormed words
  refine ⟨final.grammar_eq.symm ▸ wellFormed, final.indexed, ?_, ?_⟩
  · intro span proper within
    rw [final.words_eq] at within
    exact final.exact span ((mem_iff span).mpr ⟨proper, within⟩)
  · intro span empty
    apply final.vacant span
    intro member
    have := ((mem_iff span).mp member).1
    omega

end Fill

end Chart

end Constituency
