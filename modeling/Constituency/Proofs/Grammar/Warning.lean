import Constituency.Log
import Constituency.Proofs.Grammar.Reachable

/-!
# What is warned of while a grammar is built

A production is warned of at each place before which an equal one stands.  The
productions are gone through only up to the first one that is ill shaped, so an
ill-shaped one ends these warnings.  A nonterminal that cannot be reached is
warned of only once no defect has been found.
-/

namespace Constituency

/-- The warnings among what is reported while a grammar is built. -/
def Build.warnings (build : Build) : List LogEntry :=
  (build.events.map BuildEvent.entry).filter (·.severity = .warning)

def duplicateWarning (production : Production) : LogEntry :=
  ⟨.warning, "dropping duplicate production",
    [("production", toString production)]⟩

def unreachableWarning (name : String) : LogEntry :=
  ⟨.warning, "nonterminal is unreachable from the start symbol",
    [("symbol", name)]⟩

/-- The productions at the places of `rest` before which an equal one stands, in
`rest` itself or in what is before it. -/
def repeatsAfter (before rest : List Production) : List Production :=
  (rest.zipIdx before.length).filterMap fun (production, place) =>
    if production ∈ (before ++ rest).take place then some production else none

/-- The productions at the places before which an equal one stands. -/
def repeats (productions : List Production) : List Production :=
  productions.zipIdx.filterMap fun (production, place) =>
    if production ∈ productions.take place then some production else none

open Classical in
/-- The defined nonterminals that cannot be reached from the start symbol, each
once and in the order of their first definition. -/
noncomputable def unreachableNames (start : String)
    (productions : List Production) : List String :=
  (productions.map (·.lhs)).eraseDups.filter fun name =>
    ¬ Reaches productions start name

variable {start : String} {productions before after seen kept : List Production}
variable {production faulty : Production} {error : GrammarError}

theorem repeatsAfter_cons (before : List Production) (production : Production)
    (rest : List Production) :
    repeatsAfter before (production :: rest) =
      (if production ∈ before then [production] else []) ++
        repeatsAfter (before ++ [production]) rest := by
  have earlier : (before ++ production :: rest).take before.length = before :=
    List.take_left
  by_cases known : production ∈ before
  · simp [repeatsAfter, List.zipIdx_cons, earlier, known]
  · simp [repeatsAfter, List.zipIdx_cons, earlier, known]

theorem reaches_eraseDups {name : String} :
    Reaches productions.eraseDups start name ↔
      Reaches productions start name := by
  have same : Uses productions.eraseDups = Uses productions := by
    funext name other
    simp only [Uses, List.mem_eraseDups]
  rw [Reaches, Reaches, same]

namespace Grammar

variable {grammar : Grammar}

/-- Among well-shaped productions, those are dropped before which an equal one
stands. -/
theorem dropped_of_wellShaped
    (same : ∀ production, production ∈ seen ↔ production ∈ before)
    (shaped : ∀ production ∈ productions, production.WellShaped) :
    (keepFirst seen productions).1 = repeatsAfter before productions := by
  -- What has been gone through is seen, however often it occurred there.
  induction productions generalizing seen before with
  | nil => rfl
  | cons production rest ih =>
      obtain ⟨firstShaped, restShaped⟩ := List.forall_mem_cons.mp shaped
      rw [keepFirst, Production.shapeError?_eq_none_iff.mpr firstShaped,
        repeatsAfter_cons]
      dsimp only
      by_cases known : production ∈ seen
      · have grown : ∀ other, other ∈ seen ↔ other ∈ before ++ [production] := by
          intro other
          rw [List.mem_append, List.mem_singleton, ← same]
          exact ⟨.inl, fun either => either.elim id fun equal => equal ▸ known⟩
        rw [if_pos known, if_pos ((same production).mp known),
          ih grown restShaped]
        rfl
      · have grown : ∀ other, other ∈ production :: seen ↔
            other ∈ before ++ [production] := by
          intro other
          rw [List.mem_append, List.mem_singleton, ← same, List.mem_cons,
            or_comm]
        rw [if_neg known, if_neg ((same production).not.mp known),
          ih grown restShaped]
        rfl

theorem dropped_eq_repeats
    (shaped : ∀ production ∈ productions, production.WellShaped) :
    (keepFirst [] productions).1 = repeats productions := by
  have dropped : (keepFirst [] productions).1 = repeatsAfter [] productions :=
    dropped_of_wellShaped (fun _ => Iff.rfl) shaped
  exact dropped

/-- Nothing is dropped from the first ill-shaped production on. -/
theorem dropped_append_of_shapeFault (seen : List Production)
    (shaped : ∀ production ∈ before, production.WellShaped)
    (fault : faulty.ShapeFault error) :
    (keepFirst seen (before ++ faulty :: after)).1 =
      (keepFirst seen before).1 := by
  induction before generalizing seen with
  | nil =>
      have ended : keepFirst seen (faulty :: after) = ([], .error error) := by
        rw [keepFirst, fault.shapeError?_eq]
      rw [List.nil_append, ended]
      rfl
  | cons production before ih =>
      obtain ⟨firstShaped, restShaped⟩ := List.forall_mem_cons.mp shaped
      rw [List.cons_append, keepFirst, keepFirst,
        Production.shapeError?_eq_none_iff.mpr firstShaped]
      dsimp only
      split
      · exact congrArg (production :: ·) (ih seen restShaped)
      · exact ih (production :: seen) restShaped

theorem length_kept_add_length_dropped
    (done : (keepFirst seen productions).2 = .ok kept) :
    kept.length + (keepFirst seen productions).1.length =
      productions.length := by
  induction productions generalizing seen kept with
  | nil =>
      injection done with equal
      rw [← equal]
      rfl
  | cons production rest ih =>
      rw [keepFirst] at done ⊢
      split at done
      · simp at done
      · dsimp only at done ⊢
        split at done
        · rename_i known
          have counted := ih done
          rw [if_pos known, List.length_cons, List.length_cons]
          omega
        · rename_i new
          obtain ⟨others, othersDone, rfl⟩ := map_eq_ok_iff.mp done
          have counted := ih othersDone
          rw [if_neg new, List.length_cons, List.length_cons]
          dsimp only
          omega

theorem marksReachable_of_accepted
    (accepted : ofProductions start productions = .ok grammar) :
    grammar.MarksReachable start productions := by
  have indexes := indexes_of_ofProductions accepted
  have numbers := (wellFormed_of_ofProductions accepted).numbers
  rw [indexes.productions_eq] at numbers
  obtain ⟨exists_taken, isMarked_iff⟩ := marksReachable indexes numbers
  rw [indexes.start_eq] at exists_taken isMarked_iff
  simp only [reaches_eraseDups] at isMarked_iff
  exact ⟨exists_taken, isMarked_iff⟩

theorem unreachable_eq
    (accepted : ofProductions start productions = .ok grammar) :
    grammar.unreachable = unreachableNames start productions := by
  classical
  have isMarked_iff := (marksReachable_of_accepted accepted).isMarked_iff
  have marked : ∀ symbol ∈ List.range grammar.symbolCount,
      (!Marking.isMarked grammar.reachable symbol) =
        decide ¬ Reaches productions start (grammar.symbolName symbol) := by
    intro symbol member
    rw [Bool.eq_iff_iff, Bool.not_eq_true', ← Bool.not_eq_true,
      isMarked_iff symbol (List.mem_range.mp member), decide_eq_true_iff]
  have names : grammar.nonterminals.toList =
      (productions.map (·.lhs)).eraseDups := by
    rw [(indexes_of_ofProductions accepted).nonterminals_eq,
      eraseDups_map_eraseDups]
  calc grammar.unreachable
    _ = ((List.range grammar.symbolCount).filter fun symbol =>
          ¬ Reaches productions start (grammar.symbolName symbol)).map
            grammar.symbolName := by
        rw [unreachable, List.filter_congr marked]
    _ = grammar.nonterminals.toList.filter fun name =>
          ¬ Reaches productions start name := by
        rw [toList_nonterminals, List.filter_map]
        rfl
    _ = unreachableNames start productions := by
        rw [names, unreachableNames]

theorem filter_entry_droppedDuplicate (dropped : List Production) :
    ((dropped.map BuildEvent.droppedDuplicate).map BuildEvent.entry).filter
        (·.severity = .warning) =
      dropped.map duplicateWarning := by
  rw [List.map_map, List.filter_eq_self.mpr]
  · rfl
  · intro entry member
    obtain ⟨production, _, rfl⟩ := List.mem_map.mp member
    rfl

theorem warnings_eq_of_ok
    (accepted : ofProductions start productions = .ok grammar) :
    (build start productions).warnings =
      (keepFirst [] productions).1.map duplicateWarning ++
        grammar.unreachable.map unreachableWarning := by
  have reported : (grammar.report.map BuildEvent.entry).filter
      (·.severity = .warning) = grammar.unreachable.map unreachableWarning := by
    rw [report, List.map_append, List.filter_append, List.map_map,
      List.filter_eq_self.mpr]
    · exact List.append_nil _
    · intro entry member
      obtain ⟨name, _, rfl⟩ := List.mem_map.mp member
      rfl
  rw [Build.warnings, events_eq accepted, List.map_append, List.filter_append,
    filter_entry_droppedDuplicate, reported]

theorem warnings_eq_of_error
    (refused : ofProductions start productions = .error error) :
    (build start productions).warnings =
      (keepFirst [] productions).1.map duplicateWarning := by
  have eventsEq : (build start productions).events =
      (keepFirst [] productions).1.map .droppedDuplicate := by
    unfold ofProductions at refused
    unfold build at refused ⊢
    split
    · rename_i empty
      rw [List.isEmpty_iff.mp empty]
      rfl
    · rename_i nonempty
      rw [if_neg nonempty] at refused
      dsimp only at refused ⊢
      split at refused
      · rfl
      · simp at refused
  rw [Build.warnings, eventsEq, filter_entry_droppedDuplicate]

/-- The warnings are exact.  If a grammar is built, they name each production
that stands at a place after an equal one, and then each defined nonterminal that
cannot be reached, as the search for these has come to an end and has marked all
others.  If none is built, they name only productions, and of these only those
before the first one that is ill shaped. -/
theorem build_warnings_exact (start : String) (productions : List Production) :
    (∀ grammar, ofProductions start productions = .ok grammar →
      (build start productions).warnings =
          (repeats productions).map duplicateWarning ++
            (unreachableNames start productions).map unreachableWarning ∧
        grammar.productions.size + (repeats productions).length =
          productions.length ∧
        grammar.MarksReachable start productions) ∧
    ∀ error, ofProductions start productions = .error error →
      (∃ before faulty after, productions = before ++ faulty :: after ∧
        (∀ earlier ∈ before, earlier.WellShaped) ∧ faulty.ShapeFault error ∧
        (build start productions).warnings =
          (repeats before).map duplicateWarning) ∨
      (∀ production ∈ productions, production.WellShaped) ∧
        (build start productions).warnings =
          (repeats productions).map duplicateWarning := by
  constructor
  · intro grammar accepted
    have acceptable := exists_ofProductions_eq_ok_iff.mp ⟨grammar, accepted⟩
    have dropped := dropped_eq_repeats acceptable.wellShaped
    have counted := length_kept_add_length_dropped
      (keepFirst_of_wellShaped [] acceptable.wellShaped)
    have sizeEq : grammar.productions.size = productions.eraseDups.length := by
      rw [← Array.length_toList,
        (indexes_of_ofProductions accepted).productions_eq]
    refine ⟨?_, ?_, marksReachable_of_accepted accepted⟩
    · rw [warnings_eq_of_ok accepted, dropped, unreachable_eq accepted]
    · rw [sizeEq, ← dropped, ← counted]
      simp
  · intro error refused
    rw [warnings_eq_of_error refused]
    rcases wellShaped_or_firstShapeFault productions with
      shaped | ⟨error', before, faulty, after, rfl, shaped, fault⟩
    · exact .inr ⟨shaped, by rw [dropped_eq_repeats shaped]⟩
    · left
      rw [ofProductions_of_firstShapeFault
        ⟨before, faulty, after, rfl, shaped, fault⟩] at refused
      obtain rfl := Except.error.inj refused
      refine ⟨before, faulty, after, rfl, shaped, fault, ?_⟩
      rw [dropped_append_of_shapeFault [] shaped fault,
        dropped_eq_repeats shaped]

/-- Productions of which one occurs three times, and one is for a nonterminal that
only it uses. -/
def repeatedProductions : List Production :=
  [⟨"S", [.terminal "x"]⟩, ⟨"U", [.nonterminal "S", .nonterminal "U"]⟩,
    ⟨"S", [.terminal "x"]⟩, ⟨"S", [.nonterminal "N", .nonterminal "N"]⟩,
    ⟨"N", [.terminal "x"]⟩, ⟨"U", [.nonterminal "S"]⟩, ⟨"S", [.terminal "x"]⟩]

/-- The grammar of these productions. -/
def repeated : Grammar where
  start := "S"
  productions :=
    #[⟨"S", [.terminal "x"]⟩, ⟨"U", [.nonterminal "S", .nonterminal "U"]⟩,
      ⟨"S", [.nonterminal "N", .nonterminal "N"]⟩, ⟨"N", [.terminal "x"]⟩,
      ⟨"U", [.nonterminal "S"]⟩]
  nonterminals := #["S", "U", "N"]
  ids := [("N", 2), ("U", 1), ("S", 0)]
  byLhs := #[[0, 2], [1, 4], [3]]
  lexicon := [("x", [0, 3])]
  numbered := #[⟨0, []⟩, ⟨1, [0, 1]⟩, ⟨0, [2, 2]⟩, ⟨2, []⟩, ⟨1, [0]⟩]

/-- The two repetitions are warned of before the nonterminal is, which the search
has not marked.  It takes three nodes, and the last of them is marked already. -/
theorem build_warnings_exact_repeatedProductions :
    ofProductions "S" repeatedProductions = .ok repeated ∧
    repeats repeatedProductions =
      [⟨"S", [.terminal "x"]⟩, ⟨"S", [.terminal "x"]⟩] ∧
    (unreachableNames "S" repeatedProductions).map unreachableWarning =
      [unreachableWarning "U"] ∧
    repeated.productions.size + 2 = 7 ∧
    (∀ made marks, Marking.Takes repeated.usedBy made
        (Array.replicate 3 false) [0] marks ↔
      made = 3 ∧ marks = #[true, false, true]) ∧
    ¬ Reaches repeatedProductions "S" "U" := by
  have accepted : ofProductions "S" repeatedProductions = .ok repeated := by
    decide +kernel
  have warned : (build "S" repeatedProductions).warnings =
      [duplicateWarning ⟨"S", [.terminal "x"]⟩,
        duplicateWarning ⟨"S", [.terminal "x"]⟩, unreachableWarning "U"] := by
    decide +kernel
  have dropped : repeats repeatedProductions =
      [⟨"S", [.terminal "x"]⟩, ⟨"S", [.terminal "x"]⟩] := by
    decide +kernel
  have reachableEq : repeated.reachable = #[true, false, true] := by
    decide +kernel
  have course : Marking.Takes repeated.usedBy 3 (Array.replicate 3 false) [0]
      #[true, false, true] :=
    .marks rfl (.marks rfl (.passes rfl .done))
  obtain ⟨warnings, counted, ⟨root, taken, found, _, takes_iff⟩, isMarked_iff⟩ :=
    (build_warnings_exact "S" repeatedProductions).1 repeated accepted
  rw [dropped] at warnings counted
  obtain rfl : 0 = root := Option.some.inj found
  rw [reachableEq] at takes_iff isMarked_iff
  obtain ⟨rfl, _⟩ := (takes_iff 3 _).mp course
  refine ⟨accepted, dropped,
    List.append_cancel_left (warnings.symm.trans warned), counted, takes_iff, ?_⟩
  have unmarked := isMarked_iff 1 (by decide)
  exact fun reached => absurd (unmarked.mpr reached) (by decide)

end Grammar

end Constituency
