import Constituency.Proofs.Grammar.Defect

/-!
# Which productions make up a grammar

Productions are held against conditions of increasing demand: there are some and
they are well shaped, they define the start symbol, they define every nonterminal
on their right, no nonterminal derives itself by unit productions, and every
nonterminal derives a sentence.  The result of building a grammar is decided by
the first of these conditions that fails.  If none does, the grammar consists of
the first occurrences of the productions.
-/

namespace Constituency

/-- There are productions, and all of them are well shaped. -/
structure Shaped (productions : List Production) : Prop where
  nonempty : productions ≠ []
  wellShaped : ∀ production ∈ productions, production.WellShaped

/-- The start symbol is defined besides. -/
structure Started (start : String) (productions : List Production) : Prop
    extends Shaped productions where
  startDefined : Defines productions start

/-- Every nonterminal on the right is defined besides. -/
structure Closed (start : String) (productions : List Production) : Prop
    extends Started start productions where
  allDefined : AllDefined productions

/-- No nonterminal derives itself by unit productions besides. -/
structure Acyclic (start : String) (productions : List Production) : Prop
    extends Closed start productions where
  noUnitCycle : ∀ name, ¬ UnitCycle productions name

/-- Every nonterminal derives a sentence besides. -/
structure Acceptable (start : String) (productions : List Production) : Prop
    extends Acyclic start productions where
  productive : ∀ name, Defines productions name → Productive productions name

section EraseDups

variable {productions : List Production} {name : String}

theorem defines_eraseDups :
    Defines productions.eraseDups name ↔ Defines productions name := by
  simp only [Defines, List.mem_eraseDups]

theorem allDefined_eraseDups :
    AllDefined productions.eraseDups ↔ AllDefined productions := by
  simp only [AllDefined, List.mem_eraseDups, defines_eraseDups]

theorem unitCycle_eraseDups :
    UnitCycle productions.eraseDups name ↔ UnitCycle productions name := by
  have same : UnitStep productions.eraseDups = UnitStep productions := by
    funext name target
    exact propext List.mem_eraseDups
  rw [UnitCycle, UnitCycle, same]

theorem productive_eraseDups :
    Productive productions.eraseDups name ↔ Productive productions name := by
  constructor
  · rintro ⟨sentence, yields⟩
    exact ⟨sentence, yields.mono fun _ => List.mem_eraseDups.mp⟩
  · rintro ⟨sentence, yields⟩
    exact ⟨sentence, yields.mono fun _ => List.mem_eraseDups.mpr⟩

theorem eraseDups_of_nodup (distinct : productions.Nodup) :
    productions.eraseDups = productions := by
  induction productions with
  | nil => rfl
  | cons production rest ih =>
      obtain ⟨new, restDistinct⟩ := List.nodup_cons.mp distinct
      have others : (rest.filter fun other => !other == production) = rest := by
        rw [List.filter_eq_self]
        intro other member
        have different : other ≠ production := fun same => new (same ▸ member)
        simpa using different
      rw [List.eraseDups_cons, others, ih restDistinct]

theorem shaped_eraseDups (shaped : Shaped productions) :
    Shaped productions.eraseDups := by
  constructor
  · obtain ⟨production, listed⟩ :=
      List.exists_mem_of_ne_nil productions shaped.nonempty
    exact List.ne_nil_of_mem (List.mem_eraseDups.mpr listed)
  · intro production member
    exact shaped.wellShaped production (List.mem_eraseDups.mp member)

end EraseDups

namespace Grammar

variable {start name : String} {productions : List Production}
variable {production : Production} {error : GrammarError} {grammar : Grammar}

theorem ofProductions_nil (start : String) :
    ofProductions start [] = .error .empty :=
  rfl

theorem ofProductions_eq_bind (nonempty : productions ≠ []) :
    ofProductions start productions =
      (keepFirst [] productions).2.bind (ofDistinct start) := by
  rw [ofProductions, build, if_neg (by simpa using nonempty)]
  dsimp only
  cases (keepFirst [] productions).2.bind (ofDistinct start) <;> rfl

theorem ofProductions_of_firstShapeFault
    (first : FirstShapeFault productions error) :
    ofProductions start productions = .error error := by
  have nonempty : productions ≠ [] := by
    obtain ⟨before, faulty, after, rfl, _⟩ := first
    simp
  rw [ofProductions_eq_bind nonempty, keepFirst_of_firstShapeFault [] first]
  rfl

theorem ofProductions_of_shaped (shaped : Shaped productions) :
    ofProductions start productions =
      ofDistinct start productions.eraseDups := by
  rw [ofProductions_eq_bind shaped.nonempty,
    keepFirst_of_wellShaped [] shaped.wellShaped]
  simp [Except.bind]

theorem ofDistinct_of_index_eq_error {distinct : List Production}
    (failed : index start distinct = .error error) :
    ofDistinct start distinct = .error error := by
  rw [ofDistinct, failed]

theorem ofProductions_of_undefined_start (shaped : Shaped productions)
    (undefined : ¬ Defines productions start) :
    ofProductions start productions = .error (.undefinedStart start) := by
  rw [ofProductions_of_shaped shaped]
  apply ofDistinct_of_index_eq_error
  exact index_of_undefined_start (defines_eraseDups.not.mpr undefined)

theorem ofProductions_of_firstUndefined (started : Started start productions)
    (first : FirstUndefined productions production name) :
    ofProductions start productions =
      .error (.undefinedNonterminal name production) := by
  rw [ofProductions_of_shaped started.toShaped]
  apply ofDistinct_of_index_eq_error
  apply index_of_firstUndefined _ _ first.eraseDups
  · intro other member
    exact started.wellShaped other (List.mem_eraseDups.mp member)
  · exact defines_eraseDups.mpr started.startDefined

theorem exists_index_of_closed (closed : Closed start productions) :
    ∃ grammar, index start productions = .ok grammar ∧
      Indexes grammar start productions ∧
      List.Forall₂ grammar.Numbers productions grammar.numbered.toList := by
  obtain ⟨grammar, indexed⟩ := exists_index_eq_ok closed.wellShaped
    closed.startDefined closed.allDefined
  have indexes := indexes_of_index indexed
  exact ⟨grammar, indexed, indexes, numbers_of_indexes indexes
    fun production member => Production.shapeError?_eq_none_iff.mpr
      (closed.wellShaped production member)⟩

/-- What is left to check of productions whose nonterminals are all defined. -/
theorem exists_indexed (closed : Closed start productions) :
    ∃ grammar, Indexes grammar start productions.eraseDups ∧
      List.Forall₂ grammar.Numbers productions.eraseDups
        grammar.numbered.toList ∧
      ofProductions start productions =
        match grammar.defect? with
        | some error => .error error
        | none => .ok grammar := by
  have closedFirsts : Closed start productions.eraseDups :=
    ⟨⟨shaped_eraseDups closed.toShaped, defines_eraseDups.mpr closed.startDefined⟩,
      allDefined_eraseDups.mpr closed.allDefined⟩
  obtain ⟨grammar, indexed, indexes, numbers⟩ :=
    exists_index_of_closed closedFirsts
  refine ⟨grammar, indexes, numbers, ?_⟩
  rw [ofProductions_of_shaped closed.toShaped]
  cases defect : grammar.defect? with
  | some error => simp [ofDistinct, indexed, defect]
  | none => simp [ofDistinct, indexed, defect]

theorem exists_unitCycle_error (closed : Closed start productions)
    (cyclic : ∃ name, UnitCycle productions name) :
    ∃ name, UnitCycle productions name ∧
      ofProductions start productions = .error (.unitCycle name) := by
  obtain ⟨grammar, indexes, numbers, resultEq⟩ := exists_indexed closed
  obtain ⟨symbol, found⟩ : ∃ symbol, grammar.unitCycle? = some symbol := by
    obtain ⟨name, cycle⟩ := cyclic
    cases search : grammar.unitCycle? with
    | some symbol => exact ⟨symbol, rfl⟩
    | none =>
        exact absurd (unitCycle_eraseDups.mpr cycle)
          (not_unitCycle_of_unitCycle?_eq_none indexes numbers search name)
  refine ⟨grammar.symbolName symbol, ?_, ?_⟩
  · exact unitCycle_eraseDups.mp
      (unitCycle_of_unitCycle?_eq_some indexes numbers found)
  · rw [resultEq, defect?, found]

theorem unitCycle?_eq_none (acyclic : Acyclic start productions)
    (indexes : Indexes grammar start productions.eraseDups)
    (numbers : List.Forall₂ grammar.Numbers productions.eraseDups
      grammar.numbered.toList) :
    grammar.unitCycle? = none := by
  cases search : grammar.unitCycle? with
  | none => rfl
  | some symbol =>
      have cycle := unitCycle_of_unitCycle?_eq_some indexes numbers search
      exact absurd (unitCycle_eraseDups.mp cycle) (acyclic.noUnitCycle _)

theorem defines_iff_of_indexes (indexes : Indexes grammar start productions) :
    Defines productions name ↔
      ∃ symbol < grammar.symbolCount, grammar.symbolName symbol = name := by
  rw [Defines, ← mem_nonterminals_iff indexes, Array.mem_iff_getElem?]
  simp only [getElem?_nonterminals_eq_some_iff]

open Classical in
/-- Productions without a unit cycle are refused with the name of the first
nonterminal that derives no sentence. -/
theorem ofProductions_eq_unproductive_iff
    (acyclic : Acyclic start productions) :
    ofProductions start productions = .error (.unproductive name) ↔
      (productions.find? fun production =>
        ¬ Productive productions production.lhs).map (·.lhs) = some name := by
  obtain ⟨grammar, indexes, numbers, resultEq⟩ :=
    exists_indexed acyclic.toClosed
  have noCycle := unitCycle?_eq_none acyclic indexes numbers
  have same : ∀ production ∈ productions,
      (decide ¬ Productive productions.eraseDups production.lhs) =
        decide ¬ Productive productions production.lhs := fun _ _ =>
    decide_eq_decide.mpr productive_eraseDups.not
  rw [← List.find?_congr same, ← find?_eraseDups,
    ← unproductive?_eq indexes numbers, resultEq, defect?, noCycle]
  cases grammar.unproductive? with
  | none => simp
  | some symbol => simp

theorem exists_unproductive_error (acyclic : Acyclic start productions)
    (unproductive : ∃ name, Defines productions name ∧
      ¬ Productive productions name) :
    ∃ name, Defines productions name ∧ ¬ Productive productions name ∧
      ofProductions start productions = .error (.unproductive name) := by
  classical
  obtain ⟨_, ⟨production, listed, rfl⟩, notProductive⟩ := unproductive
  obtain ⟨first, found⟩ : ∃ first, (productions.find? fun production =>
      ¬ Productive productions production.lhs) = some first := by
    rw [← Option.isSome_iff_exists, List.find?_isSome]
    exact ⟨production, listed, by simpa using notProductive⟩
  refine ⟨first.lhs, ⟨first, List.mem_of_find?_eq_some found, rfl⟩,
    by simpa using List.find?_some found, ?_⟩
  rw [ofProductions_eq_unproductive_iff acyclic, found]
  rfl

theorem exists_ofProductions_eq_ok (acceptable : Acceptable start productions) :
    ∃ grammar, ofProductions start productions = .ok grammar ∧
      Indexes grammar start productions.eraseDups := by
  obtain ⟨grammar, indexes, numbers, resultEq⟩ :=
    exists_indexed acceptable.toClosed
  have noCycle := unitCycle?_eq_none acceptable.toAcyclic indexes numbers
  have allProductive : grammar.unproductive? = none := by
    rw [← Option.map_eq_none_iff, unproductive?_eq indexes numbers,
      Option.map_eq_none_iff, List.find?_eq_none]
    intro production listed
    have productive := acceptable.productive production.lhs
      ⟨production, List.mem_eraseDups.mp listed, rfl⟩
    simpa [productive_eraseDups] using productive
  refine ⟨grammar, ?_, indexes⟩
  rw [resultEq, defect?, noCycle]
  simp [allProductive]

/-- The result that building a grammar must have.  Every result but that for an
ill-shaped production demands that the earlier conditions hold. -/
inductive Verdict (start : String) (productions : List Production) :
    Except GrammarError Grammar → Prop
  | empty (none : productions = []) : Verdict start productions (.error .empty)
  | illShaped {error : GrammarError}
      (first : FirstShapeFault productions error) :
      Verdict start productions (.error error)
  | undefinedStart (shaped : Shaped productions)
      (undefined : ¬ Defines productions start) :
      Verdict start productions (.error (.undefinedStart start))
  | undefinedNonterminal {production : Production} {name : String}
      (started : Started start productions)
      (first : FirstUndefined productions production name) :
      Verdict start productions
        (.error (.undefinedNonterminal name production))
  | unitCycle {name : String} (closed : Closed start productions)
      (cycle : UnitCycle productions name) :
      Verdict start productions (.error (.unitCycle name))
  | unproductive {name : String} (acyclic : Acyclic start productions)
      (defined : Defines productions name)
      (unproductive : ¬ Productive productions name) :
      Verdict start productions (.error (.unproductive name))
  | accepted {grammar : Grammar} (acceptable : Acceptable start productions)
      (indexes : Indexes grammar start productions.eraseDups) :
      Verdict start productions (.ok grammar)

/-- The conditions are tried in their order. -/
theorem verdict_ofProductions (start : String)
    (productions : List Production) :
    Verdict start productions (ofProductions start productions) := by
  by_cases nonempty : productions = []
  · subst nonempty
    exact .empty rfl
  rcases wellShaped_or_firstShapeFault productions with
    wellShaped | ⟨error, first⟩
  swap
  · rw [ofProductions_of_firstShapeFault first]
    exact .illShaped first
  have shaped : Shaped productions := ⟨nonempty, wellShaped⟩
  by_cases startDefined : Defines productions start
  swap
  · rw [ofProductions_of_undefined_start shaped startDefined]
    exact .undefinedStart shaped startDefined
  have started : Started start productions := ⟨shaped, startDefined⟩
  by_cases allDefined : AllDefined productions
  swap
  · obtain ⟨production, name, first⟩ := exists_firstUndefined allDefined
    rw [ofProductions_of_firstUndefined started first]
    exact .undefinedNonterminal started first
  have closed : Closed start productions := ⟨started, allDefined⟩
  by_cases cyclic : ∃ name, UnitCycle productions name
  · obtain ⟨name, cycle, resultEq⟩ := exists_unitCycle_error closed cyclic
    rw [resultEq]
    exact .unitCycle closed cycle
  have acyclic : Acyclic start productions := ⟨closed, not_exists.mp cyclic⟩
  by_cases productive : ∀ name, Defines productions name →
      Productive productions name
  · have acceptable : Acceptable start productions := ⟨acyclic, productive⟩
    obtain ⟨grammar, resultEq, indexes⟩ := exists_ofProductions_eq_ok acceptable
    rw [resultEq]
    exact .accepted acceptable indexes
  · simp only [not_forall] at productive
    obtain ⟨name, defined, notProductive⟩ := productive
    obtain ⟨name, defined, notProductive, resultEq⟩ :=
      exists_unproductive_error acyclic ⟨name, defined, notProductive⟩
    rw [resultEq]
    exact .unproductive acyclic defined notProductive

theorem verdict_of_eq {result : Except GrammarError Grammar}
    (resultEq : ofProductions start productions = result) :
    Verdict start productions result :=
  resultEq ▸ verdict_ofProductions start productions

theorem indexes_of_ofProductions
    (accepted : ofProductions start productions = .ok grammar) :
    Indexes grammar start productions.eraseDups := by
  cases verdict_of_eq accepted with
  | accepted acceptable indexes => exact indexes

theorem ofProductions_again
    (accepted : ofProductions start productions = .ok grammar) :
    ofProductions grammar.start grammar.productions.toList = .ok grammar := by
  have indexes := indexes_of_ofProductions accepted
  have distinct := (wellFormed_of_ofProductions accepted).productions_nodup
  have shaped : Shaped productions := by
    cases verdict_of_eq accepted with
    | accepted acceptable _ => exact acceptable.toShaped
  rw [indexes.productions_eq] at distinct
  rw [indexes.start_eq, indexes.productions_eq,
    ofProductions_of_shaped (shaped_eraseDups shaped),
    eraseDups_of_nodup distinct, ← ofProductions_of_shaped shaped, accepted]

theorem ofProductions_eq_empty_iff :
    ofProductions start productions = .error .empty ↔ productions = [] := by
  constructor
  · intro resultEq
    cases verdict_of_eq resultEq with
    | empty none => exact none
    | illShaped first =>
        obtain ⟨_, _, _, _, _, fault⟩ := first
        cases fault
  · rintro rfl
    exact ofProductions_nil start

theorem ofProductions_eq_shapeFault_iff
    (isShapeFault : production.ShapeFault error) :
    ofProductions start productions = .error error ↔
      FirstShapeFault productions error := by
  constructor
  · intro resultEq
    cases isShapeFault with
    | emptyRhs lhs =>
        cases verdict_of_eq resultEq with
        | illShaped first => exact first
    | severalWords lhs several =>
        cases verdict_of_eq resultEq with
        | illShaped first => exact first
    | mixedRhs wordListed nameListed =>
        cases verdict_of_eq resultEq with
        | illShaped first => exact first
  · exact ofProductions_of_firstShapeFault

theorem ofProductions_eq_undefinedStart_iff :
    ofProductions start productions = .error (.undefinedStart name) ↔
      Shaped productions ∧ ¬ Defines productions start ∧ name = start := by
  constructor
  · intro resultEq
    cases verdict_of_eq resultEq with
    | illShaped first =>
        obtain ⟨_, _, _, _, _, fault⟩ := first
        cases fault
    | undefinedStart shaped undefined => exact ⟨shaped, undefined, rfl⟩
  · rintro ⟨shaped, undefined, rfl⟩
    exact ofProductions_of_undefined_start shaped undefined

theorem ofProductions_eq_undefinedNonterminal_iff :
    ofProductions start productions =
        .error (.undefinedNonterminal name production) ↔
      Started start productions ∧
        FirstUndefined productions production name := by
  constructor
  · intro resultEq
    cases verdict_of_eq resultEq with
    | illShaped first =>
        obtain ⟨_, _, _, _, _, fault⟩ := first
        cases fault
    | undefinedNonterminal started first => exact ⟨started, first⟩
  · rintro ⟨started, first⟩
    exact ofProductions_of_firstUndefined started first

theorem closed_of_unitCycle_error
    (resultEq : ofProductions start productions = .error (.unitCycle name)) :
    Closed start productions ∧ UnitCycle productions name := by
  cases verdict_of_eq resultEq with
  | illShaped first =>
      obtain ⟨_, _, _, _, _, fault⟩ := first
      cases fault
  | unitCycle closed cycle => exact ⟨closed, cycle⟩

theorem acyclic_of_unproductive_error
    (resultEq : ofProductions start productions = .error (.unproductive name)) :
    Acyclic start productions ∧ Defines productions name ∧
      ¬ Productive productions name := by
  cases verdict_of_eq resultEq with
  | illShaped first =>
      obtain ⟨_, _, _, _, _, fault⟩ := first
      cases fault
  | unproductive acyclic defined unproductive =>
      exact ⟨acyclic, defined, unproductive⟩

theorem exists_ofProductions_eq_ok_iff :
    (∃ grammar, ofProductions start productions = .ok grammar) ↔
      Acceptable start productions := by
  constructor
  · rintro ⟨grammar, resultEq⟩
    cases verdict_of_eq resultEq with
    | accepted acceptable indexes => exact acceptable
  · intro acceptable
    obtain ⟨grammar, resultEq, _⟩ := exists_ofProductions_eq_ok acceptable
    exact ⟨grammar, resultEq⟩

/-- Building a grammar decides exactly which conditions its productions meet.
The result tells the first one that fails, and if none does, it is the grammar of
the first occurrences of the productions in their order. -/
theorem ofProductions_decides (start : String)
    (productions : List Production) :
    (ofProductions start productions = .error .empty ↔ productions = []) ∧
    (∀ production error, Production.ShapeFault production error →
      (ofProductions start productions = .error error ↔
        FirstShapeFault productions error)) ∧
    (∀ name, ofProductions start productions = .error (.undefinedStart name) ↔
      Shaped productions ∧ ¬ Defines productions start ∧ name = start) ∧
    (∀ name production, ofProductions start productions =
        .error (.undefinedNonterminal name production) ↔
      Started start productions ∧
        FirstUndefined productions production name) ∧
    ((∃ name, ofProductions start productions = .error (.unitCycle name)) ↔
      Closed start productions ∧ ∃ name, UnitCycle productions name) ∧
    (∀ name, ofProductions start productions = .error (.unitCycle name) →
      UnitCycle productions name) ∧
    ((∃ name, ofProductions start productions =
        .error (.unproductive name)) ↔
      Acyclic start productions ∧
        ∃ name, Defines productions name ∧ ¬ Productive productions name) ∧
    (∀ name, ofProductions start productions = .error (.unproductive name) →
      Defines productions name ∧ ¬ Productive productions name) ∧
    ((∃ grammar, ofProductions start productions = .ok grammar) ↔
      Acceptable start productions) ∧
    ∀ grammar, ofProductions start productions = .ok grammar →
      grammar.start = start ∧
        grammar.productions.toList = productions.eraseDups := by
  refine ⟨ofProductions_eq_empty_iff,
    fun _ _ => ofProductions_eq_shapeFault_iff,
    fun _ => ofProductions_eq_undefinedStart_iff,
    fun _ _ => ofProductions_eq_undefinedNonterminal_iff,
    ⟨?_, ?_⟩, fun _ resultEq => (closed_of_unitCycle_error resultEq).2,
    ⟨?_, ?_⟩, fun _ resultEq => (acyclic_of_unproductive_error resultEq).2,
    exists_ofProductions_eq_ok_iff, ?_⟩
  · rintro ⟨name, resultEq⟩
    obtain ⟨closed, cycle⟩ := closed_of_unitCycle_error resultEq
    exact ⟨closed, name, cycle⟩
  · rintro ⟨closed, cyclic⟩
    obtain ⟨name, _, resultEq⟩ := exists_unitCycle_error closed cyclic
    exact ⟨name, resultEq⟩
  · rintro ⟨name, resultEq⟩
    obtain ⟨acyclic, unproductive⟩ := acyclic_of_unproductive_error resultEq
    exact ⟨acyclic, name, unproductive⟩
  · rintro ⟨acyclic, unproductive⟩
    obtain ⟨name, _, _, resultEq⟩ :=
      exists_unproductive_error acyclic unproductive
    exact ⟨name, resultEq⟩
  · intro grammar resultEq
    have indexes := indexes_of_ofProductions resultEq
    exact ⟨indexes.start_eq, indexes.productions_eq⟩

/-- An ill-shaped production is reported before a unit cycle that stands first. -/
example : ofProductions "S" [⟨"S", [.nonterminal "S"]⟩, ⟨"S", []⟩] =
    .error (.emptyRhs "S") := by
  decide +kernel

end Grammar

end Constituency
