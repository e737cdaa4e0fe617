import Constituency.Proofs.Grammar.Shape

/-!
# Defined nonterminals

Productions define the nonterminals on their left.  Productions that define the
start symbol and every nonterminal on their right can be indexed, and otherwise
indexing names the start symbol, or the first nonterminal that is not defined.
-/

namespace Constituency

def Defines (productions : List Production) (name : String) : Prop :=
  ∃ production ∈ productions, production.lhs = name

/-- Every nonterminal on the right of a production is defined. -/
def AllDefined (productions : List Production) : Prop :=
  ∀ production ∈ productions, ∀ name, .nonterminal name ∈ production.rhs →
    Defines productions name

/-- The production is the first one with an undefined nonterminal on the right,
and the name is that of the first such nonterminal there. -/
def FirstUndefined (productions : List Production) (production : Production)
    (name : String) : Prop :=
  ∃ before after front back,
    productions = before ++ production :: after ∧
    production.rhs = front ++ .nonterminal name :: back ∧
    (∀ earlier ∈ before, ∀ other, .nonterminal other ∈ earlier.rhs →
      Defines productions other) ∧
    (∀ other, .nonterminal other ∈ front → Defines productions other) ∧
    ¬ Defines productions name

variable {productions : List Production} {production : Production}
variable {name : String}

theorem exists_first_without {α : Type} {P : α → Prop} {elements : List α}
    (fails : ¬ ∀ element ∈ elements, P element) :
    ∃ before element after, elements = before ++ element :: after ∧
      (∀ earlier ∈ before, P earlier) ∧ ¬ P element := by
  induction elements with
  | nil => simp at fails
  | cons element rest ih =>
      by_cases holds : P element
      · have restFails : ¬ ∀ element ∈ rest, P element := fun restHolds =>
          fails (List.forall_mem_cons.mpr ⟨holds, restHolds⟩)
        obtain ⟨before, other, after, rfl, holdsBefore, fails⟩ := ih restFails
        exact ⟨element :: before, other, after, rfl,
          List.forall_mem_cons.mpr ⟨holds, holdsBefore⟩, fails⟩
      · exact ⟨[], element, rest, rfl, by simp, holds⟩

theorem exists_firstUndefined (fails : ¬ AllDefined productions) :
    ∃ production name, FirstUndefined productions production name := by
  obtain ⟨before, production, after, divided, definedBefore, undefined⟩ :=
    exists_first_without fails
  have undefinedSymbol : ¬ ∀ symbol ∈ production.rhs, ∀ name,
      symbol = .nonterminal name → Defines productions name := by
    intro defined
    exact undefined fun name listed => defined _ listed name rfl
  obtain ⟨front, symbol, back, rhsEq, definedFront, undefined⟩ :=
    exists_first_without undefinedSymbol
  obtain ⟨name, symbolEq, undefined⟩ : ∃ name,
      symbol = .nonterminal name ∧ ¬ Defines productions name := by
    simpa only [not_forall, exists_prop] using undefined
  refine ⟨production, name, before, after, front, back, divided,
    symbolEq ▸ rhsEq, definedBefore, ?_, undefined⟩
  exact fun other listed => definedFront _ listed other rfl

theorem FirstUndefined.eraseDups
    (first : FirstUndefined productions production name) :
    FirstUndefined productions.eraseDups production name := by
  have defines_iff : ∀ other, Defines productions.eraseDups other ↔
      Defines productions other := by
    simp [Defines, List.mem_eraseDups]
  obtain ⟨before, after, front, back, divided, rhsEq, definedBefore,
    definedFront, undefined⟩ := first
  have new : production ∉ before := fun again =>
    undefined (definedBefore production again name (by simp [rhsEq]))
  have rest : (production :: after).removeAll before =
      production :: after.removeAll before := by
    simp [List.removeAll, new]
  refine ⟨before.eraseDups,
    ((after.removeAll before).filter fun other => !(other == production)).eraseDups,
    front, back, ?_, rhsEq, ?_, ?_, ?_⟩
  · rw [divided, List.eraseDups_append, rest, List.eraseDups_cons]
  · intro earlier member other listed
    rw [defines_iff]
    exact definedBefore earlier (List.mem_eraseDups.mp member) other listed
  · intro other listed
    rw [defines_iff]
    exact definedFront other listed
  · rwa [defines_iff]

namespace Grammar

variable {start : String} {error : GrammarError}
variable {ids : List (String × Nat)} {symbols front back : List Symbol}

theorem numberSymbols_of_defined (production : Production)
    (defined : ∀ symbol ∈ symbols, ids.lookup symbol.text ≠ none) :
    ∃ numbers, numberSymbols ids production symbols = .ok numbers := by
  induction symbols with
  | nil => exact ⟨[], rfl⟩
  | cons symbol rest ih =>
      obtain ⟨symbolDefined, restDefined⟩ := List.forall_mem_cons.mp defined
      obtain ⟨numbers, done⟩ := ih restDefined
      rw [numberSymbols]
      cases found : ids.lookup symbol.text with
      | none => exact absurd found symbolDefined
      | some number => exact ⟨number :: numbers, by simp [done, Except.map]⟩

theorem numberSymbols_of_undefined {symbol : Symbol}
    (defined : ∀ symbol ∈ front, ids.lookup symbol.text ≠ none)
    (undefined : ids.lookup symbol.text = none) :
    numberSymbols ids production (front ++ symbol :: back) =
      .error (.undefinedNonterminal symbol.text production) := by
  induction front with
  | nil => rw [List.nil_append, numberSymbols, undefined]
  | cons first rest ih =>
      obtain ⟨firstDefined, restDefined⟩ := List.forall_mem_cons.mp defined
      rw [List.cons_append, numberSymbols]
      cases found : ids.lookup first.text with
      | none => exact absurd found firstDefined
      | some number => simp [ih restDefined, Except.map]

theorem numberProduction_of_defined (shaped : production.WellShaped)
    (defined : ∀ name, .nonterminal name ∈ production.rhs →
      ids.lookup name ≠ none) :
    ∃ numbered, numberProduction ids production = .ok numbered := by
  rw [numberProduction]
  cases produced : production.word? with
  | some word => exact ⟨_, rfl⟩
  | none =>
      have texts : ∀ symbol ∈ production.rhs,
          ids.lookup symbol.text ≠ none := by
        rcases shaped with ⟨word, rhsEq⟩ | ⟨names, _, rhsEq⟩
        · simp [Production.word?, rhsEq] at produced
        · intro symbol member
          obtain ⟨name, _, rfl⟩ := List.mem_map.mp (rhsEq ▸ member)
          exact defined name member
      obtain ⟨numbers, done⟩ := numberSymbols_of_defined production texts
      exact ⟨_, by rw [done]; rfl⟩

theorem numberProduction_of_undefined (shaped : production.WellShaped)
    (rhsEq : production.rhs = front ++ .nonterminal name :: back)
    (defined : ∀ other, .nonterminal other ∈ front → ids.lookup other ≠ none)
    (undefined : ids.lookup name = none) :
    numberProduction ids production =
      .error (.undefinedNonterminal name production) := by
  have nameListed : .nonterminal name ∈ production.rhs := by simp [rhsEq]
  rcases shaped with ⟨word, single⟩ | ⟨names, _, namesEq⟩
  · simp [single] at nameListed
  · have noWord : production.word? = none := by
      rw [Production.word?]
      split
      · rename_i word single
        simp [single] at nameListed
      · rfl
    have texts : ∀ symbol ∈ front, ids.lookup symbol.text ≠ none := by
      intro symbol member
      have listed : symbol ∈ production.rhs := by simp [rhsEq, member]
      obtain ⟨other, _, rfl⟩ := List.mem_map.mp (namesEq ▸ listed)
      exact defined other member
    have failed : numberSymbols ids production
        (front ++ .nonterminal name :: back) =
        .error (.undefinedNonterminal name production) :=
      numberSymbols_of_undefined texts undefined
    rw [numberProduction, noWord]
    dsimp only
    rw [rhsEq, failed]
    rfl

/-- A production is listed just if its symbols can be numbered, whatever has been
listed before. -/
theorem exists_addProduction_eq_ok {numbered : NumberedProduction}
    (numbering : numberProduction ids production = .ok numbered) (index : Nat)
    (entries : Entries) :
    ∃ next, addProduction ids entries (production, index) = .ok next := by
  rw [addProduction, numbering]
  exact ⟨_, rfl⟩

theorem addProduction_eq_error
    (numbering : numberProduction ids production = .error error) (index : Nat)
    (entries : Entries) :
    addProduction ids entries (production, index) = .error error := by
  rw [addProduction, numbering]
  rfl

theorem index_of_undefined_start (undefined : ¬ Defines productions start) :
    index start productions = .error (.undefinedStart start) := by
  rw [index]
  simp only [lookup_numberLeftHandSides_eq_none_iff.mpr undefined]

theorem lookup_ne_none_iff :
    (numberLeftHandSides productions).ids.lookup name ≠ none ↔
      Defines productions name :=
  lookup_numberLeftHandSides_eq_none_iff.not.trans not_not

/-- With a start symbol that is defined, the second pass decides. -/
theorem index_of_defined_start (defined : Defines productions start) :
    ∃ complete : Entries → Grammar, index start productions =
      (listProductions (numberLeftHandSides productions) productions).map
        complete := by
  rw [index]
  split
  · rename_i missing
    exact absurd missing (lookup_ne_none_iff.mpr defined)
  · exact ⟨_, rfl⟩

theorem index_of_firstUndefined
    (shaped : ∀ production ∈ productions, production.WellShaped)
    (defined : Defines productions start)
    (first : FirstUndefined productions production name) :
    index start productions =
      .error (.undefinedNonterminal name production) := by
  obtain ⟨before, after, front, back, divided, rhsEq, definedBefore,
    definedFront, undefined⟩ := first
  have failed :
      numberProduction (numberLeftHandSides productions).ids production =
        .error (.undefinedNonterminal name production) :=
    numberProduction_of_undefined (shaped production (by simp [divided])) rhsEq
      (fun other listed => lookup_ne_none_iff.mpr (definedFront other listed))
      (lookup_numberLeftHandSides_eq_none_iff.mpr undefined)
  have done : ∀ entry ∈ before.zipIdx, ∀ entries, ∃ next,
      addProduction (numberLeftHandSides productions).ids entries entry =
        .ok next := by
    rintro ⟨earlier, index⟩ member
    have listed := List.fst_mem_of_mem_zipIdx member
    obtain ⟨numbered, numbering⟩ := numberProduction_of_defined
      (shaped earlier (by simp [divided, listed]))
      fun other within => lookup_ne_none_iff.mpr
        (definedBefore earlier listed other within)
    exact exists_addProduction_eq_ok numbering index
  have placed : productions.zipIdx = before.zipIdx ++
      (production, before.length) :: after.zipIdx (before.length + 1) := by
    rw [divided, List.zipIdx_append, List.zipIdx_cons, Nat.zero_add]
  obtain ⟨complete, indexEq⟩ := index_of_defined_start defined
  rw [indexEq, listProductions, placed,
    foldlM_eq_error done (addProduction_eq_error failed before.length)]
  rfl

theorem exists_index_eq_ok
    (shaped : ∀ production ∈ productions, production.WellShaped)
    (defined : Defines productions start) (allDefined : AllDefined productions) :
    ∃ grammar, index start productions = .ok grammar := by
  have done : ∀ entry ∈ productions.zipIdx, ∀ entries, ∃ next,
      addProduction (numberLeftHandSides productions).ids entries entry =
        .ok next := by
    rintro ⟨production, index⟩ member
    have listed := List.fst_mem_of_mem_zipIdx member
    obtain ⟨numbered, numbering⟩ := numberProduction_of_defined
      (shaped production listed)
      fun name within => lookup_ne_none_iff.mpr
        (allDefined production listed name within)
    exact exists_addProduction_eq_ok numbering index
  obtain ⟨entries, entriesEq⟩ := exists_foldlM_eq_ok done _
  obtain ⟨complete, indexEq⟩ := index_of_defined_start defined
  rw [indexEq, listProductions, entriesEq]
  exact ⟨_, rfl⟩

end Grammar

end Constituency
