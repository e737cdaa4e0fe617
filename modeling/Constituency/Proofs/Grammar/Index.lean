import Constituency.Grammar.Index
import Constituency.Proofs.Failure
import Mathlib.Data.List.Forall2
import Mathlib.Data.List.Induction
import Mathlib.Data.List.Nodup

/-!
# What the indexes of a grammar hold

The first pass lists each left-hand side at its first occurrence, and numbers it
by its place in this list.  After the second pass has gone through some
productions, its entries say just what these productions say: which of them have
some left-hand side or produce some word, in the order of their numbers, and what
their numbered forms are.
-/

namespace Constituency

theorem eraseDups_concat {α : Type} [DecidableEq α] (before : List α)
    (element : α) :
    (before ++ [element]).eraseDups =
      if element ∈ before then before.eraseDups
      else before.eraseDups ++ [element] := by
  rw [List.eraseDups_append]
  by_cases old : element ∈ before
  · simp [List.removeAll, old]
  · simp [List.removeAll, old, List.eraseDups_cons]

theorem find?_eraseDups {α : Type} [DecidableEq α] (selects : α → Bool)
    (elements : List α) :
    elements.eraseDups.find? selects = elements.find? selects := by
  induction elements using List.reverseRecOn with
  | nil => rfl
  | append_singleton before element ih =>
      rw [eraseDups_concat, List.find?_append]
      by_cases old : element ∈ before
      · rw [if_pos old, ih]
        cases earlier : before.find? selects with
        | some other => rfl
        | none =>
            have passed := List.find?_eq_none.mp earlier element old
            simp [passed]
      · rw [if_neg old, List.find?_append, ih]

/-- Elements that occur again do not matter to the first occurrences of what
they are mapped to. -/
theorem eraseDups_map_eraseDups {α β : Type} [DecidableEq α] [DecidableEq β]
    (change : α → β) (elements : List α) :
    (elements.eraseDups.map change).eraseDups =
      (elements.map change).eraseDups := by
  induction elements using List.reverseRecOn with
  | nil => rfl
  | append_singleton before element ih =>
      rw [eraseDups_concat, List.map_append, List.map_singleton,
        eraseDups_concat]
      by_cases old : element ∈ before
      · rw [if_pos old, if_pos (List.mem_map_of_mem old), ih]
      · have known_iff : change element ∈ before.eraseDups.map change ↔
            change element ∈ before.map change := by
          simp only [List.mem_map, List.mem_eraseDups]
        rw [if_neg old, List.map_append, List.map_singleton, eraseDups_concat,
          ih]
        simp only [known_iff]

/-- The number kept for a name is the place where the name stands. -/
def Inverts (ids : List (String × Nat)) (names : Array String) : Prop :=
  ∀ name number, ids.lookup name = some number ↔ names[number]? = some name

section Numbering

variable {ids : List (String × Nat)} {names : Array String}

theorem Inverts.nodup (inverts : Inverts ids names) : names.toList.Nodup := by
  rw [List.nodup_iff_getElem?_ne_getElem?]
  intro first second lower below same
  simp only [Array.getElem?_toList] at same
  have placed : names[second]? = some names[second] :=
    Array.getElem?_eq_getElem (by simpa using below)
  have found := (inverts _ first).mpr (same.trans placed)
  have found' := (inverts _ second).mpr placed
  exact Nat.ne_of_lt lower (Option.some.inj (found.symm.trans found'))

theorem Inverts.lookup_eq_none_iff (inverts : Inverts ids names)
    {name : String} : ids.lookup name = none ↔ name ∉ names := by
  rw [Array.mem_iff_getElem?, not_exists, Option.eq_none_iff_forall_ne_some]
  exact forall_congr' fun number => (inverts name number).not

/-- What a numbering is after the given names have been added in turn. -/
structure Numbering.Lists (numbering : Numbering) (added : List String) :
    Prop where
  names_eq : numbering.names.toList = added.eraseDups
  inverts : Inverts numbering.ids numbering.names

variable {numbering : Numbering} {added : List String}

theorem Inverts.push (inverts : Inverts ids names) {name : String}
    (new : ids.lookup name = none) :
    Inverts ((name, names.size) :: ids) (names.push name) := by
  intro other number
  rw [List.lookup_cons, Array.getElem?_push]
  have unplaced : names[number]? ≠ some name := fun placed => by
    simp [(inverts name number).mpr placed] at new
  by_cases same : other = name
  · subst other
    simp only [beq_self_eq_true, Option.some.injEq]
    split
    · rename_i last
      simp [last]
    · rename_i earlier
      exact iff_of_false (Ne.symm earlier) unplaced
  · simp only [beq_eq_false_iff_ne.mpr same]
    rw [inverts other number]
    split
    · rename_i last
      simp [last, Ne.symm same]
    · rfl

theorem Numbering.Lists.add (lists : numbering.Lists added) (name : String) :
    (numbering.add name).Lists (added ++ [name]) := by
  have known_iff : numbering.ids.lookup name = none ↔ name ∉ added := by
    rw [lists.inverts.lookup_eq_none_iff, ← Array.mem_toList_iff,
      lists.names_eq, List.mem_eraseDups]
  rw [Numbering.add]
  cases found : numbering.ids.lookup name with
  | some number =>
      have old : name ∈ added := by
        by_contra new
        simp [known_iff.mpr new] at found
      refine ⟨?_, lists.inverts⟩
      rw [eraseDups_concat, if_pos old, lists.names_eq]
  | none =>
      refine ⟨?_, lists.inverts.push found⟩
      rw [eraseDups_concat, if_neg (known_iff.mp found), Array.toList_push,
        lists.names_eq]

theorem Numbering.Lists.foldl (lists : numbering.Lists added)
    (productions : List Production) :
    (productions.foldl
        (fun numbering production => numbering.add production.lhs)
        numbering).Lists (added ++ productions.map (·.lhs)) := by
  induction productions generalizing numbering added with
  | nil => simpa using lists
  | cons production rest ih => simpa using ih (lists.add production.lhs)

end Numbering

namespace Grammar

/-- The left-hand sides are listed at their first occurrences. -/
theorem lists_numberLeftHandSides (productions : List Production) :
    (numberLeftHandSides productions).Lists (productions.map (·.lhs)) := by
  have empty : (⟨#[], []⟩ : Numbering).Lists [] := ⟨rfl, by simp [Inverts]⟩
  exact empty.foldl productions

theorem lookup_numberLeftHandSides_eq_none_iff {productions : List Production}
    {name : String} :
    (numberLeftHandSides productions).ids.lookup name = none ↔
      ¬ ∃ production ∈ productions, production.lhs = name := by
  have lists := lists_numberLeftHandSides productions
  rw [lists.inverts.lookup_eq_none_iff, ← Array.mem_toList_iff, lists.names_eq,
    List.mem_eraseDups, List.mem_map]

theorem lookup_addWord (word other : String) (index : Nat)
    (lexicon : List (String × List Nat)) :
    ((addWord word index lexicon).lookup other).getD [] =
      (lexicon.lookup other).getD [] ++ if word = other then [index] else [] := by
  induction lexicon with
  | nil =>
      by_cases same : word = other
      · simp [addWord, same]
      · have : (other == word) = false := by simpa using Ne.symm same
        simp [addWord, same, List.lookup_cons, this]
  | cons entry rest ih =>
      obtain ⟨known, indices⟩ := entry
      rw [addWord]
      by_cases found : known = word
      · subst known
        by_cases same : word = other
        · simp [same]
        · have : (other == word) = false := by simpa using Ne.symm same
          simp [same, List.lookup_cons, this]
      · rw [if_neg found]
        by_cases here : other = known
        · subst known
          simp [Ne.symm found]
        · have : (other == known) = false := by simpa using here
          simp only [List.lookup_cons, this]
          exact ih

private theorem ne_nil_of_mem_addWord {word : String} {index : Nat}
    {lexicon : List (String × List Nat)}
    (listing : ∀ entry ∈ lexicon, entry.2 ≠ []) :
    ∀ entry ∈ addWord word index lexicon, entry.2 ≠ [] := by
  induction lexicon with
  | nil => simp [addWord]
  | cons first rest ih =>
      obtain ⟨firstListing, restListing⟩ := List.forall_mem_cons.mp listing
      rw [addWord]
      split
      · exact List.forall_mem_cons.mpr ⟨by simp, restListing⟩
      · exact List.forall_mem_cons.mpr ⟨firstListing, ih restListing⟩

theorem mem_findIdxs_iff {α : Type} {elements : List α} {selects : α → Bool}
    {place : Nat} :
    place ∈ elements.findIdxs selects ↔
      ∃ element, elements[place]? = some element ∧ selects element = true := by
  rw [List.mem_findIdxs_iff_exists_getElem_pos]
  constructor
  · rintro ⟨below, selected⟩
    exact ⟨_, List.getElem?_eq_getElem below, selected⟩
  · rintro ⟨element, found, selected⟩
    obtain ⟨below, rfl⟩ := List.getElem?_eq_some_iff.mp found
    exact ⟨below, selected⟩

theorem findIdxs_concat {α : Type} (before : List α) (element : α)
    (selects : α → Bool) :
    (before ++ [element]).findIdxs selects =
      before.findIdxs selects ++
        if selects element then [before.length] else [] := by
  rw [List.findIdxs_append, List.findIdxs_singleton, Nat.zero_add]

theorem forall₂_of_numberSymbols {ids : List (String × Nat)}
    {production : Production} {symbols : List Symbol} {numbers : List Nat}
    (done : numberSymbols ids production symbols = .ok numbers) :
    List.Forall₂ (fun symbol number => ids.lookup symbol.text = some number)
      symbols numbers := by
  induction symbols generalizing numbers with
  | nil =>
      injection done with equal
      subst equal
      exact .nil
  | cons symbol rest ih =>
      rw [numberSymbols] at done
      split at done
      · simp at done
      · rename_i number found
        obtain ⟨others, othersDone, rfl⟩ := map_eq_ok_iff.mp done
        exact .cons found (ih othersDone)

theorem lhs_of_numberProduction {ids : List (String × Nat)}
    {production : Production} {numbered : NumberedProduction}
    (done : numberProduction ids production = .ok numbered) :
    numbered.lhs = (ids.lookup production.lhs).getD 0 := by
  rw [numberProduction] at done
  split at done
  · rw [← Except.ok.inj done]
  · obtain ⟨rhs, _, rfl⟩ := map_eq_ok_iff.mp done
    rfl

section Entries

variable {names : Array String} {ids : List (String × Nat)}
variable {entries last : Entries} {before rest : List Production}
variable {production : Production}

/-- What the entries are after the second pass has gone through the
productions. -/
structure Lists (names : Array String) (ids : List (String × Nat))
    (entries : Entries) (productions : List Production) : Prop where
  byLhs_eq : entries.byLhs =
    names.map fun name => productions.findIdxs (·.lhs = name)
  lookup_lexicon : ∀ word, (entries.lexicon.lookup word).getD [] =
    productions.findIdxs (·.word? = some word)
  ne_nil_of_mem_lexicon : ∀ entry ∈ entries.lexicon, entry.2 ≠ []
  numbered : List.Forall₂ (fun production numbered =>
    numberProduction ids production = .ok numbered)
    productions entries.numbered.toList

theorem modify_map_findIdxs (inverts : Inverts ids names) {lhs : Nat}
    (found : ids.lookup production.lhs = some lhs) :
    (names.map fun name => before.findIdxs (·.lhs = name)).modify lhs
        (· ++ [before.length]) =
      names.map fun name =>
        (before ++ [production]).findIdxs (·.lhs = name) := by
  apply Array.ext_getElem?
  intro place
  rw [Array.getElem?_modify, Array.getElem?_map, Array.getElem?_map]
  cases placed : names[place]? with
  | none => simp
  | some name =>
      -- The place is that of the left-hand side just if the name is.
      have here_iff : lhs = place ↔ production.lhs = name := by
        constructor
        · rintro rfl
          rw [(inverts _ _).mp found] at placed
          exact Option.some.inj placed
        · rintro rfl
          rw [(inverts _ _).mpr placed] at found
          exact (Option.some.inj found).symm
      simp only [here_iff, Option.map_some, findIdxs_concat, decide_eq_true_eq]
      split <;> simp

/-- One production more is listed in its places. -/
theorem Lists.addProduction (lists : Lists names ids entries before)
    (inverts : Inverts ids names) (defined : production.lhs ∈ names)
    (done : addProduction ids entries (production, before.length) = .ok last) :
    Lists names ids last (before ++ [production]) := by
  obtain ⟨numbered, numbering, rfl⟩ := map_eq_ok_iff.mp done
  obtain ⟨lhs, found⟩ : ∃ lhs, ids.lookup production.lhs = some lhs := by
    rw [← Option.ne_none_iff_exists', ne_eq, inverts.lookup_eq_none_iff]
    exact not_not_intro defined
  have lhsEq : numbered.lhs = lhs := by
    rw [lhs_of_numberProduction numbering, found]
    rfl
  refine ⟨?_, fun word => ?_, ?_, ?_⟩
  · rw [lists.byLhs_eq, lhsEq, modify_map_findIdxs inverts found]
  · rw [findIdxs_concat, ← lists.lookup_lexicon word]
    cases produced : production.word? with
    | none => simp
    | some other => simp [lookup_addWord]
  · dsimp only
    split
    · exact ne_nil_of_mem_addWord lists.ne_nil_of_mem_lexicon
    · exact lists.ne_nil_of_mem_lexicon
  · rw [Array.toList_push]
    exact List.rel_append lists.numbered (.cons numbering .nil)

theorem Lists.foldlM (lists : Lists names ids entries before)
    (inverts : Inverts ids names)
    (defined : ∀ production ∈ rest, production.lhs ∈ names)
    (done : (rest.zipIdx before.length).foldlM
      (Grammar.addProduction ids) entries = .ok last) :
    Lists names ids last (before ++ rest) := by
  induction rest generalizing entries before with
  | nil =>
      obtain rfl := Except.ok.inj done
      simpa using lists
  | cons production rest ih =>
      obtain ⟨firstDefined, restDefined⟩ := List.forall_mem_cons.mp defined
      rw [List.zipIdx_cons] at done
      obtain ⟨next, nextEq, done⟩ := foldlM_cons_eq_ok_iff.mp done
      have further := lists.addProduction inverts firstDefined nextEq
      rw [List.append_cons]
      exact ih further restDefined (by simpa using done)

theorem lists_empty (names : Array String) (ids : List (String × Nat)) :
    Lists names ids ⟨Array.replicate names.size [], [], #[]⟩ [] := by
  refine ⟨?_, by simp, by simp, .nil⟩
  apply Array.ext_getElem?
  intro place
  rw [Array.getElem?_replicate, Array.getElem?_map]
  split
  · rename_i below
    simp [below]
  · rename_i beyond
    simp [beyond]

end Entries

theorem getElem?_of_forall₂ {α β : Type} {related : α → β → Prop}
    {first : List α} {second : List β}
    (sideBySide : List.Forall₂ related first second) {index : Nat} {left : α}
    (found : first[index]? = some left) :
    ∃ right, second[index]? = some right ∧ related left right := by
  induction sideBySide generalizing index with
  | nil => simp at found
  | @cons left' right first second heads tails ih =>
      cases index with
      | zero =>
          simp only [List.getElem?_cons_zero, Option.some.injEq] at found
          exact ⟨right, by simp, found ▸ heads⟩
      | succ index => exact ih (by simpa using found)

/-- The parts of an indexed grammar. -/
structure Indexes (grammar : Grammar) (start : String)
    (productions : List Production) : Prop where
  start_eq : grammar.start = start
  productions_eq : grammar.productions.toList = productions
  nonterminals_eq : grammar.nonterminals.toList =
    (productions.map (·.lhs)).eraseDups
  inverts : Inverts grammar.ids grammar.nonterminals
  start_mem : start ∈ grammar.nonterminals
  lists : Lists grammar.nonterminals grammar.ids
    ⟨grammar.byLhs, grammar.lexicon, grammar.numbered⟩ productions

theorem Indexes.byLhs_eq {start : String} {productions : List Production}
    {grammar : Grammar} (indexes : Indexes grammar start productions) :
    grammar.byLhs = grammar.nonterminals.map fun name =>
      productions.findIdxs (·.lhs = name) :=
  indexes.lists.byLhs_eq

theorem mem_nonterminals_iff {start : String} {productions : List Production}
    {grammar : Grammar} (indexes : Indexes grammar start productions)
    {name : String} :
    name ∈ grammar.nonterminals ↔
      ∃ production ∈ productions, production.lhs = name := by
  rw [← Array.mem_toList_iff, indexes.nonterminals_eq, List.mem_eraseDups,
    List.mem_map]

theorem indexes_of_index {start : String} {productions : List Production}
    {grammar : Grammar} (indexed : index start productions = .ok grammar) :
    Indexes grammar start productions := by
  obtain ⟨namesEq, inverts⟩ := lists_numberLeftHandSides productions
  have defined : ∀ production ∈ productions,
      production.lhs ∈ (numberLeftHandSides productions).names := by
    intro production member
    rw [← Array.mem_toList_iff, namesEq, List.mem_eraseDups]
    exact List.mem_map_of_mem member
  unfold index at indexed
  dsimp only at indexed
  split at indexed
  · simp at indexed
  · rename_i number found
    obtain ⟨entries, done, rfl⟩ := map_eq_ok_iff.mp indexed
    exact ⟨rfl, rfl, namesEq, inverts,
      Array.mem_of_getElem? ((inverts start number).mp found),
      (lists_empty _ _).foldlM inverts defined done⟩

theorem knowsWord_iff_lexicalFor_ne_nil {start : String}
    {productions : List Production} {grammar : Grammar}
    (indexes : Indexes grammar start productions) (word : String) :
    grammar.knowsWord word = true ↔ grammar.lexicalFor word ≠ [] := by
  rw [knowsWord, lexicalFor]
  cases found : grammar.lexicon.lookup word with
  | none => simp
  | some indices =>
      have entry : (word, indices) ∈ grammar.lexicon := by
        obtain ⟨before, after, split, _⟩ := List.lookup_eq_some_iff.mp found
        simp [split]
      simpa using indexes.lists.ne_nil_of_mem_lexicon _ entry

end Grammar

end Constituency
