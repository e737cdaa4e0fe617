import Constituency.Proofs.Span
import Constituency.Proofs.Token.Word
import Mathlib.Data.List.Basic
import Mathlib.Logic.ExistsUnique

/-!
# Where the tokens of a sentence stand

The words of a text stand at disjoint spans of it, from left to right.  No word can
be made longer: what comes before it and what follows it are apart from it.  As
every word character belongs to a word, no letter is lost when the words without
letters are dropped.
-/

namespace Constituency

namespace Span

def letters (span : Span) (text : List Char) : List Char :=
  (text.drop span.start).take span.length

/-- The place belongs to the span. -/
def Covers (span : Span) (place : Nat) : Prop :=
  span.start ≤ place ∧ place < span.stop

theorem letters_append (before word after : List Char) :
    (⟨before.length, before.length + word.length⟩ : Span).letters
      (before ++ (word ++ after)) = word := by
  simp [letters, length]

theorem Covers.mem_letters {span : Span} {place : Nat} {text : List Char}
    {c : Char} (covers : span.Covers place) (found : text[place]? = some c) :
    c ∈ span.letters text := by
  obtain ⟨startLe, lower⟩ := covers
  apply List.mem_of_getElem? (i := place - span.start)
  rw [letters, List.getElem?_take_of_lt, List.getElem?_drop,
    Nat.add_sub_cancel' startLe, found]
  rw [length]
  omega

theorem Covers.unique {spans : List Span} {first second : Span} {place : Nat}
    (ordered : spans.Pairwise LeftOf) (firstMember : first ∈ spans)
    (secondMember : second ∈ spans) (covers : first.Covers place)
    (covers' : second.Covers place) : first = second := by
  induction ordered with
  | nil => cases firstMember
  | cons leftOf _ ih =>
      rcases List.mem_cons.mp firstMember with rfl | firstInRest
      · rcases List.mem_cons.mp secondMember with rfl | secondInRest
        · rfl
        · have apart : first.stop ≤ second.start := leftOf second secondInRest
          simp only [Covers] at covers covers'
          omega
      · rcases List.mem_cons.mp secondMember with rfl | secondInRest
        · have apart : second.stop ≤ first.start := leftOf first firstInRest
          simp only [Covers] at covers covers'
          omega
        · exact ih firstInRest secondInRest

end Span

namespace Token

open Text

/-- What follows the span is apart from it, and so is what comes before it, the
nearest character first. -/
structure Maximal (text : List Char) (span : Span) : Prop where
  after : Apart (text.drop span.stop)
  before : Apart (text.take span.start).reverse

/-- The spans from some place on at which the words of a text stand. -/
structure Locates (text : List Char) (place : Nat) (spans : List Span) :
    Prop where
  within : ∀ span ∈ spans, place ≤ span.start ∧ span.stop ≤ text.length
  ordered : spans.Pairwise Span.LeftOf
  formed : ∀ span ∈ spans, WordForm (span.letters text)
  maximal : ∀ span ∈ spans, Maximal text span
  covers : ∀ index c, place ≤ index → text[index]? = some c →
    isWordChar c = true → ∃ span ∈ spans, span.Covers index

/-- Between the texts, the first of them read backwards, a word can neither go on
nor have begun earlier. -/
structure Parted (before rest : List Char) : Prop where
  after_word : ∀ c, before[0]? = some c → isWordChar c = true → Apart rest
  before_word : ∀ c, rest[0]? = some c → isWordChar c = true → Apart before

variable {text before rest word after : List Char} {c : Char}
variable {spans : List Span} {span : Span} {place stop : Nat}

section Steps

theorem parted_nil (text : List Char) : Parted [] text :=
  ⟨by simp, fun _ _ _ => apart_nil⟩

/-- A character between words does not join what it stands between. -/
theorem Parted.skip (parted : Parted before (c :: rest))
    (notWord : isWordChar c = false) : Parted (c :: before) rest where
  after_word := by
    intro last found isWord
    obtain rfl := Option.some.inj found
    simp [notWord] at isWord
  before_word := by
    intro next nextFound nextIsWord
    constructor
    · intro last found
      obtain rfl := Option.some.inj found
      exact notWord
    · intro joiner earlier found joins earlierFound
      obtain rfl := Option.some.inj found
      cases isWord : isWordChar earlier with
      | false => rfl
      | true =>
          -- Then the word before the joiner would have gone on.
          have ended := (parted.after_word earlier earlierFound isWord).no_joined
            c next rfl joins nextFound
          simp [nextIsWord] at ended

theorem parted_of_apart (apart : Apart rest) : Parted before rest where
  after_word := fun _ _ _ => apart
  before_word := by
    intro c found isWord
    simp [apart.no_wordChar c found] at isWord

theorem locates_nil (text : List Char) : Locates text text.length [] where
  within := by simp
  ordered := .nil
  formed := by simp
  maximal := by simp
  covers := by
    intro index c past found _
    rw [List.getElem?_eq_none past] at found
    cases found

theorem Locates.skip (locates : Locates text (place + 1) spans)
    (found : text[place]? = some c) (notWord : isWordChar c = false) :
    Locates text place spans where
  within := fun span member =>
    ⟨Nat.le_of_succ_le (locates.within span member).1,
      (locates.within span member).2⟩
  ordered := locates.ordered
  formed := locates.formed
  maximal := locates.maximal
  covers := by
    intro index other past otherFound isWord
    rcases Nat.eq_or_lt_of_le past with rfl | later
    · obtain rfl := Option.some.inj (found.symm.trans otherFound)
      simp [notWord] at isWord
    · exact locates.covers index other later otherFound isWord

theorem Locates.cons (locates : Locates text stop spans)
    (proper : place < stop) (within : stop ≤ text.length)
    (form : WordForm ((⟨place, stop⟩ : Span).letters text))
    (maximal : Maximal text ⟨place, stop⟩) :
    Locates text place (⟨place, stop⟩ :: spans) where
  within := by
    refine List.forall_mem_cons.mpr ⟨⟨Nat.le_refl _, within⟩, ?_⟩
    intro span member
    obtain ⟨startLe, stopLe⟩ := locates.within span member
    exact ⟨Nat.le_trans (Nat.le_of_lt proper) startLe, stopLe⟩
  ordered := .cons (fun span member => (locates.within span member).1)
    locates.ordered
  formed := List.forall_mem_cons.mpr ⟨form, locates.formed⟩
  maximal := List.forall_mem_cons.mpr ⟨maximal, locates.maximal⟩
  covers := by
    intro index c past found isWord
    by_cases earlier : index < stop
    · exact ⟨_, List.mem_cons_self, past, earlier⟩
    · obtain ⟨span, member, covered⟩ :=
        locates.covers index c (Nat.le_of_not_lt earlier) found isWord
      exact ⟨span, List.mem_cons_of_mem _ member, covered⟩

end Steps

theorem exists_locates (before : List Char) {rest : List Char}
    (parted : Parted before.reverse rest) :
    ∃ spans, words rest = spans.map (·.letters (before ++ rest)) ∧
      Locates (before ++ rest) before.length spans := by
  fun_induction words rest generalizing before with
  | case1 =>
      refine ⟨[], rfl, ?_⟩
      rw [List.append_nil]
      exact locates_nil before
  | case2 c rest isWord ih =>
      have whole : c :: rest =
          (c :: (splitWord rest).1) ++ (splitWord rest).2 := by
        rw [List.cons_append, splitWord_append]
      generalize wordEq : c :: (splitWord rest).1 = word at ih whole ⊢
      have form : WordForm word := wordEq ▸ (wordForm_splitWord rest).1 c isWord
      have apart := apart_splitWord rest
      generalize (splitWord rest).2 = after at ih whole apart ⊢
      obtain ⟨spans, wordsEq, locates⟩ := ih (before ++ word)
        (parted_of_apart apart)
      have apartBefore := parted.before_word c rfl isWord
      rw [whole] at parted ⊢
      rw [List.append_assoc] at wordsEq locates
      rw [List.length_append] at locates
      have lettersEq := Span.letters_append before word after
      refine ⟨⟨before.length, before.length + word.length⟩ :: spans, ?_, ?_⟩
      · rw [List.map_cons, lettersEq, wordsEq]
      · apply locates.cons
        · have := List.length_pos_iff.mpr form.ne_nil
          omega
        · simp
        · rwa [lettersEq]
        · constructor
          · simpa using apart
          · simpa using apartBefore
  | case3 c rest notWord ih =>
      rw [Bool.not_eq_true] at notWord
      have moved : before ++ c :: rest = (before ++ [c]) ++ rest := by simp
      obtain ⟨spans, wordsEq, locates⟩ := ih (before ++ [c])
        (by simpa using parted.skip notWord)
      rw [← moved] at wordsEq locates
      rw [List.length_append, List.length_singleton] at locates
      exact ⟨spans, wordsEq, locates.skip (by simp) notWord⟩

theorem filter_flatten_words (text : List Char) :
    (words text).flatten.filter (IsLetter ·) = text.filter (IsLetter ·) := by
  fun_induction words text with
  | case1 => rfl
  | case2 c rest isWord ih =>
      conv_rhs => rw [← splitWord_append rest]
      rw [List.flatten_cons, List.filter_append, ih, ← List.filter_append,
        List.cons_append]
  | case3 c rest notWord ih =>
      have notLetter : ¬ IsLetter c := fun letter => notWord letter.isWordChar
      rw [ih, List.filter_cons_of_neg (by simpa using notLetter)]

/-- Texts without a letter can be left out where only letters are kept. -/
theorem filter_flatten_filter (texts : List (List Char)) :
    (texts.filter (·.any (IsLetter ·))).flatten.filter (IsLetter ·) =
      texts.flatten.filter (IsLetter ·) := by
  induction texts with
  | nil => rfl
  | cons text rest ih =>
      cases lettered : text.any (IsLetter ·) with
      | true =>
          rw [List.filter_cons, if_pos lettered, List.flatten_cons,
            List.flatten_cons, List.filter_append, List.filter_append, ih]
      | false =>
          have none : text.filter (IsLetter ·) = [] := by
            simpa [List.filter_eq_nil_iff] using lettered
          rw [List.filter_cons, if_neg (by simp [lettered]), List.flatten_cons,
            List.filter_append, none, List.nil_append, ih]

end Token

/-- The tokens are the words in which there is a letter. -/
theorem map_toList_tokenize (sentence : String) :
    (tokenize sentence).map String.toList =
      (Token.words (Text.lowercase sentence.toList)).filter
        (·.any (Token.IsLetter ·)) := by
  have letters : Char.isLower = fun c => decide (Token.IsLetter c) := by
    funext c
    rw [Bool.eq_iff_iff, Token.isLower_iff, decide_eq_true_eq]
  rw [tokenize, List.map_map, letters]
  simp [Function.comp_def, String.toList_ofList]

/-- The tokens of a sentence are words with a letter that stand at disjoint spans of
the lower-case sentence, from left to right.  None of them can be made longer, and
every letter belongs to just one of them. -/
theorem tokenize_exact (sentence : String) :
    let text := Text.lowercase sentence.toList
    ∃ spans : List Span,
      (tokenize sentence).map String.toList =
        spans.map (fun span => span.letters text) ∧
      spans.Pairwise Span.LeftOf ∧
      (∀ span ∈ spans, span.stop ≤ text.length ∧
        Token.WordForm (span.letters text) ∧
        (∃ c ∈ span.letters text, Token.IsLetter c) ∧
        Token.Maximal text span) ∧
      (∀ place c, text[place]? = some c → Token.IsLetter c →
        ∃! span, span ∈ spans ∧ span.Covers place) ∧
      ((tokenize sentence).flatMap String.toList).filter (Token.IsLetter ·) =
        text.filter (Token.IsLetter ·) := by
  intro text
  obtain ⟨all, wordsEq, locates⟩ :
      ∃ spans : List Span, Token.words text = spans.map (·.letters text) ∧
        Token.Locates text 0 spans :=
    Token.exists_locates [] (Token.parted_nil text)
  refine ⟨all.filter fun span => (span.letters text).any (Token.IsLetter ·),
    ?_, locates.ordered.filter _, ?_, ?_, ?_⟩
  · rw [map_toList_tokenize, wordsEq, List.filter_map]
    rfl
  · intro span member
    obtain ⟨member, lettered⟩ := List.mem_filter.mp member
    refine ⟨(locates.within span member).2, locates.formed span member, ?_,
      locates.maximal span member⟩
    simpa using lettered
  · intro place c found letter
    obtain ⟨span, member, covers⟩ :=
      locates.covers place c (Nat.zero_le _) found letter.isWordChar
    have lettered : (span.letters text).any (Token.IsLetter ·) = true := by
      simpa using ⟨c, covers.mem_letters found, letter⟩
    refine ⟨span, ⟨List.mem_filter.mpr ⟨member, lettered⟩, covers⟩, ?_⟩
    rintro other ⟨otherMember, otherCovers⟩
    exact otherCovers.unique locates.ordered (List.mem_of_mem_filter otherMember)
      member covers
  · rw [List.flatMap_def, map_toList_tokenize, Token.filter_flatten_filter,
      Token.filter_flatten_words]

example : tokenize "Holmes's -- 'well-worn' No. 22-b" =
    ["holmes's", "well-worn", "no", "22-b"] := by
  decide +kernel

end Constituency
