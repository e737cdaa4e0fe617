import Constituency.Proofs.Text.Blank

/-!
# Lower-casing of text

A blank character ends every word, so the lower-case form of a text is found part
by part: neither what comes before a blank character nor what follows it matters to
the other side.  Lower-case forms are their own lower-case forms, and a text of such
characters stays as it is.
-/

namespace Constituency.Text

variable {before text rest earlier : List Char} {c d : Char}

section Blank

theorem meetsCased_append_blank (blank : isBlank c = true)
    (text rest : List Char) :
    meetsCased (text ++ c :: rest) = meetsCased text := by
  induction text with
  | nil =>
      simp [meetsCased, isCaseIgnorable_of_isBlank blank,
        isCased_of_isBlank blank]
  | cons d text ih =>
      cases ignorable : isCaseIgnorable d with
      | true =>
          simpa only [meetsCased, List.cons_append,
            List.dropWhile_cons_of_pos ignorable] using ih
      | false => simp [meetsCased, ignorable]

/-- What comes before a blank character does not matter after it. -/
theorem lowercaseAfter_append_blank (blank : isBlank c = true)
    (before earlier text : List Char) :
    lowercaseAfter (before ++ c :: earlier) text =
      lowercaseAfter before text := by
  induction text generalizing before with
  | nil => rfl
  | cons d text ih =>
      rw [lowercaseAfter, lowercaseAfter, ← List.cons_append, ih, lowerSigma,
        lowerSigma, meetsCased_append_blank blank]

theorem lowercase_append_blank (blank : isBlank c = true)
    (text rest : List Char) :
    lowercase (text ++ c :: rest) = lowercase text ++ c :: lowercase rest := by
  suffices ∀ before, lowercaseAfter before (text ++ c :: rest) =
      lowercaseAfter before text ++ c :: lowercase rest from this []
  intro before
  induction text generalizing before with
  | nil =>
      have notSigma : c ≠ 'Σ' := by
        rintro rfl
        exact absurd blank (by decide)
      have restEq : lowercaseAfter (c :: before) rest = lowercase rest :=
        lowercaseAfter_append_blank blank [] before rest
      rw [List.nil_append, lowercaseAfter.eq_2, if_neg notSigma,
        lowerChar_of_isBlank blank, restEq]
      rfl
  | cons d text ih =>
      rw [List.cons_append, lowercaseAfter, lowercaseAfter, ih, lowerSigma,
        lowerSigma, meetsCased_append_blank blank, List.append_assoc]

end Blank

namespace CaseRun

/-- The code point has a lower-case form by the run. -/
structure Holds (run : CaseRun) (code : Nat) : Prop where
  first_le : run.first ≤ code
  le_last : code ≤ run.last
  in_step : (code - run.first) % run.step = 0

def lastLower (run : CaseRun) : Nat :=
  run.lower + (run.last - run.first)

/-- Whether the forms of a run lie beside another run, or between the code points
that it holds. -/
def formsAvoid (run other : CaseRun) : Bool :=
  other.last.blt run.lower || run.lastLower.blt other.first ||
    ((run.step.beq 2 || run.first.beq run.last) && other.step.beq 2 &&
      ((run.lower + other.first) % 2).beq 1)

/-- Whether the forms of a run are characters, and none is the dotted capital
I. -/
def formsPlain (run : CaseRun) : Bool :=
  (run.lastLower.blt 0xD800 ||
    Nat.blt 0xDFFF run.lower && run.lastLower.blt 0x110000) &&
  (run.lastLower.blt 0x130 || Nat.blt 0x130 run.lower)

variable {run other : CaseRun} {runs : List CaseRun} {code : Nat}

theorem Holds.not_holds (held : run.Holds code)
    (avoid : run.formsAvoid other = true) :
    ¬ other.Holds (run.lower + (code - run.first)) := by
  rintro ⟨firstLe, leLast, inStep⟩
  obtain ⟨codeFirst, codeLast, codeStep⟩ := held
  simp only [formsAvoid, lastLower, Bool.or_eq_true, Bool.and_eq_true,
    Nat.blt_eq, Nat.beq_eq] at avoid
  rcases avoid with (after | before) | ⟨⟨two | single, two'⟩, odd⟩
  · omega
  · omega
  · rw [two] at codeStep
    rw [two'] at inStep
    omega
  · rw [two'] at inStep
    omega

theorem Holds.isValidChar (held : run.Holds code)
    (plain : run.formsPlain = true) :
    (run.lower + (code - run.first)).isValidChar ∧
      run.lower + (code - run.first) ≠ 0x130 := by
  obtain ⟨codeFirst, codeLast, _⟩ := held
  simp only [formsPlain, lastLower, Bool.or_eq_true, Bool.and_eq_true,
    Nat.blt_eq] at plain
  rw [Nat.isValidChar]
  omega

/-- A code point that no run holds is its own form. -/
theorem lowerCode_eq_self (apart : ∀ run ∈ runs, ¬ run.Holds code) :
    lowerCode code runs = code := by
  induction runs with
  | nil => rfl
  | cons run rest ih =>
      obtain ⟨runApart, restApart⟩ := List.forall_mem_cons.mp apart
      rw [lowerCode]
      split
      · exact ih restApart
      · rename_i reached
        rw [if_neg]
        rintro ⟨firstLe, inStep⟩
        exact runApart ⟨firstLe, Nat.le_of_not_lt reached, inStep⟩

theorem lowerCode_cases (code : Nat) (runs : List CaseRun) :
    lowerCode code runs = code ∨
      ∃ run ∈ runs, run.Holds code ∧
        lowerCode code runs = run.lower + (code - run.first) := by
  induction runs with
  | nil => exact .inl rfl
  | cons run rest ih =>
      rw [lowerCode]
      split
      · rcases ih with same | ⟨other, member, held, formEq⟩
        · exact .inl same
        · exact .inr ⟨other, List.mem_cons_of_mem _ member, held, formEq⟩
      · rename_i reached
        split
        · rename_i within
          have held : run.Holds code :=
            ⟨within.1, Nat.le_of_not_lt reached, within.2⟩
          exact .inr ⟨run, List.mem_cons_self, held, rfl⟩
        · exact .inl rfl

theorem formsAvoid_caseRuns :
    (caseRuns.all fun run => caseRuns.all run.formsAvoid) = true := by
  decide +kernel

theorem formsPlain_caseRuns : caseRuns.all formsPlain = true := by
  decide +kernel

theorem Holds.lowerChar_form (held : run.Holds code)
    (member : run ∈ caseRuns) :
    lowerChar (Char.ofNat (run.lower + (code - run.first))) =
      [Char.ofNat (run.lower + (code - run.first))] := by
  have plain := List.all_eq_true.mp formsPlain_caseRuns run member
  have avoid := List.all_eq_true.mp formsAvoid_caseRuns run member
  have fixed : lowerCode (run.lower + (code - run.first)) caseRuns =
      run.lower + (code - run.first) :=
    lowerCode_eq_self fun other otherMember =>
      held.not_holds (List.all_eq_true.mp avoid other otherMember)
  obtain ⟨valid, notDotted⟩ := held.isValidChar plain
  generalize run.lower + (code - run.first) = form at *
  have codeEq : (Char.ofNat form).toNat = form := by
    rw [Char.ofNat, dif_pos valid]
    rfl
  rw [lowerChar, if_neg, codeEq, fixed]
  intro dotted
  rw [dotted] at codeEq
  exact notDotted codeEq.symm

end CaseRun

section Lowered

theorem lowerChar_of_mem_lowerChar (member : d ∈ lowerChar c) :
    lowerChar d = [d] := by
  by_cases dotted : c = '\u0130'
  · rw [lowerChar, if_pos dotted, List.mem_cons, List.mem_singleton] at member
    rcases member with rfl | rfl
    · decide +kernel
    · decide +kernel
  · rw [lowerChar, if_neg dotted, List.mem_singleton] at member
    rcases CaseRun.lowerCode_cases c.toNat caseRuns with
      same | ⟨run, runMember, held, formEq⟩
    · rw [same, Char.ofNat_toNat] at member
      rw [member, lowerChar, if_neg dotted, same, Char.ofNat_toNat]
    · rw [formEq] at member
      exact member ▸ held.lowerChar_form runMember

theorem lowerChar_of_mem_lowercaseAfter
    (member : d ∈ lowercaseAfter before text) : lowerChar d = [d] := by
  induction text generalizing before with
  | nil => simp [lowercaseAfter] at member
  | cons c rest ih =>
      rw [lowercaseAfter, List.mem_append] at member
      rcases member with first | later
      · split at first
        · rw [List.mem_singleton, lowerSigma] at first
          split at first
          · rw [first]
            decide +kernel
          · rw [first]
            decide +kernel
        · exact lowerChar_of_mem_lowerChar first
      · exact ih later

/-- A text of lower-case forms stays as it is. -/
theorem lowercaseAfter_of_lowered
    (lowered : ∀ c ∈ text, lowerChar c = [c]) (before : List Char) :
    lowercaseAfter before text = text := by
  induction text generalizing before with
  | nil => rfl
  | cons c rest ih =>
      obtain ⟨first, others⟩ := List.forall_mem_cons.mp lowered
      have notSigma : c ≠ 'Σ' := by
        rintro rfl
        exact absurd first (by decide +kernel)
      rw [lowercaseAfter, if_neg notSigma, first, ih others]
      rfl

theorem lowercase_lowercase (text : List Char) :
    lowercase (lowercase text) = lowercase text :=
  lowercaseAfter_of_lowered
    (fun _ member => lowerChar_of_mem_lowercaseAfter member) []

end Lowered

end Constituency.Text
