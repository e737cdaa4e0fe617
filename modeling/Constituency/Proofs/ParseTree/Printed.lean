import Constituency.ParseTree.Printer
import Constituency.Proofs.ParseTree.Basic
import Constituency.Proofs.Text.Line
import Constituency.Text.Basic

/-!
# Printed trees

A tree is legible if every branch has children, and if no word and no label is
empty or has one of certain barred characters.  As long as the blank characters
are among those, the only blank characters of the printed tree are the spaces and
line feeds that the printing puts there, and the printed tree begins with its
opening: the word of a leaf, or the parenthesis and the label of a branch.  After
the opening of a branch come its children, each after a space if they fit on the
line of the label, and otherwise with all their lines indented.
-/

namespace Constituency

namespace ParseTree

/-- A word or label that is not empty and has no barred character. -/
structure Clear (barred : Char → Bool) (name : String) : Prop where
  nonempty : name.toList ≠ []
  free : ∀ c ∈ name.toList, barred c = false

/-- Every branch of the tree has children, and all words and labels are clear. -/
inductive Legible (barred : Char → Bool) : ParseTree → Prop
  | leaf {word : String} {span : Span} (clear : Clear barred word) :
      Legible barred (.leaf word span)
  | branch {label : String} {span : Span} {children : List ParseTree}
      (clear : Clear barred label) (nonempty : children ≠ [])
      (each : ∀ child ∈ children, Legible barred child) :
      Legible barred (.branch label span children)

/-- What the printed tree begins with. -/
def opening : ParseTree → List Char
  | .leaf word _ => word.toList
  | .branch label _ _ => '(' :: label.toList

/-- The children are printed on the line of the label: all of them are leaves, or
there is just one and it takes a single line. -/
def Fit (children : List ParseTree) : Prop :=
  (∀ child ∈ children, child.isLeaf) ∨
    ∃ child, children = [child] ∧ '\n' ∉ child.print

def lowerLines (children : List ParseTree) : List (List Char) :=
  children.flatMap fun child => (Text.lines child.print).map (' ' :: ' ' :: ·)

variable {barred barred' : Char → Bool} {name : String}
variable {tree : ParseTree} {label : String} {span : Span}
variable {children : List ParseTree}

theorem clear_iff :
    Clear barred name ↔ name.toList ≠ [] ∧ name.toList.all (!barred ·) := by
  constructor
  · rintro ⟨nonempty, free⟩
    exact ⟨nonempty, by simpa using free⟩
  · rintro ⟨nonempty, free⟩
    exact ⟨nonempty, by simpa using free⟩

-- Through `all`, a name is decided by its own characters alone.
instance (barred : Char → Bool) (name : String) :
    Decidable (Clear barred name) :=
  decidable_of_iff _ clear_iff.symm

theorem legible_leaf_iff {word : String} :
    (leaf word span).Legible barred ↔ Clear barred word :=
  ⟨fun legible => by cases legible; assumption, .leaf⟩

theorem legible_branch_iff :
    (branch label span children).Legible barred ↔
      Clear barred label ∧ children ≠ [] ∧
        ∀ child ∈ children, child.Legible barred := by
  constructor
  · intro legible
    cases legible with
    | branch clear nonempty each => exact ⟨clear, nonempty, each⟩
  · rintro ⟨clear, nonempty, each⟩
    exact .branch clear nonempty each

theorem Clear.mono (weaker : ∀ c, barred' c → barred c)
    (clear : Clear barred name) : Clear barred' name where
  nonempty := clear.nonempty
  free c member := by
    have notBarred := clear.free c member
    by_contra isBarred
    simp [weaker c (by simpa using isBarred)] at notBarred

theorem Clear.not_mem (clear : Clear barred name) {c : Char}
    (isBarred : barred c = true) : c ∉ name.toList := by
  intro member
  simp [clear.free c member] at isBarred

theorem Legible.mono (weaker : ∀ c, barred' c → barred c)
    (legible : tree.Legible barred) : tree.Legible barred' := by
  induction legible with
  | leaf clear => exact .leaf (clear.mono weaker)
  | branch clear nonempty _ ih => exact .branch (clear.mono weaker) nonempty ih

theorem Legible.of_mem_preorder (legible : tree.Legible barred)
    {node : ParseTree} (member : node ∈ tree.preorder) :
    node.Legible barred := by
  induction legible with
  | leaf clear =>
      obtain rfl : node = _ := by simpa [preorder] using member
      exact .leaf clear
  | branch clear nonempty each ih =>
      rw [preorder_eq, List.mem_cons, mem_preorderList] at member
      rcases member with rfl | ⟨child, childMember, member⟩
      · exact .branch clear nonempty each
      · exact ih child childMember member

/-! ### The two ways to print a branch -/

theorem joinSpaced_cons (text : List Char) (texts : List (List Char)) :
    joinSpaced (text :: texts) = text ++ texts.flatMap (' ' :: ·) := by
  induction texts generalizing text with
  | nil => simp [joinSpaced]
  | cons next rest ih =>
      rw [joinSpaced, ih, List.flatMap_cons, List.cons_append]
      simp

theorem printList_eq_map (trees : List ParseTree) :
    printList trees = trees.map print := by
  induction trees with
  | nil => rfl
  | cons tree rest ih => rw [printList, ih, List.map_cons]

theorem fitsOnLine_iff :
    fitsOnLine children (printList children) = true ↔ Fit children := by
  rw [printList_eq_map]
  match children with
  | [] => simp [fitsOnLine, Fit]
  | [child] => simp [fitsOnLine, Fit, or_comm]
  | first :: second :: rest => simp [fitsOnLine, Fit]

theorem toList_toString (tree : ParseTree) :
    (toString tree).toList = tree.print :=
  String.toList_ofList

theorem print_leaf (word : String) (span : Span) :
    (leaf word span).print = word.toList := by
  rw [print]

theorem print_of_fit (nonempty : children ≠ []) (fit : Fit children) :
    (branch label span children).print =
      (branch label span children).opening ++
        ((children.flatMap fun child => ' ' :: child.print) ++ [')']) := by
  obtain ⟨first, rest, rfl⟩ := List.exists_cons_of_ne_nil nonempty
  rw [print, if_pos (fitsOnLine_iff.mpr fit), printList_eq_map, opening,
    List.map_cons, joinSpaced_cons, List.flatMap_map]
  simp

theorem print_of_not_fit (broken : ¬Fit children) :
    (branch label span children).print =
      (branch label span children).opening ++
        ((lowerLines children).flatMap ('\n' :: ·) ++ [')']) := by
  have indented : (children.map print).flatMap indent =
      (lowerLines children).flatMap ('\n' :: ·) := by
    simp only [lowerLines, List.flatMap_map, List.flatMap_assoc]
    rfl
  rw [print, if_neg (mt fitsOnLine_iff.mp broken), printList_eq_map, indented,
    opening, List.cons_append]

/-! ### The characters of a printed tree -/

theorem opening_ne_nil (legible : tree.Legible barred) :
    tree.opening ≠ [] := by
  cases legible with
  | leaf clear => exact clear.nonempty
  | branch => exact List.cons_ne_nil _ _

theorem exists_print_eq_opening_append (legible : tree.Legible barred) :
    ∃ rest, tree.print = tree.opening ++ rest := by
  cases legible with
  | leaf clear => exact ⟨[], by rw [print_leaf, opening, List.append_nil]⟩
  | @branch label span children clear nonempty each =>
      by_cases fit : Fit children
      · exact ⟨_, print_of_fit nonempty fit⟩
      · exact ⟨_, print_of_not_fit fit⟩

theorem print_ne_nil (legible : tree.Legible barred) : tree.print ≠ [] := by
  obtain ⟨rest, printEq⟩ := exists_print_eq_opening_append legible
  rw [printEq]
  exact List.append_ne_nil_of_left_ne_nil (opening_ne_nil legible) rest

theorem isBlank_of_mem_opening (legible : tree.Legible Text.isBlank) :
    ∀ c ∈ tree.opening, Text.isBlank c = false := by
  cases legible with
  | leaf clear => exact clear.free
  | branch clear =>
      exact List.forall_mem_cons.mpr ⟨by decide, clear.free⟩

theorem head?_opening_append (legible : tree.Legible Text.isBlank)
    (rest : List Char) : (tree.opening ++ rest).head? ≠ some ' ' := by
  obtain ⟨c, others, openingEq⟩ :=
    List.exists_cons_of_ne_nil (opening_ne_nil legible)
  have notBlank := isBlank_of_mem_opening legible c (by simp [openingEq])
  rw [openingEq]
  rintro ⟨⟩
  exact absurd notBlank (by decide)

theorem head?_print (legible : tree.Legible Text.isBlank) :
    tree.print.head? ≠ some ' ' := by
  obtain ⟨rest, printEq⟩ := exists_print_eq_opening_append legible
  rw [printEq]
  exact head?_opening_append legible rest

theorem getLast?_print (legible : tree.Legible Text.isBlank) :
    tree.print.getLast? ≠ some '\n' := by
  cases legible with
  | leaf clear =>
      rw [print_leaf]
      intro last
      exact clear.not_mem (by decide) (List.mem_of_getLast? last)
  | @branch label span children clear nonempty each =>
      by_cases fit : Fit children
      · rw [print_of_fit nonempty fit]; simp
      · rw [print_of_not_fit fit]; simp

theorem mem_lowerLines {line : List Char} :
    line ∈ lowerLines children ↔ ∃ child ∈ children,
      ∃ shorter ∈ Text.lines child.print, ' ' :: ' ' :: shorter = line := by
  simp [lowerLines]

theorem eq_of_mem_print_branch (nonempty : children ≠ []) {c : Char}
    (member : c ∈ (branch label span children).print) :
    c ∈ (branch label span children).opening ∨ c = ')' ∨ c = ' ' ∨ c = '\n' ∨
      ∃ child ∈ children, c ∈ child.print := by
  by_cases fit : Fit children
  · simp only [print_of_fit nonempty fit, List.mem_append, List.mem_singleton,
      List.mem_flatMap] at member
    rcases member with member | ⟨child, childMember, member⟩ | rfl
    · exact .inl member
    · rcases List.mem_cons.mp member with rfl | member
      · simp
      · exact .inr (.inr (.inr (.inr ⟨child, childMember, member⟩)))
    · simp
  · simp only [print_of_not_fit fit, List.mem_append, List.mem_singleton,
      List.mem_flatMap, mem_lowerLines] at member
    rcases member with
      member | ⟨_, ⟨child, childMember, line, lineMember, rfl⟩, member⟩ | rfl
    · exact .inl member
    · simp only [List.mem_cons] at member
      rcases member with rfl | rfl | rfl | member
      · simp
      · simp
      · simp
      · exact .inr (.inr (.inr (.inr
          ⟨child, childMember, Text.mem_of_mem_lines lineMember member⟩)))
    · simp

/-- The printing uses no other blank characters than spaces and line feeds. -/
theorem eq_of_mem_print (legible : tree.Legible Text.isBlank) :
    ∀ c ∈ tree.print, Text.isBlank c → c = ' ' ∨ c = '\n' := by
  induction legible with
  | leaf clear =>
      intro c member blank
      rw [print_leaf] at member
      exact absurd member (clear.not_mem blank)
  | branch clear nonempty each ih =>
      intro c member blank
      rcases eq_of_mem_print_branch nonempty member with
        member | rfl | rfl | rfl | ⟨child, childMember, member⟩
      · have notBlank :=
          isBlank_of_mem_opening (.branch clear nonempty each) c member
        simp [notBlank] at blank
      · exact absurd blank (by decide)
      · exact .inl rfl
      · exact .inr rfl
      · exact ih child childMember c member blank

theorem no_return_print (legible : tree.Legible Text.isBlank) :
    '\r' ∉ tree.print := by
  intro member
  have blank := eq_of_mem_print legible '\r' member (by decide)
  simp at blank

theorem no_lineFeed_opening (legible : tree.Legible Text.isBlank) :
    '\n' ∉ tree.opening := by
  intro member
  exact absurd (isBlank_of_mem_opening legible '\n' member) (by decide)

theorem Fit.no_lineFeed (fit : Fit children)
    (each : ∀ child ∈ children, child.Legible Text.isBlank) :
    ∀ child ∈ children, '\n' ∉ child.print := by
  rcases fit with leaves | ⟨child, rfl, noFeed⟩
  · intro child member
    cases each child member with
    | leaf clear =>
        rw [print_leaf]
        exact clear.not_mem (by decide)
    | branch => exact absurd (leaves _ member) (by simp [isLeaf])
  · simpa using noFeed

/-- A branch takes a single line just if its children fit on it. -/
theorem no_lineFeed_print_iff
    (legible : (branch label span children).Legible Text.isBlank) :
    '\n' ∉ (branch label span children).print ↔ Fit children := by
  have noFeedOpening := no_lineFeed_opening legible
  cases legible with
  | branch clear nonempty each =>
      by_cases fit : Fit children
      · rw [print_of_fit nonempty fit]
        simpa [noFeedOpening, fit] using fit.no_lineFeed each
      · obtain ⟨child, childMember⟩ := List.exists_mem_of_ne_nil _ nonempty
        obtain ⟨line, lineMember⟩ := List.exists_mem_of_ne_nil _
          (Text.lines_ne_nil (print_ne_nil (each child childMember)))
        have lower : ' ' :: ' ' :: line ∈ lowerLines children :=
          mem_lowerLines.mpr ⟨child, childMember, line, lineMember, rfl⟩
        rw [print_of_not_fit fit]
        simpa [fit, noFeedOpening] using ⟨_, lower⟩

end ParseTree

end Constituency
