import Constituency.Proofs.Parse.Trees
import Constituency.Proofs.ParseTree.Printed

/-!
# Trees from their printed form

If every line feed of a printed tree and the spaces after it are replaced by one
space, the tree stands in brackets on one line.  A reader of this line knows where
each tree ends: at the end of its word, or at the parenthesis that closes it.  So
the line has all of the tree but the spans, and since the trees of a sentence
differ even if spans are ignored, no two of them are printed alike.
-/

namespace Constituency

namespace ParseTree

def separates (c : Char) : Bool :=
  Text.isBlank c || c == '(' || c == ')'

mutual

/-- The tree in brackets on one line. -/
def bracketing : ParseTree → List Char
  | .leaf word _ => word.toList
  | .branch label _ children =>
      '(' :: (label.toList ++ (bracketingList children ++ [')']))

def bracketingList : List ParseTree → List Char
  | [] => []
  | tree :: rest => ' ' :: (tree.bracketing ++ bracketingList rest)

end

/-- The text with every line feed and the spaces after it replaced by one space. -/
def joinLines : List Char → List Char
  | [] => []
  | c :: rest =>
      if c = '\n' then ' ' :: joinLines (rest.dropWhile (· == ' '))
      else c :: joinLines rest
termination_by text => text.length
decreasing_by
  · exact Nat.lt_succ_of_le (List.dropWhile_suffix _).length_le
  · exact Nat.lt_succ_self _

variable {tree : ParseTree} {text following : List Char}

/-! ### Joining lines -/

theorem joinLines_nil : joinLines [] = [] := by
  rw [joinLines]

theorem joinLines_lineFeed (rest : List Char) :
    joinLines ('\n' :: rest) =
      ' ' :: joinLines (rest.dropWhile (· == ' ')) := by
  rw [joinLines, if_pos rfl]

theorem joinLines_cons {c : Char} (notFeed : c ≠ '\n') (rest : List Char) :
    joinLines (c :: rest) = c :: joinLines rest := by
  rw [joinLines, if_neg notFeed]

theorem joinLines_append_of_no_lineFeed (noFeed : '\n' ∉ text)
    (following : List Char) :
    joinLines (text ++ following) = text ++ joinLines following := by
  induction text with
  | nil => rfl
  | cons c rest ih =>
      obtain ⟨notFeed, restPlain⟩ := List.ne_and_not_mem_of_not_mem_cons noFeed
      rw [List.cons_append, joinLines_cons (Ne.symm notFeed), ih restPlain,
        List.cons_append]

theorem joinLines_of_no_lineFeed (noFeed : '\n' ∉ text) :
    joinLines text = text := by
  have joined := joinLines_append_of_no_lineFeed noFeed []
  rwa [List.append_nil, joinLines_nil, List.append_nil] at joined

/-- What comes after a text is joined by itself if it does not begin with a space,
which might belong to the last line feed of the text. -/
theorem joinLines_append (noSpace : following.head? ≠ some ' ') :
    joinLines (text ++ following) = joinLines text ++ joinLines following := by
  fun_induction joinLines text with
  | case1 => rfl
  | case2 rest ih =>
      rw [List.cons_append, joinLines_lineFeed, List.cons_append, ← ih,
        List.dropWhile_append]
      split
      · rename_i onlySpaces
        have kept : following.dropWhile (· == ' ') = following := by
          cases following with
          | nil => rfl
          | cons c others =>
              have notSpace : c ≠ ' ' := by simpa using noSpace
              simp [notSpace]
        rw [List.isEmpty_iff.mp onlySpaces, kept, List.nil_append]
      · rfl
  | case3 c rest notFeed ih =>
      rw [List.cons_append, joinLines_cons notFeed, ih, List.cons_append]

theorem joinLines_flatMap (lines : List (List Char))
    (noSpace : following.head? ≠ some ' ') :
    joinLines (lines.flatMap ('\n' :: ·) ++ following) =
      (lines.flatMap fun line => joinLines ('\n' :: line)) ++
        joinLines following := by
  induction lines with
  | nil => rfl
  | cons line others ih =>
      have noSpaceNext :
          (others.flatMap ('\n' :: ·) ++ following).head? ≠ some ' ' := by
        cases others with
        | nil => exact noSpace
        | cons => simp
      rw [List.flatMap_cons, List.append_assoc, joinLines_append noSpaceNext, ih,
        List.flatMap_cons, List.append_assoc]

/-- The spaces before the lines of a tree are no longer there when the lines are
joined. -/
theorem joinLines_lower (legible : tree.Legible Text.isBlank) :
    ((Text.lines tree.print).flatMap fun line =>
        joinLines ('\n' :: ' ' :: ' ' :: line)) =
      ' ' :: joinLines tree.print := by
  have noIndentation : tree.print.dropWhile (· == ' ') = tree.print := by
    have noSpace := head?_print legible
    cases printEq : tree.print with
    | nil => rfl
    | cons c rest =>
        have notSpace : c ≠ ' ' := by simpa [printEq] using noSpace
        simp [notSpace]
  calc (Text.lines tree.print).flatMap (fun line =>
        joinLines ('\n' :: ' ' :: ' ' :: line))
      = (Text.lines tree.print).flatMap fun line =>
          joinLines ('\n' :: line) := by
        simp only [joinLines_lineFeed]
        rfl
    _ = joinLines ((Text.lines tree.print).flatMap ('\n' :: ·)) := by
        conv_rhs => rw [← List.append_nil (List.flatMap _ _)]
        rw [joinLines_flatMap _ (by simp), joinLines_nil, List.append_nil]
    _ = joinLines ('\n' :: tree.print) := by
        rw [Text.flatMap_cons_lines (print_ne_nil legible)
          (getLast?_print legible) (no_return_print legible)]
    _ = ' ' :: joinLines tree.print := by
        rw [joinLines_lineFeed, noIndentation]

theorem bracketingList_eq_flatMap (trees : List ParseTree) :
    bracketingList trees = trees.flatMap fun tree => ' ' :: tree.bracketing := by
  induction trees with
  | nil => rfl
  | cons tree rest ih =>
      rw [bracketingList, ih, List.flatMap_cons, List.cons_append]

theorem bracketing_branch (label : String) (span : Span)
    (children : List ParseTree) :
    (branch label span children).bracketing =
      (branch label span children).opening ++
        ((children.flatMap fun child => ' ' :: child.bracketing) ++ [')']) := by
  rw [bracketing, bracketingList_eq_flatMap, opening, List.cons_append]

/-- With its lines joined, the printed tree is the bracketing of the tree. -/
theorem joinLines_print (legible : tree.Legible Text.isBlank) :
    joinLines tree.print = tree.bracketing := by
  induction legible with
  | leaf clear =>
      rw [print_leaf, bracketing]
      exact joinLines_of_no_lineFeed (clear.not_mem (by decide))
  | @branch label span children clear nonempty each ih =>
      have legible : (branch label span children).Legible Text.isBlank :=
        .branch clear nonempty each
      rw [bracketing_branch]
      by_cases fit : Fit children
      · have noFeed := (no_lineFeed_print_iff legible).mpr fit
        rw [joinLines_of_no_lineFeed noFeed, print_of_fit nonempty fit]
        congr 2
        apply List.flatMap_congr
        intro child childMember
        rw [← ih child childMember, joinLines_of_no_lineFeed
          (fit.no_lineFeed each child childMember)]
      · rw [print_of_not_fit fit,
          joinLines_append_of_no_lineFeed (no_lineFeed_opening legible),
          joinLines_flatMap _ (by simp), joinLines_of_no_lineFeed (by simp),
          lowerLines, List.flatMap_assoc]
        congr 2
        apply List.flatMap_congr
        intro child childMember
        rw [List.flatMap_map, joinLines_lower (each child childMember),
          ih child childMember]

/-! ### Reading a bracketing -/

/-- The text is empty or begins with a space or a parenthesis. -/
def Stops (text : List Char) : Prop :=
  ∀ c ∈ text.head?, separates c

/-- The bracketing tells the bare tree and where it ends, whatever stops it. -/
def Readable (tree : ParseTree) : Prop :=
  ∀ ⦃other : ParseTree⦄, other.Legible separates →
    ∀ ⦃rest rest' : List Char⦄, Stops rest → Stops rest' →
      tree.bracketing ++ rest = other.bracketing ++ rest' →
        tree.bare = other.bare ∧ rest = rest'

theorem stops_cons {c : Char} (separating : separates c) (rest : List Char) :
    Stops (c :: rest) := by
  simpa [Stops] using separating

theorem stops_flatMap (children : List ParseTree) (rest : List Char) :
    Stops ((children.flatMap fun child => ' ' :: child.bracketing) ++
      ')' :: rest) := by
  cases children with
  | nil => exact stops_cons (by decide) rest
  | cons => exact stops_cons (by decide) _

theorem takeWhile_clear {name : String} (clear : Clear separates name)
    {rest : List Char} (stops : Stops rest) :
    (name.toList ++ rest).takeWhile (!separates ·) = name.toList := by
  have none : rest.takeWhile (!separates ·) = [] := by
    cases rest with
    | nil => rfl
    | cons c others =>
        have separating : separates c = true := by simpa [Stops] using stops
        simp [separating]
  rw [List.takeWhile_append_of_pos (by simpa using clear.free), none,
    List.append_nil]

theorem Clear.append_inj {first second : String}
    (clear : Clear separates first) (clear' : Clear separates second)
    {rest rest' : List Char} (stops : Stops rest) (stops' : Stops rest')
    (equal : first.toList ++ rest = second.toList ++ rest') :
    first = second ∧ rest = rest' := by
  have same : first.toList = second.toList := by
    rw [← takeWhile_clear clear stops, equal, takeWhile_clear clear' stops']
  rw [same, List.append_cancel_left_eq] at equal
  exact ⟨String.toList_inj.mp same, equal⟩

theorem Clear.append_ne_cons {name : String} (clear : Clear separates name)
    {c : Char} (separating : separates c) (rest others : List Char) :
    name.toList ++ rest ≠ c :: others := by
  obtain ⟨first, more, nameEq⟩ := List.exists_cons_of_ne_nil clear.nonempty
  have notSeparating : separates first = false :=
    clear.free first (by simp [nameEq])
  rw [nameEq]
  rintro ⟨⟩
  simp [separating] at notSeparating

theorem Readable.flatMap {children others : List ParseTree}
    (readable : ∀ child ∈ children, Readable child)
    (each : ∀ other ∈ others, other.Legible separates) {rest rest' : List Char}
    (equal : (children.flatMap fun child => ' ' :: child.bracketing) ++
        ')' :: rest =
      (others.flatMap fun other => ' ' :: other.bracketing) ++ ')' :: rest') :
    children.map bare = others.map bare ∧ rest = rest' := by
  induction children generalizing others with
  | nil =>
      cases others with
      | nil => simpa using equal
      | cons => simp at equal
  | cons child children ih =>
      cases others with
      | nil => simp at equal
      | cons other others =>
          obtain ⟨childReadable, readable⟩ := List.forall_mem_cons.mp readable
          obtain ⟨otherLegible, each⟩ := List.forall_mem_cons.mp each
          simp only [List.flatMap_cons, List.cons_append, List.append_assoc,
            List.cons.injEq, true_and] at equal
          obtain ⟨bareEq, equal⟩ := childReadable otherLegible
            (stops_flatMap children rest) (stops_flatMap others rest') equal
          obtain ⟨baresEq, restEq⟩ := ih readable each equal
          exact ⟨by rw [List.map_cons, List.map_cons, bareEq, baresEq], restEq⟩

theorem Legible.readable (legible : tree.Legible separates) :
    tree.Readable := by
  induction legible with
  | leaf clear =>
      rintro other legible' rest rest' stops stops' equal
      cases legible' with
      | leaf clear' =>
          obtain ⟨rfl, restEq⟩ := clear.append_inj clear' stops stops' equal
          exact ⟨rfl, restEq⟩
      | branch => exact absurd equal (clear.append_ne_cons (by decide) _ _)
  | @branch label span children clear nonempty each ih =>
      rintro other legible' rest rest' stops stops' equal
      cases legible' with
      | leaf clear' =>
          exact absurd equal.symm (clear'.append_ne_cons (by decide) _ _)
      | @branch label' span' others clear' nonempty' each' =>
          simp only [bracketing_branch, opening, List.cons_append,
            List.append_assoc, List.nil_append, List.cons.injEq,
            true_and] at equal
          obtain ⟨rfl, childrenEq⟩ := clear.append_inj clear'
            (stops_flatMap children rest) (stops_flatMap others rest') equal
          obtain ⟨baresEq, restEq⟩ := Readable.flatMap ih each' childrenEq
          exact ⟨by rw [bare_branch, bare_branch, baresEq], restEq⟩

theorem bare_eq_of_bracketing_eq {other : ParseTree}
    (legible : tree.Legible separates) (legible' : other.Legible separates)
    (equal : tree.bracketing = other.bracketing) : tree.bare = other.bare := by
  have noRest : Stops [] := by simp [Stops]
  exact (legible.readable legible' noRest noRest (by rw [equal])).1

theorem Legible.of_separates (legible : tree.Legible separates) :
    tree.Legible Text.isBlank :=
  legible.mono fun c blank => by simp [separates, blank]

/-- Printing a tree loses nothing but its spans: with its lines joined, the printed
tree is the bracketing of the tree, and trees that are printed alike differ in
their spans at most.  So no two trees of a sentence are printed alike. -/
theorem toString_faithful (legible : tree.Legible separates) :
    joinLines (toString tree).toList = tree.bracketing ∧
    (∀ other : ParseTree, other.Legible separates →
      toString tree = toString other → tree.bare = other.bare) ∧
    ∀ (start : String) (productions : List Production) (grammar : Grammar)
      (words : List String) (limit : Nat) (trees : List ParseTree),
      Grammar.ofProductions start productions = .ok grammar →
      grammar.parse words limit = .ok trees →
      ∀ (first second : Nat) (other : ParseTree), first ≠ second →
        trees[first]? = some tree → trees[second]? = some other →
        other.Legible separates → toString tree ≠ toString other := by
  have joined {tree : ParseTree} (legible : tree.Legible separates) :
      joinLines (toString tree).toList = tree.bracketing := by
    rw [toList_toString]
    exact joinLines_print legible.of_separates
  have bareEq (other : ParseTree) (legible' : other.Legible separates)
      (equal : toString tree = toString other) : tree.bare = other.bare := by
    apply bare_eq_of_bracketing_eq legible legible'
    rw [← joined legible, equal, joined legible']
  refine ⟨joined legible, bareEq, ?_⟩
  intro start productions grammar words limit trees accepted parsed
    first second other different treeAt otherAt legible' equal
  obtain ⟨distinct, _⟩ :=
    (Grammar.parse_exact accepted limit).2 words trees parsed
  have inRange : first < (trees.map bare).length := by
    rw [List.length_map]
    exact (List.getElem?_eq_some_iff.mp treeAt).1
  apply different
  rw [← List.getElem?_inj inRange distinct, List.getElem?_map,
    List.getElem?_map, treeAt, otherAt, Option.map_some, Option.map_some,
    bareEq other legible' equal]

open Grammar in
/-- The two trees of a sequence of three words are printed differently. -/
theorem toString_faithful_sequences :
    let right : ParseTree := .branch "S" ⟨0, 3⟩
      [single 0, .branch "S" ⟨1, 3⟩ [single 1, single 2]]
    let left : ParseTree := .branch "S" ⟨0, 3⟩
      [.branch "S" ⟨0, 2⟩ [single 0, single 1], single 2]
    String.ofList (joinLines (toString right).toList) =
        "(S (S (N x)) (S (S (N x)) (S (N x))))" ∧
      toString right ≠ toString left := by
  intro right left
  have clear : ∀ name ∈ ["S", "N", "x"], Clear separates name := by
    decide +kernel
  have legibleRight : right.Legible separates := by
    simp [right, single, legible_branch_iff, legible_leaf_iff, clear]
  have legibleLeft : left.Legible separates := by
    simp [left, single, legible_branch_iff, legible_leaf_iff, clear]
  have parsed : sequences.parse ["x", "x", "x"] 2 = .ok [right, left] := by
    decide +kernel
  obtain ⟨joined, _, different⟩ := toString_faithful legibleRight
  refine ⟨?_, different _ _ _ _ _ _ ofProductions_sequences parsed 0 1 left
    (by decide) rfl rfl legibleLeft⟩
  rw [joined]
  decide +kernel

end ParseTree

end Constituency
