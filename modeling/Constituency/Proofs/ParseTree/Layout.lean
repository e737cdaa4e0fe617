import Constituency.Proofs.ParseTree.Path
import Constituency.Proofs.ParseTree.Printed
import Mathlib.Data.List.ModifyLast

/-!
# The lines of a printed tree

A line of a printed tree shows some nodes that follow one another on a walk: after
its indentation come their openings with a space between any two, each followed by
the parentheses that are closed there.  The nodes can be read off the lines in just
one way, since no opening has a space in it.

A node that begins a line is indented by two spaces for each node above it.  It
begins a line just if its parent takes several lines.
-/

namespace Constituency

namespace ParseTree

/-- A line of a printed tree: how far it is indented, and the nodes it shows, as
the path to each of them and what is written for it. -/
@[ext]
structure Row where
  indentation : Nat
  marks : List (List Nat × List Char)

namespace Row

def text (row : Row) : List Char :=
  List.replicate row.indentation ' ' ++ joinSpaced (row.marks.map Prod.snd)

/-- The paths to the nodes that the line shows. -/
def places (row : Row) : List (List Nat) :=
  row.marks.map Prod.fst

/-- The line in a tree that has the tree of the line as a child. -/
def under (number : Nat) (row : Row) : Row :=
  { row with marks := row.marks.map fun mark => (number :: mark.1, mark.2) }

def lower (row : Row) : Row :=
  { row with indentation := row.indentation + 2 }

/-- The node with one more parenthesis closed after it. -/
def closeMark (mark : List Nat × List Char) : List Nat × List Char :=
  (mark.1, mark.2 ++ [')'])

def close (row : Row) : Row :=
  { row with marks := row.marks.modifyLast closeMark }

end Row

mutual

/-- The lines of the printed tree with the nodes shown in them. -/
def rows : ParseTree → List Row
  | .leaf word _ => [⟨0, [([], word.toList)]⟩]
  | .branch label span children =>
      let first := ([], '(' :: label.toList)
      let others := rowsList 0 children
      if '\n' ∈ print (.branch label span children) then
        (⟨0, [first]⟩ :: others.map Row.lower).modifyLast Row.close
      else
        [Row.close ⟨0, first :: others.flatMap Row.marks⟩]

/-- The lines of several trees, the roots of which are numbered in order from some
number on. -/
def rowsList (number : Nat) : List ParseTree → List Row
  | [] => []
  | tree :: rest =>
      tree.rows.map (Row.under number) ++ rowsList (number + 1) rest

end

/-- What is written for a node is its opening and the parentheses closed there. -/
def Shows (tree : ParseTree) (mark : List Nat × List Char) : Prop :=
  ∃ node closings, tree.nodeAt? mark.1 = some node ∧
    mark.2 = node.opening ++ List.replicate closings ')'

/-- The line shows at least one node of the tree, and nothing else. -/
def IsRow (tree : ParseTree) (row : Row) : Prop :=
  row.marks ≠ [] ∧ ∀ mark ∈ row.marks, tree.Shows mark

/-- The lines of the printed tree show these nodes: each node is shown once, in
the order of a walk. -/
structure LaidOut (tree : ParseTree) (rows : List Row) : Prop where
  isRow : ∀ row ∈ rows, tree.IsRow row
  inOrder : rows.flatMap Row.places = tree.paths
  written : rows.map Row.text = Text.lines tree.print

variable {tree child : ParseTree} {label : String} {span : Span}
variable {children : List ParseTree} {number : Nat} {row : Row}

/-! ### Changing the last of several -/

section Last

variable {α β : Type} {f : α → α} {g : α → β} {h : β → β} {items : List α}

theorem modifyLast_cases (f : α → α) (nonempty : items ≠ []) :
    ∃ front last, items = front ++ [last] ∧
      items.modifyLast f = front ++ [f last] := by
  obtain rfl | ⟨front, last, rfl⟩ := List.eq_nil_or_concat' items
  · exact absurd rfl nonempty
  · exact ⟨front, last, rfl, List.modifyLast_concat f last front⟩

theorem map_modifyLast (same : ∀ item ∈ items, g (f item) = h (g item)) :
    (items.modifyLast f).map g = (items.map g).modifyLast h := by
  obtain rfl | nonempty := eq_or_ne items []
  · rfl
  · obtain ⟨front, last, rfl, modified⟩ := modifyLast_cases f nonempty
    rw [modified, List.map_append, List.map_append, List.map_singleton,
      List.map_singleton, List.modifyLast_concat, same last (by simp)]

theorem map_modifyLast_of_comp_eq (same : ∀ item, g (f item) = g item) :
    (items.modifyLast f).map g = items.map g := by
  obtain rfl | nonempty := eq_or_ne items []
  · rfl
  · obtain ⟨front, last, rfl, modified⟩ := modifyLast_cases f nonempty
    rw [modified, List.map_append, List.map_append, List.map_singleton,
      List.map_singleton, same]

theorem forall_mem_modifyLast {p : α → Prop} (each : ∀ item ∈ items, p item)
    (kept : ∀ item ∈ items, p item → p (f item)) :
    ∀ item ∈ items.modifyLast f, p item := by
  obtain rfl | nonempty := eq_or_ne items []
  · exact each
  · obtain ⟨front, last, rfl, modified⟩ := modifyLast_cases f nonempty
    simp only [List.forall_mem_append, List.forall_mem_singleton] at each kept
    rw [modified, List.forall_mem_append, List.forall_mem_singleton]
    exact ⟨each.1, kept.2 each.2⟩

end Last

/-! ### Lines, and what is done with them -/

theorem joinSpaced_append_singleton (texts : List (List Char))
    (text closing : List Char) :
    joinSpaced (texts ++ [text ++ closing]) =
      joinSpaced (texts ++ [text]) ++ closing := by
  cases texts with
  | nil => rfl
  | cons first texts =>
      rw [List.cons_append, List.cons_append, joinSpaced_cons, joinSpaced_cons]
      simp

namespace Row

@[simp]
theorem text_under (number : Nat) (row : Row) :
    (row.under number).text = row.text := by
  simp [text, under, Function.comp_def]

@[simp]
theorem text_lower (row : Row) : row.lower.text = ' ' :: ' ' :: row.text := by
  simp [text, lower, List.replicate_succ]

theorem text_close (nonempty : row.marks ≠ []) :
    row.close.text = row.text ++ [')'] := by
  obtain ⟨front, last, marksEq, modified⟩ :=
    modifyLast_cases closeMark nonempty
  rw [text, close, modified, text, marksEq]
  simp [closeMark, joinSpaced_append_singleton]

@[simp]
theorem places_under (number : Nat) (row : Row) :
    (row.under number).places = row.places.map (number :: ·) := by
  simp [places, under, Function.comp_def]

@[simp]
theorem places_lower (row : Row) : row.lower.places = row.places :=
  rfl

@[simp]
theorem places_close (row : Row) : row.close.places = row.places :=
  map_modifyLast_of_comp_eq fun _ => rfl

end Row

/-! ### The lines of a branch -/

theorem rowsList_eq_flatMap (number : Nat) (trees : List ParseTree) :
    rowsList number trees = (trees.zipIdx number).flatMap fun entry =>
      entry.1.rows.map (Row.under entry.2) := by
  induction trees generalizing number with
  | nil => rfl
  | cons tree rest ih =>
      rw [rowsList, ih, List.zipIdx_cons, List.flatMap_cons]

theorem forall_mem_rowsList {p : Row → Prop}
    (each : ∀ (number : Nat) (child : ParseTree),
      children[number]? = some child →
      ∀ row ∈ child.rows, p (row.under number)) :
    ∀ row ∈ rowsList 0 children, p row := by
  intro row member
  rw [rowsList_eq_flatMap] at member
  obtain ⟨⟨child, number⟩, entryMember, member⟩ := List.mem_flatMap.mp member
  obtain ⟨row, rowMember, rfl⟩ := List.mem_map.mp member
  exact each number child (List.mk_mem_zipIdx_iff_getElem?.mp entryMember) row
    rowMember

theorem rows_of_single (noFeed : '\n' ∉ (branch label span children).print) :
    (branch label span children).rows =
      [Row.close ⟨0, ([], '(' :: label.toList) ::
        (rowsList 0 children).flatMap Row.marks⟩] := by
  rw [rows, if_neg noFeed]

theorem rows_of_several (feed : '\n' ∈ (branch label span children).print) :
    (branch label span children).rows =
      (⟨0, [([], '(' :: label.toList)]⟩ ::
        (rowsList 0 children).map Row.lower).modifyLast Row.close := by
  rw [rows, if_pos feed]

theorem IsRow.under (isRow : child.IsRow row)
    (childAt : children[number]? = some child) :
    (branch label span children).IsRow (row.under number) := by
  obtain ⟨nonempty, shown⟩ := isRow
  refine ⟨by simpa [Row.under] using nonempty, ?_⟩
  intro mark member
  obtain ⟨shorter, shorterMember, rfl⟩ := List.mem_map.mp member
  obtain ⟨node, closings, reached, written⟩ := shown shorter shorterMember
  exact ⟨node, closings,
    nodeAt?_cons_eq_some_iff.mpr ⟨child, childAt, reached⟩, written⟩

theorem IsRow.close (isRow : tree.IsRow row) : tree.IsRow row.close := by
  obtain ⟨nonempty, shown⟩ := isRow
  constructor
  · obtain ⟨front, last, _, modified⟩ :=
      modifyLast_cases Row.closeMark nonempty
    simp [Row.close, modified]
  · apply forall_mem_modifyLast shown
    rintro ⟨path, text⟩ _ ⟨node, closings, reached, written⟩
    refine ⟨node, closings + 1, reached, ?_⟩
    rw [Row.closeMark, written, List.append_assoc, ← List.replicate_succ']

theorem isRow_of_mem_rows (tree : ParseTree) :
    ∀ row ∈ tree.rows, tree.IsRow row := by
  induction tree using ParseTree.induction with
  | leaf word span =>
      have shows : (leaf word span).Shows ([], word.toList) :=
        ⟨_, 0, nodeAt?_nil _, by simp [opening]⟩
      simpa [rows, IsRow] using shows
  | branch label span children ih =>
      have first :
          (branch label span children).Shows ([], '(' :: label.toList) :=
        ⟨_, 0, nodeAt?_nil _, by simp [opening]⟩
      have others : ∀ row ∈ rowsList 0 children,
          (branch label span children).IsRow row := by
        apply forall_mem_rowsList
        intro number child childAt row member
        exact (ih child (List.mem_of_getElem? childAt) row member).under childAt
      by_cases feed : '\n' ∈ (branch label span children).print
      · rw [rows_of_several feed]
        apply forall_mem_modifyLast
        · refine List.forall_mem_cons.mpr ⟨⟨by simp, by simpa using first⟩, ?_⟩
          exact List.forall_mem_map.mpr others
        · exact fun row _ isRow => isRow.close
      · rw [rows_of_single feed, List.forall_mem_singleton]
        apply IsRow.close
        refine ⟨List.cons_ne_nil _ _, List.forall_mem_cons.mpr ⟨first, ?_⟩⟩
        intro mark member
        obtain ⟨row, rowMember, member⟩ := List.mem_flatMap.mp member
        exact (others row rowMember).2 mark member

theorem marks_ne_nil_of_mem_rowsList :
    ∀ row ∈ rowsList 0 children, row.marks ≠ [] := by
  apply forall_mem_rowsList
  intro number child _ row member
  simpa [Row.under] using (isRow_of_mem_rows child row member).1

theorem flatMap_places_rowsList (children : List ParseTree)
    (ih : ∀ child ∈ children, child.rows.flatMap Row.places = child.paths) :
    (rowsList 0 children).flatMap Row.places =
      children.zipIdx.flatMap fun entry =>
        entry.1.paths.map (entry.2 :: ·) := by
  rw [rowsList_eq_flatMap, List.flatMap_assoc]
  apply List.flatMap_congr
  rintro ⟨child, number⟩ member
  have childAt : children[number]? = some child :=
    List.mk_mem_zipIdx_iff_getElem?.mp member
  rw [← ih child (List.mem_of_getElem? childAt), List.map_flatMap,
    List.flatMap_map]
  simp only [Row.places_under]

theorem flatMap_places_rows (tree : ParseTree) :
    tree.rows.flatMap Row.places = tree.paths := by
  induction tree using ParseTree.induction with
  | leaf => rfl
  | branch label span children ih =>
      rw [paths_eq, ParseTree.children, ← flatMap_places_rowsList children ih]
      by_cases feed : '\n' ∈ (branch label span children).print
      · rw [rows_of_several feed, List.flatMap_def,
          map_modifyLast_of_comp_eq Row.places_close, ← List.flatMap_def,
          List.flatMap_cons, List.flatMap_map]
        rfl
      · rw [rows_of_single feed, List.flatMap_singleton, Row.places_close,
          Row.places, List.map_cons, List.map_flatMap]
        rfl

/-- A line is indented by two spaces for each node above the first one it shows. -/
def Row.Deep (row : Row) : Prop :=
  ∃ path, row.places.head? = some path ∧ row.indentation = 2 * path.length

theorem deep_of_mem_rows (tree : ParseTree) : ∀ row ∈ tree.rows, row.Deep := by
  induction tree using ParseTree.induction with
  | leaf word span => simp [rows, Row.Deep, Row.places]
  | branch label span children ih =>
      have close (row : Row) (deep : row.Deep) : row.close.Deep := by
        rwa [Row.Deep, Row.places_close]
      by_cases feed : '\n' ∈ (branch label span children).print
      · rw [rows_of_several feed]
        refine forall_mem_modifyLast ?_ fun row _ => close row
        refine List.forall_mem_cons.mpr
          ⟨by simp [Row.Deep, Row.places], List.forall_mem_map.mpr ?_⟩
        apply forall_mem_rowsList
        intro number child childAt row member
        obtain ⟨path, head, indentationEq⟩ :=
          ih child (List.mem_of_getElem? childAt) row member
        refine ⟨number :: path, by simp [head], ?_⟩
        rw [List.length_cons, Nat.mul_succ, ← indentationEq]
        rfl
      · rw [rows_of_single feed, List.forall_mem_singleton]
        exact close _ ⟨[], rfl, rfl⟩

/-! ### The lines are those of the printed tree -/

theorem plain_opening (legible : tree.Legible Text.isBlank) :
    Text.Plain tree.opening := by
  refine ⟨no_lineFeed_opening legible, fun last => ?_⟩
  exact absurd (isBlank_of_mem_opening legible _ (List.mem_of_getLast? last))
    (by decide)

theorem plain_of_mem_lowerLines
    (each : ∀ child ∈ children, child.Legible Text.isBlank) :
    ∀ line ∈ lowerLines children, Text.Plain line := by
  intro line member
  obtain ⟨child, childMember, shorter, shorterMember, rfl⟩ :=
    mem_lowerLines.mp member
  have noReturn : '\r' ∉ shorter := fun member =>
    no_return_print (each child childMember)
      (Text.mem_of_mem_lines shorterMember member)
  constructor
  · simpa using Text.no_lineFeed_of_mem_lines shorter shorterMember
  · intro last
    have member := List.mem_of_getLast? last
    simp [noReturn] at member

theorem lines_closed {first : List Char} {others : List (List Char)}
    (plain : Text.Plain first) (othersPlain : ∀ line ∈ others, Text.Plain line) :
    Text.lines (first ++ (others.flatMap ('\n' :: ·) ++ [')'])) =
      (first :: others).modifyLast (· ++ [')']) := by
  induction others generalizing first with
  | nil =>
      have noFeed : '\n' ∉ first ++ [')'] := by simp [plain.no_lineFeed]
      exact Text.lines_of_no_lineFeed (by simp) noFeed
  | cons next others ih =>
      obtain ⟨nextPlain, othersPlain⟩ := List.forall_mem_cons.mp othersPlain
      rw [List.flatMap_cons, List.cons_append, List.cons_append,
        Text.lines_append plain, List.append_assoc, ih nextPlain othersPlain]
      exact (List.modifyLast_append_of_right_ne_nil _ [first] _
        (List.cons_ne_nil next others)).symm

theorem map_text_rowsList
    (ih : ∀ child ∈ children,
      child.rows.map Row.text = Text.lines child.print) :
    (rowsList 0 children).map Row.text =
      children.flatMap fun child => Text.lines child.print := by
  calc (rowsList 0 children).map Row.text
      = children.zipIdx.flatMap fun entry =>
          Text.lines entry.1.print := by
        rw [rowsList_eq_flatMap, List.map_flatMap]
        apply List.flatMap_congr
        intro entry member
        rw [List.map_map, ← ih entry.1 (List.fst_mem_of_mem_zipIdx member)]
        simp
    _ = (children.zipIdx.map Prod.fst).flatMap fun child =>
          Text.lines child.print := by rw [List.flatMap_map]
    _ = children.flatMap fun child => Text.lines child.print := by
        rw [List.zipIdx_map_fst]

theorem indentation_of_single (noFeed : '\n' ∉ tree.print) :
    ∀ row ∈ tree.rows, row.indentation = 0 := by
  cases tree with
  | leaf => simp [rows]
  | branch => simp [rows_of_single noFeed, Row.close]

/-- The marks of lines that are not indented, each after a space, are the lines,
each after a space. -/
theorem flatMap_marks {lines : List Row} (nonempty : ∀ row ∈ lines, row.marks ≠ [])
    (single : ∀ row ∈ lines, row.indentation = 0) :
    (lines.flatMap Row.marks).flatMap (fun mark => ' ' :: mark.2) =
      (lines.map Row.text).flatMap (' ' :: ·) := by
  rw [List.flatMap_assoc, List.flatMap_map]
  apply List.flatMap_congr
  intro row member
  obtain ⟨first, others, marksEq⟩ :=
    List.exists_cons_of_ne_nil (nonempty row member)
  rw [Row.text, single row member, marksEq, List.map_cons, joinSpaced_cons,
    List.flatMap_map]
  rfl

theorem map_text_of_single
    (legible : (branch label span children).Legible Text.isBlank)
    (ih : ∀ child ∈ children,
      child.rows.map Row.text = Text.lines child.print)
    (noFeed : '\n' ∉ (branch label span children).print) :
    (branch label span children).rows.map Row.text =
      Text.lines (branch label span children).print := by
  rw [Text.lines_of_no_lineFeed (print_ne_nil legible) noFeed,
    rows_of_single noFeed, List.map_singleton]
  have fit := (no_lineFeed_print_iff legible).mp noFeed
  cases legible with
  | branch clear nonempty each =>
      -- Every child takes a single line, which goes on the line of the label.
      have childNoFeed := fit.no_lineFeed each
      have othersSingle : ∀ row ∈ rowsList 0 children, row.indentation = 0 := by
        apply forall_mem_rowsList
        intro number child childAt row member
        exact indentation_of_single
          (childNoFeed child (List.mem_of_getElem? childAt)) row member
      have othersText : (rowsList 0 children).map Row.text =
          children.map print := by
        rw [map_text_rowsList ih, List.map_eq_flatMap]
        apply List.flatMap_congr
        intro child member
        exact Text.lines_of_no_lineFeed (print_ne_nil (each child member))
          (childNoFeed child member)
      rw [Row.text_close (List.cons_ne_nil _ _), Row.text, List.map_cons,
        joinSpaced_cons, List.flatMap_map,
        flatMap_marks marks_ne_nil_of_mem_rowsList othersSingle, othersText,
        List.flatMap_map, print_of_fit nonempty fit]
      simp [opening]

theorem map_text_of_several
    (legible : (branch label span children).Legible Text.isBlank)
    (ih : ∀ child ∈ children,
      child.rows.map Row.text = Text.lines child.print)
    (feed : '\n' ∈ (branch label span children).print) :
    (branch label span children).rows.map Row.text =
      Text.lines (branch label span children).print := by
  have notFit : ¬Fit children := fun fit =>
    (no_lineFeed_print_iff legible).mpr fit feed
  have plain := plain_opening legible
  have nonempty : ∀ row ∈ (⟨0, [([], '(' :: label.toList)]⟩ : Row) ::
      (rowsList 0 children).map Row.lower, row.marks ≠ [] :=
    List.forall_mem_cons.mpr ⟨List.cons_ne_nil _ _,
      List.forall_mem_map.mpr marks_ne_nil_of_mem_rowsList⟩
  have lowered : ((rowsList 0 children).map Row.lower).map Row.text =
      lowerLines children := by
    rw [lowerLines, ← List.map_flatMap, ← map_text_rowsList ih, List.map_map,
      List.map_map]
    exact List.map_congr_left fun row _ => Row.text_lower row
  cases legible with
  | branch _ _ each =>
      rw [rows_of_several feed, map_modifyLast (h := fun line => line ++ [')'])
          fun row member => Row.text_close (nonempty row member),
        List.map_cons, lowered, print_of_not_fit notFit,
        lines_closed plain (plain_of_mem_lowerLines each)]
      rfl

theorem map_text_rows (legible : tree.Legible Text.isBlank) :
    tree.rows.map Row.text = Text.lines tree.print := by
  induction legible with
  | @leaf word span clear =>
      rw [print_leaf, Text.lines_of_no_lineFeed clear.nonempty
        (clear.not_mem (by decide))]
      simp [rows, Row.text, joinSpaced]
  | @branch label span children clear nonempty each ih =>
      have legible : (branch label span children).Legible Text.isBlank :=
        .branch clear nonempty each
      by_cases feed : '\n' ∈ (branch label span children).print
      · exact map_text_of_several legible ih feed
      · exact map_text_of_single legible ih feed

theorem laidOut_rows (legible : tree.Legible Text.isBlank) :
    tree.LaidOut tree.rows where
  isRow := isRow_of_mem_rows tree
  inOrder := flatMap_places_rows tree
  written := map_text_rows legible

/-! ### Which nodes begin a line -/

/-- The paths to the nodes that begin a line. -/
def beginnings (tree : ParseTree) : List (Option (List Nat)) :=
  tree.rows.map fun row => row.places.head?

theorem beginnings_of_single (noFeed : '\n' ∉ tree.print) :
    tree.beginnings = [some []] := by
  cases tree with
  | leaf => rfl
  | branch =>
      rw [beginnings, rows_of_single noFeed, List.map_singleton,
        Row.places_close]
      rfl

theorem beginnings_of_several
    (feed : '\n' ∈ (branch label span children).print) :
    (branch label span children).beginnings =
      some [] :: (rowsList 0 children).map fun row => row.places.head? := by
  rw [beginnings, rows_of_several feed,
    map_modifyLast_of_comp_eq fun row => by rw [Row.places_close],
    List.map_cons, List.map_map]
  rfl

theorem cons_mem_map_rowsList_iff (childAt : children[number]? = some child)
    {rest : List Nat} :
    some (number :: rest) ∈
        (rowsList 0 children).map (fun row => row.places.head?) ↔
      some rest ∈ child.beginnings := by
  rw [rowsList_eq_flatMap, List.map_flatMap, List.mem_flatMap]
  constructor
  · rintro ⟨⟨other, place⟩, entryMember, member⟩
    obtain ⟨row, member, head⟩ := List.mem_map.mp member
    obtain ⟨row, rowMember, rfl⟩ := List.mem_map.mp member
    rw [Row.places_under, List.head?_map, Option.map_eq_some_iff] at head
    obtain ⟨path, head, pathEq⟩ := head
    obtain ⟨rfl, rfl⟩ := List.cons.inj pathEq
    have otherAt := List.mk_mem_zipIdx_iff_getElem?.mp entryMember
    obtain rfl := Option.some.inj (otherAt.symm.trans childAt)
    exact List.mem_map.mpr ⟨row, rowMember, head⟩
  · intro member
    obtain ⟨row, rowMember, head⟩ := List.mem_map.mp member
    refine ⟨(child, number), List.mk_mem_zipIdx_iff_getElem?.mpr childAt, ?_⟩
    refine List.mem_map.mpr
      ⟨row.under number, List.mem_map_of_mem rowMember, ?_⟩
    rw [Row.places_under, List.head?_map, head, Option.map_some]

theorem no_lineFeed_of_nodeAt? (legible : tree.Legible Text.isBlank)
    (noFeed : '\n' ∉ tree.print) {path : List Nat} {node : ParseTree}
    (reached : tree.nodeAt? path = some node) : '\n' ∉ node.print := by
  induction path generalizing tree with
  | nil =>
      obtain rfl : tree = node := by simpa using reached
      exact noFeed
  | cons number rest ih =>
      obtain ⟨child, childAt, below⟩ := nodeAt?_cons_eq_some_iff.mp reached
      have member := List.mem_of_getElem? childAt
      cases legible with
      | leaf => simp [ParseTree.children] at member
      | branch clear nonempty each =>
          have fit := (no_lineFeed_print_iff (.branch clear nonempty each)).mp
            noFeed
          exact ih (each child member) (fit.no_lineFeed each child member) below

/-- The node at the end of the path begins a line: it is the root, or its parent
takes several lines. -/
theorem mem_beginnings_iff (legible : tree.Legible Text.isBlank)
    {path : List Nat} {node : ParseTree}
    (reached : tree.nodeAt? path = some node) :
    some path ∈ tree.beginnings ↔
      path = [] ∨ ∃ parent, tree.nodeAt? path.dropLast = some parent ∧
        '\n' ∈ parent.print := by
  induction legible generalizing path with
  | leaf =>
      cases path with
      | nil => simp [beginnings, rows, Row.places]
      | cons => simp [nodeAt?_cons, ParseTree.children] at reached
  | @branch label span children clear nonempty each ih =>
      have legible : (branch label span children).Legible Text.isBlank :=
        .branch clear nonempty each
      by_cases feed : '\n' ∈ (branch label span children).print
      · rw [beginnings_of_several feed, List.mem_cons]
        cases path with
        | nil => simp
        | cons number rest =>
            obtain ⟨child, childAt, below⟩ := nodeAt?_cons_eq_some_iff.mp reached
            have childAt : children[number]? = some child := childAt
            rw [cons_mem_map_rowsList_iff childAt,
              ih child (List.mem_of_getElem? childAt) below]
            cases rest with
            | nil => simp [feed]
            | cons next rest =>
                rw [List.dropLast_cons_cons, nodeAt?_cons, ParseTree.children,
                  childAt]
                simp
      · rw [beginnings_of_single feed, List.mem_singleton, Option.some.injEq,
          or_iff_left_of_imp]
        rintro ⟨parent, parentAt, parentFeed⟩
        exact absurd parentFeed (no_lineFeed_of_nodeAt? legible feed parentAt)

/-! ### The lines are read in one way -/

theorem Shows.clear (legible : tree.Legible Text.isBlank)
    {mark : List Nat × List Char} (shows : tree.Shows mark) :
    mark.2 ≠ [] ∧ ' ' ∉ mark.2 := by
  obtain ⟨node, closings, reached, written⟩ := shows
  have nodeLegible : node.Legible Text.isBlank :=
    legible.of_mem_preorder (mem_preorder_iff.mpr ⟨mark.1, reached⟩)
  rw [written]
  constructor
  · exact List.append_ne_nil_of_left_ne_nil (opening_ne_nil nodeLegible) _
  · intro member
    rcases List.mem_append.mp member with member | member
    · exact absurd (isBlank_of_mem_opening nodeLegible ' ' member) (by decide)
    · exact absurd (List.eq_of_mem_replicate member) (by decide)

theorem joinSpaced_eq_intercalate (texts : List (List Char)) :
    joinSpaced texts = [' '].intercalate texts := by
  fun_induction joinSpaced texts with
  | case1 => rfl
  | case2 text => rw [List.intercalate_singleton]
  | case3 text rest nonempty ih =>
      obtain ⟨next, others, rfl⟩ := List.exists_cons_of_ne_nil nonempty
      rw [ih, List.intercalate_cons_cons, List.append_assoc,
        List.singleton_append]

theorem replicate_append_joinSpaced {texts : List (List Char)}
    (nonempty : texts ≠ []) (indentation : Nat) :
    List.replicate indentation ' ' ++ joinSpaced texts =
      joinSpaced (List.replicate indentation [] ++ texts) := by
  induction indentation with
  | zero => rfl
  | succ indentation ih =>
      rw [List.replicate_succ, List.replicate_succ, List.cons_append, ih,
        List.cons_append, joinSpaced, List.nil_append]
      simpa using fun _ => nonempty

/-- The line between spaces: nothing between those of the indentation, and then
what is written for each node. -/
theorem splitOn_text (legible : tree.Legible Text.isBlank)
    (isRow : tree.IsRow row) :
    row.text.splitOn ' ' =
      List.replicate row.indentation [] ++ row.marks.map Prod.snd := by
  obtain ⟨nonempty, shown⟩ := isRow
  have textsNonempty : row.marks.map Prod.snd ≠ [] := by simpa using nonempty
  rw [Row.text, replicate_append_joinSpaced textsNonempty,
    joinSpaced_eq_intercalate, List.splitOn_intercalate]
  · intro text member
    rcases List.mem_append.mp member with member | member
    · simp [List.eq_of_mem_replicate member]
    · obtain ⟨mark, markMember, rfl⟩ := List.mem_map.mp member
      exact ((shown mark markMember).clear legible).2
  · simp [textsNonempty]

theorem filter_splitOn_text (legible : tree.Legible Text.isBlank)
    (isRow : tree.IsRow row) :
    (row.text.splitOn ' ').filter (!·.isEmpty) = row.marks.map Prod.snd := by
  rw [splitOn_text legible isRow, List.filter_append,
    List.filter_eq_nil_iff.mpr (by simp), List.nil_append,
    List.filter_eq_self]
  intro text member
  obtain ⟨mark, markMember, rfl⟩ := List.mem_map.mp member
  simpa using ((isRow.2 mark markMember).clear legible).1

theorem indentation_eq_and_texts_eq (legible : tree.Legible Text.isBlank)
    {row' : Row} (isRow : tree.IsRow row) (isRow' : tree.IsRow row')
    (equal : row.text = row'.text) :
    row.indentation = row'.indentation ∧
      row.marks.map Prod.snd = row'.marks.map Prod.snd := by
  have textsEq : row.marks.map Prod.snd = row'.marks.map Prod.snd := by
    rw [← filter_splitOn_text legible isRow, equal,
      filter_splitOn_text legible isRow']
  have split := splitOn_text legible isRow
  rw [equal, splitOn_text legible isRow', textsEq,
    List.append_cancel_right_eq] at split
  refine ⟨?_, textsEq⟩
  simpa using congrArg List.length split.symm

theorem eq_of_text_eq {first second : List Row}
    (legible : tree.Legible Text.isBlank)
    (isRow : ∀ row ∈ first, tree.IsRow row)
    (isRow' : ∀ row ∈ second, tree.IsRow row)
    (textsEq : first.map Row.text = second.map Row.text)
    (placesEq : first.flatMap Row.places = second.flatMap Row.places) :
    first = second := by
  induction first generalizing second with
  | nil => simpa using textsEq.symm
  | cons row first ih =>
      cases second with
      | nil => simp at textsEq
      | cons row' second =>
          obtain ⟨rowIsRow, isRow⟩ := List.forall_mem_cons.mp isRow
          obtain ⟨rowIsRow', isRow'⟩ := List.forall_mem_cons.mp isRow'
          obtain ⟨textEq, textsEq⟩ := List.cons.inj textsEq
          obtain ⟨indentationEq, writtenEq⟩ :=
            indentation_eq_and_texts_eq legible rowIsRow rowIsRow' textEq
          rw [List.flatMap_cons, List.flatMap_cons] at placesEq
          have lengthEq : row.places.length = row'.places.length := by
            simpa [Row.places] using congrArg List.length writtenEq
          obtain ⟨rowPlacesEq, placesEq⟩ := List.append_inj placesEq lengthEq
          have marksEq : row.marks = row'.marks :=
            (List.zip_of_prod rowPlacesEq writtenEq).trans
              (List.zip_of_prod rfl rfl).symm
          rw [ih isRow isRow' textsEq placesEq, Row.ext indentationEq marksEq]

/-- The nodes are read off the lines in just one way. -/
theorem laidOut_iff (legible : tree.Legible Text.isBlank) {lines : List Row} :
    tree.LaidOut lines ↔ lines = tree.rows := by
  constructor
  · intro laidOut
    have laidOutRows := laidOut_rows legible
    exact eq_of_text_eq legible laidOut.isRow laidOutRows.isRow
      (laidOut.written.trans laidOutRows.written.symm)
      (laidOut.inOrder.trans laidOutRows.inOrder.symm)
  · rintro rfl
    exact laidOut_rows legible

/-- After its indentation a line begins with the opening of the first node that it
shows. -/
theorem IsRow.exists_opening (isRow : tree.IsRow row) :
    ∃ path node rest, row.places.head? = some path ∧
      tree.nodeAt? path = some node ∧
      row.text = List.replicate row.indentation ' ' ++
        (node.opening ++ rest) := by
  obtain ⟨nonempty, shown⟩ := isRow
  obtain ⟨first, others, marksEq⟩ := List.exists_cons_of_ne_nil nonempty
  obtain ⟨node, closings, reached, written⟩ := shown first (by simp [marksEq])
  have textEq : row.text = List.replicate row.indentation ' ' ++
      (node.opening ++ (List.replicate closings ')' ++
        (others.map Prod.snd).flatMap (' ' :: ·))) := by
    rw [Row.text, marksEq, List.map_cons, joinSpaced_cons, written,
      List.append_assoc]
  exact ⟨first.1, node, _, by simp [Row.places, marksEq], reached, textEq⟩

theorem length_lines_print_eq_one_iff (legible : tree.Legible Text.isBlank) :
    (Text.lines tree.print).length = 1 ↔ '\n' ∉ tree.print :=
  Text.length_lines_eq_one_iff (print_ne_nil legible) (getLast?_print legible)

theorem one_lt_length_lines_print_iff (legible : tree.Legible Text.isBlank) :
    1 < (Text.lines tree.print).length ↔ '\n' ∈ tree.print := by
  have positive := List.length_pos_iff.mpr
    (Text.lines_ne_nil (print_ne_nil legible))
  have single := length_lines_print_eq_one_iff legible
  by_cases feed : '\n' ∈ tree.print
  · simp only [feed, not_true_eq_false, iff_false] at single
    simp only [feed, iff_true]
    omega
  · simp only [feed, not_false_eq_true, iff_true] at single
    simp [feed, single]

/-- Indentation shows depth.  The nodes are read off the lines of a printed tree in
just one way.  Each line is indented by two spaces for each node above the first
one it shows, and goes on with the opening of this node.  A node begins a line just
if it is the root or its parent takes several lines, and a branch takes a single
line just if all its children are leaves or its only child takes a single line. -/
theorem indentation_shows_depth (legible : tree.Legible Text.isBlank) :
    (∃ rows : List Row, (∀ other, tree.LaidOut other ↔ other = rows) ∧
      (∀ row ∈ rows, ∃ path node rest, row.places.head? = some path ∧
        tree.nodeAt? path = some node ∧
        row.text = List.replicate (2 * path.length) ' ' ++
          (node.opening ++ rest) ∧
        (node.opening ++ rest).head? ≠ some ' ') ∧
      ∀ path node, tree.nodeAt? path = some node →
        ((∃ row ∈ rows, row.places.head? = some path) ↔
          path = [] ∨ ∃ parent, tree.nodeAt? path.dropLast = some parent ∧
            1 < (Text.lines parent.print).length)) ∧
    ∀ label span children, branch label span children ∈ tree.preorder →
      ((Text.lines (branch label span children).print).length = 1 ↔
        (∀ child ∈ children, child.isLeaf) ∨
          ∃ child, children = [child] ∧
            (Text.lines child.print).length = 1) := by
  have legibleAt {path : List Nat} {node : ParseTree}
      (reached : tree.nodeAt? path = some node) :
      node.Legible Text.isBlank :=
    legible.of_mem_preorder (mem_preorder_iff.mpr ⟨path, reached⟩)
  refine ⟨⟨tree.rows, fun other => laidOut_iff legible, ?_, ?_⟩, ?_⟩
  · intro row member
    obtain ⟨path, node, rest, head, reached, textEq⟩ :=
      (isRow_of_mem_rows tree row member).exists_opening
    obtain ⟨path', head', indentationEq⟩ := deep_of_mem_rows tree row member
    obtain rfl := Option.some.inj (head.symm.trans head')
    rw [indentationEq] at textEq
    exact ⟨path, node, rest, head, reached, textEq,
      head?_opening_append (legibleAt reached) rest⟩
  · intro path node reached
    have begins := mem_beginnings_iff legible reached
    rw [beginnings, List.mem_map] at begins
    rw [begins]
    apply or_congr_right
    apply exists_congr
    intro parent
    apply and_congr_right
    intro parentAt
    exact (one_lt_length_lines_print_iff (legibleAt parentAt)).symm
  · intro label span children member
    have branchLegible := legible.of_mem_preorder member
    rw [length_lines_print_eq_one_iff branchLegible,
      no_lineFeed_print_iff branchLegible, Fit]
    apply or_congr_right
    apply exists_congr
    intro child
    apply and_congr_right
    rintro rfl
    cases branchLegible with
    | branch _ _ each =>
        exact (length_lines_print_eq_one_iff (each child (by simp))).symm

/-- A phrase on one line between a word and a phrase on several lines. -/
def mixedLines : ParseTree :=
  .branch "S" ⟨0, 4⟩
    [.leaf "oh" ⟨0, 1⟩,
      .branch "NP" ⟨1, 2⟩ [.branch "N" ⟨1, 2⟩ [.leaf "holmes" ⟨1, 2⟩]],
      .branch "VP" ⟨2, 4⟩
        [.leaf "was" ⟨2, 3⟩, .branch "A" ⟨3, 4⟩ [.leaf "here" ⟨3, 4⟩]]]

/-- The last phrase begins a line, since the phrase that it is in takes several.
The name does not. -/
theorem indentation_shows_depth_mixedLines :
    toString mixedLines =
        "(S\n  oh\n  (NP (N holmes))\n  (VP\n    was\n    (A here)))" ∧
      ∃ rows : List Row, mixedLines.LaidOut rows ∧
        (∃ row ∈ rows, row.places.head? = some [2, 1]) ∧
        ¬∃ row ∈ rows, row.places.head? = some [1, 0, 0] := by
  have clear : ∀ name ∈ ["S", "oh", "NP", "N", "holmes", "VP", "was", "A",
      "here"], Clear Text.isBlank name := by
    decide +kernel
  have legible : mixedLines.Legible Text.isBlank := by
    simp [mixedLines, legible_branch_iff, legible_leaf_iff, clear]
  obtain ⟨⟨rows, laidOut_iff, _, begins⟩, _⟩ := indentation_shows_depth legible
  refine ⟨by decide +kernel, rows, (laidOut_iff rows).mpr rfl, ?_, ?_⟩
  · exact (begins [2, 1] _ rfl).mpr (.inr ⟨_, rfl, by decide +kernel⟩)
  · rw [begins [1, 0, 0] _ rfl]
    rintro (equal | ⟨parent, parentAt, several⟩)
    · simp at equal
    · obtain rfl := Option.some.inj parentAt
      exact absurd several (by decide +kernel)

end ParseTree

end Constituency
