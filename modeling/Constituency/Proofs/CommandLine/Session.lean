import Constituency.CommandLine.Session
import Constituency.Proofs.Parse.Chart
import Constituency.Proofs.Text.Line
import Constituency.Proofs.Token.Spacing

/-!
# Sessions and sentences in files

The answer to a sentence depends on its tokens alone, so it matters neither that a
session trims each line, nor that a file may end its line.  A line feed is a byte of
its own in UTF-8, which makes the lines of the input bytes those of the text.  So a
session at the prompt answers each line of its input as the program answers a file
that holds the line, and no answer ends the session or changes a later one.
-/

namespace Constituency

namespace CommandLine

def bytes (text : List Char) : List UInt8 :=
  text.flatMap String.utf8EncodeChar

/-- What a session writes: each answer follows a prompt, and a last prompt follows
the answers. -/
def dialogue (answers : List String) : String :=
  String.join (answers.map (prompt ++ ·)) ++ prompt

/-- The files, of which one holds the text. -/
def holding (files : String → Except FileError ByteArray)
    (file text : String) (path : String) : Except FileError ByteArray :=
  if path = file then .ok text.toUTF8 else files path

def loadGrammar (options : Options)
    (files : String → Except FileError ByteArray) : Except Failure Grammar :=
  match options.grammarFile with
  | none => builtInGrammar
  | some file => grammarOfFile (files file)

/-- The arguments that do not name the file of a sentence. -/
def flags : List String :=
  ["-h", "--help", "-c", "--chart", "-g", "--grammar", "-m", "--max-trees"]

section Encoding

theorem toUTF8_ofList (text : List Char) :
    (String.ofList text).toUTF8 = ⟨(bytes text).toArray⟩ := by
  apply ByteArray.ext
  rw [String.toUTF8, String.toByteArray_ofList, List.utf8Encode,
    List.data_toByteArray]
  rfl

theorem decode_toUTF8 (text : String) : decode text.toUTF8 = .ok text := by
  have read : String.fromUTF8? text.toUTF8 = some text := by
    rw [String.fromUTF8?, String.toUTF8, dif_pos text.isValidUTF8]
    rfl
  rw [decode, read]

theorem bytes_append (text rest : List Char) :
    bytes (text ++ rest) = bytes text ++ bytes rest :=
  List.flatMap_append

theorem bytes_cons_lineFeed (rest : List Char) :
    bytes ('\n' :: rest) = 10 :: bytes rest :=
  rfl

theorem lineFeed_not_mem_utf8EncodeChar {c : Char} (notFeed : c ≠ '\n') :
    10 ∉ String.utf8EncodeChar c := by
  have otherCode : c.val.toNat ≠ 10 := fun same =>
    notFeed (Char.ext (UInt32.toNat_inj.mp same))
  have isFeed : ∀ code : Nat, 10 = UInt8.ofNat code ↔ code % 256 = 10 := by
    intro code
    rw [← UInt8.toNat_inj, UInt8.toNat_ofNat', eq_comm]
    rfl
  -- The bytes of a character that has several of them are all above 127.
  rw [String.utf8EncodeChar]
  split_ifs
  · simp only [List.mem_singleton, isFeed]
    omega
  all_goals
    simp only [List.mem_cons, List.not_mem_nil, or_false, isFeed]
    omega

theorem lineFeed_not_mem_bytes {text : List Char} (noFeed : '\n' ∉ text) :
    10 ∉ bytes text := by
  intro member
  obtain ⟨c, cMember, byteMember⟩ := List.mem_flatMap.mp member
  have notFeed : c ≠ '\n' := by
    rintro rfl
    exact noFeed cMember
  exact lineFeed_not_mem_utf8EncodeChar notFeed byteMember

theorem bytes_ne_nil {text : List Char} (nonempty : text ≠ []) :
    bytes text ≠ [] := by
  obtain ⟨c, rest, rfl⟩ := List.exists_cons_of_ne_nil nonempty
  simp [bytes]

end Encoding

section Lines

variable {line : List UInt8}

theorem inputLines_append (noFeed : 10 ∉ line) (rest : List UInt8) :
    inputLines (line ++ 10 :: rest) = line :: inputLines rest := by
  induction line with
  | nil => rfl
  | cons byte tail ih =>
      obtain ⟨notFeed, tailPlain⟩ := List.ne_and_not_mem_of_not_mem_cons noFeed
      rw [List.cons_append, inputLines, if_neg (Ne.symm notFeed), ih tailPlain]

theorem inputLines_of_no_lineFeed (nonempty : line ≠ []) (noFeed : 10 ∉ line) :
    inputLines line = [line] := by
  induction line with
  | nil => exact absurd rfl nonempty
  | cons byte tail ih =>
      obtain ⟨notFeed, tailPlain⟩ := List.ne_and_not_mem_of_not_mem_cons noFeed
      rw [inputLines, if_neg (Ne.symm notFeed)]
      cases tail with
      | nil => rfl
      | cons next tail => rw [ih (List.cons_ne_nil _ _) tailPlain]

end Lines

section Answers

variable {grammar : Grammar} {options : Options} {text : List Char}
variable {lines : List (List Char)} {files : String → Except FileError ByteArray}

theorem respond_congr {first second : String}
    (same : tokenize first = tokenize second) (grammar : Grammar)
    (options : Options) :
    respond grammar options first = respond grammar options second := by
  rw [respond, respond, same]

theorem respond_append_blank (sentence : String) {ending : String}
    (blank : Text.Blank ending.toList) :
    respond grammar options (sentence ++ ending) =
      respond grammar options sentence :=
  respond_congr (tokenize_append_blank sentence blank) grammar options

/-- A line is answered as if it were not trimmed. -/
theorem respondLine_eq_respond (grammar : Grammar) (options : Options)
    (line : String) :
    respondLine grammar options line = respond grammar options line :=
  respond_congr (tokenize_trim line) grammar options

theorem dialogue_cons (answer : String) (answers : List String) :
    dialogue (answer :: answers) = prompt ++ answer ++ dialogue answers := by
  simp [dialogue, String.append_assoc]

/-- The answer to a line leaves nothing behind for the lines that follow. -/
theorem converse_bytes_cons {rest : List (List UInt8)} {answers : List String}
    (later : converse grammar options rest = ⟨0, dialogue answers, ""⟩)
    (line : List Char) :
    converse grammar options (bytes line :: rest) =
      ⟨0, dialogue (respond grammar options (String.ofList line) :: answers),
        ""⟩ := by
  have decodes : decode ⟨(bytes line).toArray⟩ = .ok (String.ofList line) := by
    rw [← toUTF8_ofList, decode_toUTF8]
  rw [converse, answerLine, decodes, dialogue_cons]
  simp only [later, respondLine_eq_respond]

/-- The lines of an input are answered one after the other, each after a
prompt. -/
theorem converse_of_comprises (comprises : Text.Comprises text lines)
    (grammar : Grammar) (options : Options) :
    converse grammar options (inputLines (bytes text)) =
      ⟨0, dialogue (lines.map fun line =>
        respond grammar options (String.ofList line)), ""⟩ := by
  induction comprises with
  | nil => rfl
  | @last line nonempty noFeed =>
      rw [inputLines_of_no_lineFeed (bytes_ne_nil nonempty)
        (lineFeed_not_mem_bytes noFeed)]
      exact converse_bytes_cons rfl line
  | @feed line rest others plain following ih =>
      rw [bytes_append, bytes_cons_lineFeed,
        inputLines_append (lineFeed_not_mem_bytes plain.no_lineFeed)]
      exact converse_bytes_cons ih line
  | @returnFeed line rest others noFeed following ih =>
      -- The carriage return stays with the line, and is not answered.
      have noFeed : '\n' ∉ line ++ ['\r'] := by simpa using noFeed
      have lineEq : line ++ '\r' :: '\n' :: rest =
          (line ++ ['\r']) ++ '\n' :: rest := by simp
      have answered := converse_bytes_cons ih (line ++ ['\r'])
      rw [String.ofList_append, respond_append_blank _ (by decide)] at answered
      rw [lineEq, bytes_append, bytes_cons_lineFeed,
        inputLines_append (lineFeed_not_mem_bytes noFeed)]
      exact answered

end Answers

section Arguments

variable {initial options : Options} {arguments : List String} {file : String}

theorem read_append (asked : initial.read arguments = .parse options)
    (rest : List String) :
    initial.read (arguments ++ rest) = options.read rest := by
  fun_induction Options.read initial arguments with
  | case1 initial =>
      rw [List.nil_append, Request.parse.inj asked]
  | case2 | case4 | case6 | case7 | case10 => cases asked
  | case3 initial flag others notHelp isChart ih =>
      rw [List.cons_append, Options.read.eq_def]
      dsimp only
      rw [if_neg notHelp, if_pos isChart, ih asked]
  | case5 initial flag notHelp notChart isGrammar file others ih =>
      rw [List.cons_append, List.cons_append, Options.read, if_neg notHelp,
        if_neg notChart, if_pos isGrammar]
      exact ih asked
  | case8 initial flag notHelp notChart notGrammar isLimit number others limit
      isNumber ih =>
      rw [List.cons_append, List.cons_append, Options.read, if_neg notHelp,
        if_neg notChart, if_neg notGrammar, if_pos isLimit]
      simp only [isNumber]
      exact ih asked
  | case9 initial file others notHelp notChart notGrammar notLimit prompting ih =>
      rw [List.cons_append, Options.read.eq_def]
      simp only [if_neg notHelp, if_neg notChart, if_neg notGrammar,
        if_neg notLimit, prompting]
      exact ih asked

/-- A session becomes the parsing of a file when the file is named. -/
theorem ofArguments_append_file
    (asked : Options.ofArguments arguments = .parse options)
    (prompting : options.sentenceFile = none) (named : file ∉ flags) :
    Options.ofArguments (arguments ++ [file]) =
      .parse { options with sentenceFile := some file } := by
  rw [Options.ofArguments, read_append asked]
  simp only [flags, List.mem_cons, List.not_mem_nil, or_false, not_or] at named
  simp [Options.read, named, prompting]

end Arguments

section Runs

variable {program file ending : String} {arguments fileArguments : List String}
variable {files : String → Except FileError ByteArray} {options : Options}
variable {grammar : Grammar}

/-- A run on a request to parse answers with the grammar that is loaded. -/
theorem run_of_parse (program : String)
    (asked : Options.ofArguments arguments = .parse options)
    (files : String → Except FileError ByteArray) (input : ByteArray) :
    run program arguments files input =
      (Plan.answer options (loadGrammar options files)).outcome files input := by
  rw [run, asked, Plan.ofRequest, loadGrammar]
  cases options.grammarFile <;> rfl

theorem bind_decode_holding (files : String → Except FileError ByteArray)
    (file text : String) :
    (holding files file text file).bind decode = .ok text := by
  rw [holding, if_pos rfl]
  exact decode_toUTF8 text

/-- The file of the sentence does not matter to the grammar. -/
theorem loadGrammar_holding (otherFile : options.grammarFile ≠ some file)
    (text : String) :
    loadGrammar { options with sentenceFile := some file }
        (holding files file text) =
      loadGrammar options files := by
  unfold loadGrammar
  cases found : options.grammarFile with
  | none => rfl
  | some grammarFile =>
      have apart : grammarFile ≠ file := by
        rintro rfl
        exact otherFile found
      simp only [holding, if_neg apart]

theorem run_file (program : String)
    (asked : Options.ofArguments arguments =
      .parse { options with sentenceFile := some file })
    (otherFile : options.grammarFile ≠ some file)
    (loaded : loadGrammar options files = .ok grammar)
    (text : String) (input : ByteArray) :
    run program arguments (holding files file text) input =
      ⟨0, respond grammar options text, ""⟩ := by
  rw [run_of_parse program asked, loadGrammar_holding otherFile, loaded]
  simp only [Plan.answer, Plan.outcome, answerFile, bind_decode_holding]
  rfl

theorem output_run_file (program : String)
    (askedForFile : Options.ofArguments fileArguments =
      .parse { options with sentenceFile := some file })
    (otherFile : options.grammarFile ≠ some file)
    (loaded : loadGrammar options files = .ok grammar)
    (blank : Text.Blank ending.toList) (line : String) (input : ByteArray) :
    (run program fileArguments (holding files file (line ++ ending))
      input).output = respond grammar options line := by
  rw [run_file program askedForFile otherFile loaded,
    respond_append_blank _ blank]

/-- A session at the prompt answers each line of its input as the program answers a
file that holds the line, whether the line is ended there or not. -/
theorem run_prompting (program : String)
    (asked : Options.ofArguments arguments = .parse options)
    (prompting : options.sentenceFile = none)
    (askedForFile : Options.ofArguments fileArguments =
      .parse { options with sentenceFile := some file })
    (otherFile : options.grammarFile ≠ some file)
    (loaded : loadGrammar options files = .ok grammar)
    (blank : Text.Blank ending.toList) (text : String) (input : ByteArray) :
    run program arguments files text.toUTF8 =
      ⟨0, dialogue ((Text.lines text.toList).map fun line =>
        (run program fileArguments
          (holding files file (String.ofList line ++ ending)) input).output),
        ""⟩ := by
  have outputs := output_run_file program askedForFile otherFile loaded blank
  have inputEq : text.toUTF8 = ⟨(bytes text.toList).toArray⟩ := by
    rw [← toUTF8_ofList, String.ofList_toList]
  have answered := converse_of_comprises (Text.comprises_lines text.toList)
    grammar options
  rw [run_of_parse program asked, loaded, inputEq]
  simp only [Plan.answer, prompting, Plan.outcome, outputs, answered]

/-- A file with a grammar of sequences of one word. -/
def sequenceFiles : String → Except FileError ByteArray :=
  holding (fun _ => .error .notFound) "rules" "S -> S S | N\nN -> \"x\""

theorem loadGrammar_sequenceFiles :
    loadGrammar ⟨none, some "rules", 1, false⟩ sequenceFiles =
      .ok Grammar.sequences := by
  have read : Grammar.ofText "S -> S S | N\nN -> \"x\"" =
      .ok Grammar.sequences := by
    decide +kernel
  have content : (sequenceFiles "rules").bind decode =
      .ok "S -> S S | N\nN -> \"x\"" :=
    bind_decode_holding ..
  simp only [loadGrammar, grammarOfFile, content, read]

/-- A line with too many trees, one with an unknown word and one without words are
answered like the last line, which is parsed. -/
theorem run_prompting_mixedLines :
    run "parse" ["-m", "1", "-g", "rules"] sequenceFiles
        "x x x\ny\r\n\nx".toUTF8 =
      ⟨0, dialogue (["x x x", "y", "", "x"].map fun line =>
        (run "parse" ["-m", "1", "-g", "rules", "sentence"]
          (holding sequenceFiles "sentence" (line ++ "\n")) .empty).output),
        ""⟩ ∧
    (run "parse" ["-m", "1", "-g", "rules"] sequenceFiles
        "x x x\ny\r\n\nx".toUTF8).output =
      "Sentence: sentence has more than 1 parse trees\n" ++
      "Sentence: unknown word \"y\" at position 0\n" ++
      "Sentence: Could not parse sentence.\n" ++
      "Sentence: (S (N x))\n\nNoun Phrase Chunks\n\n" ++
      "Sentence: " := by
  have asked : Options.ofArguments ["-m", "1", "-g", "rules"] =
      .parse ⟨none, some "rules", 1, false⟩ := by
    decide +kernel
  have named : "sentence" ∉ flags := by decide +kernel
  have askedForFile :
      Options.ofArguments ["-m", "1", "-g", "rules", "sentence"] =
        .parse ⟨some "sentence", some "rules", 1, false⟩ :=
    ofArguments_append_file asked rfl named
  have linesEq : Text.lines "x x x\ny\r\n\nx".toList =
      ["x x x", "y", "", "x"].map String.toList := by
    decide +kernel
  have blank : Text.Blank "\n".toList := by decide +kernel
  have session := run_prompting "parse" asked rfl askedForFile (by decide)
    loadGrammar_sequenceFiles blank "x x x\ny\r\n\nx" .empty
  rw [linesEq, List.map_map] at session
  simp only [Function.comp_def, String.ofList_toList] at session
  have outputs := output_run_file "parse" askedForFile (by decide)
    loadGrammar_sequenceFiles blank
  refine ⟨session, ?_⟩
  rw [session]
  simp only [outputs]
  decide +kernel

end Runs

end CommandLine

end Constituency
