import Constituency.CommandLine.Session
import Constituency.Proofs.Text.Decimal

/-!
# Groups of arguments

The arguments fall into groups in just one way: an option stands together with the
argument after it if it takes a value, and every other argument stands for itself.
If no group is refused, the last group about a topic decides on this topic, so that
it does not matter in which order different topics come.  Otherwise the first group
that is refused decides on its own what becomes of the request.
-/

namespace Constituency

namespace CommandLine

/-- What an argument is about, unless it is the value of an option. -/
inductive Topic where
  | help
  | chart
  | grammar
  | treeLimit
  | sentence
  deriving DecidableEq

namespace Topic

/-- The options have a short and a long name, and anything else names a file. -/
def ofArgument (argument : String) : Topic :=
  if argument = "-h" ∨ argument = "--help" then .help
  else if argument = "-c" ∨ argument = "--chart" then .chart
  else if argument = "-g" ∨ argument = "--grammar" then .grammar
  else if argument = "-m" ∨ argument = "--max-trees" then .treeLimit
  else .sentence

/-- The argument after the option is its value, whatever it looks like. -/
def TakesValue (topic : Topic) : Prop :=
  topic = .grammar ∨ topic = .treeLimit

end Topic

/-- An argument, and the one after it if that is its value. -/
structure Group where
  argument : String
  value : Option String

namespace Group

def topic (group : Group) : Topic :=
  Topic.ofArgument group.argument

def arguments (group : Group) : List String :=
  group.argument :: group.value.toList

end Group

/-- The groups are those of the arguments, in this order. -/
structure Reads (groups : List Group) (arguments : List String) : Prop where
  arguments_eq : groups.flatMap Group.arguments = arguments
  takesValue : ∀ group ∈ groups, group.value.isSome → group.topic.TakesValue
  /-- Only the last argument can be an option that lacks its value. -/
  isSome_value : ∀ group ∈ groups.dropLast, group.topic.TakesValue →
    group.value.isSome

def about (topic : Topic) (groups : List Group) : List Group :=
  groups.filter (·.topic = topic)

/-- The text is a decimal numeral of a limit that can be asked for. -/
def AsksLimit (text : String) (limit : Nat) : Prop :=
  Text.Numeral text.toList limit ∧ limit ≤ 2 ^ 64 - 1

/-- No group is refused. -/
structure Acceptable (groups : List Group) : Prop where
  help : about .help groups = []
  grammar : ∀ group ∈ about .grammar groups, group.value.isSome
  treeLimit : ∀ group ∈ about .treeLimit groups,
    ∃ text ∈ group.value, ∃ limit, AsksLimit text limit
  sentence : (about .sentence groups).length ≤ 1

/-- The group is refused after the groups before it, and this is what becomes of the
request. -/
inductive Refused (before : List Group) (group : Group) : Request → Prop
  | help (topic : group.topic = .help) : Refused before group .help
  | grammar (topic : group.topic = .grammar) (missing : group.value = none) :
      Refused before group (.invalid .missingGrammarFile)
  | treeLimit (topic : group.topic = .treeLimit)
      (bad : ∀ text ∈ group.value, ∀ limit, ¬ AsksLimit text limit) :
      Refused before group (.invalid .missingTreeLimit)
  | sentence (topic : group.topic = .sentence)
      (earlier : about .sentence before ≠ []) :
      Refused before group (.invalid .extraArgument)

/-- The options are those that the groups ask for. -/
structure Asks (groups : List Group) (options : Options) : Prop where
  sentenceFile_eq : options.sentenceFile =
    (about .sentence groups).head?.map (·.argument)
  grammarFile_eq : options.grammarFile =
    (about .grammar groups).getLast?.bind (·.value)
  treeLimit_eq : about .treeLimit groups = [] → options.treeLimit = 10000
  asksLimit : ∀ last ∈ (about .treeLimit groups).getLast?,
    ∃ text ∈ last.value, AsksLimit text options.treeLimit
  showChart_iff : options.showChart = true ↔ about .chart groups ≠ []

/-- The groups about each topic are the same, in the same order, so that only groups
about different topics may have changed places. -/
def Rearranges (rearranged groups : List Group) : Prop :=
  ∀ topic, about topic rearranged = about topic groups

variable {groups before after : List Group} {group : Group}
variable {options : Options} {arguments rest : List String}

section About

theorem about_concat (topic : Topic) (before : List Group) (group : Group) :
    about topic (before ++ [group]) =
      if group.topic = topic then
        about topic before ++ [group]
      else
        about topic before := by
  by_cases same : group.topic = topic
  · simp [about, same]
  · simp [about, same]

theorem mem_about_topic : group ∈ about group.topic groups ↔ group ∈ groups := by
  simp [about]

end About

section Readings

theorem reads_nil : Reads [] [] :=
  ⟨rfl, by simp, by simp⟩

theorem Reads.cons (reads : Reads groups rest)
    (takes : group.value.isSome → group.topic.TakesValue)
    (given : group.topic.TakesValue → group.value.isSome ∨ rest = []) :
    Reads (group :: groups) (group.arguments ++ rest) := by
  refine ⟨by rw [List.flatMap_cons, reads.arguments_eq], ?_, ?_⟩
  · exact List.forall_mem_cons.mpr ⟨takes, reads.takesValue⟩
  · cases groups with
    | nil => simp
    | cons next others =>
        rw [List.dropLast_cons_cons]
        refine List.forall_mem_cons.mpr ⟨fun valued => ?_, reads.isSome_value⟩
        -- The next group has an argument, so something follows.
        refine (given valued).resolve_right fun nothing => ?_
        have := reads.arguments_eq
        simp [nothing, Group.arguments] at this

theorem Reads.tail (reads : Reads (group :: groups) arguments) :
    Reads groups (groups.flatMap Group.arguments) := by
  refine ⟨rfl, fun other member => reads.takesValue other (by simp [member]), ?_⟩
  intro other member
  apply reads.isSome_value
  cases groups with
  | nil => simp at member
  | cons next others => simp [member]

theorem Reads.head_cases (reads : Reads (group :: groups) arguments)
    (takes : group.topic.TakesValue) : group.value.isSome ∨ groups = [] := by
  cases groups with
  | nil => exact .inr rfl
  | cons next others => exact .inl (reads.isSome_value group (by simp) takes)

theorem exists_reads (arguments : List String) :
    ∃ groups, Reads groups arguments := by
  induction h : arguments.length using Nat.strong_induction_on
    generalizing arguments with
  | _ size ih =>
    subst h
    match arguments with
    | [] => exact ⟨[], reads_nil⟩
    | argument :: rest =>
        by_cases takes : (Topic.ofArgument argument).TakesValue
        · match rest with
          | [] =>
              exact ⟨[⟨argument, none⟩], reads_nil.cons (by simp) (by simp)⟩
          | value :: rest =>
              have shorter :
                  rest.length < (argument :: value :: rest).length := by
                simp only [List.length_cons]
                omega
              obtain ⟨groups, reads⟩ := ih _ shorter rest rfl
              exact ⟨⟨argument, some value⟩ :: groups,
                reads.cons (fun _ => takes) (by simp)⟩
        · obtain ⟨groups, reads⟩ := ih rest.length (by simp) rest rfl
          exact ⟨⟨argument, none⟩ :: groups,
            reads.cons (by simp) fun valued => absurd valued takes⟩

theorem Reads.unique {others : List Group} (reads : Reads groups arguments)
    (otherReads : Reads others arguments) : others = groups := by
  induction groups generalizing others arguments with
  | nil =>
      cases others with
      | nil => rfl
      | cons other others =>
          have := otherReads.arguments_eq.trans reads.arguments_eq.symm
          simp [Group.arguments] at this
  | cons group groups ih =>
      have same := otherReads.arguments_eq.trans reads.arguments_eq.symm
      cases others with
      | nil => simp [Group.arguments] at same
      | cons other others =>
          obtain ⟨argument, value⟩ := group
          obtain ⟨otherArgument, otherValue⟩ := other
          simp only [List.flatMap_cons, Group.arguments, List.cons_append,
            List.cons.injEq] at same
          obtain ⟨rfl, same⟩ := same
          have takes := reads.takesValue ⟨otherArgument, value⟩ (by simp)
          have otherTakes :=
            otherReads.takesValue ⟨otherArgument, otherValue⟩ (by simp)
          have rests : others.flatMap Group.arguments =
              groups.flatMap Group.arguments → others = groups := by
            intro same
            have tails := otherReads.tail
            rw [same] at tails
            exact ih reads.tail tails
          cases value with
          | none =>
              cases otherValue with
              | none => rw [rests same]
              | some text =>
                  -- An option without its value is the last argument.
                  have last := (reads.head_cases (otherTakes rfl)).resolve_left
                    (by simp)
                  subst groups
                  simp at same
          | some text =>
              cases otherValue with
              | none =>
                  have last := (otherReads.head_cases (takes rfl)).resolve_left
                    (by simp)
                  subst others
                  simp at same
              | some otherText =>
                  simp only [Option.toList_some, List.cons_append,
                    List.nil_append, List.cons.injEq] at same
                  obtain ⟨rfl, same⟩ := same
                  rw [rests same]

end Readings

section Steps

theorem read_cons (options : Options) (argument : String) (rest : List String) :
    options.read (argument :: rest) =
      match Topic.ofArgument argument with
      | .help => .help
      | .chart => Options.read { options with showChart := true } rest
      | .grammar =>
          match rest with
          | [] => .invalid .missingGrammarFile
          | file :: rest =>
              Options.read { options with grammarFile := some file } rest
      | .treeLimit =>
          match rest with
          | [] => .invalid .missingTreeLimit
          | number :: rest =>
              match Text.readDecimal? Options.greatestTreeLimit
                number.toList with
              | none => .invalid .missingTreeLimit
              | some limit =>
                  Options.read { options with treeLimit := limit } rest
      | .sentence =>
          match options.sentenceFile with
          | none => Options.read { options with sentenceFile := some argument }
              rest
          | some _ => .invalid .extraArgument := by
  rw [Options.read.eq_def]
  unfold Topic.ofArgument
  dsimp only
  split_ifs <;> rfl

theorem readDecimal?_eq_some_iff_asksLimit {text : String} {limit : Nat} :
    Text.readDecimal? Options.greatestTreeLimit text.toList = some limit ↔
      AsksLimit text limit :=
  Text.readDecimal?_eq_some_iff

theorem Acceptable.concat (accepted : Acceptable before)
    (help : group.topic ≠ .help)
    (grammar : group.topic = .grammar → group.value.isSome)
    (treeLimit : group.topic = .treeLimit →
      ∃ text ∈ group.value, ∃ limit, AsksLimit text limit)
    (sentence : group.topic = .sentence → about .sentence before = []) :
    Acceptable (before ++ [group]) := by
  constructor
  · rw [about_concat, if_neg help]
    exact accepted.help
  · rw [about_concat]
    split
    · rename_i same
      rw [List.forall_mem_append, List.forall_mem_singleton]
      exact ⟨accepted.grammar, grammar same⟩
    · exact accepted.grammar
  · rw [about_concat]
    split
    · rename_i same
      rw [List.forall_mem_append, List.forall_mem_singleton]
      exact ⟨accepted.treeLimit, treeLimit same⟩
    · exact accepted.treeLimit
  · rw [about_concat]
    split
    · rename_i same
      simp [sentence same]
    · exact accepted.sentence

theorem read_group (accepted : Acceptable before) (asks : Asks before options)
    (takes : group.value.isSome → group.topic.TakesValue)
    (given : group.topic.TakesValue → group.value.isSome ∨ rest = []) :
    (∃ next, Acceptable (before ++ [group]) ∧ Asks (before ++ [group]) next ∧
      options.read (group.arguments ++ rest) = next.read rest) ∨
    ∃ request, Refused before group request ∧
      options.read (group.arguments ++ rest) = request := by
  rw [Group.arguments, List.cons_append, read_cons]
  have valueless : ¬ group.topic.TakesValue → group.value = none := by
    intro notTaken
    simpa using fun valued => notTaken (takes valued)
  cases topic : Topic.ofArgument group.argument with
  | help => exact .inr ⟨.help, .help topic, rfl⟩
  | chart =>
      change group.topic = .chart at topic
      rw [valueless (by simp [topic, Topic.TakesValue])]
      refine .inl ⟨_, ?_, ?_, rfl⟩
      · apply accepted.concat <;> simp [topic]
      · constructor
        all_goals simp only [about_concat, topic, reduceCtorEq, ↓reduceIte]
        exacts [asks.sentenceFile_eq, asks.grammarFile_eq, asks.treeLimit_eq,
          asks.asksLimit, by simp]
  | grammar =>
      change group.topic = .grammar at topic
      cases value : group.value with
      | none =>
          rw [(given (.inl topic)).resolve_left (by simp [value])]
          exact .inr ⟨_, .grammar topic value, rfl⟩
      | some file =>
          refine .inl ⟨_, ?_, ?_, rfl⟩
          · apply accepted.concat <;> simp [topic, value]
          · constructor
            all_goals simp only [about_concat, topic, reduceCtorEq, ↓reduceIte]
            exacts [asks.sentenceFile_eq, by simp [value], asks.treeLimit_eq,
              asks.asksLimit, asks.showChart_iff]
  | treeLimit =>
      change group.topic = .treeLimit at topic
      cases value : group.value with
      | none =>
          rw [(given (.inr topic)).resolve_left (by simp [value])]
          exact .inr ⟨_, .treeLimit topic (by simp [value]), rfl⟩
      | some text =>
          dsimp only [Option.toList_some, List.cons_append, List.nil_append]
          cases read : Text.readDecimal? Options.greatestTreeLimit
              text.toList with
          | none =>
              refine .inr ⟨_, .treeLimit topic ?_, rfl⟩
              rw [value]
              rintro other ⟨⟩ limit asksLimit
              rw [readDecimal?_eq_some_iff_asksLimit.mpr asksLimit] at read
              cases read
          | some limit =>
              have asksLimit := readDecimal?_eq_some_iff_asksLimit.mp read
              refine .inl ⟨_, ?_, ?_, rfl⟩
              · apply accepted.concat <;> simp [topic, value]
                exact ⟨limit, asksLimit⟩
              · constructor
                all_goals
                  simp only [about_concat, topic, reduceCtorEq, ↓reduceIte]
                exacts [asks.sentenceFile_eq, asks.grammarFile_eq, by simp,
                  by simp [value, asksLimit], asks.showChart_iff]
  | sentence =>
      change group.topic = .sentence at topic
      rw [valueless (by simp [topic, Topic.TakesValue])]
      cases earlier : about .sentence before with
      | nil =>
          have none : options.sentenceFile = none := by
            simp [asks.sentenceFile_eq, earlier]
          rw [none]
          refine .inl ⟨_, ?_, ?_, rfl⟩
          · apply accepted.concat <;> simp [topic, earlier]
          · constructor
            all_goals simp only [about_concat, topic, reduceCtorEq, ↓reduceIte]
            exacts [by simp [earlier], asks.grammarFile_eq, asks.treeLimit_eq,
              asks.asksLimit, asks.showChart_iff]
      | cons first others =>
          have some : options.sentenceFile = some first.argument := by
            simp [asks.sentenceFile_eq, earlier]
          rw [some]
          exact .inr ⟨_, .sentence topic (by simp [earlier]), rfl⟩

theorem acceptable_nil : Acceptable [] := by
  constructor <;> simp [about]

theorem asks_nil : Asks [] Options.initial := by
  constructor <;> simp [about, Options.initial, defaultTreeLimit]

/-- Groups are taken into the options one after the other, up to the first that is
refused. -/
theorem read_groups (reads : Reads groups arguments)
    (accepted : Acceptable before) (asks : Asks before options) :
    (∃ final, Acceptable (before ++ groups) ∧ Asks (before ++ groups) final ∧
      options.read arguments = .parse final) ∨
    ∃ middle group after request, groups = middle ++ group :: after ∧
      Acceptable (before ++ middle) ∧ Refused (before ++ middle) group request ∧
      options.read arguments = request := by
  induction groups generalizing before options arguments with
  | nil =>
      have := reads.arguments_eq
      subst this
      rw [List.append_nil]
      exact .inl ⟨options, accepted, asks, rfl⟩
  | cons group groups ih =>
      have split : arguments =
          group.arguments ++ groups.flatMap Group.arguments := by
        rw [← reads.arguments_eq, List.flatMap_cons]
      have given : group.topic.TakesValue →
          group.value.isSome ∨ groups.flatMap Group.arguments = [] := by
        intro takes
        apply (reads.head_cases takes).imp_right
        rintro rfl
        rfl
      rw [split]
      rcases read_group accepted asks (reads.takesValue group (by simp)) given
        with ⟨next, nextAccepted, nextAsks, step⟩ | ⟨request, refused, step⟩
      · rw [step]
        rcases ih reads.tail nextAccepted nextAsks with
          ⟨final, finalAccepted, finalAsks, run⟩ |
          ⟨middle, other, after, request, rfl, accepted, refused, run⟩
        · simp only [List.append_assoc, List.singleton_append] at *
          exact .inl ⟨final, finalAccepted, finalAsks, run⟩
        · rw [List.append_assoc, List.singleton_append] at accepted refused
          exact .inr ⟨group :: middle, other, after, request, rfl, accepted,
            refused, run⟩
      · refine .inr ⟨[], group, groups, request, rfl, ?_, ?_, step⟩
        · rwa [List.append_nil]
        · rwa [List.append_nil]

end Steps

section Verdict

theorem Refused.not_acceptable {request : Request}
    (refused : Refused before group request) (after : List Group) :
    ¬ Acceptable (before ++ group :: after) := by
  intro accepted
  have listed : group ∈ about group.topic (before ++ group :: after) := by
    simp [about]
  cases refused with
  | help topic =>
      rw [topic, accepted.help] at listed
      simp at listed
  | grammar topic missing =>
      rw [topic] at listed
      simpa [missing] using accepted.grammar group listed
  | treeLimit topic bad =>
      rw [topic] at listed
      obtain ⟨text, given, limit, asksLimit⟩ :=
        accepted.treeLimit group listed
      exact bad text given limit asksLimit
  | sentence topic earlier =>
      have count : (about .sentence (before ++ group :: after)).length =
          (about .sentence before).length + 1 +
            (about .sentence after).length := by
        simp [about, topic]
        omega
      have := accepted.sentence
      have := List.length_pos_iff.mpr earlier
      omega

namespace Rearranges

variable {rearranged : List Group} (rearranges : Rearranges rearranged groups)

include rearranges

theorem mem_iff : group ∈ rearranged ↔ group ∈ groups := by
  rw [← mem_about_topic, rearranges, mem_about_topic]

theorem acceptable (accepted : Acceptable groups) : Acceptable rearranged := by
  constructor
  all_goals rw [rearranges]
  exacts [accepted.help, accepted.grammar, accepted.treeLimit,
    accepted.sentence]

theorem asks (asked : Asks groups options) : Asks rearranged options := by
  constructor
  all_goals rw [rearranges]
  exacts [asked.sentenceFile_eq, asked.grammarFile_eq, asked.treeLimit_eq,
    asked.asksLimit, asked.showChart_iff]

end Rearranges

theorem Acceptable.isSome_value (accepted : Acceptable groups)
    (member : group ∈ groups) (takes : group.topic.TakesValue) :
    group.value.isSome := by
  have listed := mem_about_topic.mpr member
  rcases takes with topic | topic
  · rw [topic] at listed
    exact accepted.grammar group listed
  · rw [topic] at listed
    obtain ⟨text, given, _⟩ := accepted.treeLimit group listed
    exact Option.isSome_of_mem given

theorem AsksLimit.unique {text : String} {limit limit' : Nat}
    (asks : AsksLimit text limit) (asks' : AsksLimit text limit') :
    limit = limit' := by
  rw [← readDecimal?_eq_some_iff_asksLimit] at asks asks'
  exact Option.some.inj (asks.symm.trans asks')

theorem Asks.unique {options' : Options} (asks : Asks groups options)
    (asks' : Asks groups options') : options = options' := by
  have limits : options.treeLimit = options'.treeLimit := by
    cases last : (about .treeLimit groups).getLast? with
    | none =>
        have none := List.getLast?_eq_none_iff.mp last
        rw [asks.treeLimit_eq none, asks'.treeLimit_eq none]
    | some group =>
        obtain ⟨text, given, asksLimit⟩ := asks.asksLimit group last
        obtain ⟨text', given', asksLimit'⟩ := asks'.asksLimit group last
        obtain rfl : text = text' := Option.mem_unique given given'
        exact asksLimit.unique asksLimit'
  have charts : options.showChart = options'.showChart := by
    rw [Bool.eq_iff_iff, asks.showChart_iff, asks'.showChart_iff]
  have sentences := asks.sentenceFile_eq.trans asks'.sentenceFile_eq.symm
  have grammars := asks.grammarFile_eq.trans asks'.grammarFile_eq.symm
  cases options
  cases options'
  simp_all

theorem read_of_acceptable (reads : Reads groups arguments)
    (accepted : Acceptable groups) :
    ∃ options, Options.ofArguments arguments = .parse options ∧
      Asks groups options := by
  rcases read_groups reads acceptable_nil asks_nil with
    ⟨options, _, asks, run⟩ | ⟨before, group, after, request, rfl, _, refused, _⟩
  · exact ⟨options, run, asks⟩
  · exact absurd accepted (refused.not_acceptable after)

/-- The arguments fall into groups in one way.  If none of these is refused, the
options are those that the groups ask for, whatever the order of different topics;
otherwise the first that is refused decides, and nothing is parsed. -/
theorem ofArguments_decides (arguments : List String) :
    ∃ groups, Reads groups arguments ∧
      (∀ others, Reads others arguments → others = groups) ∧
      (Acceptable groups →
        (∃ options, Options.ofArguments arguments = .parse options ∧
          Asks groups options) ∧
        ∀ rearranged, Rearranges rearranged groups →
          Reads rearranged (rearranged.flatMap Group.arguments) ∧
          Options.ofArguments (rearranged.flatMap Group.arguments) =
            Options.ofArguments arguments) ∧
      (¬ Acceptable groups →
        ∃ before group after request, groups = before ++ group :: after ∧
          Acceptable before ∧ Refused before group request ∧
          Options.ofArguments arguments = request ∧
          ∀ program files input,
            (request = .help → run program arguments files input =
              ⟨0, usage program ++ "\n", ""⟩) ∧
            ∀ error, request = .invalid error →
              run program arguments files input =
                ⟨255, "", "argument error: " ++ error.message ++ ".\n\n" ++
                  usage program ++ "\n"⟩) := by
  obtain ⟨groups, reads⟩ := exists_reads arguments
  refine ⟨groups, reads, fun others => reads.unique, fun accepted => ?_,
    fun notAccepted => ?_⟩
  · obtain ⟨options, asked, asks⟩ := read_of_acceptable reads accepted
    refine ⟨⟨options, asked, asks⟩, fun rearranged rearranges => ?_⟩
    have rearrangedAccepted := rearranges.acceptable accepted
    have rearrangedReads :
        Reads rearranged (rearranged.flatMap Group.arguments) :=
      ⟨rfl, fun group member =>
        reads.takesValue group (rearranges.mem_iff.mp member),
        fun group member => rearrangedAccepted.isSome_value
          ((List.dropLast_sublist _).subset member)⟩
    obtain ⟨options', asked', asks'⟩ :=
      read_of_acceptable rearrangedReads rearrangedAccepted
    refine ⟨rearrangedReads, ?_⟩
    rw [asked, asked', asks'.unique (rearranges.asks asks)]
  · rcases read_groups reads acceptable_nil asks_nil with
      ⟨_, accepted, _⟩ |
      ⟨before, group, after, request, groupsEq, accepted, refused, asked⟩
    · exact absurd accepted notAccepted
    · change Options.ofArguments arguments = request at asked
      refine ⟨before, group, after, request, groupsEq, accepted, refused, asked,
        fun program files input => ⟨?_, ?_⟩⟩
      · rintro rfl
        rw [run, asked]
        rfl
      · rintro error rfl
        rw [run, asked]
        rfl

/-- Options are values where a value is due, and the last of them counts. -/
example : Options.ofArguments ["-g", "-h", "text", "-m", "5", "-m", "+07", "-c"] =
    .parse ⟨some "text", some "-h", 7, true⟩ := by
  decide +kernel

end Verdict

end CommandLine

end Constituency
