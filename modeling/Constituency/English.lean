import Constituency.Grammar.Source

/-!
# A small grammar of English

The grammar that is used when no other is given: the structure of simple English
sentences, and a fixed vocabulary of adjectives, adverbs, conjunctions,
determiners, nouns, prepositions and verbs.
-/

namespace Constituency

namespace English

def sentences : String :=
  "// Sentence structure. The first rule names the start symbol.\n" ++
  "S -> NP VP | S Conj S\n" ++
  "NP -> N | Det N | Det AP N | P NP | NP P NP | AP N | Det NP\n" ++
  "AP -> Adj | Adj AP\n" ++
  "VP -> V | V NP | V NP PP | V PP | Adv VP | VP Adv\n" ++
  "PP -> P NP\n"

def vocabulary : String :=
  "// Vocabulary: one quoted word per alternative\n" ++
  "Adj -> \"country\" | \"dreadful\" | \"enigmatical\" | \"little\" | \"moist\" | \"red\"\n" ++
  "Adv -> \"down\" | \"here\" | \"never\"\n" ++
  "Conj -> \"and\" | \"until\"\n" ++
  "Det -> \"a\" | \"an\" | \"his\" | \"my\" | \"the\"\n" ++
  "N -> \"armchair\" | \"companion\" | \"day\" | \"door\" | \"hand\" | \"he\" | \"himself\"\n" ++
  "N -> \"holmes\" | \"home\" | \"i\" | \"mess\" | \"paint\" | \"palm\" | \"pipe\" | \"she\"\n" ++
  "N -> \"smile\" | \"thursday\" | \"walk\" | \"we\" | \"word\"\n" ++
  "P -> \"at\" | \"before\" | \"in\" | \"of\" | \"on\" | \"to\"\n" ++
  "V -> \"arrived\" | \"came\" | \"chuckled\" | \"had\" | \"lit\" | \"said\" | \"sat\"\n" ++
  "V -> \"smiled\" | \"tell\" | \"were\"\n"

def build : Build :=
  Grammar.buildFromBlocks [sentences, vocabulary]

end English

end Constituency
