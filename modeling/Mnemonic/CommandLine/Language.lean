/-
The languages that have a word list of their own.
-/
import Mnemonic.WordList.English

namespace Mnemonic.CommandLine

/-- A language with a word list. -/
inductive Language where
  | english | simplifiedChinese | traditionalChinese | czech | french | italian | japanese
  | korean | spanish
deriving DecidableEq, Repr

namespace Language

def all : List Language :=
  [english, simplifiedChinese, traditionalChinese, czech, french, italian, japanese, korean,
   spanish]

/-- The name by which a language is chosen. -/
def name : Language → String
  | english => "english"
  | simplifiedChinese => "simplified-chinese"
  | traditionalChinese => "traditional-chinese"
  | czech => "czech"
  | french => "french"
  | italian => "italian"
  | japanese => "japanese"
  | korean => "korean"
  | spanish => "spanish"

/-- The language of a name, spelt exactly. -/
def ofName? (s : String) : Option Language := all.find? fun l => l.name == s

/-- Every language is found by its name. -/
theorem ofName?_name (l : Language) : ofName? l.name = some l := by
  cases l <;> decide

end Language

abbrev Vocabulary := Language → WordList

/-- A list of empty words. No token is empty, so none is a word of it or
begins one. -/
def emptyWords : WordList :=
  .ofTable (List.replicate 2048 "") List.length_replicate

/-- The word lists that this library brings along. There is one for
English; the tables of the other languages are not part of it, so that
they have no words here until another vocabulary supplies them. Nothing
else is said of this vocabulary: what runs in an environment takes the
one it is given. -/
def bundled : Vocabulary
  | .english => .english
  | _ => emptyWords

end Mnemonic.CommandLine
