import TokiPona.Entries
import TokiPona.Text.Loose
import TokiPona.Word

namespace TokiPona

/-- The word that has exactly this spelling. -/
def Word.ofText? (text : LooseText) : Option Word :=
  text.toString?.bind ofSpelling?

/-- A table of aliases: lower-case spellings, each with the word it stands for. An alias may have
    surrogates in it, which no line can spell. -/
structure Aliases where
  entries : List (LooseText × Word)
  deriving DecidableEq, Repr

namespace Aliases

def empty : Aliases := ⟨[]⟩

/-- The word of an alias that is spelled exactly as in the table. -/
def lookup (aliases : Aliases) (name : LooseText) : Option Word :=
  aliases.entries.lookup name

/-- The word that a spelling of any letter case stands for. -/
def resolve (aliases : Aliases) (text : LooseText) : Option Word :=
  aliases.lookup text.lower

/-- Adds entries, the later ones over the earlier ones. -/
def extend (aliases : Aliases) (added : List (LooseText × Word)) : Aliases :=
  ⟨Entries.putAll (· == ·) aliases.entries added⟩

/-- The entries in the order of their aliases. -/
def sorted (aliases : Aliases) : List (LooseText × Word) :=
  aliases.entries.mergeSort (fun a b => a.1.le b.1)

/-- One line for each alias, in order, with the arrows below each other. -/
def report (aliases : Aliases) : LooseText :=
  .stacked (aliases.sorted.map (fun (name, w) => name.padLeft 12 ++ " → " ++ w.spelling))

end Aliases

end TokiPona
