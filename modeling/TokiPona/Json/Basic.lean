import TokiPona.Entries
import TokiPona.Number.Binary64
import TokiPona.Text.CodePoint

namespace TokiPona

/-- A JSON value. Numbers with neither a fraction nor an exponent are integers of any size, and
    the members of an object keep their order. Surrogates may stand alone in strings and names. -/
inductive Json where
  | null
  | bool (value : Bool)
  | int (value : Int)
  | float (value : Binary64)
  | str (value : LooseText)
  | arr (items : List Json)
  | obj (members : List (LooseText × Json))

namespace Json

/-- The object with these members. A name that is given twice keeps its first place and takes its
    last value. -/
def ofMembers (members : List (LooseText × Json)) : Json :=
  .obj (Entries.putAll (· == ·) [] members)

/-- The member of this name. -/
def get? (name : String) : Json → Option Json
  | .obj members => members.lookup (.ofString name)
  | _ => none

end Json

end TokiPona
