namespace TokiPona.Entries

variable {α β : Type}

/-- Puts an entry. A key that is there already, in the sense of `same`, keeps its place and takes
    the new value. -/
def put (same : α → α → Bool) (entries : List (α × β)) (key : α) (value : β) : List (α × β) :=
  match entries with
  | [] => [(key, value)]
  | (held, old) :: rest =>
    if same held key then (held, value) :: rest else (held, old) :: put same rest key value

/-- Puts entries one after the other. -/
def putAll (same : α → α → Bool) (entries added : List (α × β)) : List (α × β) :=
  added.foldl (fun held (key, value) => put same held key value) entries

end TokiPona.Entries
