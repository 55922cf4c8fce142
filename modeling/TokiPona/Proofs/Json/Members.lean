import TokiPona.Json.Reader

namespace TokiPona.Json

/-- Reads the members of an object, with what stands behind its closing brace. -/
def readBraces (bound : Nat) : List Char → Option (List (LooseText × Json) × List Char)
  | '\x7b' :: rest =>
    match skipSpace rest with
    | '\x7d' :: rest => some ([], rest)
    | rest => readMembers bound rest
  | _ => none

/-- The members of the object that a text writes, from left to right. A name that is written twice
    is the name of two members. -/
def writtenMembers? (text : String) : Option (List (LooseText × Json)) :=
  match readBraces (2 * text.toList.length + 1) (skipSpace text.toList) with
  | some (members, rest) => if (skipSpace rest).isEmpty then some members else none
  | none => none

theorem readUnsigned_ne_obj (negative : Bool) (text : List Char) (members : List (LooseText × Json))
    (rest : List Char) : readUnsigned negative text ≠ some (.obj members, rest) := by
  intro hread
  simp only [readUnsigned, Option.bind_eq_bind, Option.bind_eq_some_iff] at hread
  obtain ⟨whole, -, hread⟩ := hread
  split at hread
  · split at hread <;> cases hread
  · cases hread

theorem readScalar_ne_obj (text : List Char) (members : List (LooseText × Json))
    (rest : List Char) : readScalar text ≠ some (.obj members, rest) := by
  intro hread
  unfold readScalar at hread
  split at hread
  case h_1 =>
    obtain ⟨_, _, heq⟩ := Option.map_eq_some_iff.mp hread
    cases heq
  case h_8 =>
    unfold readNumber at hread
    split at hread <;> exact readUnsigned_ne_obj _ _ _ _ hread
  all_goals cases hread

theorem readBraces_eq_none {bound : Nat} {text : List Char} (htext : text.head? ≠ some '\x7b') :
    readBraces bound text = none := by
  unfold readBraces
  split
  · exact absurd rfl htext
  · rfl

theorem readBraces_of_closed {bound : Nat} {rest behind : List Char}
    (hclosed : skipSpace rest = '\x7d' :: behind) :
    readBraces bound ('\x7b' :: rest) = some ([], behind) := by
  rw [readBraces, hclosed]
  rfl

theorem readBraces_of_open {bound : Nat} {rest : List Char}
    (hopen : ∀ behind, skipSpace rest ≠ '\x7d' :: behind) :
    readBraces bound ('\x7b' :: rest) = readMembers bound (skipSpace rest) := by
  rw [readBraces]
  split
  · next behind hclosed => exact absurd hclosed (hopen behind)
  · rfl

/-- An object is read as its members, of which it keeps the last ones. -/
theorem readValue_brace (bound : Nat) (rest : List Char) :
    readValue (bound + 1) ('\x7b' :: rest) =
      (readBraces bound ('\x7b' :: rest)).map fun r => (ofMembers r.1, r.2) := by
  rw [readValue]
  split
  · next behind hclosed =>
    rw [readBraces_of_closed hclosed]
    rfl
  · next hopen =>
    rw [readBraces_of_open hopen]
    cases readMembers bound (skipSpace rest) <;> rfl

/-- Nothing else is read as an object. -/
theorem head?_of_readValue_obj {bound : Nat} {text rest : List Char}
    {kept : List (LooseText × Json)} (hread : readValue (bound + 1) text = some (.obj kept, rest)) :
    text.head? = some '\x7b' := by
  unfold readValue at hread
  split at hread
  · cases hread
  · split at hread
    · cases hread
    · simp only [Option.bind_eq_bind, Option.bind_eq_some_iff] at hread
      obtain ⟨items, -, hread⟩ := hread
      cases hread
  · rfl
  · exact (readScalar_ne_obj _ _ _ hread).elim

/-- A text writes an object if its members can be read, and of these the object keeps the last one
    of each name. -/
theorem parse?_eq_obj_iff {text : String} {kept : List (LooseText × Json)} :
    parse? text = some (.obj kept) ↔
      ∃ members, writtenMembers? text = some members ∧ ofMembers members = .obj kept := by
  generalize hstart : skipSpace text.toList = start
  by_cases hbrace : start.head? = some '\x7b'
  · obtain ⟨rest, rfl⟩ := List.head?_eq_some_iff.mp hbrace
    simp only [parse?, writtenMembers?, hstart, readValue_brace]
    cases readBraces (2 * text.toList.length + 1) ('\x7b' :: rest) with
    | none => simp
    | some r => by_cases hend : skipSpace r.2 = [] <;> simp [hend]
  · refine iff_of_false (fun hparse => ?_) (fun hwritten => ?_)
    · simp only [parse?, hstart, Option.bind_eq_bind, Option.bind_eq_some_iff] at hparse
      obtain ⟨⟨value, rest⟩, hread, hend⟩ := hparse
      split at hend
      · cases hend
        exact hbrace (head?_of_readValue_obj hread)
      · cases hend
    · obtain ⟨members, hmembers, -⟩ := hwritten
      rw [writtenMembers?, hstart, readBraces_eq_none hbrace] at hmembers
      cases hmembers

end TokiPona.Json
