import TokiPona.Files
import TokiPona.Proofs.Entries
import TokiPona.Proofs.Split

namespace TokiPona.Directory

/-- A path that a file can be written to: its folders are there, and it is no folder itself. -/
def Writable (d : Directory) (path : String) : Prop :=
  ∃ place entry, d.findForWriting path = .ok (place, entry) ∧ entry ≠ some .folder

variable {d : Directory} {place : Place}

theorem isAbove_of_not_folder (hplace : d.entry? place ≠ some .folder) :
    place.isAbove = false := by
  rw [Bool.eq_false_iff]
  intro habove
  unfold entry? at hplace
  rw [if_pos habove] at hplace
  exact hplace rfl

theorem entry?_putText (hplace : d.entry? place ≠ some .folder) (text : String) :
    entry? (d.putText place text) place = some (.file text.toUTF8) := by
  have hlookup : (d.putText place text).entries.lookup place = some (.file text.toUTF8) := by
    rw [putText, Entries.lookup_put, if_pos (beq_self_eq_true place)]
  unfold entry?
  simp only [isAbove_of_not_folder hplace, hlookup, Bool.false_eq_true, if_false]

theorem entry?_putText_of_folder (hplace : d.entry? place ≠ some .folder) (text : String)
    {other : Place} (hother : d.entry? other = some .folder) :
    entry? (d.putText place text) other = some .folder := by
  have hne : other ≠ place := by
    rintro rfl
    exact hplace hother
  have hlookup : (d.putText place text).entries.lookup other = d.entries.lookup other := by
    rw [putText, Entries.lookup_put, if_neg (by simpa using hne)]
  unfold entry? at hother ⊢
  by_cases habove : other.isAbove
  · rw [if_pos habove]
  · rw [if_neg habove] at hother ⊢
    rw [hlookup]
    cases hentry : d.entries.lookup other with
    | some entry => simpa only [hentry] using hother
    | none =>
      -- A folder that is not listed lies above an entry, whose place stays listed.
      simp only [hentry] at hother ⊢
      have hany : d.entries.any (fun e => other.isPrefixOf e.1) := by
        by_contra hnone
        simp [hnone] at hother
      obtain ⟨e, he, hbelow⟩ := List.any_eq_true.mp hany
      obtain ⟨e', he', hkey⟩ := Entries.exists_key_of_mem_put he place (.file text.toUTF8)
      have hany' : (d.putText place text).entries.any (fun e => other.isPrefixOf e.1) :=
        List.any_eq_true.mpr ⟨e', he', by rw [hkey, hbelow]⟩
      rw [if_pos hany']

/-- Names that lead to a place lead there also when a file has been put where no folder was. -/
theorem walk_putText (hplace : d.entry? place ≠ some .folder) (text : String) {path : String}
    {start finish : Place} {names : List String}
    (hwalk : d.walk path start names = .ok finish) :
    (d.putText place text).walk path start names = .ok finish := by
  induction names generalizing start with
  | nil => exact hwalk
  | cons name rest ih =>
    unfold walk at hwalk ⊢
    split at hwalk
    · cases hwalk
    · cases hwalk
    · next hfolder =>
      simp only [entry?_putText_of_folder hplace text hfolder]
      split at hwalk
      · cases hwalk
      · next hshort =>
        rw [if_neg hshort]
        exact ih hwalk

/-- A path with a slash at its end leads to a folder. -/
theorem entry?_of_walk_dot {path : String} {start finish : Place} {names : List String}
    (hwalk : d.walk path start (names ++ ["."]) = .ok finish) :
    d.entry? finish = some .folder := by
  induction names generalizing start with
  | nil =>
    rw [List.nil_append] at hwalk
    unfold walk at hwalk
    split at hwalk
    · cases hwalk
    · cases hwalk
    · next hfolder =>
      split at hwalk
      · cases hwalk
      · cases hwalk
        exact hfolder
  | cons name rest ih =>
    rw [List.cons_append] at hwalk
    unfold walk at hwalk
    split at hwalk
    · cases hwalk
    · cases hwalk
    · split at hwalk
      · cases hwalk
      · exact ih hwalk

theorem follow_eq_ok_iff {path : String} {names : List String} {entry : Option FileEntry} :
    d.follow path names = .ok (place, entry) ↔
      (path.contains (Char.ofNat 0) = false ∧ path.isEmpty = false ∧
        path.utf8ByteSize ≤ maxPathSize) ∧
      d.walk path (.origin path) names = .ok place ∧ entry = d.entry? place := by
  unfold follow
  split
  · next hnul => simp [hnul]
  · next hnul =>
    split
    · next hempty => simp [hempty]
    · next hempty =>
      split
      · next hlong => simp [Nat.not_le.mpr hlong]
      · next hshort =>
        simp only [bind_eq_ok_iff]
        constructor
        · rintro ⟨place', hwalk, hpure⟩
          cases hpure
          exact ⟨⟨by simpa using hnul, by simpa using hempty, by omega⟩, hwalk, rfl⟩
        · rintro ⟨-, hwalk, rfl⟩
          exact ⟨place, hwalk, rfl⟩

/-- Writing to a path that allows it succeeds, and what is found at the path then is the file that
    was written. -/
theorem Writable.writeText {path : String} (hwritable : d.Writable path) (text : String) :
    ∃ place, d.writeText path text = .ok (d.putText place text) ∧
      (d.putText place text).find path = .ok (place, some (.file text.toUTF8)) := by
  obtain ⟨place, entry, hfind, hentry⟩ := hwritable
  have hwrite : d.writeText path text = .ok (d.putText place text) := by
    rw [Directory.writeText, hfind, ok_bind]
    split
    · next heq =>
      cases heq
      exact absurd rfl hentry
    · next heq =>
      cases heq
      rfl
  refine ⟨place, hwrite, ?_⟩
  obtain ⟨hpath, hwalk, rfl⟩ := follow_eq_ok_iff.mp hfind
  by_cases hslash : endsWithSlash path
  · rw [if_pos hslash] at hwalk
    exact absurd (entry?_of_walk_dot hwalk) hentry
  · rw [if_neg hslash] at hwalk
    rw [find, if_neg hslash, List.append_nil]
    exact follow_eq_ok_iff.mpr
      ⟨hpath, walk_putText hentry text hwalk, (entry?_putText hentry text).symm⟩

/-- A file that holds a text is read as this text with its line ends unified. -/
theorem readText_of_find {path text : String}
    (hfile : d.find path = .ok (place, some (.file text.toUTF8))) :
    d.readText path = .ok (String.ofList (Text.unifyNewlines text.toList)) := by
  have hdecode : String.fromUTF8? text.toUTF8 = some text := dif_pos text.isValidUTF8
  rw [readText, hfile, ok_bind]
  simp only [hdecode]
  rfl

/-- A file is read as it is if there are no carriage returns in it. -/
theorem readText_eq_ok {path text : String}
    (hpath : path.contains (Char.ofNat 0) = false ∧ path.isEmpty = false ∧
      path.utf8ByteSize ≤ maxPathSize)
    (hwalk : d.walk path (.origin path)
      (Place.names path ++ if endsWithSlash path then ["."] else []) = .ok place)
    (hentry : d.entry? place = some (.file text.toUTF8))
    (htext : String.ofList (Text.unifyNewlines text.toList) = text) :
    d.readText path = .ok text := by
  have hfind : d.find path = .ok (place, some (.file text.toUTF8)) :=
    follow_eq_ok_iff.mpr ⟨hpath, hwalk, hentry.symm⟩
  rw [readText_of_find hfind, htext]

end TokiPona.Directory
