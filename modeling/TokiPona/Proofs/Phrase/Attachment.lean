import TokiPona.Proofs.Failure
import TokiPona.Proofs.Phrase.Predicate

/-!
Which words of a predicate are its trailing prepositional phrases.

The reading looks for them from the end, one at a time, and each time asks anew whether the last
preposition word leaves the verb and the last object whole. One rule says at once which phrases it
takes off (`Predicate.attached`): behind the first word of the last object, or of the verb if there
is no object, the words are cut at every preposition word, and of the phrases that come out the
longest run at the end is taken in which each has a noun. `Predicate.parse_attaches` is the
agreement of the two, errors included.
-/

namespace TokiPona.Predicate

/-- The words of a predicate without the marker that it may begin with. -/
def body (w : Word) (rest : List Word) : List Word :=
  if w.isPredicateMarker then rest else w :: rest

/-- The words behind the last `e`, or all words if there is none. -/
def lastPiece (body : List Word) : List Word := body.rtakeWhile (· != .e)

/-- The phrases that come out when the last piece is cut at every preposition word behind its
    first word. -/
def phrases (body : List Word) : List (Word × List Word) :=
  (cutEach Word.isPreposition (lastPiece body).tail).2

/-- The phrases that are taken off: as many from the end as have something behind their
    preposition word. -/
def attached (body : List Word) : List (Word × List Word) :=
  (phrases body).rtakeWhile fun phrase => !phrase.2.isEmpty

/-- The first place, counted from zero, where a phrase that is taken off may begin: the second one
    behind the last `e`, or behind the first word if there is no `e`. -/
def boundary (words : List Word) : Nat :=
  match cutLast? (· == .e) words with
  | some (front, _, _) => front.length + 2
  | none => 1

/-- Whether a phrase can be taken off is a matter of places: its preposition word must not stand
    before the boundary, and not be the last word. -/
theorem isDetachable_iff_boundary_le (before behind : List Word) {w : Word} (hw : w ≠ .e) :
    isDetachable before behind ↔
      boundary (before ++ w :: behind) ≤ before.length ∧
        before.length + 2 ≤ (before ++ w :: behind).length := by
  have hlength : before.length + 2 ≤ (before ++ w :: behind).length ↔ behind ≠ [] := by
    rw [List.length_append, List.length_cons, ← List.length_pos_iff]
    omega
  rw [isDetachable_iff, hlength]
  rcases not_mem_or_exists_last .e behind with hbehind | ⟨front, back, rfl, hback⟩
  · rcases not_mem_or_exists_last .e before with hbefore | ⟨front, back, rfl, hback⟩
    · have hcut : boundary (before ++ w :: behind) = 1 := by
        rw [boundary, cutLast?_beq_of_not_mem (by simp [hbefore, hbehind, hw.symm])]
      have hlast : before.getLast? ≠ some .e := fun he => hbefore (List.mem_of_getLast? he)
      have hplace : 1 ≤ before.length ↔ before ≠ [] := List.length_pos_iff
      rw [hcut, hplace]
      simp [hbehind, hlast, and_comm]
    · have hcut : boundary (front ++ .e :: back ++ w :: behind) = front.length + 2 := by
        rw [boundary, List.append_assoc, List.cons_append,
          cutLast?_beq_append (by simp [hback, hbehind, hw.symm])]
      have hlast : (front ++ .e :: back).getLast? ≠ some .e ↔ back ≠ [] := by
        rw [List.getLast?_append_cons]
        constructor
        · rintro hne rfl
          exact hne rfl
        · intro hne he
          rw [List.getLast?_cons_of_ne_nil hne] at he
          exact hback (List.mem_of_getLast? he)
      have hplace : front.length + 2 ≤ (front ++ .e :: back).length ↔ back ≠ [] := by
        rw [List.length_append, List.length_cons, ← List.length_pos_iff]
        omega
      rw [hcut, hlast, hplace]
      simp [hbehind, and_comm]
  · have hcut : boundary (before ++ w :: (front ++ .e :: back)) =
        (before ++ w :: front).length + 2 := by
      rw [boundary, ← List.cons_append, ← List.append_assoc, cutLast?_beq_append hback]
    have hfar : ¬ (before ++ w :: front).length + 2 ≤ before.length := by
      rw [List.length_append]
      omega
    exact iff_of_false (fun hdetach => hdetach.2.1 (by simp))
      (fun hplaces => hfar (hcut ▸ hplaces.1))

theorem e_not_mem_lastPiece (body : List Word) : .e ∉ lastPiece body := by
  intro he
  simpa using List.mem_rtakeWhile_imp he

/-- Before the last piece stands nothing, or an `e` right before it. -/
theorem exists_append_lastPiece (body : List Word) :
    ∃ lead, lead ++ lastPiece body = body ∧ (lead = [] ∨ lead.getLast? = some .e) := by
  refine ⟨body.rdropWhile (· != .e), List.rdropWhile_append_rtakeWhile, ?_⟩
  by_cases hlead : body.rdropWhile (· != .e) = []
  · exact .inl hlead
  · have hlast := List.rdropWhile_last_not (· != .e) body hlead
    rw [bne_iff_ne, not_not] at hlast
    exact .inr (by rw [List.getLast?_eq_some_getLast hlead, hlast])

theorem mem_phrases {body : List Word} {phrase : Word × List Word}
    (hphrase : phrase ∈ phrases body) :
    phrase.1.isPreposition ∧ (∀ w ∈ phrase.2, w.isPreposition = false) ∧ .e ∉ phrase.2 := by
  obtain ⟨hjoin, -, hpieces⟩ := cutEach_spec Word.isPreposition (lastPiece body).tail
  obtain ⟨hpreposition, hplain⟩ := hpieces phrase hphrase
  refine ⟨hpreposition, hplain, fun he => e_not_mem_lastPiece body (List.mem_of_mem_tail ?_)⟩
  rw [← hjoin]
  exact List.mem_append_right _ (List.mem_flatMap.mpr ⟨phrase, hphrase, List.mem_cons_of_mem _ he⟩)

theorem attached_suffix (body : List Word) : attached body <:+ phrases body :=
  List.rtakeWhile_suffix _ _

theorem removable_of_mem_attached {body : List Word} {phrase : Word × List Word}
    (hphrase : phrase ∈ attached body) : Removable phrase := by
  obtain ⟨hpreposition, hplain, hunbroken⟩ := mem_phrases ((attached_suffix body).mem hphrase)
  exact ⟨hpreposition, hplain, by simpa using List.mem_rtakeWhile_imp hphrase, hunbroken⟩

/-- What is left of the last piece when the attached phrases are taken off keeps its prepositions:
    it has none behind its first word, or it ends in one. -/
theorem keepsPrepositions_of_phrases {first : Word} {opening : List Word}
    {kept : List (Word × List Word)} (hopening : ∀ w ∈ opening, w.isPreposition = false)
    (hmarks : ∀ phrase ∈ kept, phrase.1.isPreposition)
    (hkept : ∀ hne : kept ≠ [], (kept.getLast hne).2 = []) :
    KeepsPrepositions (first :: (opening ++ joinEach kept)) := by
  cases kept using List.reverseRecOn with
  | nil => exact .inl (by simpa [joinEach] using hopening)
  | append_singleton kept last =>
    have hlast : last.2 = [] := by simpa using hkept (by simp)
    refine .inr ?_
    rw [List.tail_cons, joinEach, List.flatMap_append, List.flatMap_singleton, hlast,
      ← List.append_assoc, List.getLast?_append_cons, List.getLast?_singleton, Option.any_some]
    exact hmarks last (by simp)

/-- Nothing can be taken off the words up to an `e`. -/
theorem closed_of_lead {lead : List Word} (hlead : lead = [] ∨ lead.getLast? = some .e) :
    Closed lead := by
  intro before w behind hcut
  obtain ⟨rfl, hw, -⟩ := cutLast?_eq_some_iff.mp hcut
  rw [Bool.eq_false_iff]
  intro hdetachable
  obtain ⟨-, hbehind, -⟩ := (isDetachable_iff before behind).mp hdetachable
  have he : (before ++ w :: behind).getLast? = some .e := hlead.resolve_left (by simp)
  rw [List.getLast?_append_cons] at he
  rcases List.mem_cons.mp (List.mem_of_getLast? he) with rfl | he
  · cases hw
  · exact hbehind he

/-- The words before the attached phrases are closed, and leave room for the first of them. -/
theorem exists_core (body : List Word) :
    ∃ core, core ++ joinEach (attached body) = body ∧ Closed core ∧
      (attached body ≠ [] → core ≠ [] ∧ core.getLast? ≠ some .e) := by
  obtain ⟨lead, hbody, hlead⟩ := exists_append_lastPiece body
  have hfree := e_not_mem_lastPiece body
  obtain ⟨hcut, hopening, hpieces⟩ := cutEach_spec Word.isPreposition (lastPiece body).tail
  cases hpiece : lastPiece body with
  | nil =>
    have hnone : attached body = [] := by simp [attached, phrases, hpiece, cutEach]
    rw [hpiece, List.append_nil] at hbody
    subst hbody
    refine ⟨lead, by simp [hnone, joinEach], closed_of_lead hlead, fun hne => absurd hnone hne⟩
  | cons first tail =>
    set opening := (cutEach Word.isPreposition (lastPiece body).tail).1
    set kept := (phrases body).rdropWhile fun phrase => !phrase.2.isEmpty
    have hsplit : kept ++ attached body = phrases body := List.rdropWhile_append_rtakeWhile
    have htail : opening ++ joinEach kept ++ joinEach (attached body) = tail := by
      rw [List.append_assoc, joinEach, joinEach, ← List.flatMap_append, hsplit]
      exact hcut.trans (by rw [hpiece, List.tail_cons])
    rw [hpiece, ← htail, ← List.cons_append] at hbody hfree
    have hunit : .e ∉ first :: (opening ++ joinEach kept) := fun he =>
      hfree (List.mem_append_left _ he)
    have hsettled : KeepsPrepositions (first :: (opening ++ joinEach kept)) := by
      refine keepsPrepositions_of_phrases hopening (fun phrase hphrase => ?_) (fun hne => ?_)
      · exact (hpieces phrase ((List.rdropWhile_prefix _ _).mem hphrase)).1
      · simpa using List.rdropWhile_last_not _ _ hne
    refine ⟨lead ++ first :: (opening ++ joinEach kept), by rw [List.append_assoc, hbody],
      (closed_append_iff hlead hunit).mpr hsettled, fun _ => ⟨by simp, fun he => hunit ?_⟩⟩
    rw [List.getLast?_append_cons] at he
    exact List.mem_of_getLast? he

/-- A phrase that is taken off begins with a preposition word, so only its noun can be at fault. -/
theorem parse_of_mem_attached {body : List Word} {phrase : Word × List Word}
    (hphrase : phrase ∈ attached body) :
    Preposition.parse (phrase.1 :: phrase.2) = (Group.parse phrase.2).map (.mk phrase.1) := by
  rw [Preposition.parse, if_pos (removable_of_mem_attached hphrase).preposition]

/-- Reads phrases from the right to the left, and gives them in the order of the words. -/
def readPhrases (phrases : List (Word × List Word)) : Except ParseError (List Preposition) :=
  (phrases.reverse.mapM fun phrase => (Group.parse phrase.2).map (.mk phrase.1)).map List.reverse

/-- Taking phrases off one by one reads the attached ones from the right and leaves the rest. -/
theorem exists_detach_eq (body : List Word) :
    ∃ core, core ++ joinEach (attached body) = body ∧
      (detach body).result = (readPhrases (attached body)).map fun taken => (core, taken) := by
  obtain ⟨core, hbody, hclosed, hroom⟩ := exists_core body
  have hdetach := result_detach_append hclosed hroom fun phrase => removable_of_mem_attached
  rw [hbody, mapM_congr fun phrase hphrase =>
    parse_of_mem_attached (List.mem_reverse.mp hphrase)] at hdetach
  refine ⟨core, hbody, ?_⟩
  rw [hdetach, readPhrases]
  cases (attached body).reverse.mapM fun phrase =>
    (Group.parse phrase.2).map (Preposition.mk phrase.1) <;> rfl

theorem readPhrases_eq_ok_iff {phrases : List (Word × List Word)}
    {prepositions : List Preposition} :
    readPhrases phrases = .ok prepositions ↔
      List.Forall₂ (fun phrase q => phrase.1 = q.preposition ∧ Group.parse phrase.2 = .ok q.noun)
        phrases prepositions := by
  have hphrase (phrase : Word × List Word) (q : Preposition) :
      (Group.parse phrase.2).map (Preposition.mk phrase.1) = .ok q ↔
        phrase.1 = q.preposition ∧ Group.parse phrase.2 = .ok q.noun := by
    rw [map_eq_ok_iff]
    constructor
    · rintro ⟨noun, hnoun, rfl⟩
      exact ⟨rfl, hnoun⟩
    · rintro ⟨hpreposition, hnoun⟩
      exact ⟨q.noun, hnoun, by rw [hpreposition]⟩
  simp only [readPhrases, map_eq_ok_iff, mapM_eq_ok_iff_forall₂, hphrase]
  constructor
  · rintro ⟨read, hread, rfl⟩
    rwa [← List.forall₂_reverse_iff, List.reverse_reverse]
  · intro hread
    exact ⟨prepositions.reverse, List.forall₂_reverse_iff.mpr hread, List.reverse_reverse _⟩

/-- Reads a predicate piece by piece: the phrases, then the verb and the objects. -/
def readPieces (imperative : Bool) (taken : List (Word × List Word)) (verb : List Word)
    (objects : List (List Word)) : Except ParseError Predicate := do
  let prepositions ← readPhrases taken
  let verb ← VerbPhrase.parse verb
  let objects ← objects.mapM Group.parse
  pure ⟨imperative, verb, objects, prepositions⟩

/-- The errors of the pieces, each read by itself, in the order in which they are met. -/
def pieceErrors (taken : List (Word × List Word)) (verb : List Word)
    (objects : List (List Word)) : List ParseError :=
  taken.reverse.filterMap (fun phrase => failure? (Group.parse phrase.2)) ++
    ((failure? (VerbPhrase.parse verb)).toList ++
      objects.filterMap fun piece => failure? (Group.parse piece))

/-- A predicate is read from pieces that can all be read, and keeps their order. -/
theorem readPieces_eq_ok_iff {imperative : Bool} {taken : List (Word × List Word)}
    {verb : List Word} {objects : List (List Word)} (p : Predicate) :
    readPieces imperative taken verb objects = .ok p ↔
      p.imperative = imperative ∧ VerbPhrase.parse verb = .ok p.verb ∧
        List.Forall₂ (fun piece g => Group.parse piece = .ok g) objects p.objects ∧
        List.Forall₂ (fun phrase q => phrase.1 = q.preposition ∧ Group.parse phrase.2 = .ok q.noun)
          taken p.prepositions := by
  simp only [readPieces, bind_eq_ok_iff, mapM_eq_ok_iff_forall₂, readPhrases_eq_ok_iff]
  constructor
  · rintro ⟨prepositions, hprepositions, v, hverb, groups, hgroups, hp⟩
    cases hp
    exact ⟨rfl, hverb, hgroups, hprepositions⟩
  · rintro ⟨rfl, hverb, hobjects, hprepositions⟩
    exact ⟨p.prepositions, hprepositions, p.verb, hverb, p.objects, hobjects, rfl⟩

/-- The first piece that cannot be read decides why a predicate is refused. -/
theorem failure?_readPieces (imperative : Bool) (taken : List (Word × List Word))
    (verb : List Word) (objects : List (List Word)) :
    failure? (readPieces imperative taken verb objects) =
      (pieceErrors taken verb objects).head? := by
  have hobjects (v : VerbPhrase) (prepositions : List Preposition) :
      failure? (do
        let objects ← objects.mapM Group.parse
        pure (Predicate.mk imperative v objects prepositions)) =
      (objects.filterMap fun piece => failure? (Group.parse piece)).head? := by
    rw [failure?_bind_pure, failure?_mapM]
  have hverb (prepositions : List Preposition) :
      failure? (do
        let v ← VerbPhrase.parse verb
        let objects ← objects.mapM Group.parse
        pure (Predicate.mk imperative v objects prepositions)) =
      ((failure? (VerbPhrase.parse verb)).toList ++
        objects.filterMap fun piece => failure? (Group.parse piece)).head? := by
    rw [failure?_bind fun v => hobjects v prepositions, List.head?_append]
    cases failure? (VerbPhrase.parse verb) <;> rfl
  rw [readPieces, failure?_bind hverb, readPhrases, failure?_map, failure?_mapM, pieceErrors]
  simp only [failure?_map, List.head?_append]

/-- What is left of the words when the phrases are taken off is parted at every `e`. -/
theorem parse_eq_readPieces {w : Word} {rest core verb : List Word} {objects : List (List Word)}
    (hdetach : (detach (body w rest)).result =
      (readPhrases (attached (body w rest))).map fun taken => (core, taken))
    (hsplit : core.splitOn .e = verb :: objects) :
    parse (w :: rest) = readPieces (w == .o) (attached (body w rest)) verb objects := by
  have hfree : ∀ piece ∈ verb :: objects, .e ∉ piece := by
    rw [← hsplit]
    exact fun piece => not_mem_of_mem_splitOn
  have hcore : parseCore core = (do
      let verb ← VerbPhrase.parse verb
      let objects ← objects.mapM Group.parse
      pure (verb, objects)) := by
    rw [← parseCore_intercalate hfree, ← hsplit, List.intercalate_splitOn]
  rw [parse_eq, ← body, hdetach, readPieces]
  cases readPhrases (attached (body w rest)) with
  | error e => rfl
  | ok taken => simp only [Except.map, ok_bind, hcore, bind_assoc, pure_bind]

/-- Which prepositional phrases a predicate has is settled by its words alone. They are the longest
    run of phrases at the end of its last piece that each have something behind their preposition
    word, and taking phrases off from the right takes exactly these. Everything before them is
    parted at `e` into the verb phrase and the objects. If all pieces can be read, the predicate is
    made of them in their order. Otherwise it is refused for the last phrase that cannot be read,
    and if there is none, for the verb phrase or the first object that cannot be read. -/
theorem parse_attaches (w : Word) (rest : List Word) :
    let taken := attached (body w rest)
    (taken <:+ phrases (body w rest) ∧ (∀ phrase ∈ taken, phrase.2 ≠ []) ∧
      ∀ run, run <:+ phrases (body w rest) → (∀ phrase ∈ run, phrase.2 ≠ []) → run <:+ taken) ∧
    ∃ core verb objects, core ++ joinEach taken = body w rest ∧
      core.splitOn .e = verb :: objects ∧
      (detach (body w rest)).result =
        (readPhrases taken).map (fun prepositions => (core, prepositions)) ∧
      (∀ p, parse (w :: rest) = .ok p ↔
        p.imperative = (w == .o) ∧ VerbPhrase.parse verb = .ok p.verb ∧
        List.Forall₂ (fun piece g => Group.parse piece = .ok g) objects p.objects ∧
        List.Forall₂ (fun phrase q => phrase.1 = q.preposition ∧ Group.parse phrase.2 = .ok q.noun)
          taken p.prepositions) ∧
      failure? (parse (w :: rest)) = (pieceErrors taken verb objects).head? := by
  intro taken
  obtain ⟨core, hbody, hdetach⟩ := exists_detach_eq (body w rest)
  obtain ⟨verb, objects, hsplit⟩ := List.exists_cons_of_ne_nil (List.splitOn_ne_nil .e core)
  refine ⟨⟨attached_suffix _, fun phrase hphrase => (removable_of_mem_attached hphrase).nonempty,
    fun run hrun hne => suffix_rtakeWhile hrun (by simpa using hne)⟩,
    core, verb, objects, hbody, hsplit, hdetach, ?_, ?_⟩
  · rw [parse_eq_readPieces hdetach hsplit]
    exact readPieces_eq_ok_iff
  · rw [parse_eq_readPieces hdetach hsplit]
    exact failure?_readPieces _ taken verb objects

/-- The `tawa` of `moku e kili tawa lon tomo kepeken ilo` has nothing behind it and stays. -/
example : attached [.moku, .e, .kili, .tawa, .lon, .tomo, .kepeken, .ilo] =
    [(.lon, [.tomo]), (.kepeken, [.ilo])] := by
  decide

end TokiPona.Predicate
