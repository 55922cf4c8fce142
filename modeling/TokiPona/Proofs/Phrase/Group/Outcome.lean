import Mathlib.Algebra.Ring.Parity
import TokiPona.Proofs.Failure
import TokiPona.Proofs.Phrase.Group

namespace TokiPona.Group

/-- The number of `pi` at the end of the words. -/
def closingPis (words : List Word) : Nat := (words.rtakeWhile (· == .pi)).length

/-- The words end where a head is looked for. There are none of them, or an odd number of `pi`
    follows some other word, or they are an even number of `pi`, of which the first is a head. -/
def BreaksOff (words : List Word) : Prop :=
  words = [] ∨ (Odd (closingPis words) ∧ closingPis words ≠ words.length) ∨
    ((∀ w ∈ words, w = .pi) ∧ Even words.length)

instance (words : List Word) : Decidable (BreaksOff words) :=
  inferInstanceAs (Decidable (_ ∨ _ ∨ _))

theorem closingPis_eq_length_iff {words : List Word} :
    closingPis words = words.length ↔ ∀ w ∈ words, w = .pi := by
  have hself : closingPis words = words.length ↔ words.rtakeWhile (· == .pi) = words :=
    ⟨(List.rtakeWhile_suffix _ words).eq_of_length, congrArg List.length⟩
  rw [hself, List.rtakeWhile_eq_self_iff]
  simp only [beq_iff_eq]

/-- Unless all words are `pi`, the first one is none of those at the end. -/
theorem closingPis_cons {w : Word} {rest : List Word} (hsome : ¬ ∀ v ∈ w :: rest, v = .pi) :
    closingPis (w :: rest) = closingPis rest := by
  induction rest using List.reverseRecOn with
  | nil =>
    have hw : w ≠ .pi := by simpa using hsome
    simp [closingPis, List.rtakeWhile, hw]
  | append_singleton rest x ih =>
    rw [closingPis, closingPis, ← List.cons_append, List.rtakeWhile_concat, List.rtakeWhile_concat]
    by_cases hx : x = .pi
    · have hfront : ¬ ∀ v ∈ w :: rest, v = .pi := fun hall =>
        hsome (List.forall_mem_append.mpr ⟨hall, List.forall_mem_singleton.mpr hx⟩)
      have hcount := ih hfront
      rw [closingPis, closingPis] at hcount
      simp [hx, hcount]
    · simp [hx]

/-- A `pi` that opens a group and the head behind it leave the number at the end even or odd. -/
theorem odd_closingPis_pi_cons (inner : Word) (rest : List Word) :
    Odd (closingPis (.pi :: inner :: rest)) ↔ Odd (closingPis rest) := by
  by_cases hall : ∀ v ∈ inner :: rest, v = .pi
  · have hrest := (List.forall_mem_cons.mp hall).2
    rw [closingPis_eq_length_iff.mpr (List.forall_mem_cons.mpr ⟨rfl, hall⟩),
      closingPis_eq_length_iff.mpr hrest, List.length_cons, List.length_cons, Nat.odd_add_one,
      Nat.odd_add_one, not_not]
  · have hsome : ¬ ∀ v ∈ .pi :: inner :: rest, v = .pi := fun h =>
      hall (List.forall_mem_cons.mp h).2
    rw [closingPis_cons hsome, closingPis_cons hall]

/-- Behind a head, where a `pi` opens a group, the number of `pi` at the end tells whether the
    last group lacks its head. -/
theorem failure?_parseTail (head : Word) (modifiers rest : List Word) :
    failure? (Group.parseTail head modifiers rest) =
      ((rest.find? Word.isParticle).map ParseError.invalidNoun).or
        (if Odd (closingPis rest) then some .emptyNounPhrase else none) := by
  fun_induction Group.parseTail head modifiers rest with
  | case1 head modifiers => rfl
  | case2 => rfl
  | case3 head modifiers inner rest hinner =>
    have hpi : Word.isParticle .pi = false := rfl
    simp [failure?, hpi, hinner]
  | case4 head modifiers inner rest hinner ih =>
    have hpi : Word.isParticle .pi = false := rfl
    simp only [failure?_map, ih, odd_closingPis_pi_cons, List.find?_cons, hpi, hinner]
  | case5 head modifiers w rest hlast hinner hw => simp [failure?, hw]
  | case6 head modifiers w rest hlast hinner hw ih =>
    have hpi : w ≠ .pi := by
      rintro rfl
      cases rest with
      | nil => exact hlast rfl rfl
      | cons inner rest => exact hinner inner rest rfl rfl
    rw [ih, closingPis_cons (by simp [hpi]), List.find?_cons]
    simp only [hw]

/-- With a head that is a `pi` the count at the end has to leave this one out. -/
theorem odd_closingPis_tail_iff (head : Word) (rest : List Word) :
    Odd (closingPis rest) ↔ BreaksOff (head :: rest) := by
  unfold BreaksOff
  rw [ne_eq, closingPis_eq_length_iff]
  by_cases hall : ∀ v ∈ head :: rest, v = .pi
  · rw [closingPis_eq_length_iff.mpr (List.forall_mem_cons.mp hall).2, iff_true_intro hall]
    simp [Nat.even_add_one]
  · rw [closingPis_cons hall, iff_false_intro hall]
    simp

/-- The first particle is at fault and, if there is none, a head that is missing at the end. -/
theorem failure?_parse (words : List Word) :
    failure? (Group.parse words) =
      ((words.find? Word.isParticle).map ParseError.invalidNoun).or
        (if BreaksOff words then some .emptyNounPhrase else none) := by
  cases words with
  | nil => rfl
  | cons head rest =>
    rw [Group.parse, List.find?_cons]
    by_cases hhead : head.isParticle
    · simp [hhead, failure?]
    · simp only [hhead, if_false, Bool.false_eq_true, failure?_parseTail,
        odd_closingPis_tail_iff head rest]

/-- A noun phrase is refused for the first particle among its words. Without a particle it is
    refused exactly if its words break off, and otherwise they are the words of the phrase that is
    read, in which no `pi` is a modifier at any depth. -/
theorem parse_outcome (words : List Word) :
    (∀ w, Group.parse words = .error (.invalidNoun w) ↔ words.find? Word.isParticle = some w) ∧
      (Group.parse words = .error .emptyNounPhrase ↔
        (∀ w ∈ words, w.isParticle = false) ∧ BreaksOff words) ∧
      ((∃ g, Group.parse words = .ok g) ↔
        (∀ w ∈ words, w.isParticle = false) ∧ ¬ BreaksOff words) ∧
      ∀ g, Group.parse words = .ok g → g.words = words ∧ g.WellFormed := by
  have hfailure := failure?_parse words
  simp only [← failure?_eq_some_iff, ← failure?_eq_none_iff, hfailure]
  have hfree : (∀ w ∈ words, w.isParticle = false) ↔ words.find? Word.isParticle = none := by simp
  rw [hfree]
  refine ⟨?_, ?_, ?_, fun g => (Group.parse_eq_ok_iff words g).mp⟩
  all_goals
    by_cases hbreaks : BreaksOff words <;> cases words.find? Word.isParticle <;> simp [hbreaks]

/-- Of three `pi` the second one opens a group, and the third one is its head. -/
example : Group.parse [.pi, .pi, .pi] = .ok (.pi .pi [] (.flat .pi [])) ∧
    BreaksOff [.jan, .pi, .pi, .pi] := by
  decide

end TokiPona.Group
