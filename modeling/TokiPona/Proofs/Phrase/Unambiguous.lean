import TokiPona.Proofs.Phrase.Canonical

/-!
The canonical form tells trees apart.

If two parts begin the same text, then they are the same part and the same text stands behind
them (`Group.bracketed_append_inj` and the lemmas of that form for the other parts). That needs to
know what may stand behind a part: a bracket closes there, or one of a few words joins the next
part to it (`Text.Continues`). The words that introduce parts of different kinds are different, so
each list of parts ends where another word follows.
-/

namespace TokiPona

variable {α : Type}

theorem replicate_append_inj {a : α} {m n : Nat} {l l' : List α} (hl : l.head? ≠ some a)
    (hl' : l'.head? ≠ some a) (heq : List.replicate m a ++ l = List.replicate n a ++ l') :
    m = n ∧ l = l' := by
  induction m generalizing n with
  | zero =>
    cases n with
    | zero => exact ⟨rfl, heq⟩
    | succ n =>
      subst heq
      exact absurd rfl hl
  | succ m ih =>
    cases n with
    | zero =>
      subst heq
      exact absurd rfl hl'
    | succ n =>
      obtain ⟨hmn, hll⟩ := ih (List.cons.inj heq).2
      exact ⟨congrArg Nat.succ hmn, hll⟩

theorem Text.IsBracket.not_isLower {c : Char} (hc : Text.IsBracket c) : c.isLower = false := by
  obtain rfl | rfl := hc <;> rfl

/-- A word ends where a bracket follows. -/
theorem Word.letters_append_inj {v w : Word} {c d : Char} {rest rest' : List Char}
    (hc : Text.IsBracket c) (hd : Text.IsBracket d)
    (heq : v.letters ++ c :: rest = w.letters ++ d :: rest') : v = w ∧ c = d ∧ rest = rest' := by
  have hread (u : Word) {b : Char} (hb : Text.IsBracket b) (behind : List Char) :
      (u.letters ++ b :: behind).takeWhile Char.isLower = u.letters := by
    have hletters : ∀ a ∈ u.letters, a.isLower := u.isLower_spelling
    rw [List.takeWhile_append_of_pos hletters, List.takeWhile_cons, hb.not_isLower]
    simp
  have hletters : v.letters = w.letters := by
    rw [← hread v hc rest, heq, hread w hd rest']
  rw [hletters] at heq
  obtain ⟨hcd, hrest⟩ := List.cons.inj (List.append_cancel_left heq)
  exact ⟨Word.spelling_injective v w (String.toList_inj.mp hletters), hcd, hrest⟩

theorem Text.Opens.letters_append_inj {v w : Word} {text text' : List Char}
    (hopens : Text.Opens text) (hopens' : Text.Opens text')
    (heq : v.letters ++ text = w.letters ++ text') : v = w ∧ text = text' := by
  obtain ⟨rest, rfl⟩ := hopens
  obtain ⟨rest', rfl⟩ := hopens'
  obtain ⟨hwords, -, hrest⟩ := Word.letters_append_inj (.inl rfl) (.inl rfl) heq
  exact ⟨hwords, congrArg ('(' :: ·) hrest⟩

theorem Word.head?_letters_append (w : Word) (rest : List Char) {c : Char}
    (hc : Text.IsBracket c) : (w.letters ++ rest).head? ≠ some c := by
  obtain ⟨d, letters, hletters⟩ := List.exists_cons_of_ne_nil w.spelling_ne_empty
  have hlower : d.isLower := w.isLower_spelling d (by rw [hletters]; exact List.mem_cons_self)
  have hcons : w.letters = d :: letters := hletters
  rw [hcons, List.cons_append, List.head?_cons]
  rintro ⟨⟩
  rw [hc.not_isLower] at hlower
  cases hlower

/-- What may stand behind a part of a canonical form: nothing, a bracket that closes, or a word
    that `joins` admits and the bracket that opens the next part. -/
inductive Text.Continues (joins : Word → Bool) : List Char → Prop
  | nil : Text.Continues joins []
  | close (rest : List Char) : Text.Continues joins (')' :: rest)
  | join {w : Word} (hw : joins w) (rest : List Char) :
      Text.Continues joins (w.letters ++ '(' :: rest)

theorem Text.Continues.mono {joins joins' : Word → Bool} (hjoins : ∀ w, joins w → joins' w)
    {text : List Char} (htext : Text.Continues joins text) : Text.Continues joins' text := by
  cases htext with
  | nil => exact .nil
  | close rest => exact .close rest
  | join hw rest => exact .join (hjoins _ hw) rest

/-- No modifier follows, as it would have its closing bracket behind it. -/
theorem Text.Continues.ne_modifier {joins : Word → Bool} {text : List Char}
    (htext : Text.Continues joins text) (w : Word) (rest : List Char) :
    text ≠ w.letters ++ ')' :: rest := by
  rintro rfl
  generalize hmodifier : w.letters ++ ')' :: rest = text at htext
  cases htext with
  | nil => simp at hmodifier
  | close rest' =>
    apply w.head?_letters_append (')' :: rest) (.inr rfl)
    rw [hmodifier, List.head?_cons]
  | join hv rest' => cases (Word.letters_append_inj (.inr rfl) (.inl rfl) hmodifier).2.1

theorem Text.Continues.behind {joins : Word → Bool} {w : Word} (hw : joins w) {text : List Char}
    (hopens : Text.Opens text) : Text.Continues joins (w.letters ++ text) := by
  obtain ⟨rest, rfl⟩ := hopens
  exact .join hw rest

theorem Text.Continues.joins_of_behind {joins : Word → Bool} {w : Word} {text : List Char}
    (hopens : Text.Opens text) (htext : Text.Continues joins (w.letters ++ text)) : joins w := by
  generalize hjoin : w.letters ++ text = whole at htext
  cases htext with
  | nil =>
    obtain ⟨rest, rfl⟩ := hopens
    simp at hjoin
  | close rest =>
    exfalso
    apply w.head?_letters_append text (.inr rfl)
    rw [hjoin, List.head?_cons]
  | join hv rest =>
    rw [(hopens.letters_append_inj ⟨rest, rfl⟩ hjoin).1]
    exact hv

namespace Group

/-- The number of brackets that open before that of the head. -/
def levels : Group → Nat
  | .flat _ modifiers => modifiers.length
  | .pi _ modifiers _ => modifiers.length + 1

/-- What stands behind the bracket that closes the head. -/
def layers : Group → List Char
  | .flat _ modifiers => closing modifiers
  | .pi _ modifiers of => closing modifiers ++ (Word.pi.letters ++ (of.bracketed ++ [')']))

theorem bracketed_eq (g : Group) :
    g.bracketed = List.replicate (g.levels + 1) '(' ++ (g.head.letters ++ ')' :: g.layers) := by
  cases g with
  | flat head modifiers =>
    simp [bracketed, opening, levels, layers, Group.head, List.replicate_succ']
  | pi head modifiers of =>
    rw [levels, List.replicate_succ, List.replicate_succ']
    simp [bracketed, opening, layers, Group.head]

/-- Equal texts that begin with brackets and a group agree on the number of brackets, the head and
    what stands behind it. -/
theorem layers_of_bracketed_eq (k k' : Nat) {g g' : Group} {text text' : List Char}
    (heq : List.replicate k '(' ++ (g.bracketed ++ text) =
      List.replicate k' '(' ++ (g'.bracketed ++ text')) :
    k + g.levels = k' + g'.levels ∧ g.head = g'.head ∧ g.layers ++ text = g'.layers ++ text' := by
  have hgather (k : Nat) (g : Group) (text : List Char) :
      List.replicate k '(' ++ (g.bracketed ++ text) =
        List.replicate (k + (g.levels + 1)) '(' ++
          (g.head.letters ++ ')' :: (g.layers ++ text)) := by
    rw [bracketed_eq, List.append_assoc, ← List.append_assoc, List.replicate_append_replicate,
      List.append_assoc, List.cons_append]
  rw [hgather, hgather] at heq
  obtain ⟨hlevels, hrest⟩ := replicate_append_inj
    (Word.head?_letters_append g.head _ (.inl rfl))
    (Word.head?_letters_append g'.head _ (.inl rfl)) heq
  obtain ⟨hhead, -, hlayers⟩ := Word.letters_append_inj (.inr rfl) (.inr rfl) hrest
  exact ⟨by omega, hhead, hlayers⟩

theorem closing_append_inj {joins : Word → Bool} {modifiers modifiers' : List Word}
    {text text' : List Char} (htext : Text.Continues joins text)
    (htext' : Text.Continues joins text')
    (heq : closing modifiers ++ text = closing modifiers' ++ text') :
    modifiers = modifiers' ∧ text = text' := by
  induction modifiers generalizing modifiers' with
  | nil =>
    cases modifiers' with
    | nil => exact ⟨rfl, heq⟩
    | cons w modifiers' =>
      refine absurd ?_ (htext.ne_modifier w (closing modifiers' ++ text'))
      simpa [closing] using heq
  | cons v modifiers ih =>
    cases modifiers' with
    | nil =>
      refine absurd ?_ (htext'.ne_modifier v (closing modifiers ++ text))
      simpa [closing] using heq.symm
    | cons w modifiers' =>
      have hcons : v.letters ++ ')' :: (closing modifiers ++ text) =
          w.letters ++ ')' :: (closing modifiers' ++ text') := by
        simpa [closing] using heq
      obtain ⟨rfl, -, hrest⟩ := Word.letters_append_inj (.inr rfl) (.inr rfl) hcons
      obtain ⟨rfl, htexts⟩ := ih hrest
      exact ⟨rfl, htexts⟩

theorem layers_append_inj {g g' : Group} {text text' : List Char}
    (htext : Text.Continues (· != .pi) text) (htext' : Text.Continues (· != .pi) text')
    (hhead : g.head = g'.head) (heq : g.layers ++ text = g'.layers ++ text') :
    g = g' ∧ text = text' := by
  have hany {text : List Char} (htext : Text.Continues (· != .pi) text) :
      Text.Continues (fun _ => true) text := htext.mono (fun _ _ => rfl)
  have hpi (of : Group) (text : List Char) : Text.Continues (fun _ => true)
      (Word.pi.letters ++ (of.bracketed ++ ')' :: text)) := .behind rfl (of.opens.append _)
  -- A `pi` that opens a group cannot stand where a flat group ends.
  have hflat {text : List Char} (htext : Text.Continues (· != .pi) text) (of : Group)
      (rest : List Char) : text ≠ Word.pi.letters ++ (of.bracketed ++ rest) := by
    rintro rfl
    cases htext.joins_of_behind (of.opens.append rest)
  induction g generalizing g' text text' with
  | flat head modifiers =>
    cases hhead
    cases g' with
    | flat head' modifiers' =>
      obtain ⟨rfl, htexts⟩ := closing_append_inj htext htext' heq
      exact ⟨rfl, htexts⟩
    | pi head' modifiers' of' =>
      simp only [layers, List.append_assoc, List.singleton_append] at heq
      exact absurd (closing_append_inj (hany htext) (hpi of' text') heq).2 (hflat htext of' _)
  | pi head modifiers of ih =>
    cases hhead
    cases g' with
    | flat head' modifiers' =>
      simp only [layers, List.append_assoc, List.singleton_append] at heq
      exact absurd (closing_append_inj (hpi of text) (hany htext') heq).2.symm
        (hflat htext' of _)
    | pi head' modifiers' of' =>
      simp only [layers, List.append_assoc, List.singleton_append] at heq
      obtain ⟨rfl, hof⟩ := closing_append_inj (hpi of text) (hpi of' text') heq
      obtain ⟨-, hhead, hlayers⟩ := layers_of_bracketed_eq 0 0 (List.append_cancel_left hof)
      obtain ⟨rfl, htexts⟩ := ih (.close text) (.close text') hhead hlayers
      exact ⟨rfl, (List.cons.inj htexts).2⟩

/-- A group is told from what stands behind it, and its brackets from those before it: each of its
    own is closed by a word that belongs to it, and only `pi` could continue it. -/
theorem replicate_bracketed_inj {k k' : Nat} {g g' : Group} {text text' : List Char}
    (htext : Text.Continues (· != .pi) text) (htext' : Text.Continues (· != .pi) text')
    (heq : List.replicate k '(' ++ (g.bracketed ++ text) =
      List.replicate k' '(' ++ (g'.bracketed ++ text')) :
    k = k' ∧ g = g' ∧ text = text' := by
  obtain ⟨hlevels, hhead, hlayers⟩ := layers_of_bracketed_eq k k' heq
  obtain ⟨rfl, htexts⟩ := layers_append_inj htext htext' hhead hlayers
  exact ⟨by omega, rfl, htexts⟩

theorem bracketed_append_inj {g g' : Group} {text text' : List Char}
    (htext : Text.Continues (· != .pi) text) (htext' : Text.Continues (· != .pi) text')
    (heq : g.bracketed ++ text = g'.bracketed ++ text') : g = g' ∧ text = text' := by
  obtain ⟨-, hhead, hlayers⟩ := layers_of_bracketed_eq 0 0 heq
  exact layers_append_inj htext htext' hhead hlayers

/-- A group behind a word. -/
theorem letters_append_bracketed_inj {w w' : Word} {g g' : Group} {text text' : List Char}
    (htext : Text.Continues (· != .pi) text) (htext' : Text.Continues (· != .pi) text')
    (heq : w.letters ++ (g.bracketed ++ text) = w'.letters ++ (g'.bracketed ++ text')) :
    w = w' ∧ g = g' ∧ text = text' := by
  obtain ⟨hwords, hgroups⟩ :=
    Text.Opens.letters_append_inj (g.opens.append text) (g'.opens.append text') heq
  exact ⟨hwords, bracketed_append_inj htext htext' hgroups⟩

end Group

/-- A preverb wraps its brackets around the rest of its phrase. -/
theorem VerbPhrase.bracketed_cons (w : Word) (preverbs : List Word) (verb : Group) :
    (⟨w :: preverbs, verb⟩ : VerbPhrase).bracketed =
      '(' :: (w.letters ++ ((⟨preverbs, verb⟩ : VerbPhrase).bracketed ++ [')'])) := by
  simp [VerbPhrase.bracketed, List.replicate_succ']

/-- A bracket opens right behind a preverb, while one closes behind a head. -/
theorem VerbPhrase.bracketed_ne_preverb (verb : Group) (w : Word) {text rest : List Char}
    (hopens : Text.Opens rest) : verb.bracketed ++ text ≠ '(' :: (w.letters ++ rest) := by
  intro heq
  obtain ⟨behind, rfl⟩ := hopens
  rw [verb.bracketed_eq, List.append_assoc, List.append_assoc] at heq
  obtain ⟨-, hrest⟩ := replicate_append_inj (n := 1)
    (verb.head.head?_letters_append _ (.inl rfl)) (w.head?_letters_append _ (.inl rfl)) heq
  cases (Word.letters_append_inj (.inr rfl) (.inl rfl) hrest).2.1

theorem VerbPhrase.bracketed_append_inj {v v' : VerbPhrase} {text text' : List Char}
    (htext : Text.Continues (· != .pi) text) (htext' : Text.Continues (· != .pi) text')
    (heq : v.bracketed ++ text = v'.bracketed ++ text') : v = v' ∧ text = text' := by
  obtain ⟨preverbs, verb⟩ := v
  obtain ⟨preverbs', verb'⟩ := v'
  have hverb (verb : Group) : (⟨[], verb⟩ : VerbPhrase).bracketed = verb.bracketed := by
    simp [VerbPhrase.bracketed]
  induction preverbs generalizing preverbs' text text' with
  | nil =>
    cases preverbs' with
    | nil =>
      rw [hverb, hverb] at heq
      obtain ⟨rfl, htexts⟩ := Group.bracketed_append_inj htext htext' heq
      exact ⟨rfl, htexts⟩
    | cons w preverbs' =>
      rw [hverb, VerbPhrase.bracketed_cons, List.cons_append, List.append_assoc] at heq
      exact absurd heq (VerbPhrase.bracketed_ne_preverb verb w
        (((VerbPhrase.opens _).append _).append _))
  | cons w preverbs ih =>
    cases preverbs' with
    | nil =>
      rw [hverb, VerbPhrase.bracketed_cons, List.cons_append, List.append_assoc] at heq
      exact absurd heq.symm (VerbPhrase.bracketed_ne_preverb verb' w
        (((VerbPhrase.opens _).append _).append _))
    | cons w' preverbs' =>
      simp only [VerbPhrase.bracketed_cons, List.cons_append, List.append_assoc, List.nil_append,
        List.cons.injEq, true_and] at heq
      obtain ⟨rfl, hbehind⟩ := Text.Opens.letters_append_inj ((VerbPhrase.opens _).append _)
        ((VerbPhrase.opens _).append _) heq
      obtain ⟨hphrase, htexts⟩ := ih (.close text) (.close text') preverbs' hbehind
      cases hphrase
      exact ⟨rfl, (List.cons.inj htexts).2⟩

/-- Parts of one kind in a row. A word of `leads` introduces each of them, no word that joins
    something else to them is one of these, and each part is told from what stands behind it. -/
structure Text.Row (item : α → List Char) (P : α → Prop) (leads joins : Word → Bool) : Prop where
  lead : ∀ a, P a → ∃ w text, leads w ∧ Text.Opens text ∧ item a = w.letters ++ text
  apart : ∀ w, leads w → joins w = false
  item_append_inj : ∀ {a b : α} {text text' : List Char}, P a → P b →
    Text.Continues (fun w => leads w || joins w) text →
    Text.Continues (fun w => leads w || joins w) text' →
    item a ++ text = item b ++ text' → a = b ∧ text = text'

namespace Text.Row

variable {item : α → List Char} {P : α → Prop} {leads joins : Word → Bool}

theorem continues (hrow : Text.Row item P leads joins) {items : List α}
    (hitems : ∀ a ∈ items, P a) {text : List Char} (htext : Text.Continues joins text) :
    Text.Continues (fun w => leads w || joins w) (items.flatMap item ++ text) := by
  cases items with
  | nil => exact htext.mono (fun w hw => by simp [hw])
  | cons a items =>
    obtain ⟨w, rest, hw, hopens, hitem⟩ := hrow.lead a (hitems a List.mem_cons_self)
    rw [List.flatMap_cons, hitem, List.append_assoc, List.append_assoc]
    exact .behind (by simp [hw]) (hopens.append _)

theorem ne_append (hrow : Text.Row item P leads joins) {text : List Char}
    (htext : Text.Continues joins text) {a : α} (ha : P a) (rest : List Char) :
    text ≠ item a ++ rest := by
  rintro rfl
  obtain ⟨w, behind, hw, hopens, hitem⟩ := hrow.lead a ha
  rw [hitem, List.append_assoc] at htext
  have hjoins := htext.joins_of_behind (hopens.append rest)
  rw [hrow.apart w hw] at hjoins
  cases hjoins

/-- A row ends where no word of its kind follows. -/
theorem append_inj (hrow : Text.Row item P leads joins) {items items' : List α}
    (hitems : ∀ a ∈ items, P a) (hitems' : ∀ a ∈ items', P a) {text text' : List Char}
    (htext : Text.Continues joins text) (htext' : Text.Continues joins text')
    (heq : items.flatMap item ++ text = items'.flatMap item ++ text') :
    items = items' ∧ text = text' := by
  induction items generalizing items' with
  | nil =>
    cases items' with
    | nil => exact ⟨rfl, heq⟩
    | cons b items' =>
      rw [List.flatMap_cons, List.append_assoc] at heq
      exact absurd heq (hrow.ne_append htext (hitems' b List.mem_cons_self) _)
  | cons a items ih =>
    obtain ⟨ha, hitems⟩ := List.forall_mem_cons.mp hitems
    cases items' with
    | nil =>
      rw [List.flatMap_cons, List.append_assoc] at heq
      exact absurd heq.symm (hrow.ne_append htext' ha _)
    | cons b items' =>
      obtain ⟨hb, hrest'⟩ := List.forall_mem_cons.mp hitems'
      rw [List.flatMap_cons, List.flatMap_cons, List.append_assoc, List.append_assoc] at heq
      obtain ⟨rfl, hrest⟩ := hrow.item_append_inj ha hb (hrow.continues hitems htext)
        (hrow.continues hrest' htext') heq
      obtain ⟨rfl, htexts⟩ := ih hitems hrest' hrest
      exact ⟨rfl, htexts⟩

end Text.Row

/-- Groups that are each introduced by the same word. -/
theorem Group.row (marker : Word) {joins : Word → Bool} (hmarker : marker != .pi)
    (hjoins : joins .pi = false) (hapart : joins marker = false) :
    Text.Row (fun g : Group => marker.letters ++ g.bracketed) (fun _ => True) (· == marker)
      joins where
  lead := by
    intro g _
    exact ⟨marker, g.bracketed, beq_self_eq_true marker, g.opens, rfl⟩
  apart := by
    intro w hw
    rw [eq_of_beq hw, hapart]
  item_append_inj := by
    intro g g' text text' _ _ htext htext' heq
    have hnotPi : ∀ w : Word, (w == marker || joins w) → w != .pi := by
      rintro w hw
      rw [bne_iff_ne]
      rintro rfl
      rw [hjoins, Bool.or_false, beq_iff_eq] at hw
      rw [← hw] at hmarker
      cases hmarker
    simp only [List.append_assoc] at heq
    exact (Group.letters_append_bracketed_inj (htext.mono hnotPi) (htext'.mono hnotPi) heq).2

/-- Another word in the place of a preposition could be taken for the start of an object or of a
    predicate. -/
def Preposition.Legible (q : Preposition) : Prop := q.preposition.isPreposition

instance (q : Preposition) : Decidable q.Legible :=
  inferInstanceAs (Decidable (q.preposition.isPreposition = true))

theorem Preposition.row :
    Text.Row Preposition.bracketed Preposition.Legible Word.isPreposition
      Word.isPredicateMarker where
  lead := by
    intro q hq
    exact ⟨q.preposition, q.noun.bracketed, hq, q.noun.opens, rfl⟩
  apart := by
    intro w hw
    exact Word.isPredicateMarker_of_not_isParticle (Word.isParticle_of_isPreposition hw)
  item_append_inj := by
    rintro ⟨w, g⟩ ⟨w', g'⟩ text text' - - htext htext' heq
    have hnotPi : ∀ w : Word, (w.isPreposition || w.isPredicateMarker) → w != .pi := by
      rintro w hw
      rw [bne_iff_ne]
      rintro rfl
      cases hw
    simp only [Preposition.bracketed, List.append_assoc] at heq
    obtain ⟨rfl, rfl, htexts⟩ :=
      Group.letters_append_bracketed_inj (htext.mono hnotPi) (htext'.mono hnotPi) heq
    exact ⟨rfl, htexts⟩

/-- Every preposition of the predicate is a preposition word. -/
def Predicate.Legible (p : Predicate) : Prop := ∀ q ∈ p.prepositions, q.Legible

instance (p : Predicate) : Decidable p.Legible :=
  inferInstanceAs (Decidable (∀ q ∈ p.prepositions, q.Legible))

/-- The words that may join something to a verb before the end of its clause. -/
def Word.joinsVerb (w : Word) : Bool := w == .e || (w.isPreposition || w.isPredicateMarker)

theorem Word.ne_pi_of_joinsVerb {w : Word} (hw : w.joinsVerb) : w != .pi := by
  rw [bne_iff_ne]
  rintro rfl
  cases hw

theorem Group.objectRow :
    Text.Row (fun g : Group => Word.e.letters ++ g.bracketed) (fun _ => True) (· == .e)
      (fun w => w.isPreposition || w.isPredicateMarker) :=
  Group.row .e rfl rfl rfl

theorem Group.continues_objects (objects : List Group) {text : List Char}
    (htext : Text.Continues (fun w => w.isPreposition || w.isPredicateMarker) text) :
    Text.Continues Word.joinsVerb
      (objects.flatMap (fun g => Word.e.letters ++ g.bracketed) ++ text) :=
  Group.objectRow.continues (fun _ _ => trivial) htext

theorem Predicate.marker_inj {p p' : Predicate} (hmarker : p.marker = p'.marker) :
    p.imperative = p'.imperative := by
  have hread := (Predicate.marker_eq_iff p p'.isPredicateMarker_marker).mp hmarker
  rw [hread, ← (Predicate.marker_eq_iff p' p'.isPredicateMarker_marker).mp rfl]

theorem Predicate.bracketed_append_inj {p p' : Predicate} (hp : p.Legible) (hp' : p'.Legible)
    {text text' : List Char} (htext : Text.Continues Word.isPredicateMarker text)
    (htext' : Text.Continues Word.isPredicateMarker text')
    (heq : p.bracketed ++ text = p'.bracketed ++ text') : p = p' ∧ text = text' := by
  simp only [Predicate.bracketed, List.append_assoc] at heq
  obtain ⟨hmarker, hphrase⟩ := Text.Opens.letters_append_inj (p.verb.opens.append _)
    (p'.verb.opens.append _) heq
  have hphrases := Preposition.row.continues hp htext
  have hphrases' := Preposition.row.continues hp' htext'
  have hrest := Group.continues_objects p.objects hphrases
  have hrest' := Group.continues_objects p'.objects hphrases'
  obtain ⟨hverb, hbehind⟩ := VerbPhrase.bracketed_append_inj
    (hrest.mono fun _ hw => Word.ne_pi_of_joinsVerb hw)
    (hrest'.mono fun _ hw => Word.ne_pi_of_joinsVerb hw) hphrase
  obtain ⟨hgroups, hbehind⟩ := Group.objectRow.append_inj (fun _ _ => trivial) (fun _ _ => trivial)
    hphrases hphrases' hbehind
  obtain ⟨hprepositions, htexts⟩ := Preposition.row.append_inj hp hp' htext htext' hbehind
  refine ⟨?_, htexts⟩
  have himperative := Predicate.marker_inj hmarker
  cases p
  cases p'
  simp_all

theorem Predicate.row :
    Text.Row Predicate.bracketed Predicate.Legible Word.isPredicateMarker (fun _ => false) where
  lead := by
    intro p _
    have hbracketed : p.bracketed = p.marker.letters ++ (p.verb.bracketed ++
        (p.objects.flatMap (fun g => Word.e.letters ++ g.bracketed) ++
          p.prepositions.flatMap Preposition.bracketed)) := by
      simp only [Predicate.bracketed, List.append_assoc]
    exact ⟨p.marker, _, p.isPredicateMarker_marker, p.verb.opens.append _, hbracketed⟩
  apart := fun _ _ => rfl
  item_append_inj := by
    intro p p' text text' hp hp' htext htext' heq
    exact Predicate.bracketed_append_inj hp hp' (htext.mono (by simp)) (htext'.mono (by simp)) heq

/-- A clause with a subject, in which every preposition is a preposition word. -/
structure Clause.Legible (c : Clause) : Prop where
  subjects : c.subjects ≠ []
  predicates : ∀ p ∈ c.predicates, p.Legible

/-- All clauses of the sentence and of its contexts are legible. -/
def Sentence.Legible : Sentence → Prop
  | .plain clause => clause.Legible
  | .afterPhrase _ clause => clause.Legible
  | .afterSentence s clause => s.Legible ∧ clause.Legible

instance (c : Clause) : Decidable c.Legible :=
  decidable_of_iff (c.subjects ≠ [] ∧ ∀ p ∈ c.predicates, p.Legible)
    ⟨fun ⟨h₁, h₂⟩ => ⟨h₁, h₂⟩, fun ⟨h₁, h₂⟩ => ⟨h₁, h₂⟩⟩

instance Sentence.decidableLegible : (s : Sentence) → Decidable s.Legible
  | .plain clause => inferInstanceAs (Decidable clause.Legible)
  | .afterPhrase _ clause => inferInstanceAs (Decidable clause.Legible)
  | .afterSentence s clause =>
    have := s.decidableLegible
    inferInstanceAs (Decidable (s.Legible ∧ clause.Legible))

/-- The words that may join something to a subject before the end of its clause. -/
def Word.joinsSubject (w : Word) : Bool := w == .en || w.isPredicateMarker

theorem Word.ne_pi_of_joinsSubject {w : Word} (hw : w.joinsSubject) : w != .pi := by
  rw [bne_iff_ne]
  rintro rfl
  cases hw

/-- The end of a clause: nothing follows, or the bracket of its sentence closes. -/
abbrev Text.Ends (text : List Char) : Prop := Text.Continues (fun _ => false) text

theorem Clause.continues_predicates {c : Clause} (hc : c.Legible) {text : List Char}
    (htext : Text.Ends text) :
    Text.Continues Word.isPredicateMarker (c.predicates.flatMap Predicate.bracketed ++ text) :=
  (Predicate.row.continues hc.predicates htext).mono (by simp)

theorem Group.subjectRow :
    Text.Row (fun g : Group => Word.en.letters ++ g.bracketed) (fun _ => True) (· == .en)
      Word.isPredicateMarker :=
  Group.row .en rfl rfl rfl

theorem Group.continues_subjects (subjects : List Group) {text : List Char}
    (htext : Text.Continues Word.isPredicateMarker text) :
    Text.Continues Word.joinsSubject
      (subjects.flatMap (fun g => Word.en.letters ++ g.bracketed) ++ text) :=
  Group.subjectRow.continues (fun _ _ => trivial) htext

/-- A clause begins with its first subject. -/
theorem Clause.Legible.exists_first {c : Clause} (hc : c.Legible) {text : List Char}
    (htext : Text.Ends text) :
    ∃ (g : Group) (rest : List Char), c.bracketed ++ text = g.bracketed ++ rest ∧
      Text.Continues Word.joinsSubject rest := by
  have hpredicates := Clause.continues_predicates hc htext
  obtain ⟨subjects, predicates⟩ := c
  obtain ⟨g, groups, rfl⟩ := List.exists_cons_of_ne_nil hc.subjects
  rw [Clause.bracketed_cons, List.append_assoc, List.append_assoc]
  exact ⟨g, _, rfl, Group.continues_subjects groups hpredicates⟩

theorem Clause.bracketed_append_inj {c c' : Clause} (hc : c.Legible) (hc' : c'.Legible)
    {text text' : List Char} (htext : Text.Ends text) (htext' : Text.Ends text')
    (heq : c.bracketed ++ text = c'.bracketed ++ text') : c = c' ∧ text = text' := by
  have hpredicates := Clause.continues_predicates hc htext
  have hpredicates' := Clause.continues_predicates hc' htext'
  obtain ⟨subjects, predicates⟩ := c
  obtain ⟨subjects', predicates'⟩ := c'
  obtain ⟨g, groups, rfl⟩ := List.exists_cons_of_ne_nil hc.subjects
  obtain ⟨g', groups', rfl⟩ := List.exists_cons_of_ne_nil hc'.subjects
  have hrest := Group.continues_subjects groups hpredicates
  have hrest' := Group.continues_subjects groups' hpredicates'
  simp only [Clause.bracketed_cons, List.append_assoc] at heq
  obtain ⟨rfl, hbehind⟩ := Group.bracketed_append_inj
    (hrest.mono fun _ hw => Word.ne_pi_of_joinsSubject hw)
    (hrest'.mono fun _ hw => Word.ne_pi_of_joinsSubject hw) heq
  obtain ⟨rfl, hbehind⟩ := Group.subjectRow.append_inj (fun _ _ => trivial) (fun _ _ => trivial)
    hpredicates hpredicates' hbehind
  obtain ⟨rfl, htexts⟩ := Predicate.row.append_inj hc.predicates hc'.predicates htext htext' hbehind
  exact ⟨rfl, htexts⟩

/-- The number of sentences that are contexts one within the other. -/
def Sentence.nesting : Sentence → Nat
  | .plain _ => 0
  | .afterPhrase _ _ => 0
  | .afterSentence s _ => s.nesting + 1

/-- A sentence begins with the brackets of its contexts and a group. -/
theorem Sentence.Legible.exists_first {s : Sentence} (hs : s.Legible) {text : List Char}
    (htext : Text.Ends text) :
    ∃ (g : Group) (rest : List Char),
      s.bracketed ++ text = List.replicate s.nesting '(' ++ (g.bracketed ++ rest) ∧
      Text.Continues (· != .pi) rest := by
  induction s generalizing text with
  | plain c =>
    have hc : c.Legible := hs
    obtain ⟨g, rest, hfirst, hrest⟩ := hc.exists_first htext
    exact ⟨g, rest, hfirst, hrest.mono fun _ hw => Word.ne_pi_of_joinsSubject hw⟩
  | afterPhrase g c =>
    have hc : c.Legible := hs
    refine ⟨g, Word.la.letters ++ (c.bracketed ++ text), ?_, ?_⟩
    · simp [Sentence.bracketed, Sentence.nesting]
    · exact .behind rfl ((Clause.opens hc.subjects).append text)
  | afterSentence s c ih =>
    obtain ⟨hs, -⟩ := hs
    obtain ⟨g, rest, hfirst, hrest⟩ :=
      ih hs (.close (Word.la.letters ++ (c.bracketed ++ text)))
    refine ⟨g, rest, ?_, hrest⟩
    rw [Sentence.nesting, List.replicate_succ, List.cons_append, ← hfirst]
    simp [Sentence.bracketed]

theorem Sentence.nesting_eq_of_bracketed_eq {s s' : Sentence} (hs : s.Legible)
    (hs' : s'.Legible) {text text' : List Char} (htext : Text.Ends text)
    (htext' : Text.Ends text') (heq : s.bracketed ++ text = s'.bracketed ++ text') :
    s.nesting = s'.nesting := by
  obtain ⟨g, rest, hfirst, hrest⟩ := hs.exists_first htext
  obtain ⟨g', rest', hfirst', hrest'⟩ := hs'.exists_first htext'
  rw [hfirst, hfirst'] at heq
  exact (Group.replicate_bracketed_inj hrest hrest' heq).1

/-- A `la` joins nothing to the subject of a clause. -/
theorem Clause.Legible.ne_afterPhrase {c c' : Clause} (hc : c.Legible) (hc' : c'.Legible)
    {text text' : List Char} (htext : Text.Ends text) (g : Group) :
    c.bracketed ++ text ≠ (Sentence.afterPhrase g c').bracketed ++ text' := by
  intro heq
  have hopens := (Clause.opens hc'.subjects).append text'
  obtain ⟨first, rest, hfirst, hrest⟩ := hc.exists_first htext
  rw [hfirst, Sentence.bracketed, List.append_assoc, List.append_assoc] at heq
  obtain ⟨-, rfl⟩ := Group.bracketed_append_inj
    (hrest.mono fun _ hw => Word.ne_pi_of_joinsSubject hw)
    (.behind (w := .la) rfl hopens) heq
  cases hrest.joins_of_behind hopens

theorem Sentence.bracketed_append_inj {s s' : Sentence} (hs : s.Legible) (hs' : s'.Legible)
    {text text' : List Char} (htext : Text.Ends text) (htext' : Text.Ends text')
    (heq : s.bracketed ++ text = s'.bracketed ++ text') : s = s' ∧ text = text' := by
  have hnesting := Sentence.nesting_eq_of_bracketed_eq hs hs' htext htext' heq
  induction s generalizing s' text text' with
  | plain c =>
    have hc : c.Legible := hs
    cases s' with
    | plain c' =>
      obtain ⟨rfl, htexts⟩ := Clause.bracketed_append_inj hc hs' htext htext' heq
      exact ⟨rfl, htexts⟩
    | afterPhrase g' c' => exact absurd heq (hc.ne_afterPhrase hs' htext g')
    | afterSentence s' c' => cases hnesting
  | afterPhrase g c =>
    have hc : c.Legible := hs
    cases s' with
    | plain c' => exact absurd heq.symm (Clause.Legible.ne_afterPhrase hs' hc htext' g)
    | afterPhrase g' c' =>
      have hc' : c'.Legible := hs'
      have hopens := (Clause.opens hc.subjects).append text
      have hopens' := (Clause.opens hc'.subjects).append text'
      simp only [Sentence.bracketed, List.append_assoc] at heq
      obtain ⟨rfl, hclause⟩ := Group.bracketed_append_inj
        (.behind rfl hopens) (.behind rfl hopens') heq
      obtain ⟨rfl, htexts⟩ := Clause.bracketed_append_inj hc hc' htext htext'
        (List.append_cancel_left hclause)
      exact ⟨rfl, htexts⟩
    | afterSentence s' c' => cases hnesting
  | afterSentence s c ih =>
    obtain ⟨hs, hc⟩ := hs
    cases s' with
    | plain c' => cases hnesting
    | afterPhrase g' c' => cases hnesting
    | afterSentence s' c' =>
      obtain ⟨hs', hc'⟩ := hs'
      simp only [Sentence.bracketed, List.cons_append, List.append_assoc, List.cons.injEq,
        true_and] at heq
      obtain ⟨rfl, hclause⟩ := ih hs hs' (.close _) (.close _) heq (Nat.succ.inj hnesting)
      obtain ⟨rfl, htexts⟩ := Clause.bracketed_append_inj hc hc' htext htext'
        (List.append_cancel_left (List.cons.inj hclause).2)
      exact ⟨rfl, htexts⟩

/-- What is well formed is legible. -/
theorem Sentence.PartsWellFormed.legible {s : Sentence} (hs : s.PartsWellFormed) : s.Legible := by
  have hclause {c : Clause} (hc : c.WellFormed) : c.Legible :=
    ⟨hc.nonempty, fun p hp q hq => ((hc.predicates p hp).prepositions q hq).preposition⟩
  induction s with
  | plain c => exact hclause hs
  | afterPhrase g c => exact hclause hs.2
  | afterSentence s c ih => exact ⟨ih hs.1.1, hclause hs.2⟩

theorem Sentence.eq_of_canonical_eq {s s' : Sentence} (hs : s.Legible) (hs' : s'.Legible)
    (heq : s.canonical = s'.canonical) : s = s' := by
  have hbracketed : s.bracketed ++ [] = s'.bracketed ++ [] := by
    rw [List.append_nil, List.append_nil]
    exact String.ofList_injective heq
  exact (Sentence.bracketed_append_inj hs hs' .nil .nil hbracketed).1

theorem Sentence.legible_of_parseLine {aliases : Aliases} {line : String} {s : Sentence}
    (hparse : parseLine aliases line = .ok s) : s.Legible :=
  (Sentence.partsWellFormed_of_parseLine hparse).legible

/-- No two trees share a canonical form, whatever words head or modify their groups, provided that
    every clause has a subject and every preposition is a preposition word. Lines that are read
    have the same canonical form exactly if they have the same tree. -/
theorem Sentence.canonical_injective :
    (∀ s₁ s₂ : Sentence, s₁.Legible → s₂.Legible → s₁.canonical = s₂.canonical → s₁ = s₂) ∧
      ∀ (aliases₁ aliases₂ : Aliases) (line₁ line₂ : String) (s₁ s₂ : Sentence),
        parseLine aliases₁ line₁ = .ok s₁ → parseLine aliases₂ line₂ = .ok s₂ →
          (s₁.canonical = s₂.canonical ↔ s₁ = s₂) := by
  refine ⟨fun s₁ s₂ hs₁ hs₂ heq => Sentence.eq_of_canonical_eq hs₁ hs₂ heq, ?_⟩
  intro aliases₁ aliases₂ line₁ line₂ s₁ s₂ hparse₁ hparse₂
  constructor
  · exact Sentence.eq_of_canonical_eq (Sentence.legible_of_parseLine hparse₁)
      (Sentence.legible_of_parseLine hparse₂)
  · rintro rfl
    rfl

/-- A `pi` that modifies `en` is told from one that opens a group, and a preverb `e` from the `e`
    of an object. Of the two lines, the first keeps its preposition in the verb. -/
theorem Sentence.canonical_injective_of_markers :
    let s₁ : Sentence := .afterSentence (.plain ⟨[.flat .en [.pi, .la]], []⟩)
      ⟨[.flat .li []], [⟨false, ⟨[.e], .flat .o []⟩, [], [⟨.tawa, .flat .pi []⟩]⟩]⟩
    let s₂ : Sentence := .afterSentence (.plain ⟨[.pi .en [] (.flat .la [])], []⟩)
      ⟨[.flat .li []], [⟨false, ⟨[], .flat .e []⟩, [.flat .o []], [⟨.tawa, .flat .pi []⟩]⟩]⟩
    let t₁ : Sentence := .plain ⟨[.flat .jan []], [⟨false, ⟨[], .flat .moku [.lon]⟩, [], []⟩]⟩
    let t₂ : Sentence := .plain
      ⟨[.flat .jan []], [⟨false, ⟨[], .flat .moku []⟩, [], [⟨.lon, .flat .ni []⟩]⟩]⟩
    (s₁.Legible ∧ s₂.Legible ∧ s₁.canonical ≠ s₂.canonical) ∧
      parseLine Aliases.empty "jan li moku lon" = .ok t₁ ∧
      parseLine Aliases.empty "jan li moku lon ni" = .ok t₂ ∧
      (t₁.canonical = t₂.canonical ↔ t₁ = t₂) := by
  intro s₁ s₂ t₁ t₂
  have hs₁ : s₁.Legible := by decide
  have hs₂ : s₂.Legible := by decide
  have hne : s₁ ≠ s₂ := by decide
  have hparse₁ : parseLine Aliases.empty "jan li moku lon" = .ok t₁ := by decide +kernel
  have hparse₂ : parseLine Aliases.empty "jan li moku lon ni" = .ok t₂ := by decide +kernel
  obtain ⟨hinjective, hlines⟩ := Sentence.canonical_injective
  exact ⟨⟨hs₁, hs₂, fun heq => hne (hinjective s₁ s₂ hs₁ hs₂ heq)⟩, hparse₁, hparse₂,
    hlines _ _ _ _ t₁ t₂ hparse₁ hparse₂⟩

end TokiPona
