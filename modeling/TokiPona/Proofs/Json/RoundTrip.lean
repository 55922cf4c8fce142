import TokiPona.Json.Printer
import TokiPona.Json.Reader
import TokiPona.Proofs.Entries
import TokiPona.Proofs.Text.Plain

/-!
What is written as JSON is read back, whatever the layout.

A value that is written is read back with any text behind it (`Json.ReadsBack`): the layout puts
nothing but blanks between the tokens, and none of the values here ends differently if more text
follows. Lists and objects are read item by item and member by member (`Json.readItems_write`,
`Json.readMembers_write`). Without an indent the text has no line break in it
(`Json.Plain.isLine_render`).
-/

namespace TokiPona

namespace Json

/-- A code point that stands for itself in a JSON string. -/
def IsLiteral : CodePoint → Prop
  | .char c => (0x20 ≤ c.toNat ∧ c.toNat ≤ 0x7E) ∧ c ≠ '"' ∧ c ≠ '\\'
  | .surrogate _ => False

instance : DecidablePred IsLiteral
  | .char _ => inferInstanceAs (Decidable (_ ∧ _))
  | .surrogate _ => inferInstanceAs (Decidable False)

/-- A text that is written without escapes. -/
def Unescaped (text : LooseText) : Prop := ∀ p ∈ text.points, IsLiteral p

instance (text : LooseText) : Decidable (Unescaped text) :=
  List.decidableBAll _ _

/-- The names of the members of an object: none occurs twice or is escaped. -/
def AreNames (names : List LooseText) : Prop := names.Nodup ∧ ∀ name ∈ names, Unescaped name

instance (names : List LooseText) : Decidable (AreNames names) :=
  inferInstanceAs (Decidable (_ ∧ _))

/-- The values without numbers and escapes, in which no name occurs twice in an object. -/
inductive Plain : Json → Prop
  | null : Plain .null
  | bool (value : Bool) : Plain (.bool value)
  | str {text : LooseText} (htext : Unescaped text) : Plain (.str text)
  | arr {items : List Json} (hitems : ∀ v ∈ items, Plain v) : Plain (.arr items)
  | obj {members : List (LooseText × Json)} (hnames : AreNames (members.map Prod.fst))
      (hvalues : ∀ v ∈ members.map Prod.snd, Plain v) : Plain (.obj members)

/-- Written at any depth, the value is read back from in front of any text. A character of the
    value is worth two steps of the reader. -/
def ReadsBack (indent : Option Int) (v : Json) : Prop :=
  ∀ (depth bound : Nat) (rest : List Char), 2 * (write indent depth v).length ≤ bound →
    readValue bound (write indent depth v ++ rest) = some (v, rest)

section Space

theorem skipSpace_append {spaces : List Char} (hspaces : ∀ c ∈ spaces, isSpace c = true)
    (text : List Char) : skipSpace (spaces ++ text) = skipSpace text :=
  List.dropWhile_append_of_pos hspaces

theorem skipSpace_cons {c : Char} (hc : isSpace c = false) (text : List Char) :
    skipSpace (c :: text) = c :: text :=
  List.dropWhile_cons_of_neg (by simp [hc])

theorem skipSpace_blank (text : List Char) : skipSpace (' ' :: text) = skipSpace text := rfl

theorem skipSpace_colon (text : List Char) : skipSpace (':' :: text) = ':' :: text := rfl

theorem isSpace_of_mem_lineBreak (indent : Option Int) (depth : Nat) :
    ∀ c ∈ lineBreak indent depth, isSpace c = true := by
  intro c hc
  cases indent with
  | none => cases hc
  | some width =>
    rcases List.mem_cons.mp hc with rfl | hc
    · rfl
    · rw [List.eq_of_mem_replicate hc]
      rfl

/-- Between two items there is a comma with blanks behind it. -/
theorem exists_separator_eq (indent : Option Int) (depth : Nat) :
    ∃ spaces, separator indent depth = ',' :: spaces ∧ ∀ c ∈ spaces, isSpace c = true := by
  cases indent with
  | none => exact ⟨[' '], rfl, List.forall_mem_singleton.mpr rfl⟩
  | some width =>
    exact ⟨lineBreak (some width) depth, rfl, isSpace_of_mem_lineBreak (some width) depth⟩

/-- A written value begins with its first token, which closes nothing. -/
theorem exists_write_eq_cons {v : Json} (hv : Plain v) (indent : Option Int) (depth : Nat) :
    ∃ c rest, write indent depth v = c :: rest ∧ isSpace c = false ∧ c ≠ ']' := by
  cases hv with
  | null => exact ⟨'n', _, rfl, by decide⟩
  | bool value => cases value <;> exact ⟨_, _, rfl, by decide⟩
  | str => exact ⟨'"', _, rfl, by decide⟩
  | @arr items => cases items <;> exact ⟨'[', _, rfl, by decide⟩
  | @obj members => cases members <;> exact ⟨'\x7b', _, rfl, by decide⟩

end Space

section String

variable {c : Char}

theorem IsLiteral.writeChar_eq (hc : IsLiteral (.char c)) : writeChar c = [c] := by
  obtain ⟨⟨hmin, hmax⟩, hquote, hslash⟩ := hc
  have hne {d : Char} (hd : d.toNat < 0x20) : c ≠ d := by
    rintro rfl
    omega
  have hfeed : c ≠ '\n' := hne (by decide)
  have hreturn : c ≠ '\r' := hne (by decide)
  have htab : c ≠ '\t' := hne (by decide)
  have hback : c.toNat ≠ 0x08 := by omega
  have hform : c.toNat ≠ 0x0C := by omega
  simp [writeChar, hquote, hslash, hfeed, hreturn, htab, hback, hform, hmin, hmax]

theorem IsLiteral.readUnits_cons (hc : IsLiteral (.char c)) {rest behind : List Char}
    {units : List Nat} (hrest : readUnits rest = some (units, behind)) :
    readUnits (c :: rest) = some (c.toNat :: units, behind) := by
  obtain ⟨⟨hmin, hmax⟩, hquote, hslash⟩ := hc
  have hcontrol : ¬ c.toNat < 0x20 := by omega
  rw [readUnits]
  · simp [hcontrol, hslash, hrest]
  · exact fun h => hquote h
  · intro a b c d rest h
    exact absurd h hslash
  · intro d rest h
    exact absurd h hslash

theorem joinSurrogates_map_toNat (chars : List Char) :
    joinSurrogates (chars.map Char.toNat) = chars.map .char := by
  have hvalid (c : Char) : ¬ (0xD800 ≤ c.toNat ∧ c.toNat < 0xE000) := by
    have hvalid := c.valid
    simp only [UInt32.isValidChar, Nat.isValidChar, Char.toNat] at hvalid ⊢
    omega
  have hpoint (c : Char) : CodePoint.ofNat c.toNat = .char c := by
    rw [CodePoint.ofNat, dif_neg (hvalid c), Char.ofNat_toNat]
  have hhigh (c : Char) : isHighSurrogate c.toNat = false := by
    have := hvalid c
    simp [isHighSurrogate]
    omega
  induction chars with
  | nil => rfl
  | cons c chars ih =>
    cases chars with
    | nil => simp [joinSurrogates, hpoint]
    | cons next chars =>
      rw [List.map_cons, List.map_cons, joinSurrogates, hhigh, hpoint, ← List.map_cons, ih]
      rfl

/-- A text without escapes stands between the quotation marks as it is, and is read back from
    there. -/
theorem Unescaped.exists_writeString_eq {text : LooseText} (htext : Unescaped text) :
    ∃ chars, writeString text = '"' :: chars ++ ['"'] ∧ Text.Plain chars ∧
      ∀ rest, readString (chars ++ '"' :: rest) = some (text, rest) := by
  obtain ⟨points⟩ := text
  suffices hunits : ∃ chars : List Char, points = chars.map .char ∧
      points.flatMap writePoint = chars ∧ Text.Plain chars ∧
      ∀ rest, readUnits (chars ++ '"' :: rest) = some (chars.map Char.toNat, rest) by
    obtain ⟨chars, rfl, hwrite, hplain, hread⟩ := hunits
    refine ⟨chars, by rw [writeString, hwrite], hplain, fun rest => ?_⟩
    simp [readString, hread, joinSurrogates_map_toNat]
  induction points with
  | nil => exact ⟨[], rfl, rfl, Text.plain_nil, fun rest => rfl⟩
  | cons p points ih =>
    obtain ⟨hp, hpoints⟩ := List.forall_mem_cons.mp htext
    obtain ⟨chars, rfl, hwrite, hplain, hread⟩ := ih hpoints
    cases p with
    | surrogate index => cases hp
    | char c =>
      refine ⟨c :: chars, by rw [List.map_cons], ?_, Text.plain_cons.mpr ⟨hp.1, hplain⟩,
        fun rest => hp.readUnits_cons (hread rest)⟩
      rw [List.flatMap_cons, hwrite, writePoint, hp.writeChar_eq, List.singleton_append]

end String

section Items

variable {indent : Option Int} {depth bound : Nat} {text rest behind : List Char}

theorem readItems_of_last {item : Json} (hitem : readValue bound text = some (item, rest))
    (hrest : skipSpace rest = ']' :: behind) :
    readItems (bound + 1) text = some ([item], behind) := by
  simp [readItems, hitem, hrest]

theorem readItems_of_more {item : Json} {items : List Json} {later : List Char}
    (hitem : readValue bound text = some (item, rest)) (hrest : skipSpace rest = ',' :: later)
    (hitems : readItems bound (skipSpace later) = some (items, behind)) :
    readItems (bound + 1) text = some (item :: items, behind) := by
  simp [readItems, hitem, hrest, hitems]

theorem readValue_quote (bound : Nat) (text : List Char) :
    readValue (bound + 1) ('"' :: text) = (readString text).map fun r => (.str r.1, r.2) := rfl

theorem readValue_of_items {items : List Json} (htext : skipSpace text = rest)
    (hrest : rest.head? ≠ some ']') (hitems : readItems bound rest = some (items, behind)) :
    readValue (bound + 1) ('[' :: text) = some (.arr items, behind) := by
  rw [readValue, htext]
  split
  · exact absurd rfl hrest
  · simp [hitems]

theorem readValue_of_members {members : List (LooseText × Json)} (htext : skipSpace text = rest)
    (hrest : rest.head? ≠ some '\x7d')
    (hmembers : readMembers bound rest = some (members, behind)) :
    readValue (bound + 1) ('\x7b' :: text) = some (ofMembers members, behind) := by
  rw [readValue, htext]
  split
  · exact absurd rfl hrest
  · simp [hmembers]

theorem skipSpace_lineBreak (indent : Option Int) (depth : Nat) {c : Char}
    (hc : isSpace c = false) :
    skipSpace (lineBreak indent depth ++ c :: text) = c :: text := by
  rw [skipSpace_append (isSpace_of_mem_lineBreak indent depth), skipSpace_cons hc]

theorem skipSpace_write {v : Json} (hv : Plain v) (indent : Option Int) (depth : Nat)
    (text : List Char) :
    skipSpace (write indent depth v ++ text) = write indent depth v ++ text := by
  obtain ⟨c, rest, heq, hc, -⟩ := exists_write_eq_cons hv indent depth
  rw [heq, List.cons_append, skipSpace_cons hc]

theorem skipSpace_writeString (name : LooseText) (text : List Char) :
    skipSpace (writeString name ++ text) = writeString name ++ text :=
  skipSpace_cons (by decide) _

/-- Items are read one by one up to the bracket that closes the list. -/
theorem readItems_write {depth' : Nat} {item : Json} {items : List Json}
    (hplain : ∀ v ∈ item :: items, Plain v) (hread : ∀ v ∈ item :: items, ReadsBack indent v)
    (hbound : 2 * ((write indent depth item).length + (writeItems indent depth items).length + 1) ≤
      bound) :
    readItems bound (write indent depth item ++ (writeItems indent depth items ++
      (lineBreak indent depth' ++ ']' :: rest))) = some (item :: items, rest) := by
  obtain ⟨bound, rfl⟩ := Nat.exists_eq_add_of_le' (show 1 ≤ bound by omega)
  -- What follows an item is the closing bracket or a separator, and neither belongs to the item.
  have hitem := hread item List.mem_cons_self depth bound
  induction items generalizing item bound with
  | nil =>
    exact readItems_of_last (hitem _ (by omega)) (skipSpace_lineBreak indent depth' (by decide))
  | cons next items ih =>
    obtain ⟨spaces, hseparator, hspaces⟩ := exists_separator_eq indent depth
    have hplain := (List.forall_mem_cons.mp hplain).2
    have hread := (List.forall_mem_cons.mp hread).2
    rw [writeItems, hseparator] at hbound ⊢
    simp only [List.cons_append, List.append_assoc, List.length_cons, List.length_append]
      at hbound ⊢
    obtain ⟨bound, rfl⟩ := Nat.exists_eq_add_of_le' (show 1 ≤ bound by omega)
    refine readItems_of_more (hitem _ (by omega)) (skipSpace_cons (by decide) _) ?_
    rw [skipSpace_append hspaces, skipSpace_write (hplain next List.mem_cons_self)]
    exact ih hplain hread bound (by omega) (hread next List.mem_cons_self depth bound)

section Member

variable {name : LooseText} {value : Json} (hname : Unescaped name) (hplain : Plain value)
  (hvalue : readValue bound (write indent depth value ++ rest) = some (value, rest))

include hname hplain hvalue

theorem readMembers_of_last (hrest : skipSpace rest = '\x7d' :: behind) :
    readMembers (bound + 1) (writeString name ++ ':' :: ' ' :: (write indent depth value ++ rest)) =
      some ([(name, value)], behind) := by
  obtain ⟨chars, hwrite, -, hread⟩ := hname.exists_writeString_eq
  simp [hwrite, readMembers, hread, skipSpace_colon, skipSpace_blank, skipSpace_write hplain,
    hvalue, hrest]

theorem readMembers_of_more {members : List (LooseText × Json)} {later : List Char}
    (hrest : skipSpace rest = ',' :: later)
    (hmembers : readMembers bound (skipSpace later) = some (members, behind)) :
    readMembers (bound + 1) (writeString name ++ ':' :: ' ' :: (write indent depth value ++ rest)) =
      some ((name, value) :: members, behind) := by
  obtain ⟨chars, hwrite, -, hread⟩ := hname.exists_writeString_eq
  simp [hwrite, readMembers, hread, skipSpace_colon, skipSpace_blank, skipSpace_write hplain,
    hvalue, hrest, hmembers]

end Member

/-- Members are read one by one up to the brace that closes the object. -/
theorem readMembers_write {depth' : Nat} {name : LooseText} {value : Json}
    {members : List (LooseText × Json)}
    (hnames : ∀ n ∈ ((name, value) :: members).map Prod.fst, Unescaped n)
    (hplain : ∀ v ∈ ((name, value) :: members).map Prod.snd, Plain v)
    (hread : ∀ v ∈ ((name, value) :: members).map Prod.snd, ReadsBack indent v)
    (hbound : 2 * ((write indent depth value).length +
      (writeMembers indent depth members).length + 1) ≤ bound) :
    readMembers bound (writeString name ++ ':' :: ' ' :: (write indent depth value ++
      (writeMembers indent depth members ++ (lineBreak indent depth' ++ '\x7d' :: rest)))) =
        some ((name, value) :: members, rest) := by
  obtain ⟨bound, rfl⟩ := Nat.exists_eq_add_of_le' (show 1 ≤ bound by omega)
  have hname := hnames name List.mem_cons_self
  have hfirst := hplain value List.mem_cons_self
  have hvalue := hread value List.mem_cons_self depth bound
  induction members generalizing name value bound with
  | nil =>
    exact readMembers_of_last hname hfirst (hvalue _ (by omega))
      (skipSpace_lineBreak indent depth' (by decide))
  | cons next members ih =>
    obtain ⟨spaces, hseparator, hspaces⟩ := exists_separator_eq indent depth
    have hnames := (List.forall_mem_cons.mp hnames).2
    have hplain := (List.forall_mem_cons.mp hplain).2
    have hread := (List.forall_mem_cons.mp hread).2
    rw [writeMembers, hseparator] at hbound ⊢
    simp only [List.cons_append, List.append_assoc, List.length_cons, List.length_append]
      at hbound ⊢
    obtain ⟨bound, rfl⟩ := Nat.exists_eq_add_of_le' (show 1 ≤ bound by omega)
    refine readMembers_of_more hname hfirst (hvalue _ (by omega)) (skipSpace_cons (by decide) _) ?_
    rw [skipSpace_append hspaces, skipSpace_writeString]
    exact ih hnames hplain hread bound (by omega) (hnames _ List.mem_cons_self)
      (hplain _ List.mem_cons_self) (hread _ List.mem_cons_self depth bound)

end Items

section Value

variable {v : Json}

theorem ofMembers_of_nodup {members : List (LooseText × Json)}
    (hnames : (members.map Prod.fst).Nodup) : ofMembers members = .obj members := by
  rw [ofMembers, Entries.putAll_of_nodup hnames, List.nil_append]

/-- The reader is never out of steps in front of a value, as there is a character to read. -/
theorem Plain.readsBack_of_succ (hv : Plain v) {indent : Option Int}
    (hread : ∀ depth bound rest, 2 * (write indent depth v).length ≤ bound + 1 →
      readValue (bound + 1) (write indent depth v ++ rest) = some (v, rest)) :
    ReadsBack indent v := by
  intro depth bound rest hbound
  obtain ⟨c, text, heq, -⟩ := exists_write_eq_cons hv indent depth
  cases bound with
  | zero => simp [heq] at hbound
  | succ bound => exact hread depth bound rest hbound

theorem readsBack_str {text : LooseText} (htext : Unescaped text) (indent : Option Int) :
    ReadsBack indent (.str text) := by
  refine (Plain.str htext).readsBack_of_succ fun depth bound rest _ => ?_
  obtain ⟨chars, hwrite, -, hread⟩ := htext.exists_writeString_eq
  rw [write, hwrite, List.cons_append, List.cons_append, readValue_quote, List.append_assoc,
    List.singleton_append, hread]
  rfl

theorem readsBack_arr {indent : Option Int} {items : List Json} (hitems : ∀ v ∈ items, Plain v)
    (hread : ∀ v ∈ items, ReadsBack indent v) : ReadsBack indent (.arr items) := by
  refine (Plain.arr hitems).readsBack_of_succ fun depth bound rest hbound => ?_
  cases items with
  | nil => rfl
  | cons item items =>
    simp only [write, List.cons_append, List.append_assoc, List.nil_append, List.length_cons,
      List.length_append, List.length_nil] at hbound ⊢
    have hitem := hitems item List.mem_cons_self
    obtain ⟨c, text, heq, -, hc⟩ := exists_write_eq_cons hitem indent (depth + 1)
    refine readValue_of_items ((skipSpace_append (isSpace_of_mem_lineBreak _ _) _).trans
      (skipSpace_write hitem _ _ _)) ?_ (readItems_write hitems hread (by omega))
    rw [heq]
    exact mt Option.some.inj hc

theorem readsBack_obj {indent : Option Int} {members : List (LooseText × Json)}
    (hnames : AreNames (members.map Prod.fst)) (hvalues : ∀ v ∈ members.map Prod.snd, Plain v)
    (hread : ∀ v ∈ members.map Prod.snd, ReadsBack indent v) :
    ReadsBack indent (.obj members) := by
  refine (Plain.obj hnames hvalues).readsBack_of_succ fun depth bound rest hbound => ?_
  cases members with
  | nil => rfl
  | cons m members =>
    simp only [write, List.cons_append, List.append_assoc, List.nil_append, List.length_cons,
      List.length_append, List.length_nil] at hbound ⊢
    -- The reader puts the members one by one, and as no name occurs twice they all stay.
    rw [← ofMembers_of_nodup hnames.1]
    exact readValue_of_members ((skipSpace_append (isSpace_of_mem_lineBreak _ _) _).trans
      (skipSpace_writeString _ _)) (show some '"' ≠ some '\x7d' by decide)
      (readMembers_write hnames.2 hvalues hread (by omega))

theorem Plain.readsBack (hv : Plain v) (indent : Option Int) : ReadsBack indent v := by
  induction hv with
  | null => exact Plain.null.readsBack_of_succ fun depth bound rest _ => rfl
  | bool value =>
    refine (Plain.bool value).readsBack_of_succ fun depth bound rest _ => ?_
    cases value <;> rfl
  | str htext => exact readsBack_str htext indent
  | arr hitems ih => exact readsBack_arr hitems ih
  | obj hnames hvalues ih => exact readsBack_obj hnames hvalues ih

/-- What is written is read back, in any layout. -/
theorem Plain.parse?_render (hv : Plain v) (indent : Option Int) :
    parse? (v.render indent) = some v := by
  have hskip : skipSpace (write indent 0 v) = write indent 0 v ++ [] := by
    rw [← skipSpace_write hv, List.append_nil]
  have hread := hv.readsBack indent 0 (2 * (write indent 0 v).length + 2) [] (by omega)
  simp only [parse?, render, String.toList_ofList, hskip, hread]
  rfl

theorem Plain.render_ne_empty (hv : Plain v) (indent : Option Int) : v.render indent ≠ "" := by
  obtain ⟨c, rest, heq, -⟩ := exists_write_eq_cons hv indent 0
  rw [render, heq, Ne, ← String.toList_eq_nil_iff, String.toList_ofList]
  exact List.cons_ne_nil c rest

end Value

section Line

theorem plain_writeString {text : LooseText} (htext : Unescaped text) :
    Text.Plain (writeString text) := by
  obtain ⟨chars, hwrite, hchars, -⟩ := htext.exists_writeString_eq
  simp [hwrite, hchars]

theorem plain_writeItems {depth : Nat} {items : List Json}
    (hitems : ∀ v ∈ items, Text.Plain (write none depth v)) :
    Text.Plain (writeItems none depth items) := by
  induction items with
  | nil => simp [writeItems]
  | cons item items ih =>
    obtain ⟨hitem, hitems⟩ := List.forall_mem_cons.mp hitems
    simp [writeItems, separator, hitem, ih hitems]

theorem plain_writeMembers {depth : Nat} {members : List (LooseText × Json)}
    (hnames : ∀ name ∈ members.map Prod.fst, Unescaped name)
    (hvalues : ∀ v ∈ members.map Prod.snd, Text.Plain (write none depth v)) :
    Text.Plain (writeMembers none depth members) := by
  induction members with
  | nil => simp [writeMembers]
  | cons m members ih =>
    obtain ⟨hname, hnames⟩ := List.forall_mem_cons.mp hnames
    obtain ⟨hvalue, hvalues⟩ := List.forall_mem_cons.mp hvalues
    simp [writeMembers, separator, plain_writeString hname, hvalue, ih hnames hvalues]

/-- Without an indent a value takes one line. -/
theorem Plain.plain_write {v : Json} (hv : Plain v) (depth : Nat) :
    Text.Plain (write none depth v) := by
  induction hv generalizing depth with
  | null =>
    rw [write]
    decide
  | bool value =>
    cases value
    all_goals
      rw [write]
      decide
  | str htext =>
    rw [write]
    exact plain_writeString htext
  | @arr items hitems ih =>
    cases items with
    | nil => simp [write]
    | cons item items =>
      obtain ⟨hitem, hitems⟩ := List.forall_mem_cons.mp fun v hv => ih v hv (depth + 1)
      simp [write, lineBreak, hitem, plain_writeItems hitems]
  | @obj members hnames hvalues ih =>
    cases members with
    | nil => simp [write]
    | cons m members =>
      obtain ⟨hname, hnames⟩ := List.forall_mem_cons.mp hnames.2
      obtain ⟨hvalue, hvalues⟩ := List.forall_mem_cons.mp fun v hv => ih v hv (depth + 1)
      simp [write, lineBreak, plain_writeString hname, hvalue, plain_writeMembers hnames hvalues]

theorem Plain.isLine_render {v : Json} (hv : Plain v) : Text.IsLine (v.render none) := by
  rw [Text.IsLine, render, String.toList_ofList]
  exact (hv.plain_write 0).isLineBreak

end Line

end Json

end TokiPona
