import ClassForge.TypeRef.Parser

/-!
# The texts of type references

Not every reference has a text that can be read as the reference again. A class called `int`, a
variable that is not in scope, an array of `void` and the placeholder for a declaring type would
all be read as something else, or not at all. The references that have one are called *well formed*
here; what a name means where some type variables are in scope decides on most of them. Of type
arguments nothing is asked beyond their own form, so `void` and primitive types may stand there.

A text is read in two steps, and this module is about the first, in which it is cut into parts.
The text of a well-formed reference is cut into the parts that the reference says it has, whatever
follows it, because its names are longest runs of name characters: what stands behind a name is
never one. In the other direction, the parts of any text are names made of name characters.

## Main definitions

* `TypeRef.IsNameText`, `TypeRef.IsClassName` — texts that are read as names, and as names of
  classes
* `TypeRef.WellFormed` — references that have a text of their own
* `TypeRef.parts` — the parts of the text of a reference
* `TypeRef.Token.NamesClean` — names among parts are made of name characters

## Main results

* `TypeRef.isNameChar_of_isBlank` — no blank may stand in a name
* `TypeRef.Parser.wellFormed_meaning` — whatever a name means is well formed
* `TypeRef.Token.ofChars_display` — a text is cut into the parts of its reference
* `TypeRef.Token.namesClean_ofChars` — what is known of the parts of any text
-/

namespace ClassForge.TypeRef

variable {scope : List TypeVariable}

/-! ### Well-formed references -/

/-- A text that is read as one name: name characters only, at least one, and no dot at either
end. -/
structure IsNameText (text : String) : Prop where
  chars : ∀ c ∈ text.toList, isNameChar c = true
  nonempty : text ≠ ""
  noLeadingDot : text.toList.head? ≠ some '.'
  noTrailingDot : text.toList.getLast? ≠ some '.'

/-- A name that means a class: it is no keyword, and no type variable in scope has it. -/
structure IsClassName (scope : List TypeVariable) (name : String) : Prop extends
    IsNameText name where
  notVoid : name ≠ "void"
  notPrimitive : ∀ p : Primitive, p.keyword ≠ name
  notVariable : ∀ v ∈ scope, v.symbol ≠ name

/-- A symbol that means a type variable with the given bound: the first variable in scope that
has the symbol is declared with a bound of that erasure. -/
structure IsVariable (scope : List TypeVariable) (symbol : String) (bound : TypeRef) : Prop extends
    IsNameText symbol where
  notVoid : symbol ≠ "void"
  notPrimitive : ∀ p : Primitive, p.keyword ≠ symbol
  first : ∃ v, scope.find? (·.symbol = symbol) = some v ∧ bound = v.bound.erasure

mutual

/-- The reference has a text of its own where the given type variables are in scope. Bounds of
variables are not looked into. -/
def WellFormed (scope : List TypeVariable) : TypeRef → Prop
  | void => True
  | primitive _ => True
  | named name => IsClassName scope name
  | parameterized raw arguments =>
    IsClassName scope raw ∧ arguments ≠ [] ∧ WellFormedAll scope arguments
  | typeVar symbol bound => IsVariable scope symbol bound
  | array component => component ≠ void ∧ WellFormed scope component
  | target => False

/-- All references of a list are well formed. -/
def WellFormedAll (scope : List TypeVariable) : List TypeRef → Prop
  | [] => True
  | t :: ts => WellFormed scope t ∧ WellFormedAll scope ts

end

@[simp] theorem wellFormed_named {name : String} :
    (named name).WellFormed scope ↔ IsClassName scope name := by rw [WellFormed]

@[simp] theorem wellFormed_parameterized {raw : String} {arguments : List TypeRef} :
    (parameterized raw arguments).WellFormed scope ↔
      IsClassName scope raw ∧ arguments ≠ [] ∧ WellFormedAll scope arguments := by rw [WellFormed]

@[simp] theorem wellFormed_typeVar {symbol : String} {bound : TypeRef} :
    (typeVar symbol bound).WellFormed scope ↔ IsVariable scope symbol bound := by rw [WellFormed]

@[simp] theorem wellFormed_array {c : TypeRef} :
    (array c).WellFormed scope ↔ c ≠ void ∧ c.WellFormed scope := by rw [WellFormed]

@[simp] theorem not_wellFormed_target : ¬ target.WellFormed scope := by rw [WellFormed]; exact id

/-! ### Characters -/

/-- The code points of a set of characters. -/
def codePoints (s : Text.Intervals) : List Nat := s.flatMap fun i => List.range' i.1 (i.2 + 1 - i.1)

theorem mem_codePoints {s : Text.Intervals} {c : Char} (h : s.contains c = true) :
    c.toNat ∈ codePoints s := by
  rw [Text.Intervals.contains, List.any_eq_true] at h
  obtain ⟨i, hi, hc⟩ := h
  simp only [Bool.and_eq_true, decide_eq_true_eq] at hc
  rw [codePoints, List.mem_flatMap]
  exact ⟨i, hi, List.mem_range'_1.2 (by omega)⟩

/-- No blank may stand in a name. -/
theorem isNameChar_of_isBlank {c : Char} (h : Text.isBlank c = true) : isNameChar c = false := by
  have hall : ∀ n ∈ codePoints Text.blankIntervals, isNameChar (Char.ofNat n) = false := by
    decide +kernel
  simpa [Char.ofNat_toNat] using hall _ (mem_codePoints h)

theorem isBlank_of_isNameChar {c : Char} (h : isNameChar c = true) : Text.isBlank c = false := by
  cases hb : Text.isBlank c with
  | false => rfl
  | true => simp [isNameChar_of_isBlank hb] at h

theorem trimBlanks_eq_self {cs : List Char} (hfirst : ∃ c ∈ cs.head?, Text.isBlank c = false)
    (hlast : ∃ c ∈ cs.getLast?, Text.isBlank c = false) : Text.trimBlanks cs = cs := by
  obtain ⟨c, hc, hcb⟩ := hfirst
  obtain ⟨d, hd, hdb⟩ := hlast
  have hfront : cs.dropWhile Text.isBlank = cs := by
    cases cs with
    | nil => rfl
    | cons x xs => simp_all
  have hback : cs.reverse.dropWhile Text.isBlank = cs.reverse := by
    rw [← List.head?_reverse] at hd
    generalize cs.reverse = ds at hd
    cases ds with
    | nil => rfl
    | cons x xs => simp_all
  rw [Text.trimBlanks, hfront, hback, List.reverse_reverse]

/-! ### Names -/

namespace IsNameText

theorem isName {text : String} (h : IsNameText text) : Parser.isName text = true := by
  simp [Parser.isName, h.nonempty, h.noLeadingDot, h.noTrailingDot]

theorem of_isName {text : String} (h : Parser.isName text = true)
    (hc : ∀ c ∈ text.toList, isNameChar c = true) : IsNameText text := by
  simp only [Parser.isName, Bool.and_eq_true, Bool.not_eq_true', bne_iff_ne] at h
  exact ⟨hc, by simpa using h.1.1, h.1.2, h.2⟩

theorem void : IsNameText "void" :=
  ⟨List.all_eq_true.1 (by decide), by decide, by decide, by decide⟩

theorem keyword (p : Primitive) : IsNameText p.keyword := by
  cases p <;> exact ⟨List.all_eq_true.1 (by decide), by decide, by decide, by decide⟩

end IsNameText

theorem ofKeyword?_keyword (p : Primitive) : Primitive.ofKeyword? p.keyword = some p := by
  cases p <;> decide

theorem ofKeyword?_eq_none_iff {text : String} :
    Primitive.ofKeyword? text = none ↔ ∀ p : Primitive, p.keyword ≠ text := by
  have hall : ∀ p : Primitive, p ∈ Primitive.all := by intro p; cases p <;> decide
  simp [Primitive.ofKeyword?, hall]

namespace Parser

@[simp] theorem meaning_void : meaning scope "void" = void := rfl

@[simp] theorem meaning_keyword (p : Primitive) : meaning scope p.keyword = primitive p := by
  have hvoid : p.keyword ≠ "void" := by cases p <;> decide
  rw [meaning, if_neg hvoid, ofKeyword?_keyword]

theorem meaning_className {name : String} (h : IsClassName scope name) :
    meaning scope name = named name := by
  have hnone : scope.find? (·.symbol = name) = none := by simpa using h.notVariable
  rw [meaning, if_neg h.notVoid, ofKeyword?_eq_none_iff.2 h.notPrimitive, hnone]

theorem meaning_variable {symbol : String} {bound : TypeRef} (h : IsVariable scope symbol bound) :
    meaning scope symbol = typeVar symbol bound := by
  obtain ⟨v, hv, rfl⟩ := h.first
  have hsymbol : v.symbol = symbol := by simpa using List.find?_some hv
  rw [meaning, if_neg h.notVoid, ofKeyword?_eq_none_iff.2 h.notPrimitive, hv]
  simp [hsymbol]

/-- Whatever a name means is well formed, and has type arguments under no name but that of a
class. -/
theorem wellFormed_meaning {text : String} (h : IsNameText text) :
    (meaning scope text).WellFormed scope := by
  by_cases hvoid : text = "void"
  · simp [meaning, hvoid, WellFormed]
  rw [meaning, if_neg hvoid]
  cases hp : Primitive.ofKeyword? text with
  | some p => simp [WellFormed]
  | none =>
    have hprimitive := ofKeyword?_eq_none_iff.1 hp
    cases hv : scope.find? (·.symbol = text) with
    | some v =>
      have hsymbol : v.symbol = text := by simpa using List.find?_some hv
      simp only [hsymbol, wellFormed_typeVar]
      exact { h with notVoid := hvoid, notPrimitive := hprimitive, first := ⟨v, hv, rfl⟩ }
    | none =>
      simp only [wellFormed_named]
      exact { h with
        notVoid := hvoid, notPrimitive := hprimitive, notVariable := by simpa using hv }

end Parser

/-! ### The parts of a text -/

namespace Token

/-- What may follow a name in a text: nothing, or a character that is in no name. -/
def Separated (cs : List Char) : Prop := ∀ c ∈ cs.head?, isNameChar c = false

theorem scan_of_isNameChar {c : Char} (h : isNameChar c = true) (cs : List Char) :
    scan (c :: cs) = (c :: (scan cs).1, (scan cs).2) := by
  have hbracket : c ≠ '[' := by rintro rfl; revert h; decide
  rw [scan]
  · simp [h]
  · rintro _ rfl
    exact absurd rfl hbracket

theorem scan_append {word : List Char} (h : ∀ c ∈ word, isNameChar c = true) (cs : List Char) :
    scan (word ++ cs) = (word ++ (scan cs).1, (scan cs).2) := by
  induction word with
  | nil => rfl
  | cons c word ih =>
    have hw := ih fun d hd => h d (List.mem_cons_of_mem _ hd)
    rw [List.cons_append, scan_of_isNameChar (h c List.mem_cons_self), hw]
    rfl

theorem ofChars_brackets (cs : List Char) :
    ofChars ('[' :: ']' :: cs) = brackets :: ofChars cs := rfl

theorem scan_fst_of_separated {cs : List Char} (h : Separated cs) : (scan cs).1 = [] := by
  unfold scan
  split
  · rfl
  · rfl
  · simp [h _ rfl]

/-- A name and what follows it. -/
theorem ofChars_name {text : String} (h : IsNameText text) {cs : List Char} (hcs : Separated cs) :
    ofChars (text.toList ++ cs) = .name text :: ofChars cs := by
  have hne : text.toList ≠ [] := by simpa using h.nonempty
  have hscan := scan_fst_of_separated hcs
  simp [ofChars, scan_append h.chars, hscan, startName, hne]

/-- A single character that is in no name and opens no brackets is a part. -/
theorem ofChars_single {c : Char} {cs : List Char} (h : isNameChar c = false)
    (hbrackets : ∀ es, c :: cs ≠ '[' :: ']' :: es) :
    ofChars (c :: cs) = ofChar c :: ofChars cs := by
  rw [ofChars, scan]
  · simp [h, startName, ofChars]
  · rintro es rfl rfl
    exact hbrackets es rfl

theorem ofChars_cons {c : Char} (h : isNameChar c = false) (hc : c ≠ '[') (cs : List Char) :
    ofChars (c :: cs) = ofChar c :: ofChars cs :=
  ofChars_single h fun _ heq => hc (List.cons.inj heq).1

end Token

mutual

/-- The parts of the text of a reference. -/
def parts : TypeRef → List Token
  | void => [.name "void"]
  | primitive p => [.name p.keyword]
  | named name => [.name name]
  | parameterized raw arguments =>
    .name raw :: .openArguments :: (partsAll arguments ++ [.closeArguments])
  | typeVar symbol _ => [.name symbol]
  | array component => component.parts ++ [.brackets]
  | target => []

/-- The parts of several references with a comma and a blank between them. -/
def partsAll : List TypeRef → List Token
  | [] => []
  | [t] => t.parts
  | t :: ts => t.parts ++ .comma :: .blank :: partsAll ts

end

theorem partsAll_cons_cons (t u : TypeRef) (us : List TypeRef) :
    partsAll (t :: u :: us) = t.parts ++ .comma :: .blank :: partsAll (u :: us) := by
  rw [partsAll]
  simp

theorem displayAll_cons_cons (t u : TypeRef) (us : List TypeRef) :
    displayAll (t :: u :: us) = t.display ++ ", " ++ displayAll (u :: us) := by
  rw [displayAll]
  simp

namespace Token

theorem ofChar_space : ofChar ' ' = blank := by decide

mutual

/-- **A text is cut into the parts of its reference**, whatever follows it in a text. -/
theorem ofChars_display : (t : TypeRef) → t.WellFormed scope → {cs : List Char} → Separated cs →
    ofChars (t.display.toList ++ cs) = t.parts ++ ofChars cs
  | void, _, _, hcs => ofChars_name .void hcs
  | primitive p, _, _, hcs => ofChars_name (.keyword p) hcs
  | named _, h, _, hcs => ofChars_name (wellFormed_named.1 h).toIsNameText hcs
  | parameterized raw arguments, h, cs, hcs => by
    obtain ⟨hraw, -, harguments⟩ := wellFormed_parameterized.1 h
    have hclose : Separated ('>' :: cs) := by simp [Separated]; decide
    have hopen : Separated ('<' :: (displayAll arguments).toList ++ '>' :: cs) := by
      simp [Separated]; decide
    have htext : (parameterized raw arguments).display.toList ++ cs =
        raw.toList ++ ('<' :: (displayAll arguments).toList ++ '>' :: cs) := by
      simp [display]
    rw [htext, ofChars_name hraw.toIsNameText hopen, List.cons_append,
      ofChars_cons (by decide) (by decide), ofChars_displayAll arguments harguments hclose,
      ofChars_cons (by decide) (by decide), parts]
    simp [ofChar]
  | typeVar _ _, h, _, hcs => ofChars_name (wellFormed_typeVar.1 h).toIsNameText hcs
  | array c, h, cs, hcs => by
    have hbrackets : Separated ('[' :: ']' :: cs) := by simp [Separated]; decide
    have htext : (array c).display.toList ++ cs = c.display.toList ++ '[' :: ']' :: cs := by
      simp [display]
    rw [htext, ofChars_display c (wellFormed_array.1 h).2 hbrackets, ofChars_brackets, parts]
    simp
  | target, h, _, _ => absurd h not_wellFormed_target

/-- `ofChars_display` for several references with commas between them. -/
theorem ofChars_displayAll : (ts : List TypeRef) → WellFormedAll scope ts → {cs : List Char} →
    Separated cs → ofChars ((displayAll ts).toList ++ cs) = partsAll ts ++ ofChars cs
  | [], _, _, _ => by simp [displayAll, partsAll]
  | [t], h, _, hcs => by
    rw [displayAll, partsAll, ofChars_display t (by simpa [WellFormedAll] using h) hcs]
  | t :: u :: us, h, cs, hcs => by
    rw [WellFormedAll] at h
    have hcomma : Separated (',' :: ' ' :: ((displayAll (u :: us)).toList ++ cs)) := by
      simp [Separated]; decide
    have htext : (displayAll (t :: u :: us)).toList ++ cs =
        t.display.toList ++ ',' :: ' ' :: ((displayAll (u :: us)).toList ++ cs) := by
      simp [displayAll_cons_cons]
    rw [htext, ofChars_display t h.1 hcomma, ofChars_cons (by decide) (by decide),
      ofChars_cons (by decide) (by decide), ofChar_space, ofChars_displayAll (u :: us) h.2 hcs,
      partsAll_cons_cons]
    simp [ofChar]

end

end Token

/-! ### The parts of any text -/

namespace Token

/-- The names among some parts are made of name characters. -/
def NamesClean (ps : List Token) : Prop :=
  ∀ text, .name text ∈ ps → ∀ c ∈ text.toList, isNameChar c = true

theorem NamesClean.of_suffix {ps qs : List Token} (h : NamesClean ps) (hs : qs <:+ ps) :
    NamesClean qs := fun text ht => h text (hs.subset ht)

theorem ofChar_ne_name (c : Char) (text : String) : ofChar c ≠ .name text := by
  unfold ofChar
  split <;> try split <;> try split
  all_goals simp

theorem namesClean_startName {word : List Char} {ps : List Token}
    (hword : ∀ c ∈ word, isNameChar c = true) (hps : NamesClean ps) :
    NamesClean (startName word ps) := by
  unfold startName
  split
  · exact hps
  · intro text ht
    rcases List.mem_cons.1 ht with h | h
    · obtain rfl := Token.name.inj h
      simpa using hword
    · exact hps text h

/-- Cutting collects runs of name characters, so whatever it makes a name is one. -/
theorem namesClean_scan (cs : List Char) :
    (∀ c ∈ (scan cs).1, isNameChar c = true) ∧ NamesClean (scan cs).2 := by
  fun_induction scan cs with
  | case1 => simp [NamesClean]
  | case2 cs ih =>
    have hrest := namesClean_startName ih.1 ih.2
    refine ⟨by simp, fun text ht => hrest text ?_⟩
    simpa using ht
  | case3 c cs _ word ps hscan hc ih =>
    rw [hscan] at ih
    exact ⟨List.forall_mem_cons.2 ⟨hc, ih.1⟩, ih.2⟩
  | case4 c cs _ word ps hscan hc ih =>
    rw [hscan] at ih
    have hrest := namesClean_startName ih.1 ih.2
    refine ⟨by simp, fun text ht => hrest text ?_⟩
    simpa [(ofChar_ne_name c text).symm] using ht

theorem namesClean_ofChars (cs : List Char) : NamesClean (ofChars cs) :=
  namesClean_startName (namesClean_scan cs).1 (namesClean_scan cs).2

end Token

end ClassForge.TypeRef
