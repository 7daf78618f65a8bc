import ClassForge.Proofs.Outcomes
import ClassForge.Proofs.TypeTexts

/-!
# Type names written and read back

A reference that is written can be read again, and what is read is the reference that was written:
this holds of the well-formed references, and reading answers with no others.

The text is cut into the parts of the reference first (`Token.ofChars_display`). The grammar then
reads these parts one after the other; every lemma about it leaves the rest of the parts open, so
that type arguments and brackets can follow, and the fuel that reading takes is bounded by the
number of parts. For the converse every step of the grammar keeps what it has read so far well
formed, and leaves an end of the parts it was given.

## Main definitions

* `TypeRef.Parser.Follows` — what may stand behind a type

## Main results

* `TypeRef.Parser.type_parts` — the grammar reads the parts of a reference
* `TypeRef.Parser.wellFormed_of_type` — what the grammar reads is well formed
* `TypeRef.parse_display_iff` — reading undoes writing on the well-formed references, and reads no
  other
-/

namespace ClassForge.TypeRef

variable {scope : List TypeVariable}

/-! ### Reading what was written -/

namespace Parser

/-- What may follow a type among the parts of a text: nothing, brackets, or the comma or the angle
bracket that ends a type argument. -/
def Follows (ps : List Token) : Prop :=
  ∀ p ∈ ps.head?, p = .brackets ∨ p = .comma ∨ p = .closeArguments

/-- What may follow a type with all its brackets. -/
def Ends (ps : List Token) : Prop := ∀ p ∈ ps.head?, p = .comma ∨ p = .closeArguments

theorem Ends.follows {ps : List Token} (h : Ends ps) : Follows ps := fun p hp => .inr (h p hp)

theorem arrayOf_of_ends {t : TypeRef} {ps : List Token} (h : Ends ps) :
    arrayOf t ps = .ok (t, ps) := by
  match ps, h with
  | [], _ => rfl
  | p :: ps, h => rcases h p rfl with rfl | rfl <;> rfl

theorem arrayOf_brackets {t : TypeRef} (h : t ≠ void) (ps : List Token) :
    arrayOf t (.brackets :: ps) = arrayOf (array t) ps := by
  rw [arrayOf, if_neg (by simpa using h)]

theorem type_blank (n : Nat) (ps : List Token) :
    type scope n (.blank :: ps) = type scope n ps := by
  cases n with
  | zero => rfl
  | succ n => simp [type, skipBlanks]

/-- Reading a name without type arguments. -/
theorem type_name {text : String} (h : IsNameText text) (n : Nat) {ps : List Token}
    (hps : Follows ps) :
    type scope (n + 1) (.name text :: ps) = arrayOf (meaning scope text) ps := by
  rw [type]
  simp only [skipBlanks, bind, Except.bind, h.isName, if_true]
  match ps, hps with
  | [], _ => rfl
  | p :: ps, hps => rcases hps p rfl with rfl | rfl | rfl <;> rfl

/-- Reading a name with type arguments. -/
theorem type_parameterized {raw : String} (h : IsClassName scope raw) {n : Nat}
    {ps rest : List Token} {ts : List TypeRef} (hts : arguments scope n ps = .ok (ts, rest)) :
    type scope (n + 1) (.name raw :: .openArguments :: ps) =
      arrayOf (parameterized raw ts) rest := by
  rw [type]
  simp [skipBlanks, bind, Except.bind, h.toIsNameText.isName, meaning_className h, hts]

/-- Reading the last type argument. -/
theorem arguments_last {n : Nat} {ps rest : List Token} {t : TypeRef}
    (ht : type scope n ps = .ok (t, .closeArguments :: rest)) :
    arguments scope (n + 1) ps = .ok ([t], rest) := by
  rw [arguments, ht]
  rfl

/-- Reading a type argument that others follow. -/
theorem arguments_comma {n : Nat} {ps qs rest : List Token} {t : TypeRef} {ts : List TypeRef}
    (ht : type scope n ps = .ok (t, .comma :: qs)) (hts : arguments scope n qs = .ok (ts, rest)) :
    arguments scope (n + 1) ps = .ok (t :: ts, rest) := by
  rw [arguments, ht]
  simp [skipBlanks, bind, Except.bind, hts]
  rfl

theorem arguments_blank (n : Nat) (ps : List Token) :
    arguments scope n (.blank :: ps) = arguments scope n ps := by
  cases n with
  | zero => rfl
  | succ n => rw [arguments, type_blank, arguments]

mutual

/-- **The grammar reads the parts of a reference** and goes on with the brackets that follow. -/
theorem type_parts : (t : TypeRef) → t.WellFormed scope → {n : Nat} → t.parts.length ≤ n →
    {ps : List Token} → Follows ps → type scope n (t.parts ++ ps) = arrayOf t ps
  | void, _, n + 1, _, _, hps => type_name .void n hps
  | primitive p, _, n + 1, _, _, hps => by
    rw [parts, List.singleton_append, type_name (.keyword p) n hps, meaning_keyword]
  | named name, h, n + 1, _, _, hps => by
    have hname := wellFormed_named.1 h
    rw [parts, List.singleton_append, type_name hname.toIsNameText n hps, meaning_className hname]
  | parameterized raw ts, h, n + 1, hn, ps, hps => by
    obtain ⟨hraw, hne, hts⟩ := wellFormed_parameterized.1 h
    have hlength : (partsAll ts).length < n := by
      rw [parts] at hn
      simp at hn
      omega
    have harguments := arguments_parts ts hts hne hlength ps
    simpa [parts] using type_parameterized hraw harguments
  | typeVar symbol bound, h, n + 1, _, _, hps => by
    have hvariable := wellFormed_typeVar.1 h
    rw [parts, List.singleton_append, type_name hvariable.toIsNameText n hps,
      meaning_variable hvariable]
  | array c, h, n, hn, ps, hps => by
    obtain ⟨hvoid, hc⟩ := wellFormed_array.1 h
    have hlength : c.parts.length ≤ n := by
      rw [parts] at hn
      simp at hn
      omega
    have hbrackets : Follows (.brackets :: ps) := by simp [Follows]
    rw [parts, List.append_assoc, List.singleton_append, type_parts c hc hlength hbrackets,
      arrayOf_brackets hvoid]
  | target, h, _, _, _, _ => absurd h not_wellFormed_target

/-- `type_parts` for type arguments, which are read up to what closes them. -/
theorem arguments_parts : (ts : List TypeRef) → WellFormedAll scope ts → ts ≠ [] → {n : Nat} →
    (partsAll ts).length < n → (ps : List Token) →
    arguments scope n (partsAll ts ++ .closeArguments :: ps) = .ok (ts, ps)
  | [t], h, _, n + 1, hn, ps => by
    have hends : Ends (.closeArguments :: ps) := by simp [Ends]
    have ht := type_parts t (by simpa [WellFormedAll] using h) (Nat.le_of_lt_succ hn) hends.follows
    rw [arrayOf_of_ends hends] at ht
    exact arguments_last ht
  | t :: u :: us, h, _, n + 1, hn, ps => by
    rw [WellFormedAll] at h
    rw [partsAll_cons_cons] at hn ⊢
    simp only [List.length_append, List.length_cons] at hn
    have hfirst : t.parts.length ≤ n := by omega
    have hrest : (partsAll (u :: us)).length < n := by omega
    have hends : Ends (.comma :: .blank :: (partsAll (u :: us) ++ .closeArguments :: ps)) := by
      simp [Ends]
    have ht := type_parts t h.1 hfirst hends.follows
    rw [arrayOf_of_ends hends] at ht
    have hus := arguments_parts (u :: us) h.2 (by simp) hrest ps
    rw [← arguments_blank] at hus
    simpa using arguments_comma ht hus

end

end Parser

/-! ### What is read -/

namespace Parser

open Token (NamesClean)

theorem suffix_of_skipBlanks {ps qs : List Token} (h : skipBlanks ps = .ok qs) : qs <:+ ps := by
  fun_induction skipBlanks ps with
  | case1 ps ih => exact (ih h).trans (List.suffix_cons _ _)
  | case2 ps => cases h
  | case3 ps => exact Except.ok.inj h ▸ List.suffix_refl _

/-- Brackets make arrays of a well-formed reference, and arrays of `void` are refused. -/
theorem wellFormed_of_arrayOf {t u : TypeRef} {ps rest : List Token} (ht : t.WellFormed scope)
    (h : arrayOf t ps = .ok (u, rest)) : u.WellFormed scope ∧ rest <:+ ps := by
  fun_induction arrayOf t ps with
  | case1 t ps ih =>
    obtain ⟨hu, hs⟩ := ih ht h
    exact ⟨hu, hs.trans (List.suffix_cons _ _)⟩
  | case2 => cases h
  | case3 => cases h
  | case4 t ps hvoid ih =>
    obtain ⟨hu, hs⟩ := ih (wellFormed_array.2 ⟨by simpa using hvoid, ht⟩) h
    exact ⟨hu, hs.trans (List.suffix_cons _ _)⟩
  | case5 t ps =>
    obtain ⟨rfl, rfl⟩ := Prod.mk.inj (Except.ok.inj h)
    exact ⟨ht, List.suffix_refl _⟩

/-- What reading a type comes down to: a name, type arguments if the name is that of a class and
an angle bracket follows, and brackets. -/
theorem exists_of_type {n : Nat} {ps rest : List Token} {t : TypeRef}
    (h : type scope (n + 1) ps = .ok (t, rest)) :
    ∃ text qs rs, skipBlanks ps = .ok (.name text :: qs) ∧ isName text = true ∧
      skipBlanks qs = .ok rs ∧
      (arrayOf (meaning scope text) rs = .ok (t, rest) ∨
        ∃ raw ss ts us, rs = .openArguments :: ss ∧ meaning scope text = named raw ∧
          arguments scope n ss = .ok (ts, us) ∧
          arrayOf (parameterized raw ts) us = .ok (t, rest)) := by
  rw [type] at h
  obtain ⟨qs, hqs, h⟩ := ok_of_bind h
  split at h
  · rename_i text qs
    split at h
    · rename_i hname
      obtain ⟨rs, hrs, h⟩ := ok_of_bind h
      refine ⟨text, qs, rs, hqs, hname, hrs, ?_⟩
      split at h
      · rename_i ss
        split at h
        · rename_i raw hraw
          obtain ⟨⟨ts, us⟩, hts, h⟩ := ok_of_bind h
          exact .inr ⟨raw, ss, ts, us, rfl, hraw, hts, h⟩
        · cases h
      · exact .inl h
    · cases h
  · cases h

/-- What reading type arguments comes down to: a type, and either the end or a comma and more. -/
theorem exists_of_arguments {n : Nat} {ps rest : List Token} {ts : List TypeRef}
    (h : arguments scope (n + 1) ps = .ok (ts, rest)) :
    ∃ t qs, type scope n ps = .ok (t, qs) ∧
      ((skipBlanks qs = .ok (.closeArguments :: rest) ∧ ts = [t]) ∨
        ∃ rs us, skipBlanks qs = .ok (.comma :: rs) ∧ arguments scope n rs = .ok (us, rest) ∧
          ts = t :: us) := by
  rw [arguments] at h
  obtain ⟨⟨t, qs⟩, ht, h⟩ := ok_of_bind h
  refine ⟨t, qs, ht, ?_⟩
  obtain ⟨rs, hrs, h⟩ := ok_of_bind h
  split at h
  · rename_i rs
    obtain ⟨⟨us, rest'⟩, hus, h⟩ := ok_of_bind h
    obtain ⟨rfl, rfl⟩ := Prod.mk.inj (Except.ok.inj h)
    exact .inr ⟨rs, us, hrs, hus, rfl⟩
  · obtain ⟨rfl, rfl⟩ := Prod.mk.inj (Except.ok.inj h)
    exact .inl ⟨hrs, rfl⟩
  · cases h

mutual

/-- **What the grammar reads is well formed**, and what it leaves is the end of the parts. -/
theorem wellFormed_of_type : (n : Nat) → {ps rest : List Token} → {t : TypeRef} → NamesClean ps →
    type scope n ps = .ok (t, rest) → t.WellFormed scope ∧ rest <:+ ps
  | 0, _, _, _, _, h => by cases h
  | n + 1, ps, rest, t, hps, h => by
    obtain ⟨text, qs, rs, hqs, hname, hrs, h⟩ := exists_of_type h
    have hsuffix : rs <:+ ps :=
      ((suffix_of_skipBlanks hrs).trans (List.suffix_cons _ qs)).trans (suffix_of_skipBlanks hqs)
    have htext : IsNameText text :=
      .of_isName hname (hps text ((suffix_of_skipBlanks hqs).subset List.mem_cons_self))
    have hmeaning : (meaning scope text).WellFormed scope := wellFormed_meaning htext
    rcases h with h | ⟨raw, ss, ts, us, rfl, hraw, hts, h⟩
    · obtain ⟨ht, hrest⟩ := wellFormed_of_arrayOf hmeaning h
      exact ⟨ht, hrest.trans hsuffix⟩
    · have hss := (List.suffix_cons _ ss).trans hsuffix
      rw [hraw, wellFormed_named] at hmeaning
      obtain ⟨hne, hall, hus⟩ := wellFormed_of_arguments n (hps.of_suffix hss) hts
      obtain ⟨ht, hrest⟩ :=
        wellFormed_of_arrayOf (wellFormed_parameterized.2 ⟨hmeaning, hne, hall⟩) h
      exact ⟨ht, hrest.trans (hus.trans hss)⟩

/-- `wellFormed_of_type` for type arguments, of which there is at least one. -/
theorem wellFormed_of_arguments : (n : Nat) → {ps rest : List Token} → {ts : List TypeRef} →
    NamesClean ps → arguments scope n ps = .ok (ts, rest) →
    ts ≠ [] ∧ WellFormedAll scope ts ∧ rest <:+ ps
  | 0, _, _, _, _, h => by cases h
  | n + 1, ps, rest, ts, hps, h => by
    obtain ⟨t, qs, ht, h⟩ := exists_of_arguments h
    obtain ⟨ht, hqs⟩ := wellFormed_of_type n hps ht
    rcases h with ⟨hclose, rfl⟩ | ⟨rs, us, hcomma, hus, rfl⟩
    · have hrest := (List.suffix_cons _ rest).trans (suffix_of_skipBlanks hclose)
      exact ⟨by simp, by simp [WellFormedAll, ht], hrest.trans hqs⟩
    · have hrs := ((List.suffix_cons _ rs).trans (suffix_of_skipBlanks hcomma)).trans hqs
      obtain ⟨-, hall, hrest⟩ := wellFormed_of_arguments n (hps.of_suffix hrs) hus
      exact ⟨by simp, by rw [WellFormedAll]; exact ⟨ht, hall⟩, hrest.trans hrs⟩

end

end Parser

/-! ### Whole texts -/

theorem IsNameText.exists_head? {text : String} (h : IsNameText text) :
    ∃ c ∈ text.toList.head?, isNameChar c = true := by
  have hne : text.toList ≠ [] := by simpa using h.nonempty
  exact ⟨_, List.head?_eq_some_head hne, h.chars _ (List.head_mem hne)⟩

theorem IsNameText.exists_getLast? {text : String} (h : IsNameText text) :
    ∃ c ∈ text.toList.getLast?, isNameChar c = true := by
  have hne : text.toList ≠ [] := by simpa using h.nonempty
  exact ⟨_, List.getLast?_eq_some_getLast hne, h.chars _ (List.getLast_mem hne)⟩

/-- The text of a well-formed reference starts with the first character of a name. -/
theorem exists_head?_display : (t : TypeRef) → t.WellFormed scope →
    ∃ c ∈ t.display.toList.head?, isNameChar c = true
  | void, _ => IsNameText.void.exists_head?
  | primitive p, _ => (IsNameText.keyword p).exists_head?
  | named _, h => (wellFormed_named.1 h).exists_head?
  | parameterized raw ts, h => by
    obtain ⟨c, hc, hname⟩ := (wellFormed_parameterized.1 h).1.exists_head?
    exact ⟨c, by simp_all [display], hname⟩
  | typeVar _ _, h => (wellFormed_typeVar.1 h).exists_head?
  | array c, h => by
    obtain ⟨d, hd, hname⟩ := exists_head?_display c (wellFormed_array.1 h).2
    exact ⟨d, by simp_all [display], hname⟩
  | target, h => absurd h not_wellFormed_target

/-- The text of a well-formed reference does not end in a blank. -/
theorem exists_getLast?_display (t : TypeRef) (h : t.WellFormed scope) :
    ∃ c ∈ t.display.toList.getLast?, Text.isBlank c = false := by
  have hname : ∀ text, IsNameText text → ∃ c ∈ text.toList.getLast?, Text.isBlank c = false := by
    intro text htext
    obtain ⟨c, hc, hchar⟩ := htext.exists_getLast?
    exact ⟨c, hc, isBlank_of_isNameChar hchar⟩
  cases t with
  | void => exact hname _ .void
  | primitive p => exact hname _ (.keyword p)
  | named => exact hname _ (wellFormed_named.1 h).toIsNameText
  | parameterized =>
    refine ⟨'>', ?_, by decide⟩
    rw [display, String.toList_append, List.getLast?_append]
    rfl
  | typeVar => exact hname _ (wellFormed_typeVar.1 h).toIsNameText
  | array => exact ⟨']', by simp [display], by decide⟩
  | target => exact absurd h not_wellFormed_target

/-- A well-formed reference is read back from its text. -/
theorem parse_display {t : TypeRef} (h : t.WellFormed scope) : parse t.display scope = .ok t := by
  obtain ⟨c, hc, hname⟩ := exists_head?_display t h
  have htrim : Text.trimBlanks t.display.toList = t.display.toList :=
    trimBlanks_eq_self ⟨c, hc, isBlank_of_isNameChar hname⟩ (exists_getLast?_display t h)
  have hseparated : Token.Separated [] := by simp [Token.Separated]
  have hparts : Token.ofChars t.display.toList = t.parts := by
    simpa [Token.ofChars, Token.scan, Token.startName] using Token.ofChars_display t h hseparated
  have hfollows : Parser.Follows [] := by simp [Parser.Follows]
  have htype : Parser.type scope t.parts.length t.parts = .ok (t, []) := by
    simpa [Parser.arrayOf] using Parser.type_parts t h (Nat.le_refl _) hfollows
  rw [parse, htrim, hparts, htype]
  rfl

/-- What is read from a text is well formed. -/
theorem wellFormed_of_parse {text : String} {t : TypeRef} (h : parse text scope = .ok t) :
    t.WellFormed scope := by
  rw [parse] at h
  obtain ⟨⟨u, rest⟩, hu, h⟩ := ok_of_bind h
  split at h
  · rename_i v heq
    obtain ⟨rfl, rfl⟩ := Prod.mk.inj heq
    obtain rfl := Except.ok.inj h
    exact (Parser.wellFormed_of_type _ (Token.namesClean_ofChars _) hu).1
  · cases h

/-- **Reading undoes writing.** The well-formed references are those that are read back from their
own texts, and they are all that is ever read. -/
theorem parse_display_iff (scope : List TypeVariable) (t : TypeRef) :
    (t.WellFormed scope ↔ parse t.display scope = .ok t) ∧
      (t.WellFormed scope ↔ ∃ text, parse text scope = .ok t) :=
  ⟨⟨parse_display, wellFormed_of_parse⟩,
    ⟨fun h => ⟨_, parse_display h⟩, fun ⟨_, h⟩ => wellFormed_of_parse h⟩⟩

end ClassForge.TypeRef
