import Mathlib.Data.List.TakeWhile
import ClassForge.Proofs.Outcomes
import ClassForge.Proofs.TypeNames

/-!
# Byte positions while a type name is read

The grammar of type names sees parts. A reader that has only the text keeps a position in it, in
bytes: it looks at the text from its position on, and adds to the position what it has recognised.
Such a reader is defined here. It looks at the text by cutting it, and a text in UTF-8 can be cut
between two characters only, not inside one and not past its end. What it adds is the width of a
character for the characters of a name, which may be several bytes wide, two bytes for brackets,
and one byte for everything else, blanks included.

The reader and the grammar agree on every text (`Cursor.read_eq_parse`). So the grammar meets a
blank outside ASCII exactly where the reader cuts the text badly, and in every other step of the
reader, of whatever depth, its position lies between two characters of the text. The reason is one
invariant, `Cursor.Stands`: the position has a rest of the text behind it, and the parts of this
rest are those that the grammar has still to read. Each step keeps it, and all but one keep it for
every character: the step over a blank leaves it where the blank is wider than the step.

## Main definitions

* `TypeRef.Cursor.splitBytes?` — a text before and after a byte position
* `TypeRef.Cursor.read` — reads a type name by byte positions
* `TypeRef.Cursor.Stands` — the invariant

## Main results

* `TypeRef.Parser.type_eq_of_le` — the grammar has all the fuel that it can use
* `TypeRef.Cursor.agree_type` — the two readers agree on one type name, as long as they have the
  same fuel
* `TypeRef.Cursor.read_eq_parse` — the two readers agree on every text
-/

namespace ClassForge.TypeRef

variable {scope : List TypeVariable}

namespace Cursor

/-! ### Cutting a text -/

/-- The number of bytes that a text takes in UTF-8. -/
def byteLength : List Char → Nat
  | [] => 0
  | c :: cs => c.utf8Size + byteLength cs

@[simp] theorem byteLength_nil : byteLength [] = 0 := rfl

@[simp] theorem byteLength_cons (c : Char) (cs : List Char) :
    byteLength (c :: cs) = c.utf8Size + byteLength cs := rfl

@[simp] theorem byteLength_append (cs ds : List Char) :
    byteLength (cs ++ ds) = byteLength cs + byteLength ds := by
  induction cs with
  | nil => simp
  | cons c cs ih => simp [ih, Nat.add_assoc]

theorem length_le_byteLength (cs : List Char) : cs.length ≤ byteLength cs := by
  induction cs with
  | nil => simp
  | cons c cs ih =>
    have hc := c.utf8Size_pos
    simp only [List.length_cons, byteLength_cons]
    omega

/-- The characters before and behind a byte position. There are none where the position lies inside
a character or past the end of the text. -/
def splitBytes? : List Char → Nat → Option (List Char × List Char)
  | cs, 0 => some ([], cs)
  | [], _ + 1 => none
  | c :: cs, p + 1 =>
    if c.utf8Size ≤ p + 1 then
      (splitBytes? cs (p + 1 - c.utf8Size)).map fun halves => (c :: halves.1, halves.2)
    else none

/-- A text is cut where its first characters take as many bytes as the position says. -/
theorem splitBytes?_eq_some_iff {cs front back : List Char} {p : Nat} :
    splitBytes? cs p = some (front, back) ↔ cs = front ++ back ∧ byteLength front = p := by
  fun_induction splitBytes? cs p generalizing front back with
  | case1 cs =>
    cases front with
    | nil => simp
    | cons c front =>
      have hc := c.utf8Size_pos
      simp
      omega
  | case2 p => cases front <;> simp
  | case3 c cs p h ih =>
    cases front with
    | nil => simp
    | cons d front =>
      have hhalves : (splitBytes? cs (p + 1 - c.utf8Size)).map
            (fun halves => (c :: halves.1, halves.2)) = some (d :: front, back) ↔
          c = d ∧ splitBytes? cs (p + 1 - c.utf8Size) = some (front, back) := by
        simp only [Option.map_eq_some_iff, Prod.exists, Prod.mk.injEq, List.cons.injEq]
        constructor
        · rintro ⟨_, _, hsplit, ⟨rfl, rfl⟩, rfl⟩
          exact ⟨rfl, hsplit⟩
        · rintro ⟨rfl, hsplit⟩
          exact ⟨_, _, hsplit, ⟨rfl, rfl⟩, rfl⟩
      rw [hhalves, ih]
      simp only [List.cons_append, List.cons.injEq, byteLength_cons]
      constructor
      · rintro ⟨rfl, rfl, hp⟩
        exact ⟨⟨rfl, rfl⟩, by omega⟩
      · rintro ⟨⟨rfl, rfl⟩, hp⟩
        exact ⟨rfl, rfl, by omega⟩
  | case4 c cs p h =>
    cases front with
    | nil => simp
    | cons d front =>
      simp only [reduceCtorEq, List.cons_append, List.cons.injEq, byteLength_cons, false_iff]
      rintro ⟨⟨rfl, -⟩, hp⟩
      omega

/-- The text from a byte position on. A position where the text cannot be cut is reported as the
broken blank that the grammar reports. -/
def restAt (text : List Char) (p : Nat) : Except ParseFault (List Char) :=
  match splitBytes? text p with
  | some halves => .ok halves.2
  | none => .error .brokenBlank

/-- The text between two byte positions. -/
def slice (text : List Char) (p q : Nat) : Except ParseFault (List Char) := do
  let rest ← restAt text p
  if q < p then .error .brokenBlank
  else
    match splitBytes? rest (q - p) with
    | some halves => return halves.1
    | none => .error .brokenBlank

theorem restAt_eq_ok_iff {text rest : List Char} {p : Nat} :
    restAt text p = .ok rest ↔ ∃ front, text = front ++ rest ∧ byteLength front = p := by
  rw [restAt]
  cases hsplit : splitBytes? text p with
  | some halves =>
    obtain ⟨htext, hp⟩ := splitBytes?_eq_some_iff.1 hsplit
    constructor
    · intro h
      obtain rfl := Except.ok.inj h
      exact ⟨halves.1, htext, hp⟩
    · rintro ⟨front, hfront⟩
      rw [← splitBytes?_eq_some_iff, hsplit, Option.some_inj] at hfront
      rw [hfront]
  | none =>
    constructor
    · intro h
      cases h
    · rintro ⟨front, hfront⟩
      rw [← splitBytes?_eq_some_iff, hsplit] at hfront
      cases hfront

/-- Where the text cannot be cut there is one fault only. -/
theorem eq_brokenBlank_of_restAt {text : List Char} {p : Nat} {fault : ParseFault}
    (h : restAt text p = .error fault) : fault = .brokenBlank := by
  rw [restAt] at h
  split at h
  · cases h
  · exact (Except.error.inj h).symm

/-- A position behind characters of the rest is a good one. -/
theorem restAt_add {text front back : List Char} {p : Nat}
    (h : restAt text p = .ok (front ++ back)) :
    restAt text (p + byteLength front) = .ok back := by
  obtain ⟨before, rfl, rfl⟩ := restAt_eq_ok_iff.1 h
  exact restAt_eq_ok_iff.2 ⟨before ++ front, by simp, by simp⟩

theorem restAt_add_utf8Size {text rest : List Char} {c : Char} {p : Nat}
    (h : restAt text p = .ok (c :: rest)) : restAt text (p + c.utf8Size) = .ok rest := by
  exact restAt_add (show restAt text p = .ok ([c] ++ rest) from h)

theorem lt_of_restAt {text rest : List Char} {c : Char} {p : Nat}
    (h : restAt text p = .ok (c :: rest)) : p < byteLength text := by
  obtain ⟨before, rfl, rfl⟩ := restAt_eq_ok_iff.1 h
  have hc := c.utf8Size_pos
  simp only [byteLength_append, byteLength_cons]
  omega

/-- Nothing is left at the end of the text only. -/
theorem eq_byteLength_iff {text rest : List Char} {p : Nat} (h : restAt text p = .ok rest) :
    p = byteLength text ↔ rest = [] := by
  obtain ⟨before, rfl, rfl⟩ := restAt_eq_ok_iff.1 h
  have hlength := length_le_byteLength rest
  rw [byteLength_append, ← List.length_eq_zero_iff]
  constructor
  · intro hp
    omega
  · intro hrest
    rw [List.eq_nil_of_length_eq_zero hrest]
    rfl

/-- One byte into a wider character the text cannot be cut. -/
theorem restAt_succ_of_wide {text rest : List Char} {c : Char} {p : Nat}
    (h : restAt text p = .ok (c :: rest)) (hc : 1 < c.utf8Size) :
    restAt text (p + 1) = .error .brokenBlank := by
  cases hcut : restAt text (p + 1) with
  | error fault => rw [eq_brokenBlank_of_restAt hcut]
  | ok other =>
    obtain ⟨before, rfl, rfl⟩ := restAt_eq_ok_iff.1 h
    obtain ⟨front, htext, hp⟩ := restAt_eq_ok_iff.1 hcut
    rcases List.append_eq_append_iff.1 htext with ⟨more, rfl, hmore⟩ | ⟨more, rfl, -⟩
    · cases more with
      | nil => simp at hp
      | cons d more =>
        obtain ⟨rfl, -⟩ := List.cons.inj hmore
        simp only [byteLength_append, byteLength_cons] at hp
        omega
    · simp only [byteLength_append] at hp
      omega

theorem slice_add {text front back : List Char} {p : Nat}
    (h : restAt text p = .ok (front ++ back)) :
    slice text p (p + byteLength front) = .ok front := by
  have hsplit : splitBytes? (front ++ back) (byteLength front) = some (front, back) :=
    splitBytes?_eq_some_iff.2 ⟨rfl, rfl⟩
  rw [slice, h]
  simp only [bind, Except.bind, Nat.add_sub_cancel_left, hsplit]
  rw [if_neg (by omega)]
  rfl

/-! ### The reader -/

/-- The character at a byte position, if the text does not end there. -/
def peek (text : List Char) (p : Nat) : Except ParseFault (Option Char) :=
  return (← restAt text p).head?

/-- The position behind any blanks, each of which is taken for one byte. -/
def skipBlanks (text : List Char) (p : Nat) : Except ParseFault Nat :=
  match _h : restAt text p with
  | .ok (c :: _) => if Text.isBlank c then skipBlanks text (p + 1) else .ok p
  | .ok [] => .ok p
  | .error fault => .error fault
termination_by byteLength text - p
decreasing_by
  have hp := lt_of_restAt _h
  omega

/-- The position behind any characters of a name, of whatever width. -/
def nameEnd (text : List Char) (p : Nat) : Except ParseFault Nat :=
  match _h : restAt text p with
  | .ok (c :: _) => if isNameChar c then nameEnd text (p + c.utf8Size) else .ok p
  | .ok [] => .ok p
  | .error fault => .error fault
termination_by byteLength text - p
decreasing_by
  have hp := lt_of_restAt _h
  have hc := c.utf8Size_pos
  omega

/-- Reads the brackets that follow a type. -/
def arrayOf (text : List Char) (t : TypeRef) (p : Nat) : Except ParseFault (TypeRef × Nat) :=
  match _h : restAt text p with
  | .ok ('[' :: ']' :: _) => if t.isVoid then .error .malformed else arrayOf text (array t) (p + 2)
  | .ok (c :: _) => if Text.isBlank c then arrayOf text t (p + 1) else .ok (t, p)
  | .ok [] => .ok (t, p)
  | .error fault => .error fault
termination_by byteLength text - p
decreasing_by
  all_goals
    have hp := lt_of_restAt _h
    omega

mutual

/-- Reads a type from a byte position on. Calls are counted as in the grammar. -/
def type (scope : List TypeVariable) (text : List Char) :
    Nat → Nat → Except ParseFault (TypeRef × Nat)
  | 0, _ => .error .malformed
  | n + 1, p => do
    let start ← skipBlanks text p
    let stop ← nameEnd text start
    let name := String.ofList (← slice text start stop)
    if Parser.isName name then
      let p ← skipBlanks text stop
      if (← peek text p) = some '<' then
        match Parser.meaning scope name with
        | named raw => do
          let (ts, p) ← arguments scope text n (p + 1)
          arrayOf text (parameterized raw ts) p
        | _ => .error .malformed
      else arrayOf text (Parser.meaning scope name) p
    else .error .malformed

/-- Reads type arguments up to and including the bracket that closes them. -/
def arguments (scope : List TypeVariable) (text : List Char) :
    Nat → Nat → Except ParseFault (List TypeRef × Nat)
  | 0, _ => .error .malformed
  | n + 1, p => do
    let (t, p) ← type scope text n p
    let p ← skipBlanks text p
    match ← peek text p with
    | some ',' =>
      let (ts, p) ← arguments scope text n (p + 1)
      return (t :: ts, p)
    | some '>' => return ([t], p + 1)
    | _ => .error .malformed

end

/-- Reads a text as a type by byte positions, with at most `n` calls inside each other. Blanks at
either end of the text do not count, and the type has to end where the text ends. -/
def read (n : Nat) (text : String) (scope : List TypeVariable) : Except ParseFault TypeRef := do
  let chars := Text.trimBlanks text.toList
  let (t, p) ← type scope chars n 0
  if p = byteLength chars then return t else .error .malformed

end Cursor

/-! ### The parts at the start of a text -/

namespace Token

/-- How a text starts: with brackets, with a longest run of name characters, or with a character
that is a part of its own. -/
theorem ofChars_cases (cs : List Char) :
    cs = [] ∨ (∃ ds, cs = '[' :: ']' :: ds) ∨
      (∃ word ds, word ≠ [] ∧ (∀ c ∈ word, isNameChar c = true) ∧ Separated ds ∧
        cs = word ++ ds) ∨
      ∃ c ds, isNameChar c = false ∧ (∀ es, c :: ds ≠ '[' :: ']' :: es) ∧ cs = c :: ds := by
  match cs with
  | [] => exact .inl rfl
  | c :: ds =>
    by_cases hbrackets : ∃ es, c :: ds = '[' :: ']' :: es
    · exact .inr (.inl hbrackets)
    cases hc : isNameChar c with
    | true =>
      refine .inr (.inr (.inl ⟨(c :: ds).takeWhile isNameChar, (c :: ds).dropWhile isNameChar,
        by simp [hc], fun d hd => List.mem_takeWhile_imp hd, ?_,
        List.takeWhile_append_dropWhile.symm⟩))
      have hhead := List.head?_dropWhile_not isNameChar (c :: ds)
      intro d hd
      rw [Option.mem_def.1 hd] at hhead
      exact hhead
    | false => exact .inr (.inr (.inr ⟨c, ds, hc, fun es h => hbrackets ⟨es, h⟩, rfl⟩))

/-- A longest run of name characters is a part, whether it is a name or not. -/
theorem ofChars_word {word cs : List Char} (hne : word ≠ [])
    (hword : ∀ c ∈ word, isNameChar c = true) (hcs : Separated cs) :
    ofChars (word ++ cs) = .name (String.ofList word) :: ofChars cs := by
  have hscan := scan_fst_of_separated hcs
  simp [ofChars, scan_append hword, hscan, startName, hne]

/-- The run of name characters that a text starts with, which may be empty. -/
theorem exists_word (cs : List Char) :
    ∃ word ds, cs = word ++ ds ∧ (∀ c ∈ word, isNameChar c = true) ∧ Separated ds := by
  refine ⟨cs.takeWhile isNameChar, cs.dropWhile isNameChar, List.takeWhile_append_dropWhile.symm,
    fun d hd => List.mem_takeWhile_imp hd, fun d hd => ?_⟩
  have hhead := List.head?_dropWhile_not isNameChar cs
  rw [Option.mem_def.1 hd] at hhead
  exact hhead

/-- A text that starts with no name character starts with no name. -/
theorem ofChars_ne_name {cs : List Char} (hcs : Separated cs) (text : String) (ps : List Token) :
    ofChars cs ≠ .name text :: ps := by
  rcases ofChars_cases cs with
    rfl | ⟨ds, rfl⟩ | ⟨word, ds, hne, hword, -, rfl⟩ | ⟨c, ds, hc, hbrackets, rfl⟩
  · simp [ofChars, scan, startName]
  · simp [ofChars_brackets]
  · cases word with
    | nil => exact absurd rfl hne
    | cons c word =>
      have hc := hcs c rfl
      rw [hword c List.mem_cons_self] at hc
      cases hc
  · simp [ofChars_single hc hbrackets, ofChar_ne_name]

/-- Brackets are the only text that starts with their part. -/
theorem head?_ofChars_ne_brackets {cs : List Char} (h : ¬ ∃ ds, cs = '[' :: ']' :: ds) :
    (ofChars cs).head? ≠ some brackets := by
  rcases ofChars_cases cs with
    rfl | hbrackets | ⟨word, ds, hne, hword, hds, rfl⟩ | ⟨c, ds, hc, hbrackets, rfl⟩
  · simp [ofChars, scan, startName]
  · exact absurd hbrackets h
  · simp [ofChars_word hne hword hds]
  · rw [ofChars_single hc hbrackets]
    unfold ofChar
    split <;> try split <;> try split
    all_goals simp

/-- The three characters that the grammar asks for one by one. -/
def IsPunctuation (c : Char) : Prop := c = '<' ∨ c = ',' ∨ c = '>'

theorem isPunctuation_open : IsPunctuation '<' := .inl rfl

theorem isPunctuation_comma : IsPunctuation ',' := .inr (.inl rfl)

theorem isPunctuation_close : IsPunctuation '>' := .inr (.inr rfl)

theorem ofChar_eq_iff {c d : Char} (hd : IsPunctuation d) : ofChar c = ofChar d ↔ c = d := by
  refine ⟨fun h => ?_, congrArg ofChar⟩
  rcases hd with rfl | rfl | rfl
  all_goals
    simp only [ofChar] at h
    split at h <;> try simp_all
    split at h <;> try split at h
    all_goals cases h

/-- A text starts with the part of such a character if it starts with the character. -/
theorem head?_ofChars_eq_iff {cs : List Char} {c : Char} (hc : IsPunctuation c) :
    (ofChars cs).head? = some (ofChar c) ↔ cs.head? = some c := by
  have hname : isNameChar c = false := by rcases hc with rfl | rfl | rfl <;> decide
  have hbracket : ofChar c ≠ brackets ∧ c ≠ '[' := by rcases hc with rfl | rfl | rfl <;> decide
  rcases ofChars_cases cs with
    rfl | ⟨ds, rfl⟩ | ⟨word, ds, hne, hword, hds, rfl⟩ | ⟨d, ds, hd, hbrackets, rfl⟩
  · simp [ofChars, scan, startName]
  · simp [ofChars_brackets, hbracket.1.symm, hbracket.2.symm]
  · rw [ofChars_word hne hword hds]
    cases word with
    | nil => exact absurd rfl hne
    | cons d word =>
      have hd : d ≠ c := by
        rintro rfl
        simp [hword d List.mem_cons_self] at hname
      simp [(ofChar_ne_name c _).symm, hd]
  · simp [ofChars_single hd hbrackets, ofChar_eq_iff hc]

/-- A blank of either kind is the part of its own that its width says. -/
theorem ofChar_of_isBlank {c : Char} (hc : Text.isBlank c = true) :
    ofChar c = if c.toNat < 0x80 then blank else wideBlank := by
  rw [ofChar, if_pos hc]
  all_goals
    rintro rfl
    revert hc
    decide

/-- Parts of which the first, if there is one, is no blank of either kind. -/
def StartsFull (ps : List Token) : Prop := ∀ part ∈ ps.head?, part ≠ blank ∧ part ≠ wideBlank

theorem startsFull_of_ne {ps : List Token} (hblank : ∀ qs, ps ≠ blank :: qs)
    (hwide : ∀ qs, ps ≠ wideBlank :: qs) : StartsFull ps := by
  intro part hpart
  obtain ⟨qs, rfl⟩ := List.head?_eq_some_iff.1 (Option.mem_def.1 hpart)
  exact ⟨fun h => hblank qs (h ▸ rfl), fun h => hwide qs (h ▸ rfl)⟩

/-- A text that starts with no blank starts with no blank part. -/
theorem startsFull_ofChars {cs : List Char} (h : ∀ c ∈ cs.head?, Text.isBlank c = false) :
    StartsFull (ofChars cs) := by
  rcases ofChars_cases cs with
    rfl | ⟨ds, rfl⟩ | ⟨word, ds, hne, hword, hds, rfl⟩ | ⟨c, ds, hc, hbrackets, rfl⟩
  · simp [StartsFull, ofChars, scan, startName]
  · simp [StartsFull, ofChars_brackets]
  · simp [StartsFull, ofChars_word hne hword hds]
  · have hblank : Text.isBlank c = false := h c rfl
    rw [ofChars_single hc hbrackets]
    intro part hpart
    obtain rfl : ofChar c = part := by simpa using hpart
    unfold ofChar
    split <;> simp_all

end Token

namespace Parser

open Token (StartsFull)

theorem skipBlanks_of_startsFull {ps : List Token} (h : StartsFull ps) :
    skipBlanks ps = .ok ps := by
  unfold skipBlanks
  split
  · exact absurd rfl (h _ rfl).1
  · exact absurd rfl (h _ rfl).2
  · rfl

theorem arrayOf_of_startsFull {t : TypeRef} {ps : List Token} (hfull : StartsFull ps)
    (hbrackets : ps.head? ≠ some .brackets) : arrayOf t ps = .ok (t, ps) := by
  unfold arrayOf
  split
  · exact absurd rfl (hfull _ rfl).1
  · exact absurd rfl (hfull _ rfl).2
  · exact absurd rfl hbrackets
  · rfl

end Parser

namespace Cursor

/-! ### The invariant -/

/-- A position that has a rest of the text behind it, of which the grammar has the parts. -/
def Stands (text : List Char) (p : Nat) (ps : List Token) : Prop :=
  ∃ rest, restAt text p = .ok rest ∧ ps = Token.ofChars rest

/-- Two computations that fail alike, or come out with related results. -/
inductive Agree {α β : Type} (R : α → β → Prop) : Except ParseFault α → Except ParseFault β → Prop
  | ok {a b} : R a b → Agree R (.ok a) (.ok b)
  | error (fault) : Agree R (.error fault) (.error fault)

theorem Agree.bind {α β γ δ : Type} {R : α → β → Prop} {S : γ → δ → Prop}
    {x : Except ParseFault α} {y : Except ParseFault β} {f : α → Except ParseFault γ}
    {g : β → Except ParseFault δ} (h : Agree R x y) (hf : ∀ a b, R a b → Agree S (f a) (g b)) :
    Agree S (x >>= f) (y >>= g) := by
  cases h with
  | ok hab => exact hf _ _ hab
  | error fault => exact .error fault

/-- The relation between the results of the two readers: what was read is the same, and so is what
is left to read. -/
def Reads {α : Type} (text : List Char) (x : α × Nat) (y : α × List Token) : Prop :=
  x.1 = y.1 ∧ Stands text x.2 y.2

/-! ### The steps of the reader -/

theorem utf8Size_eq_one_iff {c : Char} : c.utf8Size = 1 ↔ c.toNat < 0x80 := by
  have hval : c.val ≤ 0x7f ↔ c.toNat < 0x80 := by
    rw [UInt32.le_iff_toNat_le]
    exact Nat.lt_succ_iff.symm
  rw [Char.utf8Size, ← hval]
  split_ifs <;> simp_all

/-- One byte on, an ASCII blank is passed and a wide one is not: there the text cannot be cut. -/
theorem restAt_succ_of_isBlank {text cs : List Char} {c : Char} {p : Nat}
    (h : restAt text p = .ok (c :: cs)) (hc : Text.isBlank c = true) :
    (restAt text (p + 1) = .ok cs ∧
        Token.ofChars (c :: cs) = .blank :: Token.ofChars cs) ∨
      (restAt text (p + 1) = .error .brokenBlank ∧
        Token.ofChars (c :: cs) = .wideBlank :: Token.ofChars cs) := by
  have hbracket : c ≠ '[' := by rintro rfl; revert hc; decide
  rw [Token.ofChars_cons (isNameChar_of_isBlank hc) hbracket, Token.ofChar_of_isBlank hc]
  by_cases hwidth : c.toNat < 0x80
  · have hnext := restAt_add_utf8Size h
    rw [utf8Size_eq_one_iff.2 hwidth] at hnext
    exact .inl ⟨hnext, by rw [if_pos hwidth]⟩
  · have hpos := c.utf8Size_pos
    have hne : c.utf8Size ≠ 1 := fun hone => hwidth (utf8Size_eq_one_iff.1 hone)
    exact .inr ⟨restAt_succ_of_wide h (by omega), by rw [if_neg hwidth]⟩

theorem skipBlanks_nil {text : List Char} {p : Nat} (h : restAt text p = .ok []) :
    skipBlanks text p = .ok p := by
  rw [skipBlanks]
  split <;> simp_all

theorem skipBlanks_cons {text cs : List Char} {c : Char} {p : Nat}
    (h : restAt text p = .ok (c :: cs)) :
    skipBlanks text p = if Text.isBlank c then skipBlanks text (p + 1) else .ok p := by
  rw [skipBlanks]
  split <;> simp_all

theorem skipBlanks_error {text : List Char} {p : Nat} {fault : ParseFault}
    (h : restAt text p = .error fault) : skipBlanks text p = .error fault := by
  rw [skipBlanks]
  split <;> simp_all

/-- Stepping over blanks. The step over a wide blank ends inside it, where the grammar meets it. -/
theorem agree_skipBlanks {text : List Char} {p : Nat} {ps : List Token} (h : Stands text p ps) :
    Agree (Stands text) (skipBlanks text p) (Parser.skipBlanks ps) := by
  obtain ⟨rest, hrest, rfl⟩ := h
  induction rest generalizing p with
  | nil =>
    rw [skipBlanks_nil hrest]
    exact .ok ⟨[], hrest, rfl⟩
  | cons c rest ih =>
    rw [skipBlanks_cons hrest]
    cases hblank : Text.isBlank c with
    | false =>
      have hfull : Token.StartsFull (Token.ofChars (c :: rest)) :=
        Token.startsFull_ofChars (by simp [hblank])
      rw [Parser.skipBlanks_of_startsFull hfull]
      exact .ok ⟨c :: rest, hrest, rfl⟩
    | true =>
      rcases restAt_succ_of_isBlank hrest hblank with ⟨hnext, hparts⟩ | ⟨hnext, hparts⟩
      · rw [hparts, if_pos rfl]
        exact ih hnext
      · rw [hparts, if_pos rfl, skipBlanks_error hnext]
        exact .error _

theorem arrayOf_nil {text : List Char} {t : TypeRef} {p : Nat} (h : restAt text p = .ok []) :
    arrayOf text t p = .ok (t, p) := by
  rw [arrayOf]
  split <;> simp_all

theorem arrayOf_brackets {text cs : List Char} {t : TypeRef} {p : Nat}
    (h : restAt text p = .ok ('[' :: ']' :: cs)) :
    arrayOf text t p =
      if t.isVoid then .error .malformed else arrayOf text (array t) (p + 2) := by
  rw [arrayOf]
  split <;> simp_all

theorem arrayOf_cons {text cs : List Char} {c : Char} {t : TypeRef} {p : Nat}
    (h : restAt text p = .ok (c :: cs)) (hbrackets : ∀ ds, c :: cs ≠ '[' :: ']' :: ds) :
    arrayOf text t p = if Text.isBlank c then arrayOf text t (p + 1) else .ok (t, p) := by
  rw [arrayOf]
  split
  · rename_i ds hds
    rw [h] at hds
    exact absurd (Except.ok.inj hds) (hbrackets ds)
  all_goals simp_all

theorem arrayOf_error {text : List Char} {t : TypeRef} {p : Nat} {fault : ParseFault}
    (h : restAt text p = .error fault) : arrayOf text t p = .error fault := by
  rw [arrayOf]
  split <;> simp_all

/-- Reading brackets, and the blanks between them. -/
theorem agree_arrayOf {text : List Char} {t : TypeRef} {p : Nat} {ps : List Token}
    (h : Stands text p ps) : Agree (Reads text) (arrayOf text t p) (Parser.arrayOf t ps) := by
  obtain ⟨rest, hrest, rfl⟩ := h
  induction hlength : rest.length using Nat.strong_induction_on generalizing rest t p with
  | _ n ih =>
    by_cases hbrackets : ∃ ds, rest = '[' :: ']' :: ds
    · obtain ⟨ds, rfl⟩ := hbrackets
      have hnext : restAt text (p + 2) = .ok ds :=
        restAt_add (show restAt text p = .ok (['[', ']'] ++ ds) from hrest)
      rw [arrayOf_brackets hrest, Token.ofChars_brackets, Parser.arrayOf]
      split
      · exact .error _
      · exact ih ds.length (by simp at hlength; omega) _ hnext rfl
    have hno := Token.head?_ofChars_ne_brackets hbrackets
    cases rest with
    | nil =>
      rw [arrayOf_nil hrest]
      exact .ok ⟨rfl, [], hrest, rfl⟩
    | cons c rest =>
      rw [arrayOf_cons hrest fun ds h => hbrackets ⟨ds, h⟩]
      cases hblank : Text.isBlank c with
      | false =>
        have hfull : Token.StartsFull (Token.ofChars (c :: rest)) :=
          Token.startsFull_ofChars (by simp [hblank])
        rw [Parser.arrayOf_of_startsFull hfull hno]
        exact .ok ⟨rfl, c :: rest, hrest, rfl⟩
      | true =>
        rcases restAt_succ_of_isBlank hrest hblank with ⟨hnext, hparts⟩ | ⟨hnext, hparts⟩
        · rw [hparts, if_pos rfl]
          exact ih rest.length (by simp at hlength; omega) _ hnext rfl
        · rw [hparts, if_pos rfl, arrayOf_error hnext]
          exact .error _

theorem nameEnd_nil {text : List Char} {p : Nat} (h : restAt text p = .ok []) :
    nameEnd text p = .ok p := by
  rw [nameEnd]
  split <;> simp_all

theorem nameEnd_cons {text cs : List Char} {c : Char} {p : Nat}
    (h : restAt text p = .ok (c :: cs)) :
    nameEnd text p = if isNameChar c then nameEnd text (p + c.utf8Size) else .ok p := by
  rw [nameEnd]
  split <;> simp_all

/-- A longest run of name characters is passed as a whole. -/
theorem nameEnd_word {text word cs : List Char} {p : Nat}
    (h : restAt text p = .ok (word ++ cs)) (hword : ∀ c ∈ word, isNameChar c = true)
    (hcs : Token.Separated cs) : nameEnd text p = .ok (p + byteLength word) := by
  induction word generalizing p with
  | nil =>
    cases cs with
    | nil => exact nameEnd_nil h
    | cons c cs => simp [nameEnd_cons h, hcs c rfl]
  | cons c word ih =>
    have hnext := restAt_add_utf8Size h
    rw [nameEnd_cons h, if_pos (hword c List.mem_cons_self),
      ih hnext fun d hd => hword d (List.mem_cons_of_mem _ hd), byteLength_cons, Nat.add_assoc]

theorem peek_of_restAt {text rest : List Char} {p : Nat} (h : restAt text p = .ok rest) :
    peek text p = .ok rest.head? := by
  rw [peek, h]
  rfl

/-- Punctuation is one byte wide, so what follows stands one byte further on. -/
theorem exists_stands_succ {text rest : List Char} {c : Char} {p : Nat}
    (hc : Token.IsPunctuation c) (hrest : restAt text p = .ok rest) (hhead : rest.head? = some c) :
    ∃ ps, Token.ofChars rest = Token.ofChar c :: ps ∧ Stands text (p + 1) ps := by
  obtain ⟨cs, rfl⟩ := List.head?_eq_some_iff.1 hhead
  have hcut : isNameChar c = false ∧ c ≠ '[' ∧ c.utf8Size = 1 := by
    rcases hc with rfl | rfl | rfl <;> decide
  have hnext := restAt_add_utf8Size hrest
  rw [hcut.2.2] at hnext
  exact ⟨_, Token.ofChars_cons hcut.1 hcut.2.1 cs, cs, hnext, rfl⟩

mutual

/-- **The two readers agree on one type**, for as many calls inside each other as both may make. -/
theorem agree_type (scope : List TypeVariable) (text : List Char) :
    (n : Nat) → {p : Nat} → {ps : List Token} → Stands text p ps →
    Agree (Reads text) (type scope text n p) (Parser.type scope n ps)
  | 0, _, _, _ => .error _
  | n + 1, p, ps, h => by
    rw [type, Parser.type]
    refine (agree_skipBlanks h).bind ?_
    rintro start _ ⟨rest, hrest, rfl⟩
    obtain ⟨word, ds, rfl, hword, hds⟩ := Token.exists_word rest
    have hstop : restAt text (start + byteLength word) = .ok ds := restAt_add hrest
    rw [nameEnd_word hrest hword hds, ok_bind, slice_add hrest, ok_bind]
    by_cases hempty : word = []
    · -- No character of a name: the empty name is refused, and no part in front is a name.
      subst hempty
      have hnoName : Parser.isName (String.ofList []) = false := by decide
      simp only [hnoName, Bool.false_eq_true, if_false]
      split
      · rename_i heq
        exact absurd heq (Token.ofChars_ne_name hds _ _)
      · exact .error _
    rw [Token.ofChars_word hempty hword hds]
    dsimp only
    split
    · refine (agree_skipBlanks ⟨ds, hstop, rfl⟩).bind ?_
      rintro q _ ⟨rest, hrest, rfl⟩
      rw [peek_of_restAt hrest, ok_bind]
      by_cases hhead : rest.head? = some '<'
      · obtain ⟨qs, hqs, hnext⟩ := exists_stands_succ Token.isPunctuation_open hrest hhead
        rw [if_pos hhead, hqs]
        simp only [Token.ofChar]
        cases Parser.meaning scope (String.ofList word) with
        | named raw =>
          refine (agree_arguments scope text n hnext).bind ?_
          rintro ⟨ts, p⟩ ⟨_, ps⟩ ⟨rfl, h⟩
          exact agree_arrayOf h
        | _ => exact .error _
      · have hopen := mt (Token.head?_ofChars_eq_iff Token.isPunctuation_open).1 hhead
        rw [if_neg hhead]
        split
        · rename_i heq
          simp [heq, Token.ofChar] at hopen
        · exact agree_arrayOf ⟨rest, hrest, rfl⟩
    · exact .error _

/-- `agree_type` for type arguments. -/
theorem agree_arguments (scope : List TypeVariable) (text : List Char) :
    (n : Nat) → {p : Nat} → {ps : List Token} → Stands text p ps →
    Agree (Reads text) (arguments scope text n p) (Parser.arguments scope n ps)
  | 0, _, _, _ => .error _
  | n + 1, p, ps, h => by
    rw [arguments, Parser.arguments]
    refine (agree_type scope text n h).bind ?_
    rintro ⟨t, p⟩ ⟨_, ps⟩ ⟨rfl, h⟩
    refine (agree_skipBlanks h).bind ?_
    rintro p _ ⟨rest, hrest, rfl⟩
    rw [peek_of_restAt hrest, ok_bind]
    by_cases hcomma : rest.head? = some ','
    · obtain ⟨qs, hqs, hnext⟩ := exists_stands_succ Token.isPunctuation_comma hrest hcomma
      rw [hcomma, hqs]
      refine (agree_arguments scope text n hnext).bind ?_
      rintro ⟨ts, p⟩ ⟨_, ps⟩ ⟨rfl, h⟩
      exact .ok ⟨rfl, h⟩
    by_cases hclose : rest.head? = some '>'
    · obtain ⟨qs, hqs, hnext⟩ := exists_stands_succ Token.isPunctuation_close hrest hclose
      rw [hclose, hqs]
      exact .ok ⟨rfl, hnext⟩
    have hnoComma := mt (Token.head?_ofChars_eq_iff Token.isPunctuation_comma).1 hcomma
    have hnoClose := mt (Token.head?_ofChars_eq_iff Token.isPunctuation_close).1 hclose
    split
    · contradiction
    · contradiction
    split
    · rename_i heq
      simp [heq, Token.ofChar] at hnoComma
    · rename_i heq
      simp [heq, Token.ofChar] at hnoClose
    · exact .error _

end

end Cursor

/-! ### Fuel -/

namespace Parser

open Token (NamesClean)

mutual

/-- More fuel than there are parts changes nothing. -/
theorem type_succ : (n : Nat) → {ps : List Token} → NamesClean ps → ps.length ≤ n →
    type scope (n + 1) ps = type scope n ps
  | 0, ps, _, hn => by
    obtain rfl : ps = [] := List.eq_nil_of_length_eq_zero (by omega)
    rfl
  | n + 1, ps, hps, hn => by
    rw [type, type]
    refine bind_congr_ok fun qs hqs => ?_
    have hlength := (suffix_of_skipBlanks hqs).length_le
    split
    · rename_i text parts
      split
      · refine bind_congr_ok fun rs hrs => ?_
        split
        · rename_i inner
          have hinner := (suffix_of_skipBlanks hrs).length_le
          simp only [List.length_cons] at hlength hinner
          have hclean : NamesClean inner :=
            ((hps.of_suffix (suffix_of_skipBlanks hqs)).of_suffix (List.suffix_cons _ _)).of_suffix
              ((List.suffix_cons _ _).trans (suffix_of_skipBlanks hrs))
          rw [arguments_succ n hclean (by omega)]
        · rfl
      · rfl
    · rfl

/-- `type_succ` for type arguments, which take one unit more. -/
theorem arguments_succ : (n : Nat) → {ps : List Token} → NamesClean ps → ps.length < n →
    arguments scope (n + 1) ps = arguments scope n ps
  | n + 1, ps, hps, hn => by
    rw [arguments, arguments, type_succ n hps (by omega)]
    refine bind_congr_ok fun ⟨t, rest⟩ ht => ?_
    have hrest := (wellFormed_of_type n hps ht).2
    refine bind_congr_ok fun qs hqs => ?_
    have hqs := (suffix_of_skipBlanks hqs).trans hrest
    split
    · rename_i parts
      have hlength := hqs.length_le
      simp only [List.length_cons] at hlength
      rw [arguments_succ n (hps.of_suffix ((List.suffix_cons _ _).trans hqs)) (by omega)]
    · rfl
    · rfl

end

/-- **The grammar has all the fuel that it can use**: as much as there are parts, and any other
amount that is no less gives the same. -/
theorem type_eq_of_le {ps : List Token} (hps : NamesClean ps) {n : Nat} (h : ps.length ≤ n) :
    type scope n ps = type scope ps.length ps := by
  induction n, h using Nat.le_induction with
  | base => rfl
  | succ n hn ih => rw [type_succ n hps hn, ih]

end Parser

/-! ### Whole texts -/

namespace Token

theorem length_startName_le (word : List Char) (ps : List Token) :
    (startName word ps).length ≤ word.length + ps.length := by
  cases word with
  | nil => exact Nat.le_add_left _ _
  | cons c cs =>
    have hname : startName (c :: cs) ps = name (String.ofList (c :: cs)) :: ps := rfl
    rw [hname, List.length_cons, List.length_cons]
    omega

theorem length_scan_le (cs : List Char) :
    (scan cs).1.length + (scan cs).2.length ≤ cs.length := by
  fun_induction scan cs with
  | case1 => simp
  | case2 cs ih =>
    have hstart := length_startName_le (scan cs).1 (scan cs).2
    simp only [List.length_cons, List.length_nil]
    omega
  | case3 c cs _ word ps hscan hc ih =>
    simp only [hscan, List.length_cons] at ih ⊢
    omega
  | case4 c cs _ word ps hscan hc ih =>
    have hstart := length_startName_le word ps
    simp only [hscan, List.length_cons, List.length_nil] at ih ⊢
    omega

/-- No part is shorter than a character. -/
theorem length_ofChars_le (cs : List Char) : (ofChars cs).length ≤ cs.length :=
  (length_startName_le _ _).trans (length_scan_le cs)

/-- Every character is in some part. -/
theorem ofChars_eq_nil_iff {cs : List Char} : ofChars cs = [] ↔ cs = [] := by
  refine ⟨fun h => ?_, fun h => h ▸ rfl⟩
  rcases ofChars_cases cs with
    rfl | ⟨ds, rfl⟩ | ⟨word, ds, hne, hword, hds, rfl⟩ | ⟨c, ds, hc, hbrackets, rfl⟩
  · rfl
  · cases h
  · simp [ofChars_word hne hword hds] at h
  · simp [ofChars_single hc hbrackets] at h

end Token

theorem length_trimBlanks_le (cs : List Char) : (Text.trimBlanks cs).length ≤ cs.length := by
  rw [Text.trimBlanks, List.length_reverse]
  refine (List.dropWhile_sublist _).length_le.trans ?_
  rw [List.length_reverse]
  exact (List.dropWhile_sublist _).length_le

namespace Cursor

/-- **The reader by byte positions and the grammar agree on every text**, however many calls beyond
the length of the text may be made inside each other. So the reader always comes to an end, with
the type that the grammar derives or without one, and it cuts the text badly exactly where the
grammar meets a blank outside ASCII. -/
theorem read_eq_parse (scope : List TypeVariable) (text : String) {n : Nat}
    (h : byteLength text.toList ≤ n) : read n text scope = parse text scope := by
  have hfuel : (Token.ofChars (Text.trimBlanks text.toList)).length ≤ n :=
    (Token.length_ofChars_le _).trans
      ((length_trimBlanks_le _).trans ((length_le_byteLength _).trans h))
  rw [read, parse, ← Parser.type_eq_of_le (Token.namesClean_ofChars _) hfuel]
  have hstart : restAt (Text.trimBlanks text.toList) 0 = .ok (Text.trimBlanks text.toList) :=
    restAt_eq_ok_iff.2 ⟨[], rfl, rfl⟩
  have hagree := agree_type scope _ n ⟨_, hstart, rfl⟩
  generalize type scope (Text.trimBlanks text.toList) n 0 = x at hagree
  generalize Parser.type scope n (Token.ofChars (Text.trimBlanks text.toList)) = y at hagree
  cases hagree with
  | error fault => rfl
  | ok hread =>
    rename_i a b
    obtain ⟨t, p⟩ := a
    obtain ⟨u, ps⟩ := b
    obtain ⟨rfl, rest, hrest, rfl⟩ := hread
    have hend := eq_byteLength_iff hrest
    rw [← Token.ofChars_eq_nil_iff] at hend
    rw [ok_bind, ok_bind]
    dsimp only
    split
    · rename_i hp
      rw [hend.1 hp]
    · rename_i hp
      split
      · rename_i heq
        exact absurd (hend.2 (Prod.mk.inj heq).2) hp
      · rfl

end Cursor

end ClassForge.TypeRef
