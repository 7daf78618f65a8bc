import ClassForge.Proofs.ReadingPositions

/-!
# Blanks that break a type name off

An ASCII blank may stand between any two parts of a type name, and at no place inside it a blank
outside ASCII may. Where such a blank is met depends on how far the name has been read, and for
that the grammar is followed part by part: what has been read so far leaves a type to come or has
completed one, with some lists of type arguments still open, or it is no beginning of a type name at
all (`Parser.Progress`). The progress decides on the outcome, although it keeps nothing of the type
that is read (`Parser.leads_type`).

Every beginning can be completed: by a type if one is still to come, and then by closing the lists
of arguments. So the texts that are broken off are those with a wide blank at a place where an
ASCII blank may stand in some type name.

## Main definitions

* `TypeRef.Parser.Progress`, `TypeRef.Parser.follow` — how far a type name has been read, and one
  part further

## Main results

* `TypeRef.Parser.leads_type` — the outcome of reading a type is read off the progress
* `TypeRef.Parser.exists_completion` — every beginning of a type name can be completed
* `TypeRef.reading_breaks_iff` — which texts are broken off
-/

namespace ClassForge.TypeRef

variable {scope : List TypeVariable}

namespace Parser

/-- How far a type name has been read. -/
inductive Progress where
  /-- A type is to come, inside so many lists of type arguments. -/
  | expecting (depth : Nat)
  /-- A type has been read, inside so many lists of type arguments. Whether it may take type
  arguments or brackets depends on what it is. -/
  | complete (depth : Nat) (takesArguments takesBrackets : Bool)
  /-- No type name starts like this. -/
  | malformed
  /-- A wide blank was met where a part was expected. -/
  | broken
deriving DecidableEq

/-- Whether a reference may take type arguments: the ones that are plain class names may. -/
def takesArguments : TypeRef → Bool
  | named _ => true
  | _ => false

/-- The progress after one more part. -/
def follow (scope : List TypeVariable) : Progress → Token → Progress
  | .expecting depth, .name text =>
    if isName text then
      .complete depth (takesArguments (meaning scope text)) !(meaning scope text).isVoid
    else .malformed
  | .expecting depth, .blank => .expecting depth
  | .complete depth arguments brackets, .blank => .complete depth arguments brackets
  | .expecting _, .wideBlank => .broken
  | .complete _ _ _, .wideBlank => .broken
  | .complete depth true _, .openArguments => .expecting (depth + 1)
  | .complete depth _ true, .brackets => .complete depth false true
  | .complete (depth + 1) _ _, .comma => .expecting (depth + 1)
  | .complete (depth + 1) _ _, .closeArguments => .complete depth false true
  | .broken, _ => .broken
  | _, _ => .malformed

/-- The progress after some parts. -/
def followAll (scope : List TypeVariable) (s : Progress) (ps : List Token) : Progress :=
  ps.foldl (follow scope) s

namespace Progress

/-- So far it is the beginning of a type name. -/
def IsBeginning : Progress → Prop
  | expecting _ => True
  | complete _ _ _ => True
  | malformed => False
  | broken => False

theorem IsBeginning.of_complete {s : Progress} {depth : Nat} {arguments brackets : Bool}
    (h : s = complete depth arguments brackets) : s.IsBeginning := h ▸ trivial

/-- The progress at which a fault is certain. -/
def ofFault : ParseFault → Progress
  | .malformed => malformed
  | .brokenBlank => broken

/-- The progress at the end of parts that are refused with a fault. A text that ends too early is
malformed although a type name may start like it. -/
def RefusedWith (s : Progress) : ParseFault → Prop
  | .malformed => s ≠ broken ∧ ∀ arguments brackets, s ≠ complete 0 arguments brackets
  | .brokenBlank => s = broken

theorem refusedWith_ofFault (fault : ParseFault) : (ofFault fault).RefusedWith fault := by
  cases fault <;> simp [ofFault, RefusedWith]

end Progress

open Token (StartsFull)

@[simp] theorem followAll_nil (s : Progress) : followAll scope s [] = s := rfl

@[simp] theorem followAll_cons (s : Progress) (part : Token) (ps : List Token) :
    followAll scope s (part :: ps) = followAll scope (follow scope s part) ps := rfl

theorem followAll_append (s : Progress) (ps qs : List Token) :
    followAll scope s (ps ++ qs) = followAll scope (followAll scope s ps) qs := List.foldl_append

theorem follow_ofFault (fault : ParseFault) (part : Token) :
    follow scope (.ofFault fault) part = .ofFault fault := by
  cases fault <;> cases part <;> rfl

/-- What went wrong stays wrong. -/
theorem followAll_ofFault (fault : ParseFault) (ps : List Token) :
    followAll scope (.ofFault fault) ps = .ofFault fault := by
  induction ps with
  | nil => rfl
  | cons part ps ih => rw [followAll_cons, follow_ofFault, ih]

theorem follow_blank {s : Progress} (hs : s.IsBeginning) : follow scope s .blank = s := by
  cases s with
  | expecting | complete => rfl
  | malformed | broken => exact absurd hs id

theorem follow_wideBlank {s : Progress} (hs : s.IsBeginning) :
    follow scope s .wideBlank = .broken := by
  cases s with
  | expecting | complete => rfl
  | malformed | broken => exact absurd hs id

/-! ### Reading and following -/

/-- A computation takes the progress along: if it comes out well it is at a place from which the
following goes on, and if it fails the progress at the end of the parts tells the fault. -/
inductive Leads {α : Type} (scope : List TypeVariable) (s : Progress) (ps : List Token)
    (after : α → Progress → List Token → Prop) : Except ParseFault α → Prop
  | ok {a s' rest} : followAll scope s ps = followAll scope s' rest → after a s' rest →
    Leads scope s ps after (.ok a)
  | error {fault} : (followAll scope s ps).RefusedWith fault → Leads scope s ps after (.error fault)

/-- Parts may be followed before a computation takes the progress along. -/
theorem Leads.of_eq {α : Type} {s s' : Progress} {ps qs : List Token}
    {after : α → Progress → List Token → Prop} {x : Except ParseFault α}
    (hx : Leads scope s' qs after x) (h : followAll scope s ps = followAll scope s' qs) :
    Leads scope s ps after x := by
  cases hx with
  | ok hs ha => exact .ok (h.trans hs) ha
  | error hs => exact .error (h ▸ hs)

theorem Leads.imp {α : Type} {s : Progress} {ps : List Token}
    {after after' : α → Progress → List Token → Prop} {x : Except ParseFault α}
    (hx : Leads scope s ps after x) (h : ∀ a s' rest, after a s' rest → after' a s' rest) :
    Leads scope s ps after' x := by
  cases hx with
  | ok hs ha => exact .ok hs (h _ _ _ ha)
  | error hs => exact .error hs

theorem Leads.bind {α β : Type} {s : Progress} {ps : List Token}
    {after : α → Progress → List Token → Prop} {after' : β → Progress → List Token → Prop}
    {x : Except ParseFault α} {f : α → Except ParseFault β} (h : Leads scope s ps after x)
    (hf : ∀ a s' rest, after a s' rest → Leads scope s' rest after' (f a)) :
    Leads scope s ps after' (x >>= f) := by
  cases h with
  | ok hs ha => exact (hf _ _ _ ha).of_eq hs
  | error hs => exact .error hs

/-- A fault after one more part. -/
theorem Leads.of_follow {α : Type} {s : Progress} {part : Token} {ps : List Token}
    {after : α → Progress → List Token → Prop} {fault : ParseFault}
    (h : follow scope s part = .ofFault fault) :
    Leads scope s (part :: ps) after (.error fault) :=
  .error (by rw [followAll_cons, h, followAll_ofFault]; exact Progress.refusedWith_ofFault fault)

/-- A text that does not go on as it should. It may end here unless a type name does. -/
theorem Leads.of_head {α : Type} {s : Progress} {ps : List Token}
    {after : α → Progress → List Token → Prop}
    (hhead : ∀ part ∈ ps.head?, follow scope s part = .malformed) (hbroken : s ≠ .broken)
    (hcomplete : ∀ arguments brackets, s ≠ .complete 0 arguments brackets) :
    Leads scope s ps after (.error .malformed) := by
  cases ps with
  | nil => exact .error ⟨hbroken, hcomplete⟩
  | cons part ps => exact .of_follow (hhead part rfl)

theorem leads_skipBlanks (s : Progress) (hs : s.IsBeginning) (ps : List Token) :
    Leads scope s ps (fun qs s' rest => s' = s ∧ rest = qs ∧ qs <:+ ps ∧ StartsFull qs)
      (skipBlanks ps) := by
  fun_induction skipBlanks ps with
  | case1 ps ih =>
    refine (ih.imp ?_).of_eq (by rw [followAll_cons, follow_blank hs])
    rintro qs s' rest ⟨rfl, rfl, hsuffix, hfull⟩
    exact ⟨rfl, rfl, hsuffix.trans (List.suffix_cons _ _), hfull⟩
  | case2 ps => exact .of_follow (follow_wideBlank hs)
  | case3 ps hblank hwide =>
    exact .ok rfl ⟨rfl, rfl, List.suffix_refl _, Token.startsFull_of_ne hblank hwide⟩

/-- What may stand behind a type that was read to its end. -/
structure EndsType (arguments : Bool) (ps : List Token) : Prop where
  full : StartsFull ps
  noBrackets : ps.head? ≠ some .brackets
  noArguments : arguments = true → ps.head? ≠ some .openArguments

/-- Behind a type only what goes on with a list of type arguments is not refused. -/
theorem EndsType.follow_eq_malformed {arguments brackets : Bool} {depth : Nat} {ps : List Token}
    {part : Token} (h : EndsType arguments ps) (hpart : part ∈ ps.head?)
    (hlist : 0 < depth → part ≠ .comma ∧ part ≠ .closeArguments) :
    follow scope (.complete depth arguments brackets) part = .malformed := by
  have hblank := h.full part hpart
  have hno := h.noBrackets
  have harguments := h.noArguments
  rw [Option.mem_def.1 hpart] at hno harguments
  cases part with
  | blank | wideBlank => simp at hblank
  | brackets => exact absurd rfl hno
  | openArguments =>
    cases arguments with
    | false => rfl
    | true => exact absurd rfl (harguments rfl)
  | comma | closeArguments =>
    cases depth with
    | zero => cases arguments <;> rfl
    | succ depth => simp at hlist
  | name text => cases arguments <;> rfl
  | other c => cases arguments <;> rfl

/-- What is left where the reading of a type comes out well. -/
def AfterType (ps : List Token) (depth : Nat) (read : TypeRef × List Token) (s : Progress)
    (rest : List Token) : Prop :=
  rest = read.2 ∧ read.2 <:+ ps ∧
    ∃ arguments, s = .complete depth arguments !read.1.isVoid ∧ EndsType arguments read.2

theorem AfterType.of_suffix {ps qs rest : List Token} {depth : Nat}
    {read : TypeRef × List Token} {s : Progress} (h : AfterType ps depth read s rest)
    (hs : ps <:+ qs) : AfterType qs depth read s rest := ⟨h.1, h.2.1.trans hs, h.2.2⟩

/-- Reading brackets behind something that takes no type arguments. -/
theorem leads_arrayOf (depth : Nat) (t : TypeRef) (ps : List Token) :
    Leads scope (.complete depth false !t.isVoid) ps (AfterType ps depth) (arrayOf t ps) := by
  fun_induction arrayOf t ps with
  | case1 t ps ih => exact (ih.imp fun _ _ _ h => h.of_suffix (List.suffix_cons _ _)).of_eq rfl
  | case2 t ps => exact .of_follow rfl
  | case3 t ps hvoid => exact .of_follow (by simp [hvoid, follow, Progress.ofFault])
  | case4 t ps hvoid ih =>
    refine (ih.imp fun _ _ _ h => h.of_suffix (List.suffix_cons _ _)).of_eq ?_
    rw [followAll_cons, Bool.eq_false_iff.2 hvoid]
    rfl
  | case5 t ps hblank hwide hbrackets =>
    refine .ok rfl
      ⟨rfl, List.suffix_refl _, false, rfl, Token.startsFull_of_ne hblank hwide, ?_,
        fun h => absurd h Bool.false_ne_true⟩
    intro hhead
    obtain ⟨qs, rfl⟩ := List.head?_eq_some_iff.1 hhead
    exact hbrackets qs rfl

/-- Reading brackets behind any type, where neither a blank nor type arguments follow. -/
theorem leads_arrayOf_of_full (depth : Nat) (arguments : Bool) (t : TypeRef) {ps : List Token}
    (hfull : StartsFull ps) (harguments : arguments = true → ps.head? ≠ some .openArguments) :
    Leads scope (.complete depth arguments !t.isVoid) ps (AfterType ps depth) (arrayOf t ps) := by
  by_cases hbrackets : ps.head? = some .brackets
  · obtain ⟨qs, rfl⟩ := List.head?_eq_some_iff.1 hbrackets
    refine (leads_arrayOf depth t _).of_eq ?_
    cases arguments <;> cases t.isVoid <;> rfl
  · rw [arrayOf_of_startsFull hfull hbrackets]
    exact .ok rfl ⟨rfl, List.suffix_refl _, arguments, rfl, hfull, hbrackets, harguments⟩

mutual

/-- **The outcome of reading a type is read off the progress.** -/
theorem leads_type (depth : Nat) : (n : Nat) → {ps : List Token} → ps.length ≤ n →
    Leads scope (.expecting depth) ps (AfterType ps depth) (type scope n ps)
  | 0, ps, hn => by
    obtain rfl : ps = [] := List.eq_nil_of_length_eq_zero (by omega)
    exact .of_head nofun nofun nofun
  | n + 1, ps, hn => by
    rw [type]
    refine (leads_skipBlanks (.expecting depth) trivial ps).bind ?_
    rintro qs _ _ ⟨rfl, rfl, hqs, hfull⟩
    split
    · rename_i text parts
      split
      · rename_i hname
        have hparts : parts <:+ ps := (List.suffix_cons _ _).trans hqs
        have hlength := hqs.length_le
        have hstep : followAll scope (.expecting depth) (.name text :: parts) =
            followAll scope (.complete depth (takesArguments (meaning scope text))
              !(meaning scope text).isVoid) parts := by simp [follow, hname]
        refine ((leads_skipBlanks (.complete _ _ _) trivial parts).bind ?_).of_eq hstep
        rintro rs _ _ ⟨rfl, rfl, hrs, hfull⟩
        split
        · rename_i inner
          have hinner : inner <:+ ps := ((List.suffix_cons _ _).trans hrs).trans hparts
          have hshort := hrs.length_le
          simp only [List.length_cons] at hlength hshort
          split
          · rename_i raw hraw
            have hopen : followAll scope (.complete depth (takesArguments (meaning scope text))
                !(meaning scope text).isVoid) (.openArguments :: inner) =
                  followAll scope (.expecting (depth + 1)) inner := by rw [hraw]; rfl
            refine ((leads_arguments depth n (by omega)).bind ?_).of_eq hopen
            rintro ⟨ts, us⟩ _ _ ⟨rfl, rfl, hus⟩
            exact (leads_arrayOf depth (parameterized raw ts) _).imp
              fun _ _ _ h => h.of_suffix (hus.trans hinner)
          · rename_i hclass
            refine .of_follow ?_
            cases hmeaning : meaning scope text with
            | named raw => exact absurd hmeaning (hclass raw)
            | _ => rfl
        · rename_i hopen
          refine (leads_arrayOf_of_full depth _ _ hfull fun _ hhead => ?_).imp
            fun _ _ _ h => h.of_suffix (hrs.trans hparts)
          obtain ⟨inner, rfl⟩ := List.head?_eq_some_iff.1 hhead
          exact hopen inner rfl
      · rename_i hname
        exact .of_follow (by simp [follow, hname, Progress.ofFault])
    · rename_i hname
      refine .of_head (fun part hpart => ?_) nofun nofun
      obtain ⟨parts, rfl⟩ := List.head?_eq_some_iff.1 (Option.mem_def.1 hpart)
      cases part with
      | name text => exact absurd rfl (hname text parts)
      | blank | wideBlank => simp [StartsFull] at hfull
      | _ => rfl

/-- `leads_type` for type arguments, which end with the part that closes them. -/
theorem leads_arguments (depth : Nat) : (n : Nat) → {ps : List Token} → ps.length < n →
    Leads scope (.expecting (depth + 1)) ps
      (fun read s rest => s = .complete depth false true ∧ rest = read.2 ∧ read.2 <:+ ps)
      (arguments scope n ps)
  | n + 1, ps, hn => by
    rw [arguments]
    refine (leads_type (depth + 1) n (by omega)).bind ?_
    rintro ⟨t, rest⟩ _ _ ⟨rfl, hrest, takes, rfl, hends⟩
    dsimp only at hrest hends ⊢
    rw [skipBlanks_of_startsFull hends.full, ok_bind]
    have hlength := hrest.length_le
    split
    · rename_i qs
      simp only [List.length_cons] at hlength
      have hcomma : followAll scope (.complete (depth + 1) takes !t.isVoid) (.comma :: qs) =
          followAll scope (.expecting (depth + 1)) qs := by cases takes <;> rfl
      refine ((leads_arguments depth n (by omega)).bind ?_).of_eq hcomma
      rintro ⟨ts, us⟩ _ _ ⟨rfl, rfl, hus⟩
      exact .ok rfl ⟨rfl, rfl, hus.trans ((List.suffix_cons _ _).trans hrest)⟩
    · rename_i qs
      have hclose : followAll scope (.complete (depth + 1) takes !t.isVoid)
          (.closeArguments :: qs) = followAll scope (.complete depth false true) qs := by
        cases takes <;> rfl
      exact .ok hclose ⟨rfl, rfl, (List.suffix_cons _ _).trans hrest⟩
    · rename_i hcomma hclose
      refine .of_head (fun part hpart => hends.follow_eq_malformed hpart fun _ => ?_) nofun nofun
      obtain ⟨qs, rfl⟩ := List.head?_eq_some_iff.1 (Option.mem_def.1 hpart)
      exact ⟨fun h => hcomma qs (h ▸ rfl), fun h => hclose qs (h ▸ rfl)⟩

end

/-! ### Completing a beginning -/

/-- Open lists of type arguments can be closed. -/
theorem exists_followAll_close (scope : List TypeVariable) (depth : Nat)
    (arguments brackets : Bool) :
    ∃ a b, followAll scope (.complete depth arguments brackets)
      (Token.ofChars (List.replicate depth '>')) = .complete 0 a b := by
  induction depth generalizing arguments brackets with
  | zero => exact ⟨arguments, brackets, rfl⟩
  | succ depth ih =>
    obtain ⟨a, b, h⟩ := ih false true
    refine ⟨a, b, ?_⟩
    rw [List.replicate_succ, Token.ofChars_cons (by decide) (by decide), followAll_cons]
    cases arguments <;> exact h

/-- **Every beginning can be completed**, by a type if one is to come and by what closes the open
lists of type arguments. -/
theorem exists_completion (scope : List TypeVariable) {s : Progress} (hs : s.IsBeginning) :
    ∃ ending a b, followAll scope s (Token.ofChars ending) = .complete 0 a b := by
  cases s with
  | complete depth arguments brackets => exact ⟨_, exists_followAll_close scope depth _ _⟩
  | expecting depth =>
    obtain ⟨a, b, h⟩ := exists_followAll_close scope depth false true
    refine ⟨Primitive.int.keyword.toList ++ List.replicate depth '>', a, b, ?_⟩
    have hseparated : Token.Separated (List.replicate depth '>') := by
      intro c hc
      obtain rfl := List.eq_of_mem_replicate (List.mem_of_mem_head? hc)
      decide
    rw [Token.ofChars_name (.keyword .int) hseparated, followAll_cons, follow,
      if_pos (IsNameText.keyword .int).isName, meaning_keyword]
    exact h
  | malformed | broken => exact absurd hs id

/-! ### Where a wide blank stands -/

theorem eq_wideBlank_of_follow {s : Progress} {part : Token} (h : follow scope s part = .broken) :
    s = .broken ∨ part = .wideBlank ∧ s.IsBeginning := by
  fun_cases follow scope s part
  all_goals simp_all [follow, Progress.IsBeginning]

/-- Reading is broken off at the first wide blank behind a beginning. -/
theorem followAll_eq_broken_iff {s : Progress} (hs : s ≠ .broken) {ps : List Token} :
    followAll scope s ps = .broken ↔ ∃ front back,
      ps = front ++ .wideBlank :: back ∧ (followAll scope s front).IsBeginning := by
  constructor
  · intro h
    induction ps generalizing s with
    | nil => exact absurd h hs
    | cons part ps ih =>
      by_cases hnext : follow scope s part = .broken
      · obtain ⟨rfl, hbeginning⟩ := (eq_wideBlank_of_follow hnext).resolve_left hs
        exact ⟨[], ps, rfl, hbeginning⟩
      · obtain ⟨front, back, rfl, hbeginning⟩ := ih hnext h
        exact ⟨part :: front, back, rfl, hbeginning⟩
  · rintro ⟨front, back, rfl, hbeginning⟩
    rw [followAll_append, followAll_cons, follow_wideBlank hbeginning]
    exact followAll_ofFault .brokenBlank back

/-- Only a beginning leads to a complete type name. -/
theorem isBeginning_of_followAll {s : Progress} {ps : List Token}
    (h : (followAll scope s ps).IsBeginning) : s.IsBeginning := by
  cases s with
  | expecting | complete => trivial
  | malformed => rwa [show Progress.malformed = .ofFault .malformed from rfl,
      followAll_ofFault] at h
  | broken => rwa [show Progress.broken = .ofFault .brokenBlank from rfl, followAll_ofFault] at h

end Parser

namespace Token

/-! ### Cutting at a blank -/

theorem startName_append (word : List Char) (ps qs : List Token) :
    startName word (ps ++ qs) = startName word ps ++ qs := by
  unfold startName
  split <;> rfl

/-- A character outside names that is no part of brackets cuts a text in two. -/
theorem ofChars_append_cons {c : Char} (hc : isNameChar c = false) (hopen : c ≠ '[')
    (hclose : c ≠ ']') (front back : List Char) :
    ofChars (front ++ c :: back) = ofChars front ++ ofChar c :: ofChars back := by
  have hscan : scan (front ++ c :: back) =
      ((scan front).1, (scan front).2 ++ ofChar c :: ofChars back) := by
    fun_induction scan front with
    | case1 =>
      rw [List.nil_append, scan]
      · simp [hc, ofChars]
      · rintro _ rfl
        exact absurd rfl hopen
    | case2 cs ih => simp [scan, ih, startName_append]
    | case3 d cs hbrackets word ps hscan hd ih =>
      rw [List.cons_append, scan_of_isNameChar hd, ih, hscan]
    | case4 d cs hbrackets word ps hscan hd ih =>
      rw [List.cons_append, scan]
      · simp [ih, hscan, hd, startName_append]
      · rintro es rfl hes
        cases cs with
        | nil => exact hclose (List.cons.inj hes).1
        | cons e cs =>
          obtain rfl : e = ']' := (List.cons.inj hes).1
          exact hbrackets cs rfl rfl
  rw [show ofChars (front ++ c :: back) = startName _ _ from rfl, hscan, startName_append]
  rfl

theorem ofChars_append_of_isBlank {c : Char} (hc : Text.isBlank c = true)
    (front back : List Char) :
    ofChars (front ++ c :: back) =
      ofChars front ++ (if c.toNat < 0x80 then blank else wideBlank) :: ofChars back := by
  have hbrackets : c ≠ '[' ∧ c ≠ ']' := by
    constructor
    all_goals
      rintro rfl
      revert hc
      decide
  rw [ofChars_append_cons (isNameChar_of_isBlank hc) hbrackets.1 hbrackets.2,
    ofChar_of_isBlank hc]

theorem isBlank_of_ofChar_eq_wideBlank {c : Char} (h : ofChar c = wideBlank) :
    Text.isBlank c = true ∧ 0x80 ≤ c.toNat := by
  unfold ofChar at h
  split at h
  · cases h
  · cases h
  · cases h
  · split at h
    · split at h
      · cases h
      · exact ⟨‹_›, by omega⟩
    · cases h

/-- A wide blank among the parts of a text is one of its characters. -/
theorem exists_wide_of_ofChars {cs : List Char} {ps qs : List Token}
    (h : ofChars cs = ps ++ wideBlank :: qs) :
    ∃ front w back, cs = front ++ w :: back ∧ Text.isBlank w = true ∧ 0x80 ≤ w.toNat ∧
      ofChars front = ps := by
  induction hlength : cs.length using Nat.strong_induction_on generalizing cs ps with
  | _ n ih =>
    subst hlength
    rcases ofChars_cases cs with
      rfl | ⟨ds, rfl⟩ | ⟨word, ds, hne, hword, hds, rfl⟩ | ⟨c, ds, hc, hbrackets, rfl⟩
    · cases ps <;> cases h
    · rw [ofChars_brackets] at h
      cases ps with
      | nil => cases h
      | cons part ps =>
        rw [List.cons_append, List.cons.injEq] at h
        obtain ⟨rfl, h⟩ := h
        have hshorter : ds.length < ('[' :: ']' :: ds).length := by
          simp only [List.length_cons]
          omega
        obtain ⟨front, w, back, rfl, hw, hwide, rfl⟩ := ih ds.length hshorter h rfl
        exact ⟨'[' :: ']' :: front, w, back, rfl, hw, hwide, rfl⟩
    · rw [ofChars_word hne hword hds] at h
      cases ps with
      | nil => cases h
      | cons part ps =>
        rw [List.cons_append, List.cons.injEq] at h
        obtain ⟨rfl, h⟩ := h
        have hshort : ds.length < (word ++ ds).length := by
          simpa using List.length_pos_iff.2 hne
        obtain ⟨front, w, back, rfl, hw, hwide, rfl⟩ := ih ds.length hshort h rfl
        refine ⟨word ++ front, w, back, by simp, hw, hwide, ofChars_word hne hword fun d hd => ?_⟩
        exact hds d (by cases front <;> simp_all)
    · rw [ofChars_single hc hbrackets] at h
      cases ps with
      | nil =>
        obtain ⟨hw, hwide⟩ := isBlank_of_ofChar_eq_wideBlank (List.cons.inj h).1
        exact ⟨[], c, ds, rfl, hw, hwide, rfl⟩
      | cons part ps =>
        rw [List.cons_append, List.cons.injEq] at h
        obtain ⟨rfl, h⟩ := h
        obtain ⟨front, w, back, rfl, hw, hwide, rfl⟩ := ih ds.length (by simp) h rfl
        refine ⟨c :: front, w, back, rfl, hw, hwide, ofChars_single hc fun es hes => ?_⟩
        obtain ⟨rfl, rfl⟩ := List.cons.inj hes
        exact hbrackets (es ++ w :: back) rfl

end Token

/-! ### Blanks at either end -/

theorem forall_isBlank_takeWhile (cs : List Char) :
    ∀ c ∈ cs.takeWhile Text.isBlank, Text.isBlank c = true := fun _ h => List.mem_takeWhile_imp h

/-- A text without the blanks in front starts with what is left of it. -/
theorem exists_dropWhile_eq (cs : List Char) :
    ∃ after, cs.dropWhile Text.isBlank = Text.trimBlanks cs ++ after ∧
      ∀ c ∈ after, Text.isBlank c = true := by
  refine ⟨((cs.dropWhile Text.isBlank).reverse.takeWhile Text.isBlank).reverse, ?_,
    fun c hc => forall_isBlank_takeWhile _ c (List.mem_reverse.1 hc)⟩
  rw [Text.trimBlanks, ← List.reverse_append, List.takeWhile_append_dropWhile,
    List.reverse_reverse]

/-- A text is what is left of it between blanks. -/
theorem exists_trimBlanks (cs : List Char) :
    ∃ before after, cs = before ++ (Text.trimBlanks cs ++ after) ∧
      (∀ c ∈ before, Text.isBlank c = true) ∧ ∀ c ∈ after, Text.isBlank c = true := by
  obtain ⟨after, hback, hafter⟩ := exists_dropWhile_eq cs
  refine ⟨cs.takeWhile Text.isBlank, after, ?_, forall_isBlank_takeWhile cs, hafter⟩
  rw [← hback, List.takeWhile_append_dropWhile]

/-- Between the blanks at its ends a text starts with no blank. -/
theorem isBlank_head_trimBlanks (cs : List Char) :
    ∀ c ∈ (Text.trimBlanks cs).head?, Text.isBlank c = false := by
  intro c hc
  have hfront := List.head?_dropWhile_not Text.isBlank cs
  obtain ⟨after, hback, -⟩ := exists_dropWhile_eq cs
  rw [hback, List.head?_append, Option.mem_def.1 hc] at hfront
  exact hfront

namespace Parser

/-- A blank cuts a text in two. -/
theorem followAll_append_cons (s : Progress) {c : Char} (hc : Text.isBlank c = true)
    (front cs : List Char) :
    followAll scope s (Token.ofChars (front ++ c :: cs)) =
      followAll scope (followAll scope s (Token.ofChars front)) (Token.ofChars (c :: cs)) := by
  have hcons := Token.ofChars_append_of_isBlank hc [] cs
  rw [List.nil_append] at hcons
  rw [Token.ofChars_append_of_isBlank hc, hcons, followAll_append]
  rfl

/-- One blank, and what follows it. -/
theorem followAll_blank_cons {s : Progress} (hs : s.IsBeginning) {c : Char}
    (hc : Text.isBlank c = true) (cs : List Char) :
    followAll scope s (Token.ofChars (c :: cs)) =
      if c.toNat < 0x80 then followAll scope s (Token.ofChars cs) else .broken := by
  have hcons := Token.ofChars_append_of_isBlank hc [] cs
  rw [List.nil_append] at hcons
  rw [hcons]
  split
  · change followAll scope (follow scope s .blank) _ = _
    rw [follow_blank hs]
  · change followAll scope (follow scope s .wideBlank) _ = _
    rw [follow_wideBlank hs]
    exact followAll_ofFault .brokenBlank _

/-- Blanks in front tell nothing, unless one of them breaks the text off. -/
theorem followAll_blanks_append {s : Progress} (hs : s.IsBeginning) {blanks : List Char}
    (hblanks : ∀ c ∈ blanks, Text.isBlank c = true) (cs : List Char) :
    followAll scope s (Token.ofChars (blanks ++ cs)) = followAll scope s (Token.ofChars cs) ∨
      followAll scope s (Token.ofChars (blanks ++ cs)) = .broken := by
  induction blanks with
  | nil => exact .inl rfl
  | cons c blanks ih =>
    rw [List.cons_append, followAll_blank_cons hs (hblanks c List.mem_cons_self)]
    split
    · exact ih fun d hd => hblanks d (List.mem_cons_of_mem _ hd)
    · exact .inr rfl

/-- A wide blank behind a beginning and other blanks breaks it off, if none of the others did. -/
theorem followAll_blanks_wide {s : Progress} {front blanks : List Char}
    (hfront : (followAll scope s (Token.ofChars front)).IsBeginning)
    (hblanks : ∀ c ∈ blanks, Text.isBlank c = true) {w : Char} (hw : Text.isBlank w = true)
    (hwide : 0x80 ≤ w.toNat) (back : List Char) :
    followAll scope s (Token.ofChars (front ++ (blanks ++ w :: back))) = .broken := by
  have hbreak : followAll scope (followAll scope s (Token.ofChars front))
      (Token.ofChars (blanks ++ w :: back)) = .broken := by
    rcases followAll_blanks_append hfront hblanks (w :: back) with h | h
    · rw [h, followAll_blank_cons hfront hw, if_neg (by omega)]
    · exact h
  cases blanks with
  | nil => rw [List.nil_append, followAll_append_cons s hw]; exact hbreak
  | cons c blanks =>
    rw [List.cons_append, followAll_append_cons s (hblanks c List.mem_cons_self)]
    exact hbreak

/-- Blanks at either end of a text tell nothing, unless one of them breaks it off. -/
theorem followAll_trimBlanks {s : Progress} {cs : List Char}
    (h : (followAll scope s (Token.ofChars cs)).IsBeginning) :
    followAll scope s (Token.ofChars (Text.trimBlanks cs)) =
      followAll scope s (Token.ofChars cs) := by
  have hs := isBeginning_of_followAll h
  obtain ⟨before, after, hcs, hbefore, hafter⟩ := exists_trimBlanks cs
  generalize Text.trimBlanks cs = text at hcs
  subst hcs
  have hfront : followAll scope s (Token.ofChars (before ++ (text ++ after))) =
      followAll scope s (Token.ofChars (text ++ after)) := by
    rcases followAll_blanks_append hs hbefore (text ++ after) with heq | heq
    · exact heq
    · rw [heq] at h
      exact absurd h id
  rw [hfront] at h ⊢
  cases after with
  | nil => rw [List.append_nil]
  | cons c after =>
    rw [followAll_append_cons s (hafter c List.mem_cons_self)] at h ⊢
    have htext := isBeginning_of_followAll h
    rcases followAll_blanks_append htext hafter [] with heq | heq
    · rw [List.append_nil] at heq
      rw [heq]
      rfl
    · rw [List.append_nil] at heq
      rw [heq] at h
      exact absurd h id

end Parser

/-! ### Whole texts -/

namespace Parser

/-- How far a type name is read at the end of a text. -/
def progressOf (scope : List TypeVariable) (cs : List Char) : Progress :=
  followAll scope (.expecting 0) (Token.ofChars cs)

/-- The outcome of reading a text is read off the progress at its end. -/
theorem progressOf_trimBlanks (scope : List TypeVariable) (text : String) :
    match parse text scope with
    | .ok _ => ∃ a b, progressOf scope (Text.trimBlanks text.toList) = .complete 0 a b
    | .error fault => (progressOf scope (Text.trimBlanks text.toList)).RefusedWith fault := by
  rw [parse, progressOf]
  generalize Token.ofChars (Text.trimBlanks text.toList) = ps
  have hlead : Leads scope (.expecting 0) ps (AfterType ps 0) (type scope ps.length ps) :=
    leads_type 0 _ (Nat.le_refl _)
  generalize type scope ps.length ps = x at hlead
  cases hlead with
  | error h => exact h
  | ok h hafter =>
    rename_i read s rest
    obtain ⟨t, rest⟩ := read
    obtain ⟨rfl, -, arguments, rfl, hends⟩ := hafter
    rw [ok_bind, h]
    cases rest with
    | nil => exact ⟨_, _, rfl⟩
    | cons part rest =>
      have hmalformed : follow scope (.complete 0 arguments !t.isVoid) part = .malformed :=
        hends.follow_eq_malformed rfl fun h => absurd h (Nat.lt_irrefl 0)
      rw [followAll_cons, hmalformed]
      change (followAll scope (.ofFault .malformed) rest).RefusedWith .malformed
      rw [followAll_ofFault]
      exact Progress.refusedWith_ofFault _

theorem exists_parse_iff (text : String) :
    (∃ t, parse text scope = .ok t) ↔
      ∃ a b, progressOf scope (Text.trimBlanks text.toList) = .complete 0 a b := by
  have h := progressOf_trimBlanks scope text
  cases hparse : parse text scope with
  | ok t =>
    rw [hparse] at h
    exact iff_of_true ⟨t, rfl⟩ h
  | error fault =>
    rw [hparse] at h
    refine iff_of_false nofun ?_
    rintro ⟨a, b, heq⟩
    rw [heq] at h
    cases fault with
    | malformed => exact h.2 a b rfl
    | brokenBlank => cases h

theorem parse_eq_brokenBlank_iff (text : String) :
    parse text scope = .error .brokenBlank ↔
      progressOf scope (Text.trimBlanks text.toList) = .broken := by
  have h := progressOf_trimBlanks scope text
  cases hparse : parse text scope with
  | ok t =>
    rw [hparse] at h
    obtain ⟨a, b, heq⟩ := h
    exact iff_of_false nofun (by rw [heq]; nofun)
  | error fault =>
    rw [hparse] at h
    cases fault with
    | malformed => exact iff_of_false nofun h.1
    | brokenBlank => exact iff_of_true rfl h

/-- A text that is broken off can be read with an ASCII blank and another ending instead. -/
theorem exists_ending_of_broken {cs : List Char} (h : progressOf scope cs = .broken) :
    ∃ front w back, cs = front ++ w :: back ∧ Text.isBlank w = true ∧ 0x80 ≤ w.toNat ∧
      ∃ ending t, parse (String.ofList (front ++ ' ' :: ending)) scope = .ok t := by
  have hstart : Progress.expecting 0 ≠ .broken := nofun
  obtain ⟨ps, qs, hparts, hbeginning⟩ := (followAll_eq_broken_iff hstart).1 h
  obtain ⟨front, w, back, rfl, hw, hwide, rfl⟩ := Token.exists_wide_of_ofChars hparts
  obtain ⟨ending, a, b, hcomplete⟩ := exists_completion scope hbeginning
  refine ⟨front, w, back, rfl, hw, hwide, ending, ?_⟩
  have hall : progressOf scope (front ++ ' ' :: ending) = .complete 0 a b := by
    rw [progressOf, followAll_append_cons _ (by decide),
      followAll_blank_cons hbeginning (by decide), if_pos (by decide), hcomplete]
  rw [exists_parse_iff, String.toList_ofList]
  exact ⟨a, b, (followAll_trimBlanks (.of_complete hall)).trans hall⟩

/-- A wide blank breaks off what an ASCII blank could have continued. -/
theorem broken_of_exists_ending {front back ending : List Char} {w : Char} {t : TypeRef}
    (hfront : ∀ c ∈ (front ++ w :: back).head?, Text.isBlank c = false)
    (hw : Text.isBlank w = true) (hwide : 0x80 ≤ w.toNat)
    (h : parse (String.ofList (front ++ ' ' :: ending)) scope = .ok t) :
    progressOf scope (front ++ w :: back) = .broken := by
  obtain ⟨a, b, hcomplete⟩ := (exists_parse_iff _).1 ⟨t, h⟩
  rw [String.toList_ofList] at hcomplete
  obtain ⟨before, after, hsplit, hbefore, hafter⟩ := exists_trimBlanks (front ++ ' ' :: ending)
  generalize Text.trimBlanks (front ++ ' ' :: ending) = text at hcomplete hsplit
  have hnone : before = [] := by
    cases before with
    | nil => rfl
    | cons c before =>
      have hc := hbefore c List.mem_cons_self
      cases front with
      | nil => simp [hfront w rfl] at hw
      | cons d front =>
        obtain rfl : d = c := (List.cons.inj hsplit).1
        simp [hfront d rfl] at hc
  rw [hnone, List.nil_append] at hsplit
  -- What was read ends inside `front`, before blanks only, or it goes on behind the ASCII blank.
  rcases List.append_eq_append_iff.1 hsplit with ⟨more, rfl, hmore⟩ | ⟨blanks, rfl, hblanks⟩
  · have hbeginning : (progressOf scope front).IsBeginning := by
      cases more with
      | nil => exact .of_complete (List.append_nil front ▸ hcomplete)
      | cons c more =>
        obtain rfl : ' ' = c := (List.cons.inj hmore).1
        rw [progressOf, followAll_append_cons _ (by decide)] at hcomplete
        exact isBeginning_of_followAll (.of_complete hcomplete)
    have hnoBlanks : ∀ c ∈ ([] : List Char), Text.isBlank c = true := nofun
    exact followAll_blanks_wide hbeginning hnoBlanks hw hwide back
  · have hall : ∀ c ∈ blanks, Text.isBlank c = true := fun c hc =>
      hafter c (hblanks ▸ List.mem_append_left _ hc)
    rw [List.append_assoc]
    exact followAll_blanks_wide (.of_complete hcomplete) hall hw hwide back

end Parser

/-- **Which texts break the reading off.** Reading by byte positions gives what the grammar gives,
and the grammar breaks off exactly the texts in which, between the blanks at either end, a wide
blank stands where an ASCII blank may stand in some type name with the same beginning. -/
theorem reading_breaks_iff (scope : List TypeVariable) (text : String) :
    (∀ n, Cursor.read (Cursor.byteLength text.toList + n) text scope = parse text scope) ∧
      (parse text scope = .error .brokenBlank ↔
        ∃ front w back, Text.trimBlanks text.toList = front ++ w :: back ∧
          Text.isBlank w = true ∧ 0x80 ≤ w.toNat ∧
          ∃ ending t, parse (String.ofList (front ++ ' ' :: ending)) scope = .ok t) := by
  refine ⟨fun n => Cursor.read_eq_parse scope text (Nat.le_add_right _ _), ?_⟩
  rw [Parser.parse_eq_brokenBlank_iff]
  refine ⟨Parser.exists_ending_of_broken, ?_⟩
  rintro ⟨front, w, back, htext, hw, hwide, ending, t, hread⟩
  rw [htext]
  refine Parser.broken_of_exists_ending ?_ hw hwide hread
  rw [← htext]
  exact isBlank_head_trimBlanks _

/-- A blank that the grammar would let pass if it were an ASCII blank. -/
theorem reading_breaks_inside_blank : parse "a\u00a0b" [] = .error .brokenBlank := by
  decide +kernel

end ClassForge.TypeRef
