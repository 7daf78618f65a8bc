import Mathlib.Data.List.Forall2

/-!
# Computations that come out well

A build is a computation that may be refused. If it comes out well, so did each of its parts, and
the lemmas here take it apart accordingly.
-/

namespace ClassForge

variable {ε α β : Type}

/-- A chain that comes out well does so at its first link, and then at the rest. -/
theorem ok_of_bind {x : Except ε α} {f : α → Except ε β} {b : β} (h : x >>= f = .ok b) :
    ∃ a, x = .ok a ∧ f a = .ok b := by
  cases x with
  | error _ => cases h
  | ok a => exact ⟨a, rfl, h⟩

theorem bind_eq_ok_iff {x : Except ε α} {f : α → Except ε β} {b : β} :
    x >>= f = .ok b ↔ ∃ a, x = .ok a ∧ f a = .ok b := by
  refine ⟨ok_of_bind, ?_⟩
  rintro ⟨a, rfl, h⟩
  exact h

theorem ok_bind (a : α) (f : α → Except ε β) : (Except.ok a >>= f) = f a := rfl

/-- Only what comes out of the first link matters to the rest of a chain. -/
theorem bind_congr_ok {x : Except ε α} {f g : α → Except ε β}
    (h : ∀ a, x = .ok a → f a = g a) : x >>= f = x >>= g := by
  cases x with
  | error _ => rfl
  | ok a => exact h a rfl

/-- A computation over a list that comes out well does so at every member. -/
theorem forall₂_of_mapM {f : α → Except ε β} : {xs : List α} → {ys : List β} →
    xs.mapM f = .ok ys → List.Forall₂ (fun x y => f x = .ok y) xs ys
  | [], ys, h => by
    obtain rfl := Except.ok.inj h
    exact .nil
  | x :: xs, ys, h => by
    rw [List.mapM_cons] at h
    obtain ⟨y, hy, h⟩ := ok_of_bind h
    obtain ⟨rest, hrest, h⟩ := ok_of_bind h
    obtain rfl := Except.ok.inj h
    exact .cons hy (forall₂_of_mapM hrest)

/-- A computation over a list that may come to nothing comes to something at every member. -/
theorem mapM_eq_some_iff {f : α → Option β} {xs : List α} {ys : List β} :
    xs.mapM f = some ys ↔ xs.map f = ys.map some := by
  induction xs generalizing ys with
  | nil => cases ys <;> simp
  | cons x xs ih =>
    rw [List.mapM_cons, List.map_cons]
    cases ys with
    | nil => simp [Option.bind_eq_some_iff]
    | cons y ys => simp [Option.bind_eq_some_iff, ih]

/-- What holds of all that a computation over a list collects, if it is known of each member what it
means for the part collected there. -/
theorem forall_mem_flatten_iff_of_mapM {f : α → Except ε (List β)} {P : β → Prop} {Q : α → Prop}
    {xs : List α} {yss : List (List β)} (h : xs.mapM f = .ok yss)
    (hf : ∀ x ys, f x = .ok ys → ((∀ y ∈ ys, P y) ↔ Q x)) :
    (∀ y ∈ yss.flatten, P y) ↔ ∀ x ∈ xs, Q x := by
  replace h := forall₂_of_mapM h
  induction h with
  | nil => simp
  | cons hx _ ih =>
    rw [List.flatten_cons, List.forall_mem_append, List.forall_mem_cons]
    exact and_congr (hf _ _ hx) ih

/-- A computation of which a test holds comes out well. -/
theorem exists_ok_of_any {x : Except ε α} {f : α → Bool} (h : x.toOption.any f = true) :
    ∃ a, x = .ok a ∧ f a = true := by
  cases x with
  | error _ => cases h
  | ok a => exact ⟨a, rfl, h⟩

end ClassForge
