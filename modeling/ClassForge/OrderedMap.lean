/-!
# Maps that remember their order

The order in which methods are found, bound and written shows in every class file, so the maps
that hold them keep their entries in the order in which the keys first came. Replacing the value
of a key leaves its place unchanged.

An entry list without repeated keys is all there is to such a map, and the type carries that
condition, so no statement about a map has to assume it.

## Main definitions

* `OrderedMap.get?` — the value of a key
* `OrderedMap.alter` — replace the value of a key in its place, or add it at the end
* `OrderedMap.insert` — `alter` with a value that does not look at the old one
-/

namespace ClassForge

/-- A finite map from `κ` to `α` with its entries in the order in which their keys were added. -/
structure OrderedMap (κ α : Type) where
  /-- The entries, oldest key first. -/
  entries : List (κ × α)
  /-- No key has two entries. -/
  nodup : (entries.map Prod.fst).Nodup

namespace OrderedMap

variable {κ α β : Type}

instance : Inhabited (OrderedMap κ α) := ⟨⟨[], .nil⟩⟩

/-- The map without entries. -/
def empty : OrderedMap κ α := ⟨[], .nil⟩

instance : EmptyCollection (OrderedMap κ α) := ⟨empty⟩

/-- The keys, oldest first. -/
def keys (m : OrderedMap κ α) : List κ := m.entries.map Prod.fst

/-- The values, in the order of their keys. -/
def values (m : OrderedMap κ α) : List α := m.entries.map Prod.snd

/-- The number of entries. -/
def size (m : OrderedMap κ α) : Nat := m.entries.length

/-- Whether there is no entry. -/
def isEmpty (m : OrderedMap κ α) : Bool := m.entries.isEmpty

variable [DecidableEq κ]

/-- The value of a key, if it has one. -/
def get? (m : OrderedMap κ α) (k : κ) : Option α := find? k m.entries
where
  /-- The value of the first entry for `k`. -/
  find? (k : κ) : List (κ × α) → Option α
    | [] => none
    | e :: es => if e.1 = k then some e.2 else find? k es

/-- Whether the key has a value. -/
def contains (m : OrderedMap κ α) (k : κ) : Bool := (m.get? k).isSome

/-! ### Changing one key -/

/-- The entry list with the value at `k` replaced in its place, or added at the end. -/
def alterEntries (k : κ) (f : Option α → α) : List (κ × α) → List (κ × α)
  | [] => [(k, f none)]
  | e :: es => if e.1 = k then (e.1, f (some e.2)) :: es else e :: alterEntries k f es

theorem keys_alterEntries (k : κ) (f : Option α → α) (es : List (κ × α)) :
    (alterEntries k f es).map Prod.fst =
      if k ∈ es.map Prod.fst then es.map Prod.fst else es.map Prod.fst ++ [k] := by
  induction es with
  | nil => simp [alterEntries]
  | cons e es ih =>
    by_cases h : e.1 = k
    · simp [alterEntries, h]
    · by_cases hk : k ∈ es.map Prod.fst <;> simp_all [alterEntries, eq_comm]

/-- Gives `k` the value that `f` makes of its old one. The place of `k` is unchanged if it had
a value; otherwise it comes last. -/
def alter (m : OrderedMap κ α) (k : κ) (f : Option α → α) : OrderedMap κ α where
  entries := alterEntries k f m.entries
  nodup := by
    rw [keys_alterEntries]
    split
    · exact m.nodup
    · rename_i h
      exact List.nodup_append.2 ⟨m.nodup, by simp, by
        intro a ha b hb
        obtain rfl := List.mem_singleton.1 hb
        exact fun hab => h (hab ▸ ha)⟩

/-- Gives `k` the value `v`. -/
def insert (m : OrderedMap κ α) (k : κ) (v : α) : OrderedMap κ α := m.alter k fun _ => v

theorem find?_alterEntries (k l : κ) (f : Option α → α) (es : List (κ × α)) :
    get?.find? l (alterEntries k f es) =
      if l = k then some (f (get?.find? k es)) else get?.find? l es := by
  induction es with
  | nil =>
    by_cases h : l = k
    · simp [alterEntries, get?.find?, h]
    · simp [alterEntries, get?.find?, h, Ne.symm h]
  | cons e es ih =>
    by_cases h : e.1 = k
    · by_cases hl : l = k <;> simp_all [alterEntries, get?.find?, eq_comm]
    · by_cases hl : e.1 = l
      · have : l ≠ k := fun h' => h (hl.trans h')
        simp [alterEntries, get?.find?, hl, this]
      · simp [alterEntries, get?.find?, h, hl, ih]

@[simp] theorem get?_alter (m : OrderedMap κ α) (k l : κ) (f : Option α → α) :
    (m.alter k f).get? l = if l = k then some (f (m.get? k)) else m.get? l :=
  find?_alterEntries k l f m.entries

@[simp] theorem get?_insert (m : OrderedMap κ α) (k l : κ) (v : α) :
    (m.insert k v).get? l = if l = k then some v else m.get? l :=
  get?_alter m k l _

@[simp] theorem get?_empty (k : κ) : (empty : OrderedMap κ α).get? k = none := rfl

/-- The map whose entries are inserted one after the other, so that of two with one key the
later value stands in the earlier place. -/
def ofList (es : List (κ × α)) : OrderedMap κ α :=
  es.foldl (fun m e => m.insert e.1 e.2) empty

end OrderedMap

end ClassForge
