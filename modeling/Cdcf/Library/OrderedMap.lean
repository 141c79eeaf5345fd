import Mathlib.Data.List.Sort
import Mathlib.Order.Lattice

/-!
Ordered maps in the sense of `std::map`: finite, iterated in the order of the keys, and
identifying keys through the comparator only.

The comparator is given by a projection `key : α → κ` to a linear order, so that two keys
of type `α` are equivalent when their projections agree.  What sets such a map apart from a
finite function on `κ` is that it stores the whole key of type `α`, and that assigning to a
key which is already there (`m[a] = b`) keeps the key stored first and replaces the value
only; `put` is this rule for one slot.

* `OrderedMap`: the entries together with the proof that they are sorted.
* `find?_assign`, `find?_erase`, `find?_empty`: each operation read through `find?`, which
  is all the rest of the development uses; `get?_assign` and its like leave out the stored key.
* `perm_entries_emplace`: a new key makes one entry more.
* `view_foldl_entries`: a loop over the entries acts on every key at most once.
* `find?_ofList_map`: the entries of a map are found again in the map built from their list,
  and `mem_of_find?_ofList` is the half that holds of any list.
-/

namespace Cdcf

variable {α β γ κ : Type*}

/-- The slot of one key after `m[a] = b`: a stored key is kept, its value replaced. -/
def put (a : α) (b : β) : Option (α × β) → Option (α × β)
  | none => some (a, b)
  | some (a', _) => some (a', b)

@[simp] lemma put_none (a : α) (b : β) : put a b none = some (a, b) := rfl

@[simp] lemma put_some (a a' : α) (b b' : β) : put a b (some (a', b')) = some (a', b) := rfl

@[simp] lemma put_ne_none (a : α) (b : β) : ∀ o : Option (α × β), put a b o ≠ none
  | none => by simp
  | some (_, _) => by simp

@[simp] lemma isSome_put (a : α) (b : β) (o : Option (α × β)) : (put a b o).isSome = true :=
  Option.isSome_iff_ne_none.mpr (put_ne_none a b o)

@[simp] lemma map_snd_put (a : α) (b : β) (o : Option (α × β)) :
    (put a b o).map Prod.snd = some b := by
  cases o <;> rfl

/-- Whatever was stored, the value is the one that has been put. -/
lemma snd_of_mem_put {a : α} {b : β} {o : Option (α × β)} {p : α × β} (h : p ∈ put a b o) :
    p.2 = b := by
  have hval := map_snd_put a b o
  rw [Option.mem_def.mp h, Option.map_some, Option.some.injEq] at hval
  exact hval

/-- A finite map sorted by the projection `key` of its keys. -/
structure OrderedMap [LinearOrder κ] (key : α → κ) (β : Type*) where
  entries : List (α × β)
  sorted : entries.Pairwise fun p q => key p.1 < key q.1

namespace OrderedMap

variable [LinearOrder κ] {key : α → κ}

/-! ### Operations -/

/-- The map without entries. -/
def empty : OrderedMap key β := ⟨[], List.Pairwise.nil⟩

/-- The stored key and the value at `k`, as `std::map::find` reaches them. -/
def find? (m : OrderedMap key β) (k : κ) : Option (α × β) :=
  m.entries.find? fun p => key p.1 = k

/-- Whether `k` has an entry. -/
def contains (m : OrderedMap key β) (k : κ) : Bool := (m.find? k).isSome

/-- The value at `k`. -/
def get? (m : OrderedMap key β) (k : κ) : Option β := (m.find? k).map Prod.snd

/-- The stored keys in their order. -/
def keys (m : OrderedMap key β) : List α := m.entries.map Prod.fst

/-- The number of entries. -/
def size (m : OrderedMap key β) : ℕ := m.entries.length

/-- Assignment on a sorted list of entries. -/
def assignEntries (key : α → κ) (a : α) (b : β) : List (α × β) → List (α × β)
  | [] => [(a, b)]
  | (a', b') :: rest =>
      if key a < key a' then (a, b) :: (a', b') :: rest
      else if key a' = key a then (a', b) :: rest
      else (a', b') :: assignEntries key a b rest

lemma key_of_mem_assignEntries {a : α} {b : β} {p : α × β} {l : List (α × β)}
    (h : p ∈ assignEntries key a b l) : key p.1 = key a ∨ ∃ q ∈ l, key p.1 = key q.1 := by
  induction l with
  | nil =>
      rw [assignEntries, List.mem_singleton] at h
      exact Or.inl (by rw [h])
  | cons hd rest ih =>
      obtain ⟨a', b'⟩ := hd
      rw [assignEntries] at h
      split_ifs at h with h1 h2
      · rcases List.mem_cons.mp h with rfl | h
        · exact Or.inl rfl
        · exact Or.inr ⟨p, h, rfl⟩
      · rcases List.mem_cons.mp h with rfl | h
        · exact Or.inl h2
        · exact Or.inr ⟨p, List.mem_cons_of_mem _ h, rfl⟩
      · rcases List.mem_cons.mp h with rfl | h
        · exact Or.inr ⟨_, List.mem_cons_self, rfl⟩
        · rcases ih h with h | ⟨q, hq, h⟩
          · exact Or.inl h
          · exact Or.inr ⟨q, List.mem_cons_of_mem _ hq, h⟩

lemma pairwise_assignEntries (a : α) (b : β) {l : List (α × β)}
    (hl : l.Pairwise fun p q => key p.1 < key q.1) :
    (assignEntries key a b l).Pairwise fun p q => key p.1 < key q.1 := by
  induction l with
  | nil => exact List.pairwise_singleton _ _
  | cons hd rest ih =>
      obtain ⟨a', b'⟩ := hd
      have hrest := List.pairwise_cons.mp hl
      rw [assignEntries]
      split_ifs with h1 h2
      · refine List.pairwise_cons.mpr ⟨fun p hp => ?_, hl⟩
        rcases List.mem_cons.mp hp with rfl | hp
        · exact h1
        · exact h1.trans (hrest.1 p hp)
      · exact List.pairwise_cons.mpr ⟨hrest.1, hrest.2⟩
      · refine List.pairwise_cons.mpr ⟨fun p hp => ?_, ih hrest.2⟩
        rcases key_of_mem_assignEntries hp with h | ⟨q, hq, h⟩
        · exact h ▸ lt_of_le_of_ne (not_lt.mp h1) h2
        · exact h ▸ hrest.1 q hq

/-- Assignment `m[a] = b`: an equivalent key that is already stored stays, else `a` is
inserted at its place. -/
def assign (m : OrderedMap key β) (a : α) (b : β) : OrderedMap key β :=
  ⟨assignEntries key a b m.entries, pairwise_assignEntries a b m.sorted⟩

/-- Insertion `m.emplace(a, b)`: an equivalent key that is already stored keeps its value. -/
def emplace (m : OrderedMap key β) (a : α) (b : β) : OrderedMap key β :=
  if m.contains (key a) then m else m.assign a b

/-- Removal of the entry at `k`. -/
def erase (m : OrderedMap key β) (k : κ) : OrderedMap key β :=
  ⟨m.entries.filter fun p => key p.1 ≠ k, m.sorted.filter _⟩

/-- The map built by assigning the entries of a list one after the other. -/
def ofList (l : List (α × β)) : OrderedMap key β :=
  l.foldl (fun m p => m.assign p.1 p.2) empty

/-! ### The operations read through `find?` -/

@[simp] lemma find?_empty (k : κ) : (empty : OrderedMap key β).find? k = none := rfl

lemma find?_assignEntries (a : α) (b : β) (k : κ) {l : List (α × β)}
    (hl : l.Pairwise fun p q => key p.1 < key q.1) :
    (assignEntries key a b l).find? (fun p => key p.1 = k)
      = if key a = k then put a b (l.find? fun p => key p.1 = k)
        else l.find? fun p => key p.1 = k := by
  induction l with
  | nil => by_cases h : key a = k <;> simp [assignEntries, h]
  | cons hd rest ih =>
      obtain ⟨a', b'⟩ := hd
      have hrest := List.pairwise_cons.mp hl
      rw [assignEntries]
      by_cases h1 : key a < key a'
      · -- everything stored lies above `a`, so `a` is not there yet
        have hnone : key a = k →
            ((a', b') :: rest).find? (fun p => key p.1 = k) = none := by
          rintro rfl
          refine List.find?_eq_none.mpr fun p hp => ?_
          rcases List.mem_cons.mp hp with rfl | hp
          · simpa using h1.ne'
          · simpa using (h1.trans (hrest.1 p hp)).ne'
        by_cases hk : key a = k
        · rw [if_pos h1, if_pos hk, hnone hk]
          simp [hk]
        · rw [if_pos h1, if_neg hk]
          simp [hk]
      · rw [if_neg h1]
        by_cases h2 : key a' = key a
        · by_cases hk : key a = k <;> simp [h2, hk]
        · rw [if_neg h2]
          by_cases hk' : key a' = k
          · have hk : key a ≠ k := fun h => h2 (hk'.trans h.symm)
            simp [hk', hk]
          · simpa [hk'] using ih hrest.2

lemma find?_assign (m : OrderedMap key β) (a : α) (b : β) (k : κ) :
    (m.assign a b).find? k = if key a = k then put a b (m.find? k) else m.find? k :=
  find?_assignEntries a b k m.sorted

lemma find?_erase (m : OrderedMap key β) (k k' : κ) :
    (m.erase k).find? k' = if k = k' then none else m.find? k' := by
  rw [find?, erase, List.find?_filter]
  by_cases h : k = k'
  · rw [if_pos h]
    exact List.find?_eq_none.mpr fun p _ => by simp [h]
  · rw [if_neg h]
    refine congrFun (congrArg List.find? (funext fun p => ?_)) m.entries
    by_cases hp : key p.1 = k'
    · simp [hp, Ne.symm h]
    · simp [hp]

/-- The stored key found at `k` projects to `k`. -/
lemma key_of_find? {m : OrderedMap key β} {k : κ} {p : α × β} (h : m.find? k = some p) :
    key p.1 = k := by
  simpa using List.find?_some h

lemma find?_isSome_of_mem_keys {m : OrderedMap key β} {a : α} (h : a ∈ m.keys) :
    (m.find? (key a)).isSome := by
  obtain ⟨p, hp, rfl⟩ := List.mem_map.mp h
  exact List.find?_isSome.mpr ⟨p, hp, by simp⟩

/-- Every entry is found under its key. -/
lemma find?_of_mem_entries {m : OrderedMap key β} {p : α × β} (h : p ∈ m.entries) :
    m.find? (key p.1) = some p := by
  obtain ⟨l, hl⟩ := m
  rw [find?]
  induction l with
  | nil => exact absurd h List.not_mem_nil
  | cons q l ih =>
      have hrest := List.pairwise_cons.mp hl
      rcases List.mem_cons.mp h with rfl | hp
      · exact List.find?_cons_of_pos (by simp)
      · rw [List.find?_cons_of_neg (by simpa using (hrest.1 p hp).ne)]
        exact ih hrest.2 hp

/-- At most one entry has a key. -/
lemma filter_entries (m : OrderedMap key β) (k : κ) :
    m.entries.filter (fun p => key p.1 = k) = (m.find? k).toList := by
  obtain ⟨l, hl⟩ := m
  rw [find?]
  induction l with
  | nil => rfl
  | cons q l ih =>
      have hrest := List.pairwise_cons.mp hl
      by_cases hq : key q.1 = k
      · have hnone : l.filter (fun p => key p.1 = k) = [] :=
          List.filter_eq_nil_iff.mpr fun p hp => by
            simpa [← hq] using (hrest.1 p hp).ne'
        simp [hq, hnone]
      · simpa [hq] using ih hrest.2

/-- The keys that have an entry are the projections of the stored ones. -/
lemma find?_isSome_iff {m : OrderedMap key β} {k : κ} :
    (m.find? k).isSome = true ↔ ∃ a ∈ m.keys, key a = k := by
  constructor
  · intro h
    obtain ⟨p, hp⟩ := Option.isSome_iff_exists.mp h
    exact ⟨p.1, List.mem_map_of_mem (List.mem_of_find?_eq_some hp), key_of_find? hp⟩
  · rintro ⟨a, ha, rfl⟩
    exact find?_isSome_of_mem_keys ha

/-- Maps in which the same is found are equal. -/
lemma ext_find? {m m' : OrderedMap key β} (h : ∀ k, m.find? k = m'.find? k) : m = m' := by
  have hmem : ∀ {m : OrderedMap key β} {p : α × β}, p ∈ m.entries ↔ m.find? (key p.1) = some p :=
    ⟨find?_of_mem_entries, fun hp => List.mem_of_find?_eq_some hp⟩
  have hnodup : ∀ m : OrderedMap key β, m.entries.Nodup := fun m =>
    m.sorted.imp fun hlt heq => hlt.ne (congrArg (fun p => key p.1) heq)
  have hperm : m.entries.Perm m'.entries :=
    (List.perm_ext_iff_of_nodup (hnodup m) (hnodup m')).mpr fun p => by rw [hmem, hmem, h]
  have hentries : m.entries = m'.entries :=
    hperm.eq_of_pairwise (fun _ _ _ _ hlt hgt => absurd hlt hgt.asymm) m.sorted m'.sorted
  cases m
  cases m'
  simpa using hentries

lemma contains_eq_false {m : OrderedMap key β} {k : κ} :
    m.contains k = false ↔ m.find? k = none := by
  simp [contains]

lemma perm_assignEntries {a : α} {b : β} {l : List (α × β)} (h : ∀ p ∈ l, key p.1 ≠ key a) :
    (assignEntries key a b l).Perm ((a, b) :: l) := by
  induction l with
  | nil => exact List.Perm.refl _
  | cons hd rest ih =>
      have hrest := ih fun p hp => h p (List.mem_cons_of_mem _ hp)
      rw [assignEntries, if_neg (h hd List.mem_cons_self)]
      split
      · exact List.Perm.refl _
      · exact (hrest.cons hd).trans (List.Perm.swap _ _ _)

/-- A new key makes one entry more. -/
lemma perm_entries_emplace {m : OrderedMap key β} {a : α} (b : β)
    (h : ∀ p ∈ m.entries, key p.1 ≠ key a) :
    (m.emplace a b).entries.Perm ((a, b) :: m.entries) := by
  have hnew : m.contains (key a) = false := by
    rw [contains_eq_false, find?, List.find?_eq_none]
    exact fun p hp => by simpa using h p hp
  rw [emplace, if_neg (by simp [hnew])]
  exact perm_assignEntries h

/-! ### The operations read through `get?` -/

@[simp] lemma get?_empty (k : κ) : (empty : OrderedMap key β).get? k = none := rfl

@[simp] lemma get?_assign (m : OrderedMap key β) (a : α) (b : β) (k : κ) :
    (m.assign a b).get? k = if key a = k then some b else m.get? k := by
  rw [get?, find?_assign]
  split
  · exact map_snd_put a b _
  · rfl

lemma get?_assign_self (m : OrderedMap key β) (a : α) (b : β) :
    (m.assign a b).get? (key a) = some b := by
  rw [get?_assign, if_pos rfl]

@[simp] lemma get?_erase (m : OrderedMap key β) (k k' : κ) :
    (m.erase k).get? k' = if k = k' then none else m.get? k' := by
  rw [get?, find?_erase]
  split <;> rfl

lemma get?_of_mem_entries {m : OrderedMap key β} {p : α × β} (h : p ∈ m.entries) :
    m.get? (key p.1) = some p.2 := by
  rw [get?, find?_of_mem_entries h, Option.map_some]

lemma isSome_get? (m : OrderedMap key β) (k : κ) : (m.get? k).isSome = m.contains k := by
  rw [get?, contains, Option.isSome_map]

lemma get?_eq_none {m : OrderedMap key β} {k : κ} : m.get? k = none ↔ m.contains k = false := by
  rw [← isSome_get?, Option.isSome_eq_false_iff, Option.isNone_iff_eq_none]

/-! ### Loops over a map -/

/-- A loop over the entries of a map whose rounds each touch their own key only acts on
every key at most once. -/
lemma view_foldl_entries {σ ρ : Type*} {f : σ → α × β → σ} {view : σ → κ → ρ}
    {g : α × β → ρ → ρ}
    (hf : ∀ s p k, view (f s p) k = if key p.1 = k then g p (view s k) else view s k)
    (m : OrderedMap key β) (s : σ) (k : κ) :
    view (m.entries.foldl f s) k
      = match m.find? k with
        | some p => g p (view s k)
        | none => view s k := by
  obtain ⟨l, hl⟩ := m
  rw [find?]
  induction l generalizing s with
  | nil => rfl
  | cons p l ih =>
      have hrest := List.pairwise_cons.mp hl
      rw [List.foldl_cons, ih _ hrest.2, hf]
      by_cases hp : key p.1 = k
      · have hnone : l.find? (fun q => key q.1 = k) = none :=
          List.find?_eq_none.mpr fun q hq => by
            simpa [← hp] using (hrest.1 q hq).ne'
        simp [hp, hnone]
      · simp [hp]

/-- The entries of a map, each rewritten without moving its key, are found in the map built
from their list. -/
lemma find?_ofList_map {f : α × β → α × γ} (hf : ∀ p, key (f p).1 = key p.1)
    (m : OrderedMap key β) (k : κ) :
    (ofList (m.entries.map f) : OrderedMap key γ).find? k = (m.find? k).map f := by
  have hsorted : (m.entries.map f).Pairwise fun p q => key p.1 < key q.1 :=
    List.pairwise_map.mpr (m.sorted.imp fun h => by rwa [hf, hf])
  have hloop := view_foldl_entries (g := fun p o => put p.1 p.2 o)
    (fun (s : OrderedMap key γ) p k => find?_assign s p.1 p.2 k) ⟨m.entries.map f, hsorted⟩ empty k
  have hmap : (⟨m.entries.map f, hsorted⟩ : OrderedMap key γ).find? k = (m.find? k).map f := by
    simp only [find?, List.find?_map, Function.comp_def, hf]
  rw [ofList, hloop, hmap, find?_empty]
  cases m.find? k <;> rfl

/-- The map built from the entries of a map, each rewritten without moving its key. -/
lemma entries_ofList_map {f : α × β → α × γ} (hf : ∀ p, key (f p).1 = key p.1)
    (m : OrderedMap key β) :
    (ofList (m.entries.map f) : OrderedMap key γ).entries = m.entries.map f := by
  have hsorted : (m.entries.map f).Pairwise fun p q => key p.1 < key q.1 :=
    List.pairwise_map.mpr (m.sorted.imp fun h => by rwa [hf, hf])
  have heq : (ofList (m.entries.map f) : OrderedMap key γ) = ⟨m.entries.map f, hsorted⟩ := by
    refine ext_find? fun k => ?_
    rw [find?_ofList_map hf]
    simp only [find?, List.find?_map, Function.comp_def, hf]
  rw [heq]

/-- What is found in a map built from a list is the value of an entry of the list. -/
lemma mem_of_find?_ofList {l : List (α × β)} {k : κ} {p : α × β}
    (h : (ofList l : OrderedMap key β).find? k = some p) : ∃ q ∈ l, key q.1 = k ∧ q.2 = p.2 := by
  have hloop : ∀ (l : List (α × β)) (m : OrderedMap key β),
      (l.foldl (fun m p => m.assign p.1 p.2) m).find? k = some p →
        m.find? k = some p ∨ ∃ q ∈ l, key q.1 = k ∧ q.2 = p.2 := by
    intro l
    induction l with
    | nil => exact fun _ hm => Or.inl hm
    | cons q l ih =>
        intro m hm
        rcases ih _ hm with hm | ⟨q', hq', hk⟩
        · rw [find?_assign] at hm
          split_ifs at hm with hk
          · exact Or.inr ⟨q, List.mem_cons_self, hk, (snd_of_mem_put hm).symm⟩
          · exact Or.inl hm
        · exact Or.inr ⟨q', List.mem_cons_of_mem _ hq', hk⟩
  rcases hloop l empty h with h | h
  · simp at h
  · exact h

end OrderedMap

end Cdcf
