import Cdcf.Library.Text
import Cdcf.Membership.Member

/-!
The seeds of a node keeper (`config.h`, `common.cc`): `host:port,host:port`.

`GetSeeds` splits twice, drops empty tokens, and reads what is left of an entry of two words with
`std::stoi`, whose result it narrows to a port.

* `split`, `getSeeds`: the functions of the source.
* `IsEntry`: an entry of the documented format; `documented`: what those of a string stand for.
* `getSeeds_iff`: the strings of which `GetSeeds` gives just that.
-/

namespace Cdcf

namespace Seeds

open Text

/-- `node_keeper::split`. -/
def split (input : List Char) (delim : Char) : List (List Char) :=
  (getlines delim input).filter (· ≠ [])

/-- The loop of `GetSeeds`; an exception of `std::stoi` leaves it. -/
def seedsOf : List (List Char) → Except StoiError (List Address)
  | [] => .ok []
  | addressString :: addresses =>
      match split addressString ':' with
      | [host, port] =>
          match stoi port with
          | .error err => .error err
          | .ok port =>
              (seedsOf addresses).map fun result =>
                ⟨String.ofList host, UInt16.ofInt port⟩ :: result
      | _ => seedsOf addresses

/-- `Config::GetSeeds`. -/
def getSeeds (seeds : String) : Except StoiError (List Address) :=
  seedsOf (split seeds.toList ',')

/-! ### The documented format -/

/-- The entry is a host without `:`, then `:`, then a port in decimal. -/
def IsEntry (entry : List Char) (a : Address) : Prop :=
  ∃ port, entry = a.host.toList ++ ':' :: port ∧ a.host.toList ≠ [] ∧ ':' ∉ a.host.toList
    ∧ port ≠ [] ∧ (∀ c ∈ port, c.isDigit = true) ∧ Nat.ofDigitChars 10 port 0 = a.port.toNat

/-- The address that an entry of the documented format stands for. -/
def readEntry (entry : List Char) : Option Address :=
  let host := entry.takeWhile (· ≠ ':')
  let port := (entry.dropWhile (· ≠ ':')).tail
  if host ≠ [] ∧ port ≠ [] ∧ port.all Char.isDigit ∧ Nat.ofDigitChars 10 port 0 < 2 ^ 16 then
    some ⟨String.ofList host, UInt16.ofNat (Nat.ofDigitChars 10 port 0)⟩
  else none

/-- The addresses of the entries of the documented format, in their order. -/
def documented (seeds : String) : List Address := (seeds.toList.splitOn ',').filterMap readEntry

/-- `readEntry` finds the entries of the documented format. -/
lemma readEntry_eq_some_iff {entry : List Char} {a : Address} :
    readEntry entry = some a ↔ IsEntry entry a := by
  constructor
  · intro h
    rw [readEntry] at h
    split at h
    · next hcond =>
        obtain ⟨hhost, hport, hdigits, hlt⟩ := hcond
        obtain rfl := Option.some.inj h
        refine ⟨(entry.dropWhile (· ≠ ':')).tail, ?_, by simpa using hhost, ?_, hport,
          List.all_eq_true.mp hdigits, ?_⟩
        · -- something stands behind the first `:`, which is there then
          have hsplit := List.takeWhile_append_dropWhile (p := (· ≠ ':')) (l := entry)
          cases hdrop : entry.dropWhile (· ≠ ':') with
          | nil =>
              rw [hdrop] at hport
              exact absurd rfl hport
          | cons c rest =>
              have hc : c = ':' := by
                have hnot := List.head?_dropWhile_not (p := (· ≠ ':')) (l := entry)
                rw [hdrop] at hnot
                simpa using hnot
              rw [hdrop, hc] at hsplit
              rw [String.toList_ofList, List.tail_cons, hsplit]
        · rw [String.toList_ofList]
          intro hmem
          simpa using List.mem_takeWhile_imp hmem
        · rw [UInt16.toNat_ofNat', Nat.mod_eq_of_lt hlt]
    · exact absurd h (by simp)
  · rintro ⟨port, rfl, hhost, hnot, hport, hdigits, hvalue⟩
    have hlt := a.port.toNat_lt
    simp only [readEntry, takeWhile_append_cons hnot, dropWhile_append_cons hnot, List.tail_cons]
    rw [if_pos ⟨hhost, hport, List.all_eq_true.mpr hdigits, by omega⟩, hvalue,
      String.ofList_toList, UInt16.ofNat_toNat]

/-! ### What `split` gives -/

lemma split_eq (input : List Char) (delim : Char) :
    split input delim = (input.splitOn delim).filter (· ≠ []) :=
  getlines_ne_nil delim input

/-- An entry of the documented format has two words. -/
lemma IsEntry.split_eq {entry : List Char} {a : Address} (h : IsEntry entry a) :
    ∃ port, split entry ':' = [a.host.toList, port] ∧ stoi port = .ok (a.port.toNat : ℤ) := by
  obtain ⟨port, rfl, hhost, hnot, hport, hdigits, hvalue⟩ := h
  refine ⟨port, ?_, ?_⟩
  · rw [Seeds.split_eq, List.splitOn_append_cons_self_of_not_mem hnot,
      List.splitOn_eq_singleton (notMem_of_isDigit (by decide) hdigits)]
    simp [hhost, hport]
  · have hlt := a.port.toNat_lt
    rw [stoi_of_isDigit hport hdigits, hvalue, if_pos (by omega)]

/-! ### The loop -/

/-- An entry of the documented format is read as its address. -/
lemma seedsOf_of_isEntry {entry : List Char} {a : Address} (h : IsEntry entry a)
    (entries : List (List Char)) :
    seedsOf (entry :: entries) = (seedsOf entries).map fun result => a :: result := by
  obtain ⟨port, hsplit, hstoi⟩ := h.split_eq
  rw [seedsOf, hsplit]
  simp only [hstoi, ofInt_toNat, String.ofList_toList]

/-- An entry that has not two words is skipped. -/
lemma seedsOf_of_skipped {entry : List Char} (h : (split entry ':').length ≠ 2)
    (entries : List (List Char)) : seedsOf (entry :: entries) = seedsOf entries := by
  rw [seedsOf]
  split
  · next heq => exact absurd (by rw [heq]; rfl) h
  · rfl

/-- An entry of two words throws, or gives one address. -/
lemma seedsOf_of_two {entry : List Char} (h : (split entry ':').length = 2)
    (entries : List (List Char)) :
    (∃ err, seedsOf (entry :: entries) = .error err)
      ∨ ∃ a, seedsOf (entry :: entries) = (seedsOf entries).map fun result => a :: result := by
  obtain ⟨host, port, hsplit⟩ := List.length_eq_two.mp h
  rw [seedsOf, hsplit]
  cases hport : stoi port with
  | error err => exact Or.inl ⟨err, by simp only [hport]⟩
  | ok number =>
      refine Or.inr ⟨⟨String.ofList host, UInt16.ofInt number⟩, ?_⟩
      simp only [hport]

/-- What the loop gives has an address for each entry of the documented format, at least. -/
lemma length_filterMap_le {entries : List (List Char)} {result : List Address}
    (h : seedsOf entries = .ok result) : (entries.filterMap readEntry).length ≤ result.length := by
  induction entries generalizing result with
  | nil => simp
  | cons entry entries ih =>
      by_cases htwo : (split entry ':').length = 2
      · rcases seedsOf_of_two htwo entries with ⟨err, herr⟩ | ⟨a, ha⟩
        · rw [herr] at h
          exact absurd h (by simp)
        · rw [ha] at h
          cases hrest : seedsOf entries with
          | error err => simp [hrest, Except.map] at h
          | ok rest =>
              obtain rfl : a :: rest = result := by simpa [hrest, Except.map] using h
              have hle := ih hrest
              rw [List.filterMap_cons]
              split
              · exact Nat.le_succ_of_le hle
              · exact Nat.succ_le_succ hle
      · have hnone : readEntry entry = none := by
          refine Option.eq_none_iff_forall_ne_some.mpr fun a ha => htwo ?_
          obtain ⟨port, hsplit, -⟩ := (readEntry_eq_some_iff.mp ha).split_eq
          rw [hsplit]
          rfl
        rw [seedsOf_of_skipped htwo] at h
        rw [List.filterMap_cons, hnone]
        exact ih h

/-- The loop gives the addresses of the entries of the documented format exactly when all entries
of two words are of it. -/
lemma seedsOf_iff (entries : List (List Char)) :
    seedsOf entries = .ok (entries.filterMap readEntry)
      ↔ ∀ entry ∈ entries, (split entry ':').length = 2 → ∃ a, IsEntry entry a := by
  induction entries with
  | nil => simp [seedsOf]
  | cons entry entries ih =>
      rw [List.forall_mem_cons, ← ih]
      by_cases hentry : ∃ a, IsEntry entry a
      · obtain ⟨a, ha⟩ := hentry
        rw [seedsOf_of_isEntry ha, List.filterMap_cons, readEntry_eq_some_iff.mpr ha]
        cases seedsOf entries <;> simp [Except.map, show ∃ a, IsEntry entry a from ⟨a, ha⟩]
      · have hnone : readEntry entry = none :=
          Option.eq_none_iff_forall_ne_some.mpr fun a ha =>
            hentry ⟨a, readEntry_eq_some_iff.mp ha⟩
        rw [List.filterMap_cons, hnone]
        by_cases htwo : (split entry ':').length = 2
        · refine ⟨fun h => ?_, fun h => absurd (h.1 htwo) hentry⟩
          rcases seedsOf_of_two htwo entries with ⟨err, herr⟩ | ⟨a, ha⟩
          · rw [herr] at h
            exact absurd h (by simp)
          · -- an address too many
            rw [ha] at h
            cases hrest : seedsOf entries with
            | error err => simp [hrest, Except.map] at h
            | ok rest =>
                have hlen := length_filterMap_le hrest
                have heq : a :: rest = entries.filterMap readEntry := by
                  simpa [hrest, Except.map] using h
                rw [← heq, List.length_cons] at hlen
                omega
        · rw [seedsOf_of_skipped htwo]
          simp [htwo]

/-! ### What is accepted -/

/-- An address as it is written in the option. -/
def renderEntry (a : Address) : String := a.host ++ ":" ++ toString a.port.toNat

/-- The addresses as they are written in the option. -/
def render (addresses : List Address) : String := ",".intercalate (addresses.map renderEntry)

/-- The host is there, and nothing in it separates words or entries. -/
def IsHost (host : String) : Prop := host.toList ≠ [] ∧ ':' ∉ host.toList ∧ ',' ∉ host.toList

lemma toList_renderEntry (a : Address) :
    (renderEntry a).toList = a.host.toList ++ ':' :: Nat.toDigits 10 a.port.toNat := by
  simp [renderEntry]

/-- What is rendered is of the documented format. -/
lemma isEntry_renderEntry {a : Address} (h : IsHost a.host) :
    IsEntry (renderEntry a).toList a :=
  ⟨Nat.toDigits 10 a.port.toNat, toList_renderEntry a, h.1, h.2.1, Nat.toDigits_ne_nil,
    fun _ hc => Nat.isDigit_of_mem_toDigits (by omega) (by omega) hc,
    Nat.ofDigitChars_ten_toDigits⟩

/-- The entries of a rendered list are split where they were joined. -/
lemma splitOn_render {addresses : List Address} (hne : addresses ≠ [])
    (h : ∀ a ∈ addresses, IsHost a.host) :
    (render addresses).toList.splitOn ',' = addresses.map fun a => (renderEntry a).toList := by
  have hjoin : (render addresses).toList
      = [','].intercalate (addresses.map fun a => (renderEntry a).toList) := by
    rw [render, String.toList_intercalate, List.map_map]
    rfl
  rw [hjoin]
  refine List.splitOn_intercalate ',' ?_ (by simpa using hne)
  intro entry hentry
  obtain ⟨a, ha, rfl⟩ := List.mem_map.mp hentry
  rw [toList_renderEntry]
  intro hcomma
  rcases List.mem_append.mp hcomma with hhost | hrest
  · exact (h a ha).2.2 hhost
  · rcases List.mem_cons.mp hrest with heq | hdigit
    · exact absurd heq (by decide)
    · exact absurd hdigit (notMem_toDigits (by decide) _)

/-- The format is read back as it is written. -/
lemma documented_render {addresses : List Address} (hne : addresses ≠ [])
    (h : ∀ a ∈ addresses, IsHost a.host) : documented (render addresses) = addresses := by
  have hentry : ∀ a ∈ addresses, readEntry (renderEntry a).toList = some a := fun a ha =>
    readEntry_eq_some_iff.mpr (isEntry_renderEntry (h a ha))
  rw [documented, splitOn_render hne h, List.filterMap_map]
  clear hne h
  induction addresses with
  | nil => rfl
  | cons a addresses ih =>
      rw [List.forall_mem_cons] at hentry
      rw [List.filterMap_cons, Function.comp, hentry.1, ih hentry.2]

/-- The empty parts that `split` drops are no entries. -/
lemma getSeeds_eq_documented_iff (seeds : String) :
    getSeeds seeds = .ok (documented seeds)
      ↔ ∀ entry ∈ seeds.toList.splitOn ',', (split entry ':').length = 2 →
        ∃ a, IsEntry entry a := by
  have hskip : ∀ entries : List (List Char),
      (entries.filter (· ≠ [])).filterMap readEntry = entries.filterMap readEntry := by
    intro entries
    rw [List.filterMap_filter]
    refine List.filterMap_congr fun entry _ => ?_
    by_cases hentry : entry = []
    · subst hentry
      rfl
    · simp [hentry]
  rw [getSeeds, split_eq, documented, ← hskip, seedsOf_iff]
  constructor
  · intro h entry hmem htwo
    refine h entry (List.mem_filter.mpr ⟨hmem, ?_⟩) htwo
    rw [decide_eq_true_eq]
    rintro rfl
    exact absurd htwo (by decide)
  · exact fun h entry hmem => h entry (List.mem_of_mem_filter hmem)

/-- **Seeds.**  `GetSeeds` throws nothing and gives the addresses of the entries of the documented
format exactly when every entry of two words is of it.  So it gives back every list of addresses
that is written in this format. -/
theorem getSeeds_iff (seeds : String) :
    (getSeeds seeds = .ok (documented seeds)
        ↔ ∀ entry ∈ seeds.toList.splitOn ',', (split entry ':').length = 2 →
          ∃ a, IsEntry entry a)
      ∧ ∀ addresses : List Address, (∀ a ∈ addresses, IsHost a.host) →
        getSeeds (render addresses) = .ok addresses := by
  refine ⟨getSeeds_eq_documented_iff seeds, fun addresses h => ?_⟩
  by_cases hne : addresses = []
  · subst hne
    rfl
  · have hall : ∀ entry ∈ (render addresses).toList.splitOn ',',
        (split entry ':').length = 2 → ∃ a, IsEntry entry a := by
      intro entry hentry _
      rw [splitOn_render hne h] at hentry
      obtain ⟨a, ha, rfl⟩ := List.mem_map.mp hentry
      exact ⟨a, isEntry_renderEntry (h a ha)⟩
    rw [(getSeeds_eq_documented_iff _).mpr hall, documented_render hne h]

/-- A port that is no number throws, and one that is too large is taken for another. -/
theorem not_getSeeds_port :
    getSeeds "node:http" = .error .invalidArgument ∧ documented "node:http" = []
      ∧ getSeeds "node:70000" = .ok [⟨"node", 4464⟩] ∧ documented "node:70000" = [] := by
  refine ⟨by decide, by decide, by decide, by decide⟩

end Seeds

end Cdcf
