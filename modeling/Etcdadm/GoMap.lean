/-
Go maps with string keys: Mathlib's association lists without duplicate
keys. A `range` over a Go map visits its entries in an order that differs
from one loop to the next; `inOrder` lists the entries in a given order of
the keys, and `inOrder_perm` says that every order visits the same entries.
-/
import Mathlib

namespace Etcdadm

abbrev GoMap (V : Type) := AList fun _ : String => V

namespace GoMap

variable {V : Type}

/-- The entries, in the order the map happens to store them. -/
def pairs (m : GoMap V) : List (String × V) := m.entries.map fun e => (e.1, e.2)

/-- `len(m)` -/
def size (m : GoMap V) : Nat := m.entries.length

/-- The entries at `ks`, in that order. -/
def inOrder (m : GoMap V) (ks : List String) : List (String × V) :=
  ks.filterMap fun k => (m.lookup k).map fun v => (k, v)

theorem mem_pairs {m : GoMap V} {k : String} {v : V} : (k, v) ∈ m.pairs ↔ m.lookup k = some v := by
  rw [← Option.mem_def, AList.mem_lookup_iff, pairs, List.mem_map]
  exact ⟨fun ⟨⟨_, _⟩, he, h⟩ => by cases h; exact he, fun h => ⟨⟨k, v⟩, h, rfl⟩⟩

theorem keys_eq_map_pairs (m : GoMap V) : m.pairs.map Prod.fst = m.keys := by
  simp [pairs, AList.keys, List.keys, Function.comp_def]

theorem nodup_pairs (m : GoMap V) : (m.pairs.map Prod.fst).Nodup := by
  rw [keys_eq_map_pairs]
  exact m.nodupKeys

@[simp] theorem length_pairs (m : GoMap V) : m.pairs.length = m.size := by simp [pairs, size]

theorem length_keys (m : GoMap V) : m.keys.length = m.size := by
  rw [← keys_eq_map_pairs, List.length_map, length_pairs]

theorem lookup_insert_eq_some {m : GoMap V} {k k' : String} {v w : V} :
    (m.insert k v).lookup k' = some w ↔ (k' = k ∧ w = v) ∨ (k' ≠ k ∧ m.lookup k' = some w) := by
  by_cases h : k' = k
  · subst h
    simp [AList.lookup_insert, eq_comm]
  · simp [AList.lookup_insert_ne h, h]

/-- Entries are found again by visiting their keys in the same order. -/
theorem inOrder_fst {m : GoMap V} {l : List (String × V)} (h : ∀ e ∈ l, e ∈ m.pairs) :
    m.inOrder (l.map Prod.fst) = l := by
  induction l with
  | nil => rfl
  | cons e l ih =>
    have he : m.lookup e.1 = some e.2 := mem_pairs.mp (h e (by simp))
    rw [List.map_cons, inOrder, List.filterMap_cons, he]
    simp only [Option.map_some, List.cons.injEq, true_and]
    exact ih fun e he => h e (by simp [he])

/-- Whatever the order, a loop over the map visits each entry once. -/
theorem inOrder_perm {m : GoMap V} {ks : List String} (h : ks.Perm m.keys) :
    (m.inOrder ks).Perm m.pairs := by
  have hk : m.inOrder m.keys = m.pairs := by
    rw [← keys_eq_map_pairs]
    exact inOrder_fst fun _ he => he
  rw [← hk]
  exact h.filterMap _

theorem mem_inOrder {m : GoMap V} {ks : List String} (h : ks.Perm m.keys) {k : String} {v : V} :
    (k, v) ∈ m.inOrder ks ↔ m.lookup k = some v := by
  rw [(inOrder_perm h).mem_iff, mem_pairs]

theorem mem_inOrder' {m : GoMap V} {ks : List String} (h : ks.Perm m.keys) {e : String × V} :
    e ∈ m.inOrder ks ↔ e ∈ m.pairs := (inOrder_perm h).mem_iff

theorem length_inOrder {m : GoMap V} {ks : List String} (h : ks.Perm m.keys) :
    (m.inOrder ks).length = m.size := by
  rw [(inOrder_perm h).length_eq, length_pairs]

theorem nodup_inOrder {m : GoMap V} {ks : List String} (h : ks.Perm m.keys) :
    ((m.inOrder ks).map Prod.fst).Nodup :=
  ((inOrder_perm h).map Prod.fst).nodup_iff.mpr m.nodup_pairs

/-- Every arrangement of the entries is some order of the keys. -/
theorem exists_inOrder {m : GoMap V} {l : List (String × V)} (h : l.Perm m.pairs) :
    (l.map Prod.fst).Perm m.keys ∧ m.inOrder (l.map Prod.fst) = l := by
  refine ⟨?_, inOrder_fst fun e he => h.mem_iff.mp he⟩
  rw [← keys_eq_map_pairs]
  exact h.map _

/-- Any entry may be visited first. -/
theorem exists_inOrder_cons {m : GoMap V} {k : String} {v : V} (h : m.lookup k = some v) :
    ∃ ks rest, ks.Perm m.keys ∧ m.inOrder ks = (k, v) :: rest := by
  obtain ⟨before, after, hpairs⟩ := List.append_of_mem (mem_pairs.2 h)
  have hperm : ((k, v) :: (before ++ after)).Perm m.pairs := by
    rw [hpairs]
    exact List.perm_middle.symm
  exact ⟨_, before ++ after, (exists_inOrder hperm).1, (exists_inOrder hperm).2⟩

/-! ## Maps with the same keys -/

theorem perm_keys {m m' : GoMap V} (h : ∀ k, (m.lookup k).isSome = (m'.lookup k).isSome) : m.keys.Perm m'.keys := by
  refine (List.perm_ext_iff_of_nodup m.nodupKeys m'.nodupKeys).2 fun k => ?_
  have hmem : k ∈ m ↔ k ∈ m' := by rw [← AList.lookup_isSome, ← AList.lookup_isSome, h k]
  exact hmem

theorem keys_subset {m m' : GoMap V} (h : ∀ k, (m.lookup k).isSome → (m'.lookup k).isSome) : m.keys ⊆ m'.keys := by
  intro k hk
  exact AList.lookup_isSome.1 (h k (AList.lookup_isSome.2 hk))

theorem size_le {m m' : GoMap V} (h : ∀ k, (m.lookup k).isSome → (m'.lookup k).isSome) : m.size ≤ m'.size := by
  rw [← length_keys, ← length_keys]
  exact (List.subperm_of_subset m.nodupKeys (keys_subset h)).length_le

/-- At most one key is missing. -/
theorem size_le_succ {m m' : GoMap V} {k₀ : String} (h : ∀ k, k ≠ k₀ → (m.lookup k).isSome → (m'.lookup k).isSome) :
    m.size ≤ m'.size + 1 := by
  have hsub : m.keys.erase k₀ ⊆ m'.keys := by
    intro k hk
    obtain ⟨hne, hk⟩ := (List.Nodup.mem_erase_iff m.nodupKeys).1 hk
    exact AList.lookup_isSome.1 (h k hne (AList.lookup_isSome.2 hk))
  have hle : (m.keys.erase k₀).length ≤ m'.keys.length :=
    (List.subperm_of_subset (List.Nodup.erase k₀ m.nodupKeys) hsub).length_le
  have herase : m.keys.length - 1 ≤ (m.keys.erase k₀).length := by
    rw [List.length_erase]
    split <;> omega
  rw [← length_keys, ← length_keys]
  omega

theorem size_insert_le (m : GoMap V) (k : String) (v : V) : size (m.insert k v) ≤ m.size + 1 := by
  refine size_le_succ fun k' (hne : k' ≠ k) hk' => ?_
  rwa [AList.lookup_insert_ne hne] at hk'

/-- A map whose keys are among those of another of its size has all of them. -/
theorem lookup_isSome_of_size_le {m m' : GoMap V} (h : ∀ k, (m.lookup k).isSome → (m'.lookup k).isSome)
    (hs : m'.size ≤ m.size) {k : String} (hk : (m'.lookup k).isSome) : (m.lookup k).isSome := by
  rw [← length_keys, ← length_keys] at hs
  have hperm : m.keys.Perm m'.keys :=
    (List.subperm_of_subset m.nodupKeys (keys_subset h)).perm_of_length_le hs
  exact AList.lookup_isSome.2 (hperm.mem_iff.2 (AList.lookup_isSome.1 hk))

/-- Counting entries is counting keys, in any order. -/
theorem countP_pairs {m : GoMap V} {ks : List String} (h : ks.Perm m.keys) (g : String × V → Bool) :
    m.pairs.countP g = ks.countP fun k => (m.lookup k).any fun v => g (k, v) := by
  rw [← (inOrder_perm h).countP_eq, inOrder, List.countP_filterMap]
  congr 1
  funext k
  cases m.lookup k <;> rfl

theorem countP_pairs_congr {m m' : GoMap V} {g g' : String × V → Bool}
    (hk : ∀ k, (m.lookup k).isSome = (m'.lookup k).isSome)
    (hg : ∀ k v v', m.lookup k = some v → m'.lookup k = some v' → g' (k, v') = g (k, v)) :
    m'.pairs.countP g' = m.pairs.countP g := by
  rw [countP_pairs (perm_keys hk), countP_pairs (.refl m.keys)]
  refine List.countP_congr fun k _ => ?_
  have hk := hk k
  cases h : m.lookup k with
  | none => simp_all
  | some v =>
    obtain ⟨v', h'⟩ := Option.isSome_iff_exists.1 (hk.symm.trans (by rw [h]; rfl))
    simp [h', hg k v v' h h']

theorem filter_inOrder {m : GoMap V} {ks : List String} (g : String → Bool) :
    (m.inOrder ks).filter (fun e => g e.1) = m.inOrder (ks.filter g) := by
  induction ks with
  | nil => rfl
  | cons k ks ih =>
    simp only [inOrder, List.filterMap_cons, List.filter_cons] at ih ⊢
    cases h : m.lookup k with
    | none => cases g k <;> simp [ih, h]
    | some v => cases hg : g k <;> simp [ih, h, hg]

theorem inOrder_congr {m m' : GoMap V} {ks : List String} (h : ∀ k ∈ ks, m.lookup k = m'.lookup k) :
    m.inOrder ks = m'.inOrder ks := by
  refine List.filterMap_congr fun k hk => ?_
  rw [h k hk]

/-- The map with its values changed. -/
def mapValues (f : String → V → V) (m : GoMap V) : GoMap V :=
  ⟨m.entries.map (.map id f), by
    rw [List.NodupKeys, List.map₂_keys]
    exact m.nodupKeys⟩

theorem lookup_mapValues {f : String → V → V} {m : GoMap V} {k : String} :
    (m.mapValues f).lookup k = (m.lookup k).map (f k) := List.dlookup_map₂ _

end GoMap

end Etcdadm
