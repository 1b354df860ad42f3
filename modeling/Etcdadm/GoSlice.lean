/-
Go slices: a slice is a view of the first cells of a backing array, and several
slices may view the same one. `append` writes into the array while the slice has
capacity, and copies to a new array when it has not; sorting a slice sorts the
cells it views, for every slice that views them.

Slices that begin in the middle of their array are left out: none is ever cut off
at the front here.
-/
import Mathlib

namespace Etcdadm

/-- A view of the first `len` of the `cap` cells of an array. -/
structure Slice where
  ptr : Nat
  len : Nat
  cap : Nat
deriving DecidableEq, Repr

/-- The backing arrays. -/
structure Heap (α : Type) where
  arrays : List (List α)

namespace Heap

variable {α : Type} {h : Heap α} {s t : Slice} {p : Nat} {cells : List α} {x : α} {n : Nat}

def empty : Heap α := ⟨[]⟩

/-- The number of the next array. -/
def next (h : Heap α) : Nat := h.arrays.length

def array (h : Heap α) (p : Nat) : List α := h.arrays.getD p []

def read (h : Heap α) (s : Slice) : List α := (h.array s.ptr).take s.len

def store (h : Heap α) (p : Nat) (cells : List α) : Heap α := ⟨h.arrays.set p cells⟩

def alloc (h : Heap α) (cells : List α) : Heap α := ⟨h.arrays ++ [cells]⟩

/-- `nil` -/
def nil : Slice := ⟨0, 0, 0⟩

/-- `append(s, x)`. How many cells more than needed a new array has, by the number
of those in use, is up to the runtime. -/
def append [Inhabited α] (grow : Nat → Nat) (h : Heap α) (s : Slice) (x : α) : Heap α × Slice :=
  if s.len < s.cap then (h.store s.ptr ((h.array s.ptr).set s.len x), { s with len := s.len + 1 })
  else
    (h.alloc (h.read s ++ x :: List.replicate (grow s.len) default), ⟨h.next, s.len + 1, s.len + 1 + grow s.len⟩)

/-- `sort.Strings(s)`, for any order -/
def sort [LinearOrder α] (h : Heap α) (s : Slice) : Heap α :=
  h.store s.ptr ((h.read s).insertionSort (· ≤ ·) ++ (h.array s.ptr).drop s.len)

/-- The slice views an array of the heap. -/
structure Views (h : Heap α) (s : Slice) : Prop where
  ptr : s.ptr < h.next
  len : s.len ≤ s.cap
  cap : s.cap = (h.array s.ptr).length

/-! ## Arrays -/

@[simp] theorem next_store : (h.store p cells).next = h.next := by simp [store, next]

@[simp] theorem next_alloc : (h.alloc cells).next = h.next + 1 := by simp [alloc, next]

theorem array_store_self (hp : p < h.next) : (h.store p cells).array p = cells := by
  unfold next at hp
  simp [array, store, hp]

theorem array_store_ne {q : Nat} (hne : q ≠ p) : (h.store p cells).array q = h.array q := by
  simp [array, store, List.getElem?_set_ne hne.symm]

theorem array_alloc_self : (h.alloc cells).array h.next = cells := by
  simp [array, alloc, next]

theorem array_alloc_lt {q : Nat} (hq : q < h.next) : (h.alloc cells).array q = h.array q := by
  unfold next at hq
  simp [array, alloc, List.getElem?_append_left hq]

theorem length_read (hs : h.Views s) : (h.read s).length = s.len := by
  have hlen := hs.len
  rw [hs.cap] at hlen
  simpa [read] using hlen

theorem read_nil : h.read nil = [] := by simp [read, nil]

/-- A view of an array of the same length. -/
theorem Views.congr {h' : Heap α} (hs : h.Views s) (hnext : h.next ≤ h'.next)
    (hlength : (h'.array s.ptr).length = (h.array s.ptr).length) : h'.Views s :=
  ⟨hs.ptr.trans_le hnext, hs.len, by rw [hs.cap, hlength]⟩

theorem Views.alloc (hs : h.Views s) : (h.alloc cells).Views s :=
  hs.congr (by simp) (by rw [array_alloc_lt hs.ptr])

theorem read_alloc (hs : h.Views s) : (h.alloc cells).read s = h.read s := by
  rw [read, read, array_alloc_lt hs.ptr]

/-- The view of a new array. -/
theorem views_alloc {hosts spare : List α} :
    (h.alloc (hosts ++ spare)).Views ⟨h.next, hosts.length, hosts.length + spare.length⟩ :=
  ⟨by simp, by simp, by simp [array_alloc_self]⟩

theorem read_alloc_self {hosts spare : List α} :
    (h.alloc (hosts ++ spare)).read ⟨h.next, hosts.length, n⟩ = hosts := by
  simp [read, array_alloc_self]

/-! ## Append -/

section Append

variable [Inhabited α] {grow : Nat → Nat}

variable {h' : Heap α} {s' : Slice} (happend : h.append grow s x = (h', s'))

include happend

/-- The slice that `append` returns is the old one, longer, or views a new array. -/
theorem append_cases : (s.len < s.cap ∧ h' = h.store s.ptr ((h.array s.ptr).set s.len x) ∧ s' = { s with len := s.len + 1 }) ∨
    (s.cap ≤ s.len ∧ h' = h.alloc (h.read s ++ x :: List.replicate (grow s.len) default) ∧
      s' = ⟨h.next, s.len + 1, s.len + 1 + grow s.len⟩) := by
  unfold append at happend
  split at happend
  · next hlt =>
    cases happend
    exact .inl ⟨hlt, rfl, rfl⟩
  · next hlt =>
    cases happend
    exact .inr ⟨not_lt.1 hlt, rfl, rfl⟩

/-- What `append` returns views the old elements and the new one. -/
theorem append_self (hs : s = nil ∨ h.Views s) : h'.Views s' ∧ h'.read s' = h.read s ++ [x] := by
  rcases append_cases happend with ⟨hlt, rfl, rfl⟩ | ⟨hle, rfl, rfl⟩
  · have hs : h.Views s := hs.resolve_left fun hnil => by simp [hnil, nil] at hlt
    have hcap := hs.cap
    refine ⟨⟨by simpa using hs.ptr, hlt, ?_⟩, ?_⟩
    · simp [array_store_self hs.ptr, hcap]
    · have hlength : s.len < (h.array s.ptr).length := by omega
      rw [read, array_store_self hs.ptr, List.take_add_one, List.getElem?_set_self hlength, List.take_set_of_le le_rfl]
      rfl
  · have hlength : (h.read s).length = s.len := by
      rcases hs with rfl | hs
      · rw [read_nil]
        rfl
      · exact length_read hs
    refine ⟨⟨by simp, by simp, ?_⟩, ?_⟩
    · simp [array_alloc_self, hlength]
      omega
    · rw [read, array_alloc_self, ← hlength, List.take_length_add_append]
      simp

/-- Other slices still view their elements: they view another array, or none of the
cells past the end of the slice. -/
theorem append_other (hs : s = nil ∨ h.Views s) (ht : h.Views t)
    (hother : s.len < s.cap → t.ptr ≠ s.ptr ∨ t.len ≤ s.len) : h'.Views t ∧ h'.read t = h.read t := by
  rcases append_cases happend with ⟨hlt, rfl, rfl⟩ | ⟨hle, rfl, rfl⟩
  · have hs : h.Views s := hs.resolve_left fun hnil => by simp [hnil, nil] at hlt
    by_cases hptr : t.ptr = s.ptr
    · have hlen := (hother hlt).resolve_left (by simp [hptr])
      refine ⟨ht.congr (by simp) (by simp [hptr, array_store_self hs.ptr]), ?_⟩
      rw [read, hptr, array_store_self hs.ptr, List.take_set_of_le hlen, read, hptr]
    · refine ⟨ht.congr (by simp) (by simp [array_store_ne hptr]), ?_⟩
      rw [read, array_store_ne hptr, read]
  · exact ⟨ht.alloc, read_alloc ht⟩

end Append

/-! ## Sort -/

section Sorting

variable [LinearOrder α]

theorem length_array_sort (p : Nat) : ((h.sort s).array p).length = (h.array p).length := by
  by_cases hp : p = s.ptr
  · subst hp
    by_cases hnext : s.ptr < h.next
    · rw [sort, array_store_self hnext, List.length_append, (List.perm_insertionSort _ _).length_eq, read,
        ← List.length_append, List.take_append_drop]
    · have hset : (h.sort s).arrays = h.arrays := List.set_eq_of_length_le (by unfold next at hnext; omega)
      rw [array, hset, array]
  · rw [sort, array_store_ne hp]

theorem Views.sort (ht : h.Views t) : (h.sort s).Views t :=
  ht.congr (by simp [Heap.sort]) (length_array_sort _)

theorem read_sort_ne (hne : t.ptr ≠ s.ptr) : (h.sort s).read t = h.read t := by
  rw [read, sort, array_store_ne hne, read]

/-- A slice of the same array now views the least elements. -/
theorem read_sort (hs : h.Views s) (hptr : t.ptr = s.ptr) (hlen : t.len ≤ s.len) :
    (h.sort s).read t = ((h.read s).insertionSort (· ≤ ·)).take t.len := by
  have hlength : t.len ≤ ((h.read s).insertionSort (· ≤ ·)).length := by
    rw [(List.perm_insertionSort _ _).length_eq, length_read hs]
    exact hlen
  rw [read, hptr, sort, array_store_self hs.ptr, List.take_append_of_le_length hlength]

/-- Sorting one slice after the other leaves the arrays of others as they are. -/
theorem read_sorts_ne : ∀ {slices : List Slice} {h : Heap α}, (∀ s ∈ slices, t.ptr ≠ s.ptr) →
    (slices.foldl sort h).read t = h.read t
  | [], _, _ => rfl
  | s :: slices, h, hne => by
    rw [List.foldl_cons, read_sorts_ne fun s hs => hne s (by simp [hs]), read_sort_ne (hne s (by simp))]

theorem Views.sorts : ∀ {slices : List Slice} {h : Heap α}, h.Views t → (slices.foldl Heap.sort h).Views t
  | [], _, ht => ht
  | s :: slices, h, ht => by
    show (slices.foldl Heap.sort (h.sort s)).Views t
    exact Views.sorts ht.sort

theorem read_sorts : ∀ {slices : List Slice} {h : Heap α}, (slices.map Slice.ptr).Nodup → s ∈ slices → h.Views s →
    t.ptr = s.ptr → t.len ≤ s.len → (slices.foldl sort h).read t = ((h.read s).insertionSort (· ≤ ·)).take t.len
  | [], _, _, hmem, _, _, _ => by simp at hmem
  | s' :: slices, h, hnodup, hmem, hs, hptr, hlen => by
    rw [List.map_cons, List.nodup_cons] at hnodup
    rw [List.foldl_cons]
    rcases List.mem_cons.1 hmem with rfl | hmem
    · have hne : ∀ s' ∈ slices, t.ptr ≠ s'.ptr := fun s' hs' heq =>
        hnodup.1 (List.mem_map.2 ⟨s', hs', heq.symm.trans hptr⟩)
      rw [read_sorts_ne hne, read_sort hs hptr hlen]
    · have hne : s.ptr ≠ s'.ptr := fun heq => hnodup.1 (List.mem_map.2 ⟨s, hmem, heq⟩)
      rw [read_sorts hnodup.2 hmem hs.sort hptr hlen, read_sort_ne hne]

end Sorting

end Heap

end Etcdadm
