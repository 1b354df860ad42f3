/-
The provider of host records (`Provider` of `pkg/hosts/hosts.go`): names that are
verified, the primaries, and names that are used only if they are not otherwise
defined, the fallbacks.

`update` takes the slices of the primaries as they are, appends the fallbacks to
them and sorts them in place. An append into spare capacity leaves the cells of the
primary alone, but the sort then moves a fallback into them, and a primary out of
them: the next call no longer finds the primaries it was given.

How the stored slices come out of an update is `update_spec`. They keep their hosts
exactly if no fallback is appended into spare capacity that sorts before one of the
hosts of its address (`perm_take_sort_iff`).
-/
import Etcdadm.HostsRewrite
import Etcdadm.GoMap
import Etcdadm.GoSlice

namespace Etcdadm

namespace Hosts

/-- The order in which a loop takes the entries of a map. -/
structure Order where
  run {β : Type} : List β → List β
  perm {β : Type} (l : List β) : (run l).Perm l

/-! ## The provider -/

structure Provider (IP : Type) where
  key : String
  primary : GoMap Slice
  fallbacks : GoMap (List IP)

/-- `addrToHosts[addr] = append(addrToHosts[addr], host)` -/
def appendHost (grow : Nat → Nat) (s : Heap String × GoMap Slice) (addr host : String) : Heap String × GoMap Slice :=
  let r := s.1.append grow ((s.2.lookup addr).getD Heap.nil) host
  (r.1, s.2.insert addr r.2)

/-- The lines of the block, before they are sorted. Each sorts its hosts in place. -/
def blockLines (h : Heap String) : List (String × Slice) → Heap String × List Line
  | [] => (h, [])
  | (addr, hosts) :: rest =>
    let h := h.sort hosts
    let line := addr.toList ++ '\t' :: hostsText (h.read hosts)
    let r := blockLines h rest
    (r.1, line :: r.2)

/-- `sort.Strings(lines)` -/
def sortLines (lines : List Line) : List Line := ((lines.map String.ofList).insertionSort (· ≤ ·)).map String.toList

/-- `updateHostsFileWithRecords`, with the hosts in the slices that the caller has -/
def updateHostsFileWithSlices (p key : String) (h : Heap String) (addrToHosts : List (String × Slice)) :
    HostsM (Option Error × Heap String) := do
  match ← ask (.stat p) with
  | .error err => return (some s!"error getting file status of {p.quote}: {err}", h)
  | .ok mode =>
    match ← ask (.readFile p) with
    | .error err => return (some s!"error reading file {p.quote}: {err}", h)
    | .ok data =>
      let r := blockLines h addrToHosts
      let updated := textOf (newLines key (sortLines r.2) (linesOf data))
      if updated = data then return (none, r.1)
      match ← ask (.write p updated mode) with
      | some err => return (some s!"error writing file {p.quote}: {err}", r.1)
      | none => return (none, r.1)

section Update

variable {IP : Type} (grow : Nat → Nat) (render : IP → String) (order : Order)

/-- The loop over the fallbacks; `render` is `ip.String()`. -/
def withFallbacks (hostExists : List String) (s : Heap String × GoMap Slice) (fallbacks : List (String × List IP)) :
    Heap String × GoMap Slice :=
  fallbacks.foldl
    (fun s e => if e.1 ∈ hostExists then s else e.2.foldl (fun s ip => appendHost grow s (render ip) e.1) s) s

def Provider.update (p : Provider IP) (h : Heap String) : HostsM (Option Error × Heap String) :=
  let hostExists := p.primary.pairs.flatMap fun e => h.read e.2
  let merged := withFallbacks grow render hostExists (h, p.primary) (order.run p.fallbacks.pairs)
  updateHostsFileWithSlices "/etc/hosts" p.key merged.1 (order.run merged.2.pairs)

/-- A slice of the caller: its hosts, and the cells of its spare capacity. -/
structure Given where
  hosts : List String
  spare : List String

def Given.cap (g : Given) : Nat := g.hosts.length + g.spare.length

/-- The slices that the caller has built, each with an array of its own. -/
def allocate (h : Heap String) (addressToHosts : List (String × Given)) : Heap String × GoMap Slice :=
  addressToHosts.foldl
    (fun s e => (s.1.alloc (e.2.hosts ++ e.2.spare), s.2.insert e.1 ⟨s.1.next, e.2.hosts.length, e.2.cap⟩)) (h, ∅)

inductive Call (IP : Type) where
  | addFallbacks (dnsFallbacks : GoMap (List IP))
  | updateHosts (addressToHosts : GoMap Given)

/-- The provider, and the memory with its slices. -/
structure State (IP : Type) where
  heap : Heap String
  provider : Provider IP

def State.new (key : String) : State IP := ⟨.empty, ⟨key, ∅, ∅⟩⟩

/-- The state when `update` is called. -/
def State.stored (s : State IP) : Call IP → State IP
  | .addFallbacks dnsFallbacks => { s with provider := { s.provider with fallbacks := dnsFallbacks } }
  | .updateHosts addressToHosts =>
    let r := allocate s.heap addressToHosts.pairs
    ⟨r.1, { s.provider with primary := r.2 }⟩

/-- `AddFallbacks` and `UpdateHosts` -/
def State.call (s : State IP) (c : Call IP) : HostsM (Option Error × State IP) := do
  let s := s.stored c
  let r ← s.provider.update grow render order s.heap
  return (r.1, { s with heap := r.2 })

end Update

/-! ## Block lines -/

theorem records_eq (addrToHosts : List (String × List String)) :
    records addrToHosts = sortLines (addrToHosts.map fun e => recordLine e.1 e.2) := by
  simp [records, sortLines, Function.comp_def]

theorem sort_eq_of_perm {l l' : List String} (h : l.Perm l') : l.insertionSort (· ≤ ·) = l'.insertionSort (· ≤ ·) :=
  List.Perm.eq_of_pairwise' (List.pairwise_insertionSort (· ≤ ·) _) (List.pairwise_insertionSort (· ≤ ·) _)
    ((List.perm_insertionSort _ _).trans (h.trans (List.perm_insertionSort _ _).symm))

theorem recordLine_perm (addr : String) {hosts hosts' : List String} (h : hosts.Perm hosts') :
    recordLine addr hosts = recordLine addr hosts' := by
  rw [recordLine, recordLine, sort_eq_of_perm h]

/-- Slices with arrays of their own are sorted one apart from the other. -/
theorem blockLines_eq : ∀ {l : List (String × Slice)} {h : Heap String}, (l.map fun e => e.2.ptr).Nodup →
    (∀ e ∈ l, h.Views e.2) → blockLines h l =
      ((l.map Prod.snd).foldl Heap.sort h, l.map fun e => recordLine e.1 (h.read e.2))
  | [], _, _, _ => rfl
  | (addr, hosts) :: l, h, hnodup, hviews => by
    rw [List.map_cons, List.nodup_cons] at hnodup
    have hself : (h.sort hosts).read hosts = (h.read hosts).insertionSort (· ≤ ·) := by
      have hhosts := hviews (addr, hosts) (by simp)
      rw [Heap.read_sort hhosts rfl le_rfl]
      exact List.take_of_length_le ((List.perm_insertionSort _ _).length_eq.trans (Heap.length_read hhosts)).le
    have hrest (e : String × Slice) (he : e ∈ l) : (h.sort hosts).read e.2 = h.read e.2 :=
      Heap.read_sort_ne fun heq => hnodup.1 (List.mem_map.2 ⟨e, he, heq⟩)
    have ih := blockLines_eq hnodup.2 fun e he => (hviews e (by simp [he])).sort (s := hosts)
    simp only [blockLines, ih, hself]
    rw [List.map_cons, List.foldl_cons, List.map_cons]
    refine Prod.ext rfl (congrArg (List.cons _) (List.map_congr_left fun e he => ?_))
    simp only [hrest e he]

/-- One line, of the hosts given. -/
def lineText (e : String × List String) : Line := e.1.toList ++ '\t' :: [' '].intercalate (e.2.map String.toList)

/-- The hosts without those that are the one before again. -/
def squeeze : List String → List String
  | [] => []
  | [host] => [host]
  | host :: host' :: hosts => if host = host' then squeeze (host' :: hosts) else host :: squeeze (host' :: hosts)

theorem squeeze_ne_nil : ∀ {host : String} {hosts : List String}, squeeze (host :: hosts) ≠ []
  | host, [] => by simp [squeeze]
  | host, host' :: hosts => by
    unfold squeeze
    split
    · exact squeeze_ne_nil
    · simp

theorem hostsText_eq : ∀ hosts : List String, hostsText hosts = [' '].intercalate ((squeeze hosts).map String.toList)
  | [] => rfl
  | [host] => by simp [hostsText, moreHosts, squeeze]
  | host :: host' :: hosts => by
    have ih := hostsText_eq (host' :: hosts)
    by_cases heq : host = host'
    · subst heq
      rw [squeeze, if_pos rfl, ← ih]
      simp [hostsText, moreHosts]
    · rw [squeeze, if_neg heq, List.map_cons, List.intercalate_cons_of_ne_nil (by simpa using squeeze_ne_nil), ← ih]
      simp [hostsText, moreHosts, heq]

theorem mem_squeeze {x : String} : ∀ {hosts : List String}, x ∈ squeeze hosts ↔ x ∈ hosts
  | [] => by simp [squeeze]
  | [host] => by simp [squeeze]
  | host :: host' :: hosts => by
    have ih := @mem_squeeze x (host' :: hosts)
    by_cases heq : host = host'
    · subst heq
      rw [squeeze, if_pos rfl, ih]
      simp
    · rw [squeeze, if_neg heq, List.mem_cons, ih, ← List.mem_cons]

/-- In a sorted list the same hosts stand together. -/
theorem nodup_squeeze : ∀ {hosts : List String}, hosts.Pairwise (· ≤ ·) → (squeeze hosts).Nodup
  | [], _ => by simp [squeeze]
  | [host], _ => by simp [squeeze]
  | host :: host' :: hosts, h => by
    rw [List.pairwise_cons] at h
    have ih := nodup_squeeze h.2
    by_cases heq : host = host'
    · rw [squeeze, if_pos heq]
      exact ih
    · rw [squeeze, if_neg heq, List.nodup_cons, mem_squeeze]
      refine ⟨fun hmem => heq ?_, ih⟩
      have hle := h.1 host' (by simp)
      rcases List.mem_cons.1 hmem with hmem | hmem
      · exact hmem
      · exact le_antisymm hle ((List.pairwise_cons.1 h.2).1 host hmem)

theorem recordLine_eq (addr : String) (hosts : List String) :
    recordLine addr hosts = lineText (addr, squeeze (hosts.insertionSort (· ≤ ·))) := by
  rw [recordLine, hostsText_eq, lineText]

/-- The block does not depend on the order of the addresses, or of the hosts of an
address. -/
theorem records_congr {l l' : List (String × List String)} {c c' : String → List String}
    (hl : ∀ e ∈ l, e.2 = c e.1) (hl' : ∀ e ∈ l', e.2 = c' e.1) (hc : ∀ a, (c a).Perm (c' a))
    (hnodup : (l.map Prod.fst).Nodup) (hnodup' : (l'.map Prod.fst).Nodup)
    (hkeys : ∀ a, a ∈ l.map Prod.fst ↔ a ∈ l'.map Prod.fst) : records l = records l' := by
  have hlines : (l.map fun e => (e.1, c e.1)).Perm (l'.map fun e => (e.1, c e.1)) := by
    have hperm := ((List.perm_ext_iff_of_nodup hnodup hnodup').2 hkeys).map fun a => (a, c a)
    simpa [List.map_map, Function.comp_def] using hperm
  calc records l = records (l.map fun e => (e.1, c e.1)) :=
        congrArg records ((List.map_congr_left fun e he => by rw [← hl e he]; rfl).trans (List.map_id l)).symm
    _ = records (l'.map fun e => (e.1, c e.1)) := records_perm hlines
    _ = records l' := by
      rw [records_eq, records_eq, List.map_map]
      refine congrArg sortLines (List.map_congr_left fun e he => ?_)
      rw [hl' e he]
      exact recordLine_perm e.1 (hc e.1)

/-! ## Appended fallbacks -/

section

variable {IP : Type} {grow : Nat → Nat} {render : IP → String}

/-- The fallbacks that are needed, with their addresses. -/
def needed (render : IP → String) (hosts : List String) (fallbacks : List (String × List IP)) : List (String × String) :=
  (fallbacks.filter (·.1 ∉ hosts)).flatMap fun e => e.2.map fun ip => (render ip, e.1)

/-- Those of one address. -/
def added (l : List (String × String)) (a : String) : List String := (l.filter (·.1 = a)).map Prod.snd

theorem added_concat (l : List (String × String)) (a₀ x a : String) :
    added (l ++ [(a₀, x)]) a = if a₀ = a then added l a ++ [x] else added l a := by
  by_cases h : a₀ = a
  · simp [added, h]
  · simp [added, h]

theorem mem_added_needed {hosts : List String} {fallbacks : List (String × List IP)} {a x : String} :
    x ∈ added (needed render hosts fallbacks) a ↔
      x ∉ hosts ∧ ∃ ips, (x, ips) ∈ fallbacks ∧ ∃ ip ∈ ips, render ip = a := by
  simp only [added, needed, List.mem_map, List.mem_filter, List.mem_flatMap, decide_eq_true_eq]
  constructor
  · intro h
    obtain ⟨e, ⟨⟨f, ⟨hf, hnot⟩, ip, hip, rfl⟩, rfl⟩, rfl⟩ := h
    exact ⟨hnot, f.2, hf, ip, hip, rfl⟩
  · intro h
    obtain ⟨hnot, ips, hmem, ip, hip, rfl⟩ := h
    exact ⟨(render ip, x), ⟨⟨(x, ips), ⟨hmem, hnot⟩, ip, hip, rfl⟩, rfl⟩, rfl⟩

theorem added_needed_perm {hosts hosts' : List String} {fallbacks fallbacks' : List (String × List IP)}
    (hhosts : ∀ x, x ∈ hosts ↔ x ∈ hosts') (hperm : fallbacks.Perm fallbacks') (a : String) :
    (added (needed render hosts fallbacks) a).Perm (added (needed render hosts' fallbacks') a) := by
  have hfilter : fallbacks.filter (·.1 ∉ hosts) = fallbacks.filter (·.1 ∉ hosts') :=
    List.filter_congr fun e _ => by simp [hhosts e.1]
  rw [needed, needed, hfilter]
  exact ((((hperm.filter _).flatMap_right _).filter _).map _)

/-- The loops over the fallbacks and their addresses, as one. -/
theorem withFallbacks_eq (hosts : List String) (s : Heap String × GoMap Slice) (fallbacks : List (String × List IP)) :
    withFallbacks grow render hosts s fallbacks =
      (needed render hosts fallbacks).foldl (fun s e => appendHost grow s e.1 e.2) s := by
  unfold withFallbacks
  induction fallbacks generalizing s with
  | nil => rfl
  | cons e fallbacks ih =>
    rw [List.foldl_cons, ih]
    by_cases hmem : e.1 ∈ hosts
    · simp [needed, hmem]
    · simp [needed, hmem, List.foldl_map]

end

/-- The hosts of an address. -/
def contents (h : Heap String) (m : GoMap Slice) (a : String) : List String := (m.lookup a).elim [] h.read

/-- Each slice views an array of its own. -/
structure Apart (owner : Nat → String) (h : Heap String) (m : GoMap Slice) : Prop where
  views : ∀ {a s}, m.lookup a = some s → h.Views s
  owner : ∀ {a s}, m.lookup a = some s → owner s.ptr = a

/-- The state of the loop when the fallbacks `l` have been appended. A slice is still
in the array of its primary as long as there was room. -/
structure Merged (owner : Nat → String) (h₀ : Heap String) (primary : GoMap Slice) (l : List (String × String))
    (s : Heap String × GoMap Slice) : Prop where
  stored : Apart owner s.1 primary
  kept : ∀ {a t}, primary.lookup a = some t → s.1.read t = h₀.read t
  apart : Apart owner s.1 s.2
  read : ∀ a, contents s.1 s.2 a = contents h₀ primary a ++ added l a
  keys : ∀ a, s.2.lookup a = none ↔ primary.lookup a = none ∧ added l a = []
  place : ∀ {a t t'}, primary.lookup a = some t → s.2.lookup a = some t' →
    if t.len + (added l a).length ≤ t.cap then t'.ptr = t.ptr ∧ t'.cap = t.cap else t'.ptr ≠ t.ptr

section

variable {owner : Nat → String} {h₀ : Heap String} {primary : GoMap Slice} {l : List (String × String)}
  {s : Heap String × GoMap Slice} {grow : Nat → Nat}

theorem contents_eq {h : Heap String} {m : GoMap Slice} {a : String} {t : Slice} (ht : m.lookup a = some t) :
    contents h m a = h.read t := by
  rw [contents, ht]
  rfl

theorem Merged.nil (h : Apart owner h₀ primary) : Merged owner h₀ primary [] (h₀, primary) where
  stored := h
  kept _ := rfl
  apart := h
  read a := by simp [added]
  keys a := by simp [added]
  place ht ht' := by
    obtain rfl := Option.some.inj (ht.symm.trans ht')
    simp [added, (h.views ht).len]

/-- The slice of an address has the hosts of its primary before the appended. -/
theorem Merged.len (hm : Merged owner h₀ primary l s) {a : String} {t t' : Slice} (ht : primary.lookup a = some t)
    (ht' : s.2.lookup a = some t') : t'.len = t.len + (added l a).length := by
  have hread := hm.read a
  rw [contents_eq ht, contents_eq ht', ← hm.kept ht] at hread
  have hlength := congrArg List.length hread
  rwa [List.length_append, Heap.length_read (hm.apart.views ht'), Heap.length_read (hm.stored.views ht)] at hlength

/-! ### One more fallback -/

section Append

variable {h h' : Heap String} {m : GoMap Slice} {a₀ x : String} {s₀ s' : Slice}

/-- The slice that is appended to: that of the address, or `nil`. -/
def Current (m : GoMap Slice) (a₀ : String) (s₀ : Slice) : Prop :=
  m.lookup a₀ = some s₀ ∨ (m.lookup a₀ = none ∧ s₀ = Heap.nil)

theorem current_getD : Current m a₀ ((m.lookup a₀).getD Heap.nil) := by
  unfold Current
  cases m.lookup a₀ with
  | none => exact .inr ⟨rfl, rfl⟩
  | some s => exact .inl rfl

theorem Current.contents_eq (hcur : Current m a₀ s₀) : contents h m a₀ = h.read s₀ := by
  rcases hcur with hlook | ⟨hlook, rfl⟩
  · exact Hosts.contents_eq hlook
  · rw [contents, hlook, Heap.read_nil]
    rfl

variable (hm : Merged owner h₀ primary l (h, m)) (hcur : Current m a₀ s₀) (hr : h.append grow s₀ x = (h', s'))

include hm hcur

theorem Merged.nil_or_views : s₀ = Heap.nil ∨ h.Views s₀ :=
  hcur.symm.imp And.right fun hlook => hm.apart.views hlook

/-- An address with primaries has a slice already. -/
theorem Merged.current {t : Slice} (ht : primary.lookup a₀ = some t) : m.lookup a₀ = some s₀ :=
  hcur.resolve_right fun hnone => by simp [(hm.keys a₀).1 hnone.1] at ht

include hr

/-- What other slices view stays theirs. -/
theorem Merged.other {a : String} {t : Slice} (ht : h.Views t) (howner : owner t.ptr = a) (hne : a ≠ a₀ ∨ t.len ≤ s₀.len) :
    h'.Views t ∧ h'.read t = h.read t ∧ Function.update owner s'.ptr a₀ t.ptr = a := by
  -- an append in place is to the slice of the address
  have hplace (hlt : s₀.len < s₀.cap) : owner s₀.ptr = a₀ :=
    hm.apart.owner (hcur.resolve_right fun hnil => by simp [hnil.2, Heap.nil] at hlt)
  have happ := Heap.append_other hr (hm.nil_or_views hcur) ht fun hlt =>
    hne.imp_left fun hne hptr => hne (by rw [← howner, hptr, hplace hlt])
  refine ⟨happ.1, happ.2, ?_⟩
  by_cases hptr : t.ptr = s'.ptr
  · rw [hptr, Function.update_self]
    rcases Heap.append_cases hr with ⟨hlt, -, rfl⟩ | ⟨-, -, rfl⟩
    · rw [← howner, hptr, hplace hlt]
    · exact absurd hptr ht.ptr.ne
  · rw [Function.update_of_ne hptr]
    exact howner

theorem Merged.other_slice {a : String} {t : Slice} (hne : a ≠ a₀) (ht : m.lookup a = some t) :
    h'.Views t ∧ h'.read t = h.read t ∧ Function.update owner s'.ptr a₀ t.ptr = a :=
  hm.other hcur hr (hm.apart.views ht) (hm.apart.owner ht) (.inl hne)

theorem Merged.stored_slice {a : String} {t : Slice} (ht : primary.lookup a = some t) :
    h'.Views t ∧ h'.read t = h.read t ∧ Function.update owner s'.ptr a₀ t.ptr = a := by
  refine hm.other hcur hr (hm.stored.views ht) (hm.stored.owner ht) ?_
  by_cases ha : a = a₀
  · subst ha
    rw [hm.len ht (hm.current hcur ht)]
    exact .inr (Nat.le_add_right _ _)
  · exact .inl ha

theorem Merged.apart_insert : Apart (Function.update owner s'.ptr a₀) h' (m.insert a₀ s') where
  views ht := by
    rcases GoMap.lookup_insert_eq_some.1 ht with ⟨rfl, rfl⟩ | ⟨hne, ht⟩
    · exact (Heap.append_self hr (hm.nil_or_views hcur)).1
    · exact (hm.other_slice hcur hr hne ht).1
  owner ht := by
    rcases GoMap.lookup_insert_eq_some.1 ht with ⟨rfl, rfl⟩ | ⟨hne, ht⟩
    · exact Function.update_self _ _ _
    · exact (hm.other_slice hcur hr hne ht).2.2

theorem Merged.contents_insert (a : String) :
    contents h' (m.insert a₀ s') a = contents h₀ primary a ++ added (l ++ [(a₀, x)]) a := by
  rw [added_concat]
  by_cases ha : a₀ = a
  · subst ha
    rw [contents_eq (AList.lookup_insert m), (Heap.append_self hr (hm.nil_or_views hcur)).2, ← hcur.contents_eq,
      hm.read, if_pos rfl, List.append_assoc]
  · have hcontents : contents h' (m.insert a₀ s') a = contents h m a := by
      rw [contents, AList.lookup_insert_ne (Ne.symm ha)]
      cases hlook : m.lookup a with
      | none => simp [contents, hlook]
      | some t =>
        rw [contents_eq hlook, ← (hm.other_slice hcur hr (Ne.symm ha) hlook).2.1]
        rfl
    rw [hcontents, hm.read, if_neg ha]

/-- The slice leaves the array of its primary when that is full. -/
theorem Merged.place_insert {a : String} {t t' : Slice} (ht : primary.lookup a = some t)
    (ht' : (m.insert a₀ s').lookup a = some t') : if t.len + (added (l ++ [(a₀, x)]) a).length ≤ t.cap then
      t'.ptr = t.ptr ∧ t'.cap = t.cap else t'.ptr ≠ t.ptr := by
  rw [added_concat]
  rcases GoMap.lookup_insert_eq_some.1 ht' with ⟨rfl, rfl⟩ | ⟨hne, ht'⟩
  · have hlook := hm.current hcur ht
    have hlen := hm.len ht hlook
    have hold := hm.place ht hlook
    rw [if_pos rfl, List.length_append, List.length_singleton]
    by_cases hroom : t.len + (added l a).length ≤ t.cap
    · rw [if_pos hroom] at hold
      have hcap := hold.2
      rcases Heap.append_cases hr with ⟨hlt, -, rfl⟩ | ⟨hle, -, rfl⟩
      · rw [if_pos (by omega)]
        exact hold
      · rw [if_neg (by omega)]
        exact (hm.stored.views ht).ptr.ne'
    · rw [if_neg hroom] at hold
      rw [if_neg (by omega)]
      rcases Heap.append_cases hr with ⟨-, -, rfl⟩ | ⟨-, -, rfl⟩
      · exact hold
      · exact (hm.stored.views ht).ptr.ne'
  · rw [if_neg (Ne.symm hne)]
    exact hm.place ht ht'

end Append

theorem Merged.append (hm : Merged owner h₀ primary l s) (a₀ x : String) :
    ∃ owner, Merged owner h₀ primary (l ++ [(a₀, x)]) (appendHost grow s a₀ x) := by
  obtain ⟨h, m⟩ := s
  have hcur := @current_getD m a₀
  obtain ⟨h', s', hr⟩ : ∃ h' s', h.append grow ((m.lookup a₀).getD Heap.nil) x = (h', s') := ⟨_, _, rfl⟩
  have happend : appendHost grow (h, m) a₀ x = (h', m.insert a₀ s') := by simp only [appendHost, hr]
  rw [happend]
  exact ⟨_, {
    stored := ⟨fun ht => (hm.stored_slice hcur hr ht).1, fun ht => (hm.stored_slice hcur hr ht).2.2⟩
    kept := fun ht => (hm.stored_slice hcur hr ht).2.1.trans (hm.kept ht)
    apart := hm.apart_insert hcur hr
    read := hm.contents_insert hcur hr
    keys := fun a => by
      rw [added_concat]
      by_cases ha : a₀ = a
      · subst ha
        simp
      · rw [AList.lookup_insert_ne (Ne.symm ha), if_neg ha]
        exact hm.keys a
    place := hm.place_insert hcur hr }⟩

/-- **All fallbacks appended.** -/
theorem merged_foldl (h : Apart owner h₀ primary) (l : List (String × String)) :
    ∃ owner, Merged owner h₀ primary l (l.foldl (fun s e => appendHost grow s e.1 e.2) (h₀, primary)) := by
  induction l using List.reverseRecOn with
  | nil => exact ⟨owner, .nil h⟩
  | append_singleton l e ih =>
    obtain ⟨owner, hm⟩ := ih
    rw [List.foldl_append]
    exact hm.append e.1 e.2

/-! ## Sorted in place -/

theorem Merged.nodup_ptr (hm : Merged owner h₀ primary l s) {slices : List Slice}
    (hslices : slices.Perm (s.2.pairs.map Prod.snd)) : (slices.map Slice.ptr).Nodup := by
  rw [(hslices.map Slice.ptr).nodup_iff, List.map_map]
  refine List.Nodup.of_map owner ?_
  rw [List.map_map, List.map_congr_left fun e he => ?_]
  · exact s.2.nodup_pairs
  · exact hm.apart.owner (GoMap.mem_pairs.1 he)

/-- What a stored slice views when the slices of the block have been sorted: if the
fallbacks fitted into its array, the least of all hosts. -/
theorem Merged.read_sorts (hm : Merged owner h₀ primary l s) {slices : List Slice}
    (hslices : slices.Perm (s.2.pairs.map Prod.snd)) {a : String} {t : Slice} (ht : primary.lookup a = some t) :
    (slices.foldl Heap.sort s.1).read t = if t.len + (added l a).length ≤ t.cap then
      ((h₀.read t ++ added l a).insertionSort (· ≤ ·)).take t.len else h₀.read t := by
  have hmem {s' : Slice} (hs' : s' ∈ slices) : ∃ a, s.2.lookup a = some s' := by
    obtain ⟨e, he, rfl⟩ := List.mem_map.1 (hslices.mem_iff.1 hs')
    exact ⟨e.1, GoMap.mem_pairs.1 he⟩
  obtain ⟨t', ht'⟩ : ∃ t', s.2.lookup a = some t' := by
    rw [← Option.ne_none_iff_exists']
    exact fun hnone => by simp [((hm.keys a).1 hnone).1] at ht
  have hplace := hm.place ht ht'
  have hread := hm.read a
  rw [contents_eq ht, contents_eq ht'] at hread
  by_cases hroom : t.len + (added l a).length ≤ t.cap
  · rw [if_pos hroom] at hplace ⊢
    have hin : t' ∈ slices := hslices.mem_iff.2 (List.mem_map.2 ⟨(a, t'), GoMap.mem_pairs.2 ht', rfl⟩)
    rw [Heap.read_sorts (hm.nodup_ptr hslices) hin (hm.apart.views ht') hplace.1.symm ?_, hread]
    rw [hm.len ht ht']
    exact Nat.le_add_right _ _
  · rw [if_neg hroom] at hplace ⊢
    rw [Heap.read_sorts_ne, hm.kept ht]
    -- another slice of that array would be that of the address
    intro s' hs' hptr
    obtain ⟨a', ha'⟩ := hmem hs'
    have howner : a' = a := by rw [← hm.apart.owner ha', ← hm.stored.owner ht, hptr]
    subst howner
    obtain rfl := Option.some.inj (ha'.symm.trans ht')
    exact hplace hptr.symm

end

/-- The `n` least of more elements are the first `n` of them exactly if the others are
no less. -/
theorem perm_take_sort_iff {α : Type} [LinearOrder α] (l l' : List α) :
    (((l ++ l').insertionSort (· ≤ ·)).take l.length).Perm l ↔ ∀ x ∈ l, ∀ y ∈ l', x ≤ y := by
  have hsplit := List.take_append_drop l.length ((l ++ l').insertionSort (· ≤ ·))
  have hsorted := List.pairwise_insertionSort (· ≤ ·) (l ++ l')
  constructor
  · intro hperm x hx y hy
    rw [← hsplit, List.pairwise_append] at hsorted
    have hrest : (((l ++ l').insertionSort (· ≤ ·)).drop l.length).Perm l' := by
      refine (List.perm_append_left_iff l).1 (((hperm.append_right _).symm.trans ?_))
      rw [hsplit]
      exact List.perm_insertionSort _ _
    exact hsorted.2.2 x (hperm.mem_iff.2 hx) y (hrest.mem_iff.2 hy)
  · intro hle
    have heq : (l ++ l').insertionSort (· ≤ ·) = l.insertionSort (· ≤ ·) ++ l'.insertionSort (· ≤ ·) := by
      refine List.Perm.eq_of_pairwise' hsorted (List.pairwise_append.2 ⟨List.pairwise_insertionSort _ _,
        List.pairwise_insertionSort _ _, fun x hx y hy => ?_⟩) ?_
      · exact hle x ((List.perm_insertionSort _ _).mem_iff.1 hx) y ((List.perm_insertionSort _ _).mem_iff.1 hy)
      · exact (List.perm_insertionSort _ _).trans ((List.perm_insertionSort _ _).append (List.perm_insertionSort _ _)).symm
    rw [heq, List.take_left' (List.perm_insertionSort _ _).length_eq]
    exact List.perm_insertionSort _ _

/-! ## An update -/

theorem does_updateHostsFileWithSlices {p key : String} {h h' : Heap String} {addrToHosts : List (String × Slice)}
    {data data' : String} {err : Option Error}
    (hdoes : Prog.Does Serves data (updateHostsFileWithSlices p key h addrToHosts) (err, h') data') :
    (h' = h ∧ err ≠ none ∨ h' = (blockLines h addrToHosts).1) ∧
      (err = none → data' = textOf (newLines key (sortLines (blockLines h addrToHosts).2) (linesOf data))) := by
  obtain ⟨mode, _, hstat, hdoes⟩ := does_ask.1 hdoes
  cases hstat
  cases mode with
  | error err =>
    obtain ⟨hret, rfl⟩ := Prog.does_ret.1 hdoes
    cases hret
    simp
  | ok mode =>
    obtain ⟨_, _, hread, hdoes⟩ := does_ask.1 hdoes
    cases hread with
    | readFailed =>
      obtain ⟨hret, rfl⟩ := Prog.does_ret.1 hdoes
      cases hret
      simp
    | read =>
      simp only at hdoes
      split at hdoes
      · next heq =>
        obtain ⟨hret, rfl⟩ := Prog.does_ret.1 hdoes
        cases hret
        exact ⟨.inr rfl, fun _ => heq.symm⟩
      · obtain ⟨_, _, hwrite, hdoes⟩ := does_ask.1 hdoes
        cases hwrite with
        | written =>
          obtain ⟨hret, rfl⟩ := Prog.does_ret.1 hdoes
          cases hret
          exact ⟨.inr rfl, fun _ => rfl⟩
        | writeFailed =>
          obtain ⟨hret, rfl⟩ := Prog.does_ret.1 hdoes
          cases hret
          exact ⟨.inr rfl, by simp⟩

section

variable {IP : Type}

/-! ## What the block is to be -/

/-- All primaries. -/
def allHosts (given : GoMap Given) : List String := given.pairs.flatMap fun e => e.2.hosts

/-- The primaries of an address. -/
def hostsOf (given : GoMap Given) (a : String) : List String := (given.lookup a).elim [] Given.hosts

/-- The host is to be on the line of the address: as a primary, or as a fallback that
is nowhere a primary. -/
def Expected (render : IP → String) (given : GoMap Given) (fallbacks : GoMap (List IP)) (a host : String) : Prop :=
  (∃ g, given.lookup a = some g ∧ host ∈ g.hosts) ∨
    ((∀ a' g, given.lookup a' = some g → host ∉ g.hosts) ∧
      ∃ ips, fallbacks.lookup host = some ips ∧ ∃ ip ∈ ips, render ip = a)

/-- The block, from the latest maps alone. -/
def wanted (render : IP → String) (given : GoMap Given) (fallbacks : GoMap (List IP)) : List (String × List String) :=
  let l := needed render (allHosts given) fallbacks.pairs
  (given.keys ++ l.map Prod.fst).dedup.map fun a => (a, hostsOf given a ++ added l a)

/-- The block has these hosts on the lines of these addresses, each once, and depends
on nothing else. -/
structure Right (render : IP → String) (given : GoMap Given) (fallbacks : GoMap (List IP)) (block : List Line) : Prop where
  lines : ∃ lines : List (String × List String), block = sortLines (lines.map lineText) ∧ (lines.map Prod.fst).Nodup ∧
    (∀ e ∈ lines, e.2.Nodup) ∧
    ∀ a host, (∃ hosts, (a, hosts) ∈ lines ∧ host ∈ hosts) ↔ Expected render given fallbacks a host
  latest : block = records (wanted render given fallbacks)

variable {render : IP → String} {given : GoMap Given} {fallbacks : GoMap (List IP)}

theorem mem_allHosts {x : String} : x ∈ allHosts given ↔ ∃ a g, given.lookup a = some g ∧ x ∈ g.hosts := by
  simp only [allHosts, List.mem_flatMap]
  constructor
  · intro h
    obtain ⟨e, he, hx⟩ := h
    exact ⟨e.1, e.2, GoMap.mem_pairs.1 he, hx⟩
  · intro h
    obtain ⟨a, g, hg, hx⟩ := h
    exact ⟨(a, g), GoMap.mem_pairs.2 hg, hx⟩

theorem mem_hostsOf {a x : String} : x ∈ hostsOf given a ↔ ∃ g, given.lookup a = some g ∧ x ∈ g.hosts := by
  unfold hostsOf
  cases given.lookup a with
  | none => simp
  | some g => simp

theorem expected_iff {a host : String} : Expected render given fallbacks a host ↔
    host ∈ hostsOf given a ++ added (needed render (allHosts given) fallbacks.pairs) a := by
  rw [List.mem_append, mem_hostsOf, mem_added_needed, mem_allHosts, Expected]
  simp only [GoMap.mem_pairs, not_exists, not_and]

theorem mem_wanted {e : String × List String} (he : e ∈ wanted render given fallbacks) :
    e.2 = hostsOf given e.1 ++ added (needed render (allHosts given) fallbacks.pairs) e.1 := by
  obtain ⟨a, -, rfl⟩ := List.mem_map.1 he
  rfl

theorem wanted_fst : (wanted render given fallbacks).map Prod.fst =
    (given.keys ++ (needed render (allHosts given) fallbacks.pairs).map Prod.fst).dedup := by
  simp [wanted, Function.comp_def]

theorem added_eq_nil {l : List (String × String)} {a : String} : added l a = [] ↔ a ∉ l.map Prod.fst := by
  simp [added, List.filter_eq_nil_iff]
  grind

/-- An address has a line if it has primaries, or fallbacks that are needed. -/
theorem mem_wanted_fst {a : String} : a ∈ (wanted render given fallbacks).map Prod.fst ↔
    given.lookup a ≠ none ∨ added (needed render (allHosts given) fallbacks.pairs) a ≠ [] := by
  rw [wanted_fst, List.mem_dedup, List.mem_append, ne_eq, ne_eq, added_eq_nil, not_not, ← AList.mem_keys,
    AList.lookup_eq_none, not_not]

theorem right_wanted : Right render given fallbacks (records (wanted render given fallbacks)) := by
  refine ⟨⟨(wanted render given fallbacks).map fun e => (e.1, squeeze (e.2.insertionSort (· ≤ ·))), ?_, ?_, ?_, ?_⟩, rfl⟩
  · rw [records_eq, List.map_map]
    exact congrArg sortLines (List.map_congr_left fun e _ => recordLine_eq e.1 e.2)
  · rw [List.map_map]
    show ((wanted render given fallbacks).map Prod.fst).Nodup
    rw [wanted_fst]
    exact List.nodup_dedup _
  · intro e he
    obtain ⟨e, -, rfl⟩ := List.mem_map.1 he
    exact nodup_squeeze (List.pairwise_insertionSort _ _)
  · intro a host
    rw [expected_iff]
    constructor
    · intro h
      obtain ⟨hosts, hmem, hhost⟩ := h
      obtain ⟨e, he, heq⟩ := List.mem_map.1 hmem
      cases heq
      rw [mem_squeeze, (List.perm_insertionSort _ _).mem_iff, mem_wanted he] at hhost
      exact hhost
    · intro hhost
      have hfst : a ∈ (wanted render given fallbacks).map Prod.fst := by
        rw [mem_wanted_fst]
        rcases List.mem_append.1 hhost with hmem | hmem
        · obtain ⟨g, hg, -⟩ := mem_hostsOf.1 hmem
          exact .inl (by simp [hg])
        · exact .inr (List.ne_nil_of_mem hmem)
      obtain ⟨e, he, rfl⟩ := List.mem_map.1 hfst
      refine ⟨_, List.mem_map.2 ⟨e, he, rfl⟩, ?_⟩
      rw [mem_squeeze, (List.perm_insertionSort _ _).mem_iff, mem_wanted he]
      exact hhost

/-! ## An update of intact primaries -/

/-- The stored slices have the hosts that were given, in some order. -/
structure Intact (h : Heap String) (primary : GoMap Slice) (given : GoMap Given) : Prop where
  keys : ∀ a, primary.lookup a = none ↔ given.lookup a = none
  hosts : ∀ {a t g}, primary.lookup a = some t → given.lookup a = some g → (h.read t).Perm g.hosts
  cap : ∀ {a t g}, primary.lookup a = some t → given.lookup a = some g → t.cap = g.cap

/-- No fallback is appended into spare capacity that sorts before a primary of its
address. -/
def Spares (render : IP → String) (given : GoMap Given) (fallbacks : GoMap (List IP)) : Prop :=
  ∀ a g, given.lookup a = some g →
    g.cap < g.hosts.length + (added (needed render (allHosts given) fallbacks.pairs) a).length ∨
      ∀ host ∈ g.hosts, ∀ fallback ∈ added (needed render (allHosts given) fallbacks.pairs) a, host ≤ fallback

section Update

variable {owner : Nat → String} {h h' : Heap String} {primary : GoMap Slice} (hintact : Intact h primary given)

include hintact

theorem Intact.exists_given {a : String} {t : Slice} (ht : primary.lookup a = some t) : ∃ g, given.lookup a = some g := by
  rw [← Option.ne_none_iff_exists']
  exact fun hnone => by simp [(hintact.keys a).2 hnone] at ht

theorem Intact.perm_contents (a : String) : (contents h primary a).Perm (hostsOf given a) := by
  cases ht : primary.lookup a with
  | none =>
    have hg := (hintact.keys a).1 ht
    simp [contents, hostsOf, ht, hg]
  | some t =>
    obtain ⟨g, hg⟩ := hintact.exists_given ht
    rw [contents_eq ht, hostsOf, hg]
    exact hintact.hosts ht hg

theorem Intact.mem_allHosts (x : String) : x ∈ primary.pairs.flatMap (fun e => h.read e.2) ↔ x ∈ allHosts given := by
  have hread : x ∈ primary.pairs.flatMap (fun e => h.read e.2) ↔ ∃ a, x ∈ contents h primary a := by
    simp only [List.mem_flatMap]
    constructor
    · intro hx
      obtain ⟨e, he, hx⟩ := hx
      exact ⟨e.1, by rwa [contents_eq (GoMap.mem_pairs.1 he)]⟩
    · intro hx
      obtain ⟨a, hx⟩ := hx
      cases ht : primary.lookup a with
      | none => simp [contents, ht] at hx
      | some t => exact ⟨(a, t), GoMap.mem_pairs.2 ht, by rwa [contents_eq ht] at hx⟩
  rw [hread, Hosts.mem_allHosts]
  simp only [(hintact.perm_contents _).mem_iff, mem_hostsOf]

/-- What becomes of a stored slice. -/
theorem Intact.perm_iff {l : List String} {a : String} {t : Slice} {g : Given} (hviews : h.Views t)
    (ht : primary.lookup a = some t) (hg : given.lookup a = some g)
    (hl : l.Perm (added (needed render (allHosts given) fallbacks.pairs) a))
    (hread : h'.read t = if t.len + l.length ≤ t.cap then ((h.read t ++ l).insertionSort (· ≤ ·)).take t.len else h.read t) :
    (h'.read t).Perm g.hosts ↔
      g.cap < g.hosts.length + (added (needed render (allHosts given) fallbacks.pairs) a).length ∨
        ∀ host ∈ g.hosts, ∀ fallback ∈ added (needed render (allHosts given) fallbacks.pairs) a, host ≤ fallback := by
  have hperm := hintact.hosts ht hg
  have hlen : t.len = g.hosts.length := (Heap.length_read hviews).symm.trans hperm.length_eq
  have hcap := hintact.cap ht hg
  rw [hread, ← hl.length_eq]
  simp only [← hl.mem_iff, ← hperm.mem_iff]
  by_cases hroom : t.len + l.length ≤ t.cap
  · rw [if_pos hroom, or_iff_right (by omega), ← perm_take_sort_iff, Heap.length_read hviews]
    exact ⟨fun h => h.trans hperm.symm, fun h => h.trans hperm⟩
  · rw [if_neg hroom]
    exact iff_of_true hperm (.inl (by omega))

end Update

section

variable {grow : Nat → Nat} {order : Order} {p : Provider IP} {owner : Nat → String} {h h' : Heap String}
  {data data' : String} {err : Option Error}

/-- The file with this block for the key. -/
def Shows (key : String) (block : List Line) (data : String) : Prop :=
  ∃ kept, data = textOf (kept ++ [] :: guardBegin key :: (block ++ [guardEnd key, []]))

/-- The fallbacks that an update appends. -/
def appended (render : IP → String) (order : Order) (p : Provider IP) (h : Heap String) : List (String × String) :=
  needed render (p.primary.pairs.flatMap fun e => h.read e.2) (order.run p.fallbacks.pairs)

/-- What an update does to the stored slices, and which block it writes. -/
theorem update_spec (hapart : Apart owner h p.primary)
    (hdoes : Prog.Does Serves data (p.update grow render order h) (err, h') data') :
    (∃ owner, Apart owner h' p.primary) ∧
      ((∀ a t, p.primary.lookup a = some t → h'.read t = h.read t) ∧ err ≠ none ∨
        ∀ a t, p.primary.lookup a = some t → h'.read t = if t.len + (added (appended render order p h) a).length ≤ t.cap then
          ((h.read t ++ added (appended render order p h) a).insertionSort (· ≤ ·)).take t.len else h.read t) ∧
      (err = none → ∃ entries : List (String × List String), (entries.map Prod.fst).Nodup ∧
        (∀ e ∈ entries, e.2 = contents h p.primary e.1 ++ added (appended render order p h) e.1) ∧
        (∀ a, a ∈ entries.map Prod.fst ↔ p.primary.lookup a ≠ none ∨ added (appended render order p h) a ≠ []) ∧
        Shows p.key (records entries) data') := by
  obtain ⟨s, hs⟩ : ∃ s, withFallbacks grow render (p.primary.pairs.flatMap fun e => h.read e.2) (h, p.primary)
    (order.run p.fallbacks.pairs) = s := ⟨_, rfl⟩
  obtain ⟨owner, hm⟩ : ∃ owner, Merged owner h p.primary (appended render order p h) s := by
    rw [← hs, withFallbacks_eq]
    exact merged_foldl hapart _
  have hupdate : p.update grow render order h = updateHostsFileWithSlices "/etc/hosts" p.key s.1 (order.run s.2.pairs) := by
    rw [Provider.update, hs]
  have hslices : ((order.run s.2.pairs).map Prod.snd).Perm (s.2.pairs.map Prod.snd) := (order.perm _).map _
  have hlookup {e : String × Slice} (he : e ∈ order.run s.2.pairs) : s.2.lookup e.1 = some e.2 :=
    GoMap.mem_pairs.1 ((order.perm _).mem_iff.1 he)
  have hblock := blockLines_eq (by simpa [Function.comp_def] using hm.nodup_ptr hslices)
    fun e he => hm.apart.views (hlookup he)
  rw [hupdate] at hdoes
  obtain ⟨hheap, hfile⟩ := does_updateHostsFileWithSlices hdoes
  rw [hblock] at hheap hfile
  refine ⟨⟨owner, ?_⟩, ?_, fun herr => ?_⟩
  · rcases hheap with ⟨rfl, -⟩ | rfl
    · exact hm.stored
    · exact ⟨fun ht => (hm.stored.views ht).sorts, hm.stored.owner⟩
  · rcases hheap with ⟨rfl, herr⟩ | rfl
    · exact .inl ⟨fun a t ht => hm.kept ht, herr⟩
    · exact .inr fun a t ht => hm.read_sorts hslices ht
  · refine ⟨(order.run s.2.pairs).map fun e => (e.1, s.1.read e.2), ?_, ?_, ?_, ?_⟩
    · rw [List.map_map]
      exact ((order.perm _).map Prod.fst).nodup_iff.2 s.2.nodup_pairs
    · intro e he
      obtain ⟨e', he', rfl⟩ := List.mem_map.1 he
      rw [← hm.read, contents_eq (hlookup he')]
    · intro a
      have hnone := hm.keys a
      rw [List.map_map]
      show a ∈ (order.run s.2.pairs).map Prod.fst ↔ _
      rw [((order.perm _).map Prod.fst).mem_iff, GoMap.keys_eq_map_pairs, ← AList.mem_keys, ← not_iff_not,
        ← AList.lookup_eq_none, hnone]
      simp
    · refine ⟨(scan p.key (linesOf data)).rdropWhile (· = []), ?_⟩
      rw [hfile herr, newLines, records_eq, List.map_map]
      rfl

/-- **An update of intact primaries** writes the right block; and they are intact after
it exactly if the fallbacks spare them. -/
theorem Intact.update (hintact : Intact h p.primary given) (hapart : Apart owner h p.primary)
    (hdoes : Prog.Does Serves data (p.update grow render order h) (err, h') data') :
    (Spares render given p.fallbacks → Intact h' p.primary given) ∧
      (err = none → (Intact h' p.primary given → Spares render given p.fallbacks) ∧
        Shows p.key (records (wanted render given p.fallbacks)) data') := by
  obtain ⟨-, hreads, hfile⟩ := update_spec hapart hdoes
  have hl (a : String) : (added (appended render order p h) a).Perm
      (added (needed render (allHosts given) p.fallbacks.pairs) a) :=
    added_needed_perm hintact.mem_allHosts (order.perm _) a
  refine ⟨fun hspares => ⟨hintact.keys, fun {a t g} ht hg => ?_, hintact.cap⟩, fun herr => ⟨fun hafter a g hg => ?_, ?_⟩⟩
  · rcases hreads with ⟨hreads, -⟩ | hreads
    · rw [hreads a t ht]
      exact hintact.hosts ht hg
    · exact (hintact.perm_iff (hapart.views ht) ht hg (hl a) (hreads a t ht)).2 (hspares a g hg)
  · obtain ⟨t, ht⟩ : ∃ t, p.primary.lookup a = some t := by
      rw [← Option.ne_none_iff_exists']
      exact fun hnone => by simp [(hintact.keys a).1 hnone] at hg
    have hreads := hreads.resolve_left fun hfailed => hfailed.2 herr
    exact (hintact.perm_iff (hapart.views ht) ht hg (hl a) (hreads a t ht)).1 (hafter.hosts ht hg)
  · obtain ⟨entries, hnodup, hcontents, hkeys, hshows⟩ := hfile herr
    have hrecords : records entries = records (wanted render given p.fallbacks) := by
      refine records_congr hcontents (fun e he => mem_wanted he) (fun a => (hintact.perm_contents a).append (hl a))
        hnodup ?_ fun a => ?_
      · rw [wanted_fst]
        exact List.nodup_dedup _
      · have hnil : added (appended render order p h) a = [] ↔
            added (needed render (allHosts given) p.fallbacks.pairs) a = [] := by
          rw [← List.length_eq_zero_iff, (hl a).length_eq, List.length_eq_zero_iff]
        rw [hkeys, mem_wanted_fst, ne_eq, ne_eq, ne_eq, ne_eq, hintact.keys, hnil]
    rwa [hrecords] at hshows

end

/-! ## Calls -/

section Calls

/-- The map of the latest `UpdateHosts`. -/
def latestHosts (cs : List (Call IP)) : GoMap Given :=
  cs.foldl (fun given c => match c with
    | .addFallbacks _ => given
    | .updateHosts addressToHosts => addressToHosts) ∅

/-- The map of the latest `AddFallbacks`. -/
def latestFallbacks (cs : List (Call IP)) : GoMap (List IP) :=
  cs.foldl (fun fallbacks c => match c with
    | .addFallbacks dnsFallbacks => dnsFallbacks
    | .updateHosts _ => fallbacks) ∅

/-- Calls of one provider, each with any outcome, and with the file as it then is. -/
inductive Calls (grow : Nat → Nat) (render : IP → String) (key : String) : List (Call IP) → State IP → Prop
  | new : Calls grow render key [] (.new key)
  | call {cs s c order data err s' data'} : Calls grow render key cs s →
      Prog.Does Serves data (s.call grow render order c) (err, s') data' → Calls grow render key (cs ++ [c]) s'

variable {grow : Nat → Nat} {key : String}

/-- The slices of a caller. -/
theorem allocate_spec (h : Heap String) (l : List (String × Given)) (hnodup : (l.map Prod.fst).Nodup) :
    ∃ owner, Apart owner (allocate h l).1 (allocate h l).2 ∧
      (∀ a, (allocate h l).2.lookup a = none ↔ a ∉ l.map Prod.fst) ∧
      ∀ {a t g}, (allocate h l).2.lookup a = some t → (a, g) ∈ l → (allocate h l).1.read t = g.hosts ∧ t.cap = g.cap := by
  induction l using List.reverseRecOn with
  | nil => exact ⟨fun _ => "", ⟨by simp [allocate], by simp [allocate]⟩, by simp [allocate], by simp⟩
  | append_singleton l e ih =>
    obtain ⟨a₀, g₀⟩ := e
    rw [List.map_append, List.map_singleton, List.nodup_append] at hnodup
    have hnew : a₀ ∉ l.map Prod.fst := fun hmem => hnodup.2.2 a₀ hmem a₀ (by simp) rfl
    obtain ⟨owner, hapart, hkeys, hread⟩ := ih hnodup.1
    have hstep : allocate h (l ++ [(a₀, g₀)]) = ((allocate h l).1.alloc (g₀.hosts ++ g₀.spare),
        (allocate h l).2.insert a₀ ⟨(allocate h l).1.next, g₀.hosts.length, g₀.cap⟩) := by
      simp [allocate]
    rw [hstep]
    refine ⟨Function.update owner (allocate h l).1.next a₀, ⟨fun ht => ?_, fun ht => ?_⟩, fun a => ?_, fun {a t g} ht hg => ?_⟩
    · rcases GoMap.lookup_insert_eq_some.1 ht with ⟨-, rfl⟩ | ⟨hne, ht⟩
      · exact Heap.views_alloc
      · exact (hapart.views ht).alloc
    · rcases GoMap.lookup_insert_eq_some.1 ht with ⟨rfl, rfl⟩ | ⟨hne, ht⟩
      · exact Function.update_self _ _ _
      · rw [Function.update_of_ne (hapart.views ht).ptr.ne]
        exact hapart.owner ht
    · by_cases ha : a = a₀
      · simp [ha]
      · rw [AList.lookup_insert_ne ha, hkeys]
        simp [ha]
    · rcases GoMap.lookup_insert_eq_some.1 ht with ⟨rfl, rfl⟩ | ⟨hne, ht⟩
      · have hg : g = g₀ := by
          rcases List.mem_append.1 hg with hg | hg
          · exact absurd (List.mem_map_of_mem hg) hnew
          · exact congrArg Prod.snd (List.mem_singleton.1 hg)
        subst hg
        exact ⟨Heap.read_alloc_self, rfl⟩
      · have hg : (a, g) ∈ l := by simpa [hne] using hg
        rw [Heap.read_alloc (hapart.views ht)]
        exact hread ht hg

theorem intact_allocate (h : Heap String) (given : GoMap Given) :
    (∃ owner, Apart owner (allocate h given.pairs).1 (allocate h given.pairs).2) ∧
      Intact (allocate h given.pairs).1 (allocate h given.pairs).2 given := by
  obtain ⟨owner, hapart, hkeys, hread⟩ := allocate_spec h given.pairs given.nodup_pairs
  refine ⟨⟨owner, hapart⟩, fun a => ?_, fun ht hg => ?_, fun ht hg => (hread ht (GoMap.mem_pairs.2 hg)).2⟩
  · rw [hkeys, GoMap.keys_eq_map_pairs, ← AList.mem_keys, ← AList.lookup_eq_none]
  · rw [(hread ht (GoMap.mem_pairs.2 hg)).1]

section Latest

variable (cs : List (Call IP)) (dnsFallbacks : GoMap (List IP)) (addressToHosts : GoMap Given)

@[simp] theorem latestHosts_addFallbacks : latestHosts (cs ++ [.addFallbacks dnsFallbacks]) = latestHosts cs := by
  simp [latestHosts]

@[simp] theorem latestHosts_updateHosts :
    latestHosts (cs ++ [.updateHosts addressToHosts]) = addressToHosts := by
  simp [latestHosts]

@[simp] theorem latestFallbacks_addFallbacks :
    latestFallbacks (cs ++ [.addFallbacks dnsFallbacks]) = dnsFallbacks := by
  simp [latestFallbacks]

@[simp] theorem latestFallbacks_updateHosts :
    latestFallbacks (cs ++ [.updateHosts addressToHosts]) = latestFallbacks cs := by
  simp [latestFallbacks]

end Latest

/-- What the provider has stored, but for the hosts of its primaries. -/
structure Holds (key : String) (cs : List (Call IP)) (s : State IP) : Prop where
  key : s.provider.key = key
  fallbacks : s.provider.fallbacks = latestFallbacks cs
  apart : ∃ owner, Apart owner s.heap s.provider.primary

/-- The stored primaries are those of the latest `UpdateHosts`. -/
def State.Intact (cs : List (Call IP)) (s : State IP) : Prop :=
  Hosts.Intact s.heap s.provider.primary (latestHosts cs)

/-- The fallbacks of the latest `AddFallbacks` spare the primaries of the latest
`UpdateHosts`. -/
def Spared (render : IP → String) (cs : List (Call IP)) : Prop := Spares render (latestHosts cs) (latestFallbacks cs)

def Call.IsUpdate : Call IP → Prop
  | .addFallbacks _ => False
  | .updateHosts _ => True

theorem Holds.stored {cs : List (Call IP)} {s : State IP} (hs : Holds key cs s) (c : Call IP) :
    Holds key (cs ++ [c]) (s.stored c) := by
  cases c with
  | addFallbacks dnsFallbacks => exact ⟨hs.key, (latestFallbacks_addFallbacks _ _).symm, hs.apart⟩
  | updateHosts addressToHosts =>
    exact ⟨hs.key, hs.fallbacks.trans (latestFallbacks_updateHosts _ _).symm, (intact_allocate s.heap addressToHosts).1⟩

/-- `UpdateHosts` stores new primaries, whatever became of those before. -/
theorem intact_stored {cs : List (Call IP)} {s : State IP} {c : Call IP} (hs : c.IsUpdate ∨ s.Intact cs) :
    (s.stored c).Intact (cs ++ [c]) := by
  cases c with
  | addFallbacks dnsFallbacks =>
    unfold State.Intact
    rw [latestHosts_addFallbacks]
    exact hs.resolve_left id
  | updateHosts addressToHosts =>
    unfold State.Intact
    rw [latestHosts_updateHosts]
    exact (intact_allocate s.heap addressToHosts).2

theorem does_call {s s' : State IP} {c : Call IP} {order : Order} {data data' : String} {err : Option Error}
    (hdoes : Prog.Does Serves data (s.call grow render order c) (err, s') data') :
    ∃ h', s' = { s.stored c with heap := h' } ∧
      Prog.Does Serves data ((s.stored c).provider.update grow render order (s.stored c).heap) (err, h') data' := by
  obtain ⟨r, data₁, hupdate, hret⟩ := Prog.does_bind.1 hdoes
  obtain ⟨heq, rfl⟩ := Prog.does_ret.1 hret
  cases heq
  exact ⟨r.2, rfl, hupdate⟩

section Call

variable {cs : List (Call IP)} {s s' : State IP} {c : Call IP} {order : Order} {data data' : String} {err : Option Error}
  (hs : Holds key cs s) (hdoes : Prog.Does Serves data (s.call grow render order c) (err, s') data')

include hs hdoes

theorem Holds.call : Holds key (cs ++ [c]) s' := by
  obtain ⟨h', rfl, hupdate⟩ := does_call hdoes
  have hstored := hs.stored c
  obtain ⟨owner, hapart⟩ := hstored.apart
  exact ⟨hstored.key, hstored.fallbacks, (update_spec hapart hupdate).1⟩

variable (hintact : c.IsUpdate ∨ s.Intact cs)

include hintact

theorem Holds.intact_call (hspared : Spared render (cs ++ [c])) : s'.Intact (cs ++ [c]) := by
  obtain ⟨h', rfl, hupdate⟩ := does_call hdoes
  have hstored := hs.stored c
  obtain ⟨owner, hapart⟩ := hstored.apart
  have hafter := (Intact.update (intact_stored hintact) hapart hupdate).1
  rw [hstored.fallbacks] at hafter
  exact hafter hspared

theorem Holds.right_call (herr : err = none) :
    (∃ block, Shows key block data' ∧ Right render (latestHosts (cs ++ [c])) (latestFallbacks (cs ++ [c])) block) ∧
      (s'.Intact (cs ++ [c]) → Spared render (cs ++ [c])) := by
  obtain ⟨h', rfl, hupdate⟩ := does_call hdoes
  have hstored := hs.stored c
  obtain ⟨owner, hapart⟩ := hstored.apart
  obtain ⟨hspares, hshows⟩ := (Intact.update (intact_stored hintact) hapart hupdate).2 herr
  rw [hstored.fallbacks] at hspares hshows
  rw [hstored.key] at hshows
  exact ⟨⟨_, hshows, right_wanted⟩, hspares⟩

end Call

theorem Calls.holds {cs : List (Call IP)} {s : State IP} (h : Calls grow render key cs s) : Holds key cs s := by
  induction h with
  | new => exact ⟨rfl, rfl, fun _ => "", ⟨by simp [State.new], by simp [State.new]⟩⟩
  | call _ hdoes ih => exact ih.call hdoes

/-- The calls since the latest `UpdateHosts`, and that one itself, have spared the
primaries. -/
def SparedSince (render : IP → String) (cs : List (Call IP)) : Prop :=
  ∀ pre post, cs = pre ++ post → (∀ c ∈ post, ¬ c.IsUpdate) → Spared render pre

theorem SparedSince.before {cs : List (Call IP)} {c : Call IP} (h : SparedSince render (cs ++ [c])) (hc : ¬ c.IsUpdate) :
    SparedSince render cs := by
  intro pre post hcs hpost
  refine h pre (post ++ [c]) (by simp [hcs]) fun c' hc' => ?_
  rcases List.mem_append.1 hc' with hc' | hc'
  · exact hpost c' hc'
  · rwa [List.mem_singleton.1 hc']

/-- **Primaries that are spared stay intact**, over all calls. -/
theorem Calls.intact {cs : List (Call IP)} {s : State IP} (h : Calls grow render key cs s) (hspared : SparedSince render cs) :
    s.Intact cs := by
  induction h with
  | new => exact ⟨by simp [State.new, latestHosts], by simp [State.new], by simp [State.new]⟩
  | @call cs s c order data err s' data' hcalls hdoes ih =>
    have hbefore : c.IsUpdate ∨ s.Intact cs := by
      by_cases hc : c.IsUpdate
      · exact .inl hc
      · exact .inr (ih (hspared.before hc))
    exact hcalls.holds.intact_call hdoes hbefore (hspared _ [] (by simp) (by simp))

/-- **Host records are the latest primaries and the fallbacks that are needed.** Let a
call go through after any others, and let none of those since the latest
`UpdateHosts` have appended a fallback into spare capacity that sorts before a
primary of its address. Then the block has a host on the line of an address exactly
if the latest primaries have it there, or the latest fallbacks and no primaries; once
on a line, and whatever the calls before. And the stored primaries are intact after
the call exactly if it spares them too. -/
theorem host_records_are_latest (grow : Nat → Nat) (render : IP → String) (key : String) (cs : List (Call IP)) (s s' : State IP)
    (c : Call IP) (order : Order) (data data' : String) (hcalls : Calls grow render key cs s)
    (hspared : ¬ c.IsUpdate → SparedSince render cs)
    (hdoes : Prog.Does Serves data (s.call grow render order c) (none, s') data') :
    (∃ block, Shows key block data' ∧ Right render (latestHosts (cs ++ [c])) (latestFallbacks (cs ++ [c])) block) ∧
      (s'.Intact (cs ++ [c]) ↔ Spared render (cs ++ [c])) := by
  have hintact : c.IsUpdate ∨ s.Intact cs := by
    by_cases hc : c.IsUpdate
    · exact .inl hc
    · exact .inr (hcalls.intact (hspared hc))
  obtain ⟨hright, hspares⟩ := hcalls.holds.right_call hdoes hintact rfl
  exact ⟨hright, hspares, hcalls.holds.intact_call hdoes hintact⟩

/-! ## Calls that go through -/

/-- The state after a call that goes through. -/
def State.after (grow : Nat → Nat) (render : IP → String) (order : Order) (s : State IP) (c : Call IP) : State IP × List Line :=
  let s := s.stored c
  let hostExists := s.provider.primary.pairs.flatMap fun e => s.heap.read e.2
  let merged := withFallbacks grow render hostExists (s.heap, s.provider.primary) (order.run s.provider.fallbacks.pairs)
  let r := blockLines merged.1 (order.run merged.2.pairs)
  ({ s with heap := r.1 }, sortLines r.2)

theorem call_does (grow : Nat → Nat) (render : IP → String) (s : State IP) (c : Call IP) (order : Order) (data : String) :
    Prog.Does Serves data (s.call grow render order c) (none, (s.after grow render order c).1)
      (textOf (newLines (s.stored c).provider.key (s.after grow render order c).2 (linesOf data))) := by
  refine Prog.does_bind.2 ⟨(none, (s.after grow render order c).1.heap), _, ?_, .ret⟩
  refine does_ask.2 ⟨.ok 0, data, .stat, does_ask.2 ⟨.ok data, data, .read, ?_⟩⟩
  simp only
  split
  · next heq =>
    refine Prog.does_ret.2 ⟨rfl, ?_⟩
    exact heq
  · exact does_ask.2 ⟨none, _, .written, .ret⟩

end Calls

end

/-- The entries as they are stored. -/
def Order.id : Order := ⟨fun l => l, fun _ => .refl _⟩

/-- Three hosts of one address, in an array with room for one more. -/
def threeHosts : GoMap Given := AList.singleton "10.0.0.1" ⟨["b", "c", "d"], [""]⟩

def fallbackOf (host : String) : GoMap (List String) := AList.singleton host ["10.0.0.1"]

/-- After `UpdateHosts` with three hosts. -/
def threeStored : State String := (State.after (fun _ => 0) id .id (.new "k") (.updateHosts threeHosts)).1

theorem calls_threeStored : Calls (fun _ => 0) id "k" [.updateHosts threeHosts] threeStored :=
  Calls.new.call (call_does (fun _ => 0) id (.new "k") (.updateHosts threeHosts) .id "")

theorem fallback_after_primaries : ∃ s' data',
    Calls (fun _ => 0) id "k" [.updateHosts threeHosts] threeStored ∧
    Prog.Does Serves "" (threeStored.call (fun _ => 0) id .id (.addFallbacks (fallbackOf "e"))) (none, s') data' ∧
    ∃ block, Shows "k" block data' ∧ Right id threeHosts (fallbackOf "e") block := by
  have hdoes := call_does (fun _ => 0) id threeStored (.addFallbacks (fallbackOf "e")) .id ""
  have hspared : SparedSince id [.updateHosts threeHosts] := by
    intro pre post hcs hpost a g hg
    -- there are no fallbacks yet
    refine .inr fun host _ fallback hfallback => ?_
    have hnone : latestFallbacks pre = (∅ : GoMap (List String)) := by
      cases pre with
      | nil => rfl
      | cons c pre =>
        obtain ⟨rfl, hrest⟩ := List.cons.inj hcs
        obtain ⟨rfl, -⟩ := List.append_eq_nil_iff.1 hrest.symm
        rfl
    rw [hnone, mem_added_needed] at hfallback
    obtain ⟨-, ips, hips, -⟩ := hfallback
    exact absurd (GoMap.mem_pairs.1 hips) (by simp)
  exact ⟨_, _, calls_threeStored, hdoes,
    (host_records_are_latest _ _ _ _ _ _ _ _ _ _ calls_threeStored (fun _ => hspared) hdoes).1⟩

/-- What is shown is at the end of the file. -/
theorem Shows.suffix {key : String} {block : List Line} {data : String} (h : Shows key block data) :
    ['\n'].intercalate ([] :: guardBegin key :: (block ++ [guardEnd key, []])) <:+ data.toList := by
  obtain ⟨kept, rfl⟩ := h
  rw [textOf, String.toList_ofList]
  induction kept with
  | nil => exact List.suffix_refl _
  | cons line kept ih =>
    refine ih.trans ?_
    rw [List.cons_append, List.intercalate_cons_of_ne_nil (by simp)]
    exact List.suffix_append _ _

/-- The array has room for the fallback, and the sort moves it before the primaries.
When it is taken back, it stays, and the last primary is gone. -/
theorem fallback_displaces_primary : ∃ s s' data',
    Calls (fun _ => 0) id "k" [.updateHosts threeHosts, .addFallbacks (fallbackOf "a")] s ∧
    Prog.Does Serves "" (s.call (fun _ => 0) id .id (.addFallbacks ∅)) (none, s') data' ∧
    Shows "k" ["10.0.0.1\ta b c".toList] data' ∧
    ¬ ∃ block, Shows "k" block data' ∧ Right id threeHosts ∅ block := by
  let s := (threeStored.after (fun _ => 0) id .id (.addFallbacks (fallbackOf "a"))).1
  have hcalls := calls_threeStored.call (call_does (fun _ => 0) id threeStored (.addFallbacks (fallbackOf "a")) .id "")
  have hdoes := call_does (fun _ => 0) id s (.addFallbacks ∅) .id ""
  have hfile : textOf (newLines (s.stored (.addFallbacks ∅)).provider.key (s.after (fun _ => 0) id .id (.addFallbacks ∅)).2
      (linesOf "")) = textOf (fileOf [] [⟨"k", ["10.0.0.1\ta b c".toList]⟩]) := by
    decide +kernel
  rw [hfile] at hdoes
  refine ⟨s, _, _, hcalls, hdoes, ⟨[], rfl⟩, fun h => ?_⟩
  obtain ⟨block, hshows, hright⟩ := h
  have hblock : block = ["10.0.0.1\tb c d".toList] := by
    rw [hright.latest]
    decide +kernel
  subst hblock
  exact absurd hshows.suffix (by decide +kernel)

end Hosts

end Etcdadm
