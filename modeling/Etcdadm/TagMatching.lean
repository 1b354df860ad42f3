/-
Which disks are the cluster's, by their tags, where the provider counts: DigitalOcean
(`matchesTags`) and Azure (`isDiskForCluster`). Both add up what matches and compare
the sum with the number of things that are to match. GCE and OpenStack look for each
tag instead, and that is what is meant.

A sum is right without each part being right. On DigitalOcean one key that matches
twice makes up for one that does not match, or is itself one too many. On Azure a
key that is not configured has the empty string for its value, so any tag without a
value counts as a match.
-/
import Etcdadm.VolumeAttach

namespace Etcdadm.VolumeProviders

/-! ## Counting -/

section Counting

theorem le_one_of_length_eq_sum {l : List Nat} (h : ∀ n ∈ l, 1 ≤ n) (hsum : l.length = l.sum) : ∀ n ∈ l, n ≤ 1 := by
  induction l with
  | nil => simp
  | cons n l ih =>
    obtain ⟨hn, hl⟩ := List.forall_mem_cons.1 h
    have hle := List.length_le_sum_of_one_le l hl
    simp only [List.length_cons, List.sum_cons] at hsum
    exact List.forall_mem_cons.2 ⟨by omega, ih hl (by omega)⟩

theorem sum_le_length {l : List Nat} (h : ∀ n ∈ l, n ≤ 1) : l.sum ≤ l.length := by
  simpa using List.sum_le_card_nsmul l 1 h

theorem one_le_of_length_eq_sum {l : List Nat} (h : ∀ n ∈ l, n ≤ 1) (hsum : l.length = l.sum) : ∀ n ∈ l, 1 ≤ n := by
  induction l with
  | nil => simp
  | cons n l ih =>
    obtain ⟨hn, hl⟩ := List.forall_mem_cons.1 h
    have hle := sum_le_length hl
    simp only [List.length_cons, List.sum_cons] at hsum
    exact List.forall_mem_cons.2 ⟨by omega, ih hl (by omega)⟩

theorem length_eq_sum_of_eq_one {l : List Nat} (h : ∀ n ∈ l, 1 ≤ n) (h' : ∀ n ∈ l, n ≤ 1) : l.length = l.sum :=
  Nat.le_antisymm (List.length_le_sum_of_one_le l h) (sum_le_length h')

/-- When the sum of counts tells that none of them is zero. -/
theorem length_eq_sum_iff {l : List Nat} : (l.length = l.sum ↔ ∀ n ∈ l, 1 ≤ n) ↔
    (∀ n ∈ l, n ≤ 1) ∨ (0 ∈ l ∧ l.length ≠ l.sum) := by
  by_cases hall : ∀ n ∈ l, 1 ≤ n
  · have hzero : 0 ∉ l := fun hmem => absurd (hall 0 hmem) (by decide)
    have hiff : (l.length = l.sum ↔ ∀ n ∈ l, 1 ≤ n) ↔ l.length = l.sum :=
      ⟨fun h => h.2 hall, fun hsum => ⟨fun _ => hall, fun _ => hsum⟩⟩
    simp only [hiff, hzero, false_and, or_false]
    exact ⟨le_one_of_length_eq_sum hall, length_eq_sum_of_eq_one hall⟩
  · have hzero : 0 ∈ l := by
      by_contra hmem
      exact hall fun n hn => Nat.one_le_iff_ne_zero.2 fun h => hmem (h ▸ hn)
    simp only [hall, iff_false, hzero, true_and]
    constructor
    · exact .inr
    · intro h hsum
      obtain h | h := h
      · exact hall (one_le_of_length_eq_sum h hsum)
      · exact h hsum

/-- What two lists without repetition have in common, counted in either. -/
theorem countP_mem_comm {α : Type} [BEq α] [LawfulBEq α] {l l' : List α} (h : l.Nodup) (h' : l'.Nodup) :
    l.countP (· ∈ l') = l'.countP (· ∈ l) := by
  rw [List.countP_eq_length_filter, List.countP_eq_length_filter]
  apply List.Perm.length_eq
  rw [List.perm_ext_iff_of_nodup (h.filter _) (h'.filter _)]
  intro x
  simp [and_comm]

/-- A count of what is in one of two ways, never in both. -/
theorem countP_add_countP {α : Type} {p q r : α → Bool} (l : List α) (h : ∀ x, p x = (q x || r x))
    (hdisjoint : ∀ x, q x = true → r x = false) : l.countP p = l.countP q + l.countP r := by
  induction l with
  | nil => rfl
  | cons x l ih =>
    have hx := hdisjoint x
    rw [List.countP_cons, List.countP_cons, List.countP_cons, ih, h x]
    cases hq : q x with
    | true => simp [hx hq]; omega
    | false => simp; omega

end Counting

/-! ## DigitalOcean -/

namespace DOVolumes

variable (a : DOVolumes) (toUpper : String → String) (volume : DoVolume)

/-- A volume's and a droplet's tag have the key and, ignoring case, one value. -/
def Agree (matchTag volumeTag dropletTag : String) : Prop :=
  ∃ vt dt, keyValue volumeTag = some vt ∧ keyValue dropletTag = some dt ∧ toUpper matchTag = toUpper vt.1 ∧
    toUpper matchTag = toUpper dt.1 ∧ toUpper dt.2 = toUpper vt.2

/-- The tags match, key by key. -/
def MatchesEach : Prop :=
  (∀ k v, (k, v) ∈ a.matchTags.pairs → containsTag toUpper volume.tags (k ++ ":" ++ v) = true ∧
    containsTag toUpper a.dropletTags (k ++ ":" ++ v) = true) ∧
  ∀ matchTag ∈ a.matchTagKeys, ∃ volumeTag ∈ volume.tags, ∃ dropletTag ∈ a.dropletTags,
    Agree toUpper matchTag volumeTag dropletTag

variable {a toUpper volume}

theorem one_le_matchingTagCount_iff {matchTag : String} : 1 ≤ a.matchingTagCount toUpper volume matchTag ↔
    ∃ volumeTag ∈ volume.tags, ∃ dropletTag ∈ a.dropletTags, Agree toUpper matchTag volumeTag dropletTag := by
  have hsum : ∀ (l : List (String × String)) (f : String × String → Nat),
      1 ≤ l.foldl (fun n vt => n + f vt) 0 ↔ ∃ vt ∈ l, f vt ≠ 0 := by
    intro l f
    rw [← List.foldl_map, ← List.sum_eq_foldl, Nat.one_le_iff_ne_zero, ne_eq, List.sum_eq_zero_iff]
    simp
  rw [matchingTagCount, hsum]
  constructor
  · intro h
    obtain ⟨vt, hvt, hpos⟩ := h
    obtain ⟨dt, hdt⟩ := List.exists_mem_of_ne_nil _ (List.ne_nil_of_length_pos (Nat.pos_of_ne_zero hpos))
    simp only [List.mem_filter, List.mem_filterMap, decide_eq_true_eq] at hvt hdt
    obtain ⟨⟨volumeTag, hvolume, hvt⟩, hkey⟩ := hvt
    obtain ⟨⟨dropletTag, hdroplet, hdt⟩, hkey', hvalue⟩ := hdt
    exact ⟨volumeTag, hvolume, dropletTag, hdroplet, vt, dt, hvt, hdt, hkey, hkey', hvalue⟩
  · intro h
    obtain ⟨volumeTag, hvolume, dropletTag, hdroplet, vt, dt, hvt, hdt, hkey, hkey', hvalue⟩ := h
    have hmem : dt ∈ (a.dropletTags.filterMap keyValue).filter fun dt =>
        toUpper matchTag = toUpper dt.1 ∧ toUpper dt.2 = toUpper vt.2 := by
      simp only [List.mem_filter, List.mem_filterMap, decide_eq_true_eq]
      exact ⟨⟨dropletTag, hdroplet, hdt⟩, hkey', hvalue⟩
    refine ⟨vt, ?_, Nat.ne_of_gt (List.length_pos_of_mem hmem)⟩
    simp only [List.mem_filter, List.mem_filterMap, decide_eq_true_eq]
    exact ⟨⟨volumeTag, hvolume, hvt⟩, hkey⟩

theorem matchesDropletTags_eq_true_iff : a.matchesDropletTags toUpper volume = true ↔
    ∀ k v, (k, v) ∈ a.matchTags.pairs → containsTag toUpper volume.tags (k ++ ":" ++ v) = true ∧
      containsTag toUpper a.dropletTags (k ++ ":" ++ v) = true := by
  simp [matchesDropletTags]

variable (a toUpper volume)

/-- What is counted for each key. -/
def counts : List Nat := a.matchTagKeys.map (a.matchingTagCount toUpper volume)

/-- The count of matches decides as a look at each key would, unless the tags with values match and either every key
does, one of them more than once, or one does not and others make up for it. -/
theorem matchesTags_each_iff : (a.matchesTags toUpper volume = true ↔ a.MatchesEach toUpper volume) ↔
    a.matchesDropletTags toUpper volume = false ∨ (∀ n ∈ a.counts toUpper volume, n ≤ 1) ∨
      (0 ∈ a.counts toUpper volume ∧ (a.counts toUpper volume).sum ≠ a.matchTagKeys.length) := by
  have hkeys : (∀ matchTag ∈ a.matchTagKeys, ∃ volumeTag ∈ volume.tags, ∃ dropletTag ∈ a.dropletTags,
      Agree toUpper matchTag volumeTag dropletTag) ↔ ∀ n ∈ a.counts toUpper volume, 1 ≤ n := by
    simp only [counts, List.forall_mem_map, one_le_matchingTagCount_iff]
  have hlength : a.matchTagKeys.length = (a.counts toUpper volume).length := by simp [counts]
  have hcode : a.matchesTags toUpper volume = true ↔ a.matchesDropletTags toUpper volume = true ∧
      (a.counts toUpper volume).length = (a.counts toUpper volume).sum := by
    simp [matchesTags, counts]
  rw [hcode, MatchesEach, hkeys, ← matchesDropletTags_eq_true_iff, hlength, ne_comm, ← length_eq_sum_iff]
  cases a.matchesDropletTags toUpper volume <;> simp

/-- Two keys, of which the droplet has the first. -/
def twoKeys : DOVolumes := ⟨⟨["a", "b"], ∅⟩, "cluster", "region", 1, "main", ["a:1"]⟩

/-- A tag that is there twice. -/
def taggedTwice : DoVolume := ⟨"1", "etcd-main", [], ["a:1", "A:1"]⟩

/-- `strings.ToUpper`, on ASCII -/
def upper (s : String) : String := String.ofList (s.toList.map Char.toUpper)

theorem matchesTags_twice : twoKeys.matchesTags upper taggedTwice = true ∧ ¬ twoKeys.MatchesEach upper taggedTwice := by
  refine ⟨by decide +kernel, fun h => ?_⟩
  have hb := one_le_matchingTagCount_iff.2 (h.2 "b" (by decide))
  revert hb
  decide +kernel

end DOVolumes

/-! ## Azure -/

/-- `AzureVolumes`, with what tells its disks from others -/
structure AzureVolumes where
  matchTagKeys : GoMap Unit
  matchTags : GoMap String

namespace AzureVolumes

/-- `strings.SplitN(volumeTag, "=", 2)` -/
def splitTag (volumeTag : String) : List String :=
  match volumeTag.toList.span (· ≠ '=') with
  | (_, []) => [volumeTag]
  | (key, _ :: value) => [String.ofList key, String.ofList value]

/-- The loop of `newAzureVolumes` over the tags. -/
def newAzureVolumes (volumeTags : List String) : AzureVolumes :=
  volumeTags.foldl (fun a volumeTag =>
    match splitTag volumeTag with
    | [key, value] => { a with matchTags := a.matchTags.insert key value }
    | [key] => { a with matchTagKeys := a.matchTagKeys.insert key () }
    | _ => a) ⟨∅, ∅⟩

/-- The loop of `isDiskForCluster` over the tags of a disk, which are pointers. -/
def countFound (a : AzureVolumes) : List (String × Option String) → Nat → Outcome Nat
  | [], found => return found
  | (k, v) :: tags, found => do
    let found := if (a.matchTagKeys.lookup k).isSome then found + 1 else found
    let value ← Outcome.deref v
    let found := if (a.matchTags.lookup k).getD "" = value then found + 1 else found
    a.countFound tags found

/-- `isDiskForCluster`, for the order in which `range` comes to the keys of the tags -/
def isDiskForCluster (a : AzureVolumes) (tags : GoMap (Option String)) (order : List String) : Outcome Bool := do
  let found ← a.countFound (tags.inOrder order) 0
  return found = a.matchTagKeys.size + a.matchTags.size

/-- The tags, as GCE and OpenStack are configured with them. -/
def rule (a : AzureVolumes) : MatchTags := ⟨a.matchTagKeys.keys, a.matchTags⟩

/-- Tags that all have a value. -/
def pointers (labels : GoMap String) : GoMap (Option String) :=
  ⟨labels.entries.map (.map id fun _ v => some v), by
    rw [List.NodupKeys, List.map₂_keys]
    exact labels.nodupKeys⟩

/-- The tags without a value whose keys are not configured with one. -/
def blank (a : AzureVolumes) (labels : GoMap String) : Nat :=
  labels.pairs.countP fun e => (a.matchTags.lookup e.1).isNone && e.2 = ""

/-- What is configured and the tags do not have. -/
def missing (a : AzureVolumes) (labels : GoMap String) : Nat :=
  a.matchTagKeys.keys.countP (· ∉ labels.keys) + a.matchTags.pairs.countP (· ∉ labels.pairs)

section Count

variable {a : AzureVolumes} {labels : GoMap String} {order : List String}

theorem inOrder_pointers : (pointers labels).inOrder order = (labels.inOrder order).map fun e => (e.1, some e.2) := by
  have hlookup : ∀ k, (pointers labels).lookup k = (labels.lookup k).map some := fun k => List.dlookup_map₂ _
  rw [GoMap.inOrder, GoMap.inOrder, List.map_filterMap]
  refine List.filterMap_congr fun k _ => ?_
  rw [hlookup]
  cases labels.lookup k <;> rfl

theorem countFound_eq (l : List (String × String)) (found : Nat) :
    a.countFound (l.map fun e => (e.1, some e.2)) found =
      .ok (found + l.countP (fun e => (a.matchTagKeys.lookup e.1).isSome) +
        l.countP fun e => (a.matchTags.lookup e.1).getD "" = e.2) := by
  induction l generalizing found with
  | nil => rfl
  | cons e l ih =>
    have hstep : ∀ (c : Prop) [Decidable c] (n : Nat), (if c then n + 1 else n) = n + if c then 1 else 0 := by
      intro c _ n
      split <;> rfl
    rw [List.map_cons, countFound]
    show a.countFound _ _ = _
    rw [ih, List.countP_cons, List.countP_cons, hstep, hstep]
    simp only [decide_eq_true_eq, Outcome.ok.injEq]
    omega

/-- The keys that are found and those that are missing. -/
theorem countP_keys : labels.pairs.countP (fun e => (a.matchTagKeys.lookup e.1).isSome) +
    a.matchTagKeys.keys.countP (· ∉ labels.keys) = a.matchTagKeys.size := by
  have hkeys : labels.pairs.countP (fun e => (a.matchTagKeys.lookup e.1).isSome) =
      labels.keys.countP (· ∈ a.matchTagKeys.keys) := by
    rw [← GoMap.keys_eq_map_pairs labels, List.countP_map]
    refine List.countP_congr fun e _ => ?_
    simp [AList.lookup_isSome, AList.mem_keys]
  have hcomm : labels.keys.countP (· ∈ a.matchTagKeys.keys) = a.matchTagKeys.keys.countP (· ∈ labels.keys) :=
    countP_mem_comm labels.nodupKeys a.matchTagKeys.nodupKeys
  rw [hkeys, hcomm, ← GoMap.length_keys, List.length_eq_countP_add_countP (· ∈ labels.keys)]
  simp

/-- The pairs that are found and those that are missing, where a blank tag is found too. -/
theorem countP_values : labels.pairs.countP (fun e => (a.matchTags.lookup e.1).getD "" = e.2) +
    a.matchTags.pairs.countP (· ∉ labels.pairs) = a.matchTags.size + a.blank labels := by
  have hsplit : labels.pairs.countP (fun e => (a.matchTags.lookup e.1).getD "" = e.2) =
      labels.pairs.countP (· ∈ a.matchTags.pairs) + a.blank labels := by
    rw [blank]
    apply countP_add_countP
    · intro e
      have hmem : e ∈ a.matchTags.pairs ↔ a.matchTags.lookup e.1 = some e.2 := GoMap.mem_pairs
      cases h : a.matchTags.lookup e.1 with
      | none => simp [hmem, h, @eq_comm _ "" e.2]
      | some v => simp [hmem, h]
    · intro e he
      have hmem : a.matchTags.lookup e.1 = some e.2 := GoMap.mem_pairs.1 (of_decide_eq_true he)
      simp [hmem]
  rw [hsplit, countP_mem_comm labels.nodup_pairs.of_map a.matchTags.nodup_pairs.of_map, ← GoMap.length_pairs,
    List.length_eq_countP_add_countP (· ∈ labels.pairs)]
  simp
  omega

/-- The count is right if as many blank tags are found as tags are missing. -/
theorem isDiskForCluster_eq (horder : order.Perm labels.keys) :
    a.isDiskForCluster (pointers labels) order = .ok (decide (a.missing labels = a.blank labels)) := by
  have hkeys := @countP_keys a labels
  have hvalues := @countP_values a labels
  rw [isDiskForCluster, inOrder_pointers, countFound_eq, (GoMap.inOrder_perm horder).countP_eq,
    (GoMap.inOrder_perm horder).countP_eq]
  show Outcome.ok _ = Outcome.ok _
  congr 1
  rw [decide_eq_decide, missing]
  omega

theorem found_rule : a.rule.found labels = decide (a.missing labels = 0) := by
  have hkeys : (∀ k ∈ a.matchTagKeys.keys, (labels.lookup k).isSome = true) ↔
      a.matchTagKeys.keys.countP (· ∉ labels.keys) = 0 := by
    rw [List.countP_eq_zero]
    refine forall₂_congr fun k _ => ?_
    simp [AList.lookup_isSome, AList.mem_keys]
  have hpairs : (∀ e ∈ a.matchTags.pairs, labels.lookup e.1 = some e.2) ↔
      a.matchTags.pairs.countP (· ∉ labels.pairs) = 0 := by
    rw [List.countP_eq_zero]
    refine forall₂_congr fun e _ => ?_
    simp [← GoMap.mem_pairs]
  rw [Bool.eq_iff_iff, decide_eq_true_iff, missing, Nat.add_eq_zero_iff, ← hkeys, ← hpairs]
  simp [MatchTags.found, rule]

end Count

/-- Azure's count decides as GCE and OpenStack do, except for a disk with blank tags that has all that is configured, or
lacks as much of it as it has blank tags. -/
theorem isDiskForCluster_found_iff (a : AzureVolumes) (labels : GoMap String) (order : List String)
    (horder : order.Perm labels.keys) : a.isDiskForCluster (pointers labels) order = .ok (a.rule.found labels) ↔
      a.blank labels = 0 ∨ (a.missing labels ≠ 0 ∧ a.missing labels ≠ a.blank labels) := by
  rw [isDiskForCluster_eq horder, found_rule, Outcome.ok.injEq, decide_eq_decide]
  omega

/-- A key and a pair, with a disk that has both. -/
theorem isDiskForCluster_found_tagged :
    (newAzureVolumes ["k0", "k1=v1"]).isDiskForCluster
        (pointers (((∅ : GoMap String).insert "k0" "any value").insert "k1" "v1")) ["k1", "k0"] =
      .ok ((newAzureVolumes ["k0", "k1=v1"]).rule.found (((∅ : GoMap String).insert "k0" "any value").insert "k1" "v1")) :=
  (isDiskForCluster_found_iff _ _ _ (by decide +kernel)).2 (.inl (by decide +kernel))

/-- A disk is taken for its tag without a value, and has not the key that is asked for. -/
theorem isDiskForCluster_blank :
    (newAzureVolumes ["k0"]).isDiskForCluster (pointers ((∅ : GoMap String).insert "unrelated" "")) ["unrelated"] = .ok true ∧
      (newAzureVolumes ["k0"]).rule.found ((∅ : GoMap String).insert "unrelated" "") = false := by
  decide +kernel

end AzureVolumes

end Etcdadm.VolumeProviders
