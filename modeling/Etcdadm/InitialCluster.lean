/-
The initial cluster as a text: who writes it (`etcdProcess.Start`,
`RestoreV3Snapshot`, `InitialClusterFromMembers` of etcdadm) and who reads it
(etcd itself, by `types.parse`, and `ImportExistingEtcd`).

etcd reads items `name=url` between commas, and adds up the URLs of a name that
comes again. etcdadm writes that. etcd-manager writes a name once and its URLs
behind it, and its import takes each item for a node; so those two agree with the
grammar, and with each other, only for nodes of one URL.
-/
import Etcdadm.EtcdServer
import Etcdadm.LegacyImport

namespace Etcdadm.InitialCluster

open LegacyImport (split trim initialNode clientUrl)
open Semver (isSpace trimSpace)

/-! ## Writers -/

/-- `strings.Join`, with a character between -/
def join (sep : Char) (l : List String) : String := (String.singleton sep).intercalate l

/-- What `Start` and `RestoreV3Snapshot` make of the nodes of a cluster. -/
def initialCluster (nodes : List EtcdNode) : String :=
  join ',' (nodes.map fun node => node.name ++ "=" ++ join ',' node.peerUrls)

/-- The settings by which `Start` tells etcd of the cluster. -/
def startEnv (p : EtcdProcess) (me : EtcdNode) : List (String × String) :=
  [("ETCD_INITIAL_ADVERTISE_PEER_URLS", join ',' me.peerUrls),
    ("ETCD_INITIAL_CLUSTER_STATE", if p.createNewCluster then "new" else "existing"),
    ("ETCD_NAME", p.myNodeName)] ++
  (if p.cluster.clusterToken ≠ "" then [("ETCD_INITIAL_CLUSTER_TOKEN", p.cluster.clusterToken)] else []) ++
  [("ETCD_INITIAL_CLUSTER", initialCluster p.cluster.nodes)]

theorem lookup_startEnv (p : EtcdProcess) (me : EtcdNode) :
    (startEnv p me).lookup "ETCD_INITIAL_CLUSTER" = some (initialCluster p.cluster.nodes) := by
  by_cases htoken : p.cluster.clusterToken = "" <;> simp [startEnv, htoken, List.lookup]

/-- The arguments `RestoreV3Snapshot` runs etcdctl with. -/
def restoreArgs (p : EtcdProcess) (me : EtcdNode) (snapshotFile : String) : List String :=
  ["snapshot", "restore", snapshotFile, "--name", me.name, "--initial-cluster", initialCluster p.cluster.nodes,
    "--initial-cluster-token", p.cluster.clusterToken, "--initial-advertise-peer-urls", join ',' me.peerUrls,
    "--data-dir", p.dataDir]

/-- A member, as the etcd protocol has it. -/
structure Member where
  id : Nat
  name : String
  peerURLs : List String
  clientURLs : List String
  deriving DecidableEq, Repr

def initialClusterFromMembers (members : List Member) : String :=
  join ',' (members.flatMap fun m => m.peerURLs.map fun u => m.name ++ "=" ++ u)

/-! ## Readers -/

/-- The key and the value of an item; without a `=` there is no value. -/
def item (s : String) : String × String :=
  let key := s.toList.takeWhile (· ≠ '=')
  (String.ofList key, String.ofList (s.toList.drop (key.length + 1)))

/-- `m[key] = append(m[key], value)` -/
def addValue (m : GoMap (List String)) (e : String × String) : GoMap (List String) :=
  m.insert e.1 ((m.lookup e.1).getD [] ++ [e.2])

/-- The items of a text; empty ones are passed over. -/
def items (s : String) : List (String × String) := ((split ',' s).filter (· ≠ "")).map item

/-- `parse` of etcd's `types` package. -/
def parse (s : String) : GoMap (List String) := (items s).foldl addValue ∅

/-- What the loop of `ImportExistingEtcd` makes of the text. -/
def importNodes (k : LegacyImport.Key) (etcdInitialCluster : String) : Except Error (List EtcdNode) :=
  (split ',' (trim etcdInitialCluster)).mapM (initialNode k (trim etcdInitialCluster))

/-- The nodes of an imported cluster are what the loop made of the manifest's text. -/
theorem parseManifest_nodes {formats : LegacyImport.Formats} {k : LegacyImport.Key} {p : VfsPath}
    {b etcdVersion : String} {cluster : EtcdCluster}
    (h : LegacyImport.parseManifest formats k p b = .ok (etcdVersion, cluster)) :
    ∃ m c, formats.manifest b = .ok m ∧ m.containers.reverse.find? (·.name == "etcd-container") = some c ∧
      importNodes k (c.findEnv "ETCD_INITIAL_CLUSTER") = .ok cluster.nodes := by
  unfold LegacyImport.parseManifest at h
  cases hm : formats.manifest b with
  | error err =>
    rw [hm] at h
    cases h
  | ok m =>
    rw [hm] at h
    cases hc : m.containers.reverse.find? (·.name == "etcd-container") with
    | none => simp [Except.mapError, bind, Except.bind, hc, throw, throwThe, MonadExceptOf.throw] at h
    | some c =>
      cases hversion : LegacyImport.imageVersion c.image with
      | error err => simp [Except.mapError, bind, Except.bind, hc, hversion] at h
      | ok version =>
        refine ⟨m, c, rfl, hc, ?_⟩
        simp only [Except.mapError, bind, Except.bind, hc, hversion] at h
        by_cases hname : trim (c.findEnv "ETCD_NAME") = ""
        · rw [if_pos hname] at h
          cases h
        · rw [if_neg hname] at h
          unfold importNodes
          cases hnodes : (split ',' (trim (c.findEnv "ETCD_INITIAL_CLUSTER"))).mapM
              (initialNode k (trim (c.findEnv "ETCD_INITIAL_CLUSTER"))) with
          | error err =>
            rw [hnodes] at h
            cases h
          | ok nodes =>
            rw [hnodes] at h
            by_cases htoken : trim (c.findEnv "ETCD_INITIAL_CLUSTER_TOKEN") = ""
            · simp only [if_pos htoken] at h
              cases h
            · simp only [if_neg htoken] at h
              cases h
              rfl

/-! ## Splitting what was joined -/

theorem toList_join (sep : Char) (l : List String) : (join sep l).toList = [sep].intercalate (l.map String.toList) := by
  rw [join, String.toList_intercalate, String.toList_singleton]

theorem split_join {sep : Char} {l : List String} (hl : l ≠ []) (h : ∀ s ∈ l, sep ∉ s.toList) :
    split sep (join sep l) = l := by
  have hchars : ∀ s ∈ l.map String.toList, sep ∉ s := by simpa using h
  rw [split, toList_join, List.splitOn_intercalate _ hchars (by simpa using hl)]
  simp

theorem join_append {sep : Char} {a b : List String} (ha : a ≠ []) (hb : b ≠ []) :
    join sep (a ++ b) = join sep a ++ String.singleton sep ++ join sep b := String.intercalate_append_of_ne_nil ha hb

/-- Joined pieces may be joined at once. -/
theorem join_flatMap {α : Type} {sep : Char} {g : α → List String} : ∀ {l : List α}, (∀ a ∈ l, g a ≠ []) →
    join sep (l.flatMap g) = join sep (l.map fun a => join sep (g a))
  | [], _ => rfl
  | [a], _ => by simp [join]
  | a :: a' :: l, h => by
    have hrest : (a' :: l).flatMap g ≠ [] := by simp [h a' (by simp)]
    have ih := @join_flatMap _ sep g (a' :: l) fun x hx => h x (List.mem_cons_of_mem a hx)
    rw [List.flatMap_cons, join_append (h a (by simp)) hrest, ih, List.map_cons, List.map_cons, List.map_cons]
    exact String.intercalate_cons_cons.symm

/-! ## What the items say -/

theorem item_pair {name url : String} (h : '=' ∉ name.toList) : item (name ++ "=" ++ url) = (name, url) := by
  have hchars : (name ++ "=" ++ url).toList = name.toList ++ '=' :: url.toList := by simp
  have hkey : (name.toList ++ '=' :: url.toList).takeWhile (· ≠ '=') = name.toList := by
    rw [List.takeWhile_append_of_pos fun c hc => decide_eq_true (ne_of_mem_of_not_mem hc h),
      List.takeWhile_cons_of_neg (by simp), List.append_nil]
  rw [item, hchars, hkey, List.drop_append, List.drop_eq_nil_of_le (Nat.le_succ _)]
  simp

theorem item_bare {s : String} (h : '=' ∉ s.toList) : item s = (s, "") := by
  have hkey : s.toList.takeWhile (· ≠ '=') = s.toList :=
    List.takeWhile_eq_self_iff.2 fun c hc => decide_eq_true (ne_of_mem_of_not_mem hc h)
  rw [item, hkey, List.drop_eq_nil_of_le (Nat.le_succ _)]
  simp

/-- The values of a key, in the order of the items. -/
def valuesOf (l : List (String × String)) (k : String) : List String := (l.filter (·.1 = k)).map (·.2)

theorem valuesOf_append (l l' : List (String × String)) (k : String) :
    valuesOf (l ++ l') k = valuesOf l k ++ valuesOf l' k := by
  rw [valuesOf, List.filter_append, List.map_append, valuesOf, valuesOf]

theorem lookup_foldl_addValue (l : List (String × String)) (k : String) :
    (l.foldl addValue ∅).lookup k = if valuesOf l k = [] then none else some (valuesOf l k) := by
  induction l using List.reverseRecOn with
  | nil => rfl
  | append_singleton l e ih =>
    rw [List.foldl_append, List.foldl_cons, List.foldl_nil, addValue, valuesOf_append]
    by_cases hk : e.1 = k
    · subst hk
      have hvalue : valuesOf [e] e.1 = [e.2] := by simp [valuesOf]
      rw [AList.lookup_insert, ih, hvalue]
      by_cases hnil : valuesOf l e.1 = []
      · simp [hnil]
      · simp [hnil]
    · have hvalue : valuesOf [e] k = [] := by simp [valuesOf, hk]
      rw [AList.lookup_insert_ne (Ne.symm hk), ih, hvalue, List.append_nil]

/-! ## Nodes of one URL -/

/-- Nodes that can be told apart in a text. -/
structure Writable (nodes : List EtcdNode) : Prop where
  distinct : (nodes.map (·.name)).Nodup
  name : ∀ n ∈ nodes, ',' ∉ n.name.toList ∧ '=' ∉ n.name.toList
  nonempty : ∀ n ∈ nodes, n.peerUrls ≠ []
  url : ∀ n ∈ nodes, ∀ u ∈ n.peerUrls, ',' ∉ u.toList ∧ '=' ∉ u.toList

/-- Each name with its URLs, and nothing else. -/
def Decodes (m : GoMap (List String)) (nodes : List EtcdNode) : Prop :=
  ∀ k, m.lookup k = (nodes.find? (·.name = k)).map (·.peerUrls)

/-- The pairs that the text of a node is read as: its URLs but the first stand there alone. -/
def readAs (n : EtcdNode) : List (String × String) :=
  (n.name, n.peerUrls.headD "") :: (n.peerUrls.tail.filter (· ≠ "")).map fun u => (u, "")

/-- The pieces between the commas in the text of a node. -/
def pieces (n : EtcdNode) : List String := (n.name ++ "=" ++ n.peerUrls.headD "") :: n.peerUrls.tail

theorem initialCluster_eq {nodes : List EtcdNode} (h : Writable nodes) :
    initialCluster nodes = join ',' (nodes.flatMap pieces) := by
  rw [join_flatMap fun n _ => by simp [pieces], initialCluster]
  congr 1
  refine List.map_congr_left fun n hn => ?_
  obtain ⟨u, us, hurls⟩ := List.exists_cons_of_ne_nil (h.nonempty n hn)
  cases us with
  | nil => simp [pieces, hurls, join]
  | cons u' us => simp [pieces, hurls, join, String.intercalate_cons_cons, String.append_assoc]

/-- What is read of joined pieces. -/
theorem items_join {l : List String} (h : ∀ s ∈ l, ',' ∉ s.toList) : items (join ',' l) = (l.filter (· ≠ "")).map item := by
  by_cases hl : l = []
  · subst hl
    decide
  · rw [items, split_join hl h]

theorem items_initialCluster {nodes : List EtcdNode} (h : Writable nodes) :
    items (initialCluster nodes) = nodes.flatMap readAs := by
  have hcomma : ∀ s ∈ nodes.flatMap pieces, ',' ∉ s.toList := by
    intro s hs
    obtain ⟨n, hn, hs⟩ := List.mem_flatMap.1 hs
    obtain ⟨u, us, hurls⟩ := List.exists_cons_of_ne_nil (h.nonempty n hn)
    have hname := (h.name n hn).1
    have hurl := h.url n hn
    simp only [hurls, List.mem_cons, forall_eq_or_imp] at hurl
    simp only [pieces, hurls, List.headD_cons, List.tail_cons, List.mem_cons] at hs
    rcases hs with rfl | hs
    · simp [hname, hurl.1.1]
    · exact (hurl.2 s hs).1
  rw [initialCluster_eq h, items_join hcomma, List.filter_flatMap, List.map_flatMap]
  refine List.flatMap_congr fun n hn => ?_
  have hbare : ∀ u ∈ n.peerUrls.tail.filter (· ≠ ""), item u = (u, "") := by
    intro u hu
    exact item_bare (h.url n hn u (List.mem_of_mem_tail (List.mem_of_mem_filter hu))).2
  rw [pieces, List.filter_cons, if_pos (by simp), List.map_cons, item_pair (h.name n hn).2,
    List.map_congr_left hbare, readAs]

theorem valuesOf_of_ne {nodes : List EtcdNode} {k : String} (hk : ∀ n ∈ nodes, n.name ≠ k) (f : EtcdNode → List String) :
    valuesOf (nodes.flatMap fun n => (f n).map (n.name, ·)) k = [] := by
  simp only [valuesOf, List.map_eq_nil_iff, List.filter_eq_nil_iff, List.mem_flatMap, List.mem_map, decide_eq_true_eq]
  rintro e ⟨n, hn, u, -, rfl⟩
  exact hk n hn

/-- Where names are distinct, a node's name has the values of that node. -/
theorem valuesOf_flatMap {nodes : List EtcdNode} (h : (nodes.map (·.name)).Nodup) (f : EtcdNode → List String)
    {n : EtcdNode} (hn : n ∈ nodes) : valuesOf (nodes.flatMap fun n => (f n).map (n.name, ·)) n.name = f n := by
  obtain ⟨pre, post, rfl⟩ := List.append_of_mem hn
  rw [List.map_append, List.map_cons, List.nodup_middle, List.nodup_cons, List.mem_append, not_or] at h
  have hother : ∀ l : List EtcdNode, n.name ∉ l.map (·.name) → ∀ n' ∈ l, n'.name ≠ n.name :=
    fun l hl n' hn' heq => hl (heq ▸ List.mem_map_of_mem hn')
  have hself : valuesOf ((f n).map (n.name, ·)) n.name = f n := by simp [valuesOf, List.filter_eq_self.2]
  rw [List.flatMap_append, List.flatMap_cons, valuesOf_append, valuesOf_append, hself, valuesOf_of_ne (hother pre h.1.1),
    valuesOf_of_ne (hother post h.1.2), List.nil_append, List.append_nil]

theorem valuesOf_map {nodes : List EtcdNode} (h : (nodes.map (·.name)).Nodup) (f : EtcdNode → String) {n : EtcdNode}
    (hn : n ∈ nodes) : valuesOf (nodes.map fun n => (n.name, f n)) n.name = [f n] := by
  rw [List.map_eq_flatMap]
  exact valuesOf_flatMap h (fun n => [f n]) hn

/-- Of the values of a name only its node's first URL can be more than nothing. -/
theorem valuesOf_filter {nodes : List EtcdNode} (h : Writable nodes) {n : EtcdNode} (hn : n ∈ nodes) :
    (valuesOf (nodes.flatMap readAs) n.name).filter (· ≠ "") = [n.peerUrls.headD ""].filter (· ≠ "") := by
  have hreads : (nodes.flatMap readAs).filter (·.2 ≠ "") =
      (nodes.map fun n => (n.name, n.peerUrls.headD "")).filter (·.2 ≠ "") := by
    rw [List.filter_flatMap, List.map_eq_flatMap, List.filter_flatMap]
    refine List.flatMap_congr fun n _ => ?_
    have hbare : ((n.peerUrls.tail.filter (· ≠ "")).map fun u => (u, "")).filter (·.2 ≠ "") = [] := by
      simp [List.filter_eq_nil_iff]
    rw [readAs, ← List.singleton_append, List.filter_append, hbare, List.append_nil]
  have hcomm : ∀ (l : List (String × String)) (k : String),
      (valuesOf l k).filter (· ≠ "") = valuesOf (l.filter (·.2 ≠ "")) k := by
    intro l k
    simp only [valuesOf, List.filter_map, List.filter_filter]
    congr 1
    refine List.filter_congr fun e _ => ?_
    simp [Bool.and_comm]
  rw [hcomm, hreads, ← hcomm, valuesOf_map h.distinct _ hn]

theorem readAs_of_tail {nodes : List EtcdNode} (h : ∀ n ∈ nodes, n.peerUrls.tail.filter (· ≠ "") = []) :
    nodes.flatMap readAs = nodes.map fun n => (n.name, n.peerUrls.headD "") := by
  rw [List.map_eq_flatMap]
  refine List.flatMap_congr fun n hn => ?_
  rw [readAs, h n hn, List.map_nil]

theorem find_name {nodes : List EtcdNode} (h : (nodes.map (·.name)).Nodup) {n : EtcdNode} (hn : n ∈ nodes) :
    nodes.find? (·.name = n.name) = some n := by
  cases hfind : nodes.find? (·.name = n.name) with
  | none => simpa using List.find?_eq_none.1 hfind n hn
  | some m =>
    have hname : m.name = n.name := by simpa using List.find?_some hfind
    rw [List.inj_on_of_nodup_map h (List.mem_of_find?_eq_some hfind) hn hname]

/-- Pairs of names and URLs are read as their nodes. -/
theorem decodes_of_items {nodes : List EtcdNode} (h : Writable nodes) {s : String}
    (hs : items s = nodes.flatMap fun n => n.peerUrls.map (n.name, ·)) : Decodes (parse s) nodes := by
  intro k
  rw [parse, hs, lookup_foldl_addValue]
  by_cases hk : ∃ n ∈ nodes, n.name = k
  · obtain ⟨n, hn, rfl⟩ := hk
    rw [valuesOf_flatMap h.distinct _ hn, find_name h.distinct hn, if_neg (h.nonempty n hn), Option.map_some]
  · simp only [not_exists, not_and] at hk
    have hfind : nodes.find? (·.name = k) = none := by simpa using hk
    rw [valuesOf_of_ne hk, if_pos rfl, hfind, Option.map_none]

/-- **Read by etcd, the nodes come back if and only if each has one URL.** -/
theorem decodes_iff {nodes : List EtcdNode} (h : Writable nodes) :
    Decodes (parse (initialCluster nodes)) nodes ↔ ∀ n ∈ nodes, n.peerUrls.length = 1 := by
  constructor
  · intro hdecodes
    have hvalues : ∀ n ∈ nodes, valuesOf (nodes.flatMap readAs) n.name = n.peerUrls := by
      intro n hn
      have hname := hdecodes n.name
      rw [parse, items_initialCluster h, lookup_foldl_addValue, find_name h.distinct hn] at hname
      split at hname
      · cases hname
      · exact Option.some.inj hname
    have htail : ∀ n ∈ nodes, n.peerUrls.tail.filter (· ≠ "") = [] := by
      intro n hn
      have hfilter := valuesOf_filter h hn
      obtain ⟨u, us, hurls⟩ := List.exists_cons_of_ne_nil (h.nonempty n hn)
      rw [hvalues n hn, hurls, List.headD_cons, ← List.singleton_append, List.filter_append] at hfilter
      rw [hurls]
      exact List.append_right_eq_self.1 hfilter
    intro n hn
    rw [← hvalues n hn, readAs_of_tail htail, valuesOf_map h.distinct _ hn, List.length_singleton]
  · intro hone
    refine decodes_of_items h ?_
    rw [items_initialCluster h]
    refine List.flatMap_congr fun n hn => ?_
    obtain ⟨u, hu⟩ := List.length_eq_one_iff.1 (hone n hn)
    simp [readAs, hu]

/-! ## The items etcdadm writes -/

/-- A node as etcd lists it. -/
def memberOf (n : EtcdNode) : Member := ⟨0, n.name, n.peerUrls, n.clientUrls⟩

def pairsOf (nodes : List EtcdNode) : List (String × String) := nodes.flatMap fun n => n.peerUrls.map (n.name, ·)

def textOf (pairs : List (String × String)) : String := join ',' (pairs.map fun e => e.1 ++ "=" ++ e.2)

theorem initialClusterFromMembers_eq (nodes : List EtcdNode) :
    initialClusterFromMembers (nodes.map memberOf) = textOf (pairsOf nodes) := by
  simp [initialClusterFromMembers, textOf, pairsOf, memberOf, List.flatMap_map, List.map_flatMap, Function.comp_def]

/-- Names and URLs that can be told apart in a text. -/
def Clean (pairs : List (String × String)) : Prop :=
  ∀ e ∈ pairs, (',' ∉ e.1.toList ∧ '=' ∉ e.1.toList) ∧ ',' ∉ e.2.toList ∧ '=' ∉ e.2.toList

theorem Writable.clean {nodes : List EtcdNode} (h : Writable nodes) : Clean (pairsOf nodes) := by
  simp only [Clean, pairsOf, List.mem_flatMap, List.mem_map]
  rintro e ⟨n, hn, u, hu, rfl⟩
  exact ⟨h.name n hn, h.url n hn u hu⟩

theorem Clean.comma {pairs : List (String × String)} (h : Clean pairs) :
    ∀ s ∈ pairs.map fun e => e.1 ++ "=" ++ e.2, ',' ∉ s.toList := by
  simp only [List.mem_map]
  rintro s ⟨e, he, rfl⟩
  simp [(h e he).1.1, (h e he).2.1]

/-- **What etcdadm writes etcd reads**, however many URLs a member has. -/
theorem decodes_fromMembers {nodes : List EtcdNode} (h : Writable nodes) :
    Decodes (parse (initialClusterFromMembers (nodes.map memberOf))) nodes := by
  refine decodes_of_items h ?_
  have hitems : ∀ s ∈ (pairsOf nodes).map fun e => e.1 ++ "=" ++ e.2, decide (s ≠ "") = true := by
    simp only [List.mem_map]
    rintro s ⟨e, -, rfl⟩
    simp
  rw [initialClusterFromMembers_eq, textOf, items_join h.clean.comma, List.filter_eq_self.2 hitems, List.map_map]
  refine (List.map_congr_left fun e he => ?_).trans (List.map_id _)
  exact item_pair (h.clean e he).1.2

/-! ## The import -/

def trimLeft (s : String) : String := String.ofList (s.toList.dropWhile isSpace)

def trimRight (s : String) : String := String.ofList (s.toList.rdropWhile isSpace)

/-- The pairs without the blanks at the two ends of their text. -/
def trimEnds (pairs : List (String × String)) : List (String × String) :=
  (pairs.modifyHead fun e => (trimLeft e.1, e.2)).modifyLast fun e => (e.1, trimRight e.2)

theorem dropWhile_append_stop {s t : List Char} : (s ++ '=' :: t).dropWhile isSpace = s.dropWhile isSpace ++ '=' :: t := by
  have hstop : ('=' :: t).dropWhile isSpace = '=' :: t := List.dropWhile_cons_of_neg (by decide)
  rw [List.dropWhile_append, hstop]
  split
  next hnil => rw [List.isEmpty_iff.1 hnil, List.nil_append]
  next => rfl

theorem rdropWhile_append_stop {s t : List Char} : (s ++ '=' :: t).rdropWhile isSpace = s ++ '=' :: t.rdropWhile isSpace := by
  simp only [List.rdropWhile, List.reverse_append, List.reverse_cons, List.append_assoc, List.singleton_append,
    dropWhile_append_stop, List.reverse_reverse]

theorem dropWhile_textOf (pairs : List (String × String)) :
    (textOf pairs).toList.dropWhile isSpace = (textOf (pairs.modifyHead fun e => (trimLeft e.1, e.2))).toList := by
  cases pairs with
  | nil => rfl
  | cons e l =>
    have htext : ∀ name : String, (textOf ((name, e.2) :: l)).toList =
        name.toList ++ '=' :: (join ',' (e.2 :: l.map fun e => e.1 ++ "=" ++ e.2)).toList := by
      intro name
      cases l with
      | nil => simp [textOf, join]
      | cons e' l => simp [textOf, join, String.intercalate_cons_cons]
    rw [List.modifyHead_cons, htext, htext, dropWhile_append_stop, trimLeft, String.toList_ofList]

theorem rdropWhile_textOf (pairs : List (String × String)) :
    (textOf pairs).toList.rdropWhile isSpace = (textOf (pairs.modifyLast fun e => (e.1, trimRight e.2))).toList := by
  rcases List.eq_nil_or_concat' pairs with rfl | ⟨l, e, rfl⟩
  · rfl
  · have htext : ∃ start : List Char, ∀ url : String, (textOf (l ++ [(e.1, url)])).toList = start ++ '=' :: url.toList := by
      by_cases hl : l = []
      · subst hl
        exact ⟨e.1.toList, fun url => by simp [textOf, join]⟩
      · refine ⟨(textOf l).toList ++ ',' :: e.1.toList, fun url => ?_⟩
        rw [textOf, List.map_append, join_append (by simpa using hl) (by simp)]
        simp [textOf, join]
    obtain ⟨start, hstart⟩ := htext
    rw [List.modifyLast_concat, hstart, hstart, rdropWhile_append_stop, trimRight, String.toList_ofList]

/-- Trimming the text trims the first name and the last URL. -/
theorem trim_textOf (pairs : List (String × String)) : trim (textOf pairs) = textOf (trimEnds pairs) := by
  have hchars : trimSpace (textOf pairs).toList = ((textOf pairs).toList.dropWhile isSpace).rdropWhile isSpace := rfl
  rw [trim, hchars, dropWhile_textOf, rdropWhile_textOf, String.ofList_toList, trimEnds]

theorem Clean.trimEnds {pairs : List (String × String)} (h : Clean pairs) : Clean (trimEnds pairs) := by
  have hhead : Clean (pairs.modifyHead fun e => (trimLeft e.1, e.2)) := by
    cases pairs with
    | nil => exact h
    | cons e l =>
      have hsub : (trimLeft e.1).toList ⊆ e.1.toList := by
        rw [trimLeft, String.toList_ofList]
        exact (List.dropWhile_sublist _).subset
      obtain ⟨he, hl⟩ := List.forall_mem_cons.1 h
      exact List.forall_mem_cons.2 ⟨⟨⟨fun hc => he.1.1 (hsub hc), fun hc => he.1.2 (hsub hc)⟩, he.2⟩, hl⟩
  unfold InitialCluster.trimEnds
  generalize (pairs.modifyHead fun e => (trimLeft e.1, e.2)) = pairs at hhead ⊢
  rcases List.eq_nil_or_concat' pairs with rfl | ⟨l, e, rfl⟩
  · exact hhead
  · have hsub : (trimRight e.2).toList ⊆ e.2.toList := by
      rw [trimRight, String.toList_ofList]
      exact ( List.rdropWhile_prefix _ _).subset
    obtain ⟨hl, he⟩ := List.forall_mem_append.1 hhead
    rw [List.forall_mem_singleton] at he
    rw [List.modifyLast_concat]
    refine List.forall_mem_append.2 ⟨hl, List.forall_mem_singleton.2 ⟨he.1, ?_⟩⟩
    exact ⟨fun hc => he.2.1 (hsub hc), fun hc => he.2.2 (hsub hc)⟩

/-- What the loop makes of an item. -/
theorem initialNode_pair {k : LegacyImport.Key} {s name url : String} (hname : '=' ∉ name.toList)
    (hurl : ',' ∉ url.toList ∧ '=' ∉ url.toList) : initialNode k s (name ++ "=" ++ url) =
      (clientUrl k url).map fun c => ⟨name, [url], [c.1], [c.2], false⟩ := by
  have hsplit : split '=' (name ++ "=" ++ url) = [name, url] := by
    have hjoin : name ++ "=" ++ url = join '=' [name, url] := by simp [join, String.intercalate_cons_cons]
    rw [hjoin, split_join (by simp) (by simp [hname, hurl.2])]
  have hone : split ',' url = [url] := by
    have hself := @split_join ',' [url] (by simp) (by simpa using hurl.1)
    rwa [show join ',' [url] = url by simp [join]] at hself
  rw [initialNode, hsplit]
  simp only [hone, List.mapM_cons, List.mapM_nil]
  cases clientUrl k url <;> rfl

theorem mapM_eq_ok_iff {α β : Type} {f : α → Except Error β} : ∀ {l : List α} {r : List β},
    l.mapM f = .ok r ↔ List.Forall₂ (fun a b => f a = .ok b) l r
  | [], r => by simp [pure, Except.pure, eq_comm]
  | a :: l, r => by
    rw [List.mapM_cons, List.forall₂_cons_left_iff]
    cases ha : f a with
    | error err => simp [bind, Except.bind]
    | ok b =>
      cases hl : l.mapM f with
      | error err =>
        simp only [bind, Except.bind, reduceCtorEq, false_iff, not_exists, not_and]
        intro b' r' _ hr
        rw [← mapM_eq_ok_iff, hl] at hr
        cases hr
      | ok r' =>
        have hiff := fun r'' => (mapM_eq_ok_iff (f := f) (l := l) (r := r'')).symm
        simp [bind, Except.bind, pure, Except.pure, hiff, hl, eq_comm]

/-- The node that the loop takes an item for. -/
def Taken (k : LegacyImport.Key) (e : String × String) (n : EtcdNode) : Prop :=
  ∃ c, clientUrl k e.2 = .ok c ∧ n = ⟨e.1, [e.2], [c.1], [c.2], false⟩

theorem trimEnds_ne_nil {pairs : List (String × String)} (h : pairs ≠ []) : trimEnds pairs ≠ [] := by
  cases pairs with
  | nil => exact absurd rfl h
  | cons e l =>
    rw [trimEnds, List.modifyHead_cons]
    generalize hpairs : (trimLeft e.1, e.2) :: l = pairs
    rcases List.eq_nil_or_concat' pairs with rfl | ⟨l', e', rfl⟩
    · cases hpairs
    · simp [List.modifyLast_concat]

/-- The loop takes each item of a text for a node, if it accepts the URLs. -/
theorem importNodes_textOf {pairs : List (String × String)} (hne : pairs ≠ []) (h : Clean pairs) {k : LegacyImport.Key}
    {decoded : List EtcdNode} : importNodes k (textOf pairs) = .ok decoded ↔
      List.Forall₂ (Taken k) (trimEnds pairs) decoded := by
  have hsplit : split ',' (textOf (trimEnds pairs)) = (trimEnds pairs).map fun e => e.1 ++ "=" ++ e.2 := by
    refine split_join ?_ h.trimEnds.comma
    rw [Ne, List.map_eq_nil_iff]
    exact trimEnds_ne_nil hne
  rw [importNodes, trim_textOf, hsplit, mapM_eq_ok_iff, List.forall₂_map_left_iff]
  have htaken : ∀ e ∈ trimEnds pairs, ∀ n,
      initialNode k (textOf (trimEnds pairs)) (e.1 ++ "=" ++ e.2) = .ok n ↔ Taken k e n := by
    intro e he n
    rw [initialNode_pair (h.trimEnds e he).1.2 (h.trimEnds e he).2, Taken]
    cases clientUrl k e.2 with
    | error err => simp [Except.map]
    | ok c => simp [Except.map, eq_comm]
  rw [List.forall₂_iff_zip, List.forall₂_iff_zip]
  refine and_congr_right fun _ => ⟨fun hall e n hen => ?_, fun hall e n hen => ?_⟩
  · exact (htaken e (List.of_mem_zip hen).1 n).1 (hall hen)
  · exact (htaken e (List.of_mem_zip hen).1 n).2 (hall hen)

/-- A text of nothing is no cluster for the import. -/
theorem importNodes_empty {k : LegacyImport.Key} {decoded : List EtcdNode} : importNodes k (textOf []) ≠ .ok decoded := by
  have htext : trim (textOf []) = "" := by decide
  have hsplit : split ',' "" = [""] := by decide
  have hnode : split '=' "" = [""] := by decide
  rw [importNodes, htext, hsplit, List.mapM_cons, initialNode, hnode]
  intro h
  cases h

theorem Taken.forall₂ {k : LegacyImport.Key} {l : List (String × String)} {decoded : List EtcdNode}
    (h : List.Forall₂ (Taken k) l decoded) : (∀ e ∈ l, ∃ c, clientUrl k e.2 = .ok c) ∧
      decoded.map (·.name) = l.map (·.1) ∧ decoded.map (·.peerUrls) = l.map fun e => [e.2] := by
  induction h with
  | nil => simp
  | cons hen _ ih =>
    obtain ⟨c, hc, rfl⟩ := hen
    exact ⟨List.forall_mem_cons.2 ⟨⟨c, hc⟩, ih.1⟩, by simp [ih.2.1], by simp [ih.2.2]⟩

/-- The names stay distinct and the URLs the same without the blanks at the ends of
the text, if the import accepts it at all. -/
def SurvivesTrimming (pairs : List (String × String)) : Prop :=
  ∀ k, (∀ e ∈ trimEnds pairs, ∃ c, clientUrl k e.2 = .ok c) →
    ((trimEnds pairs).map (·.1)).Nodup ∧ (trimEnds pairs).map (·.2) = pairs.map (·.2)

theorem exists_taken {k : LegacyImport.Key} {l : List (String × String)} (h : ∀ e ∈ l, ∃ c, clientUrl k e.2 = .ok c) :
    ∃ decoded, List.Forall₂ (Taken k) l decoded := by
  induction l with
  | nil => exact ⟨[], .nil⟩
  | cons e l ih =>
    obtain ⟨⟨c, hc⟩, hl⟩ := List.forall_mem_cons.1 h
    obtain ⟨decoded, hdecoded⟩ := ih hl
    exact ⟨_ :: decoded, .cons ⟨c, hc, rfl⟩ hdecoded⟩

/-- What the import yields of the items of a text. -/
def ImportsAs (pairs : List (String × String)) : Prop :=
  ∀ k decoded, importNodes k (textOf pairs) = .ok decoded →
    (decoded.map (·.name)).Nodup ∧ decoded.map (·.peerUrls) = pairs.map fun e => [e.2]

theorem importsAs_iff {pairs : List (String × String)} (h : Clean pairs) : ImportsAs pairs ↔ SurvivesTrimming pairs := by
  have hsame : (trimEnds pairs).map (fun e => [e.2]) = pairs.map (fun e => [e.2]) ↔
      (trimEnds pairs).map (·.2) = pairs.map (·.2) := by
    have hinj : Function.Injective fun u : String => [u] := fun _ _ he => List.singleton_inj.1 he
    have hmap : ∀ l : List (String × String), l.map (fun e => [e.2]) = (l.map (·.2)).map fun u => [u] := by simp
    rw [hmap, hmap, (List.map_injective_iff.2 hinj).eq_iff]
  by_cases hne : pairs = []
  · subst hne
    refine iff_of_true (fun k decoded hdecoded => absurd hdecoded importNodes_empty) fun k _ => ?_
    exact ⟨List.nodup_nil, rfl⟩
  · constructor
    · intro himports k hurls
      obtain ⟨decoded, hdecoded⟩ := exists_taken hurls
      obtain ⟨hnames, hpeers⟩ := himports k decoded ((importNodes_textOf hne h).2 hdecoded)
      obtain ⟨-, hname, hpeer⟩ := Taken.forall₂ hdecoded
      rw [hname] at hnames
      exact ⟨hnames, hsame.1 (hpeer ▸ hpeers)⟩
    · intro hsurvives k decoded hdecoded
      obtain ⟨hurls, hname, hpeer⟩ := Taken.forall₂ ((importNodes_textOf hne h).1 hdecoded)
      rw [hname, hpeer, hsame]
      exact hsurvives k hurls

/-! ## Both ways -/

/-- **The text of an initial cluster comes back as the nodes it was written from
exactly where each of them has one peer URL** (and blanks at the ends of the text
do not matter to the import). It is the text that etcd finds in its settings, and what etcdadm
writes it reads in any case. -/
theorem initial_cluster_round_trips_iff (nodes : List EtcdNode) (h : Writable nodes) :
    (∀ p me, p.cluster.nodes = nodes → (startEnv p me).lookup "ETCD_INITIAL_CLUSTER" = some (initialCluster nodes)) ∧
    Decodes (parse (initialClusterFromMembers (nodes.map memberOf))) nodes ∧
    ((Decodes (parse (initialCluster nodes)) nodes ∧
      ∀ k decoded, importNodes k (initialClusterFromMembers (nodes.map memberOf)) = .ok decoded →
        (decoded.map (·.name)).Nodup ∧ decoded.map (·.peerUrls) = nodes.map (·.peerUrls)) ↔
    (∀ n ∈ nodes, n.peerUrls.length = 1) ∧ SurvivesTrimming (pairsOf nodes)) := by
  refine ⟨fun p me hnodes => hnodes ▸ lookup_startEnv p me, decodes_fromMembers h, ?_⟩
  rw [decodes_iff h, initialClusterFromMembers_eq]
  refine and_congr_right fun hone => ?_
  have hurls : nodes.map (·.peerUrls) = (pairsOf nodes).map fun e => [e.2] := by
    rw [pairsOf, List.map_flatMap, List.map_eq_flatMap]
    refine List.flatMap_congr fun n hn => ?_
    obtain ⟨u, hu⟩ := List.length_eq_one_iff.1 (hone n hn)
    simp [hu]
  rw [hurls]
  exact importsAs_iff h.clean

/-- A node of one URL, and one of two. -/
def nodeOf (name : String) (peerUrls : List String) : EtcdNode := ⟨name, peerUrls, [], [], false⟩

theorem single_urls_round_trip :
    Decodes (parse (initialCluster [nodeOf "a" ["http://a:2380"], nodeOf "b" ["http://b:2380"]]))
      [nodeOf "a" ["http://a:2380"], nodeOf "b" ["http://b:2380"]] := by
  have hwritable : Writable [nodeOf "a" ["http://a:2380"], nodeOf "b" ["http://b:2380"]] :=
    ⟨by decide, by decide, by decide, by decide⟩
  refine ((initial_cluster_round_trips_iff _ hwritable).2.2.2 ⟨by decide, ?_⟩).1
  have hsame : trimEnds (pairsOf [nodeOf "a" ["http://a:2380"], nodeOf "b" ["http://b:2380"]]) =
      pairsOf [nodeOf "a" ["http://a:2380"], nodeOf "b" ["http://b:2380"]] := by decide
  intro k _
  rw [hsame]
  exact ⟨by decide, rfl⟩

/-- The second URL of a node is read as a name, and the import finds the node twice. -/
theorem two_urls_lost : Writable [nodeOf "a" ["http://a:2380", "http://b:2380"]] ∧
    ¬ Decodes (parse (initialCluster [nodeOf "a" ["http://a:2380", "http://b:2380"]]))
      [nodeOf "a" ["http://a:2380", "http://b:2380"]] ∧
    (importNodes .etcd
      (initialClusterFromMembers [memberOf (nodeOf "a" ["http://a:2380", "http://b:2380"])])).toOption.map
        (·.map (·.name)) = some ["a", "a"] := by
  refine ⟨⟨by decide, by decide, by decide, by decide⟩, fun h => ?_, by decide +kernel⟩
  have hlookup : (parse (initialCluster [nodeOf "a" ["http://a:2380", "http://b:2380"]])).lookup "a" =
      some ["http://a:2380"] := by decide +kernel
  rw [h "a"] at hlookup
  exact absurd hlookup (by decide)

end Etcdadm.InitialCluster
