/-
Copying a keyspace page by page (`CopyTo` of `pkg/etcdclient/client.go`), as a
restore does it (`copyEtcd` of `pkg/etcd/restore.go`).

A page starts at the last key that was copied, since etcd knows no "after", and
that key is skipped. So a page of the limit brings all keys but one, and a page
that brings none is the last. What carries the loop is that the keys copied so
far are a first part of the keyspace and `lastKey` the last of them: then a page
is that key and the next ones (`page_of_split`), wherever the page boundaries fall.
-/
import Etcdadm.Api
import Etcdadm.Prog

namespace Etcdadm.CopyTo

/-- Keys are strings of bytes, and etcd sorts them by their bytes. -/
abbrev Key := List (Fin 256)

structure KeyValue where
  key : Key
  value : List (Fin 256)

/-! ## The copy -/

inductive CopyReq where
  /-- `kv.Get`, `WithFromKey` and sorted by key -/
  | get (fromKey : Key) (limit : Nat)
  /-- `Put` of the destination -/
  | put (kv : KeyValue)
  /-- `NewClient` of the source -/
  | newClient
  /-- `Get` of `/`, to see whether the source answers -/
  | getRoot
  /-- the text of what is wrapped if the source process is no longer there -/
  | exitState
  | sleep

@[reducible] def CopyReq.Resp : CopyReq → Type
  | .get _ _ => Except Error (List KeyValue)
  | .put _ | .newClient | .getRoot => Except Error Unit
  | .exitState => Option (String × Error)
  | .sleep => Unit

@[reducible] def copySig : Sig := ⟨CopyReq, CopyReq.Resp⟩

abbrev CopyM := Prog copySig

def ask (r : CopyReq) : CopyM r.Resp := .call (S := copySig) r .ret

/-- The variables of the loops. -/
structure Copied where
  count : Nat
  /-- empty before the first key -/
  lastKey : Key
  gotMore : Bool

variable (quote : Key → String)

/-- The loop over the keys of a page. -/
def copyPage : List KeyValue → Copied → CopyM (Copied × Option Error)
  | [], s => return (s, none)
  | kv :: kvs, s => do
    if kv.key = s.lastKey then
      return ← copyPage kvs s
    let s := { s with gotMore := true }
    match ← ask (.put kv) with
    | .error err => return (s, some s!"error writing key {quote kv.key} to destination: {err}")
    | .ok () => copyPage kvs { s with count := s.count + 1, lastKey := kv.key }

/-- The loop over the pages, of at most `fuel` of them. -/
def copyPages (limit : Nat) : Nat → Nat → Key → CopyM (Nat × Option Error)
  | 0, _, _ => .crash "still copying"
  | fuel + 1, count, lastKey => do
    match ← ask (.get (if lastKey = [] then [0] else lastKey) limit) with
    | .error err => return (count, some err)
    | .ok kvs =>
      let (s, err) ← copyPage quote kvs ⟨count, lastKey, false⟩
      match err with
      | some err => return (s.count, some err)
      | none =>
        if s.gotMore then copyPages limit fuel s.count s.lastKey
        else return (s.count, none)

def copyTo (fuel : Nat) : CopyM (Nat × Option Error) := copyPages quote 1000 fuel 0 []

/-- The loop that waits for the source; what it returns is why there is no source. -/
def waitForSource : Nat → CopyM (Option Error)
  | 0 => return none
  | i + 1 => do
    match ← ask .getRoot with
    | .ok () => return none
    | .error _ =>
      match ← ask .exitState with
      | some (exitState, exitError) =>
        return some s!"source etcd process exited (state={exitState}): {exitError}"
      | none =>
        ask .sleep
        waitForSource i

def copyEtcd (fuel : Nat) : CopyM (Option Error) := do
  match ← ask .newClient with
  | .error err => return some s!"error building etcd client: {err}"
  | .ok () =>
    match ← waitForSource 60 with
    | some err => return some err
    | none =>
      match (← copyTo quote fuel).2 with
      | some err => return some s!"error copying keys: {err}"
      | none => return none

/-! ## What is copied from, and to -/

/-- A keyspace that does not change. -/
structure Keyspace where
  kvs : List KeyValue
  sorted : kvs.Pairwise (·.key < ·.key)
  nonempty : ∀ kv ∈ kvs, kv.key ≠ []

/-- The first keys at `fromKey` or after it. -/
def Keyspace.page (source : Keyspace) (fromKey : Key) (limit : Nat) : List KeyValue :=
  (source.kvs.filter (fromKey ≤ ·.key)).take limit

/-- The calls to `Put`, with the errors of those that failed. -/
abbrev Puts := List (KeyValue × Option Error)

inductive Answers (source : Keyspace) (puts : Puts) : (r : CopyReq) → r.Resp → Puts → Prop
  | get {fromKey limit} : Answers source puts (.get fromKey limit) (.ok (source.page fromKey limit)) puts
  | put {kv} : Answers source puts (.put kv) (.ok ()) (puts ++ [(kv, none)])
  | putFailed {kv err} : Answers source puts (.put kv) (.error err) (puts ++ [(kv, some err)])
  | newClient {x} : Answers source puts .newClient x puts
  | getRoot {x} : Answers source puts .getRoot x puts
  | exitState {x} : Answers source puts .exitState x puts
  | sleep : Answers source puts .sleep () puts

/-- These were written, one after the other. -/
def written (kvs : List KeyValue) : Puts := kvs.map fun kv => (kv, none)

/-- The keys were all written; or those before the one that failed, and they were counted. -/
def Outcome (kvs : List KeyValue) (puts : Puts) (r : Nat × Option Error) : Prop :=
  (puts = written kvs ∧ r = (kvs.length, none)) ∨
  ∃ pre kv post err, kvs = pre ++ kv :: post ∧ puts = written pre ++ [(kv, some err)] ∧
    r = (pre.length, some s!"error writing key {quote kv.key} to destination: {err}")

/-! ## Pages of a sorted list -/

/-- From an element on, a sorted list has that element and those after it. -/
theorem filter_le_of_pairwise {α β : Type} [LinearOrder β] {f : α → β} {pre post : List α} {x : α}
    (h : (pre ++ x :: post).Pairwise (f · < f ·)) : (pre ++ x :: post).filter (f x ≤ f ·) = x :: post := by
  obtain ⟨-, htail, hbefore⟩ := List.pairwise_append.1 h
  have hpre : pre.filter (f x ≤ f ·) = [] := by
    simp only [List.filter_eq_nil_iff, decide_eq_true_eq, not_le]
    intro a ha
    exact hbefore a ha x List.mem_cons_self
  have hpost : (x :: post).filter (f x ≤ f ·) = x :: post := by
    simp only [List.filter_eq_self, decide_eq_true_eq, List.mem_cons, forall_eq_or_imp, le_refl, true_and]
    intro a ha
    exact ((List.pairwise_cons.1 htail).1 a ha).le
  rw [List.filter_append, hpre, hpost, List.nil_append]

theorem zero_le {k : Key} (h : k ≠ []) : [0] ≤ k := by
  cases k with
  | nil => exact absurd rfl h
  | cons a k =>
    rcases (Fin.zero_le a).lt_or_eq with hlt | rfl
    · exact le_of_lt (List.Lex.rel hlt)
    · cases k with
      | nil => exact le_refl _
      | cons b k => exact le_of_lt (List.Lex.cons List.Lex.nil)

/-- The key to start from after these. -/
def lastOf (done : List KeyValue) : Key := (done.map (·.key)).getLastD []

theorem lastOf_append (done l : List KeyValue) : lastOf (done ++ l) = (l.map (·.key)).getLastD (lastOf done) := by
  simp [lastOf, List.getLastD_eq_getLast?, List.getLast?_append]

namespace Keyspace

variable {source : Keyspace} {done rest : List KeyValue} {limit : Nat}

theorem page_first : source.page [0] limit = source.kvs.take limit := by
  rw [page, List.filter_eq_self.2 fun kv hkv => decide_eq_true (zero_le (source.nonempty kv hkv))]

/-- The page from a key on is that key and the next ones. -/
theorem page_of_split {kv : KeyValue} (h : source.kvs = done ++ kv :: rest) :
    source.page kv.key (limit + 1) = kv :: rest.take limit := by
  have hsorted := source.sorted
  rw [h] at hsorted
  rw [page, h, filter_le_of_pairwise hsorted, List.take_succ_cons]

/-- The rest is in order, and behind what was copied. -/
theorem sorted_from (h : source.kvs = done ++ rest) : (lastOf done :: rest.map (·.key)).Pairwise (· < ·) := by
  have hsorted := source.sorted
  rw [h, List.pairwise_append] at hsorted
  refine List.pairwise_cons.2 ⟨fun k hk => ?_, List.pairwise_map.2 hsorted.2.1⟩
  obtain ⟨kv, hkv, rfl⟩ := List.mem_map.1 hk
  rcases List.eq_nil_or_concat' done with rfl | ⟨pre, last, rfl⟩
  · exact lt_of_lt_of_le List.Lex.nil (zero_le (source.nonempty kv (by simp [h, hkv])))
  · have hlast : lastOf (pre ++ [last]) = last.key := by simp [lastOf]
    rw [hlast]
    exact hsorted.2.2 last (by simp) kv hkv

end Keyspace

/-! ## The loops -/

theorem surely_ask {α : Type} {source : Keyspace} {puts : Puts} {r : CopyReq} {f : r.Resp → CopyM α}
    {Q : Puts → α → Prop} (hanswer : ∃ x puts', Answers source puts r x puts')
    (hf : ∀ x puts', Answers source puts r x puts' → (f x).Surely (Answers source) (fun _ => True) Q puts') :
    (ask r >>= f).Surely (Answers source) (fun _ => True) Q puts :=
  ⟨hanswer, fun x puts' h => ⟨trivial, hf x puts' h⟩⟩

theorem surely_put {α : Type} {source : Keyspace} {puts : Puts} {kv : KeyValue} {f : Except Error Unit → CopyM α}
    {Q : Puts → α → Prop} (hok : (f (.ok ())).Surely (Answers source) (fun _ => True) Q (puts ++ [(kv, none)]))
    (hfail : ∀ err, (f (.error err)).Surely (Answers source) (fun _ => True) Q (puts ++ [(kv, some err)])) :
    (ask (.put kv) >>= f).Surely (Answers source) (fun _ => True) Q puts := by
  refine surely_ask ⟨_, _, .put⟩ fun x puts' h => ?_
  cases h with
  | put => exact hok
  | putFailed => exact hfail _

theorem surely_get {α : Type} {source : Keyspace} {puts : Puts} {fromKey : Key} {limit : Nat}
    {f : Except Error (List KeyValue) → CopyM α} {Q : Puts → α → Prop}
    (hf : (f (.ok (source.page fromKey limit))).Surely (Answers source) (fun _ => True) Q puts) :
    (ask (.get fromKey limit) >>= f).Surely (Answers source) (fun _ => True) Q puts := by
  refine surely_ask ⟨_, _, .get⟩ fun x puts' h => ?_
  cases h
  exact hf

/-- A page of new keys in order is written, up to the first that fails. -/
theorem surely_copyPage {source : Keyspace} : ∀ (l : List KeyValue) (s : Copied) (puts : Puts),
    (s.lastKey :: l.map (·.key)).Pairwise (· < ·) →
    (copyPage quote l s).Surely (Answers source) (fun _ => True) (fun puts' r =>
      (puts' = puts ++ written l ∧ r.2 = none ∧ r.1.count = s.count + l.length ∧
        r.1.lastKey = (l.map (·.key)).getLastD s.lastKey ∧ (r.1.gotMore = true ↔ s.gotMore = true ∨ l ≠ [])) ∨
      ∃ pre kv post err, l = pre ++ kv :: post ∧ puts' = puts ++ (written pre ++ [(kv, some err)]) ∧
        r.1.count = s.count + pre.length ∧
        r.2 = some s!"error writing key {quote kv.key} to destination: {err}") puts
  | [], s, puts, _ => .inl ⟨by simp [written], rfl, rfl, rfl, by simp⟩
  | kv :: l, s, puts, h => by
    obtain ⟨hlast, hrest⟩ := List.pairwise_cons.1 h
    have hnew : kv.key ≠ s.lastKey := (hlast kv.key (by simp)).ne'
    unfold copyPage
    rw [if_neg hnew]
    refine surely_put ?_ fun err => ?_
    · refine (surely_copyPage l ⟨s.count + 1, kv.key, true⟩ _ hrest).mono (fun _ h => h) fun puts' r hr => ?_
      rcases hr with ⟨hputs, hnone, hcount, hkey, hmore⟩ | ⟨pre, kv', post, err, hl, hputs, hcount, herr⟩
      · refine .inl ⟨by simp [hputs, written], hnone, ?_, ?_, by simp [hmore]⟩
        · simp only [hcount, List.length_cons]
          omega
        · rw [hkey, List.map_cons, List.getLastD_cons]
      · refine .inr ⟨kv :: pre, kv', post, err, by simp [hl], by simp [hputs, written], ?_, herr⟩
        simp only [hcount, List.length_cons]
        omega
    · exact .inr ⟨[], kv, l, err, rfl, by simp [written], rfl, rfl⟩

/-- Of the next page the first new keys are left, at least one of them if there are any. -/
theorem copyPage_page {source : Keyspace} {done rest : List KeyValue} {limit : Nat} (h : source.kvs = done ++ rest)
    (hlimit : 2 ≤ limit) : ∃ m, 1 ≤ m ∧ ∀ s : Copied, s.lastKey = lastOf done →
      copyPage quote (source.page (if lastOf done = [] then [0] else lastOf done) limit) s =
        copyPage quote (rest.take m) s := by
  rcases List.eq_nil_or_concat' done with rfl | ⟨pre, kv, rfl⟩
  · refine ⟨limit, by omega, fun s _ => ?_⟩
    rw [List.nil_append] at h
    simp [lastOf, Keyspace.page_first, h]
  · obtain ⟨m, rfl⟩ := Nat.exists_eq_add_of_le' hlimit
    refine ⟨m + 1, by omega, fun s hs => ?_⟩
    have hlast : lastOf (pre ++ [kv]) = kv.key := by simp [lastOf]
    have hne : kv.key ≠ [] := source.nonempty kv (by simp [h])
    rw [List.append_assoc, List.singleton_append] at h
    rw [hlast] at hs ⊢
    rw [if_neg hne, Keyspace.page_of_split h]
    -- the key the page starts with was copied before
    conv_lhs => unfold copyPage
    rw [if_pos hs.symm]

/-- The loop, from where these were copied and the rest was not. -/
theorem surely_copyPages {source : Keyspace} {limit : Nat} (hlimit : 2 ≤ limit) : ∀ (fuel : Nat)
    (done rest : List KeyValue), source.kvs = done ++ rest → rest.length < fuel →
    (copyPages quote limit fuel done.length (lastOf done)).Surely (Answers source) (fun _ => True)
      (Outcome quote source.kvs) (written done)
  | 0, _, _, _, hfuel => by omega
  | fuel + 1, done, rest, h, hfuel => by
    obtain ⟨m, hm, hpage⟩ := copyPage_page quote h hlimit
    have hsorted : (lastOf done :: (rest.take m).map (·.key)).Pairwise (· < ·) :=
      (source.sorted_from h).sublist (((List.take_sublist m rest).map _).cons_cons _)
    unfold copyPages
    refine surely_get ?_
    simp only [hpage ⟨done.length, lastOf done, false⟩ rfl]
    refine Prog.Surely.bind ((surely_copyPage quote _ _ _ hsorted).mono (fun _ h => h) fun puts' r hr => ?_)
    rcases hr with ⟨hputs, hnone, hcount, hkey, hmore⟩ | ⟨pre, kv, post, err, hl, hputs, hcount, herr⟩
    · have hall : source.kvs = (done ++ rest.take m) ++ rest.drop m := by simp [h]
      have hwritten : puts' = written (done ++ rest.take m) := by simp [hputs, written]
      have hlength : r.1.count = (done ++ rest.take m).length := by simp [hcount]
      rw [← lastOf_append] at hkey
      simp only [hnone]
      by_cases hrest : rest = []
      · -- the page brought nothing new: this was the last one
        have hstop : ¬ r.1.gotMore = true := by simp [hmore, hrest]
        rw [if_neg hstop]
        refine .inl ⟨by simp [hwritten, h, hrest], ?_⟩
        simp [hlength, h, hrest]
      · have hpos : 0 < rest.length := List.length_pos_of_ne_nil hrest
        have hgo : r.1.gotMore = true := hmore.2 (.inr (by simp [hrest]; omega))
        rw [if_pos hgo, hwritten, hlength, hkey]
        refine surely_copyPages hlimit fuel _ _ hall ?_
        rw [List.length_drop]
        omega
    · simp only [herr]
      refine .inr ⟨done ++ pre, kv, post ++ rest.drop m, err, ?_, by simp [hputs, written], by simp [hcount]⟩
      calc source.kvs = done ++ (rest.take m ++ rest.drop m) := by rw [List.take_append_drop, h]
        _ = (done ++ pre) ++ kv :: (post ++ rest.drop m) := by simp [hl]

/-- **Every key is copied once, in order.** The copy comes to its end after at
most as many pages as there are keys, and one more; and what was written by then
is all of the keyspace, or the keys before the one that could not be. -/
theorem copies_keyspace_once (source : Keyspace) (limit fuel : Nat) (hlimit : 2 ≤ limit)
    (hfuel : source.kvs.length < fuel) :
    (copyPages quote limit fuel 0 []).Surely (Answers source) (fun _ => True) (Outcome quote source.kvs) [] :=
  surely_copyPages quote hlimit fuel [] source.kvs rfl hfuel

/-- Three keys, in pages of two. -/
def threeKeys : Keyspace where
  kvs := [⟨[97], [1]⟩, ⟨[97, 0], [2]⟩, ⟨[98], [3]⟩]
  sorted := by decide
  nonempty := by decide

theorem three_keys_copied : (copyPages (fun k => toString (k.map Fin.val)) 2 4 0 []).Surely (Answers threeKeys)
    (fun _ => True) (Outcome (fun k => toString (k.map Fin.val)) threeKeys.kvs) [] :=
  copies_keyspace_once _ threeKeys 2 4 (by decide) (by decide)

end Etcdadm.CopyTo
