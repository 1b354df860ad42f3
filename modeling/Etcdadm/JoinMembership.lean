/-
The membership phase of `etcdadm join` (`cmd/join.go`), run any number of times.

The phase finds the member of its own peer URL in the list, or adds it, and
derives the initial cluster from the list. Everything it changes is outside of
it: the member list of etcd and the data directory. A run may be cut at any
request, and a reply of `MemberAdd` may be lost, so that the next run starts from
a list that the last one changed without knowing.

What carries over from run to run is small: the list is the first one, or the
first one with an unstarted member of the local URL at its end.
-/
import Etcdadm.InitialCluster

namespace Etcdadm.Join

open InitialCluster (Member initialClusterFromMembers join)

/-! ## The phase -/

/-- The part of `EtcdAdmConfig` that the phase reads or sets. -/
structure JoinConfig where
  name : String
  endpoint : String
  dataDir : String
  initialAdvertisePeerURLs : List String
  retry : Bool
  initialCluster : String
  deriving DecidableEq, Repr

inductive JoinReq where
  /-- `etcd.ClientForEndpoint` -/
  | clientForEndpoint (endpoint : String)
  | memberList
  /-- `os.RemoveAll`, whose error is dropped -/
  | removeAll (dir : String)
  | memberAdd (peerURLs : List String)
  /-- `time.Sleep`, in the backoff -/
  | sleep

/-- `MemberAdd` answers with the new member and all members. -/
@[reducible] def JoinReq.Resp : JoinReq → Type
  | .clientForEndpoint _ => Except Error Unit
  | .memberList => Except Error (List Member)
  | .memberAdd _ => Except Error (Member × List Member)
  | .removeAll _ | .sleep => Unit

@[reducible] def joinSig : Sig := ⟨JoinReq, JoinReq.Resp⟩

abbrev JoinM := Prog joinSig

def ask (r : JoinReq) : JoinM r.Resp := .call (S := joinSig) r .ret

/-- `MemberForPeerURLs`: the lists are compared in their order. -/
def memberForPeerURLs (members : List Member) (peerURLs : List String) : Option Member :=
  members.find? fun m => m.peerURLs = peerURLs

def started (m : Member) : Bool := !(m.name = "" && m.clientURLs.length = 0)

/-- `constants.DefaultBackOffSteps` -/
def defaultBackOffSteps : Nat := 5

/-- `wait.ExponentialBackoff` over `MemberAdd`, with the steps that are left and `lastErr`. -/
def addMember (peerURLs : List String) : Nat → Error → JoinM (Except Error (Member × List Member))
  | 0, lastErr => return .error lastErr
  | steps + 1, _ => do
    match ← ask (.memberAdd peerURLs) with
    | .ok added => return .ok added
    | .error lastErr =>
      if steps = 0 then
        return .error lastErr
      ask .sleep
      addMember peerURLs steps lastErr

/-- The second half of the phase, once the local member is known. -/
def deriveInitialCluster (cfg : JoinConfig) (localMember : Member) (members : List Member) : JoinM JoinConfig := do
  if started localMember then
    return { cfg with initialCluster := initialClusterFromMembers members }
  ask (.removeAll cfg.dataDir)
  let localMember := { localMember with name := cfg.name, peerURLs := cfg.initialAdvertisePeerURLs }
  let desiredMembers := members.filter (fun m => m.id ≠ localMember.id) ++ [localMember]
  return { cfg with initialCluster := initialClusterFromMembers desiredMembers }

/-- What is done about a list of members. -/
def joinMembers (cfg : JoinConfig) (members : List Member) : JoinM (Except Error JoinConfig) := do
  match memberForPeerURLs members cfg.initialAdvertisePeerURLs with
  | some localMember => return .ok (← deriveInitialCluster cfg localMember members)
  | none =>
    ask (.removeAll cfg.dataDir)
    let retrySteps := if cfg.retry then defaultBackOffSteps else 1
    match ← addMember cfg.initialAdvertisePeerURLs retrySteps "<nil>" with
    | .error lastErr => return .error s!"error adding member: {lastErr}"
    | .ok added => return .ok (← deriveInitialCluster cfg added.1 added.2)

def membership (cfg : JoinConfig) : JoinM (Except Error JoinConfig) := do
  if cfg.initialCluster ≠ "" then
    return .ok cfg
  match ← ask (.clientForEndpoint cfg.endpoint) with
  | .error err => return .error s!"error checking membership: {err}"
  | .ok () =>
    match ← ask .memberList with
    | .error err => return .error s!"error listing members: {err}"
    | .ok members => joinMembers cfg members

/-! ## The cluster it joins -/

/-- A member as `MemberAdd` makes it. -/
def unstarted (id : Nat) (peerURLs : List String) : Member := ⟨id, "", peerURLs, []⟩

/-- No two members have the same ID or the same peer URLs. -/
structure Distinct (members : List Member) : Prop where
  ids : (members.map (·.id)).Nodup
  urls : (members.map (·.peerURLs)).Nodup

/-- What `MemberAdd` may add: none of the URLs is registered, and the ID is fresh. -/
def Addable (members : List Member) (m : Member) : Prop :=
  (∀ m' ∈ members, ∀ u ∈ m.peerURLs, u ∉ m'.peerURLs) ∧ ∀ m' ∈ members, m'.id ≠ m.id

/-- The members etcd has, and what was asked in this run. -/
structure World where
  members : List Member
  log : Trace joinSig

def World.asked (w : World) (e : Event joinSig) (members : List Member) : World := ⟨members, w.log ++ [e]⟩

/-- Any request may fail. The members change only by `MemberAdd`, also where its
reply is lost. -/
inductive Answers (w : World) : (r : JoinReq) → r.Resp → World → Prop
  | clientForEndpoint (endpoint : String) (x : Except Error Unit) :
      Answers w (.clientForEndpoint endpoint) x (w.asked ⟨.clientForEndpoint endpoint, x⟩ w.members)
  | memberList : Answers w .memberList (.ok w.members) (w.asked ⟨.memberList, .ok w.members⟩ w.members)
  | memberListFails (err : Error) : Answers w .memberList (.error err) (w.asked ⟨.memberList, .error err⟩ w.members)
  | removeAll (dir : String) : Answers w (.removeAll dir) () (w.asked ⟨.removeAll dir, ()⟩ w.members)
  | sleep : Answers w .sleep () (w.asked ⟨.sleep, ()⟩ w.members)
  | memberAddFails (peerURLs : List String) (err : Error) :
      Answers w (.memberAdd peerURLs) (.error err) (w.asked ⟨.memberAdd peerURLs, .error err⟩ w.members)
  | memberAdd {id : Nat} {peerURLs : List String} (h : Addable w.members (unstarted id peerURLs)) :
      Answers w (.memberAdd peerURLs) (.ok (unstarted id peerURLs, w.members ++ [unstarted id peerURLs]))
        (w.asked ⟨.memberAdd peerURLs, .ok (unstarted id peerURLs, w.members ++ [unstarted id peerURLs])⟩
          (w.members ++ [unstarted id peerURLs]))
  | replyLost {id : Nat} {peerURLs : List String} (err : Error) (h : Addable w.members (unstarted id peerURLs)) :
      Answers w (.memberAdd peerURLs) (.error err)
        (w.asked ⟨.memberAdd peerURLs, .error err⟩ (w.members ++ [unstarted id peerURLs]))

/-- A run of the phase: its configuration, what was asked in it and where it
stands, which is where it was cut if it has not returned. -/
structure Run where
  cfg : JoinConfig
  log : Trace joinSig
  rest : JoinM (Except Error JoinConfig)

/-- Runs for one name and one URL, one after the other, on a cluster that nobody
else changes. -/
inductive Reruns (name url : String) : List Member → List Run → List Member → Prop
  | nil {members : List Member} : Reruns name url members [] members
  | snoc {members₀ members members' : List Member} {runs : List Run} {run : Run} :
      Reruns name url members₀ runs members → run.cfg.name = name → run.cfg.initialAdvertisePeerURLs = [url] →
      Prog.Goes Answers ⟨members, []⟩ (membership run.cfg) run.rest ⟨members', run.log⟩ →
      Reruns name url members₀ (runs ++ [run]) members'

/-- The items that a member stands for. -/
def itemsOf (m : Member) : List String := m.peerURLs.map fun u => m.name ++ "=" ++ u

/-- The members but the local one. -/
def others (url : String) (members : List Member) : List Member := members.filter fun m => m.peerURLs ≠ [url]

/-- The list shows the local member as started. -/
def ShowsStarted (url : String) (members : List Member) : Prop :=
  ∃ m, memberForPeerURLs members [url] = some m ∧ started m = true

/-- The name of the local member: the one it was started under, or else the
configured one. -/
def localName (name url : String) (members : List Member) : String :=
  match memberForPeerURLs members [url] with
  | some m => if started m then m.name else name
  | none => name

/-- The items that every run is to come to. -/
def desiredItems (name url : String) (members : List Member) : List String :=
  (others url members).flatMap itemsOf ++ [localName name url members ++ "=" ++ url]

theorem initialClusterFromMembers_eq_join (members : List Member) :
    initialClusterFromMembers members = join ',' (members.flatMap itemsOf) := rfl

/-! ## The local member in a list -/

section Local

variable {name url : String} {members : List Member} {m : Member}

theorem mem_of_memberForPeerURLs (h : memberForPeerURLs members [url] = some m) : m ∈ members ∧ m.peerURLs = [url] :=
  ⟨List.mem_of_find?_eq_some h, by simpa using List.find?_some h⟩

/-- The local member, with the others around it. -/
theorem Distinct.split_at (hd : Distinct members) (h : memberForPeerURLs members [url] = some m) :
    ∃ l₁ l₂, members = l₁ ++ m :: l₂ ∧ others url members = l₁ ++ l₂ ∧
      members.filter (fun m' => m'.id ≠ m.id) = l₁ ++ l₂ := by
  obtain ⟨hmem, hurl⟩ := mem_of_memberForPeerURLs h
  obtain ⟨l₁, l₂, rfl⟩ := List.append_of_mem hmem
  have hids := hd.ids
  have hurls := hd.urls
  simp only [List.map_append, List.map_cons, List.nodup_middle, List.nodup_cons, List.mem_append, List.mem_map,
    not_or, not_exists, not_and] at hids hurls
  have hother (m' : Member) (hm' : m' ∈ l₁ ++ l₂) : m'.id ≠ m.id ∧ m'.peerURLs ≠ [url] := by
    rw [← hurl]
    cases List.mem_append.1 hm' with
    | inl hm' => exact ⟨hids.1.1 m' hm', hurls.1.1 m' hm'⟩
    | inr hm' => exact ⟨hids.1.2 m' hm', hurls.1.2 m' hm'⟩
  have hkeep {p : Member → Bool} (hp : ∀ m' ∈ l₁ ++ l₂, p m' = true) (hm : p m = false) :
      (l₁ ++ m :: l₂).filter p = l₁ ++ l₂ := by
    rw [List.filter_append, List.filter_cons_of_neg (by simp [hm]), ← List.filter_append, List.filter_eq_self.2 hp]
  refine ⟨l₁, l₂, rfl, hkeep (fun m' hm' => ?_) ?_, hkeep (fun m' hm' => ?_) ?_⟩
  · simpa using (hother m' hm').2
  · simpa using hurl
  · simpa using (hother m' hm').1
  · simp

/-- What a successful run comes to. -/
def Derives (name url : String) (members : List Member) (initialCluster : String) : Prop :=
  ∃ items, initialCluster = join ',' items ∧ items.Perm (desiredItems name url members)

theorem derives_started (hd : Distinct members) (h : memberForPeerURLs members [url] = some m) (hm : started m = true) :
    Derives name url members (initialClusterFromMembers members) := by
  obtain ⟨l₁, l₂, hmembers, hothers, -⟩ := hd.split_at h
  refine ⟨_, initialClusterFromMembers_eq_join members, ?_⟩
  have hitems : itemsOf m = [localName name url members ++ "=" ++ url] := by
    simp [itemsOf, (mem_of_memberForPeerURLs h).2, localName, h, hm]
  have hperm : (l₁ ++ m :: l₂).Perm (l₁ ++ l₂ ++ [m]) := List.perm_middle.trans (List.perm_append_singleton m _).symm
  have hflat := hperm.flatMap_right itemsOf
  rw [desiredItems, hothers, ← hitems]
  rw [← hmembers] at hflat
  simpa using hflat

theorem derives_unstarted (hd : Distinct members) (h : memberForPeerURLs members [url] = some m) (hm : started m = false) :
    Derives name url members (initialClusterFromMembers
      (members.filter (fun m' => m'.id ≠ m.id) ++ [{ m with name := name, peerURLs := [url] }])) := by
  obtain ⟨l₁, l₂, -, hothers, hids⟩ := hd.split_at h
  refine ⟨_, initialClusterFromMembers_eq_join _, ?_⟩
  rw [hids, ← hothers, desiredItems, List.flatMap_append]
  simp [itemsOf, localName, h, hm]

end Local

/-! ## What stays from run to run -/

section Invariant

variable {name url : String} {members₀ members : List Member} {id : Nat}

theorem Addable.ne (h : Addable members (unstarted id [url])) {m : Member} (hm : m ∈ members) : m.peerURLs ≠ [url] := by
  have hurl := h.1 m hm url (by simp [unstarted])
  intro heq
  simp [heq] at hurl

theorem Addable.memberForPeerURLs (h : Addable members (unstarted id [url])) : memberForPeerURLs members [url] = none :=
  List.find?_eq_none.2 fun _ hm => by simpa using h.ne hm

theorem Addable.memberForPeerURLs_add (h : Addable members (unstarted id [url])) :
    Join.memberForPeerURLs (members ++ [unstarted id [url]]) [url] = some (unstarted id [url]) := by
  rw [Join.memberForPeerURLs, List.find?_append, show members.find? _ = none from h.memberForPeerURLs]
  simp [unstarted]

theorem Distinct.add (hd : Distinct members) (h : Addable members (unstarted id [url])) :
    Distinct (members ++ [unstarted id [url]]) := by
  constructor
  · rw [List.map_append, List.map_singleton, ← List.concat_eq_append]
    exact hd.ids.concat (by simpa using h.2)
  · rw [List.map_append, List.map_singleton, ← List.concat_eq_append]
    refine hd.urls.concat fun hmem => ?_
    obtain ⟨m, hm, heq⟩ := List.mem_map.1 hmem
    exact h.ne hm heq

/-- The first list, or that with the local member added to it. -/
def Grown (url : String) (members₀ members : List Member) : Prop :=
  members = members₀ ∨ ∃ id, Addable members₀ (unstarted id [url]) ∧ members = members₀ ++ [unstarted id [url]]

namespace Grown

theorem eq_of_addable (h : Grown url members₀ members) (hadd : Addable members (unstarted id [url])) :
    members = members₀ := by
  cases h with
  | inl h => exact h
  | inr h =>
    obtain ⟨id', -, rfl⟩ := h
    exact absurd (by simp [unstarted]) (hadd.1 (unstarted id' [url]) (by simp) url (by simp [unstarted]))

theorem add (h : Grown url members₀ members) (hadd : Addable members (unstarted id [url])) :
    Grown url members₀ (members ++ [unstarted id [url]]) := by
  cases h.eq_of_addable hadd
  exact .inr ⟨id, hadd, rfl⟩

theorem distinct (h : Grown url members₀ members) (hd : Distinct members₀) : Distinct members := by
  cases h with
  | inl h => exact h ▸ hd
  | inr h =>
    obtain ⟨id, hadd, rfl⟩ := h
    exact hd.add hadd

/-- The items to come to are the same for every list there is. -/
theorem desiredItems (h : Grown url members₀ members) :
    desiredItems name url members = Join.desiredItems name url members₀ := by
  cases h with
  | inl h => rw [h]
  | inr h =>
    obtain ⟨id, hadd, rfl⟩ := h
    have hothers : others url (members₀ ++ [unstarted id [url]]) = others url members₀ := by
      simp [others, unstarted]
    have hname : localName name url (members₀ ++ [unstarted id [url]]) = localName name url members₀ := by
      simp only [localName, hadd.memberForPeerURLs_add, hadd.memberForPeerURLs]
      rfl
    rw [Join.desiredItems, Join.desiredItems, hothers, hname]

theorem derives {initialCluster : String} (h : Grown url members₀ members) (hi : Derives name url members initialCluster) :
    Derives name url members₀ initialCluster := by
  unfold Derives at hi ⊢
  rw [← h.desiredItems]
  exact hi

end Grown

end Invariant

/-! ## One run -/

/-- The data directory is left alone if a list showed the local member as started. -/
def Spares (url : String) (log : Trace joinSig) : Prop :=
  (∃ members, (⟨.memberList, .ok members⟩ : Event joinSig) ∈ log ∧ ShowsStarted url members) →
    ∀ dir, (⟨.removeAll dir, ()⟩ : Event joinSig) ∉ log

/-- No list showed the local member as started. -/
def NotShown (url : String) (log : Trace joinSig) : Prop :=
  ∀ members, (⟨.memberList, .ok members⟩ : Event joinSig) ∈ log → ¬ ShowsStarted url members

theorem NotShown.spares {url : String} {log : Trace joinSig} (h : NotShown url log) : Spares url log := by
  intro hshown
  obtain ⟨members, hmem, hstarted⟩ := hshown
  exact absurd hstarted (h members hmem)

theorem NotShown.listed {url : String} {log : Trace joinSig} {members : List Member} (h : NotShown url log)
    (hnot : ¬ ShowsStarted url members) : NotShown url (log ++ [⟨.memberList, .ok members⟩]) := by
  intro members' hmem
  cases List.mem_append.1 hmem with
  | inl hmem => exact h members' hmem
  | inr hmem =>
    cases List.mem_singleton.1 hmem
    exact hnot

theorem NotShown.asked {url : String} {log : Trace joinSig} {e : Event joinSig} (h : NotShown url log)
    (he : e.req ≠ .memberList) : NotShown url (log ++ [e]) := by
  intro members hmem
  cases List.mem_append.1 hmem with
  | inl hmem => exact h members hmem
  | inr hmem =>
    cases List.mem_singleton.1 hmem
    exact absurd rfl he

section OneRun

variable {name url : String} {members₀ : List Member} {w w' : World}

/-- What holds all along a run. -/
def Safe (url : String) (members₀ : List Member) (w : World) : Prop := Grown url members₀ w.members ∧ Spares url w.log

/-- What holds once a list was seen that does not show the local member as started. -/
def Fresh (url : String) (members₀ : List Member) (w : World) : Prop := Grown url members₀ w.members ∧ NotShown url w.log

theorem Fresh.safe (h : Fresh url members₀ w) : Safe url members₀ w := ⟨h.1, h.2.spares⟩

/-- No request but `MemberList` ends that, if it is the local URL that is added. -/
theorem Fresh.answer {r : JoinReq} {x : r.Resp} (h : Fresh url members₀ w) (hlist : r ≠ .memberList)
    (hurls : ∀ peerURLs, r = .memberAdd peerURLs → peerURLs = [url]) (ha : Answers w r x w') : Fresh url members₀ w' := by
  cases ha with
  | memberList => exact absurd rfl hlist
  | memberListFails err => exact absurd rfl hlist
  | clientForEndpoint | removeAll | sleep | memberAddFails => exact ⟨h.1, h.2.asked hlist⟩
  | memberAdd hadd =>
    cases hurls _ rfl
    exact ⟨h.1.add hadd, h.2.asked hlist⟩
  | replyLost err hadd =>
    cases hurls _ rfl
    exact ⟨h.1.add hadd, h.2.asked hlist⟩

/-- The reply of `MemberAdd` shows the new member in a list that has grown by it. -/
def Replies (url : String) (members₀ : List Member) (r : Except Error (Member × List Member)) : Prop :=
  ∀ added, r = .ok added → Grown url members₀ added.2 ∧ memberForPeerURLs added.2 [url] = some added.1 ∧
    started added.1 = false

theorem replies_of_answers {x : Except Error (Member × List Member)} (h : Grown url members₀ w.members)
    (ha : Answers w (.memberAdd [url]) x w') : Replies url members₀ x := by
  intro added hx
  cases ha with
  | memberAddFails _ err => cases hx
  | replyLost err hadd => cases hx
  | memberAdd hadd =>
    cases hx
    exact ⟨h.add hadd, hadd.memberForPeerURLs_add, rfl⟩

theorem addMember_always : ∀ (steps : Nat) (lastErr : Error) {w : World}, Fresh url members₀ w →
    (addMember [url] steps lastErr).Always Answers (Fresh url members₀)
      (fun w r => Fresh url members₀ w ∧ Replies url members₀ r) w
  | 0, lastErr, w, h => ⟨h, fun added hadded => by cases hadded⟩
  | steps + 1, lastErr, w, h => by
    intro x w₁ ha
    have h₁ : Fresh url members₀ w₁ := h.answer (by simp) (by simp) ha
    refine ⟨h₁, ?_⟩
    cases x with
    | ok added => exact ⟨h₁, replies_of_answers h.1 ha⟩
    | error err =>
      show (if steps = 0 then _ else _ : JoinM (Except Error (Member × List Member))).Always _ _ _ _
      split
      · exact ⟨h₁, fun added hadded => by cases hadded⟩
      · intro y w₂ hsleep
        have h₂ : Fresh url members₀ w₂ := h₁.answer (by simp) (by simp) hsleep
        exact ⟨h₂, addMember_always steps err h₂⟩

variable {cfg : JoinConfig} {members : List Member} {m : Member}

theorem deriveInitialCluster_always (hd : Distinct members₀) (hname : cfg.name = name)
    (hurls : cfg.initialAdvertisePeerURLs = [url]) (hgrown : Grown url members₀ members)
    (hfound : memberForPeerURLs members [url] = some m)
    (hfresh : started m = false → Fresh url members₀ w) :
    (deriveInitialCluster cfg m members).Always Answers (Safe url members₀)
      (fun _ cfg' => Derives name url members₀ cfg'.initialCluster) w := by
  subst hname
  have hdm := hgrown.distinct hd
  unfold deriveInitialCluster
  cases hm : started m with
  | true => exact hgrown.derives (derives_started hdm hfound hm)
  | false =>
    intro x w₁ ha
    have h₁ : Fresh url members₀ w₁ := (hfresh hm).answer (by simp) (by simp) ha
    refine ⟨h₁.safe, hgrown.derives ?_⟩
    show Derives cfg.name url members (initialClusterFromMembers (members.filter (fun m' => m'.id ≠ m.id) ++
      [{ m with name := cfg.name, peerURLs := cfg.initialAdvertisePeerURLs }]))
    rw [hurls]
    exact derives_unstarted hdm hfound hm

theorem joinMembers_always (hd : Distinct members₀) (hname : cfg.name = name)
    (hurls : cfg.initialAdvertisePeerURLs = [url]) (hgrown : Grown url members₀ members)
    (hfresh : ¬ ShowsStarted url members → Fresh url members₀ w) :
    (joinMembers cfg members).Always Answers (Safe url members₀)
      (fun _ r => ∀ cfg', r = .ok cfg' → Derives name url members₀ cfg'.initialCluster) w := by
  unfold joinMembers
  rw [hurls]
  cases hfound : memberForPeerURLs members [url] with
  | some m =>
    have hnot (hm : started m = false) : ¬ ShowsStarted url members := by simp [ShowsStarted, hfound, hm]
    refine Prog.Always.bind ((deriveInitialCluster_always hd hname hurls hgrown hfound fun hm => hfresh (hnot hm)).mono
      fun w₁ cfg₁ hcfg₁ cfg' hcfg' => ?_)
    cases hcfg'
    exact hcfg₁
  | none =>
    intro x w₁ ha
    have h₁ : Fresh url members₀ w₁ := (hfresh (by simp [ShowsStarted, hfound])).answer (by simp) (by simp) ha
    refine ⟨h₁.safe, ?_⟩
    show (addMember [url] _ _ >>= _).Always _ _ _ _
    refine Prog.Always.bind ?_
    refine ((addMember_always _ _ h₁).weaken fun _ h => h.safe).mono fun w₂ r hr => ?_
    obtain ⟨h₂, hreplies⟩ := hr
    cases r with
    | error err => exact fun cfg' hcfg' => by cases hcfg'
    | ok added =>
      obtain ⟨hadded, hlocal, -⟩ := hreplies added rfl
      refine Prog.Always.bind ((deriveInitialCluster_always hd hname hurls hadded hlocal fun _ => h₂).mono
        fun w₃ cfg₃ hcfg₃ cfg' hcfg' => ?_)
      cases hcfg'
      exact hcfg₃

theorem membership_always (hd : Distinct members₀) (hname : cfg.name = name)
    (hurls : cfg.initialAdvertisePeerURLs = [url]) (hgrown : Grown url members₀ members) :
    (membership cfg).Always Answers (Safe url members₀)
      (fun _ r => cfg.initialCluster = "" → ∀ cfg', r = .ok cfg' → Derives name url members₀ cfg'.initialCluster)
      ⟨members, []⟩ := by
  unfold membership
  by_cases hcluster : cfg.initialCluster ≠ ""
  · rw [if_pos hcluster]
    exact fun h => absurd h hcluster
  · rw [if_neg hcluster]
    intro x w₁ ha
    cases ha
    have hfresh : Fresh url members₀ ⟨members, []⟩ := ⟨hgrown, fun _ hmem => by cases hmem⟩
    have h₁ := hfresh.answer (by simp) (by simp) (.clientForEndpoint cfg.endpoint x)
    refine ⟨h₁.safe, ?_⟩
    cases x with
    | error err => exact fun _ cfg' hcfg' => by cases hcfg'
    | ok _ =>
      intro y w₂ hlist
      -- nothing was removed before the list is seen
      cases hlist with
      | memberListFails err =>
        exact ⟨⟨hgrown, by simp [Spares, World.asked]⟩, fun _ cfg' hcfg' => by cases hcfg'⟩
      | memberList =>
        refine ⟨⟨hgrown, by simp [Spares, World.asked]⟩, ?_⟩
        refine (joinMembers_always hd hname hurls hgrown fun hnot => ?_).mono fun _ _ h _ => h
        exact ⟨hgrown, h₁.2.listed hnot⟩

/-- What a run comes to, wherever it is cut. -/
theorem goes_membership {run : Run} (hd : Distinct members₀) (hname : run.cfg.name = name)
    (hurls : run.cfg.initialAdvertisePeerURLs = [url]) (hgrown : Grown url members₀ members)
    (h : Prog.Goes Answers ⟨members, []⟩ (membership run.cfg) run.rest w) :
    Safe url members₀ w ∧ ∀ cfg', run.cfg.initialCluster = "" → run.rest = .ret (.ok cfg') →
      Derives name url members₀ cfg'.initialCluster := by
  have hstart : Safe url members₀ ⟨members, []⟩ := ⟨hgrown, by simp [Spares]⟩
  obtain ⟨hsafe, hrest⟩ := Prog.Always.goes h (membership_always hd hname hurls hgrown) hstart
  refine ⟨hsafe, fun cfg' hempty hret => ?_⟩
  rw [hret] at hrest
  exact hrest hempty cfg' rfl

end OneRun

/-! ## Any number of runs -/

theorem Reruns.grown {name url : String} {members₀ members : List Member} {runs : List Run} (hd : Distinct members₀)
    (h : Reruns name url members₀ runs members) : Grown url members₀ members := by
  induction h with
  | nil => exact .inl rfl
  | snoc _ hname hurls hgoes ih => exact (goes_membership hd hname hurls ih hgoes).1.1

/-- Join is safe to run again: at most one member is added by all runs, every run
that succeeds comes to the same items, and no run removes the data directory
that was shown the local member as started. -/
theorem join_reruns_safely {name url : String} {members₀ members : List Member} {runs : List Run}
    (hd : Distinct members₀) (h : Reruns name url members₀ runs members) :
    (members₀ <+: members ∧ members.length ≤ members₀.length + 1) ∧
    ∀ run ∈ runs, Spares url run.log ∧ ∀ cfg', run.cfg.initialCluster = "" → run.rest = .ret (.ok cfg') →
      ∃ items, cfg'.initialCluster = join ',' items ∧ items.Perm (desiredItems name url members₀) := by
  constructor
  · cases h.grown hd with
    | inl heq => simp [heq]
    | inr hadded =>
      obtain ⟨id, -, rfl⟩ := hadded
      simp
  · induction h with
    | nil => simp
    | snoc hruns hname hurls hgoes ih =>
      intro run hrun
      cases List.mem_append.1 hrun with
      | inl hrun => exact ih run hrun
      | inr hrun =>
        cases List.mem_singleton.1 hrun
        obtain ⟨hsafe, hderives⟩ := goes_membership hd hname hurls (hruns.grown hd) hgoes
        exact ⟨hsafe.2, hderives⟩

namespace Example

def cfg : JoinConfig := ⟨"b", "http://a:2379", "/var/lib/etcd", ["http://b:2380"], true, ""⟩

def first : List Member := [⟨1, "a", ["http://a:2380"], ["http://a:2379"]⟩]

/-- `b` was added, and nobody was told. -/
def added : List Member := first ++ [unstarted 2 ["http://b:2380"]]

def lostLog : Trace joinSig :=
  [⟨.clientForEndpoint "http://a:2379", .ok ()⟩, ⟨.memberList, .ok first⟩, ⟨.removeAll "/var/lib/etcd", ()⟩,
    ⟨.memberAdd ["http://b:2380"], .error "context deadline exceeded"⟩]

def nextLog : Trace joinSig :=
  [⟨.clientForEndpoint "http://a:2379", .ok ()⟩, ⟨.memberList, .ok added⟩, ⟨.removeAll "/var/lib/etcd", ()⟩]

def joined : JoinConfig := { cfg with initialCluster := "a=http://a:2380,b=http://b:2380" }

theorem first_distinct : Distinct first := ⟨by decide, by decide⟩

theorem b_addable : Addable first (unstarted 2 ["http://b:2380"]) := by
  simp [Addable, first, unstarted]

/-- A run whose `MemberAdd` is not answered, and which is cut then. -/
theorem goes_lost : ∃ rest, Prog.Goes Answers ⟨first, []⟩ (membership cfg) rest ⟨added, lostLog⟩ :=
  ⟨_, .call (.clientForEndpoint _ (.ok ())) (.call .memberList (.call (.removeAll _)
    (.call (.replyLost "context deadline exceeded" b_addable) .refl)))⟩

theorem goes_next : Prog.Goes Answers ⟨added, []⟩ (membership cfg) (.ret (.ok joined)) ⟨added, nextLog⟩ :=
  .call (.clientForEndpoint _ (.ok ())) (.call .memberList (.call (.removeAll _) .refl))

/-- The same machine in a cluster that knows its URL as the member `a`. -/
def renamed : List Member := [⟨1, "a", ["http://b:2380"], ["http://b:2379"]⟩]

def renamedLog : Trace joinSig := [⟨.clientForEndpoint "http://a:2379", .ok ()⟩, ⟨.memberList, .ok renamed⟩]

theorem goes_renamed : Prog.Goes Answers ⟨renamed, []⟩ (membership cfg)
    (.ret (.ok { cfg with initialCluster := "a=http://b:2380" })) ⟨renamed, renamedLog⟩ :=
  .call (.clientForEndpoint _ (.ok ())) (.call .memberList .refl)

end Example

theorem join_after_lost_reply : ∃ rest, Reruns "b" "http://b:2380" Example.first
    [⟨Example.cfg, Example.lostLog, rest⟩, ⟨Example.cfg, Example.nextLog, .ret (.ok Example.joined)⟩] Example.added ∧
    Example.added.length ≤ Example.first.length + 1 ∧ ∃ items, Example.joined.initialCluster = join ',' items ∧
      items.Perm ["a=http://a:2380", "b=http://b:2380"] := by
  obtain ⟨rest, hlost⟩ := Example.goes_lost
  have hone : Reruns "b" "http://b:2380" Example.first ([] ++ [⟨Example.cfg, Example.lostLog, rest⟩]) Example.added :=
    .snoc .nil rfl rfl hlost
  have htwo : Reruns "b" "http://b:2380" Example.first ([⟨Example.cfg, Example.lostLog, rest⟩] ++
      [⟨Example.cfg, Example.nextLog, .ret (.ok Example.joined)⟩]) Example.added :=
    .snoc hone rfl rfl Example.goes_next
  obtain ⟨hmembers, hsafe⟩ := join_reruns_safely Example.first_distinct htwo
  exact ⟨rest, htwo, hmembers.2, (hsafe _ (List.mem_append_right _ List.mem_cons_self)).2 Example.joined rfl rfl⟩

/-- A member that was started under another name keeps it: there is no item for
the configured one. -/
theorem started_name_kept : Distinct Example.renamed ∧ ∃ run cfg',
    Reruns "b" "http://b:2380" Example.renamed [run] Example.renamed ∧ run.rest = .ret (.ok cfg') ∧
    ¬ ∃ items, cfg'.initialCluster = join ',' items ∧
      items.Perm ((others "http://b:2380" Example.renamed).flatMap itemsOf ++ ["b=http://b:2380"]) := by
  have hruns : Reruns "b" "http://b:2380" Example.renamed ([] ++ [⟨Example.cfg, Example.renamedLog, _⟩]) Example.renamed :=
    .snoc .nil rfl rfl Example.goes_renamed
  refine ⟨⟨by decide, by decide⟩, _, _, hruns, rfl, ?_⟩
  intro hitems
  obtain ⟨items, heq, hperm⟩ := hitems
  have hothers : (others "http://b:2380" Example.renamed).flatMap itemsOf = [] := by decide
  rw [hothers, List.nil_append, List.perm_singleton] at hperm
  rw [hperm] at heq
  revert heq
  decide +kernel

end Etcdadm.Join
