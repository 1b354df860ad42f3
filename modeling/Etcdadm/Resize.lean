/-
When the controller removes a healthy member from a cluster that is not too
large.

Whether a member is removed is decided by comparing the peers that have a
cluster with the spec, not the members. A node whose member was removed keeps
its cluster until it is told to stop, and nobody tells it. So the count stays
where it was while the cluster shrinks, and removals go on: down to the spec,
which was wanted, and one further, at which point the cluster is too small.

`Overcounts` says exactly when the one removal too many happens. Where it does
not, lowering the spec to `N` leaves `N` members.
-/
import Etcdadm.Upkeep
import Etcdadm.Sight

namespace Etcdadm

open EtcdController ClusterState

variable {m : EtcdController} {l : LeadershipState} {cs : ClusterState} {spec : ClusterSpec} {acked : Nat}

namespace ClusterState

/-- The member is one of the healthy ones. -/
def Healthy (cs : ClusterState) (member : EtcdProcessMember) : Prop :=
  ∃ id, cs.healthyMembers.lookup id = some member

/-- There is a healthy member whose peer is known, to make a backup. -/
def CanBackup (cs : ClusterState) : Prop :=
  ∃ id member, cs.healthyMembers.lookup id = some member ∧ (cs.findPeer member).isSome = true

/-- The cluster has the size it should have, all its members are healthy, but
more peers than that have a cluster, and nothing else holds a removal up: the
acknowledgements suffice, the quarantine needs no change, and a backup can be
made. -/
structure Overcounts (acked : Nat) (cs : ClusterState) (spec : ClusterSpec) : Prop where
  full : (cs.members.size : Int) = spec.memberCount
  allHealthy : cs.healthyMembers.size = cs.members.size
  configured : spec.memberCount < cs.configuredMembers
  ackedQuorum : quorumSize cs.configuredMembers ≤ acked
  settled : cs.verdict acked spec = .pass
  canBackup : cs.CanBackup

end ClusterState

/-! ## What the steps of a removal return -/

theorem returns_pickUnhealthy {removeHealthy : Bool} {now : Time} :
    ∀ members : List (EtcdMemberId × EtcdProcessMember),
      (m.pickUnhealthy cs removeHealthy now members).Returns fun r =>
        (∀ victim, r = some victim → ∃ id, (id, victim) ∈ members ∧ cs.healthyMembers.lookup id = none) ∧
        (removeHealthy = true → r = none → ∀ e ∈ members, (cs.healthyMembers.lookup e.1).isSome)
  | [] => ⟨nofun, fun _ _ _ he => nomatch he⟩
  | (id, member) :: rest => by
    have later (hid : removeHealthy = true → (cs.healthyMembers.lookup id).isSome) :
        (m.pickUnhealthy cs removeHealthy now rest).Returns fun r =>
          (∀ victim, r = some victim → ∃ id', (id', victim) ∈ (id, member) :: rest ∧
            cs.healthyMembers.lookup id' = none) ∧
          (removeHealthy = true → r = none → ∀ e ∈ (id, member) :: rest, (cs.healthyMembers.lookup e.1).isSome) := by
      refine (returns_pickUnhealthy rest).mono fun r hr => ⟨fun victim hv => ?_, fun hrem hnone => ?_⟩
      · obtain ⟨id', hmem, hno⟩ := hr.1 victim hv
        exact ⟨id', List.mem_cons_of_mem _ hmem, hno⟩
      · exact List.forall_mem_cons.2 ⟨hid hrem, hr.2 hrem hnone⟩
    have here (hid : ¬ (cs.healthyMembers.lookup id).isSome) :
        (∀ victim, some member = some victim → ∃ id', (id', victim) ∈ (id, member) :: rest ∧
          cs.healthyMembers.lookup id' = none) ∧
        (removeHealthy = true → some member = none → ∀ e ∈ (id, member) :: rest,
          (cs.healthyMembers.lookup e.1).isSome) := by
      refine ⟨fun victim hv => ⟨id, ?_, Option.not_isSome_iff_eq_none.1 hid⟩, fun _ h => nomatch h⟩
      cases hv
      exact List.mem_cons_self
    unfold pickUnhealthy
    split
    next hid => exact later fun _ => hid
    next hid =>
    split
    · exact here hid
    next hrem =>
    split
    · trivial
    split
    · exact later fun h => (hrem h).elim
    · exact here hid

/-- A healthy member that stands under its own id cannot also be an unhealthy
one. -/
theorem ClusterState.Consistent.not_healthy (hc : cs.Consistent) {id : EtcdMemberId} {member : EtcdProcessMember}
    (hm : cs.members.lookup id = some member) (hno : cs.healthyMembers.lookup id = none) : ¬ cs.Healthy member := by
  rintro ⟨id', h⟩
  have hid : id' = id := (hc.member_id id' member (hc.healthy id' member h)).symm.trans (hc.member_id id member hm)
  rw [hid, hno] at h
  cases h

/-- The victim is a member; a healthy one is taken only if all are healthy. -/
theorem returns_pickVictim (hc : cs.Consistent) {removeHealthy : Bool} :
    (m.pickVictim cs removeHealthy).Returns fun r => ∀ victim, r = some victim →
      (∃ id, cs.members.lookup id = some victim) ∧
      (cs.Healthy victim → removeHealthy = true → cs.members.size ≤ cs.healthyMembers.size) := by
  -- the unhealthy victim, if one was looked for
  have hunhealthy (now : Time) : (m.unhealthyVictim cs removeHealthy now).Returns fun r =>
      (∀ victim, r = some victim → (∃ id, cs.members.lookup id = some victim) ∧ ¬ cs.Healthy victim) ∧
      (removeHealthy = true → r = none → cs.members.size ≤ cs.healthyMembers.size) := by
    unfold unhealthyVictim
    split
    · refine Returns.range fun members hperm => (returns_pickUnhealthy members).mono fun r hr => ⟨?_, ?_⟩
      · intro victim hv
        obtain ⟨id, hmem, hno⟩ := hr.1 victim hv
        have hm : cs.members.lookup id = some victim := GoMap.mem_pairs.1 (hperm.mem_iff.1 hmem)
        exact ⟨⟨id, hm⟩, hc.not_healthy hm hno⟩
      · intro hrem hnone
        refine GoMap.size_le fun id hid => ?_
        obtain ⟨member, hm⟩ := Option.isSome_iff_exists.1 hid
        exact hr.2 hrem hnone (id, member) (hperm.mem_iff.2 (GoMap.mem_pairs.2 hm))
    next hlt => exact ⟨nofun, fun _ _ => Nat.not_lt.1 hlt⟩
  refine Returns.ctl fun now => .bind (hunhealthy now) fun r hr => ?_
  split
  · intro victim hv
    obtain ⟨hm, hno⟩ := hr.1 victim hv
    exact ⟨hm, fun h => (hno h).elim⟩
  next hno =>
  rw [not_or] at hno
  have hnone : r = none := Option.not_isSome_iff_eq_none.1 hno.1
  refine Returns.range fun members hperm victim hv => ⟨?_, fun _ hrem => hr.2 hrem hnone⟩
  obtain ⟨e, he, rfl⟩ := Option.map_eq_some_iff.1 hv
  exact ⟨e.1, GoMap.mem_pairs.1 (hperm.mem_iff.1 (List.mem_of_head? he))⟩

theorem returns_backupVia : ∀ members : List (EtcdMemberId × EtcdProcessMember),
    (m.backupVia l spec cs members).Returns fun r => ∀ response, r = .ok response →
      ∃ e ∈ members, (cs.findPeer e.2).isSome = true
  | [] => fun _ h => nomatch h
  | (id, member) :: rest => by
    have later : (m.backupVia l spec cs rest).Returns fun r => ∀ response, r = .ok response →
        ∃ e ∈ (id, member) :: rest, (cs.findPeer e.2).isSome = true := by
      refine (returns_backupVia rest).mono fun r hr response h => ?_
      obtain ⟨e, he, hpeer⟩ := hr response h
      exact ⟨e, List.mem_cons_of_mem _ he, hpeer⟩
    unfold backupVia
    split
    · exact later
    next peer hpeer =>
    refine Returns.ctl ?_
    rintro (err | response)
    · exact later
    · intro _ _
      exact ⟨(id, member), List.mem_cons_self, by rw [hpeer]; rfl⟩

theorem returns_doClusterBackup : (m.doClusterBackup l spec cs).Returns fun r => ∀ response, r = .ok response →
    cs.CanBackup := by
  refine Returns.range fun members hperm => (returns_backupVia members).mono fun r hr response h => ?_
  obtain ⟨e, he, hpeer⟩ := hr response h
  exact ⟨e.1, e.2, GoMap.mem_pairs.1 (hperm.mem_iff.1 he), hpeer⟩

/-! ## The condition suffices -/

/-- What a removal has to be entitled by: the victim is a member, the only one
of the iteration, and if it is healthy, the cluster is larger than its spec. -/
structure Entitled (s : Sight) (victim : EtcdProcessMember) : Prop where
  reconciling : s.reconciling = true
  consistent : s.clusterState.Consistent
  member : ∃ id, s.clusterState.members.lookup id = some victim
  only : s.victim = none ∨ s.victim = some victim
  surplus : s.clusterState.Healthy victim → s.clusterSpec.memberCount < s.clusterState.members.size

def removalMust (s : Sight) (r : CtlReq) : Prop := ∀ urls victim, r = .removeMember urls victim → Entitled s victim

theorem removalMust_of_kind {kinds : List Kind} (hk : .removeMember ∉ kinds) (s : Sight) (r : CtlReq)
    (hr : r.kind ∈ kinds) : removalMust s r := by
  intro urls victim he
  rw [he] at hr
  exact (hk hr).elim

section

variable {may : Sight → (r : CtlReq) → r.Resp → Prop} {s : Sight}

/-- A step without removals, whatever it sees. -/
theorem wp_removal_of_uses {α : Type} {kinds : List Kind} {p : CtlM α} (hp : p.Uses (OfKind kinds) True)
    (hk : .removeMember ∉ kinds) : (sight may removalMust).wp p s fun _ _ => True :=
  Monitor.wp_of_uses (I := fun _ => True) (fun s r _ hr => ⟨removalMust_of_kind hk s r hr, fun _ _ => trivial⟩)
    (fun _ _ _ _ => trivial) hp trivial

theorem wp_removeMemberVia {victim : EtcdProcessMember} : ∀ (members : List (EtcdMemberId × EtcdProcessMember))
    {s : Sight}, Entitled s victim → (sight may removalMust).wp (cs.removeMemberVia victim members) s fun _ _ => True
  | [], _, _ => trivial
  | (_, member) :: rest, s, h => by
    refine Monitor.wp_bind.2 (wp_sight_of_uses ((@uses_clientURLs ⟨"", []⟩ cs member _).kinds (List.Subset.refl _))
      (by simp [Sight.kinds]) (removalMust_of_kind (by simp)) (.trivially _) fun urls _ => ?_)
    refine Monitor.wp_ctl.2 ⟨?_, ?_⟩
    · intro _ _ he
      cases he
      exact h
    · rintro (err | ⟨⟩) -
      · -- the next member is asked, for the same victim
        exact wp_removeMemberVia rest ⟨h.reconciling, h.consistent, h.member, .inr rfl, h.surplus⟩
      · trivial

/-- The iteration stands in the upkeep of this cluster. -/
structure Upkeep (cs : ClusterState) (spec : ClusterSpec) (s : Sight) : Prop where
  clusterState : s.clusterState = cs
  clusterSpec : s.clusterSpec = spec
  reconciling : s.reconciling = true
  victim : s.victim = none

theorem wp_removeNodeFromCluster {removeHealthy : Bool} (hs : Upkeep cs spec s) (hc : cs.Consistent)
    (hgo : (removeHealthy = true → cs.members.size ≤ cs.healthyMembers.size) → cs.CanBackup →
      spec.memberCount < cs.members.size) :
    (sight may removalMust).wp (m.removeNodeFromCluster l spec cs removeHealthy) s fun _ _ => True := by
  refine Monitor.wp_bind.2 (wp_sight_of_uses ((@uses_pickVictim m l cs removeHealthy).kinds (List.Subset.refl _))
    (by simp [Sight.kinds]) (removalMust_of_kind (by simp)) (returns_pickVictim hc) fun victim hvictim => ?_)
  cases victim with
  | none =>
    dsimp only
    split <;> trivial
  | some victim =>
  obtain ⟨hmember, hhealthy⟩ := hvictim victim rfl
  refine Monitor.wp_bind.2 (wp_sight_of_uses (uses_doClusterBackup.kinds (List.Subset.refl _)) (by simp [Sight.kinds])
    (removalMust_of_kind (by simp)) returns_doClusterBackup fun r hr => ?_)
  cases r with
  | error err => trivial
  | ok response =>
  have hentitled : Entitled s victim := by
    refine ⟨hs.reconciling, hs.clusterState ▸ hc, hs.clusterState ▸ hmember, .inl hs.victim, fun h => ?_⟩
    rw [hs.clusterState] at h ⊢
    rw [hs.clusterSpec]
    exact hgo (hhealthy h) (hr response rfl)
  refine Monitor.wp_bind.2 (Monitor.wp_range.2 ⟨fun _ _ he => (by cases he), fun ks _ => Monitor.wp_mono ?_ (wp_removeMemberVia _ hentitled)⟩)
  intro s' err _
  cases err <;> trivial

theorem wp_replaceUnhealthy (hs : Upkeep cs spec s) (hc : cs.Consistent) :
    (sight may removalMust).wp (m.replaceUnhealthy l acked cs spec) s fun _ _ => True := by
  unfold replaceUnhealthy
  split
  · refine Monitor.wp_bind.2 (wp_sight_of_uses ((@uses_idlePeers l cs _).kinds (List.Subset.refl _))
      (by simp [Sight.kinds]) (removalMust_of_kind (by simp)) (.trivially _) fun idle _ => ?_)
    split
    · trivial
    split
    · trivial
    split
    · trivial
    next hmore =>
    split
    · trivial
    · refine Monitor.wp_bind.2 (Monitor.wp_mono (fun _ _ _ => trivial) (wp_removeNodeFromCluster hs hc fun _ _ => ?_))
      exact Int.not_le.1 hmore
  · trivial

theorem wp_resize (hs : Upkeep cs spec s) (hc : cs.Consistent) (hpass : cs.verdict acked spec = .pass)
    (hno : ¬ cs.Overcounts acked spec) :
    (sight may removalMust).wp (m.resize l acked cs spec) s fun _ _ => True := by
  unfold resize
  split
  · split
    · exact Monitor.wp_bind.2 (Monitor.wp_mono (fun _ _ _ => trivial)
        (wp_removal_of_uses ((@uses_refreshControlStore l m 0).kinds (List.Subset.refl _)) (by simp)))
    · split
      · exact Monitor.wp_bind.2 (Monitor.wp_mono (fun _ _ _ => trivial)
          (wp_removal_of_uses (uses_addNodeToCluster.kinds (List.Subset.refl _)) (by simp)))
      · trivial
  next hsize =>
  split
  · trivial
  split
  next hconf =>
    split
    next hacked =>
      refine Monitor.wp_bind.2 (Monitor.wp_mono (fun _ _ _ => trivial) (wp_removeNodeFromCluster hs hc ?_))
      intro hall hbackup
      by_contra hle
      have hfull : (cs.members.size : Int) = spec.memberCount := by omega
      have hhealthy := Nat.le_antisymm hc.healthy_le (hall rfl)
      exact hno ⟨hfull, hhealthy, hconf, hacked, hpass, hbackup⟩
    · trivial
  · exact Monitor.wp_bind.2 (Monitor.wp_mono (fun _ _ _ => trivial) (wp_replaceUnhealthy hs hc))

theorem wp_maintain_removal (hs : Upkeep cs spec s) (hc : cs.Consistent) (hno : ¬ cs.Overcounts acked spec) :
    (sight may removalMust).wp (m.maintain l acked cs spec) s fun _ _ => True := by
  refine wp_maintain (I := Upkeep cs spec) (K := fun _ => True) hs (fun _ _ => trivial) ?_ (fun _ _ _ _ _ => trivial) ?_ ?_ ?_
  · intro s r hs hr
    refine ⟨removalMust_of_kind (by simp) s r hr.1, fun x _ => ?_⟩
    show Upkeep cs spec (s.next r x)
    rwa [Sight.next_eq_of_disjoint hr.1 (by simp [Sight.kinds])]
  · intro s m' hs _
    exact wp_sight_of_uses (uses_checkQuarantine.kinds (List.Subset.refl _)) (by simp [Sight.kinds])
      (removalMust_of_kind (by simp)) (.trivially _) fun _ _ => ⟨fun _ _ => trivial, fun _ => hs⟩
  · intro s m' hs _ hpass
    exact Monitor.wp_mono (fun _ _ _ => ⟨fun _ _ => trivial, fun _ => trivial⟩) (wp_resize hs hc hpass hno)
  · intro s m' _ _ _ _
    exact wp_removal_of_uses (uses_settle.kinds (List.Subset.refl _)) (by simp)

/-- During the upkeep, no other cluster comes into sight. -/
theorem upkeep_after {s : Sight} {tr : Trace ctlSig} (h : ∀ e ∈ tr, e.req.kind ∈ maintainKinds) :
    ((sight may removalMust).after s tr).clusterState = s.clusterState ∧
      ((sight may removalMust).after s tr).clusterSpec = s.clusterSpec := by
  induction tr generalizing s with
  | nil => exact ⟨rfl, rfl⟩
  | cons e tr ih =>
    obtain ⟨he, htr⟩ := List.forall_mem_cons.1 h
    obtain ⟨hcs, hspec⟩ := @ih (s.next e.req e.resp) htr
    have hstep : (s.next e.req e.resp).clusterState = s.clusterState ∧
        (s.next e.req e.resp).clusterSpec = s.clusterSpec := by
      obtain ⟨r, x⟩ := e
      cases r <;> first | exact ⟨rfl, rfl⟩ | simp [CtlReq.kind, maintainKinds] at he
    exact ⟨hcs.trans hstep.1, hspec.trans hstep.2⟩

end

/-! ## The condition is needed -/

theorem clientURLs_runs {member : EtcdProcessMember} : ∃ tr urls, Runs (cs.clientURLs member) tr (.ret urls) := by
  have hrange {f : List (PeerId × ClusterPeerInfo) → CtlM (List String)}
      (hf : ∃ urls, f (cs.peers.inOrder cs.peers.keys) = .ret urls) : ∃ tr urls, Runs (range cs.peers >>= f) tr (.ret urls) := by
    obtain ⟨urls, hf⟩ := hf
    have hrun : Runs (f (cs.peers.inOrder cs.peers.keys)) [] (.ret urls) := by rw [hf]; exact .refl
    exact ⟨_, urls, .range (.refl _) hrun⟩
  refine hrange ?_
  split
  · exact ⟨_, rfl⟩
  · split
    · exact ⟨_, rfl⟩
    · split <;> exact ⟨_, rfl⟩

/-- Whatever the order, the first member with a peer makes the backup. -/
theorem backupVia_runs : ∀ members : List (EtcdMemberId × EtcdProcessMember),
    (∃ e ∈ members, (cs.findPeer e.2).isSome = true) →
    ∃ tr response, Runs (m.backupVia l spec cs members) tr (.ret (.ok response))
  | [], h => by simp at h
  | (id, member) :: rest, h => by
    unfold backupVia
    split
    next hnone =>
      obtain ⟨e, he, hpeer⟩ := h
      refine backupVia_runs rest ⟨e, (List.mem_cons.1 he).resolve_left ?_, hpeer⟩
      rintro rfl
      rw [hnone] at hpeer
      cases hpeer
    · exact ⟨[⟨.doBackup _ _, .ok ⟨"backup"⟩⟩], _, .step .refl⟩

theorem doClusterBackup_runs (h : cs.CanBackup) :
    ∃ tr response, Runs (m.doClusterBackup l spec cs) tr (.ret (.ok response)) := by
  obtain ⟨id, member, hm, hpeer⟩ := h
  have hmem : (id, member) ∈ cs.healthyMembers.inOrder cs.healthyMembers.keys := (GoMap.mem_inOrder (.refl _)).2 hm
  obtain ⟨tr, response, hrun⟩ := @backupVia_runs m l cs spec _ ⟨_, hmem, hpeer⟩
  exact ⟨_, response, .range (.refl _) hrun⟩

/-- The request that ought not to be made. -/
def CtlReq.RemovesHealthy (cs : ClusterState) (r : CtlReq) : Prop :=
  ∃ urls victim, r = .removeMember urls victim ∧ cs.Healthy victim

/-- Once a victim is picked, nothing keeps it from being removed if a backup can
be made. -/
theorem removeNodeFromCluster_runs (hc : cs.Consistent) (hbackup : cs.CanBackup) {removeHealthy : Bool}
    {tr : Trace ctlSig} {victim : EtcdProcessMember}
    (hvictim : Runs (m.pickVictim cs removeHealthy) tr (.ret (some victim))) : ∃ tr' urls,
      Runs (m.removeNodeFromCluster l spec cs removeHealthy) (tr ++ (tr' ++ [⟨.removeMember urls victim, .ok ()⟩]))
        (.ret (true, none)) := by
  obtain ⟨e, rest, hfirst⟩ : ∃ e rest, cs.members.inOrder cs.members.keys = e :: rest := by
    obtain ⟨id, member, hm, -⟩ := hbackup
    exact List.exists_cons_of_length_pos (List.length_pos_of_mem ((GoMap.mem_inOrder (.refl _)).2 (hc.healthy id member hm)))
  obtain ⟨trb, response, hrun⟩ := @doClusterBackup_runs m l cs spec hbackup
  obtain ⟨tru, urls, hurls⟩ := @clientURLs_runs cs e.2
  have hremove : Runs (cs.etcdRemoveMember victim) (⟨.rangeOver cs.members.keys, ⟨_, .refl _⟩⟩ ::
      (tru ++ [⟨.removeMember urls victim, .ok ()⟩])) (.ret none) := by
    refine .range (.refl _) ?_
    rw [hfirst]
    exact (hurls.bind _).trans (.step .refl)
  have hall : Runs (m.removeNodeFromCluster l spec cs removeHealthy) (tr ++ (trb ++
      (⟨.rangeOver cs.members.keys, ⟨_, .refl _⟩⟩ :: (tru ++ [⟨.removeMember urls victim, .ok ()⟩]) ++ [])))
        (.ret (true, none)) := hvictim.andThen (hrun.andThen (hremove.andThen .refl))
  refine ⟨trb ++ ⟨.rangeOver cs.members.keys, ⟨_, .refl _⟩⟩ :: tru, urls, ?_⟩
  simpa using hall

/-- With every member healthy, the first in line is removed. -/
theorem removeNodeFromCluster_removes (hc : cs.Consistent) (hall : cs.healthyMembers.size = cs.members.size)
    (hbackup : cs.CanBackup) :
    (m.removeNodeFromCluster l spec cs true).Reaches (fun _ => False) (CtlReq.RemovesHealthy cs) := by
  obtain ⟨id, member, hhealthy, -⟩ := id hbackup
  obtain ⟨ks, rest, hks, horder⟩ := GoMap.exists_inOrder_cons (hc.healthy id member hhealthy)
  have hvictim : Runs (m.pickVictim cs true) [⟨.now, 0⟩, ⟨.rangeOver cs.members.keys, ⟨ks, hks⟩⟩]
      (.ret (some member)) := by
    refine .ctl ?_
    unfold unhealthyVictim
    rw [if_neg (by omega)]
    refine .range hks ?_
    rw [horder]
    exact .refl
  obtain ⟨tr, urls, hrun⟩ := @removeNodeFromCluster_runs m l cs spec hc hbackup true _ member hvictim
  exact ⟨_, _, hrun, ⟨⟨.removeMember urls member, .ok ()⟩, by simp, urls, member, rfl, id, hhealthy⟩, fun _ _ h => h⟩

theorem maintain_removes (hc : cs.Consistent) (h : cs.Overcounts acked spec) :
    (m.maintain l acked cs spec).Reaches (fun _ => False) (CtlReq.RemovesHealthy cs) := by
  have hne : cs.members.size ≠ 0 := by
    obtain ⟨id, member, hm, -⟩ := h.canBackup
    rw [← h.allHealthy, ← GoMap.length_pairs]
    exact List.ne_nil_iff_length_pos.1 (List.ne_nil_of_mem (GoMap.mem_pairs.2 hm)) |>.ne'
  refine maintain_reaches h.settled (.inl ?_)
  unfold resize
  have hfull := h.full
  rw [if_neg (by omega), if_neg hne, if_pos h.configured, if_pos h.ackedQuorum]
  exact .bind (removeNodeFromCluster_removes hc h.allHealthy h.canBackup)

/-! ## Whole iterations -/

/-- The condition, as a promise about what is seen when the spec is logged. -/
def removalMay (s : Sight) : (r : CtlReq) → r.Resp → Prop
  | .logSpec spec, _ => ¬ s.clusterState.Overcounts s.ackedPeerCount spec
  | _, _ => True

theorem wp_run_removal : (sight removalMay removalMust).wp m.run .dark fun _ _ => True := by
  refine wp_run_sight (fun s r _ => removalMust_of_kind (by simp [scoutKinds]) s r) ?_ ?_
  · intro m l s _ _
    exact wp_removal_of_uses (uses_newCluster.kinds (List.Subset.refl _)) (by simp [newClusterKinds])
  · intro m l s hc hv
    unfold reconcile
    split
    · trivial
    refine Monitor.wp_ctl.2 ⟨fun _ _ he => (by cases he), fun _ hmay => ?_⟩
    split
    · exact wp_removal_of_uses (uses_restore.kinds (List.Subset.refl _)) (by simp [restoreKinds])
    · exact wp_maintain_removal ⟨rfl, rfl, rfl, hv⟩ hc hmay

/-- The condition, of an iteration. -/
def Steady (tr : Trace ctlSig) : Prop :=
  ∀ pre spec post, tr = pre ++ ⟨.logSpec spec, ()⟩ :: post →
    ¬ (seen pre).clusterState.Overcounts (seen pre).ackedPeerCount spec

theorem Runs.entitled {p : CtlM (EtcdController × Progress)} {tr : Trace ctlSig} (h : Runs m.run tr p)
    (hsteady : Steady tr) {pre post : Trace ctlSig} {urls : List String} {victim : EtcdProcessMember} {x}
    (htr : tr = pre ++ ⟨.removeMember urls victim, x⟩ :: post) : Entitled (seen pre) victim := by
  have hadm : (sight removalMay removalMust).Admits .dark tr := by
    refine .of_forall fun pre e post htr => ?_
    obtain ⟨r, x⟩ := e
    cases r with
    | logSpec spec => exact hsteady pre spec post htr
    | _ => trivial
  subst htr
  exact h.must wp_run_removal hadm urls victim rfl

/-! ## Iterations one after the other -/

/-- An iteration at a cluster with these members, which has those afterwards:
it sees them all, and all healthy, it finds a spec for `N` of them, and a
member is gone only if its removal was asked for. -/
structure Tends (N : Int) (members members' : GoMap EtcdProcessMember) (tr : Trace ctlSig) : Prop where
  sees : ∀ cs, ⟨.logClusterState cs, ()⟩ ∈ tr → cs.members = members ∧ cs.healthyMembers = members
  finds : ∀ spec, ⟨.logSpec spec, ()⟩ ∈ tr → spec.memberCount = N
  leaves : ∀ id member, members.lookup id = some member → members'.lookup id = some member ∨
    ∃ urls x, ⟨.removeMember urls member, x⟩ ∈ tr

/-- A controller that tends a cluster, iteration after iteration, each of them
steady. -/
inductive Tending (N : Int) : EtcdController → GoMap EtcdProcessMember → EtcdController → GoMap EtcdProcessMember → Prop
  | refl {m : EtcdController} {members : GoMap EtcdProcessMember} : Tending N m members m members
  | step {m₀ m m' : EtcdController} {members₀ members members' : GoMap EtcdProcessMember} {tr : Trace ctlSig} {r} :
      Tending N m₀ members₀ m members → Runs m.run tr (.ret (m', r)) → Steady tr → Tends N members members' tr →
      Tending N m₀ members₀ m' members'

/-- All removals of an iteration have the same victim. -/
theorem victim_unique {p : CtlM (EtcdController × Progress)} {tr : Trace ctlSig} (h : Runs m.run tr p)
    (hsteady : Steady tr) {urls : List String} {victim : EtcdProcessMember} {x}
    (hmem : ⟨.removeMember urls victim, x⟩ ∈ tr) : (seen tr).victim = some victim := by
  have key : ∀ pre post, tr = pre ++ post → ⟨.removeMember urls victim, x⟩ ∈ pre → (seen pre).victim = some victim := by
    intro pre
    induction pre using List.reverseRecOn with
    | nil => exact fun _ _ hmem => nomatch hmem
    | append_singleton pre e ih =>
      intro post htr hmem
      rw [List.append_assoc] at htr
      rw [seen_snoc]
      rcases List.mem_append.1 hmem with hpre | hlast
      · have hv := ih _ htr hpre
        obtain ⟨r, y⟩ := e
        cases r with
        | removeMember urls' victim' =>
          have honly := (h.entitled hsteady htr).only
          rw [hv] at honly
          exact (honly.resolve_left nofun).symm
        | _ => exact hv
      · rw [← List.mem_singleton.1 hlast]
        rfl
  exact key tr [] (List.append_nil tr).symm hmem

/-- What was seen where a member was removed. -/
theorem Tends.removes {N : Int} {members members' : GoMap EtcdProcessMember} {tr : Trace ctlSig}
    {p : CtlM (EtcdController × Progress)} (ht : Tends N members members' tr) (h : Runs m.run tr p)
    (hsteady : Steady tr) {urls : List String} {victim : EtcdProcessMember} {x}
    (hmem : ⟨.removeMember urls victim, x⟩ ∈ tr) :
    N < members.size ∧ ∀ id, members.lookup id = some victim → id = victim.id := by
  obtain ⟨pre, post, htr⟩ := List.append_of_mem hmem
  have he := h.entitled hsteady htr
  have hpre {e : Event ctlSig} (h : e ∈ pre) : e ∈ tr := htr ▸ List.mem_append_left _ h
  obtain ⟨id, hid⟩ := he.member
  have hlogged := (clusterState_seen pre).resolve_left fun hdark => by simp [hdark, Sight.dark] at hid
  obtain ⟨hmembers, hhealthy⟩ := ht.sees _ (hpre hlogged)
  have hspec := ht.finds _ (hpre (clusterSpec_seen pre he.reconciling))
  have hids := he.consistent.member_id
  rw [hmembers] at hid hids
  have hsurplus := he.surplus ⟨id, hhealthy ▸ hid⟩
  rw [hmembers, hspec] at hsurplus
  exact ⟨hsurplus, fun id' h => (hids id' victim h).symm⟩

theorem Tends.size_le {N : Int} {members members' : GoMap EtcdProcessMember} {tr : Trace ctlSig}
    {p : CtlM (EtcdController × Progress)} (ht : Tends N members members' tr) (h : Runs m.run tr p)
    (hsteady : Steady tr) (hN : N ≤ members.size) : N ≤ members'.size := by
  by_cases hrem : ∃ urls victim x, ⟨.removeMember urls victim, x⟩ ∈ tr
  · obtain ⟨urls, victim, x, hmem⟩ := hrem
    obtain ⟨hmore, hid⟩ := ht.removes h hsteady hmem
    -- all but the one victim are still there
    have hkeep : members.size ≤ members'.size + 1 := by
      refine @GoMap.size_le_succ _ _ _ victim.id fun id hne hsome => ?_
      obtain ⟨member, hm⟩ := Option.isSome_iff_exists.1 hsome
      rcases ht.leaves id member hm with hstays | ⟨urls', x', hgone⟩
      · rw [hstays]
        rfl
      · have hsame := (victim_unique h hsteady hgone).symm.trans (victim_unique h hsteady hmem)
        cases hsame
        exact (hne (hid id hm)).elim
    omega
  · have hkeep : members.size ≤ members'.size := by
      refine GoMap.size_le fun id hsome => ?_
      obtain ⟨member, hm⟩ := Option.isSome_iff_exists.1 hsome
      rcases ht.leaves id member hm with hstays | ⟨urls, x, hgone⟩
      · rw [hstays]
        rfl
      · exact (hrem ⟨urls, member, x, hgone⟩).elim
    omega

/-- **When a healthy cluster is never shrunk below its spec.** The upkeep
removes healthy members only from a cluster larger than its spec, if and only
if the peers are not overcounted; so does an iteration; and a cluster tended
that way never gets smaller than its spec. -/
theorem removes_healthy_only_surplus_iff (m : EtcdController) :
    (∀ l acked cs spec, cs.Consistent →
      ((∀ tr p, Runs (m.maintain l acked cs spec) tr p → ∀ urls victim x, ⟨.removeMember urls victim, x⟩ ∈ tr →
        cs.Healthy victim → spec.memberCount < cs.members.size) ↔ ¬ cs.Overcounts acked spec)) ∧
    (∀ tr p, Runs m.run tr p → Steady tr → ∀ pre urls victim x post, tr = pre ++ ⟨.removeMember urls victim, x⟩ :: post →
      (seen pre).clusterState.Healthy victim →
        (seen pre).clusterSpec.memberCount < (seen pre).clusterState.members.size) ∧
    ∀ N members m' members', Tending N m members m' members' → N ≤ members.size → N ≤ members'.size := by
  refine ⟨fun l acked cs spec hc => ⟨fun h hover => ?_, fun hno tr p hr urls victim x hmem hhealthy => ?_⟩, ?_, ?_⟩
  · obtain ⟨tr, p, hr, ⟨⟨r, x⟩, hmem, urls, victim, rfl, hhealthy⟩, -⟩ := @maintain_removes m l cs spec acked hc hover
    have hsurplus := h tr p hr urls victim x hmem hhealthy
    have hfull := hover.full
    omega
  · let s : Sight := ⟨acked, cs, spec, true, false, none⟩
    have hwp : (sight (fun _ _ _ => True) removalMust).wp (m.maintain l acked cs spec) s fun _ _ => True :=
      wp_maintain_removal ⟨rfl, rfl, rfl, rfl⟩ hc hno
    obtain ⟨pre, post, rfl⟩ := List.append_of_mem hmem
    have hentitled := hr.must hwp (.of_may (fun _ _ _ => trivial) _) urls victim rfl
    have hkinds : ∀ e ∈ pre, e.req.kind ∈ maintainKinds :=
      fun e he => ((hr.uses uses_maintain).1 e (List.mem_append_left _ he)).1
    obtain ⟨hcs, hspec⟩ := @upkeep_after (fun _ _ _ => True) s pre hkinds
    have hsurplus := hentitled.surplus (by rwa [hcs])
    rwa [hcs, hspec] at hsurplus
  · intro tr p hr hsteady pre urls victim x post htr
    exact (hr.entitled hsteady htr).surplus
  · intro N members m' members' ht hN
    induction ht with
    | refl => exact hN
    | step _ hr hsteady ht ih => exact ht.size_le hr hsteady (ih hN)

/-- Three peers that were made a cluster of three, which has these members and
should have two. -/
def Site.lowered (members : List PeerId) : Site :=
  { peers := [⟨"a", []⟩, ⟨"b", []⟩, ⟨"c", []⟩], info := Site.running ["a", "b", "c"] false
    members := members.map Site.member, commands := [], spec := some ⟨2, "3.4.13"⟩, created := true }

/-- Elected in its first iteration, the controller removes the member on `c`
in the second, as it should. In the third it sees the two members that are
left, both healthy, and removes the one on `b`: the peer `c` still counts. -/
theorem lowering_removes_one_too_many : ∃ (tr₁ tr₂ tr₃ : Trace ctlSig) (m : EtcdController),
    (Site.controller "a").Loop [tr₁, tr₂, tr₃] m ∧
    (∃ urls, ⟨.removeMember urls (Site.member "c"), .ok ()⟩ ∈ tr₂) ∧
    ∃ pre urls post, tr₃ = pre ++ ⟨.removeMember urls (Site.member "b"), .ok ()⟩ :: post ∧
      (seen pre).clusterState.Healthy (Site.member "b") ∧ (seen pre).clusterState.members.size = 2 ∧
      (seen pre).clusterSpec.memberCount = 2 := by
  have hplay : ∃ (tr₁ tr₂ tr₃ : Trace ctlSig) (m : EtcdController),
      (Site.controller "a").play [.lowered ["a", "b", "c"], .lowered ["a", "b", "c"], .lowered ["a", "b"]] =
        some ([tr₁, tr₂, tr₃], m) ∧
      (∃ (i : Nat) (urls : List String), tr₂[i]? = some ⟨.removeMember urls (Site.member "c"), .ok ()⟩) ∧
      ∃ (i : Nat) (urls : List String) (post : Trace ctlSig),
        tr₃ = tr₃.take i ++ ⟨.removeMember urls (Site.member "b"), .ok ()⟩ :: post ∧
        (∃ id, (seen (tr₃.take i)).clusterState.healthyMembers.lookup id = some (Site.member "b")) ∧
        (seen (tr₃.take i)).clusterState.members.size = 2 ∧ (seen (tr₃.take i)).clusterSpec.memberCount = 2 :=
    ⟨_, _, _, _, rfl, ⟨37, _, rfl⟩, 35, _, _, rfl, ⟨"id-b", rfl⟩, rfl, rfl⟩
  obtain ⟨tr₁, tr₂, tr₃, m, hplay, ⟨i, urls, hfirst⟩, j, urls', post, htr, hhealthy, hsize, hspec⟩ := hplay
  exact ⟨tr₁, tr₂, tr₃, m, play_loop hplay, ⟨urls, List.mem_of_getElem? hfirst⟩, _, urls', post, htr, hhealthy, hsize, hspec⟩

end Etcdadm
