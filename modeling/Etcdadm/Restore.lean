/-
When a backup is restored onto a cluster that was not recreated for it.

The restore branch has `createNewCluster` stop the peers and form the cluster
of the command's spec, and then restores the backup on a healthy member. But
it looks only at the error: where `createNewCluster` finds too few peers it
returns `(false, nil)` without having touched anything, and the restore goes
on, over the cluster that is running. The new-cluster branch does look at
`created`.

Whether that happens is decided by what the iteration sees (`Recreates`): the
acknowledgements are counted against the spec of the control store, the peers
against the spec of the command.
-/
import Etcdadm.Sight

namespace Etcdadm

open EtcdController ClusterState

/-- The requests by which a restore is carried out: the restore itself, and
the removal of its command from the control store. -/
def CtlReq.Restores : CtlReq → Prop
  | .doRestore _ _ => True
  | .removeCommand _ => True
  | _ => False

theorem CtlReq.Restores.kind {r : CtlReq} (h : r.Restores) : r.kind = .restore ∨ r.kind = .removeCommand := by
  cases r <;> first | exact h.elim | simp [CtlReq.kind]

/-- Restores only follow a `createNewCluster` that returned `created`. -/
def RestoresOnlyRecreated (tr : Trace ctlSig) : Prop :=
  ∀ pre e post, tr = pre ++ e :: post → e.req.Restores → ⟨.createNewClusterReturned true, ()⟩ ∈ pre

/-- `createNewCluster` goes on with so many peers. -/
def CanForm (peers : Nat) (memberCount : Int) : Prop :=
  quorumSize memberCount ≤ peers ∧ (memberCount ≤ peers ∨ quorumSize peers = quorumSize memberCount)

/-- Some peer hosts a healthy member. -/
def ClusterState.hasRestoreTarget (cs : ClusterState) : Bool := cs.peers.keys.any (hasName cs.healthyMembers)

/-- If a restore gets as far as the backup, the cluster can be formed. -/
def Recreates (ackedPeerCount : Nat) (clusterState : ClusterState) (clusterSpec : ClusterSpec) (data : Command) :
    Prop :=
  ∀ restoreBackup restoreSpec, data.restoreBackup = some restoreBackup →
    restoreBackup.clusterSpec = some restoreSpec → restoreBackup.backup ≠ "" →
    quorumSize clusterSpec.memberCount ≤ ackedPeerCount → clusterState.hasRestoreTarget = true →
    CanForm clusterState.peers.size restoreSpec.memberCount

variable {m : EtcdController} {l : LeadershipState} {cs : ClusterState} {spec : ClusterSpec} {acked : Nat}
  {cmd : StoredCommand}

/-! ## What the two halves of the branch return -/

theorem createNewCluster_eq_of_not_canForm (h : ¬ CanForm cs.peers.size spec.memberCount) :
    m.createNewCluster l cs spec = .ret (false, none) := by
  unfold createNewCluster
  dsimp only
  split
  · rfl
  next hq =>
  have hq : quorumSize spec.memberCount ≤ cs.peers.size := Int.not_lt.1 hq
  rw [if_pos]
  · rfl
  · rw [CanForm, not_and, not_or] at h
    obtain ⟨hm, hne⟩ := h hq
    exact ⟨Int.not_le.1 hm, hne⟩

/-- A cluster that could have been formed was, or there is an error. -/
theorem returns_createNewCluster (h : CanForm cs.peers.size spec.memberCount) :
    (m.createNewCluster l cs spec).Returns fun r => r.1 = true ∨ r.2.isSome = true := by
  have failed {err : Error} : (false, some err).1 = true ∨ (false, some err).2.isSome = true := .inr rfl
  unfold createNewCluster
  dsimp only
  rw [if_neg (Int.not_lt.2 h.1), if_neg]
  · refine Returns.ctl fun token => Returns.range fun peers _ => ?_
    dsimp only
    split
    · trivial
    refine .bind (.trivially _) fun ⟨nodes, members⟩ _ => Returns.range fun peers _ => ?_
    refine .bind (.trivially _) fun err _ => ?_
    split
    · exact failed
    refine .bind (.trivially _) fun errors _ => ?_
    split
    · exact failed
    refine .bind (.trivially _) fun err _ => ?_
    split
    · exact failed
    refine .bind (.trivially _) fun err _ => ?_
    split
    · exact failed
    refine .bind (.trivially _) fun err _ => ?_
    split
    · exact failed
    · exact .inl rfl
  · rintro ⟨hlt, hne⟩
    rcases h.2 with hm | hq
    · exact Int.not_lt.2 hm hlt
    · exact hne hq

theorem returns_restoreTarget : ∀ (peers : List (PeerId × ClusterPeerInfo)) (peer : Option ClusterPeerInfo),
    (restoreTarget cs peers peer).Returns fun t =>
      (t.isSome = true ↔ peer.isSome = true ∨ ∃ e ∈ peers, hasName cs.healthyMembers e.1 = true)
  | [], peer => by simp [restoreTarget, Prog.Returns]
  | (peerId, p) :: rest, peer => by
    refine .bind returns_findByName fun member hmember => ?_
    cases member with
    | none =>
      refine (returns_restoreTarget rest peer).mono fun t ht => ?_
      simp [ht, ← hmember]
    | some _ =>
      refine (returns_restoreTarget rest (some p)).mono fun t ht => ?_
      simp [ht, ← hmember]

/-! ## The condition suffices -/

/-- A restore has to be entitled by a created cluster. -/
def restoreMust (s : Sight) (r : CtlReq) : Prop := r.Restores → s.created = true

theorem restoreMust_of_kind {kinds : List Kind} (hk : .restore ∉ kinds ∧ .removeCommand ∉ kinds) (s : Sight)
    (r : CtlReq) (hr : r.kind ∈ kinds) : restoreMust s r := by
  intro h
  rcases h.kind with h | h
  · exact (hk.1 (h ▸ hr)).elim
  · exact (hk.2 (h ▸ hr)).elim

section

variable {may : Sight → (r : CtlReq) → r.Resp → Prop} {s : Sight}

/-- Once the cluster is created, anything goes. -/
theorem wp_restoreBackup_of_created (hs : s.created = true) :
    (sight may restoreMust).wp (m.restoreBackupAndLiftQuarantine l spec cs cmd) s fun _ _ => True := by
  refine Monitor.wp_mono (fun _ _ _ => trivial) (Monitor.wp_of_uses (I := fun s => s.created = true) ?_
    (fun _ _ _ _ => trivial) uses_restoreBackupAndLiftQuarantine hs)
  · intro s r hs hr
    refine ⟨fun _ => hs, fun x _ => ?_⟩
    have hnext : s.next r x = s := Sight.next_eq_of_disjoint hr.1 (by simp [Sight.kinds]) x
    exact (congrArg Sight.created hnext).trans hs

/-- Without a target, nothing is restored. -/
theorem wp_restoreBackup_of_no_target (hs : ∀ rb, cmd.data.restoreBackup = some rb → rb.backup ≠ "" →
    cs.hasRestoreTarget = false) :
    (sight may restoreMust).wp (m.restoreBackupAndLiftQuarantine l spec cs cmd) s fun _ _ => True := by
  unfold restoreBackupAndLiftQuarantine
  split
  · trivial
  next rb hrb =>
  split
  · trivial
  next hbackup =>
  refine Monitor.wp_ctl.2 ⟨fun h => h.elim, ?_⟩
  rintro (err | info) -
  · trivial
  dsimp only
  split
  · trivial
  refine Monitor.wp_range.2 ⟨fun h => h.elim, fun ks _ => ?_⟩
  refine Monitor.wp_bind.2 (wp_sight_of_uses ((@uses_restoreTarget l cs _ none).kinds (List.Subset.refl _)) (by simp [Sight.kinds])
    (restoreMust_of_kind (by simp)) (returns_restoreTarget _ none) fun target htarget => ?_)
  cases target with
  | none => trivial
  | some peer =>
    have hno := hs rb hrb hbackup
    simp only [hasRestoreTarget, List.any_eq_false] at hno
    simp only [Option.isSome_some, Option.isSome_none, true_iff, Bool.false_eq_true, false_or] at htarget
    obtain ⟨e, he, hname⟩ := htarget
    refine (hno e.1 ?_ hname).elim
    rw [← GoMap.keys_eq_map_pairs]
    exact List.mem_map_of_mem ((GoMap.mem_inOrder' ks.2).1 he)

theorem wp_restore (h : may s (.logRestoreCommand cmd.data) () → Recreates acked cs spec cmd.data) :
    (sight may restoreMust).wp (m.restore l acked cs spec cmd) s fun _ _ => True := by
  refine Monitor.wp_bind.2 (wp_sight_of_uses ((@uses_verifyEtcdVersion l _ _).kinds (List.Subset.refl _)) (by simp [Sight.kinds])
    (restoreMust_of_kind (by simp)) (.trivially _) fun err _ => ?_)
  split
  · trivial
  refine Monitor.wp_ctl.2 ⟨fun h => h.elim, fun _ hmay => ?_⟩
  have hrec := h hmay
  split
  · trivial
  next restoreSpec hspec =>
  split
  · trivial
  next hacked =>
  obtain ⟨rb, hrb, hrs⟩ := Option.bind_eq_some_iff.1 hspec
  by_cases hform : CanForm cs.peers.size restoreSpec.memberCount
  · refine Monitor.wp_bind.2 (wp_sight_of_uses (uses_createNewCluster.kinds (List.Subset.refl _)) (by simp [Sight.kinds])
      (restoreMust_of_kind (by simp)) (returns_createNewCluster hform) fun a hr => ?_)
    obtain ⟨created, err⟩ := a
    refine Monitor.wp_ctl.2 ⟨fun h => h.elim, fun _ _ => ?_⟩
    cases err with
    | some err => trivial
    | none =>
      have hcreated : created = true := hr.resolve_right (by simp)
      exact wp_restoreBackup_of_created (by simp [sight, Sight.next, hcreated])
  · rw [createNewCluster_eq_of_not_canForm hform]
    refine Monitor.wp_ctl.2 ⟨fun h => h.elim, fun _ _ => ?_⟩
    refine wp_restoreBackup_of_no_target fun rb' hrb' hbackup => ?_
    cases hrb.symm.trans hrb'
    refine Bool.eq_false_iff.2 fun htarget => hform ?_
    exact hrec rb restoreSpec hrb hrs hbackup (Int.not_lt.1 hacked) htarget

end

/-! ## The condition is needed -/

/-- Some run restores though no cluster was created. -/
def Overwrites {α : Type} (p : CtlM α) : Prop :=
  p.Reaches (fun r => r = CtlReq.createNewClusterReturned true) CtlReq.Restores

theorem Overwrites.not_restoresOnlyRecreated {α : Type} {p : CtlM α} (h : Overwrites p) :
    ∃ tr p', Runs p tr p' ∧ ¬ RestoresOnlyRecreated tr := by
  obtain ⟨tr, p', hr, ⟨e, he, hres⟩, hno⟩ := h
  refine ⟨tr, p', hr, fun honly => ?_⟩
  obtain ⟨pre, post, rfl⟩ := List.append_of_mem he
  exact hno _ (List.mem_append_left _ (honly pre e post rfl hres)) rfl

/-- To look is not to create. -/
theorem Prog.Uses.not_created {α : Type} {p : CtlM α} (h : p.Uses (Sends l [.look]) True) :
    p.Uses (fun r => ¬ r = CtlReq.createNewClusterReturned true) True :=
  h.mono fun r hr he => by simp [Sends, he, CtlReq.kind] at hr

theorem restoreTarget_runs : ∀ (peers : List (PeerId × ClusterPeerInfo)) (peer : Option ClusterPeerInfo),
    ∃ tr t, Runs (restoreTarget cs peers peer) tr (.ret t)
  | [], peer => ⟨[], peer, .refl⟩
  | (peerId, p) :: rest, peer => by
    obtain ⟨member, hfind⟩ : ∃ member, Runs (cs.findHealthyMember peerId)
        [⟨.rangeOver cs.healthyMembers.keys, ⟨_, .refl _⟩⟩] (.ret member) := ⟨_, .step .refl⟩
    cases member with
    | none =>
      obtain ⟨tr, t, h⟩ := restoreTarget_runs rest peer
      exact ⟨_, t, (hfind.bind _).trans h⟩
    | some _ =>
      obtain ⟨tr, t, h⟩ := restoreTarget_runs rest (some p)
      exact ⟨_, t, (hfind.bind _).trans h⟩

/-- Too few peers, and a member to restore on. -/
theorem overwrites_of_not_recreates (h : ¬ Recreates acked cs spec cmd.data) :
    Overwrites (m.restore l acked cs spec cmd) := by
  simp only [Recreates, not_forall] at h
  obtain ⟨rb, restoreSpec, hrb, hrs, hbackup, hacked, htarget, hform⟩ := h
  have hspec : cmd.data.restoreBackup.bind (·.clusterSpec) = some restoreSpec := by rw [hrb]; exact hrs
  have hversion : Runs (verifyEtcdVersion spec) [⟨.bindirForEtcdVersion spec.etcdVersion "etcd", .ok ""⟩] (.ret none) :=
    .step .refl
  refine .after hversion (@uses_verifyEtcdVersion l spec _).not_created ?_
  refine .later () nofun ?_
  rw [hspec]
  dsimp only
  rw [if_neg (Int.not_lt.2 hacked), createNewCluster_eq_of_not_canForm hform]
  refine .later () nofun ?_
  -- nothing was created and there is no error, so the backup is looked at
  obtain ⟨tr, target, hrun⟩ := @restoreTarget_runs cs (cs.peers.inOrder cs.peers.keys) none
  have hsome : target.isSome = true := by
    rw [hrun.returns (returns_restoreTarget _ none)]
    obtain ⟨id, hid, hname⟩ := List.any_eq_true.1 htarget
    rw [← GoMap.keys_eq_map_pairs] at hid
    obtain ⟨e, he, rfl⟩ := List.mem_map.1 hid
    exact .inr ⟨e, (GoMap.mem_inOrder' (.refl _)).2 he, hname⟩
  obtain ⟨peer, rfl⟩ := Option.isSome_iff_exists.1 hsome
  unfold restoreBackupAndLiftQuarantine
  simp only [Option.isSome_none, Bool.false_eq_true, if_false, hrb, hbackup]
  refine .later (.ok (some ⟨"3.4.13", 0, none⟩)) nofun ?_
  refine .range (.refl _) nofun ?_
  refine .after hrun (@uses_restoreTarget l cs _ none).not_created ?_
  exact .now trivial nofun (.ok ())

/-! ## Whole iterations -/

/-- The condition, as a promise about what is seen when a restore command is
found pending. -/
def restoreMay (s : Sight) : (r : CtlReq) → r.Resp → Prop
  | .logRestoreCommand data, _ => Recreates s.ackedPeerCount s.clusterState s.clusterSpec data
  | _, _ => True

theorem wp_run_restore : (sight restoreMay restoreMust).wp m.run .dark fun _ _ => True := by
  refine wp_run_sight (fun s r _ => restoreMust_of_kind (by simp [scoutKinds]) s r) ?_ ?_
  · intro m l s _ _
    refine Monitor.wp_mono (fun _ _ _ => trivial) (Monitor.wp_of_uses (I := fun _ => True) ?_
      (fun _ _ _ _ => trivial) uses_newCluster trivial)
    exact fun s r _ hr => ⟨restoreMust_of_kind (by simp [newClusterKinds]) s r hr.1, fun _ _ => trivial⟩
  · intro m l s _ _
    unfold reconcile
    split
    · trivial
    refine Monitor.wp_ctl.2 ⟨fun h => h.elim, fun _ _ => ?_⟩
    split
    · exact wp_restore fun hmay => hmay
    · refine Monitor.wp_mono (fun _ _ _ => trivial) (Monitor.wp_of_uses (I := fun _ => True) ?_
        (fun _ _ _ _ => trivial) uses_maintain trivial)
      exact fun s r _ hr => ⟨restoreMust_of_kind (by simp [maintainKinds]) s r hr.1, fun _ _ => trivial⟩

theorem Runs.restoresOnlyRecreated {α : Type} {may : Sight → (r : CtlReq) → r.Resp → Prop} {p p' : CtlM α}
    {tr : Trace ctlSig} {Q : Sight → α → Prop} (h : Runs p tr p') (hwp : (sight may restoreMust).wp p .dark Q)
    (hadm : (sight may restoreMust).Admits .dark tr) : RestoresOnlyRecreated tr := by
  rintro pre e post rfl he
  have hmust : restoreMust _ e.req := h.must hwp hadm
  exact created_seen.1 (hmust he)

/-- **When a backup is restored only onto a cluster created for it.** The
restore branch always keeps to that if and only if the peers it sees can form
the cluster of the command; and an iteration keeps to it if that is so
wherever it finds a restore command pending. -/
theorem restores_only_recreated_iff (m : EtcdController) :
    (∀ l acked cs spec cmd, (∀ tr p, Runs (m.restore l acked cs spec cmd) tr p → RestoresOnlyRecreated tr) ↔
      Recreates acked cs spec cmd.data) ∧
    ∀ tr p, Runs m.run tr p →
      (∀ pre data post, tr = pre ++ ⟨.logRestoreCommand data, ()⟩ :: post →
        Recreates (seen pre).ackedPeerCount (seen pre).clusterState (seen pre).clusterSpec data) →
      RestoresOnlyRecreated tr := by
  refine ⟨fun l acked cs spec cmd => ⟨fun h => ?_, fun h tr p hr => ?_⟩, fun tr p hr hcond => ?_⟩
  · by_contra hno
    obtain ⟨tr, p, hr, hbad⟩ := (overwrites_of_not_recreates hno).not_restoresOnlyRecreated
    exact hbad (h tr p hr)
  · have hwp : (sight (fun _ _ _ => True) restoreMust).wp (m.restore l acked cs spec cmd) .dark fun _ _ => True :=
      wp_restore fun _ => h
    exact hr.restoresOnlyRecreated hwp (.of_may (fun _ _ _ => trivial) tr)
  · refine hr.restoresOnlyRecreated wp_run_restore (.of_forall ?_)
    rintro pre ⟨r, x⟩ post htr
    cases r with
    | logRestoreCommand data => exact hcond pre data post htr
    | _ => trivial

/-- One peer with a running cluster of one, and a command to restore a backup
to a cluster of three. -/
def Site.restoring : Site :=
  { peers := [⟨"a", []⟩], info := Site.running ["a"] false, members := [Site.member "a"]
    commands := [⟨"command", ⟨0, some ⟨some ⟨3, "3.4.13"⟩, "backup"⟩⟩⟩], spec := some ⟨1, "3.4.13"⟩, created := true }

/-- Elected in its first iteration, the controller restores over the running
cluster in its second: three members need two peers, and there is one. -/
theorem restore_overwrites_running_cluster : ∃ (its : List (Trace ctlSig)) (m : EtcdController),
    (Site.controller "a").Loop its m ∧ ∃ tr ∈ its,
      ⟨.createNewClusterReturned false, ()⟩ ∈ tr ∧ ¬ RestoresOnlyRecreated tr := by
  have hplay : ∃ (tr₁ tr₂ : Trace ctlSig) (m : EtcdController),
      (Site.controller "a").play [.restoring, .restoring] = some ([tr₁, tr₂], m) ∧
      (∃ i : Nat, tr₂[i]? = some ⟨.createNewClusterReturned false, ()⟩) ∧
      (∃ (i : Nat) (peer : PeerId) (request : DoRestoreRequest), tr₂[i]? = some ⟨.doRestore peer request, .ok ()⟩) ∧ (seen tr₂).created = false :=
    ⟨_, _, _, rfl, ⟨21, rfl⟩, ⟨25, _, _, rfl⟩, rfl⟩
  obtain ⟨tr₁, tr₂, m, hplay, ⟨i, hreturned⟩, ⟨j, peer, request, hrestore⟩, hcreated⟩ := hplay
  refine ⟨_, m, play_loop hplay, tr₂, by simp, List.mem_of_getElem? hreturned, fun honly => ?_⟩
  obtain ⟨pre, post, htr⟩ := List.append_of_mem (List.mem_of_getElem? hrestore)
  have hmem := honly pre _ post htr trivial
  have : (seen tr₂).created = true := created_seen.2 (htr ▸ List.mem_append_left _ hmem)
  simp [hcreated] at this

end Etcdadm
