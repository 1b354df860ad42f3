/-
No change without a backup.

Four procedures change the membership or stop or upgrade etcd, and each takes
a backup of its own first, from some healthy member, in whatever order the
members come up and however many of them fail. Here this is followed over the
whole iteration: behind every such request, on every path, stands a backup
that succeeded. What forms a new cluster is not among them: there may be
nothing yet to back up.
-/
import Etcdadm.Upkeep
import Etcdadm.Lookback

namespace Etcdadm

open EtcdController ClusterState

variable {m : EtcdController} {l : LeadershipState} {cs : ClusterState} {spec : ClusterSpec} {acked : Nat}

/-- The request changes the membership, stops etcd or sets its version. -/
def CtlReq.Modifies : CtlReq → Prop
  | .addMember _ _ | .removeMember _ _ | .stopEtcd _ _ => True
  | .reconfigure _ request => request.setEtcdVersion ≠ ""
  | _ => False

def modifyingKinds : List Kind := [.addMember, .removeMember, .stop, .reconfigure]

theorem CtlReq.Modifies.kind {r : CtlReq} (h : r.Modifies) : r.kind ∈ modifyingKinds := by
  cases r with
  | addMember | removeMember | stopEtcd | reconfigure => simp [CtlReq.kind, modifyingKinds]
  | _ => exact h.elim

theorem CtlReq.not_modifies {kinds : List Kind} {r : CtlReq} (hr : r.kind ∈ kinds)
    (hk : kinds.Disjoint modifyingKinds) : ¬ r.Modifies := fun h => hk hr h.kind

/-- Neither does a `Reconfigure` that leaves the version alone. -/
theorem Says.not_modifies {kinds : List Kind} {what : PeerId → ReconfigureRequest → Prop} {r : CtlReq}
    (hr : Says l kinds what r) (hk : ∀ k ∈ kinds, k ∈ modifyingKinds → k = .reconfigure)
    (hwhat : ∀ peer request, what peer request → request.setEtcdVersion = "") : ¬ r.Modifies := by
  intro hmod
  have hkind := hk _ hr.1.1 hmod.kind
  cases r with
  | reconfigure peer request => exact hmod (hwhat peer request hr.2)
  | addMember | removeMember | stopEtcd => cases hkind
  | _ => exact hmod.elim

/-- A backup succeeded, on a peer with a healthy member. -/
def ClusterState.BackedUp (cs : ClusterState) (tr : Trace ctlSig) : Prop :=
  ∃ peer request response, cs.HostsHealthy peer ∧ ⟨.doBackup peer request, .ok response⟩ ∈ tr

theorem ClusterState.BackedUp.mono {tr tr' : Trace ctlSig} (h : cs.BackedUp tr) (hgrows : tr <+: tr') :
    cs.BackedUp tr' := by
  obtain ⟨peer, request, response, hhosts, hmem⟩ := h
  exact ⟨peer, request, response, hhosts, hgrows.subset hmem⟩

/-! ## The upkeep -/

def backupMust (cs : ClusterState) (tr : Trace ctlSig) (r : CtlReq) : Prop := r.Modifies → cs.BackedUp tr

section

variable {α : Type} {p : CtlM α} {s : Trace ctlSig}

/-- After the backup, anything goes. -/
theorem wp_of_backedUp (p : CtlM α) (hs : cs.BackedUp s) : (Monitor.history (backupMust cs)).wp p s fun _ _ => True := by
  refine Monitor.wp_mono (fun _ _ _ => trivial) (Monitor.wp_of_invariant (I := cs.BackedUp) ?_ (fun _ _ _ => trivial) p hs)
  intro s r hs
  exact ⟨fun _ => hs, fun x _ => hs.mono (List.prefix_append s [⟨r, x⟩])⟩

/-- Before it, what modifies nothing. -/
theorem wp_of_not_modifies (hp : p.Uses (fun r => ¬ CtlReq.Modifies r) True) :
    (Monitor.history (backupMust cs)).wp p s fun _ _ => True :=
  Monitor.wp_of_uses (I := fun _ => True) (fun _ _ _ hr => ⟨fun h => (hr h).elim, fun _ _ => trivial⟩)
    (fun _ _ _ _ => trivial) hp trivial

theorem wp_backup_of_kinds {kinds : List Kind} (hp : p.Uses (Sends l kinds) True) (hk : kinds.Disjoint modifyingKinds) :
    (Monitor.history (backupMust cs)).wp p s fun _ _ => True :=
  wp_of_not_modifies (hp.mono fun _ hr => CtlReq.not_modifies hr.1 hk)

/-- The backup itself. -/
theorem wp_backedUp {f : Except Error DoBackupResponse → CtlM α} (hf : ∀ err s, (Monitor.history (backupMust cs)).wp
    (f (.error err)) s fun _ _ => True) :
    (Monitor.history (backupMust cs)).wp (m.doClusterBackup l spec cs >>= f) s fun _ _ => True := by
  refine Monitor.wp_bind.2 (Monitor.wp_mono ?_
    (wp_doClusterBackup fun _ _ hr hmod => (CtlReq.not_modifies hr (by simp [modifyingKinds]) hmod).elim))
  intro s' r hr
  cases r with
  | error err => exact hf err s'
  | ok response =>
    obtain ⟨before, peer, request, -, hhosts, rfl⟩ := hr response rfl
    exact wp_of_backedUp _ ⟨peer, request, response, hhosts, List.mem_append_right _ (List.mem_singleton.2 rfl)⟩

/-- A step that modifies nothing, and then another. -/
theorem wp_backup_bind {β : Type} {f : α → CtlM β} {kinds : List Kind} (hp : p.Uses (Sends l kinds) True)
    (hk : kinds.Disjoint modifyingKinds)
    (hf : ∀ a s, (Monitor.history (backupMust cs)).wp (f a) s fun _ _ => True) :
    (Monitor.history (backupMust cs)).wp (p >>= f) s fun _ _ => True :=
  Monitor.wp_bind.2 (Monitor.wp_mono (fun s a _ => hf a s) (wp_backup_of_kinds hp hk))

end

section

variable {s : Trace ctlSig}

theorem wp_addNodeToCluster_backup (hne : cs.members.size ≠ 0) :
    (Monitor.history (backupMust cs)).wp (m.addNodeToCluster l spec cs) s fun _ _ => True := by
  unfold addNodeToCluster
  split
  · trivial
  split
  · trivial
  refine wp_backup_bind (@uses_idlePeers l cs _) (by simp [modifyingKinds]) fun idle s => ?_
  split
  · trivial
  · exact wp_backedUp fun _ _ => trivial

theorem wp_removeNodeFromCluster_backup {removeHealthy : Bool} :
    (Monitor.history (backupMust cs)).wp (m.removeNodeFromCluster l spec cs removeHealthy) s fun _ _ => True := by
  refine wp_backup_bind (@uses_pickVictim m l cs removeHealthy) (by simp [modifyingKinds]) fun victim s => ?_
  cases victim with
  | none =>
    dsimp only
    split <;> trivial
  | some victim => exact wp_backedUp fun _ _ => trivial

theorem wp_upgradeInPlace_backup :
    (Monitor.history (backupMust cs)).wp (m.upgradeInPlace l spec cs) s fun _ _ => True := by
  refine wp_backup_bind (@uses_prepareForUpgrade l cs spec) (by simp [modifyingKinds]) fun r s => ?_
  cases r with
  | error err => trivial
  | ok memberToPeer =>
  refine Monitor.wp_range.2 ⟨nofun, fun order _ => ?_⟩
  refine wp_backup_bind (@uses_checkUpgradable l memberToPeer _) (by simp [modifyingKinds]) fun err s => ?_
  cases err with
  | some err => trivial
  | none => exact wp_backedUp fun _ _ => trivial

theorem wp_stopForUpgrade_backup :
    (Monitor.history (backupMust cs)).wp (m.stopForUpgrade l spec cs) s fun _ _ => True := by
  refine wp_backup_bind (@uses_prepareForUpgrade l cs spec) (by simp [modifyingKinds]) fun r s => ?_
  cases r with
  | error err => trivial
  | ok memberToPeer => exact wp_backedUp fun _ _ => trivial

theorem wp_replaceUnhealthy_backup :
    (Monitor.history (backupMust cs)).wp (m.replaceUnhealthy l acked cs spec) s fun _ _ => True := by
  unfold replaceUnhealthy
  split
  · refine wp_backup_bind (@uses_idlePeers l cs _) (by simp [modifyingKinds]) fun idle s => ?_
    repeat' split
    all_goals first | trivial | exact Monitor.wp_bind.2 (Monitor.wp_mono (fun _ _ _ => trivial) wp_removeNodeFromCluster_backup)
  · trivial

theorem wp_resize_backup :
    (Monitor.history (backupMust cs)).wp (m.resize l acked cs spec) s fun _ _ => True := by
  unfold resize
  split
  · split
    · exact wp_backup_bind (@uses_refreshControlStore l m 0) (by simp [modifyingKinds]) fun _ _ => trivial
    next hne =>
    split
    · exact Monitor.wp_bind.2 (Monitor.wp_mono (fun _ _ _ => trivial) (wp_addNodeToCluster_backup hne))
    · trivial
  split
  · trivial
  split
  · split
    · exact Monitor.wp_bind.2 (Monitor.wp_mono (fun _ _ _ => trivial) wp_removeNodeFromCluster_backup)
    · trivial
  · exact Monitor.wp_bind.2 (Monitor.wp_mono (fun _ _ _ => trivial) wp_replaceUnhealthy_backup)

theorem wp_settle_backup : (Monitor.history (backupMust cs)).wp (m.settle l acked cs spec) s fun _ _ => True := by
  have htls : (m.reconcileTLS l cs).Uses (fun r => ¬ CtlReq.Modifies r) True := by
    refine tells_reconcileTLS.mono fun r hr => hr.not_modifies (by simp [modifyingKinds]) ?_
    rintro peer request ⟨_, _, _, hversion, _⟩
    exact hversion
  refine Monitor.wp_bind.2 (Monitor.wp_mono ?_ (wp_of_not_modifies htls))
  intro s ⟨changed, err⟩ _
  dsimp only
  split
  · trivial
  split
  · split
    · split
      · exact Monitor.wp_bind.2 (Monitor.wp_mono (fun _ _ _ => trivial) wp_upgradeInPlace_backup)
      · exact wp_stopForUpgrade_backup
    · trivial
  · trivial

theorem wp_checkQuarantine_backup :
    (Monitor.history (backupMust cs)).wp (m.checkQuarantine l acked cs spec) s fun _ _ => True := by
  have hset (q : Bool) : (m.updateQuarantine l cs q).Uses (fun r => ¬ CtlReq.Modifies r) True :=
    tells_updateQuarantine.mono fun r hr => hr.not_modifies (by simp [modifyingKinds]) fun _ _ h => h.1
  rw [checkQuarantine_eq]
  split
  · trivial
  · trivial
  next q _ => exact Monitor.wp_bind.2 (Monitor.wp_mono (fun _ _ _ => trivial) (wp_of_not_modifies (hset q)))

theorem wp_maintain_backup : (Monitor.history (backupMust cs)).wp (m.maintain l acked cs spec) s fun _ _ => True := by
  refine wp_maintain (I := fun _ => True) (K := fun _ => True) trivial (fun _ _ => trivial) ?_
    (fun _ _ _ _ _ => trivial) ?_ ?_ ?_
  · intro s r _ hr
    exact ⟨fun h => (CtlReq.not_modifies hr.1 (by simp [modifyingKinds]) h).elim, fun _ _ => trivial⟩
  · intro s m' _ _
    exact Monitor.wp_mono (fun _ _ _ => ⟨fun _ _ => trivial, fun _ => trivial⟩) wp_checkQuarantine_backup
  · intro s m' _ _ _
    exact Monitor.wp_mono (fun _ _ _ => ⟨fun _ _ => trivial, fun _ => trivial⟩) wp_resize_backup
  · intro s m' _ _ _ _
    exact wp_settle_backup

end

/-! ## The iteration -/

/-- `createNewCluster` is at work: it has drawn a token and not returned. -/
def Creating (tr : Trace ctlSig) : Prop :=
  (∃ token, ⟨.clusterToken, token⟩ ∈ tr) ∧ ∀ created, ⟨.createNewClusterReturned created, ()⟩ ∉ tr

/-- What must come before a modification, whichever branch makes it. -/
def modifyMust (tr : Trace ctlSig) (r : CtlReq) : Prop :=
  r.Modifies → r.kind = .stop ∧ Creating tr ∨ ∃ cs, ⟨.logClusterState cs, ()⟩ ∈ tr ∧ cs.BackedUp tr

theorem modifyMust_of_kind {kinds : List Kind} (hk : kinds.Disjoint modifyingKinds) (tr : Trace ctlSig) (r : CtlReq)
    (hr : r.kind ∈ kinds) : modifyMust tr r := fun h => (CtlReq.not_modifies hr hk h).elim

section

variable {α : Type} {s : Trace ctlSig}

/-- A step that modifies nothing and returns from no `createNewCluster`. -/
theorem wp_modify_of_uses {p : CtlM α} {kinds : List Kind} {R : α → Prop} (hp : p.Uses (Sends l kinds) True)
    (hk : kinds.Disjoint modifyingKinds) (hnote : .note ∉ kinds) (hr : p.Returns R)
    (hs : ∀ created, ⟨.createNewClusterReturned created, ()⟩ ∉ s) :
    (Monitor.history modifyMust).wp p s fun s' a =>
      (∀ created, ⟨.createNewClusterReturned created, ()⟩ ∉ s') ∧ R a := by
  refine Monitor.wp_mono ?_ (Monitor.wp_history_of_uses (fun s r hr => modifyMust_of_kind hk s r hr.1) hp hr)
  rintro s' a ⟨⟨tr, rfl, htr⟩, ha⟩
  refine ⟨fun created hmem => ?_, ha⟩
  rcases List.mem_append.1 hmem with hmem | hmem
  · exact hs created hmem
  · exact hnote (htr _ hmem).1

theorem wp_createNewCluster_modify (hs : ∀ created, ⟨.createNewClusterReturned created, ()⟩ ∉ s) :
    (Monitor.history modifyMust).wp (m.createNewCluster l cs spec) s fun _ _ => True := by
  unfold createNewCluster
  dsimp only
  split
  · trivial
  split
  · trivial
  refine Monitor.wp_ctl.2 ⟨nofun, fun token _ => ?_⟩
  have hcreating : Creating (s ++ [⟨.clusterToken, token⟩]) := by
    refine ⟨⟨token, List.mem_append_right _ (List.mem_singleton.2 rfl)⟩, fun created hmem => ?_⟩
    rcases List.mem_append.1 hmem with hmem | hmem
    · exact hs created hmem
    · cases List.mem_singleton.1 hmem
  -- from here to the end it is creating, and the only modifications are stops
  refine Monitor.wp_mono (fun _ _ _ => trivial) (Monitor.wp_of_uses (I := Creating) ?_ (fun _ _ _ _ => trivial)
    ((@uses_formCluster m l cs spec).2 token) hcreating)
  intro s r hcreating hr
  refine ⟨fun hmod => .inl ⟨?_, hcreating⟩, fun x _ => ⟨?_, fun created hmem => ?_⟩⟩
  · have hkinds := hr.1
    have hmodkind := hmod.kind
    simp only [modifyingKinds, List.mem_cons, List.not_mem_nil, or_false] at hkinds hmodkind
    rcases hmodkind with h | h | h | h <;> simp [h] at hkinds ⊢
  · obtain ⟨token, hmem⟩ := hcreating.1
    exact ⟨token, List.mem_append_left _ hmem⟩
  · rcases List.mem_append.1 hmem with hmem | hmem
    · exact hcreating.2 created hmem
    · cases List.mem_singleton.1 hmem
      simp [Sends, CtlReq.kind] at hr

theorem wp_newCluster_modify (hs : ∀ created, ⟨.createNewClusterReturned created, ()⟩ ∉ s) :
    (Monitor.history modifyMust).wp (m.newCluster l acked cs) s fun _ _ => True := by
  refine Monitor.wp_bind.2 (Monitor.wp_mono ?_ (wp_modify_of_uses (@uses_refreshControlStore l m 0)
    (by simp [modifyingKinds]) (by simp) (.trivially _) hs))
  intro s ⟨c, err⟩ ⟨hs, _⟩
  cases err with
  | some err => trivial
  | none =>
  dsimp only
  split
  next hspec =>
    -- without a spec there is nothing to reconcile either
    unfold reconcile
    rw [hspec]
    trivial
  refine Monitor.wp_bind.2 (Monitor.wp_mono ?_ (wp_modify_of_uses (@uses_verifyEtcdVersion l _ _)
    (by simp [modifyingKinds]) (by simp) (.trivially _) hs))
  intro s err ⟨hs, _⟩
  cases err with
  | some err => trivial
  | none =>
  dsimp only
  split
  · trivial
  refine Monitor.wp_bind.2 (Monitor.wp_mono ?_ (wp_createNewCluster_modify hs))
  intro s ⟨created, err⟩ _
  refine Monitor.wp_ctl.2 ⟨nofun, fun _ _ => ?_⟩
  split
  · trivial
  have hmark : (markCreated created).Uses (OfKind [.mark]) True := by
    unfold markCreated
    split
    · refine Uses.ctl (List.mem_singleton.2 rfl) fun answer => ?_
      cases answer <;> trivial
    · trivial
  refine Monitor.wp_bind.2 (Monitor.wp_mono ?_ (Monitor.wp_history_of_uses
    (fun s r hr => modifyMust_of_kind (by simp [modifyingKinds]) s r hr) hmark (.trivially _)))
  intro s err _
  cases err <;> trivial

theorem wp_restore_modify {cmd : StoredCommand} (hs : ∀ created, ⟨.createNewClusterReturned created, ()⟩ ∉ s) :
    (Monitor.history modifyMust).wp (m.restore l acked cs spec cmd) s fun _ _ => True := by
  refine Monitor.wp_bind.2 (Monitor.wp_mono ?_ (wp_modify_of_uses (@uses_verifyEtcdVersion l spec _)
    (by simp [modifyingKinds]) (by simp) (.trivially _) hs))
  intro s err ⟨hs, _⟩
  cases err with
  | some err => trivial
  | none =>
  refine Monitor.wp_ctl.2 ⟨nofun, fun _ _ => ?_⟩
  split
  · trivial
  split
  · trivial
  refine Monitor.wp_bind.2 (Monitor.wp_mono ?_ (wp_createNewCluster_modify fun created hmem => ?_))
  · intro s ⟨created, err⟩ _
    refine Monitor.wp_ctl.2 ⟨nofun, fun _ _ => ?_⟩
    split
    · trivial
    · exact Monitor.wp_mono (fun _ _ _ => trivial) (Monitor.wp_history_of_uses
        (fun s r hr => modifyMust_of_kind (by simp [modifyingKinds]) s r hr.1)
        (@uses_restoreBackupAndLiftQuarantine m l cs _ cmd) (.trivially _))
  · rcases List.mem_append.1 hmem with hmem | hmem
    · exact hs created hmem
    · cases List.mem_singleton.1 hmem

theorem wp_run_modify : (Monitor.history modifyMust).wp m.run [] fun _ _ => True := by
  have unreturned {m' : EtcdController} {s : Trace ctlSig} {acked cs now} (h : Ready m s m' acked cs now) (isNew : Bool)
      (created : Bool) : ⟨.createNewClusterReturned created, ()⟩ ∉ s ++ [⟨.isNewCluster, .ok isNew⟩] := by
    intro hmem
    rcases List.mem_append.1 hmem with hmem | hmem
    · cases h.notes _ hmem rfl
    · cases List.mem_singleton.1 hmem
  refine wp_run_history ?_ (fun _ _ _ _ _ => trivial) (fun _ _ _ _ _ _ _ _ _ => trivial) ?_ ?_
  · intro s r _ hr
    exact modifyMust_of_kind (by simp [scoutKinds, modifyingKinds]) s r hr
  · intro s m' l acked cs now hready
    exact wp_newCluster_modify (unreturned hready true)
  · intro s m' l acked cs now hready
    unfold reconcile
    split
    · trivial
    next spec _ =>
    refine Monitor.wp_ctl.2 ⟨fun hmod => hmod.elim, fun _ _ => ?_⟩
    split
    · refine wp_restore_modify fun created hmem => ?_
      rcases List.mem_append.1 hmem with hmem | hmem
      · exact unreturned hready false created hmem
      · cases List.mem_singleton.1 hmem
    · refine Monitor.wp_history_imp uses_maintain ?_ wp_maintain_backup
      intro tr r _ hmust hmod
      refine .inr ⟨cs, List.mem_append_left _ ?_, hmust hmod⟩
      exact List.mem_append_left _ (List.mem_append_left _ hready.clusterState)

end

/-- **No change without a backup.** In every iteration, on every path and
whatever fails, a request that changes the membership, stops etcd outside of
`createNewCluster` or sets a version has a successful backup before it, from a
peer that hosts a member the iteration found healthy. -/
theorem modification_follows_backup {m : EtcdController} {pre post : Trace ctlSig} {e : Event ctlSig}
    {p : CtlM (EtcdController × Progress)} (hrun : Runs m.run (pre ++ e :: post) p) (hmod : e.req.Modifies)
    (hcreating : ¬ (e.req.kind = .stop ∧ Creating pre)) :
    ∃ cs, ⟨.logClusterState cs, ()⟩ ∈ pre ∧ cs.BackedUp pre :=
  (hrun.must_history wp_run_modify hmod).resolve_left hcreating

/-- Two members where there should be one. -/
def Site.shrinking : Site :=
  { peers := [⟨"a", []⟩, ⟨"b", []⟩], info := Site.running ["a", "b"] false
    members := [Site.member "a", Site.member "b"], commands := [], spec := some ⟨1, "3.4.13"⟩, created := true }

/-- One of the two is removed, after a backup. -/
theorem modification_follows_backup_shrinking :
    ∃ (pre post : Trace ctlSig) (e : Event ctlSig) (p : CtlM (EtcdController × Progress)) (cs : ClusterState),
      Runs (Site.shrinking.leader "a").run (pre ++ e :: post) p ∧ e.req.kind = .removeMember ∧
      ⟨.logClusterState cs, ()⟩ ∈ pre ∧ cs.BackedUp pre := by
  let run := (Site.shrinking.leader "a").run.follow Site.shrinking.answer
  obtain ⟨e, htr, hkind, hmod⟩ : ∃ e, run.1 = run.1.take 32 ++ e :: run.1.drop 33 ∧ e.req.kind = .removeMember ∧ e.req.Modifies :=
    ⟨_, rfl, rfl, trivial⟩
  have hrun : Runs (Site.shrinking.leader "a").run (run.1.take 32 ++ e :: run.1.drop 33) run.2 := htr ▸ Prog.follow_runs
  obtain ⟨cs, hlogged, hbacked⟩ := modification_follows_backup hrun hmod fun h => by simp [hkind] at h
  exact ⟨_, _, e, _, cs, hrun, hkind, hlogged, hbacked⟩

end Etcdadm
