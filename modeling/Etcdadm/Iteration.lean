/-
An iteration as a whole: which requests each of its branches makes, what of
the controller it leaves alone, and one rule (`wp_lead`) that follows it from
the assertion of leadership to the branch it takes.

What an iteration does to the world it does after it has seen the cluster
state and read the marker of a created cluster; a result about iterations says
what it needs up to there (`I`, then `J`) and what each branch must keep.
-/
import Etcdadm.ControllerFacts

namespace Etcdadm

open EtcdController ClusterState

variable {m : EtcdController} {l : LeadershipState} {cs : ClusterState} {spec : ClusterSpec} {acked : Nat}

/-! ## The branches -/

/-- What the upkeep of a running cluster asks for. -/
def maintainKinds : List Kind :=
  [.look, .backup, .prepare, .addMember, .cancel, .joinExisting, .removeMember, .setPeerURLs, .reconfigure,
    .addCommand, .stop]

/-- What a restore asks for. -/
def restoreKinds : List Kind :=
  [.look, .note, .endpoints, .stop, .prepare, .initial, .setSpec, .restore, .removeCommand]

/-- What a new cluster asks for. -/
def newClusterKinds : List Kind := [.look, .note, .endpoints, .stop, .prepare, .initial, .setSpec, .mark]

theorem uses_maintain : (m.maintain l acked cs spec).Uses (Sends l maintainKinds) True := by
  refine .bind (uses_backupMembers.widen (by simp [maintainKinds])) fun c => ?_
  refine .bind (Uses.of_look (by simp [maintainKinds]) uses_verifyEtcdVersion) fun err => ?_
  split
  · trivial
  refine .bind (uses_checkQuarantine.widen (by simp [maintainKinds])) fun r => ?_
  split
  · trivial
  refine .bind (uses_resize.widen (by simp [maintainKinds])) fun r => ?_
  split
  · trivial
  · exact uses_settle.widen (by simp [maintainKinds])

theorem uses_restore {cmd : StoredCommand} : (m.restore l acked cs spec cmd).Uses (Sends l restoreKinds) True := by
  refine .bind (Uses.of_look (by simp [restoreKinds]) uses_verifyEtcdVersion) fun err => ?_
  split
  · trivial
  refine Uses.ctl ⟨by simp [CtlReq.kind, restoreKinds], trivial⟩ fun _ => ?_
  split
  · trivial
  split
  · trivial
  refine .bind (uses_createNewCluster.widen (by simp [restoreKinds])) fun a => ?_
  obtain ⟨created, err⟩ := a
  refine Uses.ctl ⟨by simp [CtlReq.kind, restoreKinds], trivial⟩ fun _ => ?_
  split
  · trivial
  · exact uses_restoreBackupAndLiftQuarantine.widen (by simp [restoreKinds])

theorem uses_reconcile : (m.reconcile l acked cs).Uses (Sends l (maintainKinds ++ restoreKinds)) True := by
  unfold reconcile
  split
  · trivial
  refine Uses.ctl ⟨by simp [CtlReq.kind, restoreKinds], trivial⟩ fun _ => ?_
  split
  · exact uses_restore.widen (by simp)
  · exact uses_maintain.widen (by simp)

theorem uses_newCluster : (m.newCluster l acked cs).Uses (Sends l newClusterKinds) True := by
  refine .bind (Uses.of_look (by simp [newClusterKinds]) uses_refreshControlStore) fun ⟨c, err⟩ => ?_
  cases err with
  | some err => trivial
  | none =>
  dsimp only
  split
  next h =>
    unfold reconcile
    rw [h]
    trivial
  next spec _ =>
    refine .bind (Uses.of_look (by simp [newClusterKinds]) uses_verifyEtcdVersion) fun err => ?_
    split
    · trivial
    split
    · trivial
    refine .bind (uses_createNewCluster.widen (by simp [newClusterKinds])) fun ⟨created, err⟩ => ?_
    refine Uses.ctl ⟨by simp [CtlReq.kind, newClusterKinds], trivial⟩ fun _ => ?_
    dsimp only
    split
    · trivial
    refine .bind ?_ fun err => ?_
    · unfold markCreated
      split
      · refine Uses.ctl ⟨by simp [CtlReq.kind, newClusterKinds], trivial⟩ ?_
        rintro (err | ⟨⟩) <;> trivial
      · trivial
    · split <;> trivial

/-! ## What stays -/

/-- The same controller in the same leadership. -/
structure EtcdController.Keeps (m m' : EtcdController) : Prop where
  myInfo : m'.myInfo = m.myInfo
  leadership : m'.leadership = m.leadership

/-- And the same health of members in its books, with the same settings. -/
structure EtcdController.Stays (m m' : EtcdController) : Prop extends m.Keeps m' where
  peerState : m'.peerState = m.peerState
  disableEtcdTLS : m'.disableEtcdTLS = m.disableEtcdTLS

theorem EtcdController.Keeps.refl (m : EtcdController) : m.Keeps m := ⟨rfl, rfl⟩

theorem EtcdController.Keeps.trans {m m' m'' : EtcdController} (h : m.Keeps m') (h' : m'.Keeps m'') : m.Keeps m'' :=
  ⟨h'.myInfo.trans h.myInfo, h'.leadership.trans h.leadership⟩

theorem EtcdController.Stays.refl (m : EtcdController) : m.Stays m := ⟨⟨rfl, rfl⟩, rfl, rfl⟩

theorem EtcdController.Stays.trans {m m' m'' : EtcdController} (h : m.Stays m') (h' : m'.Stays m'') : m.Stays m'' :=
  ⟨h.toKeeps.trans h'.toKeeps, h'.peerState.trans h.peerState, h'.disableEtcdTLS.trans h.disableEtcdTLS⟩

theorem Returns.ctl {α : Type} {R : α → Prop} {r : CtlReq} {f : r.Resp → CtlM α} (hf : ∀ x, (f x).Returns R) :
    Prog.Returns R (ctl r >>= f) := hf

theorem Returns.range {α V : Type} {R : α → Prop} {m : GoMap V} {f : List (String × V) → CtlM α}
    (hf : ∀ l, l.Perm m.pairs → (f l).Returns R) : Prog.Returns R (range m >>= f) :=
  fun ks => hf _ (GoMap.inOrder_perm ks.2)

theorem returns_refreshControlStore {ttl : Time} : (m.refreshControlStore ttl).Returns fun r => m.Stays r.1 := by
  refine Returns.ctl fun now => ?_
  split
  · exact .refl m
  refine Returns.ctl ?_
  rintro (err | commands)
  · exact .refl m
  refine Returns.ctl ?_
  rintro (err | spec) <;> exact ⟨⟨rfl, rfl⟩, rfl, rfl⟩

theorem returns_removeCommand {cmd : StoredCommand} : (m.removeCommand cmd).Returns fun r => m.Stays r.1 := by
  refine Returns.ctl ?_
  rintro (err | ⟨⟩) <;> exact ⟨⟨rfl, rfl⟩, rfl, rfl⟩

theorem returns_restoreBackupAndLiftQuarantine {cmd : StoredCommand} :
    (m.restoreBackupAndLiftQuarantine l spec cs cmd).Returns fun r => m.Stays r.1 := by
  have stay : m.Stays m := .refl m
  unfold restoreBackupAndLiftQuarantine
  split
  · exact stay
  split
  · exact stay
  refine Returns.ctl ?_
  rintro (err | info)
  · exact stay
  dsimp only
  split
  · exact stay
  refine Returns.range fun peers _ => .bind (.trivially _) fun target _ => ?_
  split
  · exact stay
  refine Returns.ctl ?_
  rintro (err | ⟨⟩)
  · exact stay
  refine .bind (.trivially _) fun err _ => ?_
  split
  · exact stay
  refine .bind returns_removeCommand fun ⟨c, err⟩ hc => ?_
  dsimp only
  split <;> exact hc

theorem returns_waitForCommand : ∀ (n : Nat) (m : EtcdController), (waitForCommand n m).Returns fun r => m.Stays r.1
  | 0, _ => trivial
  | n + 1, m => by
    refine .bind returns_refreshControlStore fun ⟨c, err⟩ hc => ?_
    cases err with
    | some err => exact hc
    | none =>
    dsimp only
    split
    · exact hc
    · exact Returns.ctl fun _ => (returns_waitForCommand n c).mono fun _ h => hc.trans h

theorem returns_stopForUpgrade : (m.stopForUpgrade l spec cs).Returns fun r => m.Stays r.1 := by
  have stay : m.Stays m := .refl m
  refine .bind (.trivially _) fun r _ => ?_
  split
  · exact stay
  refine .bind (.trivially _) fun r _ => ?_
  split
  · exact stay
  refine .bind (.trivially _) fun ⟨_, err⟩ _ => ?_
  dsimp only
  split
  · exact stay
  refine .bind (.trivially _) fun r _ => ?_
  split
  · exact stay
  refine Returns.ctl ?_
  rintro (err | ⟨⟩)
  · exact stay
  refine .bind (returns_waitForCommand _ m) fun ⟨c, err⟩ hc => ?_
  dsimp only
  split
  · exact hc
  refine Returns.range fun members _ => .bind (.trivially _) fun err _ => ?_
  split <;> exact hc

theorem returns_backupMembers : (m.backupMembers l spec cs).Returns fun c => m.Stays c := by
  have stay : m.Stays m := .refl m
  unfold backupMembers
  split
  · refine Returns.ctl fun now => ?_
    split
    · refine .bind (.trivially _) fun r _ => ?_
      split
      · exact stay
      · exact Returns.ctl fun _ => ⟨⟨rfl, rfl⟩, rfl, rfl⟩
    · exact stay
  · exact stay

theorem returns_resize : (m.resize l acked cs spec).Returns fun r => m.Stays r.1 := by
  have stay : m.Stays m := .refl m
  unfold resize
  split
  · split
    · exact .bind returns_refreshControlStore fun _ h => h
    · split
      · exact .bind (.trivially _) fun _ _ => stay
      · exact stay
  · split
    · exact stay
    split
    · split
      · exact .bind (.trivially _) fun _ _ => stay
      · exact stay
    · exact .bind (.trivially _) fun _ _ => stay

theorem returns_settle : (m.settle l acked cs spec).Returns fun r => m.Stays r.1 := by
  have stay : m.Stays m := .refl m
  refine .bind (.trivially _) fun ⟨changed, err⟩ _ => ?_
  dsimp only
  split
  · exact stay
  split
  · split
    · split
      · exact .bind (.trivially _) fun _ _ => stay
      · exact returns_stopForUpgrade
    · exact stay
  · exact stay

theorem returns_maintain : (m.maintain l acked cs spec).Returns fun r => m.Stays r.1 := by
  refine .bind returns_backupMembers fun c hc => ?_
  refine .bind (.trivially _) fun err _ => ?_
  split
  · exact hc
  refine .bind (.trivially _) fun r _ => ?_
  split
  · exact hc
  refine .bind returns_resize fun ⟨c', r⟩ hc' => ?_
  cases r with
  | some r => exact hc.trans hc'
  | none => exact returns_settle.mono fun _ h => (hc.trans hc').trans h

theorem returns_restore {cmd : StoredCommand} : (m.restore l acked cs spec cmd).Returns fun r => m.Stays r.1 := by
  have stay : m.Stays m := .refl m
  refine .bind (.trivially _) fun err _ => ?_
  split
  · exact stay
  refine Returns.ctl fun _ => ?_
  split
  · exact stay
  split
  · exact stay
  refine .bind (.trivially _) fun ⟨created, err⟩ _ => Returns.ctl fun _ => ?_
  split
  · exact stay
  · exact returns_restoreBackupAndLiftQuarantine

theorem returns_reconcile : (m.reconcile l acked cs).Returns fun r => m.Stays r.1 := by
  unfold reconcile
  split
  · exact .refl m
  refine Returns.ctl fun _ => ?_
  split
  · exact returns_restore
  · exact returns_maintain

theorem returns_newCluster : (m.newCluster l acked cs).Returns fun r => m.Stays r.1 := by
  refine .bind returns_refreshControlStore fun ⟨c, err⟩ hc => ?_
  cases err with
  | some err => exact hc
  | none =>
  dsimp only
  split
  · exact returns_reconcile.mono fun _ h => hc.trans h
  · refine .bind (.trivially _) fun err _ => ?_
    split
    · exact hc
    split
    · exact hc
    refine .bind (.trivially _) fun ⟨created, err⟩ _ => Returns.ctl fun _ => ?_
    dsimp only
    split
    · exact hc
    refine .bind (.trivially _) fun err _ => ?_
    split <;> exact hc

theorem returns_releaseLeaderLock : m.releaseLeaderLock.Returns fun r => m.Stays r.1 := by
  unfold releaseLeaderLock
  split
  · refine Returns.ctl fun answer => ?_
    cases answer with
    | error err => exact .refl m
    | ok _ => exact ⟨⟨rfl, rfl⟩, rfl, rfl⟩
  · exact .refl m

theorem returns_acquireLeaderLock : m.acquireLeaderLock.Returns fun r => m.Stays r.1 := by
  unfold acquireLeaderLock
  split
  · refine Returns.ctl fun answer => ?_
    rcases answer with err | got
    · exact .refl m
    · cases got with
      | true => exact ⟨⟨rfl, rfl⟩, rfl, rfl⟩
      | false => exact .refl m
  · exact .refl m

/-- An election forgets who was healthy, or leaves everything as it is. -/
theorem returns_elect : m.elect.Returns fun r => m.Stays r.1 ∨ r.1.peerState = ∅ := by
  refine .bind (.trivially _) fun r _ => ?_
  rcases r with err | ⟨acked, token⟩
  · exact .inl (.refl m)
  · refine .bind returns_refreshControlStore fun ⟨c, err⟩ hc => ?_
    cases err with
    | some err => exact .inl hc
    | none => exact .inr rfl

/-! ## The cluster state it sees -/

/-- The maps have the keys the iteration files under, and the healthy members
are members. -/
structure ClusterState.Consistent (cs : ClusterState) : Prop where
  member_id : ∀ id member, cs.members.lookup id = some member → member.id = id
  healthy : ∀ id member, cs.healthyMembers.lookup id = some member → cs.members.lookup id = some member
  peer_id : ∀ id p, cs.peers.lookup id = some p → p.peer.id = id

theorem returns_collectInfo : ∀ (infos : List PeerInfo) {peers : GoMap ClusterPeerInfo},
    (∀ id p, peers.lookup id = some p → p.peer.id = id) →
    (collectInfo infos peers).Returns fun r => ∀ peers', r = .ok peers' →
      ∀ id p, peers'.lookup id = some p → p.peer.id = id
  | [], peers, h => by
    intro peers' hr
    cases hr
    exact h
  | p :: rest, peers, h => by
    refine Returns.ctl ?_
    rintro (err | info)
    · exact fun _ hr => nomatch hr
    · refine returns_collectInfo rest fun id q hq => ?_
      obtain ⟨rfl, rfl⟩ | ⟨-, hq⟩ := GoMap.lookup_insert_eq_some.1 hq
      · rfl
      · exact h id q hq

theorem foldl_insert_id : ∀ (members : List EtcdProcessMember) {ms : GoMap EtcdProcessMember},
    (∀ id member, ms.lookup id = some member → member.id = id) →
    ∀ id member, (members.foldl (fun ms member => ms.insert member.id member) ms).lookup id = some member →
      member.id = id
  | [], _, h => h
  | member :: rest, ms, h => by
    refine foldl_insert_id rest fun id v hv => ?_
    obtain ⟨rfl, rfl⟩ | ⟨-, hv⟩ := GoMap.lookup_insert_eq_some.1 hv
    · rfl
    · exact h id v hv

theorem returns_listMembersVia : ∀ peers : List (PeerId × ClusterPeerInfo),
    (listMembersVia peers).Returns fun ms => ∀ id member, ms.lookup id = some member → member.id = id
  | [] => fun id member h => by simp at h
  | (_, p) :: rest => by
    unfold listMembersVia
    split
    · exact returns_listMembersVia rest
    refine Returns.ctl ?_
    rintro (err | members)
    · exact returns_listMembersVia rest
    dsimp only
    split
    · trivial
    · exact foldl_insert_id members fun id member h => by simp at h

theorem returns_checkHealth : ∀ (members : List (EtcdMemberId × EtcdProcessMember)) {healthy : GoMap EtcdProcessMember},
    (∀ e ∈ members, cs.members.lookup e.1 = some e.2) →
    (∀ id member, healthy.lookup id = some member → cs.members.lookup id = some member) →
    (checkHealth cs members healthy).Returns fun healthy' =>
      ∀ id member, healthy'.lookup id = some member → cs.members.lookup id = some member
  | [], _, _, h => h
  | (id, member) :: rest, healthy, hm, h => by
    have hrest : ∀ e ∈ rest, cs.members.lookup e.1 = some e.2 := fun e he => hm e (by simp [he])
    refine .bind (.trivially _) fun urls _ => Returns.ctl ?_
    rintro (err | _)
    · exact returns_checkHealth rest hrest h
    · refine returns_checkHealth rest hrest fun id' v hv => ?_
      obtain ⟨rfl, rfl⟩ | ⟨-, hv⟩ := GoMap.lookup_insert_eq_some.1 hv
      · exact hm (id', v) (by simp)
      · exact h id' v hv

theorem returns_updateClusterState {infos : List PeerInfo} :
    (updateClusterState infos).Returns fun r => ∀ cs, r = .ok cs → cs.Consistent := by
  refine .bind (returns_collectInfo infos fun id p h => by simp at h) fun r hr => ?_
  split
  next err => exact fun _ h => nomatch h
  next peers =>
    have hpeers := hr peers rfl
    refine Returns.range fun ps _ => .bind (returns_listMembersVia ps) fun members hmembers => ?_
    refine Returns.range fun ms hms => .bind (@returns_checkHealth ⟨members, peers, ∅⟩ ms ∅ ?_ ?_) ?_
    · exact fun e he => GoMap.mem_pairs.1 (hms.mem_iff.1 he)
    · exact fun id member h => by simp at h
    · intro healthy hhealthy cs h
      cases h
      exact ⟨hmembers, hhealthy, hpeers⟩

/-- Some member has the name. -/
def ClusterState.hasName (members : GoMap EtcdProcessMember) (name : String) : Bool :=
  members.pairs.any (·.2.name == name)

theorem returns_findByName {members : GoMap EtcdProcessMember} {name : String} :
    (findByName members name).Returns fun r => r.isSome = hasName members name := by
  refine Returns.range fun l hl => ?_
  have hfind : (l.find? (·.2.name == name)).isSome = l.any (·.2.name == name) := by
    rw [Bool.eq_iff_iff, List.find?_isSome, List.any_eq_true]
  have hany : l.any (·.2.name == name) = hasName members name := by
    rw [hasName, Bool.eq_iff_iff, List.any_eq_true, List.any_eq_true]
    simp only [hl.mem_iff]
  exact Option.isSome_map.trans (hfind.trans hany)

/-! ## From the assertion of leadership to a branch -/

section Lead

variable {σ : Type} {M : Monitor ctlSig σ} {I : σ → Prop} {J : ClusterState → Time → σ → Prop}
  {Q : σ → EtcdController × Progress → Prop} {peers : List PeerInfo}

/-- Where requests of some kinds keep what is known, so does a step that makes
only those. -/
theorem wp_keep {α : Type} {K : σ → Prop} {kinds : List Kind} {p : CtlM α} {s : σ} {Q : σ → α → Prop}
    {R : α → Prop} (hstep : ∀ s r, K s → Sends l kinds r → M.must s r ∧ ∀ x, M.may s r x → K (M.next s r x))
    (hdies : ∀ s e, M.crash s e) (hp : p.Uses (Sends l kinds) True) (hr : p.Returns R) (hs : K s)
    (hQ : ∀ s a, K s → R a → Q s a) : M.wp p s Q :=
  Monitor.wp_mono (fun s a h => hQ s a h.1 h.2)
    (Monitor.wp_and_returns (Monitor.wp_of_uses hstep (fun s e _ _ => hdies s e) hp hs) hr)

/-- The controller after it has noted who was healthy. -/
def EtcdController.noting (m : EtcdController) (now : Time) (cs : ClusterState) : EtcdController :=
  { m with peerState := trackHealth now cs m.peerState }

theorem EtcdController.Stays.noting {m m' : EtcdController} (h : m.Stays m') (now : Time) (cs : ClusterState) :
    (m.noting now cs).Stays (m'.noting now cs) := by
  refine ⟨⟨h.myInfo, h.leadership⟩, ?_, h.disableEtcdTLS⟩
  show trackHealth now cs m'.peerState = trackHealth now cs m.peerState
  rw [h.peerState]

/-- `I` is what is known before the cluster state is seen, `J` what is known
after, at the time of the clock reading that goes with it; `acts` is left with
the marker and the two branches. -/
theorem wp_lead {s : σ} (hs : I s) (dies : ∀ s e, M.crash s e)
    (asks : ∀ s r, I s → Sends l [.look, .notify] r → M.must s r ∧ ∀ x, M.may s r x → I (M.next s r x))
    (fails : ∀ s err, I s → Q s (m, false, some err))
    (resigns : ∀ s, I s → Q s ({ m with leadership := none }, false, none))
    (sees : ∀ s cs, I s → cs.Consistent → M.must s (.logClusterState cs) ∧
      (M.may s (.logClusterState cs) () → M.must (M.next s (.logClusterState cs) ()) .now ∧
        ∀ now, M.may (M.next s (.logClusterState cs) ()) .now now →
          J cs now (M.next (M.next s (.logClusterState cs) ()) .now now)))
    (tells : ∀ cs now s r, J cs now s → Sends l [.look, .endpoints] r →
      M.must s r ∧ ∀ x, M.may s r x → J cs now (M.next s r x))
    (gives_up : ∀ cs now s m' err, J cs now s → (m.noting now cs).Stays m' → Q s (m', false, some err))
    (acts : ∀ cs now s m', J cs now s → (m.noting now cs).Stays m' → M.must s .isNewCluster ∧
      (∀ err, M.may s .isNewCluster (.error err) → ∀ text, Q (M.next s .isNewCluster (.error err)) (m', false, some text)) ∧
      (M.may s .isNewCluster (.ok true) →
        M.wp (m'.newCluster l peers.length cs) (M.next s .isNewCluster (.ok true)) Q) ∧
      (M.may s .isNewCluster (.ok false) →
        M.wp (m'.reconcile l peers.length cs) (M.next s .isNewCluster (.ok false)) Q)) :
    M.wp (m.lead l peers) s Q := by
  refine Monitor.wp_bind.2 (wp_keep asks dies uses_assertLeadership (.trivially _) hs fun s err hs _ => ?_)
  cases err with
  | some err => exact fails s _ hs
  | none =>
  dsimp only
  split
  · exact resigns s hs
  refine Monitor.wp_bind.2 (wp_keep asks dies (uses_updateClusterState.widen (by simp))
    returns_updateClusterState hs fun s r hs hr => ?_)
  cases r with
  | error err => exact fails s _ hs
  | ok cs =>
  obtain ⟨hmust, hlogged⟩ := sees s cs hs (hr cs rfl)
  refine Monitor.wp_ctl.2 ⟨hmust, fun _ hmay => ?_⟩
  obtain ⟨hmust, hnow⟩ := hlogged hmay
  refine Monitor.wp_ctl.2 ⟨hmust, fun now hmay => ?_⟩
  have hJ := hnow now hmay
  refine Monitor.wp_bind.2 (wp_keep (tells cs now) dies (uses_buildMemberMap.widen (by simp)) (.trivially _) hJ
    fun s _ hJ _ => ?_)
  refine Monitor.wp_bind.2 (wp_keep (tells cs now) dies uses_broadcastMemberMap (.trivially _) hJ fun s _ hJ _ => ?_)
  refine Monitor.wp_bind.2 (wp_keep (tells cs now) dies (uses_refreshControlStore.widen (by simp))
    (@returns_refreshControlStore (m.noting now cs) _) hJ fun s ⟨m', err⟩ hJ hstays => ?_)
  cases err with
  | some err => exact gives_up cs now s m' _ hJ hstays
  | none =>
  obtain ⟨hmust, herr, hnew, hold⟩ := acts cs now s m' hJ hstays
  refine Monitor.wp_ctl.2 ⟨hmust, ?_⟩
  rintro (err | _ | _) hmay
  · exact herr err hmay _
  · exact hold hmay
  · exact hnew hmay

end Lead

/-! ## Iterations one after the other -/

/-- A controller goes through iterations, whose traces these are. -/
inductive EtcdController.Loop : EtcdController → List (Trace ctlSig) → EtcdController → Prop
  | nil {m : EtcdController} : Loop m [] m
  | snoc {m m' m'' : EtcdController} {its tr r} : Loop m its m' → Runs m'.run tr (.ret (m'', r)) →
      Loop m (its ++ [tr]) m''

theorem EtcdController.Loop.cons {m m' m'' : EtcdController} {its : List (Trace ctlSig)} {tr : Trace ctlSig}
    {r : Progress} (hr : Runs m.run tr (.ret (m', r))) (h : m'.Loop its m'') : m.Loop (tr :: its) m'' := by
  induction h with
  | nil => exact .snoc .nil hr
  | snoc _ hr' ih => exact .snoc ih hr'

end Etcdadm
