/-
Terms of leadership.

A controller that finds a peer with a lower id than its own releases its lock
and returns; what it knows of its leadership it keeps. When it is the lowest
again it goes on under the old token, with the commands, the spec and the
health times it had: it is not elected again. Only a peer that has not
acknowledged the old token, or never having led, brings about a new election.

So a term is fresh in every run in which the controller is never outranked
while it leads.
-/
import Etcdadm.Sight

namespace Etcdadm

open EtcdController ClusterState

variable {m m' : EtcdController} {l : LeadershipState} {cs : ClusterState} {spec : ClusterSpec} {acked : Nat}

/-- The requests that change a node or the cluster: `JoinCluster`, `StopEtcd`,
`Reconfigure`, `DoRestore`, and adding and removing members. -/
def mutatingKinds : List Kind :=
  [.prepare, .initial, .joinExisting, .cancel, .joinOther, .stop, .reconfigure, .restore, .addMember, .removeMember]

/-- The healthy peers have another lowest id. -/
def Event.outranks (id : PeerId) : Event ctlSig → Bool
  | ⟨.peers, infos⟩ => (sortPeers infos).head?.map (·.id) ≠ some id
  | _ => false

/-- The iteration found that we do not have the lowest id. -/
def Outranked (id : PeerId) (tr : Trace ctlSig) : Prop := ∃ e ∈ tr, e.outranks id = true

/-- The iteration was an election, which left the controller as it is now:
every healthy peer accepted a token drawn for it, the commands and the spec
were read again, and the health times are empty. -/
structure EtcdController.Elected (m : EtcdController) (tr : Trace ctlSig) (token : String) : Prop where
  drawn : ⟨.leadershipToken, token⟩ ∈ tr
  accepted : ∃ snapshot, ⟨.snapshotHealthy, snapshot⟩ ∈ tr ∧ ∀ peer info, snapshot.lookup peer = some info →
    ∃ view response, view.leadershipToken = token ∧ response.accepted = true ∧
      ⟨.leaderNotification peer ⟨some view⟩, .ok response⟩ ∈ tr
  leadership : m.leadership.map (·.token) = some token
  commands : ⟨.listCommands, .ok m.controlCommands⟩ ∈ tr
  clusterSpec : ⟨.getExpectedClusterSpec, .ok m.controlClusterSpec⟩ ∈ tr
  peerState : m.peerState = ∅

/-- Among the iterations there is an election, and the controller has not been
outranked since. -/
def EtcdController.FreshTerm (m₀ : EtcdController) (its : List (Trace ctlSig)) : Prop :=
  ∃ before election after m₁ m₂ r token, its = before ++ election :: after ∧ m₀.Loop before m₁ ∧
    Runs m₁.run election (.ret (m₂, r)) ∧ m₂.Elected election token ∧ ∀ tr ∈ after, ¬ Outranked m₀.myInfo.id tr

/-! ## The election -/

section Election

variable {must : Trace ctlSig → CtlReq → Prop} (hmust : ∀ s r, must s r)
include hmust

theorem wp_notifyPeers {request : LeaderNotificationRequest} {failed : PeerId → Error → Error}
    {refused : PeerId → Error} : ∀ (peers : List (PeerId × PeerInfo)) {s : Trace ctlSig},
    (Monitor.history must).wp (notifyPeers request failed refused peers) s fun s' err => err = none →
      ∀ e ∈ peers, ∃ response, response.accepted = true ∧ ⟨.leaderNotification e.1 request, .ok response⟩ ∈ s'
  | [], _ => by
    intro _ e he
    cases he
  | (peerId, info) :: rest, s => by
    refine Monitor.wp_ctl.2 ⟨hmust _ _, fun answer _ => ?_⟩
    cases answer with
    | error err => exact nofun
    | ok response =>
      let s₁ : Trace ctlSig := s ++ [⟨.leaderNotification peerId request, .ok response⟩]
      have hsent : ⟨.leaderNotification peerId request, .ok response⟩ ∈ s₁ := by simp [s₁]
      have hmerge : (Monitor.history must).wp (mergeView response.view) s₁ fun _ _ => True :=
        Monitor.wp_of_returns hmust (fun _ _ => trivial) (.trivially _)
      refine Monitor.wp_bind.2 (Monitor.wp_mono ?_ (Monitor.wp_history_grows hmerge))
      intro s₂ _ hs₂
      by_cases haccepted : response.accepted = true
      · rw [haccepted]
        refine Monitor.wp_mono ?_ (Monitor.wp_history_grows (wp_notifyPeers rest))
        intro s₃ err hs₃ hnone e he
        rcases List.mem_cons.1 he with rfl | he
        · exact ⟨response, haccepted, hs₃.1.subset (hs₂.1.subset hsent)⟩
        · exact hs₃.2 hnone e he
      · rw [Bool.eq_false_iff.2 haccepted]
        exact nofun

/-- What a successful bid has behind it. -/
theorem wp_becomeLeader {s : Trace ctlSig} : (Monitor.history must).wp m.becomeLeader s fun s' r =>
    ∀ peers token, r = .ok (peers, token) → ⟨.leadershipToken, token⟩ ∈ s' ∧
      ∃ snapshot, ⟨.snapshotHealthy, snapshot⟩ ∈ s' ∧ ∀ peer info, snapshot.lookup peer = some info →
        ∃ view response, view.leadershipToken = token ∧ response.accepted = true ∧
          ⟨.leaderNotification peer ⟨some view⟩, .ok response⟩ ∈ s' := by
  refine Monitor.wp_ctl.2 ⟨hmust _ _, fun snapshot _ => ?_⟩
  refine Monitor.wp_range.2 ⟨hmust _ _, fun order _ => ?_⟩
  refine Monitor.wp_ctl.2 ⟨hmust _ _, fun token _ => ?_⟩
  refine Monitor.wp_range.2 ⟨hmust _ _, fun order' _ => ?_⟩
  refine Monitor.wp_bind.2 (Monitor.wp_mono ?_ (Monitor.wp_history_grows (wp_notifyPeers hmust _)))
  intro s' err ⟨hgrows, haccepted⟩
  cases err with
  | some err => exact nofun
  | none =>
    intro peers token' hr
    cases hr
    refine ⟨hgrows.subset (by simp [Monitor.history]), snapshot, hgrows.subset (by simp [Monitor.history]), ?_⟩
    intro peer info hinfo
    have hmem : (peer, info) ∈ snapshot.inOrder order'.1 := (GoMap.mem_inOrder order'.2).2 hinfo
    obtain ⟨response, hacc, hsent⟩ := haccepted rfl _ hmem
    exact ⟨_, response, rfl, hacc, hsent⟩

theorem wp_refreshControlStore {s : Trace ctlSig} :
    (Monitor.history must).wp (m.refreshControlStore 0) s fun s' r => m.Keeps r.1 ∧ (r.2 = none →
      ⟨.listCommands, .ok r.1.controlCommands⟩ ∈ s' ∧ ⟨.getExpectedClusterSpec, .ok r.1.controlClusterSpec⟩ ∈ s') := by
  refine Monitor.wp_ctl.2 ⟨hmust _ _, fun now _ => ?_⟩
  rw [if_neg fun h => h.1 rfl]
  refine Monitor.wp_ctl.2 ⟨hmust _ _, fun answer _ => ?_⟩
  cases answer with
  | error err => exact ⟨.refl m, nofun⟩
  | ok commands =>
    refine Monitor.wp_ctl.2 ⟨hmust _ _, fun answer _ => ?_⟩
    cases answer with
    | error err => exact ⟨.refl m, nofun⟩
    | ok clusterSpec =>
      refine ⟨⟨rfl, rfl⟩, fun _ => ⟨?_, ?_⟩⟩
      · simp [Monitor.history]
      · simp [Monitor.history]

/-- An election leaves the controller without leadership, or elected. -/
theorem wp_elect (hm : m.leadership = none) {s : Trace ctlSig} :
    (Monitor.history must).wp m.elect s fun s' r => r.1.myInfo = m.myInfo ∧
      (r.1.leadership = none ∨ ∃ token, r.1.Elected s' token) := by
  refine Monitor.wp_bind.2 (Monitor.wp_mono ?_ (wp_becomeLeader hmust))
  intro s₁ r hbid
  cases r with
  | error err => exact ⟨rfl, .inl hm⟩
  | ok result =>
    obtain ⟨peers, token⟩ := result
    obtain ⟨hdrawn, snapshot, hsnapshot, haccepted⟩ := hbid peers token rfl
    refine Monitor.wp_bind.2 (Monitor.wp_mono ?_ (Monitor.wp_history_grows (wp_refreshControlStore hmust)))
    intro s₂ ⟨c, err⟩ ⟨hgrows, hkeeps, hread⟩
    cases err with
    | some err => exact ⟨hkeeps.myInfo, .inl (hkeeps.leadership.trans hm)⟩
    | none =>
      obtain ⟨hcommands, hspec⟩ := hread rfl
      refine ⟨hkeeps.myInfo, .inr ⟨token, hgrows.subset hdrawn, ⟨snapshot, hgrows.subset hsnapshot, ?_⟩, rfl, hcommands, hspec, rfl⟩⟩
      intro peer info hinfo
      obtain ⟨view, response, hview, hacc, hsent⟩ := haccepted peer info hinfo
      exact ⟨view, response, hview, hacc, hgrows.subset hsent⟩

end Election

/-! ## One iteration -/

/-- Leading, a controller may resign; otherwise it leads as before. -/
theorem returns_lead {peers : List PeerInfo} : (m.lead l peers).Returns fun r => r.1.myInfo = m.myInfo ∧
    (r.1.leadership = none ∨ r.1.leadership = m.leadership) := by
  have stays {c : EtcdController} (h : m.Keeps c) : c.myInfo = m.myInfo ∧
      (c.leadership = none ∨ c.leadership = m.leadership) := ⟨h.myInfo, .inr h.leadership⟩
  refine .bind (.trivially _) fun err _ => ?_
  cases err with
  | some err => exact stays (.refl m)
  | none =>
  dsimp only
  split
  · exact ⟨rfl, .inl rfl⟩
  refine .bind (.trivially _) fun r _ => ?_
  cases r with
  | error err => exact stays (.refl m)
  | ok cs =>
  refine Returns.ctl fun _ => Returns.ctl fun now => ?_
  refine .bind (.trivially _) fun _ _ => .bind (.trivially _) fun _ _ => ?_
  refine .bind returns_refreshControlStore fun ⟨c, err⟩ hc => ?_
  have hkeeps : m.Keeps c := ⟨hc.myInfo, hc.leadership⟩
  cases err with
  | some err => exact stays hkeeps
  | none =>
  refine Returns.ctl fun answer => ?_
  rcases answer with err | isNew
  · exact stays hkeeps
  cases isNew with
  | true => exact returns_newCluster.mono fun _ h => stays (hkeeps.trans h.toKeeps)
  | false => exact returns_reconcile.mono fun _ h => stays (hkeeps.trans h.toKeeps)

/-- What an iteration does to its leadership: it ends, it stays, or it is new. -/
theorem Runs.leadership {tr : Trace ctlSig} {r : Progress} (h : Runs m.run tr (.ret (m', r))) :
    m'.myInfo = m.myInfo ∧
      (m'.leadership = none ∨ m'.leadership = m.leadership ∨ ∃ token, m'.Elected tr token) := by
  have hmust (s : Trace ctlSig) (r : CtlReq) : (fun _ _ => True : Trace ctlSig → CtlReq → Prop) s r := trivial
  have lift {p : CtlM (EtcdController × Progress)} {s : Trace ctlSig}
      (hp : p.Returns fun r => r.1.myInfo = m.myInfo ∧ (r.1.leadership = none ∨ r.1.leadership = m.leadership)) :
      (Monitor.history fun _ _ => True).wp p s fun s' r => r.1.myInfo = m.myInfo ∧
        (r.1.leadership = none ∨ r.1.leadership = m.leadership ∨ ∃ token, r.1.Elected s' token) := by
    refine Monitor.wp_mono ?_ (Monitor.wp_of_returns hmust (fun _ _ => trivial) hp)
    intro s' r hr
    exact ⟨hr.1, hr.2.imp_right .inl⟩
  suffices hwp : (Monitor.history fun _ _ => True).wp m.run [] fun s r => r.1.myInfo = m.myInfo ∧
      (r.1.leadership = none ∨ r.1.leadership = m.leadership ∨ ∃ token, r.1.Elected s token) from h.of_history hwp
  refine Monitor.wp_ctl.2 ⟨trivial, fun infos _ => ?_⟩
  dsimp only
  split
  · exact ⟨rfl, .inr (.inl rfl)⟩
  split
  · refine lift (.bind returns_releaseLeaderLock fun r hr => ?_)
    exact ⟨hr.myInfo, .inr hr.leadership⟩
  have hlock := Monitor.wp_of_returns (M := Monitor.history fun _ _ => True) (s := [] ++ [⟨.peers, infos⟩]) hmust
    (fun _ _ => trivial) (returns_acquireLeaderLock (m := m))
  refine Monitor.wp_bind.2 (Monitor.wp_mono ?_ hlock)
  intro s ⟨c, r⟩ hc
  cases r with
  | some r => exact ⟨hc.myInfo, .inr (.inl hc.leadership)⟩
  | none =>
    dsimp only
    split
    next hnone =>
      refine Monitor.wp_mono ?_ (wp_elect hmust hnone)
      intro s' r hr
      exact ⟨hr.1.trans hc.myInfo, hr.2.imp_right .inr⟩
    next l hsome =>
      refine lift (returns_lead.mono fun r hr => ⟨hr.1.trans hc.myInfo, ?_⟩)
      rw [← hc.leadership]
      exact hr.2

/-- What may be asked for without leadership. -/
def campaignKinds : List Kind := [.lock, .look, .bid, .notify]

/-- What a leader may ask for. -/
def leadKinds : List Kind := [.lock, .look, .notify, .note, .endpoints, .readMarker] ++ newClusterKinds ++
  (maintainKinds ++ restoreKinds)

theorem uses_lead {peers : List PeerInfo} : (m.lead l peers).Uses (OfKind leadKinds) True := by
  refine .bind (uses_assertLeadership.kinds (by simp [leadKinds])) fun err => ?_
  cases err with
  | some err => trivial
  | none =>
  dsimp only
  split
  · trivial
  refine .bind ((@uses_updateClusterState l peers).kinds (by simp [leadKinds])) fun r => ?_
  cases r with
  | error err => trivial
  | ok cs =>
  refine Uses.ctl (by simp [OfKind, CtlReq.kind, leadKinds]) fun _ => ?_
  refine Uses.ctl (by simp [OfKind, CtlReq.kind, leadKinds]) fun now => ?_
  refine .bind ((@uses_buildMemberMap l cs _).kinds (by simp [leadKinds])) fun memberMap => ?_
  refine .bind ((@uses_broadcastMemberMap l cs memberMap).kinds (by simp [leadKinds])) fun _ => ?_
  refine .bind ((@uses_refreshControlStore l _ _).kinds (by simp [leadKinds])) fun a => ?_
  obtain ⟨c, err⟩ := a
  cases err with
  | some err => trivial
  | none =>
  refine Uses.ctl (by simp [OfKind, CtlReq.kind, leadKinds]) fun answer => ?_
  rcases answer with err | isNew
  · trivial
  cases isNew with
  | true => exact uses_newCluster.kinds (by decide)
  | false => exact uses_reconcile.kinds (by decide)

theorem Prog.Uses.ofKind_mono {α : Type} {p : CtlM α} {kinds kinds' : List Kind} (hp : p.Uses (OfKind kinds) True)
    (h : kinds ⊆ kinds') : p.Uses (OfKind kinds') True :=
  hp.mono fun _ hr => h hr

/-- Only a leader that is not outranked changes anything. -/
theorem Runs.leads {tr : Trace ctlSig} {p : CtlM (EtcdController × Progress)} (h : Runs m.run tr p) {e : Event ctlSig}
    (he : e ∈ tr) (hmut : e.req.kind ∈ mutatingKinds) : m.leadership ≠ none ∧ ¬ Outranked m.myInfo.id tr := by
  rcases h.of_ctl with rfl | ⟨infos, rest, rfl, hbody⟩
  · cases he
  have hrest : e ∈ rest := by
    rcases List.mem_cons.1 he with rfl | he
    · simp [CtlReq.kind, mutatingKinds] at hmut
    · exact he
  -- a part of the iteration that changes nothing does not come to the request
  have idle {α : Type} {p p' : CtlM α} {kinds : List Kind} (h : Runs p rest p') (hp : p.Uses (OfKind kinds) True)
      (hk : kinds.Disjoint mutatingKinds) : False := hk ((h.uses hp).1 e hrest) hmut
  dsimp only at hbody
  split at hbody
  · cases hbody
    cases hrest
  split at hbody
  · exact (idle hbody (.bind uses_releaseLeaderLock fun _ => trivial) (by simp [mutatingKinds])).elim
  next hlowest =>
  constructor
  · intro hnone
    refine idle hbody (.bind_of_returns (uses_acquireLeaderLock.ofKind_mono (by decide)) returns_acquireLeaderLock ?_)
      (show campaignKinds.Disjoint mutatingKinds by simp [campaignKinds, mutatingKinds])
    intro a hc
    obtain ⟨c, r⟩ := a
    cases r with
    | some r => trivial
    | none =>
      dsimp only
      rw [hc.leadership.trans hnone]
      exact uses_elect.ofKind_mono (by decide)
  · intro houtranked
    obtain ⟨⟨r, x⟩, hmem, hrank⟩ := houtranked
    rcases List.mem_cons.1 hmem with heq | hmem
    · cases heq
      exact hlowest (of_decide_eq_true hrank)
    have huses : ∀ e ∈ rest, OfKind (campaignKinds ++ leadKinds) e.req := by
      refine (hbody.uses (.bind (uses_acquireLeaderLock.ofKind_mono (by decide)) ?_)).1
      intro a
      obtain ⟨c, r⟩ := a
      cases r with
      | some r => trivial
      | none =>
        dsimp only
        split
        · exact uses_elect.ofKind_mono (by decide)
        · exact uses_lead.ofKind_mono (List.subset_append_right _ _)
    have hkind : r.kind ∈ campaignKinds ++ leadKinds := huses _ hmem
    cases r with
    | peers => exact absurd hkind (by decide)
    | _ => cases hrank

/-! ## Iterations one after the other -/

/-- Whenever the controller is outranked, it is not leading. -/
def EtcdController.YieldsFirst (m₀ : EtcdController) (its : List (Trace ctlSig)) : Prop :=
  ∀ before tr after m, its = before ++ tr :: after → m₀.Loop before m → Outranked m₀.myInfo.id tr → m.leadership = none

theorem EtcdController.FreshTerm.snoc {m₀ : EtcdController} {its : List (Trace ctlSig)} {tr : Trace ctlSig}
    (h : m₀.FreshTerm its) (htr : ¬ Outranked m₀.myInfo.id tr) : m₀.FreshTerm (its ++ [tr]) := by
  obtain ⟨before, election, after, m₁, m₂, r, token, rfl, hloop, hrun, helected, hafter⟩ := h
  refine ⟨before, election, after ++ [tr], m₁, m₂, r, token, by simp, hloop, hrun, helected, ?_⟩
  exact List.forall_mem_append.2 ⟨hafter, List.forall_mem_singleton.2 htr⟩

/-- What one iteration adds: a controller that leads has a fresh term. -/
theorem EtcdController.Loop.freshTerm {m₀ : EtcdController} {its : List (Trace ctlSig)} (h₀ : m₀.leadership = none)
    (h : m₀.Loop its m) : m₀.YieldsFirst its →
      m.myInfo = m₀.myInfo ∧ (m.leadership = none ∨ m₀.FreshTerm its) := by
  induction h with
  | nil => exact fun _ => ⟨rfl, .inl h₀⟩
  | @snoc m m' its tr r hloop hrun ih =>
    intro hyields
    have hpast : m₀.YieldsFirst its := by
      intro before t after c hits
      exact hyields before t (after ++ [tr]) c (by simp [hits])
    obtain ⟨hid, hterm⟩ := ih hpast
    obtain ⟨hid', hlead⟩ := hrun.leadership
    refine ⟨hid'.trans hid, ?_⟩
    rcases hlead with hnone | hsame | ⟨token, helected⟩
    · exact .inl hnone
    · rcases hterm with hnone | hfresh
      · exact .inl (hsame.trans hnone)
      · by_cases hout : Outranked m₀.myInfo.id tr
        · exact .inl (hsame.trans (hyields its tr [] m rfl hloop hout))
        · exact .inr (hfresh.snoc hout)
    · exact .inr ⟨its, tr, [], m, m', r, token, rfl, hloop, hrun, helected, fun _ h => nomatch h⟩

/-- **Terms of leadership are fresh unless a leader is outranked.** In every
run in which the controller is outranked only when it does not lead, an
iteration that changes a node or the cluster has an election behind it, since
which the controller has not been outranked. -/
theorem mutations_follow_fresh_election {m₀ m : EtcdController} {its : List (Trace ctlSig)} {tr : Trace ctlSig}
    {p : CtlM (EtcdController × Progress)} {e : Event ctlSig} (h₀ : m₀.leadership = none) (hloop : m₀.Loop its m)
    (hyields : m₀.YieldsFirst its) (hrun : Runs m.run tr p) (he : e ∈ tr) (hmut : e.req.kind ∈ mutatingKinds) :
    m₀.FreshTerm its ∧ ¬ Outranked m₀.myInfo.id tr := by
  obtain ⟨hid, hterm⟩ := hloop.freshTerm h₀ hyields
  obtain ⟨hlead, hrank⟩ := hrun.leads he hmut
  rw [hid] at hrank
  exact ⟨hterm.resolve_left hlead, hrank⟩

/-- A cluster of one on the peer `a`, with these peers healthy and these
commands in the store. -/
def Site.recovering (peers : List PeerId) (commands : List StoredCommand) : Site :=
  { peers := peers.map fun id => ⟨id, []⟩, info := Site.running ["a"] false, members := [Site.member "a"]
    commands := commands, spec := some ⟨1, "3.4.13"⟩, created := true }

/-- A command to restore a backup there. -/
def Site.recover : StoredCommand := ⟨"command", ⟨0, some ⟨some ⟨1, "3.4.13"⟩, "backup"⟩⟩⟩

theorem EtcdController.Loop.eq_of_nil {m₀ : EtcdController} (h : m₀.Loop [] m) : m = m₀ := by
  generalize hits : ([] : List (Trace ctlSig)) = its at h
  cases h with
  | nil => rfl
  | snoc _ _ => simp at hits

/-- The controller on `a` is outranked, then elected, then restores: the
election is behind it. -/
theorem mutations_follow_fresh_election_recovering : ∃ (outranked elected tr : Trace ctlSig) (m : EtcdController),
    (Site.controller "a").Loop [outranked, elected] m ∧ Outranked "a" outranked ∧
    (∃ peer request, ⟨.doRestore peer request, .ok ()⟩ ∈ tr) ∧
    (Site.controller "a").FreshTerm [outranked, elected] ∧ ¬ Outranked "a" tr := by
  have hplay : ∃ (tr₁ tr₂ : Trace ctlSig) (m : EtcdController),
      (Site.controller "a").play [.recovering ["0", "a"] [Site.recover], .recovering ["a"] [Site.recover]] =
        some ([tr₁, tr₂], m) ∧
      tr₁.any (Event.outranks "a") = true ∧ tr₂.any (Event.outranks "a") = false ∧
      ∃ (i : Nat) (peer : PeerId) (request : DoRestoreRequest),
        (m.run.follow (Site.recovering ["a"] [Site.recover]).answer).1[i]? = some ⟨.doRestore peer request, .ok ()⟩ :=
    ⟨_, _, _, rfl, rfl, rfl, 34, _, _, rfl⟩
  obtain ⟨tr₁, tr₂, m, hplay, hout, hin, i, peer, request, hrestore⟩ := hplay
  have hmem := List.mem_of_getElem? hrestore
  have hyields : (Site.controller "a").YieldsFirst [tr₁, tr₂] := by
    intro before tr after c hits hloop hrank
    match before, hits with
    | [], _ => rw [hloop.eq_of_nil]; rfl
    | [_], hits =>
      obtain ⟨-, rfl, -⟩ : _ ∧ tr₂ = tr ∧ _ := by simpa using hits
      have hany : tr₂.any (Event.outranks "a") = true := List.any_eq_true.2 hrank
      rw [hin] at hany
      cases hany
    | _ :: _ :: _, hits => simp at hits
  obtain ⟨hfresh, hrank⟩ := mutations_follow_fresh_election rfl (play_loop hplay) hyields Prog.follow_runs hmem
    (show Kind.restore ∈ mutatingKinds by decide)
  exact ⟨tr₁, tr₂, _, m, play_loop hplay, List.any_eq_true.1 hout, ⟨peer, request, hmem⟩, hfresh, hrank⟩

/-- The controller on `a` is elected while a restore is asked for, and is then
outranked; by the time it has the lowest id again, the restore has been done
and its command is gone from the store. It restores once more, under the old
token: there was no election. -/
theorem outranked_leader_acts_on_old_term : ∃ (elected outranked tr : Trace ctlSig) (m : EtcdController)
    (p : CtlM (EtcdController × Progress)),
    (Site.controller "a").leadership = none ∧ (Site.controller "a").Loop [elected, outranked] m ∧ Runs m.run tr p ∧
    (∃ peer request, ⟨.stopEtcd peer request, .ok ()⟩ ∈ tr) ∧
    (∃ peer request, ⟨.doRestore peer request, .ok ()⟩ ∈ tr) ∧
    ¬ (Site.controller "a").FreshTerm [elected, outranked] := by
  have hplay : ∃ (tr₁ : Trace ctlSig) (infos : List PeerInfo) (m : EtcdController),
      (Site.controller "a").play [.recovering ["a"] [Site.recover], .recovering ["0", "a"] []] =
        some ([tr₁, [⟨.peers, infos⟩]], m) ∧
      Event.outranks "a" ⟨.peers, infos⟩ = true ∧
      (∃ (i : Nat) (peer : PeerId) (request : StopEtcdRequest),
        (m.run.follow (Site.recovering ["a"] []).answer).1[i]? = some ⟨.stopEtcd peer request, .ok ()⟩) ∧
      ∃ (i : Nat) (peer : PeerId) (request : DoRestoreRequest),
        (m.run.follow (Site.recovering ["a"] []).answer).1[i]? = some ⟨.doRestore peer request, .ok ()⟩ :=
    ⟨_, _, _, rfl, rfl, ⟨24, _, _, rfl⟩, 34, _, _, rfl⟩
  obtain ⟨tr₁, infos, m, hplay, hrank, ⟨i, peer, request, hstop⟩, j, peer', request', hrestore⟩ := hplay
  refine ⟨tr₁, _, _, m, _, rfl, play_loop hplay, Prog.follow_runs, ⟨peer, request, List.mem_of_getElem? hstop⟩,
    ⟨peer', request', List.mem_of_getElem? hrestore⟩, ?_⟩
  intro ⟨before, election, after, m₁, m₂, r, token, hits, hloop, hrun, helected, hafter⟩
  match before, hits with
  | [], hits =>
    -- if the first was the election, we were outranked after it
    obtain ⟨-, rfl⟩ : tr₁ = election ∧ [[⟨.peers, infos⟩]] = after := by simpa using hits
    exact hafter _ List.mem_cons_self ⟨_, List.mem_cons_self, hrank⟩
  | [_], hits =>
    -- the second drew no token
    obtain ⟨-, rfl, -⟩ : _ ∧ [⟨.peers, infos⟩] = election ∧ [] = after := by simpa using hits
    exact absurd helected.drawn (by simp)
  | _ :: _ :: _, hits => simp at hits

end Etcdadm
