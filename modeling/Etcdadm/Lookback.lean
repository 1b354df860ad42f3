/-
Looking back over an iteration from one of its requests.

What a leader does to the cluster it does on the strength of what it found out
earlier in the same iteration: how many peers are there, which members answer
and at what time it noted that, whether the cluster was created, and what size
and version it should have. `Standing` is that, as events of the trace, so
that a result about one request can say what was behind it.

`wp_run_history` follows an iteration with its whole history up to the branch
it takes, `wp_run_upkeep` up to the upkeep of a running cluster.
-/
import Etcdadm.Sight

namespace Etcdadm

open EtcdController ClusterState

/-! ## The observation of an iteration -/

/-- The cluster state that was logged, and with the clock reading after it the
first observation. -/
structure Watch where
  logged : Option ClusterState
  observation : Option (ClusterState × Time)

namespace Watch

def blank : Watch := ⟨none, none⟩

def next (w : Watch) : (r : CtlReq) → r.Resp → Watch
  | .logClusterState cs, _ => if w.observation.isSome then w else { w with logged := some cs }
  | .now, now =>
    match w.observation, w.logged with
    | none, some cs => { w with observation := some (cs, now) }
    | _, _ => w
  | _, _ => w

theorem next_blank {r : CtlReq} (h : r.kind ≠ .note) (x : r.Resp) : blank.next r x = blank := by
  cases r with
  | logClusterState cs => exact (h rfl).elim
  | _ => rfl

theorem next_observation {w : Watch} {o : ClusterState × Time} (h : w.observation = some o) (r : CtlReq) (x : r.Resp) :
    (w.next r x).observation = some o := by
  cases r with
  | logClusterState cs =>
    unfold next
    rw [h]
    exact h
  | now =>
    unfold next
    rw [h]
    exact h
  | _ => exact h

end Watch

def watch (tr : Trace ctlSig) : Watch := tr.foldl (fun w e => w.next e.req e.resp) .blank

/-- Which members an iteration found healthy, and when it noted that. -/
def observed (tr : Trace ctlSig) : Option (ClusterState × Time) := (watch tr).observation

theorem watch_snoc {tr : Trace ctlSig} {e : Event ctlSig} : watch (tr ++ [e]) = (watch tr).next e.req e.resp := by
  simp [watch]

/-- The first observation stands. -/
theorem observed_append {tr : Trace ctlSig} {o : ClusterState × Time} (h : observed tr = some o) (tr' : Trace ctlSig) :
    observed (tr ++ tr') = some o := by
  induction tr' using List.reverseRecOn with
  | nil => rwa [List.append_nil]
  | append_singleton tr' e ih =>
    rw [← List.append_assoc, observed, watch_snoc]
    exact Watch.next_observation ih e.req e.resp

/-! ## What is behind a request -/

/-- The iteration has found this many peers, observed this state of the cluster,
read that it was created, and logged this spec for it. -/
structure Standing (tr : Trace ctlSig) (acked : Nat) (cs : ClusterState) (spec : ClusterSpec) : Prop where
  acked : ∃ infos, ⟨.peers, infos⟩ ∈ tr ∧ infos.length = acked
  observed : ∃ now, observed tr = some (cs, now)
  created : ⟨.isNewCluster, .ok false⟩ ∈ tr
  clusterSpec : ⟨.logSpec spec, ()⟩ ∈ tr

theorem Standing.mono {tr tr' : Trace ctlSig} {acked : Nat} {cs : ClusterState} {spec : ClusterSpec}
    (h : Standing tr acked cs spec) (hgrows : tr <+: tr') : Standing tr' acked cs spec := by
  obtain ⟨infos, hpeers, hlen⟩ := h.acked
  obtain ⟨now, hobs⟩ := h.observed
  obtain ⟨more, rfl⟩ := hgrows
  exact ⟨⟨infos, List.mem_append_left _ hpeers, hlen⟩, ⟨now, observed_append hobs more⟩,
    List.mem_append_left _ h.created, List.mem_append_left _ h.clusterSpec⟩

/-- No restore-backup command was found pending. -/
def Unpending (tr : Trace ctlSig) : Prop := ∀ data, ⟨.logRestoreCommand data, ()⟩ ∉ tr

/-- The controller, `m` when the iteration began, is now `m'` and about to read
whether the cluster is new. -/
structure Ready (m : EtcdController) (s : Trace ctlSig) (m' : EtcdController) (acked : Nat) (cs : ClusterState)
    (now : Time) : Prop where
  scouted : ∀ e ∈ s, e.req.kind ∈ scoutKinds
  unread : ∀ e ∈ s, e.req.kind ≠ .readMarker
  notes : ∀ e ∈ s, e.req.kind = .note → e.req = .logClusterState cs
  acked : ∃ infos, [⟨.peers, infos⟩] <+: s ∧ infos.length = acked
  clusterState : ⟨.logClusterState cs, ()⟩ ∈ s
  observed : observed s = some (cs, now)
  consistent : cs.Consistent
  stays : (m.noting now cs).Stays m'

/-- What is behind the branch of a created cluster once the spec is logged. -/
theorem Ready.standing {m m' : EtcdController} {s : Trace ctlSig} {acked : Nat} {cs : ClusterState} {now : Time}
    (h : Ready m s m' acked cs now) (spec : ClusterSpec) :
    Standing (s ++ [⟨.isNewCluster, .ok false⟩] ++ [⟨.logSpec spec, ()⟩]) acked cs spec := by
  obtain ⟨infos, hpeers, hlen⟩ := h.acked
  have hmem : ⟨.peers, infos⟩ ∈ s := hpeers.subset (List.mem_singleton.2 rfl)
  refine ⟨⟨infos, by simp [hmem], hlen⟩, ⟨now, ?_⟩, by simp, by simp⟩
  exact observed_append (observed_append h.observed _) _

section

variable {m : EtcdController} {must : Trace ctlSig → CtlReq → Prop} {Q : Trace ctlSig → EtcdController × Progress → Prop}

theorem forall_mem_snoc {P : Event ctlSig → Prop} {s : Trace ctlSig} {e : Event ctlSig} (hs : ∀ e ∈ s, P e)
    (he : P e) : ∀ e' ∈ s ++ [e], P e' :=
  List.forall_mem_append.2 ⟨hs, List.forall_mem_singleton.2 he⟩

/-- Nothing was observed so far, nor the marker read. -/
structure Blank (s : Trace ctlSig) : Prop where
  scouted : ∀ e ∈ s, e.req.kind ∈ scoutKinds
  unread : ∀ e ∈ s, e.req.kind ≠ .readMarker
  unnoted : ∀ e ∈ s, e.req.kind ≠ .note
  unwatched : watch s = .blank

theorem Blank.observed {s : Trace ctlSig} (h : Blank s) : observed s = none := by
  rw [Etcdadm.observed, h.unwatched]
  rfl

/-- The kinds that leave it at that. -/
def blankKinds : List Kind := [.roster, .look, .lock, .bid, .notify, .endpoints]

theorem blankKinds_scout {k : Kind} (h : k ∈ blankKinds) : k ∈ scoutKinds ∧ k ≠ .readMarker ∧ k ≠ .note := by
  have hall : ∀ k ∈ blankKinds, k ∈ scoutKinds ∧ k ≠ .readMarker ∧ k ≠ .note := by simp [blankKinds, scoutKinds]
  exact hall k h

theorem Blank.snoc {s : Trace ctlSig} (h : Blank s) {r : CtlReq} (hr : r.kind ∈ blankKinds) (x : r.Resp) :
    Blank (s ++ [⟨r, x⟩]) := by
  obtain ⟨hscout, hmarker, hnote⟩ := blankKinds_scout hr
  refine ⟨forall_mem_snoc h.scouted hscout, forall_mem_snoc h.unread hmarker, forall_mem_snoc h.unnoted hnote, ?_⟩
  rw [watch_snoc, h.unwatched]
  exact Watch.next_blank hnote x

/-- The cluster state is logged and the clock read: there is an observation. -/
theorem Blank.ready {s : Trace ctlSig} {infos : List PeerInfo} {cs : ClusterState} (h : Blank s)
    (hpeers : [⟨.peers, infos⟩] <+: s) (hc : cs.Consistent) (now : Time) :
    Ready m (s ++ [⟨.logClusterState cs, ()⟩] ++ [⟨.now, now⟩]) (m.noting now cs) infos.length cs now where
  scouted := by
    refine forall_mem_snoc (forall_mem_snoc h.scouted ?_) ?_ <;> simp [CtlReq.kind, scoutKinds]
  unread := by
    refine forall_mem_snoc (forall_mem_snoc h.unread ?_) ?_ <;> simp [CtlReq.kind]
  notes := by
    refine forall_mem_snoc (forall_mem_snoc ?_ fun _ => rfl) (by simp [CtlReq.kind])
    intro e he hnote
    exact (h.unnoted e he hnote).elim
  acked := ⟨infos, (hpeers.trans (List.prefix_append _ _)).trans (List.prefix_append _ _), rfl⟩
  clusterState := List.mem_append_left _ (List.mem_append_right _ (List.mem_singleton.2 rfl))
  observed := by
    show (watch (s ++ [⟨.logClusterState cs, ()⟩] ++ [⟨.now, now⟩])).observation = _
    rw [watch_snoc, watch_snoc, h.unwatched]
    rfl
  consistent := hc
  stays := .refl _

theorem Ready.snoc {m' : EtcdController} {s : Trace ctlSig} {acked : Nat} {cs : ClusterState} {now : Time}
    (h : Ready m s m' acked cs now) {r : CtlReq} (hr : r.kind ∈ blankKinds) (x : r.Resp) :
    Ready m (s ++ [⟨r, x⟩]) m' acked cs now := by
  obtain ⟨hscout, hmarker, hnote⟩ := blankKinds_scout hr
  obtain ⟨infos, hpeers, hlen⟩ := h.acked
  exact { h with
    scouted := forall_mem_snoc h.scouted hscout
    unread := forall_mem_snoc h.unread hmarker
    notes := forall_mem_snoc h.notes fun hkind => (hnote hkind).elim
    acked := ⟨infos, hpeers.trans (List.prefix_append _ _), hlen⟩
    clusterState := List.mem_append_left _ h.clusterState
    observed := observed_append h.observed _ }

section Scouting

variable (scouts : ∀ s r, (∀ e ∈ s, e.req.kind ∈ scoutKinds) → r.kind ∈ scoutKinds → must s r)
include scouts

theorem wp_blank {α : Type} {p : CtlM α} {s : Trace ctlSig} {kinds : List Kind} {R : α → Prop}
    (hs : Blank s) (hp : p.Uses (OfKind kinds) True) (hk : kinds ⊆ blankKinds) (hr : p.Returns R) :
    (Monitor.history must).wp p s fun s' a => s <+: s' ∧ Blank s' ∧ R a := by
  refine Monitor.wp_history_grows (Monitor.wp_and_returns (Monitor.wp_of_uses (I := Blank) ?_
    (fun _ _ _ _ => trivial) hp hs) hr)
  intro s r hs hr
  exact ⟨scouts s r hs.scouted (blankKinds_scout (hk hr)).1, fun x _ => hs.snoc (hk hr) x⟩

/-- A leader is right where it ends without a branch, and in both branches. -/
theorem wp_lead_history {l : LeadershipState} {infos peers : List PeerInfo} {s : Trace ctlSig} (hs : Blank s)
    (hpeers : [⟨.peers, infos⟩] <+: s) (hlen : infos.length = peers.length)
    (quits : ∀ s m' r, observed s = none → m'.peerState = m.peerState → Q s (m', r))
    (fails : ∀ s cs now m' r, observed s = some (cs, now) → cs.Consistent →
      (∀ isNew, ⟨.isNewCluster, .ok isNew⟩ ∉ s) → (m.noting now cs).Stays m' → Q s (m', r))
    (creates : ∀ s m' cs now, Ready m s m' peers.length cs now →
      (Monitor.history must).wp (m'.newCluster l peers.length cs) (s ++ [⟨.isNewCluster, .ok true⟩]) Q)
    (reconciles : ∀ s m' cs now, Ready m s m' peers.length cs now →
      (Monitor.history must).wp (m'.reconcile l peers.length cs) (s ++ [⟨.isNewCluster, .ok false⟩]) Q) :
    (Monitor.history must).wp (m.lead l peers) s Q := by
  let I (s : Trace ctlSig) : Prop := Blank s ∧ [⟨.peers, infos⟩] <+: s
  -- all of `Ready` but the controller
  let J (cs : ClusterState) (now : Time) (s : Trace ctlSig) : Prop := Ready m s (m.noting now cs) peers.length cs now
  refine wp_lead (I := I) (J := J) ⟨hs, hpeers⟩ (fun _ _ => trivial) ?_ ?_ ?_ ?_ ?_ ?_ ?_
  · intro s r hs hr
    have hblank : r.kind ∈ blankKinds := (by simp [blankKinds] : [Kind.look, .notify] ⊆ blankKinds) hr.1
    refine ⟨scouts s r hs.1.scouted (blankKinds_scout hblank).1, fun x _ => ?_⟩
    exact ⟨hs.1.snoc hblank x, hs.2.trans (List.prefix_append _ _)⟩
  · intro s err hs
    exact quits s _ _ hs.1.observed rfl
  · intro s hs
    exact quits s _ _ hs.1.observed rfl
  · intro s cs hs hc
    have hlog : CtlReq.kind (.logClusterState cs) ∈ scoutKinds := by simp [CtlReq.kind, scoutKinds]
    have hnow : CtlReq.kind .now ∈ scoutKinds := by simp [CtlReq.kind, scoutKinds]
    have hs₁ := forall_mem_snoc (e := ⟨.logClusterState cs, ()⟩) hs.1.scouted hlog
    refine ⟨scouts _ _ hs.1.scouted hlog, fun _ => ⟨scouts _ _ hs₁ hnow, fun now _ => ?_⟩⟩
    have hready : Ready m _ (m.noting now cs) infos.length cs now := hs.1.ready hs.2 hc now
    rwa [hlen] at hready
  · intro cs now s r hs hr
    have hblank : r.kind ∈ blankKinds := (by simp [blankKinds] : [Kind.look, .endpoints] ⊆ blankKinds) hr.1
    exact ⟨scouts s r hs.scouted (blankKinds_scout hblank).1, fun x _ => hs.snoc hblank x⟩
  · intro cs now s m' err hs hm
    exact fails s cs now m' _ hs.observed hs.consistent (fun isNew hmem => hs.unread _ hmem rfl) hm
  · intro cs now s m' hs hm
    have hready : Ready m s m' peers.length cs now := { hs with stays := hm }
    refine ⟨scouts s _ hs.scouted (by simp [CtlReq.kind, scoutKinds]), fun err _ text => ?_, fun _ => ?_, fun _ => ?_⟩
    · refine fails _ cs now m' _ (observed_append hs.observed _) hs.consistent ?_ hm
      intro isNew hmem
      rcases List.mem_append.1 hmem with hmem | hmem
      · exact hs.unread _ hmem rfl
      · cases List.mem_singleton.1 hmem
    · exact creates s m' cs now hready
    · exact reconciles s m' cs now hready

/-- So is an iteration. -/
theorem wp_run_history
    (quits : ∀ s m' r, observed s = none → m'.peerState = m.peerState ∨ m'.peerState = ∅ → Q s (m', r))
    (fails : ∀ s cs now m' r, observed s = some (cs, now) → cs.Consistent →
      (∀ isNew, ⟨.isNewCluster, .ok isNew⟩ ∉ s) → (m.noting now cs).Stays m' → Q s (m', r))
    (creates : ∀ s m' l acked cs now, Ready m s m' acked cs now →
      (Monitor.history must).wp (m'.newCluster l acked cs) (s ++ [⟨.isNewCluster, .ok true⟩]) Q)
    (reconciles : ∀ s m' l acked cs now, Ready m s m' acked cs now →
      (Monitor.history must).wp (m'.reconcile l acked cs) (s ++ [⟨.isNewCluster, .ok false⟩]) Q) :
    (Monitor.history must).wp m.run [] Q := by
  refine Monitor.wp_ctl.2 ⟨scouts _ _ (by simp) (by simp [CtlReq.kind, scoutKinds]), fun infos _ => ?_⟩
  have hstart : Blank [⟨.peers, infos⟩] :=
    ⟨List.forall_mem_singleton.2 (by simp [CtlReq.kind, scoutKinds]), List.forall_mem_singleton.2 (by simp [CtlReq.kind]),
      List.forall_mem_singleton.2 (by simp [CtlReq.kind]), rfl⟩
  dsimp only
  split
  · exact quits _ _ _ rfl (.inl rfl)
  split
  · refine Monitor.wp_bind.2 (Monitor.wp_mono ?_
      (wp_blank scouts hstart uses_releaseLeaderLock (by simp [blankKinds]) returns_releaseLeaderLock))
    intro s r hreleased
    obtain ⟨-, hs, hstays⟩ := hreleased
    exact quits s _ _ hs.observed (.inl hstays.peerState)
  refine Monitor.wp_bind.2 (Monitor.wp_mono ?_
    (wp_blank scouts hstart uses_acquireLeaderLock (by simp [blankKinds]) returns_acquireLeaderLock))
  intro s a hacquired
  obtain ⟨c, r⟩ := a
  obtain ⟨hgrows, hs, hstays⟩ := hacquired
  cases r with
  | some r => exact quits s _ _ hs.observed (.inl hstays.peerState)
  | none =>
  dsimp only
  split
  · refine Monitor.wp_mono ?_ (wp_blank scouts hs uses_elect (by simp [blankKinds]) returns_elect)
    intro s' a helected
    obtain ⟨-, hs', ha⟩ := helected
    exact quits s' _ _ hs'.observed (ha.imp_left fun h => h.peerState.trans hstays.peerState)
  next l _ =>
  have since {s m' acked cs now} (h : Ready c s m' acked cs now) : Ready m s m' acked cs now :=
    { h with stays := (hstays.noting now cs).trans h.stays }
  refine wp_lead_history scouts hs hgrows (List.length_insertionSort _ _).symm ?_ ?_ ?_ ?_
  · intro s m' r hobs hm
    exact quits s m' r hobs (.inl (hm.trans hstays.peerState))
  · intro s cs now m' r hobs hc hunread hm
    exact fails s cs now m' r hobs hc hunread ((hstays.noting now cs).trans hm)
  · intro s m' cs now hready
    exact creates s m' l _ cs now (since hready)
  · intro s m' cs now hready
    exact reconciles s m' l _ cs now (since hready)

end Scouting

/-! ## Up to the upkeep -/

/-- What an iteration asks for outside the upkeep. -/
def quietKinds : List Kind := scoutKinds ++ newClusterKinds ++ restoreKinds

section Upkeep

variable (need : Nat → ClusterState → ClusterSpec → Trace ctlSig → CtlReq → Prop)

/-- A request that only the upkeep makes has behind it what the upkeep goes by,
and what it needs given that. -/
def upkeepMust (tr : Trace ctlSig) (r : CtlReq) : Prop :=
  r.kind ∈ quietKinds ∨
    ∃ acked cs spec, Standing tr acked cs spec ∧ Unpending tr ∧ cs.Consistent ∧ need acked cs spec tr r

variable {need}
variable (maintains : ∀ (m : EtcdController) l acked cs spec s, cs.Consistent → (∀ e ∈ s, e.req.kind ∈ scoutKinds) →
  (Monitor.history (need acked cs spec)).wp (m.maintain l acked cs spec) s fun _ _ => True)
include maintains

theorem wp_run_upkeep : (Monitor.history (upkeepMust need)).wp m.run [] fun _ _ => True := by
  have quiet {p : CtlM (EtcdController × Progress)} {kinds : List Kind} {s : Trace ctlSig}
      (hp : p.Uses (OfKind kinds) True) (hk : kinds ⊆ quietKinds) :
      (Monitor.history (upkeepMust need)).wp p s fun _ _ => True := by
    refine Monitor.wp_of_uses (I := fun _ => True) ?_ (fun _ _ _ _ => trivial) hp trivial
    intro s r _ hr
    exact ⟨.inl (hk hr), fun _ _ => trivial⟩
  refine wp_run_history ?_ (fun _ _ _ _ _ => trivial) (fun _ _ _ _ _ _ _ _ _ => trivial) ?_ ?_
  · intro s r _ hr
    exact .inl (List.mem_append_left _ (List.mem_append_left _ hr))
  · intro s m' l acked cs now _
    exact quiet (uses_newCluster.kinds (List.Subset.refl _)) (by simp [quietKinds])
  · intro s m' l acked cs now hready
    unfold reconcile
    split
    · trivial
    next spec _ =>
    refine Monitor.wp_ctl.2 ⟨.inl (by simp [CtlReq.kind, quietKinds, scoutKinds]), fun _ _ => ?_⟩
    split
    · exact quiet (uses_restore.kinds (List.Subset.refl _)) (by simp [quietKinds])
    · have hread := forall_mem_snoc (e := ⟨.isNewCluster, .ok false⟩) hready.scouted (by simp [CtlReq.kind, scoutKinds])
      have hkinds := forall_mem_snoc (e := ⟨.logSpec spec, ()⟩) hread (by simp [CtlReq.kind, scoutKinds])
      have hold (e : Event ctlSig) (he : e ∈ s) (data : Command) : e.req ≠ .logRestoreCommand data := by
        intro heq
        have hnote := hready.notes e he (by rw [heq]; rfl)
        rw [heq] at hnote
        cases hnote
      have hunpending : ∀ e ∈ s ++ [⟨.isNewCluster, .ok false⟩] ++ [⟨.logSpec spec, ()⟩],
          ∀ data, e.req ≠ .logRestoreCommand data := forall_mem_snoc (forall_mem_snoc hold (by simp)) (by simp)
      refine Monitor.wp_history_imp uses_maintain ?_ (maintains m' l acked cs spec _ hready.consistent hkinds)
      intro tr r htr hneed
      refine .inr ⟨acked, cs, spec, (hready.standing spec).mono (List.prefix_append _ _), fun data hmem => ?_, hready.consistent, hneed⟩
      rcases List.mem_append.1 hmem with hmem | hmem
      · exact hunpending _ hmem data rfl
      · have hkind := (htr _ hmem).1
        simp [CtlReq.kind, maintainKinds] at hkind

/-- What is behind a request of the upkeep. -/
theorem Runs.standing {pre post : Trace ctlSig} {e : Event ctlSig} {p : CtlM (EtcdController × Progress)}
    (h : Runs m.run (pre ++ e :: post) p) (he : e.req.kind ∉ quietKinds) :
    ∃ acked cs spec, Standing pre acked cs spec ∧ Unpending pre ∧ cs.Consistent ∧ need acked cs spec pre e.req :=
  (h.must_history (wp_run_upkeep maintains)).resolve_left he

end Upkeep

end

/-! ## Backups -/

/-- A healthy member has its peer there. -/
def ClusterState.HostsHealthy (cs : ClusterState) (peer : PeerId) : Prop :=
  ∃ id member p, cs.healthyMembers.lookup id = some member ∧ cs.findPeer member = some p ∧ p.peer.id = peer

section

variable {m : EtcdController} {l : LeadershipState} {cs : ClusterState} {spec : ClusterSpec}
  {must : Trace ctlSig → CtlReq → Prop} (hmust : ∀ s r, r.kind ∈ [.look, .backup] → must s r)
include hmust

/-- The backup that is returned is the last thing that happened. -/
theorem wp_backupVia : ∀ (members : List (EtcdMemberId × EtcdProcessMember)) {s : Trace ctlSig},
    (∀ e ∈ members, cs.healthyMembers.lookup e.1 = some e.2) →
      (Monitor.history must).wp (m.backupVia l spec cs members) s fun s' r => ∀ response, r = .ok response →
        ∃ before peer request, s <+: before ∧ cs.HostsHealthy peer ∧ s' = before ++ [⟨.doBackup peer request, .ok response⟩]
  | [], _, _ => nofun
  | (id, member) :: rest, s, h => by
    obtain ⟨hmember, hrest⟩ := List.forall_mem_cons.1 h
    unfold backupVia
    split
    · exact wp_backupVia rest hrest
    next p hpeer =>
    refine Monitor.wp_ctl.2 ⟨hmust _ _ (by simp [CtlReq.kind]), fun answer _ => ?_⟩
    cases answer with
    | error err =>
      refine Monitor.wp_mono ?_ (wp_backupVia rest hrest)
      intro s' r hr response hok
      obtain ⟨before, peer, request, hgrows, hhosts, hs'⟩ := hr response hok
      exact ⟨before, peer, request, (List.prefix_append _ _).trans hgrows, hhosts, hs'⟩
    | ok response =>
      intro response' hok
      cases hok
      exact ⟨s, _, _, List.prefix_rfl, ⟨id, member, p, hmember, hpeer, rfl⟩, rfl⟩

theorem wp_doClusterBackup {s : Trace ctlSig} :
    (Monitor.history must).wp (m.doClusterBackup l spec cs) s fun s' r => ∀ response, r = .ok response →
      ∃ before peer request, s <+: before ∧ cs.HostsHealthy peer ∧ s' = before ++ [⟨.doBackup peer request, .ok response⟩] := by
  refine Monitor.wp_range.2 ⟨hmust _ _ (by simp [CtlReq.kind]), fun order _ => ?_⟩
  refine Monitor.wp_mono ?_ (wp_backupVia hmust _ fun e he => (GoMap.mem_inOrder order.2).1 he)
  intro s' r hr response hok
  obtain ⟨before, peer, request, hgrows, hhosts, hs'⟩ := hr response hok
  exact ⟨before, peer, request, (List.prefix_append _ _).trans hgrows, hhosts, hs'⟩

end

end Etcdadm
