/-
How long a member has been down.

The controller keeps for each member when it last saw it healthy, or first saw
it since it was elected, and repairs the cluster by removing a member for which
that is a deadline ago. So it keeps where the time ends in which the member
was known to be well, and not where the time begins in which it was known to
be down. Between the two, nobody looked: an iteration that comes late removes
a member on the first bad observation of it.

`Recorded` is what the books say of the past iterations, and `Warned` what the
deadline was to ensure. The one does not always give the other.
-/
import Etcdadm.Resize
import Etcdadm.Lookback

namespace Etcdadm

open EtcdController ClusterState

variable {m : EtcdController} {l : LeadershipState} {cs : ClusterState} {spec : ClusterSpec} {acked : Nat}

/-! ## The books -/

/-- The member is registered, and does not answer. -/
def ClusterState.Down (cs : ClusterState) (id : EtcdMemberId) (member : EtcdProcessMember) : Prop :=
  cs.members.lookup id = some member ∧ cs.healthyMembers.lookup id = none

theorem ClusterState.Down.size_lt {id : EtcdMemberId} {member : EtcdProcessMember} (h : cs.Down id member)
    (hc : cs.Consistent) : cs.healthyMembers.size < cs.members.size := by
  by_contra hle
  have hsome : (cs.members.lookup id).isSome = true := by rw [h.1]; rfl
  have hhealthy := GoMap.lookup_isSome_of_size_le hc.healthy_isSome (Nat.not_lt.1 hle) hsome
  rw [h.2] at hhealthy
  cases hhealthy

theorem lookup_trackHealth {now : Time} {ps : GoMap Time} {id : EtcdMemberId} :
    (trackHealth now cs ps).lookup id =
      if (cs.members.lookup id).isSome = true ∧ ((cs.healthyMembers.lookup id).isSome = true ∨ ps.lookup id = none)
      then some now else ps.lookup id := by
  have hfold (ks : List EtcdMemberId) : ∀ ps : GoMap Time, (ks.foldl (fun ps id =>
      if (cs.healthyMembers.lookup id).isSome ∨ ps.lookup id = none then ps.insert id now else ps) ps).lookup id =
        if id ∈ ks ∧ ((cs.healthyMembers.lookup id).isSome = true ∨ ps.lookup id = none)
        then some now else ps.lookup id := by
    induction ks with
    | nil => simp
    | cons k ks ih =>
      intro ps
      rw [List.foldl_cons, ih]
      by_cases hk : id = k
      · subst hk
        by_cases hfresh : (cs.healthyMembers.lookup id).isSome = true ∨ ps.lookup id = none
        · simp [hfresh]
        · simp [hfresh]
      · have hother : (if (cs.healthyMembers.lookup k).isSome ∨ ps.lookup k = none then ps.insert k now else ps).lookup id =
            ps.lookup id := by
          split
          · exact AList.lookup_insert_ne hk
          · rfl
        simp [hother, hk]
  rw [trackHealth, hfold]
  have hmem : id ∈ cs.members.keys ↔ (cs.members.lookup id).isSome = true := AList.lookup_isSome.symm
  simp only [hmem]

/-- There is an entry for every member. -/
def EtcdController.Booked (m : EtcdController) (cs : ClusterState) : Prop :=
  ∀ id member, cs.members.lookup id = some member → (m.peerState.lookup id).isSome = true

theorem booked_noting {now : Time} : (m.noting now cs).Booked cs := by
  intro id member hm
  show ((trackHealth now cs m.peerState).lookup id).isSome = true
  rw [lookup_trackHealth]
  split
  · rfl
  next hno =>
    rw [hm] at hno
    simp only [Option.isSome_some, true_and, not_or] at hno
    exact Option.isSome_iff_ne_none.2 hno.2

theorem EtcdController.Booked.stays {m' : EtcdController} (h : m.Booked cs) (hm : m.Stays m') : m'.Booked cs := by
  intro id member hmember
  rw [hm.peerState]
  exact h id member hmember

/-- By the books the member may be removed. -/
def EtcdController.overdue (m : EtcdController) (cs : ClusterState) (now : Time) (id : EtcdMemberId) : Bool :=
  (cs.healthyMembers.lookup id).isNone && (m.peerState.lookup id).any fun h => h + removeUnhealthyDeadline ≤ now

theorem overdue_iff {now : Time} {id : EtcdMemberId} : m.overdue cs now id = true ↔ cs.healthyMembers.lookup id = none ∧
    ∃ h, m.peerState.lookup id = some h ∧ h + removeUnhealthyDeadline ≤ now := by
  simp [overdue, Option.any_eq_true]

/-! ## The victim of a repair -/

/-- The first one that is overdue is picked. -/
theorem pickUnhealthy_eq {now : Time} : ∀ members : List (EtcdMemberId × EtcdProcessMember),
    (∀ e ∈ members, (m.peerState.lookup e.1).isSome = true) →
      m.pickUnhealthy cs false now members = .ret ((members.find? fun e => m.overdue cs now e.1).map Prod.snd)
  | [], _ => rfl
  | (id, member) :: rest, h => by
    obtain ⟨hid, hrest⟩ := List.forall_mem_cons.1 h
    obtain ⟨t, ht⟩ := Option.isSome_iff_exists.1 hid
    have later : m.pickUnhealthy cs false now rest = _ := pickUnhealthy_eq rest hrest
    unfold pickUnhealthy
    rw [List.find?_cons]
    by_cases hhealthy : (cs.healthyMembers.lookup id).isSome = true
    · have hno : m.overdue cs now id = false := by simp [overdue, Option.isSome_iff_ne_none.1 hhealthy]
      rw [if_pos hhealthy, hno]
      exact later
    · rw [if_neg hhealthy, if_neg (by simp)]
      dsimp only at ht ⊢
      rw [ht]
      dsimp only
      have hnone : cs.healthyMembers.lookup id = none := Option.not_isSome_iff_eq_none.1 hhealthy
      have hiff : m.overdue cs now id = decide (t + removeUnhealthyDeadline ≤ now) := by simp [overdue, hnone, ht]
      have hlate (a b d : Int) : a - b < d ↔ ¬ b + d ≤ a := by omega
      by_cases hdue : t + removeUnhealthyDeadline ≤ now
      · rw [if_neg (not_not.2 hdue ∘ (hlate _ _ _).1), hiff, decide_eq_true hdue]
        rfl
      · rw [if_pos ((hlate _ _ _).2 hdue), hiff, decide_eq_false hdue]
        exact later

/-- A repair looks at the clock, and then picks a member that is down and, by
the books, overdue; unless none is. -/
theorem wp_pickVictim_repair {must : Trace ctlSig → CtlReq → Prop} {s : Trace ctlSig}
    (hmust : ∀ s r, r.kind = .look → must s r) (hc : cs.Consistent) (hbooked : m.Booked cs) :
    (Monitor.history must).wp (m.pickVictim cs false) s fun s' r => ∃ now tr,
      s' = s ++ ⟨.now, now⟩ :: tr ∧ (∀ e ∈ tr, e.req.kind = .look) ∧
      (∀ victim, r = some victim → ∃ id, cs.Down id victim ∧ m.overdue cs now id = true) ∧
      (r = none → ∀ id member, cs.Down id member → m.overdue cs now id = false) := by
  refine Monitor.wp_ctl.2 ⟨hmust _ _ rfl, fun now _ => Monitor.wp_bind.2 ?_⟩
  unfold unhealthyVictim
  split
  · refine Monitor.wp_range.2 ⟨hmust _ _ rfl, fun ks _ => ?_⟩
    have hentries (e) (he : e ∈ cs.members.inOrder ks.1) : cs.members.lookup e.1 = some e.2 := (GoMap.mem_inOrder ks.2).1 he
    rw [pickUnhealthy_eq _ fun e he => hbooked e.1 e.2 (hentries e he)]
    change (Monitor.history must).wp (if _ then _ else _) _ _
    rw [if_pos (.inr rfl)]
    refine ⟨now, [⟨.rangeOver cs.members.keys, ks⟩], by simp [Monitor.history], by simp [CtlReq.kind], ?_, ?_⟩
    · intro victim hv
      obtain ⟨e, hfind, rfl⟩ := Option.map_eq_some_iff.1 hv
      have hlate := List.find?_some hfind
      exact ⟨e.1, ⟨hentries e (List.mem_of_find?_eq_some hfind), (overdue_iff.1 hlate).1⟩, hlate⟩
    · intro hnone id member hdown
      have hmem : (id, member) ∈ cs.members.inOrder ks.1 := (GoMap.mem_inOrder ks.2).2 hdown.1
      have := List.find?_eq_none.1 (Option.map_eq_none_iff.1 hnone) _ hmem
      exact Bool.eq_false_of_not_eq_true this
  next hall =>
    change (Monitor.history must).wp (if _ then _ else _) _ _
    rw [if_pos (.inr rfl)]
    refine ⟨now, [], rfl, List.forall_mem_nil _, by simp, fun _ id member hdown => ?_⟩
    exact (hall (hdown.size_lt hc)).elim

/-- What is asked for once the victim is picked. -/
def Removes (victim : EtcdProcessMember) (r : CtlReq) : Prop :=
  r.kind ≠ .removeMember ∨ ∃ urls, r = .removeMember urls victim

theorem removes_of_kinds {α : Type} {kinds : List Kind} {victim : EtcdProcessMember} {p : CtlM α}
    (hp : p.Uses (Sends l kinds) True) (hk : .removeMember ∉ kinds) : p.Uses (Removes victim) True :=
  hp.mono fun _ hr => .inl fun h => hk (h ▸ hr.1)

theorem removes_removeMemberVia {victim : EtcdProcessMember} : ∀ members : List (EtcdMemberId × EtcdProcessMember),
    (cs.removeMemberVia victim members).Uses (Removes victim) True
  | [] => trivial
  | (_, member) :: rest => by
    refine .bind (removes_of_kinds (@uses_clientURLs ⟨"", []⟩ cs member _) (by simp)) fun urls => ?_
    refine Uses.ctl (.inr ⟨urls, rfl⟩) fun answer => ?_
    cases answer with
    | error err => exact removes_removeMemberVia rest
    | ok _ => trivial

/-- Only members that are down and overdue are removed in a repair. -/
theorem wp_repair {must : Trace ctlSig → CtlReq → Prop} {s : Trace ctlSig}
    (hmust : ∀ s r, r.kind ≠ .removeMember → must s r) (hc : cs.Consistent) (hbooked : m.Booked cs)
    (removes : ∀ now s' id victim urls, s ++ [⟨.now, now⟩] <+: s' → cs.Down id victim → m.overdue cs now id = true →
      must s' (.removeMember urls victim)) :
    (Monitor.history must).wp (m.removeNodeFromCluster l spec cs false) s fun _ _ => True := by
  refine Monitor.wp_bind.2 (Monitor.wp_mono ?_ (wp_pickVictim_repair (fun s r hk => hmust s r (by simp [hk])) hc hbooked))
  intro s' r ⟨now, tr, hs', _, hvictim, _⟩
  cases r with
  | none => trivial
  | some victim =>
  obtain ⟨id, hdown, hlate⟩ := hvictim victim rfl
  have hstart : s ++ [⟨.now, now⟩] <+: s' := ⟨tr, by rw [hs', List.append_assoc]; rfl⟩
  have hstep (s' : Trace ctlSig) (r : CtlReq) (hs' : s ++ [⟨.now, now⟩] <+: s') (hr : Removes victim r) :
      must s' r ∧ ∀ x, True → s ++ [⟨.now, now⟩] <+: s' ++ [⟨r, x⟩] := by
    refine ⟨?_, fun x _ => hs'.trans (List.prefix_append _ _)⟩
    rcases hr with hk | ⟨urls, rfl⟩
    · exact hmust s' r hk
    · exact removes now s' id victim urls hs' hdown hlate
  refine Monitor.wp_mono (fun _ _ _ => trivial) (Monitor.wp_of_uses (I := fun s' => s ++ [⟨.now, now⟩] <+: s') hstep
    (fun _ _ _ (_ : True) => trivial) ?_ hstart)
  refine .bind (removes_of_kinds uses_doClusterBackup (by simp)) fun r => ?_
  cases r with
  | error err => trivial
  | ok _ =>
    refine .bind (Uses.range (.inl (by simp [CtlReq.kind])) removes_removeMemberVia) fun err => ?_
    cases err <;> trivial

/-- Each of them may be. -/
theorem repair_runs (hc : cs.Consistent) (hbooked : m.Booked cs) (hbackup : cs.CanBackup) {id : EtcdMemberId}
    {member : EtcdProcessMember} {now : Time} (hdown : cs.Down id member) (hlate : m.overdue cs now id = true) :
    ∃ tr urls, Runs (m.removeNodeFromCluster l spec cs false)
      (⟨.now, now⟩ :: (tr ++ [⟨.removeMember urls member, .ok ()⟩])) (.ret (true, none)) := by
  obtain ⟨ks, rest, hks, horder⟩ := GoMap.exists_inOrder_cons hdown.1
  have hfirst : Runs (m.unhealthyVictim cs false now) [⟨.rangeOver cs.members.keys, ⟨ks, hks⟩⟩] (.ret (some member)) := by
    unfold unhealthyVictim
    rw [if_pos (hdown.size_lt hc)]
    refine .range hks ?_
    have hentries (e) (he : e ∈ cs.members.inOrder ks) : cs.members.lookup e.1 = some e.2 := (GoMap.mem_inOrder hks).1 he
    rw [pickUnhealthy_eq _ fun e he => hbooked e.1 e.2 (hentries e he), horder, List.find?_cons, hlate]
    exact .refl
  have hvictim : Runs (m.pickVictim cs false) [⟨.now, now⟩, ⟨.rangeOver cs.members.keys, ⟨ks, hks⟩⟩]
      (.ret (some member)) := .ctl (hfirst.andThen .refl)
  obtain ⟨tr, urls, hrun⟩ := @removeNodeFromCluster_runs m l cs spec hc hbackup false _ member hvictim
  exact ⟨⟨.rangeOver cs.members.keys, ⟨ks, hks⟩⟩ :: tr, urls, hrun⟩

/-! ## What the books say of the past -/

/-- The iteration found the member healthy, at that time. -/
def SeenHealthy (tr : Trace ctlSig) (id : EtcdMemberId) (t : Time) : Prop :=
  ∃ cs, observed tr = some (cs, t) ∧ (cs.healthyMembers.lookup id).isSome = true

/-- The iteration found the member down, at that time. -/
def SeenDown (tr : Trace ctlSig) (id : EtcdMemberId) (t : Time) : Prop :=
  ∃ cs member, observed tr = some (cs, t) ∧ cs.Down id member

/-- An iteration saw the member at that time, and none found it healthy since. -/
def Recorded (its : List (Trace ctlSig)) (id : EtcdMemberId) (t : Time) : Prop :=
  ∃ before tr after, its = before ++ tr :: after ∧ (SeenHealthy tr id t ∨ SeenDown tr id t) ∧
    ∀ tr' ∈ after, ∀ t', ¬ SeenHealthy tr' id t'

/-- An iteration before the present one found the member down, no later than
that, and none found it healthy since. -/
def Warned (its : List (Trace ctlSig)) (present : Trace ctlSig) (id : EtcdMemberId) (due : Time) : Prop :=
  ∃ before tr after t, its = before ++ tr :: after ∧ SeenDown tr id t ∧ t ≤ due ∧
    ∀ tr' ∈ after ++ [present], ∀ t', ¬ SeenHealthy tr' id t'

theorem Warned.mono {its : List (Trace ctlSig)} {present : Trace ctlSig} {id : EtcdMemberId} {due due' : Time}
    (h : Warned its present id due) (hle : due ≤ due') : Warned its present id due' := by
  obtain ⟨before, tr, after, t, heq, hdown, ht, hsince⟩ := h
  exact ⟨before, tr, after, t, heq, hdown, Int.le_trans ht hle, hsince⟩

theorem Recorded.snoc {its : List (Trace ctlSig)} {tr : Trace ctlSig} {id : EtcdMemberId} {t : Time}
    (h : Recorded its id t) (hno : ∀ t', ¬ SeenHealthy tr id t') : Recorded (its ++ [tr]) id t := by
  obtain ⟨before, tr', after, heq, hseen, hsince⟩ := h
  refine ⟨before, tr', after ++ [tr], ?_, hseen, List.forall_mem_append.2 ⟨hsince, List.forall_mem_singleton.2 hno⟩⟩
  rw [heq, List.append_assoc, List.cons_append]

/-- The books of a controller are those of its iterations. -/
def EtcdController.Keeping (m : EtcdController) (its : List (Trace ctlSig)) : Prop :=
  ∀ id t, m.peerState.lookup id = some t → Recorded its id t

theorem EtcdController.Keeping.noting {its : List (Trace ctlSig)} {tr : Trace ctlSig} {now : Time}
    (h : m.Keeping its) (hobs : observed tr = some (cs, now)) (hc : cs.Consistent) :
    (m.noting now cs).Keeping (its ++ [tr]) := by
  intro id t hlookup
  have hbook : (trackHealth now cs m.peerState).lookup id = some t := hlookup
  rw [lookup_trackHealth] at hbook
  split at hbook
  next hfresh =>
    cases hbook
    refine ⟨its, tr, [], rfl, ?_, List.forall_mem_nil _⟩
    cases hhealthy : cs.healthyMembers.lookup id with
    | some _ => exact .inl ⟨cs, hobs, by rw [hhealthy]; rfl⟩
    | none =>
      obtain ⟨member, hm⟩ := Option.isSome_iff_exists.1 hfresh.1
      exact .inr ⟨cs, member, hobs, hm, hhealthy⟩
  next hold =>
    refine (h id t hbook).snoc fun t' hseen => ?_
    obtain ⟨cs', hobs', hhealthy⟩ := hseen
    cases hobs.symm.trans hobs'
    exact hold ⟨hc.healthy_isSome id hhealthy, .inl hhealthy⟩

/-- An iteration that saw the cluster has noted what it saw; another leaves the
books as they are or starts new ones. -/
theorem run_books {m' : EtcdController} {tr : Trace ctlSig} {r : Progress} (h : Runs m.run tr (.ret (m', r))) :
    observed tr = none ∧ (m'.peerState = m.peerState ∨ m'.peerState = ∅) ∨
      ∃ cs now, observed tr = some (cs, now) ∧ cs.Consistent ∧ m'.peerState = (m.noting now cs).peerState := by
  let Q (s : Trace ctlSig) (r : EtcdController × Progress) : Prop :=
    observed s = none ∧ (r.1.peerState = m.peerState ∨ r.1.peerState = ∅) ∨
      ∃ cs now, observed s = some (cs, now) ∧ cs.Consistent ∧ r.1.peerState = (m.noting now cs).peerState
  have branch {p : CtlM (EtcdController × Progress)} {s : Trace ctlSig} {m₁ : EtcdController} {acked : Nat}
      {cs : ClusterState} {now : Time} {e : Event ctlSig} (hready : Ready m s m₁ acked cs now)
      (hp : p.Returns fun r => m₁.Stays r.1) : (Monitor.history fun _ _ => True).wp p (s ++ [e]) Q := by
    refine Monitor.wp_mono ?_ (Monitor.wp_history_grows
      (Monitor.wp_of_returns (fun _ _ => trivial) (fun _ _ => trivial) hp))
    intro s' r ⟨hgrows, hstays⟩
    obtain ⟨more, rfl⟩ := hgrows
    refine .inr ⟨cs, now, observed_append (observed_append hready.observed _) _, hready.consistent, ?_⟩
    rw [hstays.peerState, hready.stays.peerState]
  have hwp : (Monitor.history fun _ _ => True).wp m.run [] Q := by
    refine wp_run_history (fun _ _ _ _ => trivial) ?_ ?_ ?_ ?_
    · intro s m' r hobs hm
      exact .inl ⟨hobs, hm⟩
    · intro s cs now m' r hobs hc _ hstays
      exact .inr ⟨cs, now, hobs, hc, hstays.peerState⟩
    · intro s m₁ l acked cs now hready
      exact branch hready returns_newCluster
    · intro s m₁ l acked cs now hready
      exact branch hready returns_reconcile
  exact h.of_history hwp

theorem EtcdController.Loop.keeping {m₀ : EtcdController} {its : List (Trace ctlSig)} (h : m₀.Loop its m)
    (hfresh : m₀.peerState = ∅) : m.Keeping its := by
  have hempty (c : EtcdController) (its : List (Trace ctlSig)) (hc : c.peerState = ∅) : c.Keeping its := by
    intro id t hlookup
    rw [hc] at hlookup
    cases hlookup
  induction h with
  | nil => exact hempty _ _ hfresh
  | snoc _ hrun ih =>
    rcases run_books hrun with ⟨hobs, hsame | hnew⟩ | ⟨cs, now, hobs, hc, hbooks⟩
    · intro id t hlookup
      rw [hsame] at hlookup
      refine (ih id t hlookup).snoc fun t' hseen => ?_
      obtain ⟨cs, hobs', -⟩ := hseen
      rw [hobs] at hobs'
      cases hobs'
    · exact hempty _ _ hnew
    · intro id t hlookup
      rw [hbooks] at hlookup
      exact ih.noting hobs hc id t hlookup

/-! ## Removals in an iteration -/

theorem overdue_stays {m' : EtcdController} (h : m.Stays m') {now : Time} {id : EtcdMemberId} :
    m'.overdue cs now id = m.overdue cs now id := by
  rw [overdue, overdue, h.peerState]

theorem CtlReq.removeMember_of_kind {r : CtlReq} (h : r.kind = .removeMember) :
    ∃ urls victim, r = .removeMember urls victim := by
  cases r with
  | removeMember urls victim => exact ⟨urls, victim, rfl⟩
  | joinCluster peer request => cases hphase : request.phase <;> simp [CtlReq.kind, hphase] at h
  | _ => simp [CtlReq.kind] at h

section

variable {must : Trace ctlSig → CtlReq → Prop} {s : Trace ctlSig} (hmust : ∀ s r, r.kind ≠ .removeMember → must s r)
include hmust

theorem wp_removeless {α : Type} {kinds : List Kind} {p : CtlM α} (hp : p.Uses (Sends l kinds) True)
    (hk : .removeMember ∉ kinds) : (Monitor.history must).wp p s fun _ _ => True := by
  refine Monitor.wp_of_uses (I := fun _ => True) ?_ (fun _ _ _ _ => trivial) hp trivial
  intro s r _ hr
  exact ⟨hmust s r fun h => hk (h ▸ hr.1), fun _ _ => trivial⟩

variable (hc : cs.Consistent) (hbooked : m.Booked cs)
  (surplus : spec.memberCount < cs.configuredMembers → ∀ s' urls victim, s <+: s' → must s' (.removeMember urls victim))
  (repairs : ∀ s' now id victim urls, s <+: s' → ⟨.now, now⟩ ∈ s' → cs.Down id victim → m.overdue cs now id = true →
    must s' (.removeMember urls victim))
include hc hbooked surplus repairs

theorem wp_resize_repair : (Monitor.history must).wp (m.resize l acked cs spec) s fun _ _ => True := by
  have pass {α β : Type} {p : CtlM α} {f : α → β} (hp : (Monitor.history must).wp p s fun _ _ => True) :
      (Monitor.history must).wp (p >>= fun a => pure (f a)) s fun _ _ => True :=
    Monitor.wp_bind.2 (Monitor.wp_mono (fun _ _ _ => trivial) hp)
  unfold resize
  split
  · split
    · exact pass (wp_removeless hmust (@uses_refreshControlStore l m 0) (by simp))
    · split
      · exact pass (wp_removeless hmust uses_addNodeToCluster (by simp))
      · trivial
  split
  · trivial
  split
  next hsurplus =>
    split
    · refine pass (Monitor.wp_mono (fun _ _ _ => trivial) (Monitor.wp_of_uses (I := fun s' => s <+: s') ?_
        (fun _ _ _ _ => trivial) (@uses_removeNodeFromCluster m l cs spec true) List.prefix_rfl))
      intro s' r hs' _
      refine ⟨?_, fun x _ => hs'.trans (List.prefix_append _ _)⟩
      by_cases hk : r.kind = .removeMember
      · obtain ⟨urls, victim, rfl⟩ := CtlReq.removeMember_of_kind hk
        exact surplus hsurplus s' urls victim hs'
      · exact hmust s' r hk
    · trivial
  · refine pass ?_
    unfold replaceUnhealthy
    split
    · refine Monitor.wp_bind.2 (Monitor.wp_mono ?_ (Monitor.wp_history_grows
        (wp_removeless hmust (@uses_idlePeers l cs _) (by simp))))
      intro s' idle ⟨hs', _⟩
      split
      · trivial
      split
      · trivial
      split
      · trivial
      split
      · trivial
      refine Monitor.wp_bind.2 (Monitor.wp_mono (fun _ _ _ => trivial) (wp_repair hmust hc hbooked ?_))
      intro now s'' id victim urls hs'' hdown hlate
      refine repairs s'' now id victim urls (hs'.trans ((List.prefix_append _ _).trans hs'')) ?_ hdown hlate
      exact hs''.subset (by simp)
    · trivial

theorem wp_maintain_repair : (Monitor.history must).wp (m.maintain l acked cs spec) s fun _ _ => True := by
  have grown {α : Type} {p : CtlM α} {s' : Trace ctlSig} (hs' : s <+: s')
      (hp : (Monitor.history must).wp p s' fun _ _ => True) : (Monitor.history must).wp p s' fun s'' _ => s <+: s'' :=
    Monitor.wp_mono (fun _ _ h => hs'.trans h.1) (Monitor.wp_history_grows hp)
  refine wp_maintain (I := fun s' => s <+: s') (K := fun _ => True) List.prefix_rfl (fun _ _ => trivial) ?_
    (fun _ _ _ _ _ => trivial) ?_ ?_ ?_
  · intro s' r hs' hr
    refine ⟨hmust s' r fun h => ?_, fun x _ => hs'.trans (List.prefix_append _ _)⟩
    simp [Sends, h] at hr
  · intro s' m' hs' _
    exact Monitor.wp_mono (fun _ _ h => ⟨fun _ _ => trivial, fun _ => h⟩)
      (grown hs' (wp_removeless hmust uses_checkQuarantine (by simp)))
  · intro s' m' hs' hm _
    refine Monitor.wp_mono (fun _ _ _ => ⟨fun _ _ => trivial, fun _ => trivial⟩)
      (wp_resize_repair hmust hc (hbooked.stays hm) ?_ ?_)
    · intro hsurplus s'' urls victim hs''
      exact surplus hsurplus s'' urls victim (hs'.trans hs'')
    · intro s'' now id victim urls hs'' hnow hdown hlate
      rw [overdue_stays hm] at hlate
      exact repairs s'' now id victim urls (hs'.trans hs'') hnow hdown hlate
  · intro s' m' _ _ _ _
    exact wp_removeless hmust uses_settle (by simp)

end

/-- What is behind a removal: the cluster has too many configured peers, or the
member is down and overdue by the books in which the iteration noted what it
observed. -/
def repairMust (m : EtcdController) (tr : Trace ctlSig) (r : CtlReq) : Prop :=
  ∀ urls victim, r = .removeMember urls victim → ∃ acked cs spec t, Standing tr acked cs spec ∧
    observed tr = some (cs, t) ∧ cs.Consistent ∧ (spec.memberCount < cs.configuredMembers ∨
      ∃ id now, cs.Down id victim ∧ ⟨.now, now⟩ ∈ tr ∧ (m.noting t cs).overdue cs now id = true)

theorem repairMust_of_kind (s : Trace ctlSig) (r : CtlReq) (hr : r.kind ≠ .removeMember) : repairMust m s r := by
  intro urls victim heq
  rw [heq] at hr
  exact (hr rfl).elim

theorem wp_run_repair : (Monitor.history (repairMust m)).wp m.run [] fun _ _ => True := by
  refine wp_run_history ?_ (fun _ _ _ _ _ => trivial) (fun _ _ _ _ _ _ _ _ _ => trivial) ?_ ?_
  · intro s r _ hr
    exact repairMust_of_kind s r fun hk => by simp [hk, scoutKinds] at hr
  · intro s m' l acked cs now _
    exact wp_removeless repairMust_of_kind uses_newCluster (by simp [newClusterKinds])
  · intro s m' l acked cs t hready
    unfold reconcile
    split
    · trivial
    next spec _ =>
    refine Monitor.wp_ctl.2 ⟨repairMust_of_kind _ _ (by simp [CtlReq.kind]), fun _ _ => ?_⟩
    split
    · exact wp_removeless repairMust_of_kind uses_restore (by simp [restoreKinds])
    have hobs : observed (s ++ [⟨.isNewCluster, .ok false⟩] ++ [⟨.logSpec spec, ()⟩]) = some (cs, t) :=
      observed_append (observed_append hready.observed _) _
    have hbooked : m'.Booked cs := (@booked_noting m cs t).stays hready.stays
    refine wp_maintain_repair repairMust_of_kind hready.consistent hbooked ?_ ?_
    · intro hsurplus s' urls victim hs' urls' victim' heq
      obtain ⟨more, rfl⟩ := hs'
      exact ⟨acked, cs, spec, t, (hready.standing spec).mono (List.prefix_append _ _), observed_append hobs more,
        hready.consistent, .inl hsurplus⟩
    · intro s' now id victim urls hs' hnow hdown hlate urls' victim' heq
      cases heq
      obtain ⟨more, rfl⟩ := hs'
      rw [overdue_stays hready.stays] at hlate
      exact ⟨acked, cs, spec, t, (hready.standing spec).mono (List.prefix_append _ _), observed_append hobs more,
        hready.consistent, .inr ⟨id, now, hdown, hnow, hlate⟩⟩

/-- Each member that is down was found so by an earlier iteration, no later than
it was booked or a deadline before the present observation. -/
def Forewarned (m : EtcdController) (its : List (Trace ctlSig)) (tr : Trace ctlSig) (cs : ClusterState) (t : Time) : Prop :=
  ∀ id member h, cs.Down id member → (m.noting t cs).peerState.lookup id = some h →
    Warned its tr id (max h (t - removeUnhealthyDeadline))

/-- A repair removes only members that an earlier iteration found down a
deadline before. -/
def RepairsWarned (m : EtcdController) (its : List (Trace ctlSig)) (tr : Trace ctlSig) (cs : ClusterState) (t : Time)
    (l : LeadershipState) (spec : ClusterSpec) : Prop :=
  ∀ now tr' p urls victim x, t ≤ now → Runs ((m.noting t cs).removeNodeFromCluster l spec cs false) (⟨.now, now⟩ :: tr') p →
    ⟨.removeMember urls victim, x⟩ ∈ tr' → Warned its tr victim.id (now - removeUnhealthyDeadline)

theorem Forewarned.warned {its : List (Trace ctlSig)} {tr : Trace ctlSig} {t now : Time} {id : EtcdMemberId} {member : EtcdProcessMember}
    (h : Forewarned m its tr cs t) (hc : cs.Consistent) (hle : t ≤ now) (hdown : cs.Down id member)
    (hlate : (m.noting t cs).overdue cs now id = true) : Warned its tr member.id (now - removeUnhealthyDeadline) := by
  have hshift (h t now d : Int) (hdue : h + d ≤ now) (hle : t ≤ now) : max h (t - d) ≤ now - d := by omega
  obtain ⟨-, booked, hbook, hdue⟩ := overdue_iff.1 hlate
  rw [hc.member_id id member hdown.1]
  exact (h id member booked hdown hbook).mono (hshift _ _ _ _ hdue hle)

/-- **When a repair has been warned.** A member that an iteration removes, with
no configured peers to spare, is down, and an iteration saw it a deadline ago
after which none found it healthy. It may still be the first one that finds it
down, unless the members that are down are forewarned: that is enough, and where
a backup can be made it is needed. -/
theorem repair_warned_iff (m : EtcdController) :
    (∀ (m₀ : EtcdController) its pre urls victim x post p, m₀.peerState = ∅ → m₀.Loop its m →
      Runs m.run (pre ++ ⟨.removeMember urls victim, x⟩ :: post) p →
      ∃ acked cs spec t₀, Standing pre acked cs spec ∧ observed pre = some (cs, t₀) ∧
        ((cs.configuredMembers : Int) ≤ spec.memberCount → cs.Down victim.id victim ∧ ∃ now t, ⟨.now, now⟩ ∈ pre ∧
          t + removeUnhealthyDeadline ≤ now ∧ Recorded (its ++ [pre]) victim.id t ∧
          (t₀ ≤ now → Forewarned m its pre cs t₀ → Warned its pre victim.id (now - removeUnhealthyDeadline)))) ∧
    ∀ its tr cs t l spec, observed tr = some (cs, t) → cs.Consistent →
      (cs.CanBackup → RepairsWarned m its tr cs t l spec → Forewarned m its tr cs t) ∧
      (Forewarned m its tr cs t → RepairsWarned m its tr cs t l spec) := by
  refine ⟨?_, ?_⟩
  · intro m₀ its pre urls victim x post p hfresh hloop hrun
    obtain ⟨acked, cs, spec, t, hstanding, hobs, hc, hwhy⟩ := hrun.must_history wp_run_repair urls victim rfl
    refine ⟨acked, cs, spec, t, hstanding, hobs, fun hfew => ?_⟩
    rcases hwhy with hsurplus | ⟨id, now, hdown, hnow, hlate⟩
    · exact (Int.not_lt.2 hfew hsurplus).elim
    obtain ⟨-, h, hbook, hdue⟩ := overdue_iff.1 hlate
    have hid : victim.id = id := hc.member_id id victim hdown.1
    subst hid
    exact ⟨hdown, now, h, hnow, hdue, (hloop.keeping hfresh).noting hobs hc _ h hbook,
      fun hle hforewarned => hforewarned.warned hc hle hdown hlate⟩
  · intro its tr cs t l spec hobs hc
    have hlast (h t d : Int) : max (h + d) t - d = max h (t - d) := by omega
    constructor
    · intro hbackup hlaw id member h hdown hbook
      have hlate : (m.noting t cs).overdue cs (max (h + removeUnhealthyDeadline) t) id = true :=
        overdue_iff.2 ⟨hdown.2, h, hbook, le_max_left _ _⟩
      obtain ⟨tr', urls, hrun⟩ := @repair_runs (m.noting t cs) l cs spec hc booked_noting hbackup id member _ hdown hlate
      have hwarned := hlaw _ _ _ urls member (.ok ()) (le_max_right _ _) hrun (by simp)
      rw [hlast, hc.member_id id member hdown.1] at hwarned
      exact hwarned
    · intro hforewarned now tr' p urls victim x hle hrun hmem
      have hwp : (Monitor.history fun tr r => ∀ urls victim, r = CtlReq.removeMember urls victim → ∃ now id,
          [⟨.now, now⟩] <+: tr ∧ cs.Down id victim ∧ (m.noting t cs).overdue cs now id = true).wp
          ((m.noting t cs).removeNodeFromCluster l spec cs false) [] fun _ _ => True := by
        refine wp_repair ?_ hc booked_noting ?_
        · intro s r hk urls victim heq
          rw [heq] at hk
          exact (hk rfl).elim
        · intro now s' id victim urls hs' hdown hlate urls' victim' heq
          cases heq
          exact ⟨now, id, hs', hdown, hlate⟩
      obtain ⟨before, after, htr⟩ := List.append_of_mem hmem
      rw [htr, ← List.cons_append] at hrun
      obtain ⟨now', id, hfirst, hdown, hlate⟩ := hrun.must_history hwp urls victim rfl
      have hnow : now' = now := by
        have := List.cons_prefix_cons.1 hfirst
        cases this.1
        rfl
      subst hnow
      exact hforewarned.warned hc hle hdown hlate

/-- Members on these peers and the member `d`, whose peer is gone, where there
should be three; and the idle peer `e`. -/
def Site.repairing (names : List PeerId) (clock : Time) (down : Bool) : Site :=
  { peers := (names ++ ["e"]).map fun name => ⟨name, []⟩
    info := fun peer => if peer = "e" then ⟨"name", some (node true "e"), none⟩ else Site.running names false peer
    members := (names ++ ["d"]).map Site.member, commands := [], spec := some ⟨3, "3.4.13"⟩, created := true
    clock := clock, down := fun urls => down && urls == (Site.member "d").clientURLs }

/-- The past of a controller there: elected in its first iteration, it finds `d`
healthy in the second. -/
def Site.past (names : List PeerId) : List Site := [.repairing names 0 false, .repairing names 0 false]

/-- Of four members, the controller found `d` healthy. Its next iteration comes
two minutes later, is the first to find `d` down, and removes it. -/
theorem removes_on_first_sight : ∃ (tr₁ tr₂ pre post : Trace ctlSig) (m : EtcdController) (urls : List String),
    (Site.controller "a").Loop [tr₁, tr₂, pre ++ ⟨.removeMember urls (Site.member "d"), .ok ()⟩ :: post] m ∧
    SeenHealthy tr₂ "id-d" 0 ∧ SeenDown pre "id-d" (2 * minute) ∧ (∀ due, ¬ Warned [tr₁, tr₂] pre "id-d" due) ∧
    ∃ cs spec, Standing pre 4 cs spec ∧ (cs.configuredMembers : Int) ≤ spec.memberCount := by
  have hplay : ∃ (tr₁ tr₂ tr₃ : Trace ctlSig) (m : EtcdController),
      (Site.controller "a").play (Site.past ["a", "b", "c"] ++ [.repairing ["a", "b", "c"] (2 * minute) true]) =
        some ([tr₁, tr₂, tr₃], m) ∧
      observed tr₁ = none ∧
      (∃ cs, observed tr₂ = some (cs, 0) ∧ cs.healthyMembers.lookup "id-d" = some (Site.member "d")) ∧
      ∃ urls cs, tr₃ = tr₃.take 43 ++ ⟨.removeMember urls (Site.member "d"), .ok ()⟩ :: tr₃.drop 44 ∧
        (tr₃.take 43)[0]? = some ⟨.peers, (Site.repairing ["a", "b", "c"] 0 true).peers⟩ ∧
        observed (tr₃.take 43) = some (cs, 2 * minute) ∧ cs.members.lookup "id-d" = some (Site.member "d") ∧
        cs.healthyMembers.lookup "id-d" = none ∧ (tr₃.take 43)[32]? = some ⟨.isNewCluster, .ok false⟩ ∧
        (tr₃.take 43)[33]? = some ⟨.logSpec ⟨3, "3.4.13"⟩, ()⟩ ∧ cs.configuredMembers = 3 :=
    ⟨_, _, _, _, rfl, rfl, ⟨_, rfl, rfl⟩, _, _, rfl, rfl, rfl, rfl, rfl, rfl, rfl, rfl⟩
  obtain ⟨tr₁, tr₂, tr₃, m, hplay, hblind, ⟨cs₂, hobs₂, hhealthy⟩, urls, cs, htr, hpeers, hobs, hm, hdown, hread, hspec,
    hconf⟩ := hplay
  have hloop := play_loop hplay
  rw [htr] at hloop
  have hstanding : Standing (tr₃.take 43) 4 cs ⟨3, "3.4.13"⟩ :=
    ⟨⟨_, List.mem_of_getElem? hpeers, rfl⟩, ⟨_, hobs⟩, List.mem_of_getElem? hread, List.mem_of_getElem? hspec⟩
  refine ⟨tr₁, tr₂, _, _, m, urls, hloop, ⟨cs₂, hobs₂, by rw [hhealthy]; rfl⟩, ⟨cs, _, hobs, hm, hdown⟩, ?_, cs, _,
    hstanding, by rw [hconf]; decide⟩
  intro due hwarned
  obtain ⟨before, tr, after, t, heq, ⟨cs', member, hobs', hdown'⟩, -, -⟩ := hwarned
  have hmem : tr ∈ [tr₁, tr₂] := by
    rw [heq]
    simp
  rcases List.mem_cons.1 hmem with rfl | hmem
  · rw [hblind] at hobs'
    cases hobs'
  · cases List.mem_singleton.1 hmem
    cases hobs₂.symm.trans hobs'
    cases hhealthy.symm.trans hdown'.2

end Etcdadm
