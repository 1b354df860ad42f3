/-
Restarting members one at a time.

An upgrade in place and the switch to TLS both restart a member by a
`Reconfigure`, and both leave the next one to the next iteration. The upgrade
first makes sure that every member is healthy, so that at any time at most one
member has been restarted and not been seen healthy since.

The switch to TLS does not make sure. It comes after the check for unhealthy
members, but all that check decides is whether to replace one: if there is no
idle peer, or no more members than there should be, the iteration goes on, and
restarts a member next to one that is down (`StacksTls`).
-/
import Etcdadm.Upgrade
import Etcdadm.Upkeep

namespace Etcdadm

open EtcdController ClusterState

variable {m : EtcdController} {l : LeadershipState} {cs : ClusterState} {spec : ClusterSpec} {acked : Nat}

/-! ## At most one restart in flight -/

section

variable (what : ReconfigureRequest → Prop)

/-- No such `Reconfigure` yet. -/
def Undisturbed (tr : Trace ctlSig) : Prop := ∀ peer request x, ⟨.reconfigure peer request, x⟩ ∈ tr → ¬ what request

/-- The iteration sent the peer such a `Reconfigure`. -/
def Disturbs (tr : Trace ctlSig) (peer : PeerId) : Prop := ∃ request x, ⟨.reconfigure peer request, x⟩ ∈ tr ∧ what request

/-- The iteration found every member healthy. -/
def SeesAllHealthy (tr : Trace ctlSig) : Prop := ∃ cs now, observed tr = some (cs, now) ∧ cs.AllHealthy

/-- The iteration sends such a `Reconfigure` only once, having found every
member healthy. -/
def Careful (tr : Trace ctlSig) : Prop :=
  ∀ pre peer request x post, tr = pre ++ ⟨.reconfigure peer request, x⟩ :: post → what request →
    SeesAllHealthy pre ∧ Undisturbed what pre

/-- One of the iterations sent the peer such a `Reconfigure`, and no later one
found every member healthy. -/
def Unsettled (its : List (Trace ctlSig)) (peer : PeerId) : Prop :=
  ∃ earlier tr later, its = earlier ++ tr :: later ∧ Disturbs what tr peer ∧ ∀ tr' ∈ later, ¬ SeesAllHealthy tr'

variable {what} {tr : Trace ctlSig} {peer peer' : PeerId}

theorem Careful.sees (h : Careful what tr) (hd : Disturbs what tr peer) : SeesAllHealthy tr := by
  obtain ⟨request, x, hmem, hwhat⟩ := hd
  obtain ⟨pre, post, htr⟩ := List.append_of_mem hmem
  obtain ⟨⟨cs, now, hobs, hall⟩, -⟩ := h pre peer request x post htr hwhat
  refine ⟨cs, now, ?_, hall⟩
  rw [htr]
  exact observed_append hobs _

theorem Careful.disturbs_unique (h : Careful what tr) (hd : Disturbs what tr peer) (hd' : Disturbs what tr peer') :
    peer = peer' := by
  obtain ⟨request, x, hmem, hwhat⟩ := hd
  obtain ⟨request', x', hmem', hwhat'⟩ := hd'
  obtain ⟨pre, post, htr⟩ := List.append_of_mem hmem
  rw [htr] at hmem'
  rcases List.mem_append.1 hmem' with hpre | hpost
  · exact ((h pre peer request x post htr hwhat).2 peer' request' x' hpre hwhat').elim
  rcases List.mem_cons.1 hpost with heq | hpost
  · cases heq
    rfl
  -- the second one comes later, and has the first behind it
  obtain ⟨mid, rest, hpost⟩ := List.append_of_mem hpost
  have htr' : tr = (pre ++ ⟨.reconfigure peer request, x⟩ :: mid) ++ ⟨.reconfigure peer' request', x'⟩ :: rest := by
    rw [htr, hpost]
    simp
  exact ((h _ peer' request' x' rest htr' hwhat').2 peer request x (by simp) hwhat).elim

/-- Where every iteration is careful, one peer at most is unsettled. -/
theorem unsettled_unique {its : List (Trace ctlSig)} (h : ∀ tr ∈ its, Careful what tr)
    (hp : Unsettled what its peer) (hp' : Unsettled what its peer') : peer = peer' := by
  obtain ⟨earlier, tr, later, hits, hd, hlater⟩ := hp
  obtain ⟨earlier', tr', later', hits', hd', hlater'⟩ := hp'
  have htr : Careful what tr := h tr (by simp [hits])
  have htr' : Careful what tr' := h tr' (by simp [hits'])
  -- the one that came later has seen every member healthy
  rcases List.append_eq_append_iff.1 (hits.symm.trans hits') with ⟨mid, hmid, hrest⟩ | ⟨mid, hmid, hrest⟩
  · cases mid with
    | nil =>
      cases hrest
      exact htr.disturbs_unique hd hd'
    | cons e mid =>
      cases hrest
      exact (hlater tr' (by simp) (htr'.sees hd')).elim
  · cases mid with
    | nil =>
      cases hrest
      exact htr.disturbs_unique hd hd'
    | cons e mid =>
      cases hrest
      exact (hlater' tr (by simp) (htr.sees hd)).elim

end

/-! ## The upkeep, up to the restarts -/

/-- Such a `Reconfigure` needs to be entitled. -/
def rollMust (what : ReconfigureRequest → Prop) (entitled : Trace ctlSig → PeerId → ReconfigureRequest → Prop)
    (tr : Trace ctlSig) (r : CtlReq) : Prop :=
  r.Tells fun peer request => what request → entitled tr peer request

section

variable {what : ReconfigureRequest → Prop} {entitled : Trace ctlSig → PeerId → ReconfigureRequest → Prop}
  {s : Trace ctlSig}

theorem Undisturbed.append {tr : Trace ctlSig} (hs : Undisturbed what s)
    (htr : ∀ e ∈ tr, CtlReq.Tells (fun _ request => ¬ what request) e.req) : Undisturbed what (s ++ tr) := by
  intro peer request x hmem
  rcases List.mem_append.1 hmem with hmem | hmem
  · exact hs peer request x hmem
  · exact htr _ hmem

/-- A step without such a `Reconfigure`. -/
theorem wp_roll {α : Type} {p : CtlM α} {R : α → Prop} {kinds : List Kind} {say : PeerId → ReconfigureRequest → Prop}
    (hp : p.Uses (Says l kinds say) True) (hsay : ∀ peer request, say peer request → ¬ what request) (hr : p.Returns R)
    (hs : Undisturbed what s) :
    (Monitor.history (rollMust what entitled)).wp p s fun s' a => Undisturbed what s' ∧ R a := by
  have htells (r : CtlReq) (hr : Says l kinds say r) : r.Tells fun _ request => ¬ what request := hr.2.imp hsay
  refine Monitor.wp_mono ?_ (Monitor.wp_history_of_uses
    (fun s r (hr : Says l kinds say r) => (htells r hr).imp fun _ _ hno hyes => (hno hyes).elim) hp hr)
  rintro s' a ⟨⟨tr, rfl, htr⟩, ha⟩
  exact ⟨hs.append fun e he => htells e.req (htr e he), ha⟩

/-- A step without any `Reconfigure`. -/
theorem wp_roll_of_kinds {α : Type} {p : CtlM α} {R : α → Prop} {kinds : List Kind} (hp : p.Uses (Sends l kinds) True)
    (hk : .reconfigure ∉ kinds) (hr : p.Returns R) (hs : Undisturbed what s) :
    (Monitor.history (rollMust what entitled)).wp p s fun s' a => Undisturbed what s' ∧ R a := by
  have hsays : p.Uses (Says l kinds fun _ _ => False) True := Uses.telling hp (List.Subset.refl _) hk
  exact wp_roll hsays (fun _ _ h => h.elim) hr hs

/-- What is left is the last part of the upkeep. -/
theorem wp_maintain_roll (hquarantine : ∀ q peer request, SetsQuarantine q peer request → ¬ what request)
    (settles : ∀ s (m' : EtcdController), Undisturbed what s → m.Stays m' → cs.verdict acked spec = .pass →
      cs.Kept acked spec →
      (Monitor.history (rollMust what entitled)).wp (m'.settle l acked cs spec) s fun _ _ => True)
    (hs : Undisturbed what s) :
    (Monitor.history (rollMust what entitled)).wp (m.maintain l acked cs spec) s fun _ _ => True := by
  refine wp_maintain (I := Undisturbed what) (K := Undisturbed what) hs (fun _ _ => trivial) ?_
    (fun _ _ _ _ _ => trivial) ?_ ?_ ?_
  · intro s r hs hr
    have htells {say : PeerId → ReconfigureRequest → Prop} : r.Tells say := .of_kind hr.1 (by simp)
    exact ⟨htells, fun x _ => hs.append (List.forall_mem_singleton.2 htells)⟩
  · intro s m' hs _
    rw [checkQuarantine_eq]
    split
    · exact ⟨nofun, fun _ => hs⟩
    · exact ⟨fun _ _ => trivial, nofun⟩
    next q _ =>
      refine Monitor.wp_bind.2 (Monitor.wp_mono ?_ (wp_roll tells_updateQuarantine (hquarantine q) (.trivially _) hs))
      exact fun _ _ _ => ⟨fun _ _ => trivial, nofun⟩
  · intro s m' hs _ _
    refine Monitor.wp_mono ?_ (wp_roll_of_kinds uses_resize (by simp) (.trivially _) hs)
    exact fun _ _ h => ⟨fun _ _ => trivial, fun _ => h.1⟩
  · exact settles

end

/-! ## Upgrades in place -/

/-- The `Reconfigure` sets a version. -/
def ReconfigureRequest.Upgrades (request : ReconfigureRequest) : Prop := request.setEtcdVersion ≠ ""

/-- What an upgrade in place has to be entitled by: every member is healthy and
there are as many as there should be; the peer hosts one of them, has another
version than the spec, from which the move is supported, and stays in the
quarantine it is in; and it is the first one of the iteration. -/
structure UpgradeEntitled (cs : ClusterState) (spec : ClusterSpec) (tr : Trace ctlSig) (peer : PeerId)
    (request : ReconfigureRequest) : Prop where
  allHealthy : cs.AllHealthy
  full : (cs.members.size : Int) = spec.memberCount
  version : request.setEtcdVersion = spec.etcdVersion
  outdated : ∃ id p st, cs.peers.lookup id = some p ∧ p.peer.id = peer ∧ p.info.etcdState = some st ∧
    st.etcdVersion ≠ spec.etcdVersion ∧ request.quarantined = st.quarantined ∧
    (∃ memberId member, cs.members.lookup memberId = some member ∧ p.hosts member = true) ∧
    ∃ old new, Semver.parseTolerant st.etcdVersion = some old ∧ Semver.parseTolerant spec.etcdVersion = some new ∧
      Semver.OneMinor old new
  first : Undisturbed (·.Upgrades) tr

/-- The peers that `mapMembers` finds host members. -/
def Hosting (cs : ClusterState) (memberToPeer : GoMap ClusterPeerInfo) : Prop :=
  ∀ memberId p, memberToPeer.lookup memberId = some p → (∃ id, cs.peers.lookup id = some p) ∧
    ∃ memberId member, cs.members.lookup memberId = some member ∧ p.hosts member = true

theorem returns_mapMembers_hosting : ∀ (members : List (EtcdMemberId × EtcdProcessMember)) (memberToPeer : GoMap ClusterPeerInfo),
    (∀ e ∈ members, cs.members.lookup e.1 = some e.2) → Hosting cs memberToPeer →
    (mapMembers cs members memberToPeer).Returns fun r => ∀ result, r = .ok result → Hosting cs result
  | [], memberToPeer, _, h => by
    intro result hok
    cases hok
    exact h
  | (memberId, member) :: rest, memberToPeer, hmembers, h => by
    obtain ⟨hmember, hrest⟩ := List.forall_mem_cons.1 hmembers
    refine Returns.range fun peers hperm => ?_
    split
    · exact nofun
    next id p hfind =>
    refine returns_mapMembers_hosting rest _ hrest fun memberId' p' hlookup => ?_
    rcases GoMap.lookup_insert_eq_some.1 hlookup with ⟨-, rfl⟩ | ⟨-, hlookup⟩
    · have hmem : (id, p') ∈ peers := List.mem_reverse.1 (List.mem_of_find?_eq_some hfind)
      have hfound := List.find?_some hfind
      exact ⟨⟨id, GoMap.mem_pairs.1 (hperm.mem_iff.1 hmem)⟩, memberId, member, hmember, hfound⟩
    · exact h memberId' p' hlookup

theorem returns_prepareForUpgrade_ok : (prepareForUpgrade spec cs).Returns fun r => ∀ result, r = .ok result →
    cs.healthyMembers.size = cs.members.size ∧ (cs.members.size : Int) = spec.memberCount ∧ Hosting cs result := by
  refine Returns.range fun members hperm => .bind (returns_mapMembers_hosting members ∅ ?_ ?_) fun r hr => ?_
  · exact fun e he => GoMap.mem_pairs.1 (hperm.mem_iff.1 he)
  · exact fun _ _ h => nomatch h
  · cases r with
    | error err => exact nofun
    | ok memberToPeer =>
      dsimp only
      split
      · exact nofun
      next hhealthy =>
      split
      · exact nofun
      next hfull =>
      intro result hok
      cases hok
      rw [not_not] at hhealthy hfull
      exact ⟨hhealthy, hfull, hr memberToPeer rfl⟩

section

variable {s : Trace ctlSig} (hall : cs.AllHealthy) (hfull : (cs.members.size : Int) = spec.memberCount)
  (hsupported : ∀ e ∈ cs.versionMismatch spec, ∀ st, e.2.info.etcdState = some st →
    upgradeInPlaceSupported st.etcdVersion spec.etcdVersion = true)
include hall hfull hsupported

theorem SetsVersion.entitled {memberToPeer : GoMap ClusterPeerInfo} (hhosting : Hosting cs memberToPeer)
    (hs : Undisturbed (·.Upgrades) s) {peer : PeerId} {request : ReconfigureRequest}
    (h : SetsVersion spec memberToPeer peer request) : UpgradeEntitled cs spec s peer request := by
  obtain ⟨memberId, p, st, hlookup, hpeer, hst, hversion, hset, hquarantined, -⟩ := h
  obtain ⟨⟨id, hid⟩, hhosts⟩ := hhosting memberId p hlookup
  have hmismatch : (id, p) ∈ cs.versionMismatch spec := by
    refine List.mem_filter.2 ⟨GoMap.mem_pairs.2 hid, ?_⟩
    simp [hst, hversion]
  refine ⟨hall, hfull, hset, ⟨id, p, st, hid, hpeer, hst, hversion, hquarantined, hhosts, ?_⟩, hs⟩
  exact upgradeInPlaceSupported_iff.1 (hsupported _ hmismatch st hst)

/-- The loop ends with the first one. -/
theorem wp_upgradeOne {memberToPeer : GoMap ClusterPeerInfo} (hhosting : Hosting cs memberToPeer)
    (hs : Undisturbed (·.Upgrades) s) : ∀ members : List (EtcdMemberId × EtcdProcessMember),
      (Monitor.history (rollMust (·.Upgrades) (UpgradeEntitled cs spec))).wp (m.upgradeOne l spec memberToPeer members) s
        fun _ _ => True
  | [] => trivial
  | (memberId, _) :: rest => by
    unfold upgradeOne
    split
    · trivial
    next p hp =>
    split
    · trivial
    next st hst =>
    split
    · exact wp_upgradeOne hhosting hs rest
    next hversion =>
    refine Monitor.wp_ctl.2 ⟨fun _ => ?_, fun answer _ => ?_⟩
    · exact SetsVersion.entitled hall hfull hsupported hhosting hs ⟨memberId, p, st, hp, rfl, hst, hversion, rfl, rfl, rfl⟩
    · cases answer <;> trivial

end

theorem wp_upgradeInPlace {s : Trace ctlSig} (hc : cs.Consistent) (hs : Undisturbed (·.Upgrades) s)
    (hsupported : ∀ e ∈ cs.versionMismatch spec, ∀ st, e.2.info.etcdState = some st →
      upgradeInPlaceSupported st.etcdVersion spec.etcdVersion = true) :
    (Monitor.history (rollMust (·.Upgrades) (UpgradeEntitled cs spec))).wp (m.upgradeInPlace l spec cs) s
      fun _ _ => True := by
  refine Monitor.wp_bind.2 (Monitor.wp_mono ?_
    (wp_roll_of_kinds (@uses_prepareForUpgrade l cs spec) (by simp) returns_prepareForUpgrade_ok hs))
  intro s r ⟨hs, hr⟩
  cases r with
  | error err => trivial
  | ok memberToPeer =>
  obtain ⟨hhealthy, hfull, hhosting⟩ := hr memberToPeer rfl
  have hall : cs.AllHealthy := hc.allHealthy_iff.2 hhealthy.ge
  refine Monitor.wp_range.2 ⟨trivial, fun order _ => ?_⟩
  refine Monitor.wp_bind.2 (Monitor.wp_mono ?_ (wp_roll_of_kinds (@uses_checkUpgradable l memberToPeer _) (by simp)
    (.trivially _) (hs.append (List.forall_mem_singleton.2 trivial))))
  intro s err ⟨hs, _⟩
  cases err with
  | some err => trivial
  | none =>
  refine Monitor.wp_bind.2 (Monitor.wp_mono ?_ (wp_roll_of_kinds uses_doClusterBackup (by simp) (.trivially _) hs))
  intro s r ⟨hs, _⟩
  cases r with
  | error err => trivial
  | ok _ =>
  refine Monitor.wp_range.2 ⟨trivial, fun order _ => wp_upgradeOne hall hfull hsupported hhosting ?_ _⟩
  exact hs.append (List.forall_mem_singleton.2 trivial)

theorem wp_maintain_upgrade {s : Trace ctlSig} (hc : cs.Consistent) (hs : Undisturbed (·.Upgrades) s) :
    (Monitor.history (rollMust (·.Upgrades) (UpgradeEntitled cs spec))).wp (m.maintain l acked cs spec) s
      fun _ _ => True := by
  have keeps {request : ReconfigureRequest} (h : request.setEtcdVersion = "") : ¬ request.Upgrades := fun hne => hne h
  refine wp_maintain_roll (fun _ _ _ h => keeps h.1) (fun s c hs _ _ _ => ?_) hs
  refine Monitor.wp_bind.2 (Monitor.wp_mono ?_
    (wp_roll tells_reconcileTLS (fun _ _ ⟨_, _, _, h⟩ => keeps h.1) (.trivially _) hs))
  intro s ⟨changed, err⟩ ⟨hs, _⟩
  dsimp only
  split
  · trivial
  split
  · split
    · split
      next hall =>
        refine Monitor.wp_bind.2 (Monitor.wp_mono (fun _ _ _ => trivial) (wp_upgradeInPlace hc hs fun e he st hst => ?_))
        have := List.all_eq_true.1 hall e he
        simpa [hst] using this
      · exact Monitor.wp_mono (fun _ _ _ => trivial) (wp_roll tells_stopForUpgrade (fun _ _ h => keeps h.1) (.trivially _) hs)
    · trivial
  · trivial

/-- **A rolling upgrade disturbs one member at a time.** An iteration sends at
most one `Reconfigure` that sets a version, and what it has found by then
entitles it to that. So over iterations of any controllers, one peer at most
was upgraded without every member having been found healthy since. -/
theorem upgrade_disturbs_one_member :
    (∀ (m : EtcdController) pre peer request x post p, Runs m.run (pre ++ ⟨.reconfigure peer request, x⟩ :: post) p →
      request.setEtcdVersion ≠ "" →
        ∃ acked cs spec, Standing pre acked cs spec ∧ UpgradeEntitled cs spec pre peer request) ∧
    ∀ its : List (Trace ctlSig), (∀ tr ∈ its, ∃ (m : EtcdController) (p : CtlM (EtcdController × Progress)), Runs m.run tr p) →
      ∀ peer peer', Unsettled (·.Upgrades) its peer → Unsettled (·.Upgrades) its peer' → peer = peer' := by
  have hentitled (m : EtcdController) (pre : Trace ctlSig) (peer : PeerId) (request : ReconfigureRequest)
      (x : CtlReq.Resp (.reconfigure peer request)) (post : Trace ctlSig) (p : CtlM (EtcdController × Progress))
      (hrun : Runs m.run (pre ++ ⟨.reconfigure peer request, x⟩ :: post) p) (hup : request.setEtcdVersion ≠ "") :
      ∃ acked cs spec, Standing pre acked cs spec ∧ UpgradeEntitled cs spec pre peer request := by
    have hmaintain (m : EtcdController) l (acked : Nat) cs spec s (hc : ClusterState.Consistent cs)
        (hs : ∀ e ∈ s, e.req.kind ∈ scoutKinds) :
        (Monitor.history (rollMust (·.Upgrades) (UpgradeEntitled cs spec))).wp (m.maintain l acked cs spec) s fun _ _ => True := by
      refine wp_maintain_upgrade hc fun peer request x hmem _ => ?_
      simpa [CtlReq.kind, scoutKinds] using hs _ hmem
    obtain ⟨acked, cs, spec, hstanding, -, -, hneed⟩ := hrun.standing hmaintain
      (by simp [CtlReq.kind, quietKinds, scoutKinds, newClusterKinds, restoreKinds])
    exact ⟨acked, cs, spec, hstanding, hneed hup⟩
  refine ⟨hentitled, fun its hits peer peer' => unsettled_unique fun tr htr => ?_⟩
  obtain ⟨m, p, hrun⟩ := hits tr htr
  intro pre peer request x post heq hup
  subst heq
  obtain ⟨acked, cs, spec, hstanding, hent⟩ := hentitled m pre peer request x post p hrun hup
  obtain ⟨now, hobs⟩ := hstanding.observed
  exact ⟨⟨cs, now, hobs, hent.allHealthy⟩, hent.first⟩

/-- A cluster of three that is to be upgraded. -/
def Site.outdated : Site :=
  { peers := [⟨"a", []⟩, ⟨"b", []⟩, ⟨"c", []⟩], info := Site.running ["a", "b", "c"] false
    members := ["a", "b", "c"].map Site.member, commands := [], spec := some ⟨3, "3.5.1"⟩, created := true }

/-- One member is, and the request was entitled. -/
theorem upgrade_disturbs_one_member_outdated :
    ∃ (pre post : Trace ctlSig) (request : ReconfigureRequest) (x : CtlReq.Resp (.reconfigure "c" request))
      (p : CtlM (EtcdController × Progress)) (cs : ClusterState) (spec : ClusterSpec),
      Runs (Site.outdated.leader "a").run (pre ++ ⟨.reconfigure "c" request, x⟩ :: post) p ∧
      request.setEtcdVersion = "3.5.1" ∧ UpgradeEntitled cs spec pre "c" request := by
  let run := (Site.outdated.leader "a").run.follow Site.outdated.answer
  obtain ⟨request, x, htr, hversion⟩ : ∃ request x, run.1 = run.1.take 43 ++ ⟨.reconfigure "c" request, x⟩ :: run.1.drop 44 ∧
      request.setEtcdVersion = "3.5.1" := ⟨_, _, rfl, rfl⟩
  have hrun : Runs (Site.outdated.leader "a").run (run.1.take 43 ++ ⟨.reconfigure "c" request, x⟩ :: run.1.drop 44) run.2 :=
    htr ▸ Prog.follow_runs
  obtain ⟨acked, cs, spec, -, hentitled⟩ := upgrade_disturbs_one_member.1 _ _ _ _ _ _ _ hrun (by rw [hversion]; simp)
  exact ⟨_, _, request, x, _, cs, spec, hrun, hversion, hentitled⟩

/-! ## The switch to TLS -/

/-- The peer urls a member should have. -/
def EtcdNode.tlsPeerUrls (node : EtcdNode) : List String := normalize (rewriteScheme node.peerUrls "http://" "https://")

/-- The peer's own node has no TLS yet, and the peer URLs of a member of the
peer's id need no change first. -/
def ClusterPeerInfo.NeedsTls (p : ClusterPeerInfo) (cs : ClusterState) (peerID : PeerId) : Prop :=
  ∃ nodeConfiguration etcdState node memberId member,
    p.info.nodeConfiguration = some nodeConfiguration ∧ p.info.etcdState = some etcdState ∧
    (etcdState.cluster.bind fun c => c.nodes.reverse.find? (·.name == nodeConfiguration.name)) = some node ∧
    node.tlsEnabled = false ∧ cs.members.lookup memberId = some member ∧ member.name = peerID ∧
    (normalize member.peerURLs = nodeConfiguration.tlsPeerUrls ∨ nodeConfiguration.tlsPeerUrls = [])

/-- A member is down, nothing before the switch to TLS ends the iteration, and
some peer still has to be switched. -/
structure ClusterState.StacksTls (acked : Nat) (cs : ClusterState) (spec : ClusterSpec) : Prop where
  unhealthy : ¬ cs.AllHealthy
  settled : cs.verdict acked spec = .pass
  kept : cs.Kept acked spec
  needs : ∃ id p, cs.peers.lookup id = some p ∧ p.NeedsTls cs id

theorem returns_findByName_some {members : GoMap EtcdProcessMember} {name : String} :
    (findByName members name).Returns fun r => ∀ member, r = some member →
      ∃ id, members.lookup id = some member ∧ member.name = name := by
  refine Returns.range fun l hl member hr => ?_
  obtain ⟨e, he, rfl⟩ := Option.map_eq_some_iff.1 hr
  have hname := List.find?_some he
  exact ⟨e.1, GoMap.mem_pairs.1 (hl.mem_iff.1 (List.mem_of_find?_eq_some he)), beq_iff_eq.1 hname⟩

/-- The peer URLs are passed over exactly if they are right, or unknown. -/
theorem returns_reconcilePeerURLs {peerID : PeerId} {node : EtcdNode} {etcdState : EtcdState}
    {member : EtcdProcessMember} : (reconcilePeerURLs peerID node etcdState member).Returns fun r => r = (false, none) →
      normalize member.peerURLs = node.tlsPeerUrls ∨ node.tlsPeerUrls = [] := by
  unfold reconcilePeerURLs
  dsimp only
  split
  next heq => exact fun _ => .inl heq
  unfold updatePeerURLs
  dsimp only
  split
  next hnil => exact fun _ => .inr hnil
  refine Returns.ctl fun answer => ?_
  rcases answer with err | members
  · exact nofun
  dsimp only
  split
  · exact nofun
  refine Returns.ctl fun answer => ?_
  rcases answer with err | _
  · exact nofun
  · exact nofun

theorem reconcilePeerURLs_eq {peerID : PeerId} {node : EtcdNode} {etcdState : EtcdState} {member : EtcdProcessMember}
    (h : normalize member.peerURLs = node.tlsPeerUrls ∨ node.tlsPeerUrls = []) :
    reconcilePeerURLs peerID node etcdState member = .ret (false, none) := by
  unfold reconcilePeerURLs
  dsimp only
  split
  · rfl
  next hne =>
  unfold updatePeerURLs
  exact if_pos (h.resolve_left hne)

section

variable {entitled : Trace ctlSig → PeerId → ReconfigureRequest → Prop} {s : Trace ctlSig}

/-- The loop ends with the first switch. -/
theorem wp_reconcilePeerTLS {peerID : PeerId} {p : ClusterPeerInfo} (hs : Undisturbed (·.enableTls = true) s)
    (hentitled : p.NeedsTls cs peerID → ∀ s peer request, Undisturbed (·.enableTls = true) s → entitled s peer request) :
    (Monitor.history (rollMust (·.enableTls = true) entitled)).wp (m.reconcilePeerTLS l cs peerID p) s fun s' r =>
      (∀ p, r = some p → p.1 = true ∨ p.2.isSome = true) ∧ (r = none → Undisturbed (·.enableTls = true) s') := by
  unfold reconcilePeerTLS
  split
  next nodeConfiguration etcdState hconf hstate =>
    split
    · exact ⟨nofun, fun _ => hs⟩
    next node hnode =>
    refine Monitor.wp_bind.2 (Monitor.wp_mono ?_ (wp_roll_of_kinds (@uses_findByName l cs.members peerID) (by simp)
      returns_findByName_some hs))
    intro s member ⟨hs, hmember⟩
    cases member with
    | none => exact ⟨nofun, fun _ => hs⟩
    | some member =>
    obtain ⟨memberId, hm, hname⟩ := hmember member rfl
    refine Monitor.wp_bind.2 (Monitor.wp_mono ?_ (wp_roll_of_kinds
      (@uses_reconcilePeerURLs l peerID nodeConfiguration etcdState member) (by simp) returns_reconcilePeerURLs hs))
    intro s ⟨c, err⟩ ⟨hs, hurls⟩
    dsimp only
    split
    next hsome =>
      refine ⟨fun p hp => ?_, nofun⟩
      cases hp
      exact hsome
    next hnothing =>
    split
    · exact ⟨nofun, fun _ => hs⟩
    next htls =>
    have hnone : (c, err) = (false, none) := by
      rw [not_or, Option.not_isSome_iff_eq_none] at hnothing
      rw [hnothing.2, Bool.eq_false_of_not_eq_true hnothing.1]
    have hneeds : p.NeedsTls cs peerID := ⟨nodeConfiguration, etcdState, node, memberId, member, hconf, hstate, hnode,
      Bool.eq_false_of_not_eq_true htls, hm, hname, hurls hnone⟩
    refine Monitor.wp_ctl.2 ⟨fun _ => hentitled hneeds s _ _ hs, fun answer _ => ?_⟩
    cases answer with
    | error err =>
      refine ⟨fun p hp => ?_, nofun⟩
      cases hp
      exact .inr rfl
    | ok _ =>
      refine ⟨fun p hp => ?_, nofun⟩
      cases hp
      exact .inl rfl
  · exact ⟨nofun, fun _ => hs⟩

theorem wp_reconcilePeersTLS : ∀ (peers : List (PeerId × ClusterPeerInfo)) {s : Trace ctlSig},
    Undisturbed (·.enableTls = true) s → (∀ e ∈ peers, e.2.NeedsTls cs e.1 → ∀ s peer request,
      Undisturbed (·.enableTls = true) s → entitled s peer request) →
    (Monitor.history (rollMust (·.enableTls = true) entitled)).wp (m.reconcilePeersTLS l cs peers) s fun s' r =>
      ¬ (r.1 = true ∨ r.2.isSome = true) → Undisturbed (·.enableTls = true) s'
  | [], s, hs, _ => fun _ => hs
  | (peerID, p) :: rest, s, hs, h => by
    obtain ⟨hp, hrest⟩ := List.forall_mem_cons.1 h
    refine Monitor.wp_bind.2 (Monitor.wp_mono ?_ (wp_reconcilePeerTLS hs hp))
    intro s r ⟨hsome, hnone⟩
    cases r with
    | none => exact wp_reconcilePeersTLS rest (hnone rfl) hrest
    | some r => exact fun hno => (hno (hsome r rfl)).elim

end

/-- What a switch to TLS has to be entitled by: it is the first of the
iteration, and every member is healthy, or it is excused. -/
def tlsEntitled (cs : ClusterState) (excuse : Prop) (tr : Trace ctlSig) (_ : PeerId) (_ : ReconfigureRequest) : Prop :=
  Undisturbed (·.enableTls = true) tr ∧ (cs.AllHealthy ∨ excuse)

theorem wp_maintain_tls {s : Trace ctlSig} {excuse : Prop} (hs : Undisturbed (·.enableTls = true) s)
    (hexcuse : m.disableEtcdTLS = false → cs.StacksTls acked spec → excuse) :
    (Monitor.history (rollMust (·.enableTls = true) (tlsEntitled cs excuse))).wp (m.maintain l acked cs spec) s
      fun _ _ => True := by
  have keeps {request : ReconfigureRequest} (h : request.enableTls = false) : ¬ request.enableTls = true := by simp [h]
  refine wp_maintain_roll (fun _ _ _ h => keeps h.2.2) (fun s c hs hc hpass hkept => ?_) hs
  have htls : (Monitor.history (rollMust (·.enableTls = true) (tlsEntitled cs excuse))).wp (c.reconcileTLS l cs) s
      fun s' r => ¬ (r.1 = true ∨ r.2.isSome = true) → Undisturbed (·.enableTls = true) s' := by
    unfold reconcileTLS
    split
    · exact fun _ => hs
    next hdis =>
    have hdis : m.disableEtcdTLS = false := hc.disableEtcdTLS ▸ Bool.eq_false_of_not_eq_true hdis
    refine Monitor.wp_range.2 ⟨trivial, fun order _ => wp_reconcilePeersTLS _ (hs.append (List.forall_mem_singleton.2 trivial)) ?_⟩
    intro e he hneeds s _ _ hs
    have hpeer : cs.peers.lookup e.1 = some e.2 := (GoMap.mem_inOrder order.2).1 he
    refine ⟨hs, ?_⟩
    by_cases hall : cs.AllHealthy
    · exact .inl hall
    · exact .inr (hexcuse hdis ⟨hall, hpass, hkept, e.1, e.2, hpeer, hneeds⟩)
  refine Monitor.wp_bind.2 (Monitor.wp_mono ?_ htls)
  intro s ⟨changed, err⟩ hr
  dsimp only
  split
  · trivial
  next hno =>
  have hs := hr hno
  split
  · split
    · split
      · exact Monitor.wp_bind.2 (Monitor.wp_mono (fun _ _ _ => trivial)
          (wp_roll (tells_upgradeInPlace returns_prepareForUpgrade_ok)
            (fun _ _ ⟨_, _, _, _, _, _, _, _, _, _, _, h⟩ => keeps h) (.trivially _) hs))
      · exact Monitor.wp_mono (fun _ _ _ => trivial)
          (wp_roll tells_stopForUpgrade (fun _ _ h => keeps h.2.2) (.trivially _) hs)
    · trivial
  · trivial

/-! ### The condition is needed -/

/-- The request that ought not to be made. -/
def CtlReq.SwitchesTls (r : CtlReq) : Prop := ∃ peer request, r = .reconfigure peer request ∧ request.enableTls = true

theorem reconcilePeerTLS_switches {peerID : PeerId} {p : ClusterPeerInfo} (h : p.NeedsTls cs peerID) :
    (m.reconcilePeerTLS l cs peerID p).Reaches (fun _ => False) CtlReq.SwitchesTls := by
  obtain ⟨nodeConfiguration, etcdState, node, memberId, member, hconf, hstate, hnode, htls, hm, hname, hurls⟩ := h
  obtain ⟨ks, rest, hks, horder⟩ := GoMap.exists_inOrder_cons hm
  have hfind : Runs (cs.findMember peerID) [⟨.rangeOver cs.members.keys, ⟨ks, hks⟩⟩] (.ret (some member)) := by
    refine .range hks ?_
    rw [horder, List.find?_cons_of_pos (by simp [hname])]
    exact .refl
  unfold reconcilePeerTLS
  rw [hconf, hstate]
  dsimp only
  rw [hnode]
  refine .after hfind (.trivially (fun _ => not_false) _) ?_
  dsimp only
  rw [reconcilePeerURLs_eq hurls, htls]
  exact .now ⟨_, _, rfl, rfl⟩ id (.ok ())

theorem settle_switches (hdis : m.disableEtcdTLS = false) (h : ∃ id p, cs.peers.lookup id = some p ∧ p.NeedsTls cs id) :
    (m.settle l acked cs spec).Reaches (fun _ => False) CtlReq.SwitchesTls := by
  obtain ⟨id, p, hp, hneeds⟩ := h
  obtain ⟨ks, rest, hks, horder⟩ := GoMap.exists_inOrder_cons hp
  refine .bind ?_
  unfold reconcileTLS
  rw [if_neg (by simp [hdis])]
  refine .range hks (fun h => h) ?_
  rw [horder]
  exact .bind (reconcilePeerTLS_switches hneeds)

/-- **When a switch to TLS never stacks outages.** The upkeep enables TLS only
with every member healthy if and only if it may not enable it at all or the
view is not one in which outages stack. The same is behind each switch of an
iteration; and over iterations without such views, one peer at most was
switched without every member having been found healthy since. -/
theorem tls_only_when_healthy_iff (m : EtcdController) :
    (∀ l acked cs spec, (∀ tr p, Runs (m.maintain l acked cs spec) tr p → ∀ peer request x,
        ⟨.reconfigure peer request, x⟩ ∈ tr → request.enableTls = true → cs.AllHealthy) ↔
      ¬ (m.disableEtcdTLS = false ∧ cs.StacksTls acked spec)) ∧
    (∀ pre peer request x post p, Runs m.run (pre ++ ⟨.reconfigure peer request, x⟩ :: post) p →
      request.enableTls = true → ∃ acked cs spec, Standing pre acked cs spec ∧ (cs.AllHealthy ∨ cs.StacksTls acked spec)) ∧
    ∀ its : List (Trace ctlSig),
      (∀ tr ∈ its, (∃ (m : EtcdController) (p : CtlM (EtcdController × Progress)), Runs m.run tr p) ∧
        ∀ acked cs spec, Standing tr acked cs spec → ¬ cs.StacksTls acked spec) →
      ∀ peer peer', Unsettled (·.enableTls = true) its peer → Unsettled (·.enableTls = true) its peer' → peer = peer' := by
  have hentitled (m : EtcdController) (pre : Trace ctlSig) (peer : PeerId) (request : ReconfigureRequest)
      (x : CtlReq.Resp (.reconfigure peer request)) (post : Trace ctlSig) (p : CtlM (EtcdController × Progress))
      (hrun : Runs m.run (pre ++ ⟨.reconfigure peer request, x⟩ :: post) p) (htls : request.enableTls = true) :
      ∃ acked cs spec, Standing pre acked cs spec ∧ tlsEntitled cs (cs.StacksTls acked spec) pre peer request := by
    have hmaintain (m : EtcdController) l (acked : Nat) cs spec s (_ : ClusterState.Consistent cs)
        (hs : ∀ e ∈ s, e.req.kind ∈ scoutKinds) :
        (Monitor.history (rollMust (·.enableTls = true) (tlsEntitled cs (cs.StacksTls acked spec)))).wp
          (m.maintain l acked cs spec) s fun _ _ => True := by
      refine wp_maintain_tls (fun peer request x hmem _ => ?_) fun _ h => h
      simpa [CtlReq.kind, scoutKinds] using hs _ hmem
    obtain ⟨acked, cs, spec, hstanding, -, -, hneed⟩ := hrun.standing hmaintain
      (by simp [CtlReq.kind, quietKinds, scoutKinds, newClusterKinds, restoreKinds])
    exact ⟨acked, cs, spec, hstanding, hneed htls⟩
  refine ⟨fun l acked cs spec => ⟨?_, ?_⟩, ?_, ?_⟩
  · rintro h ⟨hdis, hstacks⟩
    obtain ⟨tr, p, hrun, ⟨⟨r, x⟩, hmem, peer, request, rfl, htls⟩, -⟩ :=
      @maintain_reaches m l cs spec acked _ hstacks.settled (.inr ⟨hstacks.kept, settle_switches hdis hstacks.needs⟩)
    exact hstacks.unhealthy (h tr p hrun peer request x hmem htls)
  · intro hno tr p hrun peer request x hmem htls
    obtain ⟨pre, post, rfl⟩ := List.append_of_mem hmem
    have hwp : (Monitor.history (rollMust (·.enableTls = true) (tlsEntitled cs False))).wp (m.maintain l acked cs spec) []
        fun _ _ => True := wp_maintain_tls (fun _ _ _ hmem => (List.not_mem_nil hmem).elim) fun hdis hstacks => hno ⟨hdis, hstacks⟩
    exact (hrun.must_history hwp htls).2.resolve_right id
  · intro pre peer request x post p hrun htls
    obtain ⟨acked, cs, spec, hstanding, -, hhealthy⟩ := hentitled m pre peer request x post p hrun htls
    exact ⟨acked, cs, spec, hstanding, hhealthy⟩
  · intro its hits peer peer'
    refine unsettled_unique fun tr htr pre peer request x post heq htls => ?_
    obtain ⟨⟨m, p, hrun⟩, hgood⟩ := hits tr htr
    subst heq
    obtain ⟨acked, cs, spec, hstanding, hfirst, hhealthy⟩ := hentitled m pre peer request x post p hrun htls
    obtain ⟨now, hobs⟩ := hstanding.observed
    have hno := hgood acked cs spec (hstanding.mono (List.prefix_append pre _))
    exact ⟨⟨cs, now, hobs, hhealthy.resolve_right hno⟩, hfirst⟩

/-- Three members on three peers, with TLS on some of them, whose etcd is down
since it was restarted for it. -/
def Site.securing (secured : PeerId → Bool) : Site :=
  { peers := [⟨"a", []⟩, ⟨"b", []⟩, ⟨"c", []⟩]
    info := fun peer =>
      let nodes := ["a", "b", "c"].map fun name => node (secured name) name
      ⟨"name", some (node (secured peer) peer), some ⟨false, some ⟨3, "token", nodes⟩, "3.4.13", false⟩⟩
    members := [Site.member "a", Site.member "b", Site.member "c"], commands := [], spec := some ⟨3, "3.4.13"⟩
    created := true
    down := fun urls => ["a", "b", "c"].any fun name => secured name && urls == (Site.member name).clientURLs }

/-- Elected in its first iteration, the controller restarts `c` in the second.
In the third it finds `c` down, and restarts `b`: two members of three. -/
theorem tls_restarts_beside_outage : ∃ (tr₁ tr₂ tr₃ : Trace ctlSig) (m : EtcdController),
    (Site.controller "a").Loop [tr₁, tr₂, tr₃] m ∧ Disturbs (·.enableTls = true) tr₂ "c" ∧
    ∃ pre request x post cs now, tr₃ = pre ++ ⟨.reconfigure "b" request, x⟩ :: post ∧ request.enableTls = true ∧
      observed pre = some (cs, now) ∧ cs.members.lookup "id-c" = some (Site.member "c") ∧
      cs.healthyMembers.lookup "id-c" = none := by
  have hplay : ∃ (tr₁ tr₂ tr₃ : Trace ctlSig) (m : EtcdController),
      (Site.controller "a").play [.securing fun _ => false, .securing fun _ => false, .securing (· = "c")] =
        some ([tr₁, tr₂, tr₃], m) ∧
      (∃ (i : Nat) (request : ReconfigureRequest) (x : CtlReq.Resp (.reconfigure "c" request)),
        tr₂[i]? = some ⟨.reconfigure "c" request, x⟩ ∧ request.enableTls = true) ∧
      ∃ (i : Nat) (request : ReconfigureRequest) (x : CtlReq.Resp (.reconfigure "b" request)) (post : Trace ctlSig)
        (cs : ClusterState) (now : Time),
        tr₃ = tr₃.take i ++ ⟨.reconfigure "b" request, x⟩ :: post ∧ request.enableTls = true ∧
        observed (tr₃.take i) = some (cs, now) ∧ cs.members.lookup "id-c" = some (Site.member "c") ∧
        cs.healthyMembers.lookup "id-c" = none :=
    ⟨_, _, _, _, rfl, ⟨33, _, _, rfl, rfl⟩, 36, _, _, _, _, _, rfl, rfl, rfl, rfl, rfl⟩
  obtain ⟨tr₁, tr₂, tr₃, m, hplay, ⟨i, request, x, hfirst, htls⟩, j, request', x', post, cs, now, hrest⟩ := hplay
  exact ⟨tr₁, tr₂, tr₃, m, play_loop hplay, ⟨request, x, List.mem_of_getElem? hfirst, htls⟩, _, request', x', post, cs, now,
    hrest⟩

end Etcdadm
