/-
What the quarantine block of an iteration depends on.

The block counts quarantined and non-quarantined peers, and peers of another
version, over every peer that has a cluster; but `updateQuarantine` sends
requests only to the peers that host a member. A stray peer, one that has the
state of a cluster it is not a member of, is counted and not told. So what it
reports, stale or not, can decide what the members are told.

`Stable` says for which views it cannot: there is no stray, or no peer to
tell, or what the members report decides the matter in every case.
-/
import Etcdadm.Iteration

namespace Etcdadm

open EtcdController ClusterState

variable {m : EtcdController} {l : LeadershipState} {cs cs' : ClusterState} {spec : ClusterSpec} {acked : Nat}

/-! ## The decision -/

/-- What the block comes to: nothing, an end of the iteration, or a change of
the quarantine. -/
inductive Verdict where
  | pass
  | wait
  | set (quarantined : Bool)
  deriving DecidableEq

namespace ClusterState

/-- Enough members are healthy. -/
abbrev HealthyQuorum (cs : ClusterState) (spec : ClusterSpec) : Prop :=
  quorumSize spec.memberCount ≤ cs.healthyMembers.size

/-- Enough peers acknowledge the leader. -/
abbrev AckedQuorum (acked : Nat) (spec : ClusterSpec) : Prop := quorumSize spec.memberCount ≤ acked

def verdict (acked : Nat) (cs : ClusterState) (spec : ClusterSpec) : Verdict :=
  if 0 < cs.quarantinedMembers then
    if cs.HealthyQuorum spec ∧ cs.versionMismatch spec = [] then
      if AckedQuorum acked spec then .set false else .wait
    else if 0 < cs.nonQuarantinedMembers then .set true
    else .pass
  else .pass

end ClusterState

/-- The block carries out its verdict. -/
theorem checkQuarantine_eq : m.checkQuarantine l acked cs spec =
    match cs.verdict acked spec with
    | .pass => .ret none
    | .wait => .ret (some (false, none))
    | .set quarantined => m.updateQuarantine l cs quarantined >>= fun r => .ret (some r) := by
  unfold checkQuarantine verdict
  by_cases hq : 0 < cs.quarantinedMembers
  · rw [if_pos hq, if_pos hq]
    by_cases hready : cs.HealthyQuorum spec ∧ cs.versionMismatch spec = []
    · rw [if_pos hready, if_pos hready]
      by_cases hacked : AckedQuorum acked spec
      · rw [if_pos hacked, if_pos hacked]
        rfl
      · rw [if_neg hacked, if_neg hacked]
        rfl
    · rw [if_neg hready, if_neg hready]
      by_cases hn : 0 < cs.nonQuarantinedMembers
      · rw [if_pos hn, if_pos hn]
        rfl
      · rw [if_neg hn, if_neg hn]
        rfl
  · rw [if_neg hq, if_neg hq]
    rfl

/-! ## The requests -/

/-- A `Reconfigure` is heard. -/
def CtlReq.isReconfigure (r : CtlReq) : Bool := r.kind == .reconfigure

/-- The peer hosts a member. -/
def ClusterState.hosts (cs : ClusterState) (e : PeerId × ClusterPeerInfo) : Bool := hasName cs.members e.1

/-- What a hosting peer is told. -/
def quarantineRequest (m : EtcdController) (l : LeadershipState) (quarantined : Bool) (e : PeerId × ClusterPeerInfo) :
    CtlReq :=
  .reconfigure e.2.peer.id ⟨some (m.buildHeader l), "", quarantined, false⟩

/-- Looking for a member is not heard, and comes to the same in every order. -/
theorem emits_findByName {α : Type} {members : GoMap EtcdProcessMember} {name : String} {E : Set (List CtlReq)}
    {f : Option EtcdProcessMember → CtlM α}
    (hf : ∀ member, member.isSome = hasName members name → (f member).emits CtlReq.isReconfigure = E) :
    (findByName members name >>= f).emits CtlReq.isReconfigure = E := by
  have hquiet : (findByName members name).Uses (fun r => CtlReq.isReconfigure r = false) True :=
    (@uses_findByName ⟨"", []⟩ members name).mono fun r hr => by
      simp [CtlReq.isReconfigure, List.mem_singleton.1 hr.1]
  have hfound {tr member} (h : Runs (findByName members name) tr (.ret member)) :
      (f member).emits CtlReq.isReconfigure = E := hf member (h.returns returns_findByName)
  obtain ⟨member, hrun⟩ : ∃ member, Runs (findByName members name)
      [⟨.rangeOver members.keys, ⟨_, .refl _⟩⟩] (.ret member) := ⟨_, .step .refl⟩
  ext rs
  rw [Prog.mem_emits_bind hquiet]
  constructor
  · rintro (rfl | ⟨member, ⟨tr, h⟩, hrs⟩)
    · rw [← hfound hrun]
      exact Prog.nil_mem_emits
    · rwa [← hfound h]
  · intro hrs
    exact .inr ⟨member, ⟨_, hrun⟩, by rwa [hfound hrun]⟩

/-- The loop tells the hosting peers in turn, and may stop early. -/
theorem emits_quarantinePeers {q : Bool} : ∀ (peers : List (PeerId × ClusterPeerInfo)) (changed : Bool),
    (m.quarantinePeers l cs q peers changed).emits CtlReq.isReconfigure =
      { rs | rs <+: (peers.filter cs.hosts).map (quarantineRequest m l q) }
  | [], changed => by
    ext rs
    exact Prog.mem_emits_ret.trans List.prefix_nil.symm
  | (peerId, p) :: rest, changed => by
    refine emits_findByName fun member hmember => ?_
    have hhosts : cs.hosts (peerId, p) = member.isSome := hmember.symm
    rw [List.filter_cons, hhosts]
    cases member with
    | none => exact emits_quarantinePeers rest changed
    | some _ =>
      ext rs
      refine Prog.mem_emits_call.trans ?_
      simp only [Option.isSome_some, if_true, List.map_cons, Set.mem_ofPred_eq, List.prefix_cons_iff]
      refine or_congr_right ⟨?_, ?_⟩
      · rintro ⟨err | ⟨⟩, rs', hrs', rfl⟩
        · cases Prog.mem_emits_ret.1 hrs'
          exact ⟨[], rfl, List.nil_prefix⟩
        · refine ⟨rs', rfl, ?_⟩
          have := emits_quarantinePeers (q := q) rest true
          exact this.subset hrs'
      · rintro ⟨rs', rfl, hrs'⟩
        refine ⟨.ok (), rs', ?_, rfl⟩
        have := emits_quarantinePeers (q := q) rest true
        exact this.symm.subset hrs'

/-- The requests of a change: to the hosting peers, in some order. -/
theorem mem_emits_updateQuarantine {q : Bool} {rs : List CtlReq} :
    rs ∈ (m.updateQuarantine l cs q).emits CtlReq.isReconfigure ↔ ∃ ks : List String, ks.Perm cs.peers.keys ∧
      rs <+: ((cs.peers.inOrder ks).filter cs.hosts).map (quarantineRequest m l q) := by
  refine Prog.mem_emits_call.trans ?_
  constructor
  · rintro (rfl | ⟨ks, rs', hrs', rfl⟩)
    · exact ⟨cs.peers.keys, .refl _, List.nil_prefix⟩
    · exact ⟨ks.1, ks.2, (emits_quarantinePeers _ false).subset hrs'⟩
  · rintro ⟨ks, hks, hrs⟩
    exact .inr ⟨⟨ks, hks⟩, rs, (emits_quarantinePeers _ false).symm.subset hrs, rfl⟩

/-! ## Members and strays -/

def ClusterPeerInfo.quarantined (p : ClusterPeerInfo) : Bool := p.info.etcdState.any (·.quarantined)

def ClusterPeerInfo.mismatched (spec : ClusterSpec) (p : ClusterPeerInfo) : Bool :=
  p.info.etcdState.any (·.etcdVersion != spec.etcdVersion)

/-- How many peers are counted as quarantined, as not, and as of another
version. -/
@[ext] structure Tally where
  quarantined : Nat
  nonQuarantined : Nat
  mismatched : Nat

/-- What is decided from a tally: the members are told to be quarantined or
not, or they are told nothing. -/
def Tally.told (t : Tally) (healthy acked : Prop) [Decidable healthy] [Decidable acked] : Option Bool :=
  if 0 < t.quarantined then
    if healthy ∧ t.mismatched = 0 then
      if acked then some false else none
    else if 0 < t.nonQuarantined then some true
    else none
  else none

def Verdict.told : Verdict → Option Bool
  | .set quarantined => some quarantined
  | _ => none

namespace ClusterState

/-- A peer with the state of a cluster it is not a member of. -/
def stray (cs : ClusterState) (e : PeerId × ClusterPeerInfo) : Bool := e.2.configured && !cs.hosts e

/-- The peers that are strays, or that are not, with some property. -/
def countAmong (cs : ClusterState) (strays : Bool) (g : ClusterPeerInfo → Bool) : Nat :=
  cs.peers.pairs.countP fun e => (cs.stray e == strays) && g e.2

def tally (cs : ClusterState) (spec : ClusterSpec) (strays : Bool) : Tally :=
  { quarantined := cs.countAmong strays fun p => p.configured && p.quarantined
    nonQuarantined := cs.countAmong strays fun p => p.configured && !p.quarantined
    mismatched := cs.countAmong strays fun p => p.mismatched spec }

/-- The number of strays -/
def strays (cs : ClusterState) : Nat := cs.countAmong true fun _ => true

theorem countP_eq_add (g : ClusterPeerInfo → Bool) :
    cs.peers.pairs.countP (fun e => g e.2) = cs.countAmong false g + cs.countAmong true g := by
  unfold countAmong
  induction cs.peers.pairs with
  | nil => rfl
  | cons e rest ih =>
    simp only [List.countP_cons, ih]
    cases cs.stray e <;> cases g e.2 <;> simp <;> omega

theorem tally_strays : (cs.tally spec true).quarantined + (cs.tally spec true).nonQuarantined = cs.strays := by
  unfold tally strays countAmong
  dsimp only
  induction cs.peers.pairs with
  | nil => rfl
  | cons e rest ih =>
    simp only [List.countP_cons, ← ih]
    cases hs : cs.stray e with
    | false => simp
    | true =>
      have hconf : e.2.configured = true := (Bool.and_eq_true_iff.1 hs).1
      cases e.2.quarantined <;> simp [hconf] <;> omega

theorem tally_mismatched_le : (cs.tally spec true).mismatched ≤ cs.strays := by
  refine List.countP_mono_left fun e _ he => ?_
  simp_all

theorem versionMismatch_eq_nil_iff : cs.versionMismatch spec = [] ↔
    (cs.tally spec false).mismatched + (cs.tally spec true).mismatched = 0 := by
  have hsum := cs.countP_eq_add (ClusterPeerInfo.mismatched spec)
  rw [tally, tally, ← hsum, List.countP_eq_zero, versionMismatch, List.filter_eq_nil_iff]
  rfl

/-- The decision is made on the two tallies together. -/
theorem told_verdict : (cs.verdict acked spec).told = Tally.told
    ⟨(cs.tally spec false).quarantined + (cs.tally spec true).quarantined,
      (cs.tally spec false).nonQuarantined + (cs.tally spec true).nonQuarantined,
      (cs.tally spec false).mismatched + (cs.tally spec true).mismatched⟩
    (cs.HealthyQuorum spec) (AckedQuorum acked spec) := by
  have hq : cs.quarantinedMembers = (cs.tally spec false).quarantined + (cs.tally spec true).quarantined :=
    cs.countP_eq_add fun p => p.configured && p.quarantined
  have hn : cs.nonQuarantinedMembers = (cs.tally spec false).nonQuarantined + (cs.tally spec true).nonQuarantined :=
    cs.countP_eq_add fun p => p.configured && !p.quarantined
  simp only [verdict, Tally.told, hq, hn, versionMismatch_eq_nil_iff]
  split_ifs <;> rfl

end ClusterState

/-! ## Two views -/

/-- The same peer, reporting another state. -/
def ClusterPeerInfo.reporting (p : ClusterPeerInfo) (st : EtcdState) : ClusterPeerInfo :=
  { p with info := { p.info with etcdState := some st } }

/-- The views agree on everything but what the strays report: the members, the
healthy members, the peers, and what the other peers report. -/
structure ClusterState.Agrees (cs cs' : ClusterState) : Prop where
  members : cs'.members = cs.members
  healthyMembers : cs'.healthyMembers = cs.healthyMembers
  peers : ∀ id, cs'.peers.lookup id = cs.peers.lookup id ∨ ∃ p st, cs.peers.lookup id = some p ∧
    cs.stray (id, p) = true ∧ st.cluster.isSome = true ∧ cs'.peers.lookup id = some (p.reporting st)

namespace ClusterState.Agrees

variable (h : cs.Agrees cs')
include h

theorem isSome (id : PeerId) : (cs.peers.lookup id).isSome = (cs'.peers.lookup id).isSome := by
  rcases h.peers id with heq | ⟨p, st, hp, -, -, hp'⟩
  · rw [heq]
  · rw [hp, hp']
    rfl

theorem hosts : cs'.hosts = cs.hosts := by
  funext e
  rw [ClusterState.hosts, h.members, ClusterState.hosts]

/-- A peer is the same in both views, or a stray in both. -/
theorem same_or_stray {id : PeerId} {p p' : ClusterPeerInfo} (hp : cs.peers.lookup id = some p)
    (hp' : cs'.peers.lookup id = some p') :
    p' = p ∧ cs'.stray (id, p') = cs.stray (id, p) ∨ cs'.stray (id, p') = true ∧ cs.stray (id, p) = true := by
  rcases h.peers id with heq | ⟨q, st, hq, hstray, hst, hq'⟩
  · have : p' = p := Option.some.inj (hp'.symm.trans (heq.trans hp))
    subst this
    refine .inl ⟨rfl, ?_⟩
    rw [ClusterState.stray, h.hosts, ClusterState.stray]
  · cases hq.symm.trans hp
    cases hq'.symm.trans hp'
    refine .inr ⟨?_, hstray⟩
    have hno : (!cs.hosts (id, p)) = true := (Bool.and_eq_true_iff.1 hstray).2
    rw [ClusterState.stray, h.hosts, Bool.and_eq_true]
    exact ⟨hst, hno⟩

theorem stray_eq {id : PeerId} {p p' : ClusterPeerInfo} (hp : cs.peers.lookup id = some p)
    (hp' : cs'.peers.lookup id = some p') : cs'.stray (id, p') = cs.stray (id, p) := by
  rcases h.same_or_stray hp hp' with ⟨-, heq⟩ | ⟨hstray', hstray⟩
  · exact heq
  · rw [hstray, hstray']

theorem countAmong_false (g : ClusterPeerInfo → Bool) : cs'.countAmong false g = cs.countAmong false g := by
  refine GoMap.countP_pairs_congr h.isSome fun id p p' hp hp' => ?_
  rcases h.same_or_stray hp hp' with ⟨rfl, hstray⟩ | ⟨hstray', hstray⟩
  · rw [hstray]
  · rw [hstray, hstray']
    rfl

theorem strays : cs'.strays = cs.strays := by
  refine GoMap.countP_pairs_congr h.isSome fun id p p' hp hp' => ?_
  rw [h.stray_eq hp hp']

/-- The peers that can be told are the same. -/
theorem hosting (ks : List String) : (cs'.peers.inOrder ks).filter cs'.hosts = (cs.peers.inOrder ks).filter cs.hosts := by
  rw [h.hosts]
  refine (GoMap.filter_inOrder (hasName cs.members)).trans (Eq.trans ?_ (GoMap.filter_inOrder _).symm)
  refine GoMap.inOrder_congr fun k hk => ?_
  rcases h.peers k with heq | ⟨p, st, -, hstray, -⟩
  · exact heq
  · simp [ClusterState.stray, ClusterState.hosts, (List.mem_filter.1 hk).2] at hstray

theorem emits_updateQuarantine {q : Bool} : (m.updateQuarantine l cs' q).emits CtlReq.isReconfigure =
    (m.updateQuarantine l cs q).emits CtlReq.isReconfigure := by
  ext rs
  rw [mem_emits_updateQuarantine, mem_emits_updateQuarantine]
  refine exists_congr fun ks => ?_
  rw [h.hosting ks, ((GoMap.perm_keys h.isSome).congr_right ks)]

end ClusterState.Agrees

/-! ## What is heard of the block -/

/-- The requests a decision comes to. -/
def heard (m : EtcdController) (l : LeadershipState) (cs : ClusterState) : Option Bool → Set (List CtlReq)
  | none => {[]}
  | some quarantined => (m.updateQuarantine l cs quarantined).emits CtlReq.isReconfigure

theorem emits_checkQuarantine : (m.checkQuarantine l acked cs spec).emits CtlReq.isReconfigure =
    heard m l cs (cs.verdict acked spec).told := by
  rw [checkQuarantine_eq]
  cases cs.verdict acked spec with
  | pass | wait =>
    ext rs
    exact Prog.mem_emits_ret
  | set quarantined => exact Prog.emits_map

/-- Where no peer hosts a member, nobody is told anything. -/
theorem heard_of_no_host (h : ∀ e ∈ cs.peers.pairs, cs.hosts e = false) (o : Option Bool) : heard m l cs o = {[]} := by
  cases o with
  | none => rfl
  | some q =>
    ext rs
    refine mem_emits_updateQuarantine.trans ?_
    constructor
    · rintro ⟨ks, hks, hrs⟩
      have hnone : (cs.peers.inOrder ks).filter cs.hosts = [] :=
        List.filter_eq_nil_iff.2 fun e he => by simp [h e ((GoMap.mem_inOrder' hks).1 he)]
      rw [hnone] at hrs
      exact List.prefix_nil.1 hrs
    · rintro rfl
      exact ⟨cs.peers.keys, .refl _, List.nil_prefix⟩

/-- A peer that hosts a member can be the first that is told. -/
theorem request_mem_heard {e : PeerId × ClusterPeerInfo} (he : e ∈ cs.peers.pairs) (hhosts : cs.hosts e = true)
    (q : Bool) : [quarantineRequest m l q e] ∈ heard m l cs (some q) := by
  have hkey : e.1 ∈ cs.peers.keys := by
    rw [← GoMap.keys_eq_map_pairs]
    exact List.mem_map_of_mem he
  have hlook : cs.peers.lookup e.1 = some e.2 := GoMap.mem_pairs.1 he
  refine mem_emits_updateQuarantine.2 ⟨e.1 :: cs.peers.keys.erase e.1, (List.perm_cons_erase hkey).symm, ?_⟩
  rw [GoMap.inOrder, List.filterMap_cons, hlook]
  simp [hhosts]

/-- Where a peer hosts a member, different decisions are heard. -/
theorem heard_injective {e : PeerId × ClusterPeerInfo} (he : e ∈ cs.peers.pairs) (hhosts : cs.hosts e = true) :
    Function.Injective (heard m l cs) := by
  have hfirst (q : Bool) := @request_mem_heard m l cs e he hhosts q
  -- whoever is told hears the decision
  have honly (q : Bool) : [quarantineRequest m l q e] ∉ heard m l cs none := by simp [heard]
  have hflag {q q' : Bool} (h : [quarantineRequest m l q e] ∈ heard m l cs (some q')) : q = q' := by
    obtain ⟨ks, -, hpre⟩ := mem_emits_updateQuarantine.1 h
    obtain ⟨e', -, heq⟩ := List.mem_map.1 (hpre.subset (List.mem_singleton.2 rfl))
    have := (CtlReq.reconfigure.inj heq).2
    simpa using congrArg ReconfigureRequest.quarantined this.symm
  intro o o' heq
  cases o with
  | none =>
    cases o' with
    | none => rfl
    | some q' => exact (honly q' (heq ▸ hfirst q')).elim
  | some q =>
    cases o' with
    | none => exact (honly q (heq ▸ hfirst q)).elim
    | some q' =>
      have hq : [quarantineRequest m l q e] ∈ heard m l cs (some q') := heq ▸ hfirst q
      exact congrArg some (hflag hq)

theorem ClusterState.Agrees.heard (h : cs.Agrees cs') (o : Option Bool) :
    Etcdadm.heard m l cs' o = Etcdadm.heard m l cs o := by
  cases o with
  | none => rfl
  | some q => exact h.emits_updateQuarantine

/-! ## Which views are stable -/

/-- What the members report settles the decision, however many strays there
are and whatever they add to the tally. -/
def Tally.Settles (t : Tally) (strays : Nat) (healthy acked : Prop) : Prop :=
  strays = 0 ∨ (0 < t.quarantined ∧ 0 < t.nonQuarantined ∧ (0 < t.mismatched ∨ ¬ healthy)) ∨
    (t.quarantined = 0 ∧ t.nonQuarantined = 0 ∧ strays = 1 ∧ (0 < t.mismatched ∨ ¬ healthy ∨ ¬ acked))

/-- No stray can change what the members are told. -/
def ClusterState.Stable (acked : Nat) (cs : ClusterState) (spec : ClusterSpec) : Prop :=
  (∀ e ∈ cs.peers.pairs, cs.hosts e = false) ∨
    (cs.tally spec false).Settles cs.strays (cs.HealthyQuorum spec) (AckedQuorum acked spec)

section Arithmetic

variable {t : Tally} {strays : Nat} {healthy acked : Prop} [Decidable healthy] [Decidable acked]

/-- The members' tally with that of strays. -/
def Tally.plus (t x : Tally) : Tally :=
  ⟨t.quarantined + x.quarantined, t.nonQuarantined + x.nonQuarantined, t.mismatched + x.mismatched⟩

theorem Tally.told_of_none (hq : t.quarantined = 0) : t.told healthy acked = none := by simp [told, hq]

theorem Tally.told_of_ready (hq : 0 < t.quarantined) (hh : healthy) (hm : t.mismatched = 0) :
    t.told healthy acked = if acked then some false else none := by simp [told, hq, hh, hm]

theorem Tally.told_of_mixed (hq : 0 < t.quarantined) (hn : 0 < t.nonQuarantined)
    (hbad : 0 < t.mismatched ∨ ¬ healthy) : t.told healthy acked = some true := by
  have hready : ¬ (healthy ∧ t.mismatched = 0) := by
    rintro ⟨hh, hm⟩
    exact hbad.elim (fun h => by omega) fun h => h hh
  simp only [told, hq, hn, hready, if_true, if_false]

theorem Tally.told_of_all (hn : t.nonQuarantined = 0) (hbad : 0 < t.mismatched ∨ ¬ healthy ∨ ¬ acked) :
    t.told healthy acked = none := by
  unfold told
  split_ifs with hq hready hacked hn'
  · rcases hbad with hbad | hbad | hbad
    · omega
    · exact (hbad hready.1).elim
    · exact (hbad hacked).elim
  · rfl
  · omega
  · rfl
  · rfl

theorem Tally.Settles.told_eq (h : t.Settles strays healthy acked) {x y : Tally}
    (hx : x.quarantined + x.nonQuarantined = strays) (hxm : x.mismatched ≤ strays)
    (hy : y.quarantined + y.nonQuarantined = strays) (hym : y.mismatched ≤ strays) :
    (t.plus x).told healthy acked = (t.plus y).told healthy acked := by
  rcases h with hnone | ⟨hq, hn, hbad⟩ | ⟨hq, hn, hone, hbad⟩
  · have hx : x = ⟨0, 0, 0⟩ := by cases x; simp_all
    have hy : y = ⟨0, 0, 0⟩ := by cases y; simp_all
    rw [hx, hy]
  · -- some members are quarantined and some are not: all will be
    have both (z : Tally) : (t.plus z).told healthy acked = some true := by
      refine told_of_mixed ?_ ?_ (hbad.imp_left fun h => ?_) <;> dsimp only [plus] <;> omega
    rw [both x, both y]
  · -- the one stray is all there is to count
    have neither (z : Tally) (hz : z.quarantined + z.nonQuarantined = strays) :
        (t.plus z).told healthy acked = none := by
      by_cases hzq : z.quarantined = 0
      · exact told_of_none (by dsimp only [plus]; omega)
      · refine told_of_all ?_ (hbad.imp_left fun h => ?_) <;> dsimp only [plus] <;> omega
    rw [neither x hx, neither y hy]

/-- The tallies of a number of strays of which none, one or all are
quarantined, and none or all of another version. -/
structure Tally.Shape (strays : Nat) (x : Tally) : Prop where
  quarantined : x.quarantined = 0 ∨ x.quarantined = 1 ∨ x.quarantined = strays
  sum : x.quarantined + x.nonQuarantined = strays
  mismatched : x.mismatched = 0 ∨ x.mismatched = strays

/-- Otherwise strays of some shape make a difference. -/
theorem Tally.exists_told_ne (h : ¬ t.Settles strays healthy acked) :
    ∃ x y : Tally, x.Shape strays ∧ y.Shape strays ∧
      (t.plus x).told healthy acked ≠ (t.plus y).told healthy acked := by
  simp only [Settles, not_or, not_and] at h
  obtain ⟨hpos, hq₁, hq₀⟩ := h
  have none_quarantined {mm : Nat} (hm : mm = 0 ∨ mm = strays) : Shape strays ⟨0, strays, mm⟩ :=
    ⟨.inl rfl, by simp, hm⟩
  have all_quarantined : Shape strays ⟨strays, 0, 0⟩ := ⟨.inr (.inr rfl), by simp, .inl rfl⟩
  by_cases hq : 0 < t.quarantined
  · by_cases hready : healthy ∧ t.mismatched = 0
    · -- the version of the strays decides
      refine ⟨⟨0, strays, 0⟩, ⟨0, strays, strays⟩, none_quarantined (.inl rfl), none_quarantined (.inr rfl), ?_⟩
      rw [told_of_ready (by simpa [plus]) hready.1 (by simp [plus, hready.2]),
        told_of_mixed (t := t.plus ⟨0, strays, strays⟩) (by simpa [plus]) (by dsimp only [plus]; omega)
          (.inl (by dsimp only [plus]; omega))]
      split_ifs <;> simp
    · -- the quarantine of the strays decides
      have hbad : 0 < t.mismatched ∨ ¬ healthy := by
        by_cases hh : healthy
        · exact .inl (Nat.pos_of_ne_zero fun h0 => hready ⟨hh, h0⟩)
        · exact .inr hh
      have hn : t.nonQuarantined = 0 := by
        by_contra hn
        obtain ⟨hm, hh⟩ := hq₁ hq (by omega)
        exact hbad.elim hm hh
      refine ⟨⟨strays, 0, 0⟩, ⟨0, strays, 0⟩, all_quarantined, none_quarantined (.inl rfl), ?_⟩
      rw [told_of_all (by simpa [plus]) (by simpa [plus] using hbad.imp_right .inl),
        told_of_mixed (t := t.plus ⟨0, strays, 0⟩) (by simpa [plus]) (by dsimp only [plus]; omega) (by simpa [plus])]
      simp
  · have hq : t.quarantined = 0 := by omega
    have hsilent : (t.plus ⟨0, strays, 0⟩).told healthy acked = none := told_of_none (by simpa [plus])
    by_cases hlift : healthy ∧ t.mismatched = 0 ∧ acked
    · refine ⟨⟨0, strays, 0⟩, ⟨strays, 0, 0⟩, none_quarantined (.inl rfl), all_quarantined, ?_⟩
      rw [hsilent, told_of_ready (by dsimp only [plus]; omega) hlift.1 (by simp [plus, hlift.2.1]), if_pos hlift.2.2]
      simp
    · -- one quarantined stray of another version, among others
      have hmore : 0 < t.nonQuarantined ∨ 1 < strays := by
        by_contra hno
        obtain ⟨hm, hh, ha⟩ := hq₀ hq (by omega) (by omega)
        exact hlift ⟨not_not.1 hh, by omega, not_not.1 ha⟩
      refine ⟨⟨0, strays, 0⟩, ⟨1, strays - 1, strays⟩, none_quarantined (.inl rfl),
        ⟨.inr (.inl rfl), by dsimp only; omega, .inr rfl⟩, ?_⟩
      rw [hsilent, told_of_mixed (by dsimp only [plus]; omega) (by dsimp only [plus]; omega)
        (.inl (by dsimp only [plus]; omega))]
      simp

end Arithmetic

/-! ## Strays of any shape -/

/-- What a stray may report. -/
def strayState (version : String) (quarantined : Bool) : EtcdState := ⟨false, some ⟨1, "", []⟩, version, quarantined⟩

namespace ClusterState

variable {quarantined : PeerId → Bool} {version : String}

/-- The view in which the strays report this version, and are quarantined or
not. -/
def restate (cs : ClusterState) (version : String) (quarantined : PeerId → Bool) : ClusterState :=
  { cs with
    peers := cs.peers.mapValues fun id p =>
      if cs.stray (id, p) then p.reporting (strayState version (quarantined id)) else p }

theorem lookup_restate {id : PeerId} : (cs.restate version quarantined).peers.lookup id =
    (cs.peers.lookup id).map fun p =>
      if cs.stray (id, p) then p.reporting (strayState version (quarantined id)) else p :=
  GoMap.lookup_mapValues

theorem agrees_restate : cs.Agrees (cs.restate version quarantined) := by
  refine ⟨rfl, rfl, fun id => ?_⟩
  rw [lookup_restate]
  cases h : cs.peers.lookup id with
  | none => exact .inl rfl
  | some p =>
    by_cases hstray : cs.stray (id, p) = true
    · exact .inr ⟨p, strayState version (quarantined id), rfl, hstray, rfl, by simp [hstray]⟩
    · exact .inl (by simp [hstray])

/-- The strays of the new view are those of the old, with their new state. -/
theorem countAmong_restate {g : ClusterPeerInfo → Bool} {g' : PeerId → Bool}
    (hg : ∀ id (p : ClusterPeerInfo), g (p.reporting (strayState version (quarantined id))) = g' id) :
    (cs.restate version quarantined).countAmong true g = cs.peers.pairs.countP fun e => cs.stray e && g' e.1 := by
  have h : cs.Agrees (cs.restate version quarantined) := agrees_restate
  refine GoMap.countP_pairs_congr h.isSome fun id p p' hp hp' => ?_
  rw [h.stray_eq hp hp']
  by_cases hs : cs.stray (id, p) = true
  · rw [lookup_restate, hp, Option.map_some, if_pos hs, Option.some.injEq] at hp'
    simp [hs, ← hp', hg]
  · simp [hs]

/-- Every shape is the tally of the strays in a view that agrees. -/
theorem exists_agrees_of_shape {x : Tally} (hx : x.Shape cs.strays) :
    ∃ cs', cs.Agrees cs' ∧ cs'.tally spec true = x := by
  obtain ⟨quarantined, hq⟩ : ∃ quarantined : PeerId → Bool,
      (cs.peers.pairs.countP fun e => cs.stray e && quarantined e.1) = x.quarantined := by
    rcases hx.quarantined with hq | hq | hq
    · exact ⟨fun _ => false, by simp [hq]⟩
    · -- one of the strays, whose key is its own
      have hpos : 0 < cs.strays := by have := hx.sum; omega
      obtain ⟨e, he, hstray⟩ := List.countP_pos_iff.1 hpos
      have hlook : cs.peers.lookup e.1 = some e.2 := GoMap.mem_pairs.1 he
      have hstray : cs.stray e = true := by simpa using hstray
      refine ⟨fun id => id == e.1, ?_⟩
      have hone : cs.peers.keys.countP (· == e.1) = 1 :=
        List.count_eq_one_of_mem cs.peers.nodupKeys (GoMap.keys_eq_map_pairs cs.peers ▸ List.mem_map_of_mem he)
      rw [GoMap.countP_pairs (.refl cs.peers.keys), hq, ← hone]
      refine List.countP_congr fun id _ => ?_
      by_cases hid : id = e.1
      · subst hid
        simp [hlook, hstray]
      · cases cs.peers.lookup id <;> simp [hid]
    · refine ⟨fun _ => true, ?_⟩
      simp [hq, strays, countAmong]
  obtain ⟨version, hv⟩ : ∃ version : String,
      (cs.peers.pairs.countP fun e => cs.stray e && (version != spec.etcdVersion)) = x.mismatched := by
    rcases hx.mismatched with hm | hm
    · exact ⟨spec.etcdVersion, by simp [hm]⟩
    · have hne : ∃ version, version ≠ spec.etcdVersion := by
        by_cases h : spec.etcdVersion = ""
        · exact ⟨"other", by simp [h]⟩
        · exact ⟨"", fun h' => h h'.symm⟩
      obtain ⟨version, hne⟩ := hne
      have hbne : (version != spec.etcdVersion) = true := bne_iff_ne.2 hne
      refine ⟨version, ?_⟩
      simp [hm, hbne, strays, countAmong]
  have h : cs.Agrees (cs.restate version quarantined) := agrees_restate
  have hsum := @tally_strays (cs.restate version quarantined) spec
  have hq' : ((cs.restate version quarantined).tally spec true).quarantined = x.quarantined :=
    (countAmong_restate (g := fun p => p.configured && p.quarantined) fun _ _ => rfl).trans hq
  have hm' : ((cs.restate version quarantined).tally spec true).mismatched = x.mismatched :=
    (countAmong_restate (g := fun p => p.mismatched spec) fun _ _ => rfl).trans hv
  have hn' : ((cs.restate version quarantined).tally spec true).nonQuarantined = x.nonQuarantined := by
    have := hx.sum
    rw [h.strays] at hsum
    omega
  exact ⟨_, h, Tally.ext hq' hn' hm'⟩

end ClusterState

/-- **When the quarantine of the members does not depend on strays.** The block
sends the same `Reconfigure` requests in every view that agrees on the
members if and only if the view is stable. -/
theorem quarantine_ignores_strays_iff (m : EtcdController) (l : LeadershipState) (acked : Nat) (cs : ClusterState)
    (spec : ClusterSpec) :
    (∀ cs', cs.Agrees cs' → (m.checkQuarantine l acked cs' spec).emits CtlReq.isReconfigure =
      (m.checkQuarantine l acked cs spec).emits CtlReq.isReconfigure) ↔ cs.Stable acked spec := by
  have told_of_agrees {cs'} (h : cs.Agrees cs') : (cs'.verdict acked spec).told =
      ((cs.tally spec false).plus (cs'.tally spec true)).told (cs.HealthyQuorum spec) (AckedQuorum acked spec) := by
    have hmembers : cs'.tally spec false = cs.tally spec false := by
      simp only [tally, h.countAmong_false]
    rw [told_verdict, hmembers]
    simp only [HealthyQuorum, h.healthyMembers]
    rfl
  have agrees_self : cs.Agrees cs := ⟨rfl, rfl, fun _ => .inl rfl⟩
  simp only [emits_checkQuarantine]
  constructor
  · intro hsame
    by_contra hun
    obtain ⟨hhost, hsettle⟩ := not_or.1 hun
    simp only [not_forall, Bool.not_eq_false] at hhost
    obtain ⟨e, he, hhosts⟩ := hhost
    obtain ⟨x, y, hx, hy, hne⟩ := Tally.exists_told_ne hsettle
    obtain ⟨cs₁, h₁, hx⟩ := @exists_agrees_of_shape cs spec x hx
    obtain ⟨cs₂, h₂, hy⟩ := @exists_agrees_of_shape cs spec y hy
    refine hne ?_
    rw [← hx, ← hy, ← told_of_agrees h₁, ← told_of_agrees h₂]
    refine heard_injective he hhosts (m := m) (l := l) ?_
    rw [← h₁.heard, ← h₂.heard, hsame cs₁ h₁, hsame cs₂ h₂]
  · rintro (hnone | hsettle) cs' h
    · rw [h.heard, heard_of_no_host hnone, heard_of_no_host hnone]
    · rw [h.heard, told_of_agrees h, told_of_agrees agrees_self]
      congr 1
      refine hsettle.told_eq ?_ ?_ tally_strays tally_mismatched_le
      · rw [← h.strays]
        exact tally_strays
      · rw [← h.strays]
        exact tally_mismatched_le

/-- A healthy cluster of one on peer `a`, and a stray `b`. -/
def strayView : ClusterState :=
  let member : EtcdProcessMember := ⟨"id-a", "a", [], []⟩
  let info (st : EtcdState) : GetInfoResponse := ⟨"name", none, some st⟩
  { members := AList.insert "id-a" member ∅
    healthyMembers := AList.insert "id-a" member ∅
    peers := AList.insert "b" ⟨⟨"b", []⟩, info (strayState "3.4.13" false)⟩
      (AList.insert "a" ⟨⟨"a", []⟩, info (strayState "3.4.13" false)⟩ ∅) }

/-- Nothing is to be done there. But if `b` reports that it is quarantined, the
member on `a`, which is not, is told to lift its quarantine, and in every
iteration again; and if `b` also reports an older version, the healthy member
is quarantined. -/
theorem stray_quarantines_members : ∃ (m : EtcdController) (l : LeadershipState) (spec : ClusterSpec)
    (cs lifted old : ClusterState), cs.Agrees lifted ∧ cs.Agrees old ∧
    (m.checkQuarantine l 2 cs spec).emits CtlReq.isReconfigure = {[]} ∧
    [.reconfigure "a" ⟨some (m.buildHeader l), "", false, false⟩] ∈
      (m.checkQuarantine l 2 lifted spec).emits CtlReq.isReconfigure ∧
    [.reconfigure "a" ⟨some (m.buildHeader l), "", true, false⟩] ∈
      (m.checkQuarantine l 2 old spec).emits CtlReq.isReconfigure := by
  refine ⟨⟨"name", "", ⟨"a", []⟩, 0, 0, "", false, false, 0, false, none, ∅, 0, [], 0, none⟩, ⟨"token", []⟩,
    ⟨1, "3.4.13"⟩, strayView, strayView.restate "3.4.13" fun _ => true, strayView.restate "3.3.10" fun _ => true,
    agrees_restate, agrees_restate, ?_, ?_, ?_⟩
  · have hverdict : (strayView.verdict 2 ⟨1, "3.4.13"⟩).told = none := rfl
    rw [emits_checkQuarantine, hverdict]
    rfl
  · have hverdict : ((strayView.restate "3.4.13" fun _ => true).verdict 2 ⟨1, "3.4.13"⟩).told = some false := rfl
    rw [emits_checkQuarantine, hverdict]
    exact request_mem_heard (e := ("a", ⟨⟨"a", []⟩, ⟨"name", none, some (strayState "3.4.13" false)⟩⟩))
      (GoMap.mem_pairs.2 rfl) rfl false
  · have hverdict : ((strayView.restate "3.3.10" fun _ => true).verdict 2 ⟨1, "3.4.13"⟩).told = some true := rfl
    rw [emits_checkQuarantine, hverdict]
    exact request_mem_heard (e := ("a", ⟨⟨"a", []⟩, ⟨"name", none, some (strayState "3.4.13" false)⟩⟩))
      (GoMap.mem_pairs.2 rfl) rfl true

end Etcdadm
