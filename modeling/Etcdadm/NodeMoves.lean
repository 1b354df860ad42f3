/-
What a call can do to a node, said once.

A handler is a long program with an error exit after every request, but it
changes the node only by a few moves: it forgets or grants a preparation, it
drops or starts an etcd process, it reads the state file, and it installs a
state, in memory and on disk together. `serve_moves` shows that every call is
a chain of such moves whatever the machine answers; an invariant of nodes is
then a property each single move keeps (`Node.Run.invariant`).
-/
import Etcdadm.Node

namespace Etcdadm

open EtcdServer Monitor Relation

namespace EtcdServer

/-- `validateHeader` lets the header through. -/
def Authorizes (s : EtcdServer) (header : Option CommonRequestHeader) : Prop :=
  ∃ h, header = some h ∧ h.clusterName = s.clusterName ∧ s.peerServer.isLeader h.leadershipToken = true

theorem validateHeader_cases (s : EtcdServer) (header : Option CommonRequestHeader) :
    header = none ∧ s.validateHeader header = .crash nilDeref ∨
    (¬ s.Authorizes header ∧ ∃ err, s.validateHeader header = .ret (some err)) ∨
    s.Authorizes header ∧ s.validateHeader header = .ret none := by
  cases header with
  | none => exact .inl ⟨rfl, rfl⟩
  | some h =>
    right
    unfold Authorizes validateHeader
    by_cases hn : h.clusterName = s.clusterName
    · cases hl : s.peerServer.isLeader h.leadershipToken <;> simp [hn, hl]
    · simp [hn]

theorem Authorizes.validateHeader {s : EtcdServer} {header : Option CommonRequestHeader} (ha : s.Authorizes header) :
    s.validateHeader header = .ret none := by
  rcases s.validateHeader_cases header with ⟨hn, -⟩ | ⟨hno, -⟩ | ⟨-, h⟩
  · obtain ⟨_, hsome, -⟩ := ha
    cases hn.symm.trans hsome
  · exact (hno ha).elim
  · exact h

theorem checkPrepared_eq_none {s : EtcdServer} {request : JoinClusterRequest}
    (h : s.checkPrepared request = none) :
    s.process = none ∧ ∃ p, s.prepared = some p ∧ p.clusterToken = request.clusterToken := by
  unfold checkPrepared at h
  cases hp : s.process with
  | some p => simp [hp] at h
  | none =>
    cases hs : s.prepared with
    | none => simp [hp, hs] at h
    | some p => exact ⟨rfl, p, rfl, by simpa [hp, hs] using h⟩

end EtcdServer

/-- The handlers that look into the cluster of the state they find. -/
def Call.NeedsCluster : Call → Prop
  | .reconfigure _ | .stopEtcd _ => True
  | _ => False

/-- What a call must bring, and find, not to crash the manager. -/
structure Call.SafeAt (c : Call) (s : EtcdServer) : Prop where
  header : c.header ≠ some none
  cluster : c.NeedsCluster → ∀ h st, c.header = some h → s.Authorizes h → s.state = some st → st.cluster ≠ none

/-- Why a node moves: a call, or a manager coming up. -/
inductive Cause where
  | call (c : Call)
  | boot

/-- The states that may be installed at a node. -/
def Cause.Installs (n : Node) (st : EtcdState) : Cause → Prop
  | .call (.joinCluster request) => n.server.Authorizes request.header ∧
      (request.phase = .initialCluster ∧ st = joinedState request true true ∨
        request.phase = .joinExisting ∧ st = joinedState request false false)
  | .call (.reconfigure request) => n.server.Authorizes request.header ∧
      ∃ old cluster, n.server.state = some old ∧ old.cluster = some cluster ∧
        st = n.server.reconfiguredState old request
  | .call (.stopEtcd request) => n.server.Authorizes request.header ∧ st = .empty
  | .call _ => False
  | .boot => n.world.file = .missing ∧ n.world.legacy = some st

/-- A single change of a node. -/
inductive Move (c : Cause) : Node → Node → Prop
  | clock {s w t} : w.clock ≤ t → Move c ⟨s, w⟩ ⟨s, { w with clock := t }⟩
  | prepared {s w request} (p : Option PreparedState) : c = .call (.joinCluster request) →
      Move c ⟨s, w⟩ ⟨{ s with prepared := p }, w⟩
  | read {s w state} : s.state = none → w.file.Reads (.ok state) → Move c ⟨s, w⟩ ⟨{ s with state := state }, w⟩
  /-- An exited or killed process is forgotten. -/
  | forget {s w} : Move c ⟨s, w⟩ ⟨{ s with process := none }, w⟩
  /-- etcd is started from the state in memory. -/
  | start {s w st cluster me binDir} : s.process = none → s.state = some st → st.cluster = some cluster →
      selfNode s.etcdNodeConfiguration.name cluster.nodes none = .ok (some me) → cluster.clusterToken ≠ "" →
      Move c ⟨s, w⟩ ⟨{ s with process := some (s.processFor st cluster me binDir) },
        { w with started := s.processFor st cluster me binDir :: w.started }⟩
  | install {s w st} : s.process = none → c.Installs ⟨s, w⟩ st →
      Move c ⟨s, w⟩ ⟨{ s with state := some st }, { w with file := .holds st }⟩
  | installFailed {s w st f} : s.process = none → c.Installs ⟨s, w⟩ st → w.file.Leaves st f →
      Move c ⟨s, w⟩ ⟨{ s with state := some st }, { w with file := f, writeFailed := true }⟩
  /-- The second write of `PHASE_INITIAL_CLUSTER`: no longer a new cluster. -/
  | settle {s w st request} : c = .call (.joinCluster request) → s.state = some st →
      Move c ⟨s, w⟩ ⟨{ s with state := some { st with newCluster := false } },
        { w with file := .holds { st with newCluster := false } }⟩
  | settleFailed {s w st f request} : c = .call (.joinCluster request) → s.state = some st →
      w.file.Leaves { st with newCluster := false } f →
      Move c ⟨s, w⟩ ⟨{ s with state := some { st with newCluster := false } },
        { w with file := f, writeFailed := true }⟩

/-- A manager dies of its own only if a call makes it. -/
def Cause.MayCrash (s : EtcdServer) : Cause → Prop
  | .call c => ¬ c.SafeAt s
  | .boot => False

/-- The nodes a call has come to so far. -/
abbrev Chain (c : Cause) (n₀ n : Node) : Prop := ReflTransGen (Move c) n₀ n

/-- The machine, watched: at every request the world has come about by moves,
and so it has where the manager crashes, for which there is a reason. -/
def tracking (c : Cause) (n₀ : Node) : Monitor sysSig World where
  next := machine.next
  may := machine.may
  must w _ := ∃ s, Chain c n₀ ⟨s, w⟩
  crash w _ := c.MayCrash n₀.server ∧ ∃ s, Chain c n₀ ⟨s, w⟩

theorem tracking_admits {c : Cause} {n₀ : Node} {w : World} {tr : Trace sysSig} (h : machine.Admits w tr) :
    (tracking c n₀).Admits w tr := by
  refine Admits.congr ?_ ?_ h <;> rfl

/-- From world `w`, every run of `p` moves on from `n₀` and ends with the
server it returns. -/
def Moves (c : Cause) (n₀ : Node) (w : World) (p : SysM (EtcdServer × α)) : Prop :=
  (tracking c n₀).wp p w fun w' r => Chain c n₀ ⟨r.1, w'⟩

/-! ## The rules a handler is read with -/

/-- Requests that leave no mark on the node but the clock. -/
def Quiet : SysReq → Prop
  | .writeState _ | .start _ => False
  | _ => True

namespace Moves

variable {α β : Type} {c : Cause} {n₀ : Node} {s : EtcdServer} {w : World}

theorem ret {a : α} (hc : Chain c n₀ ⟨s, w⟩) : Moves c n₀ w (.ret (s, a)) := hc

theorem crash {e : String} (hd : c.MayCrash n₀.server) (hc : Chain c n₀ ⟨s, w⟩) :
    Moves c n₀ w (.crash e : SysM (EtcdServer × α)) := ⟨hd, s, hc⟩

theorem sys {r : SysReq} {f : r.Resp → SysM (EtcdServer × α)} (hc : Chain c n₀ ⟨s, w⟩)
    (h : ∀ x, machine.may w r x → Moves c n₀ (machine.next w r x) (f x)) :
    Moves c n₀ w (sys r >>= f) := ⟨⟨s, hc⟩, h⟩

theorem bind {f : EtcdServer × β → SysM (EtcdServer × α)} {p : SysM (EtcdServer × β)} (hp : Moves c n₀ w p)
    (hf : ∀ s b w', Chain c n₀ ⟨s, w'⟩ → Moves c n₀ w' (f (s, b))) : Moves c n₀ w (p >>= f) :=
  wp_bind.2 (wp_mono (fun w' r hc => hf r.1 r.2 w' hc) hp)

theorem chain_quiet {r : SysReq} (hr : Quiet r) {x : r.Resp} (hx : machine.may w r x)
    (hc : Chain c n₀ ⟨s, w⟩) : Chain c n₀ ⟨s, machine.next w r x⟩ := by
  cases r with
  | now => exact hc.tail (.clock hx)
  | writeState | start => exact hr.elim
  | _ => exact hc

/-- A part that makes only quiet requests, and the rest after it. -/
theorem quiet {f : β → SysM (EtcdServer × α)} : ∀ {p : SysM β} {w : World}, p.Uses Quiet False →
    Chain c n₀ ⟨s, w⟩ → (∀ b w', Chain c n₀ ⟨s, w'⟩ → Moves c n₀ w' (f b)) → Moves c n₀ w (p >>= f)
  | .ret b, w, _, hc, h => h b w hc
  | .call _ _, _, hp, hc, h => ⟨⟨s, hc⟩, fun x hx => quiet (hp.2 x) (chain_quiet hp.1 hx hc) h⟩

end Moves

theorem Quiet.findSelfNode (s : EtcdServer) {st : EtcdState} (h : st.cluster ≠ none) :
    (s.findSelfNode st).Uses Quiet False := by
  unfold EtcdServer.findSelfNode
  split
  next hn => exact h hn
  · trivial

theorem Quiet.checkSetEtcdVersion (request : ReconfigureRequest) :
    (checkSetEtcdVersion request).Uses Quiet False := by
  unfold EtcdServer.checkSetEtcdVersion
  split
  · trivial
  · refine ⟨trivial, ?_⟩
    rintro (_ | _) <;> trivial

/-- A header that a call should carry and does not. -/
theorem Cause.MayCrash.nilHeader {c : Call} {s : EtcdServer} {header : Option CommonRequestHeader}
    (hh : c.header = some header) (hn : header = none) : (Cause.call c).MayCrash s :=
  fun h => h.header (hn ▸ hh)

namespace Moves

variable {α : Type} {c : Cause} {n₀ : Node} {s : EtcdServer} {w : World}

/-- Behind the header check the leader is known. -/
theorem validateHeader {header : Option CommonRequestHeader} {f : Option Error → SysM (EtcdServer × α)}
    (hc : Chain c n₀ ⟨s, w⟩) (hnil : header = none → c.MayCrash n₀.server)
    (hrej : ∀ err, Moves c n₀ w (f (some err))) (hok : s.Authorizes header → Moves c n₀ w (f none)) :
    Moves c n₀ w (s.validateHeader header >>= f) := by
  rcases s.validateHeader_cases header with ⟨hn, h⟩ | ⟨-, err, h⟩ | ⟨ha, h⟩ <;> rw [h]
  · exact .crash (hnil hn) hc
  · exact hrej err
  · exact hok ha

/-- etcd is started from the state in memory, or nothing happens. -/
theorem startEtcdProcess {st : EtcdState} {f : EtcdServer × Option Error → SysM (EtcdServer × α)}
    (hc : Chain c n₀ ⟨s, w⟩) (hp : s.process = none) (hst : s.state = some st)
    (hfail : ∀ err, Moves c n₀ w (f (s, some err)))
    (hok : ∀ s' w', s'.state = some st → Chain c n₀ ⟨s', w'⟩ → Moves c n₀ w' (f (s', none))) :
    Moves c n₀ w (s.startEtcdProcess st >>= f) := by
  unfold EtcdServer.startEtcdProcess
  split
  · exact hfail _
  next cluster hcl =>
  split
  · exact hfail _
  next htok =>
  simp only [EtcdServer.findSelfNode, hcl, Prog.pure_eq, Prog.ret_bind]
  split
  · exact hfail _
  · exact hfail _
  next me hme =>
  rw [Prog.bind_assoc]
  refine .sys hc ?_
  rintro (err | ⟨⟩) -
  · exact hfail _
  rw [Prog.bind_assoc]
  refine .sys hc ?_
  rintro (err | binDir) -
  · exact hfail _
  rw [Prog.bind_assoc]
  refine .sys hc ?_
  rintro (err | ⟨⟩) -
  · exact hfail _
  · exact hok _ _ hst (hc.tail (.start hp hst hcl hme htok))

theorem stopEtcdProcess {f : EtcdServer × Option Error → SysM (EtcdServer × α)}
    (hc : Chain c n₀ ⟨s, w⟩) (hfail : ∀ err, Moves c n₀ w (f (s, some err)))
    (hok : ∀ s', s' = { s with process := none } → Chain c n₀ ⟨s', w⟩ → Moves c n₀ w (f (s', none))) :
    Moves c n₀ w (s.stopEtcdProcess >>= f) := by
  unfold EtcdServer.stopEtcdProcess
  split
  next hp => exact hok s (by cases s; simp_all) hc
  next p hp =>
  rw [Prog.bind_assoc]
  refine .sys hc ?_
  rintro (err | ⟨⟩) -
  · exact hfail _
  · exact hok _ rfl (hc.tail .forget)

/-! ## The handlers -/

theorem expirePrepared {f : EtcdServer → SysM (EtcdServer × α)} {request : JoinClusterRequest}
    (hj : c = .call (.joinCluster request)) (hc : Chain c n₀ ⟨s, w⟩)
    (h : ∀ p w', Chain c n₀ ⟨{ s with prepared := p }, w'⟩ → Moves c n₀ w' (f { s with prepared := p })) :
    Moves c n₀ w (s.expirePrepared >>= f) := by
  unfold EtcdServer.expirePrepared
  split
  next hp => exact h s.prepared w hc
  next p hp =>
  rw [Prog.bind_assoc]
  refine .sys hc fun t ht => ?_
  split
  · exact h none _ ((hc.tail (.clock ht)).tail (.prepared none hj))
  · exact h s.prepared _ (hc.tail (.clock ht))

theorem prepare {request : JoinClusterRequest} (hj : c = .call (.joinCluster request))
    (hc : Chain c n₀ ⟨s, w⟩) : Moves c n₀ w (s.prepare request) := by
  unfold EtcdServer.prepare
  split
  · exact .ret hc
  split
  · exact .ret hc
  · exact .sys hc fun t ht => .ret ((hc.tail (.clock ht)).tail (.prepared _ hj))

theorem initialCluster {request : JoinClusterRequest} (hc : Chain (.call (.joinCluster request)) n₀ ⟨s, w⟩)
    (ha : s.Authorizes request.header) (hph : request.phase = .initialCluster) :
    Moves (.call (.joinCluster request)) n₀ w (s.initialCluster request) := by
  unfold EtcdServer.initialCluster
  cases hck : s.checkPrepared request with
  | some err => exact .ret hc
  | none =>
  have hp := (checkPrepared_eq_none hck).1
  have hi : (Cause.call (.joinCluster request)).Installs ⟨s, w⟩ (joinedState request true true) :=
    ⟨ha, .inl ⟨hph, rfl⟩⟩
  refine .sys hc ?_
  rintro (⟨err, file⟩ | ⟨⟩) hx
  · exact .ret (hc.tail (.installFailed hp hi hx))
  refine .startEtcdProcess (hc.tail (.install hp hi)) hp rfl ?_ ?_
  · exact fun err => .ret (hc.tail (.install hp hi))
  intro s' w' hst hc'
  refine .sys hc' ?_
  rintro (⟨err, file⟩ | ⟨⟩) hx
  · exact .ret (hc'.tail (.settleFailed rfl hst hx))
  · exact .ret ((hc'.tail (.settle rfl hst)).tail (.prepared none rfl))

theorem joinExisting {request : JoinClusterRequest} (hc : Chain (.call (.joinCluster request)) n₀ ⟨s, w⟩)
    (ha : s.Authorizes request.header) (hph : request.phase = .joinExisting) :
    Moves (.call (.joinCluster request)) n₀ w (s.joinExisting request) := by
  unfold EtcdServer.joinExisting
  cases hck : s.checkPrepared request with
  | some err => exact .ret hc
  | none =>
  have hp := (checkPrepared_eq_none hck).1
  have hi : (Cause.call (.joinCluster request)).Installs ⟨s, w⟩ (joinedState request false false) :=
    ⟨ha, .inr ⟨hph, rfl⟩⟩
  refine .sys hc ?_
  rintro (⟨err, file⟩ | ⟨⟩) hx
  · exact .ret (hc.tail (.installFailed hp hi hx))
  refine .startEtcdProcess (hc.tail (.install hp hi)) hp rfl ?_ ?_
  · exact fun err => .ret (hc.tail (.install hp hi))
  · exact fun s' w' _ hc' => .ret (hc'.tail (.prepared none rfl))

theorem joinCluster {n : Node} {request : JoinClusterRequest} :
    Moves (.call (.joinCluster request)) n n.world (n.server.joinCluster request) := by
  have hc : Chain (.call (.joinCluster request)) n ⟨n.server, n.world⟩ := .refl
  unfold EtcdServer.joinCluster
  refine .validateHeader hc (Cause.MayCrash.nilHeader rfl) (fun err => .ret hc) fun ha => ?_
  dsimp only
  split
  · unfold cancelPrepare
    split
    · exact .ret hc
    · split
      · exact .ret (hc.tail (.prepared none rfl))
      · exact .ret hc
  refine .expirePrepared rfl hc fun p w' hc' => ?_
  refine .sys hc' ?_
  rintro (err | _) -
  · exact .ret hc'
  dsimp only
  split
  · exact .prepare rfl hc'
  next hph => exact .initialCluster hc' ha hph
  next hph => exact .joinExisting hc' ha hph
  · exact .ret hc'

theorem reconfigure {n : Node} {request : ReconfigureRequest} :
    Moves (.call (.reconfigure request)) n n.world (n.server.reconfigure request) := by
  have hc : Chain (.call (.reconfigure request)) n ⟨n.server, n.world⟩ := .refl
  unfold EtcdServer.reconfigure
  refine .validateHeader hc (Cause.MayCrash.nilHeader rfl) (fun err => .ret hc) fun ha => ?_
  dsimp only
  split
  · exact .ret hc
  next st hst =>
  cases hcl : st.cluster with
  | none =>
    simp only [EtcdServer.findSelfNode, hcl]
    exact .crash (fun h => h.cluster trivial _ st rfl ha hst hcl) hc
  | some cluster =>
  refine .quiet (Quiet.findSelfNode n.server (by simp [hcl])) hc fun r w' hc' => ?_
  split
  · exact .ret hc'
  · exact .ret hc'
  refine .quiet (Quiet.checkSetEtcdVersion request) hc' fun err w₁ hc₁ => ?_
  split
  · exact .ret hc₁
  refine .stopEtcdProcess hc₁ (fun err => .ret hc₁) fun s₂ hs₂ hc₂ => ?_
  have hi : (Cause.call (.reconfigure request)).Installs ⟨s₂, w₁⟩ (n.server.reconfiguredState st request) := by
    subst hs₂
    exact ⟨ha, st, cluster, hst, hcl, rfl⟩
  have hp : s₂.process = none := by rw [hs₂]
  dsimp only
  refine .sys hc₂ ?_
  rintro (⟨err, file⟩ | ⟨⟩) hx
  · exact .ret (hc₂.tail (.installFailed hp hi hx))
  refine .startEtcdProcess (hc₂.tail (.install hp hi)) hp rfl ?_ ?_
  · exact fun err => .ret (hc₂.tail (.install hp hi))
  · exact fun s' w' _ hc' => .ret hc'

theorem stopEtcd {n : Node} {request : StopEtcdRequest} :
    Moves (.call (.stopEtcd request)) n n.world (n.server.stopEtcd request) := by
  have hc : Chain (.call (.stopEtcd request)) n ⟨n.server, n.world⟩ := .refl
  unfold EtcdServer.stopEtcd
  refine .validateHeader hc (Cause.MayCrash.nilHeader rfl) (fun err => .ret hc) fun ha => ?_
  dsimp only
  split
  · exact .ret hc
  next st hst =>
  split
  next hcl => exact .crash (fun h => h.cluster trivial _ st rfl ha hst hcl) hc
  next cluster hcl =>
  refine .stopEtcdProcess hc (fun err => .ret hc) fun s₂ hs₂ hc₂ => ?_
  have hi : (Cause.call (.stopEtcd request)).Installs ⟨s₂, n.world⟩ .empty := by
    subst hs₂
    exact ⟨ha, rfl⟩
  have hp : s₂.process = none := by rw [hs₂]
  dsimp only
  refine .sys hc₂ ?_
  rintro (⟨err, file⟩ | ⟨⟩) hx
  · exact .ret (hc₂.tail (.installFailed hp hi hx))
  have hc₃ := hc₂.tail (.install hp hi)
  refine .quiet (p := archiveDataDir _ _) ⟨trivial, fun _ => ⟨trivial, fun _ => trivial⟩⟩ hc₃ ?_
  exact fun _ _ hc₄ => .ret hc₄

theorem initState {f : EtcdServer × Option Error → SysM (EtcdServer × α)} (hc : Chain c n₀ ⟨s, w⟩)
    (hfail : ∀ err, Moves c n₀ w (f (s, some err)))
    (hok : ∀ s', Chain c n₀ ⟨s', w⟩ → Moves c n₀ w (f (s', none))) : Moves c n₀ w (s.initState >>= f) := by
  unfold EtcdServer.initState
  split
  · exact hok s hc
  next hst =>
  rw [Prog.bind_assoc]
  refine .sys hc ?_
  rintro (err | state) hx
  · exact hfail err
  · exact hok _ (hc.tail (.read hst hx))

theorem checkProcess {f : EtcdServer → SysM (EtcdServer × α)} (hc : Chain c n₀ ⟨s, w⟩)
    (h : ∀ s', Chain c n₀ ⟨s', w⟩ → Moves c n₀ w (f s')) : Moves c n₀ w (s.checkProcess >>= f) := by
  unfold EtcdServer.checkProcess
  split
  · exact h s hc
  rw [Prog.bind_assoc]
  refine .sys hc ?_
  rintro (_ | _) -
  · exact h s hc
  · exact h _ (hc.tail .forget)

theorem runOnce (hc : Chain c n₀ ⟨s, w⟩) : Moves c n₀ w s.runOnce := by
  unfold EtcdServer.runOnce
  refine .initState hc (fun err => .ret hc) fun s hc => ?_
  refine .checkProcess hc fun s hc => ?_
  split
  next st hst hp =>
    split
    · rw [← Prog.bind_ret (s.startEtcdProcess st)]
      exact .startEtcdProcess hc hp hst (fun _ => .ret hc) fun _ _ _ hc => .ret hc
    · exact .ret hc
  · exact .ret hc

theorem doBackup {n : Node} {request : DoBackupRequest} : Moves (.call (.doBackup request)) n n.world (do
    let r ← n.server.doBackup request
    return (n.server, Reply.ofBackup r)) := by
  have hc : Chain (.call (.doBackup request)) n ⟨n.server, n.world⟩ := .refl
  unfold EtcdServer.doBackup
  rw [Prog.bind_assoc]
  refine .validateHeader hc (Cause.MayCrash.nilHeader rfl) (fun err => .ret hc) fun _ => ?_
  refine .quiet ?_ hc fun _ _ hc => .ret hc
  dsimp only
  split
  · trivial
  split
  · trivial
  split
  · trivial
  refine ⟨trivial, ?_⟩
  rintro (err | ⟨⟩)
  · trivial
  dsimp only
  split
  · trivial
  split
  · trivial
  · exact ⟨trivial, fun _ => trivial⟩

theorem doRestore {n : Node} {request : DoRestoreRequest} : Moves (.call (.doRestore request)) n n.world (do
    let r ← n.server.doRestore request
    return (n.server, Reply.ofUnit r)) := by
  have hc : Chain (.call (.doRestore request)) n ⟨n.server, n.world⟩ := .refl
  unfold EtcdServer.doRestore
  rw [Prog.bind_assoc]
  refine .validateHeader hc (Cause.MayCrash.nilHeader rfl) (fun err => .ret hc) fun _ => ?_
  refine .quiet ?_ hc fun _ _ hc => .ret hc
  dsimp only
  split
  · trivial
  split
  · trivial
  split
  · trivial
  refine ⟨trivial, ?_⟩
  rintro (err | ⟨⟩)
  · trivial
  refine ⟨trivial, fun now => ⟨trivial, ?_⟩⟩
  rintro (err | ⟨⟩)
  · trivial
  refine ⟨trivial, ?_⟩
  rintro (err | ⟨⟩)
  · trivial
  refine ⟨trivial, ?_⟩
  rintro (err | ⟨⟩)
  · trivial
  · exact ⟨trivial, fun _ => trivial⟩

end Moves

/-- **Every call is a chain of moves**, whatever the machine answers. -/
theorem serve_moves (n : Node) (c : Call) : Moves (.call c) n n.world (n.server.serve c) := by
  cases c with
  | joinCluster request => exact .bind .joinCluster fun _ _ _ hc => .ret hc
  | reconfigure request => exact .bind .reconfigure fun _ _ _ hc => .ret hc
  | stopEtcd request => exact .bind .stopEtcd fun _ _ _ hc => .ret hc
  | doBackup request => exact .doBackup
  | doRestore request => exact .doRestore
  | getInfo => exact .ret .refl
  | runOnce => exact .bind (.runOnce .refl) fun _ _ _ hc => .ret hc

/-- So is coming up. -/
theorem newEtcdServer_moves (s : EtcdServer) (w : World) :
    (tracking .boot ⟨s.config, w⟩).wp s.config.newEtcdServer w fun w' r =>
      ∃ s', Chain .boot ⟨s.config, w⟩ ⟨s', w'⟩ ∧ (r = .ok s' ∨ ∃ err, r = .error err) := by
  refine ⟨⟨_, .refl⟩, ?_⟩
  rintro (err | state) hx
  · exact ⟨_, .refl, .inr ⟨_, rfl⟩⟩
  have hc : Chain .boot ⟨s.config, w⟩ ⟨{ s.config with state := state }, w⟩ := .single (.read rfl hx)
  cases state with
  | some st => exact ⟨_, hc, .inl rfl⟩
  | none =>
  have hf : w.file = .missing := StateFile.reads_ok.1 hx
  refine ⟨⟨_, hc⟩, ?_⟩
  rintro (err | _ | st) hl
  · exact ⟨_, hc, .inr ⟨_, rfl⟩⟩
  · exact ⟨_, hc, .inl rfl⟩
  refine ⟨⟨_, hc⟩, ?_⟩
  rintro (⟨err, f⟩ | ⟨⟩) hw
  · exact ⟨_, hc.tail (.installFailed rfl ⟨hf, hl.symm⟩ hw), .inr ⟨_, rfl⟩⟩
  · exact ⟨_, hc.tail (.install rfl ⟨hf, hl.symm⟩), .inl rfl⟩

/-! ## Along runs -/

variable {n n' : Node} {c : Call} {s s' : EtcdServer} {w : World} {tr : Trace sysSig} {reply : Reply}
  {I : Node → Prop}

theorem serve_chain (hr : Runs (n.server.serve c) tr (.ret (s', reply))) (ha : machine.Admits n.world tr) :
    Chain (.call c) n ⟨s', machine.after n.world tr⟩ := (hr.wp (serve_moves n c) (tracking_admits ha)).2

/-- What a call cut short leaves of the machine was reached by moves too. -/
theorem serve_prefix_chain {p : SysM (EtcdServer × Reply)} (hr : Runs (n.server.serve c) tr p)
    (ha : machine.Admits n.world tr) : ∃ s', Chain (.call c) n ⟨s', machine.after n.world tr⟩ := by
  have h := (hr.wp (serve_moves n c) (tracking_admits ha)).2
  cases p with
  | ret r => exact ⟨r.1, h⟩
  | call => exact h.1
  | crash => exact h.2

/-- A call that crashes the manager was not safe. -/
theorem not_safeAt_of_crash {e : String} (hr : Runs (n.server.serve c) tr (.crash e))
    (ha : machine.Admits n.world tr) : ¬ c.SafeAt n.server :=
  (hr.wp (serve_moves n c) (tracking_admits ha)).2.1

theorem boot_chain {p : SysM (Except Error EtcdServer)} (hr : Runs s.config.newEtcdServer tr p)
    (ha : machine.Admits w tr) :
    ∃ s', Chain .boot ⟨s.config, w⟩ ⟨s', machine.after w tr⟩ ∧ ∀ s'', p = .ret (.ok s'') → s'' = s' := by
  have h := (hr.wp (newEtcdServer_moves s w) (tracking_admits ha)).2
  cases p with
  | ret r =>
    obtain ⟨s', hc, rfl | ⟨err, rfl⟩⟩ := h
    · exact ⟨s', hc, by rintro _ ⟨⟩; rfl⟩
    · exact ⟨s', hc, by rintro _ ⟨⟩⟩
  | call =>
    obtain ⟨s', hc⟩ := h.1
    exact ⟨s', hc, by rintro _ ⟨⟩⟩
  | crash => exact h.1.elim

theorem Chain.invariant {k : Cause} (move : ∀ {n n'}, Move k n n' → I n → I n') (h : Chain k n n') (hi : I n) :
    I n' := by
  induction h with
  | refl => exact hi
  | tail _ hm ih => exact move hm ih

theorem Move.clock_le {k : Cause} (h : Move k n n') : n.world.clock ≤ n'.world.clock := by
  cases h with
  | clock ht => exact ht
  | _ => exact Int.le_refl _

/-- Only `JoinCluster` touches the preparation. -/
theorem Move.prepared_eq {k : Cause} (hk : ∀ request, k ≠ .call (.joinCluster request)) (h : Move k n n') :
    n'.server.prepared = n.server.prepared := by
  cases h with
  | prepared _ hj => exact (hk _ hj).elim
  | _ => rfl

/-- What moves keep, and what is still true when the memory is lost, is true
when the manager is up again. -/
theorem Boots.invariant (move : ∀ {n n'}, Move .boot n n' → I n → I n')
    (lost : ∀ {n}, I n → I ⟨s.config, n.world⟩) (h : Boots s w tr n') (hi : I ⟨s.config, w⟩) : I n' := by
  induction h with
  | up hr ha =>
    obtain ⟨s', hc, heq⟩ := boot_chain hr ha
    cases heq _ rfl
    exact Chain.invariant move hc hi
  | again hr ha _ ih =>
    obtain ⟨s', hc, -⟩ := boot_chain hr ha
    exact ih (lost (Chain.invariant move hc hi))

/-- **Invariants of a node**: what every move, the gossip and a restart keep,
every run keeps. -/
theorem Node.Run.invariant (move : ∀ {k n n'}, Move k n n' → I n → I n')
    (gossip : ∀ {n : Node} peerServer, I n → I ⟨{ n.server with peerServer := peerServer }, n.world⟩)
    (boot : ∀ {n s tr n'}, Boots s n.world tr n' → I n → I n') {es : List NodeEvent} (h : Node.Run n es n')
    (hi : I n) : I n' := by
  induction h with
  | nil => exact hi
  | snoc _ hs ih =>
    cases hs with
    | call hr ha => exact Chain.invariant move (serve_chain hr ha) ih
    | gossip peerServer => exact gossip peerServer ih
    | restart hr ha hb =>
      obtain ⟨s', hc⟩ := serve_prefix_chain hr ha
      exact boot hb (Chain.invariant move hc ih)

end Etcdadm
