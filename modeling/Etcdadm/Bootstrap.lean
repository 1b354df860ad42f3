/-
What a join leaves behind.

`JoinCluster` writes the new state, in memory and on disk, before it does what
can fail: the self node is looked for, keys are made and etcd is started only
after that, and nothing undoes the write. So a join that is reported as failed
has still changed the node, and the background loop starts the cluster of the
join later on. The same state says that the cluster is new, and only the end of
a successful join says otherwise: until then every start of etcd bootstraps the
cluster again.

`Installable` says when a failing join gets as far as the write, and `Primes`
when a node is left in a state from which it bootstraps a cluster of itself.
-/
import Etcdadm.TwoPhaseJoin

namespace Etcdadm

open EtcdServer Monitor

/-! ## Failing joins -/

/-- The request is one that writes a state: it passes every check that comes
before the write, if the clock is read at once. -/
structure Node.Installable (n : Node) (request : JoinClusterRequest) : Prop where
  phase : request.phase = .initialCluster ∨ request.phase = .joinExisting
  header : n.server.Authorizes request.header
  idle : n.server.process = none
  prepared : ∃ p, n.server.prepared = some p ∧ p.clusterToken = request.clusterToken ∧ n.world.clock ≤ p.validUntil

variable {n : Node} {request : JoinClusterRequest}

/-- Behind the check of the preparation, the request is one that writes. -/
theorem Refreshed.installable {t : Time} {s₁ : EtcdServer} (hs : Refreshed n.server t s₁) (ht : n.world.clock ≤ t)
    (ha : n.server.Authorizes request.header)
    (hph : request.phase = .initialCluster ∨ request.phase = .joinExisting)
    (hck : s₁.checkPrepared request = none) : n.Installable request := by
  obtain ⟨hproc, p, hp, htok⟩ := checkPrepared_eq_none hck
  obtain ⟨hheld, hvalid⟩ := hs.held hp
  rw [hs.process] at hproc
  exact ⟨hph, ha, hproc, p, hheld, htok, Int.le_trans ht hvalid⟩

/-- State and state file are those of `n`. -/
def Node.Untouched (n : Node) (s' : EtcdServer) (w' : World) : Prop :=
  s'.state = n.server.state ∧ w'.file = n.world.file

/-- A request that does not get to the write leaves state and file alone. -/
theorem joinCluster_untouched (h : ¬ n.Installable request) :
    machine.wp (n.server.joinCluster request) n.world fun w' r => n.Untouched r.1 w' := by
  unfold joinCluster
  rcases n.server.validateHeader_cases request.header with ⟨-, hv⟩ | ⟨-, err, hv⟩ | ⟨ha, hv⟩ <;> rw [hv]
  · trivial
  · exact ⟨rfl, rfl⟩
  simp only [Prog.ret_bind]
  split
  · unfold cancelPrepare
    split
    · exact ⟨rfl, rfl⟩
    · split <;> exact ⟨rfl, rfl⟩
  refine wp_expirePrepared fun s₁ t ht hs => ?_
  have hstate : s₁.state = n.server.state := by rw [hs.rest]
  refine machine.wp_sys fun answer _ => ?_
  cases answer with
  | error err => exact ⟨hstate, rfl⟩
  | ok _ =>
  dsimp only
  split
  · unfold prepare
    split
    · exact ⟨hstate, rfl⟩
    split
    · exact ⟨hstate, rfl⟩
    · exact machine.wp_sys fun _ _ => ⟨hstate, rfl⟩
  next hph =>
    unfold initialCluster
    cases hck : s₁.checkPrepared request with
    | none => exact (h (hs.installable ht ha (.inl hph) hck)).elim
    | some err => exact ⟨hstate, rfl⟩
  next hph =>
    unfold joinExisting
    cases hck : s₁.checkPrepared request with
    | none => exact (h (hs.installable ht ha (.inr hph) hck)).elim
    | some err => exact ⟨hstate, rfl⟩
  · exact ⟨hstate, rfl⟩

/-- One that does can fail in the write and leave another file. -/
theorem Node.Installable.can_touch (h : n.Installable request) :
    machine.can (n.server.joinCluster request) n.world fun w' r =>
      (∃ err, r.2 = .error err) ∧ w'.file ≠ n.world.file := by
  obtain ⟨p, hp, htok, hvalid⟩ := h.prepared
  have hck : n.server.checkPrepared request = none := by
    simp [checkPrepared, h.idle, hp, htok]
  -- the write stops half-way
  have hleft (st : EtcdState) : ∃ f, n.world.file.Leaves st f ∧ f ≠ n.world.file := by
    by_cases hf : n.world.file = .garbage
    · exact ⟨.holds st, .inr (.inl rfl), by simp [hf]⟩
    · exact ⟨.garbage, .inr (.inr (.inr rfl)), fun he => hf he.symm⟩
  have hfresh : ¬ n.world.clock > p.validUntil := Int.not_lt.2 hvalid
  have hcancel : request.phase ≠ .cancelPrepare := by
    rcases h.phase with hph | hph <;> simp [hph]
  unfold joinCluster
  rw [h.header.validateHeader]
  simp only [Prog.ret_bind, if_neg hcancel, expirePrepared, hp]
  rw [Prog.bind_assoc]
  refine machine.can_sys n.world.clock (Int.le_refl _) ?_
  rw [if_neg hfresh]
  refine machine.can_sys (.ok "") trivial ?_
  rcases h.phase with hph | hph
  · simp only [hph, initialCluster, hck]
    obtain ⟨f, hleaves, hne⟩ := hleft (joinedState request true true)
    exact machine.can_sys (.error ("", f)) hleaves ⟨⟨_, rfl⟩, hne⟩
  · simp only [hph, joinExisting, hck]
    obtain ⟨f, hleaves, hne⟩ := hleft (joinedState request false false)
    exact machine.can_sys (.error ("", f)) hleaves ⟨⟨_, rfl⟩, hne⟩

/-- **When a failed join leaves the node as it was.** State and state file are
the same after every failure if and only if the request fails before the write:
it is not from the leader, etcd is running, or the node is not prepared for its
cluster. -/
theorem failed_join_untouched_iff (n : Node) (request : JoinClusterRequest) :
    (∀ tr s' err, Runs (n.server.joinCluster request) tr (.ret (s', .error err)) → machine.Admits n.world tr →
      n.Untouched s' (machine.after n.world tr)) ↔ ¬ n.Installable request := by
  constructor
  · intro h hinst
    obtain ⟨tr, ⟨s', reply⟩, hr, ha, ⟨err, herr⟩, hne⟩ := can_runs hinst.can_touch
    cases herr
    exact hne (h tr s' err hr ha).2
  · intro h tr s' err hr ha
    exact (hr.wp (joinCluster_untouched h) ha).2

/-! ## A join that fails for want of keys -/

namespace Scenario

/-- Key pairs cannot be made; nothing else fails. -/
def keyless (w : World) : (r : SysReq) → r.Resp
  | .createKeypairs _ _ => .error "no space left on device"
  | r => machine.obliging w r

theorem may_keyless (w : World) (r : SysReq) : machine.may w r (keyless w r) := by
  cases r with
  | createKeypairs pkiDir me => trivial
  | _ => exact machine.may_obliging w _

/-- The state the join writes. -/
def joined : EtcdState := ⟨true, some ⟨0, "cluster", [self]⟩, "3.4.13", true⟩

/-- The node after it was prepared, and after the join it was prepared for has
failed. -/
def prepared : Node :=
  ⟨{ server with
      peerServer := ((Server.new ⟨"a", []⟩).leaderNotification 0 0 ⟨some ⟨some ⟨"a", []⟩, "token", [⟨"a", []⟩]⟩⟩).1
      prepared := some ⟨preparedValidity, "cluster"⟩ }, ⟨.missing, none, 0, [], false⟩⟩

def left : Node := ⟨{ prepared.server with state := some joined }, { prepared.world with file := .holds joined }⟩

theorem prepared_run : ∃ es, booted.Run es prepared ∧ ∀ e ∈ es, ∀ request, e.made = some (.joinCluster request) →
    request.phase = .prepare := by
  have hplay : ∃ e₁ tr₂, booted.play [elect "token", .call (join .prepare)] =
      some ([e₁, .call (join .prepare) tr₂ .ok], prepared) ∧ e₁.made = none := ⟨_, _, rfl, rfl⟩
  obtain ⟨e₁, tr₂, hplay, hmade⟩ := hplay
  refine ⟨_, Node.play_run hplay, ?_⟩
  intro e he request hrequest
  rcases List.mem_pair.1 he with rfl | rfl
  · cases hmade.symm.trans hrequest
  · cases hrequest
    rfl

theorem join_fails : ∃ tr err, prepared.Step (.call (join .initialCluster) tr (.error err)) left := by
  have hplay : ∃ tr err, machine.play keyless (prepared.server.serve (join .initialCluster)) prepared.world =
      (tr, .ret (left.server, .error err)) ∧ machine.after prepared.world tr = left.world := ⟨_, _, rfl, rfl⟩
  obtain ⟨tr, err, hplay, hworld⟩ := hplay
  have hr := Monitor.play_runs (M := machine) (o := keyless) (p := prepared.server.serve (join .initialCluster))
    (s := prepared.world)
  have ha := Monitor.play_admits may_keyless (p := prepared.server.serve (join .initialCluster)) (s := prepared.world)
  rw [hplay] at hr ha
  have hstep := Node.Step.call hr ha
  rw [hworld] at hstep
  exact ⟨tr, err, hstep⟩

end Scenario

/-- The join of a prepared node is reported as failed for want of keys. The
node has another state and another file than before, and with that the
background loop starts the cluster of the failed join. -/
theorem failed_join_is_started_later : ∃ (n₀ n n' n'' : Node) (es : List NodeEvent) (tr tr' : Trace sysSig) (err : Error),
    n₀.Fresh ∧ n₀.Run es n ∧ n.Step (.call (Scenario.join .initialCluster) tr (.error err)) n' ∧
    n'.server.state ≠ n.server.state ∧ n'.world.file ≠ n.world.file ∧ n'.world.started = [] ∧
    n'.Step (.call .runOnce tr' .ok) n'' ∧ ∃ p ∈ n''.world.started, p.cluster.clusterToken = "cluster" := by
  obtain ⟨es, hrun, -⟩ := Scenario.prepared_run
  obtain ⟨tr, err, hjoin⟩ := Scenario.join_fails
  have hfeed : ∃ tr' n'' p, Scenario.left.feed (.call .runOnce) = some (.call .runOnce tr' .ok, n'') ∧
      n''.world.started = [p] ∧ p.cluster.clusterToken = "cluster" := ⟨_, _, _, rfl, rfl, rfl⟩
  obtain ⟨tr', n'', p, hfeed, hstarted, htoken⟩ := hfeed
  refine ⟨_, _, _, n'', es, tr, tr', err, Scenario.booted_fresh, hrun, hjoin, nofun, nofun, rfl,
    Node.feed_step hfeed, p, ?_, htoken⟩
  rw [hstarted]
  exact List.mem_singleton.2 rfl

/-! ## Bootstrapping a cluster -/

/-- How often etcd was started here to bootstrap the cluster. -/
def World.bootstraps (w : World) (token : String) : Nat :=
  w.started.countP fun p => p.createNewCluster && p.cluster.clusterToken == token

/-- The cluster an event asks the node to bootstrap. -/
def NodeEvent.bootstraps (e : NodeEvent) : Option String := do
  let .joinCluster request ← e.made | none
  if request.phase = .initialCluster then some request.clusterToken else none

/-- An etcd started from the state on the node of this name bootstraps the
cluster, and can be started. -/
structure EtcdState.Bootstraps (st : EtcdState) (name token : String) : Prop where
  newCluster : st.newCluster = true
  cluster : ∃ cluster me, st.cluster = some cluster ∧ cluster.clusterToken = token ∧
    selfNode name cluster.nodes none = .ok (some me)
  named : token ≠ ""

/-- A state in memory or on disk from which the cluster is bootstrapped. -/
def Node.Primes (n : Node) (token : String) : Prop :=
  ∃ st, (n.server.state = some st ∨ n.world.file = .holds st) ∧
    st.Bootstraps n.server.etcdNodeConfiguration.name token

/-- What there is to import is not a new cluster. -/
def Node.LegacyOld (n : Node) : Prop := ∀ st, n.world.legacy = some st → st.newCluster = false

/-- A run that never leaves the node primed. -/
inductive Node.UnprimedRun : Node → List NodeEvent → Node → Prop
  | nil {n : Node} : (∀ token, ¬ n.Primes token) → UnprimedRun n [] n
  | snoc {n n' n'' : Node} {es e} : UnprimedRun n es n' → Step n' e n'' → (∀ token, ¬ n''.Primes token) →
      UnprimedRun n (es ++ [e]) n''

/-! ### Without a request to bootstrap, an unprimed node never does -/

/-- The call does not ask for a new cluster. -/
def Cause.Ordinary (k : Cause) : Prop :=
  ∀ request, k = .call (.joinCluster request) → request.phase ≠ .initialCluster

/-- Nothing is bootstrapped here, and so far these were. -/
structure Node.Inert (name : String) (count : String → Nat) (n : Node) : Prop where
  name : n.server.etcdNodeConfiguration.name = name
  unprimed : ∀ token, ¬ n.Primes token
  legacy : n.LegacyOld
  count : ∀ token, n.world.bootstraps token = count token

/-- A node is found in a list as well before as after its entry is changed,
where the name stays. -/
theorem selfNode_of_map {name : String} {g : EtcdNode → EtcdNode} (hg : ∀ node, (g node).name = node.name) :
    ∀ {nodes : List EtcdNode} {found found' : Option EtcdNode} {me : EtcdNode}, found.isSome = found'.isSome →
      selfNode name (nodes.map g) found = .ok (some me) → ∃ me', selfNode name nodes found' = .ok (some me')
  | [], found, found', me, hf, h => by
    cases h
    obtain ⟨me', hme⟩ := Option.isSome_iff_exists.1 hf.symm
    exact ⟨me', by rw [hme]; rfl⟩
  | node :: nodes, found, found', me, hf, h => by
    simp only [List.map_cons, selfNode, hg] at h
    unfold selfNode
    split at h
    next hname =>
      rw [if_pos hname]
      split at h
      · cases h
      next hnone =>
        rw [if_neg (hf ▸ hnone)]
        have hfound : (some (g node)).isSome = (some node).isSome := rfl
        exact selfNode_of_map hg hfound h
    next hname =>
      rw [if_neg hname]
      exact selfNode_of_map hg hf h

variable {s : EtcdServer} {token : String}

/-- `Reconfigure` does not make a new cluster of an old one. -/
theorem EtcdState.Bootstraps.of_reconfigured {old : EtcdState} {request : ReconfigureRequest} {name : String}
    (h : (s.reconfiguredState old request).Bootstraps name token) : old.Bootstraps name token := by
  obtain ⟨hnew, ⟨cluster, me, hcl, htok, hme⟩, hne⟩ := h
  refine ⟨hnew, ?_, hne⟩
  obtain ⟨cluster', hcl', heq⟩ := Option.map_eq_some_iff.1 hcl
  split at heq
  · subst heq
    have hg (node : EtcdNode) : (if node.name = s.etcdNodeConfiguration.name then enableTls node else node).name = node.name := by
      split <;> rfl
    obtain ⟨me', hme'⟩ := selfNode_of_map hg rfl hme
    exact ⟨cluster', me', hcl', htok, hme'⟩
  · subst heq
    exact ⟨_, me, hcl', htok, hme⟩

theorem Cause.Installs.not_bootstraps {k : Cause} {st : EtcdState} (hk : k.Ordinary) (hleg : n.LegacyOld)
    (hno : ∀ token, ¬ n.Primes token) (h : k.Installs n st) :
    ¬ st.Bootstraps n.server.etcdNodeConfiguration.name token := by
  intro hb
  have hnew := hb.newCluster
  cases k with
  | boot => simp [hleg st h.2] at hnew
  | call c =>
    cases c with
    | joinCluster request =>
      obtain ⟨-, ⟨hph, -⟩ | ⟨-, rfl⟩⟩ := h
      · exact hk request rfl hph
      · cases hnew
    | reconfigure request =>
      obtain ⟨-, old, cluster, hst, -, rfl⟩ := h
      exact hno token ⟨old, .inl hst, hb.of_reconfigured⟩
    | stopEtcd request =>
      obtain ⟨-, rfl⟩ := h
      cases hnew
    | _ => exact h.elim

namespace Node.Inert

variable {name : String} {count : String → Nat} {n' : Node} {k : Cause}

/-- Where a state is installed, in memory and perhaps on disk, that state and
the file of before are all there is. -/
theorem installed {st : EtcdState} {f : StateFile} {b : Bool} (h : n.Inert name count)
    (hst : ∀ token, ¬ st.Bootstraps n.server.etcdNodeConfiguration.name token) (hf : f = .holds st ∨ n.world.file.Leaves st f) :
    Inert name count ⟨{ n.server with state := some st }, { n.world with file := f, writeFailed := b }⟩ := by
  refine ⟨h.name, fun token hp => ?_, h.legacy, h.count⟩
  obtain ⟨st', hmem | hfile, hb⟩ := hp
  · cases hmem
    exact hst token hb
  · have hf : f = .holds st' := hfile
    subst hf
    rcases hf with heq | hold | heq | heq | heq
    · cases heq
      exact hst token hb
    · exact h.unprimed token ⟨st', .inr hold.symm, hb⟩
    · cases heq
      exact hst token hb
    · cases heq
      cases hb.newCluster
    · cases heq

theorem move (hk : k.Ordinary) (hm : Move k n n') (h : n.Inert name count) : n'.Inert name count := by
  cases hm with
  | clock => exact ⟨h.name, h.unprimed, h.legacy, h.count⟩
  | prepared => exact ⟨h.name, h.unprimed, h.legacy, h.count⟩
  | forget => exact ⟨h.name, h.unprimed, h.legacy, h.count⟩
  | @read s w state hst hx =>
    refine ⟨h.name, fun token hp => ?_, h.legacy, h.count⟩
    have hfile : w.file = .of state := StateFile.reads_ok.1 hx
    obtain ⟨st, hmem | hdisk, hb⟩ := hp
    · have hstate : state = some st := hmem
      rw [hstate] at hfile
      exact h.unprimed token ⟨st, .inr hfile, hb⟩
    · exact h.unprimed token ⟨st, .inr hdisk, hb⟩
  | @start s w st cluster me binDir hp hst hcl hme htok =>
    -- the state is in memory, so it does not bootstrap
    have hold : st.newCluster = false := by
      by_contra hnew
      exact h.unprimed _ ⟨st, .inl hst, Bool.not_eq_false _ ▸ hnew, ⟨cluster, me, hcl, rfl, hme⟩, htok⟩
    refine ⟨h.name, h.unprimed, h.legacy, fun token => ?_⟩
    have hcount := h.count token
    simp only [World.bootstraps] at hcount ⊢
    rw [List.countP_cons_of_neg (by simp [processFor, hold]), hcount]
  | install _ hi =>
    exact h.installed (fun token => hi.not_bootstraps hk h.legacy h.unprimed) (.inl rfl)
  | installFailed _ hi hleft =>
    exact h.installed (fun token => hi.not_bootstraps hk h.legacy h.unprimed) (.inr hleft)
  | settle => exact h.installed (fun token hb => nomatch hb.newCluster) (.inl rfl)
  | settleFailed _ _ hleft => exact h.installed (fun token hb => nomatch hb.newCluster) (.inr hleft)

theorem step {e : NodeEvent} (he : e.bootstraps = none) (hs : n.Step e n') (h : n.Inert name count) :
    n'.Inert name count := by
  have ordinary {c : Call} (hc : e.made = some c) : (Cause.call c).Ordinary := by
    intro request heq hph
    cases heq
    simp [NodeEvent.bootstraps, hc, hph] at he
  have hboot : Cause.boot.Ordinary := nofun
  cases hs with
  | call hr ha => exact Chain.invariant (move (ordinary rfl)) (serve_chain hr ha) h
  | gossip => exact ⟨h.name, h.unprimed, h.legacy, h.count⟩
  | restart hr ha hb =>
    obtain ⟨s', hc⟩ := serve_prefix_chain hr ha
    have hcut := Chain.invariant (move (ordinary rfl)) hc h
    have lost {n₁ : Node} (h₁ : n₁.Inert name count) : Inert name count ⟨n.server.config, n₁.world⟩ := by
      refine ⟨h.name, fun token hp => ?_, h₁.legacy, h₁.count⟩
      obtain ⟨st, hmem | hdisk, hb⟩ := hp
      · cases hmem
      · refine h₁.unprimed token ⟨st, .inr hdisk, hb.newCluster, ?_, hb.named⟩
        rw [h₁.name, ← h.name]
        exact hb.cluster
    exact hb.invariant (move hboot) lost (lost hcut)

theorem run {es : List NodeEvent} (hr : n.Run es n') (hes : ∀ e ∈ es, e.bootstraps = none) (h : n.Inert name count) :
    n'.Inert name count := by
  induction hr with
  | nil => exact h
  | snoc _ hs ih =>
    obtain ⟨hes, he⟩ := List.forall_mem_append.1 hes
    exact step (he _ (List.mem_singleton.2 rfl)) hs (ih hes)

end Node.Inert

/-! ### A request to bootstrap starts etcd at most once -/

theorem machine.started_next {w : World} {r : SysReq} (hr : ∀ p, r ≠ .start p) (x : r.Resp) :
    (machine.next w r x).started = w.started := by
  cases r with
  | start p => exact (hr p rfl).elim
  | writeState st => cases x <;> rfl
  | _ => rfl

theorem machine.started_after {tr : Trace sysSig} (h : ∀ e ∈ tr, ∀ p, e.req ≠ .start p) {w : World} :
    (machine.after w tr).started = w.started := by
  induction tr generalizing w with
  | nil => rfl
  | cons e tr ih =>
    obtain ⟨he, htr⟩ := List.forall_mem_cons.1 h
    rw [after_cons, ih htr]
    exact machine.started_next he e.resp

/-- Coming up starts nothing. -/
theorem Boots.started {w : World} {tr : Trace sysSig} (h : Boots s w tr n) : n.world.started = w.started := by
  have huses : s.config.newEtcdServer.Uses (fun r : SysReq => ∀ p, r ≠ .start p) False := by
    refine ⟨nofun, fun answer => ?_⟩
    rcases answer with err | _ | st
    · trivial
    · refine ⟨nofun, fun answer => ?_⟩
      rcases answer with err | _ | st
      · trivial
      · trivial
      · refine ⟨nofun, fun answer => ?_⟩
        cases answer <;> trivial
    · trivial
  induction h with
  | up hr _ => exact machine.started_after (hr.uses huses).1
  | again hr _ _ ih => exact ih.trans (machine.started_after (hr.uses huses).1)

/-- One etcd of the cluster at most was started since. -/
def World.StartedOnce (w : World) (token : String) (w' : World) : Prop :=
  w'.started = w.started ∨ ∃ p, w'.started = p :: w.started ∧ p.cluster.clusterToken = token

theorem World.StartedOnce.bootstraps_le {w w' : World} (h : w.StartedOnce token w') (token' : String) :
    w'.bootstraps token' ≤ w.bootstraps token' + [token].count token' := by
  unfold World.bootstraps
  rcases h with h | ⟨p, h, hp⟩
  · rw [h]
    omega
  rw [h, List.countP_cons]
  by_cases ht : token = token'
  · subst ht
    rw [List.count_singleton_self]
    split <;> omega
  · have hno : ¬ (p.createNewCluster && p.cluster.clusterToken == token') = true := by
      rw [hp]
      simp [ht]
    rw [if_neg hno]
    omega

/-- The machine, watched for what is started. -/
def starting (w₀ : World) (token : String) : Monitor sysSig World where
  next := machine.next
  may := machine.may
  must w _ := w₀.StartedOnce token w
  crash w _ := w₀.StartedOnce token w

section Starting

variable {w₀ w : World} {α : Type} {Q : World → α → Prop}

theorem starting.sys {r : SysReq} {f : r.Resp → SysM α} (hw : w.started = w₀.started) (hr : ∀ p, r ≠ .start p)
    (h : ∀ x w', w'.started = w₀.started → (starting w₀ token).wp (f x) w' Q) :
    (starting w₀ token).wp (sys r >>= f) w Q :=
  ⟨.inl hw, fun x _ => h x _ ((machine.started_next hr x).trans hw)⟩

theorem starting.bindir {version cmd : String} {f : Except Error String → SysM α} (hw : w.started = w₀.started)
    (hfail : ∀ err w', w'.started = w₀.started → (starting w₀ token).wp (f (.error err)) w' Q)
    (hok : ∀ dir w', w'.started = w₀.started → (starting w₀ token).wp (f (.ok dir)) w' Q) :
    (starting w₀ token).wp (Etcdadm.sys (.bindirForEtcdVersion version cmd) >>= f) w Q := by
  refine starting.sys hw (by simp) fun answer w' hw' => ?_
  cases answer with
  | error err => exact hfail err w' hw'
  | ok dir => exact hok dir w' hw'

theorem starting.startEtcdProcess {st : EtcdState} {cluster : EtcdCluster}
    {f : EtcdServer × Option Error → SysM α} (hst : st.cluster = some cluster) (hw : w.started = w₀.started)
    (hfail : ∀ err w', w'.started = w₀.started → (starting w₀ cluster.clusterToken).wp (f (s, some err)) w' Q)
    (hok : ∀ s' w', w₀.StartedOnce cluster.clusterToken w' →
      (starting w₀ cluster.clusterToken).wp (f (s', none)) w' Q) :
    (starting w₀ cluster.clusterToken).wp (s.startEtcdProcess st >>= f) w Q := by
  simp only [EtcdServer.startEtcdProcess, hst]
  split
  · exact hfail _ w hw
  simp only [findSelfNode, hst, Prog.pure_eq, Prog.ret_bind]
  split
  · exact hfail _ w hw
  · exact hfail _ w hw
  rw [Prog.bind_assoc]
  refine starting.sys hw (by simp) fun keys w₁ hw₁ => ?_
  cases keys with
  | error err => exact hfail _ w₁ hw₁
  | ok _ =>
  rw [Prog.bind_assoc]
  refine starting.sys hw₁ (by simp) fun binDir w₂ hw₂ => ?_
  cases binDir with
  | error err => exact hfail _ w₂ hw₂
  | ok binDir =>
  rw [Prog.bind_assoc]
  refine ⟨.inl hw₂, fun answer _ => ?_⟩
  cases answer with
  | error err => exact hfail _ w₂ hw₂
  | ok _ => exact hok _ _ (.inr ⟨_, congrArg _ hw₂, rfl⟩)

theorem starting.initialCluster (hw : w.started = w₀.started) :
    (starting w₀ request.clusterToken).wp (s.initialCluster request) w fun w' _ => w₀.StartedOnce request.clusterToken w' := by
  unfold EtcdServer.initialCluster
  split
  · exact .inl hw
  refine starting.sys hw (by simp) fun answer w₁ hw₁ => ?_
  cases answer with
  | error left => exact .inl hw₁
  | ok _ =>
  have hcl : (joinedState request true true).cluster = some ⟨0, request.clusterToken, request.nodes⟩ := rfl
  refine starting.startEtcdProcess hcl hw₁ ?_ ?_
  · exact fun err w₂ hw₂ => .inl hw₂
  · intro s' w₂ hw₂
    refine ⟨hw₂, fun answer _ => ?_⟩
    cases answer <;> exact hw₂

theorem starting.joinCluster (hph : request.phase = .initialCluster) :
    (starting w₀ request.clusterToken).wp (s.joinCluster request) w₀ fun w' _ =>
      w₀.StartedOnce request.clusterToken w' := by
  unfold EtcdServer.joinCluster
  rcases s.validateHeader_cases request.header with ⟨-, hv⟩ | ⟨-, err, hv⟩ | ⟨-, hv⟩ <;> rw [hv]
  · exact .inl rfl
  · exact .inl rfl
  simp only [Prog.ret_bind, hph, reduceCtorEq, if_false]
  unfold expirePrepared
  split
  · exact starting.bindir rfl (fun err w' hw' => .inl hw') fun dir w' hw' => starting.initialCluster hw'
  rw [Prog.bind_assoc]
  refine starting.sys rfl (by simp) fun now w₁ hw₁ => ?_
  split
  · exact starting.bindir hw₁ (fun err w' hw' => .inl hw') fun dir w' hw' => starting.initialCluster hw'
  · exact starting.bindir hw₁ (fun err w' hw' => .inl hw') fun dir w' hw' => starting.initialCluster hw'

end Starting

section Runs

variable {n' : Node} {e : NodeEvent} {es : List NodeEvent}

theorem NodeEvent.bootstraps_eq_some (h : e.bootstraps = some token) : ∃ request, e.made = some (.joinCluster request) ∧
    request.phase = .initialCluster ∧ request.clusterToken = token := by
  obtain ⟨c, hc, h⟩ := Option.bind_eq_some_iff.1 h
  cases c with
  | joinCluster request =>
    dsimp only at h
    split at h
    next hph => exact ⟨request, hc, hph, Option.some.inj h⟩
    · cases h
  | _ => cases h

theorem serve_startedOnce {tr : Trace sysSig} {p : SysM (EtcdServer × Reply)} (hph : request.phase = .initialCluster)
    (hr : Runs (n.server.serve (.joinCluster request)) tr p) (ha : machine.Admits n.world tr) :
    n.world.StartedOnce request.clusterToken (machine.after n.world tr) := by
  have hwp : (starting n.world request.clusterToken).wp (n.server.serve (.joinCluster request)) n.world fun w' _ =>
      n.world.StartedOnce request.clusterToken w' :=
    wp_bind.2 (wp_mono (fun _ _ h => h) (starting.joinCluster hph))
  have hadm : (starting n.world request.clusterToken).Admits n.world tr := by
    refine Admits.congr ?_ ?_ ha <;> rfl
  have h := (hr.wp hwp hadm).2
  cases p with
  | ret r => exact h
  | call => exact h.1
  | crash => exact h

theorem Node.Step.bootstraps_le (he : e.bootstraps = some token) (hs : n.Step e n') (token' : String) :
    n'.world.bootstraps token' ≤ n.world.bootstraps token' + [token].count token' := by
  obtain ⟨request, hmade, hph, rfl⟩ := NodeEvent.bootstraps_eq_some he
  cases hs with
  | call hr ha =>
    cases hmade
    exact (serve_startedOnce hph hr ha).bootstraps_le token'
  | gossip => cases hmade
  | restart hr ha hb =>
    cases hmade
    have hle := (serve_startedOnce hph hr ha).bootstraps_le token'
    rwa [World.bootstraps, hb.started]

theorem Node.Step.legacy (hs : n.Step e n') : n'.world.legacy = n.world.legacy := by
  have move {k : Cause} {n₁ n₂ : Node} (hm : Move k n₁ n₂) (h : n₁.world.legacy = n.world.legacy) :
      n₂.world.legacy = n.world.legacy := by
    cases hm <;> exact h
  refine Node.Run.invariant (I := fun n' => n'.world.legacy = n.world.legacy) move ?_ ?_ (.snoc .nil hs) rfl
  · exact fun _ h => h
  · exact fun hb h => hb.invariant move id h

/-- Along an unprimed run, every bootstrap was asked for. -/
theorem Node.UnprimedRun.bootstraps_le {n₀ : Node} (h : n₀.UnprimedRun es n) (hleg : n₀.LegacyOld) :
    n.LegacyOld ∧ (∀ token, ¬ n.Primes token) ∧
      ∀ token, n.world.bootstraps token ≤ n₀.world.bootstraps token + (es.filterMap NodeEvent.bootstraps).count token := by
  induction h with
  | nil hno => exact ⟨hleg, hno, fun token => Nat.le_add_right _ _⟩
  | @snoc n n' es e _ hs hno ih =>
    obtain ⟨hold, hunprimed, hcount⟩ := ih
    have hold' : n'.LegacyOld := by
      intro st hst
      rw [hs.legacy] at hst
      exact hold st hst
    refine ⟨hold', hno, fun token => ?_⟩
    have hle := hcount token
    rw [List.filterMap_append, List.count_append]
    cases he : e.bootstraps with
    | none =>
      have hinert : n.Inert n.server.etcdNodeConfiguration.name n.world.bootstraps :=
        ⟨rfl, hunprimed, hold, fun _ => rfl⟩
      rw [(hinert.step he hs).count token]
      omega
    | some token' =>
      have hstep := hs.bootstraps_le he token
      simp only [List.filterMap_cons, he, List.filterMap_nil]
      omega

/-! ### A primed node bootstraps its cluster over and over -/

/-- The background loop starts etcd from the state it has, again if the one
from before has exited. -/
theorem runOnce_bootstraps {st : EtcdState} (hst : n.server.state = some st)
    (hb : st.Bootstraps n.server.etcdNodeConfiguration.name token) :
    ∃ tr n', n.Step (.call .runOnce tr .ok) n' ∧ n'.server.state = some st ∧
      n'.server.etcdNodeConfiguration = n.server.etcdNodeConfiguration ∧
      n'.world.bootstraps token = n.world.bootstraps token + 1 := by
  obtain ⟨hnew, ⟨cluster, me, hcl, rfl, hme⟩, hne⟩ := hb
  have start (s : EtcdServer) (hs : s = { n.server with process := none }) :
      machine.can (s.startEtcdProcess st) n.world fun w' r => r.2 = none ∧ r.1.state = some st ∧
        r.1.etcdNodeConfiguration = n.server.etcdNodeConfiguration ∧
        w'.bootstraps cluster.clusterToken = n.world.bootstraps cluster.clusterToken + 1 := by
    subst hs
    simp only [startEtcdProcess, hcl, if_neg hne, findSelfNode, hme, Prog.pure_eq, Prog.ret_bind]
    refine machine.can_sys (.ok ()) trivial (machine.can_sys (.ok "") trivial (machine.can_sys (.ok ()) trivial ?_))
    refine ⟨rfl, hst, rfl, ?_⟩
    exact List.countP_cons_of_pos (by simp [processFor, hnew])
  have hcan : machine.can (n.server.serve .runOnce) n.world fun w' r => r.2 = .ok ∧ r.1.state = some st ∧
      r.1.etcdNodeConfiguration = n.server.etcdNodeConfiguration ∧
      w'.bootstraps cluster.clusterToken = n.world.bootstraps cluster.clusterToken + 1 := by
    refine can_bind.2 (can_mono (Q := fun w' r => r.2 = none ∧ r.1.state = some st ∧
      r.1.etcdNodeConfiguration = n.server.etcdNodeConfiguration ∧
      w'.bootstraps cluster.clusterToken = n.world.bootstraps cluster.clusterToken + 1) ?_ ?_)
    · intro w' r hr
      obtain ⟨s', err⟩ := r
      obtain ⟨herr, hrest⟩ := hr
      cases herr
      exact ⟨rfl, hrest⟩
    · simp only [EtcdServer.runOnce, initState, hst, Prog.pure_eq, Prog.ret_bind, checkProcess]
      cases hp : n.server.process with
      | none =>
        simp only [Option.isSome_none, Bool.false_eq_true, if_false, Prog.ret_bind, hst, hp, hcl, Option.isSome_some,
          if_true]
        exact start n.server (by rw [← hp])
      | some p =>
        simp only [Option.isSome_none, Bool.false_eq_true, if_false]
        rw [Prog.bind_assoc]
        refine machine.can_sys true trivial ?_
        simp only [if_true, Prog.ret_bind, hcl, Option.isSome_some]
        exact start _ (by simp [hst])
  obtain ⟨tr, ⟨s', reply⟩, hr, ha, hok, hrest⟩ := can_runs hcan
  cases hok
  exact ⟨tr, ⟨s', machine.after n.world tr⟩, .call hr ha, hrest⟩

/-- A state on disk is in memory after a restart. -/
theorem restart_reads {st : EtcdState} (hst : n.world.file = .holds st) :
    ∃ tr n', n.Step (.restart .getInfo none tr) n' ∧ n'.server.state = some st ∧
      n'.server.etcdNodeConfiguration = n.server.etcdNodeConfiguration ∧ n'.world = n.world := by
  have hread : machine.may n.world .readState (.ok (some st)) := by
    rw [machine.may_readState, hst]
    rfl
  have hup : Boots n.server n.world [⟨.readState, .ok (some st)⟩] ⟨{ n.server.config with state := some st }, n.world⟩ :=
    .up (.step .refl) ⟨hread, trivial⟩
  exact ⟨_, _, .restart (c := .getInfo) .refl trivial hup, rfl, rfl, rfl⟩

theorem Node.Primes.bootstraps_twice (h : n.Primes token) : ∃ es n', n.Run es n' ∧
    (∀ e ∈ es, e.bootstraps = none) ∧ n'.world.bootstraps token = n.world.bootstraps token + 2 := by
  obtain ⟨st, hst, hb⟩ := h
  -- whichever place the state is in, it gets into memory
  obtain ⟨es, n₁, hr, hes, hmem, hconf, hworld⟩ : ∃ es n₁, n.Run es n₁ ∧ (∀ e ∈ es, e.bootstraps = none) ∧
      n₁.server.state = some st ∧ n₁.server.etcdNodeConfiguration = n.server.etcdNodeConfiguration ∧
      n₁.world = n.world := by
    rcases hst with hmem | hdisk
    · exact ⟨[], n, .nil, List.forall_mem_nil _, hmem, rfl, rfl⟩
    · obtain ⟨tr, n₁, hs, hrest⟩ := restart_reads hdisk
      exact ⟨_, n₁, .snoc .nil hs, by simp [NodeEvent.bootstraps, NodeEvent.made], hrest⟩
  rw [← hconf] at hb
  obtain ⟨tr₂, n₂, hs₂, hmem₂, hconf₂, hcount₂⟩ := runOnce_bootstraps hmem hb
  rw [← hconf₂] at hb
  obtain ⟨tr₃, n₃, hs₃, -, -, hcount₃⟩ := runOnce_bootstraps hmem₂ hb
  refine ⟨_, n₃, .snoc (.snoc hr hs₂) hs₃, ?_, ?_⟩
  · intro e he
    simp only [List.mem_append, List.mem_singleton] at he
    rcases he with (he | rfl) | rfl
    · exact hes e he
    · rfl
    · rfl
  · rw [hcount₃, hcount₂, hworld]

end Runs

/-- **When a node bootstraps a cluster at most once.** It does in every run with
a fresh token for each `INITIAL_CLUSTER` that never leaves the node primed; and
wherever a run has come without a second bootstrap, there will be none, whatever
happens but further `INITIAL_CLUSTER` requests, if and only if the node is not
primed. -/
theorem bootstraps_once_iff_unprimed (n₀ : Node) :
    (∀ es n, n₀.UnprimedRun es n → n₀.LegacyOld → (∀ token, n₀.world.bootstraps token = 0) →
      (es.filterMap NodeEvent.bootstraps).Nodup → ∀ token, n.world.bootstraps token ≤ 1) ∧
    ∀ es n, n₀.Run es n → n.LegacyOld → (∀ token, n.world.bootstraps token ≤ 1) →
      ((∀ es' n', n.Run es' n' → (∀ e ∈ es', e.bootstraps = none) → ∀ token, n'.world.bootstraps token ≤ 1) ↔
        ∀ token, ¬ n.Primes token) := by
  refine ⟨fun es n hr hleg hzero hfresh token => ?_, fun es n _ hleg hle => ⟨fun h token hp => ?_, fun h => ?_⟩⟩
  · have hcount := (hr.bootstraps_le hleg).2.2 token
    have hone := List.nodup_iff_count_le_one.1 hfresh token
    rw [hzero token] at hcount
    omega
  · obtain ⟨es', n', hr, hes, hcount⟩ := hp.bootstraps_twice
    have hle := h es' n' hr hes token
    omega
  · intro es' n' hr hes token
    have hinert : n.Inert n.server.etcdNodeConfiguration.name n.world.bootstraps := ⟨rfl, h, hleg, fun _ => rfl⟩
    rw [(hinert.run hr hes).count token]
    exact hle token

/-- The same failed join: the background loop starts the cluster as a new one,
and when that etcd has exited, once more. -/
theorem failed_join_bootstraps_twice : ∃ (n₀ n : Node) (es : List NodeEvent), n₀.Fresh ∧ n₀.LegacyOld ∧
    n₀.world.started = [] ∧ n₀.Run es n ∧ es.filterMap NodeEvent.bootstraps = ["cluster"] ∧
    n.world.bootstraps "cluster" = 2 := by
  obtain ⟨es, hrun, hprepare⟩ := Scenario.prepared_run
  obtain ⟨tr, err, hjoin⟩ := Scenario.join_fails
  have hprimed : Scenario.left.Primes "cluster" :=
    ⟨Scenario.joined, .inl rfl, rfl, ⟨_, Scenario.self, rfl, rfl, rfl⟩, nofun⟩
  obtain ⟨es', n, hrun', hes', htwice⟩ := hprimed.bootstraps_twice
  have hes : es.filterMap NodeEvent.bootstraps = [] := by
    refine List.filterMap_eq_nil_iff.2 fun e he => ?_
    by_contra hne
    obtain ⟨token, htoken⟩ := Option.ne_none_iff_exists'.1 hne
    obtain ⟨request, hmade, hph, -⟩ := NodeEvent.bootstraps_eq_some htoken
    cases hph.symm.trans (hprepare e he request hmade)
  refine ⟨_, n, _, Scenario.booted_fresh, (fun st hst => nomatch hst), rfl, (hrun.snoc hjoin).append hrun', ?_, htwice⟩
  rw [List.filterMap_append, List.filterMap_append, hes, List.filterMap_eq_nil_iff.2 hes']
  rfl

end Etcdadm
