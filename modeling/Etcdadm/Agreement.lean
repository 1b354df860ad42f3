/-
Process, memory and disk of one manager agree.

The handlers change the three views at different places: some write the file
before they start etcd, one writes it again afterwards, and starting and
stopping can fail in between. But no etcd is running when a state is
installed, and the only change under a running one is that the state is no
longer a new cluster, which the process does not show. So the agreement is
kept by every move, and with it by every run in which no write of the state
file failed. The death of the manager costs only its memory, and that comes
back from the file.
-/
import Etcdadm.NodeMoves

namespace Etcdadm

open EtcdServer

/-- A node list with the local URLs in the node's own entry. -/
def withLocalUrls (self : EtcdNode) (nodes : List EtcdNode) : List EtcdNode :=
  nodes.map fun node =>
    if node.name = self.name then
      { node with clientUrls := self.clientUrls, quarantinedClientUrls := self.quarantinedClientUrls }
    else node

/-- The process was started with this state: its cluster token, its nodes up
to the local URLs, its version and its quarantine flag. -/
def EtcdProcess.StartedWith (p : EtcdProcess) (self : EtcdNode) (st : EtcdState) : Prop :=
  ∃ cluster, st.cluster = some cluster ∧ p.cluster.clusterToken = cluster.clusterToken ∧
    p.cluster.nodes = withLocalUrls self cluster.nodes ∧ p.etcdVersion = st.etcdVersion ∧
    p.quarantined = st.quarantined

structure Node.Agree (n : Node) : Prop where
  /-- The state file reads as exactly the state in memory. -/
  file : n.world.file = .of n.server.state
  /-- A process was started, and with the state in memory. -/
  process : ∀ p, n.server.process = some p → p ∈ n.world.started ∧
    ∃ st, n.server.state = some st ∧ p.StartedWith n.server.etcdNodeConfiguration st

namespace Node.Agree

variable {n n' : Node} {k : Cause}

theorem state_of_process {p : EtcdProcess} (h : n.Agree) (hp : n.server.process = some p) :
    n.server.state ≠ none := by
  obtain ⟨-, st, hst, -⟩ := h.process p hp
  simp [hst]

/-- A move keeps the agreement, unless it is a write that fails. -/
theorem move (hm : Move k n n') (h : n.Agree) : n'.Agree ∨ n'.world.writeFailed = true := by
  cases hm with
  | clock _ => exact .inl ⟨h.file, h.process⟩
  | prepared _ => exact .inl ⟨h.file, h.process⟩
  | read hst hx =>
    refine .inl ⟨StateFile.reads_ok.1 hx, fun p hp => ?_⟩
    exact (h.state_of_process hp hst).elim
  | forget => exact .inl ⟨h.file, fun p hp => nomatch hp⟩
  | start hp hst hcl _ =>
    refine .inl ⟨h.file, ?_⟩
    rintro _ ⟨⟩
    exact ⟨by simp, _, hst, _, hcl, rfl, rfl, rfl, rfl⟩
  | install hp _ => exact .inl ⟨rfl, fun p hp' => by simp [hp] at hp'⟩
  | installFailed _ _ _ => exact .inr rfl
  | settle _ hst =>
    refine .inl ⟨rfl, fun p hp => ?_⟩
    obtain ⟨hs, st, hst', hw⟩ := h.process p hp
    cases hst.symm.trans hst'
    exact ⟨hs, _, rfl, hw⟩
  | settleFailed _ _ _ => exact .inr rfl

end Node.Agree

/-- A failed write is never forgotten. -/
theorem Move.writeFailed {k : Cause} {n n' : Node} (hm : Move k n n') (h : n.world.writeFailed = true) :
    n'.world.writeFailed = true := by
  cases hm <;> first | exact h | rfl

/-- Whatever happened before, a manager that is up knows what its file holds. -/
theorem Boots.agree {s : EtcdServer} {w : World} {tr : Trace sysSig} {n : Node} (h : Boots s w tr n) :
    n.Agree := by
  induction h with
  | again _ _ _ ih => exact ih
  | @up w tr s' hr ha =>
    have hwp : machine.wp s.config.newEtcdServer w fun w' r =>
        (∃ err, r = .error err) ∨ ∃ s', r = .ok s' ∧ Node.Agree ⟨s', w'⟩ := by
      refine machine.wp_sys ?_
      rintro (err | state) hx
      · exact .inl ⟨_, rfl⟩
      have hf : w.file = .of state := StateFile.reads_ok.1 hx
      cases state with
      | some st => exact .inr ⟨_, rfl, hf, fun _ hp => nomatch hp⟩
      | none =>
      refine machine.wp_sys ?_
      rintro (err | _ | st) -
      · exact .inl ⟨_, rfl⟩
      · exact .inr ⟨_, rfl, hf, fun _ hp => nomatch hp⟩
      refine machine.wp_sys ?_
      rintro (⟨err, f⟩ | ⟨⟩) -
      · exact .inl ⟨_, rfl⟩
      · exact .inr ⟨_, rfl, rfl, fun _ hp => nomatch hp⟩
    obtain ⟨err, h⟩ | ⟨s'', h, hagree⟩ := (hr.wp hwp ha).2
    · cases h
    · cases h
      exact hagree

/-- With nothing older to import, coming up does not touch the file. -/
theorem Boots.file {s : EtcdServer} {w : World} {tr : Trace sysSig} {n : Node} (h : Boots s w tr n)
    (hl : w.file ≠ .missing ∨ w.legacy = none) : n.world.file = w.file := by
  let I (n : Node) : Prop := n.world.file = w.file ∧ n.world.legacy = w.legacy
  have import_none {n : Node} {st : EtcdState} : I n → ¬ Cause.boot.Installs n st := by
    rintro ⟨hfile, hleg⟩ ⟨hm, hs⟩
    rcases hl with hl | hl
    · exact hl (hfile ▸ hm)
    · simp [hleg, hl] at hs
  have key : I n := by
    refine Boots.invariant (I := I) (fun {n n'} hm hi => ?_) id h ⟨rfl, rfl⟩
    cases hm with
    | install _ hinst => exact (import_none hi hinst).elim
    | installFailed _ hinst => exact (import_none hi hinst).elim
    | settle hk => cases hk
    | settleFailed hk => cases hk
    | _ => exact hi
  exact key.1

theorem StateFile.of_injective : Function.Injective StateFile.of := by
  rintro (_ | st) (_ | st') h <;> simp_all [StateFile.of]

/-- **Process, memory and disk agree** after any sequence of calls, gossip and
restarts in which no write of the state file failed; and a manager started
again there resumes the same state. -/
theorem process_memory_disk_agree {n n' : Node} {es : List NodeEvent} (hf : n.Fresh) (hr : n.Run es n')
    (hw : n'.world.writeFailed = false) :
    n'.Agree ∧ ∀ tr n'', Boots n'.server n'.world tr n'' → n'.server.state ≠ none ∨ n'.world.legacy = none →
      n''.server.state = n'.server.state := by
  have hagree : n'.Agree := by
    obtain ⟨s, w, tr, hb⟩ := hf
    have key : n'.Agree ∨ n'.world.writeFailed = true := by
      refine hr.invariant (I := fun n => n.Agree ∨ n.world.writeFailed = true) ?_ ?_ ?_ (.inl hb.agree)
      · rintro k n n' hm (h | h)
        · exact h.move hm
        · exact .inr (hm.writeFailed h)
      · rintro n peerServer (h | h)
        · exact .inl ⟨h.file, h.process⟩
        · exact .inr h
      · exact fun hb _ => .inl hb.agree
    exact key.resolve_right (by simp [hw])
  refine ⟨hagree, fun tr n'' hb hl => StateFile.of_injective ?_⟩
  rw [← hb.agree.file, ← hagree.file]
  refine hb.file (hl.imp_left fun h => ?_)
  rw [hagree.file]
  cases hs : n'.server.state <;> simp_all [StateFile.of]

theorem process_memory_disk_agree_formed : ∃ (n : Node) (es : List NodeEvent) (n' : Node), n.Fresh ∧
    n.Run es n' ∧ n'.world.writeFailed = false ∧ n'.server.process.isSome = true ∧ n'.Agree := by
  obtain ⟨es, n, hplay, hw, hp⟩ := Scenario.formed
  have hf := Scenario.booted_fresh
  have hr := Node.play_run hplay
  exact ⟨_, es, n, hf, hr, hw, hp, (process_memory_disk_agree hf hr hw).1⟩

end Etcdadm
