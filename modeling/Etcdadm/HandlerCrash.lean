/-
Which requests crash a manager.

The handlers read `request.Header`, `s.state` and `s.state.Cluster` through
Go pointers. `s.state` is always checked; the header and the cluster are not.
`serve_crashFree_iff` says that these two are all there is: a call takes the
manager down exactly if it should carry a header and does not, or if it is an
authorized `Reconfigure` or `StopEtcd` where the state has no cluster. Such a
state is what a `StopEtcd` leaves behind, in memory and on disk.
-/
import Etcdadm.NodeMoves

namespace Etcdadm

open EtcdServer

variable {s : EtcdServer} {c : Call}

theorem serve_nilHeader (h : c.header = some none) : s.serve c = .crash nilDeref := by
  cases c with
  | getInfo | runOnce => cases h
  | _ request =>
    cases request
    cases h
    rfl

/-- Behind the header check both handlers take the cluster for granted. -/
theorem serve_nilCluster {header : Option CommonRequestHeader} {st : EtcdState} (hn : c.NeedsCluster)
    (hh : c.header = some header) (ha : s.Authorizes header) (hst : s.state = some st)
    (hcl : st.cluster = none) : s.serve c = .crash nilDeref := by
  have hv := ha.validateHeader
  cases c with
  | reconfigure request =>
    cases hh
    simp [serve, reconfigure, hv, hst, findSelfNode, hcl]
  | stopEtcd request =>
    cases hh
    simp [serve, stopEtcd, hv, hst, hcl]
  | _ => exact hn.elim

/-- A call never crashes the manager if and only if it is safe. -/
theorem serve_crashFree_iff {n : Node} :
    (∀ tr e, machine.Admits n.world tr → ¬ Runs (n.server.serve c) tr (.crash e)) ↔ c.SafeAt n.server := by
  constructor
  · intro h
    have at_once : n.server.serve c ≠ .crash nilDeref := fun he => h [] nilDeref trivial (he ▸ .refl)
    exact ⟨fun hh => at_once (serve_nilHeader hh),
      fun hn header st hh ha hst hcl => at_once (serve_nilCluster hn hh ha hst hcl)⟩
  · intro hs tr e ha hr
    exact not_safeAt_of_crash hr ha hs

/-! ## Whole runs -/

/-- The manager crashed. -/
def NodeEvent.Crashed : NodeEvent → Prop
  | .restart _ (some _) _ => True
  | _ => False

/-- A run in which every call was safe where it was made. -/
inductive Node.SafeRun : Node → List NodeEvent → Node → Prop
  | nil {n : Node} : SafeRun n [] n
  | snoc {n n' n'' : Node} {es e} : SafeRun n es n' → Step n' e n'' →
      (∀ c, e.made = some c → c.SafeAt n'.server) → SafeRun n (es ++ [e]) n''

theorem Node.Step.not_crashed {n n' : Node} {e : NodeEvent} (h : n.Step e n')
    (hs : ∀ c, e.made = some c → c.SafeAt n.server) : ¬ e.Crashed := by
  cases h with
  | call | gossip => exact id
  | @restart _ c _ p _ hr ha _ =>
    cases p with
    | crash why => exact fun _ => not_safeAt_of_crash hr ha (hs c rfl)
    | _ => exact id

/-- **When the handlers crash the manager.** A run whose calls were all safe
has no crash in it; and wherever a run has come, a call never crashes the
manager if and only if it is safe there: it has its header, and an authorized
`Reconfigure` or `StopEtcd` finds a cluster in the state. -/
theorem handlers_never_crash_iff_safe (n₀ : Node) :
    (∀ es n, n₀.SafeRun es n → ∀ e ∈ es, ¬ e.Crashed) ∧
    ∀ es n, n₀.Run es n → ∀ c : Call,
      (∀ tr e, machine.Admits n.world tr → ¬ Runs (n.server.serve c) tr (.crash e)) ↔ c.SafeAt n.server := by
  refine ⟨fun es n hr => ?_, fun es n _ c => serve_crashFree_iff⟩
  induction hr with
  | nil => simp
  | snoc _ hs hsafe ih =>
    intro e he
    rcases List.mem_append.1 he with he | he
    · exact ih e he
    · cases List.mem_singleton.1 he
      exact hs.not_crashed hsafe

/-- A cluster is formed and stopped, all by the book. After that another
`StopEtcd` of the leader, its `Reconfigure`, and any request without a header
each take the manager down. -/
theorem stopped_node_crashes : ∃ (n : Node) (es : List NodeEvent) (n' : Node), n.Fresh ∧ n.Run es n' ∧
    Runs (n'.server.serve (.stopEtcd ⟨some Scenario.header⟩)) [] (.crash nilDeref) ∧
    Runs (n'.server.serve (.reconfigure ⟨some Scenario.header, "", false, false⟩)) [] (.crash nilDeref) ∧
    Runs (n'.server.serve (.doBackup ⟨none, "", none⟩)) [] (.crash nilDeref) := by
  have hstopped : ∃ es n, Scenario.booted.play
      (Scenario.forming ++ [.call (.stopEtcd ⟨some Scenario.header⟩)]) = some (es, n) ∧
      n.server.serve (.stopEtcd ⟨some Scenario.header⟩) = .crash nilDeref ∧
      n.server.serve (.reconfigure ⟨some Scenario.header, "", false, false⟩) = .crash nilDeref ∧
      n.server.serve (.doBackup ⟨none, "", none⟩) = .crash nilDeref := ⟨_, _, rfl, rfl, rfl, rfl⟩
  obtain ⟨es, n, hplay, hstop, hreconf, hbackup⟩ := hstopped
  refine ⟨_, es, n, Scenario.booted_fresh, Node.play_run hplay, ?_, ?_, ?_⟩
  · exact hstop ▸ .refl
  · exact hreconf ▸ .refl
  · exact hbackup ▸ .refl

end Etcdadm
