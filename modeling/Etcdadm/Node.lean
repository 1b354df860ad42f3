/-
One manager on its machine: the server's fields in memory, the state file
and the etcd processes outside it, and everything that can happen to them,
in any order: calls of the leader, the background loop, gossip, and the
death of the manager at any point of a call, followed by a restart from disk.
-/
import Etcdadm.EtcdServer
import Etcdadm.Monitor

namespace Etcdadm

/-- What outlives a manager. `legacy` is what there is to import of an etcd
from before the manager. `started` records every etcd ever started here and
`writeFailed` that some write of the state file did not go through; nothing
reads these two. -/
structure World where
  file : StateFile
  legacy : Option EtcdState
  clock : Time
  started : List EtcdProcess
  writeFailed : Bool

/-- What reading the state file can give. -/
def StateFile.Reads : StateFile → Except Error (Option EtcdState) → Prop
  | _, .error _ => True
  | .missing, .ok state => state = none
  | .holds st, .ok state => state = some st
  | .garbage, .ok _ => False

/-- The file that reads as `state`. -/
def StateFile.of : Option EtcdState → StateFile
  | none => .missing
  | some st => .holds st

theorem StateFile.reads_ok {f : StateFile} {state : Option EtcdState} : f.Reads (.ok state) ↔ f = .of state := by
  cases f <;> cases state <;> simp [Reads, of, eq_comm]

/-- What a failed write of `st` can leave: nothing was touched, all of it got
there, the file was only truncated, or what is there does not decode. -/
def StateFile.Leaves (old : StateFile) (st : EtcdState) (f : StateFile) : Prop :=
  f = old ∨ f = .holds st ∨ f = .holds .empty ∨ f = .garbage

/-- The machine behind a server's requests: its clock does not go back, the
state file holds what was written last, and the rest may answer anything. -/
def machine : Monitor sysSig World where
  next w r x :=
    match r, x with
    | .now, t => { w with clock := t }
    | .writeState st, .ok () => { w with file := .holds st }
    | .writeState _, .error (_, f) => { w with file := f, writeFailed := true }
    | .start p, .ok () => { w with started := p :: w.started }
    | _, _ => w
  may w r x :=
    match r, x with
    | .now, t => w.clock ≤ t
    | .readState, state => w.file.Reads state
    | .writeState st, .error (_, f) => w.file.Leaves st f
    | .importExistingEtcd, .ok state => state = w.legacy
    | _, _ => True

namespace machine

variable {w : World}

/-- One request of a server program: the rest, from whatever it is answered. -/
theorem wp_sys {α : Type} {r : SysReq} {f : r.Resp → SysM α} {Q : World → α → Prop}
    (h : ∀ x, machine.may w r x → machine.wp (f x) (machine.next w r x) Q) :
    machine.wp (sys r >>= f) w Q := ⟨trivial, h⟩

/-- One request for which some answer is good. -/
theorem can_sys {α : Type} {r : SysReq} {f : r.Resp → SysM α} {Q : World → α → Prop} (x : r.Resp)
    (hx : machine.may w r x) (h : machine.can (f x) (machine.next w r x) Q) : machine.can (sys r >>= f) w Q := ⟨x, hx, h⟩

@[simp] theorem may_readState {x} : machine.may w .readState x ↔ w.file.Reads x := Iff.rfl

/-- A machine on which nothing fails, answering at once. -/
def obliging (w : World) : (r : SysReq) → r.Resp
  | .now => w.clock
  | .bindirForEtcdVersion v _ => .ok ("/opt/etcd-v" ++ v)
  | .readState =>
    match w.file with
    | .missing => .ok none
    | .holds st => .ok (some st)
    | .garbage => .error "error parsing state file"
  | .importExistingEtcd => .ok w.legacy
  | .exitState _ => false
  | .doBackupV3 _ _ _ => .ok ⟨"backup"⟩
  | .writeState _ | .createKeypairs _ _ | .start _ | .stop _ | .mkdirAll _ | .rename _ _ | .newStore _
  | .runEtcdFromBackup _ _ _ | .newClient _ | .copyEtcd => .ok ()

theorem may_obliging (w : World) (r : SysReq) : machine.may w r (obliging w r) := by
  cases r with
  | now => exact Int.le_refl w.clock
  | readState =>
    cases hf : w.file <;> simp [obliging, hf, StateFile.Reads]
  | importExistingEtcd => rfl
  | _ => trivial

end machine

/-! ## Calls -/

inductive Call where
  | joinCluster (request : JoinClusterRequest)
  | reconfigure (request : ReconfigureRequest)
  | stopEtcd (request : StopEtcdRequest)
  | doBackup (request : DoBackupRequest)
  | doRestore (request : DoRestoreRequest)
  | getInfo
  | runOnce

inductive Reply where
  | error (err : Error)
  | ok
  | info (response : GetInfoResponse)
  | backup (response : DoBackupResponse)

def Reply.ofUnit : Except Error Unit → Reply
  | .error err => .error err
  | .ok () => .ok

def Reply.ofBackup : Except Error DoBackupResponse → Reply
  | .error err => .error err
  | .ok response => .backup response

def Reply.ofErr : Option Error → Reply
  | some err => .error err
  | none => .ok

/-- Whom a call is from: the header, for the calls that carry one. -/
def Call.header : Call → Option (Option CommonRequestHeader)
  | .joinCluster request => some request.header
  | .reconfigure request => some request.header
  | .stopEtcd request => some request.header
  | .doBackup request => some request.header
  | .doRestore request => some request.header
  | .getInfo | .runOnce => none

def EtcdServer.serve (s : EtcdServer) : Call → SysM (EtcdServer × Reply)
  | .joinCluster request => do
    let (s, r) ← s.joinCluster request
    return (s, .ofUnit r)
  | .reconfigure request => do
    let (s, r) ← s.reconfigure request
    return (s, .ofUnit r)
  | .stopEtcd request => do
    let (s, r) ← s.stopEtcd request
    return (s, .ofUnit r)
  | .doBackup request => do
    let r ← s.doBackup request
    return (s, .ofBackup r)
  | .doRestore request => do
    let r ← s.doRestore request
    return (s, .ofUnit r)
  | .getInfo => return (s, .info s.getInfo)
  | .runOnce => do
    let (s, err) ← s.runOnce
    return (s, .ofErr err)

/-! ## Runs of a node -/

structure Node where
  server : EtcdServer
  world : World

/-- What a manager knows before it has read its disk. -/
def EtcdServer.config (s : EtcdServer) : EtcdServer :=
  { s with state := none, prepared := none, process := none, peerServer := .new s.peerServer.myInfo }

inductive NodeEvent where
  /-- A call was served: what it asked of the machine, and its reply. -/
  | call (c : Call) (tr : Trace sysSig) (reply : Reply)
  /-- Pings, discovery, leader notifications: the gossip server moves. -/
  | gossip
  /-- The manager came back after it died in a call: of itself, if there is a
  reason, or because it was killed. -/
  | restart (c : Call) (died : Option String) (tr : Trace sysSig)

/-- The call an event is about, served or cut short. -/
def NodeEvent.made : NodeEvent → Option Call
  | .call c _ _ => some c
  | .restart c _ _ => some c
  | .gossip => none

/-- A manager comes up on a machine, at once or after failing or dying while
it starts. -/
inductive Boots (s : EtcdServer) : World → Trace sysSig → Node → Prop
  | up {w tr s'} : Runs s.config.newEtcdServer tr (.ret (.ok s')) → machine.Admits w tr →
      Boots s w tr ⟨s', machine.after w tr⟩
  | again {w tr p tr' n} : Runs s.config.newEtcdServer tr p → machine.Admits w tr →
      Boots s (machine.after w tr) tr' n → Boots s w (tr ++ tr') n

inductive Node.Step : Node → NodeEvent → Node → Prop
  | call {n : Node} {c tr s' reply} : Runs (n.server.serve c) tr (.ret (s', reply)) →
      machine.Admits n.world tr → Step n (.call c tr reply) ⟨s', machine.after n.world tr⟩
  | gossip {n : Node} (peerServer : Server) :
      Step n .gossip ⟨{ n.server with peerServer := peerServer }, n.world⟩
  | restart {n n' : Node} {c tr p tr'} : Runs (n.server.serve c) tr p → machine.Admits n.world tr →
      Boots n.server (machine.after n.world tr) tr' n' → Step n (.restart c p.died (tr ++ tr')) n'

/-- A run of a node, its events oldest first. -/
inductive Node.Run : Node → List NodeEvent → Node → Prop
  | nil {n : Node} : Run n [] n
  | snoc {n n' n'' : Node} {es e} : Run n es n' → Step n' e n'' → Run n (es ++ [e]) n''

/-- A node right after its manager came up, on a machine where no manager
ran before or where one left its file. -/
def Node.Fresh (n : Node) : Prop := ∃ s w tr, Boots s w tr n

/-! ## Playing a scenario on a machine that obliges -/

inductive Stimulus where
  | call (c : Call)
  | gossip (f : Server → Server)

/-- What comes of one stimulus; nothing if the manager dies of it. -/
def Node.feed (n : Node) : Stimulus → Option (NodeEvent × Node)
  | .call c =>
    match machine.play machine.obliging (n.server.serve c) n.world with
    | (tr, .ret (s, reply)) => some (.call c tr reply, ⟨s, machine.after n.world tr⟩)
    | _ => none
  | .gossip f => some (.gossip, ⟨{ n.server with peerServer := f n.server.peerServer }, n.world⟩)

def Node.play : Node → List Stimulus → Option (List NodeEvent × Node)
  | n, [] => some ([], n)
  | n, x :: xs => do
    let (e, n) ← n.feed x
    let (es, n) ← n.play xs
    return (e :: es, n)

def Node.boot (s : EtcdServer) (w : World) : Option Node :=
  match machine.play machine.obliging s.config.newEtcdServer w with
  | (tr, .ret (.ok s)) => some ⟨s, machine.after w tr⟩
  | _ => none

theorem Node.feed_step {n n' : Node} {x : Stimulus} {e : NodeEvent} (h : n.feed x = some (e, n')) :
    n.Step e n' := by
  cases x with
  | gossip f =>
    cases h
    exact .gossip _
  | call c =>
    simp only [feed] at h
    split at h
    next tr s reply hp =>
      cases h
      have hr := Monitor.play_runs (M := machine) (o := machine.obliging) (p := n.server.serve c) (s := n.world)
      have ha := Monitor.play_admits machine.may_obliging (p := n.server.serve c) (s := n.world)
      rw [hp] at hr ha
      exact .call hr ha
    next => cases h

theorem Node.Run.cons {n n' n'' : Node} {e : NodeEvent} {es : List NodeEvent} (hs : n.Step e n')
    (hr : n'.Run es n'') : n.Run (e :: es) n'' := by
  induction hr with
  | nil => exact .snoc .nil hs
  | snoc _ hs' ih => exact .snoc ih hs'

theorem Node.Run.append {n n' n'' : Node} {es es' : List NodeEvent} (h : n.Run es n') (h' : n'.Run es' n'') :
    n.Run (es ++ es') n'' := by
  induction h' with
  | nil => rwa [List.append_nil]
  | snoc _ hs ih =>
    rw [← List.append_assoc]
    exact .snoc ih hs

theorem Node.play_run : ∀ {n n' : Node} {xs : List Stimulus} {es : List NodeEvent},
    n.play xs = some (es, n') → n.Run es n'
  | n, _, [], _, h => by
    cases h
    exact .nil
  | n, n', x :: xs, es, h => by
    simp only [play, Option.bind_eq_bind, Option.bind_eq_some_iff] at h
    obtain ⟨⟨e, n₁⟩, hx, ⟨es', n₂⟩, hxs, h⟩ := h
    cases h
    exact .cons (feed_step hx) (play_run hxs)

theorem Node.boot_fresh {s : EtcdServer} {w : World} {n : Node} (h : Node.boot s w = some n) : n.Fresh := by
  unfold boot at h
  split at h
  next tr s' hp =>
    cases h
    have hr := Monitor.play_runs (M := machine) (o := machine.obliging) (p := s.config.newEtcdServer) (s := w)
    have ha := Monitor.play_admits machine.may_obliging (p := s.config.newEtcdServer) (s := w)
    rw [hp] at hr ha
    exact ⟨s, w, tr, .up hr ha⟩
  next => cases h

/-! ## A scenario -/

namespace Scenario

/-- The only node of a cluster of one. -/
def self : EtcdNode := ⟨"a", ["http://a:2380"], ["http://a:4001"], ["http://a:3994"], false⟩

def server : EtcdServer :=
  { baseDir := "/rootfs", clusterName := "main", etcdNodeConfiguration := self, peerServer := .new ⟨"a", []⟩
    state := none, prepared := none, process := none, listenAddress := "0.0.0.0", listenMetricsURLs := [] }

/-- Its manager, come up on a new machine. -/
def booted : Node := ⟨server, ⟨.missing, none, 0, [], false⟩⟩

theorem booted_fresh : booted.Fresh := Node.boot_fresh (s := server) (w := booted.world) rfl

/-- The leadership round of a leader with this token. -/
def elect (token : String) : Stimulus :=
  .gossip fun s => (s.leaderNotification 0 0 ⟨some ⟨some ⟨"a", []⟩, token, [⟨"a", []⟩]⟩⟩).1

def header : CommonRequestHeader := ⟨"token", "main"⟩

def join (phase : Phase) : Call := .joinCluster ⟨some header, phase, "cluster", [self], "3.4.13"⟩

/-- How a cluster is formed. -/
def forming : List Stimulus := [elect "token", .call (join .prepare), .call (join .initialCluster)]

theorem formed : ∃ es n, booted.play forming = some (es, n) ∧ n.world.writeFailed = false ∧
    n.server.process.isSome = true := ⟨_, _, rfl, rfl, rfl⟩

end Scenario

end Etcdadm
