/-
The managers of a cluster together: their machines, the marker in the control
store, and the controllers that make requests of them.

A request of a controller is answered here by the manager it goes to. The
handler runs, if at all, before the answer; but the answer can be lost, and the
manager can die in the handler. Tokens are drawn afresh, and the marker of a
created cluster is never taken away. What a controller asks of
anyone else (etcd, the rest of the store, its own gossip table) may be answered
in any way.

Of a node, the results about fleets need two things: what is true of every
state it was ever told to install is true of whatever it has (`Node.Holds`),
and its leadership changes only with a notification or a restart.
-/
import Etcdadm.ControllerFacts
import Etcdadm.Election
import Etcdadm.Interplay
import Etcdadm.NodeMoves
import Etcdadm.Sight

namespace Etcdadm

open EtcdServer Monitor

/-! ## What a node has -/

/-- A property of the states of a node, in memory, on disk and yet to be
imported, and one of every etcd it ever started. -/
structure Node.Holds (P : EtcdState → Prop) (R : EtcdProcess → Prop) (n : Node) : Prop where
  state : ∀ st, n.server.state = some st → P st
  file : ∀ st, n.world.file = .holds st → P st
  legacy : ∀ st, n.world.legacy = some st → P st
  started : ∀ p ∈ n.world.started, R p

/-- The property does not get lost where a node writes of its own, and an etcd
started from such a state has the other. -/
structure Lasting (P : EtcdState → Prop) (R : EtcdProcess → Prop) : Prop where
  empty : P .empty
  settled : ∀ st, P st → P { st with newCluster := false }
  started : ∀ (s : EtcdServer) st cluster me binDir, P st → st.cluster = some cluster →
    R (s.processFor st cluster me binDir)

/-- No etcd was ever configured or run here. -/
structure Node.Blank (n : Node) : Prop where
  state : n.server.state = none
  file : n.world.file = .missing
  legacy : n.world.legacy = none
  started : n.world.started = []

namespace Node.Holds

variable {P P' : EtcdState → Prop} {R : EtcdProcess → Prop} {n n' : Node} {k : Cause} {e : NodeEvent} {c : Call}

theorem of_blank (h : n.Blank) : n.Holds P R where
  state st hst := by simp [h.state] at hst
  file st hst := by simp [h.file] at hst
  legacy st hst := by simp [h.legacy] at hst
  started p hp := by simp [h.started] at hp

theorem mono (hP : ∀ st, P st → P' st) (h : n.Holds P R) : n.Holds P' R :=
  ⟨fun st hst => hP st (h.state st hst), fun st hst => hP st (h.file st hst), fun st hst => hP st (h.legacy st hst),
    h.started⟩

theorem peerServer (h : n.Holds P R) (s : Server) : Node.Holds P R ⟨{ n.server with peerServer := s }, n.world⟩ :=
  ⟨h.state, h.file, h.legacy, h.started⟩

/-- The memory of a manager that died is empty. -/
theorem config (h : n.Holds P R) (s : EtcdServer) : Node.Holds P R ⟨s.config, n.world⟩ :=
  ⟨nofun, h.file, h.legacy, h.started⟩

/-- A state is installed, and the write goes through or leaves some file. -/
theorem installed {st : EtcdState} {f : StateFile} {failed : Bool} (hP : Lasting P R) (h : n.Holds P R) (hst : P st)
    (hf : n.world.file.Leaves st f) :
    Node.Holds P R ⟨{ n.server with state := some st }, { n.world with file := f, writeFailed := failed }⟩ := by
  refine ⟨?_, ?_, h.legacy, h.started⟩
  · rintro _ ⟨⟩
    exact hst
  · intro st' hst'
    rcases hf with rfl | rfl | rfl | rfl
    · exact h.file st' hst'
    · cases hst'
      exact hst
    · cases hst'
      exact hP.empty
    · cases hst'

theorem move (hP : Lasting P R) (hm : Move k n n') (hinst : ∀ st, k.Installs n st → P st) (h : n.Holds P R) :
    n'.Holds P R := by
  cases hm with
  | clock _ => exact ⟨h.state, h.file, h.legacy, h.started⟩
  | prepared _ _ => exact ⟨h.state, h.file, h.legacy, h.started⟩
  | forget => exact ⟨h.state, h.file, h.legacy, h.started⟩
  | read _ hx =>
    refine ⟨?_, h.file, h.legacy, h.started⟩
    rintro st ⟨⟩
    exact h.file st (StateFile.reads_ok.1 hx)
  | start _ hst hcl _ _ =>
    refine ⟨h.state, h.file, h.legacy, List.forall_mem_cons.2 ⟨?_, h.started⟩⟩
    exact hP.started _ _ _ _ _ (h.state _ hst) hcl
  | install _ hi => exact h.installed hP (hinst _ hi) (.inr (.inl rfl))
  | installFailed _ hi hf => exact h.installed hP (hinst _ hi) hf
  | settle _ hst => exact h.installed hP (hP.settled _ (h.state _ hst)) (.inr (.inl rfl))
  | settleFailed _ hst hf => exact h.installed hP (hP.settled _ (h.state _ hst)) hf

end Node.Holds

theorem Move.peerServer {k : Cause} {n n' : Node} (hm : Move k n n') :
    n'.server.peerServer = n.server.peerServer := by
  cases hm <;> rfl

section Steps

variable {P : EtcdState → Prop} {R : EtcdProcess → Prop} {n n' : Node} {e : NodeEvent} {c : Call}

/-- **What is true of every state a call installs is true of the node after
it**, whether the call was served or the manager died of it. -/
theorem Node.Holds.step (hP : Lasting P R) (he : e.made = some c) (hs : n.Step e n')
    (hinst : ∀ n₁ st, n₁.Holds P R → n₁.server.peerServer = n.server.peerServer → (Cause.call c).Installs n₁ st → P st)
    (h : n.Holds P R) : n'.Holds P R := by
  have hmove {n₁ n₂ : Node} (hm : Move (.call c) n₁ n₂)
      (hi : n₁.Holds P R ∧ n₁.server.peerServer = n.server.peerServer) :
      n₂.Holds P R ∧ n₂.server.peerServer = n.server.peerServer :=
    ⟨hi.1.move hP hm fun st => hinst n₁ st hi.1 hi.2, hm.peerServer.trans hi.2⟩
  cases hs with
  | call hr ha =>
    cases he
    exact (Chain.invariant (I := fun n₁ => n₁.Holds P R ∧ _) hmove (serve_chain hr ha) ⟨h, rfl⟩).1
  | gossip _ => cases he
  | restart hr ha hb =>
    cases he
    obtain ⟨s', hc⟩ := serve_prefix_chain hr ha
    have hdied := (Chain.invariant (I := fun n₁ => n₁.Holds P R ∧ _) hmove hc ⟨h, rfl⟩).1
    refine hb.invariant (I := Node.Holds P R) ?_ (fun h => h.config _) (hdied.config _)
    exact fun hm h => h.move hP hm fun st hi => h.legacy st hi.2

/-- A manager that has come up knows of no leader. -/
theorem Boots.leadershipToken {s : EtcdServer} {w : World} {tr : Trace sysSig} (h : Boots s w tr n) :
    n.server.peerServer.leadershipToken = none :=
  h.invariant (I := fun n => n.server.peerServer.leadershipToken = none)
    (fun hm hi => (congrArg Server.leadershipToken hm.peerServer).trans hi) (fun _ => rfl) rfl

/-- No call changes who leads, but a manager that dies forgets it. -/
theorem Node.Step.leadershipToken (he : e.made = some c) (hs : n.Step e n') :
    n'.server.peerServer.leadershipToken = n.server.peerServer.leadershipToken ∨
      n'.server.peerServer.leadershipToken = none := by
  cases hs with
  | call hr ha =>
    refine .inl (congrArg Server.leadershipToken ?_)
    exact Chain.invariant (I := fun n₁ => n₁.server.peerServer = n.server.peerServer)
      (fun hm hi => hm.peerServer.trans hi) (serve_chain hr ha) rfl
  | gossip _ => cases he
  | restart _ _ hb => exact .inr hb.leadershipToken

end Steps

/-! ## What the managers share -/

/-- The managers by peer id, whether the control store says that a cluster was
created, and the tokens drawn so far, of leaderships and of clusters. -/
structure Realm where
  node : PeerId → Node
  created : Bool
  drawn : List String

def Realm.set (g : Realm) (peer : PeerId) (n : Node) : Realm := { g with node := Function.update g.node peer n }

/-- The manager a request goes to, and the call it is there. -/
def CtlReq.call : CtlReq → Option (PeerId × Call)
  | .getInfo peer => some (peer, .getInfo)
  | .stopEtcd peer request => some (peer, .stopEtcd request)
  | .joinCluster peer request => some (peer, .joinCluster request)
  | .reconfigure peer request => some (peer, .reconfigure request)
  | .doBackup peer request => some (peer, .doBackup request)
  | .doRestore peer request => some (peer, .doRestore request)
  | _ => none

/-- What the caller makes of a reply. -/
def CtlReq.Hears : (r : CtlReq) → Reply → r.Resp → Prop
  | .getInfo _, reply, x => ∃ response, reply = .info response ∧ x = .ok response
  | .doBackup _ _, reply, x => reply = .ofBackup x
  | .stopEtcd _ _, reply, x => reply = .ofUnit x
  | .joinCluster _ _, reply, x => reply = .ofUnit x
  | .reconfigure _ _, reply, x => reply = .ofUnit x
  | .doRestore _ _, reply, x => reply = .ofUnit x
  | _, _, _ => False

/-- The answer of a call that failed. -/
def CtlReq.Failed : (r : CtlReq) → r.Resp → Prop
  | .getInfo _, x => ∃ err, x = .error err
  | .doBackup _ _, x => ∃ err, x = .error err
  | .stopEtcd _ _, x => ∃ err, x = .error err
  | .joinCluster _ _, x => ∃ err, x = .error err
  | .reconfigure _ _, x => ∃ err, x = .error err
  | .doRestore _ _, x => ∃ err, x = .error err
  | _, _ => False

/-- The request is to no manager, draws no token and has nothing to do with the
marker. -/
def CtlReq.elsewhere : CtlReq → Bool
  | .leaderNotification _ _ | .leadershipToken | .clusterToken | .isNewCluster | .markClusterCreated => false
  | r => r.call.isNone

/-- The manager as its gossip server has become this. -/
def Node.gossiping (n : Node) (peerServer : Server) : Node := ⟨{ n.server with peerServer := peerServer }, n.world⟩

inductive Realm.Answers (g : Realm) : (r : CtlReq) → r.Resp → Realm → Prop
  | served {r peer c tr reply n x} : r.call = some (peer, c) → (g.node peer).Step (.call c tr reply) n →
      r.Hears reply x → Answers g r x (g.set peer n)
  /-- The call does not arrive. -/
  | lost {r peer c x} : r.call = some (peer, c) → r.Failed x → Answers g r x g
  /-- It does, but no reply comes back. -/
  | cut {r peer c e n x} : r.call = some (peer, c) → (g.node peer).Step e n → e.made = some c →
      r.Failed x → Answers g r x (g.set peer n)
  | notified {peer request now₁ now₂ s answer x} :
      (g.node peer).server.peerServer.leaderNotification now₁ now₂ request = (s, answer) →
      x = answer ∨ (∃ err, x = .error err) →
      Answers g (.leaderNotification peer request) x (g.set peer ((g.node peer).gossiping s))
  | unnotified {peer request err} : Answers g (.leaderNotification peer request) (.error err) g
  | drawn {token} : token ∉ g.drawn → Answers g .leadershipToken token { g with drawn := token :: g.drawn }
  | named {token} : token ∉ g.drawn → Answers g .clusterToken token { g with drawn := token :: g.drawn }
  | read : Answers g .isNewCluster (.ok !g.created) g
  | readFailed {err} : Answers g .isNewCluster (.error err) g
  | marked : Answers g .markClusterCreated (.ok ()) { g with created := true }
  /-- The marker may have been written all the same. -/
  | markFailed {err created} : (g.created = true → created = true) →
      Answers g .markClusterCreated (.error err) { g with created := created }
  | elsewhere {r x} : r.elsewhere = true → Answers g r x g

/-- What happens without a controller: the background loop of a manager, its
death, and gossip about who is there. -/
inductive Realm.Drifts (g : Realm) : Realm → Prop
  | loop {peer e n} : (g.node peer).Step e n → e.made = some .runOnce → Drifts g (g.set peer n)
  | gossip {peer} (e : GossipEvent) : (∀ now request, e ≠ .decided now request) →
      Drifts g (g.set peer ((g.node peer).gossiping ((g.node peer).server.peerServer.handle e)))

/-! ## What a step does to a node -/

/-- A node after a step: it is as it was, it was called, or its gossip server
was. -/
inductive Node.Met (n : Node) (called : Call → Prop) (heard : LeaderNotificationRequest → Prop) : Node → Prop
  | alone : Met n called heard n
  | called {c e n'} : called c → e.made = some c → n.Step e n' → Met n called heard n'
  | notified {request now₁ now₂ s answer} : heard request →
      n.server.peerServer.leaderNotification now₁ now₂ request = (s, answer) → Met n called heard (n.gossiping s)
  | gossip {s} : s.leadershipToken = n.server.peerServer.leadershipToken → Met n called heard (n.gossiping s)

section Met

variable {g g' : Realm}

theorem Node.Holds.met {P : EtcdState → Prop} {R : EtcdProcess → Prop} {n n' : Node} {called : Call → Prop}
    {heard : LeaderNotificationRequest → Prop} (hP : Lasting P R)
    (hinst : ∀ c n₁ st, called c → n₁.Holds P R → n₁.server.peerServer = n.server.peerServer →
      (Cause.call c).Installs n₁ st → P st)
    (h : n.Holds P R) (hm : n.Met called heard n') : n'.Holds P R := by
  cases hm with
  | alone => exact h
  | called hc he hs => exact h.step hP he hs fun n₁ st => hinst _ n₁ st hc
  | notified _ _ => exact h.peerServer _
  | gossip _ => exact h.peerServer _

/-- What relates every node to itself, and one to its successor, relates the
nodes before and after. -/
theorem Realm.node_set {Q : PeerId → Node → Prop} {peer : PeerId} {n : Node} (hset : Q peer n)
    (hrest : ∀ p, Q p (g.node p)) : ∀ p, Q p ((g.set peer n).node p) :=
  (Function.forall_update_iff g.node Q).2 ⟨hset, fun p _ => hrest p⟩

theorem Realm.Answers.met {r : CtlReq} {x : r.Resp} (h : g.Answers r x g') (peer : PeerId) :
    (g.node peer).Met (fun c => r.call = some (peer, c)) (fun request => r = .leaderNotification peer request)
      (g'.node peer) := by
  let Q (p : PeerId) (n : Node) : Prop :=
    (g.node p).Met (fun c => r.call = some (p, c)) (fun request => r = .leaderNotification p request) n
  have halone (p : PeerId) : Q p (g.node p) := .alone
  cases h with
  | served hc hs _ => exact Realm.node_set (Q := Q) (.called hc rfl hs) halone peer
  | cut hc hs he _ => exact Realm.node_set (Q := Q) (.called hc he hs) halone peer
  | notified hn _ => exact Realm.node_set (Q := Q) (.notified rfl hn) halone peer
  | _ => exact .alone

theorem Realm.Drifts.met (h : g.Drifts g') (peer : PeerId) :
    (g.node peer).Met (· = .runOnce) (fun _ => False) (g'.node peer) := by
  let Q (p : PeerId) (n : Node) : Prop := (g.node p).Met (· = .runOnce) (fun _ => False) n
  have halone (p : PeerId) : Q p (g.node p) := .alone
  cases h with
  | loop hs he => exact Realm.node_set (Q := Q) (.called rfl he hs) halone peer
  | gossip e he =>
    refine Realm.node_set (Q := Q) (.gossip ?_) halone peer
    rw [Server.leadershipToken, Server.handle_leadership _ e he, Server.leadershipToken]

end Met

/-! ## Playing a run in which nothing fails -/

/-- A manager that has come up on a new machine. -/
def Realm.manager (id : PeerId) : Node :=
  { server :=
      { baseDir := "/rootfs", clusterName := "name", peerServer := .new ⟨id, []⟩, state := none, prepared := none
        etcdNodeConfiguration := ⟨id, ["http://" ++ id], ["http://" ++ id], ["http://" ++ id ++ ":3994"], false⟩
        process := none, listenAddress := "0.0.0.0", listenMetricsURLs := [] }
    world := ⟨.missing, none, 0, [], false⟩ }

/-- A call to a manager on a machine that obliges, and its reply. -/
def Realm.serve (g : Realm) (peer : PeerId) (c : Call) : Option (Reply × Realm) :=
  match (g.node peer).feed (.call c) with
  | some (.call _ _ reply, n) => some (reply, g.set peer n)
  | _ => none

/-- A call whose reply only says whether it worked. -/
def Realm.execute (g : Realm) (peer : PeerId) (c : Call) : Option (Except Error Unit × Realm) :=
  match g.serve peer c with
  | some (.error err, g) => some (.error err, g)
  | some (.ok, g) => some (.ok (), g)
  | _ => none

/-- The first token that was not drawn yet, by its number. -/
def Realm.fresh (g : Realm) : String := s!"token {g.drawn.length}"

/-- How the managers and the marker answer at some time. Backups and restores are not played. -/
def Realm.attend (g : Realm) (clock : Time) : (r : CtlReq) → Option (r.Resp × Realm)
  | .getInfo peer =>
    match g.serve peer .getInfo with
    | some (.info response, g) => some (.ok response, g)
    | _ => none
  | .stopEtcd peer request => g.execute peer (.stopEtcd request)
  | .joinCluster peer request => g.execute peer (.joinCluster request)
  | .reconfigure peer request => g.execute peer (.reconfigure request)
  | .leaderNotification peer request =>
    let (s, answer) := (g.node peer).server.peerServer.leaderNotification clock clock request
    some (answer, g.set peer ((g.node peer).gossiping s))
  | .leadershipToken | .clusterToken =>
    if g.fresh ∈ g.drawn then none else some (g.fresh, { g with drawn := g.fresh :: g.drawn })
  | .isNewCluster => some (.ok !g.created, g)
  | .markClusterCreated => some (.ok (), { g with created := true })
  | _ => none

/-- What is asked of anyone else is answered as at the site. -/
def Realm.answer (g : Realm) (site : Site) (r : CtlReq) : Option (r.Resp × Realm) :=
  if r.elsewhere then (site.answer r).map fun x => (x, g) else g.attend site.clock r

/-- A party makes so many requests at a site, or goes on with its next program. -/
inductive Turn (ι : Type) where
  | go (i : ι) (site : Site) (requests : Nat)
  | next (i : ι)

section Play

variable {α ι : Type} [DecidableEq ι] {g g' : Realm} {site : Site}

def Realm.advance (site : Site) : Nat → Realm → Party ctlSig α → Option (Realm × Party ctlSig α)
  | 0, g, p => some (g, p)
  | n + 1, g, ⟨.call r k, past⟩ => do
    let (x, g) ← g.answer site r
    advance site n g ⟨k x, past ++ [⟨r, x⟩]⟩
  | _ + 1, _, _ => none

def Scene.play (next : Prog ctlSig α → Option (Prog ctlSig α)) : Scene ctlSig α Realm ι → List (Turn ι) →
    Option (Scene ctlSig α Realm ι)
  | c, [] => some c
  | c, .go i site n :: turns => do
    let (g, p) ← Realm.advance site n c.shared (c.parties i)
    play next ⟨g, Function.update c.parties i p⟩ turns
  | c, .next i :: turns => do
    let p ← next (c.parties i).program
    play next ⟨c.shared, Function.update c.parties i ⟨p, []⟩⟩ turns

theorem Realm.serve_served {peer : PeerId} {c : Call} {r : CtlReq} {x : r.Resp} {reply : Reply}
    (h : g.serve peer c = some (reply, g')) (hc : r.call = some (peer, c)) (hx : r.Hears reply x) : g.Answers r x g' := by
  unfold Realm.serve at h
  split at h
  next c' tr reply' n hfeed =>
    cases h
    have hs := Node.feed_step hfeed
    have hmade : c' = c := by
      simp only [Node.feed] at hfeed
      split at hfeed
      · cases hfeed
        rfl
      · cases hfeed
    subst hmade
    exact .served hc hs hx
  next => cases h

theorem Realm.execute_served {peer : PeerId} {c : Call} {x : Except Error Unit}
    (h : g.execute peer c = some (x, g')) : g.serve peer c = some (.ofUnit x, g') := by
  unfold Realm.execute at h
  split at h
  next err g₁ hserve =>
    cases h
    exact hserve
  next g₁ hserve =>
    cases h
    exact hserve
  next => cases h

theorem Realm.answer_answers {r : CtlReq} {x : r.Resp} (h : g.answer site r = some (x, g')) : g.Answers r x g' := by
  unfold Realm.answer at h
  split at h
  next helse =>
    obtain ⟨x', -, heq⟩ := Option.map_eq_some_iff.1 h
    cases heq
    exact .elsewhere helse
  next =>
    cases r with
    | getInfo peer =>
      simp only [Realm.attend] at h
      split at h
      next response g₁ hserve =>
        cases h
        exact Realm.serve_served hserve rfl ⟨response, rfl, rfl⟩
      next => cases h
    | stopEtcd peer request => exact Realm.serve_served (Realm.execute_served h) rfl rfl
    | joinCluster peer request => exact Realm.serve_served (Realm.execute_served h) rfl rfl
    | reconfigure peer request => exact Realm.serve_served (Realm.execute_served h) rfl rfl
    | leaderNotification peer request =>
      cases h
      exact .notified rfl (.inl rfl)
    | leadershipToken =>
      simp only [Realm.attend] at h
      split at h
      next => cases h
      next hfresh =>
        cases h
        exact .drawn hfresh
    | clusterToken =>
      simp only [Realm.attend] at h
      split at h
      next => cases h
      next hfresh =>
        cases h
        exact .named hfresh
    | isNewCluster =>
      cases h
      exact .read
    | markClusterCreated =>
      cases h
      exact .marked
    | _ => cases h

theorem Realm.advance_reaches {P : Interplay ctlSig α Realm} (hP : P.answers = Realm.Answers) : ∀ (n : Nat)
    {c : Scene ctlSig α Realm ι} {i : ι} {p : Party ctlSig α}, Realm.advance site n c.shared (c.parties i) = some (g, p) →
      P.Reaches c ⟨g, Function.update c.parties i p⟩
  | 0, c, i, p, h => by
    cases h
    rw [Function.update_eq_self]
  | n + 1, c, i, p, h => by
    cases hi : c.parties i with
    | mk program past =>
      rw [hi] at h
      cases program with
      | ret | crash => cases h
      | call r k =>
        obtain ⟨⟨x, g₁⟩, hanswer, hrest⟩ := Option.bind_eq_some_iff.1 h
        let c₁ : Scene ctlSig α Realm ι := ⟨g₁, Function.update c.parties i ⟨k x, past ++ [⟨r, x⟩]⟩⟩
        have hstep : P.Step c c₁ := by
          have := Interplay.Step.answer (P := P) (c := c) (i := i) (by rw [hi]) (hP ▸ Realm.answer_answers hanswer)
          rwa [hi] at this
        have hrest' : Realm.advance site n c₁.shared (c₁.parties i) = some (g, p) := by
          simpa only [c₁, Function.update_self] using hrest
        have := advance_reaches hP n hrest'
        simp only [c₁, Function.update_idem] at this
        exact .head hstep this

theorem Scene.play_reaches {P : Interplay ctlSig α Realm} (hP : P.answers = Realm.Answers)
    {next : Prog ctlSig α → Option (Prog ctlSig α)} (hnext : ∀ p p', next p = some p' → P.resumes p p') :
    ∀ (turns : List (Turn ι)) {c c' : Scene ctlSig α Realm ι}, c.play next turns = some c' → P.Reaches c c'
  | [], c, c', h => by
    cases h
    exact .refl
  | .go i site n :: turns, c, c', h => by
    obtain ⟨⟨g, p⟩, hadvance, hrest⟩ := Option.bind_eq_some_iff.1 h
    exact (Realm.advance_reaches hP n hadvance).trans (play_reaches hP hnext turns hrest)
  | .next i :: turns, c, c', h => by
    obtain ⟨p, hp, hrest⟩ := Option.bind_eq_some_iff.1 h
    exact .head (.resume (hnext _ _ hp)) (play_reaches hP hnext turns hrest)

end Play

end Etcdadm
