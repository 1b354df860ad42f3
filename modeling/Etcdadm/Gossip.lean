/-
The gossip server (`privateapi.Server`): the table of peers with the time
each was last heard of, and the leadership this node last accepted.

Each function is one critical section under the server's mutex. Clock
readings are arguments. `LeaderNotification` takes the mutex twice, first to
merge the bidder's view into the table and then to decide; the two parts are
`addPeersFromView` and `decideNotification`, each with its own reading.

Left out: connections and discovery endpoints, which play no part in health
or leadership.
-/
import Etcdadm.Api
import Etcdadm.GoMap

namespace Etcdadm

/-- `privateapi.peer` -/
structure GossipPeer where
  id : PeerId
  lastInfo : Option PeerInfo
  lastPingTime : Time
  deriving DecidableEq, Repr

/-- `privateapi.leadership` -/
structure Leadership where
  notification : Option LeaderNotificationRequest
  timestamp : Time
  deriving DecidableEq, Repr

/-- `privateapi.Server` -/
structure Server where
  myInfo : PeerInfo
  peers : GoMap GossipPeer
  leadership : Option Leadership
  healthyTimeout : Time

namespace GossipPeer

def new (id : PeerId) : GossipPeer := ⟨id, none, 0⟩

def updatePeerInfo (p : GossipPeer) (now : Time) (info : PeerInfo) : GossipPeer :=
  if info.id ≠ p.id then p else { p with lastInfo := some info, lastPingTime := now }

/-- The peer's info while it is healthy. -/
def status (p : GossipPeer) (healthyTimeout now : Time) : Option PeerInfo :=
  match p.lastInfo with
  | none => none
  | some info => if now - p.lastPingTime > healthyTimeout then none else some info

end GossipPeer

namespace Server

/-- `defaultHealthyTimeout` -/
def defaultHealthyTimeout : Time := minute

/-- `NewServer` -/
def new (myInfo : PeerInfo) : Server := ⟨myInfo, ∅, none, defaultHealthyTimeout⟩

def updateFromPingRequest (s : Server) (now : Time) (info : Option PeerInfo) : Server :=
  match info with
  | none => s
  | some info =>
    if info.id = "" then s
    else
      let existing := (s.peers.lookup info.id).getD (.new info.id)
      { s with peers := s.peers.insert info.id (existing.updatePeerInfo now info) }

/-- A node found by discovery: known, but not heard of. -/
def updateFromDiscovery (s : Server) (id : PeerId) : Server :=
  match s.peers.lookup id with
  | none => { s with peers := s.peers.insert id (.new id) }
  | some _ => s

/-- The answer to one of our pings, which updates the peer we pinged. -/
def updateFromPingResponse (s : Server) (now : Time) (id : PeerId) (info : PeerInfo) : Server :=
  match s.peers.lookup id with
  | none => s
  | some p => { s with peers := s.peers.insert id (p.updatePeerInfo now info) }

/-- One entry of a view: only a peer not known yet is taken over. -/
def addPeer (now : Time) (peers : GoMap GossipPeer) (p : PeerInfo) : GoMap GossipPeer :=
  match peers.lookup p.id with
  | none => peers.insert p.id ((GossipPeer.new p.id).updatePeerInfo now p)
  | some _ => peers

def addPeersFromView (s : Server) (now : Time) (view : View) : Server :=
  { s with peers := view.healthy.foldl (addPeer now) s.peers }

/-- The healthy peers with their infos. -/
def snapshotHealthy (s : Server) (now : Time) : List (PeerId × PeerInfo) :=
  s.peers.pairs.filterMap fun (id, p) => (p.status s.healthyTimeout now).map fun info => (id, info)

/-- `Peers()` -/
def healthyPeers (s : Server) (now : Time) : List PeerInfo := (s.snapshotHealthy now).map Prod.snd

/-- The second critical section of `LeaderNotification`. -/
def decideNotification (s : Server) (now : Time) (request : LeaderNotificationRequest) (view : View) :
    Server × LeaderNotificationResponse :=
  let reject := s.peers.pairs.any fun (id, p) =>
    !view.healthy.any (·.id == id) && (p.status s.healthyTimeout now).isSome
  if reject then
    (s, ⟨false, some ⟨none, "", s.healthyPeers now⟩⟩)
  else
    ({ s with leadership := some ⟨some request, now⟩ }, ⟨true, none⟩)

def leaderNotification (s : Server) (now₁ now₂ : Time) (request : LeaderNotificationRequest) :
    Server × Except Error LeaderNotificationResponse :=
  match request.view with
  | none => (s, .error "View is required")
  | some view =>
    if view.healthy = [] then (s, .error "View.Healthy is required")
    else
      let (s, response) := (s.addPeersFromView now₁ view).decideNotification now₂ request view
      (s, .ok response)

/-- The token of the leadership this node last accepted. -/
def leadershipToken (s : Server) : Option String := do
  let l ← s.leadership
  let n ← l.notification
  let v ← n.view
  return v.leadershipToken

def isLeader (s : Server) (leadershipToken : String) : Bool :=
  match s.leadership with
  | none => false
  | some l =>
    match l.notification with
    | none => false
    | some n =>
      match n.view with
      | none => false
      | some v => v.leadershipToken == leadershipToken

theorem isLeader_iff {s : Server} {token : String} :
    s.isLeader token = true ↔ s.leadershipToken = some token := by
  unfold isLeader leadershipToken
  cases s.leadership with
  | none => simp
  | some l =>
    cases hn : l.notification with
    | none => simp [hn]
    | some n => cases hv : n.view <;> simp [hn, hv]

/-- The two halves of a notification: the table grows, and the leadership is
the bidder's or what it was. -/
theorem leaderNotification_leadershipToken {s s' : Server} {now₁ now₂ : Time}
    {request : LeaderNotificationRequest} {r : Except Error LeaderNotificationResponse}
    (h : s.leaderNotification now₁ now₂ request = (s', r)) :
    s'.leadershipToken = s.leadershipToken ∨
      ∃ view, request.view = some view ∧ s'.leadershipToken = some view.leadershipToken := by
  unfold leaderNotification at h
  split at h
  · simp only [Prod.mk.injEq] at h
    exact .inl (h.1 ▸ rfl)
  next view hview =>
  split at h
  · simp only [Prod.mk.injEq] at h
    exact .inl (h.1 ▸ rfl)
  simp only [decideNotification, Prod.mk.injEq] at h
  split at h
  · exact .inl (h.1 ▸ rfl)
  · exact .inr ⟨view, hview, by rw [← h.1]; simp [leadershipToken, hview]⟩

end Server

end Etcdadm
