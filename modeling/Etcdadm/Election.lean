/-
Which bids for leadership a peer accepts.

A controller bids when it has the lowest id of the peers it hears of, and any
peer is to refuse a bid if it knows of a lower id. What a peer looks at is not
the ids, though, but whether the bidder knows everyone it knows itself: a bid is
refused if and only if some peer that the receiver considers healthy is missing
from the view that comes with it. So a bid over a lower id goes through if the
bidder has heard of the lower id too. It can have: the view is taken after the
controller has looked who is lowest.

The gossip server takes its mutex for each step, so at a decision it can be in
any state that pings, discovery and the merging of views lead to.
-/
import Etcdadm.Gossip
import Etcdadm.Sight

namespace Etcdadm

namespace Server

/-! ## One decision -/

/-- The peer is in the table, and was heard of in time. -/
def Healthy (s : Server) (now : Time) (id : PeerId) : Prop :=
  ∃ p, s.peers.lookup id = some p ∧ (p.status s.healthyTimeout now).isSome = true

/-- Some healthy peer has a lower id than this one. -/
def SeesLower (s : Server) (now : Time) (id : PeerId) : Prop := ∃ lower, s.Healthy now lower ∧ lower < id

/-- Every healthy peer is in the view. -/
def Covered (s : Server) (now : Time) (view : View) : Prop :=
  ∀ id, s.Healthy now id → ∃ p ∈ view.healthy, p.id = id

variable {s : Server} {now : Time} {request : LeaderNotificationRequest} {view : View}

/-- A decision looks at nothing but the view. -/
theorem decideNotification_cases (s : Server) (now : Time) (request : LeaderNotificationRequest) (view : View) :
    s.Covered now view ∧ s.decideNotification now request view =
      ({ s with leadership := some ⟨some request, now⟩ }, ⟨true, none⟩) ∨
    ¬ s.Covered now view ∧ (s.decideNotification now request view).1 = s ∧
      (s.decideNotification now request view).2.accepted = false := by
  have hreject : (s.peers.pairs.any fun e =>
      !view.healthy.any (·.id == e.1) && (e.2.status s.healthyTimeout now).isSome) = true ↔ ¬ s.Covered now view := by
    constructor
    · intro hany hcovered
      obtain ⟨⟨id, p⟩, hmem, hp⟩ := List.any_eq_true.1 hany
      rw [Bool.and_eq_true, Bool.not_eq_true'] at hp
      obtain ⟨q, hq, hid⟩ := hcovered id ⟨p, GoMap.mem_pairs.1 hmem, hp.2⟩
      have hfound : view.healthy.any (·.id == id) = true := List.any_eq_true.2 ⟨q, hq, beq_iff_eq.2 hid⟩
      rw [hp.1] at hfound
      cases hfound
    · intro hcovered
      rw [Covered] at hcovered
      push Not at hcovered
      obtain ⟨id, ⟨p, hp, hhealthy⟩, hmissing⟩ := hcovered
      refine List.any_eq_true.2 ⟨(id, p), GoMap.mem_pairs.2 hp, ?_⟩
      rw [Bool.and_eq_true, Bool.not_eq_true']
      refine ⟨List.any_eq_false.2 fun q hq => ?_, hhealthy⟩
      rw [beq_iff_eq]
      exact hmissing q hq
  unfold decideNotification
  dsimp only
  split
  next h => exact .inr ⟨hreject.1 h, rfl, rfl⟩
  next h => exact .inl ⟨not_not.1 fun hno => h (hreject.2 hno), rfl⟩

/-- The bid is for a leader over whom the receiver sees a lower id, and the
bidder has seen everyone the receiver sees. -/
def Overreaches (s : Server) (now : Time) (view : View) : Prop :=
  ∃ leader, view.leader = some leader ∧ s.SeesLower now leader.id ∧ s.Covered now view

/-! ## Everything that happens to a gossip server -/

end Server

inductive GossipEvent where
  | ping (now : Time) (info : Option PeerInfo)
  /-- An answer to a ping of ours. -/
  | pong (now : Time) (id : PeerId) (info : PeerInfo)
  | discovered (id : PeerId)
  /-- The peers of a view are taken over: of a notification that has come in, or
  of the answer to one of ours. -/
  | merged (now : Time) (view : View)
  /-- The decision about a notification. -/
  | decided (now : Time) (request : LeaderNotificationRequest)

namespace Server

def handle (s : Server) : GossipEvent → Server
  | .ping now info => s.updateFromPingRequest now info
  | .pong now id info => s.updateFromPingResponse now id info
  | .discovered id => s.updateFromDiscovery id
  | .merged now view => s.addPeersFromView now view
  | .decided now request =>
    match request.view with
    | none => s
    | some view => (s.decideNotification now request view).1

/-- The server after some events, in the order they came. -/
def run (s : Server) (es : List GossipEvent) : Server := es.foldl handle s

theorem run_snoc {s : Server} {es : List GossipEvent} {e : GossipEvent} : s.run (es ++ [e]) = (s.run es).handle e := by
  simp [run]

/-- A notification is two of these events; others may come in between. -/
theorem leaderNotification_eq_run {s : Server} {now₁ now₂ : Time} {request : LeaderNotificationRequest} {view : View}
    (hview : request.view = some view) (hne : view.healthy ≠ []) :
    s.leaderNotification now₁ now₂ request = (s.run [.merged now₁ view, .decided now₂ request],
      .ok ((s.run [.merged now₁ view]).decideNotification now₂ request view).2) := by
  simp only [leaderNotification, hview, if_neg hne, run, List.foldl_cons, List.foldl_nil, handle]

/-- Apart from decisions, nothing touches the leadership. -/
theorem handle_leadership (s : Server) (e : GossipEvent) (he : ∀ now request, e ≠ .decided now request) :
    (s.handle e).leadership = s.leadership := by
  cases e with
  | decided now request => exact (he now request rfl).elim
  | ping now info =>
    simp only [handle, updateFromPingRequest]
    split
    · rfl
    · split <;> rfl
  | pong now id info =>
    simp only [handle, updateFromPingResponse]
    split <;> rfl
  | discovered id =>
    simp only [handle, updateFromDiscovery]
    split <;> rfl
  | merged now view => rfl

/-- The current leadership is that of an accepted bid: one whose view had
everyone who was healthy when it was decided. -/
theorem leadership_accepted {s₀ : Server} (h₀ : s₀.leadership = none) (es : List GossipEvent) {token : String}
    (h : (s₀.run es).leadershipToken = some token) :
    ∃ pre now request view post, es = pre ++ .decided now request :: post ∧ request.view = some view ∧
      view.leadershipToken = token ∧ (s₀.run pre).Covered now view := by
  induction es using List.reverseRecOn with
  | nil => simp [run, leadershipToken, h₀] at h
  | append_singleton es e ih =>
    have earlier (heq : ((s₀.run es).handle e).leadership = (s₀.run es).leadership) :
        ∃ pre now request view post, es ++ [e] = pre ++ .decided now request :: post ∧ request.view = some view ∧
          view.leadershipToken = token ∧ (s₀.run pre).Covered now view := by
      rw [run_snoc, leadershipToken, heq] at h
      obtain ⟨pre, now, request, view, post, hes, hrest⟩ := ih h
      exact ⟨pre, now, request, view, post ++ [e], by simp [hes], hrest⟩
    by_cases he : ∃ now request, e = .decided now request
    · obtain ⟨now, request, rfl⟩ := he
      cases hview : request.view with
      | none => exact earlier (by simp [handle, hview])
      | some view =>
        have hhandle : (s₀.run es).handle (.decided now request) = ((s₀.run es).decideNotification now request view).1 := by
          simp [handle, hview]
        rcases (s₀.run es).decideNotification_cases now request view with ⟨hcovered, haccept⟩ | ⟨-, hsame, -⟩
        · rw [run_snoc, hhandle, haccept] at h
          have htoken : view.leadershipToken = token := by
            simpa [leadershipToken, hview] using h
          exact ⟨es, now, request, view, [], rfl, hview, htoken, hcovered⟩
        · exact earlier (by rw [hhandle, hsame])
    · exact earlier (handle_leadership _ e fun now request heq => he ⟨now, request, heq⟩)

end Server

/-- **When a bid over a lower id is refused.** If the receiver sees a peer with a
lower id than the bidder's, the bid is refused and the leadership stays, if and
only if the bidder has not seen everyone the receiver sees. And in a run of the
gossip server without a decision where it has, a token is current only if no
lower id than its leader's was healthy when it was accepted. -/
theorem bid_over_lower_refused_iff (s : Server) :
    (∀ (now : Time) (request : LeaderNotificationRequest) (view : View) (leader : PeerInfo),
      request.view = some view → view.leader = some leader →
      ((s.SeesLower now leader.id → (s.decideNotification now request view).2.accepted = false ∧
        (s.decideNotification now request view).1.leadership = s.leadership) ↔ ¬ s.Overreaches now view)) ∧
    ∀ es : List GossipEvent, s.leadership = none →
      (∀ pre now request view post, es = pre ++ .decided now request :: post → request.view = some view →
        ¬ (s.run pre).Overreaches now view) →
      ∀ token, (s.run es).leadershipToken = some token →
        ∃ pre now request view post, es = pre ++ .decided now request :: post ∧ request.view = some view ∧
          view.leadershipToken = token ∧ ∀ leader, view.leader = some leader → ¬ (s.run pre).SeesLower now leader.id := by
  constructor
  · intro now request view leader hview hleader
    rcases s.decideNotification_cases now request view with ⟨hcovered, haccept⟩ | ⟨hno, hsame, hrefused⟩
    · rw [haccept]
      constructor
      · intro h ⟨leader', hleader', hlower, _⟩
        rw [hleader] at hleader'
        cases hleader'
        cases (h hlower).1
      · intro hno hlower
        exact (hno ⟨leader, hleader, hlower, hcovered⟩).elim
    · constructor
      · intro _ ⟨_, _, _, hcovered⟩
        exact hno hcovered
      · intro _ _
        exact ⟨hrefused, by rw [hsame]⟩
  · intro es h₀ hfair token htoken
    obtain ⟨pre, now, request, view, post, hes, hview, htok, hcovered⟩ := Server.leadership_accepted h₀ es htoken
    refine ⟨pre, now, request, view, post, hes, hview, htok, fun leader hleader hlower => ?_⟩
    exact hfair pre now request view post hes hview ⟨leader, hleader, hlower, hcovered⟩

/-- The peers `b` and `c` are heard of when the controller on `b` looks who is
lowest, and `a` as well when it bids. -/
def Site.joining : (r : CtlReq) → Option r.Resp
  | .peers => some [⟨"b", []⟩, ⟨"c", []⟩]
  | .snapshotHealthy => some ([⟨"a", []⟩, ⟨"b", []⟩, ⟨"c", []⟩].foldl (fun m p => m.insert p.id p) ∅)
  | r => Site.answer { peers := [], info := Site.running [] false, members := [], commands := [], spec := none, created := true } r

/-- The peer `c`, just pinged by all three. -/
def Site.receiver : Server :=
  (Server.new ⟨"c", []⟩).run [.ping 0 (some ⟨"a", []⟩), .ping 0 (some ⟨"b", []⟩), .ping 0 (some ⟨"c", []⟩)]

/-- A controller that is no longer the lowest bids, and `c`, which sees the
lower id, accepts. -/
theorem bid_over_lower_accepted : ∃ (tr : Trace ctlSig) (p : CtlM (EtcdController × Progress))
    (request : LeaderNotificationRequest) (view : View) (leader : PeerInfo),
    Runs (Site.controller "b").run tr p ∧ (∃ x, ⟨.leaderNotification "c" request, x⟩ ∈ tr) ∧
    request.view = some view ∧ view.leader = some leader ∧
    (Site.receiver.run [.merged 0 view]).SeesLower 0 leader.id ∧
    (Site.receiver.leaderNotification 0 0 request).2 = .ok ⟨true, none⟩ ∧
    (Site.receiver.leaderNotification 0 0 request).1.leadershipToken = some view.leadershipToken := by
  have hbid : ∃ (i : Nat) (request : LeaderNotificationRequest) (x : _) (view : View) (q : GossipPeer),
      ((Site.controller "b").run.follow Site.joining).1[i]? = some ⟨.leaderNotification "c" request, x⟩ ∧
      request.view = some view ∧ view.leader = some ⟨"b", []⟩ ∧
      (Site.receiver.run [.merged 0 view]).peers.lookup "a" = some q ∧
      (q.status (Site.receiver.run [.merged 0 view]).healthyTimeout 0).isSome = true ∧
      (Site.receiver.leaderNotification 0 0 request).2 = .ok ⟨true, none⟩ ∧
      (Site.receiver.leaderNotification 0 0 request).1.leadershipToken = some view.leadershipToken :=
    ⟨5, _, _, _, _, rfl, rfl, rfl, rfl, rfl, rfl, rfl⟩
  obtain ⟨i, request, x, view, q, hsent, hview, hleader, hknown, hhealthy, haccepted, hcurrent⟩ := hbid
  refine ⟨_, _, request, view, _, Prog.follow_runs, ⟨x, List.mem_of_getElem? hsent⟩, hview, hleader, ?_, haccepted,
    hcurrent⟩
  exact ⟨"a", ⟨q, hknown, hhealthy⟩, by decide⟩

end Etcdadm
