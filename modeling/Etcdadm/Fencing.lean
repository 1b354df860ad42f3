/-
A controller that found no cluster does not stop one that serves clients.

Quarantine is lifted, and an unquarantined etcd is added, only by a controller
that has read in the same iteration that a cluster was created. Forming a new
cluster, which begins with stopping what runs, is done only by one that has read
the opposite, and so earlier. Between that reading and the `StopEtcd` it sends
no notification; a node that has served clients since then was last led by
someone else, and leadership tokens are unique, so the node refuses.
-/
import Etcdadm.Fleet
import Etcdadm.Iteration

namespace Etcdadm

open EtcdController EtcdServer Monitor

/-! ## Nodes that have been in quarantine throughout -/

/-- What would be started from the state is quarantined. -/
def EtcdState.Closed (st : EtcdState) : Prop := st.cluster.isSome = true → st.quarantined = true

/-- Nothing here is, was or will be started without quarantine, if no state is
installed that says so. -/
def Node.Sealed (n : Node) : Prop := n.Holds EtcdState.Closed fun p => p.quarantined = true

theorem lasting_closed : Lasting EtcdState.Closed fun p => p.quarantined = true where
  empty := nofun
  settled _ h := h
  started _ _ _ _ _ h hcl := h (by rw [hcl]; rfl)

/-- The kinds of requests that can lift a quarantine. -/
def openingKinds : List Kind := [.joinExisting, .reconfigure]

section Realm

variable {g g' : Realm} {r : CtlReq} {x : r.Resp} {n : Node} {st : EtcdState}

theorem EtcdServer.Authorizes.leads {s : EtcdServer} {header : Option CommonRequestHeader} {token : String}
    (h : s.Authorizes header) (ht : header.map (·.leadershipToken) = some token) :
    s.peerServer.leadershipToken = some token := by
  obtain ⟨hd, rfl, -, hleads⟩ := h
  cases ht
  exact Server.isLeader_iff.1 hleads

/-- A request that has an open state installed is of such a kind, and from the
leader the node knows. -/
theorem installs_closed_or {peer : PeerId} {c : Call} (hc : r.call = some (peer, c)) (hi : (Cause.call c).Installs n st) :
    st.Closed ∨ r.kind ∈ openingKinds ∧
      ∀ token, r.TokenIs token → n.server.peerServer.leadershipToken = some token := by
  cases r with
  | joinCluster peer' request =>
    cases hc
    rcases hi.2 with ⟨-, rfl⟩ | ⟨hphase, -⟩
    · exact .inl fun _ => rfl
    · exact .inr ⟨by simp [CtlReq.kind, hphase, openingKinds], fun token ht => hi.1.leads ht⟩
  | reconfigure peer' request =>
    cases hc
    exact .inr ⟨by simp [CtlReq.kind, openingKinds], fun token ht => hi.1.leads ht⟩
  | stopEtcd peer' request =>
    cases hc
    rw [hi.2]
    exact .inl fun hquarantined => by cases hquarantined
  | getInfo | doBackup | doRestore =>
    cases hc
    exact hi.elim
  | _ => cases hc

theorem Realm.Answers.sealed_or (hans : g.Answers r x g') (peer : PeerId) (hs : (g.node peer).Sealed) :
    (g'.node peer).Sealed ∨ r.kind ∈ openingKinds ∧
      ∀ token, r.TokenIs token → (g.node peer).server.peerServer.leadershipToken = some token := by
  by_contra hno
  obtain ⟨hopen, hother⟩ := not_or.1 hno
  refine hopen (hs.met lasting_closed ?_ (hans.met peer))
  intro c n₁ st hc _ hserver hi
  rcases installs_closed_or hc hi with hclosed | ⟨hkind, hleads⟩
  · exact hclosed
  · refine (hother ⟨hkind, fun token ht => ?_⟩).elim
    rw [← hserver]
    exact hleads token ht

/-- Who leads at a node changes by a notification only. -/
theorem Realm.Answers.leadershipToken (hans : g.Answers r x g') (peer : PeerId) :
    (g'.node peer).server.peerServer.leadershipToken = (g.node peer).server.peerServer.leadershipToken ∨
    (g'.node peer).server.peerServer.leadershipToken = none ∨
    r.kind = .notify ∧ ∀ token, r.TokenIs token →
      (g'.node peer).server.peerServer.leadershipToken = some token := by
  have hmet := hans.met peer
  generalize g'.node peer = n' at hmet
  cases hmet with
  | alone => exact .inl rfl
  | called _ he hs => exact (hs.leadershipToken he).imp_right .inl
  | gossip hs => exact .inl hs
  | notified hr hn =>
    subst hr
    rcases Server.leaderNotification_leadershipToken hn with hsame | ⟨view, hview, htoken⟩
    · exact .inl hsame
    · refine .inr (.inr ⟨rfl, fun token ht => ?_⟩)
      rw [CtlReq.TokenIs, hview] at ht
      exact htoken.trans ht

/-- On its own, a node lifts no quarantine and finds no leader. -/
theorem Realm.Drifts.fenced (h : g.Drifts g') (peer : PeerId) :
    ((g.node peer).Sealed → (g'.node peer).Sealed) ∧
    ((g'.node peer).server.peerServer.leadershipToken = (g.node peer).server.peerServer.leadershipToken ∨
      (g'.node peer).server.peerServer.leadershipToken = none) := by
  have hmet := h.met peer
  constructor
  · intro hs
    refine hs.met lasting_closed ?_ hmet
    intro c n₁ st hc _ _ hi
    subst hc
    exact hi.elim
  · generalize g'.node peer = n' at hmet
    cases hmet with
    | alone => exact .inl rfl
    | called _ he hs => exact hs.leadershipToken he
    | notified hr _ => exact hr.elim
    | gossip hs => exact .inl hs

end Realm

/-! ## What an iteration may ask for -/

/-- The leadership tokens a controller has drawn, and whether it has read in
this iteration that there is no cluster yet, or that there is one. -/
structure Tenure where
  tokens : List String
  readNew : Bool
  readCreated : Bool

/-- The kinds of requests that carry a leadership token. -/
def tokenKinds : List Kind :=
  [.notify, .stop, .prepare, .initial, .joinExisting, .cancel, .joinOther, .reconfigure, .backup, .restore]

structure Tenure.Entitles (t : Tenure) (r : CtlReq) : Prop where
  token : r.kind ∈ tokenKinds → ∃ token ∈ t.tokens, r.TokenIs token
  /-- Whoever goes for a new cluster no longer campaigns. -/
  campaign : r.kind ∈ [Kind.bid, .notify] → t.readNew = false
  opening : r.kind ∈ openingKinds → t.readCreated = true ∧ t.readNew = false

def fencing : Monitor ctlSig Tenure where
  next t r x :=
    match r, x with
    | .leadershipToken, token => { t with tokens := token :: t.tokens }
    | .isNewCluster, .ok true => { t with readNew := true }
    | .isNewCluster, .ok false => { t with readCreated := true }
    | _, _ => t
  must := Tenure.Entitles

/-- The controller's token is one it has drawn. -/
def Tenure.Covers (t : Tenure) (m : EtcdController) : Prop := ∀ l, m.leadership = some l → l.token ∈ t.tokens

section Iteration

variable {m : EtcdController} {l : LeadershipState} {t : Tenure} {α : Type}

theorem fencing_next {r : CtlReq} (hbid : r ≠ .leadershipToken) (hread : r ≠ .isNewCluster) (x : r.Resp) :
    fencing.next t r x = t := by
  cases r with
  | leadershipToken => exact absurd rfl hbid
  | isNewCluster => exact absurd rfl hread
  | _ => rfl

theorem fencing_next_of_kind {r : CtlReq} (hr : r.kind ∉ [Kind.bid, .readMarker]) (x : r.Resp) :
    fencing.next t r x = t := by
  refine fencing_next ?_ ?_ x
  · intro h
    exact hr (by rw [h]; decide)
  · intro h
    exact hr (by rw [h]; decide)

theorem fencing_keeps {t' : Tenure} {r : CtlReq} (hr : t.Entitles r ∧ r.kind ∉ [Kind.bid, .readMarker]) (ht : t' = t) :
    fencing.must t' r ∧ ∀ x, fencing.may t' r x → fencing.next t' r x = t := by
  subst ht
  exact ⟨hr.1, fun x _ => fencing_next_of_kind hr.2 x⟩

/-- A part that neither bids nor reads the marker. -/
theorem wp_entitled {allowed : CtlReq → Prop} {R : α → Prop} {p : CtlM α} {Q : Tenure → α → Prop}
    (hr : ∀ r, allowed r → t.Entitles r ∧ r.kind ∉ [Kind.bid, .readMarker]) (hp : p.Uses allowed True)
    (hret : p.Returns R) (hQ : ∀ a, R a → Q t a) : fencing.wp p t Q := by
  have hwp := Monitor.wp_of_uses (I := (· = t)) (fun _ r ht h => fencing_keeps (hr r h) ht)
    (fun _ _ _ (_ : True) => trivial) hp rfl
  refine Monitor.wp_mono ?_ (Monitor.wp_and_returns hwp hret)
  intro t' a ⟨ht, ha⟩
  subst ht
  exact hQ a ha

/-- What carries no token and is no bid may always be asked for. -/
theorem Tenure.Entitles.of_free {r : CtlReq} (hr : r.kind ∉ .bid :: tokenKinds) : t.Entitles r := by
  obtain ⟨hbid, htoken⟩ := not_or.1 (mt List.mem_cons.2 hr)
  refine ⟨fun h => absurd h htoken, fun h => ?_, fun h => ?_⟩
  · rcases List.mem_pair.1 h with h | h
    · exact absurd h hbid
    · exact absurd (by rw [h]; decide) htoken
  · rcases List.mem_pair.1 h with h | h
    · exact absurd (by rw [h]; decide) htoken
    · exact absurd (by rw [h]; decide) htoken

/-- What may be asked for under a token that was drawn. -/
theorem Tenure.Entitles.of_sends {kinds : List Kind} {r : CtlReq} (hl : l.token ∈ t.tokens) (hr : Sends l kinds r)
    (hbid : Kind.bid ∉ kinds) (hnotify : Kind.notify ∈ kinds → t.readNew = false)
    (hopen : ¬ kinds.Disjoint openingKinds → t.readCreated = true ∧ t.readNew = false) : t.Entitles r := by
  refine ⟨fun _ => ⟨l.token, hl, hr.2⟩, fun h => ?_, fun h => hopen fun hdisjoint => hdisjoint hr.1 h⟩
  rcases List.mem_pair.1 h with h | h
  · exact absurd (h ▸ hr.1) hbid
  · exact hnotify (h ▸ hr.1)

/-- Whoever may campaign may look around and notify. -/
theorem entitled_of_campaign {r : CtlReq} (hl : l.token ∈ t.tokens) (hnew : t.readNew = false)
    (hr : Sends l [.look, .note, .notify, .endpoints] r) : t.Entitles r ∧ r.kind ∉ [Kind.bid, .readMarker] := by
  refine ⟨.of_sends hl hr (by simp) (fun _ => hnew) fun h => absurd (by simp [openingKinds]) h, fun h => ?_⟩
  have hdisjoint : List.Disjoint [Kind.look, .note, .notify, .endpoints] [.bid, .readMarker] := by simp
  exact hdisjoint hr.1 h

theorem wp_lead_fencing {peers : List PeerInfo} (hl : l.token ∈ t.tokens) (hm : t.Covers m) (hnew : t.readNew = false) :
    fencing.wp (m.lead l peers) t fun t' r => t'.Covers r.1 := by
  have covers {m' : EtcdController} {t' : Tenure} (htokens : t'.tokens = t.tokens) (h : m.leadership = m'.leadership) :
      t'.Covers m' := by
    intro l' hl'
    rw [htokens]
    exact hm l' (h.trans hl')
  have keeps {kinds : List Kind} (hk : kinds ⊆ [.look, .note, .notify, .endpoints]) (t' : Tenure) (r : CtlReq)
      (ht : t' = t) (hr : Sends l kinds r) :
      fencing.must t' r ∧ ∀ x, fencing.may t' r x → fencing.next t' r x = t :=
    fencing_keeps (entitled_of_campaign hl hnew (hr.widen hk)) ht
  have branch {R : EtcdController × Progress → Prop} {kinds : List Kind} {p : CtlM (EtcdController × Progress)} {t' : Tenure}
      (htokens : t'.tokens = t.tokens) (hk : kinds.Disjoint [.bid, .notify, .readMarker])
      (hopen : ¬ kinds.Disjoint openingKinds → t'.readCreated = true ∧ t'.readNew = false)
      (hp : p.Uses (Sends l kinds) True) (hret : p.Returns R) (hR : ∀ r, R r → m.leadership = r.1.leadership) :
      fencing.wp p t' fun t'' r => t''.Covers r.1 := by
    refine wp_entitled (fun r hr => ⟨?_, fun h => ?_⟩) hp hret fun r hr => covers htokens (hR r hr)
    · exact .of_sends (htokens ▸ hl) hr (fun h => hk h (by simp)) (fun h => (hk h (by simp)).elim) hopen
    · exact hk hr.1 (by rcases List.mem_pair.1 h with h | h <;> simp [h])
  refine wp_lead (I := (· = t)) (J := fun _ _ t' => t' = t) rfl (fun _ _ => trivial) (keeps (by simp)) ?_ ?_ ?_
    (fun _ _ => keeps (by simp)) ?_ ?_
  · rintro _ err rfl
    exact hm
  · rintro _ rfl
    exact nofun
  · rintro t cs rfl -
    have hlog : t.Entitles (.logClusterState cs) := .of_free (by simp [CtlReq.kind, tokenKinds])
    exact ⟨hlog, fun _ => ⟨.of_free (by decide), fun now _ => rfl⟩⟩
  · rintro cs now _ m' err rfl hstays
    exact covers rfl hstays.leadership.symm
  · rintro cs now _ m' rfl hstays
    refine ⟨.of_free (by decide), ?_, fun _ => ?_, fun _ => ?_⟩
    · intro err _ text
      exact covers rfl hstays.leadership.symm
    · refine branch rfl (by simp [newClusterKinds]) ?_ uses_newCluster returns_newCluster ?_
      · exact fun h => absurd (by simp [newClusterKinds, openingKinds]) h
      · exact fun r hr => (hr.leadership.trans hstays.leadership).symm
    · refine branch rfl (by simp [maintainKinds, restoreKinds]) (fun _ => ⟨rfl, hnew⟩) uses_reconcile returns_reconcile ?_
      exact fun r hr => (hr.leadership.trans hstays.leadership).symm

theorem wp_elect_fencing (hm : m.leadership = none) (hnew : t.readNew = false) :
    fencing.wp m.elect t fun t' r => t'.Covers r.1 := by
  have without {m' : EtcdController} {t' : Tenure} (h : m'.leadership = none) : t'.Covers m' := by
    intro l hl
    rw [h] at hl
    cases hl
  refine Monitor.wp_bind.2 ?_
  refine Monitor.wp_ctl.2 ⟨.of_free (by decide), fun snapshot _ => ?_⟩
  refine Monitor.wp_range.2 ⟨.of_free (by simp [CtlReq.kind, tokenKinds]), fun order _ => ?_⟩
  refine Monitor.wp_ctl.2 ⟨⟨fun h => absurd h (by decide), fun _ => hnew, fun h => absurd h (by decide)⟩, fun token _ => ?_⟩
  refine Monitor.wp_range.2 ⟨.of_free (by simp [CtlReq.kind, tokenKinds]), fun order' _ => ?_⟩
  have asks {kinds : List Kind} (hk : kinds ⊆ [.look, .note, .notify, .endpoints]) (r : CtlReq)
      (hr : Sends ⟨token, []⟩ kinds r) :
      ({ t with tokens := token :: t.tokens } : Tenure).Entitles r ∧ r.kind ∉ [Kind.bid, .readMarker] :=
    entitled_of_campaign List.mem_cons_self hnew (hr.widen hk)
  refine Monitor.wp_bind.2 (wp_entitled (asks (by simp)) (uses_notifyPeers rfl _) (.trivially _) fun err _ => ?_)
  cases err with
  | some err => exact without hm
  | none =>
    refine Monitor.wp_bind.2 (wp_entitled (asks (by simp)) uses_refreshControlStore
      returns_refreshControlStore fun a hc => ?_)
    obtain ⟨c, err⟩ := a
    cases err with
    | some err => exact without (hc.leadership.trans hm)
    | none =>
      intro l hl
      cases hl
      exact List.mem_cons_self

theorem wp_run_fencing (hm : t.Covers m) (hnew : t.readNew = false) :
    fencing.wp m.run t fun t' r => t'.Covers r.1 := by
  have covers {m' : EtcdController} (h : m.Stays m') : t.Covers m' := by
    intro l hl
    exact hm l (h.leadership.symm.trans hl)
  have locks (r : CtlReq) (hr : OfKind [.lock] r) : t.Entitles r ∧ r.kind ∉ [Kind.bid, .readMarker] := by
    have hkind : r.kind = .lock := List.mem_singleton.1 hr
    exact ⟨.of_free (by rw [hkind]; decide), by rw [hkind]; decide⟩
  refine Monitor.wp_ctl.2 ⟨.of_free (by decide), fun infos _ => ?_⟩
  dsimp only
  split
  · exact hm
  split
  · exact Monitor.wp_bind.2 (wp_entitled locks uses_releaseLeaderLock returns_releaseLeaderLock fun r hr => covers hr)
  refine Monitor.wp_bind.2 (wp_entitled locks uses_acquireLeaderLock returns_acquireLeaderLock fun ⟨c, r⟩ hc => ?_)
  cases r with
  | some r => exact covers hc
  | none =>
    dsimp only
    split
    next hnone => exact wp_elect_fencing hnone hnew
    next l hsome => exact wp_lead_fencing (covers hc l hsome) (covers hc) hnew

end Iteration

/-! ## Controllers side by side -/

/-- Any number of managers: a controller goes from one iteration to the next,
and may be killed and started again at any time. -/
def managers : Interplay ctlSig (EtcdController × Progress) Realm where
  answers := Realm.Answers
  drifts := Realm.Drifts
  resumes p p' := (∃ m r, p = .ret (m, r) ∧ p' = m.run) ∨
    ∃ m : EtcdController, m.leadership = none ∧ p' = m.run

section Interplay

variable {ι : Type} {g g' : Realm} {s : ι → Tenure} {i : ι} {r : CtlReq} {x : r.Resp}

/-- No two controllers have a token in common. Without a marker every node is
sealed; a controller that has read it is right about it. And a node that is
not sealed follows none of the controllers that are to form a new cluster. -/
structure Fenced (g : Realm) (s : ι → Tenure) : Prop where
  drawn : ∀ i, ∀ token ∈ (s i).tokens, token ∈ g.drawn
  apart : ∀ i j, i ≠ j → ∀ token ∈ (s i).tokens, token ∉ (s j).tokens
  sealed : g.created = false → ∀ peer, (g.node peer).Sealed
  created : ∀ i, (s i).readCreated = true → g.created = true
  fenced : ∀ i, (s i).readNew = true → ∀ peer, ¬ (g.node peer).Sealed → ∀ token ∈ (s i).tokens,
    (g.node peer).server.peerServer.leadershipToken ≠ some token

/-- A controller that may campaign is none of those. -/
theorem ne_of_readNew {j : ι} (hi : (s i).readNew = false) (hj : (s j).readNew = true) : i ≠ j := by
  rintro rfl
  rw [hi] at hj
  cases hj

namespace Fenced

/-- Requests to the nodes keep it. -/
theorem calls (h : Fenced g s) (hr : (s i).Entitles r) (hans : g.Answers r x g') (hcreated : g'.created = g.created)
    (hdrawn : g'.drawn = g.drawn) : Fenced g' s where
  drawn := hdrawn ▸ h.drawn
  apart := h.apart
  created := hcreated ▸ h.created
  sealed hno peer := by
    rw [hcreated] at hno
    refine (hans.sealed_or peer (h.sealed hno peer)).resolve_right fun hopen => ?_
    rw [h.created i (hr.opening hopen.1).1] at hno
    cases hno
  fenced j hj peer hopen token htoken := by
    by_cases hs : (g.node peer).Sealed
    · -- the request opened the node: whoever sent it leads there
      obtain ⟨hkind, hleads⟩ := (hans.sealed_or peer hs).resolve_left hopen
      have hij := ne_of_readNew (hr.opening hkind).2 hj
      obtain ⟨token', htoken', his⟩ := hr.token (by rcases List.mem_pair.1 hkind with h | h <;> rw [h] <;> decide)
      have hother : token' ≠ token := by
        rintro rfl
        exact h.apart i j hij _ htoken' htoken
      rcases hans.leadershipToken peer with hsame | hnone | ⟨hnotify, -⟩
      · rw [hsame, hleads token' his]
        simpa using hother
      · simp [hnone]
      · rw [hnotify] at hkind
        exact absurd hkind (by decide)
    · have hold := h.fenced j hj peer hs token htoken
      rcases hans.leadershipToken peer with hsame | hnone | ⟨hnotify, hleads⟩
      · rwa [hsame]
      · simp [hnone]
      · -- a notification is not from a controller that is to form a cluster
        have hij := ne_of_readNew (hr.campaign (by simp [hnotify])) hj
        obtain ⟨token', htoken', his⟩ := hr.token (by rw [hnotify]; decide)
        rw [hleads token' his]
        intro heq
        cases heq
        exact h.apart i j hij _ htoken' htoken

/-- So does a change of one controller's tenure that is right about the marker. -/
theorem tenure [DecidableEq ι] {t : Tenure} (h : Fenced g s) (hnode : g'.node = g.node)
    (hcreated : g.created = true → g'.created = true) (hdrawn : g.drawn ⊆ g'.drawn)
    (htokens : ∀ token ∈ t.tokens, token ∈ g'.drawn ∧ ∀ j, j ≠ i → token ∉ (s j).tokens)
    (hread : t.readCreated = true → g'.created = true)
    (hnew : t.readNew = true → ∀ peer, ¬ (g.node peer).Sealed → ∀ token ∈ t.tokens,
      (g.node peer).server.peerServer.leadershipToken ≠ some token) : Fenced g' (Function.update s i t) where
  drawn := (Function.forall_update_iff s fun _ t' => ∀ token ∈ t'.tokens, token ∈ g'.drawn).2
    ⟨fun token htoken => (htokens token htoken).1, fun j _ token htoken => hdrawn (h.drawn j token htoken)⟩
  apart j k hjk token htoken := by
    by_cases hj : j = i
    · subst hj
      rw [Function.update_self] at htoken
      rw [Function.update_of_ne hjk.symm]
      exact (htokens token htoken).2 k hjk.symm
    · rw [Function.update_of_ne hj] at htoken
      by_cases hk : k = i
      · subst hk
        rw [Function.update_self]
        exact fun htoken' => (htokens token htoken').2 j hj htoken
      · rw [Function.update_of_ne hk]
        exact h.apart j k hjk token htoken
  sealed hno peer := by
    rw [hnode]
    refine h.sealed (Bool.eq_false_iff.2 fun hyes => ?_) peer
    rw [hcreated hyes] at hno
    cases hno
  created := (Function.forall_update_iff s fun _ t' => t'.readCreated = true → g'.created = true).2
    ⟨hread, fun j _ hj => hcreated (h.created j hj)⟩
  fenced := by
    rw [hnode]
    exact (Function.forall_update_iff s fun _ t' => t'.readNew = true → ∀ peer, ¬ (g.node peer).Sealed →
      ∀ token ∈ t'.tokens, (g.node peer).server.peerServer.leadershipToken ≠ some token).2
      ⟨hnew, fun j _ => h.fenced j⟩

/-- The tokens of a controller are as they should be. -/
theorem tokens (h : Fenced g s) (i : ι) : ∀ token ∈ (s i).tokens, token ∈ g.drawn ∧
    ∀ j, j ≠ i → token ∉ (s j).tokens :=
  fun token htoken => ⟨h.drawn i token htoken, fun j hj => h.apart i j hj.symm token htoken⟩

theorem drifts (h : Fenced g s) (hd : g.Drifts g') : Fenced g' s := by
  have hcreated : g'.created = g.created := by cases hd <;> rfl
  have hdrawn : g'.drawn = g.drawn := by cases hd <;> rfl
  refine ⟨hdrawn ▸ h.drawn, h.apart, fun hno peer => ?_, hcreated ▸ h.created, fun i hi peer hopen token htoken => ?_⟩
  · exact (hd.fenced peer).1 (h.sealed (hcreated ▸ hno) peer)
  · have hold := h.fenced i hi peer (fun hs => hopen ((hd.fenced peer).1 hs)) token htoken
    rcases (hd.fenced peer).2 with hsame | hnone
    · rwa [hsame]
    · simp [hnone]

theorem answers [DecidableEq ι] (h : Fenced g s) (hr : (s i).Entitles r) (hans : g.Answers r x g') :
    Fenced g' (Function.update s i (fencing.next (s i) r x)) := by
  have stays (hbid : r ≠ .leadershipToken) (hread : r ≠ .isNewCluster) :
      Function.update s i (fencing.next (s i) r x) = s := by
    rw [fencing_next hbid hread, Function.update_eq_self]
  cases hans with
  | served hc hs hx =>
    rw [stays (by rintro rfl; cases hc) (by rintro rfl; cases hc)]
    exact h.calls hr (.served hc hs hx) rfl rfl
  | lost hc hx =>
    rw [stays (by rintro rfl; cases hc) (by rintro rfl; cases hc)]
    exact h
  | cut hc hs he hx =>
    rw [stays (by rintro rfl; cases hc) (by rintro rfl; cases hc)]
    exact h.calls hr (.cut hc hs he hx) rfl rfl
  | notified hn hx =>
    rw [stays nofun nofun]
    exact h.calls hr (.notified hn hx) rfl rfl
  | unnotified =>
    rw [stays nofun nofun]
    exact h
  | elsewhere he =>
    rw [stays (by rintro rfl; cases he) (by rintro rfl; cases he)]
    exact h
  | @drawn token hfresh =>
    refine h.tenure rfl id (List.subset_cons_self _ _) ?_ (h.created i) ?_
    · intro token' htoken'
      rcases List.mem_cons.1 htoken' with rfl | hold
      · exact ⟨List.mem_cons_self, fun j _ hj => hfresh (h.drawn j _ hj)⟩
      · exact ⟨List.mem_cons_of_mem _ (h.drawn i _ hold), (h.tokens i _ hold).2⟩
    · intro hnew
      have hno : (s i).readNew = false := hr.campaign (by decide)
      exact absurd (hno.symm.trans hnew) (by decide)
  | read =>
    cases hcreated : g.created with
    | true =>
      show Fenced g (Function.update s i { s i with readCreated := true })
      exact h.tenure rfl id (List.Subset.refl _) (h.tokens i) (fun _ => hcreated) (h.fenced i)
    | false =>
      show Fenced g (Function.update s i { s i with readNew := true })
      refine h.tenure rfl id (List.Subset.refl _) (h.tokens i) (h.created i) ?_
      exact fun _ peer hopen => absurd (h.sealed hcreated peer) hopen
  | named _ =>
    refine h.tenure rfl id (List.subset_cons_self _ _) ?_ (h.created i) (h.fenced i)
    intro token htoken
    obtain ⟨hdrawn, hapart⟩ := h.tokens i token htoken
    exact ⟨List.mem_cons_of_mem _ hdrawn, hapart⟩
  | readFailed => exact h.tenure rfl id (List.Subset.refl _) (h.tokens i) (h.created i) (h.fenced i)
  | marked => exact h.tenure rfl (fun _ => rfl) (List.Subset.refl _) (h.tokens i) (fun _ => rfl) (h.fenced i)
  | markFailed hkept =>
    exact h.tenure rfl hkept (List.Subset.refl _) (h.tokens i) (fun hread => hkept (h.created i hread)) (h.fenced i)

end Fenced

theorem managers_sound [DecidableEq ι] :
    managers.Sound fencing (fun t r => t.Covers r.1) (fun t => t.readNew = false) (@Fenced ι) where
  answer hinv hmust hans := ⟨trivial, hinv.answers hmust hans⟩
  drift hinv hdrift := hinv.drifts hdrift
  resume := by
    intro g s i p p' hinv hwp hres
    -- the next iteration has read nothing yet
    let t : Tenure := ⟨(s i).tokens, false, false⟩
    have hcovers : ∃ m : EtcdController, t.Covers m ∧ p' = m.run := by
      rcases hres with ⟨m, r, rfl, rfl⟩ | ⟨m, hm, rfl⟩
      · exact ⟨m, hwp, rfl⟩
      · refine ⟨m, fun l hl => ?_, rfl⟩
        rw [hm] at hl
        cases hl
    obtain ⟨m, hm, rfl⟩ := hcovers
    refine ⟨t, rfl, wp_run_fencing hm rfl, ?_⟩
    exact hinv.tenure rfl id (List.Subset.refl _) (hinv.tokens i) nofun nofun

end Interplay

/-! ## The refusal -/

/-- What the node does not hear from its leader changes nothing there. -/
theorem stopEtcd_refused {n n' : Node} {request : StopEtcdRequest} {tr : Trace sysSig} {reply : Reply}
    (h : ¬ n.server.Authorizes request.header) (hs : n.Step (.call (.stopEtcd request) tr reply) n') :
    n' = n ∧ ∃ err, reply = .error err := by
  cases hs with
  | call hr ha =>
    simp only [serve, stopEtcd] at hr
    rcases n.server.validateHeader_cases request.header with ⟨-, hv⟩ | ⟨-, err, hv⟩ | ⟨hauth, -⟩
    · rw [hv] at hr
      cases hr
    · rw [hv] at hr
      cases hr
      exact ⟨rfl, err, rfl⟩
    · exact absurd hauth h

theorem readNew_next {t : Tenure} (ht : t.readNew = true) (r : CtlReq) (x : r.Resp) :
    (fencing.next t r x).readNew = true := by
  by_cases hbid : r = .leadershipToken
  · subst hbid
    exact ht
  by_cases hread : r = .isNewCluster
  · subst hread
    match x with
    | .error _ => exact ht
    | .ok true => rfl
    | .ok false => exact ht
  · rwa [fencing_next hbid hread]

/-- An iteration that has read that there is no cluster yet remembers it. -/
theorem readNew_of_mem {t : Tenure} {tr : Trace ctlSig} (h : t.readNew = true ∨ ⟨.isNewCluster, .ok true⟩ ∈ tr) :
    (fencing.after t tr).readNew = true := by
  induction tr generalizing t with
  | nil => exact h.resolve_right List.not_mem_nil
  | cons e tr ih =>
    refine ih ?_
    rcases h with ht | h
    · exact .inl (readNew_next ht _ _)
    · rcases List.mem_cons.1 h with rfl | h
      · exact .inl rfl
      · exact .inr h

/-- **A new cluster does not trash what clients use.** From nodes without etcd,
however the managers interleave: where a controller that has read in this
iteration that there is no cluster yet is about to send a `StopEtcd`, a node
that ever ran an etcd outside quarantine refuses it and stays as it is. -/
theorem new_cluster_stop_refused {ι : Type} [DecidableEq ι] {c₀ c : Scene ctlSig (EtcdController × Progress) Realm ι}
    (hblank : ∀ peer, (c₀.shared.node peer).Blank)
    (hfresh : ∀ i, ∃ m : EtcdController, m.leadership = none ∧ c₀.parties i = ⟨m.run, []⟩)
    (hreach : managers.Reaches c₀ c) :
    ∀ i peer request k, (c.parties i).program = .call (.stopEtcd peer request) k →
      ⟨.isNewCluster, .ok true⟩ ∈ (c.parties i).past →
      (∃ p ∈ (c.shared.node peer).world.started, p.quarantined = false) →
      ¬ (c.shared.node peer).server.Authorizes request.header ∧
      ∀ tr reply n, (c.shared.node peer).Step (.call (.stopEtcd request) tr reply) n →
        n = c.shared.node peer ∧ ∃ err, reply = .error err := by
  have hstart : Interplay.Orderly fencing (fun t r => t.Covers r.1) (fun t => t.readNew = false) Fenced c₀ := by
    refine ⟨fun _ => ⟨[], false, false⟩, fun _ => rfl, ?_, fun i => ?_⟩
    · have hpast (i : ι) : (c₀.parties i).past = [] := by
        obtain ⟨m, -, hi⟩ := hfresh i
        rw [hi]
      simp only [hpast, Monitor.after_nil]
      exact ⟨nofun, nofun, fun _ peer => .of_blank (hblank peer), nofun, nofun⟩
    · obtain ⟨m, hm, hi⟩ := hfresh i
      rw [hi]
      refine wp_run_fencing (fun l hl => ?_) rfl
      rw [hm] at hl
      cases hl
  obtain ⟨start, -, hinv, hwp⟩ := managers_sound.reaches hreach hstart
  intro i peer request k hstop hread ⟨p, hp, hopen⟩
  have hrefused : ¬ (c.shared.node peer).server.Authorizes request.header := by
    intro hauth
    have hi := hwp i
    rw [hstop] at hi
    obtain ⟨token, htoken, his⟩ := hi.1.token (by simp [CtlReq.kind, tokenKinds])
    have hunsealed : ¬ (c.shared.node peer).Sealed := fun hs => by
      have := hs.started p hp
      rw [hopen] at this
      cases this
    exact hinv.fenced i (readNew_of_mem (.inr hread)) peer hunsealed token htoken (hauth.leads his)
  exact ⟨hrefused, fun tr reply n hs => stopEtcd_refused hrefused hs⟩

/-! ## A race -/

namespace Race

/-- What a controller finds in the race: these peers, one etcd member. -/
def site (peers : List PeerId) (clock : Time) : Site :=
  { peers := peers.map fun id => ⟨id, []⟩, info := Site.running [] true, members := [Site.member "b"], commands := []
    spec := some ⟨1, "3.4.13"⟩, created := false, clock := clock }

/-- The managers of `a` and `b`, with the controller of `b` as the true one. -/
def start : Scene ctlSig (EtcdController × Progress) Realm Bool :=
  ⟨⟨Realm.manager, false, []⟩, fun i => ⟨(Site.controller (if i then "b" else "a")).run, []⟩⟩

/-- From the end of an iteration to the next one. -/
def next : Prog ctlSig (EtcdController × Progress) → Option (Prog ctlSig (EtcdController × Progress))
  | .ret (m, _) => some m.run
  | _ => none

/-- The controller of `b` forms a cluster on `b` but does not get to the marker.
That of `a`, which hears of `b` again, takes over, finds no marker and sets out
to form a cluster itself. By then `a` has not been heard of for a while: the
controller of `b` writes the marker, goes on as the leader and lifts the
quarantine. -/
def turns : List (Turn Bool) :=
  [.go true (site ["b"] 0) 9, .next true, .go true (site ["b"] 0) 28,
    .go false (site ["a", "b"] (2 * minute)) 10, .next false, .go false (site ["a", "b"] (2 * minute)) 28,
    .go true (site ["b"] (4 * minute)) 1, .next true, .go true (site ["b"] (4 * minute)) 24]

end Race

/-- In the race, the `StopEtcd` that is sent next goes to a node that serves
clients, and is refused. -/
theorem new_cluster_stop_refused_racing : ∃ (c : Scene ctlSig (EtcdController × Progress) Realm Bool)
    (request : StopEtcdRequest) (k : Except Error Unit → CtlM (EtcdController × Progress)),
    managers.Reaches Race.start c ∧ (c.parties false).program = .call (.stopEtcd "b" request) k ∧
    ⟨.isNewCluster, .ok true⟩ ∈ (c.parties false).past ∧
    (∃ p ∈ (c.shared.node "b").world.started, p.quarantined = false) ∧
    ¬ (c.shared.node "b").server.Authorizes request.header := by
  have hplay : ∃ c request k, Race.start.play Race.next Race.turns = some c ∧
      (c.parties false).program = .call (.stopEtcd "b" request) k ∧
      (c.parties false).past[20]? = some ⟨.isNewCluster, .ok true⟩ ∧
      (c.shared.node "b").world.started.any (!·.quarantined) = true := ⟨_, _, _, rfl, rfl, rfl, rfl⟩
  obtain ⟨c, request, k, hplay, hstop, hread, hopen⟩ := hplay
  have hresumes (p p' : Prog ctlSig (EtcdController × Progress)) (h : Race.next p = some p') : managers.resumes p p' := by
    cases p with
    | ret r =>
      cases h
      exact .inl ⟨r.1, r.2, rfl, rfl⟩
    | _ => cases h
  have hreach : managers.Reaches Race.start c := Scene.play_reaches rfl hresumes _ hplay
  have hran : ∃ p ∈ (c.shared.node "b").world.started, p.quarantined = false := by simpa using hopen
  have hmem := List.mem_of_getElem? hread
  refine ⟨c, request, k, hreach, hstop, hmem, hran, ?_⟩
  exact (new_cluster_stop_refused (fun _ => ⟨rfl, rfl, rfl, rfl⟩) (fun i => ⟨_, rfl, rfl⟩) hreach false "b" request k hstop
    hmem hran).1

end Etcdadm
