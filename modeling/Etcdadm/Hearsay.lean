/-
What makes a peer healthy, and that hearsay does not keep it so.

The time a peer was last heard of is written from four places: a ping of the
peer, its answer to one of ours, and the views that come with a leader
notification or with the refusal of one. A view is second-hand, and it counts
only for a peer that is not in the table yet: `handle_lookup` says for each event
what can become of one entry. So behind a healthy peer there is a sign of life of
its own, or the view that first named it, and not longer ago than the timeout.
-/
import Etcdadm.Election

namespace Etcdadm

/-- When the event happened. Discovery leaves no time behind. -/
def GossipEvent.time : GossipEvent → Option Time
  | .ping now _ | .pong now _ _ | .merged now _ | .decided now _ => some now
  | .discovered _ => none

/-- The event is a ping with this id, or the answer to one, at this time. -/
def GossipEvent.Carries (id : PeerId) (now : Time) : GossipEvent → Prop
  | .ping now' info => now' = now ∧ ∃ i, info = some i ∧ i.id = id
  | .pong now' _ info => now' = now ∧ info.id = id
  | _ => False

namespace Server

variable {s : Server} {id : PeerId} {now : Time} {p : GossipPeer}

theorem mem_snapshotHealthy : (∃ info, (id, info) ∈ s.snapshotHealthy now) ↔ s.Healthy now id := by
  simp only [snapshotHealthy, Healthy, List.mem_filterMap, Prod.exists, Option.map_eq_some_iff, Prod.mk.injEq,
    Option.isSome_iff_exists]
  constructor
  · intro ⟨info, id', p, hmem, i, hi, hid, _⟩
    subst hid
    exact ⟨p, GoMap.mem_pairs.1 hmem, i, hi⟩
  · intro ⟨p, hp, i, hi⟩
    exact ⟨i, id, p, GoMap.mem_pairs.2 hp, i, hi, rfl, rfl⟩

/-! ## One event and one entry -/

theorem addPeer_lookup (peers : GoMap GossipPeer) (q : PeerInfo) :
    (addPeer now peers q).lookup id =
      if (peers.lookup id).isNone ∧ q.id = id then some ⟨id, some q, now⟩ else peers.lookup id := by
  unfold addPeer
  by_cases hid : q.id = id
  · subst hid
    cases hp : peers.lookup q.id with
    | none => simp [AList.lookup_insert, GossipPeer.new, GossipPeer.updatePeerInfo]
    | some p => simp [hp]
  · cases hq : peers.lookup q.id with
    | none => simp [AList.lookup_insert_ne (Ne.symm hid), hid]
    | some p => simp [hid]

/-- A view touches no entry that is there already. -/
theorem foldl_addPeer_known (view : List PeerInfo) {peers : GoMap GossipPeer} (h : peers.lookup id = some p) :
    (view.foldl (addPeer now) peers).lookup id = some p := by
  induction view generalizing peers with
  | nil => exact h
  | cons q view ih =>
    apply ih
    simp [addPeer_lookup, h]

theorem foldl_addPeer_new (view : List PeerInfo) {peers : GoMap GossipPeer} (h : peers.lookup id = none)
    (hp : (view.foldl (addPeer now) peers).lookup id = some p) :
    (∃ q ∈ view, q.id = id) ∧ p.id = id ∧ p.lastPingTime = now := by
  induction view generalizing peers with
  | nil => simp [h] at hp
  | cons q view ih =>
    by_cases hid : q.id = id
    · have hadd : (addPeer now peers q).lookup id = some ⟨id, some q, now⟩ := by simp [addPeer_lookup, h, hid]
      rw [List.foldl_cons, foldl_addPeer_known view hadd] at hp
      cases hp
      exact ⟨⟨q, List.mem_cons_self, hid⟩, rfl, rfl⟩
    · have hadd : (addPeer now peers q).lookup id = none := by simp [addPeer_lookup, h, hid]
      obtain ⟨⟨q', hq', hid'⟩, hrest⟩ := ih hadd hp
      exact ⟨⟨q', List.mem_cons_of_mem q hq', hid'⟩, hrest⟩

/-- A decision does not touch the table. -/
theorem handle_decided_peers (s : Server) (now : Time) (request : LeaderNotificationRequest) :
    (s.handle (.decided now request)).peers = s.peers := by
  simp only [handle]
  split
  · rfl
  · rename_i view _
    rcases s.decideNotification_cases now request view with ⟨_, haccept⟩ | ⟨_, hsame, _⟩
    · rw [haccept]
    · rw [hsame]

/-- Every entry is under its own id. -/
def Filed (s : Server) : Prop := ∀ id p, s.peers.lookup id = some p → p.id = id

theorem updateFromPingRequest_lookup (hfiled : s.Filed) {info : Option PeerInfo}
    (h : (s.updateFromPingRequest now info).peers.lookup id = some p) :
    s.peers.lookup id = some p ∨ (∃ i, info = some i ∧ i.id = id) ∧ p.id = id ∧ p.lastPingTime = now := by
  cases info with
  | none => exact .inl h
  | some i =>
    simp only [updateFromPingRequest] at h
    split at h
    · exact .inl h
    · by_cases hid : i.id = id
      · subst hid
        have hown : ((s.peers.lookup i.id).getD (.new i.id)).id = i.id := by
          cases hp : s.peers.lookup i.id with
          | none => rfl
          | some q => exact hfiled _ q hp
        simp only [AList.lookup_insert, GossipPeer.updatePeerInfo, hown, ne_eq, not_true_eq_false, if_false] at h
        cases h
        exact .inr ⟨⟨i, rfl, rfl⟩, rfl, rfl⟩
      · simp only [AList.lookup_insert_ne (Ne.symm hid)] at h
        exact .inl h

/-- An answer counts only if it has the id of the peer that was pinged. -/
theorem updateFromPingResponse_lookup (hfiled : s.Filed) {id' : PeerId} {info : PeerInfo}
    (h : (s.updateFromPingResponse now id' info).peers.lookup id = some p) :
    s.peers.lookup id = some p ∨ info.id = id ∧ p.id = id ∧ p.lastPingTime = now := by
  simp only [updateFromPingResponse] at h
  split at h
  · exact .inl h
  · rename_i q hq
    by_cases hid : id = id'
    · subst hid
      by_cases hown : info.id = q.id
      · simp only [AList.lookup_insert, GossipPeer.updatePeerInfo, hown, ne_eq, not_true_eq_false, if_false] at h
        cases h
        have hq' := hfiled id q hq
        exact .inr ⟨hown.trans hq', hq', rfl⟩
      · simp only [AList.lookup_insert, GossipPeer.updatePeerInfo, ne_eq, hown, not_false_eq_true, if_true] at h
        exact .inl (hq.trans h)
    · simp only [AList.lookup_insert_ne hid] at h
      exact .inl h

theorem updateFromDiscovery_lookup {id' : PeerId} (h : (s.updateFromDiscovery id').peers.lookup id = some p) :
    s.peers.lookup id = some p ∨ s.peers.lookup id = none ∧ p = .new id := by
  simp only [updateFromDiscovery] at h
  split at h
  · rename_i hnone
    by_cases hid : id = id'
    · subst hid
      simp only [AList.lookup_insert] at h
      cases h
      exact .inr ⟨hnone, rfl⟩
    · simp only [AList.lookup_insert_ne hid] at h
      exact .inl h
  · exact .inl h

theorem addPeersFromView_lookup {view : View} (h : (s.addPeersFromView now view).peers.lookup id = some p) :
    s.peers.lookup id = some p ∨
      s.peers.lookup id = none ∧ (∃ q ∈ view.healthy, q.id = id) ∧ p.id = id ∧ p.lastPingTime = now := by
  cases hp : s.peers.lookup id with
  | some q =>
    rw [addPeersFromView, foldl_addPeer_known view.healthy hp] at h
    exact .inl h
  | none => exact .inr ⟨rfl, foldl_addPeer_new view.healthy hp h⟩

/-- **What one event can do to an entry.** It stays, it is new and not heard of
yet, its own ping came, or it is new and comes from a view. -/
theorem handle_lookup (hfiled : s.Filed) {e : GossipEvent} (h : (s.handle e).peers.lookup id = some p) :
    s.peers.lookup id = some p ∨ (s.peers.lookup id = none ∧ p = .new id) ∨
    (∃ now, e.Carries id now ∧ p.id = id ∧ p.lastPingTime = now) ∨
    ∃ now view, e = .merged now view ∧ s.peers.lookup id = none ∧ (∃ q ∈ view.healthy, q.id = id) ∧
      p.id = id ∧ p.lastPingTime = now := by
  cases e with
  | ping now info =>
    obtain hold | ⟨hinfo, hnew⟩ := updateFromPingRequest_lookup hfiled h
    · exact .inl hold
    · exact .inr (.inr (.inl ⟨now, ⟨rfl, hinfo⟩, hnew⟩))
  | pong now id' info =>
    obtain hold | ⟨hinfo, hnew⟩ := updateFromPingResponse_lookup hfiled h
    · exact .inl hold
    · exact .inr (.inr (.inl ⟨now, ⟨rfl, hinfo⟩, hnew⟩))
  | discovered id' =>
    obtain hold | hnew := updateFromDiscovery_lookup h
    · exact .inl hold
    · exact .inr (.inl hnew)
  | merged now view =>
    obtain hold | hnew := addPeersFromView_lookup h
    · exact .inl hold
    · exact .inr (.inr (.inr ⟨now, view, rfl, hnew⟩))
  | decided now request =>
    rw [handle_decided_peers] at h
    exact .inl h

theorem Filed.handle (hfiled : s.Filed) (e : GossipEvent) : (s.handle e).Filed := by
  intro id p h
  rcases handle_lookup hfiled h with hold | ⟨_, rfl⟩ | ⟨_, _, hown, _⟩ | ⟨_, _, _, _, _, hown, _⟩
  · exact hfiled id p hold
  · rfl
  · exact hown
  · exact hown

theorem Filed.run (hfiled : s.Filed) (es : List GossipEvent) : (s.run es).Filed := by
  induction es using List.reverseRecOn with
  | nil => exact hfiled
  | append_singleton es e ih =>
    rw [run_snoc]
    exact ih.handle e

/-- An entry stays in the table. -/
theorem mem_handle (e : GossipEvent) (h : id ∈ s.peers) : id ∈ (s.handle e).peers := by
  cases e with
  | ping now info =>
    simp only [Server.handle, updateFromPingRequest]
    split
    · exact h
    · split
      · exact h
      · simp [h]
  | pong now id' info =>
    simp only [Server.handle, updateFromPingResponse]
    split
    · exact h
    · simp [h]
  | discovered id' =>
    simp only [Server.handle, updateFromDiscovery]
    split
    · simp [h]
    · exact h
  | merged now view =>
    obtain ⟨p, hp⟩ := Option.isSome_iff_exists.1 (AList.lookup_isSome.2 h)
    exact AList.lookup_isSome.1 (by simp [Server.handle, addPeersFromView, foldl_addPeer_known view.healthy hp])
  | decided now request =>
    rw [handle_decided_peers]
    exact h

/-- An entry stays as it is until a ping carries its id. -/
theorem handle_known (hfiled : s.Filed) {e : GossipEvent} (h : s.peers.lookup id = some p)
    (he : ∀ now, ¬ e.Carries id now) : (s.handle e).peers.lookup id = some p := by
  have hmem : id ∈ (s.handle e).peers := mem_handle e (AList.lookup_isSome.1 (by simp [h]))
  obtain ⟨p', hp'⟩ := Option.isSome_iff_exists.1 (AList.lookup_isSome.2 hmem)
  rcases handle_lookup hfiled hp' with hold | ⟨hnone, _⟩ | ⟨now, hcarries, _⟩ | ⟨_, _, _, hnone, _⟩
  · rw [hp', ← hold, h]
  · rw [h] at hnone
    cases hnone
  · exact absurd hcarries (he now)
  · rw [h] at hnone
    cases hnone

/-! ## Runs -/

/-- Somewhere in the run, at this time, a ping carried the id, or a view named it
that was not known before. -/
def Learned (s₀ : Server) (es : List GossipEvent) (id : PeerId) (now : Time) : Prop :=
  ∃ pre e post, es = pre ++ e :: post ∧ (e.Carries id now ∨
    ∃ view, e = .merged now view ∧ (s₀.run pre).peers.lookup id = none ∧ ∃ q ∈ view.healthy, q.id = id)

variable {s₀ : Server} {es : List GossipEvent}

theorem Learned.snoc (h : s₀.Learned es id now) (e : GossipEvent) : s₀.Learned (es ++ [e]) id now := by
  obtain ⟨pre, e', post, hes, hcause⟩ := h
  exact ⟨pre, e', post ++ [e], by simp [hes], hcause⟩

theorem Learned.time (h : s₀.Learned es id now) : ∃ e ∈ es, e.time = some now := by
  obtain ⟨pre, e, post, hes, hcause⟩ := h
  refine ⟨e, by simp [hes], ?_⟩
  rcases hcause with hcarries | ⟨view, he, _⟩
  · cases e with
    | ping now' info => simp [GossipEvent.time, hcarries.1]
    | pong now' id' info => simp [GossipEvent.time, hcarries.1]
    | discovered _ => exact hcarries.elim
    | merged _ _ => exact hcarries.elim
    | decided _ _ => exact hcarries.elim
  · simp [he, GossipEvent.time]

/-- An entry that was heard of was heard of in the run, at the time it carries. -/
theorem learned_of_lookup (h₀ : s₀.peers = ∅) (es : List GossipEvent) (h : (s₀.run es).peers.lookup id = some p)
    (hheard : p.lastInfo.isSome = true) : s₀.Learned es id p.lastPingTime := by
  have hfiled : s₀.Filed := by simp [Filed, h₀]
  induction es using List.reverseRecOn generalizing p with
  | nil => simp [run, h₀] at h
  | append_singleton es e ih =>
    rw [run_snoc] at h
    rcases handle_lookup (hfiled.run es) h with
      hold | ⟨_, rfl⟩ | ⟨now, hcarries, _, htime⟩ | ⟨now, view, he, hnone, hmem, _, htime⟩
    · exact (ih hold hheard).snoc e
    · cases hheard
    · exact ⟨es, e, [], rfl, .inl (htime ▸ hcarries)⟩
    · exact ⟨es, e, [], rfl, .inr ⟨view, htime ▸ he, hnone, hmem⟩⟩

theorem run_known (hfiled : s.Filed) (h : s.peers.lookup id = some p) (es : List GossipEvent)
    (hes : ∀ e ∈ es, ∀ now, ¬ e.Carries id now) : (s.run es).peers.lookup id = some p := by
  induction es using List.reverseRecOn with
  | nil => exact h
  | append_singleton es e ih =>
    rw [run_snoc]
    have hbefore := ih fun e' he' => hes e' (by simp [he'])
    exact handle_known (hfiled.run es) hbefore (hes e (by simp))

@[simp] theorem handle_healthyTimeout (e : GossipEvent) : (s.handle e).healthyTimeout = s.healthyTimeout := by
  cases e with
  | decided now request =>
    simp only [Server.handle]
    split
    · rfl
    · simp only [decideNotification]
      split <;> rfl
  | ping now info =>
    simp only [Server.handle, updateFromPingRequest]
    split
    · rfl
    · split <;> rfl
  | pong now id info =>
    simp only [Server.handle, updateFromPingResponse]
    split <;> rfl
  | discovered id =>
    simp only [Server.handle, updateFromDiscovery]
    split <;> rfl
  | merged now view => rfl

@[simp] theorem run_healthyTimeout (es : List GossipEvent) : (s.run es).healthyTimeout = s.healthyTimeout := by
  induction es using List.reverseRecOn with
  | nil => rfl
  | append_singleton es e ih => rw [run_snoc, handle_healthyTimeout, ih]

end Server

theorem GossipPeer.status_isSome {p : GossipPeer} {timeout now : Time} :
    (p.status timeout now).isSome = true ↔ p.lastInfo.isSome = true ∧ now - p.lastPingTime ≤ timeout := by
  unfold GossipPeer.status
  cases p.lastInfo with
  | none => simp
  | some info =>
    simp only [Option.isSome_some, true_and]
    split
    next hlate => exact iff_of_false nofun (Int.not_le.2 hlate)
    next hlate => exact iff_of_true rfl (Int.not_lt.1 hlate)

/-- The server names this peer among the healthy ones. -/
def Server.Reports (s : Server) (t : Time) (id : PeerId) : Prop := ∃ info, (id, info) ∈ s.snapshotHealthy t

/-- **Hearsay keeps no peer alive.** In a run of a gossip server, by a clock that
does not run back, a peer is reported healthy only if within the timeout a ping
carried its id or a view made it known; and one that is known and has gone silent
is not reported again until a ping carries its id, whatever the views say. -/
theorem healthy_needs_sign_of_life (s₀ : Server) (h₀ : s₀.peers = ∅) (es : List GossipEvent) (t : Time)
    (hclock : (es.filterMap GossipEvent.time ++ [t]).Pairwise (· ≤ ·)) (id : PeerId) :
    ((s₀.run es).Reports t id → ∃ now, now ≤ t ∧ t - now ≤ s₀.healthyTimeout ∧ s₀.Learned es id now) ∧
    ∀ pre post t₁, es = pre ++ post → id ∈ (s₀.run pre).peers → t₁ ≤ t →
      ¬ (s₀.run pre).Reports t₁ id → (∀ e ∈ post, ∀ now, ¬ e.Carries id now) → ¬ (s₀.run es).Reports t id := by
  have hfiled : s₀.Filed := by simp [Server.Filed, h₀]
  simp only [Server.Reports, Server.mem_snapshotHealthy]
  constructor
  · intro ⟨p, hp, hstatus⟩
    rw [GossipPeer.status_isSome, Server.run_healthyTimeout] at hstatus
    have hlearned := Server.learned_of_lookup h₀ es hp hstatus.1
    obtain ⟨e, hmem, htime⟩ := hlearned.time
    have hbefore : p.lastPingTime ≤ t :=
      (List.pairwise_append.1 hclock).2.2 _ (List.mem_filterMap.2 ⟨e, hmem, htime⟩) t (by simp)
    exact ⟨p.lastPingTime, hbefore, hstatus.2, hlearned⟩
  · intro pre post t₁ hes hknown hle hsilent hpost ⟨p, hp, hstatus⟩
    obtain ⟨q, hq⟩ := Option.isSome_iff_exists.1 (AList.lookup_isSome.2 hknown)
    have hkept := Server.run_known (hfiled.run pre) hq post hpost
    have hrun : s₀.run es = (s₀.run pre).run post := by simp [hes, Server.run]
    rw [hrun, hkept] at hp
    cases hp
    apply hsilent
    rw [GossipPeer.status_isSome, Server.run_healthyTimeout] at hstatus
    have hinTime : t₁ - p.lastPingTime ≤ s₀.healthyTimeout := Int.le_trans (Int.sub_le_sub_right hle _) hstatus.2
    exact ⟨p, hq, GossipPeer.status_isSome.2 ⟨hstatus.1, by simpa using hinTime⟩⟩

/-- A peer pings once and falls silent; the views of a leader keep naming it. -/
theorem healthy_needs_sign_of_life_silent :
    let es : List GossipEvent := [.ping 0 (some ⟨"a", []⟩), .merged (2 * minute) ⟨none, "", [⟨"a", []⟩]⟩]
    ((Server.new ⟨"b", []⟩).run (es.take 1)).Reports 0 "a" ∧ ¬ ((Server.new ⟨"b", []⟩).run es).Reports (2 * minute) "a" := by
  intro es
  have hping : ((Server.new ⟨"b", []⟩).run (es.take 1)).peers.lookup "a" = some ⟨"a", some ⟨"a", []⟩, 0⟩ := rfl
  refine ⟨Server.mem_snapshotHealthy.2 ⟨_, hping, rfl⟩, ?_⟩
  have hclock : (es.filterMap GossipEvent.time ++ [2 * minute]).Pairwise (· ≤ ·) := by
    simp [es, GossipEvent.time, minute, second]
  have hsilent : ¬ ((Server.new ⟨"b", []⟩).run (es.take 1)).Reports (2 * minute) "a" := by
    intro hreports
    obtain ⟨p, hp, hstatus⟩ := Server.mem_snapshotHealthy.1 hreports
    rw [hping] at hp
    cases hp
    revert hstatus
    decide
  have hpost : ∀ e ∈ es.drop 1, ∀ now, ¬ e.Carries "a" now := by simp [es, GossipEvent.Carries]
  exact (healthy_needs_sign_of_life (.new ⟨"b", []⟩) rfl es (2 * minute) hclock "a").2 (es.take 1) (es.drop 1)
    (2 * minute) rfl (AList.lookup_isSome.1 (by rw [hping]; rfl)) (Int.le_refl _) hsilent hpost

end Etcdadm
