/-
The upkeep of a running cluster, part by part.

`maintain` makes a backup if one is due, checks that it knows the version,
and then takes the first change that is called for: of the quarantine, of the
membership, of TLS, of the version. Each part is only reached if those before
it had nothing to do, and `Kept` says what that means for the membership.
`wp_maintain` is the rule for the whole; a result about the upkeep looks at
the parts it is about.
-/
import Etcdadm.Quarantine

namespace Etcdadm

open EtcdController ClusterState

variable {m : EtcdController} {l : LeadershipState} {cs : ClusterState} {spec : ClusterSpec} {acked : Nat}

namespace ClusterState

theorem Consistent.healthy_isSome (hc : cs.Consistent) (id : EtcdMemberId)
    (h : (cs.healthyMembers.lookup id).isSome) : (cs.members.lookup id).isSome := by
  obtain ⟨member, hm⟩ := Option.isSome_iff_exists.1 h
  rw [hc.healthy id member hm]
  rfl

theorem Consistent.healthy_le (hc : cs.Consistent) : cs.healthyMembers.size ≤ cs.members.size :=
  GoMap.size_le hc.healthy_isSome

/-- Every registered member is healthy. -/
def AllHealthy (cs : ClusterState) : Prop :=
  ∀ id member, cs.members.lookup id = some member → cs.healthyMembers.lookup id = some member

theorem Consistent.allHealthy_iff (hc : cs.Consistent) : cs.AllHealthy ↔ cs.members.size ≤ cs.healthyMembers.size := by
  constructor
  · intro hall
    refine GoMap.size_le fun id hid => ?_
    obtain ⟨member, hm⟩ := Option.isSome_iff_exists.1 hid
    rw [hall id member hm]
    rfl
  · intro hle id member hm
    obtain ⟨member', h⟩ := Option.isSome_iff_exists.1
      (GoMap.lookup_isSome_of_size_le hc.healthy_isSome hle (Option.isSome_iff_exists.2 ⟨member, hm⟩))
    have hsame := (hc.healthy id member' h).symm.trans hm
    cases hsame
    exact h

/-- Some peer has no cluster. -/
def HasIdle (cs : ClusterState) : Prop := ∃ id p, cs.peers.lookup id = some p ∧ p.configured = false

/-- The membership is left as it is: there are members, as many as there should
be, and no more peers than that have a cluster; and if a member is unhealthy,
it is not replaced, since nobody could take its place, or too few would be
left, or too few peers acknowledge the leader. -/
structure Kept (acked : Nat) (cs : ClusterState) (spec : ClusterSpec) : Prop where
  inhabited : cs.members.size ≠ 0
  full : spec.memberCount ≤ cs.members.size
  configured : (cs.configuredMembers : Int) ≤ spec.memberCount
  unreplaced : cs.healthyMembers.size < cs.members.size →
    ¬ cs.HasIdle ∨ cs.members.size ≤ 2 ∨ (cs.members.size : Int) ≤ spec.memberCount ∨ ¬ AckedQuorum acked spec

end ClusterState

/-! ## When the parts have nothing to do -/

theorem returns_checkQuarantine :
    (m.checkQuarantine l acked cs spec).Returns fun r => r = none → cs.verdict acked spec = .pass := by
  rw [checkQuarantine_eq]
  split
  next h => exact fun _ => h
  · exact nofun
  · exact .bind (.trivially _) fun _ _ => nofun

theorem returns_idlePeers : cs.idlePeers.Returns fun idle =>
    ∀ e, e ∈ idle ↔ cs.peers.lookup e.1 = some e.2 ∧ e.2.configured = false := by
  refine Returns.range fun peers hperm e => ?_
  rw [List.mem_filter, hperm.mem_iff, GoMap.mem_pairs]
  simp

theorem returns_replaceUnhealthy : (m.replaceUnhealthy l acked cs spec).Returns fun r => r = none →
    cs.healthyMembers.size < cs.members.size →
      ¬ cs.HasIdle ∨ cs.members.size ≤ 2 ∨ (cs.members.size : Int) ≤ spec.memberCount ∨ ¬ AckedQuorum acked spec := by
  unfold replaceUnhealthy
  split
  · refine .bind returns_idlePeers fun idle hidle => ?_
    split
    next hnil =>
      intro _ _
      refine .inl ?_
      rintro ⟨id, p, hp⟩
      have hmem : (id, p) ∈ idle := (hidle (id, p)).2 hp
      rw [hnil] at hmem
      cases hmem
    · split
      next hsmall => exact fun _ _ => .inr (.inl hsmall)
      · split
        next hfew => exact fun _ _ => .inr (.inr (.inl hfew))
        · split
          next hacked => exact fun _ _ => .inr (.inr (.inr (Int.not_le.2 hacked)))
          · exact .bind (.trivially _) fun _ _ => nofun
  next hall => exact fun _ h => (hall h).elim

theorem returns_resize_none : (m.resize l acked cs spec).Returns fun r => r.2 = none → cs.Kept acked spec := by
  unfold resize
  split
  · split
    · exact .bind (.trivially _) fun _ _ => nofun
    · split
      · exact .bind (.trivially _) fun _ _ => nofun
      · exact nofun
  next hfull =>
  split
  · exact nofun
  next hne =>
  split
  · split
    · exact .bind (.trivially _) fun _ _ => nofun
    · exact nofun
  next hconf =>
  refine .bind returns_replaceUnhealthy fun r hr hnone => ?_
  exact ⟨hne, Int.not_lt.1 hfull, Int.not_lt.1 hconf, hr hnone⟩

/-! ## The whole -/

section

variable {σ : Type} {M : Monitor ctlSig σ} {I K : σ → Prop} {Q : σ → EtcdController × Progress → Prop}

/-- `I` is what is known before the membership is looked at, `K` what is known
if it is left as it is. -/
theorem wp_maintain {s : σ} (hs : I s) (dies : ∀ s e, M.crash s e)
    (looks : ∀ s r, I s → Sends l [.look, .backup] r → M.must s r ∧ ∀ x, M.may s r x → I (M.next s r x))
    (fails : ∀ s m' err, I s → m.Stays m' → Q s (m', false, some err))
    (quarantines : ∀ s m', I s → m.Stays m' → M.wp (m'.checkQuarantine l acked cs spec) s fun s r =>
      (∀ p, r = some p → Q s (m', p)) ∧ (r = none → I s))
    (resizes : ∀ s m', I s → m.Stays m' → cs.verdict acked spec = .pass →
      M.wp (m'.resize l acked cs spec) s fun s r => (∀ p, r.2 = some p → Q s (r.1, p)) ∧ (r.2 = none → K s))
    (settles : ∀ s m', K s → m.Stays m' → cs.verdict acked spec = .pass → cs.Kept acked spec →
      M.wp (m'.settle l acked cs spec) s Q) :
    M.wp (m.maintain l acked cs spec) s Q := by
  refine Monitor.wp_bind.2 (wp_keep looks dies uses_backupMembers returns_backupMembers hs fun s c hs hc => ?_)
  refine Monitor.wp_bind.2 (wp_keep looks dies (Uses.of_look (by simp) uses_verifyEtcdVersion) (.trivially _) hs
    fun s err hs _ => ?_)
  cases err with
  | some err => exact fails s c err hs hc
  | none =>
  refine Monitor.wp_bind.2 (Monitor.wp_mono ?_ (Monitor.wp_and_returns (quarantines s c hs hc) returns_checkQuarantine))
  intro s r ⟨⟨hsome, hnone⟩, hpass⟩
  cases r with
  | some r => exact hsome r rfl
  | none =>
  refine Monitor.wp_bind.2 (Monitor.wp_mono ?_ (Monitor.wp_and_returns (Monitor.wp_and_returns
    (resizes s c (hnone rfl) hc (hpass rfl)) returns_resize) returns_resize_none))
  intro s ⟨c', r⟩ ⟨⟨⟨hsome, hnone⟩, hc'⟩, hkept⟩
  cases r with
  | some r => exact hsome r rfl
  | none => exact settles s c' (hnone rfl) (hc.trans hc') (hpass rfl) (hkept rfl)

end

/-! ## Getting to a part -/

section

variable {bad : CtlReq → Prop}

/-- Unless a backup is due, none is made. -/
theorem backupMembers_runs : ∃ tr, Runs (m.backupMembers l spec cs) tr (.ret m) := by
  unfold backupMembers
  split
  · have hdue (a b : Int) : ¬ a + b - a > b := by omega
    refine ⟨[⟨.now, m.lastBackup + m.backupInterval⟩], .ctl ?_⟩
    rw [if_neg (hdue _ _)]
    exact .refl
  · exact ⟨[], .refl⟩

theorem replaceUnhealthy_runs (h : cs.Kept acked spec) : ∃ tr, Runs (m.replaceUnhealthy l acked cs spec) tr (.ret none) := by
  unfold replaceUnhealthy
  split
  next hlt =>
    have hrange {f : List (PeerId × ClusterPeerInfo) → CtlM (Option Progress)}
        (hf : ∀ idle, (∀ e, e ∈ idle ↔ cs.peers.lookup e.1 = some e.2 ∧ e.2.configured = false) → f idle = .ret none) :
        ∃ tr, Runs (cs.idlePeers >>= f) tr (.ret none) := by
      obtain ⟨idle, hidle⟩ : ∃ idle, Runs cs.idlePeers [⟨.rangeOver cs.peers.keys, ⟨_, .refl _⟩⟩] (.ret idle) :=
        ⟨_, .range (.refl _) .refl⟩
      have hrest : Runs (f idle) [] (.ret none) := by
        rw [hf idle (hidle.returns returns_idlePeers)]
        exact .refl
      exact ⟨_, hidle.andThen hrest⟩
    refine hrange fun idle hidle => ?_
    by_cases hnil : idle = []
    · rw [if_pos hnil]
      rfl
    have hhas : cs.HasIdle := by
      obtain ⟨e, rest, rfl⟩ := List.exists_cons_of_ne_nil hnil
      exact ⟨e.1, e.2, (hidle e).1 List.mem_cons_self⟩
    rw [if_neg hnil]
    -- one of the other reasons holds
    rcases h.unreplaced hlt with hno | hsmall | hfew | hacked
    · exact (hno hhas).elim
    · rw [if_pos hsmall]
      rfl
    · rw [if_pos hfew]
      split <;> rfl
    · rw [if_pos (Int.not_le.1 hacked)]
      split
      · rfl
      · split <;> rfl
  · exact ⟨[], .refl⟩

theorem resize_runs (h : cs.Kept acked spec) : ∃ tr, Runs (m.resize l acked cs spec) tr (.ret (m, none)) := by
  obtain ⟨tr, hrun⟩ := @replaceUnhealthy_runs m l cs spec acked h
  have hfull := h.full
  have hconf := h.configured
  unfold resize
  rw [if_neg (by omega), if_neg h.inhabited, if_neg (by omega)]
  exact ⟨_, hrun.andThen .refl⟩

/-- What is left to do after the checks. -/
theorem maintain_reaches {bad : CtlReq → Prop} (hpass : cs.verdict acked spec = .pass)
    (h : (m.resize l acked cs spec).Reaches (fun _ => False) bad ∨
      cs.Kept acked spec ∧ (m.settle l acked cs spec).Reaches (fun _ => False) bad) :
    (m.maintain l acked cs spec).Reaches (fun _ => False) bad := by
  obtain ⟨tr, hbackup⟩ := @backupMembers_runs m l cs spec
  have hversion : Runs (verifyEtcdVersion spec) [⟨.bindirForEtcdVersion spec.etcdVersion "etcd", .ok ""⟩] (.ret none) :=
    .step .refl
  refine .after hbackup (.trivially (fun _ => not_false) _) ?_
  refine .after hversion (.trivially (fun _ => not_false) _) ?_
  dsimp only
  rw [checkQuarantine_eq, hpass]
  change Prog.Reaches _ _ (m.resize l acked cs spec >>= _)
  rcases h with hresize | ⟨hkept, hsettle⟩
  · exact .bind hresize
  · obtain ⟨tr, hrun⟩ := @resize_runs m l cs spec acked hkept
    exact .after hrun (.trivially (fun _ => not_false) _) hsettle

end

end Etcdadm
