/-
What a restore leaves on the machine it runs on.

A restore keeps its files in a directory of its own, and in there runs an etcd over the backup.
Wherever it is cut, nothing outside of that directory has changed but for directories made
above it, and neither have the backups. When it returns, with an error or without, the etcd is
stopped and the directory gone, as long as stopping and removing do not fail themselves; both
errors are only logged.
-/
import Etcdadm.BackupRoundTrip

namespace Etcdadm.Backup

/-! ## What a restore leaves -/

section Leaves

variable {codec : Codec} {backupsBase root p : VfsPath} {d d' d'' : Disk} {w w₀ w' : World}

/-- Apart from what is at or below the path, nothing is new but directories above it. -/
def Leaves (root : VfsPath) (d d' : Disk) : Prop :=
  ∀ p, ¬ root <+: p → d' p = d p ∨ (p <+: root ∧ d p = none ∧ d' p = some .dir)

theorem Leaves.trans (h : Leaves root d d') (h' : Leaves root d' d'') : Leaves root d d'' := by
  intro p hp
  rcases h' p hp with heq' | ⟨habove, hnone, hdir⟩
  · rw [heq']
    exact h p hp
  · rcases h p hp with heq | ⟨_, _, hdir'⟩
    · exact .inr ⟨habove, heq ▸ hnone, hdir⟩
    · cases hnone.symm.trans hdir'

theorem Leaves.of_within (h : Disk.Within p d d') (hp : root <+: p) : Leaves root d d' :=
  fun _ hq => .inl (h _ fun hpq => hq (hp.trans hpq))

theorem Leaves.refl : Leaves root d d := .of_within (p := root) .refl (List.prefix_refl _)

theorem leaves_set {n : Inode} (hp : root <+: p) : Leaves root d (d.set p n) := .of_within Disk.within_set hp

/-- The directories of a path that meets the other are above it or at and below it. -/
theorem leaves_mkdirs (hclear : d.Clear p) (hp : root <+: p ∨ p <+: root) : Leaves root d (d.mkdirs p) := by
  intro q hq
  by_cases hqp : q <+: p
  · have habove : q <+: root := by
      rcases hp with hp | hp
      · exact (List.prefix_or_prefix_of_prefix hqp hp).resolve_right hq
      · exact hqp.trans hp
    rw [Disk.mkdirs_above hqp]
    cases hnode : d q with
    | none => exact .inr ⟨habove, rfl, rfl⟩
    | some n =>
      cases n with
      | dir => exact .inl rfl
      | file data => exact absurd hnode (hclear q hqp data)
  · exact .inl (Disk.mkdirs_elsewhere hqp)

theorem leaves_move {q : VfsPath} (hp : root <+: p) (hq : root <+: q) : Leaves root d (d.move p q) :=
  fun _ hx => .inl (Disk.move_of_not (fun hqx => hx (hq.trans hqx)) fun hpx => hx (hp.trans hpx))

/-- What the request changes is at or below the path. -/
def Req.Inside (root : VfsPath) : Req → Prop
  | .store (.writeFile _ _) | .store (.remove _) | .mkdirTemp | .snapshot => False
  | .mkdirAll p | .createTemp p | .create p | .write p _ | .remove p | .removeAll p | .writeTo _ p | .createKeypairs p
  | .etcdctl _ _ _ p | .start _ _ p => root <+: p
  | .rename p q => root <+: p ∧ root <+: q
  | _ => True

/-- The machine is as it was, but for what is at or below the path and the etcd that is restored to. -/
structure Confined (root : VfsPath) (w w' : World) : Prop where
  files : w'.store.files = w.store.files
  disk : Leaves root w.disk w'.disk
  running : ∀ dataDir keys, w'.running = some (dataDir, keys) → root <+: dataDir

theorem Confined.refl (hidle : w.running = none) : Confined root w w := by
  refine ⟨rfl, .refl, fun dataDir keys hrunning => ?_⟩
  rw [hidle] at hrunning
  cases hrunning

theorem Confined.wrote (h : Confined root w₀ w) (hleaves : Leaves root w.disk d') : Confined root w₀ { w with disk := d' } :=
  ⟨h.files, h.disk.trans hleaves, h.running⟩

theorem Effect.confined {r : Req} {x : r.Resp} (heffect : Effect codec w r x w') (hr : r.Inside root) (h : Confined root w₀ w) :
    Confined root w₀ w' := by
  cases heffect with
  | @store r _ _ _ hserves =>
    have hquiet : (Req.store r).Quiet := by
      cases r with
      | writeFile | remove => exact hr.elim
      | _ => trivial
    exact ⟨(serves_files hserves hquiet).trans h.files, h.disk, h.running⟩
  | made hclear => exact h.wrote (leaves_mkdirs hclear (.inl hr))
  | @makeStopped p q _ hq _ hclear => exact h.wrote (leaves_mkdirs hclear (List.prefix_or_prefix_of_prefix hr hq))
  | mkdirTemp | mkdirTempFailed | snapshot | snapshotStopped | snapshotFailed => exact hr.elim
  | createTemp => exact h.wrote (leaves_set (hr.trans (List.prefix_append ..)))
  | created | written | writeStopped | downloaded | downloadedInfo | downloadStopped => exact h.wrote (leaves_set hr)
  | renamed => exact h.wrote (leaves_move hr.1 hr.2)
  | @removed p => exact h.wrote fun q hq => .inl (Function.update_of_ne (fun heq : q = p => hq (heq ▸ hr)) _ _)
  | removedAll => exact h.wrote fun q hq => .inl (Disk.cleared_elsewhere fun hpq => hq (hr.trans hpq))
  | removeAllStopped hstopped => exact h.wrote fun q hq => .inl ((hstopped q).resolve_right fun hpq => hq (hr.trans hpq.1))
  | createKeypairs hwithin => exact h.wrote (.of_within hwithin hr)
  | restored _ _ hwithin =>
    have hw := h.wrote (.of_within hwithin hr)
    exact ⟨hw.files, hw.disk, hw.running⟩
  | restoreFailed _ hwithin =>
    have hw := h.wrote (.of_within hwithin hr)
    exact ⟨hw.files, hw.disk, hw.running⟩
  | started =>
    refine ⟨h.files, h.disk, fun dataDir keys hrunning => ?_⟩
    cases hrunning
    exact hr
  | stopped => exact ⟨h.files, h.disk, by simp⟩
  | copy => exact ⟨h.files, h.disk, h.running⟩
  | _ => exact h

theorem Serves.confined {r : Req} {x : r.Resp} (hserves : Serves codec w r x w') (hr : r.Inside root)
    (h : Confined root w₀ w) : Confined root w₀ w' := by
  obtain ⟨d', hwrites, heffect⟩ := hserves
  refine heffect.confined hr (h.wrote ?_)
  cases hrunning : w.running with
  | none => exact hwrites.1 hrunning ▸ .refl
  | some process => exact .of_within (hwrites.2 _ _ hrunning) (h.running _ _ hrunning)

end Leaves

/-! ## The requests of a restore -/

section Inside

variable {codec : Codec} {backupsBase root : VfsPath} {quote : CopyTo.Key → String} {fuel : Nat}

/-- Requests that come before the process runs. -/
def Before (root : VfsPath) (r : Req) : Prop := r.Quiet ∧ r.Inside root

theorem uses_loadInfo_before {name : String} : (loadInfo codec backupsBase name).Uses (Before root) True := by
  refine uses_ask ⟨trivial, trivial⟩ fun x => ?_
  split
  · trivial
  · trivial
  · split <;> trivial

theorem uses_writePieces {p : VfsPath} (hp : root <+: p) : ∀ pieces : List String, (writePieces p pieces).Uses (Before root) True
  | [] => trivial
  | piece :: pieces => by
    refine uses_ask ⟨trivial, hp⟩ fun x => ?_
    split
    · trivial
    · exact uses_writePieces hp pieces

theorem uses_writeAndRename {src tempfile dest : VfsPath} (htemp : root <+: tempfile) (hdest : root <+: dest) :
    (writeAndRename src tempfile dest).Uses (Before root) True := by
  have hremove (err : Error) : (ask (.remove tempfile) >>= fun _ => return some err).Uses (Before root) True :=
    uses_ask ⟨trivial, htemp⟩ fun _ => trivial
  refine uses_ask ⟨trivial, htemp⟩ fun x => ?_
  split
  · exact uses_ask ⟨trivial, trivial⟩ fun _ => hremove _
  · refine uses_ask ⟨trivial, trivial⟩ fun x => ?_
    split
    · exact hremove _
    · refine uses_ask ⟨trivial, htemp, hdest⟩ fun x => ?_
      split
      · exact hremove _
      · trivial

theorem uses_expand {file dest : VfsPath} (hdest : root <+: dest) : (expand codec file dest).Uses (Before root) True := by
  refine uses_ask ⟨trivial, trivial⟩ fun x => ?_
  split
  · trivial
  · refine uses_ask ⟨trivial, hdest⟩ fun x => ?_
    split
    · trivial
    · split
      · trivial
      · refine .bind (uses_writePieces hdest _) fun r => ?_
        split
        · trivial
        · split
          · trivial
          · split <;> trivial

theorem uses_restoreV3Snapshot {p : EtcdProcess} {snapshotFile dataDir : VfsPath} (hdir : root <+: dataDir) :
    (restoreV3Snapshot p snapshotFile dataDir).Uses (Before root) True := by
  unfold restoreV3Snapshot
  split
  · trivial
  · refine uses_ask ⟨trivial, hdir⟩ fun x => ?_
    split <;> trivial

theorem uses_createRestoreKeypairs {pkiDir : VfsPath} (hdir : root <+: pkiDir) :
    (createRestoreKeypairs pkiDir).Uses (Before root) True := by
  refine uses_ask ⟨trivial, trivial⟩ fun x => ?_
  split
  · trivial
  · refine uses_ask ⟨trivial, trivial⟩ fun x => ?_
    split
    · trivial
    · refine uses_ask ⟨trivial, hdir⟩ fun x => ?_
      split <;> trivial

theorem uses_copyToTarget : (copyToTarget quote fuel).Uses (Req.Inside root) True := by
  refine uses_ask trivial fun x => ?_
  split
  · trivial
  · have hon (r : CopyTo.CopyReq) : (ask (.copy r)).Uses (Req.Inside root) True := ⟨trivial, fun _ => trivial⟩
    refine .bind (.handle hon trivial _) fun r => ?_
    split <;> trivial

end Inside

/-! ## At every point, and in the end -/

section Run

variable {codec : Codec} {backupsBase root : VfsPath} {quote : CopyTo.Key → String} {fuel : Nat} {w w₀ : World} {tidy : Prop}

/-- Before the process runs. -/
def Prepares (root : VfsPath) (w₀ w : World) : Prop := w.running = none ∧ Confined root w₀ w

theorem Serves.prepares {w' : World} {r : Req} {x : r.Resp} (hserves : Serves codec w r x w') (hr : Before root r)
    (h : Prepares root w₀ w) : Prepares root w₀ w' :=
  ⟨(hserves.aside h.1 hr.1).idle h.1, hserves.confined hr.2 h.2⟩

theorem always_before {α : Type} {p : M α} (huses : p.Uses (Before root) True) (h : Prepares root w₀ w) :
    p.Always (Serves codec) (Confined root w₀) (fun w' _ => Prepares root w₀ w') w := by
  refine Prog.Always.weaken (fun _ h => h.2) (.of_uses (I := Prepares root w₀) ?_ huses h)
  intro w₁ r x w₂ hr hserves h₁
  exact hserves.prepares hr h₁

theorem always_downloadBackup_before {name : String} {dest : VfsPath} (hdest : root <+: dest.dropLast)
    (h : Prepares root w₀ w) : (downloadBackup backupsBase name dest).Always (Serves codec) (Confined root w₀)
      (fun w' _ => Prepares root w₀ w') w := by
  refine always_ask fun x w₁ hmake => ?_
  have h₁ := hmake.prepares ⟨trivial, hdest⟩ h
  refine ⟨h₁.2, ?_⟩
  cases x with
  | error err => exact h₁
  | ok u =>
    refine always_ask fun x w₂ hcreate => ?_
    have h₂ := hcreate.prepares ⟨trivial, hdest⟩ h₁
    refine ⟨h₂.2, ?_⟩
    cases x with
    | error err => exact h₂
    | ok tempfile =>
      have htemp : root <+: tempfile := by
        cases hcreate.effect h₁.1
        exact hdest.trans (List.prefix_append ..)
      exact always_before (uses_writeAndRename htemp (hdest.trans (List.dropLast_prefix _))) h₂

theorem below_basedir {l : VfsPath} : root <+: root ++ l := List.prefix_append ..

/-- If there is an error, there is no process. -/
def Started (root : VfsPath) (w₀ w : World) (err : Option Error) : Prop := Confined root w₀ w ∧ (err ≠ none → w.running = none)

theorem Prepares.started {err : Error} (h : Prepares root w₀ w) : Started root w₀ w (some err) := ⟨h.2, fun _ => h.1⟩

theorem always_startFromDownload_before {p : EtcdProcess} (h : Prepares root w₀ w) :
    (startFromDownload codec p root).Always (Serves codec) (Confined root w₀) (Started root w₀) w := by
  refine .bind ((always_before (uses_createRestoreKeypairs below_basedir) h).mono fun w₁ r h₁ => ?_)
  cases r with
  | some err => exact h₁.started
  | none =>
    refine .bind ((always_before (uses_expand below_basedir) h₁).mono fun w₂ r h₂ => ?_)
    cases r with
    | some err => exact h₂.started
    | none =>
      refine .bind ((always_before (uses_restoreV3Snapshot below_basedir) h₂).mono fun w₃ r h₃ => ?_)
      cases r with
      | some err => exact h₃.started
      | none =>
        refine always_ask fun x w₄ hstart => ?_
        have h₄ : Confined root w₀ w₄ := hstart.confined below_basedir h₃.2
        refine ⟨h₄, ?_⟩
        have heffect := hstart.effect h₃.1
        cases x with
        | ok u => exact ⟨h₄, fun hne => absurd rfl hne⟩
        | error err =>
          refine ⟨h₄, fun _ => ?_⟩
          cases heffect
          exact h₃.1

theorem always_runEtcdFromBackup_before {name : String} (h : Prepares root w₀ w) :
    (runEtcdFromBackup codec backupsBase name root).Always (Serves codec) (Confined root w₀) (Started root w₀) w := by
  refine .bind ((always_before uses_loadInfo_before h).mono fun w₁ r h₁ => ?_)
  cases r with
  | error err => exact h₁.started
  | ok info =>
    simp only
    split
    · exact h₁.started
    have hdest : root <+: (root ++ ["download", "snapshot.db.gz"]).dropLast := by
      rw [List.dropLast_append_of_ne_nil (by simp)]
      exact below_basedir
    refine .bind ((always_downloadBackup_before hdest h₁).mono fun w₂ r h₂ => ?_)
    cases r with
    | some err => exact h₂.started
    | none =>
      refine always_ask fun x w₃ hbindir => ?_
      have h₃ : Prepares root w₀ w₃ := hbindir.prepares ⟨trivial, trivial⟩ h₂
      refine ⟨h₃.2, ?_⟩
      cases x with
      | error err => exact h₃.started
      | ok binDir => exact always_startFromDownload_before h₃

/-- What is not to fail: to stop the process, and to remove the directory. -/
def Tidy : (r : Req) → r.Resp → Prop
  | .stop, x => x = .ok ()
  | .removeAll _, x => x = .ok ()
  | _, _ => True

/-- A machine that can stop and remove. -/
def TidyServes (codec : Codec) (w : World) (r : Req) (x : r.Resp) (w' : World) : Prop := Serves codec w r x w' ∧ Tidy r x

/-- Any machine, and if it is to be tidy one that can stop and remove. -/
def ServesIf (tidy : Prop) (codec : Codec) (w : World) (r : Req) (x : r.Resp) (w' : World) : Prop :=
  Serves codec w r x w' ∧ (tidy → Tidy r x)

theorem always_if {α : Type} {p : M α} {I : World → Prop} {Q : World → α → Prop} (h : p.Always (Serves codec) I Q w) :
    p.Always (ServesIf tidy codec) I Q w := h.of_le fun _ _ _ _ hserves => hserves.1

theorem always_ask_if {α : Type} {I : World → Prop} {Q : World → α → Prop} {r : Req} {f : r.Resp → M α}
    (h : ∀ x w', ServesIf tidy codec w r x w' → I w' ∧ (f x).Always (ServesIf tidy codec) I Q w') :
    (ask r >>= f).Always (ServesIf tidy codec) I Q w := h

theorem always_restoreFrom {name : String} (h : Prepares root w₀ w) :
    (restoreFrom codec backupsBase quote fuel name root).Always (ServesIf tidy codec) (Confined root w₀)
      (fun w' _ => Confined root w₀ w' ∧ (tidy → w'.running = none)) w := by
  refine .bind ((always_if (always_runEtcdFromBackup_before h)).mono fun w₁ r h₁ => ?_)
  cases r with
  | some err => exact ⟨h₁.1, fun _ => h₁.2 (by simp)⟩
  | none =>
    have hcopy : (copyToTarget quote fuel).Always (Serves codec) (Confined root w₀) (fun w' _ => Confined root w₀ w') w₁ :=
      .of_uses (fun _ _ _ _ hr hserves h => hserves.confined hr h) uses_copyToTarget h₁.1
    refine .bind ((always_if hcopy).mono fun w₂ r h₂ => ?_)
    refine always_ask_if fun x w₃ hstop => ?_
    have h₃ : Confined root w₀ w₃ := hstop.1.confined trivial h₂
    refine ⟨h₃, h₃, fun htidy => ?_⟩
    obtain ⟨⟨d', hwrites, heffect⟩, hstopped⟩ := hstop
    cases hstopped htidy
    cases heffect
    rfl

/-- What is at or below the path is gone, or as it was. -/
def Gone (root : VfsPath) (d d' : Disk) : Prop := ∀ p, root <+: p → d' p = none ∨ d' p = d p

/-- Directories that were made in vain are above the one that was not. -/
theorem Effect.not_made {w' : World} {p : VfsPath} {err : Error} (h : Effect codec w (.mkdirAll root) (.error err) w')
    (hp : root <+: p) : w'.disk p = w.disk p := by
  cases h with
  | makeFailed => rfl
  | makeStopped hq hne _ =>
    refine Disk.mkdirs_elsewhere fun hpq => hne ?_
    exact hq.eq_of_length (le_antisymm hq.length_le (hp.trans hpq).length_le)

theorem always_doRestore_if {name : String} (hidle : w.running = none) :
    (doRestore codec backupsBase quote fuel name).Always (ServesIf tidy codec) (fun w' => ∃ now, Confined (restoreDir now) w w')
      (fun w' _ => ∃ now, Confined (restoreDir now) w w' ∧ (tidy → w'.running = none ∧ Gone (restoreDir now) w.disk w'.disk)) w := by
  refine always_ask_if fun now w₁ hnow => ?_
  have h₁ : Prepares (restoreDir now) w w₁ := hnow.1.prepares ⟨trivial, trivial⟩ ⟨hidle, .refl hidle⟩
  refine ⟨⟨now, h₁.2⟩, always_ask_if fun x w₂ hmake => ?_⟩
  have h₂ := hmake.1.prepares ⟨trivial, List.prefix_refl _⟩ h₁
  refine ⟨⟨now, h₂.2⟩, ?_⟩
  have heffect := hmake.1.effect h₁.1
  cases x with
  | error err =>
    refine ⟨now, h₂.2, fun _ => ⟨h₂.1, fun p hp => .inr ?_⟩⟩
    have hdisk : w₁.disk = w.disk := by
      cases hnow.1.effect hidle
      rfl
    rw [heffect.not_made hp, hdisk]
  | ok u =>
    refine .bind (.weaken (fun _ h => ⟨now, h⟩) ((always_restoreFrom h₂).mono fun w₃ r h₃ => ?_))
    refine always_ask_if fun x w₄ hremove => ?_
    have h₄ : Confined (restoreDir now) w w₄ := hremove.1.confined (List.prefix_refl _) h₃.1
    refine ⟨⟨now, h₄⟩, now, h₄, fun htidy => ?_⟩
    have hstopped := h₃.2 htidy
    refine ⟨(hremove.1.prepares ⟨trivial, List.prefix_refl _⟩ ⟨hstopped, h₃.1⟩).1, fun p hp => .inl ?_⟩
    have heffect := hremove.1.effect hstopped
    cases hremove.2 htidy
    cases heffect
    exact Disk.cleared_below hp

theorem cut_doRestore {name : String} {w' : World} (hidle : w.running = none) {p : M (Except Error Unit)}
    (hgoes : Prog.Goes (ServesIf tidy codec) w (doRestore codec backupsBase quote fuel name) p w') :
    ∃ now, Confined (restoreDir now) w w' ∧
      (tidy → ∀ response, p = .ret response → w'.running = none ∧ Gone (restoreDir now) w.disk w'.disk) := by
  obtain ⟨⟨now, hconfined⟩, hend⟩ := Prog.Always.goes hgoes (always_doRestore_if hidle) ⟨0, .refl hidle⟩
  by_cases hret : ∃ response, p = .ret response
  · obtain ⟨response, rfl⟩ := hret
    obtain ⟨now, hconfined, hgone⟩ := hend
    exact ⟨now, hconfined, fun htidy _ _ => hgone htidy⟩
  · exact ⟨now, hconfined, fun _ response hp => absurd ⟨response, hp⟩ hret⟩

/-- **A restore cleans up.** Wherever it is cut, the backups are as they were, and so is the machine
outside of the restore's own directory but for directories made above it. When it has returned, and
could stop and remove, its etcd does not run and its directory is gone, unless it could not be made. -/
theorem restore_cleans_up (codec : Codec) (backupsBase : VfsPath) (quote : CopyTo.Key → String) (fuel : Nat) (name : String)
    (w w' : World) (hidle : w.running = none) (p : M (Except Error Unit))
    (hgoes : Prog.Goes (Serves codec) w (doRestore codec backupsBase quote fuel name) p w') :
    ∃ now, w'.store.files = w.store.files ∧ Leaves (restoreDir now) w.disk w'.disk ∧
      (Prog.Goes (TidyServes codec) w (doRestore codec backupsBase quote fuel name) p w' →
        ∀ response, p = .ret response → w'.running = none ∧ Gone (restoreDir now) w.disk w'.disk) := by
  by_cases htidy : Prog.Goes (TidyServes codec) w (doRestore codec backupsBase quote fuel name) p w'
  · have hgoes' : Prog.Goes (ServesIf True codec) w (doRestore codec backupsBase quote fuel name) p w' :=
      htidy.mono fun _ _ _ _ h => ⟨h.1, fun _ => h.2⟩
    obtain ⟨now, hconfined, hend⟩ := cut_doRestore hidle hgoes'
    exact ⟨now, hconfined.files, hconfined.disk, fun _ => hend trivial⟩
  · have hgoes' : Prog.Goes (ServesIf False codec) w (doRestore codec backupsBase quote fuel name) p w' :=
      hgoes.mono fun _ _ _ _ h => ⟨h, False.elim⟩
    obtain ⟨now, hconfined, _⟩ := cut_doRestore hidle hgoes'
    exact ⟨now, hconfined.files, hconfined.disk, fun h => absurd h htidy⟩

end Run

namespace Example

theorem answer_tidy {m m' : Machine} {r : Req} {x : r.Resp} (h : answer m r = some (x, m')) : Tidy r x := by
  cases r with
  | stop | removeAll =>
    cases h
    rfl
  | _ => trivial

end Example

/-- The restore of three keys, to its end. -/
theorem three_keys_cleaned_up : ∃ now, (Example.after Example.restore Example.saved).store.files = Example.saved.store.files ∧
    Leaves (restoreDir now) Example.saved.world.disk (Example.after Example.restore Example.saved).world.disk ∧
    (Example.after Example.restore Example.saved).running = none ∧
    Gone (restoreDir now) Example.saved.world.disk (Example.after Example.restore Example.saved).world.disk := by
  have hdoes : Prog.Does (TidyServes Example.codec) Example.saved.world Example.restore (.ok ())
      (Example.after Example.restore Example.saved).world :=
    Prog.perform?_does_map Example.Machine.world (fun _ _ _ _ h => ⟨Example.answer_serves h, Example.answer_tidy h⟩)
      (Example.perform_after rfl)
  obtain ⟨now, hfiles, hleaves, hend⟩ := restore_cleans_up Example.codec ["backups"] (fun _ => "") 3 _ _ _ rfl _
    (hdoes.goes.mono fun _ _ _ _ h => h.1)
  exact ⟨now, hfiles, hleaves, hend hdoes.goes _ rfl⟩

end Etcdadm.Backup
