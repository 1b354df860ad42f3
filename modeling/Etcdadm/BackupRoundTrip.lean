/-
What is restored is what was backed up.

A backup passes through a snapshot, a gzip writer, a file, the store, a file again, a gzip
reader, another file, a data directory and an etcd, before its keys are written one by one.
Every part of this may fail, and a failure leaves a part of a file or of the keys. But each
failure is reported: where both a backup and its restore report success, the keys that were
written are those of the etcd when the snapshot was taken, all of them, each once.
-/
import Etcdadm.BackupRestore
import Etcdadm.Guarded

namespace Etcdadm.Backup

open CopyTo (Keyspace Puts)
open BackupStore (dataFile metaFile)

/-! ## Codecs -/

/-- The file that a `gzip.Writer` leaves. -/
def Codec.zip (codec : Codec) (chunks : List String) : String := String.join (codec.deflate chunks ++ codec.finish chunks)

/-- What was written is read again, and a snapshot has all keys. -/
structure Codec.Faithful (codec : Codec) : Prop where
  inflate : ∀ chunks pieces, codec.inflate (codec.zip chunks) = (pieces, none) → String.join pieces = String.join chunks
  restored : ∀ keys keys', codec.restored (codec.snapshot keys) = some keys' → keys' = keys

/-! ## Copying from a process that may end -/

section Copy

variable {quote : CopyTo.Key → String} {source : Keyspace}

theorem always_copyReq {α : Type} {I : Puts → Prop} {Q : Puts → α → Prop} {r : CopyTo.CopyReq} {f : r.Resp → CopyTo.CopyM α}
    {puts : Puts} (h : ∀ x puts', CopyServes source puts r x puts' → I puts' ∧ (f x).Always (CopyServes source) I Q puts') :
    (CopyTo.ask r >>= f).Always (CopyServes source) I Q puts := h

def IsPut : CopyTo.CopyReq → Prop
  | .put _ => True
  | _ => False

theorem uses_copyPage : ∀ {kvs : List CopyTo.KeyValue} {c : CopyTo.Copied}, (CopyTo.copyPage quote kvs c).Uses IsPut True
  | [], _ => trivial
  | kv :: kvs, c => by
    unfold CopyTo.copyPage
    split
    · exact uses_copyPage
    · refine ⟨trivial, fun x => ?_⟩
      cases x with
      | error err => trivial
      | ok _ => exact uses_copyPage

/-- To put a key is answered as before. -/
theorem CopyServes.put {puts puts' : Puts} {r : CopyTo.CopyReq} {x : r.Resp} (hr : IsPut r) (h : CopyServes source puts r x puts') :
    CopyTo.Answers source puts r x puts' := by
  cases h with
  | answers h => exact h
  | getFailed => exact hr.elim

/-- The loop, where a page may fail. -/
theorem always_copyPages {limit : Nat} (hlimit : 2 ≤ limit) : ∀ (fuel : Nat) (done rest : List CopyTo.KeyValue),
    source.kvs = done ++ rest → (CopyTo.copyPages quote limit fuel done.length (CopyTo.lastOf done)).Always (CopyServes source)
      (fun _ => True) (fun puts r => r.2 = none → puts = CopyTo.written source.kvs) (CopyTo.written done)
  | 0, _, _, _ => trivial
  | fuel + 1, done, rest, h => by
    obtain ⟨m, hm, hpage⟩ := CopyTo.copyPage_page quote h hlimit
    have hsorted : (CopyTo.lastOf done :: (rest.take m).map (·.key)).Pairwise (· < ·) :=
      (source.sorted_from h).sublist (((List.take_sublist m rest).map _).cons_cons _)
    unfold CopyTo.copyPages
    refine always_copyReq fun x puts hserves => ⟨trivial, ?_⟩
    cases hserves with
    | getFailed => simp [Prog.Always]
    | answers hanswer =>
      cases hanswer
      simp only [hpage ⟨done.length, CopyTo.lastOf done, false⟩ rfl]
      have hput : ∀ puts r x puts', IsPut r → CopyServes source puts r x puts' → CopyTo.Answers source puts r x puts' :=
        fun _ _ _ _ => CopyServes.put
      have hcopy := Prog.Always.restrict hput uses_copyPage (CopyTo.surely_copyPage quote (rest.take m)
        ⟨done.length, CopyTo.lastOf done, false⟩ (CopyTo.written done) hsorted).always
      refine .bind (hcopy.mono fun puts' r hr => ?_)
      rcases hr with ⟨hputs, hnone, hcount, hkey, hmore⟩ | ⟨pre, kv, post, err, _, _, _, herr⟩
      · have hall : source.kvs = (done ++ rest.take m) ++ rest.drop m := by simp [h]
        have hwritten : puts' = CopyTo.written (done ++ rest.take m) := by simp [hputs, CopyTo.written]
        have hlength : r.1.count = (done ++ rest.take m).length := by simp [hcount]
        rw [← CopyTo.lastOf_append] at hkey
        simp only [hnone]
        split
        · rw [hwritten, hlength, hkey]
          exact always_copyPages hlimit fuel _ _ hall
        next hstop =>
          -- the page brought nothing new, so there was nothing left
          have htake : rest.take m = [] := by
            by_contra hne
            exact hstop (hmore.2 (.inr hne))
          have hrest : rest = [] := by
            rcases List.take_eq_nil_iff.1 htake with hzero | hnil
            · omega
            · exact hnil
          simp [Prog.Always, hwritten, h, hrest]
      · simp [Prog.Always, herr]

theorem always_waitForSource {puts : Puts} : ∀ i : Nat,
    (CopyTo.waitForSource i).Always (CopyServes source) (fun _ => True) (fun puts' _ => puts' = puts) puts
  | 0 => rfl
  | i + 1 => by
    refine always_copyReq fun x puts₁ hserves => ⟨trivial, ?_⟩
    cases hserves with
    | answers hanswer =>
      cases hanswer
      cases x with
      | ok _ => rfl
      | error err =>
        refine always_copyReq fun exit puts₂ hserves => ⟨trivial, ?_⟩
        cases hserves with
        | answers hanswer =>
          cases hanswer
          cases exit with
          | some exit => rfl
          | none =>
            refine always_copyReq fun _ puts₃ hserves => ⟨trivial, ?_⟩
            cases hserves with
            | answers hanswer =>
              cases hanswer
              exact always_waitForSource i

/-- **A copy that reports no error has written every key.** -/
theorem always_copyEtcd {fuel : Nat} : (CopyTo.copyEtcd quote fuel).Always (CopyServes source) (fun _ => True)
    (fun puts err => err = none → puts = CopyTo.written source.kvs) [] := by
  refine always_copyReq fun x puts hserves => ⟨trivial, ?_⟩
  cases hserves with
  | answers hanswer =>
    cases hanswer
    cases x with
    | error err => simp [Prog.Always]
    | ok _ =>
      refine .bind ((always_waitForSource 60).mono fun puts err hputs => ?_)
      subst hputs
      cases err with
      | some err => simp [Prog.Always]
      | none =>
        refine .bind ((always_copyPages (by omega) fuel [] source.kvs rfl).mono fun puts r hr => ?_)
        obtain ⟨count, err⟩ := r
        cases err with
        | some err => simp [Prog.Always]
        | none => exact fun _ => hr rfl

end Copy

/-! ## Requests -/

section Requests

variable {codec : Codec} {w w' w'' : World} {r : Req} {x : r.Resp}

theorem always_ask {α : Type} {I : World → Prop} {Q : World → α → Prop} {f : r.Resp → M α}
    (h : ∀ x w', Serves codec w r x w' → I w' ∧ (f x).Always (Serves codec) I Q w') :
    (ask r >>= f).Always (Serves codec) I Q w := h

theorem uses_ask {α : Type} {allowed : Req → Prop} {dies : Prop} {f : r.Resp → M α} (hr : allowed r)
    (h : ∀ x, (f x).Uses allowed dies) : (ask r >>= f).Uses allowed dies := ⟨hr, h⟩

/-- While no process reads a backup, nothing is written but what is asked for. -/
theorem Serves.effect (h : Serves codec w r x w') (hidle : w.running = none) : Effect codec w r x w' := by
  obtain ⟨d', hwrites, heffect⟩ := h
  cases hwrites.1 hidle
  exact heffect

/-- No more than local files and data directories is new. -/
structure Aside (w w' : World) : Prop where
  files : w'.store.files = w.store.files
  running : w'.running = w.running
  taken : w'.taken = w.taken
  puts : w'.puts = w.puts

theorem Aside.refl : Aside w w := ⟨rfl, rfl, rfl, rfl⟩

theorem Aside.trans (h : Aside w w') (h' : Aside w' w'') : Aside w w'' :=
  ⟨h'.files.trans h.files, h'.running.trans h.running, h'.taken.trans h.taken, h'.puts.trans h.puts⟩

theorem Aside.idle (h : Aside w w') (hidle : w.running = none) : w'.running = none := h.running.trans hidle

/-- What concerns neither the store's files nor an etcd. -/
def Req.Quiet : Req → Prop
  | .store (.writeFile _ _) | .store (.remove _) | .snapshot | .start _ _ _ | .stop | .copy _ => False
  | _ => True

theorem serves_files {v v' : Vfs BackupFile} {r : VfsReq BackupFile} {x : r.Resp} (h : v.Serves r x v')
    (hr : (Req.store r).Quiet) : v'.files = v.files := by
  cases r with
  | now =>
    cases h with
    | done hanswer => rw [(Vfs.answers_now.1 hanswer).2]
  | openFile file => rw [Vfs.serves_openFile h]
  | readFile p =>
    cases h with
    | done hanswer => rw [(Vfs.answers_readFile.1 hanswer).1]
    | readFailed => rfl
  | readTree p => rw [(Vfs.serves_readTree h).1]
  | writeFile | remove => exact hr.elim

theorem Effect.aside (h : Effect codec w r x w') (hr : r.Quiet) : Aside w w' := by
  cases h with
  | store _ hserves => exact ⟨serves_files hserves hr, rfl, rfl, rfl⟩
  | snapshot | snapshotStopped | snapshotFailed | started | startFailed | stopped | stopFailed | copy => exact hr.elim
  | _ => exact ⟨rfl, rfl, rfl, rfl⟩

theorem Serves.aside (h : Serves codec w r x w') (hidle : w.running = none) (hr : r.Quiet) : Aside w w' :=
  (h.effect hidle).aside hr

/-- Only to copy changes what was written to the target. -/
theorem Serves.puts (h : Serves codec w r x w') (hr : ∀ r', r ≠ .copy r') : w'.puts = w.puts := by
  obtain ⟨d', hwrites, heffect⟩ := h
  cases heffect with
  | copy => exact absurd rfl (hr _)
  | _ => rfl

theorem Serves.created {p : VfsPath} {u : Unit} (h : Serves codec w (.create p) (.ok u) w') (hidle : w.running = none) :
    w'.disk p = some (.file "") := by
  cases h.effect hidle
  exact Disk.set_self

theorem Serves.written {p : VfsPath} {data more : String} {u : Unit} (h : Serves codec w (.write p more) (.ok u) w')
    (hidle : w.running = none) (hfile : w.disk p = some (.file data)) : w'.disk p = some (.file (data ++ more)) := by
  cases h.effect hidle with
  | written hfile' =>
    cases hfile.symm.trans hfile'
    exact Disk.set_self

theorem always_writePieces {p : VfsPath} : ∀ (pieces : List String) {w : World} {data : String}, w.running = none →
    w.disk p = some (.file data) → (writePieces p pieces).Always (Serves codec) (fun _ => True)
      (fun w' r => Aside w w' ∧ (r = none → w'.disk p = some (.file (data ++ String.join pieces)))) w
  | [], _, _, _, hfile => ⟨.refl, fun _ => by simpa using hfile⟩
  | piece :: pieces, w, data, hidle, hfile => by
    refine always_ask fun x w₁ hserves => ⟨trivial, ?_⟩
    have haside := hserves.aside hidle trivial
    cases x with
    | error err => exact ⟨haside, by simp⟩
    | ok u =>
      refine (always_writePieces pieces (haside.idle hidle) (hserves.written hidle hfile)).mono fun w' r hr => ?_
      refine ⟨haside.trans hr.1, fun hnone => ?_⟩
      rw [hr.2 hnone, String.join_cons, String.append_assoc]

end Requests

/-! ## Backup -/

section TakeBackup

variable {codec : Codec} {backupsBase : VfsPath} {w : World}

/-- The bytes are those of a snapshot that was taken in between. -/
def Saved (codec : Codec) (taken taken' : List Keyspace) (bytes : String) : Prop :=
  ∃ keys chunks, taken' = taken ++ [keys] ∧ String.join chunks = codec.snapshot keys ∧ bytes = codec.zip chunks

/-- What is read of a snapshot to its end is all of it. -/
theorem Serves.snapshotted {w' : World} {x : Except Error (List String × Option Error)} (h : Serves codec w .snapshot x w')
    (hidle : w.running = none) : w'.running = none ∧ w'.disk = w.disk ∧ ∀ chunks, x = .ok (chunks, none) →
      ∃ keys, w'.taken = w.taken ++ [keys] ∧ String.join chunks = codec.snapshot keys := by
  cases h.effect hidle with
  | snapshot hjoin =>
    refine ⟨hidle, rfl, fun chunks hx => ⟨_, rfl, ?_⟩⟩
    cases hx
    exact hjoin
  | snapshotStopped | snapshotFailed => exact ⟨hidle, rfl, by simp⟩

theorem always_snapshotSave {path : VfsPath} (hidle : w.running = none) :
    (snapshotSave codec path).Always (Serves codec) (fun _ => True) (fun w' r => w'.running = none ∧
      (r = none → ∃ bytes, w'.disk path = some (.file bytes) ∧ Saved codec w.taken w'.taken bytes)) w := by
  refine always_ask fun x w₁ hcreate => ⟨trivial, ?_⟩
  have haside := hcreate.aside hidle trivial
  have hidle₁ := haside.idle hidle
  cases x with
  | error err => exact ⟨hidle₁, by simp⟩
  | ok u =>
    refine always_ask fun x w₂ hsnapshot => ⟨trivial, ?_⟩
    obtain ⟨hidle₂, hdisk, htaken⟩ := hsnapshot.snapshotted hidle₁
    cases x with
    | error err => exact ⟨hidle₂, by simp⟩
    | ok snapshot =>
      obtain ⟨chunks, readErr⟩ := snapshot
      have hempty : w₂.disk path = some (.file "") := by rw [hdisk, hcreate.created hidle]
      refine .bind ((always_writePieces (codec.deflate chunks) hidle₂ hempty).mono fun w₃ r hdeflate => ?_)
      have hidle₃ := hdeflate.1.idle hidle₂
      cases r with
      | some err => exact ⟨hidle₃, by simp⟩
      | none =>
        cases readErr with
        | some err => exact ⟨hidle₃, by simp⟩
        | none =>
          refine .bind ((always_writePieces (codec.finish chunks) hidle₃ (hdeflate.2 rfl)).mono fun w₄ r hfinish => ?_)
          have hidle₄ := hfinish.1.idle hidle₃
          cases r with
          | some err => exact ⟨hidle₄, by simp⟩
          | none =>
            obtain ⟨keys, htaken, hjoin⟩ := htaken chunks rfl
            refine ⟨hidle₄, fun _ => ⟨_, hfinish.2 rfl, keys, chunks, ?_, hjoin, ?_⟩⟩
            · rw [hfinish.1.taken, hdeflate.1.taken, htaken, haside.taken]
            · simp [Codec.zip]

/-- A store that copies these bytes from the local file. -/
def Copies (srcFile bytes : String) (v : Vfs BackupFile) (r : VfsReq BackupFile) (x : r.Resp) (v' : Vfs BackupFile) : Prop :=
  v.Serves r x v' ∧ ∀ bytes', (⟨r, x⟩ : Event (vfsSig BackupFile)) = ⟨.openFile srcFile, .ok bytes'⟩ → bytes' = bytes

theorem always_copyData {name srcFile bytes : String} {v : Vfs BackupFile} (hname : VfsPath.Plain name) (hsrc : srcFile ≠ "") :
    (BackupStore.copyData backupsBase name srcFile).Always (Copies srcFile bytes) (fun _ => True)
      (fun v' err => err = none → v'.files.lookup (dataFile backupsBase name) = some (.data bytes)) v := by
  unfold BackupStore.copyData
  rw [if_neg hsrc, BackupStore.join_dataFile hname]
  refine Vfs.always_vfs fun x v₁ hopen => ⟨trivial, ?_⟩
  cases x with
  | error err => simp [Prog.Always]
  | ok bytes' =>
    cases hopen.2 _ rfl
    refine Vfs.always_vfs fun x v₂ hwrite => ⟨trivial, ?_⟩
    cases x with
    | error err => simp [Prog.Always]
    | ok u =>
      rcases Vfs.serves_writeFile hwrite.1 with hfiles | ⟨_, err, herr⟩
      · simp [Prog.Always, hfiles]
      · cases herr

theorem always_storeBackup {name srcFile bytes : String} {info : BackupInfo} {v : Vfs BackupFile} (hname : VfsPath.Plain name)
    (hsrc : srcFile ≠ "") : (BackupStore.storeBackup backupsBase name srcFile info).Always (Copies srcFile bytes) (fun _ => True)
      (fun v' r => ∀ name', r = .ok name' → name' = name ∧
        v'.files.lookup (dataFile backupsBase name) = some (.data bytes)) v := by
  refine .bind ((always_copyData hname hsrc).mono fun v₁ err hdata => ?_)
  cases err with
  | some err => simp [Prog.Always]
  | none =>
    refine Vfs.always_vfs fun x v₂ hwrite => ⟨trivial, ?_⟩
    cases x with
    | error err => simp [Prog.Always]
    | ok u =>
      have hne : dataFile backupsBase name ≠ metaFile backupsBase name := BackupStore.dataFile_ne_metaFile
      rw [BackupStore.join_metaFile hname] at hwrite
      rcases Vfs.serves_writeFile hwrite.1 with hfiles | ⟨_, err, herr⟩
      · simp [Prog.Always, hfiles, AList.lookup_insert_ne hne, hdata]
      · cases herr

/-- The store has the bytes as the data of the backup. -/
def Stored (backupsBase : VfsPath) (bytes : String) (v : Vfs BackupFile) (name : String) : Prop :=
  VfsPath.Plain name ∧ v.files.lookup (dataFile backupsBase name) = some (.data bytes)

theorem always_uploadBackup {sequence : Nat} {srcFile bytes : String} {info : BackupInfo} {v : Vfs BackupFile}
    (hsrc : srcFile ≠ "") : (BackupNames.uploadBackup backupsBase sequence srcFile info).Always (Copies srcFile bytes) (fun _ => True)
      (fun v' r => ∀ response, r = .ok response → Stored backupsBase bytes v' response.name) v := by
  rw [BackupNames.uploadBackup_eq]
  intro now v₁ _
  have hname : VfsPath.Plain (BackupNames.Stamp.name ⟨now, sequence⟩) := BackupNames.Stamp.plain _
  refine ⟨trivial, .bind ((always_storeBackup hname hsrc).mono fun v₂ r hr response hresponse => ?_)⟩
  cases r with
  | error err => cases hresponse
  | ok name =>
    cases hresponse
    obtain ⟨rfl, hdata⟩ := hr _ rfl
    exact ⟨hname, hdata⟩

theorem localPath_inj {p q : VfsPath} (hp : Names p) (hq : Names q) (h : localPath p = localPath q) : p = q := by
  have htext : InitialCluster.join '/' p = InitialCluster.join '/' q := by
    simpa [localPath, VfsPath.text, InitialCluster.join] using h
  rw [← InitialCluster.split_join hp.1 hp.2, htext, InitialCluster.split_join hq.1 hq.2]

/-- The store of the machine copies what is in the file. -/
theorem Effect.copies {path : VfsPath} {bytes : String} {r : VfsReq BackupFile} {x : r.Resp} {w' : World}
    (h : Effect codec w (.store r) x w') (hnames : Names path) (hfile : w.disk path = some (.file bytes)) :
    w' = { w with store := w'.store } ∧ Copies (localPath path) bytes w.store r x w'.store := by
  cases h with
  | store hnot hserves =>
    refine ⟨rfl, hserves, fun bytes' heq => ?_⟩
    cases heq
    exact absurd rfl (hnot _)
  | @copied p bytes₁ hnames' hfile' =>
    refine ⟨rfl, .done .opened, fun bytes' heq => ?_⟩
    obtain ⟨hreq, hresp⟩ := Event.mk.inj heq
    cases localPath_inj hnames' hnames (VfsReq.openFile.inj hreq)
    cases eq_of_heq hresp
    cases hfile.symm.trans hfile'
    rfl
  | copyFailed =>
    refine ⟨rfl, .openFailed, fun bytes' heq => ?_⟩
    obtain ⟨hreq, hresp⟩ := Event.mk.inj heq
    cases VfsReq.openFile.inj hreq
    cases eq_of_heq hresp

theorem localPath_ne {p : VfsPath} : localPath p ≠ "" := by
  simp [localPath]

/-- What the backup that is reported was taken of, and where it is. -/
def BackedUp (codec : Codec) (backupsBase : VfsPath) (w w' : World) (name : String) : Prop :=
  ∃ bytes, Saved codec w.taken w'.taken bytes ∧ Stored backupsBase bytes w'.store name

theorem always_backupFrom {sequence : Nat} {info : BackupInfo} {tempDir : VfsPath} (hnames : Names tempDir)
    (hidle : w.running = none) :
    (backupFrom codec backupsBase sequence info tempDir).Always (Serves codec) (fun _ => True)
      (fun w' r => w'.running = none ∧ ∀ response, r = .ok response → BackedUp codec backupsBase w w' response.name) w := by
  refine always_ask fun x w₁ hclient => ⟨trivial, ?_⟩
  have haside := hclient.aside hidle trivial
  have hidle₁ := haside.idle hidle
  cases x with
  | error err => exact ⟨hidle₁, by simp⟩
  | ok u =>
    refine .bind ((always_snapshotSave hidle₁).mono fun w₂ err hsave => ?_)
    obtain ⟨hidle₂, hsave⟩ := hsave
    cases err with
    | some err => exact ⟨hidle₂, by simp⟩
    | none =>
      obtain ⟨bytes, hfile, hsaved⟩ := hsave rfl
      have hnames : Names (tempDir ++ ["snapshot.db.gz"]) := by
        refine ⟨by simp, fun e he => ?_⟩
        rcases List.mem_append.1 he with he | he
        · exact hnames.2 e he
        · rw [List.mem_singleton.1 he]
          decide
      have hon (r : VfsReq BackupFile) (h : World) (hJ : ∃ v, h = { w₂ with store := v }) :
          (ask (.store r)).Always (Serves codec) (fun _ => True) (fun h' x => (∃ v, h' = { w₂ with store := v }) ∧
            Copies (localPath (tempDir ++ ["snapshot.db.gz"])) bytes h.store r x h'.store) h := by
        intro x h' hserves
        obtain ⟨v, rfl⟩ := hJ
        obtain ⟨heq, hcopies⟩ := (hserves.effect hidle₂).copies hnames hfile
        exact ⟨trivial, ⟨_, heq⟩, hcopies⟩
      refine .mono ?_ (Prog.Always.handle hon ⟨w₂.store, rfl⟩ (always_uploadBackup localPath_ne))
      intro w₃ r hr
      obtain ⟨⟨v, rfl⟩, hstored⟩ := hr
      refine ⟨hidle₂, fun response hresponse => ⟨bytes, ?_, hstored response hresponse⟩⟩
      rw [← haside.taken]
      exact hsaved

theorem always_doBackup {sequence : Nat} {info : BackupInfo} (hidle : w.running = none) :
    (doBackup codec backupsBase sequence info).Always (Serves codec) (fun _ => True)
      (fun w' r => ∀ response, r = .ok response → BackedUp codec backupsBase w w' response.name) w := by
  unfold doBackup
  split
  · simp [Prog.Always]
  refine always_ask fun x w₁ hmake => ⟨trivial, ?_⟩
  have haside := hmake.aside hidle trivial
  cases x with
  | error err => simp [Prog.Always]
  | ok tempDir =>
    have hnames : Names tempDir := by
      cases hmake.effect hidle
      assumption
    refine .bind ((always_backupFrom hnames (haside.idle hidle)).mono fun w₂ r hr => ?_)
    refine always_ask fun _ w₃ hremove => ⟨trivial, fun response hresponse => ?_⟩
    have hremoved := hremove.aside hr.1 trivial
    obtain ⟨bytes, hsaved, hname, hdata⟩ := hr.2 response hresponse
    refine ⟨bytes, ?_, hname, ?_⟩
    · rw [hremoved.taken, ← haside.taken]
      exact hsaved
    · rw [hremoved.files]
      exact hdata

end TakeBackup

/-! ## Restore -/

section Restore

variable {codec : Codec} {backupsBase : VfsPath} {w w' : World} {bytes : String}

theorem always_quiet {α : Type} {p : M α} (huses : p.Uses Req.Quiet True) (hidle : w.running = none) :
    p.Always (Serves codec) (fun _ => True) (fun w' _ => Aside w w') w := by
  refine Prog.Always.weaken (fun _ _ => trivial) (.of_uses (I := Aside w) ?_ huses .refl)
  intro w₁ r x w₂ hr hserves haside
  exact haside.trans (hserves.aside (haside.idle hidle) hr)

theorem uses_loadInfo {name : String} : (loadInfo codec backupsBase name).Uses Req.Quiet True := by
  refine uses_ask trivial fun x => ?_
  split
  · trivial
  · trivial
  · split <;> trivial

theorem Serves.temp {dir p : VfsPath} (h : Serves codec w (.createTemp dir) (.ok p) w') (hidle : w.running = none) :
    w'.disk p = some (.file "") := by
  cases h.effect hidle
  exact Disk.set_self

theorem Serves.downloaded {src dest : VfsPath} {u : Unit} (h : Serves codec w (.writeTo src dest) (.ok u) w')
    (hidle : w.running = none) (hsrc : w.store.files.lookup src = some (.data bytes)) (hdest : w.disk dest = some (.file "")) :
    w'.disk dest = some (.file bytes) := by
  cases h.effect hidle with
  | downloaded hsrc' hdest' =>
    cases hsrc.symm.trans hsrc'
    cases hdest.symm.trans hdest'
    simp
  | downloadedInfo hsrc' => cases hsrc.symm.trans hsrc'

theorem Serves.closed {p : VfsPath} {x : Except Error Unit} (h : Serves codec w (.closeFile p) x w') (hidle : w.running = none) :
    w'.disk = w.disk := by
  cases h.effect hidle
  rfl

theorem Serves.renamed {p q : VfsPath} {u : Unit} (h : Serves codec w (.rename p q) (.ok u) w') (hidle : w.running = none) :
    w'.disk q = w.disk p := by
  cases h.effect hidle
  simp [Disk.move]

theorem always_writeAndRename {src tempfile dest : VfsPath} (hidle : w.running = none)
    (hsrc : w.store.files.lookup src = some (.data bytes)) (htemp : w.disk tempfile = some (.file "")) :
    (writeAndRename src tempfile dest).Always (Serves codec) (fun _ => True)
      (fun w' r => Aside w w' ∧ (r = none → w'.disk dest = some (.file bytes))) w := by
  have hremove {w₁ : World} (h₁ : Aside w w₁) (err : Error) : (ask (.remove tempfile) >>= fun _ => return some err).Always
      (Serves codec) (fun _ => True) (fun w' r => Aside w w' ∧ (r = none → w'.disk dest = some (.file bytes))) w₁ :=
    always_ask fun _ w₂ hserves => ⟨trivial, h₁.trans (hserves.aside (h₁.idle hidle) trivial), by simp⟩
  refine always_ask fun x w₁ hwrite => ⟨trivial, ?_⟩
  have h₁ := hwrite.aside hidle trivial
  cases x with
  | error err =>
    refine always_ask fun _ w₂ hclose => ⟨trivial, ?_⟩
    exact hremove (h₁.trans (hclose.aside (h₁.idle hidle) trivial)) _
  | ok u =>
    refine always_ask fun x w₂ hclose => ⟨trivial, ?_⟩
    have h₂ := h₁.trans (hclose.aside (h₁.idle hidle) trivial)
    cases x with
    | error err => exact hremove h₂ _
    | ok u =>
      refine always_ask fun x w₃ hrename => ⟨trivial, ?_⟩
      have h₃ := h₂.trans (hrename.aside (h₂.idle hidle) trivial)
      cases x with
      | error err => exact hremove h₃ _
      | ok u =>
        refine ⟨h₃, fun _ => ?_⟩
        rw [hrename.renamed (h₂.idle hidle), hclose.closed (h₁.idle hidle)]
        exact hwrite.downloaded hidle hsrc htemp

theorem always_downloadBackup {name : String} {dest : VfsPath} (hidle : w.running = none)
    (hstored : Stored backupsBase bytes w.store name) : (downloadBackup backupsBase name dest).Always (Serves codec)
      (fun _ => True) (fun w' r => Aside w w' ∧ (r = none → w'.disk dest = some (.file bytes))) w := by
  unfold downloadBackup
  rw [BackupStore.join_dataFile hstored.1]
  refine always_ask fun x w₁ hmake => ⟨trivial, ?_⟩
  have h₁ := hmake.aside hidle trivial
  cases x with
  | error err => exact ⟨h₁, by simp⟩
  | ok u =>
    refine always_ask fun x w₂ hcreate => ⟨trivial, ?_⟩
    have h₂ := h₁.trans (hcreate.aside (h₁.idle hidle) trivial)
    cases x with
    | error err => exact ⟨h₂, by simp⟩
    | ok tempfile =>
      have hsrc : w₂.store.files.lookup (dataFile backupsBase name) = some (.data bytes) := by rw [h₂.files, hstored.2]
      refine (always_writeAndRename (h₂.idle hidle) hsrc (hcreate.temp (h₁.idle hidle))).mono fun w₃ r hr => ?_
      exact ⟨h₂.trans hr.1, hr.2⟩

theorem Serves.opened {p : VfsPath} {x : Except Error (String × Option Error)} (h : Serves codec w (.openFile p) x w')
    (hidle : w.running = none) (hfile : w.disk p = some (.file bytes)) : ∀ read, x = .ok (read, none) → read = bytes := by
  intro read hx
  cases h.effect hidle with
  | read hfile' =>
    cases hx
    cases hfile.symm.trans hfile'
    rfl
  | readStopped | openFailed => cases hx

/-- A file that is expanded without an error was read to its end. -/
theorem always_expand {file dest : VfsPath} (hidle : w.running = none) (hfile : w.disk file = some (.file bytes)) :
    (expand codec file dest).Always (Serves codec) (fun _ => True) (fun w' r => Aside w w' ∧ (r = none →
      (codec.inflate bytes).2 = none ∧ w'.disk dest = some (.file (String.join (codec.inflate bytes).1)))) w := by
  refine always_ask fun x w₁ hopen => ⟨trivial, ?_⟩
  have h₁ := hopen.aside hidle trivial
  cases x with
  | error err => exact ⟨h₁, by simp⟩
  | ok opened =>
    obtain ⟨read, readErr⟩ := opened
    refine always_ask fun x w₂ hcreate => ⟨trivial, ?_⟩
    have h₂ := h₁.trans (hcreate.aside (h₁.idle hidle) trivial)
    cases x with
    | error err => exact ⟨h₂, by simp⟩
    | ok u =>
      cases hheader : codec.header read with
      | some err => exact ⟨h₂, by simp⟩
      | none =>
        refine .bind ((always_writePieces (codec.inflate read).1 (h₂.idle hidle) (hcreate.created (h₁.idle hidle))).mono
          fun w₃ r hr => ?_)
        have h₃ := h₂.trans hr.1
        cases r with
        | some err => exact ⟨h₃, by simp⟩
        | none =>
          cases hinflate : (codec.inflate read).2.or readErr with
          | some err => exact ⟨h₃, by simp⟩
          | none =>
            obtain ⟨hend, hread⟩ := Option.or_eq_none_iff.1 hinflate
            subst hread
            cases hopen.opened hidle hfile read rfl
            cases htrailer : codec.trailer bytes with
            | some err => exact ⟨h₃, by simp⟩
            | none => exact ⟨h₃, fun _ => ⟨hend, by simpa using hr.2 rfl⟩⟩

theorem always_createRestoreKeypairs {pkiDir : VfsPath} (hidle : w.running = none) :
    (createRestoreKeypairs pkiDir).Always (Serves codec) (fun _ => True)
      (fun w' _ => Aside w w' ∧ Disk.Within pkiDir w.disk w'.disk) w := by
  have hnew {w₁ w₂ : World} {x : Except Error Unit} (h₁ : Aside w w₁ ∧ w₁.disk = w.disk) (h : Serves codec w₁ .newCA x w₂) :
      Aside w w₂ ∧ w₂.disk = w.disk := by
    have heffect := h.effect (h₁.1.idle hidle)
    refine ⟨h₁.1.trans (heffect.aside trivial), ?_⟩
    cases heffect
    exact h₁.2
  refine always_ask fun x w₁ hserves => ⟨trivial, ?_⟩
  have h₁ := hnew ⟨.refl, rfl⟩ hserves
  cases x with
  | error err => exact ⟨h₁.1, h₁.2 ▸ .refl⟩
  | ok u =>
    refine always_ask fun x w₂ hserves => ⟨trivial, ?_⟩
    have h₂ := hnew h₁ hserves
    cases x with
    | error err => exact ⟨h₂.1, h₂.2 ▸ .refl⟩
    | ok u =>
      refine always_ask fun x w₃ hserves => ⟨trivial, ?_⟩
      have heffect := hserves.effect (h₂.1.idle hidle)
      have h₃ : Aside w w₃ ∧ Disk.Within pkiDir w.disk w₃.disk := by
        refine ⟨h₂.1.trans (heffect.aside trivial), ?_⟩
        cases heffect with
        | createKeypairs hwithin =>
          rw [← h₂.2]
          exact hwithin
      cases x with
      | error err => exact h₃
      | ok u => exact h₃

/-- Over the data that was made of a snapshot etcd serves what it was taken of. -/
theorem Serves.restored {binDir : String} {args : List String} {snapshotFile dataDir : VfsPath}
    (h : Serves codec w (.etcdctl binDir args snapshotFile dataDir) (.exited true) w') (hidle : w.running = none)
    (hfile : w.disk snapshotFile = some (.file bytes)) : ∃ keys, codec.restored bytes = some keys ∧ w'.data dataDir = some keys := by
  cases h.effect hidle with
  | restored hfile' hrestored =>
    cases hfile.symm.trans hfile'
    exact ⟨_, hrestored, by simp⟩
  | restoreFailed hne => exact absurd rfl hne

theorem always_restoreV3Snapshot {p : EtcdProcess} {snapshotFile dataDir : VfsPath} (hidle : w.running = none)
    (hfile : w.disk snapshotFile = some (.file bytes)) : (restoreV3Snapshot p snapshotFile dataDir).Always (Serves codec)
      (fun _ => True) (fun w' r => Aside w w' ∧ (r = none →
        ∃ keys, codec.restored bytes = some keys ∧ w'.data dataDir = some keys)) w := by
  unfold restoreV3Snapshot
  split
  · exact ⟨.refl, by simp⟩
  · refine always_ask fun x w₁ hserves => ⟨trivial, ?_⟩
    have haside := hserves.aside hidle trivial
    split
    · exact ⟨haside, by simp⟩
    · exact ⟨haside, by simp⟩
    · exact ⟨haside, by simp⟩
    · exact ⟨haside, fun _ => hserves.restored hidle hfile⟩

/-- The process serves these keys, and nothing was written to the target yet. -/
def Reads (dataDir : VfsPath) (keys : Keyspace) (w : World) : Prop := w.running = some (dataDir, keys) ∧ w.puts = []

variable {keys : Keyspace} {chunks : List String}

theorem always_startFromDownload {p : EtcdProcess} {basedir : VfsPath} (hfaithful : codec.Faithful) (hidle : w.running = none)
    (hputs : w.puts = []) (hfile : w.disk (basedir ++ ["download", "snapshot.db.gz"]) = some (.file (codec.zip chunks)))
    (hjoin : String.join chunks = codec.snapshot keys) : (startFromDownload codec p basedir).Always (Serves codec)
      (fun _ => True) (fun w' r => r = none → Reads (basedir ++ ["data"]) keys w') w := by
  refine .bind ((always_createRestoreKeypairs hidle).mono fun w₁ r hpki => ?_)
  cases r with
  | some err => simp [Prog.Always]
  | none =>
    have hfile₁ : w₁.disk (basedir ++ ["download", "snapshot.db.gz"]) = some (.file (codec.zip chunks)) := by
      rw [hpki.2 _ (by simp [List.prefix_append_right_inj]), hfile]
    refine .bind ((always_expand (hpki.1.idle hidle) hfile₁).mono fun w₂ r hexpand => ?_)
    have h₂ := hpki.1.trans hexpand.1
    cases r with
    | some err => simp [Prog.Always]
    | none =>
      obtain ⟨hend, hsnapshot⟩ := hexpand.2 rfl
      rw [hfaithful.inflate chunks _ (Prod.ext rfl hend), hjoin] at hsnapshot
      refine .bind ((always_restoreV3Snapshot (h₂.idle hidle) hsnapshot).mono fun w₃ r hrestore => ?_)
      have h₃ := h₂.trans hrestore.1
      cases r with
      | some err => simp [Prog.Always]
      | none =>
        obtain ⟨keys', hrestored, hdata⟩ := hrestore.2 rfl
        cases hfaithful.restored _ _ hrestored
        refine always_ask fun x w₄ hstart => ⟨trivial, ?_⟩
        have heffect := hstart.effect (h₃.idle hidle)
        cases x with
        | error err => simp [Prog.Always]
        | ok u =>
          intro _
          cases heffect
          exact ⟨by simp [hdata], h₃.puts.trans hputs⟩

theorem always_runEtcdFromBackup {name : String} {basedir : VfsPath} (hfaithful : codec.Faithful) (hidle : w.running = none)
    (hputs : w.puts = []) (hstored : Stored backupsBase (codec.zip chunks) w.store name)
    (hjoin : String.join chunks = codec.snapshot keys) : (runEtcdFromBackup codec backupsBase name basedir).Always (Serves codec)
      (fun _ => True) (fun w' r => r = none → Reads (basedir ++ ["data"]) keys w') w := by
  refine .bind ((always_quiet uses_loadInfo hidle).mono fun w₁ r h₁ => ?_)
  cases r with
  | error err => simp [Prog.Always]
  | ok info =>
    simp only
    split
    · simp [Prog.Always]
    have hstored₁ : Stored backupsBase (codec.zip chunks) w₁.store name := ⟨hstored.1, by rw [h₁.files, hstored.2]⟩
    refine .bind ((always_downloadBackup (h₁.idle hidle) hstored₁).mono fun w₂ r hdownload => ?_)
    have h₂ := h₁.trans hdownload.1
    cases r with
    | some err => simp [Prog.Always]
    | none =>
      refine always_ask fun x w₃ hbindir => ⟨trivial, ?_⟩
      have heffect := hbindir.effect (h₂.idle hidle)
      cases x with
      | error err => simp [Prog.Always]
      | ok binDir =>
        cases heffect
        exact always_startFromDownload hfaithful (h₂.idle hidle) (h₂.puts.trans hputs) (hdownload.2 rfl) hjoin

variable {quote : CopyTo.Key → String} {fuel : Nat}

/-- What is copied comes from the process. -/
theorem Serves.copied {dataDir : VfsPath} {r : CopyTo.CopyReq} {x : r.Resp} (h : Serves codec w (.copy r) x w')
    (hrunning : w.running = some (dataDir, keys)) :
    w'.running = some (dataDir, keys) ∧ CopyServes keys w.puts r x w'.puts := by
  obtain ⟨d', hwrites, heffect⟩ := h
  cases heffect with
  | copy hrunning' hcopy =>
    cases hrunning.symm.trans hrunning'
    exact ⟨hrunning, hcopy⟩

theorem always_copyToTarget {dataDir : VfsPath} (h : Reads dataDir keys w) : (copyToTarget quote fuel).Always (Serves codec)
    (fun _ => True) (fun w' r => r = .ok () → w'.puts = CopyTo.written keys.kvs) w := by
  refine always_ask fun x w₁ hclient => ⟨trivial, ?_⟩
  have hputs : w₁.puts = [] := (hclient.puts (by simp)).trans h.2
  have hrunning : w₁.running = some (dataDir, keys) := by
    obtain ⟨d', hwrites, heffect⟩ := hclient
    cases heffect
    exact h.1
  cases x with
  | error err => simp [Prog.Always]
  | ok u =>
    have hon (r : CopyTo.CopyReq) (w : World) (hrunning : w.running = some (dataDir, keys)) :
        (ask (.copy r)).Always (Serves codec) (fun _ => True)
          (fun w' x => w'.running = some (dataDir, keys) ∧ CopyServes keys w.puts r x w'.puts) w :=
      fun x w' hserves => ⟨trivial, hserves.copied hrunning⟩
    have hcopy : (CopyTo.copyEtcd quote fuel).Always (CopyServes keys) (fun _ => True)
        (fun puts err => err = none → puts = CopyTo.written keys.kvs) w₁.puts := hputs ▸ always_copyEtcd
    refine .bind ((Prog.Always.handle (J := fun w => w.running = some (dataDir, keys)) hon hrunning hcopy).mono fun w₂ r hr => ?_)
    cases r with
    | some err => simp [Prog.Always]
    | none => exact fun _ => hr.2 rfl

theorem always_doRestore {name : String} (hfaithful : codec.Faithful) (hidle : w.running = none) (hputs : w.puts = [])
    (hstored : Stored backupsBase (codec.zip chunks) w.store name) (hjoin : String.join chunks = codec.snapshot keys) :
    (doRestore codec backupsBase quote fuel name).Always (Serves codec) (fun _ => True)
      (fun w' r => r = .ok () → w'.puts = CopyTo.written keys.kvs) w := by
  refine always_ask fun now w₁ hnow => ⟨trivial, ?_⟩
  have h₁ := hnow.aside hidle trivial
  refine always_ask fun x w₂ hmake => ⟨trivial, ?_⟩
  have h₂ := h₁.trans (hmake.aside (h₁.idle hidle) trivial)
  cases x with
  | error err => simp [Prog.Always]
  | ok u =>
    have hstored₂ : Stored backupsBase (codec.zip chunks) w₂.store name := ⟨hstored.1, by rw [h₂.files, hstored.2]⟩
    refine .bind (.bind ((always_runEtcdFromBackup hfaithful (h₂.idle hidle) (h₂.puts.trans hputs) hstored₂ hjoin).mono
      fun w₃ r hrun => ?_))
    have hremove {w₄ : World} {r : Except Error Unit} (h : r = .ok () → w₄.puts = CopyTo.written keys.kvs) :
        (ask (.removeAll (restoreDir now)) >>= fun _ => pure r).Always (Serves codec) (fun _ => True)
          (fun w' r => r = .ok () → w'.puts = CopyTo.written keys.kvs) w₄ :=
      always_ask fun _ w₅ hserves => ⟨trivial, fun hr => (hserves.puts (by simp)).trans (h hr)⟩
    cases r with
    | some err => exact hremove (by simp)
    | none =>
      refine .bind ((always_copyToTarget (hrun rfl)).mono fun w₄ r hcopy => ?_)
      refine always_ask fun _ w₅ hstop => ⟨trivial, hremove fun hr => ?_⟩
      rw [hstop.puts (by simp), hcopy hr]

/-- **What is restored is what was backed up.** A backup was reported, and later a restore of
it, wherever that ran and whatever happened in between, while the store kept the data. Then the
keys that the restore wrote are those of the etcd when the snapshot was taken. -/
theorem restored_is_backed_up (codec : Codec) (hfaithful : codec.Faithful) (backupsBase : VfsPath) (sequence : Nat)
    (info : BackupInfo) (quote : CopyTo.Key → String) (fuel : Nat) (response : DoBackupResponse) (w w₁ w₂ w₃ : World)
    (hidle : w.running = none) (hidle₂ : w₂.running = none) (hputs : w₂.puts = [])
    (hbackup : Prog.Does (Serves codec) w (doBackup codec backupsBase sequence info) (.ok response) w₁)
    (hkept : w₂.store.files.lookup (dataFile backupsBase response.name) =
      w₁.store.files.lookup (dataFile backupsBase response.name))
    (hrestore : Prog.Does (Serves codec) w₂ (doRestore codec backupsBase quote fuel response.name) (.ok ()) w₃) :
    ∃ keys, w₁.taken = w.taken ++ [keys] ∧ w₃.puts = CopyTo.written keys.kvs := by
  obtain ⟨bytes, ⟨keys, chunks, htaken, hjoin, rfl⟩, hname, hdata⟩ :=
    (Prog.Always.goes hbackup.goes (always_doBackup hidle) trivial).2 response rfl
  refine ⟨keys, htaken, ?_⟩
  exact (Prog.Always.goes hrestore.goes (always_doRestore hfaithful hidle₂ hputs ⟨hname, hkept.trans hdata⟩ hjoin) trivial).2 rfl

end Restore

/-! ## A machine on which nothing fails -/

namespace Example

structure Machine where
  store : Vfs BackupFile
  files : Files
  data : VfsPath → Option Keyspace
  running : Option (VfsPath × Keyspace)
  taken : List Keyspace
  puts : Puts

def Machine.world (m : Machine) : World := ⟨m.store, Files.disk m.files, m.data, m.running, m.taken, m.puts⟩

def Machine.set (m : Machine) (p : VfsPath) (n : Inode) : Machine := { m with files := Files.set m.files p n }

/-- The etcd that is backed up. -/
def keys : Keyspace := CopyTo.threeKeys

/-- Nothing is compressed. -/
def codec : Codec where
  deflate chunks := chunks
  finish _ := []
  header _ := none
  inflate bytes := ([bytes], none)
  trailer _ := none
  parseInfo _ := .error "no metadata"
  snapshot k := if k.kvs.map (fun kv => (kv.key, kv.value)) = keys.kvs.map (fun kv => (kv.key, kv.value)) then "snapshot" else ""
  restored bytes := if bytes = "snapshot" then some keys else none

def tempDir : VfsPath := ["tmp", "1"]

def copyAnswer (source : Keyspace) (puts : Puts) : (r : CopyTo.CopyReq) → r.Resp × Puts
  | .get fromKey limit => (.ok (source.page fromKey limit), puts)
  | .put kv => (.ok (), puts ++ [(kv, none)])
  | .newClient | .getRoot => (.ok (), puts)
  | .exitState => (none, puts)
  | .sleep => ((), puts)

/-- What the machine answers, for most requests. -/
def answer (m : Machine) : (r : Req) → Option (r.Resp × Machine)
  | .store .now => some (m.store.clock, m)
  | .store (.openFile file) =>
    if file = localPath (tempDir ++ ["snapshot.db.gz"]) then
      match Files.disk m.files (tempDir ++ ["snapshot.db.gz"]) with
      | some (.file bytes) => some (.ok bytes, m)
      | _ => none
    else none
  | .store (.writeFile p data) => some (.ok (), { m with store := { m.store with files := m.store.files.insert p data } })
  | .store (.readFile p) =>
    match m.store.files.lookup p with
    | some data => some (.ok data, m)
    | none => none
  | .mkdirAll p => if p.inits.all (Files.noFile m.files) then some (.ok (), { m with files := Files.mkdirs p m.files }) else none
  | .mkdirTemp => if m.files.all fun e => ¬ tempDir <+: e.1 then some (.ok tempDir, m.set tempDir .dir) else none
  | .createTemp dir =>
    if Files.disk m.files (dir ++ ["tmp1"]) = none then some (.ok (dir ++ ["tmp1"]), m.set (dir ++ ["tmp1"]) (.file ""))
    else none
  | .create p =>
    if Files.disk m.files p ≠ some .dir ∧ Files.disk m.files p.dropLast = some .dir then some (.ok (), m.set p (.file ""))
    else none
  | .write p more =>
    match Files.disk m.files p with
    | some (.file data) => some (.ok (), m.set p (.file (data ++ more)))
    | _ => none
  | .openFile p =>
    match Files.disk m.files p with
    | some (.file data) => some (.ok (data, none), m)
    | _ => none
  | .rename p q =>
    if Files.disk m.files p ≠ none ∧ Files.disk m.files q.dropLast = some .dir ∧ ¬ p <+: q ∧ Files.disk m.files q = none then
      some (.ok (), { m with files := Files.move p q m.files })
    else none
  | .removeAll p => some (.ok (), { m with files := Files.cleared p m.files })
  | .writeTo src dest =>
    match m.store.files.lookup src, Files.disk m.files dest with
    | some (.data bytes), some (.file data) => some (.ok (), m.set dest (.file (data ++ bytes)))
    | _, _ => none
  | .closeFile _ | .newClient | .newCA | .createKeypairs _ | .destClient => some (.ok (), m)
  | .snapshot => some (.ok (["snapshot"], none), { m with taken := m.taken ++ [keys] })
  | .bindirForEtcdVersion etcdVersion _ => some (.ok ("/opt/etcd-v" ++ etcdVersion), m)
  | .etcdctl _ _ snapshotFile dataDir =>
    if Files.disk m.files snapshotFile = some (.file "snapshot") then
      some (.exited true, { m with data := Function.update m.data dataDir (some keys) })
    else none
  | .start _ _ dataDir => some (.ok (), { m with running := some (dataDir, (m.data dataDir).getD noKeys) })
  | .stop => some (.ok (), { m with running := none })
  | .copy r =>
    match m.running with
    | some (_, source) => some ((copyAnswer source m.puts r).1, { m with puts := (copyAnswer source m.puts r).2 })
    | none => none
  | _ => none

variable {m m' : Machine}

theorem faithful : codec.Faithful where
  inflate chunks pieces h := by
    cases h
    simp [codec, Codec.zip]
  restored k k' h := by
    have hpair : Function.Injective fun kv : CopyTo.KeyValue => (kv.key, kv.value) := by
      intro kv kv' heq
      obtain ⟨hkey, hvalue⟩ := Prod.mk.inj heq
      cases kv
      cases kv'
      simp_all
    simp only [codec] at h
    split at h
    next hkvs =>
      cases h
      have hkvs : k.kvs = keys.kvs := List.map_injective_iff.2 hpair hkvs
      cases k
      cases hkvs
      rfl
    · simp at h

theorem world_set {p : VfsPath} {n : Inode} : (m.set p n).world = { m.world with disk := m.world.disk.set p n } := by
  simp only [Machine.world, Machine.set, Files.disk_set]

theorem copyAnswer_serves {source : Keyspace} {puts : Puts} {r : CopyTo.CopyReq} :
    CopyServes source puts r (copyAnswer source puts r).1 (copyAnswer source puts r).2 := by
  cases r with
  | get fromKey limit => exact .answers .get
  | put kv => exact .answers .put
  | newClient => exact .answers .newClient
  | getRoot => exact .answers .getRoot
  | exitState => exact .answers .exitState
  | sleep => exact .answers .sleep

theorem answer_effect {r : Req} {x : r.Resp} (h : answer m r = some (x, m')) : Effect codec m.world r x m'.world := by
  cases r with
  | store r =>
    cases r with
    | now =>
      cases h
      exact .store (by simp) (.done (.now le_rfl))
    | openFile file =>
      simp only [answer] at h
      split at h
      next hfile =>
        subst hfile
        split at h
        next bytes hbytes =>
          cases h
          exact .copied ⟨by decide, by decide⟩ hbytes
        · cases h
      · cases h
    | writeFile p data =>
      cases h
      exact .store (by simp) (.done .written)
    | readFile p =>
      simp only [answer] at h
      split at h
      next data hdata =>
        cases h
        exact .store (by simp) (.done (.read hdata))
      · cases h
    | readTree | remove => cases h
  | mkdirAll p =>
    simp only [answer] at h
    split at h
    next hp =>
      cases h
      have hmade : Effect codec m.world (.mkdirAll p) (.ok ()) _ := .made (Files.noFile_clear hp)
      simpa only [Machine.world, Files.disk_mkdirs] using hmade
    · cases h
  | mkdirTemp =>
    simp only [answer] at h
    split at h
    next hfresh =>
      cases h
      rw [world_set]
      exact .mkdirTemp ⟨by decide, by decide⟩ fun q hq => Files.disk_eq_none hq hfresh
    · cases h
  | createTemp dir =>
    simp only [answer] at h
    split at h
    next hnone =>
      cases h
      rw [world_set]
      exact .createTemp hnone
    · cases h
  | create p =>
    simp only [answer] at h
    split at h
    next hp =>
      cases h
      rw [world_set]
      exact .created hp
    · cases h
  | write p more =>
    simp only [answer] at h
    split at h
    next data hfile =>
      cases h
      rw [world_set]
      exact .written hfile
    · cases h
  | openFile p =>
    simp only [answer] at h
    split at h
    next data hfile =>
      cases h
      exact .read hfile
    · cases h
  | closeFile p =>
    cases h
    exact .closeFile
  | rename p q =>
    simp only [answer] at h
    split at h
    next hp =>
      cases h
      have hrenamed : Effect codec m.world (.rename p q) (.ok ()) _ := .renamed ⟨hp.1, hp.2.1, hp.2.2.1, .inl hp.2.2.2⟩
      simpa only [Machine.world, Files.disk_move] using hrenamed
    · cases h
  | remove p => cases h
  | removeAll p =>
    cases h
    have hremoved : Effect codec m.world (.removeAll p) (.ok ()) _ := .removedAll
    simpa only [Machine.world, Files.disk_cleared] using hremoved
  | writeTo src dest =>
    simp only [answer] at h
    split at h
    next hsrc hdest =>
      cases h
      rw [world_set]
      exact .downloaded hsrc hdest
    · cases h
  | newClient =>
    cases h
    exact .newClient
  | snapshot =>
    cases h
    exact .snapshot (by decide)
  | bindirForEtcdVersion etcdVersion cmd =>
    cases h
    exact .bindir
  | newCA =>
    cases h
    exact .newCA
  | createKeypairs pkiDir =>
    cases h
    exact .createKeypairs .refl
  | etcdctl binDir args snapshotFile dataDir =>
    simp only [answer] at h
    split at h
    next hfile =>
      cases h
      exact .restored hfile rfl .refl
    · cases h
  | start p currentDir dataDir =>
    cases h
    exact .started
  | stop =>
    cases h
    exact .stopped
  | destClient =>
    cases h
    exact .destClient
  | copy r =>
    simp only [answer] at h
    split at h
    next hrunning =>
      cases h
      exact .copy hrunning copyAnswer_serves
    · cases h

/-- **The machine answers as machines do.** -/
theorem answer_serves {r : Req} {x : r.Resp} (h : answer m r = some (x, m')) : Serves codec m.world r x m'.world :=
  ⟨m.world.disk, ⟨fun _ => rfl, fun _ _ _ => .refl⟩, answer_effect h⟩

/-- What is left by a run that ends. -/
def after {α : Type} (p : M α) (m : Machine) : Machine := ((p.perform? answer m).map (·.2)).getD m

theorem perform_after {α : Type} {p : M α} {a : α} (h : (p.perform? answer m).map (·.1) = some a) :
    p.perform? answer m = some (a, after p m) := by
  obtain ⟨x, hx, ha⟩ := Option.map_eq_some_iff.1 h
  simp [after, hx, ← ha]

theorem does_answer {α : Type} {p : M α} {a : α} (h : (p.perform? answer m).map (·.1) = some a) :
    Prog.Does (Serves codec) m.world p a (after p m).world :=
  Prog.perform?_does_map Machine.world (fun _ _ _ _ => answer_serves) (perform_after h)

def idle : Machine := ⟨⟨0, ∅⟩, [(["tmp"], .dir), ([], .dir)], fun _ => none, none, [], []⟩

def backup : M (Except Error DoBackupResponse) := doBackup codec ["backups"] 1 ⟨"3.4.13", 0, none⟩

def restore : M (Except Error Unit) := doRestore codec ["backups"] (fun _ => "") 3 "1970-01-01T00:00:00Z-000001"

/-- After the backup. -/
def saved : Machine := after backup idle

end Example

/-- A backup of three keys, and its restore right after. -/
theorem three_keys_restored : Prog.Does (Serves Example.codec) Example.idle.world Example.backup
      (.ok ⟨"1970-01-01T00:00:00Z-000001"⟩) Example.saved.world ∧
    Prog.Does (Serves Example.codec) Example.saved.world Example.restore (.ok ()) (Example.after Example.restore Example.saved).world ∧
    ∃ keys, Example.saved.taken = [keys] ∧ (Example.after Example.restore Example.saved).puts = CopyTo.written keys.kvs := by
  have hbackup : Prog.Does (Serves Example.codec) Example.idle.world Example.backup
      (.ok ⟨"1970-01-01T00:00:00Z-000001"⟩) Example.saved.world := Example.does_answer rfl
  have hrestore : Prog.Does (Serves Example.codec) Example.saved.world Example.restore (.ok ())
      (Example.after Example.restore Example.saved).world := Example.does_answer rfl
  exact ⟨hbackup, hrestore, restored_is_backed_up Example.codec Example.faithful ["backups"] 1 ⟨"3.4.13", 0, none⟩ (fun _ => "") 3
    _ _ _ _ _ rfl rfl rfl hbackup rfl hrestore⟩

end Etcdadm.Backup
