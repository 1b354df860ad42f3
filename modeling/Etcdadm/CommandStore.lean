/-
The queue of commands in the control store (`pkg/commands/vfs.go`).

A command is a file in a directory of its own. The directory is named after the
second the command was added in, and after a sequence number that is to tell
apart the commands of one second but is always the same. So a command replaces
the one that was added before it in the same second, and a command that was
taken from the queue before takes away, if it is removed once more, the one that
has come in its place. Where neither happens, the listing is the queue.
-/
import Etcdadm.Calendar
import Etcdadm.Vfs

namespace Etcdadm

/-! ## The store -/

/-- `CommandFilename` -/
def commandFilename : String := "_command.json"

/-- `vfsCommand`: the file a command was read from, and what it held. JSON loses
nothing of a command, so the file holds the command itself. -/
structure VfsCommand where
  p : VfsPath
  data : Command
  deriving DecidableEq

namespace CommandStore

variable (commandsBase : VfsPath)

def addCommand (cmd : Command) : VfsM Command (Except Error Unit) := do
  let sequence := "000000"
  let now ← vfs .now
  let cmd := { cmd with timestamp := now }
  let name := rfc3339 (unix now) ++ "-" ++ sequence
  let p := (commandsBase.join name).join commandFilename
  match ← vfs (.writeFile p cmd) with
  | .error err => return .error s!"error writing file {p.text.quote}: {err.text}"
  | .ok () => return .ok ()

/-- The loop of `ListCommands`: files of other names are passed over. -/
def readCommands : List VfsPath → VfsM Command (Except Error (List VfsCommand))
  | [] => return .ok []
  | f :: files => do
    if f.base ≠ commandFilename then readCommands files
    else
      match ← vfs (.readFile f) with
      | .error err => return .error s!"error reading {f.text}: {err.text}"
      | .ok data =>
        match ← readCommands files with
        | .error err => return .error err
        | .ok commands => return .ok (⟨f, data⟩ :: commands)

def listCommands : VfsM Command (Except Error (List VfsCommand)) := do
  match ← vfs (.readTree commandsBase) with
  | .error .notExist => return .ok []
  | .error (.failed err) => return .error s!"error reading {commandsBase.text}: {err}"
  | .ok files =>
    match ← readCommands files with
    | .error err => return .error err
    | .ok commands => return .ok (commands.insertionSort (·.data.timestamp ≤ ·.data.timestamp))

def removeCommand (command : VfsCommand) : VfsM Command (Except Error Unit) := do
  match ← vfs (.remove command.p) with
  | .error err => return .error s!"error removing command {command.p.text}: {err.text}"
  | .ok () => return .ok ()

/-! ## Users of the store -/

/-- The store, the commands that were added and not removed, oldest first, and
every command the store has handed out. -/
structure World where
  store : Vfs Command
  queue : List Command
  handed : List VfsCommand

inductive Op where
  | add (cmd : Command)
  | list
  | remove (command : VfsCommand)

/-- `UnixNano` is defined for this reading. -/
def Representable (now : Int) : Prop := -2 ^ 63 ≤ now ∧ now < 2 ^ 63

/-- A call to the store. A command to remove is one that a listing gave. -/
inductive Step : World → Op → World → Prop
  | add {w : World} {cmd v} : Prog.Does Vfs.Answers w.store (addCommand commandsBase cmd) (.ok ()) v →
      Representable v.clock → Step w (.add cmd) ⟨v, w.queue ++ [{ cmd with timestamp := v.clock }], w.handed⟩
  | list {w : World} {l v} : Prog.Does Vfs.Answers w.store (listCommands commandsBase) (.ok l) v →
      Step w .list ⟨v, w.queue, w.handed ++ l⟩
  | remove {w : World} {command r v} : command ∈ w.handed →
      Prog.Does Vfs.Answers w.store (removeCommand command) r v →
      Step w (.remove command) ⟨v, w.queue.erase command.data, w.handed⟩

/-- A call with the world before it and after. -/
structure Transition where
  before : World
  op : Op
  after : World

inductive Path : World → List Transition → World → Prop
  | nil {w} : Path w [] w
  | snoc {w₀ path w op w'} : Path w₀ path w → Step commandsBase w op w' → Path w₀ (path ++ [⟨w, op, w'⟩]) w'

/-- Nothing was queued yet. -/
structure World.Fresh (w : World) : Prop where
  files : ∀ p ∈ w.store.files, Vfs.Below commandsBase p → p.base ≠ commandFilename
  queue : w.queue = []
  handed : w.handed = []

/-- Every listing gives the queue. -/
def World.Faithful (w : World) : Prop :=
  ∀ r v, Prog.Does Vfs.Answers w.store (listCommands commandsBase) r v →
    ∃ l, r = .ok l ∧ l.map (·.data) = w.queue

/-- No queued command was added in the second of the one that is added; and a
command that is removed is queued, or none is that was added in its second. -/
def Transition.Careful (t : Transition) : Prop :=
  match t.op with
  | .add _ => ∀ d ∈ t.before.queue, unix d.timestamp ≠ unix t.after.store.clock
  | .list => True
  | .remove command =>
    command.data ∈ t.before.queue ∨ ∀ d ∈ t.before.queue, unix d.timestamp ≠ unix command.data.timestamp

/-! ## What the calls do -/

variable {commandsBase}

/-- Where a command is kept. -/
def fileOf (commandsBase : VfsPath) (now : Int) : VfsPath :=
  commandsBase ++ [rfc3339 (unix now) ++ "-" ++ "000000", commandFilename]

theorem join_fileOf (now : Int) :
    (commandsBase.join (rfc3339 (unix now) ++ "-" ++ "000000")).join commandFilename = fileOf commandsBase now := by
  have hname : VfsPath.Plain (rfc3339 (unix now) ++ "-" ++ "000000") :=
    VfsPath.plain_dash (notMem_rfc3339 (by decide) (by decide) _) (by decide)
  have hfile : VfsPath.Plain commandFilename := ⟨by decide, by decide, by decide, by decide⟩
  rw [VfsPath.join_plain hname, VfsPath.join_plain hfile]
  simp [fileOf]

/-- The path is that of a command. -/
def IsCommand (commandsBase p : VfsPath) : Prop := Vfs.Below commandsBase p ∧ p.base = commandFilename

instance (p : VfsPath) : Decidable (IsCommand commandsBase p) := inferInstanceAs (Decidable (_ ∧ _))

theorem isCommand_fileOf (now : Int) : IsCommand commandsBase (fileOf commandsBase now) := by
  refine ⟨⟨_, _, rfl⟩, ?_⟩
  simp [fileOf, VfsPath.base]

theorem representable_fourDigitYear {now : Int} (h : Representable now) : FourDigitYear (unix now) := by
  obtain ⟨hlower, hupper⟩ := h
  unfold FourDigitYear unix
  omega

theorem fileOf_inj {now now' : Int} (h : Representable now) (h' : Representable now') :
    fileOf commandsBase now = fileOf commandsBase now' ↔ unix now = unix now' := by
  constructor
  · intro heq
    simp only [fileOf, List.append_cancel_left_eq, List.cons.injEq, and_true] at heq
    have htext := congrArg String.toList heq
    simp only [String.toList_append, List.append_assoc] at htext
    have hlen := length_rfc3339 (representable_fourDigitYear h)
    have hlen' := length_rfc3339 (representable_fourDigitYear h')
    have hname := (List.append_inj htext (hlen.trans hlen'.symm)).1
    exact rfc3339_inj (representable_fourDigitYear h) (representable_fourDigitYear h') (String.toList_injective hname)
  · intro heq
    rw [fileOf, fileOf, heq]

section Calls

variable {v v' : Vfs Command}

theorem does_addCommand {cmd : Command} {r : Except Error Unit}
    (h : Prog.Does Vfs.Answers v (addCommand commandsBase cmd) r v') : v.clock ≤ v'.clock ∧
      v'.files = v.files.insert (fileOf commandsBase v'.clock) { cmd with timestamp := v'.clock } := by
  obtain ⟨now, v₁, hnow, h⟩ := Vfs.does_vfs.1 h
  obtain ⟨hle, rfl⟩ := Vfs.answers_now.1 hnow
  obtain ⟨x, v₂, hwrite, h⟩ := Vfs.does_vfs.1 h
  obtain ⟨rfl, rfl⟩ := Vfs.answers_writeFile.1 hwrite
  obtain ⟨-, rfl⟩ := Prog.does_ret.1 h
  exact ⟨hle, by rw [join_fileOf]⟩

theorem addCommand_does {cmd : Command} {now : Int} (h : v.clock ≤ now) :
    Prog.Does Vfs.Answers v (addCommand commandsBase cmd) (.ok ())
      ⟨now, v.files.insert (fileOf commandsBase now) { cmd with timestamp := now }⟩ := by
  refine Vfs.does_vfs.2 ⟨now, _, .now h, Vfs.does_vfs.2 ⟨.ok (), _, .written, ?_⟩⟩
  rw [join_fileOf]
  exact .ret

theorem does_removeCommand {command : VfsCommand} {r : Except Error Unit}
    (h : Prog.Does Vfs.Answers v (removeCommand command) r v') : v'.clock = v.clock ∧
      ∀ p, v'.files.lookup p = if p = command.p then none else v.files.lookup p := by
  obtain ⟨x, v₁, hremove, h⟩ := Vfs.does_vfs.1 h
  have hv : v' = v₁ := by
    rcases x with err | _
    · exact (Prog.does_ret.1 h).2
    · exact (Prog.does_ret.1 h).2
  exact hv ▸ Vfs.answers_remove hremove

/-- What reading a tree gives, if every file of it is there. -/
theorem does_readCommands : ∀ {files : List VfsPath} {r : Except Error (List VfsCommand)} {v' : Vfs Command},
    (∀ f ∈ files, f ∈ v.files) → Prog.Does Vfs.Answers v (readCommands files) r v' →
    v' = v ∧ ∃ l, r = .ok l ∧ l.map (·.p) = files.filter (·.base = commandFilename) ∧
      ∀ c ∈ l, v.files.lookup c.p = some c.data
  | [], _, _, _, h => by
    obtain ⟨rfl, rfl⟩ := Prog.does_ret.1 h
    exact ⟨rfl, [], rfl, rfl, by simp⟩
  | f :: files, r, v', hfiles, h => by
    obtain ⟨hf, hfiles⟩ := List.forall_mem_cons.1 hfiles
    unfold readCommands at h
    by_cases hbase : f.base = commandFilename
    · simp only [hbase, ne_eq, not_true_eq_false, if_false] at h
      obtain ⟨x, v₁, hread, h⟩ := Vfs.does_vfs.1 h
      obtain ⟨hv₁, rfl⟩ := Vfs.answers_readFile.1 hread
      obtain ⟨data, hdata⟩ := Option.isSome_iff_exists.1 (AList.lookup_isSome.2 hf)
      rw [hv₁, hdata] at h
      obtain ⟨r₁, v₂, hrest, h⟩ := Prog.does_bind.1 h
      obtain ⟨hv, l, hr, hpaths, hl⟩ := does_readCommands hfiles hrest
      subst hr
      obtain ⟨rfl, hv'⟩ := Prog.does_ret.1 h
      refine ⟨hv'.trans hv, _, rfl, by simp [hpaths, hbase], List.forall_mem_cons.2 ⟨hdata, hl⟩⟩
    · simp only [hbase, ne_eq, not_false_eq_true, if_true] at h
      obtain ⟨hv, l, hr, hpaths, hl⟩ := does_readCommands hfiles h
      exact ⟨hv, l, hr, by simp [hpaths, hbase], hl⟩

/-- **What a listing gives**: every command file once, in the order of the
commands' timestamps. -/
theorem does_listCommands {r : Except Error (List VfsCommand)}
    (h : Prog.Does Vfs.Answers v (listCommands commandsBase) r v') : v' = v ∧ ∃ l, r = .ok l ∧
      (l.map (·.p)).Perm (v.files.keys.filter (IsCommand commandsBase ·)) ∧
      (∀ c ∈ l, v.files.lookup c.p = some c.data) ∧ l.Pairwise (·.data.timestamp ≤ ·.data.timestamp) := by
  have hfilter : (v.files.keys.filter (Vfs.Below commandsBase ·)).filter (·.base = commandFilename) =
      v.files.keys.filter (IsCommand commandsBase ·) := by
    rw [List.filter_filter]
    refine List.filter_congr fun p _ => ?_
    rw [Bool.eq_iff_iff]
    simp only [Bool.and_eq_true, decide_eq_true_iff]
    exact and_comm
  obtain ⟨x, v₁, htree, h⟩ := Vfs.does_vfs.1 h
  obtain ⟨rfl, ⟨files, rfl, hlists⟩ | ⟨rfl, hnone⟩⟩ := Vfs.answers_readTree.1 htree
  · obtain ⟨r₁, v₂, hread, h⟩ := Prog.does_bind.1 h
    obtain ⟨rfl, l, rfl, hpaths, hl⟩ := does_readCommands (fun f hf => (hlists.mem.1 hf).1) hread
    obtain ⟨rfl, rfl⟩ := Prog.does_ret.1 h
    have hperm := List.perm_insertionSort (·.data.timestamp ≤ ·.data.timestamp) l
    refine ⟨rfl, _, rfl, ?_, fun c hc => hl c (hperm.mem_iff.1 hc), ?_⟩
    · rw [← hfilter]
      exact ((hperm.map _).trans (.of_eq hpaths)).trans (hlists.filter _)
    · have : Std.Total fun a b : VfsCommand => a.data.timestamp ≤ b.data.timestamp := ⟨fun _ _ => Int.le_total _ _⟩
      have : IsTrans VfsCommand fun a b => a.data.timestamp ≤ b.data.timestamp := ⟨fun _ _ _ => Int.le_trans⟩
      exact List.pairwise_insertionSort _ l
  · obtain ⟨rfl, rfl⟩ := Prog.does_ret.1 h
    refine ⟨rfl, [], rfl, ?_, by simp, .nil⟩
    rw [← hfilter, ← (hnone.filter _).nil_eq]
    exact .refl _

theorem readCommands_does : ∀ {files : List VfsPath}, (∀ f ∈ files, f ∈ v.files) →
    ∃ l, Prog.Does Vfs.Answers v (readCommands files) (.ok l) v
  | [], _ => ⟨[], .ret⟩
  | f :: files, hfiles => by
    obtain ⟨hf, hfiles⟩ := List.forall_mem_cons.1 hfiles
    obtain ⟨l, hrest⟩ := readCommands_does hfiles
    unfold readCommands
    by_cases hbase : f.base = commandFilename
    · obtain ⟨data, hdata⟩ := Option.isSome_iff_exists.1 (AList.lookup_isSome.2 hf)
      simp only [hbase, ne_eq, not_true_eq_false, if_false]
      exact ⟨⟨f, data⟩ :: l, Vfs.does_vfs.2 ⟨_, v, .read hdata, Prog.does_bind.2 ⟨_, v, hrest, .ret⟩⟩⟩
    · simp only [hbase, ne_eq, not_false_eq_true, if_true]
      exact ⟨l, hrest⟩

/-- The store can be listed. -/
theorem listCommands_does (commandsBase : VfsPath) (v : Vfs Command) :
    ∃ l, Prog.Does Vfs.Answers v (listCommands commandsBase) (.ok l) v := by
  have hlists : v.Lists commandsBase (v.files.keys.filter (Vfs.Below commandsBase ·)) := .refl _
  obtain ⟨l, hread⟩ := readCommands_does fun f hf => (hlists.mem.1 hf).1
  exact ⟨_, Vfs.does_vfs.2 ⟨_, v, .tree hlists, Prog.does_bind.2 ⟨_, v, hread, .ret⟩⟩⟩

end Calls

/-! ## The queue and the files -/

/-- The files are the queue: a file for each command, named after its second. -/
structure World.Kept (commandsBase : VfsPath) (w : World) : Prop where
  sorted : w.queue.Pairwise fun a b => a.timestamp < b.timestamp ∧ unix a.timestamp ≠ unix b.timestamp
  stamped : ∀ d ∈ w.queue, Representable d.timestamp ∧ d.timestamp ≤ w.store.clock
  files : ∀ p, IsCommand commandsBase p → ∀ data, w.store.files.lookup p = some data ↔
    data ∈ w.queue ∧ p = fileOf commandsBase data.timestamp
  handed : ∀ c ∈ w.handed, c.p = fileOf commandsBase c.data.timestamp ∧ Representable c.data.timestamp

variable {w w' : World} {op : Op}

theorem World.Fresh.kept (h : w.Fresh commandsBase) : w.Kept commandsBase where
  sorted := by simp [h.queue]
  stamped := by simp [h.queue]
  files p hp data := by
    have hnone : w.store.files.lookup p = none := by
      rw [AList.lookup_eq_none]
      exact fun hmem => h.files p hmem hp.1 hp.2
    simp [h.queue, hnone]
  handed := by simp [h.handed]

/-- Of one second, the queue has at most one command. -/
theorem World.Kept.eq_of_unix (h : w.Kept commandsBase) {a b : Command} (ha : a ∈ w.queue) (hb : b ∈ w.queue)
    (hunix : unix a.timestamp = unix b.timestamp) : a = b := by
  by_contra hne
  have : Std.Symm fun a b : Command => unix a.timestamp ≠ unix b.timestamp := ⟨fun _ _ h => h.symm⟩
  exact (h.sorted.imp And.right).forall ha hb hne hunix

theorem World.Kept.nodup (h : w.Kept commandsBase) : w.queue.Nodup :=
  h.sorted.imp fun hlt heq => by simp [heq] at hlt

/-- **Where the files are the queue, every listing is.** -/
theorem World.Kept.faithful (h : w.Kept commandsBase) : w.Faithful commandsBase := by
  intro r v hdoes
  obtain ⟨-, l, rfl, hperm, hdata, hsorted⟩ := does_listCommands hdoes
  refine ⟨l, rfl, ?_⟩
  have hcommand (c : VfsCommand) (hc : c ∈ l) : IsCommand commandsBase c.p := by
    have hmem := hperm.mem_iff.1 (List.mem_map_of_mem hc)
    simpa using (List.mem_filter.1 hmem).2
  have hfile (c : VfsCommand) (hc : c ∈ l) : c.data ∈ w.queue ∧ c.p = fileOf commandsBase c.data.timestamp :=
    (h.files c.p (hcommand c hc) c.data).1 (hdata c hc)
  have hnodup : (l.map (·.data)).Nodup := by
    have hpaths : (l.map (·.p)).Nodup := hperm.nodup_iff.2 (w.store.files.nodupKeys.filter _)
    refine (List.nodup_map_iff_inj_on hpaths.of_map).2 fun a ha b hb hab => ?_
    exact List.inj_on_of_nodup_map hpaths ha hb (by rw [(hfile a ha).2, (hfile b hb).2, hab])
  have hmem (d : Command) : d ∈ l.map (·.data) ↔ d ∈ w.queue := by
    constructor
    · intro hd
      obtain ⟨c, hc, rfl⟩ := List.mem_map.1 hd
      exact (hfile c hc).1
    · intro hd
      have hlookup := (h.files _ (isCommand_fileOf d.timestamp) d).2 ⟨hd, rfl⟩
      have hkey : fileOf commandsBase d.timestamp ∈ w.store.files.keys.filter (IsCommand commandsBase ·) :=
        List.mem_filter.2 ⟨AList.lookup_isSome.1 (by simp [hlookup]), by simp [isCommand_fileOf]⟩
      obtain ⟨c, hc, hp⟩ := List.mem_map.1 (hperm.mem_iff.2 hkey)
      have hcd := hdata c hc
      rw [hp, hlookup] at hcd
      exact List.mem_map.2 ⟨c, hc, (Option.some.inj hcd).symm⟩
  have hanti (a b : Command) (ha : a ∈ l.map (·.data)) (hb : b ∈ w.queue) (hab : a.timestamp ≤ b.timestamp)
      (hba : b.timestamp ≤ a.timestamp) : a = b :=
    h.eq_of_unix ((hmem a).1 ha) hb (by rw [Int.le_antisymm hab hba])
  exact List.Perm.eq_of_pairwise hanti (List.pairwise_map.2 hsorted) (h.sorted.imp fun hlt => Int.le_of_lt hlt.1)
    ((List.perm_ext_iff_of_nodup hnodup h.nodup).2 hmem)

/-- There are as many command files as a listing has commands. -/
theorem World.Faithful.length (h : w.Faithful commandsBase) :
    (w.store.files.keys.filter (IsCommand commandsBase ·)).length = w.queue.length := by
  obtain ⟨l, hdoes⟩ := listCommands_does commandsBase w.store
  obtain ⟨-, l', hl, hperm, -, -⟩ := does_listCommands hdoes
  obtain ⟨l'', hl', hqueue⟩ := h _ _ hdoes
  cases hl
  cases hl'
  rw [← hqueue, List.length_map, ← hperm.length_eq, List.length_map]

/-! ## One call -/

theorem Step.kept_add {cmd : Command} (hstep : Step commandsBase w (.add cmd) w') (h : w.Kept commandsBase)
    (hcareful : (Transition.mk w (.add cmd) w').Careful) : w'.Kept commandsBase := by
  cases hstep with
  | add hdoes hrepr =>
  rename_i v
  obtain ⟨hclock, hfiles⟩ := does_addCommand hdoes
  have hfresh (d : Command) (hd : d ∈ w.queue) : unix d.timestamp ≠ unix v.clock := hcareful d hd
  have hbefore (d : Command) (hd : d ∈ w.queue) : d.timestamp ≤ v.clock := (h.stamped d hd).2.trans hclock
  refine ⟨?_, ?_, ?_, h.handed⟩
  · refine List.pairwise_append.2 ⟨h.sorted, by simp, fun d hd e he => ?_⟩
    rw [List.mem_singleton.1 he]
    have hne : d.timestamp ≠ v.clock := fun heq => hfresh d hd (by rw [heq])
    exact ⟨Int.lt_iff_le_and_ne.2 ⟨hbefore d hd, hne⟩, hfresh d hd⟩
  · intro d hd
    rcases List.mem_append.1 hd with hd | hd
    · exact ⟨(h.stamped d hd).1, hbefore d hd⟩
    · rw [List.mem_singleton.1 hd]
      exact ⟨hrepr, Int.le_refl _⟩
  · intro p hp data
    simp only [hfiles, List.mem_append, List.mem_singleton]
    by_cases hnew : p = fileOf commandsBase v.clock
    · subst hnew
      rw [AList.lookup_insert]
      constructor
      · intro heq
        cases heq
        exact ⟨.inr rfl, rfl⟩
      · rintro ⟨hd | rfl, hp⟩
        · exact absurd ((fileOf_inj hrepr (h.stamped data hd).1).1 hp).symm (hfresh data hd)
        · rfl
    · rw [AList.lookup_insert_ne hnew, h.files p hp data]
      constructor
      · rintro ⟨hd, hp⟩
        exact ⟨.inl hd, hp⟩
      · rintro ⟨hd | rfl, hp⟩
        · exact ⟨hd, hp⟩
        · exact absurd hp hnew

theorem Step.kept_remove {command : VfsCommand} (hstep : Step commandsBase w (.remove command) w')
    (h : w.Kept commandsBase) (hcareful : (Transition.mk w (.remove command) w').Careful) : w'.Kept commandsBase := by
  cases hstep with
  | remove hhanded hdoes =>
  obtain ⟨hclock, hfiles⟩ := does_removeCommand hdoes
  obtain ⟨hpath, hrepr⟩ := h.handed command hhanded
  have hsub {d : Command} (hd : d ∈ w.queue.erase command.data) : d ∈ w.queue := List.mem_of_mem_erase hd
  refine ⟨h.sorted.sublist List.erase_sublist, fun d hd => ?_, ?_, h.handed⟩
  · rw [hclock]
    exact h.stamped d (hsub hd)
  · intro p hp data
    simp only [hfiles]
    by_cases hgone : p = command.p
    · simp only [hgone, if_true, reduceCtorEq, false_iff, not_and]
      intro hd heq
      rw [hpath] at heq
      have hunix := (fileOf_inj hrepr (h.stamped data (hsub hd)).1).1 heq
      rcases hcareful with hqueued | hnone
      · rw [h.eq_of_unix (hsub hd) hqueued hunix.symm] at hd
        exact (h.nodup.not_mem_erase) hd
      · exact hnone data (hsub hd) hunix.symm
    · simp only [hgone, if_false]
      rw [h.files p hp data]
      constructor
      · rintro ⟨hd, heq⟩
        refine ⟨(List.mem_erase_of_ne ?_).2 hd, heq⟩
        rintro rfl
        exact hgone (heq.trans hpath.symm)
      · rintro ⟨hd, heq⟩
        exact ⟨hsub hd, heq⟩

theorem Step.kept_list (hstep : Step commandsBase w .list w') (h : w.Kept commandsBase) : w'.Kept commandsBase := by
  cases hstep with
  | list hdoes =>
  obtain ⟨rfl, l', hl, hperm, hdata, -⟩ := does_listCommands hdoes
  cases hl
  refine ⟨h.sorted, h.stamped, h.files, fun c hc => ?_⟩
  rcases List.mem_append.1 hc with hc | hc
  · exact h.handed c hc
  · have hmem := hperm.mem_iff.1 (List.mem_map_of_mem hc)
    have hcommand : IsCommand commandsBase c.p := by simpa using (List.mem_filter.1 hmem).2
    obtain ⟨hqueued, hpath⟩ := (h.files c.p hcommand c.data).1 (hdata c hc)
    exact ⟨hpath, (h.stamped _ hqueued).1⟩

theorem Step.kept (hstep : Step commandsBase w op w') (h : w.Kept commandsBase)
    (hcareful : (Transition.mk w op w').Careful) : w'.Kept commandsBase := by
  cases op with
  | add cmd => exact hstep.kept_add h hcareful
  | list => exact hstep.kept_list h
  | remove command => exact hstep.kept_remove h hcareful

/-- A careless call leaves a listing that is not the queue: it has lost a
command, since there are fewer files than there should be. -/
theorem Step.careful (hstep : Step commandsBase w op w') (h : w.Kept commandsBase)
    (hfaithful : w'.Faithful commandsBase) : (Transition.mk w op w').Careful := by
  have hbefore := h.faithful.length
  have hafter := hfaithful.length
  cases hstep with
  | add hdoes hrepr =>
    rename_i v
    obtain ⟨-, hfiles⟩ := does_addCommand hdoes
    intro d hd hunix
    have hsame : fileOf commandsBase d.timestamp = fileOf commandsBase v.clock :=
      (fileOf_inj (h.stamped d hd).1 hrepr).2 hunix
    have hmem : fileOf commandsBase v.clock ∈ w.store.files := by
      have hlookup := (h.files _ (isCommand_fileOf d.timestamp) d).2 ⟨hd, rfl⟩
      rw [hsame] at hlookup
      exact AList.lookup_isSome.1 (by simp [hlookup])
    dsimp only at hafter
    rw [hfiles, ((Vfs.keys_replaced _ hmem).filter _).length_eq, hbefore] at hafter
    simp at hafter
  | list => trivial
  | @remove command _ _ hhanded hdoes =>
    obtain ⟨-, hfiles⟩ := does_removeCommand hdoes
    obtain ⟨hpath, hrepr⟩ := h.handed command hhanded
    by_contra hcareless
    simp only [Transition.Careful, not_or, not_forall, not_not] at hcareless
    obtain ⟨hgone, d, hd, hunix⟩ := hcareless
    have hsame : command.p = fileOf commandsBase d.timestamp :=
      hpath.trans ((fileOf_inj hrepr (h.stamped d hd).1).2 hunix.symm)
    have hmem : command.p ∈ w.store.files.keys := by
      have hlookup := (h.files _ (isCommand_fileOf d.timestamp) d).2 ⟨hd, rfl⟩
      rw [← hsame] at hlookup
      exact AList.lookup_isSome.1 (by simp [hlookup])
    have hkeys := ((Vfs.keys_removed hfiles).filter (IsCommand commandsBase ·)).length_eq
    have hperm := ((List.perm_cons_erase hmem).filter (IsCommand commandsBase ·)).length_eq
    have hcommand : IsCommand commandsBase command.p := hsame ▸ isCommand_fileOf _
    dsimp only at hafter
    rw [List.erase_of_not_mem hgone, hkeys, ← hbefore, hperm] at hafter
    simp [hcommand] at hafter

/-! ## Runs -/

/-- **The queue is kept as long as the calls are careful.** -/
theorem Path.kept {w₀ : World} {path : List Transition} (h : Path commandsBase w₀ path w)
    (hfresh : w₀.Fresh commandsBase) (hcareful : ∀ t ∈ path, t.Careful) : w.Kept commandsBase := by
  induction h with
  | nil => exact hfresh.kept
  | snoc hpath hstep ih =>
    have hlast := hcareful _ (List.mem_append_right _ List.mem_cons_self)
    exact hstep.kept (ih fun t ht => hcareful t (List.mem_append_left _ ht)) hlast

/-- Commands added to an empty store, one after the other, each with the time. -/
def World.filled (commandsBase : VfsPath) (cmds : List Command) : World :=
  ⟨⟨(cmds.getLastD ⟨0, none⟩).timestamp,
    cmds.foldl (fun files cmd => files.insert (fileOf commandsBase cmd.timestamp) cmd) ∅⟩, cmds, []⟩

theorem filled_step {cmds : List Command} {cmd : Command}
    (hclock : (cmds.getLastD ⟨0, none⟩).timestamp ≤ cmd.timestamp) (hrepr : Representable cmd.timestamp) :
    Step commandsBase (World.filled commandsBase cmds) (.add cmd) (World.filled commandsBase (cmds ++ [cmd])) := by
  have hdoes := @addCommand_does commandsBase (World.filled commandsBase cmds).store cmd cmd.timestamp hclock
  have hstep := Step.add hdoes hrepr
  simpa [World.filled] using hstep

/-- **When queued commands are not lost.** In a run of calls on a fresh store,
every listing at every point of the run gives the commands that were added and
not removed, each once and in the order of addition, exactly if every call is
careful: a command is added in a second of which none is queued, and a command
that is removed is queued itself, or none of its second is. -/
theorem commands_kept_iff_careful (commandsBase : VfsPath) (w₀ : World) (hfresh : w₀.Fresh commandsBase)
    (path : List Transition) (w : World) (hpath : Path commandsBase w₀ path w) :
    (w₀.Faithful commandsBase ∧ ∀ t ∈ path, t.after.Faithful commandsBase) ↔ ∀ t ∈ path, t.Careful := by
  constructor
  · intro ⟨_, hfaithful⟩
    induction hpath with
    | nil => simp
    | snoc hpath hstep ih =>
      obtain ⟨hbefore, hlast⟩ := List.forall_mem_append.1 hfaithful
      have hcareful := ih hbefore
      have hkept := hpath.kept hfresh hcareful
      refine List.forall_mem_append.2 ⟨hcareful, List.forall_mem_singleton.2 ?_⟩
      exact hstep.careful hkept (hlast _ List.mem_cons_self)
  · intro hcareful
    refine ⟨hfresh.kept.faithful, ?_⟩
    induction hpath with
    | nil => simp
    | snoc hpath hstep ih =>
      obtain ⟨hbefore, hlast⟩ := List.forall_mem_append.1 hcareful
      have hkept := hpath.kept hfresh hbefore
      refine List.forall_mem_append.2 ⟨ih hbefore, List.forall_mem_singleton.2 ?_⟩
      exact (hstep.kept hkept (hlast _ List.mem_cons_self)).faithful

def World.empty : World := World.filled [] []

theorem World.empty_fresh : World.empty.Fresh [] := ⟨by simp [World.empty, World.filled], rfl, rfl⟩

/-- Two commands to restore a backup, added at these times. -/
def first (now : Int) : Command := ⟨now, some ⟨none, "first"⟩⟩

def other (now : Int) : Command := ⟨now, some ⟨none, "second"⟩⟩

/-- The two of them added one after the other. -/
def both (now now' : Int) : List Transition :=
  [⟨World.empty, .add (first now), World.filled [] [first now]⟩,
    ⟨World.filled [] [first now], .add (other now'), World.filled [] [first now, other now']⟩]

theorem both_path {now now' : Int} (h : 0 ≤ now) (h' : now ≤ now') (hr : now' < 2 ^ 63) :
    Path [] World.empty (both now now') (World.filled [] [first now, other now']) := by
  have hfirst : Step [] World.empty (.add (first now)) (World.filled [] [first now]) :=
    filled_step h ⟨by simp [first]; omega, by simp [first]; omega⟩
  have hother : Step [] (World.filled [] [first now]) (.add (other now')) (World.filled [] [first now, other now']) :=
    filled_step h' ⟨by simp [other]; omega, by simp [other]; omega⟩
  exact .snoc (.snoc .nil hfirst) hother

/-- Of two commands added in one second, the store keeps the second. -/
theorem commands_lost_within_a_second :
    Path [] World.empty (both 1 2) (World.filled [] [first 1, other 2]) ∧
    (World.filled [] [first 1, other 2]).queue = [first 1, other 2] ∧
    ∀ r v, Prog.Does Vfs.Answers (World.filled [] [first 1, other 2]).store (listCommands []) r v →
      ∃ l, r = .ok l ∧ l.map (·.data) = [other 2] := by
  refine ⟨both_path (by decide) (by decide) (by decide), rfl, fun r v hdoes => ?_⟩
  obtain ⟨-, l, rfl, hperm, hdata, -⟩ := does_listCommands hdoes
  have hsame : fileOf [] 1 = fileOf [] 2 := rfl
  have hkeys : (World.filled [] [first 1, other 2]).store.files.keys = [fileOf [] 2] := by
    simp [World.filled, first, other, hsame]
  have hlookup : (World.filled [] [first 1, other 2]).store.files.lookup (fileOf [] 2) = some (other 2) :=
    AList.lookup_insert _
  have hcommand : IsCommand [] (fileOf [] 2) := isCommand_fileOf 2
  simp only [hkeys, List.filter_singleton, hcommand, decide_true, cond_true, List.perm_singleton] at hperm
  obtain ⟨c, rfl, hc⟩ := List.map_eq_singleton_iff.1 hperm
  have hread := hdata c List.mem_cons_self
  rw [hc, hlookup] at hread
  exact ⟨[c], rfl, by simp [Option.some.inj hread]⟩

/-- Added in two seconds, both are kept. -/
theorem commands_kept_in_two_seconds :
    Path [] World.empty (both 1 1000000001) (World.filled [] [first 1, other 1000000001]) ∧
    (World.filled [] [first 1, other 1000000001]).Faithful [] := by
  have hpath : Path [] World.empty (both 1 1000000001) (World.filled [] [first 1, other 1000000001]) :=
    both_path (by decide) (by decide) (by decide)
  have hcareful : ∀ t ∈ both 1 1000000001, t.Careful := by
    refine List.forall_mem_cons.2 ⟨nofun, List.forall_mem_singleton.2 ?_⟩
    simp [Transition.Careful, World.filled, first, other, unix]
  have hfaithful := (commands_kept_iff_careful [] World.empty World.empty_fresh _ _ hpath).2 hcareful
  exact ⟨hpath, hfaithful.2 _ (List.mem_cons_of_mem _ List.mem_cons_self)⟩

end CommandStore

end Etcdadm
