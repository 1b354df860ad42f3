/-
`/etc/hosts`, as several managers keep their records in it (`pkg/hosts/hosts.go`).

Each manager has a key, and a block of the file between two guard lines with that
key. An update copies the file without the block, takes away the empty lines at
the end, and appends an empty line, the new block and an empty line. What keeps
the file from growing is that the scan, after the end of its block, skips one
blank line: the one that stood before the next block, or at the end.

To one key the blocks of the others are lines like any others. So the file is
always the lines it had at first, without the empty ones at the end, and then the
blocks in the order of their last updates, each with one empty line before it,
and one empty line at the end (`fileOf`).
-/
import Etcdadm.EtcdVersions
import Etcdadm.Prog

namespace Etcdadm

namespace Hosts

open Semver (isSpace trimSpace)

/-! ## An update -/

abbrev Line := List Char

/-- `GUARD_BEGIN_TEMPLATE`, up to the key and after it -/
def beginText : Line := "# Begin host entries managed by ".toList

def beginSuffix : Line := " - do not edit".toList

/-- `GUARD_END_TEMPLATE`, up to the key -/
def endText : Line := "# End host entries managed by ".toList

def guardBegin (key : String) : Line := beginText ++ key.toList ++ beginSuffix

def guardEnd (key : String) : Line := endText ++ key.toList

/-- The state of the loop over the lines. -/
structure Scan where
  out : List Line
  inGuardBlock : Bool
  skipBlank : Bool

def Scan.step (key : String) (s : Scan) (line : Line) : Scan :=
  let k := trimSpace line
  if k = [] ∧ s.skipBlank then { s with skipBlank := false }
  else
    let inGuardBlock := if k = guardBegin key then true else s.inGuardBlock
    let out := if inGuardBlock then s.out else s.out ++ [line]
    if k = guardEnd key then
      -- the end of a block that was never begun is not put out
      { out := if inGuardBlock then out else out.dropLast, inGuardBlock := false, skipBlank := true }
    else { out, inGuardBlock, skipBlank := false }

/-- The lines without the block. -/
def scan (key : String) (lines : List Line) : List Line := (lines.foldl (Scan.step key) ⟨[], false, false⟩).out

/-- The hosts of an address after the first: a space and the host, unless it is
the one before again. -/
def moreHosts (previous : String) : List String → Line
  | [] => []
  | host :: hosts => if previous = host then moreHosts host hosts else ' ' :: (host.toList ++ moreHosts host hosts)

def hostsText : List String → Line
  | [] => []
  | host :: hosts => host.toList ++ moreHosts host hosts

/-- One line of a block. -/
def recordLine (addr : String) (hosts : List String) : Line :=
  addr.toList ++ '\t' :: hostsText (hosts.insertionSort (· ≤ ·))

/-- The lines of a block, from the entries of `addrToHosts` in the order in which
the loop over the map takes them. -/
def records (addrToHosts : List (String × List String)) : List Line :=
  ((addrToHosts.map fun e => String.ofList (recordLine e.1 e.2)).insertionSort (· ≤ ·)).map String.toList

/-- `strings.Split(data, "\n")` -/
def linesOf (data : String) : List Line := data.toList.splitOn '\n'

/-- `strings.Join(out, "\n")` -/
def textOf (lines : List Line) : String := String.ofList (['\n'].intercalate lines)

/-- The lines that are written. -/
def newLines (key : String) (block : List Line) (lines : List Line) : List Line :=
  (scan key lines).rdropWhile (· = []) ++ [] :: guardBegin key :: (block ++ [guardEnd key, []])

inductive HostsReq where
  | stat (p : String)
  | readFile (p : String)
  /-- `pseudoAtomicWrite` -/
  | write (p data : String) (mode : Nat)

@[reducible] def HostsReq.Resp : HostsReq → Type
  | .stat _ => Except Error Nat
  | .readFile _ => Except Error String
  | .write _ _ _ => Option Error

@[reducible] def hostsSig : Sig := ⟨HostsReq, HostsReq.Resp⟩

abbrev HostsM := Prog hostsSig

def ask (r : HostsReq) : HostsM r.Resp := .call (S := hostsSig) r .ret

def updateHostsFileWithRecords (p key : String) (addrToHosts : List (String × List String)) : HostsM (Option Error) := do
  match ← ask (.stat p) with
  | .error err => return some s!"error getting file status of {p.quote}: {err}"
  | .ok mode =>
    match ← ask (.readFile p) with
    | .error err => return some s!"error reading file {p.quote}: {err}"
    | .ok data =>
      let updated := textOf (newLines key (records addrToHosts) (linesOf data))
      if updated = data then return none
      match ← ask (.write p updated mode) with
      | some err => return some s!"error writing file {p.quote}: {err}"
      | none => return none

/-! ## Updates one after the other -/

/-- The file, which is read and written as a whole. -/
inductive Serves (data : String) : (r : HostsReq) → r.Resp → String → Prop
  | stat {p mode} : Serves data (.stat p) mode data
  | read {p} : Serves data (.readFile p) (.ok data) data
  | readFailed {p err} : Serves data (.readFile p) (.error err) data
  | written {p data' mode} : Serves data (.write p data' mode) none data'
  | writeFailed {p data' mode err} : Serves data (.write p data' mode) (some err) data

structure Update where
  key : String
  addrToHosts : List (String × List String)

/-- Calls by any keys, of which these went through, in this order. -/
inductive Updates (p : String) (data₀ : String) : List Update → String → Prop
  | nil : Updates p data₀ [] data₀
  | done {us data data'} {u : Update} : Updates p data₀ us data →
      Prog.Does Serves data (updateHostsFileWithRecords p u.key u.addrToHosts) none data' → Updates p data₀ (us ++ [u]) data'
  | failed {us data data' err} {u : Update} : Updates p data₀ us data →
      Prog.Does Serves data (updateHostsFileWithRecords p u.key u.addrToHosts) (some err) data' → Updates p data₀ us data'

/-- The block of a key. -/
structure Block where
  key : String
  lines : List Line

/-- The block with its guards, and the separator before it. -/
def Block.text (b : Block) : List Line := [] :: guardBegin b.key :: (b.lines ++ [guardEnd b.key])

/-- The file with these lines outside of all blocks, and these blocks. -/
def fileOf (initial : List Line) (blocks : List Block) : List Line := initial ++ blocks.flatMap Block.text ++ [[]]

/-- The line is not, but for blanks around it, a guard line of the key. -/
def Foreign (key : String) (line : Line) : Prop := trimSpace line ≠ guardBegin key ∧ trimSpace line ≠ guardEnd key

instance (key : String) (line : Line) : Decidable (Foreign key line) := inferInstanceAs (Decidable (_ ∧ _))

/-- A key that is to be found again: it is on one line, and not blank at its ends. -/
structure Keyed (key : String) : Prop where
  line : '\n' ∉ key.toList
  trimmed : trimSpace key.toList = key.toList
  nonempty : key ≠ ""

/-- The latest update of a key. -/
def latest (us : List Update) (key : String) : Option Update := us.reverse.find? (·.key = key)

/-! ## Guard lines -/

theorem trimSpace_eq_self {s : Line} (hhead : ∀ c ∈ s.head?, isSpace c = false) (hlast : ∀ c ∈ s.getLast?, isSpace c = false) :
    trimSpace s = s := by
  have hdrop {l : Line} (h : ∀ c ∈ l.head?, isSpace c = false) : l.dropWhile isSpace = l := by
    cases l with
    | nil => rfl
    | cons c l => simp [h c rfl]
  rw [trimSpace, hdrop hhead, hdrop (by simpa using hlast), List.reverse_reverse]

theorem getLast?_trimSpace (s : Line) : ∀ c ∈ (trimSpace s).getLast?, isSpace c = false := by
  intro c hc
  rw [trimSpace, List.getLast?_reverse, Option.mem_def] at hc
  have hnot := List.head?_dropWhile_not isSpace (s.dropWhile isSpace).reverse
  rw [hc] at hnot
  exact hnot

variable {key key' : String} {line : Line}

theorem trimSpace_guardBegin : trimSpace (guardBegin key) = guardBegin key := by
  have hhead : (guardBegin key).head? = some '#' := by
    simp [guardBegin, List.head?_append, show beginText.head? = some '#' by decide]
  have hlast : (guardBegin key).getLast? = some 't' := by
    rw [guardBegin, List.getLast?_append, show beginSuffix.getLast? = some 't' by decide, Option.some_or]
  refine trimSpace_eq_self (fun c hc => ?_) (fun c hc => ?_)
  · rw [hhead] at hc
    cases hc
    decide
  · rw [hlast] at hc
    cases hc
    decide

theorem trimSpace_guardEnd (h : Keyed key) : trimSpace (guardEnd key) = guardEnd key := by
  have hhead : (guardEnd key).head? = some '#' := by
    simp [guardEnd, List.head?_append, show endText.head? = some '#' by decide]
  have hkey : key.toList ≠ [] := by simpa using h.nonempty
  have hlast : (guardEnd key).getLast? = key.toList.getLast? := by
    rw [guardEnd, List.getLast?_append, List.getLast?_eq_some_getLast hkey, Option.some_or]
  refine trimSpace_eq_self (fun c hc => ?_) (fun c hc => ?_)
  · rw [hhead] at hc
    cases hc
    decide
  · rw [hlast, ← h.trimmed] at hc
    exact getLast?_trimSpace _ c hc

theorem guardBegin_ne_guardEnd : guardBegin key ≠ guardEnd key' := by
  intro h
  have htake := congrArg (List.take 3) h
  rw [guardBegin, guardEnd, List.append_assoc, List.take_append_of_le_length (by decide),
    List.take_append_of_le_length (by decide)] at htake
  exact absurd htake (by decide)

theorem guardBegin_inj : guardBegin key = guardBegin key' ↔ key = key' := by
  simp [guardBegin, String.toList_inj]

theorem guardEnd_inj : guardEnd key = guardEnd key' ↔ key = key' := by
  simp [guardEnd, String.toList_inj]

theorem guardBegin_ne_nil : guardBegin key ≠ [] := by
  simp [guardBegin, show beginText ≠ [] by decide]

theorem guardEnd_ne_nil : guardEnd key ≠ [] := by
  simp [guardEnd, show endText ≠ [] by decide]

theorem foreign_nil : Foreign key [] := ⟨guardBegin_ne_nil.symm, guardEnd_ne_nil.symm⟩

theorem foreign_guardBegin (hne : key' ≠ key) : Foreign key (guardBegin key') := by
  rw [Foreign, trimSpace_guardBegin]
  exact ⟨fun h => hne (guardBegin_inj.1 h), guardBegin_ne_guardEnd⟩

theorem foreign_guardEnd (h : Keyed key') (hne : key' ≠ key) : Foreign key (guardEnd key') := by
  rw [Foreign, trimSpace_guardEnd h]
  exact ⟨guardBegin_ne_guardEnd.symm, fun h => hne (guardEnd_inj.1 h)⟩

/-! ## The scan -/

/-- Lines that are no guards are put out, or not if they are inside of the block. -/
theorem scan_foreign {out : List Line} {inGuardBlock : Bool} : ∀ {lines : List Line}, (∀ line ∈ lines, Foreign key line) →
    lines.foldl (Scan.step key) ⟨out, inGuardBlock, false⟩ =
      ⟨if inGuardBlock then out else out ++ lines, inGuardBlock, false⟩
  | [], _ => by simp
  | line :: lines, h => by
    obtain ⟨hbegin, hend⟩ := h line (by simp)
    have hstep : Scan.step key ⟨out, inGuardBlock, false⟩ line =
        ⟨if inGuardBlock then out else out ++ [line], inGuardBlock, false⟩ := by
      simp [Scan.step, hbegin, hend]
    rw [List.foldl_cons, hstep, scan_foreign fun line hline => h line (by simp [hline])]
    cases inGuardBlock <;> simp

/-- The own block is left out, with the empty line after it. -/
theorem scan_block (hkey : Keyed key) {out block : List Line} (hblock : ∀ line ∈ block, Foreign key line) :
    (guardBegin key :: (block ++ [guardEnd key, []])).foldl (Scan.step key) ⟨out, false, false⟩ = ⟨out, false, false⟩ := by
  have hbegin : Scan.step key ⟨out, false, false⟩ (guardBegin key) = ⟨out, true, false⟩ := by
    simp [Scan.step, trimSpace_guardBegin, guardBegin_ne_guardEnd]
  have hend : Scan.step key ⟨out, true, false⟩ (guardEnd key) = ⟨out, false, true⟩ := by
    simp [Scan.step, trimSpace_guardEnd hkey]
  have hblank : Scan.step key ⟨out, false, true⟩ [] = ⟨out, false, false⟩ := by
    simp [Scan.step, trimSpace]
  rw [List.foldl_cons, hbegin, List.foldl_append, scan_foreign hblock]
  simp [hend, hblank]

/-- Nothing in the block is a guard line of the key. -/
def Block.Foreign (key : String) (b : Block) : Prop := ∀ line ∈ b.lines, Hosts.Foreign key line

theorem foreign_text {b : Block} (hkeyed : Keyed b.key) (hne : b.key ≠ key) (h : b.Foreign key) :
    ∀ line ∈ b.text, Foreign key line := by
  intro line hline
  simp only [Block.text, List.mem_cons, List.mem_append, List.not_mem_nil, or_false] at hline
  rcases hline with rfl | rfl | hline | rfl
  · exact foreign_nil
  · exact foreign_guardBegin hne
  · exact h line hline
  · exact foreign_guardEnd hkeyed hne

/-- Blocks that are there for a key to scan. -/
structure Blocks.Sound (keys : Set String) (blocks : List Block) : Prop where
  nodup : (blocks.map Block.key).Nodup
  keyed : ∀ b ∈ blocks, b.key ∈ keys
  foreign : ∀ b ∈ blocks, ∀ key ∈ keys, b.Foreign key
  lines : ∀ b ∈ blocks, ∀ line ∈ b.lines, '\n' ∉ line

section Blocks

variable {keys : Set String} {blocks : List Block}

/-- Each key has one block. -/
theorem Blocks.Sound.split (h : Blocks.Sound keys blocks) {b : Block} (hb : b ∈ blocks) :
    ∃ pre post, blocks = pre ++ b :: post ∧ ∀ b' ∈ pre ++ post, b'.key ≠ b.key := by
  obtain ⟨pre, post, rfl⟩ := List.append_of_mem hb
  have hnodup := h.nodup
  rw [List.map_append, List.map_cons, List.nodup_middle, List.nodup_cons, ← List.map_append] at hnodup
  exact ⟨pre, post, rfl, fun b' hb' heq => hnodup.1 (heq ▸ List.mem_map_of_mem hb')⟩

theorem Blocks.Sound.foreign_flatMap (h : Blocks.Sound keys blocks) (hkeys : ∀ key ∈ keys, Keyed key) (hkey : key ∈ keys)
    {l : List Block} (hsub : l ⊆ blocks) (hne : ∀ b ∈ l, b.key ≠ key) :
    ∀ line ∈ l.flatMap Block.text, Foreign key line := by
  intro line hline
  obtain ⟨b, hb, hline⟩ := List.mem_flatMap.1 hline
  exact foreign_text (hkeys _ (h.keyed b (hsub hb))) (hne b hb) (h.foreign b (hsub hb) key hkey) line hline

/-- **The scan takes away one block.** The others keep their separators. -/
theorem scan_fileOf (hkeys : ∀ key ∈ keys, Keyed key) (hkey : key ∈ keys) {initial : List Line}
    (hinitial : ∀ line ∈ initial, Foreign key line) (h : Blocks.Sound keys blocks) :
    scan key (fileOf initial blocks) = fileOf initial (blocks.filter (·.key ≠ key)) := by
  have hput {l : List Block} (hsub : l ⊆ blocks) (hne : ∀ b ∈ l, b.key ≠ key) :
      ∀ line ∈ fileOf initial l, Foreign key line := by
    intro line hline
    simp only [fileOf, List.mem_append, List.mem_singleton] at hline
    rcases hline with (hline | hline) | rfl
    · exact hinitial line hline
    · exact h.foreign_flatMap hkeys hkey hsub hne line hline
    · exact foreign_nil
  by_cases hmem : key ∈ blocks.map Block.key
  · obtain ⟨b, hb, rfl⟩ := List.mem_map.1 hmem
    obtain ⟨pre, post, rfl, hne⟩ := h.split hb
    have hpre := hput (l := pre) (fun b' hb' => by simp [hb']) fun b' hb' => hne b' (by simp [hb'])
    have hpost := hput (l := post) (fun b' hb' => by simp [hb']) fun b' hb' => hne b' (by simp [hb'])
    -- whatever comes after the block begins with an empty line
    obtain ⟨rest, hrest⟩ : ∃ rest, post.flatMap Block.text ++ [[]] = [] :: rest := by
      cases post with
      | nil => exact ⟨[], rfl⟩
      | cons b' post => exact ⟨_, rfl⟩
    have hfile : fileOf initial (pre ++ b :: post) =
        fileOf initial pre ++ (guardBegin b.key :: (b.lines ++ [guardEnd b.key, []])) ++ rest := by
      simp [fileOf, Block.text, hrest]
    have hfilter : (pre ++ b :: post).filter (·.key ≠ b.key) = pre ++ post := by
      rw [List.filter_append, List.filter_cons_of_neg (by simp), ← List.filter_append]
      exact List.filter_eq_self.2 (by simpa using hne)
    have hafter (line : Line) (hline : line ∈ rest) : Foreign b.key line :=
      hpost line (by simp [fileOf, hrest, hline])
    rw [hfilter, scan, hfile, List.foldl_append, List.foldl_append, scan_foreign hpre,
      scan_block (hkeys _ hkey) (h.foreign b hb _ hkey), scan_foreign hafter]
    simp [fileOf, hrest]
  · have hne (b : Block) (hb : b ∈ blocks) : b.key ≠ key := fun heq => hmem (heq ▸ List.mem_map_of_mem hb)
    rw [scan, scan_foreign (hput (List.Subset.refl blocks) hne), List.filter_eq_self.2 (by simpa using hne)]
    simp

/-- A guard line of a block is there once. -/
theorem countP_fileOf (hkeys : ∀ key ∈ keys, Keyed key) {initial : List Line}
    (hinitial : ∀ line ∈ initial, ∀ key ∈ keys, Foreign key line) (h : Blocks.Sound keys blocks) {b : Block}
    (hb : b ∈ blocks) {guard : Line} (hguard : guard = guardBegin b.key ∨ guard = guardEnd b.key) :
    (fileOf initial blocks).countP (trimSpace · = guard) = 1 := by
  have hkey := h.keyed b hb
  have hzero {l : List Line} (hl : ∀ line ∈ l, Foreign b.key line) : l.countP (trimSpace · = guard) = 0 := by
    rw [List.countP_eq_zero]
    intro line hline
    rcases hguard with rfl | rfl
    · simpa using (hl line hline).1
    · simpa using (hl line hline).2
  have hone : [guardBegin b.key, guardEnd b.key].countP (trimSpace · = guard) = 1 := by
    rcases hguard with rfl | rfl
    · simp [trimSpace_guardBegin, trimSpace_guardEnd (hkeys _ hkey), guardBegin_ne_guardEnd.symm]
    · simp [trimSpace_guardBegin, trimSpace_guardEnd (hkeys _ hkey), guardBegin_ne_guardEnd]
  obtain ⟨pre, post, rfl, hne⟩ := h.split hb
  have hinitial' := hzero fun line hline => hinitial line hline _ hkey
  have hpre := hzero (h.foreign_flatMap hkeys hkey (l := pre) (fun b' hb' => by simp [hb']) fun b' hb' => hne b' (by simp [hb']))
  have hpost := hzero (h.foreign_flatMap hkeys hkey (l := post) (fun b' hb' => by simp [hb']) fun b' hb' => hne b' (by simp [hb']))
  have hlines := hzero (h.foreign b hb _ hkey)
  have hblank := hzero (l := [[]]) (by simp [foreign_nil])
  simp only [List.countP_cons, List.countP_nil] at hone hblank
  simp only [fileOf, List.flatMap_append, List.flatMap_cons, Block.text, List.countP_append, List.countP_cons, List.countP_nil,
    hinitial', hpre, hpost, hlines]
  omega

end Blocks

/-! ## What is written -/

/-- Empty lines at the end are taken away, and the guard line of a block is none. -/
theorem rdropWhile_fileOf {initial : List Line} (hinitial : initial.rdropWhile (· = []) = initial) (blocks : List Block) :
    (fileOf initial blocks).rdropWhile (· = []) = initial ++ blocks.flatMap Block.text := by
  rw [fileOf, List.rdropWhile_concat_pos _ _ _ (by simp)]
  rcases List.eq_nil_or_concat' blocks with rfl | ⟨blocks, b, rfl⟩
  · simpa using hinitial
  · have hlast : initial ++ (blocks ++ [b]).flatMap Block.text =
        initial ++ blocks.flatMap Block.text ++ [] :: guardBegin b.key :: b.lines ++ [guardEnd b.key] := by
      simp [Block.text]
    rw [hlast, List.rdropWhile_concat_neg _ _ _ (by simp [guardEnd_ne_nil])]

/-- The first update of all. -/
theorem newLines_initial {lines : List Line} (h : ∀ line ∈ lines, Foreign key line) (block : List Line) :
    newLines key block lines = fileOf (lines.rdropWhile (· = [])) [⟨key, block⟩] := by
  rw [newLines, scan, scan_foreign h]
  simp [fileOf, Block.text]

/-- Any other: the block of the key is now the last. -/
theorem newLines_fileOf {keys : Set String} (hkeys : ∀ key ∈ keys, Keyed key) (hkey : key ∈ keys) {initial : List Line}
    (hforeign : ∀ line ∈ initial, Foreign key line) (hinitial : initial.rdropWhile (· = []) = initial) {blocks : List Block}
    (h : Blocks.Sound keys blocks) (block : List Line) :
    newLines key block (fileOf initial blocks) = fileOf initial (blocks.filter (·.key ≠ key) ++ [⟨key, block⟩]) := by
  rw [newLines, scan_fileOf hkeys hkey hforeign h, rdropWhile_fileOf hinitial]
  simp [fileOf, Block.text]

theorem Blocks.Sound.updated {keys : Set String} {blocks : List Block} (h : Blocks.Sound keys blocks) {b : Block}
    (hb : Blocks.Sound keys [b]) : Blocks.Sound keys (blocks.filter (·.key ≠ b.key) ++ [b]) := by
  have hmem {b' : Block} (hb' : b' ∈ blocks.filter (·.key ≠ b.key) ++ [b]) : b' ∈ blocks ∨ b' ∈ [b] :=
    (List.mem_append.1 hb').imp_left fun hb' => List.mem_of_mem_filter hb'
  refine ⟨?_, ?_, ?_, ?_⟩
  · rw [List.map_append, List.nodup_append]
    refine ⟨h.nodup.sublist (List.filter_sublist.map _), hb.nodup, ?_⟩
    intro key hkey key' hkey' heq
    obtain ⟨b', hb', rfl⟩ := List.mem_map.1 hkey
    simp only [List.map_cons, List.map_nil, List.mem_singleton] at hkey'
    simpa [heq, hkey'] using (List.mem_filter.1 hb').2
  · exact fun b' hb' => (hmem hb').elim (h.keyed b') (hb.keyed b')
  · exact fun b' hb' => (hmem hb').elim (h.foreign b') (hb.foreign b')
  · exact fun b' hb' => (hmem hb').elim (h.lines b') (hb.lines b')

theorem notMem_of_mem_splitOn {c : Char} : ∀ {s line : List Char}, line ∈ s.splitOn c → c ∉ line
  | [], line, h => by simp_all
  | d :: s, line, h => by
    rw [List.splitOn_cons_eq_if_modifyHead] at h
    split at h
    · rcases List.mem_cons.1 h with rfl | h
      · simp
      · exact notMem_of_mem_splitOn h
    · next hd =>
      obtain ⟨first, rest, hsplit⟩ := List.exists_cons_of_ne_nil (List.splitOn_ne_nil c s)
      rw [hsplit, List.modifyHead_cons] at h
      rcases List.mem_cons.1 h with rfl | h
      · have hfirst := notMem_of_mem_splitOn (hsplit ▸ List.mem_cons_self : first ∈ s.splitOn c)
        simp only [List.mem_cons, not_or]
        exact ⟨fun heq => hd (by simp [heq]), hfirst⟩
      · exact notMem_of_mem_splitOn (hsplit ▸ List.mem_cons_of_mem _ h : line ∈ s.splitOn c)

/-- What is written as lines is read as lines. -/
theorem linesOf_textOf {lines : List Line} (h : ∀ line ∈ lines, '\n' ∉ line) (hne : lines ≠ []) :
    linesOf (textOf lines) = lines := by
  rw [linesOf, textOf, String.toList_ofList, List.splitOn_intercalate _ h hne]

theorem linesOf_fileOf {keys : Set String} (hkeys : ∀ key ∈ keys, Keyed key) {initial : List Line}
    (hinitial : ∀ line ∈ initial, '\n' ∉ line) {blocks : List Block} (h : Blocks.Sound keys blocks) :
    linesOf (textOf (fileOf initial blocks)) = fileOf initial blocks := by
  refine linesOf_textOf ?_ (by simp [fileOf])
  intro line hline
  simp only [fileOf, List.mem_append, List.mem_flatMap, Block.text, List.mem_cons, List.not_mem_nil, or_false] at hline
  rcases hline with (hline | ⟨b, hb, rfl | rfl | hline | rfl⟩) | rfl
  · exact hinitial line hline
  · simp
  · have hkey := (hkeys _ (h.keyed b hb)).line
    simp [guardBegin, hkey, show '\n' ∉ beginText by decide, show '\n' ∉ beginSuffix by decide]
  · exact h.lines b hb line hline
  · have hkey := (hkeys _ (h.keyed b hb)).line
    simp [guardEnd, hkey, show '\n' ∉ endText by decide]
  · simp

/-! ## Records -/

/-- It does not matter in which order the entries come. -/
theorem records_perm {l l' : List (String × List String)} (h : l.Perm l') : records l = records l' := by
  refine congrArg (List.map String.toList) (List.Perm.eq_of_pairwise' (List.pairwise_insertionSort (· ≤ ·) _)
    (List.pairwise_insertionSort (· ≤ ·) _) ?_)
  exact (List.perm_insertionSort _ _).trans ((h.map _).trans (List.perm_insertionSort _ _).symm)

theorem notMem_moreHosts {c : Char} (hc : c ≠ ' ') : ∀ {hosts : List String} {previous : String},
    (∀ host ∈ hosts, c ∉ host.toList) → c ∉ moreHosts previous hosts
  | [], _, _ => by simp [moreHosts]
  | host :: hosts, previous, h => by
    have hrest := @notMem_moreHosts c hc hosts host fun host' hhost' => h host' (by simp [hhost'])
    unfold moreHosts
    split
    · exact hrest
    · simp [hc, h host (by simp), hrest]

theorem notMem_records {addrToHosts : List (String × List String)}
    (h : ∀ e ∈ addrToHosts, '\n' ∉ e.1.toList ∧ ∀ host ∈ e.2, '\n' ∉ host.toList) :
    ∀ line ∈ records addrToHosts, '\n' ∉ line := by
  intro line hline
  simp only [records, List.mem_map, (List.perm_insertionSort _ _).mem_iff] at hline
  obtain ⟨_, ⟨e, he, rfl⟩, rfl⟩ := hline
  obtain ⟨haddr, hhosts⟩ := h e he
  have hsorted (host : String) (hhost : host ∈ e.2.insertionSort (· ≤ ·)) : '\n' ∉ host.toList :=
    hhosts host ((List.perm_insertionSort _ _).mem_iff.1 hhost)
  rw [String.toList_ofList, recordLine]
  have htext : '\n' ∉ hostsText (e.2.insertionSort (· ≤ ·)) := by
    cases hlist : e.2.insertionSort (· ≤ ·) with
    | nil => simp [hostsText]
    | cons host hosts =>
      rw [hlist] at hsorted
      have hmore : '\n' ∉ moreHosts host hosts :=
        notMem_moreHosts (by decide) fun host' hhost' => hsorted host' (by simp [hhost'])
      simp [hostsText, hsorted host (by simp), hmore]
  simp [haddr, htext]

/-! ## Calls -/

theorem does_ask {α : Type} {r : HostsReq} {f : r.Resp → HostsM α} {a : α} {data data' : String} :
    Prog.Does Serves data (ask r >>= f) a data' ↔ ∃ x data₁, Serves data r x data₁ ∧ Prog.Does Serves data₁ (f x) a data' :=
  Prog.does_call

/-- A call that goes through writes the new lines, and one that fails nothing. -/
theorem does_updateHostsFileWithRecords {p : String} {addrToHosts : List (String × List String)} {data data' : String}
    {err : Option Error} (h : Prog.Does Serves data (updateHostsFileWithRecords p key addrToHosts) err data') :
    data' = if err = none then textOf (newLines key (records addrToHosts) (linesOf data)) else data := by
  obtain ⟨mode, _, hstat, h⟩ := does_ask.1 h
  cases hstat
  cases mode with
  | error err =>
    obtain ⟨rfl, rfl⟩ := Prog.does_ret.1 h
    simp
  | ok mode =>
    obtain ⟨_, _, hread, h⟩ := does_ask.1 h
    cases hread with
    | readFailed =>
      obtain ⟨rfl, rfl⟩ := Prog.does_ret.1 h
      simp
    | read =>
      simp only at h
      split at h
      · next heq =>
        obtain ⟨rfl, rfl⟩ := Prog.does_ret.1 h
        simpa using heq.symm
      · obtain ⟨_, _, hwrite, h⟩ := does_ask.1 h
        cases hwrite with
        | written =>
          obtain ⟨rfl, rfl⟩ := Prog.does_ret.1 h
          simp
        | writeFailed =>
          obtain ⟨rfl, rfl⟩ := Prog.does_ret.1 h
          simp

theorem latest_concat (us : List Update) (u : Update) (key : String) :
    latest (us ++ [u]) key = if u.key = key then some u else latest us key := by
  by_cases h : u.key = key
  · simp [latest, h]
  · simp [latest, h]

/-- Records without newlines, and no line of which is a guard line of any of the
keys. -/
structure Update.Fits (keys : Set String) (u : Update) : Prop where
  key : u.key ∈ keys
  newline : ∀ e ∈ u.addrToHosts, '\n' ∉ e.1.toList ∧ ∀ host ∈ e.2, '\n' ∉ host.toList
  foreign : ∀ line ∈ records u.addrToHosts, ∀ key ∈ keys, Foreign key line

theorem Update.Fits.sound {keys : Set String} {u : Update} (h : u.Fits keys) :
    Blocks.Sound keys [⟨u.key, records u.addrToHosts⟩] where
  nodup := by simp
  keyed := by simpa using h.key
  foreign := by simpa [Block.Foreign] using fun key hkey line hline => h.foreign line hline key hkey
  lines := by simpa using notMem_records h.newline

/-- The blocks are those of the latest updates. -/
def Latest (us : List Update) (blocks : List Block) : Prop :=
  ∀ b, b ∈ blocks ↔ ∃ u, latest us b.key = some u ∧ b.lines = records u.addrToHosts

theorem Latest.concat {us : List Update} {blocks : List Block} (h : Latest us blocks) (u : Update) :
    Latest (us ++ [u]) (blocks.filter (·.key ≠ u.key) ++ [⟨u.key, records u.addrToHosts⟩]) := by
  intro ⟨key, lines⟩
  rw [latest_concat, List.mem_append, List.mem_filter, h]
  by_cases hkey : u.key = key
  · simp [hkey]
  · simp [hkey, Ne.symm hkey]

theorem Updates.fileOf {p : String} {keys : Set String} (hkeys : ∀ key ∈ keys, Keyed key) {data₀ data : String}
    (hinitial : ∀ line ∈ linesOf data₀, ∀ key ∈ keys, Foreign key line) {us : List Update}
    (h : Updates p data₀ us data) (hus : ∀ u ∈ us, u.Fits keys) : (us = [] ∧ data = data₀) ∨
      ∃ blocks, Blocks.Sound keys blocks ∧ Latest us blocks ∧
        linesOf data = Hosts.fileOf ((linesOf data₀).rdropWhile (· = [])) blocks := by
  have hsub : (linesOf data₀).rdropWhile (· = []) ⊆ linesOf data₀ := ( List.rdropWhile_prefix _ _).subset
  have hnewline (line : Line) (hline : line ∈ (linesOf data₀).rdropWhile (· = [])) : '\n' ∉ line :=
    notMem_of_mem_splitOn (hsub hline)
  induction h with
  | nil => exact .inl ⟨rfl, rfl⟩
  | failed _ hdoes ih =>
    rw [does_updateHostsFileWithRecords hdoes]
    exact ih hus
  | @done us data data' u _ hdoes ih =>
    have hu := hus u (by simp)
    rw [does_updateHostsFileWithRecords hdoes, if_pos rfl]
    rcases ih fun u hu => hus u (by simp [hu]) with ⟨rfl, rfl⟩ | ⟨blocks, hsound, hlatest, hlines⟩
    · have hnone : Latest [] [] := by simp [Latest, latest]
      refine .inr ⟨_, hu.sound, hnone.concat u, ?_⟩
      rw [newLines_initial fun line hline => hinitial line hline _ hu.key, linesOf_fileOf hkeys hnewline hu.sound]
    · have hsound' := hsound.updated hu.sound
      refine .inr ⟨_, hsound', hlatest.concat u, ?_⟩
      rw [hlines, newLines_fileOf hkeys hu.key (fun line hline => hinitial line (hsub hline) _ hu.key)
        (List.rdropWhile_idempotent _ _) hsound, linesOf_fileOf hkeys hnewline hsound']

/-- **Managers share the file without damage.** Let the keys be on one line, not
empty and not blank at their ends, let no line of the file at first be a guard
line of any of them, and no record. After every update each key used so far has
one block, with the records of its latest update; and outside of the blocks there
are the lines the file had at first, without the empty ones at the end, an empty
line before each block, and one at the end. -/
theorem hosts_file_shared_without_damage (p : String) (keys : Set String) (hkeys : ∀ key ∈ keys, Keyed key)
    (data₀ data : String) (hinitial : ∀ line ∈ linesOf data₀, ∀ key ∈ keys, Foreign key line) (us : List Update)
    (hus : ∀ u ∈ us, u.Fits keys) (hne : us ≠ []) (hupdates : Updates p data₀ us data) :
    ∃ blocks : List Block, (blocks.map Block.key).Nodup ∧
      (∀ b, b ∈ blocks ↔ ∃ u, latest us b.key = some u ∧ b.lines = records u.addrToHosts) ∧
      linesOf data = fileOf ((linesOf data₀).rdropWhile (· = [])) blocks ∧
      ∀ b ∈ blocks, (linesOf data).countP (trimSpace · = guardBegin b.key) = 1 ∧
        (linesOf data).countP (trimSpace · = guardEnd b.key) = 1 := by
  rcases hupdates.fileOf hkeys hinitial hus with ⟨rfl, -⟩ | ⟨blocks, hsound, hlatest, hlines⟩
  · exact absurd rfl hne
  · refine ⟨blocks, hsound.nodup, hlatest, hlines, fun b hb => ?_⟩
    have hforeign (line : Line) (hline : line ∈ (linesOf data₀).rdropWhile (· = [])) :=
      hinitial line (( List.rdropWhile_prefix _ _).subset hline)
    rw [hlines]
    exact ⟨countP_fileOf hkeys hforeign hsound hb (.inl rfl), countP_fileOf hkeys hforeign hsound hb (.inr rfl)⟩

/-! ## Updates that go through -/

theorem updateHostsFileWithRecords_does (p : String) (u : Update) (data : String) :
    Prog.Does Serves data (updateHostsFileWithRecords p u.key u.addrToHosts) none
      (textOf (newLines u.key (records u.addrToHosts) (linesOf data))) := by
  refine does_ask.2 ⟨.ok 0, data, .stat, does_ask.2 ⟨.ok data, data, .read, ?_⟩⟩
  simp only
  split
  · next heq =>
    rw [heq]
    exact .ret
  · exact does_ask.2 ⟨none, _, .written, .ret⟩

/-- One update more, told by its lines. -/
theorem Updates.next {p data₀ : String} {us : List Update} {lines lines' : List Line} (h : Updates p data₀ us (textOf lines))
    (hnewline : ∀ line ∈ lines, '\n' ∉ line) (hne : lines ≠ []) (u : Update)
    (hlines : newLines u.key (records u.addrToHosts) lines = lines') : Updates p data₀ (us ++ [u]) (textOf lines') := by
  have hdoes := updateHostsFileWithRecords_does p u (textOf lines)
  rw [linesOf_textOf hnewline hne, hlines] at hdoes
  exact h.done hdoes

/-- The guard at the end of a block with the empty key has a blank at its end, and
is never found. An update of that key takes away everything after it. -/
theorem empty_key_takes_all :
    Updates "/etc/hosts" (textOf [[]]) [⟨"", []⟩, ⟨"a", []⟩, ⟨"", []⟩] (textOf (fileOf [] [⟨"", []⟩])) ∧
    (linesOf (textOf (fileOf [] [⟨"", []⟩]))).countP (trimSpace · = guardBegin "a") = 0 := by
  have hnewline : ∀ line ∈ fileOf [] [⟨"", []⟩], '\n' ∉ line := by decide +kernel
  refine ⟨?_, by rw [linesOf_textOf hnewline (by simp [fileOf])]; decide +kernel⟩
  have hfirst : Updates "/etc/hosts" (textOf [[]]) [⟨"", []⟩] (textOf (fileOf [] [⟨"", []⟩])) :=
    Updates.nil.next (by decide) (by decide) _ (by decide +kernel)
  have hsecond := hfirst.next hnewline (by simp [fileOf]) ⟨"a", []⟩
    (by decide +kernel : _ = fileOf [] [⟨"", []⟩, ⟨"a", []⟩])
  exact hsecond.next (by decide +kernel) (by simp [fileOf]) ⟨"", []⟩ (by decide +kernel)

def main : Update := ⟨"etcd-manager[main]", [("10.0.0.2", ["etcd-b", "etcd-a", "etcd-b"])]⟩

def events : Update := ⟨"etcd-manager[events]", []⟩

/-- The file after an update of each. -/
def shared : List Line :=
  fileOf ["127.0.0.1 localhost".toList] [⟨"etcd-manager[main]", ["10.0.0.2\tetcd-a etcd-b".toList]⟩, ⟨"etcd-manager[events]", []⟩]

theorem hosts_file_shared_by_two : Updates "/etc/hosts" (textOf ["127.0.0.1 localhost".toList, [], []]) [main, events]
      (textOf shared) ∧
    ∃ blocks : List Block, (blocks.map Block.key).Nodup ∧
      (∀ b, b ∈ blocks ↔ ∃ u, latest [main, events] b.key = some u ∧ b.lines = records u.addrToHosts) ∧
      shared = fileOf ["127.0.0.1 localhost".toList] blocks := by
  let keys : Set String := {"etcd-manager[main]", "etcd-manager[events]"}
  have hforeign {lines : List Line} (h : ∀ line ∈ lines, Foreign "etcd-manager[main]" line ∧
      Foreign "etcd-manager[events]" line) : ∀ line ∈ lines, ∀ key ∈ keys, Foreign key line := by
    rintro line hline key (rfl | rfl)
    · exact (h line hline).1
    · exact (h line hline).2
  have hkeys : ∀ key ∈ keys, Keyed key := by
    rintro key (rfl | rfl)
    · exact ⟨by decide, by decide, by decide⟩
    · exact ⟨by decide, by decide, by decide⟩
  have hus : ∀ u ∈ [main, events], u.Fits keys := by
    simp only [List.mem_cons, List.not_mem_nil, or_false]
    rintro u (rfl | rfl)
    · exact ⟨.inl rfl, by decide, hforeign (by decide +kernel)⟩
    · exact ⟨.inr rfl, by decide, hforeign (by decide +kernel)⟩
  have hinitial : linesOf (textOf ["127.0.0.1 localhost".toList, [], []]) = ["127.0.0.1 localhost".toList, [], []] :=
    linesOf_textOf (by decide +kernel) (by simp)
  have hlines : linesOf (textOf shared) = shared := linesOf_textOf (by decide +kernel) (by simp [shared, fileOf])
  have hfirst : Updates "/etc/hosts" (textOf ["127.0.0.1 localhost".toList, [], []]) [main] (textOf (fileOf
      ["127.0.0.1 localhost".toList] [⟨"etcd-manager[main]", ["10.0.0.2\tetcd-a etcd-b".toList]⟩])) :=
    Updates.nil.next (by decide +kernel) (by simp) main (by decide +kernel)
  have hupdates : Updates "/etc/hosts" (textOf ["127.0.0.1 localhost".toList, [], []]) [main, events] (textOf shared) :=
    hfirst.next (by decide +kernel) (by simp [fileOf]) events (by decide +kernel)
  obtain ⟨blocks, hnodup, hlatest, hfile, -⟩ := hosts_file_shared_without_damage "/etc/hosts" keys hkeys _ _
    (by rw [hinitial]; exact hforeign (by decide +kernel)) [main, events] hus (by simp) hupdates
  have hdrop : ["127.0.0.1 localhost".toList, [], []].rdropWhile (· = []) = ["127.0.0.1 localhost".toList] := by
    decide +kernel
  rw [hlines, hinitial, hdrop] at hfile
  exact ⟨hupdates, blocks, hnodup, hlatest, hfile⟩

end Hosts

end Etcdadm
