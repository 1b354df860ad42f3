/-
The rewrite of `/etc/hosts` from any content (`updateHostsFileWithRecords` of
`pkg/hosts/hosts.go`).

`Etcdadm.Hosts` follows the file through updates from a content without guard
lines. Here the content is arbitrary: blocks may be nested, never ended, ended
without a begin or there several times. `outside` says which lines such a content
has outside of the guard regions, and one rewrite always makes the same of it:
those lines, an empty line, one block, an empty line.

The source cuts the last line off with `out[:len(out)-1]`. `newLines?` is the
rewrite with the bounds checked, and it always gives `newLines`.
-/
import Etcdadm.Hosts

namespace Etcdadm

namespace Hosts

open Semver (trimSpace)

/-! ## Bounds -/

/-- `out[:len(out)-1]` -/
def pop? (out : List Line) : Option (List Line) := if out.length = 0 then none else some out.dropLast

/-- `Scan.step`, where a slice may be out of range -/
def Scan.step? (key : String) (s : Scan) (line : Line) : Option Scan :=
  let k := trimSpace line
  if k = [] ∧ s.skipBlank then some { s with skipBlank := false }
  else
    let inGuardBlock := if k = guardBegin key then true else s.inGuardBlock
    let out := if inGuardBlock then s.out else s.out ++ [line]
    if k = guardEnd key then
      (if inGuardBlock then some out else pop? out).map fun out => { out, inGuardBlock := false, skipBlank := true }
    else some { out, inGuardBlock, skipBlank := false }

theorem length_pop? {out out' : List Line} (h : pop? out = some out') : out'.length < out.length := by
  unfold pop? at h
  split at h
  · cases h
  · cases h
    simp only [List.length_dropLast]
    omega

/-- The loop that takes the empty lines at the end away. -/
def dropEmpty? (out : List Line) : Option (List Line) :=
  if out.length = 0 then some out
  else
    match out.getLast? with
    | none => none
    | some last =>
      if last ≠ [] then some out
      else
        match _h : pop? out with
        | none => none
        | some out' => dropEmpty? out'
termination_by out.length
decreasing_by exact length_pop? _h

/-- `newLines`, where a slice may be out of range -/
def newLines? (key : String) (block lines : List Line) : Option (List Line) := do
  let s ← lines.foldlM (Scan.step? key) ⟨[], false, false⟩
  let out ← dropEmpty? s.out
  return out ++ [] :: guardBegin key :: (block ++ [guardEnd key, []])

variable {key : String}

@[simp] theorem pop?_concat (out : List Line) (line : Line) : pop? (out ++ [line]) = some out := by
  simp [pop?]

/-- What is cut off at the end of a block that was never begun is the line that was
just put out. -/
theorem step?_eq (s : Scan) (line : Line) : Scan.step? key s line = some (Scan.step key s line) := by
  simp only [Scan.step?, Scan.step]
  by_cases hskip : trimSpace line = [] ∧ s.skipBlank
  · simp [hskip]
  · rw [if_neg hskip, if_neg hskip]
    by_cases hend : trimSpace line = guardEnd key
    · rw [if_pos hend, if_pos hend]
      by_cases hin : (if trimSpace line = guardBegin key then true else s.inGuardBlock) = true
      · simp [hin]
      · simp [hin]
    · rw [if_neg hend, if_neg hend]

theorem foldlM_step? (s : Scan) (lines : List Line) :
    lines.foldlM (Scan.step? key) s = some (lines.foldl (Scan.step key) s) := by
  induction lines generalizing s with
  | nil => rfl
  | cons line lines ih =>
    rw [List.foldlM_cons, step?_eq, List.foldl_cons, ← ih]
    rfl

theorem dropEmpty?_eq (out : List Line) : dropEmpty? out = some (out.rdropWhile (· = [])) := by
  induction out using List.reverseRecOn with
  | nil => simp [dropEmpty?]
  | append_singleton out line ih =>
    rw [dropEmpty?, if_neg (by simp)]
    simp only [List.getLast?_concat]
    by_cases hline : line = []
    · subst hline
      rw [List.rdropWhile_concat_pos _ _ _ (by simp), ← ih]
      simp only [ne_eq, not_true_eq_false, if_false]
      split
      · next h => simp at h
      · next h =>
        rw [pop?_concat] at h
        cases h
        rfl
    · rw [if_pos hline, List.rdropWhile_concat_neg _ _ _ (by simpa using hline)]

/-- **No slice is out of range.** -/
theorem newLines?_eq (block lines : List Line) : newLines? key block lines = some (newLines key block lines) := by
  simp [newLines?, foldlM_step?, dropEmpty?_eq, newLines, scan]

/-! ## Guard regions -/

/-- The guard line at the begin of a block, or the same with blanks around it. -/
def IsBegin (key : String) (line : Line) : Prop := trimSpace line = trimSpace (guardBegin key)

/-- The guard line at the end of a block, or the same with blanks around it. -/
def IsEnd (key : String) (line : Line) : Prop := trimSpace line = trimSpace (guardEnd key)

instance (key : String) (line : Line) : Decidable (IsBegin key line) := inferInstanceAs (Decidable (_ = _))

instance (key : String) (line : Line) : Decidable (IsEnd key line) := inferInstanceAs (Decidable (_ = _))

def Blank (line : Line) : Prop := trimSpace line = []

instance (line : Line) : Decidable (Blank line) := inferInstanceAs (Decidable (_ = _))

/-- The lines outside of the guard regions. A region goes from a begin to the first
end after it, or to the end of the file; an end without a begin is a region of its
own. -/
def outside (key : String) : List Line → List Line
  | [] => []
  | line :: lines =>
    if IsEnd key line then outside key lines
    else if IsBegin key line then outside key (lines.dropWhile fun line => ¬ IsEnd key line).tail
    else line :: outside key lines
termination_by lines => lines.length
decreasing_by
  · simp
  · have := (List.dropWhile_sublist (l := lines) fun line => ¬ IsEnd key line).length_le
    simp only [List.length_tail, List.length_cons]
    omega
  · simp

/-- What a rewrite makes of the lines `before`: at the end there is the block, the
one with guard lines of the key, and before it the lines outside of the regions,
blank ones apart. -/
structure Normalised (key : String) (block before after : List Line) : Prop where
  lines : ∃ kept, after = kept ++ [] :: guardBegin key :: (block ++ [guardEnd key, []]) ∧
    kept.filter (¬ Blank ·) = (outside key before).filter (¬ Blank ·)
  oneBegin : after.countP (IsBegin key ·) = 1
  oneEnd : after.countP (IsEnd key ·) = 1

theorem isBegin_iff {line : Line} : IsBegin key line ↔ trimSpace line = guardBegin key := by
  rw [IsBegin, trimSpace_guardBegin]

section Keyed

variable (hkey : Keyed key)

include hkey

theorem isEnd_iff {line : Line} : IsEnd key line ↔ trimSpace line = guardEnd key := by
  rw [IsEnd, trimSpace_guardEnd hkey]

/-- Inside of a block the scan goes on to the first end. -/
theorem scan_inside {out : List Line} (lines : List Line) (skipBlank : Bool) :
    (lines.foldl (Scan.step key) ⟨out, true, skipBlank⟩).out =
      ((lines.dropWhile fun line => ¬ IsEnd key line).tail.foldl (Scan.step key) ⟨out, false, true⟩).out := by
  induction lines generalizing skipBlank with
  | nil => rfl
  | cons line lines ih =>
    rw [List.foldl_cons]
    by_cases hend : IsEnd key line
    · have htrim := (isEnd_iff hkey).1 hend
      have hstep : Scan.step key ⟨out, true, skipBlank⟩ line = ⟨out, false, true⟩ := by
        simp [Scan.step, htrim, guardEnd_ne_nil]
      rw [hstep, List.dropWhile_cons_of_neg (by simpa using hend), List.tail_cons]
    · have htrim : trimSpace line ≠ guardEnd key := fun h => hend ((isEnd_iff hkey).2 h)
      have hstep : Scan.step key ⟨out, true, skipBlank⟩ line = ⟨out, true, false⟩ := by
        simp [Scan.step, htrim]
      rw [hstep, List.dropWhile_cons_of_pos (by simpa using hend), ih]

/-- Outside of the blocks every line is put out that is not blank. -/
theorem filter_scan (lines out : List Line) (skipBlank : Bool) :
    ((lines.foldl (Scan.step key) ⟨out, false, skipBlank⟩).out).filter (¬ Blank ·) =
      out.filter (¬ Blank ·) ++ (outside key lines).filter (¬ Blank ·) := by
  induction lines using outside.induct key generalizing out skipBlank with
  | case1 => simp [outside]
  | case2 line lines hend ih =>
    -- an end without a begin is put out and cut off
    have htrim := (isEnd_iff hkey).1 hend
    have hstep : Scan.step key ⟨out, false, skipBlank⟩ line = ⟨out, false, true⟩ := by
      simp [Scan.step, htrim, guardEnd_ne_nil, guardBegin_ne_guardEnd.symm]
    rw [List.foldl_cons, hstep, ih, outside, if_pos hend]
  | case3 line lines hend hbegin ih =>
    have htrim := isBegin_iff.1 hbegin
    have hstep : Scan.step key ⟨out, false, skipBlank⟩ line = ⟨out, true, false⟩ := by
      simp [Scan.step, htrim, guardBegin_ne_nil, guardBegin_ne_guardEnd]
    rw [List.foldl_cons, hstep, scan_inside hkey, ih, outside, if_neg hend, if_pos hbegin]
  | case4 line lines hend hbegin ih =>
    have hnotEnd : trimSpace line ≠ guardEnd key := fun h => hend ((isEnd_iff hkey).2 h)
    have hnotBegin : trimSpace line ≠ guardBegin key := fun h => hbegin (isBegin_iff.2 h)
    rw [List.foldl_cons, outside, if_neg hend, if_neg hbegin]
    by_cases hskip : Blank line ∧ skipBlank
    · have hstep : Scan.step key ⟨out, false, skipBlank⟩ line = ⟨out, false, false⟩ := by
        simp [Scan.step, hskip.2, show trimSpace line = [] from hskip.1]
      rw [hstep, ih]
      simp [hskip.1]
    · have hstep : Scan.step key ⟨out, false, skipBlank⟩ line = ⟨out ++ [line], false, false⟩ := by
        have hput : ¬ (trimSpace line = [] ∧ skipBlank = true) := hskip
        simp only [Scan.step]
        rw [if_neg hput]
        simp [hnotEnd, hnotBegin]
      rw [hstep, ih, List.filter_append, List.append_assoc, ← List.filter_append, List.singleton_append]

end Keyed

/-- A scan puts out lines it was given, and no guard line of its key. -/
theorem mem_scan {lines : List Line} {line : Line} (h : line ∈ scan key lines) : line ∈ lines ∧ Foreign key line := by
  unfold scan at h
  induction lines using List.reverseRecOn with
  | nil => simp at h
  | append_singleton lines last ih =>
    rw [List.foldl_append, List.foldl_cons, List.foldl_nil] at h
    generalize lines.foldl (Scan.step key) ⟨[], false, false⟩ = s at h ih
    have hold (hline : line ∈ s.out) : line ∈ lines ++ [last] ∧ Foreign key line :=
      ⟨List.mem_append_left _ (ih hline).1, (ih hline).2⟩
    simp only [Scan.step] at h
    split at h
    · exact hold h
    · by_cases hbegin : trimSpace last = guardBegin key
      · simp only [hbegin, if_true, guardBegin_ne_guardEnd, if_false] at h
        exact hold h
      · by_cases hend : trimSpace last = guardEnd key
        · cases hin : s.inGuardBlock with
          | true => exact hold (by simpa [hend, hin, guardBegin_ne_guardEnd.symm] using h)
          | false => exact hold (by simpa [hend, hin, guardBegin_ne_guardEnd.symm] using h)
        · cases hin : s.inGuardBlock with
          | true => exact hold (by simpa [hbegin, hend, hin] using h)
          | false =>
            have hmem : line ∈ s.out ∨ line = last := by simpa [hbegin, hend, hin] using h
            rcases hmem with hline | rfl
            · exact hold hline
            · exact ⟨by simp, hbegin, hend⟩

/-! ## Rewrites -/

/-- The lines before the block. -/
def kept (key : String) (lines : List Line) : List Line := (scan key lines).rdropWhile (· = [])

theorem newLines_eq (block lines : List Line) : newLines key block lines = fileOf (kept key lines) [⟨key, block⟩] := by
  simp [newLines, fileOf, Block.text, kept]

theorem mem_kept {lines : List Line} {line : Line} (h : line ∈ kept key lines) : line ∈ lines ∧ Foreign key line :=
  mem_scan (( List.rdropWhile_prefix _ _).subset h)

theorem filter_kept (hkey : Keyed key) (lines : List Line) :
    (kept key lines).filter (¬ Blank ·) = (outside key lines).filter (¬ Blank ·) := by
  have hscan := filter_scan hkey lines [] false
  rw [List.filter_nil, List.nil_append] at hscan
  -- the lines that are taken away at the end are empty
  have hend : (scan key lines).filter (¬ Blank ·) = (kept key lines).filter (¬ Blank ·) := by
    unfold kept
    induction scan key lines using List.reverseRecOn with
    | nil => rfl
    | append_singleton out line ih =>
      by_cases hline : line = []
      · rw [List.rdropWhile_concat_pos _ _ _ (by simpa using hline), ← ih]
        simp [hline, Blank, trimSpace]
      · rw [List.rdropWhile_concat_neg _ _ _ (by simpa using hline)]
  rw [← hend, ← hscan, scan]

/-- Records that fit into the block of the key: no newlines, and no line that is a
guard line but for blanks around it. -/
structure Fits (key : String) (addrToHosts : List (String × List String)) : Prop where
  newline : ∀ e ∈ addrToHosts, '\n' ∉ e.1.toList ∧ ∀ host ∈ e.2, '\n' ∉ host.toList
  foreign : ∀ line ∈ records addrToHosts, ¬ IsBegin key line ∧ ¬ IsEnd key line

/-- Every call that goes through, from this content and with the entries in any
order, leaves the same file, which is normalised; there is such a call, and no
slice in it is out of range. Another call after it, with the entries in any order,
leaves the file as it is. -/
def Rewrites (p key : String) (addrToHosts : List (String × List String)) (data : String) : Prop :=
  ∃ data', Prog.Does Serves data (updateHostsFileWithRecords p key addrToHosts) none data' ∧
    (∀ entries, entries.Perm addrToHosts → ∀ data'',
      Prog.Does Serves data (updateHostsFileWithRecords p key entries) none data'' → data'' = data') ∧
    newLines? key (records addrToHosts) (linesOf data) = some (linesOf data') ∧
    Normalised key (records addrToHosts) (linesOf data) (linesOf data') ∧
    ∀ entries, entries.Perm addrToHosts → ∀ err data'',
      Prog.Does Serves data' (updateHostsFileWithRecords p key entries) err data'' → data'' = data'

section

variable {addrToHosts : List (String × List String)} (hkey : Keyed key) (hfits : Fits key addrToHosts)

include hkey hfits

theorem Fits.sound : Blocks.Sound {key} [⟨key, records addrToHosts⟩] where
  nodup := by simp
  keyed := by simp
  foreign := by
    simp only [List.mem_singleton, Set.mem_singleton_iff, forall_eq, Block.Foreign]
    intro line hline
    obtain ⟨hbegin, hend⟩ := hfits.foreign line hline
    rw [isBegin_iff] at hbegin
    rw [isEnd_iff hkey] at hend
    exact ⟨hbegin, hend⟩
  lines := by simpa using notMem_records hfits.newline

theorem linesOf_newLines (data : String) : linesOf (textOf (newLines key (records addrToHosts) (linesOf data))) =
    fileOf (kept key (linesOf data)) [⟨key, records addrToHosts⟩] := by
  have hkeys : ∀ key' ∈ ({key} : Set String), Keyed key' := by simpa using hkey
  rw [newLines_eq]
  exact linesOf_fileOf hkeys (fun line hline => notMem_of_mem_splitOn (mem_kept hline).1) (hfits.sound hkey)

/-- A second rewrite finds one block at the end, and puts it there again. -/
theorem newLines_newLines (lines : List Line) :
    newLines key (records addrToHosts) (newLines key (records addrToHosts) lines) =
      newLines key (records addrToHosts) lines := by
  have hkeys : ∀ key' ∈ ({key} : Set String), Keyed key' := by simpa using hkey
  have hagain := newLines_fileOf hkeys (Set.mem_singleton key)
    (fun line (hline : line ∈ kept key lines) => (mem_kept hline).2) (List.rdropWhile_idempotent _ _) (hfits.sound hkey)
    (records addrToHosts)
  rw [newLines_eq _ lines, hagain]
  simp

theorem normalised_fileOf (lines : List Line) :
    Normalised key (records addrToHosts) lines (fileOf (kept key lines) [⟨key, records addrToHosts⟩]) := by
  have hkeys : ∀ key' ∈ ({key} : Set String), Keyed key' := by simpa using hkey
  have hforeign : ∀ line ∈ kept key lines, ∀ key' ∈ ({key} : Set String), Foreign key' line := by
    simpa using fun line hline => (mem_kept hline).2
  have hcount {guard : Line} (hguard : guard = guardBegin key ∨ guard = guardEnd key) :=
    countP_fileOf hkeys hforeign (hfits.sound hkey) (List.mem_singleton_self _) hguard
  refine ⟨⟨kept key lines, by simp [fileOf, Block.text], filter_kept hkey lines⟩, ?_, ?_⟩
  · simpa only [isBegin_iff] using hcount (.inl rfl)
  · simpa only [isEnd_iff hkey] using hcount (.inr rfl)

end

/-- **A rewrite normalises any file.** Let the key be without newlines, not blank
at its ends and not empty, and let the records fit into its block. From any content
no slice is out of range, and the new file is the same for all orders of the
entries: it has one begin and one end of the key, at the end, with the records
between them, and before them the lines outside of the guard regions that are not
blank, in their order. The same update leaves it as it is. -/
theorem hosts_rewrite_normalises (p key : String) (addrToHosts : List (String × List String)) (data : String)
    (hline : '\n' ∉ key.toList) (htrimmed : trimSpace key.toList = key.toList) (hnonempty : key ≠ "")
    (hfits : Fits key addrToHosts) : Rewrites p key addrToHosts data := by
  have hkey : Keyed key := ⟨hline, htrimmed, hnonempty⟩
  refine ⟨_, updateHostsFileWithRecords_does p ⟨key, addrToHosts⟩ data, ?_, ?_, ?_, ?_⟩
  · intro entries hperm data'' hdoes
    rw [does_updateHostsFileWithRecords hdoes, if_pos rfl, records_perm hperm]
  · rw [newLines?_eq, linesOf_newLines hkey hfits, newLines_eq]
  · rw [linesOf_newLines hkey hfits]
    exact normalised_fileOf hkey hfits _
  · intro entries hperm err data'' hdoes
    have hagain : newLines key (records entries) (linesOf (textOf (newLines key (records addrToHosts) (linesOf data)))) =
        newLines key (records addrToHosts) (linesOf data) := by
      rw [linesOf_newLines hkey hfits, ← newLines_eq, records_perm hperm, newLines_newLines hkey hfits]
    rw [does_updateHostsFileWithRecords hdoes, hagain]
    simp

/-- A block that is begun twice, an end with blanks around it, and an end that has
no begin. -/
def badNesting : List Line :=
  [guardEnd "a", "foo".toList, guardBegin "a", guardBegin "a", "old".toList, ' ' :: guardEnd "a", [], "bar".toList, []]

theorem bad_nesting_normalised : outside "a" badNesting = ["foo".toList, [], "bar".toList, []] ∧
    Rewrites "/etc/hosts" "a" [("10.0.0.2", ["b", "a", "b"]), ("10.0.0.3", [])] (textOf badNesting) := by
  refine ⟨by simp [outside, badNesting]; decide +kernel, ?_⟩
  exact hosts_rewrite_normalises _ _ _ _ (by decide) (by decide) (by decide) ⟨by decide, by decide +kernel⟩

/-- A block of the empty key, and a line after it. -/
def emptyKey : List Line := [guardBegin "", guardEnd "", "127.0.0.1 localhost".toList]

/-- With the empty key the written end has a blank at its end, and no trimmed line
is equal to it: the rewrite takes the line after the block away. -/
theorem empty_key_loses_line : '\n' ∉ "".toList ∧ trimSpace "".toList = "".toList ∧ Fits "" [] ∧
    ¬ Rewrites "/etc/hosts" "" [] (textOf emptyKey) := by
  refine ⟨by decide, by decide, ⟨by simp, by simp [records]⟩, fun h => ?_⟩
  obtain ⟨data', hdoes, -, -, hnorm, -⟩ := h
  have hbefore : linesOf (textOf emptyKey) = emptyKey := linesOf_textOf (by decide +kernel) (by simp [emptyKey])
  have hafter : newLines "" (records []) emptyKey = [[], guardBegin "", guardEnd "", []] := by decide +kernel
  have hwritten : linesOf (textOf [[], guardBegin "", guardEnd "", []]) = [[], guardBegin "", guardEnd "", []] :=
    linesOf_textOf (by decide +kernel) (by simp)
  have houtside : outside "" emptyKey = ["127.0.0.1 localhost".toList] := by
    simp [outside, emptyKey]
    decide +kernel
  obtain ⟨kept, hlines, hkept⟩ := hnorm.lines
  rw [does_updateHostsFileWithRecords hdoes, if_pos rfl, hbefore, hafter, hwritten] at hlines
  have hnil : kept = [] := List.append_cancel_right (hlines.symm.trans (List.nil_append _).symm)
  rw [hnil, hbefore, houtside] at hkept
  exact absurd hkept (by decide +kernel)

end Hosts

end Etcdadm
