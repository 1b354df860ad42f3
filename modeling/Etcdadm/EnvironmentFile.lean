/-
The environment file of etcd, as `etcdadm` writes it from its configuration
(`EnvFileTemplate` of `constants/constants.go`, `BuildEnvironment` of
`service/unit.go`), and as the kubelet init system reads it back for the pod
(`buildPod` of `initsystem/kubelet/initsystem.go`).

The file is made with `html/template`, which escapes every value for HTML:
`" & ' + < >` and the zero character come out as something else (`htmlEscape`), and
nothing that reads the file takes that back. A value is read as it was configured
exactly if it has none of these characters.
-/
import Etcdadm.GoMap
import Etcdadm.Hosts

namespace Etcdadm

namespace Environment

open Semver (isSpace trimSpace)
open Hosts (Line linesOf textOf)

/-! ## The file -/

/-- `URLList`, by the texts of its URLs -/
abbrev URLList := List String

/-- `URLList.String` -/
def URLList.text (l : URLList) : String := String.ofList ([','].intercalate (l.map String.toList))

/-- The part of `EtcdAdmConfig` that the template reads. -/
structure EtcdAdmConfig where
  peerCertFile : String
  peerKeyFile : String
  peerTrustedCAFile : String
  certFile : String
  keyFile : String
  trustedCAFile : String
  dataDir : String
  initialAdvertisePeerURLs : URLList
  listenPeerURLs : URLList
  advertiseClientURLs : URLList
  listenClientURLs : URLList
  listenMetricsURLs : URLList
  name : String
  initialCluster : String
  initialClusterToken : String
  initialClusterState : String
  gomaxprocs : Int
  logger : String
  logOutputs : String
  enableV2 : String

inductive Field where
  | peerCertFile | peerKeyFile | peerTrustedCAFile | certFile | keyFile | trustedCAFile | dataDir
  | initialAdvertisePeerURLs | listenPeerURLs | advertiseClientURLs | listenClientURLs | listenMetricsURLs
  | name | initialCluster | initialClusterToken | initialClusterState | gomaxprocs | logger | logOutputs | enableV2
deriving DecidableEq

/-- The text of a field, as `fmt` has it. -/
def Field.text (cfg : EtcdAdmConfig) : Field → String
  | peerCertFile => cfg.peerCertFile
  | peerKeyFile => cfg.peerKeyFile
  | peerTrustedCAFile => cfg.peerTrustedCAFile
  | certFile => cfg.certFile
  | keyFile => cfg.keyFile
  | trustedCAFile => cfg.trustedCAFile
  | dataDir => cfg.dataDir
  | initialAdvertisePeerURLs => cfg.initialAdvertisePeerURLs.text
  | listenPeerURLs => cfg.listenPeerURLs.text
  | advertiseClientURLs => cfg.advertiseClientURLs.text
  | listenClientURLs => cfg.listenClientURLs.text
  | listenMetricsURLs => cfg.listenMetricsURLs.text
  | name => cfg.name
  | initialCluster => cfg.initialCluster
  | initialClusterToken => cfg.initialClusterToken
  | initialClusterState => cfg.initialClusterState
  | gomaxprocs => toString cfg.gomaxprocs
  | logger => cfg.logger
  | logOutputs => cfg.logOutputs
  | enableV2 => cfg.enableV2

/-- Whether `if` takes the field for true. -/
def Field.isTrue (cfg : EtcdAdmConfig) : Field → Bool
  | gomaxprocs => cfg.gomaxprocs ≠ 0
  | f => f.text cfg ≠ ""

/-- One line of a template. -/
inductive TemplateLine where
  | text (s : String)
  /-- `NAME={{ .Field }}` -/
  | var (name : String) (f : Field)
  /-- `{{ if .Field }}NAME={{ .Field }}{{ end }}` -/
  | optional (name : String) (f : Field)
deriving DecidableEq

def envFileTemplate : List TemplateLine := [
  .var "ETCD_NAME" .name,
  .text "",
  .text "# Initial cluster configuration",
  .var "ETCD_INITIAL_CLUSTER" .initialCluster,
  .optional "ETCD_INITIAL_CLUSTER_TOKEN" .initialClusterToken,
  .var "ETCD_INITIAL_CLUSTER_STATE" .initialClusterState,
  .text "",
  .text "# Peer configuration",
  .var "ETCD_INITIAL_ADVERTISE_PEER_URLS" .initialAdvertisePeerURLs,
  .var "ETCD_LISTEN_PEER_URLS" .listenPeerURLs,
  .text "",
  .text "ETCD_CLIENT_CERT_AUTH=true",
  .var "ETCD_PEER_CERT_FILE" .peerCertFile,
  .var "ETCD_PEER_KEY_FILE" .peerKeyFile,
  .var "ETCD_PEER_TRUSTED_CA_FILE" .peerTrustedCAFile,
  .text "",
  .text "# Client/server configuration",
  .var "ETCD_ADVERTISE_CLIENT_URLS" .advertiseClientURLs,
  .var "ETCD_LISTEN_CLIENT_URLS" .listenClientURLs,
  .text "",
  .text "ETCD_PEER_CLIENT_CERT_AUTH=true",
  .var "ETCD_CERT_FILE" .certFile,
  .var "ETCD_KEY_FILE" .keyFile,
  .var "ETCD_TRUSTED_CA_FILE" .trustedCAFile,
  .text "",
  .text "# Other",
  .var "ETCD_DATA_DIR" .dataDir,
  .text "ETCD_STRICT_RECONFIG_CHECK=true",
  .optional "GOMAXPROCS" .gomaxprocs,
  .optional "ETCD_ENABLE_V2" .enableV2,
  .text "",
  .text "# Logging configuration",
  .optional "ETCD_LOGGER" .logger,
  .optional "ETCD_LOG_OUTPUTS" .logOutputs,
  .text "",
  .text "# Profiling/metrics",
  .optional "ETCD_LISTEN_METRICS_URLS" .listenMetricsURLs,
  .text ""]

/-- `htmlReplacementTable` of `html/template` -/
def htmlReplacement (c : Char) : Line :=
  if c = '\x00' then ['\uFFFD']
  else if c = '\x22' then "&#34;".toList
  else if c = '&' then "&amp;".toList
  else if c = '\x27' then "&#39;".toList
  else if c = '+' then "&#43;".toList
  else if c = '<' then "&lt;".toList
  else if c = '>' then "&gt;".toList
  else [c]

/-- What `html/template` makes of a value in the text of a page. -/
def htmlEscape (s : Line) : Line := s.flatMap htmlReplacement

def assignment (cfg : EtcdAdmConfig) (name : String) (f : Field) : Line :=
  name.toList ++ '=' :: htmlEscape (f.text cfg).toList

def TemplateLine.execute (cfg : EtcdAdmConfig) : TemplateLine → Line
  | .text s => s.toList
  | .var name f => assignment cfg name f
  | .optional name f => if f.isTrue cfg then assignment cfg name f else []

def buildEnvironment (cfg : EtcdAdmConfig) : String := textOf (envFileTemplate.map (TemplateLine.execute cfg))

/-! ## The environment of the pod -/

/-- `strings.SplitN(line, "=", 2)`, if there are two parts -/
def splitAssignment (line : Line) : Option (String × String) :=
  match line.span (· ≠ '=') with
  | (_, []) => none
  | (name, _ :: value) => some (String.ofList name, String.ofList value)

def readLine (env : GoMap String) (line : Line) : Except Error (GoMap String) :=
  let line := trimSpace line
  if line = [] ∨ line.head? = some '#' then .ok env
  else
    match splitAssignment line with
    | none => .error s!"cannot parse environment line {(String.ofList line).quote}"
    | some (name, value) => .ok (env.insert name value)

/-- The loop of `buildPod` over the lines of the environment. -/
def podEnv (cfg : EtcdAdmConfig) : Except Error (GoMap String) := (linesOf (buildEnvironment cfg)).foldlM readLine ∅

/-- Every variable that the template writes is read as the text of its field; one that
it leaves out is not there. -/
def RoundTrips (cfg : EtcdAdmConfig) : Prop :=
  ∃ env, podEnv cfg = .ok env ∧
    (∀ name f, .var name f ∈ envFileTemplate → env.lookup name = some (f.text cfg)) ∧
    ∀ name f, .optional name f ∈ envFileTemplate → env.lookup name = if f.isTrue cfg then some (f.text cfg) else none

/-! ## Escaping -/

/-- The characters that `html/template` escapes. -/
def special : List Char := ['\x00', '\x22', '&', '\x27', '+', '<', '>']

theorem htmlReplacement_of_notMem {c : Char} (h : c ∉ special) : htmlReplacement c = [c] := by
  simp only [special, List.mem_cons, List.not_mem_nil, or_false, not_or] at h
  simp [htmlReplacement, h]

/-- Each replacement ends with a character that is not blank, and has no newline. -/
theorem htmlReplacement_ends {c : Char} (hc : isSpace c = false) :
    ∃ init last, htmlReplacement c = init ++ [last] ∧ isSpace last = false := by
  by_cases h : c ∈ special
  · simp only [special, List.mem_cons, List.not_mem_nil, or_false] at h
    rcases h with rfl | rfl | rfl | rfl | rfl | rfl | rfl
    · exact ⟨[], '\uFFFD', by decide, by decide⟩
    · exact ⟨"&#34".toList, ';', by decide, by decide⟩
    · exact ⟨"&amp".toList, ';', by decide, by decide⟩
    · exact ⟨"&#39".toList, ';', by decide, by decide⟩
    · exact ⟨"&#43".toList, ';', by decide, by decide⟩
    · exact ⟨"&lt".toList, ';', by decide, by decide⟩
    · exact ⟨"&gt".toList, ';', by decide, by decide⟩
  · exact ⟨[], c, htmlReplacement_of_notMem h, hc⟩

theorem newline_notMem_htmlReplacement {c : Char} (hc : c ≠ '\n') : '\n' ∉ htmlReplacement c := by
  by_cases h : c ∈ special
  · simp only [special, List.mem_cons, List.not_mem_nil, or_false] at h
    rcases h with rfl | rfl | rfl | rfl | rfl | rfl | rfl <;> decide
  · simpa [htmlReplacement_of_notMem h] using hc.symm

theorem length_le_htmlEscape : ∀ s : Line, s.length ≤ (htmlEscape s).length
  | [] => by simp
  | c :: s => by
    have hone : 1 ≤ (htmlReplacement c).length := by
      unfold htmlReplacement
      split_ifs <;> simp
    have ih := length_le_htmlEscape s
    simp only [htmlEscape, List.flatMap_cons, List.length_append, List.length_cons] at ih ⊢
    omega

/-- **What is escaped is changed**: no other character makes up for it. -/
theorem htmlEscape_eq_self_iff : ∀ {s : Line}, htmlEscape s = s ↔ ∀ c ∈ s, c ∉ special
  | [] => by simp [htmlEscape]
  | c :: s => by
    have hcons : htmlEscape (c :: s) = htmlReplacement c ++ htmlEscape s := List.flatMap_cons
    by_cases hc : c ∈ special
    · have hne : htmlEscape (c :: s) ≠ c :: s := by
        rw [hcons]
        intro heq
        simp only [special, List.mem_cons, List.not_mem_nil, or_false] at hc
        have hlength := congrArg List.length heq
        have hle := length_le_htmlEscape s
        rw [List.length_append, List.length_cons] at hlength
        rcases hc with rfl | hc
        · -- the zero character is replaced by one that is not zero
          exact absurd (List.cons.inj heq).1 (by decide)
        · have hlong : 4 ≤ (htmlReplacement c).length := by
            rcases hc with rfl | rfl | rfl | rfl | rfl | rfl <;> decide
          omega
      simp [hne, hc]
    · rw [hcons, htmlReplacement_of_notMem hc, List.singleton_append, List.cons_inj_right, htmlEscape_eq_self_iff]
      simp [hc]

/-! ## Lines -/

/-- A line that `buildPod` passes over. -/
def Skipped (line : Line) : Prop := trimSpace line = [] ∨ (trimSpace line).head? = some '#'

instance (line : Line) : Decidable (Skipped line) := inferInstanceAs (Decidable (_ ∨ _))

theorem readLine_skipped {line : Line} (h : Skipped line) (env : GoMap String) : readLine env line = .ok env := if_pos h

theorem readLine_split {line : Line} {b : String × String} (h : ¬ Skipped line)
    (hsplit : splitAssignment (trimSpace line) = some b) (env : GoMap String) :
    readLine env line = .ok (env.insert b.1 b.2) := by
  unfold readLine
  refine (if_neg h).trans ?_
  rw [hsplit]

/-- A text without newlines, and without blanks at its ends. -/
structure Plain (text : String) : Prop where
  newline : '\n' ∉ text.toList
  trimmed : trimSpace text.toList = text.toList

theorem Plain.newline_escape {text : String} (h : Plain text) : '\n' ∉ htmlEscape text.toList := by
  rw [htmlEscape, List.mem_flatMap]
  intro hmem
  obtain ⟨c, hc, hmem⟩ := hmem
  exact newline_notMem_htmlReplacement (fun heq => h.newline (heq ▸ hc)) hmem

theorem Plain.getLast?_escape {text : String} (h : Plain text) :
    ∀ c ∈ (htmlEscape text.toList).getLast?, isSpace c = false := by
  rcases List.eq_nil_or_concat' text.toList with hnil | ⟨init, last, hlast⟩
  · simp [hnil, htmlEscape]
  · have hspace : isSpace last = false := by
      refine Hosts.getLast?_trimSpace text.toList last ?_
      rw [h.trimmed, hlast]
      simp
    obtain ⟨init', last', heq, hspace'⟩ := htmlReplacement_ends hspace
    intro c hc
    simp only [hlast, htmlEscape, List.flatMap_append, List.flatMap_singleton, heq, ← List.append_assoc,
      List.getLast?_concat, Option.mem_def, Option.some.injEq] at hc
    rwa [← hc]

/-- The name of a variable. -/
structure Named (name : String) : Prop where
  equals : '=' ∉ name.toList
  newline : '\n' ∉ name.toList
  head : name.toList.head?.any (fun c => !isSpace c && c ≠ '#')

theorem Named.exists_head {name : String} (h : Named name) :
    ∃ c, name.toList.head? = some c ∧ isSpace c = false ∧ c ≠ '#' := by
  obtain ⟨c, hc, hhead⟩ := (Option.any_eq_true _ _).1 h.head
  exact ⟨c, hc, by simpa using hhead⟩

section Assignment

variable {cfg : EtcdAdmConfig} {name : String} {f : Field} (hname : Named name) (hplain : Plain (f.text cfg))

include hname

theorem head?_assignment : (assignment cfg name f).head? = name.toList.head? := by
  obtain ⟨c, hc, -⟩ := hname.exists_head
  rw [assignment, List.head?_append, hc]
  rfl

theorem splitAssignment_assignment : splitAssignment (assignment cfg name f) =
    some (name, String.ofList (htmlEscape (f.text cfg).toList)) := by
  have hspan : (assignment cfg name f).span (· ≠ '=') = (name.toList, '=' :: htmlEscape (f.text cfg).toList) := by
    have hall : ∀ c ∈ name.toList, decide (c ≠ '=') = true := by
      intro c hc
      rw [decide_eq_true_eq]
      exact fun heq : c = '=' => hname.equals (heq ▸ hc)
    rw [List.span_eq_takeWhile_dropWhile, assignment, List.takeWhile_append_of_pos hall, List.dropWhile_append_of_pos hall]
    simp
  rw [splitAssignment, hspan]
  simp

include hplain

theorem newline_notMem_assignment : '\n' ∉ assignment cfg name f := by
  simp [assignment, hname.newline, hplain.newline_escape]

theorem trimSpace_assignment : trimSpace (assignment cfg name f) = assignment cfg name f := by
  obtain ⟨c, hc, hspace, -⟩ := hname.exists_head
  refine Hosts.trimSpace_eq_self ?_ ?_
  · rw [head?_assignment hname, hc]
    simpa using hspace
  · intro c hc
    rw [assignment, List.getLast?_append, List.getLast?_cons] at hc
    cases hescape : (htmlEscape (f.text cfg).toList).getLast? with
    | none =>
      rw [hescape] at hc
      cases hc
      decide
    | some last =>
      rw [hescape] at hc
      cases hc
      exact hplain.getLast?_escape _ (by simp [hescape])

/-- **A variable is read with its escaped value.** -/
theorem readLine_assignment (env : GoMap String) : readLine env (assignment cfg name f) =
    .ok (env.insert name (String.ofList (htmlEscape (f.text cfg).toList))) := by
  obtain ⟨c, hc, -, hsharp⟩ := hname.exists_head
  have hhead := @head?_assignment cfg name f hname
  have hnot : ¬ Skipped (assignment cfg name f) := by
    rw [Skipped, trimSpace_assignment hname hplain, hhead, hc]
    simp [assignment, hsharp]
  have hsplit := @splitAssignment_assignment cfg name f hname
  rw [← trimSpace_assignment hname hplain] at hsplit
  exact readLine_split hnot hsplit env

end Assignment

/-! ## The template -/

/-- The variable that a line of the template is for. -/
def TemplateLine.assigned : TemplateLine → Option String
  | .text s => if Skipped s.toList then none else (splitAssignment (trimSpace s.toList)).map Prod.fst
  | .var name _ => some name
  | .optional name _ => some name

/-- The variable, and what it is read as. -/
def TemplateLine.binding (cfg : EtcdAdmConfig) : TemplateLine → Option (String × String)
  | .text s => if Skipped s.toList then none else splitAssignment (trimSpace s.toList)
  | .var name f => some (name, String.ofList (htmlEscape (f.text cfg).toList))
  | .optional name f => if f.isTrue cfg then some (name, String.ofList (htmlEscape (f.text cfg).toList)) else none

/-- What the lines of the template keep to. -/
def TemplateLine.Fits : TemplateLine → Prop
  | .text s => '\n' ∉ s.toList ∧ (Skipped s.toList ∨ (splitAssignment (trimSpace s.toList)).isSome)
  | .var name _ => Named name
  | .optional name _ => Named name

instance (name : String) : Decidable (Named name) :=
  decidable_of_iff ('=' ∉ name.toList ∧ '\n' ∉ name.toList ∧ name.toList.head?.any (fun c => !isSpace c && c ≠ '#'))
    ⟨fun h => ⟨h.1, h.2.1, h.2.2⟩, fun h => ⟨h.equals, h.newline, h.head⟩⟩

instance : DecidablePred TemplateLine.Fits
  | .text s => inferInstanceAs (Decidable ('\n' ∉ s.toList ∧ (Skipped s.toList ∨ _)))
  | .var name _ => inferInstanceAs (Decidable (Named name))
  | .optional name _ => inferInstanceAs (Decidable (Named name))

theorem fits_envFileTemplate : ∀ tl ∈ envFileTemplate, tl.Fits := by decide +kernel

/-- Each variable is on one line. -/
theorem assigned_inj : ∀ tl ∈ envFileTemplate, ∀ tl' ∈ envFileTemplate, tl.assigned = tl'.assigned →
    tl.assigned = none ∨ tl = tl' := by
  have hnodup : (envFileTemplate.filterMap TemplateLine.assigned).Nodup := by decide +kernel
  have hsymm : Std.Symm fun tl tl' : TemplateLine =>
      ∀ name, tl.assigned = some name → ∀ name', tl'.assigned = some name' → name ≠ name' :=
    ⟨fun _ _ h name hname name' hname' => (h name' hname' name hname).symm⟩
  intro tl htl tl' htl' heq
  by_contra hne
  rw [not_or] at hne
  obtain ⟨name, hname⟩ := Option.ne_none_iff_exists'.1 hne.1
  have hapart := (List.pairwise_filterMap.1 hnodup).forall htl htl' hne.2
  exact hapart name hname name (heq.symm.trans hname) rfl

/-- Each field is the value of some variable. -/
theorem exists_variable (f : Field) : ∃ name, .var name f ∈ envFileTemplate ∨ .optional name f ∈ envFileTemplate := by
  cases f <;> simp [envFileTemplate]

theorem assigned_of_binding {cfg : EtcdAdmConfig} {tl : TemplateLine} {b : String × String} (h : tl.binding cfg = some b) :
    tl.assigned = some b.1 := by
  cases tl with
  | text s =>
    simp only [TemplateLine.binding] at h
    split at h
    · cases h
    · next hskipped => simp [TemplateLine.assigned, hskipped, h]
  | var name f =>
    cases h
    rfl
  | optional name f =>
    simp only [TemplateLine.binding] at h
    split at h
    · cases h
      rfl
    · cases h

/-! ## Reading the file -/

/-- The text fields are without newlines, and not blank at their ends. -/
def EtcdAdmConfig.Plain (cfg : EtcdAdmConfig) : Prop := ∀ f : Field, f ≠ .gomaxprocs → Environment.Plain (f.text cfg)

/-- A number is written with digits and a sign. -/
theorem isDigit_of_mem_toString {c : Char} {n : Int} (hc : c ∈ (toString n).toList) : c.isDigit = true ∨ c = '-' := by
  have hnat {k : Nat} (hk : c ∈ k.repr.toList) : c.isDigit = true := by
    rw [Nat.toList_repr] at hk
    exact Nat.isDigit_of_mem_toDigits (by omega) (by omega) hk
  rw [Int.toString_eq_repr, Int.repr_eq_if] at hc
  split at hc
  · exact .inl (hnat hc)
  · rw [String.toList_append, List.mem_append] at hc
    rcases hc with hc | hc
    · exact .inr (by simpa using hc)
    · exact .inl (hnat hc)

theorem isSpace_of_mem_toString {c : Char} {n : Int} (hc : c ∈ (toString n).toList) : isSpace c = false := by
  rcases isDigit_of_mem_toString hc with hdigit | rfl
  · obtain ⟨hle, hge⟩ := Char.isDigit_iff_toNat.1 hdigit
    simp only [show '0'.toNat = 48 from rfl, show '9'.toNat = 57 from rfl] at hle hge
    simp only [isSpace, List.mem_cons, List.not_mem_nil, or_false, Bool.or_eq_false_iff, decide_eq_false_iff_not,
      Bool.and_eq_false_iff]
    omega
  · decide

theorem plain_toString (n : Int) : Plain (toString n) := by
  constructor
  · intro hmem
    exact absurd (isSpace_of_mem_toString hmem) (by decide)
  · refine Hosts.trimSpace_eq_self (fun c hc => ?_) (fun c hc => ?_)
    · exact isSpace_of_mem_toString (List.mem_of_mem_head? hc)
    · exact isSpace_of_mem_toString (List.mem_of_mem_getLast? hc)

section Read

variable {cfg : EtcdAdmConfig} (hcfg : cfg.Plain)

include hcfg

theorem EtcdAdmConfig.Plain.field (f : Field) : Environment.Plain (f.text cfg) := by
  by_cases hf : f = .gomaxprocs
  · subst hf
    exact plain_toString cfg.gomaxprocs
  · exact hcfg f hf

variable {tl : TemplateLine} (htl : tl.Fits)

include htl

theorem newline_notMem_execute : '\n' ∉ tl.execute cfg := by
  cases tl with
  | text s => exact htl.1
  | var name f => exact newline_notMem_assignment htl (hcfg.field f)
  | optional name f =>
    simp only [TemplateLine.execute]
    split
    · exact newline_notMem_assignment htl (hcfg.field f)
    · simp

theorem readLine_execute (env : GoMap String) :
    readLine env (tl.execute cfg) = .ok ((tl.binding cfg).elim env fun b => env.insert b.1 b.2) := by
  cases tl with
  | text s =>
    simp only [TemplateLine.execute, TemplateLine.binding]
    by_cases hskipped : Skipped s.toList
    · rw [if_pos hskipped, readLine_skipped hskipped]
      rfl
    · obtain ⟨b, hb⟩ := Option.isSome_iff_exists.1 (htl.2.resolve_left hskipped)
      rw [if_neg hskipped, readLine_split hskipped hb, hb]
      rfl
  | var name f => exact readLine_assignment htl (hcfg.field f) env
  | optional name f =>
    simp only [TemplateLine.execute, TemplateLine.binding]
    split
    · exact readLine_assignment htl (hcfg.field f) env
    · exact readLine_skipped (.inl rfl) env

end Read

/-- The environment that is read. -/
def envOf (cfg : EtcdAdmConfig) (tls : List TemplateLine) : GoMap String :=
  tls.foldl (fun env tl => (tl.binding cfg).elim env fun b => env.insert b.1 b.2) ∅

theorem podEnv_eq {cfg : EtcdAdmConfig} (hcfg : cfg.Plain) : podEnv cfg = .ok (envOf cfg envFileTemplate) := by
  have hlines : linesOf (buildEnvironment cfg) = envFileTemplate.map (TemplateLine.execute cfg) := by
    refine Hosts.linesOf_textOf (fun line hline => ?_) (by simp [envFileTemplate])
    obtain ⟨tl, htl, rfl⟩ := List.mem_map.1 hline
    exact newline_notMem_execute hcfg (fits_envFileTemplate tl htl)
  have hread : ∀ (tls : List TemplateLine), (∀ tl ∈ tls, tl.Fits) → ∀ env,
      (tls.map (TemplateLine.execute cfg)).foldlM readLine env = (.ok (tls.foldl (fun env tl =>
        (tl.binding cfg).elim env fun b => env.insert b.1 b.2) env) : Except Error (GoMap String)) := by
    intro tls
    induction tls with
    | nil => exact fun _ _ => rfl
    | cons tl tls ih =>
      intro hfits env
      rw [List.map_cons, List.foldlM_cons, readLine_execute hcfg (hfits tl (by simp)), List.foldl_cons,
        ← ih fun tl htl => hfits tl (by simp [htl])]
      rfl
  rw [podEnv, hlines, hread _ fits_envFileTemplate]
  rfl

/-- A variable is read from one of the lines that are for it. -/
theorem exists_of_lookup_envOf {cfg : EtcdAdmConfig} {name value : String} : ∀ {tls : List TemplateLine},
    (envOf cfg tls).lookup name = some value → ∃ tl ∈ tls, tl.binding cfg = some (name, value) := by
  intro tls
  induction tls using List.reverseRecOn with
  | nil => simp [envOf]
  | append_singleton tls tl ih =>
    intro h
    rw [envOf, List.foldl_append, List.foldl_cons, List.foldl_nil] at h
    cases hb : tl.binding cfg with
    | none =>
      rw [hb] at h
      obtain ⟨tl', htl', heq⟩ := ih h
      exact ⟨tl', by simp [htl'], heq⟩
    | some b =>
      rw [hb] at h
      rcases GoMap.lookup_insert_eq_some.1 h with ⟨rfl, rfl⟩ | ⟨-, h⟩
      · exact ⟨tl, by simp, hb⟩
      · obtain ⟨tl', htl', heq⟩ := ih h
        exact ⟨tl', by simp [htl'], heq⟩

theorem lookup_envOf_isSome {cfg : EtcdAdmConfig} {b : String × String} : ∀ {tls : List TemplateLine} {tl : TemplateLine},
    tl ∈ tls → tl.binding cfg = some b → ((envOf cfg tls).lookup b.1).isSome := by
  intro tls
  induction tls using List.reverseRecOn with
  | nil => simp
  | append_singleton tls tl ih =>
    intro tl' htl' hb'
    rw [envOf, List.foldl_append, List.foldl_cons, List.foldl_nil]
    cases hb : tl.binding cfg with
    | none =>
      rcases List.mem_append.1 htl' with htl' | htl'
      · exact ih htl' hb'
      · rw [List.mem_singleton.1 htl', hb] at hb'
        cases hb'
    | some b₀ =>
      by_cases hkey : b.1 = b₀.1
      · rw [hkey, Option.elim_some, AList.lookup_insert]
        rfl
      · rw [Option.elim_some, AList.lookup_insert_ne hkey]
        rcases List.mem_append.1 htl' with htl' | htl'
        · exact ih htl' hb'
        · rw [List.mem_singleton.1 htl', hb] at hb'
          exact absurd (congrArg Prod.fst (Option.some.inj hb')).symm hkey

/-- **A variable is read from the one line that is for it.** -/
theorem lookup_envOf {cfg : EtcdAdmConfig} {tl : TemplateLine} (htl : tl ∈ envFileTemplate) {name : String}
    (hname : tl.assigned = some name) : (envOf cfg envFileTemplate).lookup name = (tl.binding cfg).map Prod.snd := by
  have hline {tl' : TemplateLine} {value : String} (htl' : tl' ∈ envFileTemplate)
      (hb : tl'.binding cfg = some (name, value)) : tl = tl' := by
    have heq := hname.trans (assigned_of_binding hb).symm
    exact (assigned_inj tl htl tl' htl' heq).resolve_left (by simp [hname])
  cases hlook : (envOf cfg envFileTemplate).lookup name with
  | none =>
    cases hb : tl.binding cfg with
    | none => rfl
    | some b =>
      have hfst : b.1 = name := Option.some.inj ((assigned_of_binding hb).symm.trans hname)
      have hsome := lookup_envOf_isSome htl hb
      rw [hfst, hlook] at hsome
      cases hsome
  | some value =>
    obtain ⟨tl', htl', hb⟩ := exists_of_lookup_envOf hlook
    rw [hline htl' hb, hb]
    rfl

theorem escape_eq_iff {text : String} : String.ofList (htmlEscape text.toList) = text ↔ ∀ c ∈ text.toList, c ∉ special := by
  rw [← htmlEscape_eq_self_iff, ← String.toList_inj, String.toList_ofList]

/-- A field that `if` takes for false has nothing to escape. -/
theorem not_special_of_not_isTrue {cfg : EtcdAdmConfig} {f : Field} (h : f.isTrue cfg = false) :
    ∀ c ∈ (f.text cfg).toList, c ∉ special := by
  by_cases hf : f = .gomaxprocs
  · subst hf
    have hzero : cfg.gomaxprocs = 0 := by simpa [Field.isTrue] using h
    rw [Field.text, hzero, show (toString (0 : Int)).toList = ['0'] by decide]
    simp [special]
  · have hempty : f.text cfg = "" := by
      cases f <;> first | exact absurd rfl hf | simpa [Field.isTrue] using h
    simp [hempty]

/-- **The environment round-trips exactly if there is nothing to escape.** For every
configuration with texts without newlines and blanks at their ends, each variable of
the template is read back as the text of its field if and only if no field has one
of the characters that `html/template` escapes. -/
theorem environment_round_trips_iff (cfg : EtcdAdmConfig) (hcfg : cfg.Plain) :
    RoundTrips cfg ↔ ∀ f : Field, ∀ c ∈ (f.text cfg).toList, c ∉ special := by
  have hvar {name : String} {f : Field} (htl : .var name f ∈ envFileTemplate) :
      (envOf cfg envFileTemplate).lookup name = some (String.ofList (htmlEscape (f.text cfg).toList)) :=
    lookup_envOf htl rfl
  have hoptional {name : String} {f : Field} (htl : .optional name f ∈ envFileTemplate) :
      (envOf cfg envFileTemplate).lookup name =
        if f.isTrue cfg then some (String.ofList (htmlEscape (f.text cfg).toList)) else none := by
    rw [lookup_envOf htl rfl, TemplateLine.binding]
    split <;> rfl
  constructor
  · intro h f
    obtain ⟨env, henv, hvars, hoptionals⟩ := h
    obtain rfl := Except.ok.inj ((podEnv_eq hcfg).symm.trans henv)
    obtain ⟨name, htl | htl⟩ := exists_variable f
    · rw [← escape_eq_iff]
      exact Option.some.inj ((hvar htl).symm.trans (hvars name f htl))
    · cases htrue : f.isTrue cfg with
      | false => exact not_special_of_not_isTrue htrue
      | true =>
        have heq := (hoptional htl).symm.trans (hoptionals name f htl)
        rw [htrue, if_pos rfl, if_pos rfl] at heq
        rw [← escape_eq_iff]
        exact Option.some.inj heq
  · intro h
    refine ⟨envOf cfg envFileTemplate, podEnv_eq hcfg, fun name f htl => ?_, fun name f htl => ?_⟩
    · rw [hvar htl, escape_eq_iff.2 (h f)]
    · rw [hoptional htl, escape_eq_iff.2 (h f)]

/-- A configuration of one member with this name. -/
def configOf (name : String) : EtcdAdmConfig where
  peerCertFile := "/etc/etcd/pki/peer.crt"
  peerKeyFile := "/etc/etcd/pki/peer.key"
  peerTrustedCAFile := "/etc/etcd/pki/ca.crt"
  certFile := "/etc/etcd/pki/server.crt"
  keyFile := "/etc/etcd/pki/server.key"
  trustedCAFile := "/etc/etcd/pki/ca.crt"
  dataDir := "/var/lib/etcd"
  initialAdvertisePeerURLs := ["https://10.0.0.1:2380"]
  listenPeerURLs := ["https://10.0.0.1:2380"]
  advertiseClientURLs := ["https://10.0.0.1:2379"]
  listenClientURLs := ["https://10.0.0.1:2379", "https://127.0.0.1:2379"]
  listenMetricsURLs := []
  name
  initialCluster := ""
  initialClusterToken := ""
  initialClusterState := "new"
  gomaxprocs := 4
  logger := "zap"
  logOutputs := ""
  enableV2 := ""

theorem text_configOf {f : Field} (hf : f ≠ .name) (name : String) : f.text (configOf name) = f.text (configOf "") := by
  cases f <;> first | rfl | exact absurd rfl hf

theorem plain_configOf {name : String} (h : Plain name) : (configOf name).Plain := by
  have hrest : (configOf "").Plain := by
    intro f _
    cases f <;> exact ⟨by decide +kernel, by decide +kernel⟩
  intro f hf
  by_cases hname : f = .name
  · rw [hname]
    exact h
  · rw [text_configOf hname]
    exact hrest f hf

theorem plain_name_round_trips : (configOf "etcd-1").Plain ∧ RoundTrips (configOf "etcd-1") := by
  have hplain : (configOf "etcd-1").Plain := plain_configOf ⟨by decide +kernel, by decide +kernel⟩
  have hnone (f : Field) : ((f.text (configOf "etcd-1")).toList.all fun c => c ∉ special) = true := by
    cases f <;> decide +kernel
  refine ⟨hplain, (environment_round_trips_iff _ hplain).2 fun f c hc => ?_⟩
  simpa using List.all_eq_true.1 (hnone f) c hc

/-- The name `a+b` is read as `a&#43;b`. -/
theorem plus_is_escaped : (configOf "a+b").Plain ∧ ¬ RoundTrips (configOf "a+b") := by
  have hplain : (configOf "a+b").Plain := plain_configOf ⟨by decide +kernel, by decide +kernel⟩
  refine ⟨hplain, fun h => ?_⟩
  obtain ⟨env, henv, hvars, -⟩ := h
  obtain rfl := Except.ok.inj ((podEnv_eq hplain).symm.trans henv)
  have hmem : .var "ETCD_NAME" .name ∈ envFileTemplate := List.mem_cons_self
  have hread : (envOf (configOf "a+b") envFileTemplate).lookup "ETCD_NAME" = some "a&#43;b" :=
    (lookup_envOf hmem rfl).trans (by decide +kernel)
  exact absurd (Option.some.inj (hread.symm.trans (hvars "ETCD_NAME" .name hmem))) (by decide)

end Environment

end Etcdadm
