/-
Google Cloud URLs, as `BuildURL` writes them and `ParseGoogleCloudURL` reads them
(`pkg/volumes/gce/gce_url.go`).

The parser goes by position: it looks at a token, takes one more where that is a
keyword, and steps on. `parseURL` is that loop with every index checked. The
parser of `Etcdadm.VolumeProviders` takes the tokens off a list instead, and the
loop comes to the same (`parseURL_eq`), so it neither runs on nor out of range.

A keyword is one only where a keyword is looked for. So a project called `zones`
does no harm, and neither does the type `regions`, since a region has at least two
tokens behind it.
-/
import Etcdadm.VolumeAttach

namespace Etcdadm.VolumeProviders

/-! ## Building -/

def GoogleCloudURL.buildURL (u : GoogleCloudURL) : String :=
  let version := if u.version = "" then "v1" else u.version
  let url := "https://www.googleapis.com/compute/" ++ version ++ "/"
  let url := if u.project ≠ "" then url ++ "projects/" ++ u.project ++ "/" else url
  let url := if u.global then url ++ "global/" else url
  let url := if u.region ≠ "" then url ++ "regions/" ++ u.region ++ "/" else url
  let url := if u.zone ≠ "" then url ++ "zones/" ++ u.zone ++ "/" else url
  url ++ u.type ++ "/" ++ u.name

/-! ## Parsing by position -/

/-- `tokens[pos]` -/
def index (tokens : List String) (pos : Nat) : Outcome String :=
  match tokens[pos]? with
  | some t => .ok t
  | none => .died s!"index out of range [{pos}] with length {tokens.length}"

/-- The loop of `ParseGoogleCloudURL`, for at most `fuel` rounds. -/
def parseLoop (u : String) (tokens : List String) : Nat → Nat → GoogleCloudURL → Outcome GoogleCloudURL
  | 0, _, _ => .died "still running"
  | fuel + 1, pos, parsed => do
    if pos ≥ tokens.length then
      .error s!"invalid google cloud URL (unexpected end): {u.quote}"
    else
      let t ← index tokens pos
      if t = "projects" then
        let pos := pos + 1
        if pos ≥ tokens.length then
          .error s!"invalid google cloud URL (unexpected projects): {u.quote}"
        else
          let project ← index tokens pos
          parseLoop u tokens fuel (pos + 1) { parsed with project := project }
      else if t = "zones" then
        let pos := pos + 1
        if pos ≥ tokens.length then
          .error s!"invalid google cloud URL (unexpected zones): {u.quote}"
        else
          let zone ← index tokens pos
          parseLoop u tokens fuel (pos + 1) { parsed with zone := zone }
      else if t = "regions" ∧ pos + 2 < tokens.length then
        let pos := pos + 1
        if pos ≥ tokens.length then
          .error s!"invalid google cloud URL (unexpected regions): {u.quote}"
        else
          let region ← index tokens pos
          parseLoop u tokens fuel (pos + 1) { parsed with region := region }
      else if t = "global" then
        parseLoop u tokens fuel (pos + 1) { parsed with global := true }
      else
        let type ← index tokens pos
        let pos := pos + 1
        if pos ≥ tokens.length then
          .error s!"invalid google cloud URL (no name): {u.quote}"
        else
          let name ← index tokens pos
          let pos := pos + 1
          if pos ≠ tokens.length then
            .error s!"invalid google cloud URL (content after name): {u.quote}"
          else
            return { parsed with type := type, name := name }

/-- `ParseGoogleCloudURL` -/
def parseURL (fuel : Nat) (u : String) : Outcome GoogleCloudURL := do
  let tokens := split u
  if tokens.length < 3 then
    .error s!"invalid google cloud URL (token count): {u.quote}"
  else
    let scheme ← index tokens 0
    let empty ← index tokens 1
    let host ← index tokens 2
    if scheme ≠ "https:" ∨ empty ≠ "" ∨ host ≠ "www.googleapis.com" then
      .error s!"invalid google cloud URL (schema / host): {u.quote}"
    else if tokens.length < 5 then
      .error s!"invalid google cloud URL (not compute): {u.quote}"
    else
      let compute ← index tokens 3
      if compute ≠ "compute" then
        .error s!"invalid google cloud URL (not compute): {u.quote}"
      else
        let version ← index tokens 4
        if version ≠ "v1" ∧ version ≠ "beta" then
          .error s!"invalid google cloud URL (not compute/v1 or compute/beta): {u.quote}"
        else
          parseLoop u tokens fuel 5 ⟨version, "", "", "", false, "", ""⟩

section Position

variable {u : String} {tokens rest : List String} {pos : Nat} {t : String}

theorem index_bind {α : Type} {f : String → Outcome α} (h : tokens.drop pos = t :: rest) :
    (index tokens pos >>= f) = f t := by
  have hget : tokens[pos]? = some t := by
    rw [← List.head?_drop, h]
    rfl
  rw [index, hget]
  rfl

theorem length_of_drop (h : tokens.drop pos = t :: rest) : tokens.length = pos + 1 + rest.length := by
  have hlen := congrArg List.length h
  simp only [List.length_drop, List.length_cons] at hlen
  omega

theorem drop_succ_of_drop (h : tokens.drop pos = t :: rest) : tokens.drop (pos + 1) = rest := by
  rw [← List.drop_drop, h]
  rfl

/-- The loop at a position is the parser on the tokens from there. -/
theorem parseLoop_eq (fuel : Nat) : ∀ (pos : Nat) (parsed : GoogleCloudURL), pos ≤ tokens.length →
    tokens.length < pos + fuel →
    parseLoop u tokens fuel pos parsed = .ofAnswer id (parseTokens u parsed (tokens.drop pos)) := by
  induction fuel with
  | zero =>
    intro pos parsed hpos hfuel
    omega
  | succ fuel ih =>
    intro pos parsed hpos hfuel
    cases hrest : tokens.drop pos with
    | nil =>
      have hend : pos ≥ tokens.length := by simpa using hrest
      simp [parseLoop, hend, parseTokens, Outcome.ofAnswer]
    | cons t rest =>
      have hlen := length_of_drop hrest
      have hin : ¬ pos ≥ tokens.length := by omega
      have hregion : pos + 2 < tokens.length ↔ 2 ≤ rest.length := by omega
      have hdrop := drop_succ_of_drop hrest
      have hglobal := ih (pos + 1) { parsed with global := true } (by omega) (by omega)
      rw [hdrop] at hglobal
      simp only [parseLoop, if_neg hin, index_bind hrest, hglobal, hregion]
      cases rest with
      | nil =>
        have hend : pos + 1 ≥ tokens.length := by rw [hlen]; exact Nat.le_refl _
        simp only [parseTokens, if_pos hend, apply_ite (Outcome.ofAnswer id)]
        rfl
      | cons x rest =>
        have hlen' := length_of_drop hdrop
        have hnext : ¬ pos + 1 ≥ tokens.length := by omega
        have hstep := fun parsed => ih (pos + 2) parsed (by omega) (by omega)
        rw [drop_succ_of_drop hdrop] at hstep
        have hend : pos + 1 + 1 ≠ tokens.length ↔ rest ≠ [] := by
          rw [Ne, Ne, ← List.length_eq_zero_iff]
          omega
        simp only [parseTokens, if_neg hnext, index_bind hdrop, hstep, hend, apply_ite (Outcome.ofAnswer id)]
        cases rest with
        | nil => rfl
        | cons y rest => rfl

/-- As many rounds as there are tokens are enough, and no index is out of range. -/
theorem parseURL_eq {fuel : Nat} (hfuel : (split u).length ≤ fuel) :
    parseURL fuel u = .ofAnswer id (parseGoogleCloudURL u) := by
  have hloop : ∀ parsed, 5 ≤ (split u).length →
      parseLoop u (split u) fuel 5 parsed = .ofAnswer id (parseTokens u parsed ((split u).drop 5)) :=
    fun parsed hlen => parseLoop_eq fuel 5 parsed hlen (by omega)
  simp only [parseURL, parseGoogleCloudURL]
  cases hsplit : split u with
  | nil => rfl
  | cons scheme l =>
  cases l with
  | nil => rfl
  | cons empty l =>
  cases l with
  | nil => rfl
  | cons host l =>
    rw [hsplit] at hloop
    cases l with
    | nil => simp only [apply_ite (Outcome.ofAnswer id)]; rfl
    | cons compute l =>
    cases l with
    | nil => simp only [apply_ite (Outcome.ofAnswer id)]; rfl
    | cons version tokens =>
      have hloop := fun parsed => hloop parsed (by simp)
      simp only [apply_ite (Outcome.ofAnswer id), hloop]
      rfl

end Position

/-! ## The way back -/

section Parts

/-- The tokens, each with the slash behind it. -/
def slashed : List String → String
  | [] => ""
  | t :: tokens => t ++ "/" ++ slashed tokens

theorem slashed_append (l m : List String) : slashed (l ++ m) = slashed l ++ slashed m := by
  induction l with
  | nil => simp [slashed]
  | cons t l ih => simp only [List.cons_append, slashed, ih, String.append_assoc]

theorem split_of_no_slash {s : String} (h : '/' ∉ s.toList) : split s = [s] := by
  simp [split, List.splitOn_eq_singleton h]

theorem split_slash {s : String} (h : '/' ∉ s.toList) (rest : String) : split (s ++ "/" ++ rest) = s :: split rest := by
  have hchars : ∀ c ∈ s.toList, (c == '/') = false := by
    intro c hc
    exact beq_false_of_ne (ne_of_mem_of_not_mem hc h)
  have htext : (s ++ "/" ++ rest).toList = s.toList ++ '/' :: rest.toList := by simp
  rw [split, htext, List.splitOn_eq_splitOnP, List.splitOnP_append_cons_of_forall_mem hchars '/' (by decide)]
  simp [split, List.splitOn_eq_splitOnP]

theorem split_slashed {tokens : List String} (h : ∀ t ∈ tokens, '/' ∉ t.toList) (rest : String) :
    split (slashed tokens ++ rest) = tokens ++ split rest := by
  induction tokens with
  | nil => simp [slashed]
  | cons t tokens ih =>
    obtain ⟨ht, htokens⟩ := List.forall_mem_cons.1 h
    rw [slashed, String.append_assoc, split_slash ht, ih htokens]
    rfl

/-- A keyword with its value, left out where that is empty. -/
def keyed (keyword value : String) : List String := if value ≠ "" then [keyword, value] else []

theorem append_keyed {url keyword key value : String} (h : keyword = key ++ "/") :
    (if value ≠ "" then url ++ keyword ++ value ++ "/" else url) = url ++ slashed (keyed key value) := by
  subst h
  unfold keyed
  split <;> simp [slashed, String.append_assoc]

/-- What stands before the type. -/
def GoogleCloudURL.path (u : GoogleCloudURL) : List String :=
  keyed "projects" u.project ++ (if u.global then ["global"] else []) ++ keyed "regions" u.region ++ keyed "zones" u.zone

theorem slashed_head (version : String) : slashed ["https:", "", "www.googleapis.com", "compute", version] =
    "https://www.googleapis.com/compute/" ++ version ++ "/" := by
  have hhead : "https://www.googleapis.com/compute/" =
      "https:" ++ "/" ++ ("" ++ "/") ++ ("www.googleapis.com" ++ "/") ++ ("compute" ++ "/") := by decide
  rw [hhead]
  simp only [slashed, String.append_assoc, String.append_empty]

theorem GoogleCloudURL.buildURL_eq {u : GoogleCloudURL} (h : u.version ≠ "") :
    u.buildURL = slashed (["https:", "", "www.googleapis.com", "compute", u.version] ++ u.path) ++ u.type ++ "/" ++ u.name := by
  have hglobal : ∀ url : String, (if u.global then url ++ "global/" else url) =
      url ++ slashed (if u.global then ["global"] else []) := by
    intro url
    cases u.global <;> simp [slashed]
  simp only [buildURL, if_neg h, hglobal, append_keyed (show "projects/" = "projects" ++ "/" by decide),
    append_keyed (show "regions/" = "regions" ++ "/" by decide), append_keyed (show "zones/" = "zones" ++ "/" by decide), path,
    slashed_append, slashed_head]
  simp only [String.append_assoc]

theorem GoogleCloudURL.no_slash_path {u : GoogleCloudURL} (hproject : '/' ∉ u.project.toList)
    (hregion : '/' ∉ u.region.toList) (hzone : '/' ∉ u.zone.toList) : ∀ t ∈ u.path, '/' ∉ t.toList := by
  have hkeyed : ∀ {keyword value : String}, '/' ∉ keyword.toList → '/' ∉ value.toList →
      ∀ t ∈ keyed keyword value, '/' ∉ t.toList := by
    intro keyword value hk hv t ht
    unfold keyed at ht
    split at ht
    · simp only [List.mem_cons, List.not_mem_nil, or_false] at ht
      obtain rfl | rfl := ht
      · exact hk
      · exact hv
    · cases ht
  have hglobal : ∀ t ∈ (if u.global then ["global"] else []), '/' ∉ t.toList := by
    cases u.global <;> decide
  simp only [path, List.forall_mem_append]
  exact ⟨⟨⟨hkeyed (by decide) hproject, hglobal⟩, hkeyed (by decide) hregion⟩, hkeyed (by decide) hzone⟩

end Parts

section Keywords

variable {s : String} {parsed : GoogleCloudURL} {rest : List String}

theorem parseTokens_project (h : parsed.project = "") (project : String) :
    parseTokens s parsed (keyed "projects" project ++ rest) = parseTokens s { parsed with project := project } rest := by
  unfold keyed
  split
  · simp [parseTokens]
  next hempty =>
    obtain rfl : project = parsed.project := by rw [h]; simpa using hempty
    rfl

theorem parseTokens_zone (h : parsed.zone = "") (zone : String) :
    parseTokens s parsed (keyed "zones" zone ++ rest) = parseTokens s { parsed with zone := zone } rest := by
  unfold keyed
  split
  · simp [parseTokens]
  next hempty =>
    obtain rfl : zone = parsed.zone := by rw [h]; simpa using hempty
    rfl

/-- A region needs something behind it. -/
theorem parseTokens_region (h : parsed.region = "") (region : String) (hrest : rest ≠ []) :
    parseTokens s parsed (keyed "regions" region ++ rest) = parseTokens s { parsed with region := region } rest := by
  unfold keyed
  split
  · simp [parseTokens, hrest]
  next hempty =>
    obtain rfl : region = parsed.region := by rw [h]; simpa using hempty
    rfl

theorem parseTokens_global (h : parsed.global = false) ( global : Bool) :
    parseTokens s parsed ((if global then ["global"] else []) ++ rest) = parseTokens s { parsed with global := global } rest := by
  cases global with
  | false =>
    show parseTokens s parsed rest = _
    rw [← h]
  | true => cases rest <;> simp [parseTokens]

theorem parseTokens_type {type name : String} (hprojects : type ≠ "projects") (hzones : type ≠ "zones")
    (hglobal : type ≠ "global") :
    parseTokens s parsed [type, name] = .ok { parsed with type := type, name := name } := by
  simp [parseTokens, hprojects, hzones, hglobal]

end Keywords

/-- The text that is built is read back by the parser over a list. -/
theorem parseGoogleCloudURL_buildURL {u : GoogleCloudURL} (hversion : u.version = "v1" ∨ u.version = "beta")
    (hslash : ∀ t ∈ [u.project, u.region, u.zone, u.type, u.name], '/' ∉ t.toList)
    (htype : u.type ∉ ["projects", "zones", "global"]) : parseGoogleCloudURL u.buildURL = .ok u := by
  simp only [List.mem_cons, List.not_mem_nil, or_false, forall_eq_or_imp, forall_eq] at hslash
  obtain ⟨hproject, hregion, hzone, htypeSlash, hname⟩ := hslash
  simp only [List.mem_cons, List.not_mem_nil, or_false, not_or] at htype
  obtain ⟨hprojects, hzones, hglobal⟩ := htype
  have hhead : u.version ≠ "" ∧ '/' ∉ u.version.toList := by
    obtain h | h := hversion <;> rw [h] <;> decide
  have hparts : ∀ t ∈ ["https:", "", "www.googleapis.com", "compute", u.version] ++ u.path, '/' ∉ t.toList := by
    simp only [List.forall_mem_append]
    exact ⟨by simp [hhead.2], u.no_slash_path hproject hregion hzone⟩
  have hsplit : split u.buildURL = "https:" :: "" :: "www.googleapis.com" :: "compute" :: u.version ::
      (u.path ++ [u.type, u.name]) := by
    rw [u.buildURL_eq hhead.1, String.append_assoc, String.append_assoc, split_slashed hparts, ← String.append_assoc,
      split_slash htypeSlash, split_of_no_slash hname]
    rfl
  have hvalid : ¬ (u.version ≠ "v1" ∧ u.version ≠ "beta") := by
    obtain h | h := hversion <;> simp [h]
  have hrest : keyed "zones" u.zone ++ [u.type, u.name] ≠ [] := by simp
  simp only [parseGoogleCloudURL, hsplit, if_neg hvalid, GoogleCloudURL.path, List.append_assoc,
    parseTokens_project, parseTokens_global, parseTokens_region _ _ hrest, parseTokens_zone,
    parseTokens_type hprojects hzones hglobal]
  rfl

/-- On any text the parser comes to an end and stays within the tokens. What is built is read back, whatever the
fields are called; only a type may not be one of the keywords that are taken without a look at what is behind them. -/
theorem googleCloudURL_round_trip (s : String) (u : GoogleCloudURL) :
    (∀ fuel ≥ (split s).length, (∃ parsed, parseURL fuel s = .ok parsed) ∨ ∃ err, parseURL fuel s = .error err) ∧
      ((u.version = "v1" ∨ u.version = "beta") →
        (∀ t ∈ [u.project, u.region, u.zone, u.type, u.name], '/' ∉ t.toList) →
        u.type ∉ ["projects", "zones", "global"] →
        ∀ fuel ≥ (split u.buildURL).length, parseURL fuel u.buildURL = .ok u) := by
  constructor
  · intro fuel hfuel
    rw [parseURL_eq hfuel]
    cases parseGoogleCloudURL s with
    | ok parsed => exact .inl ⟨parsed, rfl⟩
    | error err => exact .inr ⟨err, rfl⟩
  · intro hversion hslash htype fuel hfuel
    rw [parseURL_eq hfuel, parseGoogleCloudURL_buildURL hversion hslash htype]
    rfl

/-- A project `zones` with a region `projects`, and the type `regions` -/
def keywordURL : GoogleCloudURL := ⟨"beta", "zones", "regions", "global", true, "projects", ""⟩

theorem googleCloudURL_round_trip_keywords :
    keywordURL.buildURL = "https://www.googleapis.com/compute/beta/projects/zones/global/regions/projects/regions/global" ∧
      parseURL 12 keywordURL.buildURL = .ok keywordURL :=
  ⟨by decide, (googleCloudURL_round_trip "" keywordURL).2 (by decide) (by decide) (by decide) 12 (by decide)⟩

end Etcdadm.VolumeProviders
