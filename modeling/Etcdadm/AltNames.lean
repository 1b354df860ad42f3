/-
The names etcd's certificates are good for (`createKeypairs` and `addAltNames` of
`pkg/etcd/pki.go`): the hosts of the node's URLs, and the loopback addresses, so that
the node can always be reached from its own machine.

An address is known by its text. The loopback addresses are added unless they are
there, first `127.0.0.1` and then `::1`. But the first scan returns from the function
when it finds `127.0.0.1`, so whether `::1` is added depends on an address that has
nothing to do with it.
-/
import Etcdadm.Keypair
import Etcdadm.EtcdServer

namespace Etcdadm.Pki

/-! ## Hosts -/

/-- `url.URL`, with what `Hostname` gives -/
structure ParsedURL where
  scheme : String
  hostname : String

/-- `url.Parse` and `net.ParseIP`, the latter with the text of the address. The loopback addresses are their own texts. -/
structure HostNames where
  parseURL : String → Except Error ParsedURL
  parseIP : String → Option String
  loopback4 : parseIP "127.0.0.1" = some "127.0.0.1"
  loopback6 : parseIP "::1" = some "::1"

namespace HostNames

variable (names : HostNames)

/-- The body of the loop of `addAltNames`. -/
def addURL (certConfig : Config) (urlString : String) : Except Error Config :=
  match names.parseURL urlString with
  | .error _ => .error s!"cannot parse url: {urlString.quote}"
  | .ok u =>
    if u.scheme = "http" ∨ u.scheme = "https" then
      match names.parseIP u.hostname with
      | none => .ok { certConfig with dnsNames := certConfig.dnsNames ++ [u.hostname] }
      | some ip => .ok { certConfig with ips := certConfig.ips ++ [ip] }
    else if u.scheme = "unix" ∨ u.scheme = "unixs" then
      .ok { certConfig with dnsNames := certConfig.dnsNames ++ [u.hostname] }
    else .error s!"unknown URL {urlString.quote}"

def addURLs : Config → List String → Except Error Config
  | certConfig, [] => .ok certConfig
  | certConfig, urlString :: urls =>
    match names.addURL certConfig urlString with
    | .error err => .error err
    | .ok certConfig => addURLs certConfig urls

/-- What `addAltNames` does after the loop; a nil address has the text `<nil>`. -/
def addLoopback (certConfig : Config) : Config :=
  if "127.0.0.1" ∈ certConfig.ips then certConfig
  else
    let certConfig := { certConfig with ips := certConfig.ips ++ [(names.parseIP "127.0.0.1").getD "<nil>"] }
    if "::1" ∈ certConfig.ips then certConfig
    else { certConfig with ips := certConfig.ips ++ [(names.parseIP "::1").getD "<nil>"] }

def addAltNames (certConfig : Config) (urls : List String) : Except Error Config :=
  match names.addURLs certConfig urls with
  | .error err => .error err
  | .ok certConfig => .ok (names.addLoopback certConfig)

end HostNames

/-- The loop of `removeDuplicateIPs`, with what it has seen. -/
def removeSeenIPs : List String → List String → List String
  | _, [] => []
  | seen, ip :: ips => if ip ∈ seen then removeSeenIPs seen ips else ip :: removeSeenIPs (ip :: seen) ips

def removeDuplicateIPs (ips : List String) : List String := removeSeenIPs [] ips

/-! ## The key pairs -/

def extKeyUsageServerAuth : Nat := 1
def extKeyUsageClientAuth : Nat := 2

namespace HostNames

variable (names : HostNames) (me : EtcdNode)

def peersConfig (peerClientIPs : List String) : Except Error Config :=
  let certConfig : Config := ⟨me.name, [], [me.name], [], [extKeyUsageClientAuth, extKeyUsageServerAuth]⟩
  let certConfig := { certConfig with ips := certConfig.ips ++ peerClientIPs }
  match names.addAltNames certConfig me.peerUrls with
  | .error err => .error err
  | .ok certConfig => .ok { certConfig with ips := removeDuplicateIPs certConfig.ips }

def clientsConfig : Except Error Config :=
  let certConfig : Config := ⟨me.name, [], [me.name], [], [extKeyUsageServerAuth, extKeyUsageClientAuth]⟩
  match names.addAltNames certConfig me.clientUrls with
  | .error err => .error err
  | .ok certConfig => names.addAltNames certConfig me.peerUrls

end HostNames

section Create

variable {Key Pub : Type}

/-- What `createKeypairs` asks of the stores in its directories. -/
inductive KeypairsReq (Key Pub : Type) where
  | writeCABundle (dir : String) (ca : CA Key Pub)
  | ensureKeypair (dir : String) (ca : CA Key Pub) (name : String) (config : Config)
  /-- `BuildTLSClientConfig`, over a store in memory -/
  | buildTLSClientConfig (ca : CA Key Pub) (name : String)

@[reducible] def keypairsSig (Key Pub : Type) : Sig := ⟨KeypairsReq Key Pub, fun _ => Option Error⟩

abbrev KeypairsM (Key Pub : Type) := Prog (keypairsSig Key Pub)

def keypairs (r : KeypairsReq Key Pub) : KeypairsM Key Pub (Option Error) := .call (S := keypairsSig Key Pub) r .ret

/-- The part of `createKeypairs` for one authority, if there is one. -/
def createKeypair (dir name : String) (config : Except Error Config) : Option (CA Key Pub) → KeypairsM Key Pub (Option Error)
  | none => return none
  | some ca => do
    match ← keypairs (.writeCABundle dir ca) with
    | some err => return some err
    | none =>
      match config with
      | .error err => return some err
      | .ok certConfig => keypairs (.ensureKeypair dir ca name certConfig)

def createKeypairs (names : HostNames) (peersCA clientsCA : Option (CA Key Pub)) (pkiDir : String) (me : EtcdNode)
    (peerClientIPs : List String) : KeypairsM Key Pub (Option Error) := do
  match ← createKeypair (EtcdServer.joinPath [pkiDir, "peers"]) "me" (names.peersConfig me peerClientIPs) peersCA with
  | some err => return some err
  | none =>
    match ← createKeypair (EtcdServer.joinPath [pkiDir, "clients"]) "server" (names.clientsConfig me) clientsCA with
    | some err => return some err
    | none =>
      match clientsCA with
      | none => return none
      | some ca => keypairs (.buildTLSClientConfig ca me.name)

end Create

/-! ## What is covered -/

namespace HostNames

variable (names : HostNames)

/-- The address that a URL has for a host. -/
def hostIP (urlString : String) : Option String :=
  match names.parseURL urlString with
  | .ok u => if u.scheme = "http" ∨ u.scheme = "https" then names.parseIP u.hostname else none
  | .error _ => none

/-- The host of a URL otherwise. -/
def hostName (urlString : String) : Option String :=
  match names.parseURL urlString with
  | .ok u => if names.hostIP urlString = none then some u.hostname else none
  | .error _ => none

def ipsOf (urls : List String) : List String := urls.filterMap names.hostIP

/-- A certificate is good for the host of a URL. -/
def Covers (certConfig : Config) (url : String) : Prop :=
  (∃ ip, names.hostIP url = some ip ∧ ip ∈ certConfig.ips) ∨
    ∃ name, names.hostName url = some name ∧ name ∈ certConfig.dnsNames

end HostNames

/-- A certificate is good for both loopback addresses. -/
def Loopbacks (certConfig : Config) : Prop := "127.0.0.1" ∈ certConfig.ips ∧ "::1" ∈ certConfig.ips

theorem mem_removeSeenIPs {ip : String} : ∀ {seen ips : List String}, ip ∈ removeSeenIPs seen ips ↔ ip ∈ ips ∧ ip ∉ seen
  | seen, [] => by simp [removeSeenIPs]
  | seen, ip' :: ips => by
    unfold removeSeenIPs
    split
    next hseen =>
      rw [mem_removeSeenIPs, List.mem_cons]
      constructor
      · intro h
        exact ⟨.inr h.1, h.2⟩
      · intro h
        obtain ⟨rfl | hmem, hnot⟩ := h
        · exact absurd hseen hnot
        · exact ⟨hmem, hnot⟩
    next hnew =>
      rw [List.mem_cons, mem_removeSeenIPs, List.mem_cons, List.mem_cons]
      by_cases heq : ip = ip'
      · subst heq
        simp [hnew]
      · simp [heq]

theorem mem_removeDuplicateIPs {ip : String} {ips : List String} : ip ∈ removeDuplicateIPs ips ↔ ip ∈ ips := by
  simp [removeDuplicateIPs, mem_removeSeenIPs]

namespace HostNames

variable {names : HostNames} {c c' : Config} {url : String} {urls : List String}

theorem Covers.mono (h : names.Covers c url) (hips : c.ips ⊆ c'.ips) (hnames : c.dnsNames ⊆ c'.dnsNames) :
    names.Covers c' url := by
  obtain ⟨ip, hip, hmem⟩ | ⟨name, hname, hmem⟩ := h
  · exact .inl ⟨ip, hip, hips hmem⟩
  · exact .inr ⟨name, hname, hnames hmem⟩

/-- A URL adds its host to the addresses or to the names. -/
theorem addURL_eq_ok (h : names.addURL c url = .ok c') :
    (∃ ip, names.hostIP url = some ip ∧ c' = { c with ips := c.ips ++ [ip] }) ∨
      names.hostIP url = none ∧ ∃ name, names.hostName url = some name ∧ c' = { c with dnsNames := c.dnsNames ++ [name] } := by
  unfold addURL at h
  cases hparse : names.parseURL url with
  | error err => simp [hparse] at h
  | ok u =>
    simp only [hparse] at h
    by_cases hhttp : u.scheme = "http" ∨ u.scheme = "https"
    · rw [if_pos hhttp] at h
      cases hip : names.parseIP u.hostname with
      | none =>
        simp only [hip] at h
        cases h
        exact .inr ⟨by simp [hostIP, hparse, hip], u.hostname, by simp [hostName, hostIP, hparse, hip], rfl⟩
      | some ip =>
        simp only [hip] at h
        cases h
        exact .inl ⟨ip, by simp [hostIP, hparse, hhttp, hip], rfl⟩
    · rw [if_neg hhttp] at h
      split at h
      · cases h
        exact .inr ⟨by simp [hostIP, hparse, hhttp], u.hostname, by simp [hostName, hostIP, hparse, hhttp], rfl⟩
      · cases h

theorem addURLs_eq_ok : ∀ {urls : List String} {c c' : Config}, names.addURLs c urls = .ok c' →
    c'.ips = c.ips ++ names.ipsOf urls ∧ c.dnsNames ⊆ c'.dnsNames ∧ ∀ url ∈ urls, names.Covers c' url
  | [], c, c', h => by
    cases h
    simp [ipsOf]
  | url :: urls, c, c', h => by
    unfold addURLs at h
    cases hurl : names.addURL c url with
    | error err => simp [hurl] at h
    | ok c₁ =>
      simp only [hurl] at h
      obtain ⟨hips, hnames, hcovers⟩ := addURLs_eq_ok h
      obtain ⟨ip, hip, rfl⟩ | ⟨hip, name, hname, rfl⟩ := addURL_eq_ok hurl
      · refine ⟨by simp [hips, ipsOf, hip], hnames, List.forall_mem_cons.2 ⟨.inl ⟨ip, hip, ?_⟩, hcovers⟩⟩
        simp [hips]
      · refine ⟨by simp [hips, ipsOf, hip], fun n hn => hnames (List.mem_append_left _ hn),
          List.forall_mem_cons.2 ⟨.inr ⟨name, hname, hnames ?_⟩, hcovers⟩⟩
        simp

/-- What is added to the addresses, if anything is. -/
theorem mem_addLoopback {ip : String} : ip ∈ (names.addLoopback c).ips ↔
    ip ∈ c.ips ∨ ("127.0.0.1" ∉ c.ips ∧ (ip = "127.0.0.1" ∨ ip = "::1")) := by
  by_cases h4 : "127.0.0.1" ∈ c.ips
  · simp [addLoopback, h4]
  · by_cases h6 : "::1" ∈ c.ips
    · have hips : (names.addLoopback c).ips = c.ips ++ ["127.0.0.1"] := by simp [addLoopback, h4, h6, names.loopback4]
      simp only [hips, List.mem_append, List.mem_singleton, h4, not_false_eq_true, true_and]
      constructor
      · intro h
        obtain h | h := h
        · exact .inl h
        · exact .inr (.inl h)
      · intro h
        obtain h | h | rfl := h
        · exact .inl h
        · exact .inr h
        · exact .inl h6
    · simp [addLoopback, h4, names.loopback4, names.loopback6, h6]

theorem dnsNames_addLoopback : (names.addLoopback c).dnsNames = c.dnsNames := by
  unfold addLoopback
  split
  · rfl
  · dsimp only
    split <;> rfl

theorem loopbacks_addLoopback : Loopbacks (names.addLoopback c) ↔ "127.0.0.1" ∉ c.ips ∨ "::1" ∈ c.ips := by
  rw [Loopbacks, mem_addLoopback, mem_addLoopback]
  by_cases h4 : "127.0.0.1" ∈ c.ips <;> simp [h4]

theorem addAltNames_eq_ok (h : names.addAltNames c urls = .ok c') :
    ∃ c₁, c₁.ips = c.ips ++ names.ipsOf urls ∧ c.dnsNames ⊆ c₁.dnsNames ∧ (∀ url ∈ urls, names.Covers c₁ url) ∧
      c' = names.addLoopback c₁ := by
  unfold addAltNames at h
  cases hurls : names.addURLs c urls with
  | error err => simp [hurls] at h
  | ok c₁ =>
    simp only [hurls] at h
    cases h
    obtain ⟨hips, hnames, hcovers⟩ := addURLs_eq_ok hurls
    exact ⟨c₁, hips, hnames, hcovers, rfl⟩

theorem Covers.addLoopback (h : names.Covers c url) : names.Covers (names.addLoopback c) url :=
  h.mono (fun _ hip => mem_addLoopback.2 (.inl hip)) (by rw [dnsNames_addLoopback]; exact List.Subset.refl _)

/-- After `addAltNames`: every host is covered, and both loopback addresses are unless `127.0.0.1` was there alone. -/
theorem addAltNames_covers (h : names.addAltNames c urls = .ok c') : (∀ url ∈ urls, names.Covers c' url) ∧
    (Loopbacks c' ↔ "127.0.0.1" ∉ c.ips ++ names.ipsOf urls ∨ "::1" ∈ c.ips ++ names.ipsOf urls) := by
  obtain ⟨c₁, hips, -, hcovers, rfl⟩ := addAltNames_eq_ok h
  rw [loopbacks_addLoopback, hips]
  exact ⟨fun url hurl => (hcovers url hurl).addLoopback, Iff.rfl⟩

variable {me : EtcdNode} {peerClientIPs : List String}

theorem peersConfig_covers (h : names.peersConfig me peerClientIPs = .ok c) : (∀ url ∈ me.peerUrls, names.Covers c url) ∧
    (Loopbacks c ↔ "127.0.0.1" ∉ peerClientIPs ++ names.ipsOf me.peerUrls ∨
      "::1" ∈ peerClientIPs ++ names.ipsOf me.peerUrls) := by
  simp only [peersConfig, List.nil_append] at h
  split at h
  · cases h
  next c₁ hadd =>
    cases h
    obtain ⟨hcovers, hloopbacks⟩ := addAltNames_covers hadd
    constructor
    · intro url hurl
      exact (hcovers url hurl).mono (fun _ hip => mem_removeDuplicateIPs.2 hip) (List.Subset.refl _)
    · rw [Loopbacks, mem_removeDuplicateIPs, mem_removeDuplicateIPs]
      exact hloopbacks

/-- The second call finds `127.0.0.1` there, and adds hosts only. -/
theorem clientsConfig_covers (h : names.clientsConfig me = .ok c) :
    (∀ url ∈ me.clientUrls ++ me.peerUrls, names.Covers c url) ∧
    (Loopbacks c ↔ "127.0.0.1" ∉ names.ipsOf me.clientUrls ∨
      "::1" ∈ names.ipsOf me.clientUrls ++ names.ipsOf me.peerUrls) := by
  simp only [clientsConfig] at h
  split at h
  · cases h
  next c₁ hadd =>
    obtain ⟨c₂, hips₂, -, hcovers₂, rfl⟩ := addAltNames_eq_ok hadd
    obtain ⟨c₃, hips₃, hnames₃, hcovers₃, rfl⟩ := addAltNames_eq_ok h
    have hgrow : (names.addLoopback c₂).ips ⊆ c₃.ips := by
      rw [hips₃]
      exact List.subset_append_left _ _
    have hfirst : "127.0.0.1" ∈ (names.addLoopback c₂).ips := by
      rw [mem_addLoopback]
      by_cases h4 : "127.0.0.1" ∈ c₂.ips <;> simp [h4]
    constructor
    · intro url hurl
      obtain hurl | hurl := List.mem_append.1 hurl
      · exact ((hcovers₂ url hurl).addLoopback.mono hgrow hnames₃).addLoopback
      · exact (hcovers₃ url hurl).addLoopback
    · have hsecond : "::1" ∈ (names.addLoopback c₂).ips ↔
          "::1" ∈ names.ipsOf me.clientUrls ∨ "127.0.0.1" ∉ names.ipsOf me.clientUrls := by
        rw [mem_addLoopback, hips₂]
        simp
      rw [loopbacks_addLoopback, hips₃, List.mem_append, List.mem_append, List.mem_append, hsecond]
      simp only [hfirst, true_or, not_true_eq_false, false_or]
      tauto

end HostNames

/-! ## Every run -/

section Runs

variable {Key Pub : Type} {names : HostNames} {me : EtcdNode} {peerClientIPs : List String}

/-- The configuration of a request for a key pair is one of the two. -/
def Configured (names : HostNames) (me : EtcdNode) (peerClientIPs : List String) (r : KeypairsReq Key Pub) : Prop :=
  ∀ dir ca name config, r = .ensureKeypair dir ca name config →
    (name = "me" ∧ names.peersConfig me peerClientIPs = .ok config) ∨
      (name = "server" ∧ names.clientsConfig me = .ok config)

theorem createKeypair_uses {dir name : String} {config : Except Error Config} {ca : Option (CA Key Pub)}
    (h : ∀ certConfig, config = .ok certConfig → (name = "me" ∧ names.peersConfig me peerClientIPs = .ok certConfig) ∨
      (name = "server" ∧ names.clientsConfig me = .ok certConfig)) :
    (createKeypair dir name config ca).Uses (S := keypairsSig Key Pub) (Configured names me peerClientIPs) True := by
  cases ca with
  | none => trivial
  | some ca =>
    refine ⟨by simp [Configured], fun x => ?_⟩
    cases x with
    | some err => trivial
    | none =>
      cases config with
      | error err => trivial
      | ok certConfig =>
        refine ⟨?_, fun _ => trivial⟩
        intro dir' ca' name' config' heq
        cases heq
        exact h certConfig rfl

theorem createKeypairs_uses {peersCA clientsCA : Option (CA Key Pub)} {pkiDir : String} :
    (createKeypairs names peersCA clientsCA pkiDir me peerClientIPs).Uses (S := keypairsSig Key Pub)
      (Configured names me peerClientIPs) True := by
  refine (createKeypair_uses fun c hc => .inl ⟨rfl, hc⟩).bind fun x => ?_
  cases x with
  | some err => trivial
  | none =>
    refine (createKeypair_uses fun c hc => .inr ⟨rfl, hc⟩).bind fun y => ?_
    cases y with
    | some err => trivial
    | none =>
      cases clientsCA with
      | none => trivial
      | some ca => exact ⟨by simp [Configured], fun _ => trivial⟩

end Runs

/-- Every host is covered by the certificate that is asked for. The loopback addresses are both covered exactly if
`127.0.0.1` was not there before, or `::1` is among the addresses of the URLs. -/
theorem loopback_covered_iff {Key Pub : Type} (names : HostNames) :
    (∀ certConfig urls certConfig', names.addAltNames certConfig urls = .ok certConfig' →
      (∀ url ∈ urls, names.Covers certConfig' url) ∧
      (Loopbacks certConfig' ↔ "127.0.0.1" ∉ certConfig.ips ++ names.ipsOf urls ∨
        "::1" ∈ certConfig.ips ++ names.ipsOf urls)) ∧
    ∀ (peersCA clientsCA : Option (CA Key Pub)) pkiDir me peerClientIPs tr p',
      Runs (createKeypairs names peersCA clientsCA pkiDir me peerClientIPs) tr p' →
      ∀ dir ca name config err, (⟨.ensureKeypair dir ca name config, err⟩ : Event (keypairsSig Key Pub)) ∈ tr →
      (name = "me" ∧ (∀ url ∈ me.peerUrls, names.Covers config url) ∧
        (Loopbacks config ↔ "127.0.0.1" ∉ peerClientIPs ++ names.ipsOf me.peerUrls ∨
          "::1" ∈ peerClientIPs ++ names.ipsOf me.peerUrls)) ∨
      (name = "server" ∧ (∀ url ∈ me.clientUrls ++ me.peerUrls, names.Covers config url) ∧
        (Loopbacks config ↔ "127.0.0.1" ∉ names.ipsOf me.clientUrls ∨
          "::1" ∈ names.ipsOf me.clientUrls ++ names.ipsOf me.peerUrls)) := by
  constructor
  · intro certConfig urls certConfig' h
    exact HostNames.addAltNames_covers h
  · intro peersCA clientsCA pkiDir me peerClientIPs tr p' hrun dir ca name config err hmem
    obtain ⟨hname, hconfig⟩ | ⟨hname, hconfig⟩ := (hrun.uses createKeypairs_uses).1 _ hmem dir ca name config rfl
    · exact .inl ⟨hname, HostNames.peersConfig_covers hconfig⟩
    · exact .inr ⟨hname, HostNames.clientsConfig_covers hconfig⟩

namespace LoopbackExample

/-- Three URLs and three addresses are all that is read. -/
def names : HostNames where
  parseURL := fun s =>
    if s = "https://127.0.0.1:4001" then .ok ⟨"https", "127.0.0.1"⟩
    else if s = "https://10.0.0.7:2380" then .ok ⟨"https", "10.0.0.7"⟩
    else if s = "https://etcd.local:2380" then .ok ⟨"https", "etcd.local"⟩
    else .error "invalid URI"
  parseIP := fun s => if s = "127.0.0.1" ∨ s = "::1" ∨ s = "10.0.0.7" then some s else none
  loopback4 := by decide
  loopback6 := by decide

def me : EtcdNode := ⟨"node-1", [], ["https://127.0.0.1:4001"], [], true⟩

def authority : CA Unit Unit := ⟨⟨⟨"ca", [], [], [], 1, 0, 0, []⟩, (), ()⟩, ()⟩

def served : Config := ⟨"node-1", [], ["node-1"], ["127.0.0.1"], [1, 2]⟩

theorem loopback_covered_hosts : ∃ certConfig',
    names.addAltNames ⟨"node-1", [], ["node-1"], [], []⟩ ["https://10.0.0.7:2380", "https://etcd.local:2380"] = .ok certConfig' ∧
    names.Covers certConfig' "https://10.0.0.7:2380" ∧ names.Covers certConfig' "https://etcd.local:2380" ∧
    Loopbacks certConfig' := by
  obtain ⟨hcovers, hloopbacks⟩ := (@loopback_covered_iff Unit Unit names).1 ⟨"node-1", [], ["node-1"], [], []⟩
    ["https://10.0.0.7:2380", "https://etcd.local:2380"] _ rfl
  exact ⟨_, rfl, hcovers _ (by simp), hcovers _ (by simp), hloopbacks.2 (.inl (by decide))⟩

/-- A certificate for a node that serves clients on `127.0.0.1` is not good for `::1`. -/
theorem loopback_left_out :
    Runs (createKeypairs names none (some authority) "/pki" me [])
      [⟨.writeCABundle "/pki/clients" authority, none⟩, ⟨.ensureKeypair "/pki/clients" authority "server" served, none⟩,
        ⟨.buildTLSClientConfig authority "node-1", none⟩] (.ret none) ∧
      ¬ Loopbacks served :=
  ⟨.step (.step (.step .refl)), by simp [Loopbacks, served]⟩

end LoopbackExample

end Etcdadm.Pki
