import Rauha.Library.Nft
import Rauha.Network.Endpoint

/-!
# The nft script of a zone

`zoneScript` is the text that `apply_zone_rules` hands to `nft`: it adds the three chains of the
zone, fills them with rules, and adds the four jumps from the base chains.  The name of the zone
stands in it without quotes, the name of its interface between quotes.

`zoneCommands` says what the text is meant to ask for.  The text is these commands written down
(`zoneScript_text`), whatever the names are, so reading it gives them back exactly if each of them
can be written down.
-/

namespace Rauha.Nftables

open Nft List

variable (std : IpText) (links : Links)

/-! ## The text -/

def zoneChainName (zoneName : String) : String := "zone-" ++ zoneName

def zoneInputChainName (zoneName : String) : String := "input-" ++ zoneName

def zoneOutputChainName (zoneName : String) : String := "output-" ++ zoneName

/-- A string as the debug format prints it. -/
def debugText (text : String) : String :=
  "\"" ++ String.ofList (text.toList.flatMap fun c =>
    if c = '"' ∨ c = '\\' then ['\\', c]
    else if c = '\n' then ['\\', 'n']
    else if c = '\t' then ['\\', 't']
    else if c = '\r' then ['\\', 'r']
    else [c]) ++ "\""

/-- Zones persisted before ports became mandatory-nonzero used `addr:0` to mean "any port". -/
def withoutLegacyPort (target : String) : String :=
  match Text.stripSuffix ":0".toList target.toList with
  | some network =>
    match NetworkEndpoint.fromStr std (String.ofList network) with
    | .ok _ => String.ofList network
    | .error _ => target
  | none => target

def parseTarget (target : String) : Except RauhaError NetworkEndpoint :=
  let target := withoutLegacyPort std target
  match NetworkEndpoint.fromStr std target with
  | .ok endpoint => .ok endpoint
  | .error error =>
    .error (.InvalidPolicy ("invalid network target " ++ debugText target ++ ": " ++ error))

def endpointText (addressMatch : String) (endpoint : NetworkEndpoint) : String :=
  endpoint.nftFamily ++ " " ++ addressMatch ++ " " ++ endpoint.network std ++
    (match endpoint.port with
      | some port => " tcp dport " ++ toString port
      | none => "") ++ " accept"

def endpointRules (addressMatch : String) (targets : List String) :
    Except RauhaError (List String) :=
  targets.mapM fun target => do
    let endpoint ← parseTarget std target
    pure (endpointText std addressMatch endpoint)

/-- The rules of an input or output chain; the two differ in the side of the address they match and
    in the list of targets. -/
def bridgeHostChainRules (addressMatch : String) (targets : List String) (mode : NetworkMode) :
    Except RauhaError (List String) :=
  if mode ≠ .Bridged then .ok ["drop"]
  else do
    let endpoints ← endpointRules std addressMatch targets
    pure (["ether type arp accept", "meta l4proto ipv6-icmp accept",
      "ct state established,related accept"] ++ endpoints ++ ["drop"])

def bridgeInputChainRules (policy : NetworkPolicy) : Except RauhaError (List String) :=
  bridgeHostChainRules std "daddr" policy.allowedEgress policy.mode

def bridgeOutputChainRules (policy : NetworkPolicy) : Except RauhaError (List String) :=
  bridgeHostChainRules std "saddr" policy.allowedIngress policy.mode

def bridgeZoneChainRules (vethName : String) (policy : NetworkPolicy) : List String :=
  if policy.mode ≠ .Bridged then ["return"]
  else
    (policy.allowedZones.flatMap fun zone =>
      let peer := links.vethHostNameFor zone
      ["iifname \"" ++ vethName ++ "\" oifname \"" ++ peer ++ "\" accept",
        "iifname \"" ++ peer ++ "\" oifname \"" ++ vethName ++ "\" accept"]) ++ ["return"]

/-- The script with a line for each rule of a chain. -/
def pushRules (chainName : String) (rules : List String) (script : String) : String :=
  rules.foldl
    (fun script rule => script ++ ("add rule bridge rauha " ++ chainName ++ " " ++ rule ++ "\n"))
    script

/-- What `apply_zone_rules` hands to `nft`; a zone in host mode has no rules. -/
def zoneScript (zoneName vethName : String) (policy : NetworkPolicy) :
    Except RauhaError (Option String) := do
  let bridgeRules := bridgeZoneChainRules links vethName policy
  let bridgeInputRules ← bridgeInputChainRules std policy
  let bridgeOutputRules ← bridgeOutputChainRules std policy
  if policy.mode = .Host then pure none
  else
    let chainName := zoneChainName zoneName
    let inputChainName := zoneInputChainName zoneName
    let outputChainName := zoneOutputChainName zoneName
    let script := "add chain bridge rauha " ++ chainName ++ "\n" ++
      "add chain bridge rauha " ++ inputChainName ++ "\n" ++
      "add chain bridge rauha " ++ outputChainName ++ "\n"
    let script := pushRules chainName bridgeRules script
    let script := pushRules inputChainName bridgeInputRules script
    let script := pushRules outputChainName bridgeOutputRules script
    pure (some (script ++
      "add rule bridge rauha forward iifname \"" ++ vethName ++ "\" jump " ++ chainName ++ "\n" ++
      "add rule bridge rauha forward oifname \"" ++ vethName ++ "\" jump " ++ chainName ++ "\n" ++
      "add rule bridge rauha input iifname \"" ++ vethName ++ "\" jump " ++ inputChainName ++
      "\n" ++
      "add rule bridge rauha output oifname \"" ++ vethName ++ "\" jump " ++ outputChainName ++
        "\n"))

/-! ## The commands it is meant to be -/

/-- A chain of the bridge table. -/
def bridge (chain : String) : ChainRef := ⟨"bridge", "rauha", chain⟩

def endpointRule (side : Side) (endpoint : NetworkEndpoint) : Rule where
  guards := .address (if endpoint.address.isIpv4 then .ip else .ip6) side (endpoint.network std) ::
    (endpoint.port.map fun port => .tcpDport (toString port)).toList
  verdict := .accept

/-- The endpoints of a list of targets, if all of them parse. -/
def endpoints (targets : List String) : Except RauhaError (List NetworkEndpoint) :=
  targets.mapM (parseTarget std)

/-- The rules of an input or output chain that lets some endpoints through. -/
def hostRules (side : Side) : NetworkMode → List NetworkEndpoint → List Rule
  | .Bridged, allowed =>
    [⟨[.etherType "arp"], .accept⟩, ⟨[.l4proto "ipv6-icmp"], .accept⟩,
      ⟨[.ctState "established,related"], .accept⟩] ++
      allowed.map (endpointRule std side) ++ [⟨[], .drop⟩]
  | _, _ => [⟨[], .drop⟩]

/-- Both directions between a zone and a peer. -/
def peerRules (vethName peer : String) : List Rule :=
  [⟨[.iifname vethName, .oifname peer], .accept⟩, ⟨[.iifname peer, .oifname vethName], .accept⟩]

def zoneRules (vethName : String) (policy : NetworkPolicy) : List Rule :=
  match policy.mode with
  | .Bridged =>
    (policy.allowedZones.flatMap fun zone => peerRules vethName (links.vethHostNameFor zone)) ++
      [⟨[], .ret⟩]
  | _ => [⟨[], .ret⟩]

/-- The jumps into the chains of a zone, by base chain. -/
def zoneJumps (zoneName vethName : String) : List (String × Rule) :=
  [("forward", ⟨[.iifname vethName], .jump (zoneChainName zoneName)⟩),
    ("forward", ⟨[.oifname vethName], .jump (zoneChainName zoneName)⟩),
    ("input", ⟨[.iifname vethName], .jump (zoneInputChainName zoneName)⟩),
    ("output", ⟨[.oifname vethName], .jump (zoneOutputChainName zoneName)⟩)]

/-- **What the script of a zone asks for**: the three chains, the rules in them, and the four jumps
    for the zone's interface. -/
def zoneCommands (zoneName vethName : String) (policy : NetworkPolicy)
    (egress ingress : List NetworkEndpoint) : List Command :=
  [zoneChainName zoneName, zoneInputChainName zoneName, zoneOutputChainName zoneName].map
    (fun chain => .addChain (bridge chain)) ++
  (zoneRules links vethName policy).map (.addRule (bridge (zoneChainName zoneName))) ++
  (hostRules std .daddr policy.mode egress).map (.addRule (bridge (zoneInputChainName zoneName))) ++
  (hostRules std .saddr policy.mode ingress).map
    (.addRule (bridge (zoneOutputChainName zoneName))) ++
  (zoneJumps zoneName vethName).map fun jump => .addRule (bridge jump.1) jump.2

/-! ## The text is the commands written down -/

attribute [local simp] Rule.tokens Match.tokens Verdict.tokens unwords Token.spaced Token.text

lemma Rule.tokens_ne_nil (r : Rule) : r.tokens ≠ [] := by
  obtain ⟨guards, verdict⟩ := r
  cases verdict <;> simp

lemma line_addChain (chain : String) :
    Command.line (.addChain (bridge chain)) =
      "add chain bridge rauha ".toList ++ chain.toList ++ ['\n'] := by
  simp [Command.line, Command.tokens, ChainRef.tokens, bridge]

lemma line_addRule (chain : String) (r : Rule) :
    Command.line (.addRule (bridge chain) r) =
      "add rule bridge rauha ".toList ++ chain.toList ++ ' ' :: unwords r.tokens ++ ['\n'] := by
  have htokens : (Command.addRule (bridge chain) r).tokens =
      [.word "add", .word "rule", .word "bridge", .word "rauha", .word chain] ++ r.tokens := rfl
  have hrule : r.tokens.flatMap Token.spaced = ' ' :: unwords r.tokens := by
    cases htokens : r.tokens with
    | nil => exact absurd htokens (Rule.tokens_ne_nil r)
    | cons t ts =>
      have ht : t ≠ .semi := by
        rintro rfl
        exact r.tokens_plain .semi (htokens ▸ mem_cons_self)
      simp [ht]
  rw [Command.line, htokens, unwords_append (by simp), hrule]
  simp

lemma line_jump (base vethName chain : String) :
    Command.line (.addRule (bridge base) ⟨[.iifname vethName], .jump chain⟩) =
      ("add rule bridge rauha " ++ base ++ " iifname \"" ++ vethName ++ "\" jump " ++ chain ++
        "\n").toList ∧
    Command.line (.addRule (bridge base) ⟨[.oifname vethName], .jump chain⟩) =
      ("add rule bridge rauha " ++ base ++ " oifname \"" ++ vethName ++ "\" jump " ++ chain ++
        "\n").toList := by
  rw [line_addRule, line_addRule]
  simp

/-- The texts of some rules. -/
def Writes (texts : List String) (rules : List Rule) : Prop :=
  texts.map String.toList = rules.map fun r => unwords r.tokens

lemma Writes.append {texts texts' : List String} {rules rules' : List Rule}
    (h : Writes texts rules) (h' : Writes texts' rules') :
    Writes (texts ++ texts') (rules ++ rules') := by
  unfold Writes
  rw [map_append, map_append, h, h']

lemma writes_flatMap {α : Type} {xs : List α} {f : α → List String} {g : α → List Rule}
    (h : ∀ x ∈ xs, Writes (f x) (g x)) : Writes (xs.flatMap f) (xs.flatMap g) := by
  induction xs with
  | nil => rfl
  | cons x xs ih =>
    obtain ⟨hx, hxs⟩ := forall_mem_cons.mp h
    exact hx.append (ih hxs)

lemma pushRules_toList {chain : String} {rules : List Rule} (h : Writes texts rules)
    (script : String) :
    (pushRules chain texts script).toList =
      script.toList ++ render (rules.map (.addRule (bridge chain))) := by
  induction texts generalizing rules script with
  | nil =>
    have hnil : rules = [] := map_eq_nil_iff.mp h.symm
    simp [pushRules, hnil, render]
  | cons text texts ih =>
    cases rules with
    | nil => simp [Writes] at h
    | cons r rules =>
      obtain ⟨htext, htexts⟩ := List.cons.inj h
      have hrest := ih htexts
        (script ++ ("add rule bridge rauha " ++ chain ++ " " ++ text ++ "\n"))
      rw [show pushRules chain (text :: texts) script = pushRules chain texts
        (script ++ ("add rule bridge rauha " ++ chain ++ " " ++ text ++ "\n")) from rfl, hrest]
      simp [render, line_addRule, htext]

variable {policy : NetworkPolicy} {vethName : String} {texts targets : List String}
  {egress ingress : List NetworkEndpoint}

variable {std links}

lemma writes_zoneRules (vethName : String) (policy : NetworkPolicy) :
    Writes (bridgeZoneChainRules links vethName policy) (zoneRules links vethName policy) := by
  unfold bridgeZoneChainRules zoneRules
  cases policy.mode with
  | Isolated => simp [Writes]
  | Host => simp [Writes]
  | Bridged =>
    refine .append (writes_flatMap fun zone _ => ?_) ?_
    · simp [Writes, peerRules]
    · simp [Writes]

lemma endpointText_toList (side : Side) (e : NetworkEndpoint) :
    (endpointText std side.text e).toList = unwords (endpointRule std side e).tokens := by
  obtain ⟨address, prefixLen, port⟩ := e
  cases address <;> cases port <;>
    simp [endpointText, endpointRule, NetworkEndpoint.nftFamily, IpAddr.isIpv4, IpFamily.text]

lemma endpointRules_eq (addressMatch : String) (targets : List String) :
    endpointRules std addressMatch targets =
      (endpoints std targets).map (List.map (endpointText std addressMatch)) := by
  unfold endpointRules endpoints
  induction targets with
  | nil => rfl
  | cons target targets ih =>
    rw [mapM_cons, mapM_cons, ih]
    cases parseTarget std target with
    | error e => rfl
    | ok endpoint => cases targets.mapM (parseTarget std) <;> rfl

/-- Targets are read in bridged mode only. -/
lemma bridgeHostChainRules_eq (side : Side) (mode : NetworkMode) {allowed : List NetworkEndpoint}
    (h : mode = .Bridged → endpoints std targets = .ok allowed) :
    ∃ texts, bridgeHostChainRules std side.text targets mode = .ok texts ∧
      Writes texts (hostRules std side mode allowed) := by
  have hdrop : Writes ["drop"] [⟨[], .drop⟩] := by
    simp [Writes]
  unfold bridgeHostChainRules
  cases mode with
  | Isolated => exact ⟨_, rfl, hdrop⟩
  | Host => exact ⟨_, rfl, hdrop⟩
  | Bridged =>
    rw [endpointRules_eq, h rfl]
    refine ⟨_, rfl, Writes.append (Writes.append ?_ ?_) hdrop⟩
    · simp [Writes]
    · simp only [Writes, map_map]
      exact map_congr_left fun e _ => endpointText_toList side e

lemma writes_hostRules {side : Side} {mode : NetworkMode}
    (h : bridgeHostChainRules std side.text targets mode = .ok texts) :
    ∃ allowed, Writes texts (hostRules std side mode allowed) := by
  have hallowed : ∃ allowed, mode = .Bridged → endpoints std targets = .ok allowed := by
    cases hall : endpoints std targets with
    | ok allowed => exact ⟨allowed, fun _ => rfl⟩
    | error e =>
      refine ⟨[], ?_⟩
      rintro rfl
      rw [bridgeHostChainRules, endpointRules_eq, hall] at h
      cases h
  obtain ⟨allowed, hallowed⟩ := hallowed
  obtain ⟨texts', htexts, hwrites⟩ := bridgeHostChainRules_eq side mode hallowed
  rw [h] at htexts
  exact ⟨allowed, Except.ok.inj htexts ▸ hwrites⟩

/-- The script around the rules. -/
lemma script_toList (zoneName vethName : String) {inputs outputs : List String}
    (hin : bridgeInputChainRules std policy = .ok inputs)
    (hwin : Writes inputs (hostRules std .daddr policy.mode egress))
    (hout : bridgeOutputChainRules std policy = .ok outputs)
    (hwout : Writes outputs (hostRules std .saddr policy.mode ingress))
    (hmode : policy.mode ≠ .Host) :
    ∃ script, zoneScript std links zoneName vethName policy = .ok (some script) ∧
      script.toList = render (zoneCommands std links zoneName vethName policy egress ingress) := by
  unfold zoneScript
  rw [hin, hout]
  simp only [bind, Except.bind, if_neg hmode]
  refine ⟨_, rfl, ?_⟩
  have hforward : "add rule bridge rauha forward iifname \"" =
      "add rule bridge rauha " ++ "forward" ++ " iifname \"" := rfl
  have hforward' : "add rule bridge rauha forward oifname \"" =
      "add rule bridge rauha " ++ "forward" ++ " oifname \"" := rfl
  have hinput : "add rule bridge rauha input iifname \"" =
      "add rule bridge rauha " ++ "input" ++ " iifname \"" := rfl
  have houtput : "add rule bridge rauha output oifname \"" =
      "add rule bridge rauha " ++ "output" ++ " oifname \"" := rfl
  have hbreak : "\n".toList = ['\n'] := rfl
  simp only [hforward, hforward', hinput, houtput, hbreak, String.toList_append,
    pushRules_toList hwout, pushRules_toList hwin,
    pushRules_toList (writes_zoneRules vethName policy), zoneCommands, zoneJumps, render,
    flatMap_append, map_cons, map_nil, flatMap_cons, flatMap_nil,
    line_addChain, line_jump, append_assoc, append_nil]

/-- **The script is its commands written down**, whatever the names in it are. -/
lemma zoneScript_text (zoneName vethName : String) {policy : NetworkPolicy}
    {egress ingress : List NetworkEndpoint} (he : endpoints std policy.allowedEgress = .ok egress)
    (hi : endpoints std policy.allowedIngress = .ok ingress) (hmode : policy.mode ≠ .Host) :
    ∃ script, zoneScript std links zoneName vethName policy = .ok (some script) ∧
      script.toList = render (zoneCommands std links zoneName vethName policy egress ingress) := by
  obtain ⟨inputs, hinputs, hwin⟩ := bridgeHostChainRules_eq .daddr policy.mode fun _ => he
  obtain ⟨outputs, houtputs, hwout⟩ := bridgeHostChainRules_eq .saddr policy.mode fun _ => hi
  exact script_toList zoneName vethName hinputs hwin houtputs hwout hmode

/-- A script is fed only in the modes that have rules, and then it is the zone's commands for some
    endpoints. -/
lemma zoneScript_ok {zoneName vethName script : String}
    (h : zoneScript std links zoneName vethName policy = .ok (some script)) :
    ∃ egress ingress,
      script.toList = render (zoneCommands std links zoneName vethName policy egress ingress) := by
  cases hin : bridgeInputChainRules std policy with
  | error e => simp [zoneScript, hin, bind, Except.bind] at h
  | ok inputs =>
    cases hout : bridgeOutputChainRules std policy with
    | error e => simp [zoneScript, hin, hout, bind, Except.bind] at h
    | ok outputs =>
      by_cases hmode : policy.mode = .Host
      · simp [zoneScript, hin, hout, hmode, bind, Except.bind, pure, Except.pure] at h
      · have hdaddr : bridgeHostChainRules std Side.daddr.text policy.allowedEgress policy.mode =
            .ok inputs := hin
        have hsaddr : bridgeHostChainRules std Side.saddr.text policy.allowedIngress
            policy.mode = .ok outputs := hout
        obtain ⟨egress, hwin⟩ := writes_hostRules hdaddr
        obtain ⟨ingress, hwout⟩ := writes_hostRules hsaddr
        obtain ⟨script', hscript, htext⟩ :=
          script_toList zoneName vethName hin hwin hout hwout hmode
        rw [h] at hscript
        cases hscript
        exact ⟨egress, ingress, htext⟩

/-! ## When the commands can be written down -/

/-- A name that may follow an identifier: letters, digits and `_`, `-`, `.`, `/`. -/
def Plain (name : String) : Prop := ∀ c ∈ name.toList, isIdentChar c = true

/-- A name that may stand between quotes. -/
def Quotable (name : String) : Prop := (Token.quoted name).Clean

instance (name : String) : Decidable (Plain name) :=
  List.decidableBAll (isIdentChar · = true) name.toList

instance (name : String) : Decidable (Quotable name) :=
  inferInstanceAs (Decidable (Token.quoted name).Clean)

/-- The words the rules and the commands are made of. -/
lemma words_clean : ∀ w ∈ ["iifname", "oifname", "ether", "type", "arp", "meta", "l4proto",
    "ipv6-icmp", "ct", "state", "established,related", "ip", "ip6", "saddr", "daddr", "tcp",
    "dport", "accept", "drop", "return", "jump", "bridge", "rauha", "delete", "flush", "rule",
    "chain", "handle"], (Token.word w).Clean := by
  decide

lemma digits_wordChar {n : ℕ} {c : Char} (h : c ∈ (toString n).toList) : isWordChar c = true := by
  rw [Nat.toString_eq_repr, Nat.toList_repr] at h
  have hdigit : c.isDigit = true := Nat.isDigit_of_mem_toDigits (by omega) (le_refl _) h
  simp [isWordChar, Char.isAlphanum, hdigit]

lemma repr_clean (n : ℕ) : (Token.word n.repr).Clean := by
  refine ⟨fun hempty => ?_, fun c hc => digits_wordChar hc⟩
  have hnil : n.repr.toList = [] := by rw [hempty]; rfl
  rw [Nat.toList_repr] at hnil
  exact Nat.toDigits_ne_nil hnil

lemma network_clean (e : NetworkEndpoint) : (Token.word (e.network std)).Clean := by
  have hchars : ∀ c ∈ (e.network std).toList, isWordChar c = true := by
    intro c hc
    simp only [NetworkEndpoint.network, String.toList_append, mem_append] at hc
    rcases hc with (hc | hc) | hc
    · have hdisplay := std.display_chars e.address c hc
      simp only [Bool.or_eq_true, beq_iff_eq] at hdisplay
      rcases hdisplay with (h | rfl) | rfl
      · simp [isWordChar, h]
      · decide
      · decide
    · rw [mem_singleton.mp hc]; decide
    · exact digits_wordChar hc
  refine ⟨fun hempty => ?_, hchars⟩
  have hnil : (e.network std).toList = [] := by rw [hempty]; rfl
  simp [NetworkEndpoint.network] at hnil

lemma ret_sound : Rule.Sound ⟨[], .ret⟩ := ⟨trivial, by decide⟩

lemma drop_sound : Rule.Sound ⟨[], .drop⟩ := ⟨trivial, by decide⟩

lemma peerRules_sound {vethName peer : String} :
    (∀ r ∈ peerRules vethName peer, r.Sound) ↔ Quotable vethName ∧ Quotable peer := by
  constructor
  · intro h
    have hr := h _ (mem_cons_self ..)
    exact ⟨hr.2 _ (by simp), hr.2 _ (by simp)⟩
  · rintro ⟨hveth, hpeer⟩ r hr
    have hveth : (Token.quoted vethName).Clean := hveth
    have hpeer : (Token.quoted peer).Clean := hpeer
    rcases mem_pair.mp hr with rfl | rfl
    all_goals
      refine ⟨trivial, ?_⟩
      simp [words_clean, hveth, hpeer]

lemma hostRules_sound (side : Side) (mode : NetworkMode) (allowed : List NetworkEndpoint) :
    ∀ r ∈ hostRules std side mode allowed, r.Sound := by
  cases mode with
  | Isolated => simpa [hostRules] using drop_sound
  | Host => simpa [hostRules] using drop_sound
  | Bridged =>
    intro r hr
    simp only [hostRules, mem_append, mem_cons, not_mem_nil, or_false, mem_map] at hr
    rcases hr with ((rfl | rfl | rfl) | ⟨e, -, rfl⟩) | rfl
    · exact ⟨trivial, by decide⟩
    · exact ⟨trivial, by decide⟩
    · exact ⟨trivial, by decide⟩
    · refine ⟨trivial, ?_⟩
      obtain ⟨address, prefixLen, port⟩ := e
      cases address <;> cases side <;> cases port <;>
        simp [endpointRule, IpAddr.isIpv4, IpFamily.text, Side.text, words_clean, network_clean,
          repr_clean]
    · exact drop_sound

lemma jump_sound {vethName chain : String} {m : String → Match} (hm : m = .iifname ∨ m = .oifname) :
    Rule.Sound ⟨[m vethName], .jump chain⟩ ↔ Quotable vethName ∧ isIdentifier chain = true := by
  rcases hm with rfl | rfl
  all_goals
    constructor
    · rintro ⟨hnamed, htokens⟩
      exact ⟨htokens _ (by simp), hnamed⟩
    · rintro ⟨hveth, hchain⟩
      have hveth : (Token.quoted vethName).Clean := hveth
      refine ⟨hchain, ?_⟩
      simp [words_clean, clean_of_isIdentifier hchain, hveth]

/-- The interfaces of the zones a policy lets the zone talk to. -/
def peers (links : Links) (policy : NetworkPolicy) : List String :=
  match policy.mode with
  | .Bridged => policy.allowedZones.map links.vethHostNameFor
  | _ => []

lemma zoneRules_sound (hveth : Quotable vethName) :
    (∀ r ∈ zoneRules links vethName policy, r.Sound) ↔
      ∀ peer ∈ peers links policy, Quotable peer := by
  unfold zoneRules peers
  cases policy.mode with
  | Isolated => simpa using ret_sound
  | Host => simpa using ret_sound
  | Bridged =>
    simp only [forall_mem_append, forall_mem_singleton, and_iff_left ret_sound,
      forall_mem_map, mem_flatMap, forall_exists_index, and_imp]
    constructor
    · intro h zone hzone
      exact (peerRules_sound.mp fun r hr => h r zone hzone hr).2
    · intro h r zone hzone hr
      exact peerRules_sound.mpr ⟨hveth, h zone hzone⟩ r hr

/-- **The commands of a zone can be written down** exactly if its name is plain and the names of
    the interfaces can stand between quotes. -/
lemma zoneCommands_sound {zoneName vethName : String} :
    (∀ cmd ∈ zoneCommands std links zoneName vethName policy egress ingress, cmd.Sound) ↔
      Plain zoneName ∧ Quotable vethName ∧ ∀ peer ∈ peers links policy, Quotable peer := by
  have hbridge : (Token.word "bridge").Clean := words_clean _ (by simp)
  have hrauha : (Token.word "rauha").Clean := words_clean _ (by simp)
  have hzone : isIdentifier (zoneChainName zoneName) = true ↔ Plain zoneName :=
    isIdentifier_append (by decide)
  have hinput : isIdentifier (zoneInputChainName zoneName) = true ↔ Plain zoneName :=
    isIdentifier_append (by decide)
  have houtput : isIdentifier (zoneOutputChainName zoneName) = true ↔ Plain zoneName :=
    isIdentifier_append (by decide)
  have hbase : isIdentifier "forward" = true ∧ isIdentifier "input" = true ∧
      isIdentifier "output" = true := by decide
  simp only [zoneCommands, zoneJumps, bridge, forall_mem_append, forall_mem_map,
    forall_mem_cons, not_mem_nil, false_imp_iff, implies_true, and_true,
    addChain_sound hbridge hrauha, addRule_sound hbridge hrauha, hzone, hinput, houtput,
    jump_sound (Or.inl rfl), jump_sound (Or.inr rfl)]
  constructor
  · rintro ⟨⟨⟨⟨⟨hname, -⟩, hrules⟩, -⟩, -⟩, ⟨-, hveth, -⟩, -⟩
    exact ⟨hname, hveth, (zoneRules_sound hveth).mp fun r hr => (hrules r hr).2⟩
  · rintro ⟨hname, hveth, hpeers⟩
    refine ⟨⟨⟨⟨⟨hname, hname, hname⟩, fun r hr => ⟨hname, (zoneRules_sound hveth).mpr hpeers r hr⟩⟩,
      fun r hr => ⟨hname, hostRules_sound _ _ _ r hr⟩⟩,
      fun r hr => ⟨hname, hostRules_sound _ _ _ r hr⟩⟩, ?_⟩
    exact ⟨⟨hbase.1, hveth, hname⟩, ⟨hbase.1, hveth, hname⟩, ⟨hbase.2.1, hveth, hname⟩,
      hbase.2.2, hveth, hname⟩

/-- **What `nft` is asked to do for a zone.**  Host mode asks for nothing.  In the other modes the
    script reads, line by line, as the three chains of the zone, their rules and the four jumps for
    its interface, and as nothing else, exactly if the zone's name is plain and no interface name
    in it holds a quote or a line break. -/
theorem zone_script_reads_as_meant (zoneName vethName : String) {policy : NetworkPolicy}
    {egress ingress : List NetworkEndpoint} (he : endpoints std policy.allowedEgress = .ok egress)
    (hi : endpoints std policy.allowedIngress = .ok ingress) :
    (policy.mode = .Host → zoneScript std links zoneName vethName policy = .ok none) ∧
    (policy.mode ≠ .Host → ∃ script,
      zoneScript std links zoneName vethName policy = .ok (some script) ∧
      (readScript script = some (zoneCommands std links zoneName vethName policy egress ingress) ↔
        Plain zoneName ∧ Quotable vethName ∧ ∀ peer ∈ peers links policy, Quotable peer)) := by
  constructor
  · intro hmode
    simp [zoneScript, bridgeInputChainRules, bridgeOutputChainRules, bridgeHostChainRules, hmode,
      bind, Except.bind, pure, Except.pure]
  · intro hmode
    obtain ⟨script, hscript, htext⟩ := zoneScript_text zoneName vethName he hi hmode
    exact ⟨script, hscript, (readScript_render_iff htext).trans zoneCommands_sound⟩

/-! ### Two zones and a few names -/

/-- A host on which every address is printed as one, and one address is read. -/
def sampleText : IpText where
  parse text := if text = "10.0.0.0".toList then some (.V4 0x0A000000#32) else none
  display _ := "10.0.0.0"
  display_chars _ := List.all_eq_true.mp (by decide)

/-- Every zone has the same digest, and no interface exists. -/
def sampleLinks : Links where
  digest _ := [0x00, 0x11, 0x22, 0x33, 0x44, 0x55]
  linkExists _ := false

def isolatedNetwork : NetworkPolicy where
  mode := .Isolated
  allowedZones := []
  allowedEgress := []
  allowedIngress := []

/-- A peer, and one network that may be reached on one port. -/
def bridgedNetwork : NetworkPolicy where
  mode := .Bridged
  allowedZones := ["db"]
  allowedEgress := ["10.0.0.0/8:443"]
  allowedIngress := ["10.0.0.0/8:0"]

lemma bridgedNetwork_endpoints :
    endpoints sampleText bridgedNetwork.allowedEgress = .ok [⟨.V4 0x0A000000#32, 8, some 443⟩] ∧
    endpoints sampleText bridgedNetwork.allowedIngress = .ok [⟨.V4 0x0A000000#32, 8, none⟩] := by
  decide +kernel

theorem zone_script_reads_as_meant_web :
    ∃ script, zoneScript sampleText sampleLinks "web" "veth5566778899" bridgedNetwork =
      .ok (some script) ∧
      readScript script = some (zoneCommands sampleText sampleLinks "web" "veth5566778899"
        bridgedNetwork [⟨.V4 0x0A000000#32, 8, some 443⟩] [⟨.V4 0x0A000000#32, 8, none⟩]) := by
  obtain ⟨script, hscript, hread⟩ := (zone_script_reads_as_meant "web" "veth5566778899"
    bridgedNetwork_endpoints.1 bridgedNetwork_endpoints.2).2 (by decide)
  exact ⟨script, hscript, hread.mpr (by decide +kernel)⟩

/-- **Names steer the script.**  `x`, a line break and `flush ruleset` are an accepted name, with
    which the script has a line that empties the ruleset.  `a` with a blank after it is another,
    with which the script sets up the zone `a`. -/
theorem zone_name_steers_script :
    (validateZoneName "x\nflush ruleset" = .ok () ∧ ∃ script,
      zoneScript sampleText sampleLinks "x\nflush ruleset" "veth0011223344" isolatedNetwork =
        .ok (some script) ∧
      readScript script ≠ some (zoneCommands sampleText sampleLinks "x\nflush ruleset"
        "veth0011223344" isolatedNetwork [] []) ∧
      ∃ line ∈ Lines.splitLines '\n' script.toList, readLine line = some [.flushRuleset]) ∧
    (validateZoneName "a " = .ok () ∧ ∃ script,
      zoneScript sampleText sampleLinks "a " "veth0011223344" isolatedNetwork = .ok (some script) ∧
      readScript script = some (zoneCommands sampleText sampleLinks "a" "veth0011223344"
        isolatedNetwork [] [])) := by
  have hnone : endpoints sampleText isolatedNetwork.allowedEgress = .ok [] := rfl
  have hnone' : endpoints sampleText isolatedNetwork.allowedIngress = .ok [] := rfl
  have htext := fun zoneName : String => @zoneScript_text sampleText sampleLinks zoneName
    "veth0011223344" isolatedNetwork [] [] hnone hnone' (by decide)
  constructor
  · obtain ⟨script, hscript, htext⟩ := htext "x\nflush ruleset"
    refine ⟨by decide +kernel, script, hscript, fun hread => ?_, ?_⟩
    · have hplain := (zoneCommands_sound.mp ((readScript_render_iff htext).mp hread)).1
      exact absurd hplain (by decide +kernel)
    · rw [htext]
      decide +kernel
  · obtain ⟨script, hscript, htext⟩ := htext "a "
    refine ⟨by decide +kernel, script, hscript, ?_⟩
    unfold readScript
    rw [htext]
    decide +kernel

end Rauha.Nftables
