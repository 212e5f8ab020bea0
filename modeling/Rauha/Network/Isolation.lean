import Rauha.Library.Transition
import Rauha.Network.Firewall

/-!
# Who can talk across the bridge

Frames between two zones pass the forward hook of the bridge.  The verdict comes from the forward
chain, which jumps into the chain of the zone a frame comes from and into the chain of the zone it
goes to, so either of the two policies can let it through.

`forward_accepts` says so for every state the daemon reaches by applying policies: an accepted frame
goes between a zone and a peer **that zone** lists.  A zone in isolated mode lists nobody, but
nothing keeps others from listing it.
-/

namespace Rauha.Nftables

open Nft Transition List Function

variable (std : IpText)

/-! ## Applying policies -/

/-- **A policy as it is applied**, with the interfaces that there are at that moment: those of the
    zone and of its peers are looked up when the rules are written. -/
structure Applied where
  links : Links
  policy : NetworkPolicy

/-- The interface of the zone. -/
def Applied.interface (a : Applied) (zone : String) : String := a.links.vethHostNameFor zone

/-- The interfaces of the zones that the policy lists. -/
def Applied.peers (a : Applied) : List String := Nftables.peers a.links a.policy

/-- The ruleset of the host and what was last applied to each zone. -/
structure Net where
  ruleset : Ruleset
  applied : String → Option Applied

def Net.start : Net where
  ruleset := baseRuleset
  applied _ := none

/-- A policy for a zone, as the backend applies it. -/
def Net.apply (net : Net) (event : String × Applied) : Net :=
  match applyZoneRules std event.2.links event.1 (event.2.interface event.1) event.2.policy
      net.ruleset with
  | (.ok (), R) => ⟨R, Function.update net.applied event.1 (some event.2)⟩
  | (.error _, R) => ⟨R, net.applied⟩

/-- Both interfaces of a frame are those of two zones, in one direction or the other. -/
def Between (p : Packet) (v w : String) : Prop := (p.iif = v ∧ p.oif = w) ∨ (p.iif = w ∧ p.oif = v)

/-- **Isolated means isolated.**  No frame between the interface that an isolated zone has and that
    of another zone is accepted by the forward hook. -/
def Isolates (links : Links) (net : Net) : Prop :=
  ∀ zone other a b, zone ≠ other → net.applied zone = some a → a.policy.mode = .Isolated →
    net.applied other = some b →
    ∀ p, Between p (links.vethHostNameFor zone) (links.vethHostNameFor other) →
      net.ruleset.accepts (bridge "forward") p = false

/-- Each zone has the interface that its rules were written for. -/
def Net.Current (links : Links) (net : Net) : Prop :=
  ∀ zone a, net.applied zone = some a → links.vethHostNameFor zone = a.interface zone

/-! ## What the forward hook accepts -/

/-- **The state of the table**: every rule of the forward chain jumps to the chain of a zone, and
    every rule in the chain of a zone comes from the policy applied to it. -/
structure Net.Ordered (net : Net) : Prop where
  managed : Managed net.ruleset
  ready : Ready net.ruleset
  jumps : ∀ r ∈ net.ruleset.rules (bridge "forward"), ∃ zone, r.verdict = .jump (zoneChainName zone)
  zones : ∀ zone, ∀ r ∈ net.ruleset.rules (bridge (zoneChainName zone)),
    ∃ a, net.applied zone = some a ∧ r ∈ zoneRules a.links (a.interface zone) a.policy

variable {std}

variable {net : Net} {links : Links} {policy : NetworkPolicy} {zone vethName : String} {p : Packet}
  {R : Ruleset} {a : Applied}

attribute [local simp] Rule.applies Match.holds

lemma peerRules_applies {vethName peer : String} {r : Rule} (hr : r ∈ peerRules vethName peer)
    (h : r.applies p = true) : Between p vethName peer := by
  rcases mem_pair.mp hr with rfl | rfl
  · left
    simpa using h
  · right
    simpa using h

/-- **An accepted frame goes between a zone and a peer that it lists.** -/
lemma Net.Ordered.forward_accepts (h : net.Ordered)
    (hp : net.ruleset.accepts (bridge "forward") p = true) :
    ∃ zone a, net.applied zone = some a ∧
      ∃ peer ∈ a.peers, Between p (a.interface zone) peer := by
  have hforward : IsBase "forward" := by simp [IsBase]
  obtain ⟨ch, hch⟩ := Option.isSome_iff_exists.mp (h.ready.base _ hforward)
  have haccept : net.ruleset.runChain p "bridge" "rauha" 16 "forward" = .accept := by
    unfold Ruleset.accepts at hp
    simp only [hch, h.managed.base _ hforward ch hch] at hp
    cases hrun : net.ruleset.runChain p (bridge "forward").family (bridge "forward").table 16
        (bridge "forward").chain with
    | accept => exact hrun
    | drop => rw [hrun] at hp; cases hp
    | next => rw [hrun] at hp; simp at hp
  obtain ⟨r, hr, -, hverdict⟩ := evalRules_accept haccept
  obtain ⟨zone, hjump⟩ := h.jumps r hr
  rcases hverdict with hverdict | ⟨chain, hverdict, henter⟩
  · rw [hjump] at hverdict; cases hverdict
  · rw [hjump] at hverdict
    cases hverdict
    obtain ⟨r', hr', happlies, hverdict'⟩ := evalRules_accept henter
    obtain ⟨a, ha, hmem⟩ := h.zones zone r' hr'
    rcases mem_zoneRules.mp hmem with ⟨peer, hpeer, hrule⟩ | rfl
    · exact ⟨zone, a, ha, peer, hpeer, peerRules_applies hrule happlies⟩
    · rcases hverdict' with hret | ⟨chain, hret, -⟩ <;> cases hret

/-! ## Interfaces of plainly named zones -/

lemma hexByte_identChar (b : UInt8) : ∀ c ∈ hexByte b, isIdentChar c = true := by
  have hdigit : ∀ n < 16, isIdentChar (Nat.digitChar n) = true := by decide
  have hb : b.toNat < 256 := b.toNat_lt
  intro c hc
  rcases mem_pair.mp hc with rfl | rfl
  · exact hdigit _ (by omega)
  · exact hdigit _ (by omega)

lemma takeBytes_mem {n : ℕ} {text start : List Char} (h : takeBytes n text = some start) :
    ∀ c ∈ start, c ∈ text := by
  induction text generalizing n start with
  | nil => cases n <;> cases h <;> simp
  | cons d text ih =>
    cases n with
    | zero => cases h; simp
    | succ n =>
      rw [takeBytes] at h
      split_ifs at h
      obtain ⟨rest, hrest, rfl⟩ := Option.map_eq_some_iff.mp h
      refine forall_mem_cons.mpr ⟨by simp, fun c hc => ?_⟩
      exact mem_cons_of_mem d (ih hrest c hc)

lemma vethHostNameFor_plain {zoneName : String} (h : Plain zoneName) :
    Plain (links.vethHostNameFor zoneName) := by
  have hcurrent : Plain (links.vethHostName zoneName) := by
    intro c hc
    simp only [Links.vethHostName, Links.vethName, String.toList_append, String.toList_ofList,
      mem_append, mem_flatMap] at hc
    rcases hc with hc | ⟨b, -, hc⟩
    · exact (show Plain "veth" by decide) c hc
    · exact hexByte_identChar b c hc
  have hlegacy : Plain (Links.legacyVethHostName zoneName) := by
    intro c hc
    simp only [Links.legacyVethHostName, String.toList_append, String.toList_ofList,
      mem_append] at hc
    rcases hc with hc | hc
    · exact (show Plain "veth-" by decide) c hc
    · cases htake : takeBytes 10 zoneName.toList with
      | none => rw [htake] at hc; cases hc
      | some start => rw [htake] at hc; exact h c (takeBytes_mem htake c hc)
  unfold Links.vethHostNameFor
  dsimp only
  split_ifs
  · exact hcurrent
  · exact hlegacy
  · exact hcurrent

/-! ## Runs -/

/-- **No zone lists an isolated one.**  The zone has a plain name and an interface of its own, and
    the interfaces of its peers can be named in a rule.  Its new policy lists none that is isolated
    and, if it is isolated itself, it is listed by no other.  What counts are the interfaces that
    the names stood for when the rules were written. -/
structure Unlisted (net : Net) (event : String × Applied) : Prop where
  plain : Plain event.1
  quotable : ∀ peer ∈ event.2.peers, Quotable peer
  distinct : ∀ other a, other ≠ event.1 → net.applied other = some a →
    a.interface other ≠ event.2.interface event.1
  lists : ∀ other a, other ≠ event.1 → net.applied other = some a → a.policy.mode = .Isolated →
    a.interface other ∉ event.2.peers
  listed : event.2.policy.mode = .Isolated → ∀ other a, other ≠ event.1 →
    net.applied other = some a → event.2.interface event.1 ∉ a.peers

/-- The same for the policies in force. -/
structure Net.Apart (net : Net) : Prop where
  distinct : ∀ zone other a b, zone ≠ other → net.applied zone = some a →
    net.applied other = some b → a.interface zone ≠ b.interface other
  unlisted : ∀ zone other a b, zone ≠ other → net.applied zone = some a →
    a.policy.mode = .Isolated → net.applied other = some b → a.interface zone ∉ b.peers

lemma peers_isolated (h : a.policy.mode = .Isolated) : a.peers = [] := by
  simp [Applied.peers, peers, h]

/-- In an ordered table whose policies keep apart, isolated means isolated. -/
lemma Net.Ordered.isolates (h : net.Ordered) (hapart : net.Apart) (hcurrent : net.Current links) :
    Isolates links net := by
  intro zone other a b hne hzone hmode hother p hp
  rw [hcurrent zone a hzone, hcurrent other b hother] at hp
  by_contra haccepts
  obtain ⟨lister, c, hlister, peer, hpeer, hbetween⟩ :=
    h.forward_accepts (Bool.not_eq_false _ ▸ haccepts)
  have hlisterNe : lister ≠ zone := by
    rintro rfl
    rw [hzone] at hlister
    cases hlister
    rw [peers_isolated hmode] at hpeer
    cases hpeer
  have hveth : c.interface lister ≠ a.interface zone :=
    hapart.distinct lister zone c a hlisterNe hlister hzone
  have hpeerNe : peer ≠ a.interface zone := fun heq =>
    hapart.unlisted zone lister a c hlisterNe.symm hzone hmode hlister (heq ▸ hpeer)
  -- the isolated zone is at one end of the frame, so it is the lister or the peer
  rcases hp with ⟨h₁, h₂⟩ | ⟨h₁, h₂⟩ <;> rcases hbetween with ⟨h₃, h₄⟩ | ⟨h₃, h₄⟩
  · exact hveth (h₃.symm.trans h₁)
  · exact hpeerNe (h₃.symm.trans h₁)
  · exact hpeerNe (h₄.symm.trans h₂)
  · exact hveth (h₄.symm.trans h₂)

lemma Net.Ordered.of_fresh (hmanaged : Managed R) (hready : Ready R)
    (hbase : ∀ b, IsBase b → R.rules (bridge b) = [])
    (hnone : ∀ c : String, '-' ∈ c.toList → R.chain (bridge c) = none) :
    Net.Ordered ⟨R, fun _ => none⟩ := by
  refine ⟨hmanaged, hready, fun r hr => ?_, fun zone r hr => ?_⟩
  · rw [hbase _ (by simp [IsBase])] at hr
    cases hr
  · obtain ⟨ch, n, hch, -⟩ := Ruleset.mem_rules.mp hr
    rw [hnone _ (by simp [zoneChainName])] at hch
    cases hch

lemma start_ordered : Net.start.Ordered :=
  Net.Ordered.of_fresh baseRuleset_managed baseRuleset_ready baseRuleset_rules
    fun _ => baseRuleset_none

/-- The rules that removing a zone leaves are ordered, whatever policy the zone has now. -/
lemma Net.Ordered.removed (h : net.Ordered) (hzone : Plain zone) (a : Option Applied) :
    Net.Ordered ⟨removeZoneRules zone net.ruleset, update net.applied zone a⟩ := by
  have hremoved := removeZoneRules_removed hzone h.managed
  refine ⟨hremoved.managed h.managed, hremoved.ready h.ready, fun r hr => ?_, fun other r hr => ?_⟩
  · rw [show (removeZoneRules zone net.ruleset).rules (bridge "forward") = _ from
      rules_keep (hremoved.base _ (mem_zoneChains_forward zone))] at hr
    exact h.jumps r (mem_of_mem_filter hr)
  · by_cases hother : other = zone
    · subst hother
      rw [hremoved.rules_zone] at hr
      cases hr
    · rw [hremoved.rules_other hother] at hr
      simpa only [update_of_ne hother] using h.zones other r hr

lemma mem_jumpsFrom_forward {r : Rule} (h : r ∈ jumpsFrom zone vethName "forward") :
    r = ⟨[.iifname vethName], .jump (zoneChainName zone)⟩ ∨
      r = ⟨[.oifname vethName], .jump (zoneChainName zone)⟩ := by
  simpa [jumpsFrom, zoneJumps] using h

lemma Net.Ordered.installed (h : net.Ordered) (hmanaged : Managed R) (hready : Ready R)
    (hinstalls : Installs a.links zone (a.interface zone) a.policy net.ruleset R) :
    Net.Ordered ⟨R, update net.applied zone (some a)⟩ := by
  refine ⟨hmanaged, hready, fun r hr => ?_, fun other r hr => ?_⟩
  · rw [hinstalls.base _ (mem_zoneChains_forward zone)] at hr
    rcases mem_append.mp hr with hr | hr
    · exact h.jumps r (mem_of_mem_filter hr)
    · replace hr := mem_jumpsFrom_forward hr
      refine ⟨zone, ?_⟩
      rcases hr with rfl | rfl <;> rfl
  · by_cases hother : other = zone
    · subst hother
      rw [hinstalls.zone] at hr
      exact ⟨a, update_self .., hr⟩
    · rw [hinstalls.other other hother] at hr
      simpa only [update_of_ne hother] using h.zones other r hr

/-- A policy with a script to feed is applied. -/
lemma Net.Ordered.apply_installs (h : net.Ordered) {script : String} (hzone : Plain zone)
    (hpeers : ∀ peer ∈ a.peers, Quotable peer)
    (hscript : zoneScript std a.links zone (a.interface zone) a.policy = .ok (some script)) :
    ∃ R, net.apply std (zone, a) = ⟨R, update net.applied zone (some a)⟩ ∧
      Managed R ∧ Ready R ∧ Installs a.links zone (a.interface zone) a.policy net.ruleset R := by
  have hveth : Plain (a.interface zone) := vethHostNameFor_plain hzone
  obtain ⟨R, happly, hready, hinstalls⟩ := applyZoneRules_installs hzone hveth.quotable hpeers
    hscript h.managed h.ready
  have hmanaged : Managed (applyZoneRules std a.links zone _ a.policy net.ruleset).2 :=
    applyZoneRules_managed hzone hveth hpeers h.managed
  rw [happly] at hmanaged
  exact ⟨R, by simp only [Net.apply, happly], hmanaged, hready, hinstalls⟩

lemma Net.Ordered.apply (h : net.Ordered) {event : String × Applied}
    (hevent : Unlisted net event) : (net.apply std event).Ordered := by
  obtain ⟨zone, a⟩ := event
  cases hscript : zoneScript std a.links zone (a.interface zone) a.policy with
  | error e => simpa [Net.apply, applyZoneRules, hscript] using h
  | ok fed =>
    cases fed with
    | none =>
      simpa [Net.apply, applyZoneRules, hscript] using h.removed hevent.plain (some a)
    | some script =>
      obtain ⟨R, happly, hmanaged, hready, hinstalls⟩ :=
        h.apply_installs hevent.plain hevent.quotable hscript
      rw [happly]
      exact h.installed hmanaged hready hinstalls

/-- Whether or not the policy could be applied, the policies in force keep apart. -/
lemma Net.Apart.apply (h : net.Apart) {event : String × Applied}
    (hevent : Unlisted net event) : (net.apply std event).Apart := by
  obtain ⟨zone, a⟩ := event
  have happlied : (net.apply std (zone, a)).applied = net.applied ∨
      (net.apply std (zone, a)).applied = update net.applied zone (some a) := by
    unfold Net.apply
    split
    · exact Or.inr rfl
    · exact Or.inl rfl
  rcases happlied with heq | heq
  · exact ⟨fun z o p p' => by rw [heq]; exact h.distinct z o p p',
      fun z o p p' => by rw [heq]; exact h.unlisted z o p p'⟩
  · constructor
    · intro z o p p' hne hz ho
      rw [heq] at hz ho
      obtain ⟨rfl, rfl⟩ | ⟨hzone, hold⟩ := update_eq_some hz <;>
        obtain ⟨rfl, rfl⟩ | ⟨hother, hold'⟩ := update_eq_some ho
      · exact absurd rfl hne
      · exact (hevent.distinct o p' hother hold').symm
      · exact hevent.distinct z p hzone hold
      · exact h.distinct z o p p' hne hold hold'
    · intro z o p p' hne hz hmode ho
      rw [heq] at hz ho
      obtain ⟨rfl, rfl⟩ | ⟨hzone, hold⟩ := update_eq_some hz <;>
        obtain ⟨rfl, rfl⟩ | ⟨hother, hold'⟩ := update_eq_some ho
      · exact absurd rfl hne
      · exact hevent.listed hmode o p' hother hold'
      · exact hevent.lists z p hzone hold hmode
      · exact h.unlisted z o p p' hne hold hmode hold'

lemma start_apart : Net.start.Apart := ⟨by simp [Net.start], by simp [Net.start]⟩

/-! ## Listing an isolated zone -/

lemma zoneRules_bridged (hmode : policy.mode = .Bridged) :
    zoneRules links vethName policy =
      (peers links policy).flatMap (peerRules vethName) ++ [⟨[], .ret⟩] := by
  simp [zoneRules, peers, hmode, flatMap_map]

lemma zoneRules_passes :
    ∀ r ∈ zoneRules links vethName policy, r.verdict = .accept ∨ r.verdict = .ret := by
  intro r hr
  rcases mem_zoneRules.mp hr with ⟨peer, -, hrule⟩ | rfl
  · left
    rcases mem_pair.mp hrule with rfl | rfl <;> rfl
  · exact .inr rfl

/-- **Listing a zone is enough.**  Once a policy that lists a peer is applied to a zone, the frames
    between the two are accepted, whatever the policy of the peer. -/
lemma Net.Ordered.lister_admits (h : net.Ordered) {peer : String} (hmanaged : Managed R)
    (hready : Ready R) (hinstalls : Installs a.links zone (a.interface zone) a.policy net.ruleset R)
    (hmode : a.policy.mode = .Bridged) (hpeer : peer ∈ a.peers)
    (hp : Between p (a.interface zone) peer) : R.accepts (bridge "forward") p = true := by
  have hordered := h.installed hmanaged hready hinstalls
  -- the chain of the zone accepts the frame
  have hzone : R.runChain p "bridge" "rauha" 15 (zoneChainName zone) = .accept := by
    show evalRules _ p (R.rules (bridge (zoneChainName zone))) = .accept
    rw [hinstalls.zone, zoneRules_bridged hmode]
    refine evalRules_append_accept ?_ fun r hr => ?_
    · rcases hp with hp | hp
      · refine ⟨⟨[.iifname (a.interface zone), .oifname peer], .accept⟩,
          mem_flatMap.mpr ⟨peer, hpeer, by simp [peerRules]⟩, ?_, Or.inl rfl⟩
        simp [hp]
      · refine ⟨⟨[.iifname peer, .oifname (a.interface zone)], .accept⟩,
          mem_flatMap.mpr ⟨peer, hpeer, by simp [peerRules]⟩, ?_, Or.inl rfl⟩
        simp [hp]
    · obtain ⟨_, -, hrule⟩ := mem_flatMap.mp hr
      rcases mem_pair.mp hrule with rfl | rfl <;> exact Or.inl rfl
  -- the forward chain jumps there, and no chain it jumps to before drops anything
  have hforward : R.runChain p "bridge" "rauha" 16 "forward" = .accept := by
    show evalRules _ p (R.rules (bridge "forward")) = .accept
    rw [← append_nil (R.rules (bridge "forward"))]
    refine evalRules_append_accept ?_ fun r hr => ?_
    · have hjumps := hinstalls.base _ (mem_zoneChains_forward zone)
      rcases hp with hp | hp
      · refine ⟨⟨[.iifname (a.interface zone)], .jump (zoneChainName zone)⟩, ?_, ?_,
          Or.inr ⟨_, rfl, hzone⟩⟩
        · rw [hjumps]; simp [jumpsFrom, zoneJumps]
        · simp [hp]
      · refine ⟨⟨[.oifname (a.interface zone)], .jump (zoneChainName zone)⟩, ?_, ?_,
          Or.inr ⟨_, rfl, hzone⟩⟩
        · rw [hjumps]; simp [jumpsFrom, zoneJumps]
        · simp [hp]
    · obtain ⟨other, hjump⟩ := hordered.jumps r hr
      refine Or.inr ⟨_, hjump, evalRules_ne_drop fun r' hr' => ?_⟩
      obtain ⟨policy', -, hrule⟩ := hordered.zones other r' hr'
      exact zoneRules_passes r' hrule
  obtain ⟨ch, hch⟩ := Option.isSome_iff_exists.mp (hready.base "forward" (by simp [IsBase]))
  unfold Ruleset.accepts
  rw [hch]
  simp only [bridge, hforward]

/-! ## Isolation over runs -/

/-- **Isolated zones are isolated as long as nobody lists them.**  In every run of policy
    applications none of which lists an isolated zone or isolates a listed one, no frame between an
    isolated zone and another zone is accepted, in any state of the run and as long as the zones
    keep the interfaces that the rules were written for. -/
theorem isolated_zones_isolated {events : List (String × Applied)}
    (h : Meets (.apply std) Unlisted .start events)
    (hcurrent : Net.Current links (run (.apply std) .start events)) :
    Isolates links (run (.apply std) .start events) := by
  have hinv : (run (Net.apply std) Net.start events).Ordered ∧
      (run (Net.apply std) Net.start events).Apart :=
    h.invariant (I := fun net => net.Ordered ∧ net.Apart)
      (fun net event hnet hevent => ⟨hnet.1.apply hevent, hnet.2.apply hevent⟩)
      ⟨start_ordered, start_apart⟩
  exact hinv.1.isolates hinv.2 hcurrent

/-- The digests of two names, and one for all others. -/
def pairLinks : Links where
  digest name := if name = "a" then [1, 1, 1, 1, 1] else if name = "b" then [2, 2, 2, 2, 2] else []
  linkExists _ := false

/-- A policy with one peer. -/
def bridgedTo (peer : String) : Applied :=
  ⟨pairLinks, { bridgedNetwork with allowedZones := [peer] }⟩

def isolated : Applied := ⟨pairLinks, isolatedNetwork⟩

/-- The zone `a`, isolated, and nothing else. -/
lemma isolated_a : ∃ net, Net.start.apply sampleText ("a", isolated) = net ∧
    net.Ordered ∧ net.applied = update (fun _ => none) "a" (some isolated) := by
  have hpeers : ∀ peer ∈ isolated.peers, Quotable peer := fun _ h => nomatch h
  obtain ⟨script, hscript, -⟩ := @zoneScript_text sampleText pairLinks "a"
    (pairLinks.vethHostNameFor "a") isolatedNetwork [] [] rfl rfl (by decide)
  obtain ⟨R, happly, hmanaged, hready, hinstalls⟩ :=
    start_ordered.apply_installs (show Plain "a" by decide) hpeers hscript
  exact ⟨_, happly, start_ordered.installed hmanaged hready hinstalls, rfl⟩

/-- A policy of `b` that lists one peer has a script to feed. -/
lemma bridgedTo_script (peer : String) : ∃ script, zoneScript sampleText pairLinks "b"
    ((bridgedTo peer).interface "b") (bridgedTo peer).policy = .ok (some script) := by
  obtain ⟨script, hscript, -⟩ := @zoneScript_text sampleText pairLinks "b"
    (pairLinks.vethHostNameFor "b") (bridgedTo peer).policy _ _ bridgedNetwork_endpoints.1
    bridgedNetwork_endpoints.2 (by simp [bridgedTo, bridgedNetwork])
  exact ⟨script, hscript⟩

theorem isolated_zones_isolated_pair :
    ∃ net, run (.apply sampleText) .start [("a", isolated), ("b", bridgedTo "c")] = net ∧
      net.applied "a" = some isolated ∧ net.applied "b" = some (bridgedTo "c") ∧
      net.Current pairLinks ∧ Isolates pairLinks net := by
  obtain ⟨net, hnet, hordered, happlied⟩ := isolated_a
  obtain ⟨script, hscript⟩ := bridgedTo_script "c"
  have hquotable : ∀ peer ∈ (bridgedTo "c").peers, Quotable peer := by decide
  obtain ⟨R, happly, -⟩ := hordered.apply_installs (show Plain "b" by decide) hquotable hscript
  have ha : Unlisted .start ("a", isolated) :=
    ⟨by decide, (fun _ h => nomatch h), by simp [Net.start], by simp [Net.start],
      by simp [Net.start]⟩
  have hone : ∀ other a, net.applied other = some a → other = "a" ∧ a = isolated := by
    intro other a h
    rw [happlied] at h
    obtain ⟨rfl, rfl⟩ | ⟨-, hold⟩ := update_eq_some h
    · exact ⟨rfl, rfl⟩
    · cases hold
  have hb : Unlisted net ("b", bridgedTo "c") := by
    refine ⟨by decide, hquotable, ?_, ?_, nofun⟩
    · rintro other a - h
      obtain ⟨rfl, rfl⟩ := hone other a h
      decide
    · rintro other a - h -
      obtain ⟨rfl, rfl⟩ := hone other a h
      decide
  have hmeets : Meets (.apply sampleText) Unlisted .start
      [("a", isolated), ("b", bridgedTo "c")] := ⟨ha, by rw [hnet]; exact hb, trivial⟩
  have hrun : (run (Net.apply sampleText) .start [("a", isolated), ("b", bridgedTo "c")]).applied =
      update net.applied "b" (some (bridgedTo "c")) := by
    rw [run_cons, hnet, run_cons, happly, run_nil]
  have hcurrent : Net.Current pairLinks (run (.apply sampleText) .start
      [("a", isolated), ("b", bridgedTo "c")]) := by
    intro zone a h
    rw [hrun] at h
    obtain ⟨rfl, rfl⟩ | ⟨-, hold⟩ := update_eq_some h
    · rfl
    · obtain ⟨rfl, rfl⟩ := hone zone a hold
      rfl
  refine ⟨_, rfl, ?_, ?_, hcurrent, isolated_zones_isolated hmeets hcurrent⟩
  · rw [hrun, happlied]
    rfl
  · rw [hrun, update_self]

/-- **An isolated zone is reached.**  With `a` isolated, a policy of `b` that lists `a` opens the
    bridge between the two. -/
theorem listed_isolated_zone_reached :
    validateZoneName "a" = .ok () ∧ validateZoneName "b" = .ok () ∧
    pairLinks.vethHostNameFor "a" ≠ pairLinks.vethHostNameFor "b" ∧
    ¬ Isolates pairLinks
      (run (.apply sampleText) .start [("a", isolated), ("b", bridgedTo "a")]) := by
  obtain ⟨net, hnet, hordered, happlied⟩ := isolated_a
  obtain ⟨script, hscript⟩ := bridgedTo_script "a"
  obtain ⟨R, happly, hmanaged, hready, hinstalls⟩ := hordered.apply_installs
    (show Plain "b" by decide)
    (show ∀ peer ∈ (bridgedTo "a").peers, Quotable peer by decide) hscript
  refine ⟨by decide +kernel, by decide +kernel, by decide, fun h => ?_⟩
  rw [run_cons, hnet, run_cons, happly, run_nil] at h
  let frame : Packet :=
    ⟨pairLinks.vethHostNameFor "b", pairLinks.vethHostNameFor "a", fun _ => false⟩
  have hreached : R.accepts (bridge "forward") frame = true :=
    hordered.lister_admits hmanaged hready hinstalls rfl
      (show pairLinks.vethHostNameFor "a" ∈ (bridgedTo "a").peers by
        simp [Applied.peers, peers, bridgedTo, bridgedNetwork])
      (Or.inl ⟨rfl, rfl⟩)
  have hrefused := h "a" "b" isolated (bridgedTo "a") (by decide)
    (by simp [happlied]) rfl (by simp) frame (.inr ⟨rfl, rfl⟩)
  rw [hreached] at hrefused
  cases hrefused

end Rauha.Nftables
