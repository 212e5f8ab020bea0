import Rauha.Library.NftRuleset
import Rauha.Network.Script

/-!
# Installing and removing the rules of a zone

`applyZoneRules` and `removeZoneRules` on the ruleset of the host.  All zones share the three base
chains of the bridge table, and each has chains of its own and jumps into them from the base chains.

The jumps of a zone are found by searching the listing of a base chain for the name of the zone's
chain.  The spec of the search, `removeChainJumps_rules`, is about names: a jump goes if the name
occurs **anywhere** in the chain it leads to or in the interface it is for.
-/

namespace Rauha.Nftables

open Nft List

variable (std : IpText) (links : Links)

/-! ## The operations -/

/-- The arguments of a command with blanks between them, which is the text `nft` reads. -/
def joinArgs : List String → String
  | [] => ""
  | [arg] => arg
  | arg :: args => arg ++ " " ++ joinArgs args

def runNft (args : List String) (R : Ruleset) : Except RauhaError Ruleset :=
  match R.transaction (joinArgs args) with
  | some R' => .ok R'
  | none => .error (.NetworkError ("nft " ++ joinArgs args ++ " failed: "))

def runNftScript (script : String) (R : Ruleset) : Except RauhaError Ruleset :=
  match R.transaction script with
  | some R' => .ok R'
  | none => .error (.NetworkError "nftables transaction failed: ")

/-- A command whose failure is ignored. -/
def tryNft (args : List String) (R : Ruleset) : Ruleset :=
  match runNft args R with
  | .ok R' => R'
  | .error _ => R

def contains (line : List Char) (text : String) : Bool := text.toList <:+: line

/-- The handle at the end of a line of a listing. -/
def lineHandle (line : List Char) : Option String :=
  match Text.after "# handle ".toList line with
  | some rest => if Text.trim rest = [] then none else some (String.ofList (Text.trim rest))
  | none => none

/-- Delete the rule in a line of the listing, if the line is a jump to the chain. -/
def removeJump (family baseChain chainName : String) (R : Ruleset) (line : List Char) : Ruleset :=
  if contains line "jump" && contains line chainName then
    match lineHandle line with
    | some handle => tryNft ["delete", "rule", family, "rauha", baseChain, "handle", handle] R
    | none => R
  else R

def removeChainJumps (family baseChain chainName : String) (R : Ruleset) : Ruleset :=
  match R.listing ⟨family, "rauha", baseChain⟩ with
  | none => R
  | some lines => lines.foldl (removeJump family baseChain chainName) R

def removeChain (R : Ruleset) (chainName : String) : Ruleset :=
  tryNft ["delete", "chain", "bridge", "rauha", chainName]
    (tryNft ["flush", "chain", "bridge", "rauha", chainName] R)

/-- The base chains, each with the chain of a zone that it jumps to. -/
def zoneChains (zoneName : String) : List (String × String) :=
  [("forward", zoneChainName zoneName), ("input", zoneInputChainName zoneName),
    ("output", zoneOutputChainName zoneName)]

def removeZoneRules (zoneName : String) (R : Ruleset) : Ruleset :=
  let R := (zoneChains zoneName).foldl
    (fun R chains => removeChainJumps "bridge" chains.1 chains.2 R) R
  ((zoneChains zoneName).map Prod.snd).foldl removeChain R

/-- The rules of a zone are taken out before the new ones go in, which is one transaction. -/
def applyZoneRules (zoneName vethName : String) (policy : NetworkPolicy) (R : Ruleset) :
    Except RauhaError Unit × Ruleset :=
  match zoneScript std links zoneName vethName policy with
  | .error e => (.error e, R)
  | .ok none => (.ok (), removeZoneRules zoneName R)
  | .ok (some script) =>
    let R := removeZoneRules zoneName R
    match runNftScript script R with
    | .ok R' => (.ok (), R')
    | .error e => (.error e, R)

def bridgeRuleset (replace : Bool) : String :=
  (if replace then "delete table bridge rauha\n" else "") ++
  "add table bridge rauha\n" ++
  "add chain bridge rauha forward \x7b type filter hook forward priority filter; " ++
    "policy drop; \x7d\n" ++
  "add chain bridge rauha input \x7b type filter hook input priority filter; " ++
    "policy drop; \x7d\n" ++
  "add chain bridge rauha output \x7b type filter hook output priority filter; " ++
    "policy drop; \x7d\n"

/-! ## What commands do to chains -/

variable {R R' : Ruleset} {cmd : Command} {policy : NetworkPolicy}
  {zoneName vethName chainName chain b : String}

variable {args : List String}

attribute [local simp] unwords Token.spaced Token.text zoneChains

lemma joinArgs_unwords : (joinArgs args).toList = unwords (args.map .word) := by
  induction args with
  | nil => rfl
  | cons arg args ih =>
    cases args with
    | nil => simp [joinArgs]
    | cons arg' args =>
      show (arg ++ " " ++ joinArgs (arg' :: args)).toList = _
      rw [String.toList_append, ih]
      simp

/-- A command given as arguments is carried out if it can be. -/
lemma tryNft_eq (hargs : args.map .word = cmd.tokens) (hnamed : cmd.Named)
    (hclean : ∀ arg ∈ args, (Token.word arg).Clean) (R : Ruleset) :
    tryNft args R = (R.exec cmd).getD R := by
  have hread : readScript (joinArgs args) = some [cmd] := by
    refine readScript_unwords ⟨hnamed, ?_⟩ (by rw [joinArgs_unwords, hargs])
    rw [← hargs]
    exact forall_mem_map.mpr hclean
  unfold tryNft runNft Ruleset.transaction
  rw [hread, Option.bind_some, Ruleset.execAll]
  cases hexec : R.exec cmd with
  | none => rfl
  | some R' => rfl


/-! ## Searching the listing -/

/-- A jump from a base chain: for one interface, into one chain. -/
structure IsJump (r : Rule) (vethName chain : String) : Prop where
  eq : r = ⟨[.iifname vethName], .jump chain⟩ ∨ r = ⟨[.oifname vethName], .jump chain⟩
  veth : Plain vethName
  chain : isIdentifier chain = true

/-- The name occurs in an interface the rule is for or in the chain it jumps to. -/
def mentions (chainName : String) (r : Rule) : Bool :=
  (r.guards.any fun
    | .iifname name | .oifname name => decide (chainName.toList <:+: name.toList)
    | _ => false) ||
  match r.verdict with
  | .jump chain => decide (chainName.toList <:+: chain.toList)
  | _ => false

variable {r : Rule}

lemma IsJump.mentions_iff (h : IsJump r vethName chain) : mentions chainName r = true ↔
      chainName.toList <:+: vethName.toList ∨ chainName.toList <:+: chain.toList := by
  rcases h.eq with rfl | rfl <;> simp [mentions]

/-- The line of a jump in the listing, word by word. -/
lemma IsJump.line (h : IsJump r vethName chain) (n : ℕ) :
    ∃ word, '-' ∉ word ∧ '#' ∉ word ∧ ruleLine (n, r) =
      '\t' :: '\t' :: (word ++ ' ' :: '"' :: (vethName.toList ++ '"' :: ' ' :: ("jump".toList ++
        ' ' :: (chain.toList ++ ' ' :: ("# handle ".toList ++ Nat.toDigits 10 n))))) := by
  rcases h.eq with rfl | rfl
  · exact ⟨"iifname".toList, by decide, by decide, by
      simp [ruleLine, Rule.tokens, Match.tokens, Verdict.tokens]⟩
  · exact ⟨"oifname".toList, by decide, by decide, by
      simp [ruleLine, Rule.tokens, Match.tokens, Verdict.tokens]⟩

lemma not_mem_toDigits {n : ℕ} {c : Char} (h : c.isDigit = false) : c ∉ Nat.toDigits 10 n := by
  intro hmem
  rw [Nat.isDigit_of_mem_toDigits (by omega) (le_refl _) hmem] at h
  cases h

variable {name : String}

lemma not_mem_of_plain (h : ∀ c ∈ name.toList, isIdentChar c = true) {c : Char}
    (hc : isIdentChar c = false) : c ∉ name.toList := by
  intro hmem
  rw [h c hmem] at hc
  cases hc

/-- A name that a chain of a zone can have: it holds a hyphen, and nothing that separates words. -/
structure IsChainName (chainName : String) : Prop where
  plain : Plain chainName
  hyphen : '-' ∈ chainName.toList

lemma IsChainName.not_mem (h : IsChainName chainName) {c : Char} (hc : isIdentChar c = false) :
    c ∉ chainName.toList := not_mem_of_plain h.plain hc

/-- **What the search finds.**  The line of a jump contains the name of a chain exactly if the
    interface or the chain of the jump does. -/
lemma contains_ruleLine (h : IsJump r vethName chain) (hname : IsChainName chainName) (n : ℕ) :
    contains (ruleLine (n, r)) chainName = mentions chainName r := by
  obtain ⟨word, hword, -, hline⟩ := h.line n
  have hne : chainName.toList ≠ [] := ne_nil_of_mem hname.hyphen
  have htab : '\t' ∉ chainName.toList := hname.not_mem (by decide)
  have hblank : ' ' ∉ chainName.toList := hname.not_mem (by decide)
  have hquote : '"' ∉ chainName.toList := hname.not_mem (by decide)
  have hmark : '#' ∉ chainName.toList := hname.not_mem (by decide)
  have hhandle : "# handle ".toList ++ Nat.toDigits 10 n =
      '#' :: ' ' :: ("handle".toList ++ ' ' :: Nat.toDigits 10 n) := rfl
  have hno : ∀ {text : List Char}, '-' ∉ text → (chainName.toList <:+: text ↔ False) :=
    fun ht => iff_of_false (Text.not_infix_of_mem hname.hyphen ht) id
  rw [Bool.eq_iff_iff, h.mentions_iff, contains, decide_eq_true_eq, hline, hhandle,
    Text.infix_cons_ne htab hne, Text.infix_cons_ne htab hne, Text.infix_append_cons hblank,
    Text.infix_cons_ne hquote hne, Text.infix_append_cons hquote, Text.infix_cons_ne hblank hne,
    Text.infix_append_cons hblank, Text.infix_append_cons hblank, Text.infix_cons_ne hmark hne,
    Text.infix_cons_ne hblank hne, Text.infix_append_cons hblank, hno hword,
    hno (show '-' ∉ "jump".toList by decide), hno (show '-' ∉ "handle".toList by decide),
    hno (not_mem_toDigits (by decide))]
  tauto

lemma contains_jump (h : IsJump r vethName chain) (n : ℕ) :
    contains (ruleLine (n, r)) "jump" = true := by
  obtain ⟨word, -, -, hline⟩ := h.line n
  rw [contains, decide_eq_true_eq, hline]
  exact ⟨'\t' :: '\t' :: (word ++ ' ' :: '"' :: (vethName.toList ++ ['"', ' '])),
    ' ' :: (chain.toList ++ ' ' :: ("# handle ".toList ++ Nat.toDigits 10 n)), by simp⟩

lemma lineHandle_ruleLine (h : IsJump r vethName chain) (n : ℕ) :
    lineHandle (ruleLine (n, r)) = some (String.ofList (Nat.toDigits 10 n)) := by
  obtain ⟨word, -, hword, hline⟩ := h.line n
  have hveth : '#' ∉ vethName.toList := not_mem_of_plain h.veth (by decide)
  have hchain : '#' ∉ chain.toList := not_mem_of_plain (isIdentifier_chars h.chain).2 (by decide)
  have hsplit : ruleLine (n, r) = ('\t' :: '\t' :: (word ++ ' ' :: '"' :: (vethName.toList ++
      '"' :: ' ' :: ("jump".toList ++ ' ' :: (chain.toList ++ [' ']))))) ++
      "# handle ".toList ++ Nat.toDigits 10 n := by
    rw [hline]
    simp
  have hfree : '#' ∉ '\t' :: '\t' :: (word ++ ' ' :: '"' :: (vethName.toList ++
      '"' :: ' ' :: ("jump".toList ++ ' ' :: (chain.toList ++ [' '])))) := by
    simp [hword, hveth, hchain]
  have hafter : Text.after "# handle ".toList (ruleLine (n, r)) = some (Nat.toDigits 10 n) := by
    rw [hsplit]
    exact Text.after_append hfree _
  have htrim : Text.trim (Nat.toDigits 10 n) = Nat.toDigits 10 n :=
    Text.trim_of_forall fun c hc =>
      Text.isWhitespace_of_isDigit (Nat.isDigit_of_mem_toDigits (by omega) (le_refl _) hc)
  unfold lineHandle
  simp only [hafter, htrim, if_neg Nat.toDigits_ne_nil]

/-! ## Removing jumps -/

def IsBase (b : String) : Prop := b ∈ ["forward", "input", "output"]

/-- **Base chains as the daemon keeps them**: they drop what no rule decides, and every rule in them
    is a jump. -/
structure Managed (R : Ruleset) : Prop where
  base : ∀ b, IsBase b → ∀ ch, R.chain (bridge b) = some ch →
    ch.base = some ⟨"filter", b, "filter", "drop"⟩
  jumps : ∀ b, IsBase b → ∀ ch, R.chain (bridge b) = some ch → ∀ r ∈ ch.rules,
    ∃ vethName chain, IsJump r.2 vethName chain

/-- Base chains stay managed if all that is new in them is jumps. -/
lemma Managed.mono (h : Managed R) (hsub : ∀ b, IsBase b → ∀ ch', R'.chain (bridge b) = some ch' →
    ∃ ch, R.chain (bridge b) = some ch ∧ ch'.base = ch.base ∧
      ∀ r ∈ ch'.rules, r ∈ ch.rules ∨ ∃ vethName chain, IsJump r.2 vethName chain) :
    Managed R' := by
  constructor
  · intro b hb ch' hch'
    obtain ⟨ch, hch, hbase, -⟩ := hsub b hb ch' hch'
    rw [hbase, h.base b hb ch hch]
  · intro b hb ch' hch' r hr
    obtain ⟨ch, hch, -, hrules⟩ := hsub b hb ch' hch'
    exact (hrules r hr).elim (h.jumps b hb ch hch r) id

lemma Managed.filtered {c : ChainRef} {p : ℕ × Rule → Bool} (h : Managed R)
    (hf : Filtered R R' c p) : Managed R' := by
  refine h.mono fun b _ ch' hch' => ?_
  rw [hf.chain] at hch'
  split_ifs at hch' with hc
  · obtain ⟨ch, hch, rfl⟩ := Option.map_eq_some_iff.mp hch'
    exact ⟨ch, hc ▸ hch, rfl, fun r hr => Or.inl (mem_of_mem_filter hr)⟩
  · exact ⟨ch', hch', rfl, fun r hr => Or.inl hr⟩

lemma isIdentifier_of_isBase : ∀ b, IsBase b → isIdentifier b = true := by
  show ∀ b ∈ ["forward", "input", "output"], isIdentifier b = true
  decide

lemma listingHead_quiet : ∀ b, IsBase b →
    ∀ line ∈ listingHead (bridge b) (some ⟨"filter", b, "filter", "drop"⟩),
      contains line "jump" = false := by
  show ∀ b ∈ ["forward", "input", "output"],
    ∀ line ∈ listingHead (bridge b) (some ⟨"filter", b, "filter", "drop"⟩),
      contains line "jump" = false
  decide +kernel

lemma listingFoot_quiet : ∀ line ∈ listingFoot, contains line "jump" = false := by decide

lemma removeJump_filtered (hb : IsBase b) (hname : IsChainName chainName) {r : ℕ × Rule}
    (hr : ∃ vethName chain, IsJump r.2 vethName chain) (R : Ruleset) :
    Filtered R (removeJump "bridge" b chainName R (ruleLine r)) (bridge b)
      fun x => !(mentions chainName r.2 && decide (x.1 = r.1)) := by
  obtain ⟨vethName, chain, hjump⟩ := hr
  obtain ⟨n, rule⟩ := r
  unfold removeJump
  rw [contains_jump hjump, contains_ruleLine hjump hname, lineHandle_ruleLine hjump]
  cases hm : mentions chainName rule with
  | true =>
    have hargs : ["delete", "rule", "bridge", "rauha", b, "handle",
        String.ofList (Nat.toDigits 10 n)].map .word =
        (Command.deleteRule (bridge b) (String.ofList (Nat.toDigits 10 n))).tokens := rfl
    have hclean : ∀ arg ∈ ["delete", "rule", "bridge", "rauha", b, "handle",
        String.ofList (Nat.toDigits 10 n)], (Token.word arg).Clean := by
      have hdigits : (Token.word (String.ofList (Nat.toDigits 10 n))).Clean := repr_clean n
      simp [words_clean, clean_of_isIdentifier (isIdentifier_of_isBase b hb), hdigits]
    have htry := tryNft_eq hargs (isIdentifier_of_isBase b hb) hclean R
    simp only [if_true, Bool.true_and, htry, ← decide_not]
    exact deleteRule_filtered R (bridge b) n
  | false => exact filtered_refl fun _ _ _ _ => by simp

lemma foldl_removeJump_filtered (hb : IsBase b) (hname : IsChainName chainName)
    {rs : List (ℕ × Rule)} (hrs : ∀ r ∈ rs, ∃ vethName chain, IsJump r.2 vethName chain)
    (R : Ruleset) :
    Filtered R ((rs.map ruleLine).foldl (removeJump "bridge" b chainName) R) (bridge b)
      fun x => !(rs.any fun r => mentions chainName r.2 && decide (x.1 = r.1)) := by
  induction rs generalizing R with
  | nil => exact filtered_refl fun _ _ _ _ => rfl
  | cons r rs ih =>
    obtain ⟨hr, hrs⟩ := forall_mem_cons.mp hrs
    have hboth := (removeJump_filtered hb hname hr R).trans
      (ih hrs (removeJump "bridge" b chainName R (ruleLine r)))
    rw [map_cons, foldl_cons]
    convert hboth using 2
    simp [Bool.and_comm]

lemma foldl_removeJump_quiet {lines : List (List Char)}
    (h : ∀ line ∈ lines, contains line "jump" = false) (R : Ruleset) :
    lines.foldl (removeJump "bridge" b chainName) R = R := by
  induction lines with
  | nil => rfl
  | cons line lines ih =>
    obtain ⟨hline, hlines⟩ := forall_mem_cons.mp h
    have hstep : removeJump "bridge" b chainName R line = R := by
      unfold removeJump
      rw [hline, if_neg (by simp)]
    rw [foldl_cons, hstep, ih hlines]

/-- **Which jumps go.**  Exactly those in which the name of the chain occurs. -/
theorem removeChainJumps_rules (hR : Managed R) (hb : IsBase b) (hname : IsChainName chainName) :
    Filtered R (removeChainJumps "bridge" b chainName R) (bridge b)
      fun r => !mentions chainName r.2 := by
  show Filtered R (match R.listing (bridge b) with
    | none => R
    | some lines => lines.foldl (removeJump "bridge" b chainName) R) (bridge b) _
  rw [Ruleset.listing]
  cases hch : R.chain (bridge b) with
  | none =>
    refine filtered_refl fun ch hsome => ?_
    rw [hch] at hsome
    cases hsome
  | some ch =>
    have hfold := foldl_removeJump_filtered hb hname (hR.jumps b hb ch hch) R
    simp only [Option.map_some, hR.base b hb ch hch, foldl_append,
      foldl_removeJump_quiet (listingHead_quiet b hb), foldl_removeJump_quiet listingFoot_quiet]
    refine ⟨hfold.tables, fun c' => ?_⟩
    rw [hfold.chain c']
    split_ifs with hc
    · rw [hch]
      refine congrArg some ?_
      unfold Chain.keep
      congr 1
      refine filter_congr fun x hx => congrArg (!·) ?_
      -- a handle names one rule, so a rule goes only on account of its own line
      rw [Bool.eq_iff_iff, any_eq_true]
      constructor
      · rintro ⟨r, hr, hmr⟩
        obtain ⟨hm, hhandle⟩ := Bool.and_eq_true_iff.mp hmr
        have heq : x = r := inj_on_of_nodup_map (R.numbered _ ch hch).1 hx hr
          (of_decide_eq_true hhandle)
        rwa [heq]
      · intro hm
        exact ⟨x, hx, by simp [hm]⟩
    · rfl

/-! ## Removing a zone -/

lemma bridge_inj {a b : String} : bridge a = bridge b ↔ a = b := by simp [bridge]

variable {c : String}

/-- A chain is emptied and, if nothing jumps to it, deleted; no other chain changes. -/
lemma removeChain_chain (h : isIdentifier c = true) (R : Ruleset) :
    (removeChain R c).tables = R.tables ∧
    (∀ c', c' ≠ bridge c → (removeChain R c).chain c' = R.chain c') ∧
    ∀ ch, (removeChain R c).chain (bridge c) = some ch → ch.rules = [] := by
  have hflush : Filtered R (tryNft ["flush", "chain", "bridge", "rauha", c] R) (bridge c)
      fun _ => false := by
    have hargs : ["flush", "chain", "bridge", "rauha", c].map .word =
        (Command.flushChain (bridge c)).tokens := rfl
    rw [tryNft_eq hargs h (by simp [words_clean, clean_of_isIdentifier h])]
    exact filterRules_filtered R (bridge c) _
  have hempty : ∀ ch, (tryNft ["flush", "chain", "bridge", "rauha", c] R).chain (bridge c) =
      some ch → ch.rules = [] := by
    intro ch hch
    rw [hflush.chain, if_pos rfl] at hch
    obtain ⟨ch, -, rfl⟩ := Option.map_eq_some_iff.mp hch
    simp [Chain.keep]
  have hargs : ["delete", "chain", "bridge", "rauha", c].map .word =
      (Command.deleteChain (bridge c)).tokens := rfl
  unfold removeChain
  rw [tryNft_eq hargs h (by simp [words_clean, clean_of_isIdentifier h]), Ruleset.exec]
  split_ifs with hdelete
  · rw [Option.getD_some]
    refine ⟨?_, fun c' hc => ?_, fun ch hch => ?_⟩
    · rw [Ruleset.tables_remove, hflush.tables]
    · rw [Ruleset.chain_remove, if_neg hc, hflush.chain, if_neg hc]
    · rw [Ruleset.chain_remove, if_pos rfl] at hch
      cases hch
  · rw [Option.getD_none]
    exact ⟨hflush.tables, fun c' hc => by rw [hflush.chain, if_neg hc], hempty⟩

/-- The chains of a zone are named after it, and no base chain is. -/
structure ZoneChain (zoneName : String) (p : String × String) : Prop where
  mem : p ∈ zoneChains zoneName
  isBase : IsBase p.1
  isChainName : IsChainName p.2
  identifier : isIdentifier p.2 = true

lemma zoneChains_hyphen : ∀ p ∈ zoneChains zoneName, '-' ∈ p.2.toList := by
  simp [zoneChainName, zoneInputChainName, zoneOutputChainName]

lemma zoneChains_isBase : ∀ p ∈ zoneChains zoneName, IsBase p.1 := by
  simp [IsBase]

lemma zoneChain_of_mem (h : Plain zoneName) : ∀ p ∈ zoneChains zoneName, ZoneChain zoneName p := by
  intro p hp
  have hident : isIdentifier p.2 = true := by
    simp only [zoneChains, mem_cons, not_mem_nil, or_false] at hp
    rcases hp with rfl | rfl | rfl <;> exact (isIdentifier_append (by decide)).mpr h
  exact ⟨hp, zoneChains_isBase p hp, ⟨(isIdentifier_chars hident).2, zoneChains_hyphen p hp⟩,
    hident⟩

/-- A base chain is not the chain of a zone. -/
lemma base_ne_zoneChain {b : String} (hb : IsBase b) (hc : '-' ∈ c.toList) : b ≠ c := by
  rintro rfl
  have hno : ∀ b ∈ ["forward", "input", "output"], '-' ∉ b.toList := by decide
  exact hno b hb hc

/-- The chains of a list of names are emptied, and no other chain changes. -/
lemma foldl_removeChain_chain {cs : List String} (h : ∀ c ∈ cs, isIdentifier c = true)
    (R : Ruleset) :
    (cs.foldl removeChain R).tables = R.tables ∧
    (∀ c', (∀ c ∈ cs, c' ≠ bridge c) → (cs.foldl removeChain R).chain c' = R.chain c') ∧
    ∀ c ∈ cs, ∀ ch, (cs.foldl removeChain R).chain (bridge c) = some ch → ch.rules = [] := by
  induction cs generalizing R with
  | nil => exact ⟨rfl, fun c' _ => rfl, fun c hc => nomatch hc⟩
  | cons c cs ih =>
    obtain ⟨hc, hcs⟩ := forall_mem_cons.mp h
    obtain ⟨htables, hkept, hempty⟩ := removeChain_chain hc R
    obtain ⟨htables', hother, hown⟩ := ih hcs (removeChain R c)
    refine ⟨htables'.trans htables, fun c' hne => ?_, forall_mem_cons.mpr ⟨fun ch hch => ?_, hown⟩⟩
    · obtain ⟨hhead, htail⟩ := forall_mem_cons.mp hne
      rw [foldl_cons, hother c' htail, hkept c' hhead]
    · by_cases hmem : c ∈ cs
      · exact hown c hmem ch hch
      · rw [foldl_cons, hother (bridge c) fun d hd heq => hmem (bridge_inj.mp heq ▸ hd)]
          at hch
        exact hempty ch hch

/-- Jumps are removed from different base chains, so each base chain is filtered once. -/
lemma foldl_removeChainJumps_chain {ps : List (String × String)}
    (h : ∀ p ∈ ps, IsBase p.1 ∧ IsChainName p.2) (hnodup : (ps.map Prod.fst).Nodup)
    (hR : Managed R) :
    (ps.foldl (fun R p => removeChainJumps "bridge" p.1 p.2 R) R).tables = R.tables ∧
    (∀ c', (∀ p ∈ ps, c' ≠ bridge p.1) →
      (ps.foldl (fun R p => removeChainJumps "bridge" p.1 p.2 R) R).chain c' = R.chain c') ∧
    ∀ p ∈ ps, (ps.foldl (fun R p => removeChainJumps "bridge" p.1 p.2 R) R).chain (bridge p.1) =
      (R.chain (bridge p.1)).map (Chain.keep fun r => !mentions p.2 r.2) := by
  induction ps generalizing R with
  | nil => exact ⟨rfl, fun c' _ => rfl, fun p hp => nomatch hp⟩
  | cons p ps ih =>
    obtain ⟨hp, hps⟩ := forall_mem_cons.mp h
    obtain ⟨hfresh, hnodup⟩ := nodup_cons.mp hnodup
    have hfilter := removeChainJumps_rules hR hp.1 hp.2
    have hdistinct : ∀ q ∈ ps, bridge p.1 ≠ bridge q.1 := fun q hq heq =>
      hfresh (bridge_inj.mp heq ▸ mem_map_of_mem hq)
    obtain ⟨htables, hother, hown⟩ := ih hps hnodup (hR.filtered hfilter)
    refine ⟨htables.trans hfilter.tables, fun c' hne => ?_,
      forall_mem_cons.mpr ⟨?_, fun q hq => ?_⟩⟩
    · obtain ⟨hhead, htail⟩ := forall_mem_cons.mp hne
      rw [foldl_cons, hother c' htail, hfilter.chain, if_neg hhead]
    · rw [foldl_cons, hother _ hdistinct, hfilter.chain, if_pos rfl]
    · rw [foldl_cons, hown q hq, hfilter.chain, if_neg (hdistinct q hq).symm]

/-- **What removing a zone does**, chain by chain. -/
structure Removed (zoneName : String) (R R' : Ruleset) : Prop where
  tables : R'.tables = R.tables
  own : ∀ p ∈ zoneChains zoneName, ∀ ch, R'.chain (bridge p.2) = some ch → ch.rules = []
  base : ∀ p ∈ zoneChains zoneName, R'.chain (bridge p.1) =
    (R.chain (bridge p.1)).map (Chain.keep fun r => !mentions p.2 r.2)
  other : ∀ c', (∀ p ∈ zoneChains zoneName, c' ≠ bridge p.1 ∧ c' ≠ bridge p.2) →
    R'.chain c' = R.chain c'

lemma removeZoneRules_removed (h : Plain zoneName) (hR : Managed R) :
    Removed zoneName R (removeZoneRules zoneName R) := by
  have hchains := zoneChain_of_mem h
  have hdistinct : ((zoneChains zoneName).map Prod.fst).Nodup := by
    simp
  obtain ⟨htables, hother, hbase⟩ := foldl_removeChainJumps_chain
    (fun p hp => ⟨(hchains p hp).isBase, (hchains p hp).isChainName⟩) hdistinct hR
  have hnames : ∀ c ∈ (zoneChains zoneName).map Prod.snd, isIdentifier c = true := by
    intro c hc
    obtain ⟨p, hp, rfl⟩ := mem_map.mp hc
    exact (hchains p hp).identifier
  unfold removeZoneRules
  generalize (zoneChains zoneName).foldl
    (fun R p => removeChainJumps "bridge" p.1 p.2 R) R = R₁ at htables hother hbase ⊢
  obtain ⟨htables', hkept, hown⟩ := foldl_removeChain_chain hnames R₁
  constructor
  · exact htables'.trans htables
  · exact fun p hp ch hch => hown p.2 (mem_map_of_mem hp) ch hch
  · intro p hp
    rw [hkept, hbase p hp]
    intro c hc heq
    obtain ⟨q, hq, rfl⟩ := mem_map.mp hc
    exact base_ne_zoneChain (hchains p hp).isBase (hchains q hq).isChainName.hyphen
      (bridge_inj.mp heq)
  · intro c' hc'
    rw [hkept, hother c' fun p hp => (hc' p hp).1]
    intro c hc
    obtain ⟨q, hq, rfl⟩ := mem_map.mp hc
    exact (hc' q hq).2

/-! ## What belongs to a zone -/

/-- The rules of a base chain that jump to a chain. -/
def jumpsTo (R : Ruleset) (b chain : String) : List (ℕ × Rule) :=
  ((R.chain (bridge b)).map fun ch => ch.rules.filter fun r => r.2.verdict = .jump chain).getD []

/-- **What belongs to a zone**: its chains with their rules, and the jumps into them. -/
def belongings (zoneName : String) (R : Ruleset) : List (Option Chain × List (ℕ × Rule)) :=
  (zoneChains zoneName).map fun p => (R.chain (bridge p.2), jumpsTo R p.1 p.2)

/-- Nothing that belongs to another zone changes. -/
def Framed (zoneName : String) (R R' : Ruleset) : Prop :=
  ∀ other, other ≠ zoneName → belongings other R' = belongings other R

lemma belongings_eq_iff :
    belongings zoneName R' = belongings zoneName R ↔ ∀ p ∈ zoneChains zoneName,
      R'.chain (bridge p.2) = R.chain (bridge p.2) ∧ jumpsTo R' p.1 p.2 = jumpsTo R p.1 p.2 := by
  unfold belongings
  rw [map_inj_left]
  simp only [Prod.mk.injEq]

lemma mem_zoneChains_forward (zoneName : String) :
    ("forward", zoneChainName zoneName) ∈ zoneChains zoneName := by
  simp

variable {other : String}

lemma zoneChains_ne {zoneName : String} (h : other ≠ zoneName) :
    ∀ p ∈ zoneChains zoneName, ∀ q ∈ zoneChains other, q.2 ≠ p.2 := by
  have hne : other.toList ≠ zoneName.toList := fun heq => h (String.toList_inj.mp heq)
  simp [zoneChainName, zoneInputChainName, zoneOutputChainName, ← String.toList_inj, hne]

/-- Each base chain is searched for one of the zone's chains. -/
lemma zoneChains_of_isBase (zoneName : String) (hb : IsBase b) :
    ∃ p ∈ zoneChains zoneName, p.1 = b := by
  simp only [IsBase, mem_cons, not_mem_nil, or_false] at hb
  rcases hb with rfl | rfl | rfl <;> simp

/-- The chains of another zone are as they were. -/
lemma Removed.chain_other {zoneName : String} (h : Removed zoneName R R')
    (hother : other ≠ zoneName) {q : String × String} (hq : q ∈ zoneChains other) :
    R'.chain (bridge q.2) = R.chain (bridge q.2) := by
  refine h.other _ fun p hp => ⟨fun heq => ?_, fun heq => ?_⟩
  · exact base_ne_zoneChain (zoneChains_isBase p hp) (zoneChains_hyphen q hq)
      (bridge_inj.mp heq).symm
  · exact zoneChains_ne hother p hp q hq (bridge_inj.mp heq)

/-- The commands that set up a zone. -/
inductive OwnCommand (zoneName vethName : String) : Command → Prop where
  | addChain {p : String × String} (hp : p ∈ zoneChains zoneName) :
      OwnCommand zoneName vethName (.addChain (bridge p.2))
  | addRule {p : String × String} {r : Rule} (hp : p ∈ zoneChains zoneName)
      (hr : ∀ chain, r.verdict ≠ .jump chain) :
      OwnCommand zoneName vethName (.addRule (bridge p.2) r)
  | jump {p : String × String} {r : Rule} (hp : p ∈ zoneChains zoneName)
      (hr : r = ⟨[.iifname vethName], .jump p.2⟩ ∨ r = ⟨[.oifname vethName], .jump p.2⟩) :
      OwnCommand zoneName vethName (.addRule (bridge p.1) r)

variable {std links}

/-- The rules for a zone's peers, and the return at the end. -/
lemma mem_zoneRules :
    r ∈ zoneRules links vethName policy ↔
      (∃ peer ∈ peers links policy, r ∈ peerRules vethName peer) ∨ r = ⟨[], .ret⟩ := by
  unfold zoneRules peers
  cases policy.mode <;> simp

lemma zoneRules_verdict (h : r ∈ zoneRules links vethName policy) (chain : String) :
    r.verdict ≠ .jump chain := by
  rcases mem_zoneRules.mp h with ⟨peer, -, hr⟩ | rfl
  · rcases mem_pair.mp hr with rfl | rfl <;> simp
  · simp

lemma hostRules_verdict {side : Side} {mode : NetworkMode} {allowed : List NetworkEndpoint}
    (h : r ∈ hostRules std side mode allowed) (chain : String) : r.verdict ≠ .jump chain := by
  cases mode with
  | Bridged =>
    simp only [hostRules, mem_append, mem_cons, not_mem_nil, or_false, mem_map] at h
    rcases h with ((rfl | rfl | rfl) | ⟨e, -, rfl⟩) | rfl <;> simp [endpointRule]
  | _ => rw [mem_singleton.mp h]; simp

variable {egress ingress : List NetworkEndpoint}

lemma zoneCommands_own :
    ∀ cmd ∈ zoneCommands std links zoneName vethName policy egress ingress,
      OwnCommand zoneName vethName cmd := by
  have hforward := mem_zoneChains_forward zoneName
  have hinput : ("input", zoneInputChainName zoneName) ∈ zoneChains zoneName := by
    simp
  have houtput : ("output", zoneOutputChainName zoneName) ∈ zoneChains zoneName := by
    simp
  simp only [zoneCommands, zoneJumps, forall_mem_append, forall_mem_map,
    forall_mem_cons, not_mem_nil, false_imp_iff, implies_true, and_true]
  exact ⟨⟨⟨⟨⟨.addChain hforward, .addChain hinput, .addChain houtput⟩,
    fun r hr => .addRule hforward (zoneRules_verdict hr)⟩,
    fun r hr => .addRule hinput (hostRules_verdict hr)⟩,
    fun r hr => .addRule houtput (hostRules_verdict hr)⟩,
    .jump hforward (Or.inl rfl), .jump hforward (Or.inr rfl), .jump hinput (Or.inl rfl),
    .jump houtput (Or.inr rfl)⟩

lemma jumpsTo_congr (h : R'.chain (bridge b) = R.chain (bridge b)) :
    jumpsTo R' b chain = jumpsTo R b chain := by
  unfold jumpsTo
  rw [h]

variable {p : String × String}

/-- A change to one of the zone's own chains is framed. -/
lemma framed_of_own (hp : p ∈ zoneChains zoneName)
    (h : ∀ c', c' ≠ bridge p.2 → R'.chain c' = R.chain c') : Framed zoneName R R' := by
  intro other hother
  refine belongings_eq_iff.mpr fun q hq => ⟨h _ ?_, jumpsTo_congr (h _ ?_)⟩
  · exact fun heq => zoneChains_ne hother p hp q hq (bridge_inj.mp heq)
  · exact fun heq => base_ne_zoneChain (zoneChains_isBase q hq) (zoneChains_hyphen p hp)
      (bridge_inj.mp heq)

lemma OwnCommand.framed (h : OwnCommand zoneName vethName cmd) (hexec : R.exec cmd = some R') :
    Framed zoneName R R' := by
  cases h with
  | addChain hp => exact framed_of_own hp (chain_addChain hexec).1
  | addRule hp _ => exact framed_of_own hp (chain_addRule hexec).1
  | @jump p r hp hr =>
    obtain ⟨hother, ch, hch, hch'⟩ := chain_addRule hexec
    have hverdict : r.verdict = .jump p.2 := by rcases hr with rfl | rfl <;> rfl
    intro other hne
    refine belongings_eq_iff.mpr fun q hq => ⟨hother _ ?_, ?_⟩
    · exact fun heq => base_ne_zoneChain (zoneChains_isBase p hp) (zoneChains_hyphen q hq)
        (bridge_inj.mp heq).symm
    · by_cases hbase : q.1 = p.1
      · -- the new rule jumps to this zone's chain, not to the other's
        have hjump : ¬ Verdict.jump p.2 = .jump q.2 := fun heq =>
          zoneChains_ne hne p hp q hq (Verdict.jump.inj heq).symm
        unfold jumpsTo
        rw [hbase, hch, hch']
        simp [filter_append, hverdict, hjump]
      · exact jumpsTo_congr (hother _ fun heq => hbase (bridge_inj.mp heq))

lemma Framed.refl (zoneName : String) (R : Ruleset) : Framed zoneName R R := fun _ _ => rfl

lemma Framed.trans {R R' R'' : Ruleset} (h : Framed zoneName R R') (h' : Framed zoneName R' R'') :
    Framed zoneName R R'' :=
  fun other hother => (h' other hother).trans (h other hother)

variable {script : String}

/-- What `nft` reads in the script of a zone. -/
lemma zoneScript_read {zoneName vethName : String} (hname : Plain zoneName)
    (hveth : Quotable vethName) (hpeers : ∀ peer ∈ peers links policy, Quotable peer)
    (hscript : zoneScript std links zoneName vethName policy = .ok (some script)) :
    ∃ egress ingress, readScript script =
      some (zoneCommands std links zoneName vethName policy egress ingress) := by
  obtain ⟨egress, ingress, htext⟩ := zoneScript_ok hscript
  exact ⟨egress, ingress,
    (readScript_render_iff htext).mpr (zoneCommands_sound.mpr ⟨hname, hveth, hpeers⟩)⟩

/-- **Applying the rules of a zone** either changes nothing, or removes the zone, or removes it and
    carries out its commands. -/
lemma applyZoneRules_invariant {P : Ruleset → Prop} (hname : Plain zoneName)
    (hveth : Quotable vethName) (hpeers : ∀ peer ∈ peers links policy, Quotable peer) (hR : P R)
    (hremove : P (removeZoneRules zoneName R))
    (hstep : ∀ cmd, OwnCommand zoneName vethName cmd → ∀ R₁ R₂, R₁.exec cmd = some R₂ → P R₁ →
      P R₂) :
    P (applyZoneRules std links zoneName vethName policy R).2 := by
  unfold applyZoneRules
  cases hscript : zoneScript std links zoneName vethName policy with
  | error e => exact hR
  | ok fed =>
    cases fed with
    | none => exact hremove
    | some script =>
      obtain ⟨egress, ingress, hread⟩ := zoneScript_read hname hveth hpeers hscript
      unfold runNftScript
      cases htrans : (removeZoneRules zoneName R).transaction script with
      | none => simpa only [htrans] using hremove
      | some R' =>
        simp only [htrans]
        rw [Ruleset.transaction, hread, Option.bind_some] at htrans
        exact execAll_invariant (fun cmd hcmd => hstep cmd (zoneCommands_own cmd hcmd)) htrans
          hremove

/-! ## Sets of installed zones -/

/-- The bridge table as the daemon sets it up. -/
def baseRuleset : Ruleset := (Ruleset.empty.transaction (bridgeRuleset false)).getD Ruleset.empty

/-- The commands that set up the table. -/
def baseCommands : List Command :=
  .addTable "bridge" "rauha" :: ["forward", "input", "output"].map fun b =>
    .addBaseChain (bridge b) ⟨"filter", b, "filter", "drop"⟩

lemma bridgeRuleset_read : readScript (bridgeRuleset false) = some baseCommands := by
  refine (readScript_render_iff ?_).mpr ?_
  · simp [bridgeRuleset, baseCommands, render, Command.line, Command.tokens, ChainRef.tokens,
    Base.tokens, bridge]
  · decide

lemma baseRuleset_eq :
    baseRuleset = (Ruleset.execAll baseCommands Ruleset.empty).getD Ruleset.empty := by
  rw [baseRuleset, Ruleset.transaction, bridgeRuleset_read, Option.bind_some]

lemma baseRuleset_chain :
    ["forward", "input", "output"].map (fun b => baseRuleset.chain (bridge b)) =
    ["forward", "input", "output"].map
      fun b => some ⟨some ⟨"filter", b, "filter", "drop"⟩, []⟩ := by
  rw [baseRuleset_eq]
  decide +kernel

lemma baseRuleset_managed : Managed baseRuleset := by
  have hchain : ∀ b, IsBase b →
      baseRuleset.chain (bridge b) = some ⟨some ⟨"filter", b, "filter", "drop"⟩, []⟩ :=
    map_inj_left.mp baseRuleset_chain
  constructor
  · intro b hb ch hch
    rw [hchain b hb] at hch
    exact Option.some.inj hch ▸ rfl
  · intro b hb ch hch r hr
    rw [hchain b hb] at hch
    cases hch
    cases hr

lemma Removed.managed (h : Removed zoneName R R') (hR : Managed R) : Managed R' := by
  refine hR.mono fun b hb ch' hch' => ?_
  obtain ⟨p, hp, rfl⟩ := zoneChains_of_isBase zoneName hb
  rw [h.base p hp] at hch'
  obtain ⟨ch, hch, rfl⟩ := Option.map_eq_some_iff.mp hch'
  exact ⟨ch, hch, rfl, fun r hr => Or.inl (mem_of_mem_filter hr)⟩

/-- A change to a chain of a zone leaves the base chains alone. -/
lemma Managed.own (hR : Managed R) (hp : p ∈ zoneChains zoneName)
    (h : ∀ c', c' ≠ bridge p.2 → R'.chain c' = R.chain c') : Managed R' := by
  refine hR.mono fun b hb ch hch => ⟨ch, ?_, rfl, fun r hr => Or.inl hr⟩
  rwa [h _ fun heq => base_ne_zoneChain hb (zoneChains_hyphen p hp) (bridge_inj.mp heq)] at hch

lemma OwnCommand.managed (h : OwnCommand zoneName vethName cmd) (hname : Plain zoneName)
    (hveth : Plain vethName) (hexec : R.exec cmd = some R') (hR : Managed R) : Managed R' := by
  cases h with
  | addChain hp => exact hR.own hp (chain_addChain hexec).1
  | addRule hp _ => exact hR.own hp (chain_addRule hexec).1
  | @jump p r hp hr =>
    obtain ⟨hother, ch, hch, hch'⟩ := chain_addRule hexec
    have hjump : IsJump r vethName p.2 := ⟨hr, hveth, (zoneChain_of_mem hname p hp).identifier⟩
    refine hR.mono fun b _ ch₁ hch₁ => ?_
    by_cases hbase : bridge b = bridge p.1
    · rw [hbase, hch'] at hch₁
      cases hch₁
      refine ⟨ch, by rw [hbase, hch], rfl, fun r₁ hr₁ => (mem_append.mp hr₁).imp_right ?_⟩
      intro hnew
      rw [mem_singleton.mp hnew]
      exact ⟨vethName, p.2, hjump⟩
    · exact ⟨ch₁, hother _ hbase ▸ hch₁, rfl, fun r₁ hr₁ => Or.inl hr₁⟩

lemma Plain.quotable (h : Plain name) : Quotable name := by
  intro c hc
  constructor
  · rintro rfl
    exact absurd (h _ hc) (by decide)
  · rintro rfl
    exact absurd (h _ hc) (by decide)

lemma applyZoneRules_managed (hname : Plain zoneName) (hveth : Plain vethName)
    (hpeers : ∀ peer ∈ peers links policy, Quotable peer) (hR : Managed R) :
    Managed (applyZoneRules std links zoneName vethName policy R).2 :=
  applyZoneRules_invariant hname hveth.quotable hpeers hR
    ((removeZoneRules_removed hname hR).managed hR)
    fun _ hcmd _ _ hexec hR₁ => hcmd.managed hname hveth hexec hR₁

variable (std)

/-- **The rulesets the daemon arrives at** from the base table, by applying and removing the rules
    of zones, with the interfaces that there are at each step.  The names are such that `nft` can
    hold chains and rules with them. -/
inductive Installed : Ruleset → Prop where
  | base : Installed baseRuleset
  | apply {R : Ruleset} {links : Links} {zoneName vethName : String} {policy : NetworkPolicy}
      (h : Installed R) (hname : Plain zoneName) (hveth : Plain vethName)
      (hpeers : ∀ peer ∈ peers links policy, Quotable peer) :
      Installed (applyZoneRules std links zoneName vethName policy R).2
  | remove {R : Ruleset} {zoneName : String} (h : Installed R) (hname : Plain zoneName) :
      Installed (removeZoneRules zoneName R)

variable {std}

lemma Installed.managed (h : Installed std R) : Managed R := by
  induction h with
  | base => exact baseRuleset_managed
  | apply _ hname hveth hpeers ih => exact applyZoneRules_managed hname hveth hpeers ih
  | remove _ hname ih => exact (removeZoneRules_removed hname ih).managed ih

/-- The table and the base chains are there. -/
structure Ready (R : Ruleset) : Prop where
  table : ("bridge", "rauha") ∈ R.tables
  base : ∀ b, IsBase b → (R.chain (bridge b)).isSome = true

lemma baseRuleset_ready : Ready baseRuleset := by
  refine ⟨by rw [baseRuleset_eq]; decide +kernel, fun b hb => ?_⟩
  rw [map_inj_left.mp baseRuleset_chain b hb]
  rfl

lemma Removed.ready (h : Removed zoneName R R') (hR : Ready R) : Ready R' := by
  refine ⟨h.tables ▸ hR.table, fun b hb => ?_⟩
  obtain ⟨p, hp, rfl⟩ := zoneChains_of_isBase zoneName hb
  rw [h.base p hp, Option.isSome_map]
  exact hR.base _ hb

lemma zoneCommands_adds :
    ∀ cmd ∈ zoneCommands std links zoneName vethName policy egress ingress, cmd.Adds := by
  intro cmd hcmd
  cases zoneCommands_own cmd hcmd <;> trivial

/-- In a table with its base chains `nft` takes the commands of a zone. -/
lemma zoneCommands_executes (hR : Ready R) :
    ∃ R', Ruleset.execAll (zoneCommands std links zoneName vethName policy egress ingress) R =
      some R' := by
  obtain ⟨later, hsplit, hrules⟩ : ∃ later,
      zoneCommands std links zoneName vethName policy egress ingress =
        ((zoneChains zoneName).map fun p => bridge p.2).map .addChain ++ later ∧
      ∀ cmd ∈ later, ∃ c r, cmd = .addRule c r := by
    refine ⟨_, by simp only [zoneCommands, append_assoc]; rfl, ?_⟩
    simp only [forall_mem_append, forall_mem_map]
    exact ⟨fun r _ => ⟨_, _, rfl⟩, fun r _ => ⟨_, _, rfl⟩, fun r _ => ⟨_, _, rfl⟩,
      fun j _ => ⟨_, _, rfl⟩⟩
  have htable : ∀ c ∈ (zoneChains zoneName).map fun p => bridge p.2,
      (c.family, c.table) ∈ R.tables := by
    intro c hc
    obtain ⟨p, -, rfl⟩ := mem_map.mp hc
    exact hR.table
  obtain ⟨R₁, h₁, hchains⟩ := execAll_addChains htable
  have hadds : ∀ cmd ∈ ((zoneChains zoneName).map fun p => bridge p.2).map Command.addChain,
      cmd.Adds := by
    intro cmd hcmd
    obtain ⟨c, -, rfl⟩ := mem_map.mp hcmd
    trivial
  have hown : ∀ p ∈ zoneChains zoneName, (R₁.chain (bridge p.2)).isSome = true := fun p hp =>
    hchains _ (mem_map_of_mem hp)
  have hfits : ∀ cmd ∈ later, cmd.Fits R₁ := by
    intro cmd hcmd
    have hmem : cmd ∈ zoneCommands std links zoneName vethName policy egress ingress := by
      rw [hsplit]
      exact mem_append_right _ hcmd
    obtain ⟨c, r, heq⟩ := hrules cmd hcmd
    cases zoneCommands_own cmd hmem with
    | addChain hp => cases heq
    | @addRule p r hp hr =>
      refine ⟨hown p hp, ?_⟩
      cases hv : r.verdict with
      | jump chain => exact absurd hv (hr chain)
      | _ => rfl
    | @jump p r hp hr =>
      refine ⟨(execAll_grown hadds h₁).isSome _ (hR.base _ (zoneChains_isBase p hp)), ?_⟩
      rcases hr with rfl | rfl <;> exact hown p hp
  obtain ⟨R₂, h₂⟩ := execAll_fits hfits
  exact ⟨R₂, by rw [hsplit, execAll_append, h₁, Option.bind_some, h₂]⟩

/-- The jumps of a zone from one base chain. -/
def jumpsFrom (zoneName vethName b : String) : List Rule :=
  (zoneJumps zoneName vethName).flatMap fun j => if j.1 = b then [j.2] else []

/-- **The state after a zone's rules were applied.**  The chain of the zone holds the rules of its
    policy, each base chain has the zone's jumps at its end, and the chains of other zones are as
    they were. -/
structure Installs (links : Links) (zoneName vethName : String) (policy : NetworkPolicy)
    (R R' : Ruleset) : Prop where
  zone : R'.rules (bridge (zoneChainName zoneName)) = zoneRules links vethName policy
  base : ∀ p ∈ zoneChains zoneName, R'.rules (bridge p.1) =
    (R.rules (bridge p.1)).filter (fun r => !mentions p.2 r) ++ jumpsFrom zoneName vethName p.1
  other : ∀ other, other ≠ zoneName →
    R'.rules (bridge (zoneChainName other)) = R.rules (bridge (zoneChainName other))

lemma zoneCommands_added (zoneName vethName : String) (policy : NetworkPolicy)
    (egress ingress : List NetworkEndpoint) (c : String) :
    (zoneCommands std links zoneName vethName policy egress ingress).flatMap
        (Command.added (bridge c)) =
      (if zoneChainName zoneName = c then zoneRules links vethName policy else []) ++
      (if zoneInputChainName zoneName = c then hostRules std .daddr policy.mode egress else []) ++
      (if zoneOutputChainName zoneName = c then hostRules std .saddr policy.mode ingress else []) ++
      jumpsFrom zoneName vethName c := by
  simp only [zoneCommands, jumpsFrom, flatMap_append, flatMap_added, bridge_inj]
  simp [Command.added, bridge_inj, flatMap_map]

lemma rules_keep {c : ChainRef}
    (h : R'.chain c = (R.chain c).map (Chain.keep fun r => !mentions chainName r.2)) :
    R'.rules c = (R.rules c).filter fun r => !mentions chainName r := by
  unfold Ruleset.rules
  rw [h]
  cases R.chain c with
  | none => rfl
  | some ch => simp [Chain.keep, filter_map, Function.comp_def]

/-- The names of chains of different kinds differ. -/
lemma chainNames_ne (zoneName other : String) :
    zoneInputChainName zoneName ≠ zoneChainName other ∧
    zoneOutputChainName zoneName ≠ zoneChainName other := by
  constructor
  · intro heq
    simpa [zoneInputChainName, zoneChainName] using congrArg String.toList heq
  · intro heq
    simpa [zoneOutputChainName, zoneChainName] using congrArg String.toList heq

/-- What the commands of a zone add to the chain of a zone. -/
lemma zoneCommands_added_zone (zoneName vethName : String) (policy : NetworkPolicy)
    (egress ingress : List NetworkEndpoint) (other : String) :
    (zoneCommands std links zoneName vethName policy egress ingress).flatMap
        (Command.added (bridge (zoneChainName other))) =
      if zoneChainName zoneName = zoneChainName other then zoneRules links vethName policy
      else [] := by
  have hbase : ∀ b, IsBase b → b ≠ zoneChainName other := fun b hb =>
    base_ne_zoneChain hb (by simp [zoneChainName])
  have hjumps : jumpsFrom zoneName vethName (zoneChainName other) = [] := by
    simpa [jumpsFrom, zoneJumps] using ⟨hbase "forward" (by simp [IsBase]),
      hbase "input" (by simp [IsBase]), hbase "output" (by simp [IsBase])⟩
  rw [zoneCommands_added, if_neg (chainNames_ne zoneName other).1,
    if_neg (chainNames_ne zoneName other).2, hjumps]
  simp

lemma zoneCommands_added_base (zoneName vethName : String) (policy : NetworkPolicy)
    (egress ingress : List NetworkEndpoint) (hb : IsBase b) :
    (zoneCommands std links zoneName vethName policy egress ingress).flatMap
        (Command.added (bridge b)) = jumpsFrom zoneName vethName b := by
  have hne : ∀ p ∈ zoneChains zoneName, ¬ p.2 = b := fun p hp heq =>
    base_ne_zoneChain hb (zoneChains_hyphen p hp) heq.symm
  simp only [zoneChains, forall_mem_cons, not_mem_nil, false_imp_iff, implies_true, and_true] at hne
  rw [zoneCommands_added, if_neg hne.1, if_neg hne.2.1, if_neg hne.2.2]
  simp

lemma Removed.rules_zone (h : Removed zoneName R R') :
    R'.rules (bridge (zoneChainName zoneName)) = [] := by
  unfold Ruleset.rules
  cases hch : R'.chain (bridge (zoneChainName zoneName)) with
  | none => rfl
  | some ch => simp [h.own _ (mem_zoneChains_forward zoneName) ch hch]

lemma Removed.rules_other {zoneName : String} (h : Removed zoneName R R')
    (hother : other ≠ zoneName) :
    R'.rules (bridge (zoneChainName other)) = R.rules (bridge (zoneChainName other)) := by
  have hkept := h.chain_other hother (mem_zoneChains_forward other)
  unfold Ruleset.rules
  rw [hkept]

lemma zoneCommands_installs {R R₁ R' : Ruleset} (hremoved : Removed zoneName R R₁)
    (h : Ruleset.execAll (zoneCommands std links zoneName vethName policy egress ingress) R₁ =
      some R') : Installs links zoneName vethName policy R R' := by
  have hgrown := (execAll_grown zoneCommands_adds h).rules
  constructor
  · rw [hgrown, hremoved.rules_zone, zoneCommands_added_zone, if_pos rfl, nil_append]
  · intro p hp
    rw [hgrown, rules_keep (hremoved.base p hp), zoneCommands_added_base _ _ _ _ _
      (zoneChains_isBase p hp)]
  · intro other hother
    rw [hgrown, hremoved.rules_other hother, zoneCommands_added_zone,
      if_neg (zoneChains_ne hother _ (mem_zoneChains_forward _) _ (mem_zoneChains_forward _)).symm,
      append_nil]

/-- **Applying the rules of a zone works** in a table with its base chains. -/
lemma applyZoneRules_installs {zoneName vethName : String} (hname : Plain zoneName)
    (hveth : Quotable vethName) (hpeers : ∀ peer ∈ peers links policy, Quotable peer)
    (hscript : zoneScript std links zoneName vethName policy = .ok (some script))
    (hmanaged : Managed R) (hready : Ready R) :
    ∃ R', applyZoneRules std links zoneName vethName policy R = (.ok (), R') ∧ Ready R' ∧
      Installs links zoneName vethName policy R R' := by
  have hremoved := removeZoneRules_removed hname hmanaged
  obtain ⟨egress, ingress, hread⟩ := zoneScript_read hname hveth hpeers hscript
  have hafter := hremoved.ready hready
  obtain ⟨R', hexec⟩ := zoneCommands_executes (R := removeZoneRules zoneName R) hafter
  have htrans : (removeZoneRules zoneName R).transaction script = some R' := by
    rw [Ruleset.transaction, hread, Option.bind_some, hexec]
  have hgrown := execAll_grown zoneCommands_adds hexec
  refine ⟨R', ?_, ⟨hgrown.tables ▸ hafter.table, fun b hb => hgrown.isSome _ (hafter.base b hb)⟩,
    zoneCommands_installs hremoved hexec⟩
  unfold applyZoneRules runNftScript
  simp only [hscript, htrans]

/-! ### The zone `ab` and two others -/

lemma baseRuleset_rules (b : String) (hb : IsBase b) : baseRuleset.rules (bridge b) = [] := by
  unfold Ruleset.rules
  rw [map_inj_left.mp baseRuleset_chain b hb]
  rfl

/-- There is no chain besides the base chains. -/
lemma baseRuleset_none (hc : '-' ∈ c.toList) : baseRuleset.chain (bridge c) = none := by
  have hkeys : baseRuleset.chains.keys = ["output", "input", "forward"].map bridge := by
    rw [baseRuleset_eq]
    decide +kernel
  refine AList.lookup_eq_none.mpr fun hmem => ?_
  have hmem : bridge c ∈ baseRuleset.chains.keys := hmem
  rw [hkeys] at hmem
  obtain ⟨b, hb, heq⟩ := mem_map.mp hmem
  have hbase : IsBase b := by
    simp only [mem_cons, not_mem_nil, or_false] at hb
    rcases hb with rfl | rfl | rfl <;> simp [IsBase]
  exact base_ne_zoneChain hbase hc (bridge_inj.mp heq)

end Rauha.Nftables
