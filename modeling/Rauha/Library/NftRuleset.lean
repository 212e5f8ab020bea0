import Rauha.Library.Nft
import Rauha.Library.Table

/-!
# Rulesets and what they decide

A ruleset is what `nft` keeps in the kernel: tables, chains and, in each chain, rules that have a
handle.  Handles are never given twice, so within a chain a handle names one rule; the record
carries the proof.

* **Changing it.**  `exec` carries out one command and `transaction` a script, all of it or nothing.
* **Listing it.**  `listing` is what `nft -a list chain` prints of a chain, line by line.  The
  handles of the table and of the chain, which stand after the opening braces, are left out.
* **Deciding with it.**  `accepts` runs a packet through a base chain.  Rules are tried in order; a
  jump enters a chain, `return` and the end of a chain resume the caller, `accept` and `drop` are
  final, and the policy of the base chain decides what is left.  The kernel lets jumps nest to a
  depth of sixteen.
-/

namespace Nft

open List

structure Chain where
  base : Option Base
  rules : List (ℕ × Rule)
  deriving DecidableEq

/-- Handles below the next one to be given, and no two the same. -/
def Chain.Numbered (ch : Chain) (next : ℕ) : Prop :=
  (ch.rules.map Prod.fst).Nodup ∧ ∀ r ∈ ch.rules, r.1 < next

structure Ruleset where
  tables : List (String × String)
  chains : AList fun _ : ChainRef => Chain
  nextHandle : ℕ
  numbered : ∀ c ch, chains.lookup c = some ch → ch.Numbered nextHandle

/-! ## Changing a chain -/

lemma Chain.numbered_nil (base : Option Base) (n : ℕ) : Chain.Numbered ⟨base, []⟩ n :=
  ⟨nodup_nil, fun _ hr => nomatch hr⟩

variable {ch : Chain} {n : ℕ}

lemma Chain.Numbered.mono {m : ℕ} (h : ch.Numbered n) (hle : n ≤ m) : ch.Numbered m :=
  ⟨h.1, fun r hr => lt_of_lt_of_le (h.2 r hr) hle⟩

/-- A chain with the rules that pass a test. -/
def Chain.keep (p : ℕ × Rule → Bool) (ch : Chain) : Chain := { ch with rules := ch.rules.filter p }

lemma Chain.Numbered.keep (h : ch.Numbered n) (p : ℕ × Rule → Bool) : (ch.keep p).Numbered n :=
  ⟨h.1.sublist (filter_sublist.map _), fun r hr => h.2 r (mem_of_mem_filter hr)⟩

lemma Chain.Numbered.append (h : ch.Numbered n) (r : Rule) :
    Chain.Numbered { ch with rules := ch.rules ++ [(n, r)] } (n + 1) := by
  constructor
  · have hn : n ∉ ch.rules.map Prod.fst := by
      intro hmem
      obtain ⟨r, hr, hrn⟩ := mem_map.mp hmem
      exact absurd (h.2 r hr) (by omega)
    show ((ch.rules ++ [(n, r)]).map Prod.fst).Nodup
    rw [map_append, nodup_append]
    refine ⟨h.1, by simp, fun a ha b hb hab => hn ?_⟩
    rw [map_singleton, mem_singleton] at hb
    rw [hab, hb] at ha
    exact ha
  · intro r' hr'
    rcases mem_append.mp hr' with hr' | hr'
    · exact lt_of_lt_of_le (h.2 r' hr') (Nat.le_succ n)
    · rw [mem_singleton.mp hr']; exact Nat.lt_succ_self n

namespace Ruleset

variable (R : Ruleset)

def chain (c : ChainRef) : Option Chain := R.chains.lookup c

/-- The ruleset `nft` starts from. -/
def empty : Ruleset where
  tables := []
  chains := ∅
  nextHandle := 1
  numbered := by simp

/-- The chain `c`, with other rules. -/
def put (c : ChainRef) (ch : Chain) (next : ℕ) (hnext : R.nextHandle ≤ next)
    (hch : ch.Numbered next) : Ruleset where
  tables := R.tables
  chains := R.chains.insert c ch
  nextHandle := next
  numbered := by
    intro c' ch' h
    rcases Table.of_lookup_insert h with ⟨-, rfl⟩ | ⟨-, hold⟩
    · exact hch
    · exact (R.numbered c' ch' hold).mono hnext

def remove (c : ChainRef) : Ruleset where
  tables := R.tables
  chains := R.chains.erase c
  nextHandle := R.nextHandle
  numbered c' ch' h := R.numbered c' ch' (Table.of_lookup_erase h).2

def dropTable (family table : String) : Ruleset :=
  let inside := R.chains.keys.filter fun c => c.family = family ∧ c.table = table
  { inside.foldl remove R with tables := R.tables.erase (family, table) }

/-- A rule jumps to the chain. -/
def jumpedTo (c : ChainRef) : Bool :=
  R.chains.entries.any fun entry =>
    entry.1.family = c.family ∧ entry.1.table = c.table ∧
      entry.2.rules.any fun r => r.2.verdict = .jump c.chain

variable {R} {c c' : ChainRef} {ch : Chain} {n : ℕ}

@[simp] lemma chain_put {hn : R.nextHandle ≤ n} {hch : ch.Numbered n} :
    (R.put c ch n hn hch).chain c' = if c' = c then some ch else R.chain c' :=
  Table.lookup_insert_ite R.chains c c' ch

@[simp] lemma tables_remove : (R.remove c).tables = R.tables := rfl

@[simp] lemma chain_remove : (R.remove c).chain c' = if c' = c then none else R.chain c' :=
  Table.lookup_erase_ite R.chains c c'

end Ruleset

/-! ## Carrying out commands -/

def readHandle (text : String) : Option ℕ :=
  if text ≠ "" ∧ text.toList.all Char.isDigit then some (Nat.ofDigitChars 10 text.toList 0)
  else none

namespace Ruleset

variable (R : Ruleset)

def addChain (c : ChainRef) (base : Option Base) : Option Ruleset :=
  if (c.family, c.table) ∈ R.tables then
    if (R.chain c).isSome then some R
    else some (R.put c ⟨base, []⟩ R.nextHandle le_rfl (Chain.numbered_nil base _))
  else none

/-- The chain a rule jumps to, in the same table. -/
def hasTarget (c : ChainRef) : Verdict → Bool
  | .jump target => (R.chain { c with chain := target }).isSome
  | _ => true

def addRule (c : ChainRef) (rule : Rule) : Option Ruleset :=
  match h : R.chain c with
  | none => none
  | some ch =>
    if R.hasTarget c rule.verdict then
      some (R.put c { ch with rules := ch.rules ++ [(R.nextHandle, rule)] } (R.nextHandle + 1)
        (Nat.le_succ _) ((R.numbered c ch h).append rule))
    else none

/-- Keep the rules of a chain that pass a test. -/
def filterRules (c : ChainRef) (keep : ℕ × Rule → Bool) : Option Ruleset :=
  match h : R.chain c with
  | none => none
  | some ch =>
    some (R.put c (ch.keep keep) R.nextHandle le_rfl ((R.numbered c ch h).keep keep))

def hasHandle (c : ChainRef) (n : ℕ) : Bool :=
  (R.chain c).any fun ch => ch.rules.any fun r => r.1 = n

def exec : Command → Option Ruleset
  | .addTable family table => some { R with tables := R.tables.insert (family, table) }
  | .deleteTable family table =>
    if (family, table) ∈ R.tables then some (R.dropTable family table) else none
  | .addChain c => R.addChain c none
  | .addBaseChain c base => R.addChain c (some base)
  | .addRule c rule => R.addRule c rule
  | .flushChain c => R.filterRules c fun _ => false
  | .deleteChain c => if (R.chain c).isSome ∧ R.jumpedTo c = false then some (R.remove c) else none
  | .deleteRule c handle =>
    (readHandle handle).bind fun n =>
      if R.hasHandle c n then R.filterRules c (fun r => r.1 ≠ n) else none
  | .flushRuleset => some empty

/-- One after the other, or not at all. -/
def execAll : List Command → Ruleset → Option Ruleset
  | [], R => some R
  | cmd :: cmds, R => (R.exec cmd).bind (execAll cmds)

/-- What `nft -f` and `nft` with arguments do with a text. -/
def transaction (text : String) : Option Ruleset :=
  (readScript text).bind fun cmds => execAll cmds R

end Ruleset

/-- One chain has only the rules that pass a test, and the others are as they were. -/
structure Filtered (R R' : Ruleset) (c : ChainRef) (p : ℕ × Rule → Bool) : Prop where
  tables : R'.tables = R.tables
  chain : ∀ c', R'.chain c' = if c' = c then (R.chain c).map (.keep p) else R.chain c'

lemma Chain.keep_true {p : ℕ × Rule → Bool} (h : ∀ r ∈ ch.rules, p r = true) : ch.keep p = ch := by
  unfold Chain.keep
  rw [filter_eq_self.mpr h]

variable {R : Ruleset} {c : ChainRef}

lemma filtered_refl {p : ℕ × Rule → Bool}
    (h : ∀ ch, R.chain c = some ch → ∀ r ∈ ch.rules, p r = true) : Filtered R R c p := by
  refine ⟨rfl, fun c' => ?_⟩
  split_ifs with hc
  · subst hc
    cases hch : R.chain c' with
    | none => rfl
    | some ch => rw [Option.map_some, Chain.keep_true (h ch hch)]
  · rfl

variable {R' : Ruleset}

lemma Filtered.trans {R'' : Ruleset} {p q : ℕ × Rule → Bool} (h : Filtered R R' c p)
    (h' : Filtered R' R'' c q) : Filtered R R'' c fun r => q r && p r := by
  refine ⟨h'.tables.trans h.tables, fun c' => ?_⟩
  rw [h'.chain c']
  split_ifs with hc
  · rw [h.chain c, if_pos rfl, Option.map_map]
    congr 1
    funext ch
    simp [Chain.keep, filter_filter]
  · rw [h.chain c', if_neg hc]

lemma filterRules_filtered (R : Ruleset) (c : ChainRef) (p : ℕ × Rule → Bool) :
    Filtered R ((R.filterRules c p).getD R) c p := by
  unfold Ruleset.filterRules
  split
  · rename_i hnone
    exact filtered_refl fun ch hch => by rw [hnone] at hch; cases hch
  · rename_i ch hch
    refine ⟨rfl, fun c' => ?_⟩
    rw [Option.getD_some, Ruleset.chain_put, hch, Option.map_some]

lemma readHandle_toDigits (n : ℕ) : readHandle (String.ofList (Nat.toDigits 10 n)) = some n := by
  have hne : String.ofList (Nat.toDigits 10 n) ≠ "" := fun hempty => by
    simpa using congrArg String.toList hempty
  have hdigits : (Nat.toDigits 10 n).all Char.isDigit = true :=
    all_eq_true.mpr fun c hc => Nat.isDigit_of_mem_toDigits (by omega) (le_refl _) hc
  unfold readHandle
  rw [String.toList_ofList, if_pos ⟨hne, hdigits⟩, Nat.ofDigitChars_ten_toDigits]

/-- Deleting a rule by its handle, whether it is there or not. -/
lemma deleteRule_filtered (R : Ruleset) (c : ChainRef) (n : ℕ) :
    Filtered R ((R.exec (.deleteRule c (String.ofList (Nat.toDigits 10 n)))).getD R) c
      fun r => r.1 ≠ n := by
  have hexec : R.exec (.deleteRule c (String.ofList (Nat.toDigits 10 n))) =
      if R.hasHandle c n then R.filterRules c (fun r => r.1 ≠ n) else none := by
    rw [Ruleset.exec, readHandle_toDigits, Option.bind_some]
  rw [hexec]
  by_cases h : R.hasHandle c n = true
  · rw [if_pos h]
    exact filterRules_filtered R c _
  · rw [if_neg h]
    refine filtered_refl fun ch hch r hr => ?_
    have hany : ¬ (ch.rules.any fun r => r.1 = n) = true := by
      simpa [Ruleset.hasHandle, hch] using h
    simp only [any_eq_true, decide_eq_true_eq, not_exists, not_and] at hany
    simpa using hany r hr

lemma chain_addChain {base : Option Base} (h : R.addChain c base = some R') :
    (∀ c', c' ≠ c → R'.chain c' = R.chain c') ∧
      (R'.chain c = R.chain c ∨ R.chain c = none ∧ R'.chain c = some ⟨base, []⟩) := by
  unfold Ruleset.addChain at h
  split_ifs at h with htable hsome
  · cases h; exact ⟨fun _ _ => rfl, .inl rfl⟩
  · cases h
    refine ⟨fun c' hc => ?_, .inr ⟨by simpa using hsome, ?_⟩⟩
    · rw [Ruleset.chain_put, if_neg hc]
    · rw [Ruleset.chain_put, if_pos rfl]

lemma chain_addRule {rule : Rule} (h : R.addRule c rule = some R') :
    (∀ c', c' ≠ c → R'.chain c' = R.chain c') ∧ ∃ ch, R.chain c = some ch ∧
      R'.chain c = some { ch with rules := ch.rules ++ [(R.nextHandle, rule)] } := by
  unfold Ruleset.addRule at h
  split at h
  · cases h
  · rename_i ch hch
    split_ifs at h
    cases h
    refine ⟨fun c' hc => ?_, ch, hch, ?_⟩
    · rw [Ruleset.chain_put, if_neg hc]
    · rw [Ruleset.chain_put, if_pos rfl]

/-- **What each command keeps, a script keeps.** -/
lemma execAll_invariant {P : Ruleset → Prop} {cmds : List Command}
    (hstep : ∀ cmd ∈ cmds, ∀ R R', R.exec cmd = some R' → P R → P R')
    (h : Ruleset.execAll cmds R = some R') (hR : P R) : P R' := by
  induction cmds generalizing R with
  | nil => cases h; exact hR
  | cons cmd cmds ih =>
    obtain ⟨hcmd, hcmds⟩ := forall_mem_cons.mp hstep
    obtain ⟨R₁, h₁, hrest⟩ := Option.bind_eq_some_iff.mp h
    exact ih hcmds hrest (hcmd R R₁ h₁ hR)

/-! ### Adding to a ruleset -/

namespace Ruleset

def rules (R : Ruleset) (c : ChainRef) : List Rule :=
  ((R.chain c).map fun ch => ch.rules.map Prod.snd).getD []

def base (R : Ruleset) (c : ChainRef) : Option Base := (R.chain c).bind Chain.base

end Ruleset

lemma Ruleset.mem_rules {r : Rule} :
    r ∈ R.rules c ↔ ∃ ch n, R.chain c = some ch ∧ (n, r) ∈ ch.rules := by
  unfold Ruleset.rules
  cases R.chain c <;> simp

/-- The rule a command adds to a chain. -/
def Command.added (c : ChainRef) : Command → List Rule
  | .addRule c' r => if c' = c then [r] else []
  | _ => []

lemma flatMap_added (c c' : ChainRef) (rs : List Rule) :
    (rs.map (.addRule c')).flatMap (Command.added c) = if c' = c then rs else [] := by
  induction rs with
  | nil => simp
  | cons r rs ih =>
    rw [map_cons, flatMap_cons, ih]
    by_cases h : c' = c <;> simp [Command.added, h]

/-- The commands that add chains and rules. -/
def Command.Adds : Command → Prop
  | .addChain _ | .addRule _ _ => True
  | _ => False

/-- Rules at the ends of chains, and chains that were not there. -/
structure Grown (R R' : Ruleset) (extra : ChainRef → List Rule) : Prop where
  tables : R'.tables = R.tables
  isSome : ∀ c, (R.chain c).isSome = true → (R'.chain c).isSome = true
  rules : ∀ c, R'.rules c = R.rules c ++ extra c
  base : ∀ c, R'.base c = R.base c

attribute [local simp] Ruleset.rules Ruleset.base Command.added in
lemma exec_grown {cmd : Command} (hadds : cmd.Adds) (h : R.exec cmd = some R') :
    Grown R R' fun c => cmd.added c := by
  cases cmd with
  | addChain c =>
    have htables : R'.tables = R.tables := by
      simp only [Ruleset.exec, Ruleset.addChain] at h
      split_ifs at h <;> cases h <;> rfl
    obtain ⟨hother, hown⟩ := chain_addChain h
    have hcases : ∀ c', R'.chain c' = R.chain c' ∨
        R.chain c' = none ∧ R'.chain c' = some ⟨none, []⟩ := by
      intro c'
      by_cases hc : c' = c
      · rw [hc]; exact hown
      · exact Or.inl (hother c' hc)
    refine ⟨htables, fun c' hsome => ?_, fun c' => ?_, fun c' => ?_⟩
    · rcases hcases c' with heq | ⟨-, heq⟩ <;> rw [heq]
      · exact hsome
      · rfl
    · rcases hcases c' with heq | ⟨hnone, heq⟩
      · simp [heq]
      · simp [heq, hnone]
    · rcases hcases c' with heq | ⟨hnone, heq⟩
      · simp [heq]
      · simp [heq, hnone]
  | addRule c r =>
    have htables : R'.tables = R.tables := by
      simp only [Ruleset.exec, Ruleset.addRule] at h
      split at h
      · cases h
      · split_ifs at h
        cases h
        rfl
    obtain ⟨hother, ch, hch, hch'⟩ := chain_addRule h
    refine ⟨htables, fun c' hsome => ?_, fun c' => ?_, fun c' => ?_⟩
    all_goals by_cases hc : c' = c
    · rw [hc, hch']; rfl
    · rw [hother c' hc]; exact hsome
    · subst hc
      simp [hch, hch']
    · have hc' : ¬ c = c' := fun heq => hc heq.symm
      simp [hother c' hc, hc']
    · rw [hc]; simp [hch, hch']
    · simp [hother c' hc]
  | _ => cases hadds

/-- **What commands add up to.** -/
lemma execAll_grown {cmds : List Command} (hadds : ∀ cmd ∈ cmds, cmd.Adds)
    (h : Ruleset.execAll cmds R = some R') : Grown R R' fun c => cmds.flatMap (·.added c) := by
  induction cmds generalizing R with
  | nil => cases h; exact ⟨rfl, fun _ h => h, fun c => by simp, fun _ => rfl⟩
  | cons cmd cmds ih =>
    obtain ⟨hcmd, hcmds⟩ := forall_mem_cons.mp hadds
    obtain ⟨R₁, h₁, hrest⟩ := Option.bind_eq_some_iff.mp h
    have hfirst := exec_grown hcmd h₁
    have hlater := ih hcmds hrest
    refine ⟨hlater.tables.trans hfirst.tables, fun c hc => hlater.isSome c (hfirst.isSome c hc),
      fun c => ?_, fun c => (hlater.base c).trans (hfirst.base c)⟩
    rw [hlater.rules, hfirst.rules, flatMap_cons, append_assoc]

lemma execAll_append (cmds cmds' : List Command) (R : Ruleset) :
    Ruleset.execAll (cmds ++ cmds') R = (Ruleset.execAll cmds R).bind (Ruleset.execAll cmds') := by
  induction cmds generalizing R with
  | nil => rfl
  | cons cmd cmds ih =>
    rw [cons_append, Ruleset.execAll, Ruleset.execAll, Option.bind_assoc]
    exact congrArg _ (funext ih)

lemma execAll_addChains {cs : List ChainRef} (h : ∀ c ∈ cs, (c.family, c.table) ∈ R.tables) :
    ∃ R', Ruleset.execAll (cs.map .addChain) R = some R' ∧
      ∀ c ∈ cs, (R'.chain c).isSome = true := by
  induction cs generalizing R with
  | nil => exact ⟨R, rfl, fun c hc => nomatch hc⟩
  | cons c cs ih =>
    obtain ⟨hc, hcs⟩ := forall_mem_cons.mp h
    obtain ⟨R₁, h₁, hown⟩ : ∃ R₁, R.exec (.addChain c) = some R₁ ∧
        (R₁.chain c).isSome = true := by
      simp only [Ruleset.exec, Ruleset.addChain, if_pos hc]
      split_ifs with hsome
      · exact ⟨R, rfl, hsome⟩
      · exact ⟨_, rfl, by rw [Ruleset.chain_put, if_pos rfl]; rfl⟩
    have hadds : (Command.addChain c).Adds := trivial
    have hgrown := exec_grown hadds h₁
    obtain ⟨R', h', hsome⟩ := ih (R := R₁) fun c' hc' => hgrown.tables ▸ hcs c' hc'
    refine ⟨R', ?_, forall_mem_cons.mpr ⟨?_, hsome⟩⟩
    · rw [map_cons, Ruleset.execAll, h₁, Option.bind_some, h']
    · exact (execAll_grown (by simp [Command.Adds]) h').isSome c hown

lemma hasTarget_mono {v : Verdict} (h : ∀ c, (R.chain c).isSome = true → (R'.chain c).isSome = true)
    (hv : R.hasTarget c v = true) : R'.hasTarget c v = true := by
  cases v with
  | jump target => exact h _ hv
  | _ => rfl

/-- The chain a rule is added to is there, and the chain it jumps to. -/
def Command.Fits (R : Ruleset) : Command → Prop
  | .addRule c r => (R.chain c).isSome = true ∧ R.hasTarget c r.verdict = true
  | _ => False

lemma execAll_fits {cmds : List Command} (h : ∀ cmd ∈ cmds, cmd.Fits R) :
    ∃ R', Ruleset.execAll cmds R = some R' := by
  induction cmds generalizing R with
  | nil => exact ⟨R, rfl⟩
  | cons cmd cmds ih =>
    obtain ⟨hcmd, hcmds⟩ := forall_mem_cons.mp h
    cases cmd with
    | addRule c r =>
      obtain ⟨hchain, htarget⟩ := hcmd
      obtain ⟨R₁, h₁⟩ : ∃ R₁, R.exec (.addRule c r) = some R₁ := by
        obtain ⟨ch, hch⟩ := Option.isSome_iff_exists.mp hchain
        simp only [Ruleset.exec, Ruleset.addRule]
        split
        · rename_i hnone
          rw [hch] at hnone
          cases hnone
        · rw [if_pos htarget]
          exact ⟨_, rfl⟩
      have hadds : (Command.addRule c r).Adds := trivial
      have hgrown := exec_grown hadds h₁
      have hfits : ∀ cmd ∈ cmds, cmd.Fits R₁ := by
        intro cmd hmem
        have hfit := hcmds cmd hmem
        cases cmd with
        | addRule c' r' =>
          exact ⟨hgrown.isSome _ hfit.1, hasTarget_mono hgrown.isSome hfit.2⟩
        | _ => exact hfit
      obtain ⟨R', h'⟩ := ih hfits
      exact ⟨R', by rw [Ruleset.execAll, h₁, Option.bind_some, h']⟩
    | _ => cases hcmd

/-! ## Listing a chain -/

def Base.line (b : Base) : List Char :=
  "type ".toList ++ b.kind.toList ++ " hook ".toList ++ b.hook.toList ++ " priority ".toList ++
    b.priority.toList ++ "; policy ".toList ++ b.policy.toList ++ ";".toList

def ruleLine (r : ℕ × Rule) : List Char :=
  ['\t', '\t'] ++ unwords r.2.tokens ++ " # handle ".toList ++ Nat.toDigits 10 r.1

def listingHead (c : ChainRef) (base : Option Base) : List (List Char) :=
  ["table ".toList ++ c.family.toList ++ ' ' :: c.table.toList ++ " \x7b".toList,
    "\tchain ".toList ++ c.chain.toList ++ " \x7b".toList] ++
  (base.map fun b => ['\t', '\t'] ++ b.line).toList

def listingFoot : List (List Char) := ["\t\x7d".toList, "\x7d".toList]

def Ruleset.listing (R : Ruleset) (c : ChainRef) : Option (List (List Char)) :=
  (R.chain c).map fun ch => listingHead c ch.base ++ ch.rules.map ruleLine ++ listingFoot

/-! ## Deciding about a packet -/

/-- A packet at a hook: the interfaces it comes from and goes to, and what the other expressions say
    of it. -/
structure Packet where
  iif : String
  oif : String
  sees : Match → Bool

def Match.holds (p : Packet) : Match → Bool
  | .iifname name => p.iif = name
  | .oifname name => p.oif = name
  | m => p.sees m

inductive Outcome where
  | accept
  | drop
  | next
  deriving DecidableEq, Repr

def Rule.applies (r : Rule) (p : Packet) : Bool := r.guards.all (·.holds p)

/-- The rules of a chain in order; `enter` is what the chains jumped to make of the packet. -/
def evalRules (enter : String → Outcome) (p : Packet) : List Rule → Outcome
  | [] => .next
  | r :: rs =>
    if r.applies p then
      match r.verdict with
      | .accept => .accept
      | .drop => .drop
      | .ret => .next
      | .jump chain =>
        match enter chain with
        | .next => evalRules enter p rs
        | outcome => outcome
    else evalRules enter p rs

namespace Ruleset

variable (R : Ruleset)

def runChain (p : Packet) (family table : String) : (depth : ℕ) → String → Outcome
  | 0, _ => .drop
  | depth + 1, chain =>
    evalRules (runChain p family table depth) p (R.rules ⟨family, table, chain⟩)

/-- What the hook of a base chain decides.  A hook without a chain lets everything pass. -/
def accepts (c : ChainRef) (p : Packet) : Bool :=
  match R.chain c with
  | none => true
  | some ch =>
    match R.runChain p c.family c.table 16 c.chain with
    | .accept => true
    | .drop => false
    | .next => (ch.base.map Base.policy) = some "accept"

end Ruleset

/-- **What accepts a packet**: a rule that applies and accepts, or one that applies and jumps to a
    chain that accepts. -/
def AcceptedBy (enter : String → Outcome) (p : Packet) (rs : List Rule) : Prop :=
  ∃ r ∈ rs, r.applies p = true ∧
    (r.verdict = .accept ∨ ∃ chain, r.verdict = .jump chain ∧ enter chain = .accept)

variable {p : Packet} {enter : String → Outcome} {rs : List Rule}

lemma AcceptedBy.later {r : Rule} (h : AcceptedBy enter p rs) : AcceptedBy enter p (r :: rs) := by
  obtain ⟨r', hr', hrest⟩ := h
  exact ⟨r', mem_cons_of_mem r hr', hrest⟩

lemma evalRules_accept (h : evalRules enter p rs = .accept) : AcceptedBy enter p rs := by
  induction rs with
  | nil => cases h
  | cons r rs ih =>
    rw [evalRules] at h
    by_cases hr : r.applies p = true
    · rw [if_pos hr] at h
      cases hv : r.verdict with
      | accept => exact ⟨r, by simp, hr, .inl hv⟩
      | drop => rw [hv] at h; cases h
      | ret => rw [hv] at h; cases h
      | jump chain =>
        rw [hv] at h
        cases he : enter chain with
        | next => simp only [he] at h; exact (ih h).later
        | accept => exact ⟨r, by simp, hr, .inr ⟨chain, hv, he⟩⟩
        | drop => simp only [he] at h; cases h
    · rw [if_neg hr] at h
      exact (ih h).later

/-- Rules that only accept, or jump to where nothing is dropped, let through what one of them
    accepts, whatever comes after them. -/
lemma evalRules_append_accept {rest : List Rule} (h : AcceptedBy enter p rs)
    (hpass : ∀ r ∈ rs, r.verdict = .accept ∨
      ∃ chain, r.verdict = .jump chain ∧ enter chain ≠ .drop) :
    evalRules enter p (rs ++ rest) = .accept := by
  induction rs with
  | nil =>
    obtain ⟨r, hr, -⟩ := h
    cases hr
  | cons r rs ih =>
    obtain ⟨hr, hpass⟩ := forall_mem_cons.mp hpass
    obtain ⟨r', hr', happlies, hverdict⟩ := h
    rw [cons_append, evalRules]
    rcases mem_cons.mp hr' with rfl | hr'
    · rw [if_pos happlies]
      rcases hverdict with hverdict | ⟨chain, hverdict, henter⟩
      · simp only [hverdict]
      · simp only [hverdict, henter]
    · have hrest := ih ⟨r', hr', happlies, hverdict⟩ hpass
      split_ifs
      · rcases hr with hr | ⟨chain, hr, hdrop⟩
        · simp only [hr]
        · cases he : enter chain with
          | accept => simp only [hr, he]
          | drop => exact absurd he hdrop
          | next => simp only [hr, he, hrest]
      · exact hrest

lemma evalRules_ne_drop (h : ∀ r ∈ rs, r.verdict = .accept ∨ r.verdict = .ret) :
    evalRules enter p rs ≠ .drop := by
  induction rs with
  | nil => simp [evalRules]
  | cons r rs ih =>
    obtain ⟨hr, hrs⟩ := forall_mem_cons.mp h
    rw [evalRules]
    split_ifs
    · rcases hr with hr | hr <;> simp [hr]
    · exact ih hrs

end Nft
