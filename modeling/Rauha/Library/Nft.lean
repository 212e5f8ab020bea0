import Rauha.Library.Lines
import Mathlib.Tactic

/-!
# The nft command language

The part of the language of `nft` that a filter needs: tables, chains, rules made of matches and a
verdict.  A script is read line by line.  `lex` cuts a line into words, quoted strings and the
marks `;`, `{`, `}`; a semicolon outside braces ends a command, a `#` ends the line.

Reading and writing are inverse to each other.  `parseCommand_eq_some` says that a command is read
from its own tokens and from no others, and `readScript_render_iff` that a script reads back as the
commands it was written from **exactly if** every text in them is what its place allows: an
identifier for a chain, no quote and no line break in a quoted string.

Left out are the expressions no filter here uses, the commands that only print, and scripts in which
a pair of braces spans lines.
-/

namespace Nft

open List Option

/-! ## Tokens -/

inductive Token where
  | word (text : String)
  | quoted (text : String)
  | semi
  | opening
  | closing
  deriving DecidableEq, Repr

/-- The characters that continue a word: those of identifiers, addresses and numbers. -/
def isWordChar (c : Char) : Bool := c.isAlphanum || ['_', '-', '.', '/', ':', ','].contains c

/-- A text its token can hold. -/
def Token.Clean : Token → Prop
  | .word text => text ≠ "" ∧ ∀ c ∈ text.toList, isWordChar c = true
  | .quoted text => ∀ c ∈ text.toList, c ≠ '"' ∧ c ≠ '\n'
  | _ => True

instance : (t : Token) → Decidable t.Clean
  | .word text =>
    have := List.decidableBAll (isWordChar · = true) text.toList
    inferInstanceAs (Decidable (text ≠ "" ∧ _))
  | .quoted text => List.decidableBAll (fun c => c ≠ '"' ∧ c ≠ '\n') text.toList
  | .semi => .isTrue trivial
  | .opening => .isTrue trivial
  | .closing => .isTrue trivial

def Token.text : Token → List Char
  | .word text => text.toList
  | .quoted text => '"' :: (text.toList ++ ['"'])
  | .semi => [';']
  | .opening => ['\x7b']
  | .closing => ['\x7d']

/-- A token after another: a blank between the two, but not before a semicolon. -/
def Token.spaced (t : Token) : List Char := if t = .semi then t.text else ' ' :: t.text

def unwords : List Token → List Char
  | [] => []
  | t :: ts => t.text ++ ts.flatMap Token.spaced

lemma unwords_append (h : ts ≠ []) (ts' : List Token) :
    unwords (ts ++ ts') = unwords ts ++ ts'.flatMap Token.spaced := by
  cases ts with
  | nil => exact absurd rfl h
  | cons t ts => simp [unwords]

/-- What is being read: a word, which may not have begun yet, or a string whose closing quote is to
    come. -/
inductive Reading where
  | word (acc : List Char)
  | quoted (acc : List Char)

/-- The word that ends here, if one has begun. -/
def flush : List Char → List Token
  | [] => []
  | c :: acc => [.word (String.ofList (c :: acc))]

def mark : Char → Option Token
  | ';' => some .semi
  | '\x7b' => some .opening
  | '\x7d' => some .closing
  | _ => none

/-- The tokens of a line, up to its end, a line break or a comment. -/
def lex : Reading → List Char → Option (List Token)
  | .quoted _, [] => none
  | .quoted acc, c :: cs =>
    if c = '"' then (lex (.word []) cs).map (.quoted (String.ofList acc) :: ·)
    else if c = '\n' then none
    else lex (.quoted (acc ++ [c])) cs
  | .word acc, [] => some (flush acc)
  | .word acc, c :: cs =>
    if isWordChar c then lex (.word (acc ++ [c])) cs
    else if c = ' ' ∨ c = '\t' then (lex (.word []) cs).map (flush acc ++ ·)
    else if c = '"' then (lex (.quoted []) cs).map (flush acc ++ ·)
    else if c = '#' ∨ c = '\n' then some (flush acc)
    else
      match mark c with
      | some t => (lex (.word []) cs).map (flush acc ++ t :: ·)
      | none => none

/-! ### What the lexer returns is clean -/

/-- The text read so far is the beginning of a clean token. -/
def Reading.Clean : Reading → Prop
  | .word acc => ∀ c ∈ acc, isWordChar c = true
  | .quoted acc => ∀ c ∈ acc, c ≠ '"' ∧ c ≠ '\n'

variable {ts : List Token} {t : Token} {cmd : Command} {r : Rule} {rest : List Char} {c : Char}
  {name : String}

variable {acc : List Char}

lemma flush_clean (h : (Reading.word acc).Clean) : ∀ t ∈ flush acc, t.Clean := by
  intro t ht
  cases acc with
  | nil => cases ht
  | cons c acc =>
    rw [flush, mem_singleton] at ht
    subst ht
    refine ⟨fun hempty => ?_, fun d hd => h d (by simpa using hd)⟩
    simpa using congrArg String.toList hempty

lemma mark_clean (h : mark c = some t) : t.Clean := by
  unfold mark at h
  split at h <;> cases h <;> trivial

lemma clean_append {ts ts' : List Token} (h : ∀ t ∈ ts, t.Clean) (h' : ∀ t ∈ ts', t.Clean) :
    ∀ t ∈ ts ++ ts', t.Clean := by
  intro t ht
  exact (mem_append.mp ht).elim (h t) (h' t)

lemma forall_mem_push {P : Char → Prop} (h : ∀ d ∈ acc, P d) (hc : P c) :
    ∀ d ∈ acc ++ [c], P d := by
  intro d hd
  rcases mem_append.mp hd with hd | hd
  · exact h d hd
  · rw [mem_singleton.mp hd]; exact hc

theorem lex_clean {st : Reading} {cs : List Char} (hst : st.Clean) (h : lex st cs = some ts) :
    ∀ t ∈ ts, t.Clean := by
  have hword : (Reading.word []).Clean := by simp [Reading.Clean]
  have hquoted : (Reading.quoted []).Clean := by simp [Reading.Clean]
  induction cs generalizing st ts with
  | nil =>
    cases st with
    | quoted acc => cases h
    | word acc => cases h; exact flush_clean hst
  | cons c cs ih =>
    cases st with
    | quoted acc =>
      rw [lex] at h
      split_ifs at h with h₁ h₂
      · obtain ⟨ts', hts, rfl⟩ := map_eq_some_iff.mp h
        refine forall_mem_cons.mpr ⟨fun d hd => hst d (by simpa using hd), ih hword hts⟩
      · have hpush : (Reading.quoted (acc ++ [c])).Clean := forall_mem_push hst ⟨h₁, h₂⟩
        exact ih hpush h
    | word acc =>
      rw [lex] at h
      split_ifs at h with h₁ h₂ h₃ h₄
      · have hpush : (Reading.word (acc ++ [c])).Clean := forall_mem_push hst h₁
        exact ih hpush h
      · obtain ⟨ts', hts, rfl⟩ := map_eq_some_iff.mp h
        exact clean_append (flush_clean hst) (ih hword hts)
      · obtain ⟨ts', hts, rfl⟩ := map_eq_some_iff.mp h
        exact clean_append (flush_clean hst) (ih hquoted hts)
      · cases h; exact flush_clean hst
      · cases hm : mark c with
        | none => rw [hm] at h; cases h
        | some t =>
          rw [hm] at h
          obtain ⟨ts', hts, rfl⟩ := map_eq_some_iff.mp h
          exact clean_append (flush_clean hst)
            (forall_mem_cons.mpr ⟨mark_clean hm, ih hword hts⟩)

/-! ### Clean tokens are read back -/

/-- The end of a line. -/
def Ends (rest : List Char) : Prop := rest = [] ∨ ∃ more, rest = '\n' :: more

lemma lex_word_append {w : List Char} (hw : ∀ c ∈ w, isWordChar c = true) (acc rest : List Char) :
    lex (.word acc) (w ++ rest) = lex (.word (acc ++ w)) rest := by
  induction w generalizing acc with
  | nil => simp
  | cons c w ih =>
    obtain ⟨hc, hw⟩ := forall_mem_cons.mp hw
    rw [cons_append, lex, if_pos hc, ih hw, append_assoc]
    rfl

section

attribute [local simp] lex flush isWordChar Token.text

lemma lex_quoted_append {q : List Char} (hq : ∀ c ∈ q, c ≠ '"' ∧ c ≠ '\n')
    (acc rest : List Char) :
    lex (.quoted acc) (q ++ '"' :: rest) =
      (lex (.word []) rest).map (.quoted (String.ofList (acc ++ q)) :: ·) := by
  induction q generalizing acc with
  | nil => simp
  | cons c q ih =>
    obtain ⟨⟨hquote, hbreak⟩, hq⟩ := forall_mem_cons.mp hq
    rw [cons_append, lex, if_neg hquote, if_neg hbreak, ih hq, append_assoc]
    rfl

lemma flush_word {w : String} (hw : w ≠ "") : flush w.toList = [.word w] := by
  cases h : w.toList with
  | nil => exact absurd (by simpa using h) hw
  | cons c cs => rw [flush, ← h, String.ofList_toList]

/-- Nothing that continues a word. -/
def Breaks (rest : List Char) : Prop := ∀ c ∈ rest.head?, isWordChar c = false

/-- Where a word breaks off, it is the next token. -/
lemma lex_breaks (acc : List Char) (h : Breaks rest) :
    lex (.word acc) rest = (lex (.word []) rest).map (flush acc ++ ·) := by
  cases rest with
  | nil => simp
  | cons c cs =>
    have hc : ¬ isWordChar c = true := Bool.eq_false_iff.mp (h c rfl)
    rw [lex, lex, if_neg hc]
    split_ifs
    · simp
    · simp
    · simp
    · cases mark c with
      | none => rfl
      | some t =>
        simp only [Option.map_map]
        rfl

/-- A clean token in front of what does not continue it. -/
lemma lex_text (ht : t.Clean) (h : Breaks rest) :
    lex (.word []) (t.text ++ rest) = (lex (.word []) rest).map (t :: ·) := by
  cases t with
  | word w =>
    rw [Token.text, lex_word_append ht.2, nil_append, lex_breaks _ h, flush_word ht.1]
    rfl
  | quoted q =>
    rw [Token.text, cons_append, append_assoc, lex, singleton_append, lex_quoted_append ht]
    simp [Function.comp_def]
  | semi => simp [mark]
  | opening => simp [mark]
  | closing => simp [mark]

lemma lex_spaced (t : Token) (rest : List Char) :
    lex (.word []) (t.spaced ++ rest) = lex (.word []) (t.text ++ rest) := by
  unfold Token.spaced
  split_ifs
  · rfl
  · simp

lemma breaks_spaced (ts : List Token) (h : Ends rest) :
    Breaks (ts.flatMap Token.spaced ++ rest) := by
  cases ts with
  | nil =>
    rcases h with rfl | ⟨more, rfl⟩
    · simp [Breaks]
    · simp [Breaks]
  | cons t ts =>
    unfold Token.spaced
    cases t <;> simp [Breaks]

lemma lex_spaced_all (hts : ∀ t ∈ ts, t.Clean) (h : Ends rest) :
    lex (.word []) (ts.flatMap Token.spaced ++ rest) = some ts := by
  induction ts with
  | nil =>
    rcases h with rfl | ⟨more, rfl⟩
    · rfl
    · simp
  | cons t ts ih =>
    obtain ⟨ht, hts⟩ := forall_mem_cons.mp hts
    rw [flatMap_cons, append_assoc, lex_spaced, lex_text ht (breaks_spaced ts h), ih hts, map_some]

end

theorem lex_unwords (hts : ∀ t ∈ ts, t.Clean) (h : Ends rest) :
    lex (.word []) (unwords ts ++ rest) = some ts := by
  cases ts with
  | nil => exact lex_spaced_all hts h
  | cons t ts =>
    obtain ⟨ht, hts⟩ := forall_mem_cons.mp hts
    rw [unwords, append_assoc, lex_text ht (breaks_spaced ts h), lex_spaced_all hts h, map_some]

/-! ## Rules -/

inductive IpFamily where
  | ip
  | ip6
  deriving DecidableEq, Repr

inductive Side where
  | saddr
  | daddr
  deriving DecidableEq, Repr

/-- The expressions a rule tests a packet with. -/
inductive Match where
  | iifname (name : String)
  | oifname (name : String)
  | etherType (protocol : String)
  | l4proto (protocol : String)
  | ctState (states : String)
  | address (family : IpFamily) (side : Side) (network : String)
  | tcpDport (port : String)
  deriving DecidableEq, Repr

inductive Verdict where
  | accept
  | drop
  | ret
  | jump (chain : String)
  deriving DecidableEq, Repr

structure Rule where
  guards : List Match
  verdict : Verdict
  deriving DecidableEq, Repr

def IpFamily.text : IpFamily → String
  | .ip => "ip"
  | .ip6 => "ip6"

def Side.text : Side → String
  | .saddr => "saddr"
  | .daddr => "daddr"

def Match.tokens : Match → List Token
  | .iifname name => [.word "iifname", .quoted name]
  | .oifname name => [.word "oifname", .quoted name]
  | .etherType protocol => [.word "ether", .word "type", .word protocol]
  | .l4proto protocol => [.word "meta", .word "l4proto", .word protocol]
  | .ctState states => [.word "ct", .word "state", .word states]
  | .address family side network => [.word family.text, .word side.text, .word network]
  | .tcpDport port => [.word "tcp", .word "dport", .word port]

def Verdict.tokens : Verdict → List Token
  | .accept => [.word "accept"]
  | .drop => [.word "drop"]
  | .ret => [.word "return"]
  | .jump chain => [.word "jump", .word chain]

def Rule.tokens (r : Rule) : List Token := r.guards.flatMap Match.tokens ++ r.verdict.tokens

def isIdentStart (c : Char) : Bool := c.isAlpha || c == '_' || c == '.'

def isIdentChar (c : Char) : Bool := c.isAlphanum || ['_', '-', '.', '/'].contains c

/-- A name that may be written without quotes. -/
def isIdentifier (name : String) : Bool :=
  match name.toList with
  | [] => false
  | c :: cs => isIdentStart c && cs.all isIdentChar

lemma isIdentChar_of_isIdentStart (h : isIdentStart c = true) : isIdentChar c = true := by
  simp only [isIdentStart, Bool.or_eq_true, beq_iff_eq] at h
  rcases h with (h | rfl) | rfl
  · simp [isIdentChar, Char.isAlphanum, h]
  · decide
  · decide

lemma isWordChar_of_isIdentChar (h : isIdentChar c = true) : isWordChar c = true := by
  simp only [isIdentChar, isWordChar, Bool.or_eq_true, contains_eq_mem, mem_cons,
    not_mem_nil, or_false, decide_eq_true_eq] at h ⊢
  tauto

lemma isIdentifier_chars (h : isIdentifier name = true) :
    name.toList ≠ [] ∧ ∀ c ∈ name.toList, isIdentChar c = true := by
  unfold isIdentifier at h
  cases hname : name.toList with
  | nil => rw [hname] at h; cases h
  | cons c cs =>
    rw [hname] at h
    obtain ⟨hc, hcs⟩ := Bool.and_eq_true_iff.mp h
    refine ⟨by simp, forall_mem_cons.mpr ⟨isIdentChar_of_isIdentStart hc, ?_⟩⟩
    exact all_eq_true.mp hcs

/-- What follows an identifier continues it if all of it can. -/
lemma isIdentifier_append {start name : String} (h : isIdentifier start = true) :
    isIdentifier (start ++ name) = true ↔ ∀ c ∈ name.toList, isIdentChar c = true := by
  constructor
  · intro happ c hc
    exact (isIdentifier_chars happ).2 c (by simp [hc])
  · intro hname
    unfold isIdentifier at h ⊢
    rw [String.toList_append]
    cases hstart : start.toList with
    | nil => rw [hstart] at h; cases h
    | cons c cs =>
      rw [hstart] at h
      obtain ⟨hc, hcs⟩ := Bool.and_eq_true_iff.mp h
      simp only [cons_append, all_append, hc, hcs, Bool.true_and]
      exact all_eq_true.mpr hname

lemma clean_of_isIdentifier (h : isIdentifier name = true) : (Token.word name).Clean := by
  obtain ⟨hne, hchars⟩ := isIdentifier_chars h
  exact ⟨fun hempty => hne (by simp [hempty]), fun c hc => isWordChar_of_isIdentChar (hchars c hc)⟩

/-- The name a rule jumps to is one. -/
def Verdict.Named : Verdict → Prop
  | .jump chain => isIdentifier chain = true
  | _ => True

instance : (v : Verdict) → Decidable v.Named
  | .jump chain => inferInstanceAs (Decidable (isIdentifier chain = true))
  | .accept | .drop | .ret => .isTrue trivial

/-- A test in front of the rest of a rule. -/
def Rule.guard (m : Match) (r : Rule) : Rule := { r with guards := m :: r.guards }

def parseVerdict : List Token → Option Verdict
  | [.word "accept"] => some .accept
  | [.word "drop"] => some .drop
  | [.word "return"] => some .ret
  | [.word "jump", .word chain] => if isIdentifier chain then some (.jump chain) else none
  | _ => none

def parseRule : List Token → Option Rule
  | .word "iifname" :: .quoted name :: ts => (parseRule ts).map (.guard (.iifname name))
  | .word "oifname" :: .quoted name :: ts => (parseRule ts).map (.guard (.oifname name))
  | .word "ether" :: .word "type" :: .word w :: ts => (parseRule ts).map (.guard (.etherType w))
  | .word "meta" :: .word "l4proto" :: .word w :: ts => (parseRule ts).map (.guard (.l4proto w))
  | .word "ct" :: .word "state" :: .word w :: ts => (parseRule ts).map (.guard (.ctState w))
  | .word "ip" :: .word "saddr" :: .word w :: ts =>
    (parseRule ts).map (.guard (.address .ip .saddr w))
  | .word "ip" :: .word "daddr" :: .word w :: ts =>
    (parseRule ts).map (.guard (.address .ip .daddr w))
  | .word "ip6" :: .word "saddr" :: .word w :: ts =>
    (parseRule ts).map (.guard (.address .ip6 .saddr w))
  | .word "ip6" :: .word "daddr" :: .word w :: ts =>
    (parseRule ts).map (.guard (.address .ip6 .daddr w))
  | .word "tcp" :: .word "dport" :: .word w :: ts => (parseRule ts).map (.guard (.tcpDport w))
  | ts => (parseVerdict ts).map fun verdict => { guards := [], verdict }

variable {v : Verdict}

lemma parseVerdict_tokens (h : v.Named) : parseVerdict v.tokens = some v := by
  cases v with
  | jump chain =>
    have hid : isIdentifier chain = true := h
    rw [Verdict.tokens, parseVerdict, if_pos hid]
  | accept => rfl
  | drop => rfl
  | ret => rfl

lemma tokens_of_parseVerdict (h : parseVerdict ts = some v) : ts = v.tokens ∧ v.Named := by
  unfold parseVerdict at h
  split at h
  · cases h; exact ⟨rfl, trivial⟩
  · cases h; exact ⟨rfl, trivial⟩
  · cases h; exact ⟨rfl, trivial⟩
  · split_ifs at h with hid
    cases h
    exact ⟨rfl, hid⟩
  · cases h

lemma parseRule_guard (m : Match) (ts : List Token) :
    parseRule (m.tokens ++ ts) = (parseRule ts).map (.guard m) := by
  cases m with
  | address family side network => cases family <;> cases side <;> rfl
  | _ => rfl

lemma parseRule_verdict (v : Verdict) :
    parseRule v.tokens = (parseVerdict v.tokens).map fun verdict => ⟨[], verdict⟩ := by
  cases v <;> rfl

lemma parseRule_tokens (h : r.verdict.Named) : parseRule r.tokens = some r := by
  obtain ⟨guards, verdict⟩ := r
  induction guards with
  | nil =>
    show parseRule verdict.tokens = _
    rw [parseRule_verdict, parseVerdict_tokens h]
    rfl
  | cons m guards ih =>
    have hcons : Rule.tokens ⟨m :: guards, verdict⟩ =
        m.tokens ++ Rule.tokens ⟨guards, verdict⟩ := by
      simp [Rule.tokens]
    rw [hcons, parseRule_guard, ih h]
    rfl

/-- Each branch of the parser takes the tokens of one match off the front. -/
lemma parseRule_cases (h : parseRule ts = some r) :
    (∃ m ts' r', ts = m.tokens ++ ts' ∧ ts'.length < ts.length ∧ parseRule ts' = some r' ∧
      r = r'.guard m) ∨ ∃ v, parseVerdict ts = some v ∧ r = ⟨[], v⟩ := by
  unfold parseRule at h
  split at h
  case h_11 =>
    obtain ⟨v, hv, rfl⟩ := map_eq_some_iff.mp h
    exact Or.inr ⟨v, hv, rfl⟩
  all_goals
    obtain ⟨r', hr, rfl⟩ := map_eq_some_iff.mp h
    exact Or.inl ⟨_, _, r', rfl, by simp only [length_cons]; omega, hr, rfl⟩

lemma tokens_of_parseRule (h : parseRule ts = some r) : ts = r.tokens ∧ r.verdict.Named := by
  induction hn : ts.length using Nat.strong_induction_on generalizing ts r with
  | _ n ih =>
    subst hn
    rcases parseRule_cases h with ⟨m, ts', r', rfl, hlt, hr, rfl⟩ | ⟨v, hv, rfl⟩
    · obtain ⟨rfl, hnamed⟩ := ih _ hlt hr rfl
      exact ⟨by simp [Rule.tokens, Rule.guard], hnamed⟩
    · exact tokens_of_parseVerdict hv

/-! ## Commands -/

/-- A chain, by the family and the name of its table and its own name. -/
structure ChainRef where
  family : String
  table : String
  chain : String
  deriving DecidableEq, Repr

/-- What makes a chain a base chain. -/
structure Base where
  kind : String
  hook : String
  priority : String
  policy : String
  deriving DecidableEq, Repr

inductive Command where
  | addTable (family table : String)
  | deleteTable (family table : String)
  | addChain (chain : ChainRef)
  | addBaseChain (chain : ChainRef) (base : Base)
  | addRule (chain : ChainRef) (rule : Rule)
  | flushChain (chain : ChainRef)
  | deleteChain (chain : ChainRef)
  | deleteRule (chain : ChainRef) (handle : String)
  | flushRuleset
  deriving DecidableEq, Repr

def ChainRef.tokens (c : ChainRef) : List Token := [.word c.family, .word c.table, .word c.chain]

def Base.tokens (b : Base) : List Token :=
  [.opening, .word "type", .word b.kind, .word "hook", .word b.hook, .word "priority",
    .word b.priority, .semi, .word "policy", .word b.policy, .semi, .closing]

def Command.tokens : Command → List Token
  | .addTable family table => [.word "add", .word "table", .word family, .word table]
  | .deleteTable family table => [.word "delete", .word "table", .word family, .word table]
  | .addChain c => .word "add" :: .word "chain" :: c.tokens
  | .addBaseChain c base => .word "add" :: .word "chain" :: (c.tokens ++ base.tokens)
  | .addRule c rule => .word "add" :: .word "rule" :: (c.tokens ++ rule.tokens)
  | .flushChain c => .word "flush" :: .word "chain" :: c.tokens
  | .deleteChain c => .word "delete" :: .word "chain" :: c.tokens
  | .deleteRule c handle =>
    .word "delete" :: .word "rule" :: (c.tokens ++ [.word "handle", .word handle])
  | .flushRuleset => [.word "flush", .word "ruleset"]

def ChainRef.Named (c : ChainRef) : Prop := isIdentifier c.chain = true

instance (c : ChainRef) : Decidable c.Named := inferInstanceAs (Decidable (_ = true))

/-- Chains are named by identifiers. -/
def Command.Named : Command → Prop
  | .addRule c rule => c.Named ∧ rule.verdict.Named
  | .addChain c | .addBaseChain c _ | .flushChain c | .deleteChain c | .deleteRule c _ => c.Named
  | _ => True

instance : (cmd : Command) → Decidable cmd.Named
  | .addRule c rule => inferInstanceAs (Decidable (c.Named ∧ rule.verdict.Named))
  | .addChain c | .addBaseChain c _ | .flushChain c | .deleteChain c | .deleteRule c _ =>
    inferInstanceAs (Decidable c.Named)
  | .addTable _ _ | .deleteTable _ _ | .flushRuleset => .isTrue trivial

def named (c : ChainRef) (command : ChainRef → Command) : Option Command :=
  if c.Named then some (command c) else none

def parseBase : List Token → Option Base
  | [.opening, .word "type", .word kind, .word "hook", .word hook, .word "priority",
      .word priority, .semi, .word "policy", .word policy, .semi, .closing] =>
      some ⟨kind, hook, priority, policy⟩
  | _ => none

def parseAdd : List Token → Option Command
  | [.word "table", .word f, .word t] => some (.addTable f t)
  | [.word "chain", .word f, .word t, .word c] => named ⟨f, t, c⟩ .addChain
  | .word "chain" :: .word f :: .word t :: .word c :: base =>
    (parseBase base).bind fun b => named ⟨f, t, c⟩ (.addBaseChain · b)
  | .word "rule" :: .word f :: .word t :: .word c :: rule =>
    (parseRule rule).bind fun r => named ⟨f, t, c⟩ (.addRule · r)
  | _ => none

def parseDelete : List Token → Option Command
  | [.word "table", .word f, .word t] => some (.deleteTable f t)
  | [.word "chain", .word f, .word t, .word c] => named ⟨f, t, c⟩ .deleteChain
  | [.word "rule", .word f, .word t, .word c, .word "handle", .word handle] =>
    named ⟨f, t, c⟩ (.deleteRule · handle)
  | _ => none

def parseFlush : List Token → Option Command
  | [.word "ruleset"] => some .flushRuleset
  | [.word "chain", .word f, .word t, .word c] => named ⟨f, t, c⟩ .flushChain
  | _ => none

def parseCommand : List Token → Option Command
  | .word "add" :: ts => parseAdd ts
  | .word "delete" :: ts => parseDelete ts
  | .word "flush" :: ts => parseFlush ts
  | _ => none

lemma named_eq_some {c : ChainRef} {command : ChainRef → Command} (h : named c command = some cmd) :
    c.Named ∧ cmd = command c := by
  unfold named at h
  split_ifs at h with hc
  exact ⟨hc, (Option.some.inj h).symm⟩

lemma named_of {c : ChainRef} (h : c.Named) (command : ChainRef → Command) :
    named c command = some (command c) := if_pos h

lemma tokens_of_parseBase {b : Base} (h : parseBase ts = some b) : ts = b.tokens := by
  unfold parseBase at h
  split at h
  · cases h; rfl
  · cases h

lemma tokens_of_parseAdd (h : parseAdd ts = some cmd) :
    .word "add" :: ts = cmd.tokens ∧ cmd.Named := by
  unfold parseAdd at h
  split at h
  · cases h; exact ⟨rfl, trivial⟩
  · obtain ⟨hc, rfl⟩ := named_eq_some h
    exact ⟨rfl, hc⟩
  · obtain ⟨b, hb, hnamed⟩ := bind_eq_some_iff.mp h
    obtain ⟨hc, rfl⟩ := named_eq_some hnamed
    rw [tokens_of_parseBase hb]
    exact ⟨rfl, hc⟩
  · obtain ⟨r, hr, hnamed⟩ := bind_eq_some_iff.mp h
    obtain ⟨rfl, hverdict⟩ := tokens_of_parseRule hr
    obtain ⟨hc, rfl⟩ := named_eq_some hnamed
    exact ⟨rfl, hc, hverdict⟩
  · cases h

lemma tokens_of_parseDelete (h : parseDelete ts = some cmd) :
    .word "delete" :: ts = cmd.tokens ∧ cmd.Named := by
  unfold parseDelete at h
  split at h
  · cases h; exact ⟨rfl, trivial⟩
  · obtain ⟨hc, rfl⟩ := named_eq_some h
    exact ⟨rfl, hc⟩
  · obtain ⟨hc, rfl⟩ := named_eq_some h
    exact ⟨rfl, hc⟩
  · cases h

lemma tokens_of_parseFlush (h : parseFlush ts = some cmd) :
    .word "flush" :: ts = cmd.tokens ∧ cmd.Named := by
  unfold parseFlush at h
  split at h
  · cases h; exact ⟨rfl, trivial⟩
  · obtain ⟨hc, rfl⟩ := named_eq_some h
    exact ⟨rfl, hc⟩
  · cases h

lemma parseCommand_tokens (h : cmd.Named) : parseCommand cmd.tokens = some cmd := by
  cases cmd with
  | addRule c rule =>
    show (parseRule rule.tokens).bind (fun r => named c (.addRule · r)) = _
    rw [parseRule_tokens h.2, bind_some, named_of h.1]
  | addTable family table => rfl
  | deleteTable family table => rfl
  | flushRuleset => rfl
  | addChain c => exact named_of (c := c) h _
  | addBaseChain c base => exact named_of (c := c) h (.addBaseChain · base)
  | flushChain c => exact named_of (c := c) h _
  | deleteChain c => exact named_of (c := c) h _
  | deleteRule c handle => exact named_of (c := c) h (.deleteRule · handle)

/-- **Parsing inverts writing.**  A command is read from its own tokens and from no others. -/
theorem parseCommand_eq_some : parseCommand ts = some cmd ↔ ts = cmd.tokens ∧ cmd.Named := by
  constructor
  · intro h
    unfold parseCommand at h
    split at h
    · exact tokens_of_parseAdd h
    · exact tokens_of_parseDelete h
    · exact tokens_of_parseFlush h
    · cases h
  · rintro ⟨rfl, h⟩
    exact parseCommand_tokens h

/-! ## Scripts -/

/-- A token in front of the first command. -/
def consHead (t : Token) : List (List Token) → List (List Token)
  | [] => [[t]]
  | ts :: rest => (t :: ts) :: rest

/-- The commands of a line: cut at the semicolons outside braces. -/
def cut : (inBraces : Bool) → List Token → List (List Token)
  | _, [] => []
  | false, .semi :: ts => [] :: cut false ts
  | _, .opening :: ts => consHead .opening (cut true ts)
  | _, .closing :: ts => consHead .closing (cut false ts)
  | inBraces, t :: ts => consHead t (cut inBraces ts)

def readLine (line : List Char) : Option (List Command) :=
  (lex (.word []) line).bind fun ts =>
    ((cut false ts).filter fun command => !command.isEmpty).mapM parseCommand

/-- What a script asks for, or nothing if a line of it is not a command. -/
def readScript (text : String) : Option (List Command) :=
  ((Lines.splitLines '\n' text.toList).mapM readLine).map List.flatten

/-- A command in a line of its own. -/
def Command.line (cmd : Command) : List Char := unwords cmd.tokens ++ ['\n']

def render (cmds : List Command) : List Char := cmds.flatMap Command.line

/-- **A command that can be written down**: its names are identifiers and its texts fit their
    tokens. -/
def Command.Sound (cmd : Command) : Prop := cmd.Named ∧ ∀ t ∈ cmd.tokens, t.Clean

instance (cmd : Command) : Decidable cmd.Sound :=
  inferInstanceAs (Decidable (cmd.Named ∧ ∀ t ∈ cmd.tokens, t.Clean))

/-- A rule that can be written down. -/
def Rule.Sound (r : Rule) : Prop := r.verdict.Named ∧ ∀ t ∈ r.tokens, t.Clean

variable {f : String}

lemma addChain_sound {t c : String} (hf : (Token.word f).Clean) (ht : (Token.word t).Clean) :
    (Command.addChain ⟨f, t, c⟩).Sound ↔ isIdentifier c = true := by
  refine ⟨fun h => h.1, fun h => ⟨h, ?_⟩⟩
  have hadd : (Token.word "add").Clean := by decide
  have hchain : (Token.word "chain").Clean := by decide
  simp [Command.tokens, ChainRef.tokens, hf, ht, hadd, hchain, clean_of_isIdentifier h]

lemma addRule_sound {t c : String} (hf : (Token.word f).Clean) (ht : (Token.word t).Clean) :
    (Command.addRule ⟨f, t, c⟩ r).Sound ↔ isIdentifier c = true ∧ r.Sound := by
  constructor
  · rintro ⟨⟨hc, hr⟩, htokens⟩
    exact ⟨hc, hr, fun t ht => htokens t (by simp [Command.tokens, ht])⟩
  · rintro ⟨hc, hr, htokens⟩
    refine ⟨⟨hc, hr⟩, ?_⟩
    have hadd : (Token.word "add").Clean := by decide
    have hrule : (Token.word "rule").Clean := by decide
    simpa [Command.tokens, ChainRef.tokens, hf, ht, hadd, hrule, clean_of_isIdentifier hc]
      using htokens

lemma mem_of_mapM {α β : Type} {f : α → Option β} {xs : List α} {ys : List β}
    (h : xs.mapM f = some ys) : ∀ y ∈ ys, ∃ x ∈ xs, f x = some y := by
  induction xs generalizing ys with
  | nil => cases h; simp
  | cons x xs ih =>
    rw [mapM_cons] at h
    obtain ⟨y, hy, h⟩ := bind_eq_some_iff.mp h
    obtain ⟨ys', hys, h⟩ := bind_eq_some_iff.mp h
    cases h
    refine forall_mem_cons.mpr ⟨⟨x, by simp, hy⟩, fun z hz => ?_⟩
    obtain ⟨x', hx, hz⟩ := ih hys z hz
    exact ⟨x', mem_cons_of_mem _ hx, hz⟩

lemma mapM_eq_map {α β : Type} {f : α → Option β} {g : α → β} {xs : List α}
    (h : ∀ x ∈ xs, f x = some (g x)) : xs.mapM f = some (xs.map g) := by
  induction xs with
  | nil => rfl
  | cons x xs ih =>
    obtain ⟨hx, hxs⟩ := forall_mem_cons.mp h
    rw [mapM_cons, hx, ih hxs]
    rfl

variable {P : Token → Prop}

lemma mem_consHead {tss : List (List Token)} (ht : P t) (h : ∀ ts ∈ tss, ∀ t ∈ ts, P t) :
    ∀ ts ∈ consHead t tss, ∀ t ∈ ts, P t := by
  cases tss with
  | nil => simpa [consHead] using ht
  | cons ts tss =>
    obtain ⟨hts, htss⟩ := forall_mem_cons.mp h
    exact forall_mem_cons.mpr ⟨forall_mem_cons.mpr ⟨ht, hts⟩, htss⟩

/-- Cutting only drops tokens. -/
lemma mem_cut (h : ∀ t ∈ ts, P t) (b : Bool) : ∀ ts' ∈ cut b ts, ∀ t ∈ ts', P t := by
  induction ts generalizing b with
  | nil => simp [cut]
  | cons t ts ih =>
    obtain ⟨ht, hts⟩ := forall_mem_cons.mp h
    cases t with
    | semi =>
      cases b with
      | false => exact forall_mem_cons.mpr ⟨by simp, ih hts false⟩
      | true => exact mem_consHead ht (ih hts true)
    | opening => cases b <;> exact mem_consHead ht (ih hts true)
    | closing => cases b <;> exact mem_consHead ht (ih hts false)
    | word w => cases b <;> exact mem_consHead ht (ih hts _)
    | quoted q => cases b <;> exact mem_consHead ht (ih hts _)

variable {text : String} {cmds : List Command}

/-- **Whatever a script reads as can be written down.** -/
lemma readScript_sound (h : readScript text = some cmds) : ∀ cmd ∈ cmds, cmd.Sound := by
  obtain ⟨css, hcss, rfl⟩ := map_eq_some_iff.mp h
  intro cmd hcmd
  obtain ⟨cs, hcs, hcmd⟩ := mem_flatten.mp hcmd
  obtain ⟨line, -, hline⟩ := mem_of_mapM hcss cs hcs
  obtain ⟨ts, hlex, hparse⟩ := bind_eq_some_iff.mp hline
  obtain ⟨command, hcommand, hcmd⟩ := mem_of_mapM hparse cmd hcmd
  obtain ⟨rfl, hnamed⟩ := parseCommand_eq_some.mp hcmd
  have hstart : (Reading.word []).Clean := by simp [Reading.Clean]
  have hclean := lex_clean hstart hlex
  exact ⟨hnamed, mem_cut hclean false _ (mem_filter.mp hcommand).1⟩

/-! ### Commands read back -/

/-- A token that is no mark. -/
def Token.Plain : Token → Prop
  | .word _ | .quoted _ => True
  | _ => False

lemma cut_plain (h : ∀ t ∈ ts, t.Plain) (hne : ts ≠ []) (b : Bool) : cut b ts = [ts] := by
  induction ts with
  | nil => exact absurd rfl hne
  | cons t ts ih =>
    obtain ⟨ht, hts⟩ := forall_mem_cons.mp h
    have hcut : cut b (t :: ts) = consHead t (cut b ts) := by
      cases t with
      | word w => cases b <;> rfl
      | quoted q => cases b <;> rfl
      | semi => cases ht
      | opening => cases ht
      | closing => cases ht
    rw [hcut]
    cases ts with
    | nil => rfl
    | cons t' ts => rw [ih hts (by simp)]; rfl

lemma Match.tokens_plain (m : Match) : ∀ t ∈ m.tokens, t.Plain := by
  cases m <;> simp [Match.tokens, Token.Plain]

lemma Verdict.tokens_plain (v : Verdict) : ∀ t ∈ v.tokens, t.Plain := by
  cases v <;> simp [Verdict.tokens, Token.Plain]

lemma Rule.tokens_plain (r : Rule) : ∀ t ∈ r.tokens, t.Plain := by
  intro t ht
  rcases mem_append.mp ht with ht | ht
  · obtain ⟨m, -, ht⟩ := mem_flatMap.mp ht
    exact m.tokens_plain t ht
  · exact r.verdict.tokens_plain t ht

lemma Command.cut_tokens (cmd : Command) : cut false cmd.tokens = [cmd.tokens] := by
  cases cmd with
  | addBaseChain c base => rfl
  | addRule c rule =>
    refine cut_plain ?_ (by simp [Command.tokens]) false
    simpa [Command.tokens, ChainRef.tokens, Token.Plain] using rule.tokens_plain
  | _ => rfl

lemma Command.tokens_ne_nil (cmd : Command) : cmd.tokens ≠ [] := by
  cases cmd <;> simp [Command.tokens]

lemma readLine_unwords (h : cmd.Sound) (hrest : Ends rest) :
    readLine (unwords cmd.tokens ++ rest) = some [cmd] := by
  have hfilter : [cmd.tokens].filter (fun command => !command.isEmpty) = [cmd.tokens] := by
    simp [cmd.tokens_ne_nil]
  unfold readLine
  rw [lex_unwords h.2 hrest, bind_some, cmd.cut_tokens, hfilter, mapM_cons,
    parseCommand_eq_some.mpr ⟨rfl, h.1⟩]
  rfl

lemma isWordChar_ne_newline (h : isWordChar c = true) : '\n' ≠ c := by
  rintro rfl
  revert h
  decide

lemma newline_not_mem_text (h : t.Clean) : '\n' ∉ t.text := by
  cases t with
  | word w => exact fun hmem => isWordChar_ne_newline (h.2 _ hmem) rfl
  | quoted q =>
    simp only [Token.text, mem_cons, mem_append, not_mem_nil, or_false, not_or]
    exact ⟨by decide, fun hmem => (h _ hmem).2 rfl, by decide⟩
  | semi => decide
  | opening => decide
  | closing => decide

lemma newline_not_mem_unwords (h : ∀ t ∈ ts, t.Clean) : '\n' ∉ unwords ts := by
  cases ts with
  | nil => simp [unwords]
  | cons t ts =>
    obtain ⟨ht, hts⟩ := forall_mem_cons.mp h
    have hspaced : ∀ t ∈ ts, '\n' ∉ t.spaced := by
      intro t ht
      unfold Token.spaced
      split_ifs <;> simp [newline_not_mem_text (hts t ht)]
    simpa [unwords, newline_not_mem_text ht] using hspaced

lemma Command.Sound.isLine (h : cmd.Sound) : Lines.IsLine '\n' cmd.line :=
  ⟨_, rfl, newline_not_mem_unwords h.2⟩

/-- **Reading inverts writing.**  A script written from commands reads back as these commands, one
    for each line, exactly if each of them can be written down. -/
theorem readScript_render_iff (htext : text.toList = render cmds) :
    readScript text = some cmds ↔ ∀ cmd ∈ cmds, cmd.Sound := by
  refine ⟨readScript_sound, fun h => ?_⟩
  have hlines : Lines.splitLines '\n' text.toList = cmds.map Command.line := by
    rw [htext]
    refine Lines.splitLines_flatten fun line hline => ?_
    obtain ⟨cmd, hcmd, rfl⟩ := mem_map.mp hline
    exact (h cmd hcmd).isLine
  have hread : (cmds.map Command.line).mapM readLine = some (cmds.map fun cmd => [cmd]) := by
    rw [mapM_map]
    exact mapM_eq_map fun cmd hcmd => readLine_unwords (h cmd hcmd) (Or.inr ⟨[], rfl⟩)
  rw [readScript, hlines, hread, map_some, ← flatMap_def, flatMap_singleton']

lemma unwords_ne_nil (h : ∀ t ∈ ts, t.Clean) (hne : ts ≠ []) : unwords ts ≠ [] := by
  cases ts with
  | nil => exact absurd rfl hne
  | cons t ts =>
    have htext : t.text ≠ [] := by
      cases t with
      | word w =>
        have hw : (Token.word w).Clean := h _ (by simp)
        exact fun hnil => hw.1 (by simpa [Token.text] using hnil)
      | _ => simp [Token.text]
    simp [unwords, htext]

/-- A single command, without a line break at its end. -/
lemma readScript_unwords (h : cmd.Sound) (htext : text.toList = unwords cmd.tokens) :
    readScript text = some [cmd] := by
  have hlines : Lines.splitLines '\n' text.toList = [unwords cmd.tokens] := by
    rw [htext]
    exact Lines.splitLines_of_notMem (newline_not_mem_unwords h.2)
      (unwords_ne_nil h.2 cmd.tokens_ne_nil)
  have hread : readLine (unwords cmd.tokens) = some [cmd] := by
    have hends := readLine_unwords h (.inl rfl)
    rwa [append_nil] at hends
  rw [readScript, hlines, mapM_cons, hread]
  rfl

end Nft
