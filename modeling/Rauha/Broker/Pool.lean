import Rauha.Broker.Pins
import Rauha.Library.Text

/-!
# The judge pool

Every pinned task costs three descriptors, so the broker clamps the configured cache size to what
the descriptor limit leaves (`cacheCapWithin`) and splits the result among its judge threads.  The
share of a thread is rounded down but **at least one**.

`pool_within_budget` says for which configurations the shares stay within the whole: for a single
thread, and for caps that give every thread its one task.
-/

namespace Rauha.Broker

open Transition PinCache Function

/-! ## Configuration -/

def defaultJudgeThreads : ℕ := 4

def defaultCacheMaxTasks : ℕ := 512

def fdHeadroom : ℕ := 96

def minJudgeThreads : ℕ := 1

def maxJudgeThreads : ℕ := 64

/-- `value.parse()` for a `usize`. -/
def parseUsize (value : String) : Option ℕ := Text.parseUnsigned (2 ^ 64 - 1) value.toList

def judgeThreadsFrom (configured : Option String) : ℕ :=
  max minJudgeThreads (min maxJudgeThreads ((configured.bind parseUsize).getD defaultJudgeThreads))

def cacheMaxTasksFrom (configured : Option String) : ℕ :=
  (configured.bind parseUsize).getD defaultCacheMaxTasks

/-- The descriptor limit, or what the default cache size needs if it cannot be read. -/
def nofileOr (limit : Option ℕ) : ℕ := limit.getD (defaultCacheMaxTasks * 3 + fdHeadroom)

def cacheCapWithin (configured nofile : ℕ) : ℕ :=
  if configured = 0 then 0 else min configured ((nofile - fdHeadroom) / 3)

/-! ## Threads -/

/-- The cache size of each thread. -/
def threadCache (cacheCap threads : ℕ) : ℕ :=
  if threads = 1 then cacheCap else max (cacheCap / threads) 1

/-- The caches of the threads, by their number. -/
def serve (cacheCap threads : ℕ) : ℕ → PinCache := fun _ => .new (threadCache cacheCap threads)

/-- A thread judges a call. -/
def judge (pool : ℕ → PinCache) (event : ℕ × Call) : ℕ → PinCache :=
  Function.update pool event.1 ((pool event.1).after event.2)

/-- The tasks that a pool of this many threads has pinned. -/
def pinned (threads : ℕ) (pool : ℕ → PinCache) : ℕ :=
  ∑ i ∈ Finset.range threads, (pool i).pins.keys.length

/-- **The budget**: no more tasks are pinned than the cap, none if the cache is turned off, and the
    descriptors they take are within the limit. -/
def WithinBudget (configured nofile threads : ℕ) (pool : ℕ → PinCache) : Prop :=
  pinned threads pool ≤ cacheCapWithin configured nofile ∧
  (configured = 0 → pinned threads pool = 0) ∧
  3 * pinned threads pool ≤ nofile - fdHeadroom

lemma withinBudget_iff {configured nofile threads : ℕ} {pool : ℕ → PinCache} :
    WithinBudget configured nofile threads pool ↔
      pinned threads pool ≤ cacheCapWithin configured nofile := by
  refine ⟨fun h => h.1, fun h => ⟨h, fun hzero => ?_, ?_⟩⟩
  · rw [cacheCapWithin, if_pos hzero] at h
    omega
  · have hcap : 3 * cacheCapWithin configured nofile ≤ nofile - fdHeadroom := by
      unfold cacheCapWithin
      split_ifs <;> omega
    omega

/-- No thread pins more than its share. -/
lemma pinned_le_shares (cacheCap threads : ℕ) (events : List (ℕ × Call)) :
    pinned threads (run judge (serve cacheCap threads) events) ≤
      threads * threadCache cacheCap threads := by
  have hinv : ∀ i, (run judge (serve cacheCap threads) events i).Bounded ∧
      (run judge (serve cacheCap threads) events i).maxTasks = threadCache cacheCap threads := by
    refine run_invariant (I := fun pool : ℕ → PinCache => ∀ i, (pool i).Bounded ∧
      (pool i).maxTasks = threadCache cacheCap threads) ?_ (fun i => ⟨new_bounded _, rfl⟩) events
    intro pool event hpool i
    by_cases hi : i = event.1
    · subst hi
      rw [judge, update_self]
      exact ⟨(hpool _).1.after_bounded event.2, maxTasks_after.trans (hpool _).2⟩
    · rw [judge, update_of_ne hi]
      exact hpool i
  calc pinned threads (run judge (serve cacheCap threads) events)
      ≤ ∑ _i ∈ Finset.range threads, threadCache cacheCap threads :=
        Finset.sum_le_sum fun i _ => (hinv i).2 ▸ (hinv i).1.length_le
    _ = threads * threadCache cacheCap threads := by
        rw [Finset.sum_const, Finset.card_range, smul_eq_mul]

lemma shares_le {cacheCap threads : ℕ} (h : threads = 1 ∨ threads ≤ cacheCap) :
    threads * threadCache cacheCap threads ≤ cacheCap := by
  unfold threadCache
  split_ifs with hone
  · rw [hone, one_mul]
  · have hle := h.resolve_left hone
    rcases Nat.eq_zero_or_pos threads with hzero | hpos
    · simp [hzero]
    · have hshare : 1 ≤ cacheCap / threads := (Nat.one_le_div_iff hpos).mpr hle
      rw [max_eq_left hshare]
      exact Nat.mul_div_le cacheCap threads

/-! ## One task for every thread -/

/-- The task with this id, alive and open to be pinned. -/
def pinOne : Call := ⟨1, true, .ok ()⟩

lemma length_after_pinOne {maxTasks : ℕ} (h : maxTasks ≠ 0) :
    ((PinCache.new maxTasks).after pinOne).pins.keys.length = 1 := by
  have hafter : (PinCache.new maxTasks).after pinOne =
      ⟨((∅ : AList fun _ : UInt32 => TaskPins).erase 1).insert 1 ⟨0⟩, [1], maxTasks, 1⟩ := by
    simp [PinCache.after, forTask, PinCache.new, pinOne, evict, h]
  rw [hafter]
  rfl

lemma run_pinOne (cacheCap threads n : ℕ) :
    run judge (serve cacheCap threads) ((List.range n).map fun i => (i, pinOne)) =
      fun i => if i < n then (PinCache.new (threadCache cacheCap threads)).after pinOne
        else PinCache.new (threadCache cacheCap threads) := by
  induction n with
  | zero => rfl
  | succ n ih =>
    rw [List.range_succ, List.map_append, run_append, ih, List.map_singleton, run_cons, run_nil,
      judge]
    funext i
    by_cases hi : i = n
    · subst hi
      rw [update_self, if_neg (lt_irrefl i), if_pos (Nat.lt_succ_self i)]
    · rw [update_of_ne hi]
      by_cases hlt : i < n
      · rw [if_pos hlt, if_pos (Nat.lt_succ_of_lt hlt)]
      · rw [if_neg hlt, if_neg (by omega)]

lemma pinned_run_pinOne {cacheCap threads : ℕ} (h : threads ≠ 1) :
    pinned threads (run judge (serve cacheCap threads)
      ((List.range threads).map fun i => (i, pinOne))) = threads := by
  have hshare : threadCache cacheCap threads ≠ 0 := by
    rw [threadCache, if_neg h]
    omega
  have hone : ∀ i ∈ Finset.range threads, (run judge (serve cacheCap threads)
      ((List.range threads).map fun i => (i, pinOne)) i).pins.keys.length = 1 := by
    intro i hi
    rw [run_pinOne]
    simp only [if_pos (Finset.mem_range.mp hi), length_after_pinOne hshare]
  rw [pinned, Finset.sum_congr rfl hone]
  simp

/-- **The budget is kept exactly by these configurations**: one judge thread, or a cap of at least
    one task for each thread. -/
theorem pool_within_budget (cacheMax judgeThreads : Option String) (nofile : Option ℕ) :
    (∀ events, WithinBudget (cacheMaxTasksFrom cacheMax) (nofileOr nofile)
      (judgeThreadsFrom judgeThreads)
      (run judge
        (serve (cacheCapWithin (cacheMaxTasksFrom cacheMax) (nofileOr nofile))
          (judgeThreadsFrom judgeThreads)) events)) ↔
    judgeThreadsFrom judgeThreads = 1 ∨ judgeThreadsFrom judgeThreads ≤
      cacheCapWithin (cacheMaxTasksFrom cacheMax) (nofileOr nofile) := by
  generalize judgeThreadsFrom judgeThreads = threads
  generalize cacheMaxTasksFrom cacheMax = configured
  generalize nofileOr nofile = limit
  constructor
  · intro h
    by_cases hone : threads = 1
    · exact .inl hone
    · right
      have hpinned := (withinBudget_iff.mp (h ((List.range threads).map fun i => (i, pinOne))))
      rwa [pinned_run_pinOne hone] at hpinned
  · intro h events
    exact withinBudget_iff.mpr ((pinned_le_shares _ _ events).trans (shares_le h))

/-- **A cache that is turned off pins tasks.**  With `RAUHA_BROKER_CACHE_MAX` zero and the default
    number of threads, a task is pinned as soon as it makes a call. -/
theorem disabled_cache_pins :
    cacheMaxTasksFrom (some "0") = 0 ∧ cacheCapWithin 0 1024 = 0 ∧ judgeThreadsFrom none = 4 ∧
    pinned 4 (run judge (serve (cacheCapWithin 0 1024) 4) [(0, pinOne)]) = 1 := by
  decide

end Rauha.Broker
