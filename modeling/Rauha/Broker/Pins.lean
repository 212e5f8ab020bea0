import Rauha.Library.Table
import Rauha.Library.Transition

/-!
# Pinned tasks

The broker keeps descriptors of the tasks whose calls it judges, in a cache by task id with a queue
that says in which order they were pinned.  `forTask` is the one operation: it hands out the pins of
a task, from the cache if the task is alive, and otherwise opens new ones and caches them, after it
has made room from the front of the queue.

A dead pin is taken out of the cache but **not out of the queue**.  As long as that does not happen
cache and queue agree (`Queue`), and the front of the queue is the oldest pin.
-/

namespace Rauha.Broker

open Transition List

/-- The descriptors of one task, told apart by the opening they come from. -/
structure TaskPins where
  serial : ℕ
  deriving DecidableEq, Repr

inductive PinHandle where
  | Cached (pins : TaskPins)
  | Cold (pins : TaskPins)
  deriving DecidableEq, Repr

structure PinCache where
  pins : AList fun _ : UInt32 => TaskPins
  order : List UInt32
  maxTasks : ℕ
  /-- How many pins have been opened so far. -/
  opened : ℕ

/-- A call for a task: whether the pidfd in the cache still says that it lives, and what opening its
    descriptors would give. -/
structure Call where
  tid : UInt32
  alive : Bool
  opens : Except ℤ Unit

namespace PinCache

def new (maxTasks : ℕ) : PinCache := ⟨∅, [], maxTasks, 0⟩

/-- The loop that makes room: tasks from the front of the queue go until there is some. -/
def evict (maxTasks : ℕ) (pins : AList fun _ : UInt32 => TaskPins) :
    List UInt32 → (AList fun _ : UInt32 => TaskPins) × List UInt32
  | [] => (pins, [])
  | tid :: order =>
    if maxTasks ≤ pins.keys.length then evict maxTasks (pins.erase tid) order
    else (pins, tid :: order)

def forTask (self : PinCache) (call : Call) : Except ℤ PinHandle × PinCache :=
  match self.pins.lookup call.tid, call.alive with
  | some pins, true => (.ok (.Cached pins), self)
  | _, _ =>
    let pins := self.pins.erase call.tid
    if self.maxTasks = 0 then
      (call.opens.map fun _ => .Cold ⟨self.opened⟩,
        { self with pins := pins, opened := self.opened + 1 })
    else
      let (pins, order) := evict self.maxTasks pins self.order
      match call.opens with
      | .error errno => (.error errno, { self with pins := pins, order := order })
      | .ok () =>
        (.ok (.Cached ⟨self.opened⟩),
          { self with
            pins := pins.insert call.tid ⟨self.opened⟩
            order := order ++ [call.tid]
            opened := self.opened + 1 })

/-- The cache after a call. -/
def after (self : PinCache) (call : Call) : PinCache := (self.forTask call).2

/-! ## What a call does -/

variable {cache : PinCache} {call : Call}

/-- **The cases of a call**: a live pin is handed out; with no room at all nothing is cached; and
    otherwise room is made, and the task is pinned if it can be. -/
lemma after_cases (cache : PinCache) (call : Call) :
    cache.after call = cache ∨
    (cache.maxTasks = 0 ∧ cache.after call =
      { cache with pins := cache.pins.erase call.tid, opened := cache.opened + 1 }) ∨
    (cache.maxTasks ≠ 0 ∧ ∃ table order,
      evict cache.maxTasks (cache.pins.erase call.tid) cache.order = (table, order) ∧
      (cache.after call = { cache with pins := table, order := order } ∨
        cache.after call =
          { cache with
            pins := table.insert call.tid ⟨cache.opened⟩
            order := order ++ [call.tid]
            opened := cache.opened + 1 })) := by
  unfold after forTask
  split
  · exact .inl rfl
  · right
    by_cases hmax : cache.maxTasks = 0
    · exact .inl ⟨hmax, by rw [if_pos hmax]⟩
    · refine .inr ⟨hmax, _, _, rfl, ?_⟩
      rw [if_neg hmax]
      cases call.opens with
      | error errno => exact .inl rfl
      | ok u => exact .inr rfl

@[simp] lemma maxTasks_after : (cache.after call).maxTasks = cache.maxTasks := by
  rcases after_cases cache call with h | ⟨-, h⟩ | ⟨-, _, _, -, h | h⟩ <;> rw [h]

/-! ## The bound -/

/-- Every cached task is in the queue, and there are not too many. -/
structure Bounded (cache : PinCache) : Prop where
  queued : ∀ tid ∈ cache.pins, tid ∈ cache.order
  length_le : cache.pins.keys.length ≤ cache.maxTasks

lemma length_erase_le (table : AList fun _ : UInt32 => TaskPins) (tid : UInt32) :
    (table.erase tid).keys.length ≤ table.keys.length := by
  rw [AList.keys_erase]
  exact List.length_erase_le

variable {maxTasks : ℕ} {order : List UInt32} {table : AList fun _ : UInt32 => TaskPins}

/-- Making room makes room, since a cache whose tasks are all queued is empty at the latest when
    the queue is. -/
lemma evict_bounded (hmax : maxTasks ≠ 0) {order' : List UInt32}
    {table' : AList fun _ : UInt32 => TaskPins} (h : evict maxTasks table order = (table', order'))
    (hqueued : ∀ tid ∈ table, tid ∈ order) :
    table'.keys.length < maxTasks ∧ (∀ tid ∈ table', tid ∈ order') ∧
      ∀ tid ∈ table', tid ∈ table := by
  induction order generalizing table with
  | nil =>
    cases h
    have hkeys : table'.keys = [] := eq_nil_iff_forall_not_mem.mpr fun tid htid =>
      not_mem_nil (hqueued tid htid)
    exact ⟨by rw [hkeys]; exact Nat.pos_of_ne_zero hmax, hqueued, fun _ htid => htid⟩
  | cons tid order ih =>
    rw [evict] at h
    by_cases hfull : maxTasks ≤ table.keys.length
    · rw [if_pos hfull] at h
      have hrest : ∀ other ∈ table.erase tid, other ∈ order := by
        intro other hother
        obtain ⟨hne, hmem⟩ := AList.mem_erase.mp hother
        exact (mem_cons.mp (hqueued other hmem)).resolve_left hne
      obtain ⟨hlt, hqueued', hsub⟩ := ih h hrest
      exact ⟨hlt, hqueued', fun other hother => (AList.mem_erase.mp (hsub other hother)).2⟩
    · rw [if_neg hfull] at h
      cases h
      exact ⟨by omega, hqueued, fun _ htid => htid⟩

lemma length_insert_le (table : AList fun _ : UInt32 => TaskPins) (tid : UInt32) (p : TaskPins) :
    (table.insert tid p).keys.length ≤ table.keys.length + 1 := by
  rw [AList.keys_insert, List.length_cons]
  exact Nat.succ_le_succ List.length_erase_le

lemma Bounded.after_bounded (h : cache.Bounded) (call : Call) : (cache.after call).Bounded := by
  have herase : ∀ tid ∈ cache.pins.erase call.tid, tid ∈ cache.order := fun tid htid =>
    h.queued tid (AList.mem_erase.mp htid).2
  have hlength := length_erase_le cache.pins call.tid
  rcases after_cases cache call with heq | ⟨hmax, heq⟩ | ⟨hmax, table, order, hevict, heq⟩
  · rw [heq]
    exact h
  · rw [heq]
    exact ⟨herase, hlength.trans h.length_le⟩
  · obtain ⟨hlt, hqueued, -⟩ := evict_bounded hmax hevict herase
    rcases heq with heq | heq <;> rw [heq]
    · exact ⟨hqueued, hlt.le⟩
    · constructor
      · intro tid htid
        rcases (AList.mem_insert _).mp htid with rfl | htid
        · simp
        · exact mem_append_left _ (hqueued tid htid)
      · exact (length_insert_le table call.tid _).trans hlt

lemma new_bounded (maxTasks : ℕ) : (new maxTasks).Bounded :=
  ⟨fun _ h => absurd h (AList.notMem_empty _), Nat.zero_le _⟩

lemma run_bounded (maxTasks : ℕ) (calls : List Call) : (run after (new maxTasks) calls).Bounded :=
  run_invariant (fun _ call h => h.after_bounded call) (new_bounded maxTasks) calls

lemma maxTasks_run (cache : PinCache) (calls : List Call) :
    (run after cache calls).maxTasks = cache.maxTasks :=
  run_invariant (I := fun reached : PinCache => reached.maxTasks = cache.maxTasks)
    (fun _ _ h => maxTasks_after.trans h) rfl calls

/-! ## The queue -/

/-- **Cache and queue agree**: the queue holds the cached tasks once each, in the order in which
    they were pinned. -/
structure Queue (cache : PinCache) : Prop where
  nodup : cache.order.Nodup
  mem_iff : ∀ tid, tid ∈ cache.order ↔ tid ∈ cache.pins
  aged : cache.order.Pairwise fun tid tid' => ∀ p p', cache.pins.lookup tid = some p →
    cache.pins.lookup tid' = some p' → p.serial < p'.serial
  recent : ∀ tid p, cache.pins.lookup tid = some p → p.serial < cache.opened

/-- A cached task is alive when it is asked for. -/
def Live (cache : PinCache) (call : Call) : Prop := call.tid ∈ cache.pins → call.alive = true

/-- **An eviction takes the oldest.**  A task other than the one asked for that is no longer cached
    after a call had been pinned before all others that were. -/
def EvictsOldest (cache : PinCache) (call : Call) : Prop :=
  ∀ tid p, tid ≠ call.tid → cache.pins.lookup tid = some p → tid ∉ (cache.after call).pins →
    ∀ tid' p', tid' ≠ call.tid → tid' ≠ tid → cache.pins.lookup tid' = some p' →
      p.serial < p'.serial

variable {tid : UInt32}

lemma length_keys_erase (h : tid ∈ table) :
    (table.erase tid).keys.length + 1 = table.keys.length := by
  rw [AList.keys_erase, length_erase_of_mem h]
  exact Nat.sub_add_cancel (length_pos_of_mem h)

/-- With at most one task too many, the loop runs at most once. -/
lemma evict_eq (hmax : maxTasks ≠ 0) (hmem : ∀ tid, tid ∈ order ↔ tid ∈ table)
    (hlength : table.keys.length ≤ maxTasks) :
    (table.keys.length < maxTasks ∧ evict maxTasks table order = (table, order)) ∨
    ∃ oldest rest, order = oldest :: rest ∧
      evict maxTasks table order = (table.erase oldest, rest) := by
  rcases Nat.lt_or_eq_of_le hlength with hlt | hfull
  · left
    refine ⟨hlt, ?_⟩
    cases order with
    | nil => rfl
    | cons tid rest => rw [evict, if_neg (by omega)]
  · right
    cases order with
    | nil =>
      have hkeys : table.keys = [] := eq_nil_iff_forall_not_mem.mpr fun tid htid =>
        not_mem_nil ((hmem tid).mpr htid)
      rw [hkeys] at hfull
      exact absurd hfull.symm hmax
    | cons oldest rest =>
      refine ⟨oldest, rest, rfl, ?_⟩
      have hlength' := length_keys_erase ((hmem oldest).mp (by simp))
      rw [evict, if_pos hfull.ge]
      cases rest with
      | nil => rfl
      | cons tid rest => rw [evict, if_neg (by omega)]

/-- Leaving a task out of both keeps the agreement. -/
lemma Queue.tail {oldest : UInt32} {rest : List UInt32} (h : cache.Queue)
    (horder : cache.order = oldest :: rest) :
    Queue { cache with pins := cache.pins.erase oldest, order := rest } := by
  have hnodup := h.nodup
  have haged := h.aged
  rw [horder] at hnodup haged
  obtain ⟨hnot, hrest⟩ := nodup_cons.mp hnodup
  have hlookup : ∀ {tid p}, (cache.pins.erase oldest).lookup tid = some p →
      cache.pins.lookup tid = some p := fun hp => (Table.of_lookup_erase hp).2
  refine ⟨hrest, fun tid => ?_, ?_, fun tid p hp => h.recent tid p (hlookup hp)⟩
  · show tid ∈ rest ↔ tid ∈ cache.pins.erase oldest
    rw [AList.mem_erase, ← h.mem_iff, horder, mem_cons]
    constructor
    · intro hmem
      exact ⟨fun heq => hnot (heq ▸ hmem), .inr hmem⟩
    · rintro ⟨hne, hmem⟩
      exact hmem.resolve_left hne
  · exact (pairwise_cons.mp haged).2.imp fun hlt p p' hp hp' =>
      hlt p p' (hlookup hp) (hlookup hp')

/-- Pinning a task that is not cached puts it at the end of both. -/
lemma Queue.push (h : cache.Queue) (hnew : tid ∉ cache.pins) :
    Queue
      { cache with
        pins := cache.pins.insert tid ⟨cache.opened⟩
        order := cache.order ++ [tid]
        opened := cache.opened + 1 } := by
  have hnot : tid ∉ cache.order := fun hmem => hnew ((h.mem_iff tid).mp hmem)
  have hold : ∀ {other}, other ∈ cache.order →
      (cache.pins.insert tid ⟨cache.opened⟩).lookup other = cache.pins.lookup other :=
    fun hother => AList.lookup_insert_ne fun heq => hnot (heq ▸ hother)
  refine ⟨?_, fun other => ?_, ?_, fun other p hp => ?_⟩
  · exact nodup_append.mpr ⟨h.nodup, nodup_singleton tid, fun a ha b hb heq =>
      hnot (mem_singleton.mp hb ▸ heq ▸ ha)⟩
  · show other ∈ cache.order ++ [tid] ↔ other ∈ cache.pins.insert tid _
    rw [AList.mem_insert, mem_append, mem_singleton, h.mem_iff, or_comm]
  · refine pairwise_append.mpr ⟨?_, pairwise_singleton _ _, fun a ha b hb => ?_⟩
    · refine h.aged.imp_of_mem fun ha hb hlt p p' hp hp' => ?_
      rw [hold ha] at hp
      rw [hold hb] at hp'
      exact hlt p p' hp hp'
    · intro p p' hp hp'
      rw [hold ha] at hp
      rw [mem_singleton.mp hb, AList.lookup_insert] at hp'
      cases hp'
      exact h.recent a p hp
  · show p.serial < cache.opened + 1
    rcases Table.of_lookup_insert hp with ⟨-, rfl⟩ | ⟨-, hold⟩
    · exact Nat.lt_succ_self _
    · exact Nat.lt_succ_of_lt (h.recent other p hold)

lemma erase_of_notMem (h : tid ∉ table) : table.erase tid = table :=
  AList.ext (kerase_of_notMem_keys h)

/-- **What a call does while cache and queue agree**: nothing is left to be cleaned up, so the task
    is cached or new, and at most the front of the queue goes. -/
lemma Queue.after_cases (h : cache.Queue) (hbounded : cache.Bounded) (hlive : cache.Live call) :
    cache.after call = cache ∨
    (call.tid ∉ cache.pins ∧ cache.maxTasks = 0 ∧
      cache.after call = { cache with opened := cache.opened + 1 }) ∨
    (call.tid ∉ cache.pins ∧ ∃ table order, Queue { cache with pins := table, order := order } ∧
      ((table = cache.pins ∧ order = cache.order) ∨
        ∃ oldest, cache.order = oldest :: order ∧ table = cache.pins.erase oldest) ∧
      (cache.after call = { cache with pins := table, order := order } ∨
        cache.after call =
          { cache with
            pins := table.insert call.tid ⟨cache.opened⟩
            order := order ++ [call.tid]
            opened := cache.opened + 1 })) := by
  by_cases hmem : call.tid ∈ cache.pins
  · left
    obtain ⟨p, hp⟩ := Option.isSome_iff_exists.mp (AList.lookup_isSome.mpr hmem)
    unfold PinCache.after forTask
    rw [hp, hlive hmem]
  · right
    rcases PinCache.after_cases cache call with
      heq | ⟨hmax, heq⟩ | ⟨hmax, table, order, hevict, heq⟩
    · right
      exact ⟨hmem, cache.pins, cache.order, h, Or.inl ⟨rfl, rfl⟩, Or.inl heq⟩
    · left
      rw [erase_of_notMem hmem] at heq
      exact ⟨hmem, hmax, heq⟩
    · right
      rw [erase_of_notMem hmem] at hevict
      refine ⟨hmem, table, order, ?_⟩
      rcases evict_eq hmax h.mem_iff hbounded.length_le with
        ⟨-, heq'⟩ | ⟨oldest, rest, horder, heq'⟩
      · rw [heq'] at hevict
        cases hevict
        exact ⟨h, Or.inl ⟨rfl, rfl⟩, heq⟩
      · rw [heq'] at hevict
        cases hevict
        exact ⟨h.tail horder, Or.inr ⟨oldest, horder, rfl⟩, heq⟩

lemma Queue.after_queue (h : cache.Queue) (hbounded : cache.Bounded) (hlive : cache.Live call) :
    (cache.after call).Queue := by
  rcases h.after_cases hbounded hlive with
    heq | ⟨hmem, -, heq⟩ | ⟨hmem, table, order, hq, hsub, heq⟩
  · rw [heq]
    exact h
  · rw [heq]
    exact ⟨h.nodup, h.mem_iff, h.aged, fun tid p hp => Nat.lt_succ_of_lt (h.recent tid p hp)⟩
  · have hnew : call.tid ∉ table := by
      rcases hsub with ⟨rfl, -⟩ | ⟨oldest, -, rfl⟩
      · exact hmem
      · exact fun hin => hmem (AList.mem_erase.mp hin).2
    rcases heq with heq | heq <;> rw [heq]
    · exact hq
    · exact hq.push hnew

lemma Queue.evictsOldest (h : cache.Queue) (hbounded : cache.Bounded) (hlive : cache.Live call) :
    cache.EvictsOldest call := by
  intro tid p hne hp hgone tid' p' hne' htid' hp'
  have hmem : tid ∈ cache.pins := AList.lookup_isSome.mp (by rw [hp]; rfl)
  have hmem' : tid' ∈ cache.pins := AList.lookup_isSome.mp (by rw [hp']; rfl)
  rcases h.after_cases hbounded hlive with heq | ⟨-, -, heq⟩ | ⟨-, table, order, -, hsub, heq⟩
  · rw [heq] at hgone
    exact absurd hmem hgone
  · rw [heq] at hgone
    exact absurd hmem hgone
  · -- a task that is gone was not in what the eviction left, so it was at the front
    have hout : tid ∉ table := by
      rcases heq with heq | heq <;> rw [heq] at hgone
      · exact hgone
      · exact fun hin => hgone ((AList.mem_insert _).mpr (.inr hin))
    rcases hsub with ⟨rfl, -⟩ | ⟨oldest, horder, rfl⟩
    · exact absurd hmem hout
    · have holdest : tid = oldest := by
        by_contra hne
        exact hout (AList.mem_erase.mpr ⟨hne, hmem⟩)
      have haged := h.aged
      rw [horder] at haged
      have hin : tid' ∈ order := by
        have hqueued := (h.mem_iff tid').mpr hmem'
        rw [horder, ← holdest] at hqueued
        exact (mem_cons.mp hqueued).resolve_left htid'
      exact (pairwise_cons.mp haged).1 tid' hin p p' (holdest ▸ hp) hp'

lemma new_queue (maxTasks : ℕ) : (new maxTasks).Queue := by
  refine ⟨nodup_nil, fun tid => ?_, .nil, fun tid p hp => ?_⟩
  · exact iff_of_false not_mem_nil (AList.notMem_empty tid)
  · exact absurd hp (by simp [new])

/-- **Bounded and first in, first out.**  The cache never holds more tasks than it may.  In every
    run in which no dead pin is found, the queue holds the cached tasks once each and every eviction
    takes the oldest. -/
theorem pin_cache_fifo (maxTasks : ℕ) (calls : List Call) :
    (run after (new maxTasks) calls).pins.keys.length ≤ maxTasks ∧
    (Meets after Live (new maxTasks) calls →
      (run after (new maxTasks) calls).order.Nodup ∧
      (∀ tid, tid ∈ (run after (new maxTasks) calls).order ↔
        tid ∈ (run after (new maxTasks) calls).pins) ∧
      ∀ call, (run after (new maxTasks) calls).Live call →
        (run after (new maxTasks) calls).EvictsOldest call) := by
  have hbounded := run_bounded maxTasks calls
  constructor
  · have hlength := hbounded.length_le
    rwa [maxTasks_run] at hlength
  · intro hmeets
    have hqueue :
        (run after (new maxTasks) calls).Bounded ∧ (run after (new maxTasks) calls).Queue :=
      Meets.invariant (I := fun cache => Bounded cache ∧ Queue cache)
        (fun cache call h hlive => ⟨h.1.after_bounded call, h.2.after_queue h.1 hlive⟩)
        ⟨new_bounded maxTasks, new_queue maxTasks⟩ hmeets
    exact ⟨hqueue.2.nodup, hqueue.2.mem_iff, fun call hlive => hqueue.2.evictsOldest hbounded hlive⟩

/-- Three tasks in a cache for two: the third evicts the first. -/
theorem pin_cache_fifo_three :
    (run after (new 2) [⟨1, true, .ok ()⟩, ⟨2, true, .ok ()⟩, ⟨3, true, .ok ()⟩]).order.Nodup ∧
    (run after (new 2) [⟨1, true, .ok ()⟩, ⟨2, true, .ok ()⟩, ⟨3, true, .ok ()⟩]).order =
      [2, 3] := by
  have hmeets : Meets after Live (new 2)
      [⟨1, true, .ok ()⟩, ⟨2, true, .ok ()⟩, ⟨3, true, .ok ()⟩] :=
    ⟨fun _ => rfl, fun _ => rfl, fun _ => rfl, trivial⟩
  exact ⟨((pin_cache_fifo 2 _).2 hmeets).1, by decide⟩

/-- **A dead pin stays queued.**  Task 1 is pinned, then task 2; 1 dies and its id is used again.
    The queue then holds 1 twice, and the next eviction takes the new pin of 1 although that of 2 is
    older. -/
theorem dead_pin_stays_queued :
    ¬ (run after (new 2) [⟨1, true, .ok ()⟩, ⟨2, true, .ok ()⟩, ⟨1, false, .ok ()⟩]).order.Nodup ∧
    ¬ EvictsOldest
      (run after (new 2) [⟨1, true, .ok ()⟩, ⟨2, true, .ok ()⟩, ⟨1, false, .ok ()⟩])
      ⟨3, true, .ok ()⟩ := by
  constructor
  · decide
  · intro h
    have hlt := h 1 ⟨2⟩ (by decide) (by decide) (by decide) 2 ⟨1⟩ (by decide) (by decide)
      (by decide)
    exact absurd hlt (by decide)

end PinCache

end Rauha.Broker
