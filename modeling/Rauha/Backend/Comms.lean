import Rauha.Backend.Frames

/-!
# Which zones may communicate

`sync_bpf_allowed_comms` brings the pairs of one zone up to date: it walks over all known zones and
removes both pairs with those that the policy does not list, and then adds both pairs with those
that it lists.  `mem_synced` says which pairs that leaves: those it adds, and of the old ones those
that it does not remove.  The order in which hash tables are walked does not matter.
-/

namespace Rauha.Backend

open CrashLogic List

/-- The two pairs of a zone with another. -/
def Between (zoneId peer : UInt32) (pair : UInt32 × UInt32) : Prop :=
  pair = (zoneId, peer) ∨ pair = (peer, zoneId)

/-- The pairs after the pairs of one zone have been brought up to date. -/
def synced (walk : List UInt32 → List UInt32) (self : Host) (zoneId : UInt32)
    (net : NetworkPolicy) : Finset (UInt32 × UInt32) :=
  (commOps walk self zoneId net).foldl CommOp.apply self.zoneAllowedComms

section

variable {walk : List UInt32 → List UInt32} {self : Host} {zoneId peer : UInt32}
  {net : NetworkPolicy} {comms : Finset (UInt32 × UInt32)} {pair : UInt32 × UInt32}
  {peers : List UInt32}

lemma mem_foldl_deny (skip : UInt32 → Prop) [DecidablePred skip] :
    pair ∈ (peers.flatMap fun peer =>
        if skip peer then [] else [CommOp.deny zoneId peer, .deny peer zoneId]).foldl
      CommOp.apply comms ↔
      pair ∈ comms ∧ ∀ peer ∈ peers, ¬skip peer → ¬Between zoneId peer pair := by
  induction peers generalizing comms with
  | nil => simp
  | cons peer peers ih =>
    rw [flatMap_cons, foldl_append, ih]
    by_cases hskip : skip peer
    · simp [hskip]
    · simp only [hskip, if_false, foldl_cons, foldl_nil, CommOp.apply,
        Finset.mem_erase, forall_mem_cons, not_false_eq_true, true_implies, Between, not_or]
      tauto

lemma mem_foldl_allow :
    pair ∈ (peers.flatMap fun peer => [CommOp.allow zoneId peer, .allow peer zoneId]).foldl
      CommOp.apply comms ↔ pair ∈ comms ∨ ∃ peer ∈ peers, Between zoneId peer pair := by
  induction peers generalizing comms with
  | nil => simp
  | cons peer peers ih =>
    rw [flatMap_cons, foldl_append, ih]
    simp only [foldl_cons, foldl_nil, CommOp.apply, Finset.mem_insert, exists_mem_cons_iff]
    rw [← or_assoc (b := pair = (zoneId, peer)), or_comm (b := pair ∈ comms), or_assoc,
      or_comm (a := pair = (peer, zoneId)), Between]

/-- **The pairs that are left**: those that are added, and the old ones that are not removed. -/
theorem mem_synced (hwalk : ∀ ids, (walk ids).Perm ids) :
    pair ∈ synced walk self zoneId net ↔
      (∃ peer ∈ allowedPeerIds self net, Between zoneId peer pair) ∨
        pair ∈ self.zoneAllowedComms ∧ ∀ peer ∈ self.zoneIds, peer ≠ zoneId →
          peer ∉ allowedPeerIds self net → ¬Between zoneId peer pair := by
  have hdeny := @mem_foldl_deny zoneId self.zoneAllowedComms pair (walk self.zoneIds)
    (fun peer => peer = zoneId ∨ peer ∈ allowedPeerIds self net) _
  rw [synced, commOps, foldl_append, mem_foldl_allow, hdeny]
  simp only [(hwalk _).mem_iff, not_or, and_imp]
  exact or_comm

lemma mem_allowedPeerIds :
    peer ∈ allowedPeerIds self net ↔ ∃ name ∈ net.allowedZones, self.peerId name = some peer := by
  rw [allowedPeerIds, mem_dedup, mem_filterMap]

end

end Rauha.Backend
