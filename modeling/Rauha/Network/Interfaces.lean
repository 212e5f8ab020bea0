import Rauha.Network.Endpoint

/-!
# Whose interface it is

The interfaces of the host, each with the zone it belongs to and named after that zone by the
current or by the older scheme.  The hashed names of the zones differ; the older names need not,
since they are the first ten bytes of the zone's name.

`unconfused_iff`: the three functions that look for a zone's interface keep to it exactly if the
zone has one under its hashed name, or no other zone has one under its older name.
-/

namespace Rauha

/-- **The interfaces of a host**, by the zones they belong to. -/
structure Interfaces where
  links : Links
  zones : List String
  owner : String → Option String
  present : ∀ name, links.linkExists name = (owner name).isSome
  named : ∀ name zone, owner name = some zone → zone ∈ zones ∧
    (name = links.vethHostName zone ∨ name = Links.legacyVethHostName zone)
  distinct : ∀ zone ∈ zones, ∀ other ∈ zones,
    links.vethHostName zone = links.vethHostName other → zone = other

namespace Interfaces

variable (host : Interfaces)

def vethExists (zoneName : String) : Bool :=
  host.links.linkExists (host.links.vethHostName zoneName) ||
    host.links.linkExists (Links.legacyVethHostName zoneName)

/-- The owners of the interfaces afterwards.  `shown` and `deleted` say whether the two calls of
    `ip` go through; a call to show an interface that is not there does, with a failure status. -/
def destroyVethPair (shown deleted : Bool) (zoneName : String) :
    Except RauhaError Unit × (String → Option String) :=
  let hostIf := host.links.vethHostNameFor zoneName
  if shown = false then (.error (.NetworkError "failed to check veth: "), host.owner)
  else if host.links.linkExists hostIf = false then (.ok (), host.owner)
  else if deleted = false then
    (.error (.NetworkError ("ip link delete " ++ hostIf ++ " failed: ")), host.owner)
  else (.ok (), Function.update host.owner hostIf none)

/-- **No interface of another zone** is found, reported or deleted for a zone. -/
structure Unconfused (zoneName : String) : Prop where
  resolves : ∀ zone, host.owner (host.links.vethHostNameFor zoneName) = some zone → zone = zoneName
  reports : host.vethExists zoneName = true → ∃ name, host.owner name = some zoneName
  deletes : ∀ shown deleted name zone, host.owner name = some zone → zone ≠ zoneName →
    (host.destroyVethPair shown deleted zoneName).2 name = some zone

variable {host} {zoneName zone : String}

lemma dash_notMem_hex (bytes : List UInt8) : '-' ∉ bytes.flatMap hexByte := by
  have hdigit : ∀ n : Fin 16, '-' ≠ Nat.digitChar n := by decide
  intro h
  obtain ⟨b, -, hb⟩ := List.mem_flatMap.mp h
  have hlt := b.toNat_lt
  simp only [hexByte, List.mem_cons, List.not_mem_nil, or_false] at hb
  rcases hb with hb | hb
  · exact hdigit ⟨b.toNat / 16, by omega⟩ hb
  · exact hdigit ⟨b.toNat % 16, by omega⟩ hb

/-- No name is both a hashed and an older one. -/
lemma vethHostName_ne_legacy (links : Links) (zone other : String) :
    links.vethHostName zone ≠ Links.legacyVethHostName other := by
  intro h
  have hlist := congrArg String.toList h
  simp only [Links.vethHostName, Links.vethName, Links.legacyVethHostName, String.toList_append,
    String.toList_ofList] at hlist
  have hdash := List.append_cancel_left
    (show "veth".toList ++ _ = "veth".toList ++ ('-' :: _) from hlist)
  exact dash_notMem_hex _ (hdash ▸ List.mem_cons_self)

/-- Under its hashed name there is no interface but the zone's own. -/
lemma owner_vethHostName (hzone : zoneName ∈ host.zones)
    (h : host.owner (host.links.vethHostName zoneName) = some zone) : zone = zoneName := by
  obtain ⟨hmem, hname | hname⟩ := host.named _ zone h
  · exact (host.distinct zoneName hzone zone hmem hname).symm
  · exact absurd hname (vethHostName_ne_legacy _ _ _)

/-- The older name is looked at if there is nothing under the hashed one. -/
lemma owner_vethHostNameFor :
    host.owner (host.links.vethHostNameFor zoneName) =
      (host.owner (host.links.vethHostName zoneName)).or
        (host.owner (Links.legacyVethHostName zoneName)) := by
  simp only [Links.vethHostNameFor, host.present]
  cases hcurrent : host.owner (host.links.vethHostName zoneName) with
  | some zone => simp [hcurrent]
  | none =>
    cases hlegacy : host.owner (Links.legacyVethHostName zoneName) <;> simp [hcurrent, hlegacy]

/-- **Interfaces of other zones.**  They are left alone exactly if the zone has an interface under
    its hashed name, or the one under its older name, if there is one, is its own. -/
theorem unconfused_iff (hzone : zoneName ∈ host.zones) :
    host.Unconfused zoneName ↔ host.owner (host.links.vethHostName zoneName) ≠ none ∨
      ∀ zone, host.owner (Links.legacyVethHostName zoneName) = some zone → zone = zoneName := by
  constructor
  · intro h
    have hresolves := h.resolves
    rw [owner_vethHostNameFor] at hresolves
    by_cases hnone : host.owner (host.links.vethHostName zoneName) = none
    · rw [hnone] at hresolves
      exact .inr hresolves
    · exact .inl hnone
  · intro h
    have hown : ∀ zone, host.owner (host.links.vethHostNameFor zoneName) = some zone →
        zone = zoneName := by
      intro zone howner
      rw [owner_vethHostNameFor, Option.or_eq_some_iff] at howner
      rcases howner with hcurrent | ⟨hnone, hlegacy⟩
      · exact owner_vethHostName hzone hcurrent
      · exact h.resolve_left (not_not.mpr hnone) zone hlegacy
    refine ⟨hown, fun hexists => ?_, fun shown deleted name zone howner hne => ?_⟩
    · rw [vethExists, host.present, host.present, ← Option.isSome_or,
        ← owner_vethHostNameFor] at hexists
      obtain ⟨zone, howner⟩ := Option.isSome_iff_exists.mp hexists
      exact ⟨_, hown zone howner ▸ howner⟩
    · unfold destroyVethPair
      dsimp only
      split_ifs
      · exact howner
      · exact howner
      · exact howner
      · refine (Function.update_of_ne ?_ _ _).trans howner
        rintro rfl
        exact hne (hown zone howner)

/-- One zone has an interface, under its older name; another has none, and the same older name. -/
def sharedName : Interfaces where
  links := {
    digest := fun name => [UInt8.ofNat name.length]
    linkExists := fun name => decide (name = "veth-test-integ") }
  zones := ["test-integration-alpha", "test-integration-beta"]
  owner name := if name = "veth-test-integ" then some "test-integration-alpha" else none
  present name := by split_ifs <;> simp [*]
  named name zone h := by
    split_ifs at h with hname
    cases h
    exact ⟨by decide, .inr (hname.trans (by decide))⟩
  distinct := by decide

theorem unconfused_alpha : sharedName.Unconfused "test-integration-alpha" :=
  (unconfused_iff (by decide)).mpr (.inr fun zone h => by
    rw [show sharedName.owner _ = some "test-integration-alpha" from by decide] at h
    exact (Option.some.inj h).symm)

/-- **Another zone's interface** is found, reported and deleted for the one that has none. -/
theorem beta_deletes_alpha :
    sharedName.owner (sharedName.links.vethHostNameFor "test-integration-beta") =
      some "test-integration-alpha" ∧
    sharedName.vethExists "test-integration-beta" = true ∧
    (∀ name, sharedName.owner name ≠ some "test-integration-beta") ∧
    (sharedName.destroyVethPair true true "test-integration-beta").2 "veth-test-integ" = none := by
  refine ⟨by decide, by decide, fun name h => ?_, by decide⟩
  obtain ⟨-, hname⟩ := Option.ite_none_right_eq_some.mp h
  exact absurd hname (by decide)

end Interfaces

end Rauha
