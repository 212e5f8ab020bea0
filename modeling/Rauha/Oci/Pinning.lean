import Rauha.Oci.Complete
import Rauha.Oci.Integrity

/-!
# Digest pinning

A reference can be pinned to a digest.  The digest then **vouches** for a manifest: it is the digest
of the manifest, or that of an index from which the digest of the manifest is selected.

What a registry answers is checked against the pin before it is linked.  What the store holds is
not: a complete image in the store is taken without a look at its digest
(`stored_manifest_not_checked`).  So a pin is honoured in every run in which nothing else is stored
under a name that belongs to it (`pinned_pull_vouched`).  References that share a file name do no
harm, because they are pinned alike.
-/

namespace Rauha.Oci

open CrashLogic Transition Triple Function

/-- **A pin vouches for a digest**: it is that digest, or the digest of an index whose entry for the
    platform is that digest. -/
def Vouches (svc : Service) (pin : List Char) (digest : Digest) : Prop :=
  digest.text = pin ∨ ∃ doc index entry, (Digest.fromData svc.sha doc).text = pin ∧
    svc.serde.index doc = .ok index ∧ selectPlatform svc index = some entry ∧
    Digest.parse entry.digest = some digest

section

variable {svc : Service} {registry : Registry} {reference : ImageReference} {s s' : Content}

/-! ## What a registry can make the client accept -/

variable {pin : List Char} {body : Bytes}

lemma verifyManifestDigest_ok {canonical : List Char}
    (h : verifyManifestDigest svc (some pin) body canonical = .ok ()) :
    Digest.parse pin = some (Digest.fromData svc.sha body) := by
  unfold verifyManifestDigest at h
  cases hparse : Digest.parse pin with
  | none =>
    simp only [hparse] at h
    cases h
  | some digest =>
    simp only [hparse] at h
    split_ifs at h with hvalid
    have heq : Digest.fromData svc.sha body = digest := by simpa [Digest.validate] using hvalid
    rw [heq]

/-- **What is fetched for a pinned reference** is what the pin vouches for; and the pin is a
    digest. -/
lemma fetchManifest_vouched (hpin : reference.digest = some pin)
    (h : fetchManifest svc registry reference = .ok body) :
    Vouches svc pin (Digest.fromData svc.sha body) ∧ ∃ digest, Digest.parse pin = some digest := by
  unfold fetchManifest at h
  rw [hpin] at h
  obtain ⟨doc, -, h⟩ := ok_of_bind h
  obtain ⟨⟨⟩, hverify, h⟩ := ok_of_bind h
  have hdoc := verifyManifestDigest_ok hverify
  refine ⟨?_, _, hdoc⟩
  split at h
  · cases h
    exact Or.inl (Digest.parse_eq_some.mp hdoc)
  · obtain ⟨index, hindex, h⟩ := ok_of_bind h
    split at h
    · cases h
    · rename_i entry hselect
      obtain ⟨manifestBody, -, h⟩ := ok_of_bind h
      obtain ⟨⟨⟩, hsecond, h⟩ := ok_of_bind h
      cases h
      exact Or.inr ⟨doc, index, entry, Digest.parse_eq_some.mp hdoc,
        Prog.mapError_eq_ok.mp hindex, hselect, verifyManifestDigest_ok hsecond⟩

/-! ## Names that belong to a pin -/

lemma not_separator_of_hex {c : Char} (h : isAsciiHexdigit c = true) : c ∉ ['/', ':', '_'] := by
  intro hc
  have hall : ['/', ':', '_'].all (!isAsciiHexdigit ·) = true := by decide
  simpa [h] using List.all_eq_true.mp hall c hc

variable {digest : Digest}

/-- A digest is the only pin of its file name. -/
lemma pin_eq_of_safeName (hpin : "sha256:".toList <+: pin)
    (h : safeName pin = safeName digest.text) : pin = digest.text := by
  obtain ⟨rest, rfl⟩ := hpin
  rw [digest.text_eq] at h ⊢
  rw [safeName_append, safeName_append] at h
  have hrest := List.append_cancel_left h
  rw [eq_of_safeName_eq (fun c hc => not_separator_of_hex
    (List.all_eq_true.mp digest.hex_digits c hc)) hrest.symm]

/-- **Links of pinned references** lead to manifests that the pin vouches for. -/
structure Pinned (svc : Service) (s : Content) : Prop where
  intact : Intact svc s
  linked : ∀ r pin, Accepted r → r.digest = some pin →
    ∀ text, s.links (safeName r.toStringCanonical) = some text →
      ∃ digest bytes, text = digest.text ∧ s.blobs digest = some bytes ∧ Vouches svc pin digest

variable {bytes : Bytes}

namespace Pinned

lemma of_links (h : Pinned svc s) (hintact : Intact svc s')
    (hkeeps : ∀ digest bytes, s.blobs digest = some bytes → s'.blobs digest = some bytes)
    (hlinks : ∀ name text, s'.links name = some text → s.links name = some text) :
    Pinned svc s' := by
  refine ⟨hintact, fun r pin hr hpin text htext => ?_⟩
  obtain ⟨digest, bytes, heq, hblob, hvouch⟩ := h.linked r pin hr hpin text (hlinks _ _ htext)
  exact ⟨digest, bytes, heq, hkeeps digest bytes hblob, hvouch⟩

/-- Writing a link keeps the pins if every pin of the name vouches for it. -/
lemma link (h : Pinned svc s) (hintact : Intact svc s')
    (hkeeps : ∀ digest bytes, s.blobs digest = some bytes → s'.blobs digest = some bytes)
    {name : List Char} (hblob : s'.blobs digest = some bytes)
    (hlinks : s'.links = update s.links name (some digest.text))
    (hvouch : ∀ r pin, Accepted r → r.digest = some pin → safeName r.toStringCanonical = name →
      Vouches svc pin digest) : Pinned svc s' := by
  refine ⟨hintact, fun r pin hr hpin text htext => ?_⟩
  rw [hlinks, update_apply] at htext
  split_ifs at htext with hname
  · cases htext
    exact ⟨digest, bytes, rfl, hblob, hvouch r pin hr hpin hname⟩
  · obtain ⟨d, b, heq, hb, hv⟩ := h.linked r pin hr hpin text htext
    exact ⟨d, b, heq, hkeeps d b hb, hv⟩

/-- What is read through the link of a pinned reference. -/
lemma read (h : Pinned svc s) (hr : Accepted reference) (hpin : reference.digest = some pin)
    (hread : s.getManifest .clean reference.toStringCanonical = .ok (some bytes)) :
    Vouches svc pin (.fromData svc.sha bytes) := by
  cases hlink : s.links (safeName reference.toStringCanonical) with
  | none =>
    rw [Content.getManifest, hlink] at hread
    cases hread
  | some text =>
    obtain ⟨digest, b, rfl, hblob, hvouch⟩ := h.linked reference pin hr hpin text hlink
    rw [Content.getManifest_of_link hlink, Content.getBlob, hblob] at hread
    cases hread
    rwa [h.intact digest bytes hblob]

end Pinned

lemma clean_unbroken : Faults.clean.Unbroken := fun _ => .inr rfl

lemma clean_uncut : Faults.clean.Uncut := ⟨by simp [Faults.clean], by simp [Faults.clean]⟩

/-- The link that a pull writes is one that every pin of its name vouches for. -/
lemma vouched_of_fetch (hr : Accepted reference)
    (hfetch : fetchManifest svc registry reference = .ok body) (r : ImageReference)
    (pin : List Char) (hr' : Accepted r) (hpin : r.digest = some pin)
    (hname : safeName r.toStringCanonical = safeName reference.toStringCanonical) :
    Vouches svc pin (Digest.fromData svc.sha body) := by
  obtain ⟨pin', hpin', hsafe⟩ := digest_of_safeName_eq hr' hr hpin hname
  obtain ⟨hvouch, digest, hdigest⟩ := fetchManifest_vouched hpin' hfetch
  rw [← Digest.parse_eq_some.mp hdigest] at hsafe hvouch
  rwa [pin_eq_of_safeName (hr'.digest pin hpin) hsafe]

lemma relinked_pinned (h : Pinned svc s) (hr : Accepted reference)
    (hrelinks : Relinks svc .clean registry reference s body) :
    Pinned svc (relinked svc .clean reference s body) := by
  refine h.link (storeBlob_extends h.intact clean_unbroken body).intact
    (fun d b hb => storeBlob_keeps d b hb) (blobs_linked hrelinks.kept) ?_
    (vouched_of_fetch hr hrelinks.fetched)
  rw [relinked, Content.setLink_links, storeBlob_links]
  rfl

/-! ## One step -/

lemma pullEntry_pinned (h : Pinned svc s) (referenceStr what : List Char) (entry : OciDescriptor) :
    Triple (· = s) (pullEntry svc .clean registry referenceStr what entry)
      (fun _ s' => Pinned svc s' ∧ s'.links = s.links) (fun _ s' => Pinned svc s')
      (fun _ => False) := by
  refine .conseq
    ((pullEntry_extends h.intact clean_unbroken referenceStr what entry).and
      (pullEntry_adds clean_uncut referenceStr what entry))
    ?_ ?_ (fun _ hs => hs.2)
  · rintro _ s' ⟨⟨hextends, -⟩, -, hadds⟩
    exact ⟨h.of_links hextends.intact hadds.keeps fun _ _ ht => hadds.links ▸ ht, hadds.links⟩
  · rintro _ s' ⟨hextends, -, hadds⟩
    exact h.of_links hextends.intact hadds.keeps fun _ _ ht => hadds.links ▸ ht

lemma pullLayers_pinned (h : Pinned svc s) (referenceStr : List Char)
    (layers : List OciDescriptor) :
    Triple (· = s) (pullLayers svc .clean registry referenceStr layers)
      (fun _ s' => Pinned svc s' ∧ s'.links = s.links) (fun _ s' => Pinned svc s')
      (fun _ => False) := by
  induction layers generalizing s with
  | nil => exact pure_at ⟨h, rfl⟩
  | cons layer layers ih =>
    refine .bind (pullEntry_pinned h referenceStr _ layer) fun _ => .of_forall ?_
    rintro s₁ ⟨h₁, hlinks₁⟩
    refine (ih h₁).conseq ?_ (fun _ _ hs => hs) (fun _ hs => hs)
    exact fun _ s₂ hs => ⟨hs.1, hs.2.trans hlinks₁⟩

/-- What a pull of a pinned reference returns, and what it leaves linked. -/
def Honoured (svc : Service) (reference : ImageReference) (manifest : OciManifest)
    (s : Content) : Prop :=
  ∀ pin, reference.digest = some pin →
    (∃ bytes, svc.serde.manifest bytes = .ok manifest ∧
      Vouches svc pin (.fromData svc.sha bytes)) ∧
    ∃ bytes, s.getManifest .clean reference.toStringCanonical = .ok (some bytes) ∧
      Vouches svc pin (.fromData svc.sha bytes)

/-- What is linked under a reference after the pull switched its link. -/
lemma read_of_relinked (hintact : Intact svc s')
    (hlinks : s'.links = (relinked svc .clean reference s body).links)
    (hblob : s'.blobs (.fromData svc.sha body) = some bytes) :
    s'.getManifest .clean reference.toStringCanonical = .ok (some bytes) ∧
      Digest.fromData svc.sha bytes = Digest.fromData svc.sha body := by
  have hlink : s'.links (safeName reference.toStringCanonical) =
      some (Digest.fromData svc.sha body).text := by
    rw [hlinks, relinked, Content.setLink_links, update_self]
    rfl
  refine ⟨?_, hintact _ _ hblob⟩
  rw [Content.getManifest_of_link hlink, Content.getBlob, hblob]
  rfl

lemma pullFromRegistry_pinned (h : Pinned svc s) (hr : Accepted reference)
    (referenceStr : List Char) {cached : Option OciManifest}
    (hcached : cached.isSome = true → reference.digest = none) :
    Triple (· = s) (pullFromRegistry svc Faults.clean registry referenceStr reference cached)
      (fun manifest s' => Pinned svc s' ∧ Honoured svc reference manifest s')
      (fun _ s' => Pinned svc s') (fun _ => False) := by
  refine bind_at (attempt_at ?_)
  refine Triple.conseq ((pullManifest_cases clean_uncut).and
    (pullManifest_extends h.intact clean_unbroken reference)) ?_ ?_
    (fun _ hs => hs.1)
  · rintro manifest _ ⟨⟨body, hrelinks, -, hparse, rfl⟩, -⟩
    have h₁ := relinked_pinned h hr hrelinks
    refine Triple.bind (pullEntry_pinned h₁ referenceStr _ manifest.config) fun _ =>
      Triple.of_forall ?_
    rintro s₂ ⟨h₂, hlinks₂⟩
    refine Triple.bind (pullLayers_pinned h₂ referenceStr manifest.layers) fun _ =>
      Triple.of_forall ?_
    rintro s₃ ⟨h₃, hlinks₃⟩
    refine pure_at ⟨h₃, fun pin hpin => ?_⟩
    have hvouch := (fetchManifest_vouched hpin hrelinks.fetched).1
    refine ⟨⟨body, hparse, hvouch⟩, ?_⟩
    -- the link of the reference leads to a blob of that digest
    have hlinks := hlinks₃.trans hlinks₂
    have hlink : s₃.links (safeName reference.toStringCanonical) =
        some (Digest.fromData svc.sha body).text := by
      rw [hlinks, relinked, Content.setLink_links, update_self]
      rfl
    obtain ⟨digest, bytes, htext, hblob, -⟩ := h₃.linked reference pin hr hpin _ hlink
    have hdigest : digest = Digest.fromData svc.sha body := by
      have hparse' := digest.parse_text
      rw [← htext, Digest.parse_text] at hparse'
      exact (Option.some.inj hparse').symm
    rw [hdigest] at hblob
    obtain ⟨hread, heq⟩ := read_of_relinked h₃.intact hlinks hblob
    exact ⟨bytes, hread, heq ▸ hvouch⟩
  · rintro e s₁ ⟨hcases, hextends⟩
    have h₁ : Pinned svc s₁ := by
      rcases hcases with ⟨body, hrelinks, -, rfl⟩ | ⟨-, hlinks, hkeeps⟩
      · exact relinked_pinned h hr hrelinks
      · exact h.of_links hextends.intact hkeeps fun _ _ ht => hlinks ▸ ht
    cases cached with
    | none => exact raise_at h₁
    | some manifest =>
      refine pure_at ⟨h₁, fun pin hpin => ?_⟩
      rw [hcached rfl] at hpin
      cases hpin

lemma pull_pinned (h : Pinned svc s) {referenceStr : List Char}
    (hparse : ImageReference.parse referenceStr = .ok reference) :
    Triple (· = s) (pull svc Faults.clean registry referenceStr)
      (fun manifest s' => Pinned svc s' ∧ Honoured svc reference manifest s')
      (fun _ s' => Pinned svc s') (fun _ => False) := by
  have hr := accepted_of_parse hparse
  refine bind_at (ofExcept_at (fun r hparsed => ?_) fun _ _ => h)
  have heq : r = reference := by
    rw [parseReference, hparse] at hparsed
    exact (Except.ok.inj hparsed).symm
  subst heq
  refine bind_at (getState_at ?_)
  refine bind_at (ofExcept_at (fun bytes hbytes => ?_) fun _ _ => h)
  have hread : s.getManifest Faults.clean r.toStringCanonical = .ok bytes := by
    cases hget : s.getManifest Faults.clean r.toStringCanonical with
    | ok b =>
      rw [hget] at hbytes
      exact congrArg _ (Except.ok.inj hbytes)
    | error e =>
      rw [hget] at hbytes
      cases hbytes
  cases hpin : r.digest with
  | none => exact pullFromRegistry_pinned h hr referenceStr fun _ => hpin
  | some pin =>
    cases hcached : s.cached svc bytes with
    | none => exact pullFromRegistry_pinned h hr referenceStr (by simp)
    | some manifest =>
      -- the cache is vouched for by whoever filled it
      obtain ⟨b, rfl, hparsed, -⟩ := cached_eq_some.mp hcached
      refine pure_at ⟨h, fun pin' hpin' => ?_⟩
      have hvouch := h.read hr hpin' hread
      exact ⟨⟨b, hparsed, hvouch⟩, b, hread, hvouch⟩

/-- An operation that goes through, and that stores under a name only what every pin of that name
    vouches for. -/
def Orderly (svc : Service) (e : Event) : Prop :=
  e.faults = .clean ∧
    match e.op with
    | .PutManifest name manifest => ∀ r pin, Accepted r → r.digest = some pin →
        safeName r.toStringCanonical = safeName name →
        Vouches svc pin (.fromData svc.sha manifest)
    | _ => True

lemma storeBlob_pinned (h : Pinned svc s) (data : Bytes) :
    Pinned svc (storeBlob svc.sha .clean s data) :=
  h.of_links (storeBlob_extends h.intact clean_unbroken data).intact
    (fun d b hb => storeBlob_keeps d b hb) fun _ _ ht => by rwa [storeBlob_links] at ht

lemma step_pinned (s : Content) (e : Event) (h : Pinned svc s) (he : Orderly svc e) :
    Pinned svc (step svc s e) := by
  obtain ⟨op, faults⟩ := e
  obtain ⟨hclean, hop⟩ := he
  simp only at hclean
  subst hclean
  cases op with
  | PutBlob data =>
    have hstore := storeBlob_pinned h data
    exact Triple.final (P := (· = s)) (putBlob_at (fun _ => hstore) (fun _ _ _ => hstore)
      (fun _ _ _ => hstore)) [] rfl
  | PutManifest name manifest =>
    have hkept : Kept svc Faults.clean s manifest := Or.inr rfl
    have hlinked : Pinned svc ((storeBlob svc.sha Faults.clean s manifest).setLink
        (safeName name) (some (Digest.fromData svc.sha manifest).text)) := by
      refine h.link (storeBlob_extends h.intact clean_unbroken manifest).intact
        (fun d b hb => storeBlob_keeps d b hb) (blobs_linked hkept) ?_ hop
      rw [Content.setLink_links, storeBlob_links]
    refine Triple.final (P := (· = s)) (bind_at (putBlob_at (fun _ => ?_) ?_ ?_)) [] rfl
    · refine bind_at (Triple.writeFile_at (fun _ => pure_at hlinked) ?_ ?_)
      · exact fun w hw => nomatch hw
      · exact fun w hw => nomatch hw
    · exact fun w _ hw => nomatch hw
    · exact fun w _ hw => nomatch hw
  | PullBlob registry digest =>
    have hall : Triple (· = s) (pullBlob svc Faults.clean registry digest) _ _ _ :=
      (pullBlob_extends h.intact clean_unbroken digest).and (pullBlob_adds clean_uncut digest)
    refine Triple.final (hall.conseq ?_ ?_ (fun _ hs => hs.2.elim)) [] rfl
    · rintro _ s' ⟨⟨hextends, -⟩, -, hadds⟩
      exact h.of_links hextends.intact hadds.keeps fun _ _ ht => hadds.links ▸ ht
    · rintro _ s' ⟨hextends, -, hadds⟩
      exact h.of_links hextends.intact hadds.keeps fun _ _ ht => hadds.links ▸ ht
  | Pull registry referenceStr =>
    cases hparse : ImageReference.parse referenceStr with
    | error message =>
      have hfail : Triple (· = s) (pull svc Faults.clean registry referenceStr)
          (fun _ => Pinned svc) (fun _ => Pinned svc) (Pinned svc) := by
        refine bind_at (ofExcept_at (fun r hr => ?_) fun _ _ => h)
        rw [parseReference, hparse] at hr
        cases hr
      exact Triple.final hfail [] rfl
    | ok reference =>
      refine Triple.final ((pull_pinned h hparse).conseq (fun _ _ hs => hs.1)
        (fun _ _ hs => hs) (fun _ hs => hs.elim)) [] rfl
  | RemoveImage referenceStr =>
    have hremove : Triple (· = s) (removeImage Faults.clean referenceStr) (fun _ => Pinned svc)
        (fun _ => Pinned svc) (Pinned svc) := by
      refine bind_at (ofExcept_at (fun reference _ => ?_) fun _ _ => h)
      refine bind_at (getState_at ?_)
      split_ifs
      · refine judged_at (fun _ => ?_) (fun _ => h) fun _ => h
        refine h.of_links h.intact (fun _ _ hb => hb) fun name text ht => ?_
        rw [Content.setLink_links, update_apply] at ht
        split_ifs at ht
        exact ht
      · exact pure_at h
    exact Triple.final hremove [] rfl

end

/-- **Pins are honoured.**  After every run of pulls, removals and stores, with any answers of the
    registries, in which nothing is stored under the name of a pinned reference that its pin does
    not vouch for: a pull of a reference pinned to `pin` that returns has returned a manifest that
    `pin` vouches for, from the cache or from the registry, and has left one linked. -/
theorem pinned_pull_vouched (svc : Service) (es : List Event)
    (h : Meets (step svc) (fun _ e => Orderly svc e) .empty es) (registry : Registry)
    (referenceStr pin : List Char) (reference : ImageReference) (manifest : OciManifest)
    (hparse : ImageReference.parse referenceStr = .ok reference)
    (hpin : reference.digest = some pin)
    (hdone : (pull svc .clean registry referenceStr []
      (run (step svc) .empty es)).1 = .done manifest) :
    (∃ bytes, svc.serde.manifest bytes = .ok manifest ∧
      Vouches svc pin (.fromData svc.sha bytes)) ∧
    ∃ bytes, (pull svc .clean registry referenceStr []
        (run (step svc) .empty es)).2.2.getManifest .clean
          reference.toStringCanonical = .ok (some bytes) ∧
      Vouches svc pin (.fromData svc.sha bytes) := by
  have hempty : Pinned svc .empty :=
    ⟨fun _ _ hb => (by cases hb), fun _ _ _ _ _ ht => (by cases ht)⟩
  have hs : Pinned svc (run (step svc) .empty es) :=
    Meets.invariant (I := Pinned svc) (fun s e hs he => step_pinned s e hs he) hempty h
  exact (Triple.of_done (pull_pinned hs hparse) rfl hdone).2 pin hpin

/-! ## A store that is believed -/

/-- A reference pinned to the digest of the manifest `[9]`. -/
def pinnedStr : List Char :=
  "reg.io/app@".toList ++ (Digest.fromData .sample [9]).text

def pinnedReference : ImageReference :=
  ⟨"reg.io".toList, "app".toList, "latest".toList, some (Digest.fromData .sample [9]).text⟩

/-- A registry that serves the manifest `[9]` and its config. -/
def pinnedRegistry : Registry where
  manifest := .ok [9]
  platform := fun _ => .error (.ContentError [])
  blob := fun _ => .ok [10]

/-- The image is pulled, removed and pulled again. -/
theorem pinned_pull_vouched_again :
    let s := run (step movingService) Content.empty
      [⟨.Pull pinnedRegistry pinnedStr, Faults.clean⟩, ⟨.RemoveImage pinnedStr, Faults.clean⟩]
    ∃ bytes, (pull movingService Faults.clean pinnedRegistry pinnedStr [] s).2.2.getManifest
        Faults.clean pinnedReference.toStringCanonical = .ok (some bytes) ∧
      Vouches movingService (Digest.fromData Sha256.sample [9]).text
        (Digest.fromData Sha256.sample bytes) :=
  (pinned_pull_vouched movingService
    [⟨.Pull pinnedRegistry pinnedStr, Faults.clean⟩, ⟨.RemoveImage pinnedStr, Faults.clean⟩]
    (show _ ∧ _ ∧ _ from ⟨⟨rfl, trivial⟩, ⟨rfl, trivial⟩, trivial⟩) pinnedRegistry pinnedStr
    (Digest.fromData Sha256.sample [9]).text pinnedReference
    ⟨2, [], ⟨[], (Digest.fromData Sha256.sample [10]).text, 1⟩, []⟩ (by decide +kernel) rfl
    (by decide +kernel)).2

/-- **What is stored is believed.**  The manifest `[7]` is stored under a reference that is pinned
    to the digest of another document, its config is there, and a pull of the reference returns it
    without asking the registry.  No document of that digest is an index. -/
theorem stored_manifest_not_checked :
    let s := run (step movingService) Content.empty
      [⟨.PutBlob [8], Faults.clean⟩,
        ⟨.PutManifest pinnedReference.toStringCanonical [7], Faults.clean⟩]
    let pulled := pull movingService Faults.clean newRegistry pinnedStr [] s
    ImageReference.parse pinnedStr = .ok pinnedReference ∧
    pulled.1 = .done ⟨2, [], ⟨[], (Digest.fromData Sha256.sample [8]).text, 1⟩, []⟩ ∧
    pulled.2.2.getManifest Faults.clean pinnedReference.toStringCanonical = .ok (some [7]) ∧
    ¬ Vouches movingService (Digest.fromData Sha256.sample [9]).text
      (Digest.fromData Sha256.sample [7]) := by
  refine ⟨by decide +kernel, by decide +kernel, by decide +kernel, ?_⟩
  rintro (heq | ⟨doc, index, entry, -, hindex, -⟩)
  · revert heq
    decide +kernel
  · cases hindex

end Rauha.Oci
