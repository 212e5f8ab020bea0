import Rauha.Oci.Pull

/-!
# Which pulls leave an image usable

A reference is **complete** when its link leads to a manifest and every blob of the manifest is
there.  A pull switches the link as soon as it has the manifest, before it has the blobs, so that a
later failure leaves the new manifest linked and the old image unreachable
(`moved_tag_lost`).

`pull_survives_iff` is exact: an image survives a pull that fails, and is complete after one that
succeeds, if and only if the link is not switched or the manifest it is switched to is one whose
blobs the store has or the registry delivers.
-/

namespace Rauha.Oci

open CrashLogic Triple Function

/-- A usable image: the linked manifest parses and all its blobs are there. -/
def Complete (svc : Service) (s : Content) (canonical : List Char) : Prop :=
  ∃ bytes manifest, s.getManifest .clean canonical = .ok (some bytes) ∧
    svc.serde.manifest bytes = .ok manifest ∧ s.manifestBlobsPresent manifest = true

/-- Storage errors, but no crash. -/
structure Faults.Uncut (faults : Faults) : Prop where
  blob : ∀ data w, faults.blob data ≠ .cut w
  link : ∀ w, faults.link ≠ .cut w

section

variable (svc : Service) (faults : Faults) (registry : Registry)

/-! ## What the registry delivers -/

/-- The registry serves bytes of that digest. -/
def Serves (digest : Digest) (bytes : Bytes) : Prop :=
  registry.blob digest = .ok bytes ∧ .fromData svc.sha bytes = digest

/-- The blob is there, or it is served and written. -/
def Obtainable (s : Content) (digest : Digest) : Prop :=
  s.hasBlob digest = true ∨ ∃ bytes, Serves svc registry digest bytes ∧ faults.blob bytes = .done

/-- The blob is served, and writing it leaves a file. -/
def LeavesFile (digest : Digest) : Prop :=
  ∃ bytes, Serves svc registry digest bytes ∧ (faults.blob bytes).leaves none bytes ≠ none

def EntryObtainable (s : Content) (entry : OciDescriptor) : Prop :=
  ∃ digest, Digest.parse entry.digest = some digest ∧ Obtainable svc faults registry s digest

/-- The downloads for a list of descriptors leave a file for the digest: they get as far as it. -/
def Downloaded (s : Content) (entries : List OciDescriptor) (digest : Digest) : Prop :=
  ∃ before entry after, entries = before ++ entry :: after ∧
    (∀ e ∈ before, EntryObtainable svc faults registry s e) ∧
    Digest.parse entry.digest = some digest ∧ LeavesFile svc faults registry digest

end

variable {digest : Digest}

section

variable {svc : Service} {faults : Faults} {registry : Registry} {s s' : Content}

lemma downloaded_nil : ¬ Downloaded svc faults registry s [] digest := by
  rintro ⟨before, entry, after, hsplit, -⟩
  cases before <;> cases hsplit

variable {entries : List OciDescriptor}

lemma downloaded_cons {entry : OciDescriptor} :
    Downloaded svc faults registry s (entry :: entries) digest ↔
      (Digest.parse entry.digest = some digest ∧ LeavesFile svc faults registry digest) ∨
      (EntryObtainable svc faults registry s entry ∧
        Downloaded svc faults registry s entries digest) := by
  constructor
  · rintro ⟨before, e, after, hsplit, hbefore, hparse, hfile⟩
    cases before with
    | nil =>
      cases hsplit
      exact .inl ⟨hparse, hfile⟩
    | cons b before =>
      cases hsplit
      exact .inr ⟨hbefore _ (by simp), before, e, after, rfl,
        fun x hx => hbefore x (List.mem_cons_of_mem _ hx), hparse, hfile⟩
  · rintro (⟨hparse, hfile⟩ | ⟨hentry, before, e, after, rfl, hbefore, hparse, hfile⟩)
    · exact ⟨[], entry, entries, rfl, by simp, hparse, hfile⟩
    · exact ⟨entry :: before, e, after, rfl, List.forall_mem_cons.mpr ⟨hentry, hbefore⟩, hparse,
        hfile⟩

/-- What the downloads do to the files: they add the blobs in `D` and touch nothing else. -/
structure Adds (D : Digest → Prop) (s s' : Content) : Prop where
  links : s'.links = s.links
  keeps : ∀ digest bytes, s.blobs digest = some bytes → s'.blobs digest = some bytes
  hasBlob : ∀ digest, s'.hasBlob digest = true ↔ s.hasBlob digest = true ∨ D digest

variable {D : Digest → Prop}

lemma Adds.refl (h : ∀ digest, D digest → s.hasBlob digest = true) : Adds D s s :=
  ⟨rfl, fun _ _ hb => hb, fun digest => ⟨.inl, fun hd => hd.elim id (h digest)⟩⟩

variable {D' : Digest → Prop}

lemma Adds.trans {s'' : Content} (h : Adds D s s') (h' : Adds D' s' s'') :
    Adds (fun d => D d ∨ D' d) s s'' :=
  ⟨h'.links.trans h.links, fun d b hb => h'.keeps d b (h.keeps d b hb), fun d => by
    rw [h'.hasBlob, h.hasBlob, or_assoc]⟩

lemma Adds.congr (h : Adds D s s') (heq : ∀ d, D d ↔ D' d) : Adds D' s s' :=
  ⟨h.links, h.keeps, fun d => by rw [h.hasBlob, heq]⟩

/-- **A download** that succeeds exactly if `A` holds, and adds the blobs in `D` either way. -/
def Decides {α : Type} (A : Prop) (D : Digest → Prop) (s : Content) (c : Prog Content Error α) :
    Prop :=
  Triple (· = s) c (fun _ s' => A ∧ Adds D s s') (fun _ s' => ¬ A ∧ Adds D s s') fun _ => False

lemma Decides.congr {α : Type} {A A' : Prop} {c : Prog Content Error α} (h : Decides A D s c)
    (hA : A ↔ A') (hD : ∀ d, D d ↔ D' d) : Decides A' D' s c :=
  h.conseq (fun _ _ h => ⟨hA.mp h.1, h.2.congr hD⟩) (fun _ _ h => ⟨hA.not.mp h.1, h.2.congr hD⟩)
    fun _ h => h

/-- The files after a blob was served. -/
lemma adds_setBlob {bytes : Bytes} (hblob : s.hasBlob digest = false)
    (hserves : Serves svc registry digest bytes) :
    Adds (fun d => d = digest ∧ LeavesFile svc faults registry d) s
      (s.setBlob digest ((faults.blob bytes).leaves none bytes)) := by
  have hnone : s.blobs digest = none := by simpa [Content.hasBlob] using hblob
  refine ⟨rfl, fun d b hb => ?_, fun d => ?_⟩
  · have hne : d ≠ digest := fun heq => by rw [heq, hnone] at hb; cases hb
    rwa [Content.setBlob_blobs, update_of_ne hne]
  · by_cases heq : d = digest
    · subst heq
      simp only [Content.hasBlob, Content.setBlob_blobs, update_self, hnone,
        Option.isSome_none, Bool.false_eq_true, false_or, true_and, Option.isSome_iff_ne_none]
      constructor
      · exact fun hfile => ⟨bytes, hserves, hfile⟩
      · rintro ⟨bytes', hserves', hfile⟩
        cases hserves.1.symm.trans hserves'.1
        exact hfile
    · simp [Content.hasBlob, heq]

/-- A blob that is not served is not obtained, and nothing is written. -/
lemma not_served (hblob : s.hasBlob digest = false)
    (h : ∀ bytes, ¬ Serves svc registry digest bytes) :
    ¬ Obtainable svc faults registry s digest ∧
      Adds (fun d => d = digest ∧ LeavesFile svc faults registry d) s s := by
  refine ⟨?_, .refl ?_⟩
  · rintro (hhas | ⟨bytes, hserves, -⟩)
    · rw [hblob] at hhas
      cases hhas
    · exact h bytes hserves
  · rintro _ ⟨rfl, bytes, hserves, -⟩
    exact absurd hserves (h bytes)

lemma pullBlob_adds (hcut : faults.Uncut) (digest : Digest) :
    Decides (Obtainable svc faults registry s digest)
      (fun d => d = digest ∧ LeavesFile svc faults registry d) s
      (pullBlob svc faults registry digest) := by
  refine bind_at (getState_at ?_)
  split_ifs with hblob
  · exact pure_at ⟨Or.inl hblob, Adds.refl fun _ h => h.1 ▸ hblob⟩
  · have hfalse : s.hasBlob digest = false := Bool.eq_false_iff.mpr hblob
    refine bind_at (ofExcept_at (fun bytes hbytes => ?_) fun e he => ?_)
    · refine bind_at ?_
      unfold Prog.failIf
      split_ifs with hvalid
      · -- the bytes have another digest
        refine raise_at (not_served hfalse ?_)
        rintro bytes' ⟨hbytes', hdigest⟩
        cases hbytes.symm.trans hbytes'
        simp [Digest.validate, hdigest] at hvalid
      · have hdigest : Digest.fromData svc.sha bytes = digest := by
          simpa [Digest.validate] using hvalid
        subst hdigest
        have hserves : Serves svc registry (Digest.fromData svc.sha bytes) bytes := ⟨hbytes, rfl⟩
        have hadds : Adds (fun d => d = Digest.fromData svc.sha bytes ∧
            LeavesFile svc faults registry d) s (s.setBlob (Digest.fromData svc.sha bytes)
              ((faults.blob bytes).leaves none bytes)) := adds_setBlob hfalse hserves
        have hstore : storeBlob svc.sha faults s bytes =
            s.setBlob (Digest.fromData svc.sha bytes) ((faults.blob bytes).leaves none bytes) := by
          rw [storeBlob, if_neg hblob]
        refine pure_at (bind_at (mapError_at (putBlob_at ?_ ?_ ?_)))
        · intro hkept
          have hdone := hkept.resolve_left hblob
          exact pure_at ⟨Or.inr ⟨bytes, hserves, hdone⟩, hstore ▸ hadds⟩
        · intro w _ hfate
          refine ⟨?_, hstore ▸ hadds⟩
          rintro (hhas | ⟨bytes', hserves', hdone⟩)
          · exact hblob hhas
          · cases hserves.1.symm.trans hserves'.1
            rw [hfate] at hdone
            cases hdone
        · exact fun w _ hfate => hcut.blob bytes w hfate
    · refine not_served hfalse fun bytes hserves => ?_
      rw [hserves.1] at he
      cases he

/-- What one descriptor adds. -/
lemma pullEntry_adds (hcut : faults.Uncut) (referenceStr what : List Char) (entry : OciDescriptor) :
    Decides (EntryObtainable svc faults registry s entry)
      (fun d => Digest.parse entry.digest = some d ∧ LeavesFile svc faults registry d) s
      (pullEntry svc faults registry referenceStr what entry) := by
  unfold pullEntry
  cases hparse : Digest.parse entry.digest with
  | none =>
    refine raise_at ⟨?_, Adds.refl fun _ h => by cases h.1⟩
    rintro ⟨digest, hsome, -⟩
    rw [hparse] at hsome
    cases hsome
  | some digest =>
    refine (pullBlob_adds hcut digest).congr ?_ fun d => by rw [Option.some.injEq, eq_comm]
    simp [EntryObtainable, hparse]

/-- Adding what can be obtained changes nothing about what can. -/
lemma Adds.obtainable (h : Adds D s s') (hD : ∀ d, D d → Obtainable svc faults registry s d)
    (digest : Digest) :
    Obtainable svc faults registry s' digest ↔ Obtainable svc faults registry s digest := by
  unfold Obtainable
  rw [h.hasBlob]
  constructor
  · rintro ((hhas | hd) | hserved)
    · exact .inl hhas
    · exact hD digest hd
    · exact .inr hserved
  · rintro (hhas | hserved)
    · exact .inl (.inl hhas)
    · exact .inr hserved

lemma Adds.entryObtainable (h : Adds D s s') (hD : ∀ d, D d → Obtainable svc faults registry s d)
    (entry : OciDescriptor) :
    EntryObtainable svc faults registry s' entry ↔ EntryObtainable svc faults registry s entry :=
  exists_congr fun digest => and_congr_right fun _ => h.obtainable hD digest

lemma Adds.downloaded (h : Adds D s s') (hD : ∀ d, D d → Obtainable svc faults registry s d)
    (entries : List OciDescriptor) (digest : Digest) :
    Downloaded svc faults registry s' entries digest ↔
      Downloaded svc faults registry s entries digest := by
  unfold Downloaded
  simp only [h.entryObtainable hD]

/-- One descriptor and then the others. -/
lemma pullEntry_then_adds (hcut : faults.Uncut) (referenceStr what : List Char)
    (entry : OciDescriptor)
    (hrest : ∀ s, Decides (∀ e ∈ entries, EntryObtainable svc faults registry s e)
      (Downloaded svc faults registry s entries) s
      (pullLayers svc faults registry referenceStr entries)) :
    Decides (∀ e ∈ entry :: entries, EntryObtainable svc faults registry s e)
      (Downloaded svc faults registry s (entry :: entries)) s (do
        pullEntry svc faults registry referenceStr what entry
        pullLayers svc faults registry referenceStr entries) := by
  refine bind_at ((pullEntry_adds hcut referenceStr what entry).conseq ?_ ?_ (fun _ h => h))
  · rintro _ s₁ ⟨hentry, h₁⟩
    -- the first descriptor is obtained, and what it added could be obtained before
    have hD : ∀ d, Digest.parse entry.digest = some d ∧ LeavesFile svc faults registry d →
        Obtainable svc faults registry s d := by
      rintro d ⟨hparse, -⟩
      obtain ⟨digest, hsome, hobtainable⟩ := hentry
      cases hparse.symm.trans hsome
      exact hobtainable
    have hadds : ∀ s', Adds (Downloaded svc faults registry s₁ entries) s₁ s' →
        Adds (Downloaded svc faults registry s (entry :: entries)) s s' := fun s' h =>
      (h₁.trans h).congr fun d => by
        rw [downloaded_cons, h₁.downloaded hD]
        simp [hentry]
    have hall : (∀ e ∈ entries, EntryObtainable svc faults registry s₁ e) ↔
        ∀ e ∈ entry :: entries, EntryObtainable svc faults registry s e := by
      simp only [List.forall_mem_cons, h₁.entryObtainable hD, hentry, true_and]
    refine (hrest s₁).conseq ?_ ?_ (fun _ h => h)
    · exact fun _ s' h => ⟨hall.mp h.1, hadds s' h.2⟩
    · exact fun _ s' h => ⟨hall.not.mp h.1, hadds s' h.2⟩
  · rintro _ s₁ ⟨hentry, h₁⟩
    refine ⟨fun hall => hentry (hall entry (by simp)), h₁.congr fun d => ?_⟩
    rw [downloaded_cons]
    simp [hentry]

lemma pullLayers_adds (hcut : faults.Uncut) (referenceStr : List Char)
    (entries : List OciDescriptor) (s : Content) :
    Decides (∀ e ∈ entries, EntryObtainable svc faults registry s e)
      (Downloaded svc faults registry s entries) s
      (pullLayers svc faults registry referenceStr entries) := by
  induction entries generalizing s with
  | nil => exact pure_at ⟨by simp, .refl fun _ h => absurd h downloaded_nil⟩
  | cons entry entries ih => exact pullEntry_then_adds hcut referenceStr _ entry ih

end

/-! ## Switching the link -/

section

variable (svc : Service) (faults : Faults) (registry : Registry) (reference : ImageReference)

/-- The manifest gets into the store. -/
def Kept (s : Content) (body : Bytes) : Prop :=
  s.hasBlob (.fromData svc.sha body) = true ∨ faults.blob body = .done

/-- The store with the manifest in it and the link written, as far as it is. -/
def relinked (s : Content) (body : Bytes) : Content :=
  (storeBlob svc.sha faults s body).setLink (safeName reference.toStringCanonical)
    (faults.link.leaves (s.links (safeName reference.toStringCanonical))
      (Digest.fromData svc.sha body).text)

/-- The registry offers the manifest, it is stored, and the write of the link is not refused. -/
structure Relinks (s : Content) (body : Bytes) : Prop where
  fetched : fetchManifest svc registry reference = .ok body
  kept : Kept svc faults s body
  written : faults.link ≠ .failed none

/-- The bytes that the new link leads to: those that are there under the digest already, or the
    manifest itself. -/
def linkedBytes (s : Content) (body : Bytes) : Bytes :=
  (s.blobs (.fromData svc.sha body)).getD body

/-- The digests that a pull downloads once the link is written. -/
def Fetched (s : Content) (body : Bytes) (digest : Digest) : Prop :=
  faults.link = .done ∧ ∃ manifest, svc.serde.manifest body = .ok manifest ∧
    Downloaded svc faults registry (storeBlob svc.sha faults s body) manifest.entries digest

/-- **What makes the switch safe**: the link is written to its end, what it leads to is a manifest,
    and each blob of that is in the store or is downloaded. -/
structure Safe (s : Content) (body : Bytes) : Prop where
  link : faults.link = .done ∨ ∃ n, 71 ≤ n ∧ faults.link = .failed (some n)
  manifest : ∃ manifest, svc.serde.manifest (linkedBytes svc s body) = .ok manifest ∧
    ∀ entry ∈ manifest.entries, ∃ digest, Digest.parse entry.digest = some digest ∧
      (s.hasBlob digest = true ∨ digest = .fromData svc.sha body ∨
        Fetched svc faults registry s body digest)

/-- The pull runs to its end: the link is written, the manifest parses, every blob of it is there
    or delivered. -/
def Succeeds (s : Content) (body : Bytes) : Prop :=
  faults.link = .done ∧ ∃ manifest, svc.serde.manifest body = .ok manifest ∧
    ∀ entry ∈ manifest.entries,
      EntryObtainable svc faults registry (storeBlob svc.sha faults s body) entry

/-- The pull gets to the registry: the cache can be read, and does not settle it. -/
def Asks (s : Content) : Prop :=
  (∃ bytes, s.getManifest faults reference.toStringCanonical = .ok bytes) ∧
    (reference.digest = none ∨ ¬ Complete svc s reference.toStringCanonical)

/-- **The condition**: a link that is switched, over a usable image or in a pull that succeeds, is
    switched safely. -/
def SwitchesSafely (s : Content) : Prop :=
  Asks svc faults reference s → ∀ body, Relinks svc faults registry reference s body →
    Complete svc s reference.toStringCanonical ∨ Succeeds svc faults registry s body →
      Safe svc faults registry s body

end

section

variable {svc : Service} {faults : Faults} {registry : Registry} {reference : ImageReference}
  {s s' : Content} {body : Bytes}

lemma hasBlob_storeBlob_iff (hkept : Kept svc faults s body) (digest : Digest) :
    (storeBlob svc.sha faults s body).hasBlob digest = true ↔
      s.hasBlob digest = true ∨ digest = Digest.fromData svc.sha body := by
  unfold storeBlob
  split_ifs with hblob
  · exact ⟨Or.inl, fun h => h.elim id fun heq => heq ▸ hblob⟩
  · rw [hkept.resolve_left hblob]
    by_cases heq : digest = Digest.fromData svc.sha body
    · subst heq
      simp [Content.hasBlob, WriteFate.leaves]
    · simp [Content.hasBlob, heq]

lemma storeBlob_keeps (digest : Digest) (bytes : Bytes) (h : s.blobs digest = some bytes) :
    (storeBlob svc.sha faults s body).blobs digest = some bytes := by
  unfold storeBlob
  split_ifs with hblob
  · exact h
  · have hne : digest ≠ .fromData svc.sha body := fun heq =>
      hblob (by rw [← heq, Content.hasBlob, h]; rfl)
    rwa [Content.setBlob_blobs, update_of_ne hne]

lemma blobs_linked (hkept : Kept svc faults s body) :
    (storeBlob svc.sha faults s body).blobs (.fromData svc.sha body) =
      some (linkedBytes svc s body) := by
  unfold linkedBytes
  cases hblob : s.blobs (.fromData svc.sha body) with
  | some bytes => exact storeBlob_keeps _ _ hblob
  | none =>
    have hhas : s.hasBlob (.fromData svc.sha body) = false := by
      rw [Content.hasBlob, hblob]
      rfl
    rw [storeBlob, if_neg (by simp [hhas]),
      hkept.resolve_left (by simp [hhas]), Content.setBlob_blobs, update_self]
    rfl

variable {canonical : List Char}

/-- An image stays complete when its link stays and its files do. -/
lemma Complete.of_links (h : Complete svc s canonical)
    (hlinks : s'.links (safeName canonical) = s.links (safeName canonical))
    (hkeeps : ∀ digest bytes, s.blobs digest = some bytes → s'.blobs digest = some bytes) :
    Complete svc s' canonical := by
  obtain ⟨bytes, manifest, hread, hparse, hpresent⟩ := h
  refine ⟨bytes, manifest, ?_, hparse, manifestBlobsPresent_iff.mpr fun entry hentry => ?_⟩
  · unfold Content.getManifest at hread ⊢
    rw [hlinks]
    cases hlink : s.links (safeName canonical) with
    | none =>
      rw [hlink] at hread
      cases hread
    | some text =>
      rw [hlink] at hread
      simp only [Faults.clean] at hread ⊢
      cases hdigest : Digest.parse (Text.trim text) with
      | none =>
        rw [hdigest] at hread
        cases hread
      | some digest =>
        rw [hdigest] at hread
        simp only [Content.getBlob] at hread ⊢
        cases hblob : s.blobs digest with
        | none =>
          rw [hblob] at hread
          cases hread
        | some data =>
          rw [hblob] at hread
          rw [hkeeps digest data hblob]
          exact hread
  · obtain ⟨digest, hdigest, hblob⟩ := manifestBlobsPresent_iff.mp hpresent entry hentry
    obtain ⟨data, hdata⟩ := Option.isSome_iff_exists.mp hblob
    exact ⟨digest, hdigest, by rw [Content.hasBlob, hkeeps digest data hdata]; rfl⟩

/-- An image whose link was written to its end is complete if what the link leads to is. -/
lemma complete_of_link {bytes : Bytes} (hlink : s.links (safeName canonical) = some digest.text)
    (hblob : s.blobs digest = some bytes) :
    Complete svc s canonical ↔ ∃ manifest, svc.serde.manifest bytes = .ok manifest ∧
      s.manifestBlobsPresent manifest = true := by
  have hread : s.getManifest .clean canonical = .ok (some bytes) := by
    rw [Content.getManifest_of_link hlink, Content.getBlob, hblob]
    rfl
  constructor
  · rintro ⟨bytes', manifest, hread', hparse, hpresent⟩
    cases hread.symm.trans hread'
    exact ⟨manifest, hparse, hpresent⟩
  · rintro ⟨manifest, hparse, hpresent⟩
    exact ⟨bytes, manifest, hread, hparse, hpresent⟩

/-- **Complete after a switch** is the same as switched safely. -/
lemma complete_relinked_iff (hcut : faults.Uncut)
    (hr : Relinks svc faults registry reference s body)
    (hadds : Adds (Fetched svc faults registry s body) (relinked svc faults reference s body) s') :
    Complete svc s' reference.toStringCanonical ↔ Safe svc faults registry s body := by
  have hlinks : s'.links (safeName reference.toStringCanonical) =
      faults.link.leaves (s.links (safeName reference.toStringCanonical))
        (Digest.fromData svc.sha body).text := by
    rw [hadds.links, relinked, Content.setLink_links, update_self]
  have hblob : s'.blobs (.fromData svc.sha body) = some (linkedBytes svc s body) :=
    hadds.keeps _ _ (blobs_linked hr.kept)
  -- with the link whole, completeness is that of the manifest it leads to
  have hwhole : s'.links (safeName reference.toStringCanonical) =
      some (Digest.fromData svc.sha body).text → (Complete svc s' reference.toStringCanonical ↔
        ∃ manifest, svc.serde.manifest (linkedBytes svc s body) = .ok manifest ∧
          ∀ entry ∈ manifest.entries, ∃ digest, Digest.parse entry.digest = some digest ∧
            (s.hasBlob digest = true ∨ digest = .fromData svc.sha body ∨
              Fetched svc faults registry s body digest)) := by
    intro hlink
    rw [complete_of_link hlink hblob]
    refine exists_congr fun manifest => and_congr_right fun _ => ?_
    rw [manifestBlobsPresent_iff]
    refine forall₂_congr fun entry _ => exists_congr fun digest => and_congr_right fun _ => ?_
    have hstored := hasBlob_storeBlob_iff hr.kept digest
    rw [hadds.hasBlob]
    show (storeBlob svc.sha faults s body).hasBlob digest = true ∨ _ ↔ _
    rw [hstored, or_assoc]
  cases hfate : faults.link with
  | done =>
    rw [hfate] at hlinks
    rw [hwhole hlinks]
    exact ⟨fun h => ⟨.inl hfate, h⟩, fun h => h.manifest⟩
  | cut w => exact absurd hfate (hcut.link w)
  | failed w =>
    cases w with
    | none => exact absurd hfate hr.written
    | some n =>
      rw [hfate] at hlinks
      by_cases hn : 71 ≤ n
      · rw [WriteFate.leaves, List.take_of_length_le
          (by rw [Digest.length_text]; exact hn)] at hlinks
        rw [hwhole hlinks]
        exact ⟨fun h => ⟨.inr ⟨n, hn, hfate⟩, h⟩, fun h => h.manifest⟩
      · -- the link is a part of a digest
        constructor
        · rintro ⟨bytes, manifest, hread, -⟩
          rw [Content.getManifest_of_part (by omega) hlinks] at hread
          cases hread
        · rintro ⟨hlink | ⟨m, hm, hlink⟩, -⟩
          · rw [hfate] at hlink
            cases hlink
          · rw [hfate] at hlink
            cases hlink
            exact absurd hm hn

/-- What `pull_manifest` does: it switches the link and returns, or fails with the link switched, or
    fails with the link as it was. -/
lemma pullManifest_cases (hcut : faults.Uncut) :
    Triple (· = s) (pullManifest svc faults registry reference)
      (fun manifest s' => ∃ body, Relinks svc faults registry reference s body ∧
        faults.link = .done ∧ svc.serde.manifest body = .ok manifest ∧
        s' = relinked svc faults reference s body)
      (fun _ s' => (∃ body, Relinks svc faults registry reference s body ∧
          ¬ (faults.link = .done ∧ ∃ manifest, svc.serde.manifest body = .ok manifest) ∧
          s' = relinked svc faults reference s body) ∨
        (∀ body, ¬ Relinks svc faults registry reference s body) ∧ s'.links = s.links ∧
          ∀ digest bytes, s.blobs digest = some bytes → s'.blobs digest = some bytes)
      (fun _ => False) := by
  refine bind_at (ofExcept_at (fun body hfetch => ?_) fun e hfetch => ?_)
  · have hunique : ∀ body', Relinks svc faults registry reference s body' → body' = body :=
      fun body' h => Except.ok.inj (h.fetched.symm.trans hfetch)
    refine bind_at (mapError_at (bind_at (putBlob_at ?_ ?_ ?_)))
    · intro hkept
      refine bind_at (Triple.writeFile_at ?_ ?_ ?_)
      · intro hlink
        have hr : Relinks svc faults registry reference s body := ⟨hfetch, hkept, by simp [hlink]⟩
        have heq : (storeBlob svc.sha faults s body).setLink
            (safeName reference.toStringCanonical) (some (Digest.fromData svc.sha body).text) =
              relinked svc faults reference s body := by
          rw [relinked, hlink]
          rfl
        refine pure_at (ofExcept_at (fun manifest hparse => ?_) fun e hparse => ?_)
        · exact ⟨body, hr, hlink, Prog.mapError_eq_ok.mp hparse, heq⟩
        · refine Or.inl ⟨body, hr, ?_, heq⟩
          rintro ⟨-, manifest, hm⟩
          rw [hm] at hparse
          cases hparse
      · intro w hlink
        cases w with
        | none =>
          refine Or.inr ⟨fun body' h => h.written hlink, ?_, fun d b h => storeBlob_keeps d b h⟩
          rw [hlink]
          simp [WriteFate.leaves]
        | some n =>
          refine Or.inl ⟨body, ⟨hfetch, hkept, by simp [hlink]⟩, ?_, ?_⟩
          · rintro ⟨hdone, -⟩
            rw [hlink] at hdone
            cases hdone
          · rw [relinked, storeBlob_links]
      · exact fun w hlink => hcut.link w hlink
    · intro w hhas hfate
      refine Or.inr ⟨fun body' h => ?_, storeBlob_links body, fun d b h => storeBlob_keeps d b h⟩
      rcases hunique body' h ▸ h.kept with hblob | hdone
      · rw [hhas] at hblob
        cases hblob
      · rw [hfate] at hdone
        cases hdone
    · exact fun w _ hfate => hcut.blob body w hfate
  · refine Or.inr ⟨fun body h => ?_, rfl, fun _ _ h => h⟩
    rw [h.fetched] at hfetch
    cases hfetch

/-! ## The whole pull -/

variable {bytes : Option Bytes}

lemma complete_iff_cached (hread : s.getManifest faults canonical = .ok bytes) :
    Complete svc s canonical ↔ ∃ manifest, s.cached svc bytes = some manifest := by
  have hclean := Content.getManifest_of_ok hread
  constructor
  · rintro ⟨b, manifest, hread', hparse, hpresent⟩
    cases hclean.symm.trans hread'
    exact ⟨manifest, cached_eq_some.mpr ⟨b, rfl, hparse, hpresent⟩⟩
  · rintro ⟨manifest, hcached⟩
    obtain ⟨b, rfl, hparse, hpresent⟩ := cached_eq_some.mp hcached
    exact ⟨b, manifest, hclean, hparse, hpresent⟩

lemma not_complete_of_cached (hread : s.getManifest faults canonical = .ok bytes)
    (h : s.cached svc bytes = none) : ¬ Complete svc s canonical := by
  rw [complete_iff_cached hread, h]
  simp

/-- The condition, once the pull is at the registry and has a manifest. -/
lemma switchesSafely_iff (hasks : Asks svc faults reference s)
    (hr : Relinks svc faults registry reference s body) :
    SwitchesSafely svc faults registry reference s ↔
      (Complete svc s reference.toStringCanonical ∨ Succeeds svc faults registry s body →
        Safe svc faults registry s body) := by
  constructor
  · exact fun h => h hasks body hr
  · intro h _ body' hr'
    cases hr.fetched.symm.trans hr'.fetched
    exact h

/-- What the pull does once it asks the registry. -/
lemma pullFromRegistry_survives (hcut : faults.Uncut) (referenceStr : List Char)
    (hread : s.getManifest faults reference.toStringCanonical = .ok bytes)
    (hasks : Asks svc faults reference s) :
    Triple (· = s)
      (pullFromRegistry svc faults registry referenceStr reference (s.cached svc bytes))
      (fun _ s' => Complete svc s' reference.toStringCanonical ↔
        SwitchesSafely svc faults registry reference s)
      (fun _ s' => (Complete svc s reference.toStringCanonical →
          Complete svc s' reference.toStringCanonical) ↔
        SwitchesSafely svc faults registry reference s)
      (fun _ => False) := by
  refine bind_at (attempt_at ?_)
  refine .conseq (pullManifest_cases hcut) ?_ ?_ (fun _ h => h)
  · -- the link is switched, and the downloads follow
    rintro manifest _ ⟨body, hr, hlink, hparse, rfl⟩
    have hall : (∀ entry ∈ manifest.entries, EntryObtainable svc faults registry
        (relinked svc faults reference s body) entry) ↔
          Succeeds svc faults registry s body := by
      constructor
      · exact fun h => ⟨hlink, manifest, hparse, h⟩
      · rintro ⟨-, m, hm, h⟩
        cases hparse.symm.trans hm
        exact h
    have hfetched : ∀ digest, Downloaded svc faults registry (relinked svc faults reference s body)
        manifest.entries digest ↔ Fetched svc faults registry s body digest := by
      intro digest
      constructor
      · exact fun h => ⟨hlink, manifest, hparse, h⟩
      · rintro ⟨-, m, hm, h⟩
        cases hparse.symm.trans hm
        exact h
    have hiff := switchesSafely_iff hasks hr
    simp only
    rw [← Prog.bind_assoc]
    refine .bind (.conseq (pullEntry_then_adds hcut referenceStr "config".toList
      manifest.config (pullLayers_adds hcut referenceStr manifest.layers)) (fun _ _ h => h) ?_
      fun _ h => h) (fun _ => .of_forall ?_)
    · rintro _ s' ⟨hfail, hadds⟩
      have hnot : ¬ Succeeds svc faults registry s body := hall.not.mp hfail
      rw [complete_relinked_iff hcut hr (hadds.congr hfetched), hiff]
      simp [hnot]
    · rintro s' ⟨hdone, hadds⟩
      refine pure_at ?_
      rw [complete_relinked_iff hcut hr (hadds.congr hfetched), hiff]
      simp [hall.mp hdone]
  · rintro e s' (⟨body, hr, hnot, rfl⟩ | ⟨hnot, hlinks, hkeeps⟩)
    · -- the link is switched, but there is nothing to download for
      have hfail : ¬ Succeeds svc faults registry s body := fun h =>
        hnot ⟨h.1, h.2.choose, h.2.choose_spec.1⟩
      have hadds : Adds (Fetched svc faults registry s body)
          (relinked svc faults reference s body) (relinked svc faults reference s body) :=
        .refl fun digest h => absurd ⟨h.1, h.2.choose, h.2.choose_spec.1⟩ hnot
      have hiff := switchesSafely_iff hasks hr
      cases hcached : s.cached svc bytes with
      | none =>
        have hincomplete : ¬ Complete svc s reference.toStringCanonical :=
          not_complete_of_cached hread hcached
        refine raise_at ?_
        rw [hiff]
        simp [hincomplete, hfail]
      | some manifest =>
        have hcomplete : Complete svc s reference.toStringCanonical :=
          (complete_iff_cached hread).mpr ⟨manifest, hcached⟩
        refine pure_at ?_
        rw [complete_relinked_iff hcut hr hadds, hiff]
        simp [hcomplete]
    · -- the link is what it was
      have hsafe : SwitchesSafely svc faults registry reference s :=
        fun _ body hr => absurd hr (hnot body)
      cases hcached : s.cached svc bytes with
      | none =>
        refine raise_at (iff_of_true (fun hcomplete => ?_) hsafe)
        exact absurd hcomplete (not_complete_of_cached hread hcached)
      | some manifest =>
        have hcomplete : Complete svc s reference.toStringCanonical :=
          (complete_iff_cached hread).mpr ⟨manifest, hcached⟩
        exact pure_at
          (iff_of_true (hcomplete.of_links (by rw [hlinks]) hkeeps) hsafe)

lemma pull_survives (hcut : faults.Uncut) {referenceStr : List Char}
    (hparse : ImageReference.parse referenceStr = .ok reference) :
    Triple (· = s) (pull svc faults registry referenceStr)
      (fun _ s' => Complete svc s' reference.toStringCanonical ↔
        SwitchesSafely svc faults registry reference s)
      (fun _ s' => (Complete svc s reference.toStringCanonical →
          Complete svc s' reference.toStringCanonical) ↔
        SwitchesSafely svc faults registry reference s)
      (fun _ => False) := by
  refine bind_at (ofExcept_at (fun r hr => ?_) fun e he => ?_)
  · have heq : r = reference := by
      rw [parseReference, hparse] at hr
      exact (Except.ok.inj hr).symm
    subst heq
    refine bind_at (getState_at ?_)
    refine bind_at (ofExcept_at (fun bytes hbytes => ?_) fun e he => ?_)
    · have hread : s.getManifest faults r.toStringCanonical = .ok bytes :=
        Prog.mapError_eq_ok.mp hbytes
      cases hpin : r.digest with
      | none => exact pullFromRegistry_survives hcut referenceStr hread ⟨⟨bytes, hread⟩, .inl hpin⟩
      | some digest =>
        cases hcached : s.cached svc bytes with
        | none =>
          have hincomplete : ¬ Complete svc s r.toStringCanonical :=
            not_complete_of_cached hread hcached
          show Triple _ (pullFromRegistry svc faults registry referenceStr r none) _ _ _
          rw [← hcached]
          exact pullFromRegistry_survives hcut referenceStr hread
            ⟨⟨bytes, hread⟩, .inr hincomplete⟩
        | some manifest =>
          have hcomplete : Complete svc s r.toStringCanonical :=
            (complete_iff_cached hread).mpr ⟨manifest, hcached⟩
          refine pure_at (iff_of_true hcomplete ?_)
          rintro ⟨-, hnone | hincomplete⟩
          · rw [hpin] at hnone
            cases hnone
          · exact absurd hcomplete hincomplete
    · -- the cache cannot be read, and nothing happens
      refine iff_of_true (fun h => h) ?_
      rintro ⟨⟨bytes, hread⟩, -⟩
      rw [hread] at he
      cases he
  · rw [parseReference, hparse] at he
    cases he

end

/-- **An image survives a pull**: it is complete after a pull that succeeds, and if it was complete
    before, after one that fails. -/
def Survives (svc : Service) (faults : Faults) (registry : Registry) (referenceStr : List Char)
    (reference : ImageReference) (s : Content) : Prop :=
  match pull svc faults registry referenceStr [] s with
  | (.done _, _, s') => Complete svc s' reference.toStringCanonical
  | (.failed _, _, s') => Complete svc s reference.toStringCanonical →
      Complete svc s' reference.toStringCanonical
  | (.stopped, _, _) => True

/-- **Which images survive a pull**: exactly those whose link, if the pull switches it, is switched
    safely. -/
theorem pull_survives_iff (svc : Service) (faults : Faults) (registry : Registry)
    (referenceStr : List Char) (reference : ImageReference) (s : Content)
    (hparse : ImageReference.parse referenceStr = .ok reference) (hcut : faults.Uncut) :
    Survives svc faults registry referenceStr reference s ↔
      SwitchesSafely svc faults registry reference s := by
  have h := @pull_survives svc faults registry reference s hcut referenceStr hparse [] s rfl
  unfold Survives
  rcases hrun : pull svc faults registry referenceStr [] s with ⟨o, plan, s'⟩
  rw [hrun] at h
  cases o with
  | done manifest => exact h
  | failed e => exact h
  | stopped => exact h.elim

/-! ## A tag that moves -/

/-- A reader for evaluation: the config of the manifest `[n]` is the blob `[n + 1]`. -/
def movingService : Service where
  sha := .sample
  arch := "amd64".toList
  serde :=
    { manifest := fun b => .ok
        { schemaVersion := 2
          mediaType := []
          config := ⟨[], (Digest.fromData .sample (b.map (· + 1))).text, 1⟩
          layers := [] }
      index := fun _ => .error []
      config := fun _ => .ok () }

/-- A registry that serves the manifest `[7]` and its config. -/
def oldRegistry : Registry where
  manifest := .ok [7]
  platform := fun _ => .error (.ContentError [])
  blob := fun _ => .ok [8]

/-- A registry whose tag has moved to the manifest `[9]`, and that does not deliver its config. -/
def newRegistry : Registry where
  manifest := .ok [9]
  platform := fun _ => .error (.ContentError [])
  blob := fun _ => .error (.ContentError "download error".toList)

def movingTag : ImageReference := ⟨"reg.io".toList, "app".toList, "1".toList, none⟩

/-- The store after the first pull. -/
def pulledOnce : Content :=
  (pull movingService .clean oldRegistry "reg.io/app:1".toList [] .empty).2.2

/-- The store after the second one. -/
def pulledTwice : Content :=
  (pull movingService .clean newRegistry "reg.io/app:1".toList [] pulledOnce).2.2

/-- **A moved tag is lost.**  The image is complete; a pull that finds the tag moved and then fails
    at the config leaves the new manifest linked, without its config. -/
theorem moved_tag_lost :
    Complete movingService pulledOnce movingTag.toStringCanonical ∧
    (pull movingService Faults.clean newRegistry "reg.io/app:1".toList [] pulledOnce).1 =
      .failed (.ContentError "download error".toList) ∧
    ¬ Complete movingService pulledTwice movingTag.toStringCanonical := by
  refine ⟨?_, by decide +kernel, ?_⟩
  · have hread : pulledOnce.getManifest Faults.clean movingTag.toStringCanonical =
        .ok (some [7]) := by decide +kernel
    exact (complete_iff_cached hread).mpr (Option.isSome_iff_exists.mp (by decide +kernel))
  · have hread : pulledTwice.getManifest Faults.clean movingTag.toStringCanonical =
        .ok (some [9]) := by decide +kernel
    exact not_complete_of_cached hread (by decide +kernel)

/-- A pull that finds the tag where it was leaves the image complete. -/
lemma survives_pulledOnce :
    Survives movingService .clean oldRegistry "reg.io/app:1".toList movingTag pulledOnce := by
  have hread : (pull movingService .clean oldRegistry "reg.io/app:1".toList []
      pulledOnce).2.2.getManifest Faults.clean movingTag.toStringCanonical = .ok (some [7]) := by
    decide +kernel
  have hcomplete : Complete movingService _ movingTag.toStringCanonical :=
    (complete_iff_cached hread).mpr (Option.isSome_iff_exists.mp (by decide +kernel))
  unfold Survives
  rcases hrun : pull movingService .clean oldRegistry "reg.io/app:1".toList [] pulledOnce with
    ⟨o, plan, s'⟩
  rw [hrun] at hcomplete
  cases o with
  | done manifest => exact hcomplete
  | failed e => exact fun _ => hcomplete
  | stopped => trivial

theorem pull_survives_iff_same_tag :
    SwitchesSafely movingService .clean oldRegistry movingTag pulledOnce :=
  (pull_survives_iff movingService Faults.clean oldRegistry "reg.io/app:1".toList movingTag
    pulledOnce (by decide +kernel) ⟨by simp [Faults.clean], by simp [Faults.clean]⟩).mp
    survives_pulledOnce

end Rauha.Oci
