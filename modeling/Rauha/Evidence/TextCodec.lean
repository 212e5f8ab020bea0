import Rauha.Evidence.Record
import Rauha.Library.JsonFormat
import Rauha.Library.Utf8

/-!
# A codec

The assumptions on the codec can be met: by any JSON format in UTF-8, timestamps as the RFC 3339
text they are kept in, and any function at all for SHA-256 (`textCodec_lawful`).
-/

namespace Rauha

open Storage

namespace Evidence

/-- **A JSON format as a codec.**  The reader passes over the end of the line. -/
def textCodec (J : JsonFormat readerDepth) (sha256Hex : Bytes → String) : Codec String where
  toVec j := Utf8.encode (J.write j)
  fromSlice bytes := J.read ((Utf8.decodeLossy bytes).filter (· ≠ '\n'))
  showTime t := t
  readTime := some
  sha256Hex := sha256Hex

variable (J : JsonFormat readerDepth) (sha256Hex : Bytes → String)

/-- A line is read without its end. -/
lemma fromSlice_toVec (j : Json) :
    (textCodec J sha256Hex).fromSlice ((textCodec J sha256Hex).toVec j ++ [newline]) =
      J.read (J.write j) := by
  have hline : Utf8.encode (J.write j) ++ [newline] = Utf8.encode (J.write j ++ ['\n']) := by
    simp only [Utf8.encode, List.flatMap_append]
    rfl
  have htext : (J.write j ++ ['\n']).filter (· ≠ '\n') = J.write j := by
    rw [List.filter_append, List.filter_eq_self.mpr]
    · simp
    · exact fun c hc => decide_eq_true fun h => J.newline_notMem j (h ▸ hc)
  show J.read ((Utf8.decodeLossy (Utf8.encode (J.write j) ++ [newline])).filter (· ≠ '\n')) = _
  rw [hline, Utf8.decodeLossy_encode, htext]

/-- **The laws of a codec hold of it.** -/
theorem textCodec_lawful : (textCodec J sha256Hex).Lawful where
  read_written j _ hd := (fromSlice_toVec J sha256Hex j).trans (J.read_write j hd)
  read_deep j _ hd := (fromSlice_toVec J sha256Hex j).trans (J.read_deep j hd)
  no_newline j h := by
    obtain ⟨c, hc, hcode⟩ := Utf8.mem_encode_of_lt (by decide) h
    obtain rfl : c = '\n' := Char.toNat_inj.mp hcode
    exact J.newline_notMem j hc
  read_shown _ := rfl

/-! ## A sample -/

/-- The empty object. -/
def emptyObject : Value := ⟨.object [], rfl⟩

def emptyDigest : String := "44136fa3"

/-- The first entry of a journal whose manifest is the empty object. -/
def sampleEntry : Entry String :=
  ⟨1, "2026-01-01T00:00:00Z", "run.started", 1, "sha256:" ++ emptyDigest, emptyObject⟩

def sampleDigest : String := "0c3a2b6e"

/-- A format that can be evaluated. -/
def sampleFormat : JsonFormat readerDepth := JsonFormat.tokenFormat readerDepth

def charText (b : Bytes) : List Char := b.map fun x => Char.ofNat x.toNat

/-- Short names for the texts of the empty object and of `sampleEntry`; any other text is marked and
    kept, so that no two texts meet. -/
def recordedHash (b : Bytes) : String :=
  let unhashed := textCodec sampleFormat fun _ => ""
  if b = unhashed.toVec emptyObject.doc then emptyDigest
  else if b = unhashed.toVec (Serde.toValue unhashed sampleEntry) then sampleDigest
  else String.ofList ('?' :: charText b)

def sampleCodec : Codec String := textCodec sampleFormat recordedHash

lemma sampleCodec_lawful : sampleCodec.Lawful := textCodec_lawful sampleFormat recordedHash

lemma charText_injective : Function.Injective charText := by
  have hcode : ∀ n < 256, (Char.ofNat n).toNat = n := by decide +kernel
  refine List.map_injective_iff.mpr fun x y h => ?_
  have hnat := congrArg Char.toNat h
  rw [hcode _ x.toNat_lt, hcode _ y.toNat_lt] at hnat
  exact UInt8.toNat_inj.mp hnat

lemma recordedHash_injective : Function.Injective recordedHash := by
  have hmark : ∀ (t : List Char) (d : String), d.toList.head? ≠ some '?' →
      String.ofList ('?' :: t) ≠ d := by
    rintro t _ hd rfl
    simp at hd
  have h1 : emptyDigest.toList.head? ≠ some '?' := by decide
  have h2 : sampleDigest.toList.head? ≠ some '?' := by decide
  have h3 : emptyDigest ≠ sampleDigest := by decide
  intro a b h
  simp only [recordedHash] at h
  split_ifs at h with ha hb hb' ha' hb hb' hb hb'
  · rw [ha, hb]
  · exact absurd h h3
  · exact absurd h.symm (hmark _ _ h1)
  · exact absurd h.symm h3
  · rw [ha', hb']
  · exact absurd h.symm (hmark _ _ h2)
  · exact absurd h (hmark _ _ h1)
  · exact absurd h (hmark _ _ h2)
  · have htext := String.ofList_injective h
    exact charText_injective (List.cons.inj htext).2

end Evidence

end Rauha
