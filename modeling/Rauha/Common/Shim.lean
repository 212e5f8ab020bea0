import Rauha.Library.Bytes

/-!
# Messages between the daemon and a shim

A message is its encoding behind four bytes of length.  The writer takes the length of the encoding
modulo `2 ^ 32` and writes whatever there is; the reader refuses a length above one mebibyte.

How messages are encoded belongs to the `postcard` library: `Postcard` holds what is assumed about
it.  `frames_decode_iff` says which sequences of messages come out of a stream as they went in.
-/

namespace Rauha.Shim

open Bytes

/-- **The encoding of messages**: what is encoded is decoded again, and from no buffer of another
    length. -/
structure Postcard (M : Type) where
  toAllocvec : M → Option (List UInt8)
  fromBytes : List UInt8 → Option M
  roundtrip : ∀ msg payload, toAllocvec msg = some payload → fromBytes payload = some msg
  exact : ∀ msg payload bytes, toAllocvec msg = some payload → fromBytes bytes = some msg →
    bytes.length = payload.length

inductive ShimIoError where
  | Io
  | Encode
  | Decode
  | MessageTooLarge (length : ℕ)
  deriving DecidableEq, Repr

section

variable {M : Type} (postcard : Postcard M)

def maxMessage : ℕ := 1024 * 1024

def encode (msg : M) : Option (List UInt8) :=
  (postcard.toAllocvec msg).map fun payload => toLeBytes 4 payload.length ++ payload

/-- Append a message to a stream. -/
def encodeTo (stream : List UInt8) (msg : M) : Except ShimIoError (List UInt8) :=
  match encode postcard msg with
  | some bytes => .ok (stream ++ bytes)
  | none => .error .Encode

/-- One message off a stream, with what is left. -/
def decodeFrom (stream : List UInt8) : Except ShimIoError (M × List UInt8) :=
  match readExact 4 stream with
  | none => .error .Io
  | some (lengthBytes, stream) =>
    let length := fromLeBytes lengthBytes
    if maxMessage < length then .error (.MessageTooLarge length)
    else
      match readExact length stream with
      | none => .error .Io
      | some (payload, stream) =>
        match postcard.fromBytes payload with
        | none => .error .Decode
        | some msg => .ok (msg, stream)

/-- One message after the other. -/
def encodeAll (stream : List UInt8) : List M → Except ShimIoError (List UInt8)
  | [] => .ok stream
  | msg :: rest =>
    match encodeTo postcard stream msg with
    | .ok stream => encodeAll stream rest
    | .error e => .error e

def decodeMany : ℕ → List UInt8 → Except ShimIoError (List M × List UInt8)
  | 0, stream => .ok ([], stream)
  | n + 1, stream =>
    match decodeFrom postcard stream with
    | .error e => .error e
    | .ok (msg, stream) =>
      match decodeMany n stream with
      | .error e => .error e
      | .ok (msgs, stream) => .ok (msg :: msgs, stream)

end

variable {M : Type} {postcard : Postcard M} {msg : M} {payload : List UInt8}

/-- What the reader makes of a frame: the length it reads is that of the encoding modulo
    `2 ^ 32`. -/
lemma decodeFrom_frame (rest : List UInt8) :
    decodeFrom postcard (toLeBytes 4 payload.length ++ payload ++ rest) =
      if maxMessage < payload.length % 2 ^ 32 then
        .error (.MessageTooLarge (payload.length % 2 ^ 32))
      else
        match postcard.fromBytes (payload.take (payload.length % 2 ^ 32)) with
        | none => .error .Decode
        | some msg => .ok (msg, payload.drop (payload.length % 2 ^ 32) ++ rest) := by
  have hlength : fromLeBytes (toLeBytes 4 payload.length) = payload.length % 2 ^ 32 :=
    fromLeBytes_toLeBytes 4 payload.length
  unfold decodeFrom
  rw [List.append_assoc, readExact_append (length_toLeBytes 4 _)]
  simp only [hlength]
  split_ifs
  · rfl
  · rw [readExact_of_le (Nat.mod_le _ _)]

/-- A frame within the reader's limit is read back. -/
lemma decodeFrom_of_le (h : postcard.toAllocvec msg = some payload)
    (hle : payload.length ≤ maxMessage) (rest : List UInt8) :
    decodeFrom postcard (toLeBytes 4 payload.length ++ payload ++ rest) = .ok (msg, rest) := by
  have hmod : payload.length % 2 ^ 32 = payload.length :=
    Nat.mod_eq_of_lt (lt_of_le_of_lt hle (by decide))
  rw [decodeFrom_frame, hmod, if_neg (by omega), List.take_length, List.drop_length,
    postcard.roundtrip msg _ h]
  rfl

/-- **Only such a frame is**: above the limit the reader refuses the length, or sees one that is too
    short, since it was cut off at `2 ^ 32`. -/
lemma le_of_decodeFrom (h : postcard.toAllocvec msg = some payload) {rest stream : List UInt8}
    (hok : decodeFrom postcard (toLeBytes 4 payload.length ++ payload ++ rest) =
      .ok (msg, stream)) :
    payload.length ≤ maxMessage := by
  rw [decodeFrom_frame] at hok
  split_ifs at hok with hlarge
  cases hfrom : postcard.fromBytes (payload.take (payload.length % 2 ^ 32)) with
  | none => simp only [hfrom, reduceCtorEq] at hok
  | some msg' =>
    simp only [hfrom, Except.ok.injEq, Prod.mk.injEq] at hok
    obtain ⟨rfl, -⟩ := hok
    have hexact := postcard.exact msg' payload _ h hfrom
    rw [List.length_take] at hexact
    omega

/-- The bytes of one message. -/
def frame (payload : List UInt8) : List UInt8 := toLeBytes 4 payload.length ++ payload

/-- **What is written** is the frames of the encodings, behind what was in the stream. -/
lemma encodeAll_ok {stream bytes : List UInt8} {msgs : List M}
    (h : encodeAll postcard stream msgs = .ok bytes) :
    ∃ payloads, List.Forall₂ (fun msg payload => postcard.toAllocvec msg = some payload) msgs
      payloads ∧ bytes = stream ++ payloads.flatMap frame := by
  induction msgs generalizing stream with
  | nil =>
    cases h
    exact ⟨[], .nil, by simp⟩
  | cons msg msgs ih =>
    rw [encodeAll, encodeTo, encode] at h
    cases hto : postcard.toAllocvec msg with
    | none => simp [hto] at h
    | some payload =>
      rw [hto] at h
      obtain ⟨payloads, hall, rfl⟩ := ih h
      exact ⟨payload :: payloads, .cons hto hall, by simp [frame]⟩

lemma decodeMany_cons {n : ℕ} {stream rest : List UInt8} {msgs : List M} :
    decodeMany postcard (n + 1) stream = .ok (msg :: msgs, rest) ↔
      ∃ stream', decodeFrom postcard stream = .ok (msg, stream') ∧
        decodeMany postcard n stream' = .ok (msgs, rest) := by
  rw [decodeMany]
  cases decodeFrom postcard stream with
  | error e => simp
  | ok first =>
    obtain ⟨msg', stream'⟩ := first
    simp only
    cases hmany : decodeMany postcard n stream' with
    | error e =>
      simp only [Except.ok.injEq, Prod.mk.injEq, reduceCtorEq, false_iff, not_exists]
      rintro stream'' ⟨⟨-, rfl⟩, hmany'⟩
      rw [hmany] at hmany'
      cases hmany'
    | ok more =>
      obtain ⟨msgs', rest'⟩ := more
      simp only [Except.ok.injEq, Prod.mk.injEq, List.cons.injEq]
      constructor
      · rintro ⟨⟨rfl, rfl⟩, rfl⟩
        exact ⟨stream', ⟨rfl, rfl⟩, hmany⟩
      · rintro ⟨stream'', ⟨rfl, rfl⟩, hmany'⟩
        rw [hmany] at hmany'
        cases hmany'
        exact ⟨⟨rfl, rfl⟩, rfl⟩

/-- **Framing.**  Messages that have been written to a stream are read back in order, up to the last
    of their bytes and whatever follows, exactly if none of their encodings is longer than one
    mebibyte. -/
theorem frames_decode_iff {msgs : List M} {bytes : List UInt8}
    (h : encodeAll postcard [] msgs = .ok bytes) :
    (∀ rest, decodeMany postcard msgs.length (bytes ++ rest) = .ok (msgs, rest)) ↔
      ∀ msg ∈ msgs, ∀ payload, postcard.toAllocvec msg = some payload →
        payload.length ≤ 1024 * 1024 := by
  obtain ⟨payloads, hall, rfl⟩ := encodeAll_ok h
  rw [List.nil_append]
  clear h
  induction hall with
  | nil => simp [decodeMany]
  | @cons msg payload msgs payloads hto hall ih =>
    have hfirst : ∀ rest, (payload :: payloads).flatMap frame ++ rest =
        toLeBytes 4 payload.length ++ payload ++ (payloads.flatMap frame ++ rest) := by
      simp [frame]
    have hforall :
        (∀ m ∈ msg :: msgs, ∀ p, postcard.toAllocvec m = some p → p.length ≤ maxMessage) ↔
        payload.length ≤ maxMessage ∧
          ∀ m ∈ msgs, ∀ p, postcard.toAllocvec m = some p → p.length ≤ maxMessage := by
      simp [hto]
    refine .trans ?_ (hforall.trans (and_congr_right' ih.symm)).symm
    constructor
    · intro hmany
      obtain ⟨stream, hdecode, -⟩ := decodeMany_cons.mp (hmany [])
      rw [hfirst] at hdecode
      have hle := le_of_decodeFrom hto hdecode
      refine ⟨hle, fun rest => ?_⟩
      obtain ⟨stream, hdecode, hrest⟩ := decodeMany_cons.mp (hmany rest)
      rw [hfirst, decodeFrom_of_le hto hle] at hdecode
      cases hdecode
      exact hrest
    · rintro ⟨hle, hrest⟩ rest
      exact decodeMany_cons.mpr ⟨_, by rw [hfirst]; exact decodeFrom_of_le hto hle _, hrest rest⟩

/-- The encoding of byte strings by themselves. -/
def plainPostcard : Postcard (List UInt8) where
  toAllocvec := some
  fromBytes := some
  roundtrip _ _ h := h.symm
  exact _ _ _ h h' := by
    cases h
    cases h'
    rfl

theorem frames_decode_iff_two :
    decodeMany plainPostcard 2 ([2, 0, 0, 0, 7, 8, 1, 0, 0, 0, 9] ++ [5]) =
      .ok ([[7, 8], [9]], [5]) := by
  have hwritten : encodeAll plainPostcard [] [[7, 8], [9]] =
      .ok [2, 0, 0, 0, 7, 8, 1, 0, 0, 0, 9] := by decide
  refine (frames_decode_iff hwritten).mpr (fun msg hmsg payload hpayload => ?_) [5]
  cases hpayload
  revert msg
  decide

/-- **A message of more than a mebibyte is written and not read.** -/
theorem large_message_lost : ∃ bytes,
    encodeAll plainPostcard [] [List.replicate (1024 * 1024 + 1) 0] = .ok bytes ∧
    decodeFrom plainPostcard bytes = .error (.MessageTooLarge (1024 * 1024 + 1)) := by
  have hlength : (List.replicate (1024 * 1024 + 1) (0 : UInt8)).length = 1024 * 1024 + 1 :=
    List.length_replicate
  have hframe := @decodeFrom_frame _ plainPostcard (List.replicate (1024 * 1024 + 1) 0) []
  rw [List.append_nil, hlength, if_pos (by decide)] at hframe
  refine ⟨toLeBytes 4 (1024 * 1024 + 1) ++ List.replicate (1024 * 1024 + 1) 0, ?_, hframe⟩
  rw [encodeAll, encodeTo, encode, show plainPostcard.toAllocvec _ = some _ from rfl,
    Option.map_some, hlength]
  rfl

end Rauha.Shim
