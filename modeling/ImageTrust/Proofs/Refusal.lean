/-
# Refusal — what a verifier fails with

A verifier is asked for the claims of a signature, and refuses the signature if it is
malformed, made by an untrusted key, or without claims.  Three more things can be wrong with
stored bytes, and these are not told as a refusal: containers too deep in each other, an
integer with too many digits, and a member that is no ASCII text where base64 is expected
(`Envelope.Beyond`).  They come out as what the readers of JSON and of base64 fail with.

Nothing else gets past a refusal (`verify_fails_beyond`).  But these do, whatever the keys are,
and whoever stores the bytes can make them so (`verify_openings`).
-/
import ImageTrust.Proofs.Encoding
import ImageTrust.Proofs.Containment
import ImageTrust.Proofs.Limits
import ImageTrust.Proofs.Signing

namespace ImageTrust

variable {σ : Type} {room : Room}

/-- Bytes that start with arrays are taken for UTF-8. -/
theorem Json.decode?_openings {n : Nat} (hn : 4 ≤ n) (rest : Text) :
    decode? (Text.utf8Bytes (List.replicate n opening ++ rest)) =
      some (List.replicate n opening ++ rest) := by
  obtain ⟨m, rfl⟩ := Nat.exists_eq_add_of_le' hn
  have hread : decode? (Text.utf8Bytes (List.replicate (m + 4) opening ++ rest)) =
      Text.ofUtf8? true (Text.utf8Bytes (List.replicate (m + 4) opening ++ rest)) := rfl
  rw [hread]
  exact Text.ofUtf8?_utf8Bytes_lone _

namespace Envelope

variable {raw : Bytes} {t payload signature : Text} {flaw : Flaw} {f : Fault}

/-! ## Reading an envelope -/

/-- What comes of reading an envelope. -/
inductive Reading (room : Room) (raw : Bytes) : Except Flaw Envelope → Prop
  | undecodable (text : Json.decode? raw = none) : Reading room raw (.error .undecodable)
  | json {t : Text} {why : Json.Defect} (text : Json.decode? raw = some t)
      (defect : Json.read room.json t = .error why) : Reading room raw (.error (.json why))
  | notObject : Reading room raw (.error .notObject)
  | missingMember : Reading room raw (.error .missingMember)
  | texts {payload signature : Text} (texts : Texts room raw payload signature) :
      Reading room raw (ofTexts payload signature)

theorem read_of_defect {why : Json.Defect} (ht : Json.decode? raw = some t)
    (hwhy : Json.read room.json t = .error why) : read room raw = .error (.json why) := by
  unfold read
  rw [ht]
  show (Except.mapError Flaw.json (Json.read room.json t) >>= _) = _
  rw [hwhy]
  rfl

theorem reading (room : Room) (raw : Bytes) : Reading room raw (read room raw) := by
  cases htext : Json.decode? raw with
  | none =>
      unfold read
      rw [htext]
      exact .undecodable htext
  | some t =>
      cases hread : Json.read room.json t with
      | error why =>
          rw [read_of_defect htext hread]
          exact .json htext hread
      | ok v =>
          rw [read_of_document htext hread]
          unfold ofDocument
          split
          · split
            · rename_i hpayload hsignature
              exact .texts ⟨htext, hread, hpayload, hsignature⟩
            · exact .missingMember
          · exact .notObject

/-! ## The members -/

/-- Every code point of the text is ASCII. -/
def Ascii (t : Text) : Prop := ∀ c ∈ t, c.val < 0x80

theorem decodeMember_eq_notAscii_iff : decodeMember t = .error .notAscii ↔ ¬ Ascii t := by
  have hany : (t.any fun c => 0x80 ≤ c.val) = true ↔ ¬ Ascii t := by
    simp [Ascii]
  unfold decodeMember
  split
  · rename_i hstrange
    exact iff_of_true rfl (hany.mp hstrange)
  · rename_i hascii
    refine iff_of_false ?_ fun hstrange => hascii (hany.mpr hstrange)
    split
    · exact nofun
    · exact nofun

theorem flaw_of_decodeMember (h : decodeMember t = .error flaw) :
    flaw = .notAscii ∨ flaw = .base64 := by
  unfold decodeMember at h
  split at h
  · cases h
    exact .inl rfl
  · split at h
    · cases h
    · cases h
      exact .inr rfl

theorem ofTexts_eq_error_iff :
    ofTexts payload signature = .error flaw ↔ decodeMember payload = .error flaw ∨
      (∃ bytes, decodeMember payload = .ok bytes) ∧ decodeMember signature = .error flaw := by
  unfold ofTexts
  simp only [Result.bind_eq_error_iff, pure, Except.pure, reduceCtorEq, and_false, exists_false,
    or_false, exists_and_right]

/-! ## What is beyond a refusal -/

/-- The faults of stored bytes that are passed on as they are. -/
inductive Beyond (room : Room) (raw : Bytes) : Fault → Prop
  | tooDeep {t : Text} {container : Json.Container} (text : Json.decode? raw = some t)
      (deep : Json.read room.json t = .error (.tooDeep container)) :
      Beyond room raw (.json (.tooDeep container))
  | longInteger {t : Text} {digits : Nat} (text : Json.decode? raw = some t)
      (long : Json.read room.json t = .error (.longInteger digits)) :
      Beyond room raw (.json (.longInteger digits))
  | payload {payload signature : Text} (texts : Texts room raw payload signature)
      (strange : ¬ Ascii payload) : Beyond room raw .notAscii
  | signature {payload signature : Text} {bytes : Bytes} (texts : Texts room raw payload signature)
      (decoded : decodeMember payload = .ok bytes) (strange : ¬ Ascii signature) :
      Beyond room raw .notAscii

/-- Only the reader of JSON and the reader of base64 are passed on. -/
theorem beyond_iff :
    Beyond room raw f ↔ ∃ flaw, read room raw = .error flaw ∧ Fault.ofEnvelopeFlaw flaw = f ∧
      ¬ f.isA .signatureVerification := by
  constructor
  · rintro (⟨htext, hdeep⟩ | ⟨htext, hlong⟩ | ⟨htexts, hstrange⟩ | ⟨htexts, hdecoded, hstrange⟩)
    · exact ⟨_, read_of_defect htext hdeep, rfl, nofun⟩
    · exact ⟨_, read_of_defect htext hlong, rfl, nofun⟩
    · refine ⟨.notAscii, ?_, rfl, nofun⟩
      rw [read_of_texts htexts]
      exact ofTexts_eq_error_iff.mpr (.inl (decodeMember_eq_notAscii_iff.mpr hstrange))
    · refine ⟨.notAscii, ?_, rfl, nofun⟩
      rw [read_of_texts htexts]
      exact ofTexts_eq_error_iff.mpr
        (.inr ⟨⟨_, hdecoded⟩, decodeMember_eq_notAscii_iff.mpr hstrange⟩)
  · rintro ⟨flaw, hread, rfl, hkind⟩
    have hreading := reading room raw
    rw [hread] at hreading
    generalize hresult : (Except.error flaw : Except Flaw Envelope) = result at hreading
    cases hreading with
    | undecodable htext =>
        cases hresult
        exact absurd rfl hkind
    | notObject =>
        cases hresult
        exact absurd rfl hkind
    | missingMember =>
        cases hresult
        exact absurd rfl hkind
    | json htext hdefect =>
        cases hresult
        rename_i why
        cases why with
        | syntaxError what line column offset => exact absurd rfl hkind
        | longInteger digits => exact .longInteger htext hdefect
        | tooDeep container => exact .tooDeep htext hdefect
    | texts htexts =>
        rcases ofTexts_eq_error_iff.mp hresult.symm with hmember | ⟨⟨bytes, hbytes⟩, hmember⟩
        · rcases flaw_of_decodeMember hmember with rfl | rfl
          · exact .payload htexts (decodeMember_eq_notAscii_iff.mp hmember)
          · exact absurd rfl hkind
        · rcases flaw_of_decodeMember hmember with rfl | rfl
          · exact .signature htexts hbytes (decodeMember_eq_notAscii_iff.mp hmember)
          · exact absurd rfl hkind

/-- What is passed on says that the stack of the reader is at its end, or that a value cannot be
converted. -/
theorem Beyond.kind (h : Beyond room raw f) : f.kind = .recursion ∨ f.kind = .value := by
  cases h with
  | tooDeep _ _ => exact .inl rfl
  | longInteger _ _ => exact .inr rfl
  | payload _ _ => exact .inr rfl
  | signature _ _ _ => exact .inr rfl

/-- Stored bytes within the limits of the reader, with ASCII in the members. -/
structure Ordinary (room : Room) (raw : Bytes) : Prop where
  limits : ∀ t, Json.decode? raw = some t → Json.WithinLimits room.json t
  ascii : ∀ payload signature, Texts room raw payload signature → Ascii payload ∧ Ascii signature

theorem Ordinary.not_beyond (hraw : Ordinary room raw) : ¬ Beyond room raw f := by
  intro h
  cases h with
  | tooDeep htext hdeep =>
      obtain ⟨_, _, _, _, hsyntax⟩ := Json.syntaxError_of_read (hraw.limits _ htext) hdeep
      cases hsyntax
  | longInteger htext hlong =>
      obtain ⟨_, _, _, _, hsyntax⟩ := Json.syntaxError_of_read (hraw.limits _ htext) hlong
      cases hsyntax
  | payload htexts hstrange => exact hstrange (hraw.ascii _ _ htexts).1
  | signature htexts _ hstrange => exact hstrange (hraw.ascii _ _ htexts).2

/-- Two short ASCII texts in an envelope are nothing out of the ordinary. -/
theorem ordinary_written (hpayload : Ascii payload) (hsignature : Ascii signature)
    (hdepth : ((document payload signature).toText Json.Layout.spaced).length ≤ room.json)
    (hdigits : ((document payload signature).toText Json.Layout.spaced).length ≤ Number.maxDigits) :
    Ordinary room (written payload signature) where
  limits t ht := by
    rw [decode?_written, Option.some.injEq] at ht
    exact .of_length (ht ▸ hdepth) (ht ▸ hdigits)
  ascii payload' signature' htexts := by
    obtain ⟨htext, hdocument, hpayload', hsignature'⟩ := htexts
    rw [decode?_written, Option.some.injEq] at htext
    subst htext
    rw [read_document, Except.ok.injEq] at hdocument
    subst hdocument
    cases hpayload'
    cases hsignature'
    exact ⟨hpayload, hsignature⟩

end Envelope

/-! ## Verifying -/

namespace Verifier

variable {keys : List PublicKey} {material raw : Bytes} {f : Fault}

theorem openEnvelope_eq_error_iff :
    openEnvelope room keys raw = .error f ∧ ¬ f.isA .signatureVerification ↔
      Envelope.Beyond room raw f := by
  rw [Envelope.beyond_iff]
  unfold openEnvelope
  rw [Result.bind_eq_error_iff, Result.mapError_eq_error_iff]
  constructor
  · rintro ⟨⟨flaw, hread, rfl⟩ | ⟨envelope, -, hrest⟩, hkind⟩
    · exact ⟨flaw, hread, rfl, hkind⟩
    · -- Behind the envelope there are a missing key and missing claims.
      split at hrest
      · cases hrest
        exact absurd rfl hkind
      · rcases Result.bind_eq_error_iff.mp hrest with hclaims | ⟨claims, -, hdone⟩
        · obtain ⟨problems, -, rfl⟩ := Result.mapError_eq_error_iff.mp hclaims
          exact absurd rfl hkind
        · cases hdone
  · rintro ⟨flaw, hread, rfl, hkind⟩
    exact ⟨.inl ⟨flaw, hread, rfl⟩, hkind⟩

theorem claims_eq_error_iff :
    claims room material raw = .error f ∧ ¬ f.isA .signatureVerification ↔
      (∃ keys, KeyBundle.load material = .ok keys) ∧ Envelope.Beyond room raw f := by
  unfold claims
  rw [Result.bind_eq_error_iff, Result.mapError_eq_error_iff]
  constructor
  · rintro ⟨⟨why, -, rfl⟩ | ⟨keys, hload, hopen⟩, hkind⟩
    · exact absurd rfl hkind
    · exact ⟨⟨keys, Result.mapError_eq_ok_iff.mp hload⟩,
        openEnvelope_eq_error_iff.mp ⟨hopen, hkind⟩⟩
  · rintro ⟨⟨keys, hload⟩, hbeyond⟩
    obtain ⟨hopen, hkind⟩ := (@openEnvelope_eq_error_iff room keys raw f).mpr hbeyond
    exact ⟨.inr ⟨keys, Result.mapError_eq_ok_iff.mpr hload, hopen⟩, hkind⟩

theorem verify_of_beyond (hload : KeyBundle.load material = .ok keys)
    (hraw : Envelope.Beyond room raw f) (v : Nat) (h : Host σ) :
    ((ed25519 room v).verify raw material h).1 = .error f := by
  obtain ⟨k, hverify⟩ := verify_apply room v raw material h
  rw [hverify]
  exact (claims_eq_error_iff.mpr ⟨⟨keys, hload⟩, hraw⟩).1

/-- Whatever the keys, with too many arrays inside of each other the reader is at its end. -/
theorem verify_openings {n : Nat} (hload : KeyBundle.load material = .ok keys)
    (hn : room.json < n) (rest : Text) (v : Nat) (h : Host σ) :
    ((ed25519 room v).verify (Text.utf8Bytes (List.replicate n Json.opening ++ rest)) material h).1 =
      .error (.json (.tooDeep .array)) := by
  have hfour : 4 ≤ n := by
    have hfits := room.fits
    omega
  have htext := Json.decode?_openings hfour rest
  exact verify_of_beyond hload (.tooDeep htext (Json.read_openings rest hn)) v h

/-- For all stored bytes and all key material: the verifier fails with a fault that is no refusal
just if there are keys and the fault is one of those that the bytes are beyond a refusal for. Then
it is of one of two kinds. Ordinary bytes are verified or refused. -/
theorem verify_fails_beyond (room : Room) (v : Nat) (raw material : Bytes) (h : Host σ) :
    (∀ f, ((ed25519 room v).verify raw material h).1 = .error f ∧ ¬ f.isA .signatureVerification ↔
        (∃ keys, KeyBundle.load material = .ok keys) ∧ Envelope.Beyond room raw f) ∧
      (∀ f, Envelope.Beyond room raw f → f.kind = .recursion ∨ f.kind = .value) ∧
      (Envelope.Ordinary room raw →
        (∃ signature, ((ed25519 room v).verify raw material h).1 = .ok signature) ∨
          ∃ f, ((ed25519 room v).verify raw material h).1 = .error f ∧
            f.isA .signatureVerification) := by
  obtain ⟨k, hverify⟩ := verify_apply room v raw material h
  rw [hverify]
  refine ⟨fun f => claims_eq_error_iff, fun f => Envelope.Beyond.kind, fun hraw => ?_⟩
  cases hclaims : claims room material raw with
  | ok signature => exact .inl ⟨signature, rfl⟩
  | error f =>
      refine .inr ⟨f, rfl, Decidable.byContradiction fun hkind => ?_⟩
      exact hraw.not_beyond (claims_eq_error_iff.mp ⟨hclaims, hkind⟩).2

end Verifier

open Specimen in
/-- An envelope of nothing is ordinary, and it is refused or verified. -/
theorem Verifier.verify_fails_beyond_nothing :
    let verifier : Verifier Unit := Verifier.ed25519 .standard 0
    Envelope.Ordinary .standard (Envelope.written [] []) ∧
      ((∃ signature,
          (verifier.verify (Envelope.written [] []) keys.utf8Bytes host).1 = .ok signature) ∨
        ∃ f, (verifier.verify (Envelope.written [] []) keys.utf8Bytes host).1 = .error f ∧
          f.isA .signatureVerification) := by
  intro verifier
  have hraw : Envelope.Ordinary .standard (Envelope.written [] []) :=
    Envelope.ordinary_written nofun nofun (by decide) (by decide)
  exact ⟨hraw, (Verifier.verify_fails_beyond .standard 0 _ _ host).2.2 hraw⟩

/-! ### A specimen

An envelope with a letter in it that is no ASCII, for a verifier that has a key. -/

namespace Specimen

/-- The letter. -/
def accented : Text := "é"

theorem accented_strange : ¬ Envelope.Ascii accented := by
  intro h
  exact absurd (h _ List.mem_cons_self) (by decide)

end Specimen

open Specimen in
/-- What the reader of base64 fails with is not told as a refusal. -/
theorem Verifier.verify_accented :
    ((Verifier.ed25519 .standard 0).verify (Envelope.written accented []) keys.utf8Bytes host).1 =
        .error .notAscii ∧
      ¬ Fault.notAscii.isA .signatureVerification := by
  have hbeyond : Envelope.Beyond .standard (Envelope.written accented []) .notAscii :=
    .payload (Envelope.texts_written _ accented []) accented_strange
  exact ⟨verify_of_beyond load_keys hbeyond 0 host, nofun⟩

end ImageTrust
