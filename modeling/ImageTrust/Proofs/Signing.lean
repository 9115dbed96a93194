/-
# Signing — verification undoes it

Between the parts of a claim and what a verifier gives back lie seven layers: the claims are
checked, written as JSON without blanks, made bytes, signed, put into base64 and into an
envelope, which is JSON again, and bytes again.  Each of them is undone by its reader, for
every text that has a written form, so that a signature made with a private key comes back as
the digest and the reference that were signed, code point for code point (`verify_signed`).

Nothing is said here about the curve.  That a signature verifies under the public key of the
private key it was made with is what a caller relies on, for the bytes at hand.
-/
import ImageTrust.Proofs.Encoding
import ImageTrust.Proofs.JsonDocuments
import ImageTrust.Proofs.Trust

namespace ImageTrust

variable {σ : Type} {room : Room}

/-! ## Envelopes -/

namespace Envelope

variable {raw : Bytes} {t payload signature : Text}

/-- The texts that an envelope holds in its two members, before they are decoded. -/
inductive Texts (room : Room) (raw : Bytes) (payload signature : Text) : Prop
  | members {t : Text} {v : Json} (text : Json.decode? raw = some t)
      (document : Json.read room.json t = .ok v)
      (payload : v.member? "payload" = some (.text payload))
      (signature : v.member? "signature" = some (.text signature))

/-- The envelope of two texts. -/
def ofTexts (payload signature : Text) : Except Flaw Envelope := do
  let payload ← decodeMember payload
  let signature ← decodeMember signature
  return { payload, signature }

/-- The envelope that a document is. -/
def ofDocument (v : Json) : Except Flaw Envelope :=
  match v with
  | .object _ =>
    match v.member? "payload", v.member? "signature" with
    | some (.text payload), some (.text signature) => ofTexts payload signature
    | _, _ => .error .missingMember
  | _ => .error .notObject

theorem read_of_document {v : Json} (ht : Json.decode? raw = some t)
    (hv : Json.read room.json t = .ok v) : read room raw = ofDocument v := by
  unfold read
  rw [ht]
  show (Except.mapError Flaw.json (Json.read room.json t) >>= _) = _
  rw [hv]
  rfl

theorem read_of_texts (h : Texts room raw payload signature) :
    read room raw = ofTexts payload signature := by
  obtain @⟨t, v, htext, hdocument, hpayload, hsignature⟩ := h
  rw [read_of_document htext hdocument]
  cases v with
  | object members =>
      unfold ofDocument
      rw [hpayload, hsignature]
  | _ => cases hpayload

/-- The document with two texts in the place of the payload and of the signature. -/
def document (payload signature : Text) : Json :=
  .object [("payload", .text payload), ("signature", .text signature)]

/-- The document as bytes. -/
def written (payload signature : Text) : Bytes :=
  ((document payload signature).toText Json.Layout.spaced).utf8Bytes

/-- Bytes that start as an envelope does are taken for UTF-8. -/
theorem decode?_written (payload signature : Text) :
    Json.decode? (written payload signature) =
      some ((document payload signature).toText Json.Layout.spaced) := by
  obtain ⟨more, hmore⟩ : ∃ more, (document payload signature).toText Json.Layout.spaced =
      Text.ofString "\x7b\"pa" ++ more := ⟨_, rfl⟩
  have hbytes : written payload signature = 0x7B :: 0x22 :: 0x70 :: 0x61 :: more.utf8Bytes := by
    unfold written
    rw [hmore, Text.utf8Bytes, List.flatMap_append]
    rfl
  have hread : Json.decode? (written payload signature) =
      Text.ofUtf8? true (written payload signature) := by
    rw [hbytes]
    rfl
  rw [hread]
  exact Text.ofUtf8?_utf8Bytes_lone _

theorem read_document (room : Room) (payload signature : Text) :
    Json.read room.json ((document payload signature).toText Json.Layout.spaced) =
      .ok (document payload signature) := by
  have hplain : Json.Plain 1 (document payload signature) :=
    .object_two (by decide) (.text _) (.text _)
  exact Json.read_toText hplain Json.Layout.spaced_plain (Nat.le_trans (by decide) room.fits)

theorem decodeMember_encode (bytes : Bytes) :
    decodeMember (Base64.encode bytes) = .ok bytes := by
  have hascii : ((Base64.encode bytes).any fun c => 0x80 ≤ c.val) = false := by
    refine List.any_eq_false.mpr fun c hc => ?_
    have hlt := Base64.val_lt_of_mem_encode hc
    rw [decide_eq_true_iff]
    omega
  unfold decodeMember
  rw [hascii, if_neg Bool.false_ne_true, Base64.decode?_encode]

/-- Any two texts can stand in an envelope. -/
theorem texts_written (room : Room) (payload signature : Text) :
    Texts room (written payload signature) payload signature :=
  .members (decode?_written payload signature) (read_document room payload signature) rfl rfl

/-- A stored envelope is read as it was, whatever the payload and the signature. -/
theorem read_toBytes (room : Room) (e : Envelope) : read room e.toBytes = .ok e := by
  have htexts : Texts room e.toBytes (Base64.encode e.payload) (Base64.encode e.signature) :=
    texts_written room _ _
  rw [read_of_texts htexts, ofTexts, decodeMember_encode, decodeMember_encode]
  rfl

end Envelope

/-! ## Claims -/

namespace Claims

/-- Claims that a document can make: neither the digest nor the reference is empty, and the
time is not written with too many digits. -/
structure WellFormed (c : Claims) : Prop where
  digest : c.manifestDigest ≠ []
  reference : c.reference ≠ []
  time : ∀ i, c.timestamp = some i → (Text.decimal i.natAbs).length ≤ Number.maxDigits

variable {c : Claims}

theorem checkFullText_text {t : Text} (hscalar : t.isScalar = true) (hne : t ≠ []) :
    Datum.checkFullText (.text t) = .ok t := by
  have hfull : t.isEmpty = false := by
    cases t with
    | nil => exact absurd rfl hne
    | cons x t => rfl
  show (if !t.isScalar then _ else if t.isEmpty then _ else _) = _
  rw [hscalar, hfull]
  rfl

theorem toJson_plain (hc : c.WellFormed) : Json.Plain 3 c.toJson := by
  refine .object_two (by decide) ?_ (.object_two (by decide) ?_ ?_)
  · refine .object (show [Text.ofString "type", Text.ofString "image",
      Text.ofString "identity"].Nodup by decide) fun e he => ?_
    simp only [List.mem_cons, List.not_mem_nil, or_false] at he
    rcases he with rfl | rfl | rfl
    · exact .text _
    · exact .object_one (.text _)
    · exact .object_one (.text _)
  · cases c.creator with
    | none => exact .null
    | some t => exact .text t
  · cases htime : c.timestamp with
    | none => exact .null
    | some i => exact .int (hc.time i htime)

/-- A document of claims is without surrogates if the texts in it are. -/
theorem isScalar_toJson_iff :
    c.toJson.isScalar = true ↔ c.manifestDigest.isScalar = true ∧ c.reference.isScalar = true ∧
      ∀ t, c.creator = some t → t.isScalar = true := by
  have hnames : ∀ name ∈ [Text.ofString "critical", "type", "image", "docker-manifest-digest",
      "identity", "docker-reference", "optional", "creator", "timestamp", documentType],
      name.isScalar = true := by
    decide
  simp only [List.forall_mem_cons] at hnames
  obtain ⟨_, _, _, _, _, _, _, _, _, _, -⟩ := hnames
  unfold toJson
  cases c.creator <;> cases c.timestamp <;>
    simp_all [Json.isScalar, Json.areScalarMembers, and_assoc]

/-- A full text under its own name is found and taken. -/
theorem checkMember_full (name other : Text) {t : Text} (hscalar : t.isScalar = true)
    (hne : t ≠ []) :
    Datum.checkMember name other Datum.checkFullText [(.text name, .text t)] = .ok t := by
  have hfound : Datum.member? name other [(.text name, .text t)] = some (name, .text t) := by
    rw [Datum.member?, Datum.find?, if_pos rfl]
  unfold Datum.checkMember
  rw [hfound]
  dsimp only
  rw [checkFullText_text hscalar hne]
  rfl

/-- The document of claims makes these claims. -/
theorem check_toJson (hc : c.WellFormed) (hs : c.toJson.isScalar = true) :
    check (.ofJson c.toJson) = .ok c := by
  obtain ⟨hdigest, hreference, -⟩ := isScalar_toJson_iff.mp hs
  have hdigest' := hc.digest
  have hreference' := hc.reference
  obtain ⟨digest, reference, creator, timestamp⟩ := c
  have himage : checkModel checkImage
      (.ofJson (.object [("docker-manifest-digest", .text digest)])) = .ok digest :=
    checkMember_full "docker-manifest-digest" "docker_manifest_digest" hdigest hdigest'
  have hidentity : checkModel checkIdentity
      (.ofJson (.object [("docker-reference", .text reference)])) = .ok reference :=
    checkMember_full "docker-reference" "docker_reference" hreference hreference'
  have hcritical : checkModel checkCritical (.ofJson (.object
      [("type", .text documentType),
       ("image", .object [("docker-manifest-digest", .text digest)]),
       ("identity", .object [("docker-reference", .text reference)])])) =
      .ok (digest, reference) := by
    show Except.map Prod.snd (Checked.both (.ok ()) (Checked.both
      (Checked.within _ (checkModel checkImage _))
      (Checked.within _ (checkModel checkIdentity _)))) = _
    rw [himage, hidentity]
    rfl
  show (Checked.both (Checked.within _ (checkModel checkCritical _))
    (Checked.within _ (checkModel checkOptional _)) >>= _) = _
  rw [hcritical]
  cases creator <;> cases timestamp <;> rfl

/-- The bytes of a document of claims are read as that document. -/
theorem ofStrictBytes?_toText (hc : c.WellFormed) (hs : c.toJson.isScalar = true) :
    Json.ofStrictBytes? (c.toJson.toText Json.Layout.compact).utf8Bytes = some c.toJson :=
  (toJson_plain hc).ofStrictBytes?_toText Json.Layout.compact_plain (by decide) hs

theorem toText?_eq_some_iff {t : Text} : c.toText? = some t ↔
    c.toJson.isScalar = true ∧ t = c.toJson.toText Json.Layout.compact := by
  unfold toText?
  split
  · rename_i hs
    simp [hs, eq_comm]
  · rename_i hs
    simp [hs]

/-- Reading undoes writing, for all claims with a written form. -/
theorem read_toText? (hc : c.WellFormed) {t : Text} (ht : c.toText? = some t) :
    read t.utf8Bytes = .ok c := by
  obtain ⟨hs, rfl⟩ := toText?_eq_some_iff.mp ht
  unfold read
  rw [ofStrictBytes?_toText hc hs]
  exact check_toJson hc hs

/-- Claims can be made from any texts, if the digest and the reference are full ones. -/
theorem make_eq_ok {digest reference creator : Text} {timestamp : Int}
    (hdigest : digest.isScalar = true) (hdigest' : digest ≠ [])
    (hreference : reference.isScalar = true) (hreference' : reference ≠ []) :
    make (.text digest) (.text reference) (.text creator) (.int timestamp) =
      .ok ⟨digest, reference, some creator, some timestamp⟩ := by
  have hd := checkFullText_text hdigest hdigest'
  have hr := checkFullText_text hreference hreference'
  show (Checked.within _ (Datum.checkFullText (.text digest)) >>= _) = _
  rw [hd]
  show (Checked.within _ (Datum.checkFullText (.text reference)) >>= _) = _
  rw [hr]
  rfl

end Claims

/-! ## Signatures -/

theorem Vouches.of_signed {keys : List PublicKey} {key : PublicKey} {c : Claims} {e : Envelope}
    {t : Text} (hc : c.WellFormed) (ht : c.toText? = some t) (hpayload : e.payload = t.utf8Bytes)
    (hkey : key ∈ keys) (hverify : Ed25519.verify key.bytes e.signature e.payload = true) :
    Vouches room keys e.toBytes c.toSignature := by
  refine ⟨e, c, e.read_toBytes room, ⟨key, hkey, hverify⟩, ?_, rfl⟩
  rw [hpayload]
  exact Claims.read_toText? hc ht

/-- A manifest can be signed with every private key, for every digest and reference that are not
empty, with every creator and every time of sixty-four bits. The signature is verified with any
material in which the public key is found, to the same digest and reference. -/
theorem Verifier.verify_signed (seed : Bytes) (digest reference creator : Text) (timestamp : Int)
    (hdigest : digest ≠ []) (hdigest' : digest.isScalar = true) (hreference : reference ≠ [])
    (hreference' : reference.isScalar = true) (hcreator : creator.isScalar = true)
    (htime : timestamp.natAbs < 2 ^ 64) :
    ∃ claims envelope,
      Claims.make (.text digest) (.text reference) (.text creator) (.int timestamp) = .ok claims ∧
        Envelope.sign? seed claims = some envelope ∧
        (Ed25519.verify (Ed25519.publicKey seed) (Ed25519.sign seed envelope.payload)
            envelope.payload = true →
          ∀ material keys, KeyBundle.load material = .ok keys →
            ⟨Ed25519.publicKey seed⟩ ∈ keys → ∀ (room : Room) (v : Nat) (h : Host σ),
              ((Verifier.ed25519 room v).verify envelope.toBytes material h).1 =
                .ok ⟨digest, reference⟩) := by
  let claims : Claims := ⟨digest, reference, some creator, some timestamp⟩
  have hshort : (Text.decimal timestamp.natAbs).length ≤ Number.maxDigits := by
    have htwenty : (Text.decimal timestamp.natAbs).length ≤ 20 :=
      (Text.length_decimal_le_iff (by decide)).mpr (Nat.lt_trans htime (by decide))
    exact Nat.le_trans htwenty (by decide)
  have hc : claims.WellFormed := ⟨hdigest, hreference, fun i hi => Option.some.inj hi ▸ hshort⟩
  have hscalar : claims.toJson.isScalar = true :=
    Claims.isScalar_toJson_iff.mpr
      ⟨hdigest', hreference', fun t ht => Option.some.inj ht ▸ hcreator⟩
  have htext : claims.toText? = some (claims.toJson.toText Json.Layout.compact) := if_pos hscalar
  let payload := (claims.toJson.toText Json.Layout.compact).utf8Bytes
  refine ⟨claims, ⟨payload, Ed25519.sign seed payload⟩,
    Claims.make_eq_ok hdigest' hdigest hreference' hreference, ?_, ?_⟩
  · unfold Envelope.sign?
    rw [htext]
    rfl
  · intro hsigned material keys hload hkey room v h
    obtain ⟨k, hverify⟩ := Verifier.verify_apply room v _ material h
    rw [hverify]
    exact Verifier.claims_eq_ok_iff.mpr
      ⟨keys, hload, Vouches.of_signed hc htext rfl hkey hsigned⟩

namespace Specimen

/-- A private key, and the public key that the specimen trusts. -/
def seed : Bytes := (List.range 32).map UInt8.ofNat

def key : PublicKey where
  bytes := [3, 161, 7, 191, 243, 206, 16, 190, 29, 112, 221, 24, 231, 75, 192, 153, 103, 228, 214,
    48, 155, 165, 13, 95, 29, 220, 134, 100, 18, 85, 49, 184]

/-- Claims that hold a quote, a backslash, a control character and one beyond sixteen bits. -/
def signed : Claims := ⟨"sha256:0", "a.b/c:1", some "\"\\\x01😀", some (-1)⟩

def payload : Bytes := (signed.toJson.toText Json.Layout.compact).utf8Bytes

/-- The key is the public one of the seed, and verifies what the seed signs. -/
theorem seed_signs : Ed25519.publicKey seed = key.bytes ∧
    Ed25519.verify (Ed25519.publicKey seed) (Ed25519.sign seed payload) payload = true := by
  decide +kernel

theorem load_keys : KeyBundle.load keys.utf8Bytes = .ok [key] :=
  Result.toOption_eq_some_iff.mp (by decide +kernel)

/-- The key vouches for what is stored. -/
theorem vouches_stored : Vouches .standard [key] stored signature := by
  obtain ⟨material, found, hmaterial, hload, hvouches⟩ :=
    (SignedBy.verdict_eq_accepted_iff.mp verdict_stored).vouched
  cases hmaterial with
  | inline t hkeys hwritten =>
      cases hkeys
      have hmaterial : keys.toUtf8? = some keys.utf8Bytes := by decide
      rw [hmaterial, Option.some.injEq] at hwritten
      rw [← hwritten, load_keys, Except.ok.injEq] at hload
      exact hload ▸ hvouches
  | file p hkeys _ => cases hkeys

theorem verify_stored :
    ((Verifier.ed25519 .standard 0).verify stored keys.utf8Bytes host).1 = .ok signature := by
  obtain ⟨k, hverify⟩ := Verifier.verify_apply .standard 0 stored keys.utf8Bytes host
  rw [hverify]
  exact Verifier.claims_eq_ok_iff.mpr ⟨[key], load_keys, vouches_stored⟩

end Specimen

open Specimen in
/-- The claims are signed, stored, read, and verified with the specimen's keys. -/
theorem verify_signed_specimen :
    ∃ claims envelope,
      Claims.make (.text signed.manifestDigest) (.text signed.reference) (.text "\"\\\x01😀")
          (.int (-1)) = .ok claims ∧
        Envelope.sign? seed claims = some envelope ∧
        Ed25519.verify (Ed25519.publicKey seed) (Ed25519.sign seed envelope.payload)
          envelope.payload = true ∧
        KeyBundle.load keys.utf8Bytes = .ok [key] ∧ ⟨Ed25519.publicKey seed⟩ ∈ [key] ∧
        ((Verifier.ed25519 .standard 0).verify envelope.toBytes keys.utf8Bytes host).1 =
          .ok ⟨signed.manifestDigest, signed.reference⟩ := by
  obtain ⟨claims, envelope, hmake, hsign, hverify⟩ := @Verifier.verify_signed Unit seed
    signed.manifestDigest signed.reference "\"\\\x01😀" (-1) (by decide) (by decide) (by decide)
    (by decide) (by decide) (by decide)
  have hclaims : claims = signed :=
    Except.ok.inj (hmake.symm.trans
      (Claims.make_eq_ok (by decide) (by decide) (by decide) (by decide)))
  have hpayload : envelope.payload = payload := by
    have hthere : (Envelope.sign? seed signed).map (·.payload) = some payload := rfl
    rw [← hclaims, hsign] at hthere
    exact Option.some.inj hthere
  have hmark : Ed25519.verify (Ed25519.publicKey seed) (Ed25519.sign seed envelope.payload)
      envelope.payload = true := by
    rw [hpayload]
    exact seed_signs.2
  have hkey : ⟨Ed25519.publicKey seed⟩ ∈ [key] := by
    rw [seed_signs.1]
    exact List.mem_singleton_self key
  exact ⟨claims, envelope, hmake, hsign, hmark, load_keys, hkey,
    hverify hmark _ _ load_keys hkey .standard 0 host⟩

end ImageTrust
