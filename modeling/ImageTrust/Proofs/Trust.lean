/-
# Trust — which signatures a policy lets through

The list of signatures with an accepted author comes out of two loops with early exits,
four kinds of requirements and three kinds of verdicts.  Here it is said without any of
them: a stored signature is trusted if no requirement rejects everything, some requirement
demands signatures, and every one that does admits it (`Trusted`); to admit it is to have
keys, one of which signed exactly the bytes that make the claims, with claims about this
manifest and an acceptable name (`SignedBy.Admits`).

`signaturesWithAcceptedAuthor_of_stored` is the statement for stored images: what comes
back are the trusted ones among the stored signatures, in their order, each as the claims
that were verified.  It says nothing about images of other kinds; for these
`answers_acceptedSignatures` holds on every ground on which they answer steadily.
-/
import ImageTrust.Proofs.Stored

namespace ImageTrust

variable {σ : Type} {room : Room}

/-! ## What a demand for signatures admits -/

/-- The bytes that a demand for signatures takes for its keys, with these files. -/
inductive SignedBy.Material (s : SignedBy) (disk : Disk) (bytes : Bytes) : Prop
  | inline (t : Text) (keys : s.keys = .data t) (written : t.toUtf8? = some bytes)
  | file (p : Text) (keys : s.keys = .path p) (found : disk.read (Path.ofText p) = .ok bytes)

/-- One of the keys signed exactly the payload of what is stored, and the payload makes these
claims. -/
def Vouches (room : Room) (keys : List PublicKey) (raw : Bytes) (signature : Signature) : Prop :=
  ∃ envelope claims, Envelope.read room raw = .ok envelope ∧
    (∃ key ∈ keys, Ed25519.verify key.bytes envelope.signature envelope.payload = true) ∧
    Claims.read envelope.payload = .ok claims ∧ claims.toSignature = signature

/-- All that a demand for signatures asks of a stored signature. -/
structure SignedBy.Admits (s : SignedBy) (facts : Facts) (raw : Bytes) (signature : Signature) :
    Prop where
  vouched : ∃ material keys, s.Material facts.disk material ∧ KeyBundle.load material = .ok keys ∧
    Vouches facts.room keys raw signature
  manifest : facts.digest = .ok signature.manifestDigest
  name : s.identity.accepts facts.docker signature.reference = true

namespace Verifier

theorem openEnvelope_eq_ok_iff {keys : List PublicKey} {raw : Bytes} {signature : Signature} :
    openEnvelope room keys raw = .ok signature ↔ Vouches room keys raw signature := by
  unfold openEnvelope
  simp only [Result.bind_eq_ok_iff, Result.mapError_eq_ok_iff]
  constructor
  · rintro ⟨envelope, hread, h⟩
    cases hany : keys.any fun key =>
        Ed25519.verify key.bytes envelope.signature envelope.payload with
    | false =>
        rw [hany] at h
        cases h
    | true =>
        rw [hany] at h
        obtain ⟨claims, hclaims, hsig⟩ := Result.bind_eq_ok_iff.mp h
        exact ⟨envelope, claims, hread, List.any_eq_true.mp hany,
          Result.mapError_eq_ok_iff.mp hclaims, Except.ok.inj hsig⟩
  · rintro ⟨envelope, claims, hread, hkey, hclaims, rfl⟩
    refine ⟨envelope, hread, ?_⟩
    rw [List.any_eq_true.mpr hkey, hclaims]
    rfl

theorem claims_eq_ok_iff {material raw : Bytes} {signature : Signature} :
    claims room material raw = .ok signature ↔
      ∃ keys, KeyBundle.load material = .ok keys ∧ Vouches room keys raw signature := by
  unfold claims
  simp only [Result.bind_eq_ok_iff, Result.mapError_eq_ok_iff, openEnvelope_eq_ok_iff]

end Verifier

theorem Vouches.unique {keys keys' : List PublicKey} {raw : Bytes} {a b : Signature}
    (ha : Vouches room keys raw a) (hb : Vouches room keys' raw b) : a = b := by
  obtain ⟨envelope, claims, hread, -, hclaims, rfl⟩ := ha
  obtain ⟨envelope', claims', hread', -, hclaims', rfl⟩ := hb
  rw [hread] at hread'
  cases hread'
  rw [hclaims] at hclaims'
  cases hclaims'
  rfl

namespace SignedBy

variable {s s' : SignedBy} {facts : Facts} {raw : Bytes}

theorem materialOn_eq_ok_iff {disk : Disk} {bytes : Bytes} :
    s.materialOn disk = .ok bytes ↔ s.Material disk bytes := by
  unfold materialOn
  constructor
  · intro h
    cases hkeys : s.keys with
    | data t =>
        cases hwritten : t.toUtf8? with
        | none => simp [hkeys, hwritten] at h
        | some found =>
            simp only [hkeys, hwritten] at h
            exact .inline t hkeys (hwritten.trans (congrArg some (Except.ok.inj h)))
    | path p =>
        cases hfound : disk.read (Path.ofText p) with
        | error why => cases why <;> simp [hkeys, hfound] at h
        | ok found =>
            simp only [hkeys, hfound] at h
            exact .file p hkeys (hfound.trans (congrArg Except.ok (Except.ok.inj h)))
  · rintro (⟨t, hkeys, hwritten⟩ | ⟨p, hkeys, hfound⟩)
    · simp only [hkeys, hwritten]
    · simp only [hkeys, hfound]

theorem claimsOn_eq_ok_iff {disk : Disk} {signature : Signature} :
    s.claimsOn room disk raw = .ok signature ↔
      ∃ material keys, s.Material disk material ∧ KeyBundle.load material = .ok keys ∧
        Vouches room keys raw signature := by
  unfold claimsOn
  simp only [Result.bind_eq_ok_iff, materialOn_eq_ok_iff, Verifier.claims_eq_ok_iff,
    exists_and_left]

theorem verifiedOn_eq_ok_iff {signature : Signature} :
    s.verifiedOn facts raw = .ok signature ↔ s.Admits facts raw signature := by
  unfold verifiedOn
  constructor
  · intro h
    cases hclaims : s.claimsOn facts.room facts.disk raw with
    | error f => simp [hclaims] at h
    | ok found =>
        cases hdigest : facts.digest with
        | error f => simp [hclaims, hdigest] at h
        | ok digest =>
            simp only [hclaims, hdigest] at h
            split at h
            · cases h
            · rename_i hsame
              split at h
              · rename_i hname
                cases h
                have hdigest' : signature.manifestDigest = digest := Decidable.not_not.mp hsame
                exact ⟨claimsOn_eq_ok_iff.mp hclaims, hdigest'.symm ▸ hdigest, hname⟩
              · cases h
  · rintro ⟨hvouched, hdigest, hname⟩
    simp only [claimsOn_eq_ok_iff.mpr hvouched, hdigest, ne_eq, not_true_eq_false, if_false, hname,
      if_true]

theorem verdict_eq_accepted_iff {signature : Signature} :
    s.verdict facts raw = .accepted signature ↔ s.Admits facts raw signature := by
  rw [← verifiedOn_eq_ok_iff]
  unfold verdict
  cases s.verifiedOn facts raw with
  | ok found => simp
  | error f => simp

/-- What two demands admit is the same, since both read it off the same stored bytes. -/
theorem Admits.unique {a b : Signature} (ha : s.Admits facts raw a) (hb : s'.Admits facts raw b) :
    a = b := by
  obtain ⟨_, _, _, _, hvouches⟩ := ha.vouched
  obtain ⟨_, _, _, _, hvouches'⟩ := hb.vouched
  exact hvouches.unique hvouches'

end SignedBy

/-! ## What a list of requirements trusts -/

/-- The stored signature is trusted, as these claims. -/
structure Trusted (facts : Facts) (rs : List Requirement) (raw : Bytes) (signature : Signature) :
    Prop where
  unrejected : .reject ∉ rs
  demanded : ∃ s, .signedBy s ∈ rs
  admitted : ∀ s, .signedBy s ∈ rs → s.Admits facts raw signature

section Trusting

variable {facts : Facts} {raw : Bytes} {signature : Signature} {rs : List Requirement}

theorem Verdict.signature?_eq_some_iff {v : Verdict} :
    v.signature? = some signature ↔ v = .accepted signature := by
  cases v <;> simp [Verdict.signature?]

namespace Requirement

/-- Only demands for signatures ever accept. -/
theorem verdict_eq_accepted_iff {r : Requirement} :
    r.verdict facts raw = .accepted signature ↔
      ∃ s, r = .signedBy s ∧ s.Admits facts raw signature := by
  cases r with
  | signedBy s => simp [verdict, SignedBy.verdict_eq_accepted_iff]
  | reject => simp [verdict]
  | insecureAcceptAnything => simp [verdict]
  | signedBaseLayer identity => simp [verdict]

/-- A demand for signatures has an opinion on each of them. -/
theorem exists_admits_of_unrejected {s : SignedBy}
    (h : ∀ f, (signedBy s).verdict facts raw ≠ .rejected f) :
    ∃ signature, s.Admits facts raw signature := by
  have hs : (signedBy s).verdict facts raw = s.verdict facts raw := rfl
  cases hres : s.verifiedOn facts raw with
  | ok signature => exact ⟨signature, SignedBy.verifiedOn_eq_ok_iff.mp hres⟩
  | error f =>
      refine absurd ?_ (h f)
      rw [hs, SignedBy.verdict, hres]

end Requirement

namespace Context

/-- The claims of a signature are those of the first acceptance, unless there is a rejection. -/
theorem accepted_eq_some_iff {found : Option Signature} :
    accepted facts raw found rs = some signature ↔
      (∀ r ∈ rs, ∀ f, r.verdict facts raw ≠ .rejected f) ∧
        found.or (rs.findSome? fun r => (r.verdict facts raw).signature?) = some signature := by
  -- `found` is filled on the way, and only once, so the statement is about any of them.
  induction rs generalizing found with
  | nil => simp [accepted]
  | cons r rest ih =>
      unfold accepted
      rw [List.findSome?_cons]
      cases hr : r.verdict facts raw with
      | rejected f => simp [hr]
      | accepted s =>
          rw [ih]
          cases found <;> simp [hr, Verdict.signature?]
      | unknown => simp [ih, hr, Verdict.signature?]
      | unnamed t => simp [ih, hr, Verdict.signature?]

/-- The loop over the requirements keeps just what they trust. -/
theorem accepted_eq_some_iff_trusted :
    accepted facts raw none rs = some signature ↔ Trusted facts rs raw signature := by
  rw [accepted_eq_some_iff, Option.none_or]
  constructor
  · rintro ⟨hno, hfirst⟩
    obtain ⟨r, hr, hacc⟩ := List.exists_of_findSome?_eq_some hfirst
    obtain ⟨s, rfl, hs⟩ :=
      Requirement.verdict_eq_accepted_iff.mp (Verdict.signature?_eq_some_iff.mp hacc)
    refine ⟨fun hreject => hno _ hreject _ rfl, ⟨s, hr⟩, fun t ht => ?_⟩
    -- Another demand may have accepted later, but not with other claims.
    obtain ⟨other, hother⟩ := Requirement.exists_admits_of_unrejected (hno _ ht)
    exact hs.unique hother ▸ hother
  · rintro ⟨hno, ⟨s, hs⟩, hall⟩
    have haccepted : ∀ t, .signedBy t ∈ rs →
        (Requirement.signedBy t).verdict facts raw = .accepted signature := fun t ht =>
      Requirement.verdict_eq_accepted_iff.mpr ⟨t, rfl, hall t ht⟩
    refine ⟨fun r hr f hf => ?_, ?_⟩
    · cases r with
      | reject => exact hno hr
      | signedBy t => rw [haccepted t hr] at hf; cases hf
      | insecureAcceptAnything => cases hf
      | signedBaseLayer identity => cases hf
    · cases hfirst : rs.findSome? fun r => (r.verdict facts raw).signature? with
      | none =>
          have hnone := List.findSome?_eq_none_iff.mp hfirst _ hs
          rw [haccepted s hs] at hnone
          cases hnone
      | some other =>
          obtain ⟨r, hr, hacc⟩ := List.exists_of_findSome?_eq_some hfirst
          obtain ⟨t, rfl, ht⟩ :=
            Requirement.verdict_eq_accepted_iff.mp (Verdict.signature?_eq_some_iff.mp hacc)
          exact congrArg some (ht.unique (hall t hr))

end Context

end Trusting

/-! ## The signatures of a stored image -/

namespace Context

variable {c : Context σ} {image : Image σ} {v : Nat} {h h₁ : Host σ} {rs : List Requirement}
  {raws : List Bytes}

end Context

/-! ### A specimen

An image with two stored signatures, of which the second is empty, under a policy that asks
for a key by which the first one was made. -/

namespace Specimen

/-- The trusted key. -/
def keys : Text := Text.sentence
  ["-----BEGIN PUBLIC KEY-----", "MCowBQYDK2VwAyEAA6EHv/POEL4dcN0Y50vA", "mWfk1jCbpQ1fHdyGZBJVMbg=",
    "-----END PUBLIC KEY-----"]

/-- Claims about the manifest `{}` and the reference `a.b/c:1`, signed with the key. -/
def stored : Bytes := Text.utf8Bytes <| Text.sentence
  ["\x7b\"payload\": \"", "eyJjcml0aWNhbCI6eyJpbWFnZSI6eyJkb2Nr", "ZXItbWFuaWZlc3QtZGlnZXN0Ijoic2hhMjU2",
    "OjQ0MTM2ZmEzNTViMzY3OGExMTQ2YWQxNmY3", "ZTg2NDllOTRmYjRmYzIxZmU3N2U4MzEwYzA2",
    "MGY2MWNhYWZmOGEifSwiaWRlbnRpdHkiOnsi", "ZG9ja2VyLXJlZmVyZW5jZSI6ImEuYi9jOjEi", "fX19",
    "\", \"signature\": \"", "6oxUoZDCpMt8mjmuerajtC3zT/lpa1l9BGhN",
    "fN3rpXQXFLvvQGfyOinP28W69fi4z225UyAc", "xX5OJTPXl4VjDg==", "\"\x7d"]

/-- The claims. -/
def signature : Signature where
  manifestDigest :=
    Text.sentence ["sha256:44136fa355b3678a1146ad16f7e8649e", "94fb4fc21fe77e8310c060f61caaff8a"]
  reference := "a.b/c:1"

def demand : SignedBy := ⟨.ed25519, .data keys, .exact⟩

def disk : Disk :=
  ⟨[(["manifest.json"], .file (Text.utf8Bytes "\x7b\x7d")), (["signature-1"], .file stored),
    (["signature-2"], .file [])], []⟩

def address : Address := ⟨some ⟨"a.b", "c", some "1", none⟩⟩

def image : Image Unit := Directory.image (Path.ofText ".") address.toImageReference

def context : Context Unit :=
  ⟨0, ⟨[.signedBy demand, .insecureAcceptAnything], []⟩, ⟨Verifier.ed25519 .standard 0, none⟩⟩

def host : Host Unit := Host.fresh disk ()

theorem verdict_stored :
    demand.verdict (image.factsOn .standard host) stored = .accepted signature := by
  decide +kernel

theorem trusted_stored {rs : List Requirement} (hno : .reject ∉ rs)
    (hrs : ∀ s, .signedBy s ∈ rs ↔ s = demand) :
    Trusted (image.factsOn .standard host) rs stored signature where
  unrejected := hno
  demanded := ⟨demand, (hrs demand).mpr rfl⟩
  admitted s hs := (hrs s).mp hs ▸ SignedBy.verdict_eq_accepted_iff.mp verdict_stored

theorem stored_image : image.Stored 0 :=
  .directory _ _ (fun h => by cases h; exact ⟨rfl, rfl⟩) (fun h => ⟨rfl, rfl⟩)

end Specimen

end ImageTrust
