/-
# Format — which signed documents are claims

Claims are documented as a document with three members that matter: the kind of document that
it is, the digest, and the reference, each at its place (`Claims.Documented`).  The reader of
claims was made for claims of the program's own as well.  There the kind of document need not
be given, and the digest and the reference have a second name each; and so it is for the
documents of others (`Claims.Stated`).

These are the only liberties that the reader takes (`read_eq_ok_iff`), and a document is claims
in the documented format just if it takes none of them (`documented_iff`).  Since a key vouches
for whatever it signed, any signed document that is read as claims is trusted as such
(`verify_eq_ok_iff_stated`).
-/
import ImageTrust.Proofs.Origins
import ImageTrust.Proofs.Signing

namespace ImageTrust

variable {σ : Type}

namespace Json

/-- What is found by following names from object to object. -/
def at? : List Text → Json → Option Json
  | [], v => some v
  | name :: path, v => (v.member? name).bind (at? path)

/-- The member with this name, or else the one with the other. -/
def memberAs? (name other : Text) (v : Json) : Option Json := (v.member? name).or (v.member? other)

variable {v w : Json} {name other : Text} {path : List Text}

theorem at?_cons_eq_some_iff :
    v.at? (name :: path) = some w ↔ ∃ u, v.member? name = some u ∧ u.at? path = some w :=
  Option.bind_eq_some_iff

theorem at?_one : v.at? [name] = v.member? name := by
  rw [at?]
  cases v.member? name <;> rfl

theorem at?_cons (h : v.member? name = some w) : v.at? (name :: path) = w.at? path := by
  rw [at?, h, Option.bind_some]

theorem memberAs?_self : memberAs? name name v = v.member? name := by
  unfold memberAs?
  cases v.member? name <;> rfl

theorem member?_eq_some_iff :
    v.member? name = some w ↔ ∃ members, v = .object members ∧ members.lookup name = some w := by
  cases v <;> simp [member?]

/-- What a document without surrogates has in it is without them. -/
theorem isScalar_of_member? (hv : v.isScalar = true) (h : v.member? name = some w) :
    w.isScalar = true := by
  obtain ⟨members, rfl, hmem⟩ := exists_mem_of_member? h
  exact (areScalarMembers_eq_true_iff.mp hv (name, w) hmem).2

theorem isScalar_of_memberAs? (hv : v.isScalar = true) (h : memberAs? name other v = some w) :
    w.isScalar = true := by
  rcases Option.or_eq_some_iff.mp h with hname | ⟨-, hother⟩
  · exact isScalar_of_member? hv hname
  · exact isScalar_of_member? hv hother

end Json

/-! ## Checking members -/

namespace Datum

variable {α : Type} {members : List (Text × Json)} {name other : Text} {check : Datum → Checked α}
  {a value : α} {v : Json}

theorem find?_ofMembers :
    find? name (ofMembers members) = (members.lookup name).map ofJson := by
  induction members with
  | nil => rfl
  | cons e rest ih =>
      obtain ⟨n, v⟩ := e
      rw [ofMembers, find?, ih, List.lookup_cons]
      by_cases hn : n = name
      · subst hn
        simp
      · rw [if_neg hn, beq_false_of_ne (Ne.symm hn)]

theorem member?_ofMembers :
    (member? name other (ofMembers members)).map Prod.snd =
      ((Json.object members).memberAs? name other).map ofJson := by
  unfold member? Json.memberAs?
  rw [find?_ofMembers, find?_ofMembers, Json.member?, Json.member?]
  cases members.lookup name with
  | some w => rfl
  | none => cases members.lookup other <;> rfl

theorem member?_eq_none_iff :
    member? name other (ofMembers members) = none ↔
      (Json.object members).memberAs? name other = none := by
  have hfound := @member?_ofMembers members name other
  rw [← Option.map_eq_none_iff, hfound, Option.map_eq_none_iff]

theorem member?_eq_some {spelling : Text} {d : Datum}
    (h : member? name other (ofMembers members) = some (spelling, d)) :
    ∃ w, (Json.object members).memberAs? name other = some w ∧ d = .ofJson w := by
  have hfound := @member?_ofMembers members name other
  rw [h] at hfound
  obtain ⟨w, hw, hd⟩ := Option.map_eq_some_iff.mp hfound.symm
  exact ⟨w, hw, hd.symm⟩

theorem checkMember_eq_ok_iff :
    checkMember name other check (ofMembers members) = .ok a ↔
      ∃ w, (Json.object members).memberAs? name other = some w ∧ check (.ofJson w) = .ok a := by
  unfold checkMember
  cases hmember : member? name other (ofMembers members) with
  | none =>
      rw [member?_eq_none_iff.mp hmember]
      refine iff_of_false nofun ?_
      rintro ⟨w, hw, -⟩
      cases hw
  | some found =>
      obtain ⟨spelling, d⟩ := found
      obtain ⟨w, hw, rfl⟩ := member?_eq_some hmember
      rw [hw, Checked.within_eq_ok_iff]
      simp

theorem checkDefaulted_eq_ok_iff :
    checkDefaulted name other value check (ofMembers members) = .ok a ↔
      ((Json.object members).memberAs? name other = none ∧ value = a) ∨
        ∃ w, (Json.object members).memberAs? name other = some w ∧ check (.ofJson w) = .ok a := by
  unfold checkDefaulted
  cases hmember : member? name other (ofMembers members) with
  | none =>
      rw [member?_eq_none_iff.mp hmember]
      simp
  | some found =>
      obtain ⟨spelling, d⟩ := found
      obtain ⟨w, hw, rfl⟩ := member?_eq_some hmember
      rw [hw, Checked.within_eq_ok_iff]
      simp

/-- A member that may be missing is as it has to be if it is there. -/
theorem exists_checkDefaulted_iff :
    (∃ a, checkDefaulted name name value check (ofMembers members) = .ok a) ↔
      ∀ w, (Json.object members).member? name = some w → ∃ a, check (.ofJson w) = .ok a := by
  simp only [checkDefaulted_eq_ok_iff, Json.memberAs?_self]
  cases (Json.object members).member? name <;> simp

theorem exists_both_eq_ok_iff {β : Type} {c : Checked α} {e : Checked β} :
    (∃ found, Checked.both c e = .ok found) ↔ (∃ a, c = .ok a) ∧ ∃ b, e = .ok b := by
  constructor
  · rintro ⟨⟨a, b⟩, h⟩
    obtain ⟨ha, hb⟩ := Checked.both_eq_ok_iff.mp h
    exact ⟨⟨a, ha⟩, ⟨b, hb⟩⟩
  · rintro ⟨⟨a, ha⟩, ⟨b, hb⟩⟩
    exact ⟨(a, b), Checked.both_eq_ok_iff.mpr ⟨ha, hb⟩⟩

theorem checkFullText_ofJson_eq_ok_iff {t : Text} :
    checkFullText (.ofJson v) = .ok t ↔ v = .text t ∧ t.isScalar = true ∧ t ≠ [] := by
  unfold checkFullText
  rw [Result.bind_eq_ok_iff]
  simp only [checkText_ofJson_eq_ok_iff]
  constructor
  · rintro ⟨found, rfl, h⟩
    split at h
    · cases h
    · rename_i hscalar
      split at h
      · cases h
      · rename_i hfull
        cases h
        rw [Bool.not_eq_true', Bool.not_eq_false] at hscalar
        exact ⟨rfl, hscalar, fun hnil => hfull (by rw [hnil]; rfl)⟩
  · rintro ⟨rfl, hscalar, hfull⟩
    refine ⟨t, rfl, ?_⟩
    rw [hscalar, List.isEmpty_eq_false_iff.mpr hfull]
    rfl

theorem exists_checkOptional_iff :
    (∃ a, checkOptional check (.ofJson v) = .ok a) ↔ v = .null ∨ ∃ a, check (.ofJson v) = .ok a := by
  have hmap : (∃ a, (check (.ofJson v)).map some = .ok a) ↔ ∃ a, check (.ofJson v) = .ok a := by
    simp only [Result.map_eq_ok_iff]
    exact ⟨fun ⟨_, a, ha, _⟩ => ⟨a, ha⟩, fun ⟨a, ha⟩ => ⟨_, a, ha, rfl⟩⟩
  cases v with
  | null => exact iff_of_true ⟨none, rfl⟩ (.inl rfl)
  | _ =>
      rw [or_iff_right nofun]
      exact hmap

end Datum

/-! ## Claims -/

namespace Claims

variable {α : Type} {v doc : Json} {s : Signature}

/-- The document makes these claims, as far as the reader asks for it. -/
structure Stated (doc : Json) (s : Signature) : Prop where
  type : ∀ v, doc.at? ["critical", "type"] = some v → v = .text documentType
  digest : (doc.at? ["critical", "image"]).bind
    (Json.memberAs? "docker-manifest-digest" "docker_manifest_digest") = some (.text s.manifestDigest)
  reference : (doc.at? ["critical", "identity"]).bind
    (Json.memberAs? "docker-reference" "docker_reference") = some (.text s.reference)
  digest_full : s.manifestDigest ≠ []
  reference_full : s.reference ≠ []

/-- If there is a part that may be left out, it is an object, and in it the creator is a text and
the time is an integer, where they are given. -/
structure Remarks (doc : Json) : Prop where
  part : ∀ v, doc.member? "optional" = some v → ∃ members, v = .object members
  creator : ∀ v, doc.at? ["optional", "creator"] = some v → v = .null ∨ ∃ t, v = .text t
  timestamp : ∀ v, doc.at? ["optional", "timestamp"] = some v →
    v = .null ∨ ∃ i, Datum.checkInteger (.ofJson v) = .ok i

theorem checkModel_eq_ok_iff {check : List (Datum × Datum) → Checked α} {a : α} :
    checkModel check (.ofJson v) = .ok a ↔
      ∃ members, v = .object members ∧ check (Datum.ofMembers members) = .ok a := by
  cases v <;> simp [checkModel, Datum.ofJson, Checked.fail]

theorem checkType_eq_ok_iff : checkType (.ofJson v) = .ok () ↔ v = .text documentType := by
  cases v <;> simp [checkType, Datum.ofJson, Checked.fail]

/-- A full text that is asked for under two names. -/
theorem checkNamed_eq_ok_iff {name other t : Text} :
    checkModel (Datum.checkMember name other Datum.checkFullText) (.ofJson v) = .ok t ↔
      v.memberAs? name other = some (.text t) ∧ t.isScalar = true ∧ t ≠ [] := by
  rw [checkModel_eq_ok_iff]
  simp only [Datum.checkMember_eq_ok_iff, Datum.checkFullText_ofJson_eq_ok_iff]
  constructor
  · rintro ⟨members, rfl, w, hw, rfl, ht⟩
    exact ⟨hw, ht⟩
  · rintro ⟨hw, ht⟩
    cases v with
    | object members => exact ⟨members, rfl, _, hw, rfl, ht⟩
    | _ => cases hw

theorem checkMember_checkModel_eq_ok_iff {members : List (Text × Json)} {name : Text}
    {check : List (Datum × Datum) → Checked α} {a : α} :
    Datum.checkMember name name (checkModel check) (Datum.ofMembers members) = .ok a ↔
      ∃ w, (Json.object members).member? name = some w ∧ checkModel check (.ofJson w) = .ok a := by
  rw [Datum.checkMember_eq_ok_iff, Json.memberAs?_self]

theorem checkCritical_eq_ok_iff {digest reference : Text} :
    checkModel checkCritical (.ofJson v) = .ok (digest, reference) ↔
      (∀ w, v.member? "type" = some w → w = .text documentType) ∧
        (∃ image, v.member? "image" = some image ∧
          checkModel checkImage (.ofJson image) = .ok digest) ∧
        ∃ identity, v.member? "identity" = some identity ∧
          checkModel checkIdentity (.ofJson identity) = .ok reference := by
  have htype : ∀ members, (∃ a, Datum.checkDefaulted "type" "type" () checkType
      (Datum.ofMembers members) = .ok a) ↔
        ∀ w, (Json.object members).member? "type" = some w → w = .text documentType := by
    intro members
    rw [Datum.exists_checkDefaulted_iff]
    refine forall₂_congr fun w _ => ?_
    exact ⟨fun ⟨_, h⟩ => checkType_eq_ok_iff.mp h, fun h => ⟨(), checkType_eq_ok_iff.mpr h⟩⟩
  rw [checkModel_eq_ok_iff]
  constructor
  · rintro ⟨members, rfl, hcheck⟩
    obtain ⟨⟨u, found⟩, hboth, hpair⟩ := Checked.map_eq_ok_iff.mp hcheck
    cases hpair
    obtain ⟨hkind, hparts⟩ := Checked.both_eq_ok_iff.mp hboth
    obtain ⟨himage, hidentity⟩ := Checked.both_eq_ok_iff.mp hparts
    exact ⟨(htype members).mp ⟨u, hkind⟩, checkMember_checkModel_eq_ok_iff.mp himage,
      checkMember_checkModel_eq_ok_iff.mp hidentity⟩
  · rintro ⟨hkind, himage, hidentity⟩
    obtain ⟨image, hmember, -⟩ := id himage
    obtain ⟨members, rfl, -⟩ := Json.member?_eq_some_iff.mp hmember
    obtain ⟨u, hu⟩ := (htype members).mpr hkind
    refine ⟨members, rfl, Checked.map_eq_ok_iff.mpr ⟨(u, digest, reference), ?_, rfl⟩⟩
    exact Checked.both_eq_ok_iff.mpr ⟨hu, Checked.both_eq_ok_iff.mpr
      ⟨checkMember_checkModel_eq_ok_iff.mpr himage,
        checkMember_checkModel_eq_ok_iff.mpr hidentity⟩⟩

theorem exists_checkOptional_iff :
    (∃ a, checkModel checkOptional (.ofJson v) = .ok a) ↔
      (∃ members, v = .object members) ∧
        (∀ w, v.member? "creator" = some w → w = .null ∨ ∃ t, w = .text t) ∧
        ∀ w, v.member? "timestamp" = some w →
          w = .null ∨ ∃ i, Datum.checkInteger (.ofJson w) = .ok i := by
  have hparts : ∀ members, (∃ a, checkOptional (Datum.ofMembers members) = .ok a) ↔
      (∀ w, (Json.object members).member? "creator" = some w → w = .null ∨ ∃ t, w = .text t) ∧
        ∀ w, (Json.object members).member? "timestamp" = some w →
          w = .null ∨ ∃ i, Datum.checkInteger (.ofJson w) = .ok i := by
    intro members
    unfold checkOptional
    rw [Datum.exists_both_eq_ok_iff, Datum.exists_checkDefaulted_iff,
      Datum.exists_checkDefaulted_iff]
    simp only [Datum.exists_checkOptional_iff, Datum.checkText_ofJson_eq_ok_iff]
  simp only [checkModel_eq_ok_iff]
  constructor
  · rintro ⟨a, members, rfl, h⟩
    exact ⟨⟨members, rfl⟩, (hparts members).mp ⟨a, h⟩⟩
  · rintro ⟨⟨members, rfl⟩, h⟩
    obtain ⟨a, ha⟩ := (hparts members).mpr h
    exact ⟨a, members, rfl, ha⟩

/-- The parts of a document that makes these claims. -/
theorem parts_of_check {c : Claims} (h : check (.ofJson doc) = .ok c) :
    (∃ critical, doc.member? "critical" = some critical ∧
      checkModel checkCritical (.ofJson critical) = .ok (c.manifestDigest, c.reference)) ∧
      ((doc.member? "optional" = none ∧ c.creator = none ∧ c.timestamp = none) ∨
        ∃ w, doc.member? "optional" = some w ∧
          checkModel checkOptional (.ofJson w) = .ok (c.creator, c.timestamp)) := by
  obtain ⟨members, rfl, hcheck⟩ := checkModel_eq_ok_iff.mp h
  obtain ⟨⟨⟨digest, reference⟩, creator, timestamp⟩, hboth, hc⟩ := Result.bind_eq_ok_iff.mp hcheck
  cases hc
  obtain ⟨hcritical, hoptional⟩ := Checked.both_eq_ok_iff.mp hboth
  refine ⟨checkMember_checkModel_eq_ok_iff.mp hcritical, ?_⟩
  rcases Datum.checkDefaulted_eq_ok_iff.mp hoptional with ⟨hmissing, hnone⟩ | ⟨w, hw, hremarks⟩
  · rw [Json.memberAs?_self] at hmissing
    cases hnone
    exact .inl ⟨hmissing, rfl, rfl⟩
  · rw [Json.memberAs?_self] at hw
    exact .inr ⟨w, hw, hremarks⟩

theorem exists_check_iff :
    (∃ c, check (.ofJson doc) = .ok c ∧ c.toSignature = s) ↔
      (∃ critical, doc.member? "critical" = some critical ∧
        checkModel checkCritical (.ofJson critical) = .ok (s.manifestDigest, s.reference)) ∧
        ∀ w, doc.member? "optional" = some w →
          ∃ a, checkModel checkOptional (.ofJson w) = .ok a := by
  constructor
  · rintro ⟨c, hc, rfl⟩
    obtain ⟨hcritical, hoptional⟩ := parts_of_check hc
    refine ⟨hcritical, fun w hw => ?_⟩
    rcases hoptional with ⟨hmissing, -, -⟩ | ⟨u, hu, hremarks⟩
    · rw [hmissing] at hw
      cases hw
    · rw [hu] at hw
      cases hw
      exact ⟨_, hremarks⟩
  · rintro ⟨hcritical, hoptional⟩
    obtain ⟨critical, hmember, -⟩ := id hcritical
    obtain ⟨members, rfl, -⟩ := Json.member?_eq_some_iff.mp hmember
    obtain ⟨⟨creator, timestamp⟩, hremarks⟩ := Datum.exists_checkDefaulted_iff.mpr hoptional
    refine ⟨⟨s.manifestDigest, s.reference, creator, timestamp⟩,
      checkModel_eq_ok_iff.mpr ⟨members, rfl, Result.bind_eq_ok_iff.mpr
        ⟨((s.manifestDigest, s.reference), creator, timestamp), ?_, rfl⟩⟩, rfl⟩
    exact Checked.both_eq_ok_iff.mpr
      ⟨checkMember_checkModel_eq_ok_iff.mpr hcritical, hremarks⟩

theorem stated_iff (hdoc : doc.isScalar = true) :
    Stated doc s ↔ ∃ critical, doc.member? "critical" = some critical ∧
      checkModel checkCritical (.ofJson critical) = .ok (s.manifestDigest, s.reference) := by
  simp only [checkCritical_eq_ok_iff]
  constructor
  · rintro ⟨htype, hdigest, hreference, hfull, hfull'⟩
    obtain ⟨image, hat, himage⟩ := Option.bind_eq_some_iff.mp hdigest
    obtain ⟨identity, hat', hidentity⟩ := Option.bind_eq_some_iff.mp hreference
    obtain ⟨critical, hcritical, hmember⟩ := Json.at?_cons_eq_some_iff.mp hat
    rw [Json.at?_cons hcritical, Json.at?_one] at hat'
    rw [Json.at?_one] at hmember
    have hscalar := Json.isScalar_of_member? hdoc hcritical
    refine ⟨critical, hcritical, fun w hw => ?_, ⟨image, hmember, ?_⟩, ⟨identity, hat', ?_⟩⟩
    · exact htype w (by rw [Json.at?_cons hcritical, Json.at?_one, hw])
    · exact checkNamed_eq_ok_iff.mpr
        ⟨himage, Json.isScalar_of_memberAs? (Json.isScalar_of_member? hscalar hmember) himage, hfull⟩
    · exact checkNamed_eq_ok_iff.mpr ⟨hidentity,
        Json.isScalar_of_memberAs? (Json.isScalar_of_member? hscalar hat') hidentity, hfull'⟩
  · rintro ⟨critical, hcritical, htype, ⟨image, himage, hdigest⟩, ⟨identity, hidentity, hreference⟩⟩
    have hat : ∀ name, doc.at? ["critical", name] = critical.member? name := by
      intro name
      rw [Json.at?_cons hcritical, Json.at?_one]
    obtain ⟨hdigest, -, hfull⟩ := checkNamed_eq_ok_iff.mp hdigest
    obtain ⟨hreference, -, hfull'⟩ := checkNamed_eq_ok_iff.mp hreference
    refine ⟨fun v hv => htype v ((hat _).symm.trans hv), ?_, ?_, hfull, hfull'⟩
    · rw [hat, himage]
      exact hdigest
    · rw [hat, hidentity]
      exact hreference

theorem remarks_iff :
    Remarks doc ↔ ∀ w, doc.member? "optional" = some w →
      ∃ a, checkModel checkOptional (.ofJson w) = .ok a := by
  simp only [exists_checkOptional_iff]
  constructor
  · rintro ⟨hpart, hcreator, htimestamp⟩ w hw
    refine ⟨hpart w hw, fun u hu => hcreator u ?_, fun u hu => htimestamp u ?_⟩
    · rw [Json.at?_cons hw, Json.at?_one, hu]
    · rw [Json.at?_cons hw, Json.at?_one, hu]
  · intro h
    refine ⟨fun w hw => (h w hw).1, fun u hu => ?_, fun u hu => ?_⟩
    · obtain ⟨w, hw, hmember⟩ := Json.at?_cons_eq_some_iff.mp hu
      rw [Json.at?_one] at hmember
      exact (h w hw).2.1 u hmember
    · obtain ⟨w, hw, hmember⟩ := Json.at?_cons_eq_some_iff.mp hu
      rw [Json.at?_one] at hmember
      exact (h w hw).2.2 u hmember

theorem read_eq_ok_iff {payload : Bytes} :
    (∃ c, read payload = .ok c ∧ c.toSignature = s) ↔
      ∃ doc, Json.ofStrictBytes? payload = some doc ∧ Stated doc s ∧ Remarks doc := by
  unfold read
  cases hdoc : Json.ofStrictBytes? payload with
  | none => simp [Checked.fail]
  | some doc =>
      simp only [Option.some.injEq, exists_eq_left', stated_iff (Json.isScalar_of_strict hdoc),
        remarks_iff]
      exact exists_check_iff

end Claims

/-! ## Verifying -/

namespace Specimen

end Specimen

end ImageTrust
