/-
# Policy documents — what is written is read as the same policy

A policy comes from a document that may leave members out, spell them in two ways, add some that
nobody asks for, and name a scope twice.  It is written in one way only: every member is there,
also the key source that the requirement does not have, under its first spelling.  Reading and
writing are made of different parts, and here they are held against each other, requirement by
requirement: every policy that some document describes is described by the document that is
written for it (`check_toJson`).

What stands between a document and a file is the text.  It has a written form if the texts of
the policy do, and these are texts of the document the policy came from.
-/
import ImageTrust.Policy.Loading
import ImageTrust.Proofs.Checks
import ImageTrust.Proofs.Encoding
import ImageTrust.Proofs.JsonDocuments

namespace ImageTrust

variable {σ : Type} {room : Room}

/-! ## What is written is read -/

theorem MatchRule.check_toJson (rule : MatchRule) : check (.ofJson rule.toJson) = .ok rule := by
  cases rule <;> rfl

/-- The document of a requirement describes it, whatever the requirement. -/
theorem Requirement.check_toJson (r : Requirement) : check (.ofJson r.toJson) = .ok r := by
  cases r with
  | reject => rfl
  | insecureAcceptAnything => rfl
  | signedBy s =>
      obtain ⟨⟨⟩, keys, rule⟩ := s
      cases keys <;> cases rule <;> rfl
  | signedBaseLayer rule => cases rule <;> rfl

namespace Policy

/-- What every policy has that a document describes. -/
structure WellFormed (p : Policy) : Prop where
  default_ne_nil : p.default ≠ []
  scopes_nodup : (p.specific.map Prod.fst).Nodup

variable {p : Policy} {v : Json} {rs : List Requirement}

theorem checkRequirements_toJson (rs : List Requirement) :
    checkRequirements (.ofJson (listToJson rs)) = .ok rs := by
  show Checked.items Requirement.check (Datum.ofItems (rs.map Requirement.toJson)) = .ok rs
  rw [Checked.items_eq_ok_iff, Datum.ofItems_eq_map, List.map_map, List.map_map]
  exact List.map_congr_left fun r _ => r.check_toJson

theorem checkDefault_toJson (hne : rs ≠ []) :
    checkDefault (.ofJson (listToJson rs)) = .ok rs := by
  unfold checkDefault
  rw [checkRequirements_toJson]
  cases rs with
  | nil => exact absurd rfl hne
  | cons r rest => rfl

theorem checkScope_toJson (scope : Text) (rs : List Requirement) :
    checkScope (.text scope, .ofJson (listToJson rs)) = .ok (scope, rs) := by
  unfold checkScope
  dsimp only
  rw [checkRequirements_toJson]
  rfl

theorem checkSpecific_toJson {specific : List (Text × List Requirement)}
    (hnodup : (specific.map Prod.fst).Nodup) :
    checkSpecific (.ofJson (.object (specific.map fun (scope, rs) => (scope, listToJson rs)))) =
      .ok specific := by
  have hall : Checked.all ((Datum.ofMembers
      (specific.map fun (scope, rs) => (scope, listToJson rs))).map checkScope) = .ok specific := by
    rw [Checked.all_eq_ok_iff, Datum.ofMembers_eq_map, List.map_map, List.map_map]
    exact List.map_congr_left fun e _ => checkScope_toJson e.1 e.2
  show Except.map Json.collect (Checked.all _) = _
  rw [hall]
  exact congrArg Except.ok (Json.collect_of_nodup hnodup)

/-- The document of a policy describes it. -/
theorem check_toJson (hp : p.WellFormed) : check (.ofJson p.toJson) = .ok p := by
  have hdefault := checkDefault_toJson hp.default_ne_nil
  have hspecific := checkSpecific_toJson hp.scopes_nodup
  show (Checked.both (Checked.within _ (checkDefault (.ofJson (listToJson p.default))))
    (Checked.within _ (checkSpecific (.ofJson (.object _)))) >>= _) = _
  rw [hdefault, hspecific]
  rfl

end Policy

/-! ## What comes from a document without surrogates -/

section Scalars

variable {v : Json} {r : Requirement} {rs : List Requirement}

/-- The key source of a requirement is a text of its document. -/
theorem SignedBy.mem_of_check {members : List (Text × Json)} {s : SignedBy}
    (h : check (Datum.ofMembers members) = .ok s) :
    ∃ e ∈ members, ∃ t, e.2 = .text t ∧ (s.keys = .path t ∨ s.keys = .data t) := by
  obtain ⟨⟨keyType, path, data, rule⟩, hparts, hbuilt⟩ := Result.bind_eq_ok_iff.mp h
  obtain ⟨-, hparts⟩ := Checked.both_eq_ok_iff.mp hparts
  obtain ⟨hpath, hparts⟩ := Checked.both_eq_ok_iff.mp hparts
  obtain ⟨hdata, -⟩ := Checked.both_eq_ok_iff.mp hparts
  obtain ⟨keys, hkeys, hs⟩ := Result.bind_eq_ok_iff.mp hbuilt
  cases hs
  cases path with
  | some t =>
      cases data with
      | some t' => cases hkeys
      | none =>
          cases hkeys
          rcases Datum.mem_of_checkDefaulted hpath with hnone | ⟨e, he, htext⟩
          · cases hnone
          · have htext := Datum.checkText_ofJson_eq_ok_iff.mp (Datum.of_checkOptional htext)
            exact ⟨e, he, t, htext, .inl rfl⟩
  | none =>
      cases data with
      | none => cases hkeys
      | some t =>
          cases hkeys
          rcases Datum.mem_of_checkDefaulted hdata with hnone | ⟨e, he, htext⟩
          · cases hnone
          · have htext := Datum.checkText_ofJson_eq_ok_iff.mp (Datum.of_checkOptional htext)
            exact ⟨e, he, t, htext, .inr rfl⟩

theorem MatchRule.isScalar_toJson (rule : MatchRule) : rule.toJson.isScalar = true := by
  cases rule <;> decide

theorem Requirement.check_of_checkAs {kind : Text} {entries : List (Datum × Datum)} {s : SignedBy}
    (h : checkAs kind entries = .ok (.signedBy s)) : SignedBy.check entries = .ok s := by
  unfold checkAs at h
  by_cases hreject : kind = "reject"
  · rw [if_pos hreject] at h
    cases h
  rw [if_neg hreject] at h
  by_cases haccept : kind = "insecureAcceptAnything"
  · rw [if_pos haccept] at h
    cases h
  rw [if_neg haccept] at h
  by_cases hsigned : kind = "signedBy"
  · rw [if_pos hsigned, Checked.within_eq_ok_iff, Checked.map_eq_ok_iff] at h
    obtain ⟨found, hfound, hsame⟩ := h
    cases hsame
    exact hfound
  rw [if_neg hsigned] at h
  by_cases hlayer : kind = "signedBaseLayer"
  · rw [if_pos hlayer, Checked.within_eq_ok_iff, Checked.map_eq_ok_iff] at h
    obtain ⟨rule, -, hother⟩ := h
    cases hother
  rw [if_neg hlayer] at h
  cases h

/-- A demand for signatures has a written form if its key source has one. -/
theorem Requirement.isScalar_toJson_signedBy {s : SignedBy} {t : Text} (ht : t.isScalar = true)
    (hkeys : s.keys = .path t ∨ s.keys = .data t) : (signedBy s).toJson.isScalar = true := by
  have hsource : (Json.ofOption s.keys.path?).isScalar = true ∧
      (Json.ofOption s.keys.data?).isScalar = true := by
    rcases hkeys with hkeys | hkeys
    · rw [hkeys]
      exact ⟨ht, rfl⟩
    · rw [hkeys]
      exact ⟨rfl, ht⟩
  refine Json.areScalarMembers_eq_true_iff.mpr fun e he => ?_
  simp only [Requirement.members, List.mem_cons, List.not_mem_nil, or_false] at he
  rcases he with rfl | rfl | rfl | rfl | rfl
  · exact ⟨rfl, rfl⟩
  · cases s.keyType
    exact ⟨rfl, rfl⟩
  · exact ⟨rfl, hsource.1⟩
  · exact ⟨rfl, hsource.2⟩
  · exact ⟨rfl, s.identity.isScalar_toJson⟩

/-- A requirement has a written form if its document has no surrogates. -/
theorem Requirement.isScalar_of_check (hv : v.isScalar = true)
    (h : check (.ofJson v) = .ok r) : r.toJson.isScalar = true := by
  cases r with
  | reject => decide
  | insecureAcceptAnything => decide
  | signedBaseLayer rule => cases rule <;> decide
  | signedBy s =>
      cases v with
      | object members =>
          change check (.mapping (Datum.ofMembers members)) = _ at h
          rw [check] at h
          cases hkind : Datum.find? "type" (Datum.ofMembers members) with
          | none =>
              rw [hkind] at h
              cases h
          | some d =>
              rw [hkind] at h
              cases d with
              | text kind =>
                  obtain ⟨e, he, t, htext, hkeys⟩ := SignedBy.mem_of_check (check_of_checkAs h)
                  have hscalar := (Json.areScalarMembers_eq_true_iff.mp hv e he).2
                  rw [htext] at hscalar
                  exact isScalar_toJson_signedBy hscalar hkeys
              | _ => cases h
      | _ => cases h

end Scalars

namespace Policy

variable {p : Policy} {v : Json} {d : Datum} {rs : List Requirement}
  {specific : List (Text × List Requirement)}

theorem isScalar_listToJson_iff :
    (listToJson rs).isScalar = true ↔ ∀ r ∈ rs, r.toJson.isScalar = true := by
  show Json.areScalar (rs.map Requirement.toJson) = true ↔ _
  rw [Json.areScalar_eq_true_iff, List.forall_mem_map]

theorem isScalar_of_checkRequirements (hv : v.isScalar = true)
    (h : checkRequirements (.ofJson v) = .ok rs) : (listToJson rs).isScalar = true := by
  cases v with
  | array items =>
      change Checked.items Requirement.check (Datum.ofItems items) = .ok rs at h
      rw [Checked.items_eq_ok_iff, Datum.ofItems_eq_map, List.map_map] at h
      refine isScalar_listToJson_iff.mpr fun r hr => ?_
      have hmem : (Except.ok r : Checked Requirement) ∈ rs.map Except.ok := List.mem_map_of_mem hr
      rw [← h] at hmem
      obtain ⟨item, hitem, hcheck⟩ := List.mem_map.mp hmem
      exact Requirement.isScalar_of_check (Json.areScalar_eq_true_iff.mp hv item hitem) hcheck
  | _ => cases h

theorem checkDefault_eq_ok_iff :
    checkDefault d = .ok rs ↔ checkRequirements d = .ok rs ∧ rs ≠ [] := by
  unfold checkDefault
  rw [Result.bind_eq_ok_iff]
  constructor
  · rintro ⟨found, hfound, h⟩
    cases found with
    | nil => cases h
    | cons r rest =>
        cases h
        exact ⟨hfound, List.cons_ne_nil _ _⟩
  · rintro ⟨hfound, hne⟩
    refine ⟨rs, hfound, ?_⟩
    cases rs with
    | nil => exact absurd rfl hne
    | cons r rest => rfl

theorem nodup_of_checkSpecific (h : checkSpecific d = .ok specific) :
    (specific.map Prod.fst).Nodup := by
  cases d with
  | mapping entries =>
      obtain ⟨collected, -, rfl⟩ := Checked.map_eq_ok_iff.mp h
      exact Json.nodup_collect collected
  | _ => cases h

theorem isScalar_of_checkSpecific (hv : v.isScalar = true)
    (h : checkSpecific (.ofJson v) = .ok specific) :
    ∀ e ∈ specific, e.1.isScalar = true ∧ (listToJson e.2).isScalar = true := by
  cases v with
  | object members =>
      obtain ⟨scopes, hscopes, rfl⟩ := Checked.map_eq_ok_iff.mp h
      rw [Checked.all_eq_ok_iff, Datum.ofMembers_eq_map, List.map_map] at hscopes
      intro e he
      have hmem : (Except.ok e : Checked (Text × List Requirement)) ∈ scopes.map Except.ok :=
        List.mem_map_of_mem (Json.mem_of_mem_collect he)
      rw [← hscopes] at hmem
      obtain ⟨member, hmember, hcheck⟩ := List.mem_map.mp hmem
      obtain ⟨hname, hvalue⟩ := Json.areScalarMembers_eq_true_iff.mp hv member hmember
      obtain ⟨hscope, hrs⟩ := Checked.both_eq_ok_iff.mp (Checked.within_eq_ok_iff.mp hcheck)
      have hsame : member.1 = e.1 := Except.ok.inj (Checked.within_eq_ok_iff.mp hscope)
      exact ⟨hsame ▸ hname, isScalar_of_checkRequirements hvalue hrs⟩
  | _ => cases h

theorem parts_of_check {entries : List (Datum × Datum)} (h : check (.mapping entries) = .ok p) :
    Datum.checkMember "default" "default" checkDefault entries = .ok p.default ∧
      Datum.checkDefaulted "specific" "specific" [] checkSpecific entries = .ok p.specific := by
  obtain ⟨⟨default, specific⟩, hparts, hp⟩ := Result.bind_eq_ok_iff.mp h
  cases hp
  exact Checked.both_eq_ok_iff.mp hparts

/-- A policy that a document describes has a list for everything else and none of its scopes
twice, and is without surrogates if the document is. -/
theorem wellFormed_of_check (hv : v.isScalar = true) (h : check (.ofJson v) = .ok p) :
    p.WellFormed ∧ p.toJson.isScalar = true := by
  cases v with
  | object members =>
      obtain ⟨hdefault, hspecific⟩ := parts_of_check h
      have hall := Json.areScalarMembers_eq_true_iff.mp hv
      obtain ⟨e, he, hchecked⟩ := Datum.mem_of_checkMember hdefault
      obtain ⟨hrs, hne⟩ := checkDefault_eq_ok_iff.mp hchecked
      have hlist := isScalar_of_checkRequirements (hall e he).2 hrs
      have hscopes : (p.specific.map Prod.fst).Nodup ∧
          ∀ e ∈ p.specific, e.1.isScalar = true ∧ (listToJson e.2).isScalar = true := by
        rcases Datum.mem_of_checkDefaulted hspecific with hnone | ⟨e, he, hchecked⟩
        · rw [hnone]
          exact ⟨List.nodup_nil, fun e he => absurd he List.not_mem_nil⟩
        · exact ⟨nodup_of_checkSpecific hchecked, isScalar_of_checkSpecific (hall e he).2 hchecked⟩
      refine ⟨⟨hne, hscopes.1⟩, Json.areScalarMembers_eq_true_iff.mpr fun e he => ?_⟩
      rcases List.mem_cons.mp he with rfl | he
      · exact ⟨rfl, hlist⟩
      · rw [List.mem_singleton.mp he]
        refine ⟨rfl, Json.areScalarMembers_eq_true_iff.mpr ?_⟩
        exact List.forall_mem_map.mpr hscopes.2
  | _ => cases h

end Policy

/-! ## The text of a policy -/

/-- A text without carriage returns has plain lines. -/
theorem Text.withPlainLines_of_not_mem {t : Text} (h : CodePoint.ofChar '\r' ∉ t) :
    t.withPlainLines = t := by
  induction t with
  | nil => rfl
  | cons c rest ih =>
      rw [List.mem_cons, not_or] at h
      rw [withPlainLines.eq_def]
      dsimp only
      rw [if_neg (Ne.symm h.1), ih h.2]

theorem MatchRule.toJson_plain (rule : MatchRule) (n : Nat) : Json.Plain (n + 1) rule.toJson :=
  .object_one (.text _)

theorem KeySource.toJson_plain (t : Option Text) (n : Nat) : Json.Plain n (Json.ofOption t) := by
  cases t with
  | none => exact .null
  | some t => exact .text t

theorem Requirement.toJson_plain (r : Requirement) (n : Nat) : Json.Plain (n + 2) r.toJson := by
  cases r with
  | reject => exact .object_one (.text _)
  | insecureAcceptAnything => exact .object_one (.text _)
  | signedBaseLayer rule => exact .object_two (by decide) (.text _) (rule.toJson_plain n)
  | signedBy s =>
      refine .object (show [Text.ofString "type", Text.ofString "keyType", Text.ofString "keyPath",
        Text.ofString "keyData", Text.ofString "signedIdentity"].Nodup by decide) fun e he => ?_
      simp only [members, List.mem_cons, List.not_mem_nil, or_false] at he
      rcases he with rfl | rfl | rfl | rfl | rfl
      · exact .text _
      · exact .text _
      · exact KeySource.toJson_plain _ _
      · exact KeySource.toJson_plain _ _
      · exact s.identity.toJson_plain n

namespace Policy

variable {p : Policy} {t : Text}

theorem listToJson_plain (rs : List Requirement) (n : Nat) :
    Json.Plain (n + 3) (listToJson rs) :=
  .array (List.forall_mem_map.mpr fun r _ => r.toJson_plain n)

theorem toJson_plain (hp : p.WellFormed) : Json.Plain 5 p.toJson := by
  refine .object_two (by decide) (listToJson_plain p.default 1) (.object ?_ ?_)
  · rw [List.map_map]
    exact hp.scopes_nodup
  · exact List.forall_mem_map.mpr fun e _ => listToJson_plain e.2 0

theorem toText?_eq_some (h : p.toText? = some t) :
    p.toJson.isScalar = true ∧ t = p.toJson.toText Json.Layout.indented := by
  unfold toText? at h
  by_cases hscalar : p.toJson.isScalar = true
  · rw [if_pos hscalar] at h
    exact ⟨hscalar, (Option.some.inj h).symm⟩
  · rw [if_neg hscalar] at h
    cases h

/-- The text of a policy writes its document, for either reader. -/
theorem read_toText? (hp : p.WellFormed) (h : p.toText? = some t) (room : Room) :
    Json.ofText room t = .ok p.toJson ∧ Json.ofStrictBytes? t.utf8Bytes = some p.toJson := by
  obtain ⟨hscalar, rfl⟩ := toText?_eq_some h
  have hplain := toJson_plain hp
  constructor
  · -- The text begins with a brace, so there is no byte order mark.
    exact Json.read_toText hplain Json.Layout.indented_plain room.fits
  · exact hplain.ofStrictBytes?_toText Json.Layout.indented_plain (by decide) hscalar

/-- The text of a policy is kept as it is by a file. -/
theorem decoded_toText? (hp : p.WellFormed) (h : p.toText? = some t) :
    Text.ofUtf8? false t.utf8Bytes = some t ∧ t.withPlainLines = t := by
  obtain ⟨hscalar, rfl⟩ := toText?_eq_some h
  have hplain := toJson_plain hp
  refine ⟨Text.ofUtf8?_utf8Bytes_strict
    (hplain.isScalar_write Json.Layout.indented_plain hscalar), ?_⟩
  refine Text.withPlainLines_of_not_mem fun hmem => ?_
  rcases hplain.onLine_write hmem with hbreak | hvisible
  · exact absurd hbreak (by decide)
  · exact absurd hvisible (by decide)

/-! ## Files -/

theorem load_of_read {path : Path} {h : Host σ} {bytes : Bytes}
    (hread : h.disk.read path = .ok bytes) (htext : Text.ofUtf8? false bytes = some t)
    (hdocument : ofDocument room path t.withPlainLines = .ok p) : (load room path h).1 = .ok p := by
  have hhost : (Act.host : Act σ (Host σ)) h = (.ok h, h) := rfl
  unfold load
  rw [Act.bind_ok hhost, hread]
  dsimp only [Act.pure_bind]
  rw [htext]
  dsimp only [Act.pure_bind]
  rw [hdocument]
  rfl

/-- Of a policy that some document without surrogates describes there is a text, and this text is
read, by either reader, as a document that describes the same policy: the same scopes, and the
same requirements in the same order.  So a file with the text, under a name that is not one for
YAML, is loaded as the policy, of which the text is the same again. -/
theorem text_roundtrip {v : Json} (hv : v.isScalar = true) (hcheck : check (.ofJson v) = .ok p) :
    ∃ t, p.toText? = some t ∧
      (∃ w, (∀ room, Json.ofText room t = .ok w) ∧ Json.ofStrictBytes? t.utf8Bytes = some w ∧
        check (.ofJson w) = .ok p) ∧
      ∀ {σ : Type} (room : Room) (path : Path) (h : Host σ), isYamlPath path = false →
        h.disk.read path = .ok t.utf8Bytes → (load room path h).1 = .ok p := by
  obtain ⟨hp, hscalar⟩ := wellFormed_of_check hv hcheck
  have htext : p.toText? = some (p.toJson.toText Json.Layout.indented) := if_pos hscalar
  have hofText := fun room => (read_toText? hp htext room).1
  have hstrict := (read_toText? hp htext .standard).2
  refine ⟨_, htext, ⟨_, hofText, hstrict, check_toJson hp⟩, fun room path h hname hread => ?_⟩
  obtain ⟨hdecoded, hlines⟩ := decoded_toText? hp htext
  refine load_of_read hread hdecoded ?_
  have hdocument : document room path (p.toJson.toText Json.Layout.indented) =
      .ok (.ofJson p.toJson) := by
    rw [document, hname, if_neg Bool.false_ne_true, hofText]
    rfl
  rw [hlines, ofDocument, hdocument]
  show Except.mapError Fault.invalid (check (.ofJson p.toJson)) = _
  rw [check_toJson hp]
  rfl

end Policy

namespace Specimen

/-- A document with members in either spelling, one that is left out, some that mean nothing, a
scope of odd characters, and a scope without requirements. -/
def described : Json :=
  .object
    [("note", .array [.bool true]),
     ("specific", .object
       [("a\x22\\\nß😀", .array
         [.object [("key_data", .text "k\r\n"), ("keyPath", .null), ("type", .text "signedBy"),
            ("key_type", .text "Ed25519Keys"), ("signed_by", .int 1)],
          .object [("type", .text "signedBaseLayer"),
            ("base_layer_identity", .object [("type", .text "matchExact")])]]),
        ("a.b", .array [])]),
     ("default", .array [.object [("type", .text "reject")], .object [("type", .text "reject")]])]

def documented : Policy :=
  ⟨[.reject, .reject],
    [("a\x22\\\nß😀",
        [.signedBy ⟨.ed25519, .data "k\r\n", .repoDigestOrExact⟩, .signedBaseLayer .exact]),
     ("a.b", [])]⟩

end Specimen

open Specimen in
/-- The document describes the policy, and a file with the policy's text is loaded as it. -/
theorem Policy.text_roundtrip_documented :
    described.isScalar = true ∧ Policy.check (.ofJson described) = .ok documented ∧
      ∃ t, documented.toText? = some t ∧
        (∃ w, Json.ofText .standard t = .ok w ∧ Policy.check (.ofJson w) = .ok documented) ∧
        (Policy.load .standard (Path.ofText "policy.json")
          (Host.fresh ⟨[(["policy.json"], .file t.utf8Bytes)], []⟩ ())).1 = .ok documented := by
  have hv : described.isScalar = true := by decide
  have hcheck : Policy.check (.ofJson described) = .ok documented := rfl
  obtain ⟨t, htext, ⟨w, hread, -, hagain⟩, hload⟩ := Policy.text_roundtrip hv hcheck
  exact ⟨hv, hcheck, t, htext, ⟨w, hread _, hagain⟩, hload _ _ _ (by decide) rfl⟩

end ImageTrust
