/-
# Entries — how far one entry of a policy reaches

An entry whose scope is the identity of an image decides about this image and no other.  The
walk through the image's scopes begins with it.  For another image it would have to be met on
the walk through that image's scopes, and it is not: identities of two references that were
read differ, and an identity encloses nothing.

The second part is where a host with a port comes close, since `host:port` looks like
`name:tag`.  What tells them apart is the first slash.  Before it stands the host on either
side; behind it an identity has the sign of a tag or of a digest, and a path has neither
(`not_shown_prefix_name`).
-/
import Mathlib.Data.List.Find
import ImageTrust.Proofs.Files
import ImageTrust.Proofs.Scope
import ImageTrust.Proofs.Spelling

namespace ImageTrust

/-! ## Identities and scopes -/

namespace Reference

variable {r r' : Reference} {t t' : Text}

theorem admissible_of_parse (h : parse t = .ok r) : r.Admissible := by
  obtain ⟨-, -, -, -, ha⟩ := parse_eq_ok_iff.mp h
  exact ha

/-- References that were read are determined by how they are written. -/
theorem eq_of_shown_eq (h : parse t = .ok r) (h' : parse t' = .ok r')
    (hshown : r.shown = r'.shown) : r = r' := by
  have hr := parse_shown_of_parse h
  rw [hshown, parse_shown_of_parse h'] at hr
  exact (Except.ok.inj hr).symm

/-- The repository begins with every scope around a reference. -/
theorem prefix_of_mem_namespaces {scope : Text} (h : scope ∈ r.namespaces) : scope <+: r.name := by
  rcases List.mem_cons.mp h with rfl | houter
  · exact List.prefix_rfl
  · exact (List.prefix_append scope _).trans (mem_enclosing.mp (List.mem_reverse.mp houter))

namespace Admissible

theorem slash_not_mem_host (h : r.Admissible) : CodePoint.ofChar '/' ∉ r.host :=
  h.not_mem_host (by decide) (by decide) (by decide) (by decide)

theorem colon_not_mem_path (h : r.Admissible) : CodePoint.ofChar ':' ∉ r.path :=
  h.not_mem_path (by intro s; cases s <;> rfl) (by decide) (by decide)

theorem at_not_mem_path (h : r.Admissible) : CodePoint.ofChar '@' ∉ r.path :=
  h.not_mem_path (by intro s; cases s <;> rfl) (by decide) (by decide)

/-- No repository begins with a reference in full, whatever ports the hosts have. -/
theorem not_shown_prefix_name (h : r.Admissible) (h' : r'.Admissible)
    (hversion : r.isNameOnly = false) : ¬ r.shown <+: r'.name := by
  rintro ⟨more, hmore⟩
  have hcut : some (r.host, r.path ++ suffix ':' r.tag ++ suffix '@' r.digest ++ more) =
      some (r'.host, r'.path) := by
    rw [← Text.cutFirst?_append h.slash_not_mem_host, ← Text.cutFirst?_append h'.slash_not_mem_host]
    refine congrArg _ ?_
    rw [← name, ← hmore]
    simp [shown, name]
  have hpath : r.path ++ suffix ':' r.tag ++ suffix '@' r.digest ++ more = r'.path :=
    congrArg Prod.snd (Option.some.inj hcut)
  cases htag : r.tag with
  | some tag =>
      refine h'.colon_not_mem_path ?_
      rw [← hpath, htag]
      simp [suffix]
  | none =>
      cases hdigest : r.digest with
      | some digest =>
          refine h'.at_not_mem_path ?_
          rw [← hpath, hdigest]
          simp [suffix]
      | none =>
          rw [isNameOnly, htag, hdigest] at hversion
          cases hversion

end Admissible

end Reference

/-- A reference with one of tag and digest is an address. -/
theorem Address.ofReference_of_one {r : Reference} (hone : r.tag.isSome ≠ r.digest.isSome) :
    ofReference (some r) = .ok ⟨some r⟩ := by
  unfold ofReference
  cases htag : r.tag <;> cases hdigest : r.digest <;>
    simp_all [Reference.isNameOnly]

/-! ## Changing an entry -/

namespace Policy

/-- The policy with another list for one scope: added, put in the place of the one that was
there, or, for none, taken out. -/
def edited (p : Policy) (scope : Text) : Option (List Requirement) → Policy
  | some rs => { p with specific := Json.insertMember scope rs p.specific }
  | none => { p with specific := p.specific.filter fun entry => entry.1 ≠ scope }

theorem lookup_insertMember {α : Type} (name other : Text) (v : α) (members : List (Text × α)) :
    (Json.insertMember name v members).lookup other =
      if other = name then some v else members.lookup other := by
  induction members with
  | nil => rw [Json.insertMember, Entries.lookup_cons]
  | cons e rest ih =>
      obtain ⟨n, w⟩ := e
      unfold Json.insertMember
      by_cases hn : n = name
      · rw [if_pos hn, hn, Entries.lookup_cons, Entries.lookup_cons]
        by_cases ho : other = name
        · rw [if_pos ho, if_pos ho]
        · rw [if_neg ho, if_neg ho, if_neg ho]
      · rw [if_neg hn, Entries.lookup_cons, Entries.lookup_cons, ih]
        by_cases ho : other = n
        · rw [if_pos ho, if_pos ho, if_neg (ho ▸ hn)]
        · rw [if_neg ho, if_neg ho]

/-- The scope has the new list, or none, and every other scope has what it had. -/
theorem lookup_edited (p : Policy) (scope other : Text) (entry : Option (List Requirement)) :
    (p.edited scope entry).specific.lookup other =
      if other = scope then entry else p.specific.lookup other := by
  cases entry with
  | some rs => exact lookup_insertMember scope other rs p.specific
  | none => exact Entries.lookup_filter_ne scope other p.specific

theorem edited_default (p : Policy) (scope : Text) (entry : Option (List Requirement)) :
    (p.edited scope entry).default = p.default := by
  cases entry <;> rfl

variable {p q : Policy} {identity : Text} {namespaces : List Text}

/-- The search meets the scopes of an image only, so it finds the same section in policies that
agree on these. -/
theorem sectionFor_congr
    (h : ∀ scope ∈ identity :: namespaces, p.specific.lookup scope = q.specific.lookup scope) :
    p.sectionFor identity namespaces = q.sectionFor identity namespaces := by
  have hfind : (identity :: namespaces).find? (fun scope => (p.specific.lookup scope).isSome) =
      (identity :: namespaces).find? fun scope => (q.specific.lookup scope).isSome := by
    refine List.find?_congr fun scope hscope => ?_
    rw [h scope hscope]
  rw [sectionFor, sectionFor, hfind]

/-- The search begins with the identity, and looks no further if there is a list for it. -/
theorem governing_of_lookup {rs : List Requirement} (h : p.specific.lookup identity = some rs) :
    p.governing identity namespaces = rs := by
  have hfound : (p.specific.lookup identity).isSome = true := Option.isSome_of_eq_some h
  have hsection : p.sectionFor identity namespaces = .specific identity := by
    simp only [sectionFor, List.find?_cons, hfound]
  rw [governing, hsection, requirements, h]
  rfl

/-- Of the section that the search finds, only the list is taken. -/
theorem governing_congr (hdefault : p.default = q.default)
    (h : ∀ scope ∈ identity :: namespaces, p.specific.lookup scope = q.specific.lookup scope) :
    p.governing identity namespaces = q.governing identity namespaces := by
  have hsame := sectionFor_congr h
  rw [governing, governing, ← hsame]
  cases hfound : p.sectionFor identity namespaces with
  | default => exact hdefault
  | specific scope =>
      have hmem : scope ∈ identity :: namespaces := by
        unfold sectionFor at hfound
        split at hfound
        · cases hfound
          exact List.mem_of_find?_eq_some ‹_›
        · cases hfound
      rw [requirements, requirements, h scope hmem]

end Policy

namespace Context

variable {σ : Type}

/-- The requirements of an address are the governing ones, reported or not. -/
theorem requirementsOf_apply (c : Context σ) {r : Reference}
    (hone : r.tag.isSome ≠ r.digest.isSome) (h : Host σ) :
    (c.requirementsOf (Address.toImageReference ⟨some r⟩) h).1 =
      .ok (c.policy.governing r.shown r.namespaces) := by
  obtain ⟨report, hsection⟩ := c.sectionOf_address (Address.ofReference_of_one hone) h
  rw [requirementsOf, Act.bind_ok hsection]
  rfl

/-- Of two references that were read and that have one of tag and digest each, the one has
another identity than the other, unless they are one reference, and its identity is none of the
scopes around the other.  So an entry for the identity of the one is what governs it, and
whatever becomes of this entry, the requirements of the other stay as they are. -/
theorem identity_entry_governs_one {t t' : Text} {r r' : Reference}
    (hr : Reference.parse t = .ok r) (hr' : Reference.parse t' = .ok r')
    (hone : r.tag.isSome ≠ r.digest.isSome) (hone' : r'.tag.isSome ≠ r'.digest.isSome) :
    ∃ scope scope', r.identity = .ok scope ∧ r'.identity = .ok scope' ∧
      (scope = scope' → r = r') ∧ scope ∉ r'.namespaces ∧
        ∀ (c : Context σ) (entry : Option (List Requirement)) (h : Host σ),
          let edited : Context σ := { c with policy := c.policy.edited scope entry }
          (∀ rs, entry = some rs →
            (edited.requirementsOf (Address.toImageReference ⟨some r⟩) h).1 = .ok rs) ∧
          (r ≠ r' → ∃ rs, (c.requirementsOf (Address.toImageReference ⟨some r'⟩) h).1 = .ok rs ∧
            (edited.requirementsOf (Address.toImageReference ⟨some r'⟩) h).1 = .ok rs) := by
  obtain ⟨-, hversion, hidentity⟩ := Address.eq_of_ofReference (Address.ofReference_of_one hone)
  obtain ⟨-, -, hidentity'⟩ := Address.eq_of_ofReference (Address.ofReference_of_one hone')
  have hseparate : r.shown ∉ r'.namespaces := by
    intro hmem
    exact (Reference.admissible_of_parse hr).not_shown_prefix_name
      (Reference.admissible_of_parse hr') hversion (Reference.prefix_of_mem_namespaces hmem)
  refine ⟨r.shown, r'.shown, hidentity, hidentity', Reference.eq_of_shown_eq hr hr', hseparate, ?_⟩
  intro c entry h edited
  constructor
  · rintro rs rfl
    have hentry : edited.policy.specific.lookup r.shown = some rs := by
      rw [Policy.lookup_edited, if_pos rfl]
    rw [requirementsOf_apply _ hone h, Policy.governing_of_lookup hentry]
  · intro hne
    refine ⟨_, c.requirementsOf_apply hone' h, ?_⟩
    rw [requirementsOf_apply _ hone' h]
    refine congrArg _ (Policy.governing_congr (Policy.edited_default _ _ _) ?_)
    intro scope hscope
    have hother : scope ≠ r.shown := by
      rintro rfl
      rcases List.mem_cons.mp hscope with hsame | hmem
      · exact hne (Reference.eq_of_shown_eq hr hr' hsame)
      · exact hseparate hmem
    rw [Policy.lookup_edited, if_neg hother]

/-- A tag on the default host that looks like a port, and a port that looks like this tag: an
entry for the one governs it and changes nothing for the other. -/
theorem identity_entry_governs_one_port :
    ∃ (r r' : Reference) (edited : Context Unit),
      Reference.parse "localhost:5000" = .ok r ∧
      Reference.parse "localhost:5000/team@sha256:00112233445566778899aabbccddeeff" = .ok r' ∧
      r.tag.isSome ≠ r.digest.isSome ∧ r'.tag.isSome ≠ r'.digest.isSome ∧ r ≠ r' ∧
      r.identity = .ok "docker.io/library/localhost:5000" ∧
      Text.ofString "docker.io/library/localhost:5000" ∉ r'.namespaces ∧
      edited.policy =
        Policy.edited ⟨[.reject], []⟩ "docker.io/library/localhost:5000"
          (some [.insecureAcceptAnything]) ∧
      (edited.requirementsOf (Address.toImageReference ⟨some r⟩) (Host.fresh Disk.empty ())).1 =
        .ok [.insecureAcceptAnything] ∧
      (edited.requirementsOf (Address.toImageReference ⟨some r'⟩) (Host.fresh Disk.empty ())).1 =
        .ok [.reject] := by
  have hr : Reference.parse "localhost:5000" =
      .ok ⟨"docker.io", "library/localhost", some "5000", none⟩ := rfl
  have hr' : Reference.parse "localhost:5000/team@sha256:00112233445566778899aabbccddeeff" =
      .ok ⟨"localhost:5000", "team", none, some "sha256:00112233445566778899aabbccddeeff"⟩ := rfl
  let c : Context Unit := ⟨0, ⟨[.reject], []⟩, ⟨Verifier.ed25519 .standard 0, none⟩⟩
  obtain ⟨scope, -, hscope, -, -, hseparate, hedited⟩ :=
    identity_entry_governs_one (σ := Unit) hr hr' (by decide) (by decide)
  obtain rfl : Text.ofString "docker.io/library/localhost:5000" = scope := Except.ok.inj hscope
  obtain ⟨hown, hunchanged⟩ :=
    hedited c (some [.insecureAcceptAnything]) (Host.fresh Disk.empty ())
  obtain ⟨rs, hbefore, hafter⟩ := hunchanged (by decide)
  obtain rfl : [.reject] = rs := Except.ok.inj hbefore
  exact ⟨_, _, _, hr, hr', by decide, by decide, by decide, rfl, hseparate, rfl, hown _ rfl, hafter⟩

end Context

end ImageTrust
