/-
# Spelling — references and their texts

A reference is read by cutting its text, and checked afterwards: the parts of the cut
(`cut`) have to be in their grammars (`Admissible`).  What reading settles on besides is one
spelling of each repository (`Normal`): a host that cannot be taken for a part of the path,
never the former name of the default registry, and no path of one component there.

    parse t = .ok r    gives    r.Admissible  and  r.Normal
    r.Admissible  and  r.Normal    give    parse r.shown = .ok r

The second line is where the signs have to be told apart: the colon of a port from that of a
tag and from that of a digest, and the slash after the host from those of the path.  It rests
on what the grammars are free of: no part but the digest has a `@`, no path a colon, and
neither host nor tag a slash.
-/
import ImageTrust.Proofs.Action
import ImageTrust.Proofs.Cuts
import ImageTrust.Reference.Parser

namespace ImageTrust

namespace Reference

variable {r : Reference} {t : Text} {x : CodePoint}

/-! ## What the parts are free of -/

/-- A sign that no state of a path component goes on with. -/
theorem PathState.not_mem_of_accepts (hx : ∀ s : PathState, s.step x = none) {s : PathState}
    (h : s.accepts t) : x ∉ t := by
  induction t generalizing s with
  | nil => exact List.not_mem_nil
  | cons y t ih =>
      unfold accepts at h
      cases hstep : s.step y with
      | none => simp [hstep] at h
      | some next =>
          rw [hstep] at h
          rw [List.mem_cons, not_or]
          refine ⟨?_, ih h⟩
          rintro rfl
          rw [hx s] at hstep
          cases hstep

theorem not_mem_of_isHostName (hword : isHostWord x = false) (hdot : x ≠ CodePoint.ofChar '.')
    (h : isHostName t) : x ∉ t := by
  intro hmem
  obtain ⟨p, hp, hx⟩ := Text.exists_mem_pieces hmem hdot
  have hcomponent := List.all_eq_true.mp h p hp
  simp only [isHostComponent, Text.isRunOf, Bool.and_eq_true, List.all_eq_true] at hcomponent
  rw [hcomponent.1.1.2 x hx] at hword
  cases hword

theorem not_mem_of_isHost (hword : isHostWord x = false) (hdot : x ≠ CodePoint.ofChar '.')
    (hcolon : x ≠ CodePoint.ofChar ':') (h : isHost t) : x ∉ t := by
  unfold isHost at h
  cases hcut : t.cutFirst? (CodePoint.ofChar ':') with
  | none =>
      rw [hcut] at h
      exact not_mem_of_isHostName hword hdot h
  | some parts =>
      obtain ⟨name, port⟩ := parts
      obtain ⟨rfl, -⟩ := Text.cutFirst?_eq_some_iff.mp hcut
      rw [hcut] at h
      obtain ⟨hname, hport⟩ := Bool.and_eq_true_iff.mp h
      have hdigits := (Bool.and_eq_true_iff.mp hport).2
      simp only [List.mem_append, List.mem_cons, not_or]
      refine ⟨not_mem_of_isHostName hword hdot hname, hcolon, fun hx => ?_⟩
      have hdigit := List.all_eq_true.mp hdigits x hx
      simp [isHostWord, CodePoint.isAlphanumeric, hdigit] at hword

theorem not_mem_of_isTag (hx : isTagWord x = false) (h : isTag t) : x ∉ t := by
  intro hmem
  simp only [isTag, Bool.and_eq_true, List.all_eq_true] at h
  rw [h.1.1 x hmem] at hx
  cases hx

/-! ## Reading as cutting and checking -/

/-- What names the repository in a text: all but digest and tag. -/
def repositoryIn (whole : Text) : Text := (cutTag (cutDigest whole).1).1

/-- The parts of a text, before any of them is looked at. -/
def cut (whole : Text) : Reference :=
  let name := cutHost (repositoryIn whole)
  let repository := normalized name.1 name.2
  ⟨repository.1, repository.2, (cutTag (cutDigest whole).1).2, (cutDigest whole).2⟩

/-- Each part is in its grammar, and the name is not too long. -/
structure Admissible (r : Reference) : Prop where
  host : r.host.isLineOf isHost
  path : ∀ p ∈ r.path.pieces '/', p.isLineOf isPathComponent
  length : r.host.length + 1 + r.path.length ≤ maxNameLength
  tag : ∀ tag ∈ r.tag, tag.isLineOf isTag
  digest : ∀ digest ∈ r.digest, digest.isLineOf isDigest

/-- The repository is spelled in the one way that reading settles on. -/
structure Normal (r : Reference) : Prop where
  host : looksLikeHost r.host
  current : r.host ≠ formerDefaultHost
  official : r.host = defaultHost → CodePoint.ofChar '/' ∈ r.path

theorem parse_eq_ok_iff {whole : Text} :
    parse whole = .ok r ↔
      whole ≠ [] ∧ ¬ whole.isLineOf isBareDigest ∧ repositoryIn whole ≠ [] ∧ cut whole = r ∧
        r.Admissible := by
  unfold parse
  simp only [bind, Except.bind, pure, Except.pure, throw, throwThe, MonadExceptOf.throw,
    Result.ite_error_eq_ok_iff, Except.ok.injEq, Bool.not_eq_true', Bool.not_eq_false,
    Option.all_eq_true, List.all_eq_true, Nat.not_lt]
  constructor
  · rintro ⟨hempty, hbare, hdigest, htag, hrest, hhost, hpath, hlength, rfl⟩
    exact ⟨hempty, hbare, hrest, rfl, hhost, hpath, hlength, htag, hdigest⟩
  · rintro ⟨hempty, hbare, hrest, rfl, hhost, hpath, hlength, htag, hdigest⟩
    exact ⟨hempty, hbare, hdigest, htag, hrest, hhost, hpath, hlength, rfl⟩

/-! ## What reading settles on -/

theorem looksLikeHost_cutHost (name : Text) : looksLikeHost (cutHost name).1 := by
  have hdefault : looksLikeHost defaultHost := by decide
  unfold cutHost
  split
  · split
    · assumption
    · exact hdefault
  · exact hdefault

theorem normal_normalized {host path : Text} (h : looksLikeHost host) (tag digest : Option Text) :
    Normal ⟨(normalized host path).1, (normalized host path).2, tag, digest⟩ := by
  obtain ⟨hlooks, hcurrent⟩ :
      looksLikeHost (if host = formerDefaultHost then defaultHost else host) ∧
        (if host = formerDefaultHost then defaultHost else host) ≠ formerDefaultHost := by
    split
    · exact ⟨by decide, by decide⟩
    · exact ⟨h, ‹_›⟩
  unfold normalized
  dsimp only
  generalize (if host = formerDefaultHost then defaultHost else host) = new at hlooks hcurrent ⊢
  by_cases hofficial : new = defaultHost ∧ CodePoint.ofChar '/' ∉ path
  · rw [if_pos hofficial]
    exact ⟨hlooks, hcurrent, fun _ => by simp⟩
  · rw [if_neg hofficial]
    refine ⟨hlooks, hcurrent, fun hnew => ?_⟩
    exact Decidable.byContradiction fun hpath => hofficial ⟨hnew, hpath⟩

theorem normal_cut (whole : Text) : (cut whole).Normal :=
  normal_normalized (looksLikeHost_cutHost _) _ _

theorem normalized_of_normal (h : r.Normal) : normalized r.host r.path = (r.host, r.path) := by
  unfold normalized
  rw [if_neg h.current]
  exact if_neg fun hnot => hnot.2 (h.official hnot.1)

/-! ## Reading what was written -/

namespace Admissible

theorem not_mem_host (h : r.Admissible) (hword : isHostWord x = false)
    (hdot : x ≠ CodePoint.ofChar '.') (hcolon : x ≠ CodePoint.ofChar ':')
    (hfeed : x ≠ CodePoint.ofChar '\n') : x ∉ r.host :=
  Text.not_mem_of_isLineOf (fun _ => not_mem_of_isHost hword hdot hcolon) hfeed h.host

theorem not_mem_path (h : r.Admissible) (hx : ∀ s : PathState, s.step x = none)
    (hslash : x ≠ CodePoint.ofChar '/') (hfeed : x ≠ CodePoint.ofChar '\n') : x ∉ r.path := by
  intro hmem
  obtain ⟨p, hp, hxp⟩ := Text.exists_mem_pieces hmem hslash
  exact Text.not_mem_of_isLineOf (fun _ => PathState.not_mem_of_accepts hx) hfeed (h.path p hp) hxp

theorem not_mem_tag (h : r.Admissible) (hx : isTagWord x = false)
    (hfeed : x ≠ CodePoint.ofChar '\n') : ∀ tag ∈ r.tag, x ∉ tag := by
  intro tag htag
  exact Text.not_mem_of_isLineOf (fun _ => not_mem_of_isTag hx) hfeed (h.tag tag htag)

end Admissible

theorem not_mem_suffix {mark : CodePoint} {part : Option Text} (hmark : x ≠ mark)
    (hpart : ∀ t ∈ part, x ∉ t) : x ∉ suffix mark part := by
  cases part with
  | none => exact List.not_mem_nil
  | some t =>
      rw [suffix, List.mem_cons, not_or]
      exact ⟨hmark, hpart t rfl⟩

theorem cutDigest_shown (h : CodePoint.ofChar '@' ∉ r.name ++ suffix ':' r.tag) :
    cutDigest r.shown = (r.name ++ suffix ':' r.tag, r.digest) := by
  unfold cutDigest shown
  cases r.digest with
  | none =>
      rw [suffix, List.append_nil, Text.cutFirst?_of_not_mem h]
  | some digest =>
      rw [suffix, Text.cutFirst?_append h]

/-- The last colon of a name without a tag, if it has any, is that of a port, and behind it
stands the slash of the path. -/
theorem cutTag_name (hpath : CodePoint.ofChar ':' ∉ r.path) : cutTag r.name = (r.name, none) := by
  unfold cutTag
  cases hcut : r.name.cutLast? (CodePoint.ofChar ':') with
  | none => rfl
  | some parts =>
      obtain ⟨before, after⟩ := parts
      obtain ⟨hname, hafter⟩ := Text.cutLast?_eq_some_iff.mp hcut
      refine if_pos ?_
      rcases List.append_eq_append_iff.mp hname with ⟨between, -, hbehind⟩ | ⟨between, -, hbehind⟩
      · -- Behind the slash, the colon would be one of the path.
        cases between with
        | nil => cases hbehind
        | cons c between =>
            rw [List.cons_append, List.cons.injEq] at hbehind
            exact absurd (by simp [hbehind.2]) hpath
      · cases between with
        | nil => cases hbehind
        | cons c between =>
            rw [List.cons_append, List.cons.injEq] at hbehind
            simp [hbehind.2]

theorem cutTag_shown (hpath : CodePoint.ofChar ':' ∉ r.path)
    (hcolon : ∀ tag ∈ r.tag, CodePoint.ofChar ':' ∉ tag)
    (hslash : ∀ tag ∈ r.tag, CodePoint.ofChar '/' ∉ tag) :
    cutTag (r.name ++ suffix ':' r.tag) = (r.name, r.tag) := by
  cases htag : r.tag with
  | none =>
      rw [suffix, List.append_nil, cutTag_name hpath]
  | some tag =>
      unfold cutTag
      rw [suffix, Text.cutLast?_append _ (hcolon tag htag)]
      exact if_neg (hslash tag htag)

theorem cutHost_name (hhost : CodePoint.ofChar '/' ∉ r.host) (hlooks : looksLikeHost r.host) :
    cutHost r.name = (r.host, r.path) := by
  unfold cutHost name
  rw [Text.cutFirst?_append hhost]
  exact if_pos hlooks

theorem cut_shown (ha : r.Admissible) (hn : r.Normal) :
    repositoryIn r.shown = r.name ∧ cut r.shown = r := by
  have hpath : CodePoint.ofChar ':' ∉ r.path :=
    ha.not_mem_path (by intro s; cases s <;> rfl) (by decide) (by decide)
  have hat : CodePoint.ofChar '@' ∉ r.name ++ suffix ':' r.tag := by
    simp only [name, List.mem_append, List.mem_cons, not_or]
    exact ⟨⟨ha.not_mem_host (by decide) (by decide) (by decide) (by decide), by decide,
      ha.not_mem_path (by intro s; cases s <;> rfl) (by decide) (by decide)⟩,
      not_mem_suffix (by decide) (ha.not_mem_tag (by decide) (by decide))⟩
  have hdigest := cutDigest_shown hat
  have htag : cutTag (r.name ++ suffix ':' r.tag) = (r.name, r.tag) :=
    cutTag_shown hpath (ha.not_mem_tag (by decide) (by decide))
      (ha.not_mem_tag (by decide) (by decide))
  have hhost : cutHost r.name = (r.host, r.path) :=
    cutHost_name (ha.not_mem_host (by decide) (by decide) (by decide) (by decide)) hn.host
  have hname : repositoryIn r.shown = r.name := by rw [repositoryIn, hdigest, htag]
  refine ⟨hname, ?_⟩
  simp only [cut, hname, hhost, hdigest, htag, normalized_of_normal hn]

/-- A bare digest is free of what is no small hexadecimal digit. -/
theorem not_isBareDigest_of_mem (hx : x.isLowerHex = false) (hfeed : x ≠ CodePoint.ofChar '\n')
    (hmem : x ∈ t) : ¬ t.isLineOf isBareDigest := by
  intro hbare
  refine Text.not_mem_of_isLineOf (fun s hs hxs => ?_) hfeed hbare hmem
  obtain ⟨hall, -⟩ := Bool.and_eq_true_iff.mp hs
  rw [List.all_eq_true.mp hall x hxs] at hx
  cases hx

/-- A reference in full has a slash, which no bare digest has. -/
theorem not_isBareDigest_shown (r : Reference) : ¬ r.shown.isLineOf isBareDigest :=
  not_isBareDigest_of_mem (x := '/') (by decide) (by decide) (by simp [shown, name])

theorem parse_shown (ha : r.Admissible) (hn : r.Normal) : parse r.shown = .ok r := by
  obtain ⟨hname, hcut⟩ := cut_shown ha hn
  refine parse_eq_ok_iff.mpr ⟨?_, not_isBareDigest_shown r, ?_, hcut, ha⟩
  · simp [shown, name]
  · rw [hname]
    simp [name]

theorem parse_shown_of_parse (h : parse t = .ok r) : parse r.shown = .ok r := by
  obtain ⟨-, -, -, rfl, ha⟩ := parse_eq_ok_iff.mp h
  exact parse_shown ha (normal_cut t)

/-! ## References given by their parts -/

theorem slash_mem_joined {components : List Text} (h : 2 ≤ components.length) :
    CodePoint.ofChar '/' ∈ Text.joined "/" components := by
  match components, h with
  | a :: b :: rest, _ =>
      rw [Text.joined, List.intercalate_cons_cons, List.mem_append, List.mem_append]
      exact .inl (.inr List.mem_cons_self)

theorem admissible_of_components {components : List Text} (hne : components ≠ [])
    (hpath : r.path = Text.joined "/" components)
    (hcomponents : ∀ c ∈ components, c.isLineOf isPathComponent) (hhost : r.host.isLineOf isHost)
    (hlength : r.name.length ≤ maxNameLength) (htag : ∀ tag ∈ r.tag, tag.isLineOf isTag)
    (hdigest : ∀ digest ∈ r.digest, digest.isLineOf isDigest) : r.Admissible where
  host := hhost
  path := by
    have hfree : ∀ c ∈ components, CodePoint.ofChar '/' ∉ c := fun c hc =>
      Text.not_mem_of_isLineOf
        (fun _ => PathState.not_mem_of_accepts (by intro s; cases s <;> rfl)) (by decide)
        (hcomponents c hc)
    have hpieces : r.path.pieces '/' = components := by
      rw [hpath]
      exact Text.pieces_joined hne hfree
    rwa [hpieces]
  length := by
    simp only [name, List.length_append, List.length_cons] at hlength
    omega
  tag := htag
  digest := hdigest

/-- Writing what was read and reading it again changes nothing, so no two references that are
read are written alike; and what is made of parts in their grammars, on a host that looks like
one and is not the former default one, and with two components at least on the default host, is
read as it is written. -/
theorem spelling_roundtrip :
    (∀ t r, parse t = .ok r → parse r.shown = .ok r) ∧
    (∀ t t' r r', parse t = .ok r → parse t' = .ok r' → r.shown = r'.shown → r = r') ∧
    ∀ (r : Reference) (components : List Text), r.path = Text.joined "/" components →
      components ≠ [] → (∀ c ∈ components, c.isLineOf isPathComponent) →
      r.host.isLineOf isHost →
      (CodePoint.ofChar '.' ∈ r.host ∨ CodePoint.ofChar ':' ∈ r.host ∨ r.host = "localhost") →
      r.host ≠ formerDefaultHost → (r.host = defaultHost → 2 ≤ components.length) →
      r.name.length ≤ maxNameLength → (∀ tag ∈ r.tag, tag.isLineOf isTag) →
      (∀ digest ∈ r.digest, digest.isLineOf isDigest) → parse r.shown = .ok r := by
  refine ⟨fun t r => parse_shown_of_parse, ?_, ?_⟩
  · intro t t' r r' h h' hshown
    have hr := parse_shown_of_parse h
    rw [hshown, parse_shown_of_parse h', Except.ok.injEq] at hr
    exact hr.symm
  · intro r components hpath hne hcomponents hhost hlooks hcurrent htwo hlength htag hdigest
    refine parse_shown
      (admissible_of_components hne hpath hcomponents hhost hlength htag hdigest) ⟨?_, hcurrent, ?_⟩
    · simpa [looksLikeHost, or_assoc] using hlooks
    · intro hdefault
      rw [hpath]
      exact slash_mem_joined (htwo hdefault)

/-- A port, a tag and a digest beside each other, and a name that gets what it lacks. -/
theorem spelling_roundtrip_ports :
    parse "docker.io/library/busybox:1.36" =
        .ok ⟨"docker.io", "library/busybox", some "1.36", none⟩ ∧
      parse "localhost:5000/a/b__c:v.1@sha256:00112233445566778899aabbccddeeff" =
        .ok ⟨"localhost:5000", "a/b__c", some "v.1",
          some "sha256:00112233445566778899aabbccddeeff"⟩ := by
  constructor
  · exact spelling_roundtrip.1 "busybox:1.36" _ rfl
  · exact spelling_roundtrip.2.2
      ⟨"localhost:5000", "a/b__c", some "v.1", some "sha256:00112233445566778899aabbccddeeff"⟩
      ["a", "b__c"] rfl (by decide) (by decide) (by decide) (by decide) (by decide) (by decide)
      (by decide) (by decide) (by decide)

end Reference

end ImageTrust
