/-
# Respelling — the names of the default registry

An image of the default registry may be asked for with more or less in front of its name: with
the registry, under its present or its former name, with the `library` that names of one
component belong to, or with nothing.  And a name alone asks for the default tag.

A front has neither `@` nor colon, so it stays in front of what digest and tag are cut from
(`repositoryIn_prepend`).  What is left to compare is how host and path are told apart with the
front and without it (`repository`); after that the same checks are made of the same parts.

    Respelled t' t    gives    parse t' = parse t,    if t is a reference at all

From that it follows for any number of respellings, one after the other and in both directions
(`SameImage`), that they are one address, under one section of every policy, and that the same
signatures match (`spellings_are_one_image`).
-/
import ImageTrust.Proofs.Grammar
import ImageTrust.Proofs.Matching

namespace ImageTrust

namespace Reference

variable {r : Reference} {t front first rest name path : Text}

/-! ## Host and path -/

/-- Host and path of a name, in the one spelling of each repository. -/
def repository (name : Text) : Text × Text := normalized (cutHost name).1 (cutHost name).2

theorem cut_eq_repository (t : Text) :
    cut t = ⟨(repository (repositoryIn t)).1, (repository (repositoryIn t)).2,
      (cutTag (cutDigest t).1).2, (cutDigest t).2⟩ := rfl

theorem repository_of_host (hslash : CodePoint.ofChar '/' ∉ first) (hlooks : looksLikeHost first)
    (rest : Text) : repository (first ++ CodePoint.ofChar '/' :: rest) = normalized first rest := by
  simp only [repository, cutHost, Text.cutFirst?_append hslash, if_pos hlooks]

theorem repository_of_path (hslash : CodePoint.ofChar '/' ∉ first)
    (hlooks : ¬ looksLikeHost first) (rest : Text) :
    repository (first ++ CodePoint.ofChar '/' :: rest) =
      normalized defaultHost (first ++ CodePoint.ofChar '/' :: rest) := by
  simp only [repository, cutHost, Text.cutFirst?_append hslash, if_neg hlooks]

theorem repository_of_bare (hslash : CodePoint.ofChar '/' ∉ name) :
    repository name = normalized defaultHost name := by
  simp only [repository, cutHost, Text.cutFirst?_of_not_mem hslash]

/-- The former name of the default registry is its name. -/
theorem normalized_former (path : Text) :
    normalized formerDefaultHost path = normalized defaultHost path := rfl

theorem normalized_official (hslash : CodePoint.ofChar '/' ∉ path) :
    normalized defaultHost path =
      (defaultHost, officialPath ++ CodePoint.ofChar '/' :: path) := if_pos ⟨rfl, hslash⟩

theorem normalized_of_slash (hslash : CodePoint.ofChar '/' ∈ path) :
    normalized defaultHost path = (defaultHost, path) := if_neg fun hno => hno.2 hslash

/-! ## What is cut off behind a front -/

theorem cutDigest_prepend (hat : CodePoint.ofChar '@' ∉ front) (t : Text) :
    cutDigest (front ++ t) = (front ++ (cutDigest t).1, (cutDigest t).2) := by
  simp only [cutDigest, Text.cutFirst?_prepend hat]
  cases t.cutFirst? '@' with
  | none => rfl
  | some both => rfl

theorem cutTag_prepend (hcolon : CodePoint.ofChar ':' ∉ front) (t : Text) :
    cutTag (front ++ t) = (front ++ (cutTag t).1, (cutTag t).2) := by
  simp only [cutTag, Text.cutLast?_prepend hcolon]
  cases t.cutLast? ':' with
  | none => rfl
  | some both =>
      simp only [Option.map_some]
      split <;> rfl

theorem repositoryIn_prepend (hat : CodePoint.ofChar '@' ∉ front)
    (hcolon : CodePoint.ofChar ':' ∉ front) (t : Text) :
    repositoryIn (front ++ t) = front ++ repositoryIn t := by
  simp only [repositoryIn, cutDigest_prepend hat, cutTag_prepend hcolon]

/-- A front that makes no difference for the repository makes none for the reference. -/
theorem parse_prepend (hat : CodePoint.ofChar '@' ∉ front) (hcolon : CodePoint.ofChar ':' ∉ front)
    (hslash : CodePoint.ofChar '/' ∈ front)
    (hsame : repository (front ++ repositoryIn t) = repository (repositoryIn t))
    (h : parse t = .ok r) : parse (front ++ t) = .ok r := by
  obtain ⟨-, -, hname, hcut, hadmissible⟩ := parse_eq_ok_iff.mp h
  have hfront : front ++ t ≠ [] := by
    intro hnil
    rw [(List.append_eq_nil_iff.mp hnil).1] at hslash
    cases hslash
  have hbare : ¬ (front ++ t).isLineOf isBareDigest :=
    not_isBareDigest_of_mem (x := '/') (by decide) (by decide) (List.mem_append_left t hslash)
  refine parse_eq_ok_iff.mpr ⟨hfront, hbare, ?_, ?_, hadmissible⟩
  · rw [repositoryIn_prepend hat hcolon]
    exact List.append_ne_nil_of_right_ne_nil front hname
  · rw [← hcut, cut_eq_repository, cut_eq_repository, repositoryIn_prepend hat hcolon, hsame,
      cutDigest_prepend hat, cutTag_prepend hcolon]

/-! ## What is left in front of tag and digest -/

theorem repositoryIn_prefix_whole (t : Text) : repositoryIn t <+: t := by
  have hdigest : (cutDigest t).1 <+: t := by
    simp only [cutDigest]
    split
    · exact List.prefix_rfl
    · obtain ⟨hcut, -⟩ := Text.cutFirst?_eq_some_iff.mp ‹_›
      exact ⟨_, hcut.symm⟩
  have htag : ∀ s, (cutTag s).1 <+: s := by
    intro s
    simp only [cutTag]
    split
    · exact List.prefix_rfl
    · obtain ⟨hcut, -⟩ := Text.cutLast?_eq_some_iff.mp ‹_›
      split
      · exact List.prefix_rfl
      · exact ⟨_, hcut.symm⟩
  exact (htag _).trans hdigest

theorem Digest.slash_not_mem (h : Digest t) : CodePoint.ofChar '/' ∉ t := by
  obtain ⟨algorithm, hex, rfl, halgorithm, -, hhex⟩ := h
  simp only [List.mem_append, List.mem_cons, not_or]
  refine ⟨not_mem_of_algorithm (by decide) (by decide) halgorithm, by decide, fun hx => ?_⟩
  exact absurd (hhex _ hx) (by decide)

/-- Neither a tag nor a digest has a slash, so those of a reference are in the repository. -/
theorem slash_mem_repositoryIn (h : parse t = .ok r) (hslash : CodePoint.ofChar '/' ∈ t) :
    CodePoint.ofChar '/' ∈ repositoryIn t := by
  obtain ⟨-, -, -, rfl, ha⟩ := parse_eq_ok_iff.mp h
  rcases (mem_cutDigest (by decide)).mp hslash with hrest | ⟨digest, hdigest, hx⟩
  · rcases (mem_cutTag (by decide)).mp hrest with hname | ⟨tag, htag, hx⟩
    · exact hname
    · exact absurd hx (ha.not_mem_tag (by decide) (by decide) tag htag)
  · refine absurd hx (Text.not_mem_of_isLineOf (fun s hs => ?_) (by decide)
      (ha.digest digest hdigest))
    exact (digest_of_isDigest hs).slash_not_mem

theorem repositoryIn_of_first (h : parse (first ++ CodePoint.ofChar '/' :: rest) = .ok r)
    (hfirst : CodePoint.ofChar '/' ∉ first) :
    ∃ more, repositoryIn (first ++ CodePoint.ofChar '/' :: rest) =
      first ++ CodePoint.ofChar '/' :: more := by
  obtain ⟨before, more, hname, hbefore⟩ :=
    List.eq_append_cons_of_mem (slash_mem_repositoryIn h (by simp))
  obtain ⟨tail, htail⟩ := repositoryIn_prefix_whole (first ++ CodePoint.ofChar '/' :: rest)
  rw [hname] at htail ⊢
  -- Both are what stands before the first slash of the text.
  have hcut : some (before, more ++ tail) = some (first, rest) := by
    rw [← Text.cutFirst?_append hbefore, ← Text.cutFirst?_append hfirst, ← htail]
    simp
  obtain ⟨rfl, -⟩ := Prod.mk.inj (Option.some.inj hcut)
  exact ⟨more, rfl⟩

/-! ## Fronts -/

/-- What may stand before a name of one component. -/
def officialFronts : List Text :=
  ["library/", "docker.io/", "docker.io/library/", "index.docker.io/", "index.docker.io/library/"]

/-- What may stand before a name of more components, if it has no host of its own. -/
def registryFronts : List Text := ["docker.io/", "index.docker.io/"]

/-- A name of the default registry, and the slash after it. -/
theorem eq_of_mem_registryFronts : ∀ front ∈ registryFronts,
    front = defaultHost ++ [CodePoint.ofChar '/'] ∨
      front = formerDefaultHost ++ [CodePoint.ofChar '/'] := by decide

/-- The registry, the path that its names of one component belong to, or both. -/
theorem eq_of_mem_officialFronts : ∀ front ∈ officialFronts,
    front = officialPath ++ [CodePoint.ofChar '/'] ∨ front ∈ registryFronts ∨
      ∃ registry ∈ registryFronts, front = registry ++ (officialPath ++ [CodePoint.ofChar '/']) := by
  decide

theorem repository_registry (hfront : front ∈ registryFronts) (path : Text) :
    repository (front ++ path) = normalized defaultHost path := by
  rcases eq_of_mem_registryFronts front hfront with rfl | rfl
  · rw [List.append_assoc, List.singleton_append]
    exact repository_of_host (by decide) (by decide) path
  · rw [List.append_assoc, List.singleton_append, ← normalized_former]
    exact repository_of_host (by decide) (by decide) path

theorem repository_official (hfront : front ∈ officialFronts)
    (hname : CodePoint.ofChar '/' ∉ name) : repository (front ++ name) = repository name := by
  have hlibrary : normalized defaultHost (officialPath ++ CodePoint.ofChar '/' :: name) =
      repository name := by
    rw [repository_of_bare hname, normalized_official hname, normalized_of_slash (by simp)]
  rcases eq_of_mem_officialFronts front hfront with rfl | hregistry | ⟨registry, hregistry, rfl⟩
  · rw [List.append_assoc, List.singleton_append,
      repository_of_path (by decide) (by decide) name, hlibrary]
  · rw [repository_registry hregistry name, repository_of_bare hname]
  · rw [List.append_assoc, List.append_assoc, List.singleton_append,
      repository_registry hregistry, hlibrary]

theorem signs_of_mem_officialFronts : ∀ front ∈ officialFronts,
    CodePoint.ofChar '@' ∉ front ∧ CodePoint.ofChar ':' ∉ front ∧ CodePoint.ofChar '/' ∈ front := by
  decide

theorem registryFronts_subset : registryFronts ⊆ officialFronts := by decide

theorem parse_official (hfront : front ∈ officialFronts) (hslash : CodePoint.ofChar '/' ∉ t)
    (h : parse t = .ok r) : parse (front ++ t) = .ok r := by
  obtain ⟨hat, hcolon, hends⟩ := signs_of_mem_officialFronts front hfront
  refine parse_prepend hat hcolon hends (repository_official hfront fun hmem => ?_) h
  exact hslash ((repositoryIn_prefix_whole t).subset hmem)

theorem parse_registry (hfront : front ∈ registryFronts) (hfirst : CodePoint.ofChar '/' ∉ first)
    (hlooks : ¬ looksLikeHost first) (h : parse (first ++ CodePoint.ofChar '/' :: rest) = .ok r) :
    parse (front ++ (first ++ CodePoint.ofChar '/' :: rest)) = .ok r := by
  obtain ⟨hat, hcolon, hends⟩ :=
    signs_of_mem_officialFronts front (registryFronts_subset hfront)
  refine parse_prepend hat hcolon hends ?_ h
  obtain ⟨more, hname⟩ := repositoryIn_of_first h hfirst
  rw [hname, repository_registry hfront, repository_of_path hfirst hlooks]

/-! ## The default tag -/

theorem at_not_mem_of_cutDigest (h : (cutDigest t).2 = none) : CodePoint.ofChar '@' ∉ t := by
  intro hat
  obtain ⟨before, after, rfl, hbefore⟩ := List.eq_append_cons_of_mem hat
  rw [cutDigest, Text.cutFirst?_append hbefore] at h
  cases h

theorem cutTag_of_none (h : (cutTag t).2 = none) : cutTag t = (t, none) := by
  simp only [cutTag] at h ⊢
  split at h
  · rfl
  · split at h
    · rw [if_pos ‹_›]
    · cases h

/-- A name alone with the default tag behind it is that name with the default tag. -/
theorem parse_default_tag (h : parse t = .ok r) (honly : r.isNameOnly) :
    parse (t ++ ":latest") = .ok { r with tag := some Address.defaultTag } := by
  obtain ⟨hne, -, hname, rfl, hadmissible⟩ := parse_eq_ok_iff.mp h
  obtain ⟨htag, hdigest⟩ := isNameOnly_eq_true_iff.mp honly
  have hat : CodePoint.ofChar '@' ∉ t := at_not_mem_of_cutDigest hdigest
  have hcut : cutDigest t = (t, none) := by rw [cutDigest, Text.cutFirst?_of_not_mem hat]
  have hrest : cutTag t = (t, none) := by
    refine cutTag_of_none ?_
    simpa only [cut, hcut] using htag
  have hcut' : cutDigest (t ++ ":latest") = (t ++ ":latest", none) := by
    have hat' : CodePoint.ofChar '@' ∉ t ++ (":latest" : Text) := by
      rw [List.mem_append, not_or]
      exact ⟨hat, by decide⟩
    rw [cutDigest, Text.cutFirst?_of_not_mem hat']
  have hrest' : cutTag (t ++ ":latest") = (t, some Address.defaultTag) := by
    have hlatest : CodePoint.ofChar ':' ∉ Address.defaultTag := by decide
    have hlast : Text.cutLast? ':' (t ++ ":latest") = some (t, Address.defaultTag) :=
      Text.cutLast?_append t hlatest
    simp only [cutTag, hlast]
    exact if_neg (by decide)
  have hsame : repositoryIn (t ++ ":latest") = repositoryIn t := by
    rw [repositoryIn, repositoryIn, hcut, hcut', hrest, hrest']
  refine parse_eq_ok_iff.mpr ⟨?_, ?_, hsame ▸ hname, ?_, ?_⟩
  · exact List.append_ne_nil_of_left_ne_nil hne _
  · exact not_isBareDigest_of_mem (x := ':') (by decide) (by decide)
      (List.mem_append_right t (by decide))
  · rw [cut_eq_repository, cut_eq_repository, hsame, hcut', hrest', hcut]
  · refine ⟨hadmissible.host, hadmissible.path, hadmissible.length, ?_, hadmissible.digest⟩
    intro tag htag
    obtain rfl : Address.defaultTag = tag := Option.some.inj htag
    decide

/-! ## One image -/

/-- The first text has one of the fronts before the second, which is a reference of the default
registry. -/
inductive Respelled : Text → Text → Prop
  | official {t front : Text} {r : Reference} (read : parse t = .ok r)
      (component : CodePoint.ofChar '/' ∉ t) (allowed : front ∈ officialFronts) :
      Respelled (front ++ t) t
  | registry {first rest front : Text} {r : Reference}
      (read : parse (first ++ CodePoint.ofChar '/' :: rest) = .ok r)
      (component : CodePoint.ofChar '/' ∉ first) (path : ¬ looksLikeHost first)
      (allowed : front ∈ registryFronts) :
      Respelled (front ++ (first ++ CodePoint.ofChar '/' :: rest))
        (first ++ CodePoint.ofChar '/' :: rest)

/-- The first text is a respelling of the second, or the second is a name alone and the first
that name with the default tag. -/
inductive AskedAlike : Text → Text → Prop
  | respelled {t' t : Text} (same : Respelled t' t) : AskedAlike t' t
  | defaultTag {t : Text} {r : Reference} (read : parse t = .ok r) (only : r.isNameOnly) :
      AskedAlike (t ++ ":latest") t

/-- Any number of respellings, one after the other, each of them there or back. -/
def SameReference : Text → Text → Prop := Relation.EqvGen Respelled

/-- Any number of respellings and of default tags, each of them there or back. -/
def SameImage : Text → Text → Prop := Relation.EqvGen AskedAlike

/-- What a single step leaves alone, any number of steps there and back does. -/
theorem apply_eq_of_eqvGen {α : Type} (f : Text → α) {step : Text → Text → Prop} {t' t : Text}
    (hstep : ∀ t' t, step t' t → f t' = f t) (h : Relation.EqvGen step t' t) : f t' = f t := by
  induction h with
  | rel t' t one => exact hstep t' t one
  | refl t => rfl
  | symm t' t _ ih => exact ih.symm
  | trans t'' t' t _ _ ih ih' => exact ih.trans ih'

variable {t' : Text}

theorem Respelled.parse_eq (h : Respelled t' t) : parse t' = parse t := by
  cases h with
  | official read component allowed => rw [read, parse_official allowed component read]
  | registry read component path allowed => rw [read, parse_registry allowed component path read]

theorem SameReference.parse_eq (h : SameReference t' t) : parse t' = parse t :=
  apply_eq_of_eqvGen parse (fun _ _ step => step.parse_eq) h

end Reference

namespace Address

open Reference

variable {r : Reference} {t t' : Text}

theorem parse_of_read (h : Reference.parse t = .ok r) :
    parse t = ofReference (some (if r.isNameOnly then { r with tag := some defaultTag } else r)) := by
  rw [parse, h]

theorem parse_default_tag (h : Reference.parse t = .ok r) (honly : r.isNameOnly) :
    parse t = .ok ⟨some { r with tag := some defaultTag }⟩ ∧
      parse (t ++ ":latest") = .ok ⟨some { r with tag := some defaultTag }⟩ := by
  obtain ⟨-, hdigest⟩ := isNameOnly_eq_true_iff.mp honly
  have hone : ofReference (some { r with tag := some defaultTag }) =
      .ok ⟨some { r with tag := some defaultTag }⟩ :=
    ofReference_of_one (by simp [hdigest])
  constructor
  · rw [parse_of_read h, if_pos honly, hone]
  · rw [parse_of_read (Reference.parse_default_tag h honly), if_neg (by simp [isNameOnly]), hone]

end Address

namespace Reference

variable {t t' : Text}

theorem AskedAlike.parse_eq (h : AskedAlike t' t) : Address.parse t' = Address.parse t := by
  cases h with
  | respelled same => rw [Address.parse, Address.parse, same.parse_eq]
  | defaultTag read only =>
      obtain ⟨hname, htagged⟩ := Address.parse_default_tag read only
      rw [hname, htagged]

theorem SameImage.parse_eq (h : SameImage t' t) : Address.parse t' = Address.parse t :=
  apply_eq_of_eqvGen Address.parse (fun _ _ step => step.parse_eq) h

/-- All spellings of an image of the default registry are one: whatever is a reference, is the
same reference with one of the fronts before it, and a name alone is the same address as that
name with the default tag.  So however often an image is respelled, there or back, the same
section of each policy decides on it, and by each rule it matches the same signed texts, however
these are respelled themselves. -/
theorem spellings_are_one_image {σ : Type} :
    (∀ t r, parse t = .ok r → CodePoint.ofChar '/' ∉ t →
      ∀ front ∈ officialFronts, parse (front ++ t) = .ok r) ∧
    (∀ first rest r, parse (first ++ CodePoint.ofChar '/' :: rest) = .ok r →
      CodePoint.ofChar '/' ∉ first → CodePoint.ofChar '.' ∉ first → CodePoint.ofChar ':' ∉ first →
      first ≠ "localhost" → ∀ front ∈ registryFronts,
        parse (front ++ (first ++ CodePoint.ofChar '/' :: rest)) = .ok r) ∧
    (∀ t r, parse t = .ok r → r.isNameOnly →
      Address.parse t = .ok ⟨some { r with tag := some Address.defaultTag }⟩ ∧
      Address.parse (t ++ ":latest") = .ok ⟨some { r with tag := some Address.defaultTag }⟩) ∧
    ∀ t t', SameImage t' t → Address.parse t' = Address.parse t ∧
      ∀ a a', Address.parse t = .ok a → Address.parse t' = .ok a' →
        (∀ c : Context σ, c.sectionOf a'.toImageReference = c.sectionOf a.toImageReference) ∧
        ∀ (rule : MatchRule) (s s' : Text), SameReference s' s →
          rule.accepts a'.reference s' = rule.accepts a.reference s := by
  refine ⟨fun t r h hslash front hfront => parse_official hfront hslash h, ?_,
    fun t r => Address.parse_default_tag, ?_⟩
  · intro first rest r h hslash hdot hcolon hlocal front hfront
    refine parse_registry hfront hslash ?_ h
    simp [looksLikeHost, hdot, hcolon, hlocal]
  · intro t t' hsame
    refine ⟨hsame.parse_eq, fun a a' ha ha' => ?_⟩
    obtain rfl : a' = a := by
      rw [hsame.parse_eq, ha] at ha'
      exact (Except.ok.inj ha').symm
    refine ⟨fun c => rfl, fun rule s s' hsigned => ?_⟩
    simp only [MatchRule.accepts, hsigned.parse_eq]

/-- The whole name of an image with its tag, and its short name: a signature for the same tag
under another spelling is one for both, by the strictest rule. -/
theorem spellings_are_one_image_busybox :
    parse "index.docker.io/library/busybox:latest" =
        .ok ⟨"docker.io", "library/busybox", some "latest", none⟩ ∧
      parse "docker.io/team/app:1" = .ok ⟨"docker.io", "team/app", some "1", none⟩ ∧
      ∃ a a', Address.parse "busybox" = .ok a ∧
        Address.parse "index.docker.io/library/busybox:latest" = .ok a' ∧
        MatchRule.exact.accepts a.reference "docker.io/busybox:latest" ∧
        MatchRule.exact.accepts a'.reference "busybox:latest" := by
  obtain ⟨hofficial, hregistry, htagged, hone⟩ := spellings_are_one_image (σ := Unit)
  have hname : parse "busybox" = .ok ⟨"docker.io", "library/busybox", none, none⟩ := rfl
  have hlatest : parse "busybox:latest" =
      .ok ⟨"docker.io", "library/busybox", some "latest", none⟩ := rfl
  have hfronts : ∀ front ∈ officialFronts, Respelled (front ++ "busybox:latest") "busybox:latest" :=
    fun front hfront => .official hlatest (by decide) hfront
  have hsigned : SameReference "busybox:latest" "docker.io/busybox:latest" :=
    .symm _ _ (.rel _ _ (hfronts "docker.io/" (by decide)))
  have hwhole : AskedAlike "index.docker.io/library/busybox:latest" "busybox:latest" :=
    .respelled (hfronts "index.docker.io/library/" (by decide))
  have hshort : AskedAlike "busybox:latest" "busybox" := .defaultTag hname rfl
  have himage : SameImage "index.docker.io/library/busybox:latest" "busybox" :=
    Relation.EqvGen.trans _ _ _ (.rel _ _ hwhole) (.rel _ _ hshort)
  obtain ⟨hasked, -⟩ := htagged _ _ hname rfl
  obtain ⟨hsame, hmatches⟩ := hone _ _ himage
  obtain ⟨-, haccepts⟩ := hmatches _ _ hasked (hsame.trans hasked)
  refine ⟨hofficial _ _ hlatest (by decide) "index.docker.io/library/" (by decide),
    hregistry "team" "app:1" ⟨"docker.io", "team/app", some "1", none⟩ rfl (by decide) (by decide)
      (by decide) (by decide) "docker.io/" (by decide),
    _, _, hasked, hsame.trans hasked, by decide, ?_⟩
  rw [haccepts _ _ _ hsigned]
  decide

end Reference

end ImageTrust
