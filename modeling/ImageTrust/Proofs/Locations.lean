/-
# Locations — where a store keeps the signatures of a manifest

A location is put together from a path, a digest and a number, with a sign in front of each part
of it.  Every sign is the first of its kind behind the one before: a path that was read has no
`@`, the name of an algorithm no `=`, and the digits of a digest no slash.  So a location is
taken apart in one way only (`Lookaside.location_inj`), and locations of other paths, digests
or numbers are other locations.

    base / path @ algorithm = digits / signature- number

The host of the registry is not in it: one path on two registries has one location.

What a store lists is then up to the locations of its own path and manifest alone.  A server may
hold anything elsewhere, and the listing is the same (`Lookaside.locations_apart`).
-/
import ImageTrust.Proofs.Digits
import ImageTrust.Proofs.Grammar
import ImageTrust.Proofs.Requests

namespace ImageTrust

/-- A text is taken apart at the first occurrence of a sign in one way only. -/
theorem Text.append_cons_inj {c : CodePoint} {before before' after after' : Text}
    (h : c ∉ before) (h' : c ∉ before') :
    before ++ c :: after = before' ++ c :: after' ↔ before = before' ∧ after = after' := by
  constructor
  · intro hsame
    have hcut := cutFirst?_append h after
    rw [hsame, cutFirst?_append h'] at hcut
    obtain ⟨hbefore, hafter⟩ := Prod.mk.inj (Option.some.inj hcut)
    exact ⟨hbefore.symm, hafter.symm⟩
  · rintro ⟨rfl, rfl⟩
    rfl

namespace Lookaside

open Reference Text

variable {σ : Type} {store : Lookaside σ} {r r' : Reference} {t t' d d' baseUrl : Text}

/-! ## Parts of a digest -/

/-- The digest has these parts, and neither of them has the sign that ends it in a location. -/
structure Parted (d : Text) (parts : Text × Text) : Prop where
  digest_eq : d = parts.1 ++ CodePoint.ofChar ':' :: parts.2
  parts_eq : digestParts d = .ok parts
  equals_not_mem : CodePoint.ofChar '=' ∉ parts.1
  slash_not_mem : CodePoint.ofChar '/' ∉ parts.2

/-- A digest of the grammar has an algorithm and digits, with a line feed behind them or not. -/
theorem exists_parted (hd : MayBreak Digest d) : ∃ parts, Parted d parts := by
  have hline : ∃ algorithm hex, d = algorithm ++ CodePoint.ofChar ':' :: hex ∧
      Chain AlgorithmWord (IsSign isAlgorithmSeparator) algorithm ∧ hex ≠ [] ∧
      CodePoint.ofChar '/' ∉ hex := by
    have hslash : ∀ hex : Text, (∀ c ∈ hex, c.isHex) → CodePoint.ofChar '/' ∉ hex :=
      fun hex hhex hmem => absurd (hhex _ hmem) (by decide)
    rcases hd with ⟨algorithm, hex, rfl, halgorithm, hlength, hhex⟩ |
      ⟨_, ⟨algorithm, hex, rfl, halgorithm, -, hhex⟩, rfl⟩
    · exact ⟨algorithm, hex, rfl, halgorithm, List.ne_nil_of_length_pos (by omega), hslash hex hhex⟩
    · refine ⟨algorithm, hex ++ [CodePoint.ofChar '\n'], by simp, halgorithm, by simp, ?_⟩
      rw [List.mem_append, List.mem_singleton, not_or]
      exact ⟨hslash hex hhex, by decide⟩
  obtain ⟨algorithm, hex, rfl, halgorithm, hhex, hslash⟩ := hline
  have hcolon : CodePoint.ofChar ':' ∉ algorithm :=
    not_mem_of_algorithm (by decide) (by decide) halgorithm
  refine ⟨(algorithm, hex), rfl, ?_, not_mem_of_algorithm (by decide) (by decide) halgorithm, hslash⟩
  have hname : algorithm ≠ [] := nonempty_of_algorithm halgorithm
  unfold digestParts
  rw [cutFirst?_append hcolon]
  exact if_neg fun hempty => hempty.elim hname hhex

/-! ## Locations -/

/-- The part of an address behind that of the store. -/
def location (path : Text) (parts : Text × Text) (index : Int) : Text :=
  path ++ CodePoint.ofChar '@' :: (parts.1 ++ CodePoint.ofChar '=' :: (parts.2 ++
    CodePoint.ofChar '/' :: (ofString "signature-" ++ integer (index + 1))))

theorem signatureUrl_eq_location {parts : Text × Text} (hparts : digestParts d = .ok parts)
    (baseUrl : Text) (r : Reference) (index : Int) :
    signatureUrl baseUrl r d index =
      .ok (baseUrl ++ CodePoint.ofChar '/' :: location r.path parts index) := by
  unfold signatureUrl
  rw [hparts]
  refine congrArg Except.ok ?_
  simp [sentence, location, ofString]

/-- A location tells the path, both parts of the digest, and the number. -/
theorem location_inj {path path' : Text} {parts parts' : Text × Text} {i i' : Int}
    (hpath : CodePoint.ofChar '@' ∉ path) (hpath' : CodePoint.ofChar '@' ∉ path')
    (hd : Parted d parts) (hd' : Parted d' parts') :
    location path parts i = location path' parts' i' ↔ path = path' ∧ d = d' ∧ i = i' := by
  have hdigests : parts.1 = parts'.1 ∧ parts.2 = parts'.2 ↔ d = d' := by
    constructor
    · rintro ⟨halgorithm, hhex⟩
      rw [hd.digest_eq, hd'.digest_eq, halgorithm, hhex]
    · intro hsame
      have hparts := hd.parts_eq
      rw [hsame, hd'.parts_eq] at hparts
      obtain rfl := Except.ok.inj hparts
      exact ⟨rfl, rfl⟩
  have hnumbers : ofString "signature-" ++ integer (i + 1) =
      ofString "signature-" ++ integer (i' + 1) ↔ i = i' := by
    constructor
    · intro hsame
      have hnumber := integer_injective (List.append_cancel_left hsame)
      omega
    · rintro rfl
      rfl
  unfold location
  rw [append_cons_inj hpath hpath', append_cons_inj hd.equals_not_mem hd'.equals_not_mem,
    append_cons_inj hd.slash_not_mem hd'.slash_not_mem, hnumbers, ← hdigests, and_assoc]

/-! ## Listings -/

/-- Requests for one address are made in the same way whatever is at others. -/
theorem fetch_congr {get : Text → Act σ Response} {url : Text} (hsame : get url = store.get url) :
    fetch { store with get } url = store.fetch url := by
  unfold fetch
  dsimp only
  rw [hsame]

/-- A listing is up to its own addresses. -/
theorem signaturesFrom_congr {get : Text → Act σ Response} {parts : Text × Text}
    (hparts : digestParts d = .ok parts)
    (hsame : ∀ i : Nat, get (addressOf store.baseUrl r parts i) =
      store.get (addressOf store.baseUrl r parts i)) (i fuel : Nat) :
    signaturesFrom { store with get } r d i fuel = store.signaturesFrom r d i fuel := by
  induction fuel generalizing i with
  | zero => rfl
  | succ fuel ih =>
      funext h
      rw [signaturesFrom_succ hparts, signaturesFrom_succ hparts, ih]
      dsimp only
      rw [fetch_congr (hsame i)]
      rfl

theorem signatures_congr {get : Text → Act σ Response} {parts : Text × Text}
    (hparts : digestParts d = .ok parts)
    (hsame : ∀ i : Nat, get (addressOf store.baseUrl r parts i) =
      store.get (addressOf store.baseUrl r parts i)) :
    signatures { store with get } r d = store.signatures r d := by
  unfold signatures
  dsimp only
  rw [signaturesFrom_congr hparts hsame]

/-- Two addresses of one store are the same just when the paths, the digests and the numbers are,
whatever the hosts.  So where a path or a digest is another one, what a server holds for the one is
no matter for a listing of the other. -/
theorem locations_apart (store : Lookaside σ) (hr : parse t = .ok r) (hr' : parse t' = .ok r')
    (hd : MayBreak Digest d) (hd' : MayBreak Digest d') :
    (∀ i i' : Int, ∃ url url', signatureUrl store.baseUrl r d i = .ok url ∧
        signatureUrl store.baseUrl r' d' i' = .ok url' ∧
        (url = url' ↔ r.path = r'.path ∧ d = d' ∧ i = i')) ∧
      (¬ (r.path = r'.path ∧ d = d') → ∀ get : Text → Act σ Response,
        (∀ url, (∀ i : Nat, signatureUrl store.baseUrl r' d' i ≠ .ok url) →
          get url = store.get url) →
        signatures { store with get } r d = store.signatures r d) := by
  obtain ⟨parts, hparts⟩ := exists_parted hd
  obtain ⟨parts', hparts'⟩ := exists_parted hd'
  have hpath := (admissible_of_parse hr).at_not_mem_path
  have hpath' := (admissible_of_parse hr').at_not_mem_path
  have haddresses : ∀ i i' : Int, ∃ url url', signatureUrl store.baseUrl r d i = .ok url ∧
      signatureUrl store.baseUrl r' d' i' = .ok url' ∧
      (url = url' ↔ r.path = r'.path ∧ d = d' ∧ i = i') := by
    intro i i'
    refine ⟨_, _, signatureUrl_eq_location hparts.parts_eq _ _ _,
      signatureUrl_eq_location hparts'.parts_eq _ _ _, ?_⟩
    rw [List.append_cancel_left_eq, List.cons.injEq, location_inj hpath hpath' hparts hparts']
    exact and_iff_right rfl
  refine ⟨haddresses, fun hother get hget => ?_⟩
  refine signatures_congr hparts.parts_eq fun i => hget _ fun i' hsame => hother ?_
  obtain ⟨url, url', hurl, hurl', hiff⟩ := haddresses i i'
  rw [signatureUrl_of_parts hparts.parts_eq] at hurl
  rw [hsame] at hurl'
  have hboth : url = url' := (Except.ok.inj hurl).symm.trans (Except.ok.inj hurl')
  obtain ⟨hpaths, hdigests, -⟩ := hiff.mp hboth
  exact ⟨hpaths, hdigests⟩

/-- One path on two registries has the same locations; under another algorithm the same digits are
in another place, and what is there is of no matter. -/
theorem locations_apart_hosts :
    ∃ (store : Lookaside (List Text)) (r r' : Reference),
      parse "a.b/c/d:1" = .ok r ∧ parse "e.f:5/c/d" = .ok r' ∧ r.host ≠ r'.host ∧
      signatureUrl store.baseUrl r "sha256:00112233445566778899aabbccddeeff" 9 =
        signatureUrl store.baseUrl r' "sha256:00112233445566778899aabbccddeeff" 9 ∧
      signatureUrl store.baseUrl r "sha256:00112233445566778899aabbccddeeff" 9 ≠
        signatureUrl store.baseUrl r' "sha256+b64.u-x:00112233445566778899aabbccddeeff" 9 ∧
      ∀ get : Text → Act (List Text) Response,
        (∀ url, (∀ i : Nat, signatureUrl store.baseUrl r'
          "sha256+b64.u-x:00112233445566778899aabbccddeeff" i ≠ .ok url) → get url = store.get url) →
        signatures { store with get } r "sha256:00112233445566778899aabbccddeeff" =
          store.signatures r "sha256:00112233445566778899aabbccddeeff" := by
  have hr : parse "a.b/c/d:1" = .ok ⟨"a.b", "c/d", some "1", none⟩ := rfl
  have hr' : parse "e.f:5/c/d" = .ok ⟨"e.f:5", "c/d", none, none⟩ := rfl
  have hd : MayBreak Digest "sha256:00112233445566778899aabbccddeeff" :=
    .inl (digest_of_isDigest (by decide))
  have hd' : MayBreak Digest "sha256+b64.u-x:00112233445566778899aabbccddeeff" :=
    .inl (digest_of_isDigest (by decide))
  let store := ofScript twoSigned "https://s.b" 2 2
  refine ⟨store, _, _, hr, hr', by decide, ?_, ?_, ?_⟩
  · obtain ⟨url, url', hurl, hurl', hiff⟩ := (locations_apart store hr hr' hd hd).1 9 9
    rw [hurl, hurl', hiff.mpr ⟨rfl, rfl, rfl⟩]
  · obtain ⟨url, url', hurl, hurl', hiff⟩ := (locations_apart store hr hr' hd hd').1 9 9
    rw [hurl, hurl']
    intro hsame
    exact absurd (hiff.mp (Except.ok.inj hsame)).2.1 (by decide)
  · exact (locations_apart store hr hr' hd hd').2 fun hboth => absurd hboth.2 (by decide)

end Lookaside

end ImageTrust
