/-
# Bundles — key material put together

Key material is searched for blocks from the front, each time for the next opening marker and
for the next closing one behind it.  The search is not told where a block ends that somebody
appended.  It does not have to be: in clean material no byte outside of the markers is one that
they begin with, so a marker is found where it stands and nowhere before (`cut?_append`), and
the blocks that are found are the blocks that are there (`bodies_of_clean`).

Clean material behind clean material is clean, with the blocks of both.  So the keys of the two
are the keys of the one, in order, and a signature is trusted with both if it is with one of
them; or else some block is no key, and nothing is trusted (`union_of_clean`).
-/
import Mathlib.Data.List.Forall2
import ImageTrust.Proofs.Signing

namespace ImageTrust

variable {σ : Type} {room : Room}

/-! ## Reading one after the other -/

namespace Result

variable {α β ε : Type} {f : α → Except ε β}

theorem mapM_eq_ok_iff {xs : List α} {ys : List β} :
    xs.mapM f = .ok ys ↔ List.Forall₂ (fun x y => f x = .ok y) xs ys := by
  induction xs generalizing ys with
  | nil =>
      rw [List.mapM_nil, List.forall₂_nil_left_iff]
      exact ⟨fun h => (Except.ok.inj h).symm, fun h => congrArg Except.ok h.symm⟩
  | cons x xs ih =>
      rw [List.mapM_cons, List.forall₂_cons_left_iff, bind_eq_ok_iff]
      constructor
      · rintro ⟨y, hy, hrest⟩
        obtain ⟨more, hmore, hys⟩ := bind_eq_ok_iff.mp hrest
        exact ⟨y, more, hy, ih.mp hmore, (Except.ok.inj hys).symm⟩
      · rintro ⟨y, more, hy, hmore, rfl⟩
        exact ⟨y, hy, bind_eq_ok_iff.mpr ⟨more, ih.mpr hmore, rfl⟩⟩

theorem mapM_append_eq_ok_iff {xs xs' : List α} {ys : List β} :
    (xs ++ xs').mapM f = .ok ys ↔
      ∃ first second, xs.mapM f = .ok first ∧ xs'.mapM f = .ok second ∧ ys = first ++ second := by
  rw [List.mapM_append, bind_eq_ok_iff]
  constructor
  · rintro ⟨first, hfirst, hrest⟩
    obtain ⟨second, hsecond, hys⟩ := bind_eq_ok_iff.mp hrest
    exact ⟨first, second, hfirst, hsecond, (Except.ok.inj hys).symm⟩
  · rintro ⟨first, second, hfirst, hsecond, rfl⟩
    exact ⟨first, hfirst, bind_eq_ok_iff.mpr ⟨second, hsecond, rfl⟩⟩

/-- There is a result for all of them if there is one for each. -/
theorem exists_mapM_eq_ok_iff {xs : List α} :
    (∃ ys, xs.mapM f = .ok ys) ↔ ∀ x ∈ xs, ∃ y, f x = .ok y := by
  simp only [mapM_eq_ok_iff]
  induction xs with
  | nil => exact iff_of_true ⟨[], .nil⟩ nofun
  | cons x xs ih =>
      rw [List.forall_mem_cons, ← ih]
      constructor
      · rintro ⟨ys, h⟩
        obtain ⟨y, more, hy, hmore, -⟩ := List.forall₂_cons_left_iff.mp h
        exact ⟨⟨y, hy⟩, ⟨more, hmore⟩⟩
      · rintro ⟨⟨y, hy⟩, ⟨ys, hmore⟩⟩
        exact ⟨y :: ys, .cons hy hmore⟩

theorem exists_eq_error_iff {x : Except ε α} : (∃ e, x = .error e) ↔ ¬ ∃ a, x = .ok a := by
  cases x <;> simp

end Result

namespace KeyBundle

/-! ## Finding a marker -/

/-- The byte that markers begin with. -/
def dash : UInt8 := 0x2D

section Cuts

variable {marker before after bytes : Bytes}

theorem cut?_append (hmarker : marker.head? = some dash) (hbefore : dash ∉ before) :
    cut? marker (before ++ (marker ++ after)) = some (before, after) := by
  obtain ⟨more, rfl⟩ := List.head?_eq_some_iff.mp hmarker
  induction before with
  | nil =>
      have hprefix : (dash :: more).isPrefixOf (dash :: (more ++ after)) = true :=
        List.isPrefixOf_iff_prefix.mpr (List.prefix_append (dash :: more) after)
      rw [List.nil_append, List.cons_append, cut?, if_pos hprefix, ← List.cons_append,
        List.drop_left]
  | cons b before ih =>
      rw [List.mem_cons, not_or] at hbefore
      have hprefix : ¬ (dash :: more).isPrefixOf (b :: (before ++ (dash :: more ++ after))) = true := by
        intro h
        exact hbefore.1 (List.cons_prefix_cons.mp (List.isPrefixOf_iff_prefix.mp h)).1
      rw [List.cons_append, cut?, if_neg hprefix, ih hbefore.2]
      rfl

theorem cut?_of_not_mem (hmarker : marker.head? = some dash) (hbytes : dash ∉ bytes) :
    cut? marker bytes = none := by
  obtain ⟨more, rfl⟩ := List.head?_eq_some_iff.mp hmarker
  induction bytes with
  | nil => exact if_neg (List.cons_ne_nil _ _)
  | cons b bytes ih =>
      rw [List.mem_cons, not_or] at hbytes
      have hprefix : ¬ (dash :: more).isPrefixOf (b :: bytes) = true := by
        intro h
        exact hbytes.1 (List.cons_prefix_cons.mp (List.isPrefixOf_iff_prefix.mp h)).1
      rw [cut?, if_neg hprefix, ih hbytes.2]
      rfl

end Cuts

/-! ## Clean material -/

/-- Key material that consists of blocks with these texts, in this order, and of bytes between,
before and behind them. Outside of the markers there is nothing that a marker begins with, and no
block is empty. -/
inductive Clean : List Bytes → Bytes → Prop
  | gap {gap : Bytes} (free : dash ∉ gap) : Clean [] gap
  | block {gap body rest : Bytes} {bodies : List Bytes} (free : dash ∉ gap) (inside : dash ∉ body)
      (full : body ≠ []) (more : Clean bodies rest) :
      Clean (body :: bodies)
        (gap ++ (KeyBlock.beginMarker ++ (body ++ (KeyBlock.endMarker ++ rest))))

variable {as bs : List Bytes} {a b gap body rest : Bytes}

theorem Clean.prepend (hgap : dash ∉ gap) (hb : Clean bs b) : Clean bs (gap ++ b) := by
  have hfree : ∀ {other : Bytes}, dash ∉ other → dash ∉ gap ++ other := by
    intro other hother
    rw [List.mem_append, not_or]
    exact ⟨hgap, hother⟩
  cases hb with
  | gap hother => exact .gap (hfree hother)
  | block hother hinside hfull hmore =>
      rw [← List.append_assoc]
      exact .block (hfree hother) hinside hfull hmore

/-- Clean material is put together by writing the one behind the other. -/
theorem Clean.append (ha : Clean as a) (hb : Clean bs b) : Clean (as ++ bs) (a ++ b) := by
  induction ha with
  | gap hgap => exact hb.prepend hgap
  | block hgap hinside hfull _ ih =>
      simp only [List.append_assoc, List.cons_append]
      exact .block hgap hinside hfull ih

theorem takeBody?_block (hgap : dash ∉ gap) (hbody : dash ∉ body) (hfull : body ≠ []) :
    takeBody? (gap ++ (KeyBlock.beginMarker ++ (body ++ (KeyBlock.endMarker ++ rest)))) =
      some (body, rest) := by
  obtain ⟨c, body, rfl⟩ := List.exists_cons_of_ne_nil hfull
  rw [List.mem_cons, not_or] at hbody
  unfold takeBody?
  rw [cut?_append rfl hgap]
  show (cut? KeyBlock.endMarker (body ++ (KeyBlock.endMarker ++ rest))).bind _ = _
  rw [cut?_append rfl hbody.2]
  rfl

theorem takeBody?_gap (hgap : dash ∉ gap) : takeBody? gap = none := by
  unfold takeBody?
  rw [cut?_of_not_mem rfl hgap]
  rfl

theorem bodiesWithin_of_clean {fuel : Nat} (ha : Clean as a) (hfuel : as.length ≤ fuel) :
    bodiesWithin fuel a = as := by
  induction ha generalizing fuel with
  | gap hgap =>
      cases fuel with
      | zero => rfl
      | succ fuel => rw [bodiesWithin, takeBody?_gap hgap]
  | block hgap hinside hfull _ ih =>
      cases fuel with
      | zero => exact absurd hfuel (Nat.not_succ_le_zero _)
      | succ fuel =>
          rw [bodiesWithin, takeBody?_block hgap hinside hfull]
          exact congrArg _ (ih (Nat.le_of_succ_le_succ hfuel))

theorem Clean.length_le (ha : Clean as a) : as.length ≤ a.length := by
  induction ha with
  | gap _ => exact Nat.zero_le _
  | block _ _ hfull _ ih =>
      have hlength := List.length_pos_iff.mpr hfull
      simp only [List.length_append, List.length_cons]
      omega

/-- The blocks that are found are those that are there. -/
theorem bodies_of_clean (ha : Clean as a) : bodies a = as :=
  bodiesWithin_of_clean ha ha.length_le

/-- The key of this block is this one. -/
def IsKey (body : Bytes) (key : PublicKey) : Prop := KeyBlock.ofBody body = .ed25519 key

theorem keyOf_eq_ok_iff {key : PublicKey} : keyOf body = .ok key ↔ IsKey body key := by
  unfold keyOf IsKey
  cases KeyBlock.ofBody body <;> simp

theorem load_of_clean (ha : Clean as a) (has : as ≠ []) : load a = as.mapM keyOf := by
  obtain ⟨body, rest, rfl⟩ := List.exists_cons_of_ne_nil has
  unfold load
  rw [bodies_of_clean ha]

theorem load_eq_ok_iff_of_clean (ha : Clean as a) (has : as ≠ []) {keys : List PublicKey} :
    load a = .ok keys ↔ List.Forall₂ IsKey as keys := by
  rw [load_of_clean ha has, Result.mapM_eq_ok_iff]
  exact ⟨fun h => h.imp fun _ _ => keyOf_eq_ok_iff.mp, fun h => h.imp fun _ _ => keyOf_eq_ok_iff.mpr⟩

theorem load_eq_error_iff_of_clean (ha : Clean as a) (has : as ≠ []) :
    (∃ why, load a = .error why) ↔ ∃ body ∈ as, ∀ key, ¬ IsKey body key := by
  rw [Result.exists_eq_error_iff, load_of_clean ha has, Result.exists_mapM_eq_ok_iff]
  simp only [keyOf_eq_ok_iff, not_forall, exists_prop, not_exists]

end KeyBundle

/-! ## Signatures -/

theorem vouches_append_iff {first second : List PublicKey} {raw : Bytes} {signature : Signature} :
    Vouches room (first ++ second) raw signature ↔
      Vouches room first raw signature ∨ Vouches room second raw signature := by
  constructor
  · rintro ⟨envelope, claims, hread, ⟨key, hkey, hverify⟩, hclaims⟩
    rcases List.mem_append.mp hkey with hkey | hkey
    · exact .inl ⟨envelope, claims, hread, ⟨key, hkey, hverify⟩, hclaims⟩
    · exact .inr ⟨envelope, claims, hread, ⟨key, hkey, hverify⟩, hclaims⟩
  · rintro (⟨envelope, claims, hread, ⟨key, hkey, hverify⟩, hclaims⟩ |
      ⟨envelope, claims, hread, ⟨key, hkey, hverify⟩, hclaims⟩)
    · exact ⟨envelope, claims, hread, ⟨key, List.mem_append_left _ hkey, hverify⟩, hclaims⟩
    · exact ⟨envelope, claims, hread, ⟨key, List.mem_append_right _ hkey, hverify⟩, hclaims⟩

namespace KeyBundle

/-- For clean material of one block at least, and more of it: the keys of both together are those
of the one and those of the other, one for each block and in the order of the blocks. If a block
of either is no Ed25519 key, there are none, and verifying fails for that reason. If there are keys
in both, a signature is verified with both together just if it is with one of them, to the same
claims. -/
theorem union_of_clean {as bs : List Bytes} {a b : Bytes} (ha : Clean as a) (hb : Clean bs b)
    (has : as ≠ []) (hbs : bs ≠ []) :
    (∀ keys, load (a ++ b) = .ok keys ↔
        ∃ first second, load a = .ok first ∧ load b = .ok second ∧ keys = first ++ second) ∧
      (∀ keys, load (a ++ b) = .ok keys ↔ List.Forall₂ IsKey (as ++ bs) keys) ∧
      ((∃ body ∈ as ++ bs, ∀ key, ¬ IsKey body key) →
        ∃ why, load (a ++ b) = .error why ∧ (Fault.unusableKeys why).isA .signatureVerification ∧
          ∀ (raw : Bytes) (room : Room) (v : Nat) (h : Host σ),
            ((Verifier.ed25519 room v).verify raw (a ++ b) h).1 = .error (.unusableKeys why)) ∧
      ∀ first second, load a = .ok first → load b = .ok second →
        ∀ (raw : Bytes) (signature : Signature) (room : Room) (v : Nat) (h h₁ h₂ : Host σ),
          ((Verifier.ed25519 room v).verify raw (a ++ b) h).1 = .ok signature ↔
            ((Verifier.ed25519 room v).verify raw a h₁).1 = .ok signature ∨
              ((Verifier.ed25519 room v).verify raw b h₂).1 = .ok signature := by
  have hab := ha.append hb
  have hne : as ++ bs ≠ [] := List.append_ne_nil_of_left_ne_nil has bs
  have hload : ∀ keys, load (a ++ b) = .ok keys ↔
      ∃ first second, load a = .ok first ∧ load b = .ok second ∧ keys = first ++ second := by
    intro keys
    rw [load_of_clean hab hne, load_of_clean ha has, load_of_clean hb hbs]
    exact Result.mapM_append_eq_ok_iff
  refine ⟨hload, fun keys => load_eq_ok_iff_of_clean hab hne, fun hbad => ?_, ?_⟩
  · obtain ⟨why, hwhy⟩ := (load_eq_error_iff_of_clean hab hne).mpr hbad
    refine ⟨why, hwhy, rfl, fun raw room v h => ?_⟩
    obtain ⟨k, hverify⟩ := Verifier.verify_apply room v raw (a ++ b) h
    rw [hverify, Verifier.claims, hwhy]
    rfl
  · intro first second hfirst hsecond raw signature room v h h₁ h₂
    obtain ⟨k, hverify⟩ := Verifier.verify_apply room v raw (a ++ b) h
    obtain ⟨k₁, hverify₁⟩ := Verifier.verify_apply room v raw a h₁
    obtain ⟨k₂, hverify₂⟩ := Verifier.verify_apply room v raw b h₂
    have hboth := (hload (first ++ second)).mpr ⟨first, second, hfirst, hsecond, rfl⟩
    rw [hverify, hverify₁, hverify₂, Verifier.claims_eq_ok_iff, Verifier.claims_eq_ok_iff,
      Verifier.claims_eq_ok_iff, hboth, hfirst, hsecond]
    simp only [Except.ok.injEq, exists_eq_left', vouches_append_iff]

end KeyBundle

namespace Specimen

/-- The text of the block with the key. -/
def block : Bytes := Text.utf8Bytes <| Text.sentence
  ["MCowBQYDK2VwAyEAA6EHv/POEL4dcN0Y50vA", "mWfk1jCbpQ1fHdyGZBJVMbg="]

/-- The material once more, on a line of its own. -/
def line : Bytes := [0x0A] ++ (keys.utf8Bytes ++ [0x0A])

theorem clean_keys : KeyBundle.Clean [block] keys.utf8Bytes :=
  show KeyBundle.Clean [block]
      ([] ++ (KeyBlock.beginMarker ++ (block ++ (KeyBlock.endMarker ++ [])))) from
    .block (by decide) (by decide) (by decide) (.gap (by decide))

theorem clean_line : KeyBundle.Clean [block] line :=
  (clean_keys.append (.gap (by decide))).prepend (by decide)

theorem load_line : KeyBundle.load line = .ok [key] := by
  rw [KeyBundle.load_of_clean clean_line (List.cons_ne_nil _ _),
    ← KeyBundle.load_of_clean clean_keys (List.cons_ne_nil _ _)]
  exact load_keys

end Specimen

open Specimen in
/-- The key is there twice, and what it vouches for is verified. -/
theorem KeyBundle.union_of_clean_twice :
    Clean [block] keys.utf8Bytes ∧ Clean [block] line ∧ [block] ≠ [] ∧
      load (keys.utf8Bytes ++ line) = .ok [key, key] ∧
      ((Verifier.ed25519 .standard 0).verify stored (keys.utf8Bytes ++ line) host).1 =
        .ok signature := by
  obtain ⟨hload, -, -, hverify⟩ := @union_of_clean Unit _ _ _ _ clean_keys clean_line
    (List.cons_ne_nil _ _) (List.cons_ne_nil _ _)
  refine ⟨clean_keys, clean_line, List.cons_ne_nil _ _,
    (hload _).mpr ⟨[key], [key], load_keys, load_line, rfl⟩, ?_⟩
  exact (hverify _ _ load_keys load_line stored signature .standard 0 host host host).mpr
    (.inl verify_stored)

end ImageTrust
